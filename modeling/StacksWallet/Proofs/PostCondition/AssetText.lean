import StacksWallet.Proofs.Clarity.Principal
import StacksWallet.Proofs.PostCondition.Separation

/-!
# Assets and their texts

The text of an asset is cut at the first two colons, and what stands in front of them is cut at the first dot. An
address has neither, so the dot is always found where it was put. The colons are found where they were put unless two of
them stand together earlier, in the name of the contract or at its end, as names may be made of any characters of ASCII.
Then the text is that of another asset too, of a contract with a shorter name, and this is the one that is read.
-/

namespace StacksWallet.Asset

variable {n : Fin 32} {hash : Hash160}

/-- Two names make an asset of an account. -/
theorem make_eq_ok_iff {u v : Text} {b : Asset} :
    make (.integer n.val) (.bytes hash.val) (.text u) (.text v) = .ok b ↔
      Name.ofDatum "contract_name" (.text u) = .ok b.contract ∧ Name.ofDatum "asset_name" (.text v) = .ok b.name ∧
        b.version = .integer n.val ∧ b.hash = hash := by
  have hhash : Hash160.ofBytes? hash.val = some hash := Hash160.ofBytes?_eq_some_iff.mpr rfl
  constructor
  · intro h
    obtain ⟨contract, hcontract, h⟩ := Outcome.bind_eq_ok.mp h
    obtain ⟨name, hname, h⟩ := Outcome.bind_eq_ok.mp h
    simp only [hhash] at h
    obtain rfl := Except.ok.inj h
    exact ⟨hcontract, hname, rfl, rfl⟩
  · intro h
    obtain ⟨version, bhash, contract, name⟩ := b
    obtain ⟨hcontract, hname, rfl, rfl⟩ := h
    refine Outcome.bind_eq_ok.mpr ⟨contract, hcontract, Outcome.bind_eq_ok.mpr ⟨name, hname, ?_⟩⟩
    simp only [hhash]
    rfl

/-- An asset whose version is an integer below 32 has the text of its contract and its name. -/
theorem text_of_whole {a : Asset} (h : Wire.whole? a.version = some (n.val : Int)) :
    a.text = .ok (Address.text ⟨.whole n, a.hash⟩ ++ "." ++ (a.contract.text ++ ("::" ++ a.name.text))) := by
  have hcontract : Principal.contract a.version (.bytes a.hash.val) (.text a.contract.text) =
      .ok ⟨⟨.whole n, a.hash⟩, some a.contract⟩ := by
    rw [Principal.contract_text h, Name.ofDatum, Name.ofText_text]
    rfl
  refine Outcome.bind_eq_ok.mpr ⟨_, hcontract, congrArg Except.ok ?_⟩
  rw [Principal.text]
  simp only [List.append_assoc]

/-- What stands behind the address and the dot is cut at the first two colons into the names of contract and asset. -/
theorem parse_address_append {t u v : Text} (h : Text.cut? "::" t = some (u, v)) :
    parse (Address.text ⟨.whole n, hash⟩ ++ "." ++ t) =
      make (.integer n.val) (.bytes hash.val) (.text u) (.text v) := by
  have hcolon : (58 : CodePoint) ∉ Address.text ⟨.whole n, hash⟩ ++ "." := by
    rw [List.mem_append, not_or]
    exact ⟨fun hmem => absurd (Address.mem_alphabet_of_mem_text _ 58 hmem) (by decide), by decide⟩
  have hcut : Text.cut? "::" (Address.text ⟨.whole n, hash⟩ ++ "." ++ t) =
      some (Address.text ⟨.whole n, hash⟩ ++ "." ++ u, v) :=
    (Text.cut?_append_left hcolon [58] t).trans (congrArg _ h)
  have hdot : Text.cut? "." (Address.text ⟨.whole n, hash⟩ ++ "." ++ u) = some (Address.text ⟨.whole n, hash⟩, u) := by
    rw [List.append_assoc]
    exact Text.cut?_append (Address.dot_not_mem_text _) u
  rw [parse, hcut]
  dsimp only
  rw [hdot]
  change (Address.parseParts (Address.text ⟨.whole n, hash⟩) >>= fun parts =>
    make (.integer parts.1.val) (.bytes parts.2.val) (.text u) (.text v)) = _
  rw [Address.parseParts_text]
  rfl

/-- The text of an asset whose version is an integer below 32 spells this asset if and only if no two colons stand
together in the name of its contract followed by a colon. Whatever the text spells is an asset of the same account that
has the same text, of a contract whose name begins the name of the contract. -/
theorem text_spells_iff {a : Asset} (h : Wire.whole? a.version = some (n.val : Int)) :
    ∃ t, a.text = .ok t ∧
      ((∃ b, parse t = .ok b ∧ b.equal a = true) ↔ ¬ ("::" : Text) <:+: a.contract.text ++ (":" : Text)) ∧
        ∀ b, parse t = .ok b → b.version = .integer n.val ∧ b.hash = a.hash ∧ b.text = .ok t ∧
          b.contract.text <+: a.contract.text := by
  have hcolons : ("::" : Text) ≠ [] := List.cons_ne_nil _ _
  obtain ⟨u, v, hcut⟩ : ∃ u v, Text.cut? "::" (a.contract.text ++ ("::" ++ a.name.text)) = some (u, v) :=
    Text.exists_cut? hcolons ((List.prefix_append _ _).isInfix.trans (List.suffix_append _ _).isInfix)
  obtain ⟨hshown, hfirst⟩ := (Text.cut?_eq_some_iff hcolons).mp hcut
  have hread : parse (Address.text ⟨.whole n, a.hash⟩ ++ "." ++ (a.contract.text ++ ("::" ++ a.name.text))) =
      make (.integer n.val) (.bytes a.hash.val) (.text u) (.text v) := parse_address_append hcut
  refine ⟨_, text_of_whole h, ?_, fun b hb => ?_⟩
  · constructor
    · rintro ⟨b, hb, hequal⟩
      obtain ⟨hcontract, -⟩ := make_eq_ok_iff.mp (hread.symm.trans hb)
      simp only [equal, Bool.and_eq_true, beq_iff_eq] at hequal
      rw [← hequal.1.2, Name.text_of_ofDatum hcontract]
      exact hfirst
    · intro hapart
      obtain ⟨rfl, rfl⟩ : a.contract.text = u ∧ a.name.text = v := by
        have hcut' : Text.cut? "::" (a.contract.text ++ ("::" ++ a.name.text)) = some (a.contract.text, a.name.text) :=
          (Text.cut?_eq_some_iff hcolons).mpr ⟨rfl, hapart⟩
        exact Prod.mk.inj (Option.some.inj (hcut'.symm.trans hcut))
      refine ⟨⟨.integer n.val, a.hash, a.contract, a.name⟩, hread.trans (make_eq_ok_iff.mpr ⟨?_, ?_, rfl, rfl⟩), ?_⟩
      · rw [Name.ofDatum, Name.ofText_text]
        rfl
      · rw [Name.ofDatum, Name.ofText_text]
        rfl
      · have hinteger : (Datum.integer n.val).integral? = some (n.val : Int) := rfl
        simp [equal, sameVersion, integral?_of_whole h, hinteger]
  · obtain ⟨hcontract, hname, hversion, hhash⟩ := make_eq_ok_iff.mp (hread.symm.trans hb)
    have hu := Name.text_of_ofDatum hcontract
    refine ⟨hversion, hhash, ?_, hu ▸ Text.prefix_of_cut? hcolons hcut⟩
    have hwhole : Wire.whole? b.version = some (n.val : Int) := by rw [hversion, Wire.whole?]
    rw [text_of_whole hwhole, hhash, hu, Name.text_of_ofDatum hname, hshown]

/-- A token of a contract with single colons in its name, whose version was given as a truth value. -/
def colonedToken : Asset := ⟨.flag true, .zero, ⟨":a:b", by decide⟩, ⟨":c::", by decide⟩⟩

/-- Single colons in the name of the contract, and any in the name of the token, are found where they were put. -/
theorem text_spells_colonedToken :
    colonedToken.text = .ok ("S100000000000000000000J197CZ.:a:b:::c::" : Text) ∧
      ∃ b, parse "S100000000000000000000J197CZ.:a:b:::c::" = .ok b ∧ b.equal colonedToken = true := by
  have hversion : Wire.whole? colonedToken.version = some ((1 : Fin 32).val : Int) := rfl
  have htext : colonedToken.text = .ok ("S100000000000000000000J197CZ.:a:b:::c::" : Text) :=
    (text_of_whole hversion).trans (congrArg Except.ok (by decide +kernel))
  obtain ⟨t, ht, hspells, -⟩ := text_spells_iff hversion
  obtain rfl := Except.ok.inj (htext.symm.trans ht)
  exact ⟨htext, hspells.mpr (by decide)⟩

/-- A token of a contract that has two colons in its name. -/
def splitToken : Asset := ⟨.integer 22, .zero, ⟨"a::b", by decide⟩, ⟨"c", by decide⟩⟩

/-- A token of a contract that has a colon at the end of its name. -/
def closedToken : Asset := ⟨.integer 22, .zero, ⟨"a:", by decide⟩, ⟨"c", by decide⟩⟩

/-- The text of either token is read as a token of another contract, whose name is a single letter. -/
theorem colons_misread :
    (∃ t b, splitToken.text = .ok t ∧ parse t = .ok b ∧ b.contract.text = ("a" : Text) ∧ b.name.text = ("b::c" : Text) ∧
        b.equal splitToken = false) ∧
      ∃ t b, closedToken.text = .ok t ∧ parse t = .ok b ∧ b.contract.text = ("a" : Text) ∧ b.name.text = (":c" : Text) ∧
        b.equal closedToken = false := by
  have hsplit : Wire.whole? splitToken.version = some ((22 : Fin 32).val : Int) := rfl
  have hclosed : Wire.whole? closedToken.version = some ((22 : Fin 32).val : Int) := rfl
  have hread {t u v : Text} {b : Asset} (hcut : Text.cut? "::" t = some (u, v))
      (hmake : make (.integer 22) (.bytes (Bytes.zeros 20)) (.text u) (.text v) = .ok b) :
      parse (Address.text ⟨.whole 22, .zero⟩ ++ "." ++ t) = .ok b :=
    (parse_address_append hcut).trans hmake
  refine ⟨⟨_, ⟨.integer 22, .zero, ⟨"a", admits_a⟩, ⟨"b::c", by decide⟩⟩, text_of_whole hsplit, ?_, rfl, rfl,
    by decide⟩, _, ⟨.integer 22, .zero, ⟨"a", admits_a⟩, ⟨":c", by decide⟩⟩, text_of_whole hclosed, ?_, rfl, rfl,
    by decide⟩
  · exact hread (u := "a") (v := "b::c") (by decide) rfl
  · exact hread (u := "a") (v := ":c") (by decide) rfl

end StacksWallet.Asset
