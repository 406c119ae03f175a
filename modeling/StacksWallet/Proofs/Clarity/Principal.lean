import StacksWallet.Proofs.Address.RoundTrip
import StacksWallet.Proofs.Clarity.Encodable
import StacksWallet.Proofs.Text.Basic

/-!
# Principals and their texts

The text of a principal whose version is a whole number spells this principal and no other one. An address has no dot,
so that the name of a contract is found behind the first one, whatever the name may be. A version that was given with a
fraction is shown as its whole part, and the text spells the principal with that one.

In the other direction a principal is written as the text that it was read from, apart from the letters in front of the
first dot: these come out as capitals, and look-alikes as the figures that they stand for.
-/

namespace StacksWallet

/-- The text of an address is made of figures. -/
theorem Address.mem_alphabet_of_mem_text (a : Address) : ∀ c ∈ a.text, c ∈ C32.alphabet := by
  rw [Address.text, Address.render_eq, List.forall_mem_cons, List.forall_mem_cons]
  exact ⟨by decide, C32.mem_alphabet_iff.mpr ⟨a.version.toFin, rfl⟩, C32.mem_alphabet_of_mem_encode _⟩

/-- The text of an address has no dot. -/
theorem Address.dot_not_mem_text (a : Address) : (46 : CodePoint) ∉ a.text := fun h =>
  absurd (a.mem_alphabet_of_mem_text 46 h) (by decide)

/-- The text of an address with a whole version is read as its version and hash. -/
theorem Address.parseParts_text (n : Fin 32) (hash : Hash160) :
    parseParts (text ⟨.whole n, hash⟩) = .ok (n, hash) :=
  parseParts_eq_ok_iff.mpr ⟨opens_render n hash.val, normalize_render n hash.val⟩

/-- A name is the text that it is made of. -/
theorem Name.text_of_ofDatum {field t : Text} {n : Name} (h : ofDatum field (.text t) = .ok n) : n.text = t := by
  rw [ofDatum, ofText] at h
  split at h
  · obtain rfl := Except.ok.inj h
    rfl
  · split at h
    · cases h
    · cases h

namespace Principal

/-- The parts of a text are version and hash of the address that it spells. -/
theorem partsOf_eq_ok_iff {t : Text} {version hash : Datum} :
    partsOf (.plain (.text t)) = .ok (version, hash) ↔
      ∃ n h, Address.parseParts t = .ok (n, h) ∧ version = .integer n.val ∧ hash = .bytes h.val := by
  constructor
  · intro h
    obtain ⟨t', ht, h⟩ := Outcome.bind_eq_ok.mp h
    obtain rfl := Except.ok.inj ht
    obtain ⟨⟨n, b⟩, hparse, h⟩ := Outcome.bind_eq_ok.mp h
    obtain ⟨rfl, rfl⟩ := Prod.mk.inj (Except.ok.inj h)
    exact ⟨n, b, hparse, rfl, rfl⟩
  · rintro ⟨n, b, hparse, rfl, rfl⟩
    exact Outcome.bind_eq_ok.mpr ⟨t, rfl, Outcome.bind_eq_ok.mpr ⟨_, hparse, rfl⟩⟩

/-- The parts of an account's text are its version and hash. -/
theorem partsOf_text (n : Fin 32) (hash : Hash160) :
    partsOf (.plain (.text (Address.text ⟨.whole n, hash⟩))) = .ok (.integer n.val, .bytes hash.val) :=
  partsOf_eq_ok_iff.mpr ⟨n, hash, Address.parseParts_text n hash, rfl, rfl⟩

/-- A text makes a contract of an account if it makes a name. -/
theorem contract_text {d : Datum} {n : Fin 32} (h : Wire.whole? d = some (n.val : Int)) (hash : Hash160) (t : Text) :
    contract d (.bytes hash.val) (.text t) =
      (Name.ofDatum "contract_name" (.text t)).map fun name => ⟨⟨.whole n, hash⟩, some name⟩ := by
  rw [contract, Value.accountOf_of_whole h]
  cases Name.ofDatum "contract_name" (.text t) <;> rfl

/-- What stands behind the dot is taken as a name, whatever it is. -/
theorem parse_address_append (n : Fin 32) (hash : Hash160) (t : Text) :
    parse (Address.text ⟨.whole n, hash⟩ ++ "." ++ t) =
      (Name.ofDatum "contract_name" (.text t)).map fun name => ⟨⟨.whole n, hash⟩, some name⟩ := by
  have hcut : Text.cut? "." (Address.text ⟨.whole n, hash⟩ ++ "." ++ t) =
      some (Address.text ⟨.whole n, hash⟩, t) := by
    rw [List.append_assoc]
    exact Text.cut?_append (Address.dot_not_mem_text ⟨.whole n, hash⟩) t
  rw [parse, hcut]
  dsimp only
  rw [ofContract, partsOf_text]
  exact contract_text rfl hash t

/-- The principal with the whole part of its version, which is the part that its text shows. -/
def truncated (p : Principal) : Principal := ⟨⟨.whole p.account.version.toFin, p.account.hash⟩, p.contract?⟩

/-- A whole version has no other part. -/
theorem truncated_eq_self {p : Principal} (h : p.account.version.Whole) : p.truncated = p := by
  obtain ⟨n, hversion⟩ := h
  obtain ⟨⟨version, hash⟩, contract?⟩ := p
  obtain rfl : version = .whole n := hversion
  rfl

/-- The text of a principal spells it, apart from the fraction of its version. -/
theorem parse_text_truncated (p : Principal) : parse p.text = .ok p.truncated := by
  obtain ⟨⟨version, hash⟩, contract?⟩ := p
  cases contract? with
  | none =>
    have hcut : Text.cut? "." (Address.text ⟨version, hash⟩) = none :=
      Text.cut?_eq_none (Address.dot_not_mem_text ⟨version, hash⟩)
    rw [parse, text]
    dsimp only
    rw [hcut]
    exact Outcome.bind_eq_ok.mpr ⟨_, partsOf_text version.toFin hash, Value.standard_whole version.toFin hash⟩
  | some name =>
    refine (parse_address_append version.toFin hash name.text).trans ?_
    rw [Name.ofDatum, Name.ofText_text]
    rfl

/-- The text of a principal with a whole version spells it. -/
theorem parse_text {p : Principal} (h : p.account.version.Whole) : parse p.text = .ok p :=
  (parse_text_truncated p).trans (congrArg Except.ok (truncated_eq_self h))

/-- What a text spells has a whole version. -/
theorem whole_of_parse {t : Text} {p : Principal} (h : parse t = .ok p) : p.account.version.Whole := by
  unfold parse at h
  split at h
  · rename_i address name hcut
    obtain ⟨⟨_, _⟩, hparts, h⟩ := Outcome.bind_eq_ok.mp h
    obtain ⟨n, hash, -, rfl, rfl⟩ := partsOf_eq_ok_iff.mp hparts
    obtain ⟨_, -, rfl⟩ := Outcome.map_eq_ok.mp ((contract_text (d := .integer n.val) rfl hash name).symm.trans h)
    exact ⟨n, rfl⟩
  · obtain ⟨⟨_, _⟩, hparts, h⟩ := Outcome.bind_eq_ok.mp h
    obtain ⟨n, hash, -, rfl, rfl⟩ := partsOf_eq_ok_iff.mp hparts
    obtain rfl := Except.ok.inj ((Value.standard_whole n hash).symm.trans h)
    exact ⟨n, rfl⟩

/-- A principal that is read is written as the text is, with the address in front of the first dot in normal form. -/
theorem text_of_parse {t : Text} {p : Principal} (h : parse t = .ok p) :
    p.text = C32.normalize (t.takeWhile (· != 46)) ++ t.dropWhile (· != 46) := by
  by_cases hdot : (46 : CodePoint) ∈ t
  · have hcut : Text.cut? "." t = some (t.takeWhile (· != 46), (t.dropWhile (· != 46)).tail) := Text.cut?_of_mem hdot
    rw [parse, hcut] at h
    obtain ⟨⟨_, _⟩, hparts, h⟩ := Outcome.bind_eq_ok.mp h
    obtain ⟨n, hash, hparse, rfl, rfl⟩ := partsOf_eq_ok_iff.mp hparts
    obtain ⟨name, hname, rfl⟩ := Outcome.map_eq_ok.mp ((contract_text rfl hash _).symm.trans h)
    have hrest : t.dropWhile (· != 46) = 46 :: (t.dropWhile (· != 46)).tail :=
      List.append_cancel_left (List.takeWhile_append_dropWhile.trans
        ((Text.cut?_eq_some_iff (List.cons_ne_nil 46 [])).mp hcut).1)
    rw [hrest, (Address.parseParts_eq_ok_iff.mp hparse).2, ← Name.text_of_ofDatum hname]
    exact List.append_assoc _ _ _
  · have hcut : Text.cut? "." t = none := Text.cut?_eq_none hdot
    rw [parse, hcut] at h
    obtain ⟨⟨_, _⟩, hparts, h⟩ := Outcome.bind_eq_ok.mp h
    obtain ⟨n, hash, hparse, rfl, rfl⟩ := partsOf_eq_ok_iff.mp hparts
    obtain rfl := Except.ok.inj ((Value.standard_whole n hash).symm.trans h)
    have hall : ∀ c ∈ t, (c != 46) = true := fun c hc => bne_iff_ne.mpr fun h => hdot (h ▸ hc)
    rw [List.takeWhile_eq_self_iff.mpr hall, List.dropWhile_eq_nil_iff.mpr hall, List.append_nil,
      (Address.parseParts_eq_ok_iff.mp hparse).2]
    rfl

/-- Principals and their texts correspond. What is made of a version without a fraction is spelled by its text. Whatever
is spelled by a text is written as this text is, where the part in front of the first dot is put in capitals, with zero
for O and one for I and L. -/
theorem texts_correspond :
    (∀ (version hash : Datum) (p : Principal), (∀ x, version ≠ .real x) →
        (standard version hash = .ok p ∨ ∃ name, contract version hash name = .ok p) → parse p.text = .ok p) ∧
      ∀ (t : Text) (p : Principal), parse t = .ok p →
        p.text = ((Text.upper (t.takeWhile (· != 46))).map fun c =>
          if c = 79 then 48 else if c = 73 ∨ c = 76 then 49 else c) ++ t.dropWhile (· != 46) := by
  constructor
  · intro version hash p hversion hmade
    have haccount : accountOf version hash = .ok p.account := by
      rcases hmade with h | ⟨name, h⟩
      · obtain ⟨account, haccount, h⟩ := Outcome.bind_eq_ok.mp h
        obtain rfl := Except.ok.inj h
        exact haccount
      · obtain ⟨account, haccount, h⟩ := Outcome.bind_eq_ok.mp h
        obtain ⟨_, -, h⟩ := Outcome.bind_eq_ok.mp h
        obtain rfl := Except.ok.inj h
        exact haccount
    exact parse_text ((whole_iff_of_accountOf haccount).mpr hversion)
  · intro t p h
    rw [text_of_parse h, C32.normalize]
    congr 1
    refine List.map_congr_left fun c _ => ?_
    simp only [C32.canonical, Bool.or_eq_true, decide_eq_true_eq]

/-- 22 is the version of accounts with a single key. -/
theorem single_lt : 22 < 32 := by decide

/-- A contract whose name begins with a dot. -/
def dottedContract : Principal := ⟨⟨.whole ⟨22, single_lt⟩, .zero⟩, some ⟨".o", by decide⟩⟩

/-- The contract is made and spelled by its text, and it is found behind small letters and look-alikes. Written again,
it has the capitals and figures that were meant, while its name is left alone. -/
theorem texts_correspond_lookalikes :
    contract (.integer 22) (.bytes (Bytes.zeros 20)) (.text ".o") = .ok dottedContract ∧
      parse dottedContract.text = .ok dottedContract ∧
        parse "spO0o000000000000000002q6vf78..o" = .ok dottedContract ∧
          dottedContract.text = ("SP000000000000000000002Q6VF78..o" : Text) := by
  have hmade : contract (.integer 22) (.bytes (Bytes.zeros 20)) (.text ".o") = .ok dottedContract := rfl
  have hparse : parse "spO0o000000000000000002q6vf78..o" = .ok dottedContract := by
    have hparts : Address.parseParts "spO0o000000000000000002q6vf78" = .ok (22, .zero) :=
      Address.parseParts_eq_ok_iff.mpr ⟨⟨115, 112, _, 80, rfl, .inr rfl, by decide⟩, by decide +kernel⟩
    have hcut : Text.cut? "." "spO0o000000000000000002q6vf78..o" =
      some (("spO0o000000000000000002q6vf78" : Text), (".o" : Text)) := by decide +kernel
    rw [parse, hcut]
    exact Outcome.bind_eq_ok.mpr ⟨_, partsOf_eq_ok_iff.mpr ⟨_, _, hparts, rfl, rfl⟩, hmade⟩
  refine ⟨hmade, texts_correspond.1 _ _ _ (fun _ => by simp) (.inr ⟨_, hmade⟩), hparse, ?_⟩
  rw [texts_correspond.2 _ _ hparse]
  decide +kernel

end Principal

end StacksWallet
