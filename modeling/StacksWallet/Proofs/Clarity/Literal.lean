import StacksWallet.Clarity.Literal
import StacksWallet.Proofs.Address.Alphabet
import StacksWallet.Proofs.Bytes.Hex
import StacksWallet.Proofs.Clarity.Principal
import StacksWallet.Proofs.Number.Numeral

/-!
# Literals and the texts of values

Values that are no composites are written as literals, but the reader of literals does not take back all that the writer
does. The writer guards quotation marks and backslashes in a string by a backslash, which the reader keeps. The reader
drops blanks around a literal, also those that a contract has at the end of its name. All other literals are read as
what they were written for, apart from the fraction of a version, which is not written at all.
-/

namespace StacksWallet

namespace Value

mutual

/-- The value with the whole parts of all versions in it. -/
def truncated : Value → Value
  | principal p => principal p.truncated
  | some v => some (truncated v)
  | ok v => ok (truncated v)
  | err v => err (truncated v)
  | list items => list (truncatedItems items)
  | tuple fields => tuple (truncatedFields fields)
  | v => v

/-- Several values with the whole parts of all versions in them. -/
def truncatedItems : List Value → List Value
  | [] => []
  | v :: rest => truncated v :: truncatedItems rest

/-- Several fields with the whole parts of all versions in them. -/
def truncatedFields : List (Name × Value) → List (Name × Value)
  | [] => []
  | (key, v) :: rest => (key, truncated v) :: truncatedFields rest

end

/-- Versions are truncated item by item. -/
theorem truncatedItems_eq (items : List Value) : truncatedItems items = items.map truncated := by
  induction items with
  | nil => rfl
  | cons v rest ih => rw [truncatedItems, ih, List.map_cons]

/-- Versions are truncated field by field. -/
theorem truncatedFields_eq (fields : List (Name × Value)) :
    truncatedFields fields = fields.map fun f => (f.1, truncated f.2) := by
  induction fields with
  | nil => rfl
  | cons f rest ih => rw [truncatedFields, ih, List.map_cons]

/-- Whole versions have no other part. -/
theorem truncated_eq_self {v : Value} (h : v.Versioned) : v.truncated = v := by
  unfold Versioned at h
  induction v with
  | int | uint | bool | buffer | ascii | utf8 | none => rfl
  | principal p => exact congrArg principal (Principal.truncated_eq_self (h p (by simp [parts])))
  | some v ih => exact congrArg some (ih fun p hp => h p (List.mem_cons_of_mem _ hp))
  | ok v ih => exact congrArg ok (ih fun p hp => h p (List.mem_cons_of_mem _ hp))
  | err v ih => exact congrArg err (ih fun p hp => h p (List.mem_cons_of_mem _ hp))
  | list items ih =>
    have hitems : ∀ w ∈ itemsParts items, ∀ p, principal p = w → p.account.version.Whole :=
      fun w hw p hp => h p (List.mem_cons_of_mem _ (hp ▸ hw))
    rw [truncated, truncatedItems_eq]
    refine congrArg list ((List.map_congr_left fun v hv => ?_).trans (List.map_id items))
    exact ih v hv fun p hp => forall_itemsParts.mp hitems v hv _ hp p rfl
  | tuple fields ih =>
    have hfields : ∀ w ∈ fieldsParts fields, ∀ p, principal p = w → p.account.version.Whole :=
      fun w hw p hp => h p (List.mem_cons_of_mem _ (hp ▸ hw))
    have hsame : ∀ f ∈ fields, (f.1, truncated f.2) = id f := fun f hf =>
      Prod.ext rfl (ih f hf fun p hp => forall_fieldsParts.mp hfields f hf _ hp p rfl)
    rw [truncated, truncatedFields_eq]
    exact congrArg tuple ((List.map_congr_left hsame).trans (List.map_id fields))

/-- A character with a backslash in front of it if it is a backslash or a quotation mark. -/
def guard (c : CodePoint) : Text := if c == 92 || c == 34 then [92, c] else [c]

/-- A text with its guards. -/
def guarded (t : Text) : Text := t.flatMap guard

/-- The guards of a text are those of its characters. -/
theorem guarded_cons (c : CodePoint) (rest : Text) : guarded (c :: rest) = guard c ++ guarded rest := List.flatMap_cons

/-- What stands between the quotation marks is guarded. -/
theorem quote_eq (t : Text) : quote t = 34 :: (guarded t ++ [34]) := rfl

/-- Nothing but backslashes is added. -/
theorem mem_guarded {t : Text} {c : CodePoint} (h : c ∈ guarded t) : c ∈ t ∨ c = 92 := by
  obtain ⟨d, hd, hc⟩ := List.mem_flatMap.mp h
  unfold guard at hc
  split at hc
  · rcases List.mem_cons.mp hc with hc | hc
    · exact .inr hc
    · exact .inl (List.mem_singleton.mp hc ▸ hd)
  · exact .inl (List.mem_singleton.mp hc ▸ hd)

/-- Nothing is taken away. -/
theorem length_le_guarded (t : Text) : t.length ≤ (guarded t).length := by
  induction t with
  | nil => exact Nat.le_refl 0
  | cons c rest ih =>
    rw [guarded_cons, List.length_append, List.length_cons, guard]
    split
    · rw [List.length_cons, List.length_singleton]
      omega
    · rw [List.length_singleton]
      omega

/-- A text stays as it is if it has neither backslashes nor quotation marks. -/
theorem guarded_eq_self_iff {t : Text} : guarded t = t ↔ ∀ c ∈ t, c ≠ 92 ∧ c ≠ 34 := by
  induction t with
  | nil => exact ⟨fun _ => List.forall_mem_nil _, fun _ => rfl⟩
  | cons c rest ih =>
    rw [guarded_cons, List.forall_mem_cons, ← ih, guard]
    by_cases hc : c = 92 ∨ c = 34
    · -- Then the text is longer than before.
      have hmark : (c == 92 || c == 34) = true := by simpa using hc
      rw [if_pos hmark]
      constructor
      · intro h
        have hlength := congrArg List.length h
        have hrest := length_le_guarded rest
        simp only [List.cons_append, List.nil_append, List.length_cons] at hlength
        omega
      · rintro ⟨⟨hslash, hquote⟩, -⟩
        rcases hc with hc | hc
        · exact absurd hc hslash
        · exact absurd hc hquote
    · have hmark : ¬ (c == 92 || c == 34) = true := by simpa using hc
      rw [if_neg hmark, List.singleton_append, List.cons.injEq, and_iff_right rfl, and_iff_right (not_or.mp hc)]

/-- An ASCII string stays one when it is guarded. -/
theorem isPlain_guarded (t : AsciiText) : ((guarded t.val).all fun c => isPlain c.val) = true := by
  refine List.all_eq_true.mpr fun c hc => ?_
  rcases mem_guarded hc with hc | rfl
  · exact List.all_eq_true.mp t.property c hc
  · rfl

/-- A UTF-8 string stays one when it is guarded. -/
theorem not_isSurrogate_guarded (t : Utf8Text) : ((guarded t.val).all fun c => !c.isSurrogate) = true := by
  refine List.all_eq_true.mpr fun c hc => ?_
  rcases mem_guarded hc with hc | rfl
  · exact List.all_eq_true.mp t.property c hc
  · rfl

/-- The words that are literals. -/
theorem words_eq : Text.ofString "true" = [116, 114, 117, 101] ∧ Text.ofString "false" = [102, 97, 108, 115, 101] ∧
    Text.ofString "none" = [110, 111, 110, 101] := ⟨rfl, rfl, rfl⟩

/-- The marks by which literals are told apart. -/
theorem marks_eq : Text.ofString "u\"" = [117, 34] ∧ Text.ofString "\"" = [34] ∧ Text.ofString "0x" = [48, 120] ∧
    Text.ofString "u" = [117] := ⟨rfl, rfl, rfl, rfl⟩

section Reading

variable {given t : Text}

/-- What stands between quotation marks is an ASCII string. -/
theorem ofLiteral_of_quoted (h : given.strip = 34 :: (t ++ [34])) : ofLiteral given = ofAscii (.text t) := by
  rw [ofLiteral, h]
  simp [words_eq, marks_eq, Text.startsWith, Text.endsWith, between]

/-- What stands between quotation marks behind a letter u is a UTF-8 string. -/
theorem ofLiteral_of_u_quoted (h : given.strip = 117 :: 34 :: (t ++ [34])) : ofLiteral given = ofUtf8 (.text t) := by
  have hending : [34].isSuffixOf (117 :: 34 :: (t ++ [34])) = true :=
    List.isSuffixOf_iff_suffix.mpr ⟨117 :: 34 :: t, rfl⟩
  rw [ofLiteral, h]
  simp [words_eq, marks_eq, Text.startsWith, Text.endsWith, between, hending]

/-- What stands behind a zero and an x is a buffer. -/
theorem ofLiteral_of_hex (h : given.strip = 48 :: 120 :: t) : ofLiteral given = ofBuffer (.text (48 :: 120 :: t)) := by
  rw [ofLiteral, h]
  simp [words_eq, marks_eq, Text.startsWith]

/-- Digits are a number. -/
theorem isNumeric_of_all (hsome : t ≠ []) (hdigits : ∀ c ∈ t, c.isAsciiDigit = true) : isNumeric t = true := by
  have hall : t.all CodePoint.isDigit = true := by
    refine List.all_eq_true.mpr fun c hc => ?_
    rw [CodePoint.isDigit, CodePoint.decimalDigit?, if_pos (isAscii_of_isAsciiDigit (hdigits c hc)).1,
      if_pos (hdigits c hc)]
    rfl
  rw [isNumeric, hall]
  simpa using hsome

/-- Digits behind a letter u are an unsigned integer. -/
theorem ofLiteral_of_u_digits (h : given.strip = 117 :: t) (hsome : t ≠ []) (hdigits : ∀ c ∈ t, c.isAsciiDigit = true) :
    ofLiteral given = (Datum.readInt t >>= fun n => ofUInt (.integer n)) := by
  obtain ⟨d, rest, rfl⟩ := List.exists_cons_of_ne_nil hsome
  have hquote : (34 : CodePoint) ≠ d := by
    rintro rfl
    nomatch hdigits 34 List.mem_cons_self
  rw [ofLiteral, h]
  simp [words_eq, marks_eq, Text.startsWith, isNumeric_of_all hsome hdigits, hquote]

/-- Digits behind any minus signs are a signed integer. -/
theorem ofLiteral_of_digits (h : given.strip = t) (hchars : ∀ c ∈ t, c = 45 ∨ c.isAsciiDigit = true)
    (hnumeric : isNumeric (t.dropWhile (· == 45)) = true) :
    ofLiteral given = (Datum.readInt t >>= fun n => ofInt (.integer n)) := by
  have hforeign (c : CodePoint) (hc : (c == 45 || c.isAsciiDigit) = false) : c ∉ t := by
    intro hmem
    rw [Bool.or_eq_false_iff, beq_eq_false_iff_ne, Bool.eq_false_iff] at hc
    exact (hchars c hmem).elim hc.1 hc.2
  have hfirst : Text.startsWith t "u\"" = false ∧ Text.startsWith t "u" = false :=
    ⟨Text.startsWith_eq_false (c := 117) (by decide) (hforeign 117 rfl),
      Text.startsWith_eq_false (c := 117) (by decide) (hforeign 117 rfl)⟩
  have hquote : Text.startsWith t "\"" = false := Text.startsWith_eq_false (c := 34) (by decide) (hforeign 34 rfl)
  have hhex : Text.startsWith t "0x" = false := Text.startsWith_eq_false (c := 120) (by decide) (hforeign 120 rfl)
  have hwords : t ≠ Text.ofString "true" ∧ t ≠ Text.ofString "false" ∧ t ≠ Text.ofString "none" := by
    refine ⟨?_, ?_, ?_⟩
    · rintro rfl
      exact hforeign 116 rfl (by decide)
    · rintro rfl
      exact hforeign 102 rfl (by decide)
    · rintro rfl
      exact hforeign 110 rfl (by decide)
  rw [ofLiteral, h]
  simp [hwords, hfirst, hquote, hhex, hnumeric]

/-- What begins with the letter S is a principal if an address stands in front of the first dot. -/
theorem ofLiteral_of_address (h : given.strip = 83 :: t)
    (haddress : Address.isValid (.text ((83 :: t).takeWhile (· != 46))) = true) :
    ofLiteral given = (Principal.parse (83 :: t)).map principal := by
  have hdigit : CodePoint.isDigit 83 = false := by decide
  rw [ofLiteral, h, if_pos haddress]
  simp [words_eq, marks_eq, Text.startsWith, isNumeric, hdigit]

/-- What begins with a parenthesis is no literal. -/
theorem ofLiteral_of_parenthesis (h : given.strip = 40 :: t) :
    ofLiteral given = .error (.argument (.notALiteral given)) := by
  have hdigit : CodePoint.isDigit 40 = false := by decide
  have haddress : ¬ Address.isValid (.text ((40 :: t).takeWhile (· != 46))) = true := by
    rw [Address.isValid_text_iff]
    rintro ⟨⟨version, hash⟩, hparts⟩
    obtain ⟨s, v, rest, _, hopens, hs, -⟩ := (Address.parseParts_eq_ok_iff.mp hparts).1
    rw [List.takeWhile_cons_of_pos (by decide)] at hopens
    obtain ⟨rfl, -⟩ := List.cons.inj hopens
    exact absurd hs (by decide)
  rw [ofLiteral, h, if_neg haddress]
  simp [words_eq, marks_eq, Text.startsWith, isNumeric, hdigit]

end Reading

/-- Figures and capital letters are not blank. -/
theorem isBlank_of_mem_address {a : Address} {c : CodePoint} (h : c ∈ a.text) : c.isBlank = false := by
  have hall : (C32.alphabet.all fun c => !c.isBlank) = true := by decide +kernel
  exact (Bool.not_eq_true' _).mp (List.all_eq_true.mp hall c (Address.mem_alphabet_of_mem_text a c h))

/-- An address begins with the letter S. -/
theorem exists_address_eq (a : Address) : ∃ rest, a.text = 83 :: rest := ⟨_, Address.render_eq ..⟩

/-- Literals of integers lose nothing to the reader: there are no blanks in them. -/
theorem strip_digits {t : Text} (h : ∀ c ∈ t, c = 45 ∨ c = 117 ∨ c.isAsciiDigit = true) : t.strip = t := by
  refine Text.trim_eq_self fun c hc => CodePoint.isBlank_eq_false ?_
  rcases h c hc with rfl | rfl | hdigit
  · decide
  · decide
  · simp only [CodePoint.isAsciiDigit, Bool.and_eq_true, decide_eq_true_eq] at hdigit
    omega

/-- The integers that values hold do not have too many figures to be read. -/
theorem length_le_maxNumeralDigits {n : Nat} (h : n < 2 ^ 128) : (Text.ofNat n).length ≤ maxNumeralDigits := by
  have hsmall : n < 10 ^ 39 := Nat.lt_of_lt_of_le h (by decide)
  exact (Text.length_ofNat_le (by decide) hsmall).trans (by decide)

/-- Signed integers are read again. -/
theorem ofLiteral_int (n : Int128) : ofLiteral (int n).text = .ok (int n) := by
  have hchars := Text.sign_or_digit_of_mem_ofInt n.val
  have hstrip : (int n).text.strip = Text.ofInt n.val := strip_digits fun c hc => (hchars c hc).imp_right .inr
  have hnumeric : isNumeric ((Text.ofInt n.val).dropWhile (· == 45)) = true := by
    obtain ⟨hsome, hdigits⟩ := Text.digits_of_ofNat n.val.natAbs
    have hdrop : (Text.ofInt n.val).dropWhile (· == 45) = Text.ofNat n.val.natAbs := by
      have hminus : (Text.ofNat n.val.natAbs).dropWhile (· == 45) = Text.ofNat n.val.natAbs := by
        obtain ⟨d, rest, hcons⟩ := List.exists_cons_of_ne_nil hsome
        have hd := hdigits d (hcons ▸ List.mem_cons_self)
        rw [hcons]
        refine List.dropWhile_cons_of_neg fun hd' => ?_
        rw [beq_iff_eq.mp hd'] at hd
        nomatch hd
      rw [Text.ofInt_eq]
      split
      · rw [List.singleton_append, List.dropWhile_cons_of_pos (by decide), hminus]
      · exact hminus
    rw [hdrop]
    exact isNumeric_of_all hsome hdigits
  have hread : Datum.readInt (Text.ofInt n.val) = .ok n.val := by
    have hbound := n.property
    rw [Datum.readInt, Numeral.readInt_ofInt (length_le_maxNumeralDigits (by omega))]
  have hmake : ofInt (.integer n.val) = .ok (int n) := by
    rw [ofInt, Int128.ofInt?_eq_some_iff.mpr rfl]
  rw [ofLiteral_of_digits hstrip hchars hnumeric]
  exact Outcome.bind_eq_ok.mpr ⟨_, hread, hmake⟩

/-- Unsigned integers are read again. -/
theorem ofLiteral_uint (n : UInt128) : ofLiteral (uint n).text = .ok (uint n) := by
  obtain ⟨hsome, hdigits⟩ := Text.digits_of_ofNat n.val
  have hstrip : (uint n).text.strip = 117 :: Text.ofNat n.val := strip_digits fun c hc =>
    (List.mem_cons.mp hc).elim (fun hu => .inr (.inl hu)) fun hc => .inr (.inr (hdigits c hc))
  have hread : Datum.readInt (Text.ofNat n.val) = .ok (n.val : Int) := by
    have hnumeral : Numeral.readInt (Text.ofNat n.val) = .ok (n.val : Int) :=
      Numeral.readInt_ofInt (n := (n.val : Int)) (length_le_maxNumeralDigits n.isLt)
    rw [Datum.readInt, hnumeral]
  have hmake : ofUInt (.integer n.val) = .ok (uint n) := by
    rw [ofUInt, below?_eq_some_iff.mpr rfl]
  rw [ofLiteral_of_u_digits hstrip hsome hdigits]
  exact Outcome.bind_eq_ok.mpr ⟨_, hread, hmake⟩

/-- Buffers are read again. -/
theorem ofLiteral_buffer (b : Buffer) : ofLiteral (buffer b).text = .ok (buffer b) := by
  have hstrip : (buffer b).text.strip = 48 :: 120 :: Hex.plain b.val :=
    Text.trim_eq_self fun _ hc => Hex.isBlank_of_mem_prefixed hc
  have hread : Datum.toBytes (.text (48 :: 120 :: Hex.plain b.val)) = .ok b.val := by
    have hprefixed : Hex.read (48 :: 120 :: Hex.plain b.val) = .ok b.val := Hex.read_prefixed b.val
    rw [Datum.toBytes, hprefixed]
    rfl
  have hmake : ofBytes b.val = .ok (buffer b) := dif_pos b.property
  rw [ofLiteral_of_hex hstrip, ofBuffer, hread]
  exact congrArg (Except.mapError Fault.invalid) hmake

/-- The literals without any content are read again. -/
theorem ofLiteral_word : (∀ b, ofLiteral (bool b).text = .ok (bool b)) ∧ ofLiteral none.text = .ok none := by
  refine ⟨fun b => ?_, rfl⟩
  cases b <;> rfl

/-- An ASCII string is read with its guards. -/
theorem ofLiteral_ascii (t : AsciiText) :
    ofLiteral (ascii t).text = .ok (ascii ⟨guarded t.val, isPlain_guarded t⟩) := by
  have hquote : (ascii t).text.strip = 34 :: (guarded t.val ++ [34]) := Text.trim_cons_append rfl rfl (guarded t.val) []
  rw [ofLiteral_of_quoted hquote, ofAscii, dif_pos (isPlain_guarded t)]

/-- A UTF-8 string is read with its guards. -/
theorem ofLiteral_utf8 (t : Utf8Text) :
    ofLiteral (utf8 t).text = .ok (utf8 ⟨guarded t.val, not_isSurrogate_guarded t⟩) := by
  have hquote : (utf8 t).text.strip = 117 :: 34 :: (guarded t.val ++ [34]) :=
    Text.trim_cons_append rfl rfl (34 :: guarded t.val) []
  rw [ofLiteral_of_u_quoted hquote, ofUtf8, dif_pos (not_isSurrogate_guarded t)]

/-- A composite stands between parentheses. -/
theorem ofLiteral_composite {given t : Text} (h : given = 40 :: (t ++ [41])) :
    ofLiteral given = .error (.argument (.notALiteral given)) :=
  ofLiteral_of_parenthesis ((congrArg Text.strip h).trans (Text.trim_cons_append rfl rfl t []))

/-- What is read from the text of a value. -/
def reread : Value → Except Fault Value
  | ascii t => .ok (ascii ⟨guarded t.val, isPlain_guarded t⟩)
  | utf8 t => .ok (utf8 ⟨guarded t.val, not_isSurrogate_guarded t⟩)
  | principal ⟨account, .none⟩ => .ok (principal (Principal.truncated ⟨account, .none⟩))
  | principal ⟨account, .some name⟩ =>
    (Name.ofDatum "contract_name" (.text (name.text.dropEndWhile CodePoint.isBlank))).map fun name =>
      principal (Principal.truncated ⟨account, .some name⟩)
  | some v => .error (.argument (.notALiteral (some v).text))
  | ok v => .error (.argument (.notALiteral (ok v).text))
  | err v => .error (.argument (.notALiteral (err v).text))
  | list items => .error (.argument (.notALiteral (list items).text))
  | tuple fields => .error (.argument (.notALiteral (tuple fields).text))
  | v => .ok v

/-- The characters in front of the first dot are the address, and this is valid. -/
theorem takeWhile_address (a : Address) (t : Text) :
    (a.text ++ 46 :: t).takeWhile (· != 46) = a.text ∧ a.text.takeWhile (· != 46) = a.text ∧
      Address.isValid (.text a.text) = true := by
  have hdot : ∀ c ∈ a.text, (c != 46) = true := fun c hc => bne_iff_ne.mpr fun h => a.dot_not_mem_text (h ▸ hc)
  refine ⟨?_, List.takeWhile_eq_self_iff.mpr hdot, ?_⟩
  · rw [List.takeWhile_append_of_pos hdot, List.takeWhile_cons_of_neg (by decide), List.append_nil]
  · exact Address.isValid_text_iff.mpr ⟨_, Address.parseParts_text a.version.toFin a.hash⟩

/-- An account is read without the fraction of its version. -/
theorem ofLiteral_account (a : Address) :
    ofLiteral (principal ⟨a, .none⟩).text = .ok (principal (Principal.truncated ⟨a, .none⟩)) := by
  obtain ⟨rest, hrest⟩ := exists_address_eq a
  have hstrip : (principal ⟨a, .none⟩).text.strip = 83 :: rest :=
    (Text.trim_eq_self fun _ hc => isBlank_of_mem_address hc).trans hrest
  obtain ⟨-, haddress, hvalid⟩ := takeWhile_address a []
  rw [hrest] at haddress
  rw [ofLiteral_of_address hstrip (by rwa [haddress, ← hrest]), ← hrest]
  exact congrArg (Except.map principal) (Principal.parse_text_truncated ⟨a, .none⟩)

/-- A contract is read without the blanks behind its name and without the fraction of its version. -/
theorem ofLiteral_contract (a : Address) (name : Name) :
    ofLiteral (principal ⟨a, .some name⟩).text =
      (Name.ofDatum "contract_name" (.text (name.text.dropEndWhile CodePoint.isBlank))).map fun name =>
        principal (Principal.truncated ⟨a, .some name⟩) := by
  obtain ⟨rest, hrest⟩ := exists_address_eq a
  have hshown : (principal ⟨a, .some name⟩).text = 83 :: (rest ++ 46 :: name.text) := by
    rw [← List.cons_append, ← hrest]
    exact List.append_assoc _ _ _
  have hstrip : (principal ⟨a, .some name⟩).text.strip =
      83 :: (rest ++ 46 :: name.text.dropEndWhile CodePoint.isBlank) := by
    rw [hshown]
    exact Text.trim_cons_append rfl rfl rest name.text
  obtain ⟨haddress, -, hvalid⟩ := takeWhile_address a (name.text.dropEndWhile CodePoint.isBlank)
  rw [hrest, List.cons_append] at haddress
  have hparse := Principal.parse_address_append a.version.toFin a.hash (name.text.dropEndWhile CodePoint.isBlank)
  have hjoined : Address.text ⟨.whole a.version.toFin, a.hash⟩ ++ "." ++ name.text.dropEndWhile CodePoint.isBlank =
      83 :: (rest ++ 46 :: name.text.dropEndWhile CodePoint.isBlank) := by
    rw [← List.cons_append, ← hrest]
    exact List.append_assoc _ _ _
  rw [hjoined] at hparse
  rw [ofLiteral_of_address hstrip (by rwa [haddress, ← hrest]), hparse]
  cases Name.ofDatum "contract_name" (.text (name.text.dropEndWhile CodePoint.isBlank)) <;> rfl

/-- The text of a value is read as said for its kind. -/
theorem ofLiteral_text (v : Value) : ofLiteral v.text = v.reread := by
  cases v with
  | int n => exact ofLiteral_int n
  | uint n => exact ofLiteral_uint n
  | bool b => exact ofLiteral_word.1 b
  | buffer b => exact ofLiteral_buffer b
  | ascii t => exact ofLiteral_ascii t
  | utf8 t => exact ofLiteral_utf8 t
  | principal p =>
    obtain ⟨account, contract?⟩ := p
    cases contract? with
    | none => exact ofLiteral_account account
    | some name => exact ofLiteral_contract account name
  | none => exact ofLiteral_word.2
  | some | ok | err | list | tuple => exact ofLiteral_composite rfl

/-- Whether the text of a value is a literal that stands for this value: it is no composite, and it has neither guards
between quotation marks nor blanks at the end of a name. -/
def IsLiteral : Value → Prop
  | int _ | uint _ | bool _ | buffer _ | none => True
  | ascii t => ∀ c ∈ t.val, c ≠ 92 ∧ c ≠ 34
  | utf8 t => ∀ c ∈ t.val, c ≠ 92 ∧ c ≠ 34
  | principal p => ∀ name, p.contract? = .some name → ∀ c, name.text.getLast? = .some c → c.isBlank = false
  | some _ | ok _ | err _ | list _ | tuple _ => False

/-- What is read from the text of a value is this value, apart from fractions of versions, if the text is a literal. -/
theorem reread_eq_ok_iff {v : Value} : v.reread = .ok v.truncated ↔ v.IsLiteral := by
  cases v with
  | int | uint | bool | buffer | none => exact ⟨fun _ => trivial, fun _ => rfl⟩
  | ascii t =>
    refine Iff.trans ?_ guarded_eq_self_iff
    constructor
    · intro h
      injection h with h
      injection h with h
      exact congrArg Subtype.val h
    · intro h
      exact congrArg (fun t => Except.ok (ascii t)) (Subtype.ext h)
  | utf8 t =>
    refine Iff.trans ?_ guarded_eq_self_iff
    constructor
    · intro h
      injection h with h
      injection h with h
      exact congrArg Subtype.val h
    · intro h
      exact congrArg (fun t => Except.ok (utf8 t)) (Subtype.ext h)
  | principal p =>
    obtain ⟨account, contract?⟩ := p
    cases contract? with
    | none =>
      refine ⟨fun _ name hname => ?_, fun _ => rfl⟩
      cases hname
    | some name =>
      have hkept : (∀ n, Option.some name = .some n → ∀ c, n.text.getLast? = .some c → c.isBlank = false) ↔
          name.text.dropEndWhile CodePoint.isBlank = name.text := by
        rw [Text.dropEndWhile_eq_self_iff]
        exact ⟨fun h => h name rfl, fun h n hn => Option.some.inj hn ▸ h⟩
      refine Iff.trans ?_ hkept.symm
      constructor
      · intro h
        obtain ⟨n, hn, hprincipal⟩ := Outcome.map_eq_ok.mp h
        obtain rfl : name = n := by
          injection hprincipal with hprincipal
          injection hprincipal with _ hname
          exact Option.some.inj hname.symm
        exact (Name.text_of_ofDatum hn).symm
      · intro h
        refine Outcome.map_eq_ok.mpr ⟨name, ?_, rfl⟩
        rw [h, Name.ofDatum, Name.ofText_text]
        rfl
  | some | ok | err | list | tuple =>
    refine ⟨fun h => ?_, False.elim⟩
    cases h

/-- The text of a value is read as the value, apart from the fractions of versions, if and only if it is a literal that
stands for the value. Otherwise a string is read with its guards, a contract without the blanks behind its name, and a
composite not at all. -/
theorem literals_read_back (v : Value) :
    (ofLiteral v.text = .ok v.truncated ↔ v.IsLiteral) ∧ ofLiteral v.text = v.reread ∧
      (v.Versioned → v.truncated = v) :=
  ⟨by rw [ofLiteral_text, reread_eq_ok_iff], ofLiteral_text v, truncated_eq_self⟩

/-- A contract whose name begins with a blank and has another one inside. -/
def blankContract : Principal := ⟨⟨.whole ⟨22, Principal.single_lt⟩, .zero⟩, .some ⟨" a b", by decide⟩⟩

/-- Blanks in a name that are not at its end are read again. -/
theorem literals_read_back_blankContract :
    (principal blankContract).IsLiteral ∧ (principal blankContract).Versioned ∧
      ofLiteral (principal blankContract).text = .ok (principal blankContract) := by
  have hliteral : (principal blankContract).IsLiteral := by
    intro name hname c hc
    obtain rfl := Option.some.inj hname
    obtain rfl : 98 = c := Option.some.inj hc
    rfl
  have hversioned : (principal blankContract).Versioned := by
    intro p hp
    obtain rfl := Value.principal.inj (List.mem_singleton.mp hp)
    exact ⟨22, rfl⟩
  obtain ⟨hread, -, hwhole⟩ := literals_read_back (principal blankContract)
  exact ⟨hliteral, hversioned, (hread.mpr hliteral).trans (congrArg Except.ok (hwhole hversioned))⟩

/-- A string with a quotation mark inside. -/
def quotedText : AsciiText := ⟨"a\"b", by decide⟩

/-- A contract that has a blank at the end of its name. -/
def trailingContract : Principal := ⟨⟨.whole ⟨22, Principal.single_lt⟩, .zero⟩, .some ⟨"a ", by decide⟩⟩

/-- Both can be made, and from the text of either another value is read: a string with a backslash more, and a contract
with a shorter name. -/
theorem guard_and_blank_misread :
    ((ascii quotedText).Constructible ∧
        ∃ w, ofLiteral (ascii quotedText).text = .ok w ∧ w.equal (ascii quotedText) = false) ∧
      (principal trailingContract).Constructible ∧
        ∃ w, ofLiteral (principal trailingContract).text = .ok w ∧ w.equal (principal trailingContract) = false := by
  have hshort : Name.ofDatum "contract_name" (.text (("a " : Text).dropEndWhile CodePoint.isBlank)) =
      .ok ⟨"a", admits_a⟩ := rfl
  refine ⟨⟨.ascii (d := .text quotedText.val) rfl, _, ofLiteral_ascii quotedText, by decide⟩,
    .contract (Value.contract_whole 22 .zero ⟨"a ", by decide⟩), _,
    (ofLiteral_contract ⟨.whole 22, .zero⟩ ⟨"a ", by decide⟩).trans (congrArg _ hshort), by decide⟩

end Value

end StacksWallet
