import Mathlib.Data.List.TakeWhile
import StacksWallet.Proofs.Number.Digits
import StacksWallet.Proofs.Text.Basic

/-!
# Numbers as they are written

A number is written with ASCII figures, the first of which counts unless the number is zero, and behind a minus sign if
it is negative. Such a numeral spells the number again, both for the reader of plain numerals and for the reader that
takes the digits of any script and has a limit to their number.
-/

namespace StacksWallet

/-- Decimal figures stand next to each other in ASCII. -/
theorem val_figure {d : Nat} (h : d < 10) : (figure d).val = 48 + d := by
  rw [val_figure_of_lt (by omega), if_pos h]

/-- Decimal figures are ASCII digits. -/
theorem isAsciiDigit_figure {d : Nat} (h : d < 10) : (figure d).isAsciiDigit = true := by
  simp only [CodePoint.isAsciiDigit, val_figure h, Bool.and_eq_true, decide_eq_true_eq]
  omega

/-- Digits are ASCII and not blank. -/
theorem isAscii_of_isAsciiDigit {c : CodePoint} (h : c.isAsciiDigit = true) :
    c.isAscii = true ∧ c.isAsciiBlank = false := by
  simp only [CodePoint.isAsciiDigit, Bool.and_eq_true, decide_eq_true_eq] at h
  have hspace : c ≠ 32 := by
    rintro rfl
    exact absurd h.1 (by decide)
  refine ⟨decide_eq_true (by omega), ?_⟩
  simp only [CodePoint.isAsciiBlank, Bool.or_eq_false_iff, beq_eq_false_iff_ne, ne_eq, hspace, not_false_eq_true,
    and_true, Bool.and_eq_false_iff, decide_eq_false_iff_not]
  omega

/-- The digits are those of a numeral: at least one, below ten, and without a zero in front of others. -/
structure IsNumeral (ds : List Nat) : Prop where
  ne_nil : ds ≠ []
  lt : ∀ d ∈ ds, d < 10
  unpadded : ds.head? = some 0 → ds = [0]

namespace Text

/-- The digits that a number is written with. -/
theorem exists_ofNat_eq (n : Nat) : ∃ ds, ofNat n = ds.map figure ∧ IsNumeral ds ∧ ofDigits 10 ds = n := by
  rw [ofNat]
  split
  · rename_i hzero
    exact ⟨[0], rfl, ⟨nofun, by decide, fun _ => rfl⟩, hzero.symm⟩
  · rename_i hpos
    have hbase : 1 < 10 := by decide
    refine ⟨digits 10 n, rfl, ⟨fun hnil => hpos ?_, fun d hd => lt_of_mem_digits hbase hd, fun hhead => ?_⟩,
      ofDigits_digits hbase n⟩
    · rw [← ofDigits_digits hbase n, hnil]
      rfl
    · -- The digits of a number have no zero in front.
      obtain ⟨rest, hrest⟩ := List.head?_eq_some_iff.mp hhead
      have hzeros := takeWhile_digits hbase n
      rw [hrest] at hzeros
      nomatch hzeros

/-- The numeral of an integer is that of its absolute value, behind a minus sign if the integer is negative. -/
theorem ofInt_eq (n : Int) : ofInt n = (if n < 0 then [45] else []) ++ ofNat n.natAbs := by
  cases n with
  | ofNat n => rw [if_neg (by simp)]; rfl
  | negSucc n => rw [if_pos (Int.negSucc_lt_zero n)]; rfl

/-- Numerals are made of figures, at least one. -/
theorem digits_of_ofNat (n : Nat) : ofNat n ≠ [] ∧ ∀ c ∈ ofNat n, c.isAsciiDigit = true := by
  obtain ⟨ds, hds, hnumeral, -⟩ := exists_ofNat_eq n
  rw [hds]
  exact ⟨mt List.map_eq_nil_iff.mp hnumeral.ne_nil,
    List.forall_mem_map.mpr fun d hd => isAsciiDigit_figure (hnumeral.lt d hd)⟩

/-- The numeral of an integer is made of figures and perhaps a minus sign. -/
theorem sign_or_digit_of_mem_ofInt (n : Int) : ∀ c ∈ ofInt n, c = 45 ∨ c.isAsciiDigit = true := by
  intro c hc
  rw [ofInt_eq] at hc
  rcases List.mem_append.mp hc with hc | hc
  · split at hc
    · exact .inl (List.mem_singleton.mp hc)
    · nomatch hc
  · exact .inr ((digits_of_ofNat _).2 c hc)

/-- A number below a power of ten has no more figures than the exponent says. -/
theorem length_ofNat_le {n k : Nat} (hk : 0 < k) (h : n < 10 ^ k) : (ofNat n).length ≤ k := by
  rw [ofNat]
  split
  · exact hk
  · rw [List.length_map, digits_eq (by decide), List.length_reverse]
    exact (Nat.digits_length_le_iff (by decide) n).mpr h

end Text

namespace Numeral

/-- Digits are found again in their figures. -/
theorem ofFigures_map_figure {ds : List Nat} (h : ∀ d ∈ ds, d < 10) : ofFigures (ds.map figure) = ofDigits 10 ds := by
  have hback : (ds.map figure).map (fun c => c.val - 48) = ds := by
    rw [List.map_map]
    refine (List.map_congr_left fun d hd => ?_).trans (List.map_id ds)
    rw [Function.comp_apply, val_figure (h d hd), Nat.add_sub_cancel_left]
    rfl
  rw [ofFigures, hback]

/-- Figures are no minus sign. -/
theorem head?_map_figure_ne {ds : List Nat} (h : IsNumeral ds) : (ds.map figure).head? ≠ some 45 := by
  intro hhead
  rw [List.head?_map] at hhead
  obtain ⟨d, hd, hfigure⟩ := Option.map_eq_some_iff.mp hhead
  have hval := val_figure (h.lt d (List.mem_of_mem_head? hd))
  rw [hfigure] at hval
  have hminus : (45 : CodePoint).val = 45 := rfl
  omega

/-- The figures of a numeral are what it is read from. -/
theorem not_refused {ds : List Nat} (h : IsNumeral ds) :
    ¬ ((ds.map figure).isEmpty || !(ds.map figure).all CodePoint.isAsciiDigit) = true := by
  have hdigits : ∀ d ∈ ds, (figure d).isAsciiDigit = true := fun d hd => isAsciiDigit_figure (h.lt d hd)
  simpa [h.ne_nil] using hdigits

/-- A numeral spells the number that it was written for. -/
theorem plainInt?_ofInt (n : Int) : plainInt? (Text.ofInt n) = some n := by
  cases n with
  | ofNat n =>
    obtain ⟨ds, hds, hnumeral, hvalue⟩ := Text.exists_ofNat_eq n
    have hsign : ((ds.map figure).head? == some 45) = false := beq_false_of_ne (head?_map_figure_ne hnumeral)
    rw [Text.ofInt, hds, plainInt?, hsign]
    refine (if_neg (not_refused hnumeral)).trans ?_
    change some ((ofFigures (ds.map figure) : Nat) : Int) = _
    rw [ofFigures_map_figure hnumeral.lt, hvalue]
    rfl
  | negSucc n =>
    obtain ⟨ds, hds, hnumeral, hvalue⟩ := Text.exists_ofNat_eq (n + 1)
    rw [Text.ofInt, hds, plainInt?]
    refine (if_neg (not_refused hnumeral)).trans ?_
    change some (-((ofFigures (ds.map figure) : Nat) : Int)) = _
    rw [ofFigures_map_figure hnumeral.lt, hvalue]
    rfl

/-- A numeral of ASCII figures is not changed by what is done for other scripts and for blanks. -/
theorem core_eq_self {t : Text} (h : ∀ c ∈ t, c = 45 ∨ c.isAsciiDigit = true) : core t = t := by
  have hplain : ∀ c ∈ t, c.isAscii = true ∧ c.isAsciiBlank = false := by
    intro c hc
    rcases h c hc with rfl | hdigit
    · exact ⟨rfl, rfl⟩
    · exact isAscii_of_isAsciiDigit hdigit
  have hnormal : t.map normalize = t :=
    (List.map_congr_left fun c hc => if_pos (hplain c hc).1).trans (List.map_id t)
  rw [core, hnormal]
  exact Text.trim_eq_self fun c hc => (hplain c hc).2

/-- Digits are grouped well. -/
theorem groupsDigits_of_all {t : Text} (h : ∀ c ∈ t, c.isAsciiDigit = true) (afterDigit : Bool) :
    groupsDigits afterDigit t = true := by
  induction t generalizing afterDigit with
  | nil => rfl
  | cons c rest ih =>
    obtain ⟨hc, hrest⟩ := List.forall_mem_cons.mp h
    have hmark : c ≠ 95 := by
      rintro rfl
      nomatch hc
    rw [groupsDigits, if_neg hmark]
    exact ih hrest _

/-- There is no sign in front of digits. -/
theorem splitSign_of_digits {t : Text} (h : ∀ c ∈ t, c.isAsciiDigit = true) : splitSign t = (false, t) := by
  cases t with
  | nil => rfl
  | cons c rest =>
    have hc := h c List.mem_cons_self
    have hminus : c ≠ 45 := by
      rintro rfl
      nomatch hc
    have hplus : c ≠ 43 := by
      rintro rfl
      nomatch hc
    rw [splitSign, if_neg hminus, if_neg hplus]

/-- Digits that are not too many are read as their number. -/
theorem readInt_of_splitSign {t figures : Text} {negative : Bool} (hsplit : splitSign (core t) = (negative, figures))
    (hsome : figures ≠ []) (hdigits : ∀ c ∈ figures, c.isAsciiDigit = true)
    (hcount : figures.length ≤ maxNumeralDigits) :
    readInt t = .ok (if negative then -(ofFigures figures : Int) else ofFigures figures) := by
  have hgroup : (figures.takeWhile fun c => c.isAsciiDigit || c = 95) = figures :=
    List.takeWhile_eq_self_iff.mpr fun c hc => by rw [hdigits c hc, Bool.true_or]
  have hfilter : figures.filter CodePoint.isAsciiDigit = figures := List.filter_eq_self.mpr hdigits
  have hread : ¬ (figures.isEmpty || !groupsDigits false figures) = true := by
    simpa [hsome] using groupsDigits_of_all hdigits false
  rw [readInt, hsplit]
  simp only [hgroup, hfilter, if_neg hread, if_neg (Nat.not_lt_of_le hcount), if_neg (Nat.lt_irrefl _)]

/-- An integer is read again from its numeral unless this has too many figures. -/
theorem readInt_ofInt {n : Int} (h : (Text.ofNat n.natAbs).length ≤ maxNumeralDigits) :
    readInt (Text.ofInt n) = .ok n := by
  obtain ⟨ds, hds, hnumeral, hvalue⟩ := Text.exists_ofNat_eq n.natAbs
  have hcore : core (Text.ofInt n) = Text.ofInt n := core_eq_self (Text.sign_or_digit_of_mem_ofInt n)
  have hsome : ds.map figure ≠ [] := mt List.map_eq_nil_iff.mp hnumeral.ne_nil
  have hdigits : ∀ c ∈ ds.map figure, c.isAsciiDigit = true :=
    List.forall_mem_map.mpr fun d hd => isAsciiDigit_figure (hnumeral.lt d hd)
  have hsplit : splitSign (core (Text.ofInt n)) = (decide (n < 0), ds.map figure) := by
    rw [hcore, Text.ofInt_eq, hds]
    split
    · rename_i hneg
      rw [decide_eq_true hneg]
      rfl
    · rename_i hpos
      rw [decide_eq_false hpos]
      exact splitSign_of_digits hdigits
  rw [hds] at h
  rw [readInt_of_splitSign hsplit hsome hdigits h, ofFigures_map_figure hnumeral.lt, hvalue, Except.ok.injEq]
  split_ifs with hneg <;> simp only [decide_eq_true_eq] at hneg <;> omega

end Numeral

end StacksWallet
