import StacksWallet.CommandLine.NumberOption
import StacksWallet.Proofs.Number.Numeral
import StacksWallet.Proofs.Text.Basic

/-!
# Numbers as values of options

A numeral as numbers are written, with neither blanks around it nor zeros in front, is not touched by what readers
drop from the values of options. So an option takes every integer that is written out, up to the length that is
converted.
-/

namespace StacksWallet

namespace CommandLine.NumberOption

open Numeral

/-- The text is written as numbers are: in digits, perhaps behind a minus sign, and without a needless zero. -/
structure Plain (t : Text) : Prop where
  char : ∀ c ∈ t, c = 45 ∨ c.isAsciiDigit = true
  start : ∃ c rest, t = c :: rest ∧ (c = 45 ∨ isCountingDigit c = true ∨ c = 48 ∧ rest = [])
  unpadded : isPadded t = false

variable {t : Text}

/-- Code points that are neither digit nor minus sign do not occur. -/
theorem Plain.not_mem (h : Plain t) {c : CodePoint} (hminus : c ≠ 45) (hdigit : c.isAsciiDigit = false) : c ∉ t := by
  intro hc
  rcases h.char c hc with rfl | hc
  · exact hminus rfl
  · cases hdigit.symm.trans hc

/-- Neither digits nor minus signs are blank. -/
theorem Plain.trim_eq (h : Plain t) : t.trim CodePoint.isWhiteSpace = t := by
  refine Text.trim_eq_self fun c hc => ?_
  have hblank : c.val < 128 → c.isWhiteSpace = true → c.val ≤ 32 := by
    intro hascii hwhite
    simp [CodePoint.isWhiteSpace, Fin.ext_iff] at hwhite
    omega
  have hval : 45 ≤ c.val ∧ c.val < 128 := by
    rcases h.char c hc with rfl | hdigit
    · decide
    · simp [CodePoint.isAsciiDigit] at hdigit
      omega
  cases hwhite : c.isWhiteSpace with
  | false => rfl
  | true => exact absurd (hblank hval.2 hwhite) (by omega)

/-- There is no plus sign to drop. -/
theorem Plain.dropPlus?_eq (h : Plain t) : dropPlus? t = some t := by
  have hplus := h.not_mem (c := 43) (by decide) (by decide)
  obtain ⟨c, rest, rfl, -⟩ := h.start
  have hc : c ≠ 43 := (List.ne_of_not_mem_cons hplus).symm
  rw [dropPlus?, if_neg hc]

/-- There are no zeros to drop. -/
theorem Plain.dropZeros?_eq (h : Plain t) : dropZeros? t = some t := by
  obtain ⟨c, rest, rfl, rfl | hc | ⟨rfl, rfl⟩⟩ := h.start
  · rfl
  · have hzero : c ≠ 48 := by
      rintro rfl
      cases hc
    rw [dropZeros?, if_neg hzero, hc]
    rfl
  · rfl

/-- There is no fraction to drop. -/
theorem Plain.dropFraction_eq (h : Plain t) : dropFraction t = t := by
  rw [dropFraction]
  have hcut : Text.cut? "." t = none := Text.cut?_eq_none (h.not_mem (c := 46) (by decide) (by decide))
  rw [hcut]

/-- There are no underscores to drop. -/
theorem Plain.ungroup?_eq (h : Plain t) : ungroup? t = none := by
  have hunderscore : t.contains 95 = false := by simpa using h.not_mem (c := 95) (by decide) (by decide)
  rw [ungroup?, hunderscore]
  rfl

/-- A text that is written as numbers are is read as it is, unless it is too long. -/
theorem Plain.integer?_eq (h : Plain t) :
    integer? t = if maxNumeralDigits < t.length then none else plainInt? t := by
  simp only [integer?, h.trim_eq, h.dropPlus?_eq, h.dropZeros?_eq, h.dropFraction_eq, h.ungroup?_eq, h.unpadded,
    Option.bind_eq_bind, Option.bind_some, Option.getD_none, Bool.false_or, decide_eq_true_eq]

/-- Decimal figures from one on count. -/
theorem isCountingDigit_figure {d : Nat} (h : d < 10) (hpos : d ≠ 0) : isCountingDigit (figure d) = true := by
  simp only [isCountingDigit, val_figure h, Bool.and_eq_true, decide_eq_true_eq]
  omega

/-- The figures of a numeral are written as numbers are. -/
theorem plain_map_figure {ds : List Nat} (h : IsNumeral ds) : Plain (ds.map figure) := by
  obtain ⟨d, rest, rfl⟩ := List.exists_cons_of_ne_nil h.ne_nil
  have hd := h.lt d List.mem_cons_self
  have hsign : ((figure d :: rest.map figure).head? == some 45) = false := beq_false_of_ne (head?_map_figure_ne h)
  refine ⟨fun c hc => ?_, ⟨figure d, rest.map figure, rfl, ?_⟩, ?_⟩
  · obtain ⟨x, hx, rfl⟩ := List.mem_map.mp hc
    exact .inr (isAsciiDigit_figure (h.lt x hx))
  · by_cases hzero : d = 0
    · obtain rfl := hzero
      obtain rfl := (List.cons.inj (h.unpadded rfl)).2
      exact .inr (.inr ⟨rfl, rfl⟩)
    · exact .inr (.inl (isCountingDigit_figure hd hzero))
  · rw [List.map_cons, isPadded, hsign]
    by_cases hzero : d = 0
    · obtain rfl := hzero
      obtain rfl := (List.cons.inj (h.unpadded rfl)).2
      rfl
    · have hfigure : figure d ≠ 48 := by
        intro hfigure
        have hcounts := isCountingDigit_figure hd hzero
        rw [hfigure] at hcounts
        cases hcounts
      simp [hfigure]

/-- So are they behind a minus sign. -/
theorem plain_cons_minus {ds : List Nat} (h : IsNumeral ds) : Plain (45 :: ds.map figure) := by
  have hplain := plain_map_figure h
  refine ⟨fun c hc => ?_, ⟨45, _, rfl, .inl rfl⟩, ?_⟩
  · rcases List.mem_cons.mp hc with rfl | hc
    · exact .inl rfl
    · exact hplain.char c hc
  · have hsign : ((ds.map figure).head? == some 45) = false := beq_false_of_ne (head?_map_figure_ne h)
    have hunpadded := hplain.unpadded
    rw [isPadded, hsign] at hunpadded
    exact hunpadded

/-- Numbers are written so. -/
theorem plain_ofInt (n : Int) : Plain (Text.ofInt n) := by
  cases n with
  | ofNat n =>
    obtain ⟨ds, hds, h, -⟩ := Text.exists_ofNat_eq n
    rw [Text.ofInt, hds]
    exact plain_map_figure h
  | negSucc n =>
    obtain ⟨ds, hds, h, -⟩ := Text.exists_ofNat_eq (n + 1)
    rw [Text.ofInt, hds]
    exact plain_cons_minus h

/-- An option takes an integer that is written out, unless it has more digits than are converted. -/
theorem integer?_ofInt (n : Int) :
    integer? (Text.ofInt n) = if maxNumeralDigits < (Text.ofInt n).length then none else some n := by
  rw [(plain_ofInt n).integer?_eq, plainInt?_ofInt]

/-- An integer of 64 bits has few digits. -/
theorem length_ofInt_le {n : Int} (h : 0 ≤ n ∧ n < 0x1_0000_0000_0000_0000) :
    (Text.ofInt n).length ≤ maxNumeralDigits := by
  obtain ⟨n, rfl⟩ := Int.eq_ofNat_of_zero_le h.1
  have hlength : (Text.ofInt n).length ≤ 20 := Text.length_ofNat_le (by decide) (by omega)
  exact hlength.trans (by decide)

end CommandLine.NumberOption

end StacksWallet
