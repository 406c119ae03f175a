import Mathlib.Data.Nat.Digits.Lemmas
import StacksWallet.Number.Digits

/-!
# From one base to another

The digits of a number stand for it, and they are the only ones that do so without a leading zero. Leading zeros
are kept apart from the number, so that a sequence of digits can be brought to another base and back again without
losing any of them. Up to the base sixteen, digits are shown as figures of ASCII.
-/

namespace StacksWallet

/-- The figures of ASCII stand in two rows, that of the decimal ones and that of the small letters. -/
theorem val_figure_of_lt {d : Nat} (h : d < 16) : (figure d).val = if d < 10 then 48 + d else 87 + d := by
  have hbelow : (if d < 10 then 48 + d else 87 + d) < 0x110000 := by split <;> omega
  rw [figure, CodePoint.ofNat, dif_pos hbelow]

/-- Digits are found from the last one to the first. -/
theorem digitsOnto_eq {base : Nat} (h : 1 < base) (n : Nat) (rest : List Nat) :
    digitsOnto base n rest = (Nat.digits base n).reverse ++ rest := by
  -- Each round divides the number and puts one digit in front of `rest`.
  induction n using Nat.strong_induction_on generalizing rest with
  | _ n ih =>
    rw [digitsOnto]
    split
    · rename_i hstop
      obtain rfl : n = 0 := hstop.resolve_right (by omega)
      simp
    · rename_i hgo
      have hpos : 0 < n := by omega
      rw [ih (n / base) (Nat.div_lt_self hpos h), Nat.digits_def' h hpos]
      simp

/-- The digits of a number from the first one to the last. -/
theorem digits_eq {base : Nat} (h : 1 < base) (n : Nat) : digits base n = (Nat.digits base n).reverse := by
  rw [digits, digitsOnto_eq h, List.append_nil]

/-- The number of digits from the first one to the last. -/
theorem ofDigits_eq (base : Nat) (ds : List Nat) : ofDigits base ds = Nat.ofDigits base ds.reverse := by
  rw [ofDigits, Nat.ofDigits_eq_foldr, List.foldr_reverse]
  refine congrArg (List.foldl · 0 ds) ?_
  funext n d
  simp [Nat.mul_comm, Nat.add_comm]

/-- Digits are below their base. -/
theorem lt_of_mem_digits {base : Nat} (h : 1 < base) {n d : Nat} (hd : d ∈ digits base n) : d < base := by
  rw [digits_eq h, List.mem_reverse] at hd
  exact Nat.digits_lt_base h hd

/-- The first digit of a number is not zero. -/
theorem takeWhile_digits {base : Nat} (h : 1 < base) (n : Nat) : (digits base n).takeWhile (· == 0) = [] := by
  rw [digits_eq h]
  rcases Nat.eq_zero_or_pos n with rfl | hpos
  · simp
  · have hdigits : Nat.digits base n ≠ [] := Nat.digits_ne_nil_iff_ne_zero.mpr hpos.ne'
    have hlast : (Nat.digits base n).getLast hdigits ≠ 0 := Nat.getLast_digit_ne_zero base hpos.ne'
    rw [← List.dropLast_append_getLast hdigits, List.reverse_append, List.reverse_singleton, List.singleton_append,
      List.takeWhile_cons_of_neg (by simpa using hlast)]

/-- The digits of a number stand for it. -/
theorem ofDigits_digits {base : Nat} (h : 1 < base) (n : Nat) : ofDigits base (digits base n) = n := by
  rw [ofDigits_eq, digits_eq h, List.reverse_reverse, Nat.ofDigits_digits]

/-- Leading zeros do not count. -/
theorem ofDigits_zeros_append (base k : Nat) (ds : List Nat) :
    ofDigits base (List.replicate k 0 ++ ds) = ofDigits base ds := by
  induction k with
  | zero => rfl
  | succ k ih =>
    rw [List.replicate_succ, List.cons_append, ofDigits, List.foldl_cons, Nat.zero_mul, Nat.add_zero]
    exact ih

/-- Digits without a leading zero are those of the number that they stand for. -/
theorem digits_ofDigits {base d : Nat} {ds : List Nat} (h : 1 < base) (hds : ∀ x ∈ d :: ds, x < base) (hd : d ≠ 0) :
    digits base (ofDigits base (d :: ds)) = d :: ds := by
  have hlast : ∀ hne : (d :: ds).reverse ≠ [], (d :: ds).reverse.getLast hne ≠ 0 := fun _ => by simpa using hd
  rw [digits_eq h, ofDigits_eq, Nat.digits_ofDigits base h _ (fun x hx => hds x (List.mem_reverse.mp hx)) hlast,
    List.reverse_reverse]

/-- Digits in another base, behind the same number of leading zeros. -/
def rebase (source target : Nat) (ds : List Nat) : List Nat :=
  List.replicate (ds.takeWhile (· == 0)).length 0 ++ digits target (ofDigits source ds)

/-- Digits in another base are below that base. -/
theorem lt_of_mem_rebase {source target d : Nat} {ds : List Nat} (h : 1 < target) (hd : d ∈ rebase source target ds) :
    d < target := by
  rcases List.mem_append.mp hd with hd | hd
  · obtain rfl := (List.mem_replicate.mp hd).2
    omega
  · exact lt_of_mem_digits h hd

/-- The base between two others does not matter. -/
theorem rebase_rebase {source middle : Nat} (h : 1 < middle) (target : Nat) (ds : List Nat) :
    rebase middle target (rebase source middle ds) = rebase source target ds := by
  have hzeros : ((rebase source middle ds).takeWhile (· == 0)).length = (ds.takeWhile (· == 0)).length := by
    rw [rebase, List.takeWhile_append_of_pos (by simp), takeWhile_digits h, List.append_nil, List.length_replicate]
  have hnumber : ofDigits middle (rebase source middle ds) = ofDigits source ds := by
    rw [rebase, ofDigits_zeros_append, ofDigits_digits h]
  rw [rebase, hzeros, hnumber, rebase]

/-- Digits stay what they are in their own base. -/
theorem rebase_self {base : Nat} (h : 1 < base) {ds : List Nat} (hds : ∀ d ∈ ds, d < base) :
    rebase base base ds = ds := by
  -- Over the leading zeros only: from the first other digit on, the digits are those of their number.
  induction ds with
  | nil => simp [rebase, ofDigits, digits_eq h]
  | cons d rest ih =>
    rcases Nat.eq_zero_or_pos d with rfl | hpos
    · have hnumber : ofDigits base (0 :: rest) = ofDigits base rest := ofDigits_zeros_append base 1 rest
      have hrest := ih (List.forall_mem_cons.mp hds).2
      rw [rebase] at hrest
      rw [rebase, hnumber, List.takeWhile_cons_of_pos rfl, List.length_cons, List.replicate_succ, List.cons_append,
        hrest]
    · rw [rebase, List.takeWhile_cons_of_neg (by simpa using hpos.ne'), digits_ofDigits h hds hpos.ne']
      rfl

/-- Digits are found again from those in another base. -/
theorem rebase_rebase_self {source target : Nat} (hsource : 1 < source) (htarget : 1 < target) {ds : List Nat}
    (hds : ∀ d ∈ ds, d < source) : rebase target source (rebase source target ds) = ds := by
  rw [rebase_rebase htarget, rebase_self hsource hds]

end StacksWallet
