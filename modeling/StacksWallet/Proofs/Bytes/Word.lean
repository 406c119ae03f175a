import Mathlib.Algebra.Order.Ring.Int
import Mathlib.Tactic.Ring
import StacksWallet.Bytes.Basic

/-!
# Numbers and their bytes

Big-endian words of a fixed width and the numbers below the word count stand in bijection, and so do words and
the integers of two's complement. Numbers beyond the word count wrap around.
-/

namespace StacksWallet

/-- A width of one more byte spells 256 times as many numbers. -/
theorem wordCount_succ (width : Nat) : wordCount (width + 1) = wordCount width * 256 := rfl

/-- There is a number of every width. -/
theorem wordCount_pos (width : Nat) : 0 < wordCount width := Nat.pow_pos (by decide)

namespace Bytes

/-- Numbers of one byte are told apart by their bytes. -/
theorem byte_inj {m n : Nat} (hm : m < wordCount 1) (hn : n < wordCount 1) (h : UInt8.ofNat m = UInt8.ofNat n) :
    m = n := by
  have htoNat := congrArg UInt8.toNat h
  have hcount : wordCount 1 = 2 ^ 8 := rfl
  rw [hcount] at hm hn
  rwa [UInt8.toNat_ofNat', UInt8.toNat_ofNat', Nat.mod_eq_of_lt hm, Nat.mod_eq_of_lt hn] at htoNat

/-- Bytes continue the number of those before them. -/
theorem foldl_toNat (b : Bytes) (n : Nat) :
    b.foldl (fun n byte => n * 256 + byte.toNat) n = n * wordCount b.length + b.toNat := by
  induction b generalizing n with
  | nil => simp [toNat, wordCount]
  | cons x b ih =>
    simp only [toNat, List.foldl_cons, List.length_cons, wordCount_succ] at ih ⊢
    rw [ih, ih (0 * 256 + x.toNat)]
    ring

/-- The first byte counts for all numbers of the bytes after it. -/
theorem toNat_cons (x : UInt8) (b : Bytes) : toNat (x :: b) = x.toNat * wordCount b.length + toNat b := by
  rw [toNat, List.foldl_cons, foldl_toNat]
  ring

/-- Bytes spell a number below the word count. -/
theorem toNat_lt (b : Bytes) : b.toNat < wordCount b.length := by
  induction b with
  | nil => decide
  | cons x b ih =>
    have hx : x.toNat + 1 ≤ 256 := x.toNat_lt
    rw [toNat_cons, List.length_cons, wordCount_succ]
    calc x.toNat * wordCount b.length + toNat b < (x.toNat + 1) * wordCount b.length := by
          rw [Nat.add_mul, Nat.one_mul]
          omega
      _ ≤ wordCount b.length * 256 := by
          rw [Nat.mul_comm]
          exact Nat.mul_le_mul_left _ hx

/-- A word spells its number, as far as the width goes. -/
theorem toNat_bigEndian (width n : Nat) : toNat (bigEndian width n) = n % wordCount width := by
  induction width with
  | zero => simp [bigEndian, toNat, wordCount, Nat.mod_one]
  | succ width ih =>
    rw [bigEndian, toNat_cons, ih, bigEndian_length, wordCount_succ, Nat.mod_mul]
    have hbyte : (UInt8.ofNat (n / wordCount width)).toNat = n / wordCount width % 256 := UInt8.toNat_ofNat'
    rw [hbyte]
    ring

/-- Only the low bytes of a number count. -/
theorem bigEndian_add_mul (width n m : Nat) :
    bigEndian width (m * wordCount width + n) = bigEndian width n := by
  induction width generalizing m with
  | zero => rfl
  | succ width ih =>
    have hshift : m * wordCount (width + 1) + n = (m * 256) * wordCount width + n := by
      rw [wordCount_succ]
      ring
    have hquot : (m * 256 * wordCount width + n) / wordCount width = n / wordCount width + 256 * m := by
      rw [Nat.add_comm, Nat.add_mul_div_right _ _ (wordCount_pos width), Nat.mul_comm m]
    have hbyte : UInt8.ofNat (n / wordCount width + 256 * m) = UInt8.ofNat (n / wordCount width) := by
      rw [← UInt8.toNat_inj, UInt8.toNat_ofNat', UInt8.toNat_ofNat', Nat.add_mul_mod_self_left]
    rw [bigEndian, bigEndian, hshift, ih, hquot, hbyte]

/-- The word of the number that bytes spell is these bytes. -/
theorem bigEndian_toNat (b : Bytes) : bigEndian b.length b.toNat = b := by
  induction b with
  | nil => rfl
  | cons x b ih =>
    have hquot : (x.toNat * wordCount b.length + toNat b) / wordCount b.length = x.toNat := by
      rw [Nat.add_comm, Nat.add_mul_div_right _ _ (wordCount_pos _), Nat.div_eq_of_lt (toNat_lt b), Nat.zero_add]
    rw [toNat_cons, List.length_cons, bigEndian, hquot, bigEndian_add_mul, ih, UInt8.ofNat_toNat]

/-- Bytes are the word of a number that fits if and only if they have its width and spell it. -/
theorem eq_bigEndian_iff {width n : Nat} (hn : n < wordCount width) {b : Bytes} :
    b = bigEndian width n ↔ b.length = width ∧ b.toNat = n := by
  constructor
  · intro h
    obtain rfl := h
    exact ⟨bigEndian_length width n, by rw [toNat_bigEndian, Nat.mod_eq_of_lt hn]⟩
  · intro h
    obtain ⟨rfl, rfl⟩ := h
    exact (bigEndian_toNat b).symm

/-- Bytes are the word of an integer of two's complement if and only if they have its width and spell it. -/
theorem eq_bigEndianSigned_iff {width : Nat} {n : Int}
    (hlow : -(wordCount width : Int) ≤ 2 * n) (hhigh : 2 * n < wordCount width) {b : Bytes} :
    b = bigEndianSigned width n ↔ b.length = width ∧ b.toInt = n := by
  have hpos : (0 : Int) < wordCount width := by exact_mod_cast wordCount_pos width
  have hmod : (n % wordCount width).toNat < wordCount width := by
    have := Int.emod_lt_of_pos n hpos
    have := Int.emod_nonneg n hpos.ne'
    omega
  rw [bigEndianSigned, eq_bigEndian_iff hmod]
  refine and_congr_right fun hlength => ?_
  have hb : (b.toNat : Int) < wordCount width := by exact_mod_cast hlength ▸ toNat_lt b
  rw [toInt, hlength]
  -- The remainder of `n` is `n` itself, or one word count more if `n` is negative.
  rcases le_or_gt 0 n with hn | hn
  · have hrem : n % wordCount width = n := Int.emod_eq_of_lt hn (by omega)
    split <;> omega
  · have hrem : n % wordCount width = n + wordCount width := by
      rw [← Int.add_emod_right, Int.emod_eq_of_lt (by omega) (by omega)]
    split <;> omega

/-- Every word spells an integer in the range of two's complement. -/
theorem toInt_range (b : Bytes) :
    -(wordCount b.length : Int) ≤ 2 * b.toInt ∧ 2 * b.toInt < wordCount b.length := by
  have hb : (b.toNat : Int) < wordCount b.length := by exact_mod_cast toNat_lt b
  rw [toInt]
  split <;> omega

end Bytes

end StacksWallet
