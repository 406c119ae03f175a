import Mathlib.Logic.Function.Basic
import StacksWallet.Proofs.Outcome
import StacksWallet.Proofs.Wire.Primitive
import StacksWallet.Wire.Amount

/-!
# Fields of fixed width

Numbers that are written only if they are in range, and alternatives that are written as one byte. An
alternative is known by its number, and of the numbers that no alternative has none is read.
-/

namespace StacksWallet

namespace Wire

/-- A byte is written for the numbers below 256. -/
theorem u8_eq_ok_iff {d : Datum} {b : Bytes} :
    u8 d = .ok b ↔ ∃ n : Nat, n < wordCount 1 ∧ whole? d = some (n : Int) ∧ b = bigEndian 1 n := by
  rw [u8]
  cases hd : whole? d with
  | none => simp
  | some n =>
    have hcount : wordCount 1 = 256 := rfl
    dsimp only
    by_cases hn : 0 ≤ n ∧ n < 256
    · rw [if_pos (by simpa using hn)]
      constructor
      · intro h
        exact ⟨n.toNat, by omega, by rw [Int.toNat_of_nonneg hn.1], (Except.ok.inj h).symm⟩
      · intro h
        obtain ⟨k, -, hk, rfl⟩ := h
        rw [Option.some.inj hk, Int.toNat_natCast]
    · rw [if_neg (by simpa using hn)]
      constructor
      · intro h
        split at h <;> nomatch h
      · intro h
        obtain ⟨k, hlt, hk, -⟩ := h
        have hnk := Option.some.inj hk
        omega

/-- Whole numbers are written if they are in range. -/
theorem word_integer_eq_ok_iff {width : Nat} {flaw : Datum → ArgumentFlaw} {n : Int} {b : Bytes} :
    word width flaw (.integer n) = .ok b ↔ 0 ≤ n ∧ n < wordCount width ∧ b = bigEndian width n.toNat := by
  have hword : word width flaw (.integer n) =
      if 0 ≤ n && n < wordCount width then .ok (bigEndian width n.toNat)
      else .error (.showing (.integer n) (.argument (flaw (.integer n)))) := rfl
  rw [hword]
  by_cases hn : 0 ≤ n ∧ n < wordCount width
  · rw [if_pos (by simpa using hn), Except.ok.injEq, eq_comm]
    exact ⟨fun h => ⟨hn.1, hn.2, h⟩, fun h => h.2.2⟩
  · rw [if_neg (by simpa using hn)]
    exact ⟨nofun, fun h => absurd ⟨h.1, h.2.1⟩ hn⟩

/-- A size is written if it has four bytes. -/
theorem size_eq_ok_iff {n : Nat} {b : Bytes} : size n = .ok b ↔ n < wordCount 4 ∧ b = bigEndian 4 n := by
  rw [size]
  split
  · simp [*, eq_comm]
  · simp [*]

end Wire

/-- Of alternatives with numbers of their own, the one with a number is found by it. -/
theorem find?_code_eq_some_iff {α : Type} {code : α → Nat} (hcode : Function.Injective code) {all : List α} {n : Int}
    {a : α} (ha : a ∈ all) : (all.find? fun x => (code x : Int) == n) = some a ↔ n = code a := by
  constructor
  · intro h
    have hfound := List.find?_some (p := fun x => (code x : Int) == n) h
    exact (beq_iff_eq.mp hfound).symm
  · intro h
    subst h
    induction all with
    | nil => cases ha
    | cons x rest ih =>
      by_cases hx : x = a
      · subst hx
        exact List.find?_cons_of_pos (p := fun y => (code y : Int) == code x) (beq_self_eq_true _)
      · have hne : ¬ ((code x : Int) == code a) = true := by
          rw [beq_iff_eq, Int.ofNat_inj]
          exact fun h => hx (hcode h)
        have hrest : a ∈ rest := (List.mem_cons.mp ha).resolve_left (Ne.symm hx)
        rw [List.find?_cons_of_neg (p := fun y => (code y : Int) == code a) hne]
        exact ih hrest

namespace Amount

/-- Amounts are read from their eight bytes. -/
theorem reads (field : Text) : (read field).Reads (.written (fun _ => True) bytes) := by
  refine (Reader.reads_u64.bind_written (t := fun (n : Nat) a b _ => (n : Int) = a.val ∧ b = [])
    fun n _ => ?_).congr fun a b after => ?_
  · cases hn : below? 0x1_0000_0000_0000_0000 (n : Int) with
    | none =>
      refine (Reader.reads_throw _).congr fun a b _ => ⟨False.elim, fun h => ?_⟩
      rw [below?_eq_some_iff.mpr h.1] at hn
      cases hn
    | some k =>
      have hk := below?_eq_some_iff.mp hn
      refine (Reader.reads_pure k).congr fun a b _ => ⟨fun h => ⟨h.1 ▸ hk, h.2⟩, fun h => ⟨?_, h.2⟩⟩
      exact Fin.ext (Int.ofNat_inj.mp (h.1.symm.trans hk))
  · constructor
    · intro h
      obtain ⟨n, _, -, rfl, hn, rfl⟩ := h
      obtain rfl := Int.ofNat_inj.mp hn
      exact ⟨trivial, List.append_nil _⟩
    · intro h
      exact ⟨a.val, [], a.isLt, h.2.trans (List.append_nil _).symm, rfl, rfl⟩

end Amount

end StacksWallet
