import StacksWallet.Proofs.Bytes.Word
import StacksWallet.Proofs.Wire.Spelling

/-!
# What the primitive readers accept

Raw bytes, numbers of a fixed width, byte strings after their length, and repeated elements after their count.
A guarded count refuses more elements than bytes are left; where every element takes a byte, the guard accepts
and refuses nothing of its own, so guarded and unguarded readers have the same spelling.
-/

namespace StacksWallet

namespace Spelling

variable {α : Type}

/-- Elements one after the other. -/
def each (s : Spelling α) : Spelling (List α)
  | [], b, _ => b = []
  | a :: as, b, after => ∃ b₁ b₂, b = b₁ ++ b₂ ∧ s a b₁ (b₂ ++ after) ∧ each s as b₂ after

/-- Elements of one form each are written one after the other. -/
theorem each_written {P : α → Prop} {form : α → Bytes} {as : List α} {b after : Bytes} :
    (written P form).each as b after ↔ (∀ a ∈ as, P a) ∧ b = as.flatMap form := by
  induction as generalizing b with
  | nil => simp [each]
  | cons a as ih =>
    simp only [each, ih, written, List.forall_mem_cons, List.flatMap_cons]
    constructor
    · intro h
      obtain ⟨_, _, rfl, ⟨ha, rfl⟩, has, rfl⟩ := h
      exact ⟨⟨ha, has⟩, rfl⟩
    · intro h
      obtain ⟨⟨ha, has⟩, rfl⟩ := h
      exact ⟨_, _, rfl, ⟨ha, rfl⟩, has, rfl⟩

/-- Elements that take a byte each are no more than their bytes. -/
theorem length_le_of_each {s : Spelling α} (hs : ∀ a b after, s a b after → b ≠ []) {as : List α}
    {b after : Bytes} (h : s.each as b after) : as.length ≤ b.length := by
  induction as generalizing b with
  | nil => simp
  | cons a as ih =>
    obtain ⟨b₁, b₂, rfl, ha, has⟩ := h
    have h₁ := List.length_pos_iff.mpr (hs a b₁ _ ha)
    have h₂ := ih has
    rw [List.length_cons, List.length_append]
    omega

end Spelling

namespace Reader

variable {α β : Type}

/-- Taking bytes fails if there are too few, and goes forward over them otherwise. -/
theorem outcome_take_eq (c : Cursor) (n : Int) :
    (take n).outcome c =
      if n < 0 || c.remaining < n then
        (.error (.showing (.integer n) (.showing (.integer c.remaining)
          (.malformed (some c.position) (.truncated n c.remaining)))), c)
      else (.ok (c.slice c.position (c.position + n)), { c with position := c.position + n }) := by
  unfold take
  rw [outcome_bind]
  change (if _ then _ else _ : Reader Bytes).outcome c = _
  split <;> rfl

/-- The bytes that are taken follow the position. -/
theorem outcome_take {c : Cursor} (hc : c.Inside) {n : Int} {a : Bytes} {c' : Cursor} :
    (take n).outcome c = (.ok a, c') ↔ 0 ≤ n ∧ n ≤ c.remaining ∧ a = c.rest.take n.toNat ∧ c' = c.advance n.toNat := by
  have h₀ := hc.nonneg
  have h₁ := hc.le_size
  rw [outcome_take_eq]
  by_cases hshort : n < 0 ∨ c.remaining < n
  · rw [if_pos (by simpa using hshort)]
    simp only [Prod.mk.injEq, reduceCtorEq, false_and, false_iff]
    omega
  · rw [if_neg (by simpa using hshort)]
    rw [not_or, not_lt, not_lt] at hshort
    obtain ⟨hn, hle⟩ := hshort
    have hslice : c.slice c.position (c.position + n) = c.rest.take n.toNat := by
      have hsize := hle
      rw [Cursor.remaining] at hsize
      have hfirst : c.index c.position = c.position.toNat := by
        rw [Cursor.index, if_neg (by omega)]
        omega
      have hlast : c.index (c.position + n) = c.position.toNat + n.toNat := by
        rw [Cursor.index, if_neg (by omega)]
        omega
      rw [Cursor.slice, Cursor.rest, hfirst, hlast, Array.toList_extract, List.extract_eq_take_drop]
      simp
    have hadvance : ({ c with position := c.position + n } : Cursor) = c.advance n.toNat := by
      simp [Cursor.advance, hn]
    simp only [hslice, hadvance, Prod.mk.injEq, Except.ok.injEq, hn, hle, true_and, eq_comm]

/-- Raw bytes of a given number. -/
theorem reads_take (n : Int) : (take n).Reads (.written (fun a => (a.length : Int) = n) id) := by
  intro c a c' hc
  have hlength := hc.length_rest
  rw [outcome_take hc]
  constructor
  · intro h
    obtain ⟨hn, hle, rfl, rfl⟩ := h
    have htake : ((c.rest.take n.toNat).length : Int) = n := by
      rw [List.length_take]
      omega
    refine ⟨_, ⟨htake, rfl⟩, ?_⟩
    have hspells := Cursor.spells_advance hc (List.take_append_drop n.toNat c.rest).symm
    rwa [show (c.rest.take n.toNat).length = n.toNat by omega] at hspells
  · intro h
    obtain ⟨b, ⟨hb, rfl⟩, hrest, rfl⟩ := h
    have hle : b.length ≤ c.rest.length := by
      rw [hrest, List.length_append]
      exact Nat.le_add_right _ _
    have htoNat : n.toNat = b.length := by omega
    refine ⟨by omega, by omega, ?_, by rw [htoNat]⟩
    rw [htoNat, hrest, List.take_left]

/-- The number of bytes that follow. -/
theorem reads_remaining : remaining.Reads (fun left b after => left = after.length ∧ b = []) := by
  intro c left c' hc
  have hrun : remaining.outcome c = (.ok c.remaining, c) := rfl
  rw [hrun, Prod.mk.injEq, Except.ok.injEq, ← hc.length_rest]
  constructor
  · intro h
    obtain ⟨rfl, rfl⟩ := h
    exact ⟨[], ⟨rfl, rfl⟩, by simp⟩
  · intro h
    obtain ⟨b, ⟨hleft, rfl⟩, h⟩ := h
    obtain rfl := Cursor.spells_nil.mp h
    exact ⟨hleft.symm, rfl⟩

/-- A byte, as a number. -/
theorem reads_u8 : u8.Reads (.written (· < wordCount 1) (bigEndian 1)) := by
  refine ((reads_take 1).bind_written (t := fun a n b _ => a.head?.map UInt8.toNat = some n ∧ b = [])
    fun a _ => ?_).congr fun n b after => ?_
  · cases a with
    | nil => exact (reads_throw _).congr fun n b _ => by simp
    | cons x a => exact (reads_pure _).congr fun n b _ => by simp [Spelling.silent, eq_comm]
  · constructor
    · intro h
      obtain ⟨a, b₂, ha, rfl, hn, rfl⟩ := h
      obtain ⟨x, rfl⟩ := List.length_eq_one_iff.mp (by omega : a.length = 1)
      simp only [List.head?_cons, Option.map_some, Option.some.injEq] at hn
      subst hn
      exact ⟨x.toNat_lt, by simp [bigEndian, wordCount]⟩
    · intro h
      obtain ⟨hn, rfl⟩ := h
      have hn' : n < 256 := hn
      refine ⟨[UInt8.ofNat n], [], rfl, by simp [bigEndian, wordCount], ?_, rfl⟩
      simp [Nat.mod_eq_of_lt hn']

/-- A number of a fixed width. -/
theorem reads_word (width : Nat) : (word width).Reads (.written (· < wordCount width) (bigEndian width)) := by
  have hcont : ∀ a : Bytes, (a.length : Int) = width →
      (if a.length = width then pure a.toNat else throw (.packing (.bufferSize width)) : Reader Nat).Reads
        (.silent a.toNat) := by
    intro a ha
    rw [if_pos (by omega)]
    exact reads_pure _
  refine ((reads_take width).bind_written hcont).congr fun n b after => ?_
  constructor
  · intro h
    obtain ⟨a, b₂, ha, rfl, rfl, rfl⟩ := h
    have hlength : a.length = width := by omega
    refine ⟨hlength ▸ a.toNat_lt, ?_⟩
    rw [List.append_nil, id, ← hlength, Bytes.bigEndian_toNat]
  · intro h
    obtain ⟨hn, rfl⟩ := h
    refine ⟨bigEndian width n, [], by simp, by simp, ?_, rfl⟩
    rw [Bytes.toNat_bigEndian, Nat.mod_eq_of_lt hn]

/-- A number of four bytes. -/
theorem reads_u32 : u32.Reads (.written (· < wordCount 4) (bigEndian 4)) := reads_word 4

/-- A number of eight bytes. -/
theorem reads_u64 : u64.Reads (.written (· < wordCount 8) (bigEndian 8)) := reads_word 8

/-- A number of sixteen bytes. -/
theorem reads_u128 : u128.Reads (.written (· < wordCount 16) (bigEndian 16)) := by
  refine ((reads_take 16).bind_written fun a _ => reads_pure a.toNat).congr fun n b after => ?_
  constructor
  · intro h
    obtain ⟨a, b₂, ha, rfl, rfl, rfl⟩ := h
    have hlength : a.length = 16 := by omega
    refine ⟨hlength ▸ a.toNat_lt, ?_⟩
    rw [List.append_nil, id, ← hlength, Bytes.bigEndian_toNat]
  · intro h
    obtain ⟨hn, rfl⟩ := h
    refine ⟨bigEndian 16 n, [], by simp, by simp, ?_, rfl⟩
    rw [Bytes.toNat_bigEndian, Nat.mod_eq_of_lt hn]

/-- A signed number of sixteen bytes. -/
theorem reads_i128 :
    i128.Reads (.written (fun n => -(wordCount 16 : Int) ≤ 2 * n ∧ 2 * n < wordCount 16) (bigEndianSigned 16)) := by
  refine ((reads_take 16).bind_written fun a _ => reads_pure a.toInt).congr fun n b after => ?_
  constructor
  · intro h
    obtain ⟨a, b₂, ha, rfl, rfl, rfl⟩ := h
    have hlength : a.length = 16 := by omega
    have hrange := a.toInt_range
    rw [hlength] at hrange
    refine ⟨hrange, ?_⟩
    rw [List.append_nil, id, Bytes.eq_bigEndianSigned_iff hrange.1 hrange.2]
    exact ⟨hlength, rfl⟩
  · intro h
    obtain ⟨hn, rfl⟩ := h
    have hspelled := (Bytes.eq_bigEndianSigned_iff hn.1 hn.2).mp rfl
    exact ⟨bigEndianSigned 16 n, [], by simp, by simp, hspelled.2.symm, rfl⟩

/-- Bytes after their length in one byte. -/
theorem reads_shortBytes :
    shortBytes.Reads (.written (fun a => a.length < wordCount 1) (fun a => bigEndian 1 a.length ++ a)) := by
  refine (reads_u8.bind_written fun n _ => reads_take n).congr fun a b after => ?_
  constructor
  · intro h
    obtain ⟨n, b₂, hn, rfl, ha, rfl⟩ := h
    obtain rfl : b₂.length = n := by omega
    exact ⟨hn, rfl⟩
  · intro h
    obtain ⟨ha, rfl⟩ := h
    exact ⟨a.length, a, ha, rfl, rfl, rfl⟩

/-- Bytes after their length in four bytes. -/
theorem reads_longBytes :
    longBytes.Reads (.written (fun a => a.length < wordCount 4) (fun a => bigEndian 4 a.length ++ a)) := by
  have hcont : ∀ (start : Int) (n : Nat) (left : Int),
      (if left < n then malformed start (.lengthBeyondEnd n left) else take n : Reader Bytes).Reads
        (fun a b _ => ¬ left < n ∧ (a.length : Int) = n ∧ b = a) := by
    intro start n left
    split
    · exact (reads_malformed _ _).congr fun a b _ => by simp_all
    · exact (reads_take n).congr fun a b _ => by simp_all [Spelling.written]
  refine (reads_position fun start =>
    reads_u32.bind_written fun n _ => reads_remaining.bind fun left => hcont start n left).congr fun a b after => ?_
  constructor
  · intro h
    obtain ⟨n, _, hn, rfl, _, _, b₂, rfl, ⟨rfl, rfl⟩, -, ha, rfl⟩ := h
    obtain rfl : b₂.length = n := by omega
    exact ⟨hn, rfl⟩
  · intro h
    obtain ⟨ha, rfl⟩ := h
    refine ⟨a.length, a, ha, rfl, _, [], a, rfl, ⟨rfl, rfl⟩, ?_, rfl, rfl⟩
    rw [List.length_append]
    omega

/-- A count of elements. With the guard, as many bytes follow. -/
theorem reads_count (guarded : Bool) (what : CountKind) :
    (count guarded what).Reads
      (fun n b after => n < wordCount 4 ∧ b = bigEndian 4 n ∧ (guarded = true → n ≤ after.length)) := by
  have hcont : ∀ (n : Nat) (left : Int),
      (if guarded && left < n then do malformed (← position) (.countBeyondEnd what n left) else pure n :
        Reader Nat).Reads (fun m b _ => ¬ (guarded = true ∧ left < n) ∧ m = n ∧ b = []) := by
    intro n left
    split
    · exact (reads_position fun p => reads_malformed p _).congr fun m b _ => by simp_all
    · exact (reads_pure n).congr fun m b _ => by simp_all [Spelling.silent]
  refine (reads_u32.bind_written fun n _ => reads_remaining.bind fun left => hcont n left).congr
    fun n b after => ?_
  constructor
  · intro h
    obtain ⟨_, _, hn, rfl, _, _, _, rfl, ⟨rfl, rfl⟩, hguard, rfl, rfl⟩ := h
    refine ⟨hn, by simp, fun hg => ?_⟩
    simp only [hg, true_and, List.nil_append] at hguard
    omega
  · intro h
    obtain ⟨hn, rfl, hguard⟩ := h
    refine ⟨n, [], hn, by simp, _, [], [], rfl, ⟨rfl, rfl⟩, ?_, rfl, rfl⟩
    intro h
    obtain ⟨hg, hlt⟩ := h
    have hle := hguard hg
    simp only [List.nil_append] at hlt
    omega

/-- What follows a count, if it takes as many bytes as the count says. The guard then makes no difference. -/
theorem reads_counted (guarded : Bool) (what : CountKind) {f : Nat → Reader β} {t : Nat → Spelling β}
    (hf : ∀ n, (f n).Reads (t n)) (ht : ∀ n y b after, t n y b after → n ≤ b.length) :
    (count guarded what >>= f).Reads
      (fun y b after => ∃ n b₂, n < wordCount 4 ∧ b = bigEndian 4 n ++ b₂ ∧ t n y b₂ after) := by
  refine ((reads_count guarded what).bind hf).congr fun y b after => ?_
  constructor
  · intro h
    obtain ⟨n, _, b₂, rfl, ⟨hn, rfl, -⟩, hy⟩ := h
    exact ⟨n, b₂, hn, rfl, hy⟩
  · intro h
    obtain ⟨n, b₂, hn, rfl, hy⟩ := h
    refine ⟨n, _, b₂, rfl, ⟨hn, rfl, fun _ => ?_⟩, hy⟩
    rw [List.length_append]
    exact (ht n y b₂ after hy).trans (Nat.le_add_right _ _)

/-- Elements read in order onto those already read. -/
theorem reads_repeatOnto {one : Reader α} {s : Spelling α} (hone : one.Reads s) (n : Nat) (done : List α) :
    (repeatOnto one done n).Reads
      (fun as b after => ∃ more, as = done.reverse ++ more ∧ more.length = n ∧ s.each more b after) := by
  induction n generalizing done with
  | zero =>
    refine (reads_pure done.reverse).congr fun as b after => ?_
    simp [Spelling.silent, Spelling.each]
  | succ n ih =>
    rw [repeatOnto]
    refine (hone.bind fun a => ih (a :: done)).congr fun as b after => ?_
    simp only [List.reverse_cons, List.append_assoc, List.singleton_append]
    constructor
    · intro h
      obtain ⟨a, b₁, b₂, rfl, ha, more, rfl, rfl, hmore⟩ := h
      exact ⟨a :: more, rfl, rfl, b₁, b₂, rfl, ha, hmore⟩
    · intro h
      obtain ⟨_ | ⟨a, more⟩, rfl, hlength, hmore⟩ := h
      · simp at hlength
      · obtain ⟨b₁, b₂, rfl, ha, hmore⟩ := hmore
        exact ⟨a, b₁, b₂, rfl, ha, more, rfl, by simpa using hlength, hmore⟩

/-- A given number of elements in order. -/
theorem reads_times {one : Reader α} {s : Spelling α} (hone : one.Reads s) (n : Nat) :
    (times one n).Reads (fun as b after => as.length = n ∧ s.each as b after) :=
  (reads_repeatOnto hone n []).congr fun as b after => by simp

end Reader

end StacksWallet
