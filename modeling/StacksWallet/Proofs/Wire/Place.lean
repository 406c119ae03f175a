import StacksWallet.Proofs.Wire.Encoded

/-!
# Reading at a place

A decoder starts at an offset and says how many bytes it has consumed. What a writer gives is read wherever it stands,
between whatever bytes, and what is read at an offset is written as the bytes that stand there. Behind the end nothing
is read by a reader that needs a byte, so readers of one spelling accept the same bytes at every place.
-/

namespace StacksWallet.Reader

variable {α β : Type}

/-- The reader succeeds only where a byte is left. -/
def NeedsByte (r : Reader α) : Prop := ∀ ⦃c c' : Cursor⦄ ⦃a : α⦄, r.outcome c = (.ok a, c') → 0 < c.remaining

/-- Raw bytes, if any are asked for. -/
theorem needsByte_take {n : Int} (hn : 0 < n) : (take n).NeedsByte := by
  intro c c' a h
  rw [outcome_take_eq] at h
  split at h
  · cases (Prod.mk.inj h).1
  · rename_i henough
    simp only [Bool.or_eq_true, decide_eq_true_eq, not_or, not_lt] at henough
    omega

/-- A sequence needs what its first part needs. -/
theorem NeedsByte.bind {r : Reader α} (hr : r.NeedsByte) (f : α → Reader β) : (r >>= f).NeedsByte := by
  intro c c' y h
  obtain ⟨_, _, h, -⟩ := outcome_bind_eq_ok.mp h
  exact hr h

/-- A byte, as a number. -/
theorem needsByte_u8 : u8.NeedsByte := (needsByte_take (by decide)).bind _

/-- A reader that takes a tag, and the position of the tag only to report it. -/
theorem needsByte_tagged (f : Int → Nat → Reader α) : (position >>= fun start => u8 >>= f start).NeedsByte := by
  intro c c' a h
  rw [outcome_bind] at h
  exact needsByte_u8.bind _ h

/-- A number of elements. -/
theorem needsByte_count (guarded : Bool) (what : CountKind) : (count guarded what).NeedsByte :=
  NeedsByte.bind (NeedsByte.bind (needsByte_take (by decide)) _) _

/-- Reading succeeds only in front of the end. -/
theorem NeedsByte.lt_length {r : Reader α} (hr : r.NeedsByte) {b : Bytes} {offset n : Int} {a : α}
    (h : r.decodeAt b offset = .ok (a, n)) : offset < b.length := by
  obtain ⟨c, hc, -⟩ := decodeAt_eq_ok.mp h
  have hleft := hr hc
  simp only [Cursor.remaining, Cursor.ofBytes, List.size_toArray] at hleft
  omega

section Encoded

variable {r : Reader α} {P : α → Prop} {encode : α → Except Fault Bytes} {a : α} {b : Bytes}

/-- What is written is read wherever it stands, and the cursor goes right behind it. -/
theorem Reads.outcome_encoded (hr : r.Reads (.encoded P encode)) (ha : P a) (hb : encode a = .ok b)
    (before after : Bytes) :
    r.outcome (Cursor.ofBytes (before ++ b ++ after) before.length) =
      (.ok a, Cursor.ofBytes (before ++ b ++ after) (before.length + b.length)) := by
  have hinside : (Cursor.ofBytes (before ++ b ++ after) before.length).Inside :=
    ⟨Int.natCast_nonneg _, by simp [Cursor.ofBytes]; omega⟩
  have hrest : (Cursor.ofBytes (before ++ b ++ after) before.length).rest = b ++ after := by
    rw [← Cursor.rest_ofBytes_append before (b ++ after), ← List.append_assoc]
  exact (hr _ a _ hinside).mpr ⟨b, ⟨ha, hb⟩, Cursor.spells_advance hinside hrest⟩

/-- What is written is read wherever it stands, and no byte more is consumed. -/
theorem Reads.decodeAt_encoded (hr : r.Reads (.encoded P encode)) (ha : P a) (hb : encode a = .ok b)
    (before after : Bytes) : r.decodeAt (before ++ b ++ after) before.length = .ok (a, b.length) := by
  refine decodeAt_eq_ok.mpr ⟨_, hr.outcome_encoded ha hb before after, ?_⟩
  simp only [Cursor.ofBytes]
  omega

/-- What is read at an offset is written as the bytes that stand there. -/
theorem Reads.encoded_decodeAt (hr : r.Reads (.encoded P encode)) (hneeds : r.NeedsByte) {offset : Nat} {n : Int}
    (h : r.decodeAt b offset = .ok (a, n)) :
    P a ∧ 0 ≤ n ∧ offset + n ≤ b.length ∧ encode a = .ok ((b.drop offset).take n.toNat) := by
  have hlength := (hneeds.lt_length h).le
  obtain ⟨form, after, hb, ⟨ha, hencode⟩, rfl⟩ := (hr.decodeAt_iff (Int.natCast_nonneg _) hlength).mp h
  rw [Int.toNat_natCast] at hb
  have htotal := congrArg List.length hb
  rw [List.length_drop, List.length_append] at htotal
  exact ⟨ha, Int.natCast_nonneg _, by omega, by rw [hb, Int.toNat_natCast, List.take_left, hencode]⟩

end Encoded

section Alike

variable {r r' : Reader α} {s : Spelling α}

/-- Readers of one spelling that need a byte succeed at the same places, with the same result and cursor. -/
theorem Reads.outcome_congr (hr : r.Reads s) (hr' : r'.Reads s) (hneeds : r.NeedsByte) (hneeds' : r'.NeedsByte)
    {c c' : Cursor} {a : α} (hc : 0 ≤ c.position) : r.outcome c = (.ok a, c') ↔ r'.outcome c = (.ok a, c') := by
  by_cases hinside : c.position ≤ c.buffer.size
  · exact (hr c a c' ⟨hc, hinside⟩).trans (hr' c a c' ⟨hc, hinside⟩).symm
  · have hbeyond : ¬ 0 < c.remaining := by
      rw [Cursor.remaining]
      omega
    exact ⟨fun h => absurd (hneeds h) hbeyond, fun h => absurd (hneeds' h) hbeyond⟩

/-- Readers of one spelling that need a byte accept the same bytes at every offset, with the same result, and consume
as many of them. -/
theorem Reads.decodeAt_congr (hr : r.Reads s) (hr' : r'.Reads s) (hneeds : r.NeedsByte) (hneeds' : r'.NeedsByte)
    {b : Bytes} (offset : Nat) {a : α} {n : Int} :
    r.decodeAt b offset = .ok (a, n) ↔ r'.decodeAt b offset = .ok (a, n) := by
  rw [decodeAt_eq_ok, decodeAt_eq_ok]
  exact exists_congr fun c => and_congr_left fun _ =>
    hr.outcome_congr hr' hneeds hneeds' (Int.natCast_nonneg offset)

end Alike

end StacksWallet.Reader
