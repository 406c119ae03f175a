import StacksWallet.Proofs.Transaction.Canonical

/-!
# Payloads and their bytes

A payload is read back from its bytes with its arguments in canonical form, wherever they stand, if no argument is too
deep. The recipient of a transfer comes back from the reader of values as the principal that it is, and the memo with
the padding that it was given. In the other direction, what is read at an offset is written as the bytes that stand
there.

Whether a payload can be written at all is not settled here.
-/

namespace StacksWallet.Payload

/-- A payload takes a byte. -/
theorem needsByte_read (guarded : Bool) : (read guarded).NeedsByte := Reader.needsByte_tagged _

/-- A payload with arguments that can be made and are not too deep is read back in canonical form. -/
theorem decode_of_encode {p : Payload} {b : Bytes}
    (harguments : ∀ v ∈ p.arguments, v.Constructible ∧ v.depth ≤ Value.depthLimit) (hb : p.encode = .ok b)
    (before after : Bytes) :
    decode (before ++ b ++ after) before.length = .ok (p.canonical, b.length) ∧ p.canonical.equal p = true := by
  have hdistinct : ∀ v ∈ p.arguments, v.Distinct := fun v hv => (harguments v hv).1.distinct
  have hsettled : p.canonical.Settled := settled_canonical hdistinct fun v hv => (harguments v hv).2
  have hcanonical : p.canonical.encode = .ok b := (encode_canonical hdistinct).trans hb
  exact ⟨(reads true).decodeAt_encoded hsettled hcanonical before after, canonical_equal hdistinct⟩

/-- Payloads are read back from what they are written as, in canonical form and from any place, if their arguments are
nested on at most 32 levels; and what is read is written as the bytes that stood there. -/
theorem payloads_roundTrip :
    (∀ (p : Payload) (b before after : Bytes),
        (∀ v ∈ p.arguments, v.Constructible ∧ v.depth ≤ 32) → p.encode = .ok b →
          decode (before ++ b ++ after) before.length = .ok (p.canonical, b.length) ∧ p.canonical.equal p = true) ∧
      ∀ (b : Bytes) (offset : Nat) (p : Payload) (n : Int), decode b offset = .ok (p, n) →
        0 ≤ n ∧ offset + n ≤ b.length ∧ p.encode = .ok ((b.drop offset).take n.toNat) := by
  refine ⟨fun p b before after harguments hb => decode_of_encode harguments hb before after, ?_⟩
  intro b offset p n h
  exact ((reads true).encoded_decodeAt (needsByte_read true) h).2

/-- A call with a tuple whose fields are out of order, and with an empty list. -/
def pairCall : Payload :=
  .call ⟨.whole ⟨20, by decide⟩, .zero⟩ ⟨[97], admits_a⟩ ⟨[98], admits_b⟩
    [.tuple [(⟨[98], admits_b⟩, .some .none), (⟨[97], admits_a⟩, .bool true)], .list []]

/-- The bytes of the call, with the fields in order. -/
def pairCallBytes : Bytes :=
  [2, 20] ++ Bytes.zeros 20 ++
    [1, 97, 1, 98, 0, 0, 0, 2, 12, 0, 0, 0, 2, 1, 97, 3, 1, 98, 10, 9, 11, 0, 0, 0, 0]

/-- The call is read back from between other bytes, and written as it stood there. -/
theorem payloads_roundTrip_pairCall :
    (∀ v ∈ pairCall.arguments, v.Constructible ∧ v.depth ≤ 32) ∧ pairCall.encode = .ok pairCallBytes ∧
      decode ([255] ++ pairCallBytes ++ [7]) 1 = .ok (pairCall.canonical, pairCallBytes.length) ∧
      pairCall.canonical.encode = .ok pairCallBytes := by
  have harguments : ∀ v ∈ pairCall.arguments, v.Constructible ∧ v.depth ≤ 32 := by
    refine List.forall_mem_cons.mpr ⟨⟨?_, by decide⟩, List.forall_mem_singleton.mpr ⟨?_, by decide⟩⟩
    · exact Value.constructible_of_distinct (by unfold Value.Distinct; decide) rfl
    · exact Value.constructible_of_distinct (by unfold Value.Distinct; decide) rfl
  have hencode : pairCall.encode = .ok pairCallBytes := rfl
  obtain ⟨hdecode, hslice⟩ := payloads_roundTrip
  have hread := (hdecode pairCall pairCallBytes [255] [7] harguments hencode).1
  exact ⟨harguments, hencode, hread, (hslice _ 1 _ _ hread).2.2⟩

end StacksWallet.Payload
