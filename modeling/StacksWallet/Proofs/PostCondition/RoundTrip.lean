import StacksWallet.Proofs.PostCondition.Canonical

/-!
# Post-conditions and their bytes

A condition is read back from its bytes in canonical form, wherever they stand, if its token is not too deep. In the
other direction, what is read at an offset is written as the bytes that stand there, so no condition has two
spellings. Lists of conditions are read back one by one, in their order, and the cursor goes right behind them.

Whether a condition can be written at all is not settled here.
-/

namespace StacksWallet.PostCondition

/-- A condition takes a byte. -/
theorem needsByte_read (guarded : Bool) : (read guarded).NeedsByte := Reader.needsByte_tagged _

/-- A list of conditions takes the bytes of its count. -/
theorem needsByte_readAll (guarded : Bool) : (readAll guarded).NeedsByte :=
  (Reader.needsByte_count guarded .postConditions).bind _

/-- A condition with a token that can be made and is not too deep is read back in canonical form. -/
theorem decode_of_encode {pc : PostCondition} {b : Bytes}
    (htokens : ∀ v ∈ pc.tokens, v.Constructible ∧ v.depth ≤ Value.depthLimit) (hb : pc.encode = .ok b)
    (before after : Bytes) :
    decode (before ++ b ++ after) before.length = .ok (pc.canonical, b.length) ∧ pc.canonical.equal pc = true := by
  have hdistinct : ∀ v ∈ pc.tokens, v.Distinct := fun v hv => (htokens v hv).1.distinct
  have hsettled : pc.canonical.Settled := settled_canonical hdistinct (fun v hv => (htokens v hv).2) hb
  have hcanonical : pc.canonical.encode = .ok b := (encode_canonical hdistinct).trans hb
  exact ⟨(reads true).decodeAt_encoded hsettled hcanonical before after, canonical_equal hdistinct⟩

/-- Conditions with tokens that can be made and are not too deep are read back in canonical form, in their order. -/
theorem readAll_of_encodeAll {pcs : List PostCondition} {b : Bytes}
    (htokens : ∀ pc ∈ pcs, ∀ v ∈ pc.tokens, v.Constructible ∧ v.depth ≤ Value.depthLimit)
    (hb : encodeAll pcs = .ok b) (before after : Bytes) :
    (readAll true).outcome (Cursor.ofBytes (before ++ b ++ after) before.length) =
        (.ok (pcs.map canonical), Cursor.ofBytes (before ++ b ++ after) (before.length + b.length)) ∧
      List.Forall₂ (fun pc pc' => pc.equal pc' = true) (pcs.map canonical) pcs := by
  have hdistinct : ∀ pc ∈ pcs, ∀ v ∈ pc.tokens, v.Distinct := fun pc hpc v hv => (htokens pc hpc v hv).1.distinct
  have hsettled : ∀ pc ∈ pcs.map canonical, pc.Settled :=
    settled_map_canonical hdistinct (fun pc hpc v hv => (htokens pc hpc v hv).2) hb
  have hcanonical : encodeAll (pcs.map canonical) = .ok b := (encodeAll_canonical hdistinct).trans hb
  exact ⟨(reads_readAll true).outcome_encoded hsettled hcanonical before after, map_canonical_equal hdistinct⟩

/-- Conditions are read back from what they are written as, in canonical form and from any place, if their tokens are
nested on at most 32 levels; what is read is written as the bytes that stood there; and lists are read back in order,
up to the place right behind them. -/
theorem conditions_roundTrip :
    (∀ (pc : PostCondition) (b before after : Bytes),
        (∀ v ∈ pc.tokens, v.Constructible ∧ v.depth ≤ 32) → pc.encode = .ok b →
          decode (before ++ b ++ after) before.length = .ok (pc.canonical, b.length) ∧
            pc.canonical.equal pc = true) ∧
      (∀ (b : Bytes) (offset : Nat) (pc : PostCondition) (n : Int), decode b offset = .ok (pc, n) →
        0 ≤ n ∧ offset + n ≤ b.length ∧ pc.encode = .ok ((b.drop offset).take n.toNat)) ∧
      ∀ (pcs : List PostCondition) (b before after : Bytes),
        (∀ pc ∈ pcs, ∀ v ∈ pc.tokens, v.Constructible ∧ v.depth ≤ 32) → encodeAll pcs = .ok b →
          (readAll true).outcome (Cursor.ofBytes (before ++ b ++ after) before.length) =
              (.ok (pcs.map canonical), Cursor.ofBytes (before ++ b ++ after) (before.length + b.length)) ∧
            List.Forall₂ (fun pc pc' => pc.equal pc' = true) (pcs.map canonical) pcs := by
  refine ⟨fun pc b before after htokens hb => decode_of_encode htokens hb before after, ?_,
    fun pcs b before after htokens hb => readAll_of_encodeAll htokens hb before after⟩
  intro b offset pc n h
  exact ((reads true).encoded_decodeAt (needsByte_read true) h).2

/-- A limit on one token that is named by a tuple whose fields are out of order. -/
def pairLimit : PostCondition :=
  .nonFungible .origin ⟨.flag true, .zero, ⟨[97], admits_a⟩, ⟨[98], admits_b⟩⟩
    (.tuple [(⟨[98], admits_b⟩, .some .none), (⟨[97], admits_a⟩, .list [])]) .sent

/-- The bytes of the limit, with the fields in order. -/
def pairBytes : Bytes :=
  [2, 1, 1] ++ Bytes.zeros 20 ++ [1, 97, 1, 98, 12, 0, 0, 0, 2, 1, 97, 11, 0, 0, 0, 0, 1, 98, 10, 9, 16]

/-- The limit is read back from between other bytes, alone and twice in a list, and written as it stood there. -/
theorem conditions_roundTrip_pairLimit :
    (∀ v ∈ pairLimit.tokens, v.Constructible ∧ v.depth ≤ 32) ∧ pairLimit.encode = .ok pairBytes ∧
      decode ([255] ++ pairBytes ++ [7]) 1 = .ok (pairLimit.canonical, pairBytes.length) ∧
      pairLimit.canonical.encode = .ok pairBytes ∧
      encodeAll [pairLimit, pairLimit] = .ok ([0, 0, 0, 2] ++ pairBytes ++ pairBytes) ∧
      (readAll true).outcome (Cursor.ofBytes ([255] ++ ([0, 0, 0, 2] ++ pairBytes ++ pairBytes) ++ [7]) 1) =
        (.ok [pairLimit.canonical, pairLimit.canonical],
          Cursor.ofBytes ([255] ++ ([0, 0, 0, 2] ++ pairBytes ++ pairBytes) ++ [7]) 93) := by
  have htokens : ∀ v ∈ pairLimit.tokens, v.Constructible ∧ v.depth ≤ 32 := by
    refine List.forall_mem_singleton.mpr ⟨?_, by decide⟩
    exact Value.constructible_of_distinct (by unfold Value.Distinct; decide) rfl
  have hencode : pairLimit.encode = .ok pairBytes := rfl
  have hall : encodeAll [pairLimit, pairLimit] = .ok ([0, 0, 0, 2] ++ pairBytes ++ pairBytes) := rfl
  obtain ⟨hdecode, hslice, hlist⟩ := conditions_roundTrip
  have hread := (hdecode pairLimit pairBytes [255] [7] htokens hencode).1
  have hwritten := (hslice _ 1 _ _ hread).2.2
  have hboth : ∀ pc ∈ [pairLimit, pairLimit], ∀ v ∈ pc.tokens, v.Constructible ∧ v.depth ≤ 32 := by
    simpa using htokens
  exact ⟨htokens, hencode, hread, hwritten, hall, (hlist _ _ [255] [7] hboth hall).1⟩

end StacksWallet.PostCondition
