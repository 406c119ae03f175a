import StacksWallet.Proofs.Transaction.Coverage

/-!
# Transactions over the wire

A signed transaction whose values are not too deep is read back from its bytes as a signed transaction that
equals it in every part. Only the order of tuple fields and the way in which versions of assets were given are
lost, and neither counts for equality.
-/

namespace StacksWallet

namespace Envelope

/-- An envelope with valid spending conditions is read back in canonical form, if no value is too deep. -/
theorem ofBytes_encode {e : Envelope} {b : Bytes} (hauth : e.auth.Valid) (hdistinct : ∀ v ∈ e.values, v.Distinct)
    (hdepth : ∀ v ∈ e.values, v.depth ≤ Value.depthLimit) (hb : e.encode = .ok b) (guarded : Bool) :
    Transaction.ofBytes guarded b = .ok (Transaction.ofEnvelope e.canonical) :=
  Transaction.ofBytes_eq_ok_iff.mpr
    ⟨e.canonical, settled_canonical hauth hdistinct hdepth hb, (encode_canonical hdistinct).trans hb, rfl⟩

end Envelope

namespace SignatureScheme

/-- The scheme with one signature in place of all that are not of the right form. -/
def repaired (scheme : SignatureScheme) : SignatureScheme :=
  { scheme with
    sign := fun secret digest =>
      let signature := scheme.sign secret digest
      if signature.length = signatureWidth ∧ signature ≠ emptySignature then signature else 1 :: Bytes.zeros 64 }

/-- The signatures of a repaired scheme have the right form. -/
theorem repaired_produces {scheme : SignatureScheme} {signature : Bytes} (h : scheme.repaired.Produces signature) :
    signature.length = signatureWidth ∧ signature ≠ emptySignature := by
  obtain ⟨secret, digest, -, -, -, rfl⟩ := h
  dsimp only [repaired]
  split
  · assumption
  · exact ⟨rfl, by decide⟩

end SignatureScheme

namespace Transaction

/-- A transaction that comes about and is signed is read back from its bytes, signed and equal in every part, if
its values are nested on at most 32 levels. -/
theorem deserialize_serialize {scheme : SignatureScheme} (hwidth : scheme.FullWidth) (hempty : scheme.NeverEmpty)
    {t : Transaction} (ht : Reachable scheme t) (hstage : t.stage = .signed ∨ t.stage = .serialized) {b : Bytes}
    (hb : t.envelope.encode = .ok b) (hdepth : ∀ v ∈ t.envelope.values, v.depth ≤ 32) :
    ∃ t' u, outcome serialize t = (.ok b, t') ∧ deserialize (.bytes b) = .ok u ∧ u.stage = .signed ∧
      u.envelope.Equal t.envelope := by
  have hconsistent := ht.consistent hempty
  have hcached : ∀ c, t.cached? = some c → c = b := fun c hc =>
    Except.ok.inj ((hconsistent.cached_eq c hc).symm.trans hb)
  have hallowed : t.stage ∈ signedStages := by
    rcases hstage with h | h
    · rw [h]
      decide
    · rw [h]
      decide
  have hsigned : t.envelope.auth.origin.signature ≠ emptySignature := fun h => by
    rw [hconsistent.unsigned_iff.mpr h] at hstage
    rcases hstage with hstage | hstage
    · cases hstage
    · cases hstage
  obtain ⟨t', ht', -⟩ := outcome_serialize hallowed hcached hb
  refine ⟨t', ofEnvelope t.envelope.canonical, ht', ?_, ?_, Envelope.canonical_equal ht.distinct⟩
  · exact Envelope.ofBytes_encode (ht.valid hwidth) ht.distinct hdepth hb true
  · rw [stage_ofEnvelope]
    exact if_neg hsigned

/-- The fields of a token's name, out of order and with an account in a list. -/
def tokenFields : List (Name × Value) :=
  [(⟨[98], admits_b⟩, .list [.principal ⟨⟨.whole ⟨23, by decide⟩, .zero⟩, none⟩]), (⟨[97], admits_a⟩, .bool true)]

/-- A token that a tuple names. -/
def unsortedToken : Value := .tuple tokenFields

/-- The names of its fields are distinct. -/
theorem constructible_unsortedToken : unsortedToken.Constructible :=
  Value.constructible_of_distinct (by unfold Value.Distinct; decide) rfl

/-- The asset that the token is of. -/
def tokenAsset : Asset := ⟨.integer 26, .zero, ⟨[97], admits_a⟩, ⟨[98], admits_b⟩⟩

/-- The condition that the origin sends the token. -/
def tokenCondition : PostCondition := .nonFungible .origin tokenAsset unsortedToken .sent

/-- A signed call with the token as its argument, on this condition. -/
def tokenCall : Transaction :=
  ofEnvelope
    { (tupleCall 7 (1 :: Bytes.zeros 64) .sentinel tokenFields).envelope with conditions := [tokenCondition] }

/-- The call comes about. -/
theorem start_tokenCall : Start tokenCall := by
  have hmake : Transaction.make (.integer 0x80) (.integer 0x8000_0000) (.of tokenCall.envelope.auth)
      (.of tokenCall.envelope.payload) (.integer 3) (.integer 2) [.of tokenCondition] = .ok tokenCall := rfl
  refine .make (fun a ha => ?_) (fun p hp v hv => ?_) (fun pc hpc v hv => ?_) hmake
  · obtain rfl := Arg.of.inj ha
    refine ⟨⟨rfl, rfl, rfl, by decide, by decide⟩, fun c hc => ?_⟩
    obtain rfl := Option.some.inj hc
    exact sentinel_valid
  · obtain rfl := Arg.of.inj hp
    obtain rfl := List.mem_singleton.mp hv
    exact constructible_unsortedToken
  · obtain rfl := Arg.of.inj (List.mem_singleton.mp hpc)
    obtain rfl := List.mem_singleton.mp hv
    exact constructible_unsortedToken

/-- The call is read back from its bytes, signed and equal in every part. -/
theorem deserialize_serialize_tokenCall :
    SignatureScheme.secp256k1.repaired.FullWidth ∧ SignatureScheme.secp256k1.repaired.NeverEmpty ∧
      Reachable SignatureScheme.secp256k1.repaired tokenCall ∧ tokenCall.stage = .signed ∧
        ∃ b t' u, tokenCall.envelope.encode = .ok b ∧ outcome serialize tokenCall = (.ok b, t') ∧
          deserialize (.bytes b) = .ok u ∧ u.stage = .signed ∧ u.envelope.Equal tokenCall.envelope := by
  have hwidth : SignatureScheme.secp256k1.repaired.FullWidth := fun _ h => (SignatureScheme.repaired_produces h).1
  have hempty : SignatureScheme.secp256k1.repaired.NeverEmpty := fun _ h => (SignatureScheme.repaired_produces h).2
  have ht : Reachable SignatureScheme.secp256k1.repaired tokenCall := .start start_tokenCall
  have hdepth : ∀ v ∈ tokenCall.envelope.values, v.depth ≤ 32 := by
    intro v hv
    -- The condition and the payload have one value each, and it is the same.
    obtain rfl | rfl := List.mem_pair.mp hv
    · decide
    · decide
  obtain ⟨t', u, h⟩ := deserialize_serialize hwidth hempty ht (.inl rfl) rfl hdepth
  exact ⟨hwidth, hempty, ht, rfl, _, t', u, rfl, h⟩

end Transaction

end StacksWallet
