import StacksWallet.Proofs.PostCondition.Canonical
import StacksWallet.Proofs.Transaction.Envelope

/-!
# Canonical envelopes

The canonical form of an envelope has the values and assets in it in canonical form. It is written as the
envelope is, equals it in every part, and is what is read from its bytes if no value is too deep.
-/

namespace StacksWallet

namespace Payload

/-- The values in a payload. -/
def arguments : Payload → List Value
  | transfer .. => []
  | call _ _ _ arguments => arguments

/-- The payload with its arguments in canonical form. -/
def canonical : Payload → Payload
  | transfer recipient amount memo => transfer recipient amount memo
  | call address contract function arguments => call address contract function (arguments.map Value.canonical)

/-- A payload is written as its canonical form is. -/
theorem encode_canonical {p : Payload} (h : ∀ v ∈ p.arguments, v.Distinct) : p.canonical.encode = p.encode := by
  cases p with
  | transfer => rfl
  | call address contract function arguments =>
    have harguments : Value.encodeAll (arguments.map Value.canonical) = Value.encodeAll arguments :=
      Spelling.encodeAll_map Value.encode Value.encodeAll rfl (fun _ _ => rfl) fun v hv =>
        Value.encode_canonical (h v hv)
    rw [canonical, encode, encode, harguments, List.length_map]

/-- The canonical form of a payload that is not too deep is settled. -/
theorem settled_canonical {p : Payload} (h : ∀ v ∈ p.arguments, v.Distinct)
    (hdepth : ∀ v ∈ p.arguments, v.depth ≤ Value.depthLimit) : p.canonical.Settled := by
  cases p with
  | transfer => trivial
  | call address contract function arguments =>
    exact List.forall_mem_map.mpr fun v hv => Value.settled_canonical (h v hv) (hdepth v hv)

/-- A payload equals its canonical form. -/
theorem canonical_equal {p : Payload} (h : ∀ v ∈ p.arguments, v.Distinct) : p.canonical.equal p = true := by
  cases p with
  | transfer => simp [canonical, equal]
  | call address contract function arguments =>
    have hlist : (Value.list arguments).Distinct := Value.forall_itemsKeyLists.mpr h
    have hequal := Value.canonical_equal hlist
    rw [Value.canonical, Value.canonicalItems_eq] at hequal
    simp [canonical, equal, hequal]

end Payload

namespace Envelope

/-- The values in an envelope: the tokens of its conditions and the arguments of its payload. -/
def values (e : Envelope) : List Value := e.conditions.flatMap PostCondition.tokens ++ e.payload.arguments

/-- The values in an envelope have a property if those in its parts have it. -/
theorem forall_values_iff {e : Envelope} {P : Value → Prop} :
    (∀ v ∈ e.values, P v) ↔ (∀ pc ∈ e.conditions, ∀ v ∈ pc.tokens, P v) ∧ ∀ v ∈ e.payload.arguments, P v := by
  simp only [values, List.forall_mem_append, List.forall_mem_flatMap]

/-- The envelope with conditions and payload in canonical form. -/
def canonical (e : Envelope) : Envelope :=
  { e with conditions := e.conditions.map PostCondition.canonical, payload := e.payload.canonical }

/-- An envelope is written as its canonical form is. -/
theorem encode_canonical {e : Envelope} (h : ∀ v ∈ e.values, v.Distinct) : e.canonical.encode = e.encode := by
  obtain ⟨hconditions, hpayload⟩ := forall_values_iff.mp h
  have hall : PostCondition.encodeAll e.canonical.conditions = PostCondition.encodeAll e.conditions :=
    PostCondition.encodeAll_canonical hconditions
  rw [encode, encode, hall, canonical, Payload.encode_canonical hpayload]

/-- The canonical form of an envelope that is written and not too deep is settled. -/
theorem settled_canonical {e : Envelope} {b : Bytes} (hauth : e.auth.Valid) (h : ∀ v ∈ e.values, v.Distinct)
    (hdepth : ∀ v ∈ e.values, v.depth ≤ Value.depthLimit) (hb : e.encode = .ok b) : e.canonical.Settled := by
  obtain ⟨hconditions, hpayload⟩ := forall_values_iff.mp h
  obtain ⟨hconditions', hpayload'⟩ := forall_values_iff.mp hdepth
  obtain ⟨_, _, hall, -, -⟩ := (encode_eq_ok_iff hauth).mp hb
  exact ⟨hauth, PostCondition.settled_map_canonical hconditions hconditions' hall,
    Payload.settled_canonical hpayload hpayload'⟩

/-- The values of an envelope that is read have distinct names. -/
theorem Settled.distinct {e : Envelope} (h : e.Settled) : ∀ v ∈ e.values, v.Distinct := by
  refine forall_values_iff.mpr ⟨fun pc hpc v hv => ?_, fun v hv => ?_⟩
  · cases pc with
    | native | fungible => cases hv
    | nonFungible holder asset token code =>
      obtain rfl := List.mem_singleton.mp hv
      exact (h.conditions _ hpc).2.ordered.distinct
  · have hpayload := h.payload
    cases hp : e.payload with
    | transfer =>
      rw [hp] at hv
      cases hv
    | call =>
      rw [hp] at hv hpayload
      exact (hpayload v hv).ordered.distinct

/-- Two envelopes are equal part by part, whatever the order of tuple fields in their values. -/
structure Equal (e e' : Envelope) : Prop where
  version : e.version = e'.version
  chainId : e.chainId = e'.chainId
  auth : e.auth = e'.auth
  anchor : e.anchor = e'.anchor
  conditionMode : e.conditionMode = e'.conditionMode
  conditions : List.Forall₂ (fun pc pc' => pc.equal pc' = true) e.conditions e'.conditions
  payload : e.payload.equal e'.payload = true

/-- An envelope equals its canonical form. -/
theorem canonical_equal {e : Envelope} (h : ∀ v ∈ e.values, v.Distinct) : e.canonical.Equal e := by
  obtain ⟨hconditions, hpayload⟩ := forall_values_iff.mp h
  exact ⟨rfl, rfl, rfl, rfl, rfl, PostCondition.map_canonical_equal hconditions, Payload.canonical_equal hpayload⟩

end Envelope

end StacksWallet
