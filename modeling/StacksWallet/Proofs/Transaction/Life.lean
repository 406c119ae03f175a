import StacksWallet.Proofs.Clarity.Constructible
import StacksWallet.Proofs.Transaction.Canonical
import StacksWallet.Proofs.Transaction.Reading

/-!
# The life of a transaction

A transaction is made from parts that exist, or read from bytes, and then lives through calls of its
operations in any order, failed calls included. Whatever is called, its spending conditions stay valid, its
stage says whether there is a signature and whether there are bytes, and these bytes are what it is written as.
-/

namespace StacksWallet.Transaction

variable {scheme : SignatureScheme} {t t' : Transaction}

/-- The beginnings of a life. Spending conditions among the arguments have passed the checks of their
constructor, and so have the values in payload and conditions. -/
inductive Start : Transaction → Prop where
  /-- A transaction of the given fields. -/
  | make {version chainId : Datum} {auth : AuthArg} {payload : PayloadArg} {anchor conditionMode : Datum}
      {conditions : List (Arg PostCondition)} {t : Transaction} (hauth : ∀ a, auth = .of a → a.Valid)
      (hpayload : ∀ p, payload = .of p → ∀ v ∈ p.arguments, v.Constructible)
      (hconditions : ∀ pc, .of pc ∈ conditions → ∀ v ∈ pc.tokens, v.Constructible)
      (h : Transaction.make version chainId auth payload anchor conditionMode conditions = .ok t) : Start t
  /-- A transaction that is read. -/
  | deserialize {d : Datum} {t : Transaction} (h : Transaction.deserialize d = .ok t) : Start t

/-- A new transaction is one that is made of a valid authorization. -/
theorem Start.new {version : TransactionVersion} {chainId : Nat} {auth : Authorization} {payload : PayloadArg}
    {anchor conditionMode : Datum} {conditions : List (Arg PostCondition)} (hauth : auth.Valid)
    (hpayload : ∀ p, payload = .of p → ∀ v ∈ p.arguments, v.Constructible)
    (hconditions : ∀ pc, .of pc ∈ conditions → ∀ v ∈ pc.tokens, v.Constructible)
    (h : Transaction.new version chainId auth payload anchor conditionMode conditions = .ok t) : Start t := by
  unfold Transaction.new at h
  split at h
  · cases h
  · refine .make (fun a ha => ?_) hpayload hconditions h
    obtain rfl := Arg.of.inj ha
    exact hauth

/-- The transactions that come about: those that a life begins with, and what calls make of them, whether
they succeed or fail. -/
inductive Reachable (scheme : SignatureScheme) : Transaction → Prop where
  /-- A beginning. -/
  | start {t : Transaction} (h : Start t) : Reachable scheme t
  /-- One more call. -/
  | call {t : Transaction} (h : Reachable scheme t) {c : Call} (hc : c.Genuine scheme) :
      Reachable scheme (outcome (c.perform scheme) t).2

/-- A call changes the transaction in one of the known ways. -/
theorem change_of_call (t : Transaction) {c : Call} (hc : c.Genuine scheme) :
    Change scheme t (outcome (c.perform scheme) t).2 := by
  have hdoes : Does (c.perform scheme) t fun _ t' => c.Genuine scheme → Change scheme t t' := c.does_perform
  rcases hcall : outcome (c.perform scheme) t with ⟨fault | reply, t'⟩
  · obtain rfl := hdoes.failure hcall
    exact .stay
  · exact hdoes.success hcall hc

/-- What holds at the beginning and is kept by every change holds throughout. -/
theorem Reachable.induction {P : Transaction → Prop} (hstart : ∀ t, Start t → P t)
    (hchange : ∀ t t', Change scheme t t' → P t → P t') (ht : Reachable scheme t) : P t := by
  induction ht with
  | start h => exact hstart _ h
  | call _ hc ih => exact hchange _ _ (change_of_call _ hc) ih

/-- The conditions among the arguments are those of the transaction. -/
theorem conditionsFrom_eq_ok {position : Nat} {conditions : List (Arg PostCondition)} {pcs : List PostCondition}
    (h : PostCondition.conditionsFrom position conditions = .ok pcs) : conditions = pcs.map .of := by
  induction conditions generalizing position pcs with
  | nil =>
    obtain rfl := Except.ok.inj h
    rfl
  | cons a rest ih =>
    cases a with
    | plain d => nomatch h
    | of pc =>
      obtain ⟨rest', hrest, h⟩ := Outcome.bind_eq_ok.mp h
      obtain rfl := Except.ok.inj h
      rw [ih hrest, List.map_cons]

/-- The envelope of the given fields, if they are objects, has these objects as its parts. -/
theorem envelope_of_make {version chainId : Datum} {auth : AuthArg} {payload : PayloadArg}
    {anchor conditionMode : Datum} {conditions : List (Arg PostCondition)} {e : Envelope}
    (h : Envelope.make version chainId auth payload anchor conditionMode conditions = .ok e) :
    auth = .of e.auth ∧ payload = .of e.payload ∧ conditions = e.conditions.map .of := by
  obtain ⟨_, -, h⟩ := Outcome.bind_eq_ok.mp h
  obtain ⟨_, -, h⟩ := Outcome.bind_eq_ok.mp h
  obtain ⟨a, ha, h⟩ := Outcome.bind_eq_ok.mp h
  obtain ⟨p, hp, h⟩ := Outcome.bind_eq_ok.mp h
  obtain ⟨_, -, h⟩ := Outcome.bind_eq_ok.mp h
  obtain ⟨_, -, h⟩ := Outcome.bind_eq_ok.mp h
  obtain ⟨pcs, hpcs, h⟩ := Outcome.bind_eq_ok.mp h
  obtain rfl := Except.ok.inj h
  refine ⟨?_, ?_, conditionsFrom_eq_ok hpcs⟩
  · cases auth with
    | plain => cases ha
    | of => exact congrArg Arg.of (Except.ok.inj ha)
  · cases payload with
    | plain => cases hp
    | of => exact congrArg Arg.of (Except.ok.inj hp)

/-- A transaction is new if it has an unsigned origin and the given fields, and nothing was done with it. -/
theorem new_eq_ok_iff {version : TransactionVersion} {chainId : Nat} {auth : Authorization} {payload : PayloadArg}
    {anchor conditionMode : Datum} {conditions : List (Arg PostCondition)} :
    Transaction.new version chainId auth payload anchor conditionMode conditions = .ok t ↔
      auth.origin.signature = emptySignature ∧
        ∃ e, Envelope.make (.integer version.code) (.integer chainId) (.of auth) payload anchor conditionMode
          conditions = .ok e ∧ t = ⟨e, .unsigned, none⟩ := by
  have hsigned : auth.origin.isSigned = true ↔ auth.origin.signature ≠ emptySignature := bne_iff_ne
  unfold Transaction.new
  split
  · rename_i h
    exact ⟨nofun, fun ⟨hempty, _⟩ => absurd hempty (hsigned.mp h)⟩
  · rename_i h
    have hempty := not_not.mp (mt hsigned.mpr h)
    rw [Transaction.make, Outcome.map_eq_ok, and_iff_right hempty]
    refine exists_congr fun e => and_congr_right fun he => ?_
    obtain rfl := Arg.of.inj (envelope_of_make he).1
    rw [ofEnvelope, if_neg h, eq_comm]

/-- A life begins with an envelope, valid conditions, and values whose tuples have distinct names. -/
theorem Start.envelope (h : Start t) :
    t = ofEnvelope t.envelope ∧ t.envelope.auth.Valid ∧ ∀ v ∈ t.envelope.values, v.Distinct := by
  cases h with
  | make hauth hpayload hconditions h =>
    obtain ⟨e, he, rfl⟩ := Outcome.map_eq_ok.mp h
    obtain ⟨ha, hp, rfl⟩ := envelope_of_make he
    refine ⟨rfl, hauth _ ha, Envelope.forall_values_iff.mpr ⟨fun pc hpc v hv => ?_, fun v hv => ?_⟩⟩
    · exact (hconditions pc (List.mem_map_of_mem hpc) v hv).distinct
    · exact (hpayload _ hp v hv).distinct
  | deserialize h =>
    obtain ⟨_, -, e, hsettled, -, rfl⟩ := deserialize_eq_ok_iff.mp h
    exact ⟨rfl, hsettled.auth, hsettled.distinct⟩

/-- Operations change nothing but the authorization. -/
theorem Change.envelope_eq (h : Change scheme t t') : t'.envelope = { t.envelope with auth := t'.envelope.auth } := by
  cases h <;> rfl

/-- The tuples in a transaction that comes about have distinct names. -/
theorem Reachable.distinct (ht : Reachable scheme t) : ∀ v ∈ t.envelope.values, v.Distinct := by
  refine ht.induction (P := fun t => ∀ v ∈ t.envelope.values, v.Distinct) (fun t h => h.envelope.2.2) ?_
  intro t t' hchange h
  rw [hchange.envelope_eq]
  exact h

/-- A condition for the holder of a key is valid. -/
theorem ofPublicKey_valid {publicKey nonce fee mode : Datum} {c : SpendingCondition}
    (h : SpendingCondition.ofPublicKey publicKey nonce fee mode = .ok c) : c.Valid := by
  obtain ⟨_, -, h⟩ := Outcome.bind_eq_ok.mp h
  obtain ⟨_, -, h⟩ := Outcome.bind_eq_ok.mp h
  exact SpendingCondition.valid_of_make h

/-- The placeholder for a sponsor is valid. -/
theorem sentinel_valid : SpendingCondition.sentinel.Valid := ⟨rfl, rfl, rfl, by decide, by decide⟩

/-- Changes keep spending conditions valid. -/
theorem Change.valid (hwidth : scheme.FullWidth) (h : Change scheme t t') (hauth : t.envelope.auth.Valid) :
    t'.envelope.auth.Valid := by
  cases h with
  | stay | serialize => exact hauth
  | nonce _ horigin => exact ⟨SpendingCondition.valid_of_make horigin, hauth.sponsor⟩
  | fee _ horigin => exact ⟨SpendingCondition.valid_of_make horigin, hauth.sponsor⟩
  | sign _ _ _ _ _ horigin => exact ⟨SpendingCondition.valid_of_make horigin, hauth.sponsor⟩
  | sponsor _ _ hsigner hcondition _ _ hsignature =>
    have hvalid := ofPublicKey_valid hcondition
    have hlength := hwidth _ (SpendingCondition.nextSignature_produces hsigner hsignature)
    refine ⟨hauth.origin, fun c hc => ?_⟩
    obtain rfl := Option.some.inj hc
    exact { hvalid with signature_length := hlength }
  | clear horigin =>
    refine ⟨SpendingCondition.valid_of_make horigin, fun c hc => ?_⟩
    obtain ⟨_, -, rfl⟩ := Option.map_eq_some_iff.mp hc
    exact sentinel_valid

/-- The spending conditions of a transaction that comes about are valid. -/
theorem Reachable.valid (hwidth : scheme.FullWidth) (ht : Reachable scheme t) : t.envelope.auth.Valid :=
  ht.induction (P := fun t => t.envelope.auth.Valid) (fun _ h => h.envelope.2.1) fun _ _ hchange =>
    hchange.valid hwidth

/-- The stage agrees with the signature and with the bytes, and these are what the transaction is written as. -/
structure Consistent (t : Transaction) : Prop where
  unsigned_iff : t.stage = .unsigned ↔ t.envelope.auth.origin.signature = emptySignature
  serialized_iff : t.stage = .serialized ↔ t.cached? ≠ none
  cached_eq : ∀ b, t.cached? = some b → t.envelope.encode = .ok b

/-- A transaction that was not used yet is consistent. -/
theorem consistent_ofEnvelope (e : Envelope) : (ofEnvelope e).Consistent := by
  have hstage := stage_ofEnvelope e
  refine ⟨?_, ?_, nofun⟩
  · rw [hstage, ite_eq_left_iff]
    exact ⟨fun h => by_contra fun hne => Stage.noConfusion (h hne), fun h hne => absurd h hne⟩
  · rw [hstage]
    constructor
    · intro h
      split at h <;> cases h
    · intro h
      exact absurd rfl h

/-- An unsigned transaction stays consistent with an origin of the same signature. -/
theorem Consistent.withOrigin {origin : SpendingCondition} (h : t.Consistent) (hstage : t.stage = .unsigned)
    (horigin : origin.signature = t.envelope.auth.origin.signature) : (t.withOrigin origin).Consistent := by
  have hcached : t.cached? = none := by
    by_contra hsome
    cases hstage.symm.trans (h.serialized_iff.mpr hsome)
  refine ⟨?_, h.serialized_iff, fun b hb => absurd (hcached.symm.trans hb) (Option.some_ne_none b).symm⟩
  exact h.unsigned_iff.trans (by rw [← horigin]; rfl)

/-- Changes keep transactions consistent. -/
theorem Change.consistent (hempty : scheme.NeverEmpty) (h : Change scheme t t') (ht : t.Consistent) :
    t'.Consistent := by
  have hsigned : t.stage ∈ signedStages → t.envelope.auth.origin.signature ≠ emptySignature := by
    intro hstage hsignature
    rw [ht.unsigned_iff.mpr hsignature] at hstage
    exact absurd hstage (by decide)
  cases h with
  | stay => exact ht
  | nonce hstage horigin => exact ht.withOrigin hstage (SpendingCondition.signature_of_make horigin)
  | fee hstage horigin => exact ht.withOrigin hstage (SpendingCondition.signature_of_make horigin)
  | sign hstage hsigner _ _ hsignature horigin =>
    have hne := hempty _ (SpendingCondition.nextSignature_produces hsigner hsignature)
    have horigin := SpendingCondition.signature_of_make horigin
    exact ⟨⟨nofun, fun h => absurd (horigin.symm.trans h) hne⟩, ⟨nofun, fun h => absurd rfl h⟩, nofun⟩
  | sponsor hstage =>
    exact ⟨⟨nofun, fun h => absurd h (hsigned hstage)⟩, ⟨nofun, fun h => absurd rfl h⟩, nofun⟩
  | clear horigin =>
    have horigin := SpendingCondition.signature_of_make horigin
    exact ⟨⟨fun _ => horigin, fun _ => rfl⟩, ⟨nofun, fun h => absurd rfl h⟩, nofun⟩
  | serialize hstage _ hb =>
    refine ⟨⟨nofun, fun h => absurd h (hsigned hstage)⟩, ⟨fun _ => nofun, fun _ => rfl⟩, fun c hc => ?_⟩
    obtain rfl := Option.some.inj hc
    exact hb

/-- Transactions that come about are consistent. -/
theorem Reachable.consistent (hempty : scheme.NeverEmpty) (ht : Reachable scheme t) : t.Consistent := by
  refine ht.induction (fun t h => ?_) fun _ _ hchange => hchange.consistent hempty
  rw [h.envelope.1]
  exact consistent_ofEnvelope t.envelope

end StacksWallet.Transaction
