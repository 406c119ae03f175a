import StacksWallet.Proofs.Transaction.Run

/-!
# Transactions that answer alike

A transaction that was read from the bytes of another one is not the same: the fields of its tuples may be in another
order, its bytes are not made yet, and it may be at another stage. Only the summary shows any of this, apart from the
stage that a refusal names. To all other calls the two answer alike, and what a call makes of them is again such a
pair.
-/

namespace StacksWallet

namespace Envelope

/-- The digest of the canonical form is that of the envelope. -/
theorem initialDigest_canonical {e : Envelope} (h : ∀ v ∈ e.values, v.Distinct) :
    e.canonical.initialDigest = e.initialDigest := by
  have hbytes : e.canonical.initialBytes = e.initialBytes := by
    unfold initialBytes
    refine bind_congr fun auth => ?_
    have hencode : ({ e with auth := auth } : Envelope).canonical.encode =
        ({ e with auth := auth } : Envelope).encode := encode_canonical h
    exact hencode
  rw [initialDigest, initialDigest, hbytes]

end Envelope

namespace Transaction

variable {α β : Type} {t u : Transaction}

/-- Two faults are the same, but for the stage that they name. -/
inductive SameFault : Fault → Fault → Prop where
  /-- One fault. -/
  | same (fault : Fault) : SameFault fault fault
  /-- An operation that is refused at two stages. -/
  | notNow (act : Act) {s s' : Stage} (h : s = .unsigned ↔ s' = .unsigned) :
      SameFault (.stage (.notNow act s)) (.stage (.notNow act s'))
  /-- A sponsor who is refused at two stages. -/
  | notSponsored {s s' : Stage} (h : s = .unsigned ↔ s' = .unsigned) :
      SameFault (.stage (.notSponsored s)) (.stage (.notSponsored s'))

/-- Two answers are the same, but for the stage that a refusal names. -/
inductive SameReply : Except Fault α → Except Fault α → Prop where
  /-- One result. -/
  | ok (a : α) : SameReply (.ok a) (.ok a)
  /-- Two failures for the same reason. -/
  | error {fault fault' : Fault} (h : SameFault fault fault') : SameReply (.error fault) (.error fault')

/-- Bytes that are kept are what the transaction is written as, and it is signed. -/
def Keeps (t : Transaction) : Prop := ∀ b, t.cached? = some b → t.stage ≠ .unsigned ∧ t.envelope.encode = .ok b

/-- Bytes that were made are kept. -/
theorem Made.keeps {b : Bytes} {t' : Transaction} (h : t.Made b t') (hb : t.envelope.encode = .ok b) : t'.Keeps := by
  intro c hc
  obtain rfl := Option.some.inj (h.cached.symm.trans hc)
  exact ⟨mem_signedStages_iff_ne.mp h.stage, h.envelope ▸ hb⟩

/-- Nothing is kept where there are no bytes. -/
theorem keeps_of_none (hcached : t.cached? = none) : t.Keeps := fun _ hb => nomatch hcached.symm.trans hb

/-- The bytes that are kept are those of the transaction. -/
theorem Keeps.eq_of_encode {b : Bytes} (h : t.Keeps) (hb : t.envelope.encode = .ok b) :
    ∀ c, t.cached? = some c → c = b := fun c hc => Except.ok.inj ((h c hc).2.symm.trans hb)

/-- Nothing is kept of a transaction that cannot be written. -/
theorem Keeps.cached_of_error {fault : Fault} (h : t.Keeps) (he : t.envelope.encode = .error fault) :
    t.cached? = none := by
  cases hc : t.cached? with
  | none => rfl
  | some b => nomatch (h b hc).2.symm.trans he

/-- The number of bytes is that of the bytes that the transaction is written as. -/
theorem Keeps.byteLength (h : t.Keeps) : t.byteLength = t.envelope.encode.map (·.length) := by
  unfold Transaction.byteLength
  cases hc : t.cached? with
  | none => rfl
  | some b =>
    rw [(h b hc).2]
    rfl

/-- One transaction is the canonical form of another one. They are at the same stage, except that the bytes of either
may be made already. -/
structure Mirrors (t u : Transaction) : Prop where
  distinct : ∀ v ∈ t.envelope.values, v.Distinct
  canonical : u.envelope = t.envelope.canonical
  unsigned_iff : t.stage = .unsigned ↔ u.stage = .unsigned
  keeps : t.Keeps
  keeps' : u.Keeps

namespace Mirrors

/-- Both have the same authorization. -/
theorem auth (h : Mirrors t u) : u.envelope.auth = t.envelope.auth := by
  rw [h.canonical]
  rfl

/-- Both are written in the same way. -/
theorem encode (h : Mirrors t u) : u.envelope.encode = t.envelope.encode := by
  rw [h.canonical, Envelope.encode_canonical h.distinct]

/-- The digests of both are the same. -/
theorem initialDigest (h : Mirrors t u) : u.initialDigest = t.initialDigest := by
  rw [Transaction.initialDigest, h.canonical, Envelope.initialDigest_canonical h.distinct]
  rfl

/-- Both are at a stage with a signature, or neither is. -/
theorem signed_iff (h : Mirrors t u) : t.stage ∈ signedStages ↔ u.stage ∈ signedStages := by
  rw [mem_signedStages_iff_ne, mem_signedStages_iff_ne, ne_eq, ne_eq, h.unsigned_iff]

/-- Both have the same number of bytes. -/
theorem byteLength (h : Mirrors t u) : u.byteLength = t.byteLength := by
  rw [h.keeps.byteLength, h.keeps'.byteLength, h.encode]

/-- Both are unsigned, or neither is. -/
theorem unsigned_mem_iff (h : Mirrors t u) : t.stage ∈ [Stage.unsigned] ↔ u.stage ∈ [Stage.unsigned] := by
  rw [List.mem_singleton, List.mem_singleton, h.unsigned_iff]

/-- Both may get another authorization, by which any bytes are dropped. -/
theorem change {t' u' : Transaction} (h : Mirrors t u) (ht : t'.envelope = { t.envelope with auth := t'.envelope.auth })
    (hu : u'.envelope = { u.envelope with auth := u'.envelope.auth }) (hauth : u'.envelope.auth = t'.envelope.auth)
    (hstage : t'.stage = .unsigned ↔ u'.stage = .unsigned) (htcached : t'.cached? = none)
    (hucached : u'.cached? = none) : Mirrors t' u' := by
  refine ⟨?_, ?_, hstage, keeps_of_none htcached, keeps_of_none hucached⟩
  · rw [ht]
    exact h.distinct
  · rw [hu, ht, hauth, h.canonical]
    rfl

/-- Both may get another origin while they are unsigned. -/
theorem withOrigin (h : Mirrors t u) (hstage : t.stage = .unsigned) (origin : SpendingCondition) :
    Mirrors (t.withOrigin origin) (u.withOrigin origin) := by
  have hstage' := h.unsigned_iff.mp hstage
  refine ⟨h.distinct, ?_, h.unsigned_iff, fun b hb => ?_, fun b hb => ?_⟩
  · rw [Transaction.withOrigin, Transaction.withOrigin, h.canonical]
    rfl
  · exact absurd hstage (h.keeps b hb).1
  · exact absurd hstage' (h.keeps' b hb).1

/-- The bytes of the first may be made. -/
theorem made {b : Bytes} {t' : Transaction} (h : Mirrors t u) (hmade : t.Made b t') (hstage : t.stage ∈ signedStages)
    (hb : t.envelope.encode = .ok b) : Mirrors t' u := by
  have hsigned := mem_signedStages_iff_ne.mp hmade.stage
  have hsigned' := mem_signedStages_iff_ne.mp (h.signed_iff.mp hstage)
  refine ⟨?_, ?_, iff_of_false hsigned hsigned', hmade.keeps hb, h.keeps'⟩
  · rw [hmade.envelope]
    exact h.distinct
  · rw [hmade.envelope, h.canonical]

/-- The bytes of the second may be made. -/
theorem made' {b : Bytes} {u' : Transaction} (h : Mirrors t u) (hmade : u.Made b u') (hstage : u.stage ∈ signedStages)
    (hb : u.envelope.encode = .ok b) : Mirrors t u' := by
  have hsigned := mem_signedStages_iff_ne.mp (h.signed_iff.mpr hstage)
  have hsigned' := mem_signedStages_iff_ne.mp hmade.stage
  exact ⟨h.distinct, hmade.envelope.trans h.canonical, iff_of_false hsigned hsigned', h.keeps, hmade.keeps hb⟩

end Mirrors

/-- Two operations end alike if they answer the same and leave one transaction as the canonical form of the other. -/
structure Alike (x y : Except Fault α × Transaction) : Prop where
  reply : SameReply x.1 y.1
  state : Mirrors x.2 y.2

/-- Both give the same result. -/
theorem alike_pure (h : Mirrors t u) (a : α) : Alike (outcome (pure a) t) (outcome (pure a) u) := ⟨.ok a, h⟩

/-- Both fail for the same reason. -/
theorem alike_throw {fault fault' : Fault} (h : Mirrors t u) (hfault : SameFault fault fault') :
    Alike (outcome (throw fault : Op α) t) (outcome (throw fault') u) := ⟨.error hfault, h⟩

/-- Both are changed. -/
theorem alike_modify {change change' : Transaction → Transaction} (h : Mirrors (change t) (change' u)) :
    Alike (outcome (modify change) t) (outcome (modify change') u) := ⟨.ok (), h⟩

/-- Sequences end alike if their first parts do and what follows these does. -/
theorem Alike.bind {op op' : Op β} {f f' : β → Op α} (h : Alike (outcome op t) (outcome op' u))
    (hf : ∀ b {t' u' : Transaction}, Mirrors t' u' → Alike (outcome (f b) t') (outcome (f' b) u')) :
    Alike (outcome (op >>= f) t) (outcome (op' >>= f') u) := by
  rw [outcome_bind, outcome_bind]
  generalize outcome op t = x at h
  generalize outcome op' u = y at h
  obtain ⟨reply, t'⟩ := x
  obtain ⟨reply', u'⟩ := y
  obtain ⟨hreply, hstate⟩ := h
  cases hreply with
  | ok b => exact hf b hstate
  | error hfault => exact ⟨.error hfault, hstate⟩

/-- The same is made of both results. -/
theorem Alike.map {op op' : Op β} (h : Alike (outcome op t) (outcome op' u)) (f : β → α) :
    Alike (outcome (op >>= fun b => pure (f b)) t) (outcome (op' >>= fun b => pure (f b)) u) :=
  h.bind fun b _ _ hstate => alike_pure hstate (f b)

/-- Each of the transactions is looked at. -/
theorem alike_get {f f' : Transaction → Op α} (h : Alike (outcome (f t) t) (outcome (f' u) u)) :
    Alike (outcome (get >>= f) t) (outcome (get >>= f') u) := by
  rwa [outcome_get_bind, outcome_get_bind]

/-- The same is computed. -/
theorem alike_lift {x x' : Except Fault β} {f f' : β → Op α} (h : Mirrors t u) (hx : x' = x)
    (hf : ∀ b, Alike (outcome (f b) t) (outcome (f' b) u)) :
    Alike (outcome (liftM x >>= f) t) (outcome (liftM x' >>= f') u) := by
  obtain rfl := hx
  cases x' with
  | error fault => exact alike_throw h (.same fault)
  | ok b =>
    rw [outcome_lift_bind rfl, outcome_lift_bind rfl]
    exact hf b

/-- The same guard is passed, or both fail for the same reason. -/
theorem alike_guard {p p' : Prop} [Decidable p] [Decidable p'] {fault fault' : Fault} {f f' : Unit → Op α}
    (h : Mirrors t u) (hp : p' ↔ p) (hfault : SameFault fault fault')
    (hf : Alike (outcome (f ()) t) (outcome (f' ()) u)) :
    Alike (outcome (if p then throw fault >>= f else f ()) t)
      (outcome (if p' then throw fault' >>= f' else f' ()) u) := by
  by_cases hguard : p
  · rw [if_pos hguard, if_pos (hp.mpr hguard)]
    exact ⟨.error hfault, h⟩
  · rw [if_neg hguard, if_neg (mt hp.mp hguard)]
    exact hf

/-- Both are at stages that are allowed, or both are refused. -/
theorem alike_require {act : Act} {allowed : List Stage} {f f' : Unit → Op α} (h : Mirrors t u)
    (hallowed : t.stage ∈ allowed ↔ u.stage ∈ allowed)
    (hf : t.stage ∈ allowed → Alike (outcome (f ()) t) (outcome (f' ()) u)) :
    Alike (outcome (require act allowed >>= f) t) (outcome (require act allowed >>= f') u) := by
  by_cases hstage : t.stage ∈ allowed
  · rw [outcome_require_bind hstage, outcome_require_bind (hallowed.mp hstage)]
    exact hf hstage
  · rw [outcome_require_refused hstage, outcome_require_refused (mt hallowed.mpr hstage)]
    exact ⟨.error (.notNow act h.unsigned_iff), h⟩

variable {scheme : SignatureScheme}

/-- Set something on the origin of an unsigned transaction, as is done with nonce and fee. -/
def setOrigin (act : Act) (set : SpendingCondition → Except Fault SpendingCondition) : Op Unit := do
  require act [.unsigned]
  let origin ← set (← get).envelope.auth.origin
  modify (·.withOrigin origin)

/-- Both take what is set on the origin, or neither does. -/
theorem alike_setOrigin (h : Mirrors t u) (act : Act) (set : SpendingCondition → Except Fault SpendingCondition) :
    Alike (outcome (setOrigin act set) t) (outcome (setOrigin act set) u) := by
  refine alike_require h h.unsigned_mem_iff fun hstage => alike_get (alike_lift h (by rw [h.auth]) fun origin => ?_)
  exact alike_modify (h.withOrigin (List.mem_singleton.mp hstage) origin)

/-- Both can be cleared, or neither can. -/
theorem alike_clearSignatures (h : Mirrors t u) :
    Alike (outcome clearSignatures t) (outcome clearSignatures u) := by
  rw [outcome_clearSignatures, outcome_clearSignatures, h.auth]
  cases t.envelope.auth.origin.withSignature emptySignature with
  | error fault => exact ⟨.error (.same fault), h⟩
  | ok origin =>
    refine ⟨.ok (), h.change rfl rfl ?_ Iff.rfl rfl rfl⟩
    change (⟨origin, u.envelope.auth.sponsor?.map fun _ => SpendingCondition.sentinel⟩ : Authorization) = ⟨origin, _⟩
    rw [h.auth]

/-- A key signs both with one signature, or it signs neither. -/
theorem alike_sign (h : Mirrors t u) (key : KeyArg) :
    Alike (outcome (sign scheme key) t) (outcome (sign scheme key) u) := by
  refine alike_require h h.unsigned_mem_iff fun hstage => alike_lift h rfl fun signer => alike_get ?_
  refine alike_lift h (by rw [h.auth]) fun got => ?_
  refine alike_guard h (by rw [h.auth]) (by rw [h.auth]; exact .same _) (alike_get ?_)
  refine alike_lift h h.initialDigest fun running => alike_lift h (by rw [h.auth]) fun signed => ?_
  refine alike_lift h (by rw [h.auth]) fun origin => alike_modify (h.change rfl rfl ?_ Iff.rfl rfl rfl)
  change (⟨origin, u.envelope.auth.sponsor?⟩ : Authorization) = ⟨origin, t.envelope.auth.sponsor?⟩
  rw [h.auth]

/-- A key sponsors both with one signature, or it sponsors neither. -/
theorem alike_sponsor (h : Mirrors t u) (key : KeyArg) (fee nonce mode : Datum) :
    Alike (outcome (sponsor scheme key fee nonce mode) t) (outcome (sponsor scheme key fee nonce mode) u) := by
  refine alike_get (alike_guard h (by rw [h.auth]) (.notSponsored h.unsigned_iff) ?_)
  refine alike_require h h.signed_iff fun _ => alike_lift h rfl fun signer => alike_lift h rfl fun condition => ?_
  refine alike_lift h h.initialDigest fun running => alike_lift h (by rw [h.auth]) fun middle => ?_
  refine alike_lift h rfl fun signed => alike_modify (h.change rfl rfl ?_ Iff.rfl rfl rfl)
  change (⟨u.envelope.auth.origin, some _⟩ : Authorization) = ⟨t.envelope.auth.origin, some _⟩
  rw [h.auth]

/-- The signatures of both hold, or neither's do. -/
theorem alike_verify (h : Mirrors t u) : Alike (outcome (verify scheme) t) (outcome (verify scheme) u) := by
  refine alike_require h h.signed_iff fun _ => alike_get (alike_lift h h.initialDigest fun running => ?_)
  refine alike_lift h (by rw [h.auth]) fun middle => ?_
  rw [h.auth]
  cases t.envelope.auth.sponsor? with
  | none => exact alike_pure h true
  | some sponsor =>
    dsimp only
    split
    · exact alike_lift h rfl fun _ => alike_pure h true
    · exact alike_pure h true

/-- Both are written as the same bytes, or neither is written. -/
theorem alike_serialize (h : Mirrors t u) : Alike (outcome serialize t) (outcome serialize u) := by
  by_cases hstage : t.stage ∈ signedStages
  · have hstage' := h.signed_iff.mp hstage
    cases he : t.envelope.encode with
    | ok b =>
      have he' := h.encode.trans he
      obtain ⟨t', ht, hmade⟩ := outcome_serialize hstage (h.keeps.eq_of_encode he) he
      obtain ⟨u', hu, hmade'⟩ := outcome_serialize hstage' (h.keeps'.eq_of_encode he') he'
      rw [ht, hu]
      exact ⟨.ok b, (h.made hmade hstage he).made' hmade' hstage' he'⟩
    | error fault =>
      have he' := h.encode.trans he
      rw [outcome_serialize_of_error hstage (h.keeps.cached_of_error he) he,
        outcome_serialize_of_error hstage' (h.keeps'.cached_of_error he') he']
      exact ⟨.error (.same fault), h⟩
  · rw [serialize, outcome_require_refused hstage, outcome_require_refused (mt h.signed_iff.mpr hstage)]
    exact ⟨.error (.notNow .serialize h.unsigned_iff), h⟩

/-- Every call but for the summary ends alike on both. -/
theorem alike_perform (h : Mirrors t u) {c : Call} (hc : c ≠ .summary) :
    Alike (outcome (c.perform scheme) t) (outcome (c.perform scheme) u) := by
  cases c with
  | setNonce nonce => exact (alike_setOrigin h .setNonce (·.withNonce nonce)).map _
  | setFee fee => exact (alike_setOrigin h .setFee (·.withFee fee)).map _
  | sign key => exact (alike_sign h key).map _
  | sponsor key fee nonce mode => exact (alike_sponsor h key fee nonce mode).map _
  | clearSignatures => exact (alike_clearSignatures h).map _
  | verify => exact (alike_verify h).map _
  | initialDigest => exact alike_get (alike_lift h h.initialDigest fun b => alike_pure h _)
  | byteLength => exact alike_get (alike_lift h h.byteLength fun n => alike_pure h _)
  | serialize => exact (alike_serialize h).map _
  | id => exact (((alike_serialize h).map _).map _).map _
  | toHex => exact ((alike_serialize h).map _).map _
  | summary => exact absurd rfl hc

/-- All calls of a run are answered alike. -/
theorem Mirrors.replies (h : Mirrors t u) {calls : List Call} (hcalls : Call.summary ∉ calls) :
    List.Forall₂ SameReply (replies scheme t calls) (replies scheme u calls) := by
  -- On the calls, with the pair of transactions as the invariant.
  induction calls generalizing t u with
  | nil => exact .nil
  | cons c rest ih =>
    obtain ⟨hc, hrest⟩ := not_or.mp (mt List.mem_cons.mpr hcalls)
    have halike : Alike (outcome (c.perform scheme) t) (outcome (c.perform scheme) u) := alike_perform h (Ne.symm hc)
    exact .cons halike.reply (ih halike.state hrest)

/-- The bytes of a consistent transaction are kept. -/
theorem Consistent.keeps (h : t.Consistent) : t.Keeps := by
  intro b hb
  have hserialized : t.stage = .serialized := h.serialized_iff.mpr fun hnone => nomatch hnone.symm.trans hb
  refine ⟨fun hunsigned => ?_, h.cached_eq b hb⟩
  cases hunsigned.symm.trans hserialized

/-- A consistent transaction and the one that its bytes are read as are such a pair. -/
theorem Consistent.mirrors (h : t.Consistent) (hdistinct : ∀ v ∈ t.envelope.values, v.Distinct) :
    Mirrors t (ofEnvelope t.envelope.canonical) := by
  have hunsigned := h.unsigned_iff.trans (consistent_ofEnvelope t.envelope.canonical).unsigned_iff.symm
  exact ⟨hdistinct, rfl, hunsigned, h.keeps, keeps_of_none rfl⟩

/-- The way over the wire cannot be noticed. A signed transaction that is written, and whose values are nested on at
most 32 levels, is read back as one that answers all further calls as it does itself: each of them succeeds on both
or fails on both for the same reason, and gives the same bytes, identifiers, lengths and verdicts. -/
theorem replies_deserialize (hwidth : scheme.FullWidth) (hempty : scheme.NeverEmpty) (ht : Reachable scheme t)
    (hstage : t.stage = .signed ∨ t.stage = .serialized) {b : Bytes} (hb : t.envelope.encode = .ok b)
    (hdepth : ∀ v ∈ t.envelope.values, v.depth ≤ 32) :
    ∃ t' u, outcome serialize t = (.ok b, t') ∧ deserialize (.bytes b) = .ok u ∧
      ∀ calls : List Call, Call.summary ∉ calls →
        List.Forall₂ SameReply (replies scheme t' calls) (replies scheme u calls) := by
  have hconsistent := ht.consistent hempty
  have hsigned := mem_signedStages_iff.mpr hstage
  obtain ⟨t', hserialize, hmade⟩ := outcome_serialize hsigned (hconsistent.keeps.eq_of_encode hb) hb
  have hread := Envelope.ofBytes_encode (ht.valid hwidth) ht.distinct hdepth hb true
  have hmirrors : Mirrors t' (ofEnvelope t.envelope.canonical) :=
    (hconsistent.mirrors ht.distinct).made hmade hsigned hb
  exact ⟨t', _, hserialize, hread, fun calls hcalls => hmirrors.replies hcalls⟩

/-- A signed call that waits for its sponsor, with the fields of a tuple out of order. -/
def unsortedCall : Transaction :=
  tupleCall 7 (1 :: Bytes.zeros 64) .sentinel [(⟨[98], admits_b⟩, .none), (⟨[97], admits_a⟩, .bool true)]

/-- The call comes about. -/
theorem start_unsortedCall : Start unsortedCall := by
  have hmake : Transaction.make (.integer 0x80) (.integer 0x8000_0000) (.of unsortedCall.envelope.auth)
      (.of unsortedCall.envelope.payload) (.integer 3) (.integer 2) [] = .ok unsortedCall := rfl
  refine .make (fun a ha => ?_) (fun p hp v hv => ?_) (fun _ hpc => absurd hpc List.not_mem_nil) hmake
  · obtain rfl := Arg.of.inj ha
    refine ⟨⟨rfl, rfl, rfl, by decide, by decide⟩, fun c hc => ?_⟩
    obtain rfl := Option.some.inj hc
    exact sentinel_valid
  · obtain rfl := Arg.of.inj hp
    obtain rfl := List.mem_singleton.mp hv
    exact Value.constructible_of_distinct (by unfold Value.Distinct; decide) rfl

/-- The call answers further calls as the one does that is read from its bytes. -/
theorem replies_deserialize_unsortedCall :
    SignatureScheme.secp256k1.repaired.FullWidth ∧ SignatureScheme.secp256k1.repaired.NeverEmpty ∧
      Reachable SignatureScheme.secp256k1.repaired unsortedCall ∧ unsortedCall.stage = .signed ∧
        ∃ b t' u, unsortedCall.envelope.encode = .ok b ∧ outcome serialize unsortedCall = (.ok b, t') ∧
          deserialize (.bytes b) = .ok u ∧ ∀ calls : List Call, Call.summary ∉ calls →
            List.Forall₂ SameReply (replies SignatureScheme.secp256k1.repaired t' calls)
              (replies SignatureScheme.secp256k1.repaired u calls) := by
  have hwidth : SignatureScheme.secp256k1.repaired.FullWidth := fun _ h => (SignatureScheme.repaired_produces h).1
  have hempty : SignatureScheme.secp256k1.repaired.NeverEmpty := fun _ h => (SignatureScheme.repaired_produces h).2
  have ht : Reachable SignatureScheme.secp256k1.repaired unsortedCall := .start start_unsortedCall
  have hdepth : ∀ v ∈ unsortedCall.envelope.values, v.depth ≤ 32 := by
    intro v hv
    obtain rfl := List.mem_singleton.mp hv
    decide
  obtain ⟨t', u, h⟩ := replies_deserialize hwidth hempty ht (.inl rfl) rfl hdepth
  exact ⟨hwidth, hempty, ht, rfl, _, t', u, rfl, h⟩

end Transaction

end StacksWallet
