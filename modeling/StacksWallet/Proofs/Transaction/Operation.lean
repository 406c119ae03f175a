import StacksWallet.Proofs.Signing.Signer
import StacksWallet.Transaction.Summary

/-!
# What an operation does to a transaction

Every operation checks first and changes the transaction last, so that one that fails leaves it as it was. The
changes are few: another origin, a signature of the origin, a sponsor, a return to the start, and the bytes
once they are made. Each is recorded with everything that was checked before it.
-/

namespace StacksWallet.Transaction

variable {α β : Type} {t : Transaction} {R : α → Transaction → Prop}

/-- How an operation ends, and the transaction that it leaves behind. -/
def outcome (op : Op α) (t : Transaction) : Except Fault α × Transaction := op.run t

/-- An operation ends with a result and a transaction that are related, or it fails and changes nothing. -/
structure Does (op : Op α) (t : Transaction) (R : α → Transaction → Prop) : Prop where
  success : ∀ {a t'}, outcome op t = (.ok a, t') → R a t'
  failure : ∀ {fault t'}, outcome op t = (.error fault, t') → t' = t

/-- A sequence goes on from where its first part has stopped, unless that part has failed. -/
theorem outcome_bind (op : Op β) (f : β → Op α) (t : Transaction) :
    outcome (op >>= f) t =
      match outcome op t with
      | (.ok b, t₁) => outcome (f b) t₁
      | (.error fault, t₁) => (.error fault, t₁) := by
  rw [outcome, outcome, Outcome.run_bind]
  rcases op.run t with ⟨fault | b, t₁⟩ <;> rfl

/-- A sequence succeeds if its parts do one after the other. -/
theorem outcome_bind_eq_ok {op : Op β} {f : β → Op α} {a : α} {t' : Transaction} :
    outcome (op >>= f) t = (.ok a, t') ↔
      ∃ b t₁, outcome op t = (.ok b, t₁) ∧ outcome (f b) t₁ = (.ok a, t') := by
  rw [outcome_bind]
  rcases outcome op t with ⟨fault | b, t₁⟩ <;> simp [and_assoc]

/-- A sequence gives a result if its first part succeeds and what follows gives it. -/
theorem fst_outcome_bind_eq_ok {op : Op β} {f : β → Op α} {a : α} :
    (outcome (op >>= f) t).1 = .ok a ↔ ∃ b t₁, outcome op t = (.ok b, t₁) ∧ (outcome (f b) t₁).1 = .ok a := by
  rw [outcome_bind]
  rcases outcome op t with ⟨fault | b, t₁⟩ <;> simp [and_assoc]

/-- What follows a step that leads to one transaction only, unless it fails, gives the result on that transaction. -/
theorem fst_outcome_step_eq_ok {step : Op Unit} {rest : Op α} {a : α} {p : Prop} {u : Transaction}
    (h : ∀ {t'}, outcome step t = (.ok (), t') ↔ p ∧ t' = u) :
    (outcome (step >>= fun _ => rest) t).1 = .ok a ↔ p ∧ (outcome rest u).1 = .ok a := by
  rw [fst_outcome_bind_eq_ok]
  constructor
  · intro hrest
    obtain ⟨_, _, hstep, hrest⟩ := hrest
    obtain ⟨hp, rfl⟩ := h.mp hstep
    exact ⟨hp, hrest⟩
  · intro hrest
    exact ⟨(), u, h.mpr ⟨hrest.1, rfl⟩, hrest.2⟩

/-- A sequence fails if its first part does, or if that part succeeds and what follows it fails. -/
theorem outcome_bind_eq_error {op : Op β} {f : β → Op α} {fault : Fault} {t' : Transaction} :
    outcome (op >>= f) t = (.error fault, t') ↔ outcome op t = (.error fault, t') ∨
      ∃ b t₁, outcome op t = (.ok b, t₁) ∧ outcome (f b) t₁ = (.error fault, t') := by
  rw [outcome_bind]
  rcases outcome op t with ⟨fault | b, t₁⟩ <;> simp [and_assoc]

/-- What holds of a result and a transaction holds of them after nothing is done. -/
theorem does_pure {a : α} (h : R a t) : Does (pure a) t R :=
  ⟨fun h' => by obtain ⟨ha, rfl⟩ := Prod.mk.inj h'; exact Except.ok.inj ha ▸ h, nofun⟩

/-- A failure changes nothing. -/
theorem does_throw (fault : Fault) : Does (throw fault : Op α) t R :=
  ⟨nofun, fun h => (Prod.mk.inj h).2.symm⟩

/-- A change of the transaction. -/
theorem does_modify {R : Unit → Transaction → Prop} {change : Transaction → Transaction} (h : R () (change t)) :
    Does (modify change) t R :=
  ⟨fun h' => by obtain ⟨-, rfl⟩ := Prod.mk.inj h'; exact h, nofun⟩

/-- An operation that looks first changes only what it changes afterwards. -/
theorem Does.bind {op : Op β} {f : β → Op α} (h : Does op t fun b t' => t' = t ∧ Does (f b) t R) :
    Does (op >>= f) t R := by
  constructor
  · intro a t' ht
    obtain ⟨b, t₁, hop, hf⟩ := outcome_bind_eq_ok.mp ht
    obtain ⟨rfl, hdoes⟩ := h.success hop
    exact hdoes.success hf
  · intro fault t' ht
    rcases outcome_bind_eq_error.mp ht with hop | ⟨b, t₁, hop, hf⟩
    · exact h.failure hop
    · obtain ⟨rfl, hdoes⟩ := h.success hop
      exact hdoes.failure hf

/-- What is made of a result changes nothing. -/
theorem Does.map {op : Op β} {f : β → α} (h : Does op t fun b => R (f b)) :
    Does (op >>= fun b => pure (f b)) t R := by
  constructor
  · intro a t' ht
    obtain ⟨b, t₁, hop, hf⟩ := outcome_bind_eq_ok.mp ht
    obtain ⟨ha, rfl⟩ := Prod.mk.inj hf
    exact Except.ok.inj ha ▸ h.success hop
  · intro fault t' ht
    rcases outcome_bind_eq_error.mp ht with hop | ⟨b, t₁, hop, hf⟩
    · exact h.failure hop
    · nomatch (Prod.mk.inj hf).1

/-- More may be known of what is done. -/
theorem Does.imp {S : α → Transaction → Prop} {op : Op α} (h : Does op t R) (hRS : ∀ a t', R a t' → S a t') :
    Does op t S :=
  ⟨fun h' => hRS _ _ (h.success h'), h.failure⟩

/-- The transaction is looked at. -/
theorem does_get {f : Transaction → Op α} (h : Does (f t) t R) : Does (get >>= f) t R :=
  Does.bind ⟨fun h' => by obtain ⟨hb, rfl⟩ := Prod.mk.inj h'; exact ⟨rfl, Except.ok.inj hb ▸ h⟩, nofun⟩

/-- Something is computed. -/
theorem does_lift {x : Except Fault β} {f : β → Op α} (h : ∀ b, x = .ok b → Does (f b) t R) :
    Does (liftM x >>= f) t R :=
  Does.bind ⟨fun h' => by obtain ⟨hb, rfl⟩ := Prod.mk.inj h'; exact ⟨rfl, h _ hb⟩, fun h' => (Prod.mk.inj h').2.symm⟩

/-- A guard is passed. -/
theorem does_guard {p : Prop} [Decidable p] {fault : Fault} {f : Unit → Op α} (h : ¬ p → Does (f ()) t R) :
    Does (if p then throw fault >>= f else f ()) t R := by
  split
  · exact Does.bind (does_throw fault)
  · rename_i hp
    exact h hp

/-- The stage is one of those that are allowed. -/
theorem does_require {act : Act} {allowed : List Stage} {f : Unit → Op α} (h : t.stage ∈ allowed → Does (f ()) t R) :
    Does (require act allowed >>= f) t R := by
  refine Does.bind (does_get ?_)
  dsimp only
  split
  · rename_i hstage
    exact does_pure ⟨rfl, h (List.contains_iff_mem.mp hstage)⟩
  · exact does_throw _

/-- The transaction without signatures, back at the start. -/
def clearedWith (t : Transaction) (origin : SpendingCondition) : Transaction :=
  { t with
    envelope.auth := ⟨origin, t.envelope.auth.sponsor?.map fun _ => SpendingCondition.sentinel⟩
    stage := .unsigned
    cached? := none }

/-- The changes that operations make, with what was checked before. -/
inductive Change (scheme : SignatureScheme) (t : Transaction) : Transaction → Prop where
  /-- Nothing changes. -/
  | stay : Change scheme t t
  /-- Another nonce for the origin. -/
  | nonce {nonce : Datum} {origin : SpendingCondition} (hstage : t.stage = .unsigned)
      (horigin : t.envelope.auth.origin.withNonce nonce = .ok origin) : Change scheme t (t.withOrigin origin)
  /-- Another fee for the origin. -/
  | fee {fee : Datum} {origin : SpendingCondition} (hstage : t.stage = .unsigned)
      (horigin : t.envelope.auth.origin.withFee fee = .ok origin) : Change scheme t (t.withOrigin origin)
  /-- The origin's signature, by the key that the origin commits to. -/
  | sign {signer : Signer} {running signature next : Bytes} {origin : SpendingCondition}
      (hstage : t.stage = .unsigned) (hsigner : signer.Genuine scheme)
      (hhash : signerHash (.bytes signer.publicKey) (.integer t.envelope.auth.origin.mode.code) =
        .ok t.envelope.auth.origin.signer)
      (hrunning : t.initialDigest = .ok running)
      (hsignature : t.envelope.auth.origin.nextSignature scheme .standard running signer = .ok (signature, next))
      (horigin : t.envelope.auth.origin.withSignature signature = .ok origin) :
      Change scheme t { t.withOrigin origin with stage := .signed, cached? := none }
  /-- A sponsor, behind a signature of the origin that holds. -/
  | sponsor {fee nonce mode : Datum} {signer : Signer} {condition : SpendingCondition}
      {running middle signature next : Bytes} (hstage : t.stage ∈ signedStages)
      (hsponsored : t.envelope.auth.isSponsored = true) (hsigner : signer.Genuine scheme)
      (hcondition : SpendingCondition.ofPublicKey (.bytes signer.publicKey) nonce fee mode = .ok condition)
      (hrunning : t.initialDigest = .ok running)
      (hmiddle : t.envelope.auth.origin.nextVerification scheme .standard running = .ok middle)
      (hsignature : condition.nextSignature scheme .sponsored middle signer = .ok (signature, next)) :
      Change scheme t
        { t.withSponsor { condition with signature := signature } with stage := .signed, cached? := none }
  /-- No signatures and no sponsor. -/
  | clear {origin : SpendingCondition} (horigin : t.envelope.auth.origin.withSignature emptySignature = .ok origin) :
      Change scheme t (t.clearedWith origin)
  /-- The bytes, of a transaction that is signed. -/
  | serialize {b : Bytes} (hstage : t.stage ∈ signedStages) (hcached : t.cached? = none)
      (hb : t.envelope.encode = .ok b) : Change scheme t { t with stage := .serialized, cached? := some b }

variable {scheme : SignatureScheme}

/-- Setting the nonce changes the origin of an unsigned transaction. -/
theorem does_setNonce (nonce : Datum) : Does (setNonce nonce) t fun _ t' => Change scheme t t' := by
  refine does_require fun hstage => does_get (does_lift fun origin horigin => does_modify ?_)
  exact .nonce (List.mem_singleton.mp hstage) horigin

/-- Setting the fee changes the origin of an unsigned transaction. -/
theorem does_setFee (fee : Datum) : Does (setFee fee) t fun _ t' => Change scheme t t' := by
  refine does_require fun hstage => does_get (does_lift fun origin horigin => does_modify ?_)
  exact .fee (List.mem_singleton.mp hstage) horigin

/-- Signing gives the origin of an unsigned transaction a signature by its own key. -/
theorem does_sign (key : KeyArg) : Does (sign scheme key) t fun _ t' => key.Genuine scheme → Change scheme t t' := by
  refine does_require fun hstage => does_lift fun signer hsigner => does_get (does_lift fun got hgot =>
    does_guard fun hhash => does_get (does_lift fun running hrunning => does_lift fun signed hsignature =>
      does_lift fun origin horigin => does_modify fun hkey => ?_))
  obtain rfl := Decidable.not_not.mp hhash
  exact .sign (List.mem_singleton.mp hstage) (hkey.signer hsigner) hgot hrunning hsignature horigin

/-- Sponsoring attaches a sponsor behind a signature that holds. -/
theorem does_sponsor (key : KeyArg) (fee nonce mode : Datum) :
    Does (sponsor scheme key fee nonce mode) t fun _ t' => key.Genuine scheme → Change scheme t t' := by
  refine does_get (does_guard fun hsponsored => does_require fun hstage => does_lift fun signer hsigner =>
    does_lift fun condition hcondition => does_lift fun running hrunning => does_lift fun middle hmiddle =>
      does_lift fun signed hsignature => does_modify fun hkey => ?_)
  exact .sponsor hstage (by simpa using hsponsored) (hkey.signer hsigner) hcondition hrunning hmiddle hsignature

/-- Clearing drops signatures and sponsor. -/
theorem does_clearSignatures : Does clearSignatures t fun _ t' => Change scheme t t' := by
  refine does_get (does_lift fun origin horigin => ?_)
  have hchange : Change scheme t (t.clearedWith origin) := .clear horigin
  obtain ⟨⟨version, chainId, ⟨old, _ | sponsor⟩, anchor, conditionMode, conditions, payload⟩, stage, cached?⟩ := t
  · exact ⟨fun h => by obtain ⟨-, rfl⟩ := Prod.mk.inj h; exact hchange, nofun⟩
  · exact ⟨fun h => by obtain ⟨-, rfl⟩ := Prod.mk.inj h; exact hchange, nofun⟩

/-- Verifying changes nothing. -/
theorem does_verify : Does (verify scheme) t fun _ t' => t' = t := by
  refine does_require fun _ => does_get (does_lift fun running _ => does_lift fun middle _ => ?_)
  cases t.envelope.auth.sponsor? with
  | none => exact does_pure rfl
  | some sponsor =>
    dsimp only
    split
    · exact does_lift fun _ _ => does_pure rfl
    · exact does_pure rfl

/-- Serializing makes the bytes of a transaction that is signed, unless they are there. -/
theorem does_serialize : Does serialize t fun b t' => Change scheme t t' ∧ t'.cached? = some b := by
  refine does_require fun hstage => does_get ?_
  cases hcached : t.cached? with
  | some b => exact does_pure ⟨.stay, hcached⟩
  | none =>
    refine does_lift fun b hb => ?_
    have hchange : Change scheme t { t with stage := .serialized, cached? := some b } := .serialize hstage hcached hb
    exact ⟨fun h => by obtain ⟨hb, rfl⟩ := Prod.mk.inj h; exact ⟨hchange, congrArg some (Except.ok.inj hb)⟩, nofun⟩

/-- A transaction has a signature if it is signed or serialized. -/
theorem mem_signedStages_iff {s : Stage} : s ∈ signedStages ↔ s = .signed ∨ s = .serialized := by
  simp [signedStages]

/-- A transaction has a signature unless it is unsigned. -/
theorem mem_signedStages_iff_ne {s : Stage} : s ∈ signedStages ↔ s ≠ .unsigned := by
  cases s <;> simp [signedStages]

/-- A transaction in one of the stages that are required goes on. -/
theorem outcome_require {act : Act} {allowed : List Stage} (h : t.stage ∈ allowed) :
    outcome (require act allowed) t = (.ok (), t) := by
  change outcome (if allowed.contains t.stage then pure () else throw _ : Op Unit) t = _
  rw [if_pos (List.contains_iff_mem.mpr h)]
  rfl

/-- A stage that is right is passed. -/
theorem outcome_require_bind {act : Act} {allowed : List Stage} {f : Unit → Op α} (h : t.stage ∈ allowed) :
    outcome (require act allowed >>= f) t = outcome (f ()) t := by
  rw [outcome_bind, outcome_require h]

/-- A stage that is not among those that are required is refused. -/
theorem outcome_require_refused {act : Act} {allowed : List Stage} {f : Unit → Op α} (h : t.stage ∉ allowed) :
    outcome (require act allowed >>= f) t = (.error (.stage (.notNow act t.stage)), t) := by
  have hrequire : outcome (require act allowed) t = (.error (.stage (.notNow act t.stage)), t) := by
    change outcome (if allowed.contains t.stage then pure () else throw _ : Op Unit) t = _
    rw [if_neg (mt List.contains_iff_mem.mp h)]
    rfl
  rw [outcome_bind, hrequire]

/-- The transaction is looked at, and nothing changes. -/
theorem outcome_get_bind {f : Transaction → Op α} : outcome (get >>= f) t = outcome (f t) t := outcome_bind get f t

/-- What can be computed is computed, and nothing changes. -/
theorem outcome_lift_bind {x : Except Fault β} {f : β → Op α} {b : β} (h : x = .ok b) :
    outcome (liftM x >>= f) t = outcome (f b) t := by
  rw [h]
  exact outcome_bind (liftM (Except.ok b)) f t

/-- A guard whose condition fails lets the operation through. -/
theorem outcome_guard {p : Prop} [Decidable p] {fault : Fault} {f : Unit → Op α} (h : ¬ p) :
    outcome (if p then throw fault >>= f else f ()) t = outcome (f ()) t := by
  rw [if_neg h]

section Concluded

variable {γ : Type} {t' : Transaction} {change : γ → Transaction}

/-- The end of an operation that computes something and changes the transaction by it. -/
def concluded (t : Transaction) (change : γ → Transaction) : Except Fault γ → Except Fault Unit × Transaction
  | .ok c => (.ok (), change c)
  | .error fault => (.error fault, t)

/-- Such an operation succeeds if what it computes can be computed. -/
theorem concluded_eq_ok_iff {x : Except Fault γ} :
    concluded t change x = (.ok (), t') ↔ ∃ c, x = .ok c ∧ t' = change c := by
  cases x with
  | error fault => simp [concluded]
  | ok c => simp [concluded, eq_comm]

/-- What is computed step by step may as well be computed at once. -/
theorem outcome_lift_concluded {x : Except Fault β} {f : β → Op Unit} {g : β → Except Fault γ}
    (h : ∀ b, outcome (f b) t = concluded t change (g b)) :
    outcome (liftM x >>= f) t = concluded t change (x >>= g) := by
  cases x with
  | error fault => rfl
  | ok b => exact (outcome_lift_bind rfl).trans (h b)

end Concluded

/-- An unsigned transaction gets the nonce that its origin takes. -/
theorem outcome_setNonce (hstage : t.stage = .unsigned) (d : Datum) :
    outcome (setNonce d) t = concluded t t.withOrigin (t.envelope.auth.origin.withNonce d) := by
  rw [setNonce, outcome_require_bind (List.mem_singleton.mpr hstage), outcome_get_bind]
  cases t.envelope.auth.origin.withNonce d <;> rfl

/-- An unsigned transaction gets the fee that its origin takes. -/
theorem outcome_setFee (hstage : t.stage = .unsigned) (d : Datum) :
    outcome (setFee d) t = concluded t t.withOrigin (t.envelope.auth.origin.withFee d) := by
  rw [setFee, outcome_require_bind (List.mem_singleton.mpr hstage), outcome_get_bind]
  cases t.envelope.auth.origin.withFee d <;> rfl

/-- Of a key only its signer matters to signing. -/
theorem sign_congr {k k' : KeyArg} (h : signerOf scheme k = signerOf scheme k') : sign scheme k = sign scheme k' := by
  rw [sign, sign, h]

/-- Some bytes of a transaction are made and kept, and its contents stay. -/
structure Made (t : Transaction) (b : Bytes) (t' : Transaction) : Prop where
  envelope : t'.envelope = t.envelope
  stage : t'.stage ∈ signedStages
  cached : t'.cached? = some b

/-- The bytes of a transaction that is signed are what it is written as. -/
theorem outcome_serialize {b : Bytes} (hstage : t.stage ∈ signedStages) (hcached : ∀ c, t.cached? = some c → c = b)
    (hb : t.envelope.encode = .ok b) : ∃ t', outcome serialize t = (.ok b, t') ∧ t.Made b t' := by
  cases hc : t.cached? with
  | some c =>
    obtain rfl := hcached c hc
    refine ⟨t, outcome_bind_eq_ok.mpr ⟨(), t, outcome_require hstage, outcome_bind_eq_ok.mpr ⟨t, t, rfl, ?_⟩⟩,
      rfl, hstage, hc⟩
    rw [hc]
    rfl
  | none =>
    refine ⟨{ t with stage := .serialized, cached? := some b }, outcome_bind_eq_ok.mpr ⟨(), t, outcome_require hstage,
      outcome_bind_eq_ok.mpr ⟨t, t, rfl, ?_⟩⟩, rfl, mem_signedStages_iff.mpr (.inr rfl), rfl⟩
    rw [hc]
    exact outcome_bind_eq_ok.mpr ⟨b, t, congrArg (·, t) hb, rfl⟩

/-- The bytes of a transaction that cannot be written are not made. -/
theorem outcome_serialize_of_error {fault : Fault} (hstage : t.stage ∈ signedStages) (hcached : t.cached? = none)
    (he : t.envelope.encode = .error fault) : outcome serialize t = (.error fault, t) := by
  rw [serialize, outcome_require_bind hstage, outcome_get_bind, hcached, he]
  rfl

/-- Clearing leads back to the start, unless the origin does not pass the checks of its constructor. -/
theorem outcome_clearSignatures (t : Transaction) :
    outcome clearSignatures t =
      match t.envelope.auth.origin.withSignature emptySignature with
      | .ok origin => (.ok (), t.clearedWith origin)
      | .error fault => (.error fault, t) := by
  rw [clearSignatures, outcome_get_bind, outcome_bind]
  obtain ⟨⟨version, chainId, ⟨old, sponsor?⟩, anchor, conditionMode, conditions, payload⟩, stage, cached?⟩ := t
  dsimp only
  cases old.withSignature emptySignature with
  | error fault => rfl
  | ok origin =>
    cases sponsor? with
    | none => rfl
    | some sponsor => rfl

/-- A call of an operation. -/
inductive Call where
  /-- Set the origin's nonce. -/
  | setNonce (nonce : Datum)
  /-- Set the origin's fee. -/
  | setFee (fee : Datum)
  /-- Sign as the origin. -/
  | sign (key : KeyArg)
  /-- Attach a sponsor. -/
  | sponsor (key : KeyArg) (fee nonce mode : Datum)
  /-- Drop all signatures. -/
  | clearSignatures
  /-- Check the signatures. -/
  | verify
  /-- Ask for the digest that the origin's signature starts from. -/
  | initialDigest
  /-- Ask for the number of bytes. -/
  | byteLength
  /-- Make the bytes. -/
  | serialize
  /-- Ask for the identifier. -/
  | id
  /-- Make the bytes, as hexadecimal figures. -/
  | toHex
  /-- Ask for the summary. -/
  | summary

/-- What a call answers. -/
inductive Reply where
  /-- Nothing. -/
  | done
  /-- Whether signatures hold. -/
  | verdict (holds : Bool)
  /-- Bytes. -/
  | bytes (b : Bytes)
  /-- A number of bytes. -/
  | length (n : Nat)
  /-- A text. -/
  | text (t : Text)
  /-- A summary. -/
  | summary (json : Json)

namespace Call

/-- The operation that is called. -/
def perform (scheme : SignatureScheme) : Call → Op Reply
  | setNonce nonce => do
    Transaction.setNonce nonce
    return .done
  | setFee fee => do
    Transaction.setFee fee
    return .done
  | sign key => do
    Transaction.sign scheme key
    return .done
  | sponsor key fee nonce mode => do
    Transaction.sponsor scheme key fee nonce mode
    return .done
  | clearSignatures => do
    Transaction.clearSignatures
    return .done
  | verify => return .verdict (← Transaction.verify scheme)
  | initialDigest => return .bytes (← (← get).initialDigest)
  | byteLength => return .length (← (← get).byteLength)
  | serialize => return .bytes (← Transaction.serialize)
  | id => return .text (← Transaction.id)
  | toHex => return .text (← Transaction.toHex)
  | summary => return .summary (← Transaction.summary)

/-- Signers among the arguments were made from keys. -/
def Genuine (scheme : SignatureScheme) : Call → Prop
  | sign key => key.Genuine scheme
  | sponsor key .. => key.Genuine scheme
  | _ => True

/-- Every call of genuine signers makes one of the changes, and every call that fails changes nothing. -/
theorem does_perform (c : Call) : Does (c.perform scheme) t fun _ t' => c.Genuine scheme → Change scheme t t' := by
  have hserialize : Does Transaction.serialize t fun _ t' => c.Genuine scheme → Change scheme t t' :=
    does_serialize.imp fun _ _ h _ => h.1
  cases c with
  | setNonce nonce => exact ((does_setNonce nonce).imp fun _ _ h _ => h).map
  | setFee fee => exact ((does_setFee fee).imp fun _ _ h _ => h).map
  | sign key => exact (does_sign key).map
  | sponsor key fee nonce mode => exact (does_sponsor key fee nonce mode).map
  | clearSignatures => exact (does_clearSignatures.imp fun _ _ h _ => h).map
  | verify => exact (does_verify.imp fun _ _ h _ => h ▸ .stay).map
  | initialDigest => exact does_get (does_lift fun _ _ => does_pure fun _ => .stay)
  | byteLength => exact does_get (does_lift fun _ _ => does_pure fun _ => .stay)
  | serialize => exact hserialize.map
  | id => exact hserialize.map.map.map
  | toHex => exact hserialize.map.map
  | summary =>
    refine (does_get ?_).map
    split
    · exact does_pure fun _ => .stay
    · exact hserialize.map.map.map

end Call

end StacksWallet.Transaction
