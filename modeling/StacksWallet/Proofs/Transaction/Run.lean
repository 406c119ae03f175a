import StacksWallet.Proofs.Transaction.Coverage
import StacksWallet.Proofs.Transaction.RoundTrip

/-!
# Runs of calls

A transaction that was made or read goes through calls in sequence, of any operations and with any arguments. A
call that fails is part of the run like any other. After every run, stage, signature and bytes agree with each
other, and all that the origin's digest starts from is what it was at the beginning.

Nothing is asked of the parts that a transaction is made from: they may have been overwritten since their
constructors checked them.
-/

namespace StacksWallet

namespace Envelope

/-- Everything but what is signed or set later is the same in two envelopes. -/
structure Retains (e e' : Envelope) : Prop where
  version : e.version = e'.version
  chainId : e.chainId = e'.chainId
  kind : e.auth.kind = e'.auth.kind
  mode : e.auth.origin.mode = e'.auth.origin.mode
  signer : e.auth.origin.signer = e'.auth.origin.signer
  encoding : e.auth.origin.encoding = e'.auth.origin.encoding
  anchor : e.anchor = e'.anchor
  conditionMode : e.conditionMode = e'.conditionMode
  conditions : e.conditions = e'.conditions
  payload : e.payload = e'.payload

/-- An envelope retains what the blank of another one has if both have the same blank. -/
theorem blank_eq_iff {e e' : Envelope} : e.blank = e'.blank ↔ e.Retains e' := by
  constructor
  · intro h
    obtain ⟨hkind, hmode, hsigner, hencoding⟩ := Authorization.blank_eq_iff.mp (congrArg Envelope.auth h)
    obtain ⟨hversion, hchain, -, hanchor, hconditionMode, hconditions, hpayload⟩ := Envelope.mk.inj h
    exact ⟨hversion, hchain, hkind, hmode, hsigner, hencoding, hanchor, hconditionMode, hconditions, hpayload⟩
  · intro h
    have hauth := Authorization.blank_eq_iff.mpr ⟨h.kind, h.mode, h.signer, h.encoding⟩
    rw [blank, blank, hauth, h.version, h.chainId, h.anchor, h.conditionMode, h.conditions, h.payload]

end Envelope

namespace Transaction

variable {scheme : SignatureScheme} {t t' : Transaction}

/-- A transaction that nothing was called on yet. -/
inductive Fresh : Transaction → Prop where
  /-- A transaction of the given fields. -/
  | make {version chainId : Datum} {auth : AuthArg} {payload : PayloadArg} {anchor conditionMode : Datum}
      {conditions : List (Arg PostCondition)} {t : Transaction}
      (h : Transaction.make version chainId auth payload anchor conditionMode conditions = .ok t) : Fresh t
  /-- A transaction that must not be signed yet. -/
  | new {version : TransactionVersion} {chainId : Nat} {auth : Authorization} {payload : PayloadArg}
      {anchor conditionMode : Datum} {conditions : List (Arg PostCondition)} {t : Transaction}
      (h : Transaction.new version chainId auth payload anchor conditionMode conditions = .ok t) : Fresh t
  /-- A transaction that is read. -/
  | deserialize {d : Datum} {t : Transaction} (h : Transaction.deserialize d = .ok t) : Fresh t

/-- A transaction that is made has the stage of its envelope. -/
theorem eq_ofEnvelope_of_make {version chainId : Datum} {auth : AuthArg} {payload : PayloadArg}
    {anchor conditionMode : Datum} {conditions : List (Arg PostCondition)}
    (h : make version chainId auth payload anchor conditionMode conditions = .ok t) : t = ofEnvelope t.envelope := by
  obtain ⟨e, -, rfl⟩ := Outcome.map_eq_ok.mp h
  rfl

/-- A fresh transaction has the stage of its envelope. -/
theorem Fresh.eq_ofEnvelope (h : Fresh t) : t = ofEnvelope t.envelope := by
  cases h with
  | make h => exact eq_ofEnvelope_of_make h
  | new h =>
    unfold Transaction.new at h
    split at h
    · cases h
    · exact eq_ofEnvelope_of_make h
  | deserialize h =>
    obtain ⟨_, -, e, -, -, rfl⟩ := deserialize_eq_ok_iff.mp h
    rfl

/-- A fresh transaction is consistent. -/
theorem Fresh.consistent (h : Fresh t) : t.Consistent := by
  rw [h.eq_ofEnvelope]
  exact consistent_ofEnvelope t.envelope

/-- The transaction after some calls in sequence, whether they succeed or fail. -/
def after (scheme : SignatureScheme) : Transaction → List Call → Transaction
  | t, [] => t
  | t, c :: rest => after scheme (outcome (c.perform scheme) t).2 rest

/-- What some calls in sequence answer. -/
def replies (scheme : SignatureScheme) : Transaction → List Call → List (Except Fault Reply)
  | _, [] => []
  | t, c :: rest => (outcome (c.perform scheme) t).1 :: replies scheme (outcome (c.perform scheme) t).2 rest

/-- A run goes on from where its first call has led. -/
theorem after_cons {c : Call} {reply : Except Fault Reply} (h : outcome (c.perform scheme) t = (reply, t'))
    (rest : List Call) : after scheme t (c :: rest) = after scheme t' rest := by
  rw [after, h]

/-- A run goes on from where another one has led. -/
theorem after_append (calls later : List Call) :
    after scheme t (calls ++ later) = after scheme (after scheme t calls) later := by
  induction calls generalizing t with
  | nil => rfl
  | cons c rest ih => exact ih

/-- What every change keeps holds after every run of calls. -/
theorem after_induction {P : Transaction → Prop} (hchange : ∀ t t', Change scheme t t' → P t → P t')
    {calls : List Call} (hcalls : ∀ c ∈ calls, c.Genuine scheme) (h : P t) : P (after scheme t calls) := by
  induction calls generalizing t with
  | nil => exact h
  | cons c rest ih =>
    rw [List.forall_mem_cons] at hcalls
    exact ih hcalls.2 (hchange t _ (change_of_call t hcalls.1) h)

/-- Another origin with the same blank leaves the blank of the transaction as it is. -/
theorem blank_withOrigin {origin : SpendingCondition} (h : origin.blank = t.envelope.auth.origin.blank) :
    (t.withOrigin origin).envelope.blank = t.envelope.blank := by
  simp only [withOrigin, Envelope.blank, Authorization.blank, h]

/-- What is set on an origin leaves its blank as it is. -/
theorem blank_of_make {c origin : SpendingCondition} {nonce fee : Datum} {signature : Bytes}
    (h : SpendingCondition.make c.mode c.signer nonce fee c.encoding signature = .ok origin) :
    origin.blank = c.blank := by
  obtain ⟨-, -, -, hmode, hsigner, hencoding, -⟩ := SpendingCondition.make_eq_ok_iff.mp h
  exact SpendingCondition.blank_eq_iff.mpr ⟨hmode, hsigner, hencoding⟩

/-- Changes leave the blank of a transaction as it is. -/
theorem Change.blank_eq (h : Change scheme t t') : t'.envelope.blank = t.envelope.blank := by
  cases h with
  | stay | serialize => rfl
  | nonce _ horigin => exact blank_withOrigin (blank_of_make horigin)
  | fee _ horigin => exact blank_withOrigin (blank_of_make horigin)
  | sign _ _ _ _ _ horigin => exact blank_withOrigin (blank_of_make horigin)
  | sponsor _ hsponsored =>
    obtain ⟨c, hc⟩ := Option.isSome_iff_exists.mp hsponsored
    simp [withSponsor, Envelope.blank, Authorization.blank, hc]
  | clear horigin =>
    simp [clearedWith, Envelope.blank, Authorization.blank, blank_of_make horigin, Option.map_map, Function.comp_def]

/-- A fresh transaction stays consistent. -/
theorem consistent_after (hempty : scheme.NeverEmpty) (ht : Fresh t) {calls : List Call}
    (hcalls : ∀ c ∈ calls, c.Genuine scheme) : (after scheme t calls).Consistent :=
  after_induction (P := Consistent) (fun _ _ hchange => hchange.consistent hempty) hcalls ht.consistent

/-- After any run of calls on a fresh transaction, the stage says whether the origin has signed and whether the
bytes are made, these are what the transaction is written as, and nothing has changed but nonce, fee, signature
and sponsor. -/
theorem after_consistent (hempty : scheme.NeverEmpty) (ht : Fresh t) {calls : List Call}
    (hcalls : ∀ c ∈ calls, c.Genuine scheme) :
    (after scheme t calls).Consistent ∧ (after scheme t calls).envelope.Retains t.envelope := by
  refine ⟨consistent_after hempty ht hcalls, ?_⟩
  rw [← Envelope.blank_eq_iff]
  exact after_induction (P := fun t' => t'.envelope.blank = t.envelope.blank)
    (fun _ _ hchange h => hchange.blank_eq.trans h) hcalls rfl

/-- The blank transfer is read, made into bytes, cleared, changed and signed again, and calls fail in between. -/
theorem after_consistent_blankTransfer :
    SignatureScheme.secp256k1.repaired.NeverEmpty ∧ Fresh (ofEnvelope Envelope.blankTransfer) ∧
      (after SignatureScheme.secp256k1.repaired (ofEnvelope Envelope.blankTransfer)
        [.serialize, .setFee (.integer 1), .clearSignatures, .toHex, .setNonce (.integer 7),
          .sign (.plain (.bytes (Bytes.zeros 31 ++ [1])))]).Consistent := by
  have hempty : SignatureScheme.secp256k1.repaired.NeverEmpty := fun _ h => (SignatureScheme.repaired_produces h).2
  have hfresh : Fresh (ofEnvelope Envelope.blankTransfer) := .deserialize deserialize_blankBytes
  exact ⟨hempty, hfresh, (after_consistent hempty hfresh (by simp [Call.Genuine, KeyArg.Genuine])).1⟩

end Transaction

end StacksWallet
