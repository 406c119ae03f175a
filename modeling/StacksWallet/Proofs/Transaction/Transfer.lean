import StacksWallet.Proofs.Transaction.Verification
import StacksWallet.Transaction.Build

/-!
# Ways to build a transfer

A transfer is made with the private key at once, or it is made with the public key, gets its nonce and its fee, and
is then signed. The parts are looked at in different orders, and what is left open at first has defaults that are
overwritten later; but all of these ways lead through the same unsigned transaction, and so to the same bytes.
-/

namespace StacksWallet

/-- The integer has a place on the wire. -/
def InWord (n : Int) : Prop := 0 ≤ n ∧ n < wordCount 8

instance (n : Int) : Decidable (InWord n) := inferInstanceAs (Decidable (_ ∧ _))

/-- The bytes have the form of a compressed public key. -/
def IsCompressed (b : Bytes) : Prop := b.length = 33 ∧ (b.head? = some 2 ∨ b.head? = some 3)

namespace SpendingCondition

/-- The unsigned condition for the holder of a public key. -/
def holder (key : Bytes) (nonce fee : Int) : SpendingCondition := { account key fee with nonce := nonce }

/-- The condition passes the checks of its constructor. -/
theorem holder_valid (key : Bytes) {nonce fee : Int} (h : InWord nonce ∧ InWord fee) : (holder key nonce fee).Valid :=
  { account_valid key fee h.2 with nonce_range := h.1 }

/-- The condition is made if nonce and fee have a place on the wire. -/
theorem make_holder_eq_ok_iff {key : Bytes} {nonce fee : Int} {c : SpendingCondition} :
    make .p2pkh (keyHash key).val (.integer nonce) (.integer fee) .compressed emptySignature = .ok c ↔
      (InWord nonce ∧ InWord fee) ∧ c = holder key nonce fee := by
  rw [make_eq_ok_iff]
  constructor
  · intro h
    obtain ⟨mode, signer, n, f, encoding, signature⟩ := c
    obtain ⟨hvalid, hnonce, hfee, rfl, rfl, rfl, rfl⟩ := h
    obtain rfl := Datum.integer.inj hnonce
    obtain rfl := Datum.integer.inj hfee
    exact ⟨⟨hvalid.nonce_range, hvalid.fee_range⟩, rfl⟩
  · intro h
    obtain ⟨hrange, rfl⟩ := h
    exact ⟨holder_valid key hrange, rfl, rfl, rfl, rfl, rfl, rfl⟩

/-- The condition is what a public key stands for, at a nonce and a fee. -/
theorem ofPublicKey_eq_ok_iff {key : Bytes} {nonce fee : Int} {c : SpendingCondition} :
    ofPublicKey (.bytes key) (.integer nonce) (.integer fee) (.integer HashMode.p2pkh.code) = .ok c ↔
      (InWord nonce ∧ InWord fee) ∧ c = holder key nonce fee :=
  make_holder_eq_ok_iff

end SpendingCondition

/-- Signers are made of keys with the same bytes alike. -/
theorem Signer.ofKey_eq_ok_iff_of_toBytes {scheme : SignatureScheme} {key key' : Datum}
    (h : ∀ b, key.toBytes = .ok b ↔ key'.toBytes = .ok b) {signer : Signer} :
    ofKey scheme key = .ok signer ↔ ofKey scheme key' = .ok signer := by
  have hsame : ∀ secret, normalizeKey key = .ok secret ↔ normalizeKey key' = .ok secret := by
    intro secret
    unfold normalizeKey
    cases hb : key.toBytes with
    | ok b => rw [(h b).mp hb]
    | error flaw =>
      cases hb' : key'.toBytes with
      | ok b => cases hb.symm.trans ((h b).mpr hb')
      | error flaw' => exact ⟨nofun, nofun⟩
  rw [ofKey, ofKey, Outcome.bind_eq_ok, Outcome.bind_eq_ok]
  exact exists_congr fun secret => and_congr_left' (hsame secret)

namespace Transaction

variable {scheme : SignatureScheme} {network : Network} {key : Bytes} {payload : Payload} {nonce fee : Int}
  {t t' : Transaction} {b : Bytes}

/-- The unsigned transaction from the account of a public key, without any limits on what it moves. -/
def draft (network : Network) (key : Bytes) (payload : Payload) (nonce fee : Int) : Transaction :=
  ⟨⟨network.version, Fin.ofNat _ network.chainId, .standard (.holder key nonce fee), .any, .deny, [], payload⟩,
    .unsigned, none⟩

/-- On the known networks a draft is a new transaction. -/
theorem new_eq_draft (hnetwork : network ∈ Network.presets) :
    Transaction.new network.version network.chainId (.standard (.holder key nonce fee)) (.of payload)
      (.integer AnchorMode.any.code) (.integer PostConditionMode.deny.code) [] =
        .ok (draft network key payload nonce fee) := by
  simp only [Network.presets, List.mem_cons, List.not_mem_nil, or_false] at hnetwork
  obtain rfl | rfl | rfl := hnetwork <;> rfl

/-- Another origin of the same key makes another draft. -/
theorem concluded_draft {x : Except Fault SpendingCondition} {n f : Int}
    (hx : ∀ c, x = .ok c ↔ (InWord n ∧ InWord f) ∧ c = .holder key n f) :
    concluded (draft network key payload nonce fee) (draft network key payload nonce fee).withOrigin x = (.ok (), t) ↔
      (InWord n ∧ InWord f) ∧ t = draft network key payload n f := by
  rw [concluded_eq_ok_iff]
  constructor
  · intro h
    obtain ⟨c, hc, rfl⟩ := h
    obtain ⟨hrange, rfl⟩ := (hx c).mp hc
    exact ⟨hrange, rfl⟩
  · intro h
    exact ⟨_, (hx _).mpr ⟨h.1, rfl⟩, h.2⟩

/-- A draft at another nonce is another draft. -/
theorem outcome_setNonce_draft {n : Int} :
    outcome (setNonce (.integer n)) (draft network key payload nonce fee) = (.ok (), t) ↔
      (InWord n ∧ InWord fee) ∧ t = draft network key payload n fee := by
  rw [outcome_setNonce rfl]
  exact concluded_draft fun c => SpendingCondition.make_holder_eq_ok_iff

/-- A draft at another fee is another draft. -/
theorem outcome_setFee_draft {f : Int} :
    outcome (setFee (.integer f)) (draft network key payload nonce fee) = (.ok (), t) ↔
      (InWord nonce ∧ InWord f) ∧ t = draft network key payload nonce f := by
  rw [outcome_setFee rfl]
  exact concluded_draft fun c => SpendingCondition.make_holder_eq_ok_iff

/-- The draft of a payload that can be written is signed with its key. -/
theorem exists_sign_draft (hwidth : scheme.FullWidth) {signer : Signer} (hkey : KeyArg.Genuine scheme (.of signer))
    {c : Bytes} (hencode : payload.encode = .ok c) (hrange : InWord nonce ∧ InWord fee) :
    ∃ t, outcome (sign scheme (.of signer)) (draft network signer.publicKey payload nonce fee) = (.ok (), t) := by
  have hvalid := SpendingCondition.holder_valid signer.publicKey hrange
  have hauth : (Authorization.standard (.holder signer.publicKey nonce fee)).Valid := ⟨hvalid, nofun⟩
  obtain ⟨_, hdraft⟩ : ∃ b, (draft network signer.publicKey payload nonce fee).envelope.encode = .ok b :=
    ⟨_, (Envelope.encode_eq_ok_iff hauth).mpr ⟨_, _, rfl, hencode, rfl⟩⟩
  obtain ⟨t, hsign, -, -⟩ := exists_sign hwidth rfl hvalid hdraft hkey rfl rfl
  exact ⟨t, hsign⟩

/-- What is signed has its nonce and its fee from before, and no bytes yet. -/
structure SignedFrom (t t' : Transaction) : Prop where
  stage : t'.stage = .signed
  cached : t'.cached? = none
  nonce : t'.nonce = t.nonce
  fee : t'.fee = t.fee

/-- Signing changes nothing else than the signature and the stage. -/
theorem does_sign_signedFrom (k : KeyArg) : Does (sign scheme k) t fun _ t' => t.SignedFrom t' := by
  refine does_require fun _ => does_lift fun signer _ => does_get (does_lift fun got _ => does_guard fun _ =>
    does_get (does_lift fun running _ => does_lift fun signed _ => does_lift fun origin horigin => does_modify ?_))
  obtain ⟨-, hnonce, hfee, -⟩ := SpendingCondition.make_eq_ok_iff.mp horigin
  exact ⟨rfl, rfl, (Datum.integer.inj hnonce).symm, (Datum.integer.inj hfee).symm⟩

/-- With the private key, a transaction is made and signed. -/
theorem Order.finish_some_eq_ok_iff {o : Order} {signer : Signer} {origin : SpendingCondition} :
    o.finish scheme (some signer) origin payload = .ok t ↔
      ∃ t₀, Transaction.new o.network.version o.network.chainId
          (if o.sponsored then .sponsored origin none else .standard origin) (.of payload) o.anchor o.conditionMode
          o.conditions = .ok t₀ ∧
        outcome (sign scheme (.of signer)) t₀ = (.ok (), t) := by
  rw [Order.finish, Outcome.bind_eq_ok]
  refine exists_congr fun t₀ => and_congr_right fun _ => ?_
  change (match outcome (sign scheme (.of signer)) t₀ with
    | (.ok _, t') => pure t'
    | (.error fault, _) => throw fault : Except Fault Transaction) = _ ↔ _
  rcases outcome (sign scheme (.of signer)) t₀ with ⟨fault | _, t'⟩
  · exact ⟨nofun, nofun⟩
  · exact ⟨fun h => congrArg _ (Except.ok.inj h), fun h => congrArg _ (Prod.mk.inj h).2⟩

variable {recipient : Arg Value} {amount memo : Datum}

/-- With the private key, a transfer is the draft of it, signed. -/
theorem ofTransfer_senderKey_eq_ok_iff (hnetwork : network ∈ Network.presets) {k : Datum} :
    ofTransfer scheme { senderKey := .plain k, network, nonce := .integer nonce, fee := .integer fee } recipient amount
        memo = .ok t ↔
      ∃ signer payload, Signer.ofKey scheme k = .ok signer ∧ Payload.makeTransfer recipient amount memo = .ok payload ∧
        (InWord nonce ∧ InWord fee) ∧
          outcome (sign scheme (.of signer)) (draft network signer.publicKey payload nonce fee) = (.ok (), t) := by
  by_cases hk : k = .absent
  · obtain rfl := hk
    exact ⟨nofun, fun ⟨_, _, h, _⟩ => nomatch h⟩
  have hsigner : ({ senderKey := .plain k, network, nonce := .integer nonce, fee := .integer fee } : Order).signer?
      scheme = (Signer.ofKey scheme k).map some := by
    cases k with
    | absent => exact absurd rfl hk
    | _ => rfl
  rw [ofTransfer, Order.build, hsigner, Outcome.bind_eq_ok]
  constructor
  · intro h
    obtain ⟨_, hsome, h⟩ := h
    obtain ⟨signer, hsigner, rfl⟩ := Outcome.map_eq_ok.mp hsome
    obtain ⟨origin, horigin, h⟩ := Outcome.bind_eq_ok.mp h
    obtain ⟨payload, hpayload, h⟩ := Outcome.bind_eq_ok.mp h
    obtain ⟨hrange, rfl⟩ := SpendingCondition.ofPublicKey_eq_ok_iff.mp horigin
    obtain ⟨t₀, hnew, hsign⟩ := Order.finish_some_eq_ok_iff.mp h
    obtain rfl := Except.ok.inj ((new_eq_draft hnetwork).symm.trans hnew)
    exact ⟨signer, payload, hsigner, hpayload, hrange, hsign⟩
  · intro h
    obtain ⟨signer, payload, hsigner, hpayload, hrange, hsign⟩ := h
    exact ⟨_, Outcome.map_eq_ok.mpr ⟨signer, hsigner, rfl⟩, Outcome.bind_eq_ok.mpr
      ⟨_, SpendingCondition.ofPublicKey_eq_ok_iff.mpr ⟨hrange, rfl⟩, Outcome.bind_eq_ok.mpr
        ⟨payload, hpayload, Order.finish_some_eq_ok_iff.mpr ⟨_, new_eq_draft hnetwork, hsign⟩⟩⟩⟩

/-- With a compressed public key, a transfer is the draft of it, at nonce and fee zero. -/
theorem ofTransfer_publicKey_eq_ok_iff (hnetwork : network ∈ Network.presets) (hkey : IsCompressed key) :
    ofTransfer scheme { publicKey := .bytes key, network } recipient amount memo = .ok t ↔
      ∃ payload, Payload.makeTransfer recipient amount memo = .ok payload ∧ t = draft network key payload 0 0 := by
  have hrequire : requirePublicKey (.bytes key) = .ok key := if_pos (by simpa [IsCompressed] using hkey)
  have horigin : ({ publicKey := .bytes key, network } : Order).origin none = .ok (.holder key 0 0) :=
    Outcome.bind_eq_ok.mpr ⟨key, hrequire, SpendingCondition.ofPublicKey_eq_ok_iff.mpr ⟨by decide, rfl⟩⟩
  have hfinish : ∀ payload, ({ publicKey := .bytes key, network } : Order).finish scheme none (.holder key 0 0) payload =
      .ok (draft network key payload 0 0) :=
    fun payload => Outcome.bind_eq_ok.mpr ⟨_, new_eq_draft hnetwork, rfl⟩
  rw [ofTransfer, Order.build, Outcome.bind_eq_ok]
  constructor
  · intro h
    obtain ⟨_, hnone, h⟩ := h
    obtain rfl := Except.ok.inj hnone
    obtain ⟨_, hholder, h⟩ := Outcome.bind_eq_ok.mp h
    obtain rfl := Except.ok.inj (horigin.symm.trans hholder)
    obtain ⟨payload, hpayload, h⟩ := Outcome.bind_eq_ok.mp h
    exact ⟨payload, hpayload, Except.ok.inj (h.symm.trans (hfinish payload))⟩
  · intro h
    obtain ⟨payload, hpayload, rfl⟩ := h
    exact ⟨none, rfl, Outcome.bind_eq_ok.mpr ⟨_, horigin, Outcome.bind_eq_ok.mpr ⟨payload, hpayload, hfinish payload⟩⟩⟩

/-- The transaction with the bytes that were made of it. -/
def keeping (t : Transaction) (b : Bytes) : Transaction := { t with stage := .serialized, cached? := some b }

/-- The bytes of a transaction that was just signed are made if it can be written. -/
theorem outcome_serialize_eq_ok_iff (hstage : t.stage = .signed) (hcached : t.cached? = none) :
    outcome serialize t = (.ok b, t') ↔ t.envelope.encode = .ok b ∧ t' = t.keeping b := by
  have hsigned : t.stage ∈ signedStages := mem_signedStages_iff.mpr (.inl hstage)
  rw [serialize, outcome_require_bind hsigned, outcome_get_bind, hcached]
  cases t.envelope.encode with
  | error fault =>
    constructor
    · intro h
      cases (Prod.mk.inj h).1
    · intro h
      cases h.1
  | ok c =>
    constructor
    · intro h
      obtain ⟨hb, rfl⟩ := Prod.mk.inj h
      obtain rfl := Except.ok.inj hb
      exact ⟨rfl, rfl⟩
    · intro h
      obtain ⟨hb, rfl⟩ := h
      obtain rfl := Except.ok.inj hb
      rfl

/-- The figures of the digest that identifies a transaction with some bytes. -/
def identifier (b : Bytes) : Text := Hex.plain (Sha512.digest b)

/-- The identifier of a transaction that was just signed is that of its bytes. -/
theorem outcome_id_eq_ok_iff (hstage : t.stage = .signed) (hcached : t.cached? = none) {x : Text} :
    outcome id t = (.ok x, t') ↔ ∃ b, t.envelope.encode = .ok b ∧ x = identifier b ∧ t' = t.keeping b := by
  have hid : outcome id t = (.ok x, t') ↔ ∃ b, outcome serialize t = (.ok b, t') ∧ x = identifier b := by
    rw [id, outcome_bind, idBytes, outcome_bind]
    rcases outcome serialize t with ⟨fault | b, t₁⟩
    · exact ⟨nofun, fun ⟨_, h, _⟩ => nomatch h⟩
    · constructor
      · intro h
        obtain ⟨hx, rfl⟩ := Prod.mk.inj h
        exact ⟨b, rfl, (Except.ok.inj hx).symm⟩
      · intro h
        obtain ⟨c, hc, rfl⟩ := h
        obtain ⟨hb, rfl⟩ := Prod.mk.inj hc
        obtain rfl := Except.ok.inj hb
        rfl
  rw [hid]
  exact exists_congr fun b => by rw [outcome_serialize_eq_ok_iff hstage hcached, and_assoc, and_comm (a := x = _)]

/-- The bytes for the network, with the identifier. -/
def published : Op (Bytes × Text) := do
  let b ← serialize
  return (b, ← id)

/-- What is published of a transaction that was just signed are its bytes and their identifier. -/
theorem published_eq_ok_iff (hstage : t.stage = .signed) (hcached : t.cached? = none) {r : Bytes × Text} :
    (outcome published t).1 = .ok r ↔ ∃ b, t.envelope.encode = .ok b ∧ r = (b, identifier b) := by
  rw [published, fst_outcome_bind_eq_ok]
  constructor
  · intro h
    obtain ⟨b, t₁, hb, h⟩ := h
    obtain ⟨hencode, rfl⟩ := (outcome_serialize_eq_ok_iff hstage hcached).mp hb
    exact ⟨b, hencode, (Except.ok.inj h).symm⟩
  · intro h
    obtain ⟨b, hencode, rfl⟩ := h
    exact ⟨b, _, (outcome_serialize_eq_ok_iff hstage hcached).mpr ⟨hencode, rfl⟩, rfl⟩

end Transaction

/-- What a transfer of the native token is about. -/
structure TransferTerms where
  /-- The network. -/
  network : Network
  /-- Who receives. -/
  recipient : Text
  /-- How much. -/
  amount : Int
  /-- What is said about it. -/
  memo? : Option Text
  /-- The sender's nonce. -/
  nonce : Int
  /-- The fee. -/
  fee : Int

namespace TransferTerms

open Transaction

variable (terms : TransferTerms) (scheme : SignatureScheme) (key : Datum)

/-- The memo as callers give it. -/
def memo : Datum := (terms.memo?.map Datum.text).getD .absent

/-- What the transaction does. -/
def payload : Except Fault Payload :=
  Payload.makeTransfer (.plain (.text terms.recipient)) (.integer terms.amount) terms.memo

/-- The transfer of an order. -/
def ordered (order : Order) : Except Fault Transaction :=
  ofTransfer scheme order (.plain (.text terms.recipient)) (.integer terms.amount) terms.memo

/-- The transfer with a public key. -/
def ofPublicKey (publicKey : Bytes) : Except Fault Transaction :=
  terms.ordered scheme { publicKey := .bytes publicKey, network := terms.network }

/-- The transfer with the private key, and what is published of it. -/
def atOnce : Except Fault (Bytes × Text) := do
  let t ← terms.ordered scheme
    { senderKey := .plain key, network := terms.network, nonce := .integer terms.nonce, fee := .integer terms.fee }
  (published.run t).1

/-- Set nonce and fee, one or the other first, and go on. -/
def settled {α : Type} (feeFirst : Bool) (rest : Op α) : Op α :=
  if feeFirst then do
    setFee (.integer terms.fee)
    setNonce (.integer terms.nonce)
    rest
  else do
    setNonce (.integer terms.nonce)
    setFee (.integer terms.fee)
    rest

/-- The transfer with the public key, nonce and fee that are set afterwards, and a signature at last, and what is
published of it. -/
def stepwise (feeFirst : Bool) : Except Fault (Bytes × Text) := do
  let signer ← Signer.ofKey scheme key
  let t ← terms.ofPublicKey scheme signer.publicKey
  ((terms.settled feeFirst do
    sign scheme (.plain key)
    published).run t).1

/-- Nonce and fee have a place on the wire. -/
def InRange : Prop := InWord terms.nonce ∧ InWord terms.fee

/-- The transaction is the draft of the transfer, signed with the key. -/
def Signs (t : Transaction) : Prop :=
  ∃ signer payload, Signer.ofKey scheme key = .ok signer ∧ terms.payload = .ok payload ∧ terms.InRange ∧
    outcome (sign scheme (.of signer)) (draft terms.network signer.publicKey payload terms.nonce terms.fee) =
      (.ok (), t)

/-- The transfer comes to some bytes. -/
def Yields (b : Bytes) : Prop := ∃ t, terms.Signs scheme key t ∧ t.envelope.encode = .ok b

variable {terms scheme key} {t : Transaction} {r : Bytes × Text}

/-- What the transfer is signed as has nonce and fee of the terms, and no bytes yet. -/
theorem Signs.signed (h : terms.Signs scheme key t) :
    t.stage = .signed ∧ t.cached? = none ∧ t.nonce = terms.nonce ∧ t.fee = terms.fee := by
  obtain ⟨signer, payload, -, -, -, hsign⟩ := h
  obtain ⟨hstage, hcached, hnonce, hfee⟩ := (does_sign_signedFrom _).success hsign
  exact ⟨hstage, hcached, hnonce, hfee⟩

/-- What depends on nothing but the bytes of the signed draft depends on nothing but the bytes that the transfer
yields. -/
theorem outcome_of_signs {α : Type} {rest : Op α} {a : α} {f : Bytes → α}
    (hrest : ∀ {t}, terms.Signs scheme key t →
      ((outcome rest t).1 = .ok a ↔ ∃ b, t.envelope.encode = .ok b ∧ a = f b)) :
    (∃ t, terms.Signs scheme key t ∧ (outcome rest t).1 = .ok a) ↔ ∃ b, terms.Yields scheme key b ∧ a = f b := by
  constructor
  · intro h
    obtain ⟨t, ht, h⟩ := h
    obtain ⟨b, hb, rfl⟩ := (hrest ht).mp h
    exact ⟨b, ⟨t, ht, hb⟩, rfl⟩
  · intro h
    obtain ⟨b, ⟨t, ht, hb⟩, rfl⟩ := h
    exact ⟨t, ht, (hrest ht).mpr ⟨b, hb, rfl⟩⟩

/-- Whatever ends in the signed draft of a transfer publishes the bytes that the transfer yields. -/
theorem published_of_signs :
    (∃ t, terms.Signs scheme key t ∧ (outcome published t).1 = .ok r) ↔
      ∃ b, terms.Yields scheme key b ∧ r = (b, identifier b) := by
  refine outcome_of_signs fun ht => ?_
  obtain ⟨hstage, hcached, -, -⟩ := ht.signed
  exact published_eq_ok_iff hstage hcached

/-- With the private key the transfer is published as the bytes that it yields. -/
theorem atOnce_eq_ok_iff (hnetwork : terms.network ∈ Network.presets) :
    terms.atOnce scheme key = .ok r ↔ ∃ b, terms.Yields scheme key b ∧ r = (b, identifier b) := by
  rw [← published_of_signs, atOnce, Outcome.bind_eq_ok]
  exact exists_congr fun t => and_congr_left' (ofTransfer_senderKey_eq_ok_iff hnetwork)

/-- A draft at any nonce and fee in range may be given those of the terms, in either order. -/
theorem outcome_settled {α : Type} {feeFirst : Bool} {rest : Op α} {a : α} {publicKey : Bytes} {payload : Payload} :
    (outcome (terms.settled feeFirst rest) (draft terms.network publicKey payload 0 0)).1 = .ok a ↔
      terms.InRange ∧ (outcome rest (draft terms.network publicKey payload terms.nonce terms.fee)).1 = .ok a := by
  have hzero : InWord 0 := by decide
  cases feeFirst with
  | true =>
    change (outcome (setFee _ >>= fun _ => setNonce _ >>= fun _ => rest) _).1 = _ ↔ _
    rw [fst_outcome_step_eq_ok outcome_setFee_draft, fst_outcome_step_eq_ok outcome_setNonce_draft, InRange]
    exact ⟨fun h => h.2, fun h => ⟨⟨hzero, h.1.2⟩, h⟩⟩
  | false =>
    change (outcome (setNonce _ >>= fun _ => setFee _ >>= fun _ => rest) _).1 = _ ↔ _
    rw [fst_outcome_step_eq_ok outcome_setNonce_draft, fst_outcome_step_eq_ok outcome_setFee_draft, InRange]
    exact ⟨fun h => h.2, fun h => ⟨⟨h.1.1, hzero⟩, h⟩⟩

section PublicKey

variable {α : Type} {rest : Op α} {a : α}
  (hnetwork : terms.network ∈ Network.presets)
  (hkey : ∀ signer, Signer.ofKey scheme key = .ok signer → IsCompressed signer.publicKey)

include hnetwork hkey

/-- With the public key, nonce and fee that are set afterwards, and a signature at last, the transfer comes to the same
signed draft. -/
theorem settled_sign_eq_ok_iff (feeFirst : Bool) (k : Signer → KeyArg)
    (hk : ∀ signer, Signer.ofKey scheme key = .ok signer → signerOf scheme (k signer) = .ok signer) :
    (∃ signer, Signer.ofKey scheme key = .ok signer ∧ ∃ t, terms.ofPublicKey scheme signer.publicKey = .ok t ∧
        (outcome (terms.settled feeFirst (sign scheme (k signer) >>= fun _ => rest)) t).1 = .ok a) ↔
      ∃ t, terms.Signs scheme key t ∧ (outcome rest t).1 = .ok a := by
  have hsame : ∀ signer, Signer.ofKey scheme key = .ok signer → sign scheme (k signer) = sign scheme (.of signer) :=
    fun signer hsigner => sign_congr (hk signer hsigner)
  constructor
  · intro h
    obtain ⟨signer, hsigner, t, ht, h⟩ := h
    obtain ⟨payload, hpayload, rfl⟩ := (ofTransfer_publicKey_eq_ok_iff hnetwork (hkey signer hsigner)).mp ht
    obtain ⟨hrange, h⟩ := outcome_settled.mp h
    rw [hsame signer hsigner] at h
    obtain ⟨_, u, hsign, h⟩ := fst_outcome_bind_eq_ok.mp h
    exact ⟨u, ⟨signer, payload, hsigner, hpayload, hrange, hsign⟩, h⟩
  · intro h
    obtain ⟨u, ⟨signer, payload, hsigner, hpayload, hrange, hsign⟩, h⟩ := h
    refine ⟨signer, hsigner, _, (ofTransfer_publicKey_eq_ok_iff hnetwork (hkey signer hsigner)).mpr
      ⟨payload, hpayload, rfl⟩, outcome_settled.mpr ⟨hrange, fst_outcome_bind_eq_ok.mpr ⟨(), u, ?_, h⟩⟩⟩
    rw [hsame signer hsigner]
    exact hsign

/-- Step by step the transfer is published as the bytes that it yields. -/
theorem stepwise_eq_ok_iff (feeFirst : Bool) :
    terms.stepwise scheme key feeFirst = .ok r ↔ ∃ b, terms.Yields scheme key b ∧ r = (b, identifier b) := by
  rw [← published_of_signs, ← settled_sign_eq_ok_iff hnetwork hkey feeFirst (fun _ => .plain key) fun _ h => h,
    stepwise, Outcome.bind_eq_ok]
  exact exists_congr fun signer => and_congr_right fun _ => Outcome.bind_eq_ok

end PublicKey

/-- A transfer whose parts are accepted yields some bytes. -/
theorem exists_yields (hwidth : scheme.FullWidth) {signer : Signer} {payload : Payload} {c : Bytes}
    (hsigner : Signer.ofKey scheme key = .ok signer) (hpayload : terms.payload = .ok payload)
    (hencode : payload.encode = .ok c) (hrange : terms.InRange) : ∃ b, terms.Yields scheme key b := by
  have hgenuine : signer.Genuine scheme := ⟨key, hsigner⟩
  have hkey : KeyArg.Genuine scheme (.of signer) := hgenuine.key
  obtain ⟨t, hsign⟩ := exists_sign_draft hwidth hkey hencode hrange
  have hauth : (Authorization.standard (.holder signer.publicKey terms.nonce terms.fee)).Valid :=
    ⟨SpendingCondition.holder_valid signer.publicKey hrange, nofun⟩
  have hchange := (does_sign _).success hsign hkey
  have hsigned : t.envelope.auth.Valid := hchange.valid hwidth hauth
  obtain ⟨b, hb⟩ : ∃ b, t.envelope.encode = .ok b := by
    rw [hchange.envelope_eq]
    refine ⟨_, (Envelope.encode_eq_ok_iff ?_).mpr ⟨_, _, rfl, hencode, rfl⟩⟩
    exact hsigned
  exact ⟨b, t, ⟨signer, payload, hsigner, hpayload, hrange, hsign⟩, hb⟩

end TransferTerms

end StacksWallet
