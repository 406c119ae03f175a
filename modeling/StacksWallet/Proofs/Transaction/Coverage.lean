import StacksWallet.Proofs.Transaction.Life
import StacksWallet.Proofs.Transaction.Separation

/-!
# What the digest of the origin starts from

The origin signs a digest of the transaction with everything blanked out that is signed or set later: its own
nonce, fee and signature, and whoever pays. The bytes under that digest determine all other parts of the
transaction and depend on nothing else.

That the digest itself tells these bytes is what one asks of a hash function, and it is not claimed.
-/

namespace StacksWallet

namespace SpendingCondition

/-- The condition is for a single key, by a hash of the right size. Nonce, fee and signature may be anything. -/
structure Keyed (c : SpendingCondition) : Prop where
  singleKey : c.mode.isSingleKey = true
  signer_length : c.signer.length = 20

/-- What passes the checks of the constructor is for a single key. -/
theorem Valid.keyed {c : SpendingCondition} (h : c.Valid) : c.Keyed := ⟨h.singleKey, h.signer_length⟩

/-- The condition with nonce, fee and signature set to zero. -/
def blank (c : SpendingCondition) : SpendingCondition := { c with nonce := 0, fee := 0, signature := emptySignature }

/-- A blank condition is valid if it is for a single key. -/
theorem Keyed.blank_valid {c : SpendingCondition} (h : c.Keyed) : c.blank.Valid := by
  have hzero : (0 : Int) ≤ 0 ∧ (0 : Int) < wordCount 8 := by decide
  exact ⟨h.singleKey, h.signer_length, rfl, hzero, hzero⟩

/-- Clearing gives the blank condition, if it is for a single key. -/
theorem Keyed.cleared_eq {c : SpendingCondition} (h : c.Keyed) : c.cleared = .ok c.blank :=
  make_eq_ok_iff.mpr ⟨h.blank_valid, rfl, rfl, rfl, rfl, rfl, rfl⟩

/-- Conditions differ in nonce, fee and signature only if they have the same blank. -/
theorem blank_eq_iff {c c' : SpendingCondition} :
    c.blank = c'.blank ↔ c.mode = c'.mode ∧ c.signer = c'.signer ∧ c.encoding = c'.encoding := by
  simp [blank]

end SpendingCondition

namespace Authorization

/-- The authorization with a blank origin, and a placeholder for any sponsor. -/
def blank (a : Authorization) : Authorization :=
  ⟨a.origin.blank, a.sponsor?.map fun _ => SpendingCondition.sentinel⟩

/-- A blank authorization is valid if the origin is for a single key. -/
theorem blank_valid {a : Authorization} (h : a.origin.Keyed) : a.blank.Valid := by
  refine ⟨h.blank_valid, fun c hc => ?_⟩
  obtain ⟨_, -, rfl⟩ := Option.map_eq_some_iff.mp hc
  exact Transaction.sentinel_valid

/-- The digest starts from the blank authorization. -/
theorem initial_eq {a : Authorization} (h : a.origin.Keyed) : a.initial = .ok a.blank := by
  rw [initial, h.cleared_eq]
  rfl

/-- Authorizations have the same blank if they are of one kind and have the same origin but for nonce, fee and
signature. -/
theorem blank_eq_iff {a a' : Authorization} :
    a.blank = a'.blank ↔ a.kind = a'.kind ∧ a.origin.mode = a'.origin.mode ∧ a.origin.signer = a'.origin.signer ∧
      a.origin.encoding = a'.origin.encoding := by
  obtain ⟨origin, sponsor?⟩ := a
  obtain ⟨origin', sponsor?'⟩ := a'
  rw [← SpendingCondition.blank_eq_iff]
  cases sponsor? <;> cases sponsor?' <;> simp [blank, kind, isSponsored]

end Authorization

namespace Envelope

/-- Two envelopes agree in everything but what is signed or set later: nonce, fee and signature of the origin, and
the sponsor. -/
structure AlikeUnsigned (e e' : Envelope) : Prop where
  version : e.version = e'.version
  chainId : e.chainId = e'.chainId
  kind : e.auth.kind = e'.auth.kind
  mode : e.auth.origin.mode = e'.auth.origin.mode
  signer : e.auth.origin.signer = e'.auth.origin.signer
  encoding : e.auth.origin.encoding = e'.auth.origin.encoding
  anchor : e.anchor = e'.anchor
  conditionMode : e.conditionMode = e'.conditionMode
  conditions : List.Forall₂ (fun pc pc' => pc.equal pc' = true) e.conditions e'.conditions
  payload : e.payload.equal e'.payload = true

/-- The envelope with a blank authorization. -/
def blank (e : Envelope) : Envelope := { e with auth := e.auth.blank }

/-- The bytes under the digest are those of the blank envelope. -/
theorem initialBytes_eq {e : Envelope} (h : e.auth.origin.Keyed) : e.initialBytes = e.blank.encode := by
  rw [initialBytes, Authorization.initial_eq h]
  rfl

/-- The blank envelope is written if the envelope is. -/
theorem exists_encode_blank {e : Envelope} {c : Bytes} (h : e.auth.origin.Keyed) (hc : e.encode = .ok c) :
    ∃ b, e.blank.encode = .ok b := by
  obtain ⟨_, -, hc⟩ := Outcome.bind_eq_ok.mp hc
  obtain ⟨conditions, hconditions, hc⟩ := Outcome.bind_eq_ok.mp hc
  obtain ⟨payload, hpayload, -⟩ := Outcome.bind_eq_ok.mp hc
  exact ⟨_, (encode_eq_ok_iff (Authorization.blank_valid h)).mpr ⟨conditions, payload, hconditions, hpayload, rfl⟩⟩

/-- Blank envelopes are equal if the envelopes agree in what is left of them. -/
theorem blank_equal_iff {e e' : Envelope} : e.blank.Equal e'.blank ↔ e.AlikeUnsigned e' := by
  constructor
  · intro h
    obtain ⟨hkind, hmode, hsigner, hencoding⟩ := Authorization.blank_eq_iff.mp h.auth
    exact ⟨h.version, h.chainId, hkind, hmode, hsigner, hencoding, h.anchor, h.conditionMode, h.conditions, h.payload⟩
  · intro h
    exact ⟨h.version, h.chainId, Authorization.blank_eq_iff.mpr ⟨h.kind, h.mode, h.signer, h.encoding⟩, h.anchor,
      h.conditionMode, h.conditions, h.payload⟩

end Envelope

namespace Transaction

/-- Of two transactions that can be written, the bytes under the digest that the origin signs are the same if and
only if the transactions agree in everything but the origin's nonce, fee and signature and the sponsor. -/
theorem initialBytes_eq_iff {t t' : Transaction} {c c' : Bytes} (horigin : t.envelope.auth.origin.Keyed)
    (horigin' : t'.envelope.auth.origin.Keyed) (hvalues : ∀ v ∈ t.envelope.values, v.Constructible)
    (hvalues' : ∀ v ∈ t'.envelope.values, v.Constructible) (hc : t.envelope.encode = .ok c)
    (hc' : t'.envelope.encode = .ok c') :
    ∃ b b', t.envelope.initialBytes = .ok b ∧ t.initialDigest = .ok (Sha512.digest b) ∧
      t'.envelope.initialBytes = .ok b' ∧ t'.initialDigest = .ok (Sha512.digest b') ∧
      (b = b' ↔ t.envelope.AlikeUnsigned t'.envelope) := by
  obtain ⟨b, hb⟩ := Envelope.exists_encode_blank horigin hc
  obtain ⟨b', hb'⟩ := Envelope.exists_encode_blank horigin' hc'
  have hinitial : t.envelope.initialBytes = .ok b := (Envelope.initialBytes_eq horigin).trans hb
  have hinitial' : t'.envelope.initialBytes = .ok b' := (Envelope.initialBytes_eq horigin').trans hb'
  have hdigest : ∀ {t : Transaction} {b : Bytes}, t.envelope.initialBytes = .ok b →
      t.initialDigest = .ok (Sha512.digest b) := fun h => Outcome.map_eq_ok.mpr ⟨_, h, rfl⟩
  refine ⟨b, b', hinitial, hdigest hinitial, hinitial', hdigest hinitial', ?_⟩
  rw [← Envelope.blank_equal_iff]
  exact Envelope.encode_eq_iff (Authorization.blank_valid horigin) (Authorization.blank_valid horigin')
    (fun v hv => (hvalues v hv).distinct) (fun v hv => (hvalues' v hv).distinct) hb hb'

/-- A call by an account of zeros, with a tuple as its argument. -/
def tupleCall (nonce : Int) (signature : Bytes) (sponsor : SpendingCondition) (fields : List (Name × Value)) :
    Transaction :=
  ofEnvelope
    { version := .testnet
      chainId := ⟨0x8000_0000, by decide⟩
      auth := .sponsored ⟨.p2wpkh, Bytes.zeros 20, nonce, 0, .compressed, signature⟩ (some sponsor)
      anchor := .any
      conditionMode := .deny
      conditions := []
      payload :=
        .call ⟨.whole ⟨26, by decide⟩, .zero⟩ ⟨[97], by decide⟩ ⟨[98], by decide⟩ [.tuple fields] }

/-- The call before anybody has signed it. -/
def draftCall : Transaction :=
  tupleCall 0 emptySignature .sentinel [(⟨[98], by decide⟩, .none), (⟨[97], by decide⟩, .bool true)]

/-- The call with another nonce, with a signature and a sponsor, and with the fields in another order. -/
def signedCall : Transaction :=
  tupleCall 7 (1 :: Bytes.zeros 64) ⟨.p2pkh, 1 :: Bytes.zeros 19, 3, 5, .compressed, emptySignature⟩
    [(⟨[97], by decide⟩, .bool true), (⟨[98], by decide⟩, .none)]

/-- What was set later on the signed call is not under the digest, which is that of the draft. -/
theorem initialBytes_eq_iff_draftCall :
    (∃ c, draftCall.envelope.encode = .ok c) ∧ (∃ c, signedCall.envelope.encode = .ok c) ∧
      draftCall.envelope.AlikeUnsigned signedCall.envelope ∧
      ∃ b, draftCall.envelope.initialBytes = .ok b ∧ signedCall.envelope.initialBytes = .ok b := by
  have hdraft : draftCall.envelope.auth.origin.Keyed := ⟨rfl, rfl⟩
  have hsigned : signedCall.envelope.auth.origin.Keyed := ⟨rfl, rfl⟩
  have hvalues : ∀ v ∈ draftCall.envelope.values, v.Constructible := by
    intro v hv
    obtain rfl := List.mem_singleton.mp hv
    exact Value.constructible_of_distinct (by unfold Value.Distinct; decide) rfl
  have hvalues' : ∀ v ∈ signedCall.envelope.values, v.Constructible := by
    intro v hv
    obtain rfl := List.mem_singleton.mp hv
    exact Value.constructible_of_distinct (by unfold Value.Distinct; decide) rfl
  have halike : draftCall.envelope.AlikeUnsigned signedCall.envelope :=
    ⟨rfl, rfl, rfl, rfl, rfl, rfl, rfl, rfl, .nil, rfl⟩
  obtain ⟨b, b', hb, -, hb', -, h⟩ := initialBytes_eq_iff hdraft hsigned hvalues hvalues' rfl rfl
  obtain rfl := h.mpr halike
  exact ⟨⟨_, rfl⟩, ⟨_, rfl⟩, halike, b, hb, hb'⟩

end Transaction

end StacksWallet
