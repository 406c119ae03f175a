import StacksWallet.Proofs.PostCondition.Encodable
import StacksWallet.Proofs.Transaction.RoundTrip

/-!
# Transactions that can be written

A transaction that is made or read has a number of bytes and a digest to sign, if its counts and the sizes of its
strings fit into four bytes and all its versions can be written. Spending conditions that have passed the checks of
their constructor never stand in the way, nor does anything else.

Principals and addresses that are given a whole number as their version can be written, as their constructors check
its range; a fraction, or the numeral that an address also takes, is kept and has no byte. An asset is made with any
number at all, so a transaction may come about whose bytes nobody can ask for.
-/

namespace StacksWallet

namespace Payload

/-- The number of arguments, and all counts and sizes of strings in them, fit into four bytes. -/
def Bounded : Payload → Prop
  | transfer .. => True
  | call _ _ _ arguments => arguments.length < wordCount 4 ∧ ∀ v ∈ arguments, v.Bounded

/-- The recipient, or the contract's address and all principals in the arguments, have whole versions. -/
def Versioned : Payload → Prop
  | transfer recipient _ _ => recipient.account.version.Whole
  | call address _ _ arguments => address.version.Whole ∧ ∀ v ∈ arguments, v.Versioned

/-- A payload can be written if and only if its counts and sizes fit into four bytes and its versions are whole. -/
theorem exists_encode_iff {p : Payload} : (∃ b, p.encode = .ok b) ↔ p.Bounded ∧ p.Versioned := by
  cases p with
  | transfer recipient amount memo =>
    have hrecipient : (∃ b, (Value.principal recipient).encode = .ok b) ↔ recipient.account.version.Whole := by
      rw [Value.exists_encode_iff]
      simp [Value.Bounded, Value.Versioned, Value.parts, Value.extent, wordCount]
    rw [Bounded, Versioned, true_and, ← hrecipient]
    simp [encode_transfer]
  | call address contract function arguments =>
    have hall : (∃ c, Value.encodeAll arguments = .ok c) ↔ ∀ v ∈ arguments, ∃ b, v.encode = .ok b :=
      Spelling.exists_encodeAll_iff Value.encode Value.encodeAll rfl fun _ _ => rfl
    rw [forall₂_congr fun v _ => Value.exists_encode_iff, forall₂_and] at hall
    constructor
    · intro h
      obtain ⟨_, h⟩ := h
      obtain ⟨n, _, hversion, hlength, hc, -⟩ := encode_call.mp h
      obtain ⟨hbounded, hversioned⟩ := hall.mp ⟨_, hc⟩
      exact ⟨⟨hlength, hbounded⟩, ⟨n, hversion⟩, hversioned⟩
    · intro h
      obtain ⟨⟨hlength, hbounded⟩, ⟨n, hversion⟩, hversioned⟩ := h
      obtain ⟨_, hc⟩ := hall.mpr ⟨hbounded, hversioned⟩
      exact ⟨_, encode_call.mpr ⟨n, _, hversion, hlength, hc, rfl⟩⟩

end Payload

namespace Envelope

/-- The number of conditions, and all counts and sizes of strings in conditions and payload, fit into four bytes. -/
structure Bounded (e : Envelope) : Prop where
  length_lt : e.conditions.length < wordCount 4
  conditions : ∀ pc ∈ e.conditions, pc.Bounded
  payload : e.payload.Bounded

/-- All versions in conditions and payload can be written. -/
structure Versioned (e : Envelope) : Prop where
  conditions : ∀ pc ∈ e.conditions, pc.Versioned
  payload : e.payload.Versioned

/-- An envelope with valid spending conditions can be written if and only if its counts and sizes fit into four bytes
and its versions can be written. -/
theorem exists_encode_iff {e : Envelope} (hauth : e.auth.Valid) :
    (∃ b, e.encode = .ok b) ↔ e.Bounded ∧ e.Versioned := by
  constructor
  · intro h
    obtain ⟨_, h⟩ := h
    obtain ⟨_, _, hconditions, hpayload, -⟩ := (encode_eq_ok_iff hauth).mp h
    obtain ⟨hlength, hconditions⟩ := PostCondition.exists_encodeAll_iff.mp ⟨_, hconditions⟩
    obtain ⟨hbounded, hversioned⟩ := Payload.exists_encode_iff.mp ⟨_, hpayload⟩
    exact ⟨⟨hlength, fun pc hpc => (hconditions pc hpc).1, hbounded⟩, fun pc hpc => (hconditions pc hpc).2, hversioned⟩
  · intro h
    obtain ⟨hbounded, hversioned⟩ := h
    obtain ⟨_, hconditions⟩ := PostCondition.exists_encodeAll_iff.mpr
      ⟨hbounded.length_lt, fun pc hpc => ⟨hbounded.conditions pc hpc, hversioned.conditions pc hpc⟩⟩
    obtain ⟨_, hpayload⟩ := Payload.exists_encode_iff.mpr ⟨hbounded.payload, hversioned.payload⟩
    exact ⟨_, (encode_eq_ok_iff hauth).mpr ⟨_, _, hconditions, hpayload, rfl⟩⟩

end Envelope

namespace Transaction

variable {t : Transaction}

/-- A transaction at its beginning has a number of bytes if and only if its envelope can be written. -/
theorem Start.exists_byteLength_iff (ht : Start t) :
    (∃ n, t.byteLength = .ok n) ↔ t.envelope.Bounded ∧ t.envelope.Versioned := by
  obtain ⟨hfresh, hauth, -⟩ := ht.envelope
  have hlength : t.byteLength = t.envelope.encode.map (·.length) := by
    rw [hfresh]
    rfl
  rw [hlength, ← Envelope.exists_encode_iff hauth]
  simp [Outcome.map_eq_ok]

/-- A transaction at its beginning has a digest to sign if and only if its envelope can be written. -/
theorem Start.exists_initialDigest_iff (ht : Start t) :
    (∃ digest, t.initialDigest = .ok digest) ↔ t.envelope.Bounded ∧ t.envelope.Versioned := by
  have hkeyed := ht.envelope.2.1.origin.keyed
  -- Only the authorization is blanked out for the digest, and it has no counts and no versions.
  have hblank : t.envelope.blank.Bounded ∧ t.envelope.blank.Versioned ↔ t.envelope.Bounded ∧ t.envelope.Versioned :=
    ⟨fun h => ⟨⟨h.1.length_lt, h.1.conditions, h.1.payload⟩, ⟨h.2.conditions, h.2.payload⟩⟩,
      fun h => ⟨⟨h.1.length_lt, h.1.conditions, h.1.payload⟩, ⟨h.2.conditions, h.2.payload⟩⟩⟩
  have hdigest : t.initialDigest = t.envelope.blank.encode.map Sha512.digest := by
    rw [← Envelope.initialBytes_eq hkeyed]
    rfl
  rw [hdigest, ← hblank, ← Envelope.exists_encode_iff (Authorization.blank_valid hkeyed)]
  simp [Outcome.map_eq_ok]

/-- Values, assets, conditions and payloads can be written if and only if their counts and sizes of strings fit into
four bytes and their versions can be written, and a transaction at its beginning has a number of bytes and a digest to
sign exactly then. Accounts are only made with versions that can be written, unless a fraction is given, and so are
addresses, unless a fraction or a numeral is given; assets are made with any version. -/
theorem encodable_iff (v : Value) (a : Asset) (pc : PostCondition) (p : Payload) (ht : Start t) :
    ((∃ b, v.encode = .ok b) ↔ v.Bounded ∧ v.Versioned) ∧
      ((∃ b, a.encode = .ok b) ↔ a.Versioned) ∧
      ((∃ b, pc.encode = .ok b) ↔ pc.Bounded ∧ pc.Versioned) ∧
      ((∃ b, p.encode = .ok b) ↔ p.Bounded ∧ p.Versioned) ∧
      ((∃ n, t.byteLength = .ok n) ↔ t.envelope.Bounded ∧ t.envelope.Versioned) ∧
      ((∃ digest, t.initialDigest = .ok digest) ↔ t.envelope.Bounded ∧ t.envelope.Versioned) ∧
      (∀ version hash account, Principal.accountOf version hash = .ok account →
        (account.version.Whole ↔ ∀ x, version ≠ .real x)) ∧
      (∀ version hash address, Address.make version hash = .ok address →
        (address.version.Whole ↔ ∃ n, Wire.whole? version = some n)) ∧
      ∀ version hash contract name asset, Asset.make version hash contract name = .ok asset → asset.version = version :=
  ⟨Value.exists_encode_iff, Asset.exists_encode_iff, PostCondition.exists_encode_iff, Payload.exists_encode_iff,
    ht.exists_byteLength_iff, ht.exists_initialDigest_iff, fun _ _ _ => Principal.whole_iff_of_accountOf,
    fun _ _ _ => Address.whole_iff_of_make, fun _ _ _ _ _ => Asset.version_of_make⟩

/-- The counts and versions in a token with its fields out of order can be written. -/
theorem encodable_unsortedToken : unsortedToken.Bounded ∧ unsortedToken.Versioned := by
  simp [unsortedToken, tokenFields, Value.Bounded, Value.Versioned, Value.parts, Value.itemsParts, Value.fieldsParts,
    Value.extent, wordCount, Version.Whole]

/-- A token, its asset, a condition on it and a call with it can be written, and the transaction with both has a number
of bytes and a digest. -/
theorem encodable_iff_tokenCall :
    Start tokenCall ∧ (∃ b, unsortedToken.encode = .ok b) ∧ (∃ b, tokenAsset.encode = .ok b) ∧
      (∃ b, tokenCondition.encode = .ok b) ∧ (∃ b, tokenCall.envelope.payload.encode = .ok b) ∧
      (∃ n, tokenCall.byteLength = .ok n) ∧ ∃ digest, tokenCall.initialDigest = .ok digest := by
  obtain ⟨hbounded, hversioned⟩ := encodable_unsortedToken
  have hasset : tokenAsset.Versioned := ⟨26, by decide, rfl⟩
  have hcondition : tokenCondition.Bounded ∧ tokenCondition.Versioned :=
    ⟨List.forall_mem_singleton.mpr hbounded, trivial, hasset, hversioned⟩
  have hpayload : tokenCall.envelope.payload.Bounded ∧ tokenCall.envelope.payload.Versioned :=
    ⟨⟨by decide, List.forall_mem_singleton.mpr hbounded⟩, ⟨_, rfl⟩, List.forall_mem_singleton.mpr hversioned⟩
  have hcall : tokenCall.envelope.Bounded ∧ tokenCall.envelope.Versioned :=
    ⟨⟨by decide, List.forall_mem_singleton.mpr hcondition.1, hpayload.1⟩,
      List.forall_mem_singleton.mpr hcondition.2, hpayload.2⟩
  obtain ⟨htoken, hbytes, hpc, hp, hlength, hdigest, -⟩ :=
    encodable_iff unsortedToken tokenAsset tokenCondition tokenCall.envelope.payload start_tokenCall
  exact ⟨start_tokenCall, htoken.mpr ⟨hbounded, hversioned⟩, hbytes.mpr hasset, hpc.mpr hcondition, hp.mpr hpayload,
    hlength.mpr hcall, hdigest.mpr hcall⟩

/-- A transfer on condition that the origin sends exactly one token, of an asset whose version is given. -/
def conditionalTransfer (asset : Asset) : Transaction :=
  ofEnvelope
    { Envelope.blankTransfer with
      auth := .standard .sentinel
      conditions := [.fungible .origin asset .equal 1] }

/-- An asset of version 300 is made, and so is a new transaction with a condition on it, but neither the asset nor the
condition can be written, and the transaction has no number of bytes and no digest to sign. -/
theorem conditionalTransfer_not_encodable :
    ∃ a, Asset.make (.integer 300) (.bytes (Bytes.zeros 20)) (.text "c") (.text "a") = .ok a ∧
      a.encode = .error (.packing .byteRange) ∧
      (PostCondition.fungible .origin a .equal 1).encode = .error (.packing .byteRange) ∧
      Transaction.new .mainnet 1 (.standard .sentinel) (.of Envelope.blankTransfer.payload) (.integer 3) (.integer 2)
        [.of (.fungible .origin a .equal 1)] = .ok (conditionalTransfer a) ∧
      (conditionalTransfer a).byteLength = .error (.packing .byteRange) ∧
      (conditionalTransfer a).initialDigest = .error (.packing .byteRange) :=
  ⟨⟨.integer 300, ⟨Bytes.zeros 20, rfl⟩, ⟨"c", by decide⟩, ⟨"a", by decide⟩⟩, rfl, rfl, rfl, rfl, rfl, rfl⟩

end Transaction

end StacksWallet
