import StacksWallet.Proofs.Transaction.Payload
import StacksWallet.Proofs.Transaction.SpendingCondition
import StacksWallet.Transaction.Envelope

/-!
# What the reader of envelopes accepts

An envelope is read from exactly the bytes that it is written as, and only if nothing comes after them. What
is read has valid spending conditions, and values in canonical form that are not too deep.
-/

namespace StacksWallet

/-- Networks are found by their numbers. -/
theorem TransactionVersion.ofCode?_eq_some_iff {n : Int} {v : TransactionVersion} : ofCode? n = some v ↔ n = v.code :=
  find?_code_eq_some_iff (fun a b => by cases a <;> cases b <;> decide) (by cases v <;> decide)

/-- Anchor modes are found by their numbers. -/
theorem AnchorMode.ofCode?_eq_some_iff {n : Int} {m : AnchorMode} : ofCode? n = some m ↔ n = m.code :=
  find?_code_eq_some_iff (fun a b => by cases a <;> cases b <;> decide) (by cases m <;> decide)

/-- Post-condition modes are found by their numbers. -/
theorem PostConditionMode.ofCode?_eq_some_iff {n : Int} {m : PostConditionMode} : ofCode? n = some m ↔ n = m.code :=
  find?_code_eq_some_iff (fun a b => by cases a <;> cases b <;> decide) (by cases m <;> decide)

namespace Envelope

/-- Chains are numbers of four bytes. -/
theorem chainOf_integer_eq_ok_iff {n : Int} {id : Fin 0x1_0000_0000} : chainOf (.integer n) = .ok id ↔ n = id.val := by
  rw [← below?_eq_some_iff]
  unfold chainOf
  dsimp only
  cases below? 4294967296 n with
  | none => exact ⟨nofun, nofun⟩
  | some k => rw [Except.ok.injEq, Option.some.injEq]

/-- The number of a chain has four bytes. -/
theorem chainId_lt (e : Envelope) : e.chainId.val < wordCount 4 := by
  have hcount : wordCount 4 = 0x1_0000_0000 := by decide
  rw [hcount]
  exact e.chainId.isLt

/-- Whether the envelope is one that is read: its spending conditions are valid and its values settled. -/
structure Settled (e : Envelope) : Prop where
  auth : e.auth.Valid
  conditions : ∀ pc ∈ e.conditions, pc.Settled
  payload : e.payload.Settled

/-- The form of an envelope with valid spending conditions. -/
theorem encode_eq_ok_iff {e : Envelope} (hauth : e.auth.Valid) {b : Bytes} :
    e.encode = .ok b ↔ ∃ conditions payload, PostCondition.encodeAll e.conditions = .ok conditions ∧
      e.payload.encode = .ok payload ∧ b = UInt8.ofNat e.version.code :: (bigEndian 4 e.chainId.val ++ (e.auth.form ++
        UInt8.ofNat e.anchor.code :: UInt8.ofNat e.conditionMode.code :: (conditions ++ payload))) := by
  rw [encode, hauth.encode_eq]
  change (PostCondition.encodeAll e.conditions >>= _) = _ ↔ _
  rw [Outcome.bind_eq_ok]
  constructor
  · intro h
    obtain ⟨conditions, hconditions, h⟩ := h
    obtain ⟨payload, hpayload, h⟩ := Outcome.bind_eq_ok.mp h
    obtain rfl := Except.ok.inj h
    exact ⟨conditions, payload, hconditions, hpayload, by simp⟩
  · intro h
    obtain ⟨conditions, payload, hconditions, hpayload, rfl⟩ := h
    exact ⟨conditions, hconditions, Outcome.bind_eq_ok.mpr ⟨payload, hpayload, congrArg Except.ok (by simp)⟩⟩

/-- The bytes of the conditions and the payload, which end an envelope. -/
def Body (e : Envelope) (b : Bytes) : Prop :=
  ∃ conditions payload, PostCondition.encodeAll e.conditions = .ok conditions ∧ e.payload.encode = .ok payload ∧
    b = conditions ++ payload

/-- An envelope ends where the bytes do. -/
theorem reads_readEnd (rawChain : Nat) (on : Fin 0x1_0000_0000 → Envelope) :
    (readEnd rawChain on).Reads (fun e b after => ∃ id, rawChain = id.val ∧ e = on id ∧ b = [] ∧ after = []) := by
  refine (Reader.reads_remaining.bind (t := fun left e b _ =>
    ∃ id, rawChain = id.val ∧ e = on id ∧ b = [] ∧ ¬ 0 < left) fun left => ?_).congr fun e b after => ?_
  · by_cases hleft : 0 < left
    · rw [if_pos hleft]
      exact (Reader.reads_position fun start => Reader.reads_malformed start _).congr fun e b after =>
        ⟨False.elim, fun ⟨_, _, _, _, h⟩ => h hleft⟩
    · rw [if_neg hleft]
      cases hchain : chainOf (.integer rawChain) with
      | error fault =>
        refine (Reader.reads_throw fault).congr fun e b after => ⟨False.elim, fun h => ?_⟩
        obtain ⟨id, hid, -⟩ := h
        rw [chainOf_integer_eq_ok_iff.mpr (Int.ofNat_inj.mpr hid)] at hchain
        cases hchain
      | ok chainId =>
        have hid := Int.ofNat_inj.mp (chainOf_integer_eq_ok_iff.mp hchain)
        refine (Reader.reads_pure (on chainId)).congr fun e b after => ?_
        constructor
        · intro h
          exact ⟨chainId, hid, h.1, h.2, hleft⟩
        · intro h
          obtain ⟨id, hid', rfl, rfl, -⟩ := h
          exact ⟨congrArg on (Fin.ext (hid'.symm.trans hid)), rfl⟩
  · constructor
    · intro h
      obtain ⟨left, _, _, rfl, ⟨rfl, rfl⟩, id, hid, rfl, rfl, hleft⟩ := h
      have hafter : ¬ 0 < after.length := by simpa using hleft
      exact ⟨id, hid, rfl, rfl, List.eq_nil_of_length_eq_zero (by omega)⟩
    · intro h
      obtain ⟨id, hid, rfl, rfl, rfl⟩ := h
      exact ⟨0, [], [], rfl, ⟨rfl, rfl⟩, id, hid, rfl, rfl, by decide⟩

/-- What follows the modes of an envelope. -/
theorem reads_body (guarded : Bool) (version : TransactionVersion) (rawChain : Nat) (auth : Authorization)
    (anchor : AnchorMode) (conditionMode : PostConditionMode) :
    (do let conditions ← PostCondition.readAll guarded
        let payload ← Payload.read guarded
        readEnd rawChain fun chainId =>
          ⟨version, chainId, auth, anchor, conditionMode, conditions, payload⟩ : Reader Envelope).Reads
      (fun e b after => (e.version = version ∧ rawChain = e.chainId.val ∧ e.auth = auth ∧ e.anchor = anchor ∧
        e.conditionMode = conditionMode) ∧ (∀ pc ∈ e.conditions, pc.Settled) ∧ e.payload.Settled ∧ e.Body b ∧
          after = []) := by
  refine ((PostCondition.reads_readAll guarded).bind fun conditions => (Payload.reads guarded).bind fun payload =>
    reads_readEnd rawChain fun id => ⟨version, id, auth, anchor, conditionMode, conditions, payload⟩).congr
    fun e b after => ?_
  constructor
  · intro h
    obtain ⟨_, b₁, _, rfl, ⟨hconditions, h₁⟩, _, b₂, _, rfl, ⟨hpayload, h₂⟩, id, hid, rfl, rfl, rfl⟩ := h
    exact ⟨⟨rfl, hid, rfl, rfl, rfl⟩, hconditions, hpayload, ⟨b₁, b₂, h₁, h₂, by rw [List.append_nil]⟩, rfl⟩
  · intro h
    obtain ⟨_, id, _, _, _, conditions, payload⟩ := e
    obtain ⟨⟨rfl, hid, rfl, rfl, rfl⟩, hconditions, hpayload, ⟨b₁, b₂, h₁, h₂, rfl⟩, rfl⟩ := h
    exact ⟨conditions, b₁, b₂, rfl, ⟨hconditions, h₁⟩, payload, b₂, [], (List.append_nil _).symm, ⟨hpayload, h₂⟩, id,
      hid, rfl, rfl, rfl⟩

/-- What follows the authorization of an envelope. -/
theorem reads_modes (guarded : Bool) (version : TransactionVersion) (rawChain : Nat) (auth : Authorization) :
    (do let modesAt ← Reader.position
        let rawAnchor ← Reader.u8
        let rawMode ← Reader.u8
        match AnchorMode.ofCode? rawAnchor, PostConditionMode.ofCode? rawMode with
        | none, _ => Reader.malformed modesAt (.badMode .anchorMode rawAnchor)
        | _, none => Reader.malformed modesAt (.badMode .postConditionMode rawMode)
        | some anchor, some conditionMode =>
          let conditions ← PostCondition.readAll guarded
          let payload ← Payload.read guarded
          readEnd rawChain fun chainId =>
            ⟨version, chainId, auth, anchor, conditionMode, conditions, payload⟩ : Reader Envelope).Reads
      (fun e b after => (e.version = version ∧ rawChain = e.chainId.val ∧ e.auth = auth) ∧
        (∀ pc ∈ e.conditions, pc.Settled) ∧ e.payload.Settled ∧ (∃ body, e.Body body ∧
          b = UInt8.ofNat e.anchor.code :: UInt8.ofNat e.conditionMode.code :: body) ∧ after = []) := by
  refine Reader.reads_position fun modesAt => (Reader.reads_u8.bind_written fun rawAnchor _ =>
    Reader.reads_u8.bind_written (t := fun (rawMode : Nat) (e : Envelope) b after => (e.version = version ∧
      rawChain = e.chainId.val ∧ e.auth = auth ∧ rawAnchor = e.anchor.code ∧ rawMode = e.conditionMode.code) ∧
        (∀ pc ∈ e.conditions, pc.Settled) ∧ e.payload.Settled ∧ e.Body b ∧ after = []) fun rawMode _ => ?_).congr
    fun e b after => ?_
  · cases hanchor : AnchorMode.ofCode? rawAnchor with
    | none =>
      refine (Reader.reads_malformed _ _).congr fun e b after => ⟨False.elim, fun h => ?_⟩
      rw [AnchorMode.ofCode?_eq_some_iff.mpr (Int.ofNat_inj.mpr h.1.2.2.2.1)] at hanchor
      cases hanchor
    | some anchor =>
      cases hmode : PostConditionMode.ofCode? rawMode with
      | none =>
        refine (Reader.reads_malformed _ _).congr fun e b after => ⟨False.elim, fun h => ?_⟩
        rw [PostConditionMode.ofCode?_eq_some_iff.mpr (Int.ofNat_inj.mpr h.1.2.2.2.2)] at hmode
        cases hmode
      | some conditionMode =>
        have hanchors : ∀ m : AnchorMode, rawAnchor = m.code ↔ m = anchor := fun m => by
          rw [← Int.ofNat_inj, ← AnchorMode.ofCode?_eq_some_iff, hanchor, Option.some.injEq, eq_comm]
        have hmodes : ∀ m : PostConditionMode, rawMode = m.code ↔ m = conditionMode := fun m => by
          rw [← Int.ofNat_inj, ← PostConditionMode.ofCode?_eq_some_iff, hmode, Option.some.injEq, eq_comm]
        refine (reads_body guarded version rawChain auth anchor conditionMode).congr fun e b after => ?_
        rw [hanchors, hmodes]
  · constructor
    · intro h
      obtain ⟨_, _, -, rfl, _, body, -, rfl, ⟨hversion, hid, hauth, rfl, rfl⟩, hconditions, hpayload, hbody, rfl⟩ := h
      exact ⟨⟨hversion, hid, hauth⟩, hconditions, hpayload, ⟨body, hbody, by simp [Reader.bigEndian_one]⟩, rfl⟩
    · intro h
      obtain ⟨⟨hversion, hid, hauth⟩, hconditions, hpayload, ⟨body, hbody, rfl⟩, rfl⟩ := h
      exact ⟨e.anchor.code, _, by cases e.anchor <;> decide, by rw [Reader.bigEndian_one]; rfl, e.conditionMode.code,
        body, by cases e.conditionMode <;> decide, by rw [Reader.bigEndian_one]; rfl,
        ⟨hversion, hid, hauth, rfl, rfl⟩, hconditions, hpayload, hbody, rfl⟩

/-- Envelopes are read from what they are written as, at the end of the bytes. -/
theorem reads (guarded : Bool) :
    (read guarded).Reads (fun e b after => e.Settled ∧ e.encode = .ok b ∧ after = []) := by
  refine (Reader.reads_u8.bind_written (t := fun (rawVersion : Nat) (e : Envelope) b after =>
    rawVersion = e.version.code ∧ (∀ pc ∈ e.conditions, pc.Settled) ∧ e.payload.Settled ∧ e.auth.Valid ∧
      (∃ body, e.Body body ∧ b = bigEndian 4 e.chainId.val ++ (e.auth.form ++
        UInt8.ofNat e.anchor.code :: UInt8.ofNat e.conditionMode.code :: body)) ∧ after = [])
    fun rawVersion _ => ?_).congr fun e b after => ?_
  · cases hversion : TransactionVersion.ofCode? rawVersion with
    | none =>
      refine (Reader.reads_malformed _ _).congr fun e b after => ⟨False.elim, fun h => ?_⟩
      rw [TransactionVersion.ofCode?_eq_some_iff.mpr (Int.ofNat_inj.mpr h.1)] at hversion
      cases hversion
    | some version =>
      have hraw := Int.ofNat_inj.mp (TransactionVersion.ofCode?_eq_some_iff.mp hversion)
      refine (Reader.reads_u32.bind_written fun rawChain _ => Authorization.reads.bind_written fun auth _ =>
        reads_modes guarded version rawChain auth).congr fun e b after => ?_
      constructor
      · intro h
        obtain ⟨_, _, -, rfl, _, _, hvalid, rfl, ⟨rfl, rfl, rfl⟩, hconditions, hpayload, ⟨body, hbody, rfl⟩, rfl⟩ := h
        exact ⟨hraw, hconditions, hpayload, hvalid, ⟨body, hbody, rfl⟩, rfl⟩
      · intro h
        obtain ⟨hcode, hconditions, hpayload, hvalid, ⟨body, hbody, rfl⟩, rfl⟩ := h
        rw [TransactionVersion.ofCode?_eq_some_iff.mpr (Int.ofNat_inj.mpr hcode), Option.some.injEq] at hversion
        exact ⟨e.chainId.val, _, e.chainId_lt, rfl, e.auth, _, hvalid, rfl, ⟨hversion, rfl, rfl⟩, hconditions,
          hpayload, ⟨body, hbody, rfl⟩, rfl⟩
  · constructor
    · intro h
      obtain ⟨_, _, -, rfl, rfl, hconditions, hpayload, hvalid, ⟨_, ⟨b₁, b₂, h₁, h₂, rfl⟩, rfl⟩, rfl⟩ := h
      exact ⟨⟨hvalid, hconditions, hpayload⟩, (encode_eq_ok_iff hvalid).mpr ⟨b₁, b₂, h₁, h₂, by
        rw [Reader.bigEndian_one]; rfl⟩, rfl⟩
    · intro h
      obtain ⟨⟨hvalid, hconditions, hpayload⟩, hencode, rfl⟩ := h
      obtain ⟨b₁, b₂, h₁, h₂, rfl⟩ := (encode_eq_ok_iff hvalid).mp hencode
      exact ⟨e.version.code, _, by cases e.version <;> decide, by rw [Reader.bigEndian_one]; rfl, rfl, hconditions,
        hpayload, hvalid, ⟨_, ⟨b₁, b₂, h₁, h₂, rfl⟩, rfl⟩, rfl⟩

end Envelope

end StacksWallet
