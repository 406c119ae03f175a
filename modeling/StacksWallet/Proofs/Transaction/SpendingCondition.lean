import StacksWallet.Proofs.Wire.Encoded
import StacksWallet.Proofs.Wire.Field
import StacksWallet.Transaction.Authorization

/-!
# Who may spend

The constructor of spending conditions checks every field, and what passes has bytes of one form and of one
length. Reading accepts the forms of such conditions and nothing else, alone and inside an authorization.
-/

namespace StacksWallet

/-- Amounts are given as integers. -/
theorem Amount.ofDatum_eq_ok_iff {field : Text} {d : Datum} {a : Amount} :
    ofDatum field d = .ok a ↔ d = .integer a.val := by
  unfold ofDatum
  split
  · rename_i n
    rw [Datum.integer.injEq, ← below?_eq_some_iff]
    cases below? 0x1_0000_0000_0000_0000 n <;> simp
  · rename_i hd
    exact ⟨nofun, fun h => absurd h (hd _)⟩

/-- Hash modes are found by their numbers. -/
theorem HashMode.ofCode?_eq_some_iff {n : Int} {mode : HashMode} : ofCode? n = some mode ↔ n = mode.code :=
  find?_code_eq_some_iff (fun a b => by cases a <;> cases b <;> decide) (by cases mode <;> decide)

/-- Key encodings are found by their numbers. -/
theorem KeyEncoding.ofCode?_eq_some_iff {n : Int} {e : KeyEncoding} : ofCode? n = some e ↔ n = e.code :=
  find?_code_eq_some_iff (fun a b => by cases a <;> cases b <;> decide) (by cases e <;> decide)

namespace SpendingCondition

/-- The condition passes the checks of its constructor. -/
structure Valid (c : SpendingCondition) : Prop where
  singleKey : c.mode.isSingleKey = true
  signer_length : c.signer.length = 20
  signature_length : c.signature.length = signatureWidth
  nonce_range : 0 ≤ c.nonce ∧ c.nonce < wordCount 8
  fee_range : 0 ≤ c.fee ∧ c.fee < wordCount 8

/-- The constructor makes the conditions that pass its checks, of integers for nonce and fee. -/
theorem make_eq_ok_iff {mode : HashMode} {signer : Bytes} {nonce fee : Datum} {encoding : KeyEncoding}
    {signature : Bytes} {c : SpendingCondition} :
    make mode signer nonce fee encoding signature = .ok c ↔
      c.Valid ∧ nonce = .integer c.nonce ∧ fee = .integer c.fee ∧
        c.mode = mode ∧ c.signer = signer ∧ c.encoding = encoding ∧ c.signature = signature := by
  have hcount : wordCount 8 = 0x1_0000_0000_0000_0000 := by decide
  unfold make
  constructor
  · intro h
    obtain ⟨hmode, h⟩ := Outcome.guard_eq_ok.mp h
    obtain ⟨hsigner, h⟩ := Outcome.guard_eq_ok.mp h
    obtain ⟨hsignature, h⟩ := Outcome.guard_eq_ok.mp h
    obtain ⟨n, hn, h⟩ := Outcome.bind_eq_ok.mp h
    obtain ⟨f, hf, h⟩ := Outcome.bind_eq_ok.mp h
    obtain rfl := Except.ok.inj h
    obtain rfl := Amount.ofDatum_eq_ok_iff.mp hn
    obtain rfl := Amount.ofDatum_eq_ok_iff.mp hf
    have hrange : ∀ a : Amount, (0 : Int) ≤ a.val ∧ (a.val : Int) < wordCount 8 := fun a => by
      have := a.isLt
      omega
    exact ⟨⟨by simpa using hmode, by simpa using hsigner, by simpa using hsignature, hrange n, hrange f⟩,
      rfl, rfl, rfl, rfl, rfl, rfl⟩
  · intro h
    obtain ⟨⟨hmode, hsigner, hsignature, hnonce, hfee⟩, rfl, rfl, rfl, rfl, rfl, rfl⟩ := h
    have hn : Amount.ofDatum "nonce" (.integer c.nonce) = .ok ⟨c.nonce.toNat, by omega⟩ :=
      Amount.ofDatum_eq_ok_iff.mpr (by rw [Int.toNat_of_nonneg hnonce.1])
    have hf : Amount.ofDatum "fee" (.integer c.fee) = .ok ⟨c.fee.toNat, by omega⟩ :=
      Amount.ofDatum_eq_ok_iff.mpr (by rw [Int.toNat_of_nonneg hfee.1])
    refine Outcome.guard_eq_ok.mpr ⟨by simpa using hmode, Outcome.guard_eq_ok.mpr ⟨by simpa using hsigner,
      Outcome.guard_eq_ok.mpr ⟨by simpa using hsignature, Outcome.bind_eq_ok.mpr ⟨_, hn,
        Outcome.bind_eq_ok.mpr ⟨_, hf, ?_⟩⟩⟩⟩⟩
    change Except.ok _ = _
    rw [Int.toNat_of_nonneg hnonce.1, Int.toNat_of_nonneg hfee.1]

/-- What the constructor makes passes its checks. -/
theorem valid_of_make {mode : HashMode} {signer : Bytes} {nonce fee : Datum} {encoding : KeyEncoding}
    {signature : Bytes} {c : SpendingCondition} (h : make mode signer nonce fee encoding signature = .ok c) : c.Valid :=
  (make_eq_ok_iff.mp h).1

/-- What the constructor makes has the signature that it was given. -/
theorem signature_of_make {mode : HashMode} {signer : Bytes} {nonce fee : Datum} {encoding : KeyEncoding}
    {signature : Bytes} {c : SpendingCondition} (h : make mode signer nonce fee encoding signature = .ok c) :
    c.signature = signature :=
  (make_eq_ok_iff.mp h).2.2.2.2.2.2

/-- The bytes of a condition behind its hash mode. -/
def tail (c : SpendingCondition) : Bytes :=
  c.signer ++ (bigEndian 8 c.nonce.toNat ++ (bigEndian 8 c.fee.toNat ++
    UInt8.ofNat c.encoding.code :: c.signature))

/-- The bytes of a condition. -/
def form (c : SpendingCondition) : Bytes := UInt8.ofNat c.mode.code :: c.tail

/-- A condition with nonce and fee in range is written in its form. -/
theorem encode_eq_ok_iff {c : SpendingCondition} {b : Bytes} :
    c.encode = .ok b ↔ (0 ≤ c.nonce ∧ c.nonce < wordCount 8) ∧ (0 ≤ c.fee ∧ c.fee < wordCount 8) ∧ b = c.form := by
  have hform : ∀ nonce fee : Bytes, UInt8.ofNat c.mode.code :: c.signer ++ nonce ++ fee ++
      UInt8.ofNat c.encoding.code :: c.signature =
        UInt8.ofNat c.mode.code :: (c.signer ++ (nonce ++ (fee ++ UInt8.ofNat c.encoding.code :: c.signature))) :=
    fun nonce fee => by simp
  rw [encode, Outcome.bind_eq_ok]
  constructor
  · intro h
    obtain ⟨nonce, hnonce, h⟩ := h
    obtain ⟨fee, hfee, h⟩ := Outcome.bind_eq_ok.mp h
    obtain ⟨hn₀, hn₁, rfl⟩ := Wire.word_integer_eq_ok_iff.mp hnonce
    obtain ⟨hf₀, hf₁, rfl⟩ := Wire.word_integer_eq_ok_iff.mp hfee
    exact ⟨⟨hn₀, hn₁⟩, ⟨hf₀, hf₁⟩, (Except.ok.inj h).symm.trans (hform _ _)⟩
  · intro h
    obtain ⟨⟨hn₀, hn₁⟩, ⟨hf₀, hf₁⟩, rfl⟩ := h
    exact ⟨_, Wire.word_integer_eq_ok_iff.mpr ⟨hn₀, hn₁, rfl⟩, Outcome.bind_eq_ok.mpr
      ⟨_, Wire.word_integer_eq_ok_iff.mpr ⟨hf₀, hf₁, rfl⟩, congrArg Except.ok (hform _ _)⟩⟩

/-- Valid conditions are written. -/
theorem Valid.encode_eq {c : SpendingCondition} (h : c.Valid) : c.encode = .ok c.form :=
  encode_eq_ok_iff.mpr ⟨h.nonce_range, h.fee_range, rfl⟩

/-- The end of a condition: how the key is serialized, and the signature. -/
theorem reads_signature (mode : HashMode) (signer : Bytes) (nonce fee : Nat) (encodingAt : Int) (rawEncoding : Nat) :
    (match KeyEncoding.ofCode? rawEncoding with
      | none => Reader.malformed encodingAt (.unknownTag .keyEncoding rawEncoding)
      | some encoding => do
        let signature ← Reader.take signatureWidth
        match make mode signer (.integer nonce) (.integer fee) encoding signature with
        | .ok c => return c
        | .error fault => throw fault : Reader SpendingCondition).Reads (fun c b _ =>
      c.Valid ∧ c.mode = mode ∧ c.signer = signer ∧ c.nonce = nonce ∧ c.fee = fee ∧
        rawEncoding = c.encoding.code ∧ b = c.signature) := by
  cases hcode : KeyEncoding.ofCode? rawEncoding with
  | none =>
    refine (Reader.reads_malformed _ _).congr fun c b after => ⟨False.elim, fun h => ?_⟩
    rw [KeyEncoding.ofCode?_eq_some_iff.mpr (Int.ofNat_inj.mpr h.2.2.2.2.2.1)] at hcode
    cases hcode
  | some encoding =>
    have hraw := Int.ofNat_inj.mp (KeyEncoding.ofCode?_eq_some_iff.mp hcode)
    refine ((Reader.reads_take signatureWidth).bind_written (t := fun signature c b _ =>
      make mode signer (.integer nonce) (.integer fee) encoding signature = .ok c ∧ b = [])
      fun signature _ => ?_).congr fun c b after => ?_
    · cases make mode signer (.integer nonce) (.integer fee) encoding signature with
      | error fault => exact (Reader.reads_throw fault).congr fun c b _ => by simp
      | ok d => exact (Reader.reads_pure d).congr fun c b _ => by simp [Spelling.silent, eq_comm]
    · simp only [make_eq_ok_iff]
      constructor
      · intro h
        obtain ⟨_, _, -, rfl, ⟨hvalid, hnonce, hfee, rfl, rfl, rfl, rfl⟩, rfl⟩ := h
        exact ⟨hvalid, rfl, rfl, (Datum.integer.inj hnonce).symm, (Datum.integer.inj hfee).symm, hraw,
          List.append_nil _⟩
      · intro h
        obtain ⟨hvalid, hmode, hsigner, hnonce, hfee, hencoding, rfl⟩ := h
        rw [KeyEncoding.ofCode?_eq_some_iff.mpr (Int.ofNat_inj.mpr hencoding), Option.some.injEq] at hcode
        exact ⟨c.signature, [], Int.ofNat_inj.mpr hvalid.signature_length, (List.append_nil _).symm,
          ⟨hvalid, congrArg _ hnonce.symm, congrArg _ hfee.symm, hmode, hsigner, hcode, rfl⟩, rfl⟩

/-- What follows the hash mode of a condition. -/
theorem reads_mode (mode : HashMode) :
    (do let signer ← Reader.take 20
        let nonce ← Reader.u64
        let fee ← Reader.u64
        let encodingAt ← Reader.position
        let rawEncoding ← Reader.u8
        match KeyEncoding.ofCode? rawEncoding with
        | none => Reader.malformed encodingAt (.unknownTag .keyEncoding rawEncoding)
        | some encoding => do
          let signature ← Reader.take signatureWidth
          match make mode signer (.integer nonce) (.integer fee) encoding signature with
          | .ok c => return c
          | .error fault => throw fault : Reader SpendingCondition).Reads (fun c b _ =>
      c.Valid ∧ c.mode = mode ∧ b = c.tail) := by
  refine ((Reader.reads_take 20).bind_written fun signer _ => Reader.reads_u64.bind_written fun nonce _ =>
    Reader.reads_u64.bind_written fun fee _ => Reader.reads_position fun encodingAt =>
      Reader.reads_u8.bind_written fun rawEncoding _ =>
        reads_signature mode signer nonce fee encodingAt rawEncoding).congr fun c b after => ?_
  constructor
  · intro h
    obtain ⟨_, _, -, rfl, nonce, _, -, rfl, fee, _, -, rfl, _, _, -, rfl, hvalid, rfl, rfl, hnonce, hfee, rfl, rfl⟩ :=
      h
    refine ⟨hvalid, rfl, ?_⟩
    rw [tail, hnonce, hfee, Reader.bigEndian_one]
    rfl
  · intro h
    obtain ⟨hvalid, rfl, rfl⟩ := h
    have hnonce := hvalid.nonce_range
    have hfee := hvalid.fee_range
    have hcode : c.encoding.code < wordCount 1 := by cases c.encoding <;> decide
    refine ⟨c.signer, _, Int.ofNat_inj.mpr hvalid.signer_length, rfl, c.nonce.toNat, _, by omega, rfl, c.fee.toNat, _,
      by omega, rfl, c.encoding.code, c.signature, hcode, by rw [Reader.bigEndian_one]; rfl, hvalid, rfl, rfl, ?_, ?_,
      rfl, rfl⟩
    · rw [Int.toNat_of_nonneg hnonce.1]
    · rw [Int.toNat_of_nonneg hfee.1]

/-- Conditions are read from their forms, if they are valid. -/
theorem reads : read.Reads (.written Valid form) := by
  refine Reader.reads_position fun start => Reader.reads_coded (fun c => rfl)
    (fun c => by cases c.mode <;> decide) fun rawMode => ?_
  cases hcode : HashMode.ofCode? rawMode with
  | none =>
    refine (Reader.reads_malformed _ _).congr fun c b after => ⟨False.elim, fun h => ?_⟩
    rw [HashMode.ofCode?_eq_some_iff.mpr (Int.ofNat_inj.mpr h.2.1)] at hcode
    cases hcode
  | some mode =>
    have hraw := Int.ofNat_inj.mp (HashMode.ofCode?_eq_some_iff.mp hcode)
    refine (Reader.reads_guard (p := (!mode.isSingleKey) = true) fun _ => reads_mode mode).congr fun c b after => ?_
    constructor
    · intro h
      obtain ⟨-, hvalid, rfl, hb⟩ := h
      exact ⟨hvalid, hraw, hb⟩
    · intro h
      obtain ⟨hvalid, hmode, hb⟩ := h
      rw [HashMode.ofCode?_eq_some_iff.mpr (Int.ofNat_inj.mpr hmode), Option.some.injEq] at hcode
      subst hcode
      exact ⟨by simp [hvalid.singleKey], hvalid, rfl, hb⟩

end SpendingCondition

namespace Authorization

/-- Both conditions pass the checks of their constructor. -/
structure Valid (a : Authorization) : Prop where
  origin : a.origin.Valid
  sponsor : ∀ c, a.sponsor? = some c → c.Valid

/-- The bytes of an authorization behind its kind. -/
def tail (a : Authorization) : Bytes := a.origin.form ++ (a.sponsor?.map SpendingCondition.form).getD []

/-- The bytes of an authorization. -/
def form (a : Authorization) : Bytes := UInt8.ofNat a.kind.code :: a.tail

/-- Valid authorizations are written. -/
theorem Valid.encode_eq {a : Authorization} (h : a.Valid) : a.encode = .ok a.form := by
  obtain ⟨origin, sponsor?⟩ := a
  rw [encode, h.origin.encode_eq]
  cases sponsor? with
  | none => rfl
  | some c =>
    change (do let sponsor ← c.encode; return UInt8.ofNat 5 :: origin.form ++ sponsor) = _
    rw [(h.sponsor c rfl).encode_eq]
    rfl

/-- Authorizations are read from their forms, if they are valid. -/
theorem reads : read.Reads (.written Valid form) := by
  refine Reader.reads_position fun start => Reader.reads_coded (fun a => rfl) (fun a => by cases a.kind <;> decide)
    fun tag => ?_
  split
  · rename_i htag
    refine (SpendingCondition.reads.map_written standard).congr fun a b after => ?_
    constructor
    · intro h
      obtain ⟨origin, horigin, rfl, rfl⟩ := h
      exact ⟨⟨horigin, nofun⟩, htag, (List.append_nil _).symm⟩
    · intro h
      obtain ⟨origin, _ | sponsor⟩ := a
      · obtain ⟨hvalid, -, rfl⟩ := h
        exact ⟨origin, hvalid.origin, rfl, List.append_nil _⟩
      · nomatch (htag.symm.trans h.2.1 : 4 = 5)
  · rename_i hstandard
    split
    · rename_i htag
      refine (SpendingCondition.reads.bind_written fun origin _ => SpendingCondition.reads.map_written
        fun sponsor => (⟨origin, some sponsor⟩ : Authorization)).congr fun a b after => ?_
      constructor
      · intro h
        obtain ⟨origin, _, horigin, rfl, sponsor, hsponsor, rfl, rfl⟩ := h
        refine ⟨⟨horigin, fun c hc => ?_⟩, htag, rfl⟩
        obtain rfl := Option.some.inj hc
        exact hsponsor
      · intro h
        obtain ⟨origin, _ | sponsor⟩ := a
        · exact absurd h.2.1 hstandard
        · obtain ⟨hvalid, -, rfl⟩ := h
          exact ⟨origin, sponsor.form, hvalid.origin, rfl, sponsor, hvalid.sponsor sponsor rfl, rfl, rfl⟩
    · rename_i hsponsored
      refine (Reader.reads_malformed _ _).congr fun a b after => ⟨False.elim, fun h => ?_⟩
      cases hkind : a.kind with
      | standard => exact hstandard (hkind ▸ h.2.1)
      | sponsored => exact hsponsored (hkind ▸ h.2.1)

end Authorization

end StacksWallet
