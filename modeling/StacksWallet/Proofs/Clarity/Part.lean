import StacksWallet.Clarity.Principal
import StacksWallet.Proofs.Wire.Primitive

/-!
# What the readers of names and principals accept

Names and principals have one form each on the wire. A name is read whatever it names, and a principal only
with a version that is a whole number below 32, which is also what writing asks for.
-/

namespace StacksWallet

namespace Text

/-- The bytes of a text whose code points are all below 256. -/
def narrow (t : Text) : Bytes := t.map fun c => UInt8.ofNat c.val

/-- The text whose code points are the numbers of some bytes. -/
def widen (b : Bytes) : Text := b.map fun x => CodePoint.ofNat x.toNat

/-- The number of a byte is the number of its code point. -/
theorem val_ofNat_toNat (x : UInt8) : (CodePoint.ofNat x.toNat).val = x.toNat := by
  have hx := x.toNat_lt
  rw [CodePoint.ofNat, dif_pos (by omega)]

/-- Every byte has a code point of its own. -/
theorem narrow_widen (b : Bytes) : narrow (widen b) = b := by
  have hbyte : ∀ x ∈ b, UInt8.ofNat (CodePoint.ofNat x.toNat).val = x := fun x _ => by
    rw [val_ofNat_toNat, UInt8.ofNat_toNat]
  rw [narrow, widen, List.map_map]
  exact (List.map_congr_left hbyte).trans (List.map_id b)

/-- Code points below 256 have bytes of their own. -/
theorem widen_narrow {t : Text} (ht : ∀ c ∈ t, c.val < 256) : widen (narrow t) = t := by
  have hchar : ∀ c ∈ t, CodePoint.ofNat (UInt8.ofNat c.val).toNat = c := fun c hc => by
    rw [UInt8.toNat_ofNat', Nat.mod_eq_of_lt (ht c hc), CodePoint.ofNat, dif_pos c.isLt]
  rw [narrow, widen, List.map_map]
  exact (List.map_congr_left hchar).trans (List.map_id t)

end Text

namespace Name

/-- The characters of a name have bytes. -/
theorem val_lt (n : Name) : ∀ c ∈ n.text, c.val < 256 := by
  have h := n.isName
  simp only [admits, Bool.and_eq_true, List.all_eq_true, CodePoint.isAscii, decide_eq_true_eq] at h
  intro c hc
  have := h.1.1 c hc
  omega

/-- A name has at least one byte and at most 128 bytes. -/
theorem length_bytes (n : Name) : 1 ≤ n.bytes.length ∧ n.bytes.length ≤ 128 := by
  have h := n.isName
  simp only [admits, Bool.and_eq_true, decide_eq_true_eq] at h
  rw [bytes, List.length_map]
  exact ⟨h.1.2, h.2⟩

/-- The characters of a name are those of its bytes. -/
theorem widen_bytes (n : Name) : Text.widen n.bytes = n.text := Text.widen_narrow n.val_lt

/-- Names are read from their one form, whatever they name. -/
theorem reads (what : NameKind) : (read what).Reads (.written (fun _ => True) encode) := by
  have hcont : ∀ (start : Int) (raw : Bytes),
      (if h : admits (Text.widen raw) = true then pure ⟨Text.widen raw, h⟩
        else Reader.malformed start (.badName what raw) : Reader Name).Reads
        (fun n b _ => ∃ h, Spelling.silent ⟨Text.widen raw, h⟩ n b []) :=
    fun start raw => Reader.reads_dite (fun h => Reader.reads_pure _) (Reader.reads_malformed _ _)
  refine (Reader.reads_position fun start =>
    Reader.reads_shortBytes.bind_written fun raw _ => hcont start raw).congr fun n b after => ?_
  constructor
  · intro h
    obtain ⟨raw, _, -, rfl, h, rfl, rfl⟩ := h
    refine ⟨trivial, ?_⟩
    have hbytes : (⟨Text.widen raw, h⟩ : Name).bytes = raw := Text.narrow_widen raw
    rw [encode, hbytes, List.append_nil]
  · intro h
    obtain ⟨-, rfl⟩ := h
    have hlength : n.bytes.length < wordCount 1 := n.length_bytes.2.trans_lt (by decide)
    refine ⟨n.bytes, [], hlength, by rw [List.append_nil, encode], ?_, ?_, rfl⟩
    · rw [widen_bytes, n.isName]
    · simp only [widen_bytes]

/-- A name takes at least two bytes. -/
theorem encode_ne_nil (n : Name) : n.encode ≠ [] := by
  simp [encode, bigEndian]

end Name

namespace Reader

variable {α : Type}

/-- A version, a hash of twenty bytes, and what follows them. -/
theorem reads_account {f : Nat → Bytes → Reader α} {t : Nat → Bytes → Spelling α}
    (hf : ∀ version hash, (f version hash).Reads (t version hash)) :
    (do let version ← u8; let hash ← take 20; f version hash : Reader α).Reads
      (fun a b after => ∃ version hash b₂, version < 256 ∧ hash.length = 20 ∧
        b = UInt8.ofNat version :: (hash ++ b₂) ∧ t version hash a b₂ after) := by
  refine (reads_u8.bind_written fun version _ => (reads_take 20).bind_written fun hash _ => hf version hash).congr
    fun a b after => ?_
  constructor
  · intro h
    obtain ⟨version, _, hversion, rfl, hash, b₂, hhash, rfl, ha⟩ := h
    exact ⟨version, hash, b₂, hversion, by omega, by simp [bigEndian, wordCount], ha⟩
  · intro h
    obtain ⟨version, hash, b₂, hversion, hhash, rfl, ha⟩ := h
    exact ⟨version, hash ++ b₂, hversion, by simp [bigEndian, wordCount], hash, b₂, by omega, rfl, ha⟩

end Reader

namespace Principal

/-- A principal can be written if and only if its version is a whole number. -/
theorem flaw?_eq_none_iff (p : Principal) : p.flaw? = none ↔ ∃ n, p.account.version = .whole n := by
  rw [flaw?]
  split <;> simp_all

/-- An account is made from a whole version and a hash of the right size. -/
theorem accountRead_eq_ok_iff {version : Nat} {hash : Bytes} {a : Address} :
    accountRead version hash = .ok a ↔ ∃ n : Fin 32, a.version = .whole n ∧ version = n.val ∧ a.hash.val = hash := by
  obtain ⟨aversion, ahash⟩ := a
  unfold accountRead
  rcases hversion : below? 32 (version : Int) with _ | n
  · have hrange := below?_eq_none_iff.mp hversion
    constructor
    · nofun
    · intro h
      obtain ⟨n, -, hn, -⟩ := h
      have := n.isLt
      omega
  · have hn := below?_eq_some_iff.mp hversion
    unfold Hash160.ofBytes?
    by_cases hhash : hash.length = 20
    · simp only [dif_pos hhash, Except.ok.injEq, Address.mk.injEq, Subtype.ext_iff]
      constructor
      · intro h
        obtain ⟨rfl, rfl⟩ := h
        exact ⟨n, rfl, by omega, rfl⟩
      · intro h
        obtain ⟨m, rfl, hm, rfl⟩ := h
        exact ⟨congrArg Version.whole (Fin.ext (by omega)), rfl⟩
    · simp only [dif_neg hhash, reduceCtorEq, false_iff, not_exists, not_and]
      intro m _ _ hahash
      exact hhash (hahash ▸ ahash.property)

/-- Reading ends with a part for which an account is needed. -/
theorem reads_accountRead {α : Type} (version : Nat) (hash : Bytes) (make : Address → α) :
    (do let account ← Reader.require (← Reader.position) .value (accountRead version hash); return make account :
      Reader α).Reads (fun x b _ => (∃ a, accountRead version hash = .ok a ∧ x = make a) ∧ b = []) := by
  refine (Reader.reads_position fun start =>
    (Reader.reads_require start .value (accountRead version hash)).bind fun a =>
      Reader.reads_pure (make a)).congr fun x b after => ?_
  constructor
  · intro h
    obtain ⟨a, _, _, rfl, ⟨ha, rfl⟩, rfl, rfl⟩ := h
    exact ⟨⟨a, ha, rfl⟩, rfl⟩
  · intro h
    obtain ⟨⟨a, ha, rfl⟩, rfl⟩ := h
    exact ⟨a, [], [], rfl, ⟨ha, rfl⟩, rfl, rfl⟩

/-- The bytes of a principal whose version is a whole number. -/
theorem bytes_whole (n : Fin 32) (hash : Hash160) (contract? : Option Name) :
    bytes ⟨⟨.whole n, hash⟩, contract?⟩ =
      UInt8.ofNat n.val :: (hash.val ++ (contract?.map Name.encode).getD []) := rfl

/-- The principals of accounts are read from their one form. -/
theorem reads_readStandard :
    readStandard.Reads (.written (fun p => p.contract? = none ∧ p.flaw? = none) bytes) := by
  refine (Reader.reads_account fun version hash =>
    reads_accountRead version hash fun account => (⟨account, none⟩ : Principal)).congr fun p b after => ?_
  simp only [accountRead_eq_ok_iff, Spelling.written, flaw?_eq_none_iff]
  constructor
  · intro h
    obtain ⟨_, _, _, -, -, rfl, ⟨⟨version, hash⟩, ⟨n, hversion, rfl, rfl⟩, rfl⟩, rfl⟩ := h
    obtain rfl : version = .whole n := hversion
    exact ⟨⟨rfl, n, rfl⟩, by rw [bytes_whole, Option.map_none, Option.getD_none]⟩
  · obtain ⟨⟨version, hash⟩, contract?⟩ := p
    intro h
    obtain ⟨⟨hcontract, n, hversion⟩, rfl⟩ := h
    obtain rfl : version = .whole n := hversion
    obtain rfl : contract? = none := hcontract
    refine ⟨n.val, hash.val, [], by omega, hash.property, ?_, ⟨_, ⟨n, rfl, rfl, rfl⟩, rfl⟩, rfl⟩
    rw [bytes_whole, Option.map_none, Option.getD_none]

/-- The principals of contracts are read from their one form. -/
theorem reads_readContract :
    readContract.Reads (.written (fun p => p.contract? ≠ none ∧ p.flaw? = none) bytes) := by
  refine (Reader.reads_account fun version hash => (Name.reads .contract).bind_written fun name _ =>
    reads_accountRead version hash fun account => (⟨account, some name⟩ : Principal)).congr fun p b after => ?_
  simp only [accountRead_eq_ok_iff, Spelling.written, flaw?_eq_none_iff]
  constructor
  · intro h
    obtain ⟨_, _, _, -, -, rfl, name, _, -, rfl, ⟨⟨version, hash⟩, ⟨n, hversion, rfl, rfl⟩, rfl⟩, rfl⟩ := h
    obtain rfl : version = .whole n := hversion
    exact ⟨⟨Option.some_ne_none _, n, rfl⟩, by rw [bytes_whole, Option.map_some, Option.getD_some, List.append_nil]⟩
  · obtain ⟨⟨version, hash⟩, contract?⟩ := p
    intro h
    obtain ⟨⟨hcontract, n, hversion⟩, rfl⟩ := h
    obtain rfl : version = .whole n := hversion
    obtain ⟨name, rfl⟩ := Option.ne_none_iff_exists'.mp hcontract
    refine ⟨n.val, hash.val, name.encode, by omega, hash.property, ?_, name, [], trivial, ?_,
      ⟨_, ⟨n, rfl, rfl, rfl⟩, rfl⟩, rfl⟩
    · rw [bytes_whole, Option.map_some, Option.getD_some]
    · rw [List.append_nil]

end Principal

end StacksWallet
