import StacksWallet.Proofs.Address.Alphabet
import StacksWallet.Proofs.Clarity.Principal
import StacksWallet.Proofs.Transaction.Encodable
import StacksWallet.Proofs.Transaction.Transfer
import StacksWallet.Proofs.Wire.Report

/-!
# How a transfer is refused

With the private key, a transfer looks at nonce, fee, memo, recipient and amount in this order. It fails as the first
of them that fails, and once all of them are accepted it is made. What is refused is reported, with two exceptions. A
memo with surrogates has no bytes, and that is not reported as a flaw of the memo. A number that does not fit is to be
shown in the report, and one of too many digits cannot be. Callers who wait for reported faults miss these.
-/

namespace StacksWallet

/-- The integer has more digits than are shown. -/
def Overlong (n : Int) : Prop := 10 ^ maxNumeralDigits ≤ n.natAbs

/-- Integers with too many digits have no place on the wire. -/
theorem Overlong.not_inWord {n : Int} (h : Overlong n) : ¬ InWord n := by
  intro hn
  have hcount : wordCount 8 ≤ 10 ^ 20 := by decide
  have hdigits : 20 ≤ maxNumeralDigits := by decide
  have hbig : 10 ^ 20 ≤ n.natAbs := (Nat.pow_le_pow_right (by decide) hdigits).trans h
  obtain ⟨hnonneg, hlt⟩ := hn
  omega

/-- A fault that shows an integer cannot do so if it has too many digits. -/
theorem Fault.showing_of_overlong {n : Int} (h : Overlong n) (fault : Fault) :
    showing (.integer n) fault = .argument .unshowable := by
  have hhidden : ¬ (Datum.integer n).isShowable = true := by
    rw [Reader.isShowable_integer_iff]
    exact not_lt.mpr h
  exact if_neg hhidden

/-- Otherwise it is that fault. -/
theorem Fault.showing_of_not_overlong {n : Int} (h : ¬ Overlong n) (fault : Fault) :
    showing (.integer n) fault = fault := if_pos (Reader.isShowable_integer_iff.mpr (not_le.mp h))

namespace Amount

/-- The integers with a place on the wire are amounts. -/
theorem exists_ofDatum_iff (field : Text) {n : Int} : (∃ a, ofDatum field (.integer n) = .ok a) ↔ InWord n := by
  have hcount : wordCount 8 = 0x1_0000_0000_0000_0000 := by decide
  simp only [ofDatum_eq_ok_iff, Datum.integer.injEq]
  constructor
  · intro h
    obtain ⟨a, rfl⟩ := h
    have := a.isLt
    exact ⟨by omega, by omega⟩
  · intro h
    obtain ⟨h₀, h₁⟩ := h
    exact ⟨⟨n.toNat, by omega⟩, by simp [h₀]⟩

/-- Another integer is refused, and the refusal shows it. -/
theorem ofDatum_eq_error_iff {field : Text} {n : Int} {fault : Fault} :
    ofDatum field (.integer n) = .error fault ↔
      ¬ InWord n ∧ fault = .showing (.integer n) (.invalid (.notU64 field (.integer n))) := by
  rw [← exists_ofDatum_iff field]
  unfold ofDatum
  dsimp only
  cases below? 0x1_0000_0000_0000_0000 n <;> simp [eq_comm]

/-- An integer is refused without a report if it has too many digits. -/
theorem unreported_ofDatum_iff {field : Text} {n : Int} {fault : Fault} :
    (ofDatum field (.integer n) = .error fault ∧ fault.isReported = false) ↔
      Overlong n ∧ fault = .argument .unshowable := by
  rw [ofDatum_eq_error_iff]
  constructor
  · intro h
    obtain ⟨⟨-, hfault⟩, h⟩ := h
    by_cases hlong : Overlong n
    · rw [Fault.showing_of_overlong hlong] at hfault
      exact ⟨hlong, hfault⟩
    · rw [Fault.showing_of_not_overlong hlong] at hfault
      rw [hfault] at h
      cases h
  · intro h
    obtain ⟨hlong, rfl⟩ := h
    exact ⟨⟨hlong.not_inWord, (Fault.showing_of_overlong hlong _).symm⟩, rfl⟩

end Amount

/-- A memo is refused without a report if it is a text with surrogates. -/
theorem Memo.unreported_ofDatum_iff {d : Datum} {fault : Fault} :
    (ofDatum d = .error fault ∧ fault.isReported = false) ↔
      ∃ t run, d = .text t ∧ UnencodableRun.find? .utf8 0 t = some run ∧ fault = .unencodable run := by
  have hsize : ∀ b, (ofBytes b).mapError Fault.invalid = .error fault → fault.isReported = true := by
    intro b h
    obtain ⟨flaw, -, rfl⟩ := Outcome.mapError_eq_error.mp h
    rfl
  rw [ofDatum, Outcome.bind_eq_error]
  constructor
  · intro h
    obtain ⟨h | ⟨b, -, h⟩, hfault⟩ := h
    · cases d with
      | text t =>
        obtain ⟨run, hrun, rfl⟩ := Outcome.mapError_eq_error.mp h
        exact ⟨t, run, rfl, Utf8.encode_eq_error_iff.mp hrun, rfl⟩
      | absent | bytes => cases h
      | flag | integer | real =>
        obtain rfl := Except.error.inj h
        cases hfault
    · cases hfault.symm.trans (hsize b h)
  · intro h
    obtain ⟨t, run, rfl, hrun, rfl⟩ := h
    exact ⟨.inl (Outcome.mapError_eq_error.mpr ⟨run, Utf8.encode_eq_error_iff.mpr hrun, rfl⟩), rfl⟩

namespace Principal

/-- A text without an address in it is reported. -/
theorem reported_of_partsOf {t : Text} {fault : Fault} (h : partsOf (.plain (.text t)) = .error fault) :
    fault.isReported = true := by
  obtain h | ⟨u, hu, h⟩ := Outcome.bind_eq_error.mp h
  · cases h
  · obtain rfl := Except.ok.inj hu
    obtain h | ⟨_, -, h⟩ := Outcome.bind_eq_error.mp h
    · obtain ⟨given, flaw, rfl⟩ := Address.address_of_parseParts h
      rfl
    · cases h

/-- A text that is no name is reported. -/
theorem reported_of_name {field t : Text} {fault : Fault} (h : Name.ofDatum field (.text t) = .error fault) :
    fault.isReported = true := by
  obtain ⟨flaw, -, rfl⟩ := Outcome.mapError_eq_error.mp h
  rfl

/-- A text that spells no principal is reported. -/
theorem reported_of_parse {t : Text} {fault : Fault} (h : parse t = .error fault) : fault.isReported = true := by
  unfold parse at h
  split at h
  · rename_i address name hcut
    obtain h | ⟨⟨_, _⟩, hparts, h⟩ := Outcome.bind_eq_error.mp h
    · exact reported_of_partsOf h
    · obtain ⟨n, hash, -, rfl, rfl⟩ := partsOf_eq_ok_iff.mp hparts
      have hname := (contract_text (d := .integer n.val) rfl hash name).symm.trans h
      exact reported_of_name (Outcome.map_eq_error.mp hname)
  · obtain h | ⟨⟨_, _⟩, hparts, h⟩ := Outcome.bind_eq_error.mp h
    · exact reported_of_partsOf h
    · obtain ⟨n, hash, -, rfl, rfl⟩ := partsOf_eq_ok_iff.mp hparts
      cases (Value.standard_whole n hash).symm.trans h

end Principal

/-- The unsigned condition of a key fails as its nonce does, or else as its fee. -/
theorem SpendingCondition.ofPublicKey_eq_error_iff {key : Bytes} {nonce fee : Int} {fault : Fault} :
    ofPublicKey (.bytes key) (.integer nonce) (.integer fee) (.integer HashMode.p2pkh.code) = .error fault ↔
      Amount.ofDatum "nonce" (.integer nonce) = .error fault ∨
        InWord nonce ∧ Amount.ofDatum "fee" (.integer fee) = .error fault := by
  have hlength : ¬ (keyHash key).val.length ≠ 20 := not_not.mpr (keyHash key).property
  have hmake : ofPublicKey (.bytes key) (.integer nonce) (.integer fee) (.integer HashMode.p2pkh.code) = do
      let n ← Amount.ofDatum "nonce" (.integer nonce)
      let f ← Amount.ofDatum "fee" (.integer fee)
      return holder key n.val f.val := by
    change make .p2pkh (keyHash key).val (.integer nonce) (.integer fee) .compressed emptySignature = _
    unfold make
    rw [if_neg (by decide), if_neg hlength, if_neg (by decide)]
    rfl
  rw [hmake, Outcome.bind_eq_error, ← Amount.exists_ofDatum_iff "nonce", ← exists_and_right]
  refine or_congr_right (exists_congr fun n => and_congr_right fun _ => ?_)
  rw [Outcome.bind_eq_error, or_iff_left]
  exact fun ⟨_, _, h⟩ => nomatch h

namespace Transaction

variable {scheme : SignatureScheme} {network : Network} {key : KeyArg} {signer : Signer} {recipient : Text}
  {amount nonce fee : Int} {memo : Datum} {fault : Fault}

/-- The order of somebody who has a private key. -/
def keyOrder (network : Network) (key : KeyArg) (nonce fee : Int) : Order :=
  { senderKey := key, network, nonce := .integer nonce, fee := .integer fee }

/-- A transfer in such an order. -/
def transferFor (scheme : SignatureScheme) (network : Network) (key : KeyArg) (nonce fee : Int) (recipient : Text)
    (amount : Int) (memo : Datum) : Except Fault Transaction :=
  ofTransfer scheme (keyOrder network key nonce fee) (.plain (.text recipient)) (.integer amount) memo

/-- The signer of such an order is that of the key. -/
theorem signer?_keyOrder (h : signerOf scheme key = .ok signer) :
    (keyOrder network key nonce fee).signer? scheme = .ok (some signer) := by
  cases key with
  | of other =>
    obtain rfl := Except.ok.inj h
    rfl
  | plain d =>
    cases d with
    | absent => cases h
    | _ => exact Outcome.map_eq_ok.mpr ⟨signer, h, rfl⟩

/-- A transfer in such an order makes the origin, then the payload, and is then finished. -/
theorem transferFor_eq (h : signerOf scheme key = .ok signer) :
    transferFor scheme network key nonce fee recipient amount memo =
      SpendingCondition.ofPublicKey (.bytes signer.publicKey) (.integer nonce) (.integer fee)
          (.integer HashMode.p2pkh.code) >>= fun origin =>
        Payload.makeTransfer (.plain (.text recipient)) (.integer amount) memo >>= fun payload =>
          (keyOrder network key nonce fee).finish scheme (some signer) origin payload := by
  rw [transferFor, ofTransfer, Order.build, signer?_keyOrder h]
  rfl

section Finish

variable (hwidth : scheme.FullWidth) (hnetwork : network ∈ Network.presets) (hkey : key.Genuine scheme)
  (hsigner : signerOf scheme key = .ok signer)

include hwidth hnetwork hkey hsigner

/-- Once its parts are accepted, a transfer is finished. -/
theorem exists_finish (hrange : InWord nonce ∧ InWord fee) {payload : Payload}
    (hpayload : Payload.makeTransfer (.plain (.text recipient)) (.integer amount) memo = .ok payload) :
    ∃ t, (keyOrder network key nonce fee).finish scheme (some signer) (.holder signer.publicKey nonce fee) payload =
      .ok t := by
  have hgenuine : KeyArg.Genuine scheme (.of signer) := (hkey.signer hsigner).key
  obtain ⟨m, p, a, -, hp, -, rfl⟩ := Payload.makeTransfer_eq_ok_iff.mp hpayload
  have hbounded : (Payload.transfer p a m).Bounded := trivial
  have hwhole : (Payload.transfer p a m).Versioned := Principal.whole_of_parse hp
  obtain ⟨c, hencode⟩ := Payload.exists_encode_iff.mpr ⟨hbounded, hwhole⟩
  obtain ⟨t, hsign⟩ : ∃ t, outcome (sign scheme (.of signer))
      (draft network signer.publicKey (.transfer p a m) nonce fee) = (.ok (), t) :=
    exists_sign_draft hwidth hgenuine hencode hrange
  exact ⟨t, Order.finish_some_eq_ok_iff.mpr ⟨_, new_eq_draft hnetwork, hsign⟩⟩

/-- A transfer is made if its parts are accepted. -/
theorem exists_transferFor_iff :
    (∃ t, transferFor scheme network key nonce fee recipient amount memo = .ok t) ↔
      (InWord nonce ∧ InWord fee) ∧
        ∃ payload, Payload.makeTransfer (.plain (.text recipient)) (.integer amount) memo = .ok payload := by
  rw [transferFor_eq hsigner]
  constructor
  · intro h
    obtain ⟨t, h⟩ := h
    obtain ⟨origin, horigin, h⟩ := Outcome.bind_eq_ok.mp h
    obtain ⟨payload, hpayload, -⟩ := Outcome.bind_eq_ok.mp h
    exact ⟨(SpendingCondition.ofPublicKey_eq_ok_iff.mp horigin).1, payload, hpayload⟩
  · intro h
    obtain ⟨hrange, payload, hpayload⟩ := h
    obtain ⟨t, ht⟩ := exists_finish hwidth hnetwork hkey hsigner hrange hpayload
    exact ⟨t, Outcome.bind_eq_ok.mpr ⟨_, SpendingCondition.ofPublicKey_eq_ok_iff.mpr ⟨hrange, rfl⟩,
      Outcome.bind_eq_ok.mpr ⟨payload, hpayload, ht⟩⟩⟩

/-- A transfer fails as its nonce does, or else as its fee, or else as its payload. -/
theorem transferFor_eq_error_iff :
    transferFor scheme network key nonce fee recipient amount memo = .error fault ↔
      (Amount.ofDatum "nonce" (.integer nonce) = .error fault ∨
        InWord nonce ∧ Amount.ofDatum "fee" (.integer fee) = .error fault) ∨
        (InWord nonce ∧ InWord fee) ∧
          Payload.makeTransfer (.plain (.text recipient)) (.integer amount) memo = .error fault := by
  rw [transferFor_eq hsigner, Outcome.bind_eq_error, SpendingCondition.ofPublicKey_eq_error_iff]
  refine or_congr_right ?_
  constructor
  · intro h
    obtain ⟨origin, horigin, h⟩ := h
    obtain ⟨hrange, rfl⟩ := SpendingCondition.ofPublicKey_eq_ok_iff.mp horigin
    obtain h | ⟨payload, hpayload, h⟩ := Outcome.bind_eq_error.mp h
    · exact ⟨hrange, h⟩
    · obtain ⟨t, ht⟩ := exists_finish hwidth hnetwork hkey hsigner hrange hpayload
      cases ht.symm.trans h
  · intro h
    exact ⟨_, SpendingCondition.ofPublicKey_eq_ok_iff.mpr ⟨h.1, rfl⟩, Outcome.bind_eq_error.mpr (.inl h.2)⟩

end Finish

/-- The payload of a transfer is refused without a report if the memo has surrogates, or if memo and recipient are
accepted and the amount has too many digits. -/
theorem unreported_makeTransfer_iff :
    (Payload.makeTransfer (.plain (.text recipient)) (.integer amount) memo = .error fault ∧
        fault.isReported = false) ↔
      (∃ t run, memo = .text t ∧ UnencodableRun.find? .utf8 0 t = some run ∧ fault = .unencodable run) ∨
        ∃ m p, Memo.ofDatum memo = .ok m ∧ Principal.parse recipient = .ok p ∧ Overlong amount ∧
          fault = .argument .unshowable := by
  rw [Payload.makeTransfer_eq, Outcome.bind_eq_error, or_and_right, Memo.unreported_ofDatum_iff]
  refine or_congr_right ?_
  constructor
  · intro h
    obtain ⟨⟨m, hm, h⟩, hfault⟩ := h
    obtain h | ⟨p, hp, h⟩ := Outcome.bind_eq_error.mp h
    · cases hfault.symm.trans (Principal.reported_of_parse h)
    · obtain h | ⟨_, _, h⟩ := Outcome.bind_eq_error.mp h
      · exact ⟨m, p, hm, hp, Amount.unreported_ofDatum_iff.mp ⟨h, hfault⟩⟩
      · cases h
  · intro h
    obtain ⟨m, p, hm, hp, hamount⟩ := h
    obtain ⟨herror, hfault⟩ := Amount.unreported_ofDatum_iff.mpr hamount
    exact ⟨⟨m, hm, Outcome.bind_eq_error.mpr (.inr ⟨p, hp, Outcome.bind_eq_error.mpr (.inl herror)⟩)⟩, hfault⟩

/-- What a transfer fails at without a report, when all that is looked at before is accepted. -/
inductive Unreported (recipient : Text) (amount nonce fee : Int) (memo : Datum) : Fault → Prop where
  /-- The nonce has too many digits. -/
  | nonce (h : Overlong nonce) : Unreported recipient amount nonce fee memo (.argument .unshowable)
  /-- The fee has too many digits. -/
  | fee (hnonce : InWord nonce) (h : Overlong fee) : Unreported recipient amount nonce fee memo (.argument .unshowable)
  /-- The memo has surrogates. -/
  | memo (hrange : InWord nonce ∧ InWord fee) {t : Text} {run : UnencodableRun} (ht : memo = .text t)
      (h : UnencodableRun.find? .utf8 0 t = some run) : Unreported recipient amount nonce fee memo (.unencodable run)
  /-- The amount has too many digits. -/
  | amount (hrange : InWord nonce ∧ InWord fee) {m : Memo} {p : Principal} (hm : Memo.ofDatum memo = .ok m)
      (hp : Principal.parse recipient = .ok p) (h : Overlong amount) :
      Unreported recipient amount nonce fee memo (.argument .unshowable)

/-- With any key that makes a signer, and on any of the known networks, a transfer is made if and only if nonce, fee
and amount have a place on the wire, the memo is accepted and the recipient is the text of a principal. All else is
refused, and reported, except a memo with surrogates and numbers with too many digits. -/
theorem transferFor_unreported_iff (library : CurveLibrary) (hnetwork : network ∈ Network.presets)
    (hkey : key.Genuine library.scheme) (hsigner : signerOf library.scheme key = .ok signer) (recipient : Text)
    (amount nonce fee : Int) (memo : Datum) :
    ((∃ t, transferFor library.scheme network key nonce fee recipient amount memo = .ok t) ↔
        (InWord nonce ∧ InWord fee ∧ InWord amount) ∧ (∃ m, Memo.ofDatum memo = .ok m) ∧
          ∃ p, Principal.parse recipient = .ok p) ∧
      ∀ fault, (transferFor library.scheme network key nonce fee recipient amount memo = .error fault ∧
          fault.isReported = false) ↔ Unreported recipient amount nonce fee memo fault := by
  have hwidth := library.scheme_fullWidth
  constructor
  · rw [exists_transferFor_iff hwidth hnetwork hkey hsigner]
    constructor
    · intro h
      obtain ⟨⟨hnonce, hfee⟩, payload, hpayload⟩ := h
      obtain ⟨m, p, a, hm, hp, ha, -⟩ := Payload.makeTransfer_eq_ok_iff.mp hpayload
      exact ⟨⟨hnonce, hfee, (Amount.exists_ofDatum_iff _).mp ⟨a, ha⟩⟩, ⟨m, hm⟩, p, hp⟩
    · intro h
      obtain ⟨⟨hnonce, hfee, hamount⟩, ⟨m, hm⟩, p, hp⟩ := h
      obtain ⟨a, ha⟩ := (Amount.exists_ofDatum_iff _).mpr hamount
      exact ⟨⟨hnonce, hfee⟩, _, Payload.makeTransfer_eq_ok_iff.mpr ⟨m, p, a, hm, hp, ha, rfl⟩⟩
  · intro fault
    rw [transferFor_eq_error_iff hwidth hnetwork hkey hsigner, or_and_right, or_and_right, and_assoc, and_assoc,
      Amount.unreported_ofDatum_iff, Amount.unreported_ofDatum_iff, unreported_makeTransfer_iff]
    constructor
    · intro h
      obtain (⟨h, rfl⟩ | ⟨hnonce, h, rfl⟩) | ⟨hrange, ⟨t, run, ht, h, rfl⟩ | ⟨m, p, hm, hp, h, rfl⟩⟩ := h
      · exact .nonce h
      · exact .fee hnonce h
      · exact .memo hrange ht h
      · exact .amount hrange hm hp h
    · intro h
      cases h with
      | nonce h => exact .inl (.inl ⟨h, rfl⟩)
      | fee hnonce h => exact .inl (.inr ⟨hnonce, h, rfl⟩)
      | memo hrange ht h => exact .inr ⟨hrange, .inl ⟨_, _, ht, h, rfl⟩⟩
      | amount hrange hm hp h => exact .inr ⟨hrange, .inr ⟨_, _, hm, hp, h, rfl⟩⟩

/-- The secret one makes a signer. -/
theorem exists_signer_secretOne :
    ∃ signer, signerOf CurveLibrary.secp256k1.scheme (.plain (.bytes (Bytes.zeros 31 ++ [1]))) = .ok signer := by
  have hsecret : CurveLibrary.secp256k1.scheme.isSecret (Bytes.zeros 31 ++ [1]) = true := by decide
  exact ⟨_, Signer.ofKey_bytes hsecret rfl⟩

/-- With the secret one, a small transfer is made, and one with half a surrogate pair as its memo is not. -/
theorem transferFor_unreported_secretOne :
    ∃ signer, (KeyArg.Genuine CurveLibrary.secp256k1.scheme (.plain (.bytes (Bytes.zeros 31 ++ [1]))) ∧
        signerOf CurveLibrary.secp256k1.scheme (.plain (.bytes (Bytes.zeros 31 ++ [1]))) = .ok signer) ∧
      (∃ t, transferFor CurveLibrary.secp256k1.scheme Network.mainnet (.plain (.bytes (Bytes.zeros 31 ++ [1]))) 2 180
        "SP000000000000000000002Q6VF78" 1000 (.text "memo") = .ok t) ∧
      transferFor CurveLibrary.secp256k1.scheme Network.mainnet (.plain (.bytes (Bytes.zeros 31 ++ [1]))) 2 180
        "SP000000000000000000002Q6VF78" 1000 (.text [0xD800]) = .error (.unencodable ⟨.utf8, 0xD800, 0, 1⟩) := by
  have hkey : KeyArg.Genuine CurveLibrary.secp256k1.scheme (.plain (.bytes (Bytes.zeros 31 ++ [1]))) := .plain _ _
  obtain ⟨signer, hsigner⟩ := exists_signer_secretOne
  have hrecipient : ("SP000000000000000000002Q6VF78" : Text) = Principal.text ⟨⟨.whole 22, .zero⟩, none⟩ := by
    decide +kernel
  have hparse : Principal.parse "SP000000000000000000002Q6VF78" = .ok ⟨⟨.whole 22, .zero⟩, none⟩ := by
    rw [hrecipient]
    exact Principal.parse_text ⟨22, rfl⟩
  have hnetwork : Network.mainnet ∈ Network.presets := List.mem_cons_self
  obtain ⟨hmade, -⟩ := transferFor_unreported_iff CurveLibrary.secp256k1 hnetwork hkey hsigner
    "SP000000000000000000002Q6VF78" 1000 2 180 (.text "memo")
  obtain ⟨-, hmissed⟩ := transferFor_unreported_iff CurveLibrary.secp256k1 hnetwork hkey hsigner
    "SP000000000000000000002Q6VF78" 1000 2 180 (.text [0xD800])
  obtain ⟨hsurrogate, -⟩ := (hmissed _).mpr (.memo ⟨by decide, by decide⟩ rfl rfl)
  exact ⟨_, ⟨hkey, hsigner⟩, hmade.mpr ⟨⟨by decide, by decide, by decide⟩, ⟨_, rfl⟩, _, hparse⟩, hsurrogate⟩

/-- Two transfers with the secret one that fail without a report: the memo of the first is half a surrogate pair, and
the nonce of the second has one digit too many. -/
theorem secretOne_unreported :
    (∃ fault, transferFor CurveLibrary.secp256k1.scheme Network.mainnet (.plain (.bytes (Bytes.zeros 31 ++ [1]))) 0 0
        "SP000000000000000000002Q6VF78" 1 (.text [0xD800]) = .error fault ∧ fault.isReported = false) ∧
      ∃ fault, transferFor CurveLibrary.secp256k1.scheme Network.mainnet (.plain (.bytes (Bytes.zeros 31 ++ [1])))
        (10 ^ maxNumeralDigits : Nat) 0 "SP000000000000000000002Q6VF78" 1 .absent = .error fault ∧
          fault.isReported = false := by
  have hkey : KeyArg.Genuine CurveLibrary.secp256k1.scheme (.plain (.bytes (Bytes.zeros 31 ++ [1]))) := .plain _ _
  obtain ⟨signer, hsigner⟩ := exists_signer_secretOne
  have hnetwork : Network.mainnet ∈ Network.presets := List.mem_cons_self
  have hwidth := CurveLibrary.secp256k1.scheme_fullWidth
  constructor
  · obtain ⟨hmemo, hmissed⟩ := unreported_makeTransfer_iff.mpr
      (.inl ⟨[0xD800], ⟨.utf8, 0xD800, 0, 1⟩, rfl, rfl, rfl⟩ : _ ∨ _)
    exact ⟨_, (transferFor_eq_error_iff hwidth hnetwork hkey hsigner).mpr (.inr ⟨⟨by decide, by decide⟩, hmemo⟩),
      hmissed⟩
  · obtain ⟨hnonce, hmissed⟩ := Amount.unreported_ofDatum_iff.mpr
      ⟨(Int.natAbs_natCast (10 ^ maxNumeralDigits)).ge, rfl⟩
    exact ⟨_, (transferFor_eq_error_iff hwidth hnetwork hkey hsigner).mpr (.inl (.inl hnonce)), hmissed⟩

end Transaction

end StacksWallet
