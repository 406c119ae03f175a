import StacksWallet.Proofs.PostCondition.RoundTrip
import StacksWallet.Proofs.Transaction.PayloadRoundTrip
import StacksWallet.Proofs.Transaction.Reading

/-!
# Counts that are checked before their elements

A count of more elements than there are bytes left is refused before the first element is read. Each element takes a
byte, so these elements would not be found anyway: with the check and without it the readers have one spelling, and
the same bytes are accepted at every place.

The reports of bytes that are refused do differ: without the check they name the place where the bytes run out.
-/

namespace StacksWallet

/-- An envelope takes a byte. -/
theorem Envelope.needsByte_read (guarded : Bool) : (read guarded).NeedsByte := Reader.needsByte_u8.bind _

namespace Reader

/-- Values, payloads, lists of conditions and transactions are accepted with the check of counts if and only if they
are accepted without: from the same bytes, at every offset, with the same result and up to the same place. -/
theorem guards_immaterial (b : Bytes) (offset : Nat) :
    (∀ v n, Value.decode b offset = .ok (v, n) ↔ (Value.read false).decodeAt b offset = .ok (v, n)) ∧
      (∀ p n, Payload.decode b offset = .ok (p, n) ↔ (Payload.read false).decodeAt b offset = .ok (p, n)) ∧
      (∀ pcs c, (PostCondition.readAll true).outcome (Cursor.ofBytes b offset) = (.ok pcs, c) ↔
        (PostCondition.readAll false).outcome (Cursor.ofBytes b offset) = (.ok pcs, c)) ∧
      (∀ e n, (Envelope.read true).decodeAt b offset = .ok (e, n) ↔
        (Envelope.read false).decodeAt b offset = .ok (e, n)) ∧
      ∀ d t, Transaction.deserialize d = .ok t ↔
        ∃ bytes, d.toBytes = .ok bytes ∧ Transaction.ofBytes false bytes = .ok t := by
  refine ⟨fun v n => ?_, fun p n => ?_, fun pcs c => ?_, fun e n => ?_, fun d t => ?_⟩
  · exact (Value.reads true).decodeAt_congr (Value.reads false) (Value.needsByte_read true)
      (Value.needsByte_read false) offset
  · exact (Payload.reads true).decodeAt_congr (Payload.reads false) (Payload.needsByte_read true)
      (Payload.needsByte_read false) offset
  · exact (PostCondition.reads_readAll true).outcome_congr (PostCondition.reads_readAll false)
      (PostCondition.needsByte_readAll true) (PostCondition.needsByte_readAll false) (Int.natCast_nonneg offset)
  · exact (Envelope.reads true).decodeAt_congr (Envelope.reads false) (Envelope.needsByte_read true)
      (Envelope.needsByte_read false) offset
  · exact Transaction.deserialize_eq_ok_iff.trans
      (exists_congr fun _ => and_congr_right fun _ => Transaction.ofBytes_eq_ok_iff.symm)

/-- The check lets pass a count of as many elements as bytes are left: here each item takes one. -/
example : Value.decode [255, 11, 0, 0, 0, 2, 3, 9] 1 = .ok (.list [.bool true, .none], 7) := by rfl

end Reader

end StacksWallet
