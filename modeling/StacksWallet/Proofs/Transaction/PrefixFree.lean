import StacksWallet.Proofs.Transaction.Report
import StacksWallet.Proofs.Transaction.Separation

/-!
# No transaction begins another one

The bytes of a transaction tell where they end. So nothing that breaks off before that place is a transaction, and
nothing that goes on behind it is one, wherever among names, counts and values the bytes break off. Both are malformed
at a place in them.
-/

namespace StacksWallet

namespace Envelope

/-- Nothing can stand behind the bytes of a settled envelope if another settled one is written as the whole. -/
theorem Settled.nil_of_append {e e' : Envelope} {b more : Bytes} (h : e.Settled) (h' : e'.Settled)
    (hb : e.encode = .ok b) (hmore : e'.encode = .ok (b ++ more)) : more = [] := by
  have hwhole : b ++ more = (b ++ more) ++ [] := (List.append_nil _).symm
  exact ((separates ⟨⟨h.auth, h.distinct⟩, hb⟩ ⟨⟨h'.auth, h'.distinct⟩, hmore⟩).mp hwhole).2

end Envelope

namespace Transaction

/-- Bytes that are read as transactions are the same if one of them begin the other. -/
theorem eq_of_prefix_of_ofBytes {guarded : Bool} {b c : Bytes} {t u : Transaction} (ht : ofBytes guarded b = .ok t)
    (hu : ofBytes guarded c = .ok u) (h : b <+: c) : c = b := by
  obtain ⟨more, rfl⟩ := h
  obtain ⟨e, hsettled, hb, -⟩ := ofBytes_eq_ok_iff.mp ht
  obtain ⟨e', hsettled', hc, -⟩ := ofBytes_eq_ok_iff.mp hu
  obtain rfl := hsettled.nil_of_append hsettled' hb hc
  exact List.append_nil b

/-- Bytes that are read as a transaction are no longer read when some of them are left out at the end, nor when others
are put behind them: either way they are malformed at a place in them. -/
theorem deserialize_prefixFree {b c : Bytes} {t : Transaction} (h : deserialize (.bytes b) = .ok t)
    (hc : c <+: b ∨ b <+: c) (hne : c ≠ b) :
    ∃ (offset : Int) (flaw : WireFlaw), deserialize (.bytes c) = .error (.malformed (some offset) flaw) ∧
      0 ≤ offset ∧ offset ≤ c.length := by
  rcases ofBytes_or_placed true c with ⟨u, hu⟩ | ⟨fault, hu, offset, flaw, rfl, hplace⟩
  · refine absurd ?_ hne
    rcases hc with hc | hc
    · exact (eq_of_prefix_of_ofBytes hu h hc).symm
    · exact eq_of_prefix_of_ofBytes h hu hc
  · exact ⟨offset, flaw, hu, hplace⟩

/-- The bytes of the blank transfer are those of a transaction, and they are malformed without their last byte and
with one more. -/
theorem deserialize_prefixFree_blankBytes :
    deserialize (.bytes Envelope.blankBytes) = .ok (ofEnvelope Envelope.blankTransfer) ∧
      (∃ (offset : Int) (flaw : WireFlaw), deserialize (.bytes Envelope.blankBytes.dropLast) =
        .error (.malformed (some offset) flaw)) ∧
      ∃ (offset : Int) (flaw : WireFlaw), deserialize (.bytes (Envelope.blankBytes ++ [0])) =
        .error (.malformed (some offset) flaw) := by
  have hshort : Envelope.blankBytes.dropLast ≠ Envelope.blankBytes := by decide +kernel
  have hlong : Envelope.blankBytes ++ [0] ≠ Envelope.blankBytes := by simp
  obtain ⟨offset, flaw, h, -⟩ := deserialize_prefixFree deserialize_blankBytes (.inl (List.dropLast_prefix _)) hshort
  obtain ⟨offset', flaw', h', -⟩ := deserialize_prefixFree deserialize_blankBytes (.inr (List.prefix_append _ _)) hlong
  exact ⟨deserialize_blankBytes, ⟨offset, flaw, h⟩, offset', flaw', h'⟩

end Transaction

end StacksWallet
