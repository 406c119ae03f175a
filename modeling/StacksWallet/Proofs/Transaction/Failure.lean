import StacksWallet.Proofs.Transaction.Run

/-!
# Calls that fail

A call may fail at many points: the stage may be wrong, a number out of range, a key malformed or not the
origin's, a part may have no form on the wire, a signature may not hold. Wherever it fails, the transaction is left
as it was, with its contents, its stage and the bytes that are kept. What is called afterwards does what it would have
done without the failure, so a caller may be refused any number of times and go on.

Nothing is asked of the transaction or of the arguments, and signers need not have been made from keys.
-/

namespace StacksWallet.Transaction

variable {scheme : SignatureScheme} {t t' : Transaction}

/-- A call that fails leaves the transaction as it was, with its contents, its stage and the bytes that are kept, and
what is called afterwards does what it would have done without it. -/
theorem unchanged_of_error {c : Call} {fault : Fault} (h : outcome (c.perform scheme) t = (.error fault, t')) :
    t' = t ∧ ∀ rest, after scheme t (c :: rest) = after scheme t rest := by
  have hdoes : Does (c.perform scheme) t fun _ t' => c.Genuine scheme → Change scheme t t' := c.does_perform
  obtain rfl := hdoes.failure h
  exact ⟨rfl, after_cons h⟩

/-- The draft of a call refuses to be made into bytes, a fee that is no number and a key of one byte, and is the
same after all three. -/
theorem unchanged_of_error_draftCall :
    outcome (Call.serialize.perform SignatureScheme.secp256k1) draftCall =
        (.error (.stage (.notNow .serialize .unsigned)), draftCall) ∧
      outcome ((Call.setFee (.bytes [5])).perform SignatureScheme.secp256k1) draftCall =
        (.error (.invalid (.notU64 "fee" (.bytes [5]))), draftCall) ∧
      outcome ((Call.sign (.plain (.bytes [1]))).perform SignatureScheme.secp256k1) draftCall =
        (.error (.signing (.keySize 1)), draftCall) ∧
      after SignatureScheme.secp256k1 draftCall
        [.serialize, .setFee (.bytes [5]), .sign (.plain (.bytes [1]))] = draftCall := by
  have hserialize : outcome (Call.serialize.perform SignatureScheme.secp256k1) draftCall =
    (.error (.stage (.notNow .serialize .unsigned)), draftCall) := rfl
  have hfee : outcome ((Call.setFee (.bytes [5])).perform SignatureScheme.secp256k1) draftCall =
    (.error (.invalid (.notU64 "fee" (.bytes [5]))), draftCall) := rfl
  have hsign : outcome ((Call.sign (.plain (.bytes [1]))).perform SignatureScheme.secp256k1) draftCall =
    (.error (.signing (.keySize 1)), draftCall) := rfl
  refine ⟨hserialize, hfee, hsign, ?_⟩
  rw [(unchanged_of_error hserialize).2, (unchanged_of_error hfee).2, (unchanged_of_error hsign).2, after]

end StacksWallet.Transaction
