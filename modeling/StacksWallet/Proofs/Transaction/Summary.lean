import StacksWallet.Proofs.Transaction.Transfer

/-!
# Showing a transaction twice

The summary of a transaction that is not unsigned shows its identifier, for which the bytes are made and kept. So the
first summary of a transaction that was just signed makes it a serialized one, although it still shows the stage from
before, and the second summary shows another stage. In all other cases a summary leaves the transaction as it was, and
the next one shows the same. Contents never change, and there is nothing left to change for a third summary.
-/

namespace StacksWallet.Transaction

variable {scheme : SignatureScheme} {t t' u : Transaction} {b : Bytes}

/-- The transaction has its bytes as soon as it is serialized, and not before. -/
def Stocked (t : Transaction) : Prop := t.stage = .serialized ↔ t.cached? ≠ none

/-- Nothing is in stock of a transaction that is not serialized. -/
theorem Stocked.cached_eq_none (h : t.Stocked) (hstage : t.stage ≠ .serialized) : t.cached? = none :=
  not_not.mp (mt h.mpr hstage)

/-- Changes keep transactions stocked. -/
theorem Change.stocked (h : Change scheme t t') (ht : t.Stocked) : t'.Stocked := by
  cases h with
  | stay | nonce | fee => exact ht
  | sign | sponsor | clear | serialize => simp [Stocked, clearedWith]

/-- A fresh transaction is stocked after every run of calls. -/
theorem stocked_after (ht : Fresh t) {calls : List Call} (hcalls : ∀ c ∈ calls, c.Genuine scheme) :
    (after scheme t calls).Stocked := by
  refine after_induction (P := Stocked) (fun _ _ hchange => hchange.stocked) hcalls ?_
  rw [ht.eq_ofEnvelope]
  exact (consistent_ofEnvelope t.envelope).serialized_iff

/-- Bytes that are kept are not made again. -/
theorem outcome_serialize_cached (hstage : t.stage ∈ signedStages) (hcached : t.cached? = some b) :
    outcome serialize t = (.ok b, t) := by
  rw [serialize, outcome_require_bind hstage, outcome_get_bind, hcached]
  rfl

/-- The summary with the identifier of some bytes. -/
def labelled (t : Transaction) (b : Bytes) : Json :=
  .object (t.fields ++ [(Text.ofString "txid", .text (identifier b))])

/-- An unsigned transaction is shown without an identifier. -/
theorem outcome_summary_of_unsigned (hstage : t.stage = .unsigned) :
    outcome summary t = (.ok (.object t.fields), t) := by
  rw [summary, outcome_get_bind, if_pos hstage]
  rfl

/-- Any other transaction is shown with the identifier of its bytes, and left as making these bytes leaves it. -/
theorem outcome_summary (hstage : t.stage ≠ .unsigned) :
    outcome summary t = ((outcome serialize t).1.map t.labelled, (outcome serialize t).2) := by
  rw [summary, outcome_get_bind, if_neg hstage, outcome_bind, id, outcome_bind, idBytes, outcome_bind]
  rcases outcome serialize t with ⟨fault | b, t'⟩ <;> rfl

/-- What is shown besides the stage. -/
def details (t : Transaction) : List (Text × Json) := t.fields.tail

/-- The stage is shown first. -/
theorem fields_eq (t : Transaction) : t.fields = (Text.ofString "state", .text t.stage.name) :: t.details := by
  unfold details fields
  cases t.envelope.auth.sponsor? <;> rfl

/-- Making the bytes changes nothing that is shown besides the stage. -/
theorem details_keeping (t : Transaction) (b : Bytes) : (t.keeping b).details = t.details := by
  unfold details fields keeping
  cases t.envelope.auth.sponsor? <;> rfl

/-- The summary with an identifier, member by member. -/
theorem labelled_eq (t : Transaction) (b : Bytes) :
    t.labelled b = .object ((Text.ofString "state", .text t.stage.name) ::
      (t.details ++ [(Text.ofString "txid", .text (identifier b))])) := by
  rw [labelled, fields_eq, List.cons_append]

/-- Summaries of different stages differ. -/
theorem labelled_keeping_ne (hstage : t.stage = .signed) : (t.keeping b).labelled b ≠ t.labelled b := by
  intro h
  have hname : Text.ofString Stage.serialized.name ≠ Text.ofString Stage.signed.name := by decide
  rw [labelled_eq, labelled_eq, hstage] at h
  obtain ⟨hfirst, -⟩ := List.cons.inj (Json.object.inj h)
  exact hname (Json.text.inj (Prod.mk.inj hfirst).2)

/-- A transaction that was just signed becomes a serialized one when it is shown, if it can be written. -/
theorem outcome_summary_of_signed (hstage : t.stage = .signed) (hcached : t.cached? = none)
    (hb : t.envelope.encode = .ok b) :
    outcome summary t = (.ok (t.labelled b), t.keeping b) ∧
      outcome summary (t.keeping b) = (.ok ((t.keeping b).labelled b), t.keeping b) := by
  have hserialize : outcome serialize t = (.ok b, t.keeping b) :=
    (outcome_serialize_eq_ok_iff hstage hcached).mpr ⟨hb, rfl⟩
  have hagain : outcome serialize (t.keeping b) = (.ok b, t.keeping b) :=
    outcome_serialize_cached (mem_signedStages_iff.mpr (.inr rfl)) rfl
  constructor
  · rw [outcome_summary (by simp [hstage]), hserialize]
    rfl
  · rw [outcome_summary (by simp [keeping]), hagain]
    rfl

/-- Whatever is shown of any other transaction, or refused to be shown, it is left as it was. -/
theorem snd_outcome_summary (ht : t.Stocked) (h : ¬ (t.stage = .signed ∧ ∃ b, t.envelope.encode = .ok b)) :
    (outcome summary t).2 = t := by
  cases hstage : t.stage with
  | unsigned => rw [outcome_summary_of_unsigned hstage]
  | signed =>
    obtain ⟨fault, hfault⟩ := Outcome.exists_eq_error fun b hb => h ⟨hstage, b, hb⟩
    have hcached := ht.cached_eq_none (by simp [hstage])
    rw [outcome_summary (by simp [hstage]),
      outcome_serialize_of_error (mem_signedStages_iff.mpr (.inl hstage)) hcached hfault]
  | serialized =>
    obtain ⟨b, hb⟩ := Option.ne_none_iff_exists'.mp (ht.mp hstage)
    rw [outcome_summary (by simp [hstage]), outcome_serialize_cached (mem_signedStages_iff.mpr (.inr hstage)) hb]

/-- After any run of calls on a fresh transaction, showing it leaves its stage and its bytes as they were, and showing
it again gives the same summary, if and only if it was not just signed, or cannot be written. If it was and can, its
bytes are made and kept, and of all that is shown the second time only the stage is another one. Contents never change,
nor does anything after the first time. -/
theorem summary_repeats_iff (ht : Fresh t) {calls : List Call} (hcalls : ∀ c ∈ calls, c.Genuine scheme)
    (hu : after scheme t calls = u) {first second : Except Fault Json} {u₁ u₂ : Transaction}
    (hfirst : outcome summary u = (first, u₁)) (hsecond : outcome summary u₁ = (second, u₂)) :
    (u₁.stage = u.stage ∧ u₁.cached? = u.cached? ∧ second = first ↔
        ¬ (u.stage = .signed ∧ ∃ b, u.envelope.encode = .ok b)) ∧
      (∀ b, u.stage = .signed → u.envelope.encode = .ok b → u₁.stage = .serialized ∧ u₁.cached? = some b ∧
        ∃ shown, first = .ok (.object ((Text.ofString "state", .text Stage.signed.name) :: shown)) ∧
          second = .ok (.object ((Text.ofString "state", .text Stage.serialized.name) :: shown))) ∧
      u₁.envelope = u.envelope ∧ u₂ = u₁ := by
  have hstocked : u.Stocked := hu ▸ stocked_after ht hcalls
  by_cases h : u.stage = .signed ∧ ∃ b, u.envelope.encode = .ok b
  · obtain ⟨hstage, b, hb⟩ := h
    obtain ⟨honce, htwice⟩ := outcome_summary_of_signed hstage (hstocked.cached_eq_none (by simp [hstage])) hb
    obtain ⟨rfl, rfl⟩ := Prod.mk.inj (hfirst.symm.trans honce)
    obtain ⟨rfl, rfl⟩ := Prod.mk.inj (hsecond.symm.trans htwice)
    refine ⟨⟨fun hsame => ?_, fun hnot => absurd ⟨hstage, b, hb⟩ hnot⟩, fun c _ hc => ?_, rfl, rfl⟩
    · exact absurd (Except.ok.inj hsame.2.2) (labelled_keeping_ne hstage)
    · obtain rfl := Except.ok.inj (hb.symm.trans hc)
      refine ⟨rfl, rfl, u.details ++ [(Text.ofString "txid", .text (identifier b))], ?_, ?_⟩
      · rw [labelled_eq, hstage]
      · rw [labelled_eq, details_keeping]
        rfl
  · have hsame := snd_outcome_summary hstocked h
    rw [hfirst] at hsame
    obtain rfl : u₁ = u := hsame
    obtain ⟨rfl, rfl⟩ := Prod.mk.inj (hfirst.symm.trans hsecond)
    exact ⟨⟨fun _ => h, fun _ => ⟨rfl, rfl, rfl⟩⟩, fun c hstage hc => absurd ⟨hstage, c, hc⟩ h, rfl, rfl⟩

/-- The blank transfer, whose fee cannot be set any more, is shown as signed and then as serialized. -/
theorem summary_repeats_blankTransfer :
    ∃ u u₁ shown, Fresh (ofEnvelope Envelope.blankTransfer) ∧
      after .secp256k1 (ofEnvelope Envelope.blankTransfer) [.setFee (.integer 1)] = u ∧
      outcome summary u = (.ok (.object ((Text.ofString "state", .text Stage.signed.name) :: shown)), u₁) ∧
      outcome summary u₁ = (.ok (.object ((Text.ofString "state", .text Stage.serialized.name) :: shown)), u₁) := by
  have hfresh : Fresh (ofEnvelope Envelope.blankTransfer) := .deserialize deserialize_blankBytes
  have hgenuine : ∀ c ∈ [Call.setFee (.integer 1)], c.Genuine .secp256k1 := by simp [Call.Genuine]
  obtain ⟨-, hchanged, -, hagain⟩ := summary_repeats_iff hfresh hgenuine rfl rfl rfl
  obtain ⟨-, -, shown, hfirst, hsecond⟩ := hchanged Envelope.blankBytes rfl Envelope.encode_blankTransfer
  exact ⟨_, _, shown, hfresh, rfl, Prod.ext hfirst rfl, Prod.ext hsecond hagain⟩

/-- The blank transfer as it was read is another transaction after it was shown, and shown otherwise the next time. -/
theorem blankTransfer_shown_twice :
    ∃ t first second u, deserialize (.bytes Envelope.blankBytes) = .ok t ∧
      outcome summary t = (.ok first, u) ∧ outcome summary u = (.ok second, u) ∧
      t.stage = .signed ∧ t.cached? = none ∧ u.stage = .serialized ∧ u.cached? = some Envelope.blankBytes ∧
      second ≠ first := by
  obtain ⟨hfirst, hsecond⟩ := outcome_summary_of_signed (t := ofEnvelope Envelope.blankTransfer) rfl rfl
    Envelope.encode_blankTransfer
  exact ⟨_, _, _, _, deserialize_blankBytes, hfirst, hsecond, rfl, rfl, rfl, rfl, labelled_keeping_ne rfl⟩

end StacksWallet.Transaction
