import Mathlib.Data.List.Forall2
import StacksWallet.Proofs.Wire.Encoded

/-!
# Pieces that tell where they end

The pieces of the wire format stand one behind the other with nothing between them. Bytes separate if they tell,
whatever comes after them, where they end and what they stand for, so that two sequences of pieces agree if and
only if they agree piece by piece. What bytes stand for may be known up to a relation only, as some things are
written alike; what is read from one form is known exactly.
-/

namespace StacksWallet

/-- Bytes of a known number tell where they end. -/
theorem Bytes.append_eq_append_iff {b b' after after' : Bytes} (h : b.length = b'.length) :
    b ++ after = b' ++ after' ↔ b = b' ∧ after = after' := by
  constructor
  · intro heq
    exact List.append_inj heq h
  · intro heq
    rw [heq.1, heq.2]

namespace Spelling

variable {α : Type} {same : α → α → Prop}

/-- Bytes of the spelling tell where they end and what they stand for, up to a relation. -/
def Separates (s : Spelling α) (same : α → α → Prop) : Prop :=
  ∀ ⦃a a' : α⦄ ⦃b b' after after' : Bytes⦄, s a b after → s a' b' after' →
    (b ++ after = b' ++ after' ↔ same a a' ∧ after = after')

end Spelling

/-- A reader of results with one form each would read both of two results from bytes that they share. -/
theorem Reader.Reads.separates {α : Type} {r : Reader α} {s : Spelling α} (hr : r.Reads s)
    (hform : ∀ {a : α} {b b' after : Bytes}, s a b after → s a b' after → b = b') : s.Separates Eq := by
  intro a a' b b' after after' hb hb'
  have hread : ∀ {a : α} {b after : Bytes}, s a b after → r.decodeAt (b ++ after) 0 = .ok (a, b.length) :=
    fun hs => (hr.decodeAt_iff le_rfl (Int.natCast_nonneg _)).mpr ⟨_, _, rfl, hs, rfl⟩
  constructor
  · intro h
    have hboth := hread hb'
    rw [← h, hread hb, Except.ok.injEq, Prod.mk.injEq, Int.ofNat_inj] at hboth
    exact ⟨hboth.1, (List.append_inj h hboth.2).2⟩
  · intro h
    obtain ⟨rfl, rfl⟩ := h
    rw [hform hb hb']

/-- What is read from one form separates. -/
theorem Reader.Reads.separates_written {α : Type} {r : Reader α} {P : α → Prop} {form : α → Bytes}
    (hr : r.Reads (.written P form)) : (Spelling.written P form).Separates Eq :=
  hr.separates fun hb hb' => hb.2.trans hb'.2.symm

/-- What is read from what a writer gives separates. -/
theorem Reader.Reads.separates_encoded {α : Type} {r : Reader α} {P : α → Prop} {encode : α → Except Fault Bytes}
    (hr : r.Reads (.encoded P encode)) : (Spelling.encoded P encode).Separates Eq :=
  hr.separates fun hb hb' => Except.ok.inj (hb.2.symm.trans hb'.2)

namespace Spelling

variable {α : Type} {s : Spelling α} {same : α → α → Prop}

/-- Things that are written as their canonical forms are separate as these do. -/
theorem Separates.of_canonical {P Q : α → Prop} {encode : α → Except Fault Bytes} {canonical : α → α}
    (h : (encoded Q encode).Separates Eq) (hencode : ∀ a, P a → encode (canonical a) = encode a)
    (hcanonical : ∀ a b, P a → encode a = .ok b → Q (canonical a))
    (hsame : ∀ {a a' b b'}, encode a = .ok b → encode a' = .ok b' → (same a a' ↔ canonical a = canonical a')) :
    (encoded P encode).Separates same := by
  intro a a' b b' after after' hb hb'
  have hcanon : ∀ {a b after}, encoded P encode a b after → encoded Q encode (canonical a) b after :=
    fun hb => ⟨hcanonical _ _ hb.1 hb.2, (hencode _ hb.1).trans hb.2⟩
  rw [h (hcanon hb) (hcanon hb'), hsame hb.2 hb'.2]

/-- As many elements on both sides are told one by one. -/
theorem Separates.each (h : s.Separates same) {as as' : List α} (hlength : as.length = as'.length)
    {b b' after after' : Bytes} (hb : s.each as b after) (hb' : s.each as' b' after') :
    b ++ after = b' ++ after' ↔ List.Forall₂ same as as' ∧ after = after' := by
  induction as generalizing as' b b' with
  | nil =>
    obtain rfl := List.length_eq_zero_iff.mp hlength.symm
    obtain rfl : b = [] := hb
    obtain rfl : b' = [] := hb'
    simp
  | cons a as ih =>
    cases as' with
    | nil => cases hlength
    | cons a' as' =>
      obtain ⟨b₁, b₂, rfl, ha, has⟩ := hb
      obtain ⟨b₁', b₂', rfl, ha', has'⟩ := hb'
      rw [List.append_assoc, List.append_assoc, h ha ha', ih (Nat.succ.inj hlength) has has', List.forall₂_cons,
        and_assoc]

/-- Elements behind their count are told one by one. -/
theorem Separates.counted (h : s.Separates same) {as as' : List α} (hcount : as.length < wordCount 4)
    (hcount' : as'.length < wordCount 4) {b b' after after' : Bytes} (hb : s.each as b after)
    (hb' : s.each as' b' after') :
    bigEndian 4 as.length ++ (b ++ after) = bigEndian 4 as'.length ++ (b' ++ after') ↔
      List.Forall₂ same as as' ∧ after = after' := by
  rw [Reader.reads_u32.separates_written ⟨hcount, rfl⟩ ⟨hcount', rfl⟩]
  constructor
  · intro hboth
    exact (h.each hboth.1 hb hb').mp hboth.2
  · intro hboth
    exact ⟨hboth.1.length_eq, (h.each hboth.1.length_eq hb hb').mpr hboth⟩

end Spelling

end StacksWallet
