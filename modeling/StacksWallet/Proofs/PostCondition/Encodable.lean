import StacksWallet.Proofs.Clarity.Encodable
import StacksWallet.Proofs.PostCondition.Separation

/-!
# Post-conditions that can be written

A condition can be written if its parts can. Of these, assets are made with any version whatever, while every
other constructor checks the version that it is given: only a version that has a byte can be written.
-/

namespace StacksWallet

/-- The version is a number that has a byte. -/
def Asset.Versioned (a : Asset) : Prop := ∃ n : Nat, n < wordCount 1 ∧ Wire.whole? a.version = some (n : Int)

/-- An asset can be written if and only if its version has a byte. -/
theorem Asset.exists_encode_iff {a : Asset} : (∃ b, a.encode = .ok b) ↔ a.Versioned := by
  constructor
  · intro h
    obtain ⟨b, hb⟩ := h
    obtain ⟨n, hn, hwhole, -⟩ := encode_eq_ok_iff.mp hb
    exact ⟨n, hn, hwhole⟩
  · intro h
    obtain ⟨n, hn, hwhole⟩ := h
    exact ⟨_, encode_eq_ok_iff.mpr ⟨n, hn, hwhole, rfl⟩⟩

/-- The constructor of assets keeps the version as it is given. -/
theorem Asset.version_of_make {version hash contract name : Datum} {a : Asset}
    (h : make version hash contract name = .ok a) : a.version = version := by
  obtain ⟨_, -, h⟩ := Outcome.bind_eq_ok.mp h
  obtain ⟨_, -, h⟩ := Outcome.bind_eq_ok.mp h
  split at h
  · split at h
    · obtain rfl := Except.ok.inj h
      rfl
    · cases h
  · cases h

/-- The principal that holds, if it is one, has a whole version. -/
def Holder.Versioned : Holder → Prop
  | origin => True
  | principal p => p.account.version.Whole

/-- A holder can be written if and only if it has a whole version as far as it has one. -/
theorem Holder.exists_encode_iff {h : Holder} : (∃ b, h.encode = .ok b) ↔ h.Versioned := by
  cases h with
  | origin => exact ⟨fun _ => trivial, fun _ => ⟨_, rfl⟩⟩
  | principal p => simp [encode_eq_ok_iff, Principal.flaw?_eq_none_iff, Versioned, Version.Whole]

namespace PostCondition

/-- All counts and sizes of strings in the token, if there is one, fit into four bytes. -/
def Bounded (pc : PostCondition) : Prop := ∀ v ∈ pc.tokens, v.Bounded

/-- The versions in holder, asset and token can be written. -/
def Versioned : PostCondition → Prop
  | native holder _ _ => holder.Versioned
  | fungible holder asset _ _ => holder.Versioned ∧ asset.Versioned
  | nonFungible holder asset token _ => holder.Versioned ∧ asset.Versioned ∧ token.Versioned

/-- A condition can be written if and only if its counts and sizes fit into four bytes and its versions can be
written. -/
theorem exists_encode_iff {pc : PostCondition} : (∃ b, pc.encode = .ok b) ↔ pc.Bounded ∧ pc.Versioned := by
  cases pc with
  | native holder code amount =>
    rw [Versioned, ← Holder.exists_encode_iff]
    simp [encode_native, Bounded, tokens]
  | fungible holder asset code amount =>
    rw [Versioned, ← Holder.exists_encode_iff, ← Asset.exists_encode_iff]
    simp [encode_fungible, Bounded, tokens]
  | nonFungible holder asset token code =>
    constructor
    · intro h
      obtain ⟨_, h⟩ := h
      obtain ⟨_, _, _, hholder, hasset, htoken, -⟩ := encode_nonFungible.mp h
      obtain ⟨hbounded, hversioned⟩ := Value.exists_encode_iff.mp ⟨_, htoken⟩
      exact ⟨List.forall_mem_singleton.mpr hbounded, Holder.exists_encode_iff.mp ⟨_, hholder⟩,
        Asset.exists_encode_iff.mp ⟨_, hasset⟩, hversioned⟩
    · intro h
      obtain ⟨hbounded, hholder, hasset, hversioned⟩ := h
      obtain ⟨_, hholder⟩ := Holder.exists_encode_iff.mpr hholder
      obtain ⟨_, hasset⟩ := Asset.exists_encode_iff.mpr hasset
      obtain ⟨_, htoken⟩ := Value.exists_encode_iff.mpr ⟨List.forall_mem_singleton.mp hbounded, hversioned⟩
      exact ⟨_, encode_nonFungible.mpr ⟨_, _, _, hholder, hasset, htoken, rfl⟩⟩

/-- A list of conditions can be written if and only if their number fits into four bytes and each of them can be
written. -/
theorem exists_encodeAll_iff {pcs : List PostCondition} :
    (∃ b, encodeAll pcs = .ok b) ↔ pcs.length < wordCount 4 ∧ ∀ pc ∈ pcs, pc.Bounded ∧ pc.Versioned := by
  have heach : (∃ c, encodeEach pcs = .ok c) ↔ ∀ pc ∈ pcs, ∃ b, pc.encode = .ok b :=
    Spelling.exists_encodeAll_iff encode encodeEach rfl fun _ _ => rfl
  rw [← forall₂_congr fun pc _ => pc.exists_encode_iff, ← heach]
  simp [encodeAll_eq_ok_iff]

end PostCondition

end StacksWallet
