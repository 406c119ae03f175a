import StacksWallet.Proofs.PostCondition.Spelling

/-!
# Canonical post-conditions

Conditions that are equal may differ in the order of the fields of a token and in how the version of an asset
was given. Of those the canonical one is read; it is written as all of them are.
-/

namespace StacksWallet

namespace Asset

/-- The asset with its version as an integer, if the version is a whole number. -/
def canonical (a : Asset) : Asset :=
  match Wire.whole? a.version with
  | some n => { a with version := .integer n }
  | none => a

/-- An asset is written as its canonical form is. -/
theorem encode_canonical (a : Asset) : a.canonical.encode = a.encode := by
  rw [canonical]
  cases hversion : Wire.whole? a.version with
  | none => rfl
  | some n =>
    have hbyte : Wire.u8 (.integer n) = Wire.u8 a.version := by rw [Wire.u8, Wire.u8, hversion, Wire.whole?]
    rw [encode, encode, hbyte]

/-- The canonical form of an asset that is written is settled. -/
theorem settled_canonical {a : Asset} {b : Bytes} (h : a.encode = .ok b) : a.canonical.Settled := by
  obtain ⟨n, -, hversion, -⟩ := encode_eq_ok_iff.mp h
  rw [canonical, hversion]
  exact ⟨n, rfl⟩

/-- Every version is the same as itself. -/
theorem sameVersion_self (d : Datum) : sameVersion d d = true := by
  rw [sameVersion]
  cases d.integral? <;> exact beq_self_eq_true _

/-- An asset equals its canonical form. -/
theorem canonical_equal (a : Asset) : a.canonical.equal a = true := by
  have hversion : sameVersion a.canonical.version a.version = true := by
    obtain ⟨version, hash, contract, name⟩ := a
    cases version with
    | integer n => exact sameVersion_self (.integer n)
    | flag b => exact beq_self_eq_true _
    | absent => exact sameVersion_self .absent
    | real x => exact sameVersion_self (.real x)
    | text t => exact sameVersion_self (.text t)
    | bytes b => exact sameVersion_self (.bytes b)
  have hparts : a.canonical.hash = a.hash ∧ a.canonical.contract = a.contract ∧ a.canonical.name = a.name := by
    rw [canonical]
    split <;> exact ⟨rfl, rfl, rfl⟩
  rw [equal, hversion, hparts.1, hparts.2.1, hparts.2.2]
  simp

end Asset

namespace PostCondition

/-- The values in a condition. -/
def tokens : PostCondition → List Value
  | nonFungible _ _ token _ => [token]
  | _ => []

/-- The condition with asset and token in canonical form. -/
def canonical : PostCondition → PostCondition
  | native holder code amount => native holder code amount
  | fungible holder asset code amount => fungible holder asset.canonical code amount
  | nonFungible holder asset token code => nonFungible holder asset.canonical token.canonical code

/-- A condition is written as its canonical form is. -/
theorem encode_canonical {pc : PostCondition} (h : ∀ v ∈ pc.tokens, v.Distinct) : pc.canonical.encode = pc.encode := by
  cases pc with
  | native => rfl
  | fungible holder asset code amount => rw [canonical, encode, encode, asset.encode_canonical]
  | nonFungible holder asset token code =>
    rw [canonical, encode, encode, asset.encode_canonical, Value.encode_canonical (h token List.mem_cons_self)]

/-- The canonical form of a condition that is written and not too deep is settled. -/
theorem settled_canonical {pc : PostCondition} {b : Bytes} (h : ∀ v ∈ pc.tokens, v.Distinct)
    (hdepth : ∀ v ∈ pc.tokens, v.depth ≤ Value.depthLimit) (hb : pc.encode = .ok b) : pc.canonical.Settled := by
  cases pc with
  | native => trivial
  | fungible =>
    obtain ⟨_, _, -, hasset, -⟩ := encode_fungible.mp hb
    exact Asset.settled_canonical hasset
  | nonFungible holder asset token code =>
    obtain ⟨_, _, _, -, hasset, -, -⟩ := encode_nonFungible.mp hb
    exact ⟨Asset.settled_canonical hasset,
      Value.settled_canonical (h token List.mem_cons_self) (hdepth token List.mem_cons_self)⟩

/-- A condition equals its canonical form. -/
theorem canonical_equal {pc : PostCondition} (h : ∀ v ∈ pc.tokens, v.Distinct) : pc.canonical.equal pc = true := by
  cases pc with
  | native => simp [canonical, equal]
  | fungible holder asset code amount => simp [canonical, equal, asset.canonical_equal]
  | nonFungible holder asset token code =>
    simp [canonical, equal, asset.canonical_equal, Value.canonical_equal (h token List.mem_cons_self)]

section Lists

variable {pcs : List PostCondition}

/-- A list of conditions is written as their canonical forms are. -/
theorem encodeAll_canonical (h : ∀ pc ∈ pcs, ∀ v ∈ pc.tokens, v.Distinct) :
    encodeAll (pcs.map canonical) = encodeAll pcs := by
  have heach : encodeEach (pcs.map canonical) = encodeEach pcs :=
    Spelling.encodeAll_map encode encodeEach rfl (fun _ _ => rfl) fun pc hpc => encode_canonical (h pc hpc)
  rw [encodeAll, encodeAll, heach, List.length_map]

/-- The canonical forms of conditions that are written and not too deep are settled. -/
theorem settled_map_canonical {b : Bytes} (h : ∀ pc ∈ pcs, ∀ v ∈ pc.tokens, v.Distinct)
    (hdepth : ∀ pc ∈ pcs, ∀ v ∈ pc.tokens, v.depth ≤ Value.depthLimit) (hb : encodeAll pcs = .ok b) :
    ∀ pc ∈ pcs.map canonical, pc.Settled := by
  obtain ⟨_, -, hb⟩ := Outcome.bind_eq_ok.mp hb
  obtain ⟨c, hc, -⟩ := Outcome.bind_eq_ok.mp hb
  have hwritten : ∀ pc ∈ pcs, ∃ b, pc.encode = .ok b :=
    (Spelling.exists_encodeAll_iff encode encodeEach rfl fun _ _ => rfl).mp ⟨c, hc⟩
  refine List.forall_mem_map.mpr fun pc hpc => ?_
  obtain ⟨b, hb⟩ := hwritten pc hpc
  exact settled_canonical (h pc hpc) (hdepth pc hpc) hb

/-- Conditions equal their canonical forms one by one. -/
theorem map_canonical_equal (h : ∀ pc ∈ pcs, ∀ v ∈ pc.tokens, v.Distinct) :
    List.Forall₂ (fun pc pc' => pc.equal pc' = true) (pcs.map canonical) pcs :=
  List.forall₂_map_left_iff.mpr (List.forall₂_same.mpr fun pc hpc => canonical_equal (h pc hpc))

end Lists

end PostCondition

end StacksWallet
