import StacksWallet.Proofs.Clarity.Spelling
import StacksWallet.Proofs.Wire.Refusal

/-!
# Values nested too deep

Nothing but its depth keeps the bytes of a value in canonical form from being read. Parts in front of the first
one that is too deep are read as they should, guards let the counts pass, and the reader gives up exactly where
its levels are used up.
-/

namespace StacksWallet.Value

variable {guarded : Bool} {levels : Nat}

/-- A value that can be written as it is fits, or it is too deep. -/
theorem fits_or_le_depth {v : Value} (hordered : v.Ordered) (hflaw : v.flaw? = .none) (levels : Nat) :
    v.Fits levels ∨ levels ≤ v.depth := by
  by_cases hdepth : v.depth < levels
  · exact .inl ⟨hordered, hflaw, hdepth⟩
  · exact .inr (not_lt.mp hdepth)

/-- Behind a tag, a value is refused for its content. -/
theorem refuses_of_content {flaw : WireFlaw} (tag : Tag) {c : Bytes}
    (h : (readContent guarded (readWithin guarded levels) tag).Refuses flaw c) :
    (readWithin guarded (levels + 1)).Refuses flaw (UInt8.ofNat tag.code :: c) := by
  have hcode : tag.code < wordCount 1 := by cases tag <;> decide
  have hbyte : UInt8.ofNat tag.code :: c = bigEndian 1 tag.code ++ c := by simp [bigEndian, wordCount]
  rw [hbyte]
  refine Reader.refuses_position fun start => Reader.reads_u8.written_bind_refuses hcode ?_
  rw [Tag.ofCode?_eq_some_iff.mpr rfl]
  exact h

/-- Fields are refused if the value of one of them is, behind others that are read. -/
theorem refuses_readFieldsOnto {inner : Reader Value} {P : Value → Prop} {flaw : WireFlaw}
    (hinner : inner.Reads (.written P bytes)) {fields : List (Name × Value)} {previous : Option Name}
    (hkeys : (previous.toList ++ fields.map Prod.fst).IsChain fun k l => k.precedes l = true)
    (hfields : ∀ f ∈ fields, P f.2 ∨ inner.Refuses flaw f.2.bytes) (hflaw : ∃ f ∈ fields, ¬ P f.2)
    (done : List (Name × Value)) :
    (readFieldsOnto inner previous done fields.length).Refuses flaw (fields.flatMap fieldBytes) := by
  induction fields generalizing previous done with
  | nil =>
    obtain ⟨f, hf, -⟩ := hflaw
    cases hf
  | cons f rest ih =>
    obtain ⟨hf, hrest⟩ := List.forall_mem_cons.mp hfields
    have hkey : ¬ (previous.any fun earlier => !earlier.precedes f.1) = true := by
      cases previous with
      | none => simp
      | some earlier => simpa using (List.isChain_cons_cons.mp hkeys).1
    have hlater : ((Option.some f.1).toList ++ rest.map Prod.fst).IsChain fun k l => k.precedes l = true := by
      cases previous with
      | none => exact hkeys
      | some earlier => exact (List.isChain_cons_cons.mp hkeys).2
    rw [List.length_cons, readFieldsOnto, List.flatMap_cons, fieldBytes, List.append_assoc]
    refine Reader.refuses_position fun start => (Name.reads .tupleKey).written_bind_refuses trivial
      (Reader.refuses_guard hkey fun _ => ?_)
    rcases hf with hf | hf
    · obtain ⟨g, hg, hbad⟩ := hflaw
      have hg' : g ∈ rest := (List.mem_cons.mp hg).resolve_left fun hgf => hbad (hgf ▸ hf)
      exact hinner.written_bind_refuses hf (ih hlater hrest ⟨g, hg', hbad⟩ ((f.1, f.2) :: done))
    · exact (hf.bind _).append _

/-- A value in order that can be written is refused by a reader of too few levels, and for no other flaw. -/
theorem refuses_tooDeep {v : Value} (hordered : v.Ordered) (hflaw : v.flaw? = .none) (hdepth : levels ≤ v.depth) :
    (readWithin guarded levels).Refuses .tooDeep v.bytes := by
  induction levels generalizing v with
  | zero => exact Reader.refuses_position fun start => Reader.refuses_malformed start _ _
  | succ levels ih =>
    cases v with
    | int | uint | bool | buffer | ascii | utf8 | principal | none => cases hdepth
    | some v =>
      rw [depth] at hdepth
      exact refuses_of_content .optionalSome ((ih (v := v) hordered hflaw (by omega)).bind _)
    | ok v =>
      rw [depth] at hdepth
      exact refuses_of_content .responseOk ((ih (v := v) hordered hflaw (by omega)).bind _)
    | err v =>
      rw [depth] at hdepth
      exact refuses_of_content .responseErr ((ih (v := v) hordered hflaw (by omega)).bind _)
    | list items =>
      rw [flaw?, Option.or_eq_none_iff, sizeFlaw?_eq_none_iff, itemsFlaw?_eq_none_iff] at hflaw
      have hitems := ordered_list_iff.mp hordered
      have hparts : ∀ v ∈ items, v.Fits levels ∨ (readWithin guarded levels).Refuses .tooDeep v.bytes := fun v hv =>
        (fits_or_le_depth (hitems v hv) (hflaw.2 v hv) levels).imp_right (ih (hitems v hv) (hflaw.2 v hv))
      have hdeep : ∃ v ∈ items, ¬ v.Fits levels := by
        by_contra! hall
        have hle := itemsDepth_le_iff.mpr fun v hv => (hall v hv).depth_lt
        rw [depth] at hdepth
        omega
      have hcount : ∀ after : Bytes, guarded = true → items.length ≤ (items.flatMap bytes ++ after).length := by
        intro after _
        rw [List.length_append]
        exact (length_le_flatMap bytes_ne_nil items).trans (Nat.le_add_right _ _)
      rw [bytes, itemsBytes_eq]
      refine refuses_of_content .list ((Reader.reads_count guarded .listItems).bind_refuses
        (fun after => ⟨hflaw.1, rfl, hcount after⟩) ?_)
      exact (Reader.refuses_repeatOnto (reads_readWithin guarded levels) hparts hdeep []).bind _
    | tuple fields =>
      rw [flaw?, Option.or_eq_none_iff, sizeFlaw?_eq_none_iff, fieldsFlaw?_eq_none_iff] at hflaw
      obtain ⟨hkeys, hfields⟩ := ordered_tuple_iff.mp hordered
      have hparts : ∀ f ∈ fields, f.2.Fits levels ∨ (readWithin guarded levels).Refuses .tooDeep f.2.bytes :=
        fun f hf => (fits_or_le_depth (hfields f hf) (hflaw.2 f hf) levels).imp_right
          (ih (hfields f hf) (hflaw.2 f hf))
      have hdeep : ∃ f ∈ fields, ¬ f.2.Fits levels := by
        by_contra! hall
        have hle := fieldsDepth_le_iff.mpr fun f hf => (hall f hf).depth_lt
        rw [depth] at hdepth
        omega
      have hchain : ((Option.none : Option Name).toList ++ fields.map Prod.fst).IsChain fun k l =>
          k.precedes l = true := List.isChain_iff_pairwise.mpr (List.pairwise_map.mpr hkeys)
      have hcount : ∀ after : Bytes, guarded = true → fields.length ≤ (fields.flatMap fieldBytes ++ after).length := by
        intro after _
        rw [List.length_append]
        exact (length_le_flatMap fieldBytes_ne_nil fields).trans (Nat.le_add_right _ _)
      rw [bytes, fieldsBytes_eq]
      refine refuses_of_content .tuple ((Reader.reads_count guarded .tupleFields).bind_refuses
        (fun after => ⟨hflaw.1, rfl, hcount after⟩) ?_)
      exact (refuses_readFieldsOnto (reads_readWithin guarded levels) hchain hparts hdeep []).bind _

end StacksWallet.Value
