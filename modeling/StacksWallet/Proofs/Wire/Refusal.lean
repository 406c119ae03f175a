import StacksWallet.Proofs.Wire.Spelling

/-!
# What readers refuse

A reader refuses bytes for a flaw if it fails on them with that flaw, whatever follows. A sequence refuses what
its first part refuses, and it refuses in its second part behind bytes that the first part reads. The place
that a refusal reports is left open.
-/

namespace StacksWallet.Reader

variable {α β : Type}

/-- The reader fails with a flaw on some bytes, whatever follows them. -/
def Refuses (r : Reader α) (flaw : WireFlaw) (b : Bytes) : Prop :=
  ∀ c c' : Cursor, c.Inside → c.Spells b c' →
    ∃ offset c₁, r.outcome c = (.error (.malformed (some offset) flaw), c₁)

/-- A reader that looks at the position only to report it. -/
theorem refuses_position {f : Int → Reader α} {flaw : WireFlaw} {b : Bytes} (hf : ∀ start, (f start).Refuses flaw b) :
    (position >>= f).Refuses flaw b := by
  intro c c' hc hb
  obtain ⟨offset, c₁, h⟩ := hf c.position c c' hc hb
  refine ⟨offset, c₁, ?_⟩
  rw [outcome_bind]
  exact h

/-- A reader that refuses the bytes. -/
theorem refuses_malformed (offset : Int) (flaw : WireFlaw) (b : Bytes) :
    (malformed offset flaw : Reader α).Refuses flaw b := fun c _ _ _ => ⟨offset, c, rfl⟩

/-- What is refused is refused in front of more. -/
theorem Refuses.append {r : Reader α} {flaw : WireFlaw} {b : Bytes} (h : r.Refuses flaw b) (more : Bytes) :
    r.Refuses flaw (b ++ more) := by
  intro c c' hc hb
  obtain ⟨c₁, hb₁, -⟩ := (Cursor.spells_append hc).mp hb
  exact h c c₁ hc hb₁

/-- A sequence refuses what its first part refuses. -/
theorem Refuses.bind {r : Reader α} {flaw : WireFlaw} {b : Bytes} (h : r.Refuses flaw b) (f : α → Reader β) :
    (r >>= f).Refuses flaw b := by
  intro c c' hc hb
  obtain ⟨offset, c₁, hr⟩ := h c c' hc hb
  refine ⟨offset, c₁, ?_⟩
  rw [outcome_bind, hr]

/-- A sequence refuses what its second part refuses, behind what its first part reads. -/
theorem Reads.bind_refuses {r : Reader α} {s : Spelling α} {f : α → Reader β} {flaw : WireFlaw} {a : α}
    {b₁ b₂ : Bytes} (hr : r.Reads s) (hs : ∀ after, s a b₁ (b₂ ++ after)) (hf : (f a).Refuses flaw b₂) :
    (r >>= f).Refuses flaw (b₁ ++ b₂) := by
  intro c c' hc hb
  obtain ⟨c₁, hb₁, hb₂⟩ := (Cursor.spells_append hc).mp hb
  have hspelled := hs c'.rest
  rw [← hb₂.1] at hspelled
  obtain ⟨offset, c₂, h⟩ := hf c₁ c' (hb₁.inside hc) hb₂
  refine ⟨offset, c₂, ?_⟩
  rw [outcome_bind, (hr c a c₁ hc).mpr ⟨b₁, hspelled, hb₁⟩]
  exact h

/-- A sequence refuses what its second part refuses, behind the one form of a result of its first part. -/
theorem Reads.written_bind_refuses {r : Reader α} {P : α → Prop} {form : α → Bytes} {f : α → Reader β}
    {flaw : WireFlaw} {a : α} {b : Bytes} (hr : r.Reads (.written P form)) (ha : P a)
    (hf : (f a).Refuses flaw b) : (r >>= f).Refuses flaw (form a ++ b) :=
  hr.bind_refuses (fun _ => ⟨ha, rfl⟩) hf

/-- What follows a guard that lets it through refuses the bytes. -/
theorem refuses_guard {p : Prop} [Decidable p] {offset : Int} {wall flaw : WireFlaw} {f : Unit → Reader α} {b : Bytes}
    (hp : ¬ p) (hf : ∀ u, (f u).Refuses flaw b) :
    (if p then malformed offset wall >>= f else f ()).Refuses flaw b := by
  rw [if_neg hp]
  exact hf ()

/-- Elements are refused if one of them is, behind others that are read. -/
theorem refuses_repeatOnto {one : Reader α} {P : α → Prop} {form : α → Bytes} {flaw : WireFlaw}
    (hone : one.Reads (.written P form)) {as : List α} (has : ∀ a ∈ as, P a ∨ one.Refuses flaw (form a))
    (hflaw : ∃ a ∈ as, ¬ P a) (done : List α) :
    (repeatOnto one done as.length).Refuses flaw (as.flatMap form) := by
  induction as generalizing done with
  | nil =>
    obtain ⟨a, ha, -⟩ := hflaw
    cases ha
  | cons a rest ih =>
    obtain ⟨ha, hrest⟩ := List.forall_mem_cons.mp has
    rw [List.length_cons, repeatOnto, List.flatMap_cons]
    rcases ha with ha | ha
    · obtain ⟨x, hx, hbad⟩ := hflaw
      have hx' : x ∈ rest := (List.mem_cons.mp hx).resolve_left fun hxa => hbad (hxa ▸ ha)
      exact hone.written_bind_refuses ha (ih hrest ⟨x, hx', hbad⟩ (a :: done))
    · exact (ha.bind _).append _

/-- Reading at an offset fails if the bytes that stand there are refused. -/
theorem Refuses.decodeAt_eq {r : Reader α} {flaw : WireFlaw} {form : Bytes} (hr : r.Refuses flaw form)
    (before after : Bytes) :
    ∃ offset, r.decodeAt (before ++ form ++ after) before.length = .error (.malformed (some offset) flaw) := by
  let c := Cursor.ofBytes (before ++ form ++ after) before.length
  have hinside : c.Inside := ⟨Int.natCast_nonneg _, by simp [c, Cursor.ofBytes]; omega⟩
  have hrest : c.rest = form ++ after := by
    rw [← Cursor.rest_ofBytes_append before (form ++ after), ← List.append_assoc]
  obtain ⟨offset, c₁, h⟩ := hr c _ hinside (Cursor.spells_advance hinside hrest)
  have hrun : r.run c = (.error (.malformed (some offset) flaw), c₁) := h
  exact ⟨offset, by rw [decodeAt, hrun]⟩

end StacksWallet.Reader
