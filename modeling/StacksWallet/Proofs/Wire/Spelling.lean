import StacksWallet.Proofs.Outcome
import StacksWallet.Wire.Cursor

/-!
# What readers accept

A reader's result and the bytes it consumed determine each other for every reader of the wire format. A
spelling says which bytes stand for which result, in front of which other bytes; a reader reads a spelling if
it succeeds on exactly the bytes that the spelling names and leaves the cursor behind them. Spellings compose
as readers do, so each reader needs one such law.

Nothing is said here about readers that fail, except that they do.
-/

namespace StacksWallet

namespace Cursor

/-- The bytes from the position to the end. -/
def rest (c : Cursor) : Bytes := c.buffer.toList.drop c.position.toNat

/-- The cursor some bytes further. -/
def advance (c : Cursor) (n : Nat) : Cursor := { c with position := c.position + n }

/-- Some bytes stand between one cursor and another one. -/
def Spells (c : Cursor) (b : Bytes) (c' : Cursor) : Prop := c.rest = b ++ c'.rest ∧ c' = c.advance b.length

/-- The position is one of the buffer, or its end. -/
structure Inside (c : Cursor) : Prop where
  nonneg : 0 ≤ c.position
  le_size : c.position ≤ c.buffer.size

/-- What is left is as long as the cursor says. -/
theorem Inside.length_rest {c : Cursor} (hc : c.Inside) : (c.rest.length : Int) = c.remaining := by
  have h₀ := hc.nonneg
  have h₁ := hc.le_size
  simp only [rest, remaining, List.length_drop, Array.length_toList]
  omega

/-- Going further drops bytes from what is left. -/
theorem rest_advance {c : Cursor} (hc : c.Inside) (n : Nat) : (c.advance n).rest = c.rest.drop n := by
  have h₀ := hc.nonneg
  have hpos : (c.position + n).toNat = c.position.toNat + n := by omega
  simp only [rest, advance, List.drop_drop, hpos]

/-- Bytes that begin what is left stand before the cursor that they lead to. -/
theorem spells_advance {c : Cursor} {b tail : Bytes} (hc : c.Inside) (h : c.rest = b ++ tail) :
    c.Spells b (c.advance b.length) := by
  refine ⟨?_, rfl⟩
  rw [rest_advance hc, h, List.drop_left]

/-- Bytes lead no further than to the end. -/
theorem Spells.inside {c c' : Cursor} {b : Bytes} (h : c.Spells b c') (hc : c.Inside) : c'.Inside := by
  have h₀ := hc.nonneg
  have hlength := hc.length_rest
  rw [h.1, List.length_append, remaining] at hlength
  rw [h.2]
  exact ⟨by simp only [advance]; omega, by simp only [advance]; omega⟩

/-- No bytes lead to the cursor itself. -/
@[simp] theorem spells_nil {c c' : Cursor} : c.Spells [] c' ↔ c' = c := by
  constructor
  · intro h
    obtain ⟨-, rfl⟩ := h
    simp [advance]
  · intro h
    obtain rfl := h
    exact ⟨rfl, by simp [advance]⟩

/-- Bytes that are put together lead over the cursor that the first of them lead to. -/
theorem spells_append {c c' : Cursor} {b₁ b₂ : Bytes} (hc : c.Inside) :
    c.Spells (b₁ ++ b₂) c' ↔ ∃ c₁, c.Spells b₁ c₁ ∧ c₁.Spells b₂ c' := by
  constructor
  · intro h
    obtain ⟨hrest, rfl⟩ := h
    rw [List.append_assoc] at hrest
    have h₁ := spells_advance hc hrest
    refine ⟨_, h₁, ?_, ?_⟩
    · rw [rest_advance hc, hrest, List.drop_left]
    · simp [advance, Int.add_assoc]
  · intro h
    obtain ⟨c₁, ⟨h₁, rfl⟩, h₂, rfl⟩ := h
    refine ⟨?_, ?_⟩
    · rw [h₁, h₂, List.append_assoc]
    · simp [advance, Int.add_assoc]

/-- The cursor at the end of a beginning sees what comes after it. -/
theorem rest_ofBytes_append (before after : Bytes) : (ofBytes (before ++ after) before.length).rest = after := by
  simp [rest, ofBytes]

end Cursor

/-- Which bytes stand for a result, in front of which other bytes. -/
abbrev Spelling (α : Type) := α → Bytes → Bytes → Prop

namespace Spelling

variable {α β : Type}

/-- A result for which nothing is written. -/
def silent (a : α) : Spelling α := fun x b _ => x = a ∧ b = []

/-- Results with one form each, among those that have a form. -/
def written (P : α → Prop) (form : α → Bytes) : Spelling α := fun a b _ => P a ∧ b = form a

/-- One part after another one that it may depend on. -/
def andThen (s : Spelling α) (t : α → Spelling β) : Spelling β :=
  fun y b after => ∃ a b₁ b₂, b = b₁ ++ b₂ ∧ s a b₁ (b₂ ++ after) ∧ t a y b₂ after

end Spelling

namespace Reader

variable {α β : Type}

/-- The result of a reader and the cursor that it leaves behind. -/
def outcome (r : Reader α) (c : Cursor) : Except Fault α × Cursor := r.run c

/-- The reader succeeds on exactly the bytes that a spelling names. -/
def Reads (r : Reader α) (s : Spelling α) : Prop :=
  ∀ (c : Cursor) (a : α) (c' : Cursor), c.Inside →
    (r.outcome c = (.ok a, c') ↔ ∃ b, s a b c'.rest ∧ c.Spells b c')

/-- A result needs no bytes. -/
theorem outcome_pure (a : α) (c : Cursor) : (pure a : Reader α).outcome c = (.ok a, c) := rfl

/-- A failing reader stays where it is. -/
theorem outcome_throw (fault : Fault) (c : Cursor) : (throw fault : Reader α).outcome c = (.error fault, c) := rfl

/-- A sequence goes on from where its first part has stopped, unless that part has failed. -/
theorem outcome_bind (r : Reader α) (f : α → Reader β) (c : Cursor) :
    (r >>= f).outcome c =
      match r.outcome c with
      | (.ok a, c₁) => (f a).outcome c₁
      | (.error fault, c₁) => (.error fault, c₁) := by
  rw [outcome, outcome, Outcome.run_bind]
  rcases r.run c with ⟨fault | a, c₁⟩ <;> rfl

/-- A sequence succeeds if and only if its parts do one after the other. -/
theorem outcome_bind_eq_ok {r : Reader α} {f : α → Reader β} {c c' : Cursor} {y : β} :
    (r >>= f).outcome c = (.ok y, c') ↔ ∃ a c₁, r.outcome c = (.ok a, c₁) ∧ (f a).outcome c₁ = (.ok y, c') := by
  rw [outcome_bind]
  rcases r.outcome c with ⟨fault | a, c₁⟩ <;> simp [and_assoc]

/-- Equivalent spellings are read alike. -/
theorem Reads.congr {r : Reader α} {s t : Spelling α} (h : r.Reads s)
    (hst : ∀ a b after, s a b after ↔ t a b after) : r.Reads t := by
  intro c a c' hc
  simp only [h c a c' hc, hst]

/-- A reader that makes its result from nothing. -/
theorem reads_pure (a : α) : (pure a : Reader α).Reads (.silent a) := by
  intro c x c' _
  rw [outcome_pure, Prod.mk.injEq, Except.ok.injEq]
  constructor
  · intro h
    obtain ⟨rfl, rfl⟩ := h
    exact ⟨[], ⟨rfl, rfl⟩, by simp⟩
  · intro h
    obtain ⟨b, ⟨rfl, rfl⟩, h⟩ := h
    exact ⟨rfl, (Cursor.spells_nil.mp h).symm⟩

/-- A reader that always fails. -/
theorem reads_throw (fault : Fault) : (throw fault : Reader α).Reads (fun _ _ _ => False) := by
  intro c a c' _
  simp [outcome_throw]

/-- A reader that refuses the bytes. -/
theorem reads_malformed (offset : Int) (flaw : WireFlaw) :
    (malformed offset flaw : Reader α).Reads (fun _ _ _ => False) := reads_throw _

/-- Readers in sequence read spellings in sequence. Only results that are spelled need a continuation. -/
theorem Reads.bind_of {r : Reader α} {f : α → Reader β} {s : Spelling α} {t : α → Spelling β}
    (hr : r.Reads s) (hf : ∀ a b after, s a b after → (f a).Reads (t a)) : (r >>= f).Reads (s.andThen t) := by
  intro c y c' hc
  rw [outcome_bind_eq_ok]
  constructor
  · intro h
    obtain ⟨a, c₁, h₁, h₂⟩ := h
    obtain ⟨b₁, hs, hb₁⟩ := (hr c a c₁ hc).mp h₁
    obtain ⟨b₂, ht, hb₂⟩ := (hf a b₁ _ hs c₁ y c' (hb₁.inside hc)).mp h₂
    rw [hb₂.1] at hs
    exact ⟨b₁ ++ b₂, ⟨a, b₁, b₂, rfl, hs, ht⟩, (Cursor.spells_append hc).mpr ⟨c₁, hb₁, hb₂⟩⟩
  · intro h
    obtain ⟨b, ⟨a, b₁, b₂, rfl, hs, ht⟩, hb⟩ := h
    obtain ⟨c₁, hb₁, hb₂⟩ := (Cursor.spells_append hc).mp hb
    have hf' := hf a b₁ _ hs c₁ y c' (hb₁.inside hc)
    rw [← hb₂.1] at hs
    exact ⟨a, c₁, (hr c a c₁ hc).mpr ⟨b₁, hs, hb₁⟩, hf'.mpr ⟨b₂, ht, hb₂⟩⟩

/-- Readers in sequence read spellings in sequence. -/
theorem Reads.bind {r : Reader α} {f : α → Reader β} {s : Spelling α} {t : α → Spelling β}
    (hr : r.Reads s) (hf : ∀ a, (f a).Reads (t a)) : (r >>= f).Reads (s.andThen t) :=
  hr.bind_of fun a _ _ _ => hf a

/-- A part with one form for each result, and what follows it. -/
theorem Reads.bind_written {r : Reader α} {f : α → Reader β} {P : α → Prop} {form : α → Bytes}
    {t : α → Spelling β} (hr : r.Reads (.written P form)) (hf : ∀ a, P a → (f a).Reads (t a)) :
    (r >>= f).Reads (fun y b after => ∃ a b₂, P a ∧ b = form a ++ b₂ ∧ t a y b₂ after) := by
  refine (hr.bind_of fun a _ _ ha => hf a ha.1).congr fun y b after => ?_
  constructor
  · intro h
    obtain ⟨a, b₁, b₂, rfl, ⟨ha, rfl⟩, ht⟩ := h
    exact ⟨a, b₂, ha, rfl, ht⟩
  · intro h
    obtain ⟨a, b₂, ha, rfl, ht⟩ := h
    exact ⟨a, form a, b₂, rfl, ⟨ha, rfl⟩, ht⟩

/-- A part with one form for each result, of which another result is made. -/
theorem Reads.map_written {r : Reader α} {P : α → Prop} {form : α → Bytes} (hr : r.Reads (.written P form))
    (make : α → β) :
    (do return make (← r) : Reader β).Reads (fun y b _ => ∃ a, P a ∧ y = make a ∧ b = form a) := by
  refine (hr.bind_written fun a _ => reads_pure (make a)).congr fun y b after => ?_
  constructor
  · intro h
    obtain ⟨a, _, ha, rfl, rfl, rfl⟩ := h
    exact ⟨a, ha, rfl, List.append_nil _⟩
  · intro h
    obtain ⟨a, ha, rfl, rfl⟩ := h
    exact ⟨a, [], ha, (List.append_nil _).symm, rfl, rfl⟩

/-- A reader that looks at the position only to report it. -/
theorem reads_position {f : Int → Reader α} {s : Spelling α} (hf : ∀ start, (f start).Reads s) :
    (position >>= f).Reads s := by
  intro c a c' hc
  rw [← hf c.position c a c' hc, outcome_bind]
  rfl

/-- A part of the result that must be found among those that can be made. -/
theorem reads_require {ε : Type} (offset : Int) (wire : ε → WireFlaw) (x : Except ε α) :
    (require offset wire x).Reads (fun a b _ => x = .ok a ∧ b = []) := by
  cases x with
  | ok a => exact (reads_pure a).congr fun x b _ => by simp [Spelling.silent, eq_comm]
  | error flaw => exact (reads_malformed offset (wire flaw)).congr fun a b _ => by simp

/-- A reader behind a condition on what was read before. -/
theorem reads_dite {p : Prop} [Decidable p] {r : p → Reader α} {fault : Reader α} {s : p → Spelling α}
    (hr : ∀ h, (r h).Reads (s h)) (hfault : fault.Reads fun _ _ _ => False) :
    (if h : p then r h else fault).Reads (fun a b after => ∃ h, s h a b after) := by
  split
  · rename_i h
    exact (hr h).congr fun a b after => ⟨fun hs => ⟨h, hs⟩, fun ⟨_, hs⟩ => hs⟩
  · rename_i h
    exact hfault.congr fun a b after => ⟨False.elim, fun ⟨h', _⟩ => h h'⟩

/-- What follows a guard is read if the guard lets it through. -/
theorem reads_guard {p : Prop} [Decidable p] {offset : Int} {flaw : WireFlaw} {f : Unit → Reader α}
    {s : Spelling α} (hf : ∀ u, (f u).Reads s) :
    (if p then malformed offset flaw >>= f else f ()).Reads (fun a b after => ¬ p ∧ s a b after) := by
  split
  · rename_i hp
    have hfail : (malformed offset flaw >>= f : Reader α).Reads (fun _ _ _ => False) := by
      intro c a c' hc
      rw [outcome_bind_eq_ok]
      simp [malformed, outcome_throw]
    exact hfail.congr fun a b after => by simp [hp]
  · rename_i hp
    exact (hf ()).congr fun a b after => by simp [hp]

/-- How reading at an offset ends. -/
theorem decodeAt_eq_ok {r : Reader α} {b : Bytes} {offset : Int} {a : α} {n : Int} :
    r.decodeAt b offset = .ok (a, n) ↔
      ∃ c, r.outcome (Cursor.ofBytes b offset) = (.ok a, c) ∧ n = c.position - offset := by
  change (match r.outcome (Cursor.ofBytes b offset) with
    | (.ok a, c) => .ok (a, c.position - offset)
    | (.error fault, _) => .error fault : Except Fault (α × Int)) = _ ↔ _
  rcases r.outcome (Cursor.ofBytes b offset) with ⟨fault | x, c⟩
  · simp
  · simp [and_assoc, eq_comm]

/-- Reading at an offset succeeds on the bytes that stand there for a result. -/
theorem Reads.decodeAt_iff {r : Reader α} {s : Spelling α} (hr : r.Reads s) {b : Bytes} {offset : Int}
    (hoffset : 0 ≤ offset) (hlength : offset ≤ b.length) {a : α} {n : Int} :
    r.decodeAt b offset = .ok (a, n) ↔
      ∃ form after, b.drop offset.toNat = form ++ after ∧ s a form after ∧ n = form.length := by
  have hinside : (Cursor.ofBytes b offset).Inside := ⟨hoffset, by simpa [Cursor.ofBytes] using hlength⟩
  have hrest : (Cursor.ofBytes b offset).rest = b.drop offset.toNat := rfl
  have hadvance : ∀ k : Nat, ((Cursor.ofBytes b offset).advance k).position - offset = k :=
    fun k => by change offset + k - offset = k; omega
  rw [decodeAt_eq_ok]
  constructor
  · intro h
    obtain ⟨c, hc, rfl⟩ := h
    obtain ⟨form, hs, hform⟩ := (hr _ a c hinside).mp hc
    refine ⟨form, c.rest, hrest ▸ hform.1, hs, ?_⟩
    rw [hform.2, hadvance]
  · intro h
    obtain ⟨form, after, hb, hs, rfl⟩ := h
    have hform := Cursor.spells_advance hinside (hrest.trans hb)
    have hafter : ((Cursor.ofBytes b offset).advance form.length).rest = after := by
      rw [Cursor.rest_advance hinside, hrest, hb, List.drop_left]
    refine ⟨_, (hr _ a _ hinside).mpr ⟨form, ?_, hform⟩, (hadvance _).symm⟩
    rwa [hafter]

end Reader

end StacksWallet
