import StacksWallet.Proofs.Wire.Primitive

/-!
# Where readers fail

A reader that starts within some bytes stays within them, and if it fails it says where: it reports a flaw of the
wire format at a place in the bytes, or at their end, and no other fault. What it reads has the properties that its
width settles, so that parts which are made of it can be made. The laws here follow the steps of a reader one by one.
-/

namespace StacksWallet

/-- The fault is a flaw of the wire format at a place in so many bytes, or at their end. -/
def Fault.Placed (size : Nat) (fault : Fault) : Prop :=
  ∃ (offset : Int) (flaw : WireFlaw), fault = .malformed (some offset) flaw ∧ 0 ≤ offset ∧ offset ≤ size

/-- The cursor stands in so many bytes, or at their end. -/
structure Cursor.Within (size : Nat) (c : Cursor) : Prop where
  inside : c.Inside
  size_eq : c.buffer.size = size

/-- What a cursor's bytes lead to stands in the same bytes. -/
theorem Cursor.Within.spells {size : Nat} {c c' : Cursor} {b : Bytes} (hc : c.Within size) (h : c.Spells b c') :
    c'.Within size := by
  refine ⟨h.inside hc.inside, ?_⟩
  rw [h.2]
  exact hc.size_eq

namespace Reader

variable {α β : Type} {size : Nat} {P : α → Prop} {Q : β → Prop}

/-- Within so many bytes, the reader succeeds with a result that has a property, or it reports a place in them. -/
structure Reports (r : Reader α) (size : Nat) (P : α → Prop) : Prop where
  success : ∀ {c c' : Cursor} {a : α}, c.Within size → r.outcome c = (.ok a, c') → c'.Within size ∧ P a
  failure : ∀ {c c' : Cursor} {fault : Fault}, c.Within size → r.outcome c = (.error fault, c') → fault.Placed size

/-- A reader that makes its result from nothing reports nothing. -/
theorem reports_pure {a : α} (ha : P a) : (pure a : Reader α).Reports size P := by
  constructor
  · intro c c' x hc h
    obtain ⟨hx, rfl⟩ := Prod.mk.inj h
    exact ⟨hc, Except.ok.inj hx ▸ ha⟩
  · intro c c' fault hc h
    cases (Prod.mk.inj h).1

/-- A flaw at a place in the bytes is reported there. -/
theorem reports_malformed {offset : Int} {flaw : WireFlaw} (h : 0 ≤ offset ∧ offset ≤ size) :
    (malformed offset flaw : Reader α).Reports size P := by
  constructor
  · intro c c' x hc hrun
    cases (Prod.mk.inj hrun).1
  · intro c c' fault hc hrun
    obtain ⟨rfl, -⟩ : Fault.malformed (some offset) flaw = fault ∧ c = c' := by
      simpa [malformed, outcome_throw] using hrun
    exact ⟨offset, flaw, rfl, h⟩

/-- A sequence fails if its first part does, or if that part succeeds and what follows it fails. -/
theorem outcome_bind_eq_error {r : Reader α} {f : α → Reader β} {c c' : Cursor} {fault : Fault} :
    (r >>= f).outcome c = (.error fault, c') ↔ r.outcome c = (.error fault, c') ∨
      ∃ a c₁, r.outcome c = (.ok a, c₁) ∧ (f a).outcome c₁ = (.error fault, c') := by
  rw [outcome_bind]
  rcases r.outcome c with ⟨other | a, c₁⟩ <;> simp [and_assoc]

/-- Readers in sequence report what each of them does. -/
theorem Reports.bind {r : Reader α} {f : α → Reader β} (hr : r.Reports size P)
    (hf : ∀ a, P a → (f a).Reports size Q) : (r >>= f).Reports size Q := by
  constructor
  · intro c c' y hc h
    obtain ⟨a, c₁, h₁, h₂⟩ := outcome_bind_eq_ok.mp h
    obtain ⟨hc₁, ha⟩ := hr.success hc h₁
    exact (hf a ha).success hc₁ h₂
  · intro c c' fault hc h
    rcases outcome_bind_eq_error.mp h with h | ⟨a, c₁, h₁, h₂⟩
    · exact hr.failure hc h
    · obtain ⟨hc₁, ha⟩ := hr.success hc h₁
      exact (hf a ha).failure hc₁ h₂

/-- Less may be asked of results. -/
theorem Reports.imp {r : Reader α} {Q : α → Prop} (hr : r.Reports size P) (h : ∀ a, P a → Q a) : r.Reports size Q :=
  ⟨fun hc hrun => (hr.success hc hrun).imp_right (h _), hr.failure⟩

/-- What is made of a result is made without a report. -/
theorem Reports.map {r : Reader α} (hr : r.Reports size P) (make : α → β) :
    (do return make (← r) : Reader β).Reports size fun _ => True :=
  hr.bind fun _ _ => reports_pure trivial

/-- The position is a place in the bytes. -/
theorem reports_position {f : Int → Reader α}
    (hf : ∀ start : Int, 0 ≤ start ∧ start ≤ size → (f start).Reports size P) :
    (position >>= f).Reports size P := by
  have hplace {c : Cursor} (hc : c.Within size) : 0 ≤ c.position ∧ c.position ≤ size :=
    ⟨hc.inside.nonneg, hc.size_eq ▸ hc.inside.le_size⟩
  constructor
  · intro c c' a hc h
    rw [outcome_bind] at h
    exact (hf c.position (hplace hc)).success hc h
  · intro c c' fault hc h
    rw [outcome_bind] at h
    exact (hf c.position (hplace hc)).failure hc h

/-- The number of bytes that are left is looked at. -/
theorem reports_remaining : remaining.Reports size fun _ => True := by
  constructor
  · intro c c' a hc h
    obtain ⟨-, rfl⟩ := Prod.mk.inj h
    exact ⟨hc, trivial⟩
  · intro c c' fault hc h
    cases (Prod.mk.inj h).1

/-- What follows a guard reports as the guard does. -/
theorem reports_guard {p : Prop} [Decidable p] {offset : Int} {flaw : WireFlaw} {f : Unit → Reader α}
    (h : 0 ≤ offset ∧ offset ≤ size) (hf : ¬ p → (f ()).Reports size P) :
    (if p then malformed offset flaw >>= f else f ()).Reports size P := by
  split
  · exact (reports_malformed (P := fun _ => False) h).bind fun _ hfalse => hfalse.elim
  · rename_i hp
    exact hf hp

/-- A part that must be found among those that can be made is reported at a place in the bytes. -/
theorem reports_require {ε : Type} {offset : Int} (h : 0 ≤ offset ∧ offset ≤ size) (wire : ε → WireFlaw)
    (x : Except ε α) : (require offset wire x).Reports size fun a => x = .ok a := by
  cases x with
  | ok a => exact reports_pure rfl
  | error flaw => exact reports_malformed h

/-- A number can be shown if it has no more figures than a numeral may have. -/
theorem isShowable_integer_iff {n : Int} : (Datum.integer n).isShowable = true ↔ n.natAbs < 10 ^ maxNumeralDigits := by
  rw [Datum.isShowable, decide_eq_true_eq, Nat.pow_eq]

/-- A number of bytes in four bytes can be shown. -/
theorem isShowable_of_lt {n : Int} (hn : n.natAbs < wordCount 4) : (Datum.integer n).isShowable = true := by
  have hcount : wordCount 4 ≤ 10 ^ 10 := by decide
  have hdigits : 10 ≤ maxNumeralDigits := by decide
  rw [isShowable_integer_iff]
  exact hn.trans_le (hcount.trans (Nat.pow_le_pow_right (by decide) hdigits))

/-- Raw bytes of a number that fits into four bytes; if there are too few, that is reported where they begin. -/
theorem reports_take {n : Nat} (hn : n < wordCount 4) : (take n).Reports size fun a => a.length = n := by
  constructor
  · intro c c' a hc h
    obtain ⟨b, ⟨hlength, rfl⟩, hb⟩ := (reads_take n c a c' hc.inside).mp h
    exact ⟨hc.spells hb, Int.ofNat_inj.mp hlength⟩
  · intro c c' fault hc h
    have h₀ := hc.inside.nonneg
    have h₁ := hc.inside.le_size
    rw [outcome_take_eq] at h
    split at h
    · rename_i hshort
      -- The report shows both numbers. What is left is less than what was asked for, so it can be shown as well.
      have hremaining : c.remaining.natAbs < wordCount 4 := by
        rw [Bool.or_eq_true, decide_eq_true_eq, decide_eq_true_eq, Cursor.remaining] at hshort
        rw [Cursor.remaining]
        omega
      obtain ⟨hfault, -⟩ := Prod.mk.inj h
      rw [Fault.showing, if_pos (isShowable_of_lt (by simpa using hn)), Fault.showing,
        if_pos (isShowable_of_lt hremaining)] at hfault
      obtain rfl := Except.error.inj hfault
      exact ⟨c.position, _, rfl, h₀, hc.size_eq ▸ h₁⟩
    · cases (Prod.mk.inj h).1

/-- A byte, as a number. -/
theorem reports_u8 : u8.Reports size (· < wordCount 1) := by
  refine (reports_take (n := 1) (by decide)).bind fun a ha => ?_
  cases a with
  | nil => cases ha
  | cons x a => exact reports_pure x.toNat_lt

/-- Behind the place where a first byte stands there is another place, as the byte is there. -/
theorem reports_tagged {f : Int → Nat → Reader α}
    (hf : ∀ (start : Int) (tag : Nat), 0 ≤ start ∧ start ≤ size → 0 ≤ start + 1 ∧ start + 1 ≤ size →
      (f start tag).Reports size P) :
    (do let start ← position; let tag ← u8; f start tag : Reader α).Reports size P := by
  have hbyte {c c₁ : Cursor} {tag : Nat} (hc : c.Within size) (h : u8.outcome c = (.ok tag, c₁)) :
      c₁.Within size ∧ (f c.position tag).Reports size P := by
    obtain ⟨b, ⟨-, rfl⟩, hb⟩ := (reads_u8 c tag c₁ hc.inside).mp h
    have hc₁ := hc.spells hb
    have hle := hc₁.inside.le_size
    rw [hc₁.size_eq, hb.2] at hle
    have hnonneg := hc.inside.nonneg
    have hbehind : c.position + 1 ≤ size := hle
    exact ⟨hc₁, hf c.position tag ⟨hnonneg, by omega⟩ ⟨by omega, hbehind⟩⟩
  constructor
  · intro c c' a hc h
    rw [outcome_bind] at h
    obtain ⟨tag, c₁, htag, h⟩ := outcome_bind_eq_ok.mp h
    obtain ⟨hc₁, hreports⟩ := hbyte hc htag
    exact hreports.success hc₁ h
  · intro c c' fault hc h
    rw [outcome_bind] at h
    rcases outcome_bind_eq_error.mp h with h | ⟨tag, c₁, htag, h⟩
    · exact reports_u8.failure hc h
    · obtain ⟨hc₁, hreports⟩ := hbyte hc htag
      exact hreports.failure hc₁ h

/-- A number of a fixed width. -/
theorem reports_word {width : Nat} (hwidth : width < wordCount 4) :
    (word width).Reports size (· < wordCount width) := by
  refine (reports_take hwidth).bind fun a ha => ?_
  rw [if_pos ha]
  exact reports_pure (ha ▸ a.toNat_lt)

/-- A number of four bytes. -/
theorem reports_u32 : u32.Reports size (· < wordCount 4) := reports_word (by decide)

/-- A number of eight bytes. -/
theorem reports_u64 : u64.Reports size (· < wordCount 8) := reports_word (by decide)

/-- A number of sixteen bytes. -/
theorem reports_u128 : u128.Reports size (· < wordCount 16) :=
  (reports_take (n := 16) (by decide)).bind fun a ha => reports_pure (ha ▸ a.toNat_lt)

/-- A signed number of sixteen bytes. -/
theorem reports_i128 : i128.Reports size fun n => -(wordCount 16 : Int) ≤ 2 * n ∧ 2 * n < wordCount 16 :=
  (reports_take (n := 16) (by decide)).bind fun a ha => reports_pure (ha ▸ a.toInt_range)

/-- Bytes after their length in one byte. -/
theorem reports_shortBytes : shortBytes.Reports size fun _ => True :=
  reports_u8.bind fun _ hn => (reports_take (hn.trans (by decide))).imp fun _ _ => trivial

/-- Bytes after their length in four bytes. -/
theorem reports_longBytes : longBytes.Reports size fun _ => True := by
  refine reports_position fun start hstart => reports_u32.bind fun n hn => reports_remaining.bind fun left _ => ?_
  split
  · exact reports_malformed hstart
  · exact (reports_take hn).imp fun _ _ => trivial

/-- A number of elements. -/
theorem reports_count (guarded : Bool) (what : CountKind) : (count guarded what).Reports size fun _ => True := by
  refine reports_u32.bind fun n _ => reports_remaining.bind fun left _ => ?_
  split
  · exact reports_position fun here hhere => reports_malformed hhere
  · exact reports_pure trivial

/-- Elements in order report as each of them does. -/
theorem reports_repeatOnto {one : Reader α} (hone : one.Reports size P) (n : Nat) (done : List α) :
    (repeatOnto one done n).Reports size fun _ => True := by
  induction n generalizing done with
  | zero => exact reports_pure trivial
  | succ n ih => exact hone.bind fun a _ => ih (a :: done)

/-- A given number of elements in order. -/
theorem reports_times {one : Reader α} (hone : one.Reports size P) (n : Nat) :
    (times one n).Reports size fun _ => True := reports_repeatOnto hone n []

/-- Reading some bytes from a place in them gives a result or reports a place in them. -/
theorem Reports.decodeAt {r : Reader α} {b : Bytes} {offset : Int} (hr : r.Reports b.length P) (hoffset : 0 ≤ offset)
    (hle : offset ≤ b.length) :
    (∃ a n, r.decodeAt b offset = .ok (a, n)) ∨
      ∃ fault, r.decodeAt b offset = .error fault ∧ fault.Placed b.length := by
  have hwithin : (Cursor.ofBytes b offset).Within b.length := ⟨⟨hoffset, hle⟩, by simp [Cursor.ofBytes]⟩
  rcases h : r.outcome (Cursor.ofBytes b offset) with ⟨fault | a, c⟩
  · exact .inr ⟨fault, by rw [Reader.decodeAt, show r.run _ = _ from h], hr.failure hwithin h⟩
  · exact .inl ⟨a, c.position - offset, by rw [Reader.decodeAt, show r.run _ = _ from h]⟩

end Reader

end StacksWallet
