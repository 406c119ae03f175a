import StacksWallet.Proofs.Wire.Place
import StacksWallet.Proofs.Wire.Report

/-!
# Reading onward

A reader goes forward. What stands before its position has no part in what it reads, nor in what it reports: over two
buffers of one size that agree from there on, it gives the same result or the same fault. The laws here follow the
steps of a reader one by one, as they do for reports.

All of this is about positions that are not negative. A negative position counts from the end of the buffer, where the
bytes that are left are still counted from its beginning. A slice over the end then has fewer bytes than were asked
for, and for a byte it may have none.
-/

namespace StacksWallet

/-- The cursors stand at one place in buffers of one size that agree from there on. -/
structure Cursor.SameAhead (c d : Cursor) : Prop where
  nonneg : 0 ≤ c.position
  position_eq : c.position = d.position
  size_eq : c.buffer.size = d.buffer.size
  rest_eq : c.rest = d.rest

namespace Cursor

/-- As many bytes are left for both cursors. -/
theorem SameAhead.remaining_eq {c d : Cursor} (h : c.SameAhead d) : c.remaining = d.remaining := by
  rw [remaining, remaining, h.position_eq, h.size_eq]

/-- Some bytes further, the buffers still agree. -/
theorem SameAhead.advance {c d : Cursor} (h : c.SameAhead d) (hc : c.Inside) (n : Nat) :
    (c.advance n).SameAhead (d.advance n) := by
  have hd : d.Inside := ⟨h.position_eq ▸ hc.nonneg, h.position_eq ▸ h.size_eq ▸ hc.le_size⟩
  refine ⟨?_, congrArg (· + (n : Int)) h.position_eq, h.size_eq, ?_⟩
  · exact Int.add_nonneg hc.nonneg (Int.natCast_nonneg n)
  · rw [rest_advance hc, rest_advance hd, h.rest_eq]

end Cursor

namespace Reader

variable {α β : Type}

/-- What stands before the position has no part in what the reader does. -/
def Onward (r : Reader α) : Prop :=
  ∀ ⦃c d : Cursor⦄, c.SameAhead d →
    (r.outcome c).1 = (r.outcome d).1 ∧ (r.outcome c).2.SameAhead (r.outcome d).2

/-- A reader that makes its result from nothing. -/
theorem onward_pure (a : α) : (pure a : Reader α).Onward := fun _ _ h => ⟨rfl, h⟩

/-- A reader that fails in any case. -/
theorem onward_throw (fault : Fault) : (throw fault : Reader α).Onward := fun _ _ h => ⟨rfl, h⟩

/-- A reader that refuses the bytes. -/
theorem onward_malformed (offset : Int) (flaw : WireFlaw) : (malformed offset flaw : Reader α).Onward :=
  onward_throw _

/-- Readers in sequence. -/
theorem Onward.bind {r : Reader α} {f : α → Reader β} (hr : r.Onward) (hf : ∀ a, (f a).Onward) :
    (r >>= f).Onward := by
  intro c d h
  obtain ⟨hresult, hafter⟩ := hr h
  rw [outcome_bind, outcome_bind]
  rcases hc : r.outcome c with ⟨x, c'⟩
  rcases hd : r.outcome d with ⟨y, d'⟩
  rw [hc, hd] at hresult hafter
  dsimp only at hresult
  obtain rfl := hresult
  cases x with
  | error fault => exact ⟨rfl, hafter⟩
  | ok a => exact hf a hafter

/-- What is made of a result. -/
theorem Onward.map {r : Reader α} (hr : r.Onward) (make : α → β) : (do return make (← r) : Reader β).Onward :=
  hr.bind fun _ => onward_pure _

/-- The position is the same. -/
theorem onward_position : position.Onward := fun _ _ h => ⟨congrArg Except.ok h.position_eq, h⟩

/-- The number of bytes that are left is the same. -/
theorem onward_remaining : remaining.Onward := fun _ _ h => ⟨congrArg Except.ok h.remaining_eq, h⟩

/-- Raw bytes are taken from what lies ahead. -/
theorem onward_take (n : Int) : (take n).Onward := by
  intro c d h
  by_cases hshort : n < 0 ∨ c.remaining < n
  · rw [outcome_take_eq, outcome_take_eq, ← h.remaining_eq, if_pos (by simpa using hshort), h.position_eq,
      if_pos (by simpa using hshort)]
    exact ⟨rfl, h⟩
  · rw [not_or, not_lt, not_lt] at hshort
    obtain ⟨hn, hle⟩ := hshort
    have hc : c.Inside := ⟨h.nonneg, by rw [Cursor.remaining] at hle; omega⟩
    have hd : d.Inside := ⟨h.position_eq ▸ hc.nonneg, h.position_eq ▸ h.size_eq ▸ hc.le_size⟩
    have hctake := (outcome_take hc).mpr ⟨hn, hle, rfl, rfl⟩
    have hdtake := (outcome_take hd).mpr ⟨hn, h.remaining_eq ▸ hle, rfl, rfl⟩
    rw [hctake, hdtake]
    exact ⟨congrArg Except.ok (h.rest_eq ▸ rfl), h.advance hc _⟩

/-- A byte, as a number. -/
theorem onward_u8 : u8.Onward := by
  refine (onward_take 1).bind fun b => ?_
  cases b with
  | nil => exact onward_throw _
  | cons x b => exact onward_pure _

/-- A number of a fixed width. -/
theorem onward_word (width : Nat) : (word width).Onward := by
  refine (onward_take width).bind fun b => ?_
  split
  · exact onward_pure _
  · exact onward_throw _

/-- A number of four bytes. -/
theorem onward_u32 : u32.Onward := onward_word 4

/-- A number of eight bytes. -/
theorem onward_u64 : u64.Onward := onward_word 8

/-- A number of sixteen bytes. -/
theorem onward_u128 : u128.Onward := (onward_take 16).map Bytes.toNat

/-- A signed number of sixteen bytes. -/
theorem onward_i128 : i128.Onward := (onward_take 16).map Bytes.toInt

/-- Bytes after their length in one byte. -/
theorem onward_shortBytes : shortBytes.Onward := onward_u8.bind fun n => onward_take n

/-- Bytes after their length in four bytes. -/
theorem onward_longBytes : longBytes.Onward := by
  refine onward_position.bind fun start => onward_u32.bind fun n => onward_remaining.bind fun left => ?_
  split
  · exact onward_malformed _ _
  · exact onward_take n

/-- A number of elements. -/
theorem onward_count (guarded : Bool) (what : CountKind) : (count guarded what).Onward := by
  refine onward_u32.bind fun n => onward_remaining.bind fun left => ?_
  split
  · exact onward_position.bind fun here => onward_malformed _ _
  · exact onward_pure n

/-- Elements in order. -/
theorem onward_repeatOnto {one : Reader α} (hone : one.Onward) (n : Nat) (done : List α) :
    (repeatOnto one done n).Onward := by
  induction n generalizing done with
  | zero => exact onward_pure _
  | succ n ih => exact hone.bind fun a => ih (a :: done)

/-- A given number of elements in order. -/
theorem onward_times {one : Reader α} (hone : one.Onward) (n : Nat) : (times one n).Onward :=
  onward_repeatOnto hone n []

/-- A part that must be found among those that can be made. -/
theorem onward_require {ε : Type} (offset : Int) (wire : ε → WireFlaw) (x : Except ε α) :
    (require offset wire x).Onward := by
  cases x with
  | ok a => exact onward_pure a
  | error flaw => exact onward_malformed _ _

/-- What follows a guard. -/
theorem onward_guard {p : Prop} [Decidable p] {offset : Int} {flaw : WireFlaw} {f : Unit → Reader α}
    (hf : (f ()).Onward) : (if p then malformed offset flaw >>= f else f ()).Onward := by
  split
  · exact (onward_malformed _ _).bind fun _ => hf
  · exact hf

/-- Bytes that agree from an offset on are read alike there. -/
theorem Onward.decodeAt_eq {r : Reader α} (hr : r.Onward) {b b' : Bytes} {offset : Nat}
    (hlength : b.length = b'.length) (hdrop : b.drop offset = b'.drop offset) :
    r.decodeAt b offset = r.decodeAt b' offset := by
  have hahead : (Cursor.ofBytes b offset).SameAhead (Cursor.ofBytes b' offset) :=
    ⟨Int.natCast_nonneg _, rfl, hlength, hdrop⟩
  obtain ⟨hresult, hafter⟩ := hr hahead
  rcases hc : r.outcome (Cursor.ofBytes b offset) with ⟨x, c⟩
  rcases hd : r.outcome (Cursor.ofBytes b' offset) with ⟨y, d⟩
  rw [hc, hd] at hresult hafter
  dsimp only at hresult
  obtain rfl := hresult
  rw [decodeAt, decodeAt, show r.run _ = _ from hc, show r.run _ = _ from hd]
  cases x with
  | error fault => rfl
  | ok a => exact congrArg (fun n => Except.ok (a, n - (offset : Int))) hafter.position_eq

/-- A reader that begins with a byte fails as the byte does. -/
theorem decodeAt_tagged_of_error (f : Int → Nat → Reader α) {b : Bytes} {offset : Int} {fault : Fault} {c : Cursor}
    (h : u8.outcome (Cursor.ofBytes b offset) = (.error fault, c)) :
    (position >>= fun start => u8 >>= f start).decodeAt b offset = .error fault := by
  have houtcome : (position >>= fun start => u8 >>= f start).outcome (Cursor.ofBytes b offset) = (.error fault, c) := by
    rw [outcome_bind]
    exact outcome_bind_eq_error.mpr (.inl h)
  rw [decodeAt, show (position >>= fun start => u8 >>= f start).run _ = _ from houtcome]

/-- Behind the end there is no byte. The report shows how many bytes are left, a negative number, if that number can
be shown. -/
theorem decodeAt_tagged_beyond (f : Int → Nat → Reader α) {b : Bytes} {offset : Int} (h : b.length < offset) :
    (position >>= fun start => u8 >>= f start).decodeAt b offset =
      .error (.showing (.integer (b.length - offset))
        (.malformed (some offset) (.truncated 1 (b.length - offset)))) := by
  have hremaining : (Cursor.ofBytes b offset).remaining = b.length - offset := by
    simp [Cursor.remaining, Cursor.ofBytes]
  have htake : (take 1).outcome (Cursor.ofBytes b offset) = (.error (.showing (.integer (b.length - offset))
      (.malformed (some offset) (.truncated 1 (b.length - offset)))), Cursor.ofBytes b offset) := by
    rw [outcome_take_eq, hremaining, if_pos (by simp; omega), Fault.showing, if_pos (isShowable_of_lt (by decide))]
    rfl
  exact decodeAt_tagged_of_error f (outcome_bind_eq_error.mpr (.inl htake))

/-- Right before the beginning, and further before it than the buffer is long, a slice for one byte is empty although
enough bytes are counted. -/
theorem decodeAt_tagged_wrapped (f : Int → Nat → Reader α) {b : Bytes} {offset : Int}
    (h : offset = -1 ∨ offset + b.length < 0) :
    (position >>= fun start => u8 >>= f start).decodeAt b offset = .error .emptyRead := by
  have hsize : (Cursor.ofBytes b offset).buffer.size = b.length := by simp [Cursor.ofBytes]
  have hempty : (Cursor.ofBytes b offset).slice offset (offset + 1) = [] := by
    have hlast : (Cursor.ofBytes b offset).index (offset + 1) = 0 := by
      rw [Cursor.index, hsize]
      split <;> omega
    rw [Cursor.slice, hlast, Array.extract_empty_of_stop_le_start (Nat.zero_le _), Array.toList_empty]
  have htake : (take 1).outcome (Cursor.ofBytes b offset) =
      (.ok [], { Cursor.ofBytes b offset with position := offset + 1 }) := by
    rw [outcome_take_eq, if_neg]
    · exact Prod.ext (congrArg Except.ok hempty) rfl
    · rw [Cursor.remaining, hsize, Bool.or_eq_true, decide_eq_true_eq, decide_eq_true_eq]
      simp only [Cursor.ofBytes]
      omega
  refine decodeAt_tagged_of_error f (outcome_bind_eq_error.mpr (.inr ⟨[], _, htake, rfl⟩))

/-- What a decoder does at an offset in some bytes. -/
structure Confined (decode : Bytes → Int → Except Fault (α × Int)) (encode : α → Except Fault Bytes) (b : Bytes)
    (offset : Int) : Prop where
  /-- A result comes from the bytes that are consumed: they stand at the offset, the result is written as them, and it
  is read from them wherever they stand. -/
  success : 0 ≤ offset → ∀ (a : α) (n : Int), decode b offset = .ok (a, n) →
    0 ≤ n ∧ offset + n ≤ b.length ∧ encode a = .ok ((b.drop offset.toNat).take n.toNat) ∧ ∀ before after : Bytes,
      decode (before ++ (b.drop offset.toNat).take n.toNat ++ after) before.length = .ok (a, n)
  /-- Anything else is malformed at a place in the bytes, at their end, or at the offset behind it. -/
  failure : 0 ≤ offset → offset < b.length + (10 ^ maxNumeralDigits : Nat) → ∀ fault : Fault,
    decode b offset = .error fault → ∃ (place : Int) (flaw : WireFlaw), fault = .malformed (some place) flaw ∧
      0 ≤ place ∧ place ≤ max (b.length : Int) offset
  /-- From too far behind the end, the number of bytes that are missing cannot be shown. -/
  unshowable : b.length + (10 ^ maxNumeralDigits : Nat) ≤ offset → decode b offset = .error (.argument .unshowable)
  /-- The bytes before the offset have no part in the outcome. -/
  onward : 0 ≤ offset → ∀ b' : Bytes, b'.length = b.length → b'.drop offset.toNat = b.drop offset.toNat →
    decode b' offset = decode b offset
  /-- Before the beginning there may be no byte where one is counted. -/
  wrapped : offset = -1 ∨ offset + b.length < 0 → decode b offset = .error .emptyRead

/-- A reader is confined if it begins with a byte, goes onward, reports places, and reads what is written. -/
theorem confined {r : Reader α} {P : α → Prop} {encode : α → Except Fault Bytes} {f : Int → Nat → Reader α}
    (htagged : r = (position >>= fun start => u8 >>= f start)) (hreads : r.Reads (.encoded P encode))
    (hreports : ∀ size, r.Reports size fun _ => True) (honward : r.Onward) (b : Bytes) (offset : Int) :
    Confined r.decodeAt encode b offset := by
  have hneeds : r.NeedsByte := htagged ▸ needsByte_tagged f
  constructor
  case success =>
    intro hoffset a n h
    obtain ⟨offset, rfl⟩ := Int.eq_ofNat_of_zero_le hoffset
    obtain ⟨ha, hn, hle, hencode⟩ := hreads.encoded_decodeAt hneeds h
    refine ⟨hn, hle, hencode, fun before after => ?_⟩
    have hlength : (((b.drop offset).take n.toNat).length : Int) = n := by
      rw [List.length_take, List.length_drop]
      omega
    have hplaced := hreads.decodeAt_encoded ha hencode before after
    rwa [hlength] at hplaced
  case failure =>
    intro hoffset hshown fault h
    by_cases hle : offset ≤ b.length
    · rcases (hreports b.length).decodeAt hoffset hle with ⟨a, n, hok⟩ | ⟨_, herror, place, flaw, rfl, hplace⟩
      · cases hok.symm.trans h
      · obtain rfl := Except.error.inj (herror.symm.trans h)
        exact ⟨place, flaw, rfl, hplace.1, by omega⟩
    · have hbeyond : (b.length : Int) < offset := Int.not_le.mp hle
      have hshowable : (Datum.integer (b.length - offset)).isShowable = true := by
        rw [isShowable_integer_iff]
        omega
      rw [htagged, decodeAt_tagged_beyond f hbeyond, Fault.showing, if_pos hshowable] at h
      exact ⟨offset, _, (Except.error.inj h).symm, hoffset, by omega⟩
  case unshowable =>
    intro hfar
    have hpositive : 0 < 10 ^ maxNumeralDigits := Nat.pow_pos (by decide)
    have hbeyond : (b.length : Int) < offset := by omega
    have hshowable : ¬ (Datum.integer (b.length - offset)).isShowable = true := by
      rw [isShowable_integer_iff]
      omega
    rw [htagged, decodeAt_tagged_beyond f hbeyond, Fault.showing, if_neg hshowable]
  case onward =>
    intro hoffset b' hlength hdrop
    obtain ⟨offset, rfl⟩ := Int.eq_ofNat_of_zero_le hoffset
    exact honward.decodeAt_eq hlength hdrop
  case wrapped =>
    intro h
    rw [htagged]
    exact decodeAt_tagged_wrapped f h

end Reader

end StacksWallet
