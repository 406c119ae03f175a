import StacksWallet.Proofs.Wire.Primitive

/-!
# The progress of a cursor

Reads follow each other over one buffer, and a read that fails does not end the run: the next one goes on from where it
stopped. Whatever is asked for, be it negative or more than there is, the cursor goes forward and stays within the
buffer. A read gives what the bytes spell that it has passed. If it fails, it has passed none, or the length that stands
in front of the bytes and nothing behind it.

All reads have one law. A length of some bytes comes first, or of none at all, and then as many bytes as are asked for.
The law says where the cursor stands if the one or the other are missing. It is proved for each read from the reads that
it is made of, and a run follows it step by step.
-/

namespace StacksWallet

/-- The bytes from one position to another. -/
def Bytes.between (b : Bytes) (first last : Int) : Bytes := (b.drop first.toNat).take (last - first).toNat

namespace Cursor

/-- No bytes further is the same place. -/
@[simp] theorem advance_zero (c : Cursor) : c.advance 0 = c := by
  simp [advance]

/-- Some bytes further and then some more. -/
@[simp] theorem advance_advance (c : Cursor) (m n : Nat) : (c.advance m).advance n = c.advance (m + n) := by
  simp [advance, Int.add_assoc]

/-- Going further leaves so many bytes less. -/
@[simp] theorem remaining_advance (c : Cursor) (n : Nat) : (c.advance n).remaining = c.remaining - n := by
  simp only [advance, remaining]
  omega

/-- As many bytes further as are left, the cursor is still in the buffer or at its end. -/
theorem Inside.advance {c : Cursor} (hc : c.Inside) {n : Nat} (hn : n ≤ c.remaining) : (c.advance n).Inside := by
  have h₀ := hc.nonneg
  rw [remaining] at hn
  exact ⟨by simp only [Cursor.advance]; omega, by simp only [Cursor.advance]; omega⟩

end Cursor

namespace Reader

section Law

variable {α β : Type} {lead : Nat} {wanted : Bytes → Int} {meaning : Bytes → α}

/-- How a read ends, with the cursor that it leaves, if it takes a length of `lead` bytes, then as many bytes as are
wanted after that, and means something by these. -/
inductive Ends (lead : Nat) (wanted : Bytes → Int) (meaning : Bytes → α) (c : Cursor) :
    Except Fault α × Cursor → Prop where
  /-- There are too few bytes for the length. -/
  | truncated (fault : Fault) (hlead : c.remaining < lead) : Ends lead wanted meaning c (.error fault, c)
  /-- There are too few bytes behind the length. -/
  | refused (fault : Fault) (hlead : lead ≤ c.remaining)
      (hwanted : wanted (c.rest.take lead) < 0 ∨ c.remaining - lead < wanted (c.rest.take lead)) :
      Ends lead wanted meaning c (.error fault, c.advance lead)
  /-- The bytes are there. -/
  | given (hlead : lead ≤ c.remaining) (hnonneg : 0 ≤ wanted (c.rest.take lead))
      (hwanted : wanted (c.rest.take lead) ≤ c.remaining - lead) :
      Ends lead wanted meaning c (.ok (meaning ((c.rest.drop lead).take (wanted (c.rest.take lead)).toNat)),
        c.advance (lead + (wanted (c.rest.take lead)).toNat))

/-- However a read ends, it has passed some of the bytes that were left. -/
theorem Ends.exists_advance {c : Cursor} (hc : c.Inside) {result : Except Fault α × Cursor}
    (h : Ends lead wanted meaning c result) : ∃ n : Nat, n ≤ c.remaining ∧ result.2 = c.advance n := by
  have hremaining : 0 ≤ c.remaining := hc.length_rest ▸ Int.natCast_nonneg _
  cases h with
  | truncated fault hlead => exact ⟨0, by omega, c.advance_zero.symm⟩
  | refused fault hlead hwanted => exact ⟨lead, hlead, rfl⟩
  | given hlead hnonneg hwanted => exact ⟨_, by omega, rfl⟩

/-- Without a length, the cursor stays if there are too few bytes. -/
theorem Ends.unmoved {c : Cursor} (hc : c.Inside) (fault : Fault) (h : wanted [] < 0 ∨ c.remaining < wanted []) :
    Ends 0 wanted meaning c (.error fault, c) := by
  have hlead : ((0 : Nat) : Int) ≤ c.remaining := hc.length_rest ▸ Int.natCast_nonneg _
  have hend : Ends 0 wanted meaning c (.error fault, c.advance 0) :=
    .refused fault hlead (by rwa [List.take_zero, Int.natCast_zero, Int.sub_zero])
  rwa [Cursor.advance_zero] at hend

/-- Without a length, the bytes are given from where the cursor stands. -/
theorem Ends.taken {c : Cursor} (hnonneg : 0 ≤ wanted []) (hwanted : wanted [] ≤ c.remaining) :
    Ends 0 wanted meaning c (.ok (meaning (c.rest.take (wanted []).toNat)), c.advance (wanted []).toNat) := by
  have hend : Ends 0 wanted meaning c (.ok (meaning ((c.rest.drop 0).take (wanted []).toNat)),
      c.advance (0 + (wanted []).toNat)) :=
    .given (by omega) hnonneg (by rwa [List.take_zero, Int.natCast_zero, Int.sub_zero])
  rwa [List.drop_zero, Nat.zero_add] at hend

/-- Within a buffer the reader ends as the law says. -/
def Serves (r : Reader α) (lead : Nat) (wanted : Bytes → Int) (meaning : Bytes → α) : Prop :=
  ∀ c : Cursor, c.Inside → Ends lead wanted meaning c (r.outcome c)

/-- Raw bytes of a given number, behind no length. -/
theorem serves_take (n : Int) : (take n).Serves 0 (fun _ => n) id := by
  intro c hc
  by_cases hshort : n < 0 ∨ c.remaining < n
  · rw [outcome_take_eq, if_pos (by simpa using hshort)]
    exact .unmoved hc _ hshort
  · rw [not_or, not_lt, not_lt] at hshort
    obtain ⟨hn, hle⟩ := hshort
    rw [(outcome_take hc).mpr ⟨hn, hle, rfl, rfl⟩]
    exact .taken hn hle

/-- What is made of the bytes, if it can be made of as many as are wanted. -/
theorem Serves.bind_pure {r : Reader α} (hr : r.Serves lead wanted meaning) {f : α → Reader β} {make : Bytes → β}
    (hf : ∀ front b : Bytes, (b.length : Int) = wanted front → f (meaning b) = pure (make b)) :
    (r >>= f).Serves lead wanted make := by
  intro c hc
  have hend := hr c hc
  have hlength := hc.length_rest
  rw [outcome_bind]
  generalize r.outcome c = result at hend ⊢
  cases hend with
  | truncated fault hlead => exact .truncated fault hlead
  | refused fault hlead hwanted => exact .refused fault hlead hwanted
  | given hlead hnonneg hwanted =>
    dsimp only
    rw [hf (c.rest.take lead) _ (by rw [List.length_take, List.length_drop]; omega), outcome_pure]
    exact .given hlead hnonneg hwanted

/-- A reader that looks at the position only to report it. -/
theorem serves_position {f : Int → Reader α} (hf : ∀ start, (f start).Serves lead wanted meaning) :
    (position >>= f).Serves lead wanted meaning := by
  intro c hc
  rw [outcome_bind]
  exact hf c.position c hc

/-- Behind a number of some bytes, as many bytes as the number says. -/
theorem serves_prefixed {width : Nat} {count : Reader Nat} (hcount : count.Serves 0 (fun _ => width) Bytes.toNat)
    {f : Nat → Reader α} (hf : ∀ n : Nat, (f n).Serves 0 (fun _ => n) meaning) :
    (count >>= f).Serves width (fun front => front.toNat) meaning := by
  intro c hc
  have hend := hcount c hc
  have hlength := hc.length_rest
  rw [outcome_bind]
  generalize count.outcome c = result at hend ⊢
  cases hend with
  | truncated fault hlead => omega
  | refused fault hlead hwanted =>
    rw [Cursor.advance_zero]
    exact .truncated fault (by omega)
  | given hlead hnonneg hwanted =>
    have hwidth : width ≤ c.remaining := by omega
    have hinside := hc.advance hwidth
    simp only [Int.toNat_natCast, Nat.zero_add, List.drop_zero]
    have hbody := hf (Bytes.toNat (c.rest.take width)) _ hinside
    generalize (f (Bytes.toNat (c.rest.take width))).outcome (c.advance width) = result at hbody ⊢
    cases hbody with
    | truncated fault hlead =>
      have hleft := hinside.length_rest
      omega
    | refused fault hlead hbeyond =>
      rw [Cursor.remaining_advance] at hbeyond
      rw [Cursor.advance_zero]
      exact .refused fault hwidth (by simpa using hbeyond)
    | given hlead hnonneg hfits =>
      rw [Cursor.remaining_advance] at hfits
      rw [Cursor.advance_advance, Cursor.rest_advance hc, Nat.zero_add, List.drop_zero]
      exact .given hwidth hnonneg (by simpa using hfits)

/-- A byte, as a number. -/
theorem serves_u8 : u8.Serves 0 (fun _ => 1) Bytes.toNat := by
  refine (serves_take 1).bind_pure fun _ b hb => ?_
  obtain ⟨x, rfl⟩ := List.length_eq_one_iff.mp (Int.ofNat_inj.mp hb)
  simp [Bytes.toNat]

/-- A number of a fixed width. -/
theorem serves_word (width : Nat) : (word width).Serves 0 (fun _ => width) Bytes.toNat := by
  refine (serves_take width).bind_pure fun _ b hb => ?_
  exact if_pos (Int.ofNat_inj.mp hb)

/-- A number of sixteen bytes. -/
theorem serves_u128 : u128.Serves 0 (fun _ => 16) Bytes.toNat := (serves_take 16).bind_pure fun _ _ _ => rfl

/-- A signed number of sixteen bytes. -/
theorem serves_i128 : i128.Serves 0 (fun _ => 16) Bytes.toInt := (serves_take 16).bind_pure fun _ _ _ => rfl

/-- Bytes after their length in one byte. -/
theorem serves_shortBytes : shortBytes.Serves 1 (fun front => front.toNat) id :=
  serves_prefixed serves_u8 fun n => serves_take n

/-- Bytes after their length in four bytes. A length that is too large is reported before any byte is taken. -/
theorem serves_longBytes : longBytes.Serves 4 (fun front => front.toNat) id := by
  refine serves_position fun start => serves_prefixed (serves_word 4) fun n c hc => ?_
  have hleft : (remaining >>= fun left =>
      if left < n then malformed start (.lengthBeyondEnd n left) else take n : Reader Bytes).outcome c =
        if c.remaining < n then (.error (.malformed (some start) (.lengthBeyondEnd n c.remaining)), c)
        else (take n).outcome c := by
    rw [outcome_bind]
    change (if c.remaining < n then _ else _ : Reader Bytes).outcome c = _
    split <;> rfl
  rw [hleft]
  split
  · rename_i hbeyond
    exact .unmoved hc _ (.inr hbeyond)
  · exact serves_take n c hc

end Law

/-- A read of the wire format. -/
inductive Primitive where
  /-- So many bytes. -/
  | raw (n : Int)
  /-- A number of one byte. -/
  | u8
  /-- A number of four bytes. -/
  | u32
  /-- A number of eight bytes. -/
  | u64
  /-- A number of sixteen bytes. -/
  | u128
  /-- A signed number of sixteen bytes. -/
  | i128
  /-- Bytes after their length in one byte. -/
  | shortBytes
  /-- Bytes after their length in four bytes. -/
  | longBytes
deriving DecidableEq

/-- What a read gives. -/
inductive Item where
  /-- Bytes as they are. -/
  | bytes (b : Bytes)
  /-- The number that they spell. -/
  | number (n : Int)
deriving DecidableEq

namespace Primitive

/-- The reader. -/
def reader : Primitive → Reader Item
  | raw n => return .bytes (← take n)
  | u8 => return .number (← Reader.u8)
  | u32 => return .number (← Reader.u32)
  | u64 => return .number (← Reader.u64)
  | u128 => return .number (← Reader.u128)
  | i128 => return .number (← Reader.i128)
  | shortBytes => return .bytes (← Reader.shortBytes)
  | longBytes => return .bytes (← Reader.longBytes)

/-- The number of bytes in which the length stands, if one does. -/
def lead : Primitive → Nat
  | shortBytes => 1
  | longBytes => 4
  | _ => 0

/-- The number of bytes that are asked for, behind the bytes of the length. -/
def wanted : Primitive → Bytes → Int
  | raw n, _ => n
  | u8, _ => 1
  | u32, _ => 4
  | u64, _ => 8
  | u128, _ | i128, _ => 16
  | shortBytes, front | longBytes, front => front.toNat

/-- What is given for the bytes. -/
def meaning : Primitive → Bytes → Item
  | raw _, b | shortBytes, b | longBytes, b => .bytes b
  | i128, b => .number b.toInt
  | _, b => .number b.toNat

/-- Each read follows the law. -/
theorem serves (p : Primitive) : p.reader.Serves p.lead p.wanted p.meaning := by
  cases p with
  | raw n => exact (serves_take n).bind_pure fun _ _ _ => rfl
  | u8 => exact serves_u8.bind_pure fun _ _ _ => rfl
  | u32 => exact (serves_word 4).bind_pure fun _ _ _ => rfl
  | u64 => exact (serves_word 8).bind_pure fun _ _ _ => rfl
  | u128 => exact serves_u128.bind_pure fun _ _ _ => rfl
  | i128 => exact serves_i128.bind_pure fun _ _ _ => rfl
  | shortBytes => exact serves_shortBytes.bind_pure fun _ _ _ => rfl
  | longBytes => exact serves_longBytes.bind_pure fun _ _ _ => rfl

end Primitive

/-- A read in the course of a run. -/
structure Event where
  /-- What is read. -/
  primitive : Primitive
  /-- Where the read begins. -/
  before : Cursor
  /-- What it gives, or why it fails. -/
  result : Except Fault Item
  /-- Where it stops. -/
  after : Cursor

/-- The reads of a run. Each begins where the one before it stopped, whether that one succeeded or not. -/
def history : Cursor → List Primitive → List Event
  | _, [] => []
  | c, p :: ps =>
    let (result, after) := p.reader.outcome c
    ⟨p, c, result, after⟩ :: history after ps

/-- The cursors of a run, from the first one on. -/
def trail (c : Cursor) (ps : List Primitive) : List Cursor := c :: (history c ps).map (·.after)

/-- What a read over some bytes does. -/
structure Event.Exact (buffer : Bytes) (e : Event) : Prop where
  /-- It succeeds if the length is there, and behind it the bytes that are asked for. -/
  succeeds_iff : (∃ item, e.result = .ok item) ↔
    e.primitive.lead ≤ e.before.remaining ∧
      0 ≤ e.primitive.wanted (buffer.between e.before.position (e.before.position + e.primitive.lead)) ∧
        e.primitive.wanted (buffer.between e.before.position (e.before.position + e.primitive.lead)) ≤
          e.before.remaining - e.primitive.lead
  /-- What it gives is spelled by the bytes from behind the length to the new position, which are as many as were asked
  for. -/
  success : ∀ item, e.result = .ok item →
    item = e.primitive.meaning (buffer.between (e.before.position + e.primitive.lead) e.after.position) ∧
      e.after.position = e.before.position + e.primitive.lead +
        e.primitive.wanted (buffer.between e.before.position (e.before.position + e.primitive.lead))
  /-- If it fails and no length is read, the cursor stays. -/
  fixed_failure : e.primitive.lead = 0 → ∀ fault, e.result = .error fault → e.after = e.before
  /-- If it fails and a length is read, the cursor stays if the length is cut short, and stands behind the length
  otherwise. -/
  prefixed_failure : ∀ fault, e.result = .error fault →
    (e.before.remaining < e.primitive.lead ∧ e.after = e.before) ∨
      (e.primitive.lead ≤ e.before.remaining ∧ e.after = e.before.advance e.primitive.lead)

/-- The cursor stands in some bytes, or at their end. -/
structure Over (buffer : Bytes) (c : Cursor) : Prop where
  inside : c.Inside
  buffer_eq : c.buffer = buffer.toArray

namespace Over

variable {buffer : Bytes} {c : Cursor}

/-- The bytes behind the position are those that the cursor has left. -/
theorem between_eq (h : Over buffer c) (n : Nat) : buffer.between c.position (c.position + n) = c.rest.take n := by
  have hn : (c.position + n - c.position).toNat = n := by omega
  rw [Bytes.between, hn, Cursor.rest, h.buffer_eq]

/-- So are those behind a length. -/
theorem between_advance (h : Over buffer c) (m n : Nat) :
    buffer.between (c.position + m) (c.advance (m + n)).position = (c.rest.drop m).take n := by
  have h₀ := h.inside.nonneg
  have hfirst : (c.position + m).toNat = c.position.toNat + m := by omega
  have hn : (c.position + (m + n : Nat) - (c.position + m)).toNat = n := by omega
  rw [Bytes.between, Cursor.rest, h.buffer_eq, List.drop_drop, hfirst]
  exact congrArg (List.take · _) hn

/-- The cursor accounts for all bytes. -/
theorem position_add_remaining (h : Over buffer c) : c.position + c.remaining = buffer.length := by
  rw [Cursor.remaining, h.buffer_eq, List.size_toArray]
  omega

/-- However a read ends, the cursor has not gone back, and stands in the same bytes. -/
theorem outcome (h : Over buffer c) (p : Primitive) :
    Over buffer (p.reader.outcome c).2 ∧ c.position ≤ (p.reader.outcome c).2.position := by
  obtain ⟨n, hn, hafter⟩ := (p.serves c h.inside).exists_advance h.inside
  rw [hafter]
  exact ⟨⟨h.inside.advance hn, h.buffer_eq⟩, by simp only [Cursor.advance]; omega⟩

/-- A read does what is said of it. -/
theorem exact (h : Over buffer c) (p : Primitive) :
    Event.Exact buffer ⟨p, c, (p.reader.outcome c).1, (p.reader.outcome c).2⟩ := by
  have hend := p.serves c h.inside
  have hfront := h.between_eq p.lead
  generalize p.reader.outcome c = result at hend ⊢
  cases hend with
  | truncated fault hlead =>
    refine ⟨?_, nofun, fun _ _ _ => rfl, fun _ _ => .inl ⟨hlead, rfl⟩⟩
    exact ⟨nofun, fun hfits => absurd hfits.1 (Int.not_le.mpr hlead)⟩
  | refused fault hlead hwanted =>
    refine ⟨?_, nofun, fun hzero _ _ => ?_, fun _ _ => .inr ⟨hlead, rfl⟩⟩
    · rw [hfront]
      refine ⟨nofun, fun hfits => ?_⟩
      obtain ⟨-, hnonneg, hfits⟩ : _ ∧ 0 ≤ p.wanted _ ∧ p.wanted _ ≤ c.remaining - p.lead := hfits
      omega
    · have hstays : c.advance p.lead = c := by rw [hzero, Cursor.advance_zero]
      exact hstays
  | given hlead hnonneg hwanted =>
    refine ⟨?_, fun item hitem => ?_, fun _ fault hfault => ?_, fun fault hfault => ?_⟩
    · rw [hfront]
      exact ⟨fun _ => ⟨hlead, hnonneg, hwanted⟩, fun _ => ⟨_, rfl⟩⟩
    · rw [hfront, h.between_advance]
      refine ⟨(Except.ok.inj hitem).symm, ?_⟩
      simp only [Cursor.advance]
      omega
    · cases hfault
    · cases hfault

/-- The cursors of a run go forward in the same bytes. -/
theorem trail (h : Over buffer c) (ps : List Primitive) :
    (trail c ps).Pairwise (·.position ≤ ·.position) ∧ ∀ d ∈ trail c ps, Over buffer d ∧ c.position ≤ d.position := by
  induction ps generalizing c with
  | nil => exact ⟨List.pairwise_singleton _ _, List.forall_mem_singleton.mpr ⟨h, le_rfl⟩⟩
  | cons p ps ih =>
    obtain ⟨hafter, hle⟩ := h.outcome p
    obtain ⟨hpairs, hall⟩ := ih hafter
    refine ⟨List.pairwise_cons.mpr ⟨fun d hd => hle.trans (hall d hd).2, hpairs⟩, ?_⟩
    exact List.forall_mem_cons.mpr ⟨⟨h, le_rfl⟩, fun d hd => ⟨(hall d hd).1, hle.trans (hall d hd).2⟩⟩

/-- Each read of a run does what is said of it. -/
theorem history (h : Over buffer c) (ps : List Primitive) : ∀ e ∈ history c ps, e.Exact buffer := by
  induction ps generalizing c with
  | nil => exact List.forall_mem_nil _
  | cons p ps ih => exact List.forall_mem_cons.mpr ⟨h.exact p, ih (h.outcome p).1⟩

end Over

/-- A run has one read for each that is asked for, and each begins where the one before it stopped. -/
theorem map_history (c : Cursor) (ps : List Primitive) :
    (history c ps).map (·.primitive) = ps ∧ (history c ps).map (·.before) = (trail c ps).dropLast := by
  induction ps generalizing c with
  | nil => exact ⟨rfl, rfl⟩
  | cons p ps ih =>
    obtain ⟨hprimitives, hbefore⟩ := ih (p.reader.outcome c).2
    exact ⟨congrArg (p :: ·) hprimitives, congrArg (c :: ·) hbefore⟩

/-- From any place in a buffer, any reads are done one after the other, each from where the one before it stopped. The
cursor never goes back and never leaves the buffer, with the bytes before it and those that remain making up the whole.
A read that succeeds gives what the bytes spell that it has passed, behind their length if they have one. A read that
fails has passed nothing, or the length alone. -/
theorem history_exact {buffer : Bytes} {offset : Int} (hnonneg : 0 ≤ offset) (hle : offset ≤ buffer.length)
    (ps : List Primitive) :
    (trail (Cursor.ofBytes buffer offset) ps).Pairwise (·.position ≤ ·.position) ∧
      (∀ c ∈ trail (Cursor.ofBytes buffer offset) ps,
        offset ≤ c.position ∧ c.position ≤ buffer.length ∧ c.position + c.remaining = buffer.length) ∧
      (history (Cursor.ofBytes buffer offset) ps).map (·.primitive) = ps ∧
      (history (Cursor.ofBytes buffer offset) ps).map (·.before) = (trail (Cursor.ofBytes buffer offset) ps).dropLast ∧
      ∀ e ∈ history (Cursor.ofBytes buffer offset) ps, e.Exact buffer := by
  have hover : Over buffer (Cursor.ofBytes buffer offset) := ⟨⟨hnonneg, by simpa [Cursor.ofBytes] using hle⟩, rfl⟩
  obtain ⟨hpairs, hall⟩ := hover.trail ps
  obtain ⟨hprimitives, hbefore⟩ := map_history (Cursor.ofBytes buffer offset) ps
  refine ⟨hpairs, fun c hc => ?_, hprimitives, hbefore, hover.history ps⟩
  obtain ⟨hc, hfrom⟩ := hall c hc
  have hend := hc.inside.le_size
  rw [hc.buffer_eq, List.size_toArray] at hend
  exact ⟨hfrom, hend, hc.position_add_remaining⟩

/-- Short bytes in the middle of a buffer; a length beyond the end; a number of which one byte is there; fewer bytes than
none; and the last byte, behind which a length is cut short. The cursor stands behind the bytes, behind the length, and
there it stays until the byte is read. -/
theorem history_exact_mixed :
    (trail (Cursor.ofBytes [9, 2, 7, 8, 0, 0, 0, 9, 5] 1)
        [.shortBytes, .longBytes, .u32, .raw (-1), .u8, .shortBytes]).map (·.position) = [1, 4, 8, 8, 8, 9, 9] ∧
      (history (Cursor.ofBytes [9, 2, 7, 8, 0, 0, 0, 9, 5] 1)
        [.shortBytes, .longBytes, .u32, .raw (-1), .u8, .shortBytes]).filterMap (·.result.toOption) =
          [.bytes [7, 8], .number 5] ∧
      ∀ e ∈ history (Cursor.ofBytes [9, 2, 7, 8, 0, 0, 0, 9, 5] 1)
        [.shortBytes, .longBytes, .u32, .raw (-1), .u8, .shortBytes], e.Exact [9, 2, 7, 8, 0, 0, 0, 9, 5] := by
  have hoffset : (1 : Int) ≤ ([9, 2, 7, 8, 0, 0, 0, 9, 5] : Bytes).length := by decide
  have hexact := history_exact (by decide) hoffset [.shortBytes, .longBytes, .u32, .raw (-1), .u8, .shortBytes]
  exact ⟨by decide +kernel, by decide +kernel, hexact.2.2.2.2⟩

end Reader

end StacksWallet
