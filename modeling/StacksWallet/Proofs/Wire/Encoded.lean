import StacksWallet.Proofs.Outcome
import StacksWallet.Proofs.Wire.Primitive
import StacksWallet.Wire.Writer

/-!
# Reading what is written

Writers may fail, and then there is nothing to read. A reader and a writer belong together if the reader
accepts exactly the bytes that the writer gives, for the results of a kind. Tags and counts keep them together.
-/

namespace StacksWallet

namespace Spelling

variable {α : Type}

/-- Results that are written, among those of a kind. -/
def encoded (P : α → Prop) (encode : α → Except Fault Bytes) : Spelling α := fun a b _ => P a ∧ encode a = .ok b

/-- Elements are written one after the other by a writer that goes through them. -/
theorem each_encoded {P : α → Prop} {encode : α → Except Fault Bytes} {encodeAll : List α → Except Fault Bytes}
    (hnil : encodeAll [] = .ok [])
    (hcons : ∀ a as, encodeAll (a :: as) = do let b ← encode a; return b ++ (← encodeAll as)) {as : List α}
    {b after : Bytes} :
    (encoded P encode).each as b after ↔ (∀ a ∈ as, P a) ∧ encodeAll as = .ok b := by
  induction as generalizing b with
  | nil => simp [each, hnil, eq_comm]
  | cons a as ih =>
    simp only [each, encoded, ih, List.forall_mem_cons, hcons, Outcome.bind_eq_ok]
    constructor
    · intro h
      obtain ⟨b₁, b₂, rfl, ⟨ha, hb₁⟩, has, hb₂⟩ := h
      exact ⟨⟨ha, has⟩, b₁, hb₁, b₂, hb₂, rfl⟩
    · intro h
      obtain ⟨⟨ha, has⟩, b₁, hb₁, b₂, hb₂, hb⟩ := h
      exact ⟨b₁, b₂, (Except.ok.inj hb).symm, ⟨ha, hb₁⟩, has, hb₂⟩

/-- Elements that are written as others are stand for the same bytes. -/
theorem encodeAll_map (encode : α → Except Fault Bytes) (encodeAll : List α → Except Fault Bytes) {f : α → α}
    (hnil : encodeAll [] = .ok [])
    (hcons : ∀ a as, encodeAll (a :: as) = do let b ← encode a; return b ++ (← encodeAll as)) {as : List α}
    (h : ∀ a ∈ as, encode (f a) = encode a) : encodeAll (as.map f) = encodeAll as := by
  induction as with
  | nil => rw [List.map_nil, hnil]
  | cons a as ih =>
    rw [List.forall_mem_cons] at h
    rw [List.map_cons, hcons, hcons, h.1, ih h.2]

/-- Elements can be written one after the other if each of them can. -/
theorem exists_encodeAll_iff (encode : α → Except Fault Bytes) (encodeAll : List α → Except Fault Bytes)
    (hnil : encodeAll [] = .ok [])
    (hcons : ∀ a as, encodeAll (a :: as) = do let b ← encode a; return b ++ (← encodeAll as)) {as : List α} :
    (∃ b, encodeAll as = .ok b) ↔ ∀ a ∈ as, ∃ b, encode a = .ok b := by
  induction as with
  | nil => simp [hnil]
  | cons a as ih =>
    rw [List.forall_mem_cons, ← ih, hcons]
    constructor
    · intro h
      obtain ⟨_, h⟩ := h
      obtain ⟨b, hb, h⟩ := Outcome.bind_eq_ok.mp h
      obtain ⟨c, hc, -⟩ := Outcome.bind_eq_ok.mp h
      exact ⟨⟨b, hb⟩, c, hc⟩
    · intro h
      obtain ⟨⟨b, hb⟩, c, hc⟩ := h
      exact ⟨b ++ c, Outcome.bind_eq_ok.mpr ⟨b, hb, Outcome.bind_eq_ok.mpr ⟨c, hc, rfl⟩⟩⟩

/-- Elements that are written one after the other have their own bytes among those of all. -/
theorem infix_of_encodeAll (encode : α → Except Fault Bytes) (encodeAll : List α → Except Fault Bytes)
    (hcons : ∀ a as, encodeAll (a :: as) = do let b ← encode a; return b ++ (← encodeAll as)) {as : List α} {b : Bytes}
    (h : encodeAll as = .ok b) {a : α} (ha : a ∈ as) : ∃ part, encode a = .ok part ∧ part <:+: b := by
  induction as generalizing b with
  | nil => cases ha
  | cons first rest ih =>
    rw [hcons] at h
    obtain ⟨front, hfront, h⟩ := Outcome.bind_eq_ok.mp h
    obtain ⟨behind, hbehind, h⟩ := Outcome.bind_eq_ok.mp h
    obtain rfl := Except.ok.inj h
    rcases List.mem_cons.mp ha with rfl | ha
    · exact ⟨front, hfront, (List.prefix_append _ _).isInfix⟩
    · obtain ⟨part, hpart, hinside⟩ := ih hbehind ha
      exact ⟨part, hpart, hinside.trans (List.suffix_append _ _).isInfix⟩

end Spelling

namespace Reader

variable {α : Type}

/-- The first byte of a number is the byte that the number has. -/
theorem bigEndian_one (n : Nat) : bigEndian 1 n = [UInt8.ofNat n] := by
  simp [bigEndian, wordCount]

/-- Behind the first byte, a reader goes on as the byte says. -/
theorem reads_tagged {s : Spelling α} {f : Nat → Reader α} (hne : ∀ a after, ¬ s a [] after)
    (hf : ∀ tag < wordCount 1, (f tag).Reads fun a b after => s a (UInt8.ofNat tag :: b) after) :
    (u8 >>= f).Reads s := by
  refine (reads_u8.bind_written hf).congr fun a b after => ?_
  constructor
  · intro h
    obtain ⟨tag, b₂, -, rfl, ha⟩ := h
    rwa [bigEndian_one]
  · intro h
    cases b with
    | nil => exact absurd h (hne a after)
    | cons x b =>
      refine ⟨x.toNat, b, x.toNat_lt, ?_, ?_⟩
      · rw [bigEndian_one, UInt8.ofNat_toNat, List.singleton_append]
      · rwa [UInt8.ofNat_toNat]

/-- A first byte that is the number of one of the result's parts. -/
theorem reads_coded {P : α → Prop} {form tail : α → Bytes} {code : α → Nat} {f : Nat → Reader α}
    (hform : ∀ a, form a = UInt8.ofNat (code a) :: tail a) (hcode : ∀ a, code a < wordCount 1)
    (hf : ∀ n, (f n).Reads fun a b _ => P a ∧ n = code a ∧ b = tail a) : (u8 >>= f).Reads (.written P form) := by
  refine (reads_u8.bind_written fun n _ => hf n).congr fun a b after => ?_
  rw [Spelling.written, hform]
  constructor
  · intro h
    obtain ⟨_, _, -, rfl, ha, rfl, rfl⟩ := h
    exact ⟨ha, by rw [bigEndian_one]; rfl⟩
  · intro h
    obtain ⟨ha, rfl⟩ := h
    exact ⟨code a, tail a, hcode a, by rw [bigEndian_one]; rfl, ha, rfl, rfl⟩

/-- Elements behind their count, each of which takes a byte. -/
theorem reads_list {one : Reader α} {P : α → Prop} {encode : α → Except Fault Bytes}
    {encodeAll : List α → Except Fault Bytes} (guarded : Bool) (what : CountKind)
    (hone : one.Reads (.encoded P encode)) (hne : ∀ a, encode a ≠ .ok []) (hnil : encodeAll [] = .ok [])
    (hcons : ∀ a as, encodeAll (a :: as) = do let b ← encode a; return b ++ (← encodeAll as)) :
    (do times one (← count guarded what) : Reader (List α)).Reads (fun as b _ => (∀ a ∈ as, P a) ∧
      as.length < wordCount 4 ∧ ∃ c, encodeAll as = .ok c ∧ b = bigEndian 4 as.length ++ c) := by
  refine (reads_counted guarded what (fun n => reads_times hone n) ?_).congr fun as b after => ?_
  · intro n as b after h
    obtain ⟨rfl, h⟩ := h
    exact Spelling.length_le_of_each (fun a b after ha hb => hne a (hb ▸ ha.2)) h
  · constructor
    · intro h
      obtain ⟨_, c, hcount, rfl, rfl, h⟩ := h
      obtain ⟨has, hc⟩ := (Spelling.each_encoded hnil hcons).mp h
      exact ⟨has, hcount, c, hc, rfl⟩
    · intro h
      obtain ⟨has, hcount, c, hc, rfl⟩ := h
      exact ⟨as.length, c, hcount, rfl, rfl, (Spelling.each_encoded hnil hcons).mpr ⟨has, hc⟩⟩

end Reader

end StacksWallet
