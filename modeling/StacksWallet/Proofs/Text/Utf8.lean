import Mathlib.Data.List.Basic
import Mathlib.Data.List.DropRight
import Mathlib.Data.List.TakeWhile
import Mathlib.Tactic.SplitIfs
import StacksWallet.Text.Utf8

/-!
# UTF-8 has one form for each text

A step of decoding succeeds on exactly the bytes of a code point that is no surrogate, and takes all of them.
So bytes that decode are the encoding of what they decode to, and every text without surrogates comes back
from its encoding: overlong forms, surrogates and numbers beyond the last code point are refused.
-/

namespace StacksWallet

/-- A text has no run of foreign code points if the character set has all of them. -/
theorem UnencodableRun.find?_eq_none_iff {charset : Charset} {position : Nat} {t : Text} :
    find? charset position t = none ↔ ∀ c ∈ t, charset.has c = true := by
  induction t generalizing position with
  | nil => simp [find?]
  | cons c rest ih =>
    rw [find?, List.forall_mem_cons]
    by_cases hc : charset.has c = true
    · rw [if_pos hc, ih, and_iff_right hc]
    · simp [hc]

namespace Utf8

/-- A text has a UTF-8 form if it has no surrogates. -/
theorem encode_eq_ok_iff {t : Text} {b : Bytes} :
    encode t = .ok b ↔ (∀ c ∈ t, c.isSurrogate = false) ∧ b = bytes t := by
  have hnone : UnencodableRun.find? .utf8 0 t = none ↔ ∀ c ∈ t, c.isSurrogate = false := by
    simp [UnencodableRun.find?_eq_none_iff, Charset.has]
  rw [encode, ← hnone]
  cases UnencodableRun.find? .utf8 0 t with
  | none => simp [eq_comm]
  | some run => simp

/-- Otherwise the first run of them is the failure. -/
theorem encode_eq_error_iff {t : Text} {run : UnencodableRun} :
    encode t = .error run ↔ UnencodableRun.find? .utf8 0 t = some run := by
  rw [encode]
  cases UnencodableRun.find? .utf8 0 t with
  | none => simp
  | some found => simp

/-- The width of a lead byte, by its number. -/
theorem widthOf_eq (lead : UInt8) :
    widthOf lead =
      if lead.toNat < 0x80 then 1 else if lead.toNat < 0xC2 then 0 else if lead.toNat < 0xE0 then 2
      else if lead.toNat < 0xF0 then 3 else if lead.toNat < 0xF5 then 4 else 0 := rfl

/-- Continuation bytes, by their numbers. -/
theorem continues_iff (b : UInt8) : continues b = true ↔ 0x80 ≤ b.toNat ∧ b.toNat ≤ 0xBF := by
  simp only [continues, Bool.and_eq_true, decide_eq_true_eq, UInt8.le_iff_toNat_le]
  rfl

/-- Second bytes, by the numbers of lead byte and second byte. -/
theorem secondFits_iff (lead second : UInt8) :
    secondFits lead second = true ↔
      (0x80 ≤ second.toNat ∧ second.toNat ≤ 0xBF) ∧ (lead.toNat = 0xE0 → 0xA0 ≤ second.toNat) ∧
        (lead.toNat = 0xED → second.toNat ≤ 0x9F) ∧ (lead.toNat = 0xF0 → 0x90 ≤ second.toNat) ∧
        (lead.toNat = 0xF4 → second.toNat ≤ 0x8F) := by
  rw [secondFits, Bool.and_eq_true, continues_iff]
  refine and_congr_right fun _ => ?_
  have hlead : ∀ n : UInt8, lead = n ↔ lead.toNat = n.toNat := fun n => UInt8.toNat_inj.symm
  simp only [hlead, UInt8.reduceToNat]
  split_ifs <;> simp only [decide_eq_true_eq, UInt8.le_iff_toNat_le, UInt8.reduceToNat, true_iff] <;> omega

/-- A step behind a lead byte of several bytes takes a second byte that fits and continuation bytes. -/
theorem step_eq_scalar_iff_of_widthOf {lead : UInt8} {k : Nat} (hwidth : widthOf lead = k + 2) {rest : Bytes}
    {c : CodePoint} {width : Nat} :
    step lead rest = .scalar c width ↔
      ∃ second tail more, rest = second :: (tail ++ more) ∧ tail.length = k ∧ secondFits lead second = true ∧
        (∀ b ∈ tail, continues b = true) ∧
        c = assemble (lead.toNat % Nat.pow 2 (7 - (k + 2))) (second :: tail) ∧ width = k + 2 := by
  cases rest with
  | nil =>
    have hstep : step lead [] = .flaw .unexpectedEnd 1 := by simp [step, hwidth]
    simp [hstep]
  | cons second more =>
    have hstep : step lead (second :: more) =
        if !secondFits lead second then .flaw .invalidContinuation 1
        else if ((more.take k).takeWhile continues).length < (more.take k).length then
          .flaw .invalidContinuation (2 + ((more.take k).takeWhile continues).length)
        else if (more.take k).length < k then .flaw .unexpectedEnd (2 + (more.take k).length)
        else .scalar (assemble (lead.toNat % Nat.pow 2 (7 - (k + 2))) (second :: more.take k)) (k + 2) := by
      simp [step, hwidth]
    rw [hstep]
    constructor
    · intro h
      split_ifs at h with hfits hcont hlength
      have htail : (more.take k).length = k := by
        have := List.length_take_le k more
        omega
      have hall : ∀ b ∈ more.take k, continues b = true := by
        have hgood : (more.take k).takeWhile continues = more.take k :=
          (List.takeWhile_prefix continues).eq_of_length_le (by omega)
        exact List.takeWhile_eq_self_iff.mp hgood
      cases h
      exact ⟨second, more.take k, more.drop k, by simp, htail, by simpa using hfits, hall, rfl, rfl⟩
    · intro h
      obtain ⟨_, tail, more', heq, htail, hfits, hall, rfl, rfl⟩ := h
      obtain ⟨rfl, rfl⟩ := List.cons.inj heq
      have htake : (tail ++ more').take k = tail := List.take_left' htail
      rw [htake, List.takeWhile_eq_self_iff.mpr hall, if_neg (by simp [hfits]), if_neg (by omega), if_neg (by omega)]

/-- The number of a code point below the last one. -/
theorem ofNat_eq {n : Nat} (hn : n < 0x110000) : CodePoint.ofNat n = ⟨n, hn⟩ := by
  rw [CodePoint.ofNat, dif_pos hn]

/-- Bytes are those of a code point if their numbers are. -/
theorem ofNat_eq_iff {n : Nat} (hn : n < 256) (b : UInt8) : UInt8.ofNat n = b ↔ n = b.toNat := by
  rw [← UInt8.toNat_inj, UInt8.toNat_ofNat', Nat.mod_eq_of_lt hn]

/-- The byte of a number of one byte. -/
theorem encodeOne_one {n : Nat} (hn : n < 0x110000) (h₁ : n < 0x80) {lead : UInt8} :
    encodeOne ⟨n, hn⟩ = [lead] ↔ n = lead.toNat := by
  have hform : encodeOne ⟨n, hn⟩ = [UInt8.ofNat n] := by simp only [encodeOne, if_pos h₁]
  rw [hform, List.cons.injEq, ofNat_eq_iff (by omega)]
  simp

/-- The bytes of a number of two bytes. -/
theorem encodeOne_two {n : Nat} (hn : n < 0x110000) (h₀ : 0x80 ≤ n) (h₁ : n < 0x800) {lead second : UInt8} :
    encodeOne ⟨n, hn⟩ = [lead, second] ↔ 0xC0 + n / 64 = lead.toNat ∧ 0x80 + n % 64 = second.toNat := by
  have hform : encodeOne ⟨n, hn⟩ = [UInt8.ofNat (0xC0 + n / 64), UInt8.ofNat (0x80 + n % 64)] := by
    simp only [encodeOne, if_neg (by omega : ¬ n < 0x80), if_pos h₁]
  rw [hform, List.cons.injEq, List.cons.injEq, ofNat_eq_iff (by omega), ofNat_eq_iff (by omega)]
  simp

/-- The bytes of a number of three bytes. -/
theorem encodeOne_three {n : Nat} (hn : n < 0x110000) (h₀ : 0x800 ≤ n) (h₁ : n < 0x10000)
    {lead second third : UInt8} :
    encodeOne ⟨n, hn⟩ = [lead, second, third] ↔
      0xE0 + n / 4096 = lead.toNat ∧ 0x80 + n / 64 % 64 = second.toNat ∧ 0x80 + n % 64 = third.toNat := by
  have hform : encodeOne ⟨n, hn⟩ =
      [UInt8.ofNat (0xE0 + n / 4096), UInt8.ofNat (0x80 + n / 64 % 64), UInt8.ofNat (0x80 + n % 64)] := by
    simp only [encodeOne, if_neg (by omega : ¬ n < 0x80), if_neg (by omega : ¬ n < 0x800), if_pos h₁]
  rw [hform, List.cons.injEq, List.cons.injEq, List.cons.injEq, ofNat_eq_iff (by omega), ofNat_eq_iff (by omega),
    ofNat_eq_iff (by omega)]
  simp

/-- The bytes of a number of four bytes. -/
theorem encodeOne_four {n : Nat} (hn : n < 0x110000) (h₀ : 0x10000 ≤ n) {lead second third fourth : UInt8} :
    encodeOne ⟨n, hn⟩ = [lead, second, third, fourth] ↔
      0xF0 + n / 262144 = lead.toNat ∧ 0x80 + n / 4096 % 64 = second.toNat ∧ 0x80 + n / 64 % 64 = third.toNat ∧
        0x80 + n % 64 = fourth.toNat := by
  have hform : encodeOne ⟨n, hn⟩ =
      [UInt8.ofNat (0xF0 + n / 262144), UInt8.ofNat (0x80 + n / 4096 % 64), UInt8.ofNat (0x80 + n / 64 % 64),
        UInt8.ofNat (0x80 + n % 64)] := by
    simp only [encodeOne, if_neg (by omega : ¬ n < 0x80), if_neg (by omega : ¬ n < 0x800),
      if_neg (by omega : ¬ n < 0x10000)]
  rw [hform, List.cons.injEq, List.cons.injEq, List.cons.injEq, List.cons.injEq, ofNat_eq_iff (by omega),
    ofNat_eq_iff (by omega), ofNat_eq_iff (by omega), ofNat_eq_iff (by omega)]
  simp

/-- A code point is no surrogate if its number is not among theirs. -/
theorem isSurrogate_eq_false_iff {c : CodePoint} :
    c.isSurrogate = false ↔ c.val < 0xD800 ∨ 0xDFFF < c.val := by
  simp only [CodePoint.isSurrogate, Bool.and_eq_false_iff, decide_eq_false_iff_not]
  omega

/-- A step that succeeds has found the bytes of a code point that is no surrogate. -/
theorem eq_encodeOne_of_step {lead : UInt8} {rest : Bytes} {c : CodePoint} {width : Nat}
    (h : step lead rest = .scalar c width) :
    c.isSurrogate = false ∧ width = (encodeOne c).length ∧ ∃ more, lead :: rest = encodeOne c ++ more := by
  have hlead := lead.toNat_lt
  have hwidth := widthOf_eq lead
  split_ifs at hwidth with h₁ h₂ h₃ h₄ h₅
  · have hc : CodePoint.ofNat lead.toNat = ⟨lead.toNat, by omega⟩ := ofNat_eq _
    have hform : encodeOne ⟨lead.toNat, by omega⟩ = [lead] := (encodeOne_one _ h₁).mpr rfl
    simp only [step, hwidth, Step.scalar.injEq, hc] at h
    obtain ⟨rfl, rfl⟩ := h
    exact ⟨isSurrogate_eq_false_iff.mpr (.inl (by dsimp only; omega)), by simp [hform], rest, by simp [hform]⟩
  · simp [step, hwidth] at h
  · obtain ⟨second, tail, more, rfl, htail, hfits, -, rfl, rfl⟩ := (step_eq_scalar_iff_of_widthOf hwidth).mp h
    obtain rfl := List.length_eq_zero_iff.mp htail
    rw [secondFits_iff] at hfits
    have hn : lead.toNat % 32 * 64 + second.toNat % 64 < 0x110000 := by omega
    have hc : assemble (lead.toNat % Nat.pow 2 5) [second] = ⟨_, hn⟩ := ofNat_eq hn
    have hform := (encodeOne_two hn (by omega) (by omega)).mpr
      (⟨by omega, by omega⟩ : _ = lead.toNat ∧ _ = second.toNat)
    rw [hc, hform]
    exact ⟨isSurrogate_eq_false_iff.mpr (by dsimp only; omega), rfl, more, rfl⟩
  · obtain ⟨second, tail, more, rfl, htail, hfits, hall, rfl, rfl⟩ := (step_eq_scalar_iff_of_widthOf hwidth).mp h
    obtain ⟨third, rfl⟩ := List.length_eq_one_iff.mp htail
    have hthird := (continues_iff third).mp (hall third (by simp))
    rw [secondFits_iff] at hfits
    have hn : (lead.toNat % 16 * 64 + second.toNat % 64) * 64 + third.toNat % 64 < 0x110000 := by omega
    have hc : assemble (lead.toNat % Nat.pow 2 4) [second, third] = ⟨_, hn⟩ := ofNat_eq hn
    have hform := (encodeOne_three hn (by omega) (by omega)).mpr
      (⟨by omega, by omega, by omega⟩ : _ = lead.toNat ∧ _ = second.toNat ∧ _ = third.toNat)
    rw [hc, hform]
    exact ⟨isSurrogate_eq_false_iff.mpr (by dsimp only; omega), rfl, more, rfl⟩
  · obtain ⟨second, tail, more, rfl, htail, hfits, hall, rfl, rfl⟩ := (step_eq_scalar_iff_of_widthOf hwidth).mp h
    obtain ⟨third, fourth, rfl⟩ := List.length_eq_two.mp htail
    have hthird := (continues_iff third).mp (hall third (by simp))
    have hfourth := (continues_iff fourth).mp (hall fourth (by simp))
    rw [secondFits_iff] at hfits
    have hn : ((lead.toNat % 8 * 64 + second.toNat % 64) * 64 + third.toNat % 64) * 64 + fourth.toNat % 64 <
        0x110000 := by omega
    have hc : assemble (lead.toNat % Nat.pow 2 3) [second, third, fourth] = ⟨_, hn⟩ := ofNat_eq hn
    have hform := (encodeOne_four hn (by omega)).mpr
      (⟨by omega, by omega, by omega, by omega⟩ :
        _ = lead.toNat ∧ _ = second.toNat ∧ _ = third.toNat ∧ _ = fourth.toNat)
    rw [hc, hform]
    exact ⟨isSurrogate_eq_false_iff.mpr (by dsimp only; omega), rfl, more, rfl⟩
  · simp [step, hwidth] at h

/-- Every number of a byte is that of one. -/
theorem exists_toNat_eq {n : Nat} (hn : n < 256) : ∃ b : UInt8, n = b.toNat :=
  ⟨UInt8.ofNat n, by rw [UInt8.toNat_ofNat', Nat.mod_eq_of_lt hn]⟩

/-- A step finds every code point that is no surrogate behind its bytes. -/
theorem step_encodeOne {c : CodePoint} (hc : c.isSurrogate = false) (more : Bytes) :
    ∃ lead tail, encodeOne c = lead :: tail ∧ step lead (tail ++ more) = .scalar c (tail.length + 1) := by
  obtain ⟨n, hn⟩ := c
  rw [isSurrogate_eq_false_iff] at hc
  dsimp only at hc
  -- One case for each number of bytes; each byte is known by its number.
  rcases (by omega : n < 0x80 ∨ 0x80 ≤ n ∧ n < 0x800 ∨ 0x800 ≤ n ∧ n < 0x10000 ∨ 0x10000 ≤ n) with
    h₁ | ⟨h₀, h₁⟩ | ⟨h₀, h₁⟩ | h₀
  · obtain ⟨lead, hlead⟩ := exists_toNat_eq (by omega : n < 256)
    have hwidth : widthOf lead = 1 := by rw [widthOf_eq, if_pos (by omega)]
    refine ⟨lead, [], (encodeOne_one hn h₁).mpr hlead, ?_⟩
    simp only [step, hwidth, ← hlead, ofNat_eq hn, List.length_nil]
  · obtain ⟨lead, hlead⟩ := exists_toNat_eq (by omega : 0xC0 + n / 64 < 256)
    obtain ⟨second, hsecond⟩ := exists_toNat_eq (by omega : 0x80 + n % 64 < 256)
    have hwidth : widthOf lead = 0 + 2 := by
      rw [widthOf_eq]
      split_ifs <;> omega
    refine ⟨lead, [second], (encodeOne_two hn h₀ h₁).mpr ⟨hlead, hsecond⟩, ?_⟩
    refine (step_eq_scalar_iff_of_widthOf hwidth).mpr ⟨second, [], more, rfl, rfl, ?_, by simp, ?_, rfl⟩
    · rw [secondFits_iff]
      omega
    · rw [← ofNat_eq hn]
      exact congrArg CodePoint.ofNat (by omega : n = lead.toNat % 32 * 64 + second.toNat % 64)
  · obtain ⟨lead, hlead⟩ := exists_toNat_eq (by omega : 0xE0 + n / 4096 < 256)
    obtain ⟨second, hsecond⟩ := exists_toNat_eq (by omega : 0x80 + n / 64 % 64 < 256)
    obtain ⟨third, hthird⟩ := exists_toNat_eq (by omega : 0x80 + n % 64 < 256)
    have hwidth : widthOf lead = 1 + 2 := by
      rw [widthOf_eq]
      split_ifs <;> omega
    refine ⟨lead, [second, third], (encodeOne_three hn h₀ h₁).mpr ⟨hlead, hsecond, hthird⟩, ?_⟩
    refine (step_eq_scalar_iff_of_widthOf hwidth).mpr ⟨second, [third], more, rfl, rfl, ?_, ?_, ?_, rfl⟩
    · rw [secondFits_iff]
      omega
    · rw [List.forall_mem_singleton, continues_iff]
      omega
    · rw [← ofNat_eq hn]
      exact congrArg CodePoint.ofNat
        (by omega : n = (lead.toNat % 16 * 64 + second.toNat % 64) * 64 + third.toNat % 64)
  · obtain ⟨lead, hlead⟩ := exists_toNat_eq (by omega : 0xF0 + n / 262144 < 256)
    obtain ⟨second, hsecond⟩ := exists_toNat_eq (by omega : 0x80 + n / 4096 % 64 < 256)
    obtain ⟨third, hthird⟩ := exists_toNat_eq (by omega : 0x80 + n / 64 % 64 < 256)
    obtain ⟨fourth, hfourth⟩ := exists_toNat_eq (by omega : 0x80 + n % 64 < 256)
    have hwidth : widthOf lead = 2 + 2 := by
      rw [widthOf_eq]
      split_ifs <;> omega
    refine ⟨lead, [second, third, fourth], (encodeOne_four hn h₀).mpr ⟨hlead, hsecond, hthird, hfourth⟩, ?_⟩
    refine (step_eq_scalar_iff_of_widthOf hwidth).mpr ⟨second, [third, fourth], more, rfl, rfl, ?_, ?_, ?_, rfl⟩
    · rw [secondFits_iff]
      omega
    · rw [List.forall_mem_cons, List.forall_mem_singleton, continues_iff, continues_iff]
      omega
    · rw [← ofNat_eq hn]
      exact congrArg CodePoint.ofNat
        (by omega : n = ((lead.toNat % 8 * 64 + second.toNat % 64) * 64 + third.toNat % 64) * 64 +
          fourth.toNat % 64)

/-- Bytes of a step already taken are passed over. -/
theorem decodeOnto_skip (done : Text) (skip : Nat) (b : Bytes) :
    decodeOnto done skip b = decodeOnto done 0 (b.drop skip) := by
  induction b generalizing skip with
  | nil => simp [decodeOnto]
  | cons x b ih =>
    cases skip with
    | zero => rfl
    | succ skip => rw [decodeOnto, ih, List.drop_succ_cons]

/-- Decoding goes on behind the bytes of a code point that is no surrogate. -/
theorem decodeOnto_encodeOne {c : CodePoint} (hc : c.isSurrogate = false) (done : Text) (more : Bytes) :
    decodeOnto done 0 (encodeOne c ++ more) = decodeOnto (c :: done) 0 more := by
  obtain ⟨lead, tail, hform, hstep⟩ := step_encodeOne hc more
  rw [hform, List.cons_append, decodeOnto, hstep]
  dsimp only
  rw [decodeOnto_skip, Nat.add_sub_cancel, List.drop_left]

/-- A text without surrogates comes back from its encoding. -/
theorem decodeOnto_bytes {t : Text} (ht : ∀ c ∈ t, c.isSurrogate = false) (done : Text) :
    decodeOnto done 0 (bytes t) = .ok (done.reverse ++ t) := by
  induction t generalizing done with
  | nil => simp [bytes, decodeOnto]
  | cons c t ih =>
    rw [List.forall_mem_cons] at ht
    have hbytes : bytes (c :: t) = encodeOne c ++ bytes t := List.flatMap_cons
    rw [hbytes, decodeOnto_encodeOne ht.1, ih ht.2, List.reverse_cons, List.append_assoc, List.singleton_append]

/-- Bytes that decode are the encoding of a text without surrogates. -/
theorem exists_of_decodeOnto {done t : Text} {b : Bytes} (h : decodeOnto done 0 b = .ok t) :
    ∃ u, t = done.reverse ++ u ∧ (∀ c ∈ u, c.isSurrogate = false) ∧ b = bytes u := by
  -- Each step takes at least one byte, so the induction is on the number of bytes.
  induction hn : b.length using Nat.strong_induction_on generalizing b done with
  | _ n ih =>
    cases b with
    | nil =>
      rw [decodeOnto, Except.ok.injEq] at h
      exact ⟨[], by simp [h], by simp, rfl⟩
    | cons lead rest =>
      rw [decodeOnto] at h
      cases hstep : step lead rest with
      | flaw f width => simp [hstep] at h
      | scalar c width =>
        obtain ⟨hc, rfl, more, hform⟩ := eq_encodeOne_of_step hstep
        obtain ⟨head, tail, hone, -⟩ := step_encodeOne hc []
        rw [hone, List.cons_append] at hform
        obtain ⟨rfl, rfl⟩ := List.cons.inj hform
        simp only [hstep] at h
        rw [hone, List.length_cons, Nat.add_sub_cancel, decodeOnto_skip, List.drop_left] at h
        have hlength : more.length < n := by
          rw [← hn, List.length_cons, List.length_append]
          omega
        obtain ⟨u, rfl, hu, rfl⟩ := ih more.length hlength h rfl
        refine ⟨c :: u, by simp, List.forall_mem_cons.mpr ⟨hc, hu⟩, ?_⟩
        rw [← List.cons_append, ← hone]
        rfl

/-- Bytes decode to a text if and only if they are its encoding and it has no surrogates. -/
theorem decode_eq_ok_iff {b : Bytes} {t : Text} :
    decode b = .ok t ↔ (t.all fun c => !c.isSurrogate) = true ∧ b = bytes t := by
  simp only [List.all_eq_true, Bool.not_eq_true']
  constructor
  · intro h
    obtain ⟨u, rfl, hu, hb⟩ := exists_of_decodeOnto h
    exact ⟨hu, hb⟩
  · intro h
    obtain ⟨ht, rfl⟩ := h
    exact decodeOnto_bytes ht []

/-- Where strict decoding succeeds, lenient decoding comes to the same text. -/
theorem decodeLenientOnto_of_decodeOnto {done t : Text} {skip : Nat} {b : Bytes} (h : decodeOnto done skip b = .ok t) :
    decodeLenientOnto done skip b = t := by
  induction b generalizing done skip with
  | nil => exact Except.ok.inj h
  | cons lead rest ih =>
    cases skip with
    | succ skip => exact ih h
    | zero =>
      rw [decodeOnto] at h
      rw [decodeLenientOnto]
      cases hstep : step lead rest with
      | flaw f width => simp [hstep] at h
      | scalar c width =>
        simp only [hstep] at h
        exact ih h

/-- A text without surrogates comes back from its encoding when it is decoded leniently. -/
theorem decodeLenient_bytes {t : Text} (ht : ∀ c ∈ t, c.isSurrogate = false) : decodeLenient (bytes t) = t :=
  decodeLenientOnto_of_decodeOnto (decodeOnto_bytes ht [])

/-- Only U+0000 has a byte zero at its end. -/
theorem exists_encodeOne_eq {c : CodePoint} (hc : c ≠ 0) : ∃ front last, encodeOne c = front ++ [last] ∧ last ≠ 0 := by
  have hbyte : ∀ n : Nat, 0 < n → n < 256 → UInt8.ofNat n ≠ 0 := by
    intro n hpos hlt h
    rw [ofNat_eq_iff hlt] at h
    exact hpos.ne' h
  have hpos : 0 < c.val := Nat.pos_of_ne_zero fun h => hc (Fin.ext h)
  simp only [encodeOne]
  split_ifs with h₁ h₂ h₃
  · exact ⟨[], _, rfl, hbyte _ hpos (by omega)⟩
  · exact ⟨[_], _, rfl, hbyte _ (by omega) (by omega)⟩
  · exact ⟨[_, _], _, rfl, hbyte _ (by omega) (by omega)⟩
  · exact ⟨[_, _, _], _, rfl, hbyte _ (by omega) (by omega)⟩

/-- The zeros at the end of the bytes are those at the end of the text. -/
theorem rdropWhile_bytes (t : Text) : (bytes t).rdropWhile (· == 0) = bytes (t.rdropWhile (· == 0)) := by
  induction t using List.reverseRecOn with
  | nil => rfl
  | append_singleton t c ih =>
    have hbytes : bytes (t ++ [c]) = bytes t ++ encodeOne c := by simp [bytes]
    by_cases hc : c = 0
    · obtain rfl := hc
      have hzero : encodeOne 0 = [0] := rfl
      rw [hbytes, hzero, List.rdropWhile_concat_pos _ _ _ rfl, List.rdropWhile_concat_pos _ _ _ rfl, ih]
    · obtain ⟨front, last, hform, hlast⟩ := exists_encodeOne_eq hc
      rw [List.rdropWhile_concat_neg _ _ _ (by simpa using hc), hbytes, hform, ← List.append_assoc]
      exact List.rdropWhile_concat_neg _ _ _ (by simpa using hlast)

end Utf8

end StacksWallet
