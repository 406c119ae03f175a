import Mathlib.Data.List.DropRight
import Mathlib.Data.List.Infix
import StacksWallet.Text.Blank

/-!
# Texts in pieces

What is dropped from the ends of a text, where a piece ends before a character that it does not have, and where a text
is cut at a separator. A text that was put together with a separator between two pieces is taken apart there again if
the separator does not begin within the first piece. For a separator of one character that means that the first piece
does not have this character.
-/

namespace StacksWallet

/-- The characters of ASCII from the exclamation mark to the tilde are not blank. -/
theorem CodePoint.isBlank_eq_false {c : CodePoint} (h : 32 < c.val ∧ c.val < 127) : c.isBlank = false := by
  simp only [isBlank, isWhiteSpace, Bool.or_eq_false_iff, Bool.and_eq_false_imp, decide_eq_true_eq,
    decide_eq_false_iff_not, beq_eq_false_iff_ne, ne_eq, Fin.ext_iff]
  omega

/-- The number of a small letter. -/
theorem CodePoint.val_toAsciiLower (c : CodePoint) :
    c.toAsciiLower.val = if 65 ≤ c.val ∧ c.val ≤ 90 then c.val + 32 else c.val := by
  by_cases hcapital : 65 ≤ c.val ∧ c.val ≤ 90
  · have hlower : c.toAsciiLower = CodePoint.ofNat (c.val + 32) := if_pos (by simpa using hcapital)
    rw [hlower, if_pos hcapital, CodePoint.ofNat, dif_pos (by omega)]
  · have hself : c.toAsciiLower = c := if_neg (by simpa using hcapital)
    rw [hself, if_neg hcapital]

/-- A blank has no small letter of its own. -/
theorem CodePoint.isBlank_of_toAsciiLower {c : CodePoint} (h : c.toAsciiLower.isBlank = false) : c.isBlank = false := by
  by_cases hcapital : 65 ≤ c.val ∧ c.val ≤ 90
  · exact isBlank_eq_false (by omega)
  · have hself : c.toAsciiLower = c := if_neg (by simpa using hcapital)
    rwa [hself] at h

namespace Text

/-- A text stays as it is where there is nothing to drop. -/
theorem trim_eq_self {p : CodePoint → Bool} {t : Text} (h : ∀ c ∈ t, p c = false) : t.trim p = t := by
  have hdrop : ∀ s : Text, (∀ c ∈ s, p c = false) → s.dropWhile p = s := by
    intro s hs
    cases s with
    | nil => rfl
    | cons c rest => exact List.dropWhile_cons_of_neg (by simp [hs c List.mem_cons_self])
  rw [trim, hdrop t h, dropEndWhile, hdrop t.reverse fun c hc => h c (List.mem_reverse.mp hc), List.reverse_reverse]

/-- The end of a text is dropped up to a character that is kept. -/
theorem dropEndWhile_append_cons {p : CodePoint → Bool} {d : CodePoint} (hd : p d = false) (t u : Text) :
    dropEndWhile p (t ++ d :: u) = t ++ d :: dropEndWhile p u := by
  have hkept : (d :: t.reverse).dropWhile p = d :: t.reverse := List.dropWhile_cons_of_neg (by simp [hd])
  rw [dropEndWhile, dropEndWhile, List.reverse_append, List.reverse_cons, List.append_assoc, List.singleton_append,
    List.dropWhile_append, hkept]
  split
  · rename_i hnil
    rw [List.isEmpty_iff.mp hnil]
    simp
  · simp

/-- A text keeps its end if it does not end with a character that is dropped. -/
theorem dropEndWhile_eq_self_iff {p : CodePoint → Bool} {t : Text} :
    t.dropEndWhile p = t ↔ ∀ c, t.getLast? = some c → p c = false := by
  have hdrop : t.dropEndWhile p = t.rdropWhile p := rfl
  rw [hdrop, List.rdropWhile_eq_self_iff]
  constructor
  · intro h c hc
    obtain ⟨hne, rfl⟩ := List.mem_getLast?_eq_getLast hc
    exact Bool.eq_false_iff.mpr (h hne)
  · intro h hne
    exact Bool.eq_false_iff.mp (h _ (List.getLast?_eq_some_getLast hne))

/-- A text that begins with a character that is kept loses nothing but what stands behind the last one of these. -/
theorem trim_cons_append {p : CodePoint → Bool} {c d : CodePoint} (hc : p c = false) (hd : p d = false) (t u : Text) :
    trim p (c :: (t ++ d :: u)) = c :: (t ++ d :: dropEndWhile p u) := by
  rw [trim, List.dropWhile_cons_of_neg (by simp [hc])]
  exact dropEndWhile_append_cons hd (c :: t) u

/-- What is dropped at the end stands there. -/
theorem exists_dropEndWhile (p : CodePoint → Bool) (t : Text) :
    ∃ back, t = t.dropEndWhile p ++ back ∧ ∀ c ∈ back, p c = true :=
  ⟨t.rtakeWhile p, List.rdropWhile_append_rtakeWhile.symm, fun _ hc => List.mem_rtakeWhile_imp hc⟩

/-- What is dropped at both ends stands there. -/
theorem exists_trim (p : CodePoint → Bool) (t : Text) :
    ∃ front back, t = front ++ (t.trim p ++ back) ∧ (∀ c ∈ front, p c = true) ∧ ∀ c ∈ back, p c = true := by
  obtain ⟨back, hback, hall⟩ := exists_dropEndWhile p (t.dropWhile p)
  refine ⟨t.takeWhile p, back, ?_, fun _ hc => List.mem_takeWhile_imp hc, hall⟩
  rw [trim, ← hback, List.takeWhile_append_dropWhile]

/-- A text does not begin with one that has a character more. -/
theorem startsWith_eq_false {c : CodePoint} {t start : Text} (hc : c ∈ start) (ht : c ∉ t) :
    t.startsWith start = false := by
  refine Bool.eq_false_iff.mpr fun hstart => ht ?_
  exact (List.isPrefixOf_iff_prefix.mp hstart).subset hc

/-- A text begins with two characters if they are its first two. -/
theorem startsWith_pair_iff {c d : CodePoint} {t : Text} :
    t.startsWith [c, d] = true ↔ ∃ rest, t = c :: d :: rest := by
  rw [startsWith, List.isPrefixOf_iff_prefix]
  constructor
  · intro h
    obtain ⟨rest, rfl⟩ := h
    exact ⟨rest, rfl⟩
  · intro h
    obtain ⟨rest, rfl⟩ := h
    exact ⟨rest, rfl⟩

/-- Texts without certain characters end where the first of these stands. -/
theorem append_inj_of_stop {p : CodePoint → Bool} {t u r r' : Text} (ht : ∀ c ∈ t, p c = false)
    (hu : ∀ c ∈ u, p c = false) (hr : ∀ c, r.head? = some c → p c = true) (hr' : ∀ c, r'.head? = some c → p c = true)
    (h : t ++ r = u ++ r') : t = u ∧ r = r' := by
  have hword {t r : Text} (ht : ∀ c ∈ t, p c = false) (hr : ∀ c, r.head? = some c → p c = true) :
      (t ++ r).takeWhile (fun c => !p c) = t := by
    have hstop : r.takeWhile (fun c => !p c) = [] := by
      cases r with
      | nil => rfl
      | cons c rest => exact List.takeWhile_cons_of_neg (by simp [hr c rfl])
    rw [List.takeWhile_append_of_pos (fun c hc => by simp [ht c hc]), hstop, List.append_nil]
  obtain rfl : t = u := by rw [← hword ht hr, h, hword hu hr']
  exact ⟨rfl, List.append_cancel_left h⟩

/-- A character is no beginning of a text that begins with another one. -/
theorem isPrefixOf_cons_of_ne {c d : CodePoint} (h : c ≠ d) (rest : Text) : [c].isPrefixOf (d :: rest) = false := by
  simp [List.isPrefixOf, h]

/-- A text is not cut at a code point that it does not have. -/
theorem cut?_eq_none {c : CodePoint} {t : Text} (h : c ∉ t) : cut? [c] t = none := by
  induction t with
  | nil => rfl
  | cons d rest ih =>
    rw [cut?, isPrefixOf_cons_of_ne (List.ne_of_not_mem_cons h), ih (List.not_mem_of_not_mem_cons h)]
    rfl

/-- A text is cut at the first place of a code point. -/
theorem cut?_append {c : CodePoint} {t : Text} (h : c ∉ t) (u : Text) : cut? [c] (t ++ c :: u) = some (t, u) := by
  induction t with
  | nil =>
    have hfront : [c].isPrefixOf (c :: u) = true := by simp [List.isPrefixOf]
    rw [List.nil_append, cut?, if_pos hfront]
    rfl
  | cons d rest ih =>
    rw [List.cons_append, cut?, isPrefixOf_cons_of_ne (List.ne_of_not_mem_cons h),
      ih (List.not_mem_of_not_mem_cons h)]
    rfl

/-- A text is cut at the first place of a code point that it has. -/
theorem cut?_of_mem {c : CodePoint} {t : Text} (h : c ∈ t) :
    cut? [c] t = some (t.takeWhile (· != c), (t.dropWhile (· != c)).tail) := by
  obtain ⟨s, u, rfl, hs⟩ := List.eq_append_cons_of_mem h
  have hbefore : ∀ d ∈ s, (d != c) = true := fun d hd => bne_iff_ne.mpr fun hdc => hs (hdc ▸ hd)
  have hstop : ¬ (c != c) = true := by simp
  rw [cut?_append hs, List.takeWhile_append_of_pos hbefore, List.takeWhile_cons_of_neg (p := (· != c)) hstop,
    List.append_nil, List.dropWhile_append_of_pos hbefore, List.dropWhile_cons_of_neg (p := (· != c)) hstop,
    List.tail_cons]

/-- A text is cut at the first occurrence of a separator: no other one begins before it. -/
theorem cut?_eq_some_iff {separator t u v : Text} (h : separator ≠ []) :
    cut? separator t = some (u, v) ↔ t = u ++ (separator ++ v) ∧ ¬ separator <:+: u ++ separator.dropLast := by
  have hlength : separator.dropLast.length < separator.length := by
    rw [List.length_dropLast]
    exact Nat.sub_lt (List.length_pos_iff.mpr h) Nat.one_pos
  -- Whether a separator stands at the front is told by as many characters as it has.
  have hfront (c : CodePoint) (u v : Text) :
      separator <+: c :: (u ++ (separator ++ v)) ↔ separator <+: c :: (u ++ separator.dropLast) := by
    have hlong : c :: (u ++ separator.dropLast) <+: c :: (u ++ (separator ++ v)) := by
      rw [List.cons_prefix_cons, and_iff_right rfl, List.prefix_append_right_inj]
      exact (List.dropLast_prefix separator).trans (List.prefix_append separator v)
    refine ⟨fun hsep => List.prefix_of_prefix_length_le hsep hlong ?_, fun hsep => hsep.trans hlong⟩
    rw [List.length_cons, List.length_append, List.length_dropLast]
    omega
  induction t generalizing u with
  | nil => simp [cut?, h]
  | cons c rest ih =>
    rw [cut?]
    split
    · rename_i hsep
      obtain ⟨after, hafter⟩ := List.isPrefixOf_iff_prefix.mp hsep
      rw [← hafter, List.drop_left, Option.some.injEq, Prod.mk.injEq]
      constructor
      · rintro ⟨rfl, rfl⟩
        exact ⟨rfl, fun hinfix => absurd hinfix.length_le (by simpa using hlength)⟩
      · rintro ⟨ht, hfirst⟩
        cases u with
        | nil => exact ⟨rfl, List.append_cancel_left ht⟩
        | cons d u =>
          refine absurd (List.IsPrefix.isInfix ?_) hfirst
          rw [List.cons_append, ← hfront d u v, ← List.cons_append, ← ht]
          exact List.prefix_append separator after
    · rename_i hsep
      rw [List.isPrefixOf_iff_prefix] at hsep
      rw [Option.map_eq_some_iff]
      constructor
      · rintro ⟨⟨u', v'⟩, hcut, hparts⟩
        obtain ⟨rfl, rfl⟩ := Prod.mk.inj hparts
        obtain ⟨rfl, hfirst⟩ := ih.mp hcut
        refine ⟨rfl, fun hinfix => ?_⟩
        rcases List.infix_cons_iff.mp hinfix with hprefix | hinfix
        · exact hsep ((hfront c u' v').mpr hprefix)
        · exact hfirst hinfix
      · rintro ⟨ht, hfirst⟩
        cases u with
        | nil => exact absurd ⟨v, ht.symm⟩ hsep
        | cons d u =>
          obtain ⟨rfl, rfl⟩ := List.cons.inj ht
          exact ⟨(u, v), ih.mpr ⟨rfl, fun hinfix => hfirst (List.infix_cons hinfix)⟩, rfl⟩

/-- A text is cut if it has the separator. -/
theorem exists_cut? {separator t : Text} (h : separator ≠ []) (ht : separator <:+: t) :
    ∃ u v, cut? separator t = some (u, v) := by
  induction t with
  | nil => exact absurd (List.infix_nil.mp ht) h
  | cons c rest ih =>
    rw [cut?]
    split
    · exact ⟨_, _, rfl⟩
    · rename_i hsep
      rw [List.isPrefixOf_iff_prefix] at hsep
      obtain ⟨u, v, huv⟩ := ih ((List.infix_cons_iff.mp ht).resolve_left hsep)
      exact ⟨c :: u, v, by rw [huv, Option.map_some]⟩

/-- What was put together with a separator is not cut behind this separator. -/
theorem prefix_of_cut? {separator t t' u v : Text} (h : separator ≠ [])
    (hcut : cut? separator (t ++ (separator ++ t')) = some (u, v)) : u <+: t := by
  obtain ⟨hparts, hfirst⟩ := (cut?_eq_some_iff h).mp hcut
  have hu : u <+: t ++ (separator ++ t') := hparts ▸ List.prefix_append _ _
  refine List.prefix_of_prefix_length_le hu (List.prefix_append _ _) (Nat.le_of_not_lt fun hlonger => ?_)
  -- Otherwise the separator behind `t` would begin before the first one.
  have hbefore : u ++ separator.dropLast <+: t ++ (separator ++ t') := by
    rw [hparts, List.prefix_append_right_inj]
    exact (List.dropLast_prefix separator).trans (List.prefix_append separator v)
  have hbehind : t ++ separator <+: t ++ (separator ++ t') := by
    rw [List.prefix_append_right_inj]
    exact List.prefix_append _ _
  have hlength : (t ++ separator).length ≤ (u ++ separator.dropLast).length := by
    rw [List.length_append, List.length_append, List.length_dropLast]
    omega
  have hinside := List.prefix_of_prefix_length_le hbehind hbefore hlength
  exact hfirst ((List.suffix_append t separator).isInfix.trans hinside.isInfix)

/-- A text in front that does not have the first character of a separator stays in front of the first piece. -/
theorem cut?_append_left {c : CodePoint} {t : Text} (h : c ∉ t) (separator u : Text) :
    cut? (c :: separator) (t ++ u) = (cut? (c :: separator) u).map fun parts => (t ++ parts.1, parts.2) := by
  induction t with
  | nil => exact Option.map_id'.symm
  | cons d rest ih =>
    have hfront : (c :: separator).isPrefixOf (d :: (rest ++ u)) = false := by
      rw [List.isPrefixOf_cons_cons, beq_false_of_ne (List.ne_of_not_mem_cons h), Bool.false_and]
    rw [List.cons_append, cut?, hfront, ih (List.not_mem_of_not_mem_cons h), Option.map_map]
    rfl

end Text

end StacksWallet
