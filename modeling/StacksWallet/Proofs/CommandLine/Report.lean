import StacksWallet.CommandLine.Report
import StacksWallet.Proofs.CommandLine.NumberOption
import StacksWallet.Proofs.Outcome

/-!
# What is printed

Terminal escapes are taken out of everything that is printed. A document of texts and integers has none, as texts are
written with every control character escaped; so it is printed as it is.
-/

namespace StacksWallet

namespace Text

/-- A text without the escape character stays as it is. -/
theorem withoutEscapes_eq_self {t : Text} (h : 27 ∉ t) : t.withoutEscapes = t := by
  rw [withoutEscapes]
  induction t with
  | nil => rfl
  | cons c rest ih =>
    have hc : ¬ (c :: rest).take 2 = [27, 91] := by
      intro htake
      exact List.ne_of_not_mem_cons h (List.cons.inj htake).1.symm
    have hlength : escapeLength (c :: rest) = 0 := if_neg hc
    rw [dropEscapes, hlength]
    exact congrArg (c :: ·) (ih (List.not_mem_of_not_mem_cons h))

end Text

namespace Json

/-- No figure is the escape character. -/
theorem escape_not_mem_hexPadded (width n : Nat) : 27 ∉ Text.hexPadded width n := by
  have hfigure : ∀ d < 16, figure d ≠ 27 := by decide
  intro h
  rcases List.mem_append.mp h with hzero | hdigit
  · exact hfigure 0 (by decide) (List.mem_replicate.mp hzero).2.symm
  · obtain ⟨d, hd, hvalue⟩ := List.mem_map.mp hdigit
    exact hfigure d (lt_of_mem_digits (by decide) hd) hvalue

/-- Within quotation marks the escape character is escaped like every other control character. -/
theorem escape_not_mem_escaped (c : CodePoint) : 27 ∉ (escape? c).getD [c] := by
  have hshort : ∀ e ∈ ["\\\"", "\\\\", "\\n", "\\r", "\\t", "\\f", "\\b"], 27 ∉ Text.ofString e := by decide
  unfold escape?
  split_ifs with _ _ _ _ _ _ _ hsmall
  · exact hshort "\\\"" (by simp)
  · exact hshort "\\\\" (by simp)
  · exact hshort "\\n" (by simp)
  · exact hshort "\\r" (by simp)
  · exact hshort "\\t" (by simp)
  · exact hshort "\\f" (by simp)
  · exact hshort "\\b" (by simp)
  · have hmark : (27 : CodePoint) ∉ Text.ofString "\\u" := by decide
    rw [Option.getD_some, List.mem_append]
    exact not_or.mpr ⟨hmark, escape_not_mem_hexPadded 4 c.val⟩
  · rw [Option.getD_none, List.mem_singleton]
    rintro rfl
    exact hsmall (by decide)

/-- A text between quotation marks has no escape character. -/
theorem escape_not_mem_writeText (t : Text) : 27 ∉ writeText t := by
  have hquote : (27 : CodePoint) ∉ Text.ofString "\"" := by decide
  have hbody : 27 ∉ t.flatMap fun c => (escape? c).getD [c] := by
    intro h
    obtain ⟨c, -, hc⟩ := List.mem_flatMap.mp h
    exact escape_not_mem_escaped c hc
  rw [writeText, List.mem_append, List.mem_append]
  exact not_or.mpr ⟨not_or.mpr ⟨hquote, hbody⟩, hquote⟩

/-- The value is a text or an integer. -/
inductive Scalar : Json → Prop where
  | text (t : Text) : Scalar (text t)
  | int (n : Int) : Scalar (int n)

/-- A text or an integer is written without the escape character. -/
theorem Scalar.escape_not_mem_writeAt {v : Json} (h : Scalar v) (layout : Layout) (level : Nat) :
    27 ∉ writeAt layout level v := by
  cases h with
  | text t =>
    rw [writeAt]
    exact escape_not_mem_writeText t
  | int n =>
    rw [writeAt]
    exact (CommandLine.NumberOption.plain_ofInt n).not_mem (by decide) (by decide)

/-- Line breaks and blanks are no escape characters. -/
theorem escape_not_mem_lineBreak (level : Nat) : 27 ∉ Layout.indented.lineBreak level := by
  have hbreak : (27 : CodePoint) ∉ Text.ofString "\n" := by decide
  have hblank : (27 : CodePoint) ∉ List.replicate (2 * level) (32 : CodePoint) := by simp
  exact fun h => (List.mem_append.mp h).elim hbreak hblank

/-- The members behind the first one are written without the escape character. -/
theorem escape_not_mem_writeMembers {members : List (Text × Json)} (h : ∀ m ∈ members, Scalar m.2) (level : Nat) :
    27 ∉ writeMembers .indented level members := by
  induction members with
  | nil => exact List.not_mem_nil
  | cons m rest ih =>
    obtain ⟨name, value⟩ := m
    have hcomma : (27 : CodePoint) ∉ Text.ofString "," := by decide
    have hcolon : (27 : CodePoint) ∉ Layout.indented.colon := by decide
    have hvalue := (h (name, value) List.mem_cons_self).escape_not_mem_writeAt .indented level
    have hrest := ih fun m hm => h m (List.mem_cons_of_mem _ hm)
    simp only [writeMembers, List.mem_append, not_or]
    exact ⟨⟨⟨⟨⟨hcomma, escape_not_mem_lineBreak level⟩, escape_not_mem_writeText name⟩, hcolon⟩, hvalue⟩, hrest⟩

/-- An object of texts and integers is written without the escape character. -/
theorem escape_not_mem_write {members : List (Text × Json)} (h : ∀ m ∈ members, Scalar m.2) :
    27 ∉ (object members).write := by
  cases members with
  | nil =>
    rw [write, writeAt]
    decide
  | cons m rest =>
    obtain ⟨name, value⟩ := m
    have hopen : (27 : CodePoint) ∉ Text.ofString "\x7b" := by decide
    have hclose : (27 : CodePoint) ∉ Text.ofString "\x7d" := by decide
    have hcolon : (27 : CodePoint) ∉ Layout.indented.colon := by decide
    have hvalue := (h (name, value) List.mem_cons_self).escape_not_mem_writeAt .indented 1
    have hrest := escape_not_mem_writeMembers (fun m hm => h m (List.mem_cons_of_mem _ hm)) 1
    simp only [write, writeAt, List.mem_append, not_or]
    exact ⟨⟨⟨⟨⟨⟨⟨hopen, escape_not_mem_lineBreak 1⟩, escape_not_mem_writeText name⟩, hcolon⟩, hvalue⟩, hrest⟩,
      escape_not_mem_lineBreak 0⟩, hclose⟩

end Json

namespace CommandLine

/-- A document of texts and integers is reported as it is. -/
theorem success_documentLines {members : List (String × Json)} (h : ∀ m ∈ members, m.2.Scalar) :
    Report.success (documentLines members) = ⟨0, documentLines members, none⟩ := by
  have hdocument : 27 ∉ (Json.object (members.map fun m => (Text.ofString m.1, m.2))).write := by
    refine Json.escape_not_mem_write fun m hm => ?_
    obtain ⟨m', hm', rfl⟩ := List.mem_map.mp hm
    exact h m' hm'
  have hbreak : (27 : CodePoint) ∉ Text.ofString "\n" := by decide
  have hlines : 27 ∉ documentLines members := fun hmem => (List.mem_append.mp hmem).elim hdocument hbreak
  rw [Report.success, Text.withoutEscapes_eq_self hlines]

end CommandLine

end StacksWallet
