import StacksWallet.Proofs.Clarity.Principal
import StacksWallet.Proofs.Text.Utf8
import StacksWallet.Proofs.Transaction.Encodable
import StacksWallet.Proofs.Transaction.PayloadRoundTrip

/-!
# Memos are texts

The memo of a transfer has room for a text of 34 bytes and is filled up with zeros. The text is found again by taking
the zeros off, and those that it had at its own end go with them. All others stay where they are, and no other byte of
a text is zero, since a code point has a byte zero in its form only if it is U+0000 itself. So texts that do not end in
U+0000 and their memos correspond, and a memo survives the way through the bytes of a payload.
-/

namespace StacksWallet

namespace Memo

/-- The text has a UTF-8 form with room in a memo. -/
def Fits (t : Text) : Prop := ∃ b, Utf8.encode t = .ok b ∧ b.length ≤ memoWidth

/-- The memo of a text is its UTF-8 form, filled up with zeros. -/
theorem ofDatum_text_eq_ok_iff {t : Text} {m : Memo} :
    ofDatum (.text t) = .ok m ↔ ∃ b, Utf8.encode t = .ok b ∧ b.length ≤ memoWidth ∧
      m.val = b ++ Bytes.zeros (memoWidth - b.length) := by
  rw [ofDatum, Outcome.bind_eq_ok]
  refine exists_congr fun b => and_congr Outcome.mapError_eq_ok ?_
  rw [Outcome.mapError_eq_ok, ofBytes]
  by_cases hb : b.length ≤ memoWidth
  · simp [hb, Subtype.ext_iff, eq_comm]
  · simp [hb]

/-- A text has a memo if it fits into one. -/
theorem exists_ofDatum_iff {t : Text} : (∃ m, ofDatum (.text t) = .ok m) ↔ Fits t := by
  simp only [ofDatum_text_eq_ok_iff]
  constructor
  · intro h
    obtain ⟨m, b, hb, hlength, -⟩ := h
    exact ⟨b, hb, hlength⟩
  · intro h
    obtain ⟨b, hb, hlength⟩ := h
    exact ⟨⟨b ++ Bytes.zeros (memoWidth - b.length), by simp [hlength]⟩, b, hb, hlength, rfl⟩

/-- Zeros at the end are dropped, however many they are. -/
theorem rdropWhile_append_zeros (b : Bytes) (n : Nat) :
    (b ++ Bytes.zeros n).rdropWhile (· == 0) = b.rdropWhile (· == 0) := by
  induction n with
  | zero => simp [Bytes.zeros]
  | succ n ih =>
    have hzeros : b ++ Bytes.zeros (n + 1) = b ++ Bytes.zeros n ++ [0] := by
      simp [Bytes.zeros, List.replicate_succ']
    rw [hzeros, List.rdropWhile_concat_pos _ _ _ rfl, ih]

/-- The text of a memo is the one that the memo was made of, without U+0000 at its end. -/
theorem text_of_ofDatum {t : Text} {m : Memo} (h : ofDatum (.text t) = .ok m) :
    m.text = t.rdropWhile (· == 0) := by
  obtain ⟨b, hb, -, hm⟩ := ofDatum_text_eq_ok_iff.mp h
  obtain ⟨hscalar, rfl⟩ := Utf8.encode_eq_ok_iff.mp hb
  have htext : m.text = Utf8.decodeLenient (m.val.rdropWhile (· == 0)) := rfl
  rw [htext, hm, rdropWhile_append_zeros, Utf8.rdropWhile_bytes]
  exact Utf8.decodeLenient_bytes fun c hc => hscalar c ((List.rdropWhile_prefix _ _).subset hc)

/-- A text that does not end in U+0000 is the text of its memo. -/
theorem text_eq_of_ofDatum {t : Text} {m : Memo} (h : ofDatum (.text t) = .ok m) (hend : t.getLast? ≠ some 0) :
    m.text = t := by
  rw [text_of_ofDatum h, List.rdropWhile_eq_self_iff]
  intro hne hlast
  refine hend ?_
  rw [List.getLast?_eq_some_getLast hne, eq_of_beq hlast]

end Memo

namespace Payload

/-- A text that fits into a memo and does not end in U+0000 comes back from the payload of any transfer. The transfer is
made, it is written if the version of the recipient is whole, as it is for one that is given as text, and it is read
from its bytes as it was, with the text in its memo. No other such text has this memo. -/
theorem memos_read_back {t : Text} (ht : Memo.Fits t) (hend : t.getLast? ≠ some 0) {r : Arg Value} {p : Principal}
    (hr : recipientOf r = .ok p) (a : Amount) :
    ∃ m, Memo.ofDatum (.text t) = .ok m ∧ makeTransfer r (.integer a.val) (.text t) = .ok (transfer p a m) ∧
      ((∃ c, (transfer p a m).encode = .ok c) ↔ p.account.version.Whole) ∧
      (∀ s, r = .plain (.text s) → p.account.version.Whole) ∧
      (∀ c before after, (transfer p a m).encode = .ok c →
        decode (before ++ c ++ after) before.length = .ok (transfer p a m, c.length)) ∧
      m.text = t ∧
      ∀ u, u.getLast? ≠ some 0 → Memo.ofDatum (.text u) = .ok m → u = t := by
  obtain ⟨m, hm⟩ := Memo.exists_ofDatum_iff.mpr ht
  have htext := Memo.text_eq_of_ofDatum hm hend
  have hbounded : (transfer p a m).Bounded := trivial
  have hversioned : (transfer p a m).Versioned ↔ p.account.version.Whole := Iff.rfl
  refine ⟨m, hm, makeTransfer_eq_ok_iff.mpr ⟨m, p, a, hm, hr, Amount.ofDatum_eq_ok_iff.mpr rfl, rfl⟩, ?_, ?_, ?_, htext,
    fun u hu h => ?_⟩
  · rw [exists_encode_iff, and_iff_right hbounded, hversioned]
  · intro s hs
    obtain rfl := hs
    exact Principal.whole_of_parse hr
  · intro c before after hc
    exact (decode_of_encode (p := transfer p a m) (by simp [arguments]) hc before after).1
  · exact (Memo.text_eq_of_ofDatum h hu).symm.trans htext

/-- A text with U+0000 inside it, whose last code point takes the last three bytes of a memo. -/
def fullText : Text := [0x20AC, 0] ++ List.replicate 27 97 ++ [0x20AC]

/-- The text comes back from the memo of a transfer that stands between other bytes. -/
theorem memos_read_back_fullText :
    Memo.Fits fullText ∧ fullText.getLast? ≠ some 0 ∧ ∃ p m c,
      recipientOf (.of (.principal ⟨⟨.whole 22, .zero⟩, none⟩)) = .ok p ∧
        makeTransfer (.of (.principal ⟨⟨.whole 22, .zero⟩, none⟩)) (.integer 7) (.text fullText) =
          .ok (transfer p 7 m) ∧
        (transfer p 7 m).encode = .ok c ∧
          decode ([255] ++ c ++ [9]) 1 = .ok (transfer p 7 m, c.length) ∧ m.text = fullText := by
  have hfits : Memo.Fits fullText := ⟨_, rfl, by decide⟩
  have hend : fullText.getLast? ≠ some 0 := by decide
  have hrecipient : recipientOf (.of (.principal ⟨⟨.whole 22, .zero⟩, none⟩)) = .ok _ := rfl
  obtain ⟨m, -, hmade, hwritten, -, hread, htext, -⟩ := memos_read_back hfits hend hrecipient 7
  obtain ⟨c, hc⟩ := hwritten.mpr ⟨22, rfl⟩
  exact ⟨hfits, hend, _, m, c, hrecipient, hmade, hc, hread c [255] [9] hc, htext⟩

end Payload

end StacksWallet
