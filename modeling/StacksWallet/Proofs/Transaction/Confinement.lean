import StacksWallet.Proofs.Clarity.Onward
import StacksWallet.Proofs.Clarity.RoundTrip
import StacksWallet.Proofs.PostCondition.RoundTrip
import StacksWallet.Proofs.Transaction.PayloadRoundTrip
import StacksWallet.Proofs.Transaction.Report

/-!
# Decoders stay within their bytes

A value, a post-condition and a payload are decoded at an offset in a buffer that may hold more. From an offset that is
not negative, each decoder reads onward and no further than to the end: what it gives comes from exactly the bytes that
it consumes, and otherwise the bytes are malformed. The number of bytes that are missing stands in the report, so that
there is another one if this number has more figures than a numeral may have.

Negative offsets are not refused, although bytes are counted as if they were on the left of the buffer. What is read
from there is not settled here, except where there is nothing to be read.
-/

namespace StacksWallet

/-- Amounts are read onward. -/
theorem Amount.onward_read (field : Text) : (read field).Onward := by
  refine Reader.onward_u64.bind fun n => ?_
  split
  · exact Reader.onward_pure _
  · exact Reader.onward_throw _

/-- Holders are read onward. -/
theorem Holder.onward_read : read.Onward := by
  refine Reader.onward_position.bind fun start => Reader.onward_u8.bind fun tag => ?_
  split
  · exact Reader.onward_pure _
  · split
    · refine Reader.onward_u8.bind fun version => (Reader.onward_take 20).bind fun hash => ?_
      have hprincipal (contract? : Option Name) :
          (do let account ← Reader.require start .value (Principal.accountRead version hash)
              return principal ⟨account, contract?⟩ : Reader Holder).Onward := (Reader.onward_require _ _ _).map _
      split
      · simp only [bind_map_left]
        exact (Name.onward_read .contract).bind fun name => hprincipal (some name)
      · simp only [pure_bind]
        exact hprincipal none
    · exact Reader.onward_malformed _ _

/-- Assets are read onward. -/
theorem Asset.onward_read : read.Onward := by
  refine Reader.onward_u8.bind fun version => (Reader.onward_take 20).bind fun hash =>
    (Name.onward_read _).bind fun contract => (Name.onward_read _).bind fun name => ?_
  split
  · exact Reader.onward_pure _
  · exact Reader.onward_throw _

namespace PostCondition

/-- Codes are read onward. -/
theorem onward_readCode {α : Type} (ofArg : CodeArg → Except ConditionFlaw α) : (readCode ofArg).Onward :=
  Reader.onward_position.bind fun _ => Reader.onward_u8.bind fun _ => Reader.onward_require _ _ _

/-- Conditions are read onward. -/
theorem onward_read (guarded : Bool) : (read guarded).Onward := by
  have hlimit (make : AmountCode → Amount → PostCondition) :
      (do let code ← readCode AmountCode.ofArg; return make code (← Amount.read "amount") :
        Reader PostCondition).Onward :=
    (onward_readCode _).bind fun code => (Amount.onward_read _).map _
  refine Reader.onward_position.bind fun start => Reader.onward_u8.bind fun tag => ?_
  split
  · exact Reader.onward_malformed _ _
  · refine Holder.onward_read.bind fun holder => ?_
    split
    · exact hlimit (native holder)
    · refine Asset.onward_read.bind fun asset => ?_
      split
      · exact hlimit (fungible holder asset)
      · exact (Value.onward_readWithin guarded _).bind fun token => (onward_readCode _).map _

end PostCondition

/-- Payloads are read onward. -/
theorem Payload.onward_read (guarded : Bool) : (read guarded).Onward := by
  refine Reader.onward_position.bind fun start => Reader.onward_u8.bind fun tag => ?_
  split
  · refine (Value.onward_readWithin guarded _).bind fun v => ?_
    cases v.principal? with
    | none => exact Reader.onward_malformed _ _
    | some recipient =>
      refine (Amount.onward_read _).bind fun amount => (Reader.onward_take memoWidth).bind fun raw => ?_
      cases Memo.ofBytes raw with
      | ok memo => exact Reader.onward_pure _
      | error flaw => exact Reader.onward_throw _
  · split
    · exact Reader.onward_u8.bind fun version => (Reader.onward_take 20).bind fun hash =>
        (Reader.onward_require _ _ _).bind fun address => (Name.onward_read _).bind fun contract =>
          (Name.onward_read _).bind fun function => (Reader.onward_count guarded _).bind fun n =>
            (Reader.onward_times (Value.onward_readWithin guarded _) n).map _
    · exact Reader.onward_malformed _ _

/-- The decoders of values, post-conditions and payloads stay within the bytes that lie ahead of the offset. -/
theorem decoders_confined (b : Bytes) (offset : Int) :
    Reader.Confined Value.decode Value.encode b offset ∧
      Reader.Confined PostCondition.decode PostCondition.encode b offset ∧
      Reader.Confined Payload.decode Payload.encode b offset := by
  refine ⟨?_, ?_, ?_⟩
  · exact Reader.confined (r := Value.read true) rfl (Value.reads true) (fun _ => Value.reports_readWithin true _)
      (Value.onward_readWithin true _) b offset
  · exact Reader.confined (r := PostCondition.read true) rfl (PostCondition.reads true)
      (fun _ => PostCondition.reports_read true) (PostCondition.onward_read true) b offset
  · exact Reader.confined (r := Payload.read true) rfl (Payload.reads true) (fun _ => Payload.reports_read true)
      (Payload.onward_read true) b offset

/-- A truth value between other bytes is read there and anywhere else. -/
theorem decoders_confined_truth :
    Value.decode [9, 3, 7] 1 = .ok (.bool true, 1) ∧ ∀ before after : Bytes,
      Value.decode (before ++ [3] ++ after) before.length = .ok (.bool true, 1) := by
  have hread : Value.decode [9, 3, 7] 1 = .ok (.bool true, 1) := by rfl
  obtain ⟨-, -, -, hplaced⟩ := (decoders_confined [9, 3, 7] 1).1.success (by decide) _ _ hread
  exact ⟨hread, hplaced⟩

/-- From a negative offset, a decoder may report that a byte is missing where one was counted, or go on from the other
end of the bytes. The offset is not refused, and the decoder is not kept within the bytes behind it. -/
theorem negative_offset_not_refused :
    (Value.decode [3] (-1) = .error .emptyRead ∧ PostCondition.decode [0] (-1) = .error .emptyRead ∧
      Payload.decode [0] (-1) = .error .emptyRead) ∧ Value.decode [3, 0] (-2) = .ok (.bool true, 1) ∧
      ¬ ∀ (b : Bytes) (offset : Int),
        (∃ place flaw, Value.decode b offset = .error (.malformed place flaw)) ∨
          ∃ v n, Value.decode b offset = .ok (v, n) ∧ 0 ≤ offset ∧ offset + n ≤ b.length := by
  have hempty : Value.decode [3] (-1) = .error .emptyRead := by rfl
  have hwrapped : Value.decode [3, 0] (-2) = .ok (.bool true, 1) := by rfl
  refine ⟨⟨hempty, by rfl, by rfl⟩, hwrapped, fun hall => ?_⟩
  rcases hall [3] (-1) with ⟨place, flaw, h⟩ | ⟨v, n, h, -⟩
  · cases hempty.symm.trans h
  · cases hempty.symm.trans h

end StacksWallet
