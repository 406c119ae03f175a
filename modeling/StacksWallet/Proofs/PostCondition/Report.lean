import StacksWallet.Proofs.Clarity.Report
import StacksWallet.Proofs.PostCondition.Spelling

/-!
# Where post-conditions fail to be read

Holders, assets, codes and amounts report every flaw at a place in the bytes, and so do post-conditions and lists
of them. What is checked again when an asset or an amount is made has been settled by the number of bytes.
-/

namespace StacksWallet

variable {size : Nat}

/-- Amounts of eight bytes are in range. -/
theorem Amount.reports_read (field : Text) : (read field).Reports size fun _ => True := by
  refine Reader.reports_u64.bind fun n hn => ?_
  have hamount : below? 0x1_0000_0000_0000_0000 (n : Int) = some ⟨n, hn⟩ := below?_eq_some_iff.mpr rfl
  rw [hamount]
  exact Reader.reports_pure trivial

/-- Holders report where they start. -/
theorem Holder.reports_read : read.Reports size fun _ => True := by
  refine Reader.reports_tagged fun start tag hstart _ => ?_
  split
  · exact Reader.reports_pure trivial
  · split
    · refine Reader.reports_u8.bind fun version _ => (Reader.reports_take (by decide)).bind fun hash _ => ?_
      have hprincipal (contract? : Option Name) :
          (do let account ← Reader.require start .value (Principal.accountRead version hash)
              return principal ⟨account, contract?⟩ : Reader Holder).Reports size fun _ => True :=
        (Reader.reports_require hstart _ _).map _
      split
      · simp only [bind_map_left]
        exact (Name.reports_read .contract).bind fun name _ => hprincipal (some name)
      · simp only [pure_bind]
        exact hprincipal none
    · exact Reader.reports_malformed hstart

/-- Assets report as their names do. A hash of twenty bytes is one. -/
theorem Asset.reports_read : read.Reports size fun _ => True := by
  refine Reader.reports_u8.bind fun version _ => (Reader.reports_take (by decide)).bind fun hash hhash =>
    (Name.reports_read _).bind fun contract _ => (Name.reports_read _).bind fun name _ => ?_
  have hmade : Hash160.ofBytes? hash = some ⟨hash, hhash⟩ := dif_pos hhash
  rw [hmade]
  exact Reader.reports_pure trivial

namespace PostCondition

/-- Codes report where they stand. -/
theorem reports_readCode {α : Type} (ofArg : CodeArg → Except ConditionFlaw α) :
    (readCode ofArg).Reports size fun _ => True :=
  Reader.reports_tagged fun _ _ hstart _ => (Reader.reports_require hstart _ _).imp fun _ _ => trivial

/-- Conditions report where they start, or as their parts do. -/
theorem reports_read (guarded : Bool) : (read guarded).Reports size fun _ => True := by
  have hlimit (make : AmountCode → Amount → PostCondition) :
      (do let code ← readCode AmountCode.ofArg; return make code (← Amount.read "amount") :
        Reader PostCondition).Reports size fun _ => True :=
    (reports_readCode _).bind fun code _ => (Amount.reports_read _).map _
  refine Reader.reports_tagged fun start tag hstart _ => ?_
  split
  · exact Reader.reports_malformed hstart
  · refine Holder.reports_read.bind fun holder _ => ?_
    split
    · exact hlimit (native holder)
    · refine Asset.reports_read.bind fun asset _ => ?_
      split
      · exact hlimit (fungible holder asset)
      · exact (Value.reports_readWithin guarded _).bind fun token _ => (reports_readCode _).map _

/-- Lists of conditions report as their conditions do. -/
theorem reports_readAll (guarded : Bool) : (readAll guarded).Reports size fun _ => True :=
  (Reader.reports_count guarded _).bind fun n _ => Reader.reports_times (reports_read guarded) n

end PostCondition

end StacksWallet
