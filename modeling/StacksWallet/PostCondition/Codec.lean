import StacksWallet.Clarity.Decoding
import StacksWallet.PostCondition.Basic

/-!
# Post-conditions as bytes

A condition is written as its kind, its holder, its asset if it has one, and then either a code and an amount
or a token and a code. A list of conditions follows its count, and the order is kept.
-/

namespace StacksWallet

/-- Read the holder of a condition. -/
def Holder.read : Reader Holder := do
  let start ← Reader.position
  let tag ← Reader.u8
  if tag = 1 then return origin
  else if tag = 2 || tag = 3 then
    let version ← Reader.u8
    let hash ← Reader.take 20
    let contract? ← if tag = 3 then some <$> Name.read .contract else pure none
    let account ← Reader.require start .value (Principal.accountRead version hash)
    return principal ⟨account, contract?⟩
  else Reader.malformed start (.unknownTag .conditionPrincipal tag)

namespace PostCondition

/-- The bytes of a code. -/
def codeByte (n : Nat) : Bytes := [UInt8.ofNat n]

/-- The bytes of a condition. -/
def encode : PostCondition → Except Fault Bytes
  | native holder code amount => do
    return 0 :: (← holder.encode) ++ codeByte code.code ++ amount.bytes
  | fungible holder asset code amount => do
    let holder ← holder.encode
    return 1 :: holder ++ (← asset.encode) ++ codeByte code.code ++ amount.bytes
  | nonFungible holder asset token code => do
    let holder ← holder.encode
    let asset ← asset.encode
    return 2 :: holder ++ asset ++ (← token.encode) ++ codeByte code.code

/-- The bytes of conditions one after the other. -/
def encodeEach : List PostCondition → Except Fault Bytes
  | [] => .ok []
  | pc :: rest => do
    let b ← pc.encode
    return b ++ (← encodeEach rest)

/-- The bytes of a list of conditions. -/
def encodeAll (pcs : List PostCondition) : Except Fault Bytes := do
  let count ← Wire.size pcs.length
  return count ++ (← encodeEach pcs)

/-- Read a code of one of the two sets. -/
def readCode {α : Type} (ofArg : CodeArg → Except ConditionFlaw α) : Reader α := do
  let start ← Reader.position
  let n ← Reader.u8
  Reader.require start .condition (ofArg (.plain (.integer n)))

/-- Read a condition. -/
def read (guarded : Bool) : Reader PostCondition := do
  let start ← Reader.position
  let tag ← Reader.u8
  if 2 < tag then Reader.malformed start (.unknownTag .postCondition tag)
  else
    let holder ← Holder.read
    if tag = 0 then
      let code ← readCode AmountCode.ofArg
      return native holder code (← Amount.read "amount")
    else
      let asset ← Asset.read
      if tag = 1 then
        let code ← readCode AmountCode.ofArg
        return fungible holder asset code (← Amount.read "amount")
      else
        let token ← Value.read guarded
        return nonFungible holder asset token (← readCode OwnershipCode.ofArg)

/-- Read a list of conditions. -/
def readAll (guarded : Bool) : Reader (List PostCondition) := do
  Reader.times (read guarded) (← Reader.count guarded .postConditions)

/-- The condition that stands in some bytes at an offset, and the number of its bytes. -/
def decode (b : Bytes) (offset : Int) : Except Fault (PostCondition × Int) := Reader.decodeAt (read true) b offset

end PostCondition

end StacksWallet
