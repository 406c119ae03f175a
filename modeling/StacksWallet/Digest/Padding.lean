import StacksWallet.Bytes.Basic

/-!
# Padding and chaining

The hashes here pad a message with one set bit, zeros, and the message's length, so that it fills whole
blocks, and then chain the blocks one by one.
-/

namespace StacksWallet

/-- The first `count` pieces of `size` bytes each. -/
def chunks (size : Nat) : Nat → Bytes → List Bytes
  | 0, _ => []
  | count + 1, b => b.take size :: chunks size count (b.drop size)

/-- The zero bytes that complete a block of `size` bytes. -/
def paddingZeros (size used : Nat) : Nat := (size - used % size) % size

/-- Fill a message up to whole blocks: a set bit, zeros, and the length field. -/
def pad (size : Nat) (lengthField message : Bytes) : Bytes :=
  message ++ 0x80 :: Bytes.zeros (paddingZeros size (message.length + 1 + lengthField.length)) ++ lengthField

/-- Chain the first `count` blocks of `size` bytes. -/
def foldBlocks {σ : Type} (size : Nat) (compress : σ → Bytes → σ) (state : σ) : Nat → Bytes → σ
  | 0, _ => state
  | count + 1, b => foldBlocks size compress (compress state (b.take size)) count (b.drop size)

end StacksWallet
