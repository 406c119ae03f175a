import StacksWallet.Main
import StacksWallet.Proofs.Address.Alphabet
import StacksWallet.Proofs.Bytes.HexText
import StacksWallet.Proofs.Clarity.Display
import StacksWallet.Proofs.Clarity.Rearrangement
import StacksWallet.Proofs.PostCondition.AssetText
import StacksWallet.Proofs.Signing.Verdict
import StacksWallet.Proofs.Transaction.Confinement
import StacksWallet.Proofs.Transaction.Encodable
import StacksWallet.Proofs.Transaction.Failure
import StacksWallet.Proofs.Transaction.Guard
import StacksWallet.Proofs.Transaction.History
import StacksWallet.Proofs.Transaction.PrefixFree
import StacksWallet.Proofs.Transaction.Twin
import StacksWallet.Proofs.Transaction.Unsigned
import StacksWallet.Proofs.Transaction.Sponsorship
import StacksWallet.Proofs.Transaction.Size
import StacksWallet.Proofs.Transaction.Memo
import StacksWallet.Proofs.Transaction.Refusal
import StacksWallet.Proofs.Transaction.Summary
import StacksWallet.Proofs.Transaction.Transfer
import StacksWallet.Proofs.Transaction.Versions
import StacksWallet.Proofs.CommandLine.NumberOption
import StacksWallet.Proofs.CommandLine.Report
import StacksWallet.Proofs.CommandLine.Arguments
import StacksWallet.Proofs.CommandLine.PublicKey
import StacksWallet.Proofs.CommandLine.Transfer
import StacksWallet.Proofs.Wire.Progress
import StacksWallet.Proofs.Node.Retry
import StacksWallet.Proofs.Node.Acceptance
import StacksWallet.Proofs.Node.Target
import StacksWallet.Proofs.Node.Nonce
import StacksWallet.Proofs.Config
