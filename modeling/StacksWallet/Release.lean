import StacksWallet.Text.Basic

/-!
# Release

The number of this release, with a note on the build where one is known.
-/

namespace StacksWallet

/-- The number of this release. -/
def releaseNumber : Text := "0.1.0"

/-- A release number with a note on the build. -/
def describeRelease (number note : Text) : Text := if note.isEmpty then number else number ++ " (" ++ note ++ ")"

/-- How the client names itself to nodes. -/
def defaultUserAgent : Text := "stacks-sdk-py/" ++ releaseNumber

end StacksWallet
