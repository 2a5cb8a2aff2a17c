import Aether.Library.Method

/-! Errors of the protocol (`error.rs`) and the shapes results take.

A `Result` is what a function returns: a value, an `Error`, or an abort on an
index out of range. Errors carry the texts the source gives them, since a text is
all a caller sees of most of them. -/
namespace Aether
open Octets

/-- Stream ID (18 bits, 0–262143). -/
abbrev StreamId := UInt32

/-- `Instant`, in nanoseconds. -/
abbrev Instant := Nat

/-- Why a connection is closed. -/
inductive CloseCode where
  | noError
  | internalError
  | protocolViolation
  | cryptoError
  | flowControlError
  | timeout
  | versionNegotiation
  | refused
  | identityRejected
  deriving DecidableEq, Repr

def CloseCode.toU8 : CloseCode → UInt8
  | .noError => 0x00
  | .internalError => 0x01
  | .protocolViolation => 0x02
  | .cryptoError => 0x03
  | .flowControlError => 0x04
  | .timeout => 0x05
  | .versionNegotiation => 0x06
  | .refused => 0x07
  | .identityRejected => 0x08

inductive Error where
  | io (e : String)
  | protocolViolation (msg : String)
  | crypto (msg : String)
  | flowControl (msg : String)
  | timeout (msg : String)
  | versionNegotiation (msg : String)
  | connectionClosed (code : CloseCode) (msg : String)
  | streamClosed (id : StreamId) (msg : String)
  | identityRejected (msg : String)
  | invalidState (msg : String)
  | packetTooLarge (size max : Nat)
  | internal (msg : String)
  deriving DecidableEq

abbrev Result (α : Type) := Outcome Error α

/-- `return Err(e)` -/
def fail {α : Type} (e : Error) : Result α := .error (.err e)

/-- Methods of an object with state `σ` that return a `Result`. -/
abbrev Action (σ α : Type) := Method Error σ α

/-! ### Constants of the crate root -/

/-- Protocol version. -/
def aetherVersion : UInt8 := 0

/-- 1400 less the longest header. -/
def maxPayloadSize : Nat := 1376

end Aether
