import Mathlib.Algebra.GroupWithZero.Nat
import Aether.Error

/-! The wire format (`framing.rs`): headers, the extension chain, frames.

Every function is the source's, on octet lists: `encode` returns what the source
appends to its buffer, `decode` reads at the positions the source indexes and is
aborted where an index or a slice leaves the data. The long and the short branch
of `Frame::decode` go on after their headers with the same text, a chain loop and
a payload slice; here that text is `decodeRest`. -/
namespace Aether
open Octets

def maxPacketSize : Nat := 1400

def shortHeaderSize : Nat := 16

def longHeaderSize : Nat := 24

/-- The largest 18-bit Stream ID. -/
def maxStreamId : StreamId := 0x3FFFF

/-- Stream of the connection itself. -/
def controlStreamId : StreamId := 0

/-! ### Frame types -/

inductive FrameType where
  | initial
  | handshake
  | data
  | ack
  | close
  | ping
  | pathChallenge
  | pathResponse
  | streamOpen
  | streamClose
  deriving DecidableEq, Repr

namespace FrameType

def fromU8 (value : UInt8) : Option FrameType :=
  match (value &&& 0x3F).toNat with
  | 0x00 => some initial
  | 0x01 => some handshake
  | 0x02 => some data
  | 0x03 => some ack
  | 0x04 => some close
  | 0x05 => some ping
  | 0x06 => some pathChallenge
  | 0x07 => some pathResponse
  | 0x08 => some streamOpen
  | 0x09 => some streamClose
  | _ => none

def toU8 : FrameType → UInt8
  | initial => 0x00
  | handshake => 0x01
  | data => 0x02
  | ack => 0x03
  | close => 0x04
  | ping => 0x05
  | pathChallenge => 0x06
  | pathResponse => 0x07
  | streamOpen => 0x08
  | streamClose => 0x09

def requiresLongHeader : FrameType → Bool
  | initial | handshake => true
  | _ => false

/-- `{:?}` -/
def debug : FrameType → String
  | initial => "Initial"
  | handshake => "Handshake"
  | data => "Data"
  | ack => "Ack"
  | close => "Close"
  | ping => "Ping"
  | pathChallenge => "PathChallenge"
  | pathResponse => "PathResponse"
  | streamOpen => "StreamOpen"
  | streamClose => "StreamClose"

end FrameType

/-- `{:02x}` -/
def hex02 (b : UInt8) : String :=
  String.ofList [Nat.digitChar (b.toNat / 16), Nat.digitChar (b.toNat % 16)]

/-! ### Extensions -/

inductive ExtType where
  | terminator
  | timestamp
  | priority
  | padding
  | pathId
  | flowControl
  deriving DecidableEq, Repr

namespace ExtType

def fromU8 (value : UInt8) : Option ExtType :=
  match value.toNat with
  | 0x00 => some terminator
  | 0x01 => some timestamp
  | 0x02 => some priority
  | 0x03 => some padding
  | 0x04 => some pathId
  | 0x05 => some flowControl
  | _ => none

def toU8 : ExtType → UInt8
  | terminator => 0x00
  | timestamp => 0x01
  | priority => 0x02
  | padding => 0x03
  | pathId => 0x04
  | flowControl => 0x05

end ExtType

structure Extension where
  extType : ExtType
  value : Bytes
  deriving DecidableEq

namespace Extension

/-- One type octet, three length octets, the value. -/
def wireSize (e : Extension) : Nat := 4 + e.value.length

/-- The length is written as the low three octets of a `u32`. -/
def encode (e : Extension) : Bytes :=
  e.extType.toU8 :: ((toBe 4 (UInt32.ofNat e.value.length).toNat).drop 1 ++ e.value)

/-- An unknown type octet reads as `terminator`. -/
def decode (data : Bytes) : Result (Extension × Nat) :=
  if data.length < 4 then
    fail (.protocolViolation "Extension too short")
  else do
    let extType := (ExtType.fromU8 (← index data 0)).getD .terminator
    let len ← word 3 data 1
    if data.length < 4 + len then
      fail (.protocolViolation
        s!"Extension value truncated: need {len} bytes, have {data.length - 4}")
    else do
      let value ← slice data 4 (4 + len)
      return (⟨extType, value⟩, 4 + len)

end Extension

/-- The end of an extension chain. -/
def extensionTerminator : Extension := ⟨.terminator, []⟩

/-! ### Headers -/

structure ShortHeader where
  version : UInt8
  frameType : FrameType
  hasExtensions : Bool
  streamId : UInt32
  offset : UInt32
  length : UInt32
  connectionId : UInt32
  deriving DecidableEq

namespace ShortHeader

/-- The sixteen octets of a header whose H bit is `hBit`. -/
def encodeWith (hBit : UInt8) (h : ShortHeader) : Bytes :=
  let byte0 := ((h.version &&& 0x0F) <<< 4) ||| ((h.frameType.toU8 &&& 0x3F) >>> 2)
  let eBit : UInt8 := if h.hasExtensions then 0x10 else 0
  let streamIdHi := ((h.streamId >>> 16) &&& 0x03).toUInt8
  let typeLo := (h.frameType.toU8 &&& 0x03) <<< 6
  let byte1 := typeLo ||| hBit ||| eBit ||| streamIdHi
  byte0 :: byte1 :: (toBe 2 h.streamId.toUInt16.toNat ++ (toBe 4 h.offset.toNat ++
    (toBe 4 h.length.toNat ++ toBe 4 h.connectionId.toNat)))

def encode (h : ShortHeader) : Bytes := h.encodeWith 0

def decode (data : Bytes) : Result ShortHeader :=
  if data.length < shortHeaderSize then
    fail (.protocolViolation s!"Short header too short: {data.length} bytes, need 16")
  else do
    let byte0 ← index data 0
    let byte1 ← index data 1
    let version := (byte0 >>> 4) &&& 0x0F
    let hasExtensions := byte1 &&& 0x10 != 0
    let streamIdHi := (byte1 &&& 0x03).toUInt32
    let typeHi := (byte0 &&& 0x0F) &&& 0x3F
    let typeLo := (byte1 >>> 6) &&& 0x03
    let frameTypeRaw := (typeHi <<< 2) ||| typeLo
    match FrameType.fromU8 frameTypeRaw with
    | none => fail (.protocolViolation s!"Unknown frame type: 0x{hex02 frameTypeRaw}")
    | some frameType => do
      let streamIdLo := UInt32.ofNat (← word 2 data 2)
      let streamId := (streamIdHi <<< 16) ||| streamIdLo
      let offset := UInt32.ofNat (← word 4 data 4)
      let length := UInt32.ofNat (← word 4 data 8)
      let connectionId := UInt32.ofNat (← word 4 data 12)
      return { version, frameType, hasExtensions, streamId, offset, length, connectionId }

end ShortHeader

structure LongHeader where
  short : ShortHeader
  sourceConnectionId : UInt64
  deriving DecidableEq

namespace LongHeader

def new (frameType : FrameType) (streamId destConnectionId : UInt32) (sourceConnectionId : UInt64)
    (hasExtensions : Bool) (offset length : UInt32) : LongHeader :=
  ⟨{ version := aetherVersion, frameType, hasExtensions, streamId, offset, length,
     connectionId := destConnectionId }, sourceConnectionId⟩

/-- The short header with H = 1, then the source connection ID. -/
def encode (l : LongHeader) : Bytes :=
  l.short.encodeWith 0x20 ++ toBe 8 l.sourceConnectionId.toNat

def decode (data : Bytes) : Result LongHeader :=
  if data.length < longHeaderSize then
    fail (.protocolViolation s!"Long header too short: {data.length} bytes, need 24")
  else do
    let short ← ShortHeader.decode (← slice data 0 16)
    let sourceConnectionId := UInt64.ofNat (← word 8 data 16)
    return ⟨short, sourceConnectionId⟩

end LongHeader

/-! ### Frames -/

structure Frame where
  longHeader : Option LongHeader
  header : ShortHeader
  extensions : List Extension
  payload : Bytes
  deriving DecidableEq

/-- Reading an extension consumes its four fixed octets at least. -/
theorem Extension.decode_consumed {data : Bytes} {e : Extension} {n : Nat}
    (h : Extension.decode data = .ok (e, n)) : 4 ≤ n := by
  unfold Extension.decode at h
  split at h
  · cases h
  · simp only [bind, Except.bind] at h
    split at h
    · cases h
    · split at h
      · cases h
      · split at h
        · cases h
        · split at h
          · cases h
          · cases h
            exact Nat.le_add_right 4 _

/-- The chain loop of `Frame::decode` from `offset`: extensions are collected up
to a terminator, and reading goes on after it. -/
def readExtensions (data : Bytes) (offset : Nat) (extensions : List Extension) :
    Result (List Extension × Nat) :=
  if data.length ≤ offset then
    fail (.protocolViolation "Truncated extension chain")
  else
    match _h : sliceFrom data offset >>= Extension.decode with
    | .error e => .error e
    | .ok (ext, consumed) =>
      if ext.extType = .terminator then .ok (extensions, offset + consumed)
      else readExtensions data (offset + consumed) (extensions ++ [ext])
termination_by data.length - offset
decreasing_by
  have hconsumed : 4 ≤ consumed := by
    cases hs : sliceFrom (ε := Error) data offset with
    | error e => rw [hs] at _h; cases _h
    | ok rest => rw [hs] at _h; exact Extension.decode_consumed _h
  omega

def readPayload (data : Bytes) (offset payloadLen : Nat) : Result Bytes :=
  if offset + payloadLen ≤ data.length then
    slice data offset (offset + payloadLen)
  else
    fail (.protocolViolation
      s!"Payload truncated: expected {payloadLen} bytes, available {data.length - offset}")

namespace Frame

def newLong (frameType : FrameType) (streamId destConnectionId : UInt32)
    (sourceConnectionId : UInt64) (payload : Bytes) : Frame :=
  let long := LongHeader.new frameType streamId destConnectionId sourceConnectionId false 0
    (UInt32.ofNat payload.length)
  { longHeader := some long, header := long.short, extensions := [], payload }

def newShort (frameType : FrameType) (streamId connectionId offset : UInt32) (payload : Bytes) :
    Frame :=
  { longHeader := none
    header := { version := aetherVersion, frameType, hasExtensions := false, streamId, offset,
                length := UInt32.ofNat payload.length, connectionId }
    extensions := []
    payload }

/-- The E flag is set in `header` alone. -/
def addExtension (f : Frame) (ext : Extension) : Frame :=
  { f with header := { f.header with hasExtensions := true }, extensions := f.extensions ++ [ext] }

/-- The header of a frame in the form the frame has. -/
def headerOctets (f : Frame) : Bytes :=
  match f.longHeader with
  | some long => long.encode
  | none => f.header.encode

def encode (f : Frame) : Bytes :=
  f.headerOctets ++ ((if f.header.hasExtensions then f.extensions.flatMap Extension.encode ++ extensionTerminator.encode
    else []) ++ f.payload)

/-- What each branch of `decode` does once it has its header: the chain if there
is one, then the payload. -/
def decodeRest (longHeader : Option LongHeader) (header : ShortHeader) (data : Bytes)
    (headerSize : Nat) : Result Frame := do
  let (extensions, offset) ←
    if header.hasExtensions then readExtensions data headerSize [] else pure ([], headerSize)
  let payload ← readPayload data offset header.length.toNat
  return { longHeader, header, extensions, payload }

def decode (data : Bytes) : Result Frame :=
  if data.isEmpty then fail (.protocolViolation "Empty frame")
  else do
    let byte1 ← if 1 < data.length then index data 1 else pure 0
    if byte1 &&& 0x20 != 0 then do
      let long ← LongHeader.decode data
      let header := long.short
      if !header.frameType.requiresLongHeader then
        fail (.protocolViolation
          s!"Frame type {header.frameType.debug} should not use long header")
      else
        decodeRest (some long) header data longHeaderSize
    else do
      let header ← ShortHeader.decode data
      decodeRest none header data shortHeaderSize

/-- The size of a frame on the wire. -/
def wireSize (f : Frame) : Nat :=
  (if f.longHeader.isSome then longHeaderSize else shortHeaderSize) +
    (if f.header.hasExtensions then (f.extensions.map Extension.wireSize).sum + 4 else 0) +
    f.payload.length

/-! Constructors of the frames the connection sends. -/

def data (streamId connectionId offset : UInt32) (data : Bytes) : Frame :=
  newShort .data streamId connectionId offset data

def ack (streamId connectionId ackedOffset : UInt32) : Frame :=
  newShort .ack streamId connectionId 0 (toBe 4 ackedOffset.toNat)

/-- `nonce` is the random number the source draws. -/
def ping (connectionId : UInt32) (nonce : UInt64) : Frame :=
  newShort .ping controlStreamId connectionId 0 (toBe 8 nonce.toNat)

/-- `reason` as octets. -/
def close (connectionId : UInt32) (code : CloseCode) (reason : Bytes) : Frame :=
  newShort .close controlStreamId connectionId 0 (code.toU8 :: reason)

def pathChallenge (connectionId : UInt32) (pathId : UInt8) (nonce : UInt64) : Frame :=
  (newShort .pathChallenge controlStreamId connectionId 0 (toBe 8 nonce.toNat)).addExtension
    ⟨.pathId, [pathId]⟩

def pathResponse (connectionId : UInt32) (pathId : UInt8) (nonce : UInt64) : Frame :=
  (newShort .pathResponse controlStreamId connectionId 0 (toBe 8 nonce.toNat)).addExtension
    ⟨.pathId, [pathId]⟩

def streamOpen (connectionId streamId : UInt32) : Frame :=
  newShort .streamOpen streamId connectionId 0 []

def streamClose (connectionId streamId : UInt32) : Frame :=
  newShort .streamClose streamId connectionId 0 []

end Frame

end Aether
