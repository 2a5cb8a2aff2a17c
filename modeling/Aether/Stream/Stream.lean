import Mathlib.Data.List.AList
import Mathlib.Data.List.Sort
import Aether.Framing.Frame

/-! Streams (`stream.rs`): flow control, the receive buffer, the stream manager.

Counters wrap at their widths, as they do in a release build. The manager's table
is an association list without repeated keys; where the source goes through its
hash table the order means nothing, and nothing below depends on it. -/
namespace Aether
open Octets

/-! ### States and flow control -/

inductive StreamState where
  | idle
  | open
  /-- We have sent FIN. -/
  | halfClosedLocal
  /-- The peer has sent FIN. -/
  | halfClosedRemote
  | closed
  deriving DecidableEq, Repr

namespace StreamState

def canWrite : StreamState → Bool
  | .open => true
  | _ => false

def canRead : StreamState → Bool
  | .open | .halfClosedLocal => true
  | _ => false

def isClosed : StreamState → Bool
  | .closed => true
  | _ => false

/-- `{:?}` -/
def debug : StreamState → String
  | .idle => "Idle"
  | .open => "Open"
  | .halfClosedLocal => "HalfClosedLocal"
  | .halfClosedRemote => "HalfClosedRemote"
  | .closed => "Closed"

end StreamState

structure FlowControl where
  /-- The offset up to which the receiver lets us send. -/
  maxOffset : UInt64
  receivedOffset : UInt64
  sentOffset : UInt64
  maxWindow : UInt64
  deriving DecidableEq

namespace FlowControl

def new (maxWindow : UInt64) : FlowControl := ⟨maxWindow, 0, 0, maxWindow⟩

def canSend (fc : FlowControl) (dataLen : Nat) : Bool :=
  fc.sentOffset + UInt64.ofNat dataLen ≤ fc.maxOffset

/-- The offset reserved, as a `u32`. -/
def reserveSend (fc : FlowControl) (dataLen : Nat) : UInt32 × FlowControl :=
  (fc.sentOffset.toUInt32, { fc with sentOffset := fc.sentOffset + UInt64.ofNat dataLen })

def updateWindow (fc : FlowControl) (newMax : UInt64) : FlowControl :=
  if newMax > fc.maxOffset then { fc with maxOffset := newMax } else fc

def received (fc : FlowControl) (offset length : UInt32) : FlowControl :=
  let last := offset.toUInt64 + length.toUInt64
  if last > fc.receivedOffset then { fc with receivedOffset := last } else fc

/-- `saturating_sub` -/
def availableWindow (fc : FlowControl) : UInt64 :=
  if fc.maxOffset ≤ fc.sentOffset then 0 else fc.maxOffset - fc.sentOffset

end FlowControl

/-! ### A stream -/

/-- `isize::MAX`: no vector has room for more octets. -/
def isizeMax : Nat := 2 ^ 63 - 1

structure Stream where
  id : StreamId
  state : StreamState
  flowControl : FlowControl
  /-- Fragments received and not read yet, with their offsets. -/
  receiveBuffer : List (UInt32 × Bytes)
  isClient : Bool
  deriving DecidableEq

namespace Stream

/-- `Stream::new` -/
def init (id : StreamId) (isClient : Bool) (maxStreamWindow : UInt64) : Stream :=
  { id, state := .open, flowControl := FlowControl.new maxStreamWindow, receiveBuffer := [], isClient }

def closeWrite (s : Stream) : Stream :=
  match s.state with
  | .open => { s with state := .halfClosedLocal }
  | .halfClosedRemote => { s with state := .closed }
  | _ => s

def closeRead (s : Stream) : Stream :=
  match s.state with
  | .open => { s with state := .halfClosedRemote }
  | .halfClosedLocal => { s with state := .closed }
  | _ => s

/-- The offset for the frame that carries `data`. -/
def write (data : Bytes) : Action Stream UInt32 := do
  let s ← get
  if !s.state.canWrite then
    throw (.err (.invalidState s!"Stream {s.id} is in state {s.state.debug}, cannot write"))
  else if !s.flowControl.canSend data.length then
    throw (.err (.flowControl
      s!"Stream {s.id} flow control limit reached: sent={s.flowControl.sentOffset}, max={s.flowControl.maxOffset}, trying to send {data.length}"))
  else do
    let (offset, flowControl) := s.flowControl.reserveSend data.length
    set { s with flowControl }
    return offset

/-- `sort_by_key` on the offset, which is stable. -/
def sortByOffset (buffer : List (UInt32 × Bytes)) : List (UInt32 × Bytes) :=
  buffer.insertionSort fun a b => a.1 ≤ b.1

/-- The loop of `read`: what it has put together, and how many fragments that took. -/
def collect (maxLen : Nat) : List (UInt32 × Bytes) → Bytes → UInt32 → Nat → Bytes × Nat
  | [], result, _, consumed => (result, consumed)
  | (offset, data) :: rest, result, expectedOffset, consumed =>
    if offset ≠ expectedOffset then (result, consumed)
    else if (result ++ data).length ≥ maxLen then (result ++ data, consumed + 1)
    else collect maxLen rest (result ++ data) (expectedOffset + UInt32.ofNat data.length) (consumed + 1)

def read (maxLen : Nat) : Action Stream Bytes := do
  let s ← get
  if !s.state.canRead && s.receiveBuffer.isEmpty then
    throw (.err (.invalidState s!"Stream {s.id} is in state {s.state.debug}, cannot read"))
  else if s.receiveBuffer.isEmpty then return []
  else do
    let buffer := sortByOffset s.receiveBuffer
    set { s with receiveBuffer := buffer }
    match buffer with
    | [] => throw .panic
    | (first, _) :: _ =>
      if first ≠ 0 then return []
      -- `Vec::with_capacity(max_len)`
      else if maxLen > isizeMax then throw .panic
      else do
        let (result, consumed) := collect maxLen buffer [] 0 0
        set { s with receiveBuffer := buffer.drop consumed }
        return result

def receiveData (s : Stream) (offset : UInt32) (data : Bytes) : Stream :=
  { s with
    receiveBuffer := s.receiveBuffer ++ [(offset, data)]
    flowControl := s.flowControl.received offset (UInt32.ofNat data.length) }

end Stream

/-! ### The manager -/

structure StreamManager where
  streams : AList fun _ : StreamId => Stream
  nextClientStreamId : StreamId
  nextServerStreamId : StreamId
  maxStreams : UInt32
  initialStreamWindow : UInt64
  connectionFlowWindow : UInt64
  connectionSent : UInt64
  isClient : Bool

namespace StreamManager

/-- `StreamManager::new` -/
def init (isClient : Bool) (maxStreams : UInt32) (initialStreamWindow connectionFlowWindow : UInt64) :
    StreamManager :=
  { streams := ∅
    nextClientStreamId := if isClient then 2 else 0
    nextServerStreamId := if isClient then 0 else 1
    maxStreams, initialStreamWindow, connectionFlowWindow
    connectionSent := 0
    isClient }

def streamCount (m : StreamManager) : Nat := m.streams.entries.length

/-- The counter moves on also where the ID it gave is out of range. -/
def openStream : Action StreamManager StreamId := do
  let m ← get
  if m.streamCount ≥ m.maxStreams.toNat then
    throw (.err (.flowControl s!"Maximum streams reached: {m.maxStreams}"))
  else do
    let (streamId, m) :=
      if m.isClient then
        (m.nextClientStreamId, { m with nextClientStreamId := m.nextClientStreamId + 2 })
      else
        (m.nextServerStreamId, { m with nextServerStreamId := m.nextServerStreamId + 2 })
    set m
    if streamId > maxStreamId then
      throw (.err (.flowControl "Stream ID exhausted"))
    else do
      let stream := Stream.init streamId m.isClient m.initialStreamWindow
      set { m with streams := m.streams.insert streamId stream }
      return streamId

def acceptStream (streamId : StreamId) : Action StreamManager Unit := do
  let m ← get
  if streamId ∈ m.streams then
    throw (.err (.protocolViolation s!"Stream {streamId} already exists"))
  else do
    let isClient := streamId % 2 == 0
    let stream := Stream.init streamId isClient m.initialStreamWindow
    set { m with streams := m.streams.insert streamId stream }

def getStream (m : StreamManager) (streamId : StreamId) : Result Stream :=
  match m.streams.lookup streamId with
  | some stream => .ok stream
  | none => fail (.streamClosed streamId "Stream not found")

/-- Write back through `get_stream_mut`, or remove what is fully closed. -/
def putOrRemove (streamId : StreamId) (stream : Stream) : Action StreamManager Unit :=
  modify fun m =>
    if stream.state.isClosed then { m with streams := m.streams.erase streamId }
    else { m with streams := m.streams.replace streamId stream }

def closeStream (streamId : StreamId) : Action StreamManager Unit := do
  let m ← get
  let stream ← liftM (m.getStream streamId)
  putOrRemove streamId stream.closeRead

def shutdownStream (streamId : StreamId) : Action StreamManager Unit := do
  let m ← get
  let stream ← liftM (m.getStream streamId)
  putOrRemove streamId stream.closeWrite.closeRead

def canSendConnection (m : StreamManager) (dataLen : Nat) : Bool :=
  m.connectionSent + UInt64.ofNat dataLen ≤ m.connectionFlowWindow

def reserveConnectionSend (m : StreamManager) (dataLen : Nat) : StreamManager :=
  { m with connectionSent := m.connectionSent + UInt64.ofNat dataLen }

def updateConnectionWindow (m : StreamManager) (newWindow : UInt64) : StreamManager :=
  if newWindow > m.connectionFlowWindow then { m with connectionFlowWindow := newWindow } else m

def activeStreams (m : StreamManager) : List StreamId := m.streams.keys

def hasStream (m : StreamManager) (streamId : StreamId) : Bool := streamId ∈ m.streams

def readableStreams (m : StreamManager) : List StreamId :=
  (m.streams.entries.filter fun e => !e.2.receiveBuffer.isEmpty && e.2.state.canRead).map fun e => e.1

end StreamManager

end Aether
