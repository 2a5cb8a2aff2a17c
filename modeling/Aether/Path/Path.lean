import Mathlib.Data.List.AList
import Aether.Framing.Frame
import Aether.Library.Tables

/-! Paths (`multipath.rs`): challenges, their answers, and what is recorded of a path.

Addresses are compared by nothing and computed with nowhere, so their type is a
parameter. What the clock shows and the nonces that are drawn are arguments; where
the source reads the clock twice in a row the second reading is the one that stays. -/
namespace Aether
open Octets

/-- Path ID (8 bits, 0–255). -/
abbrev PathId := UInt8

structure PathState (Addr : Type) where
  id : PathId
  localAddr : Addr
  remoteAddr : Addr
  active : Bool
  /-- The last RTT, smoothed, in microseconds. -/
  rttUs : UInt64
  packetsLost : UInt64
  packetsSent : UInt64
  lastActive : Instant
  /-- The nonce of a challenge that has not been answered. -/
  challengeNonce : Option UInt64

/-- `PathState::new` -/
def PathState.new {Addr : Type} (id : PathId) (localAddr remoteAddr : Addr) (now : Instant) : PathState Addr :=
  { id, localAddr, remoteAddr
    active := false
    rttUs := 0
    packetsLost := 0
    packetsSent := 0
    lastActive := now
    challengeNonce := none }

structure PathManager (Addr : Type) where
  paths : AList fun _ : PathId => PathState Addr
  nextPathId : PathId
  primaryPathId : PathId
  maxPaths : Nat
  connectionId : UInt64

namespace PathManager
variable {Addr : Type}

/-- `PathManager::new` -/
def new (connectionId : UInt64) (maxPaths : Nat) : PathManager Addr :=
  { paths := ∅, nextPathId := 1, primaryPathId := 0, maxPaths, connectionId }

def registerPrimary (localAddr remoteAddr : Addr) (now : Instant) : Action (PathManager Addr) PathId := do
  let path := { PathState.new 0 localAddr remoteAddr now with active := true }
  modify fun m => { m with paths := m.paths.insert 0 path, primaryPathId := 0 }
  return 0

/-- `(self.connection_id >> 32) as u32` -/
def frameConnectionId (m : PathManager Addr) : UInt32 := (m.connectionId >>> 32).toUInt32

/-- `nonce` is the random number the source draws. -/
def createPathChallenge (localAddr remoteAddr : Addr) (nonce : UInt64) (now : Instant) :
    Action (PathManager Addr) (Frame × PathId) := do
  let m ← get
  if size m.paths ≥ m.maxPaths then
    throw (.err (.flowControl s!"Maximum paths reached: {m.maxPaths}"))
  else do
    let pathId := m.nextPathId
    let path := { PathState.new pathId localAddr remoteAddr now with
      challengeNonce := some nonce
      lastActive := now }
    set { m with nextPathId := m.nextPathId + 1, paths := m.paths.insert pathId path }
    return (Frame.pathChallenge m.frameConnectionId pathId nonce, pathId)

/-! ### Frames -/

/-- The loop of `extract_path_id`. -/
def extractFrom : List Extension → Result PathId
  | [] => fail (.protocolViolation "Missing PathId extension")
  | ext :: rest =>
    if ext.extType = .pathId then
      if ext.value.isEmpty then fail (.protocolViolation "Empty PathId extension") else index ext.value 0
    else extractFrom rest

def extractPathId (frame : Frame) : Result PathId := extractFrom frame.extensions

/-- The nonce at the beginning of a payload, or the error that it is too short. -/
def payloadNonce (tooShort : String) (frame : Frame) : Result UInt64 :=
  if frame.payload.length ≥ 8 then do return UInt64.ofNat (← word 8 frame.payload 0)
  else fail (.protocolViolation tooShort)

/-- `{:?}` -/
def debugNonce : Option UInt64 → String
  | some nonce => s!"Some({nonce})"
  | none => "None"

def handlePathResponse (frame : Frame) (now : Instant) : Action (PathManager Addr) PathId := do
  let pathId ← liftM (extractPathId frame)
  let nonce ← liftM (payloadNonce "PathResponse payload too short" frame)
  let m ← get
  match m.paths.lookup pathId with
  | none => throw (.err (.protocolViolation s!"Unknown path ID: {pathId}"))
  | some path =>
    if path.challengeNonce ≠ some nonce then
      throw (.err (.crypto
        s!"PathResponse nonce mismatch for path {pathId}: expected {debugNonce path.challengeNonce}, got {nonce}"))
    else do
      set { m with
        paths := m.paths.replace pathId { path with active := true, challengeNonce := none, lastActive := now } }
      return pathId

/-- An ID that is not in the table is put in. -/
def handlePathChallenge (frame : Frame) (remoteAddr localAddr : Addr) (now : Instant) :
    Action (PathManager Addr) (Frame × PathId) := do
  let pathId ← liftM (extractPathId frame)
  let nonce ← liftM (payloadNonce "PathChallenge payload too short" frame)
  let m ← get
  let path := (m.paths.lookup pathId).getD (PathState.new pathId localAddr remoteAddr now)
  set { m with paths := m.paths.insert pathId { path with remoteAddr, lastActive := now, active := true } }
  return (Frame.pathResponse m.frameConnectionId pathId nonce, pathId)

/-! ### What is recorded -/

/-- A change of one path, if it is there. -/
def withPath (pathId : PathId) (change : PathState Addr → PathState Addr) (m : PathManager Addr) : PathManager Addr :=
  match m.paths.lookup pathId with
  | some path => { m with paths := m.paths.replace pathId (change path) }
  | none => m

def deactivatePath (pathId : PathId) : PathManager Addr → PathManager Addr :=
  withPath pathId fun path => { path with active := false }

def recordSend (pathId : PathId) (now : Instant) : PathManager Addr → PathManager Addr :=
  withPath pathId fun path => { path with packetsSent := path.packetsSent + 1, lastActive := now }

def recordLoss (pathId : PathId) : PathManager Addr → PathManager Addr :=
  withPath pathId fun path => { path with packetsLost := path.packetsLost + 1 }

/-- A first RTT is taken as it is, a later one smoothed, in doubles. -/
def recordRtt (pathId : PathId) (rttUs : UInt64) : PathManager Addr → PathManager Addr :=
  withPath pathId fun path =>
    if path.rttUs = 0 then { path with rttUs }
    else { path with rttUs := (path.rttUs.toFloat * 0.875 + rttUs.toFloat * 0.125).toUInt64 }

/-- `duration_since` is 0 for a later instant, and `as_millis() as u64` keeps 64 bits. -/
def timedOut (timeoutMs : UInt64) (now : Instant) (path : PathState Addr) : Bool :=
  path.active && UInt64.ofNat ((now - path.lastActive) / 1000000) > timeoutMs

def checkTimeouts (timeoutMs : UInt64) (now : Instant) (m : PathManager Addr) : PathManager Addr :=
  { m with paths :=
      mapValues (fun path => if timedOut timeoutMs now path then { path with active := false } else path) m.paths }

end PathManager

end Aether
