import Aether.Handshake.Context
import Aether.Stream.Stream

/-! Connections (`connection.rs`): what they are and how they are set up.

A UDP socket refuses a datagram or takes it, which is the environment's doing
(`Socket.refuses`); what it receives is an argument of the functions that wait for
it, as random draws are arguments of those that draw. Fields that are set and
never read (the receive counter, pending acknowledgements, the idle timeout, the
address and the identity) are left out. -/
namespace Aether
open Octets Octets.Method

/-! ### Sockets -/

structure Socket where
  /-- What is wrong with the `n`th datagram, if anything. -/
  refuses : Nat → Option String
  attempts : Nat
  sent : List Bytes

namespace Socket

def send (datagram : Bytes) : Action Socket Unit := do
  let s ← get
  match s.refuses s.attempts with
  | some text => do
    set { s with attempts := s.attempts + 1 }
    throw (.err (.io text))
  | none => set { s with attempts := s.attempts + 1, sent := s.sent ++ [datagram] }

/-- A socket that has taken a datagram. -/
def taking (s : Socket) (datagram : Bytes) : Socket :=
  { s with attempts := s.attempts + 1, sent := s.sent ++ [datagram] }

theorem exec_send_taken {s : Socket} {datagram : Bytes} (h : s.refuses s.attempts = none) :
    (send datagram).exec s = (.ok (), s.taking datagram) := by
  rw [send, exec_get_bind, h]
  rfl

theorem exec_send_refused {s : Socket} {datagram : Bytes} {text : String} (h : s.refuses s.attempts = some text) :
    (send datagram).exec s = (fail (.io text), { s with attempts := s.attempts + 1 }) := by
  rw [send, exec_get_bind, h]
  rfl

theorem exec_send_eq_ok {s s' : Socket} {datagram : Bytes} {u : Unit} :
    (send datagram).exec s = (.ok u, s') ↔ s.refuses s.attempts = none ∧ s' = s.taking datagram := by
  cases hrefuses : s.refuses s.attempts with
  | none =>
    rw [exec_send_taken hrefuses]
    constructor
    · intro h
      cases h
      exact ⟨rfl, rfl⟩
    · intro h
      rw [h.2]
  | some text =>
    rw [exec_send_refused hrefuses]
    constructor
    · intro h
      cases h
    · intro h
      cases h.1

end Socket

/-- A datagram, or an error, as it is read into a new buffer of `size` octets. -/
def received (arrived : Except String Bytes) (size : Nat) : Result Bytes :=
  -- `vec!` makes the buffer before anything is read into it
  if size > isizeMax then .error .panic
  else
    match arrived with
    | .ok datagram => .ok (datagram.take size)
    | .error text => fail (.io text)

theorem received_eq_ok {arrived : Except String Bytes} {size : Nat} {data : Bytes} :
    received arrived size = .ok data ↔
      size ≤ isizeMax ∧ ∃ datagram, arrived = .ok datagram ∧ data = datagram.take size := by
  by_cases hroom : size ≤ isizeMax
  · cases arrived with
    | ok datagram => simp [received, Nat.not_lt.mpr hroom, hroom, eq_comm]
    | error text => simp [received, Nat.not_lt.mpr hroom, fail]
  · simp [received, Nat.lt_of_not_le hroom, hroom]

/-- `unwrap` -/
def unwrap {α : Type} (o : Option α) : Result α :=
  match o with
  | some a => .ok a
  | none => .error .panic

@[simp] theorem unwrap_eq_ok {α : Type} {o : Option α} {a : α} : unwrap o = .ok a ↔ o = some a := by
  cases o <;> simp [unwrap]

/-! ### Connections -/

structure Config where
  capabilities : Capabilities
  recvBufferSize : Nat

inductive ConnectionState where
  | init
  | handshaking
  | active
  | closing
  | closed
  deriving DecidableEq, Repr

structure ConnectionStats where
  packetsSent : UInt64
  packetsReceived : UInt64
  bytesSent : UInt64
  bytesReceived : UInt64

namespace ConnectionStats

def default : ConnectionStats := ⟨0, 0, 0, 0⟩

def countSent (s : ConnectionStats) (size : Nat) : ConnectionStats :=
  { s with packetsSent := s.packetsSent + 1, bytesSent := s.bytesSent + UInt64.ofNat size }

def countReceived (s : ConnectionStats) (size : Nat) : ConnectionStats :=
  { s with packetsReceived := s.packetsReceived + 1, bytesReceived := s.bytesReceived + UInt64.ofNat size }

end ConnectionStats

section
variable {P : Primitives}

variable (P) in
structure Connection where
  socket : Socket
  ourConnectionId : UInt32
  peerConnectionId : Option UInt32
  state : ConnectionState
  handshake : Option (HandshakeContext P)
  aead : Option (AeadSession P)
  streams : StreamManager
  config : Config
  stats : ConnectionStats
  isClient : Bool
  txPacketNumber : UInt64
  incomingFrames : List Frame

namespace Connection

/-- The window both sides start their stream managers with. -/
def connectionWindow : UInt64 := 16 * 1024 * 1024

/-! ### Set-up -/

def onSocket {α : Type} (m : Action Socket α) : Action (Connection P) α :=
  focus Connection.socket (fun socket c => { c with socket }) m

/-- `self.handshake.as_mut().unwrap()` -/
def onHandshake {α : Type} (m : Action (HandshakeContext P) α) : Action (Connection P) α := do
  let c ← get
  let hs ← liftM (unwrap c.handshake)
  focus (fun _ => hs) (fun hs c => { c with handshake := some hs }) m

/-- A frame read into a buffer of a packet's size. -/
def frameReceived (arrived : Except String Bytes) : Result Frame := do
  let datagram ← received arrived maxPacketSize
  Frame.decode datagram

def performClientHandshake (identity : Identity P) (secret : P.Scalar)
    (serverHello serverFinished : Except String Bytes) : Action (Connection P) Unit := do
  let c ← get
  let chFrame ← onHandshake (HandshakeContext.createClientHello secret identity c.config.capabilities)
  onSocket (Socket.send chFrame.encode)
  let shFrame ← liftM (frameReceived serverHello)
  onHandshake (HandshakeContext.handleServerHello shFrame)
  let sfFrame ← liftM (frameReceived serverFinished)
  let cfFrame ← onHandshake (HandshakeContext.handleFinishedAndRespond sfFrame)
  onSocket (Socket.send cfFrame.encode)
  let c ← get
  let hs ← liftM (unwrap c.handshake)
  let sessionKey ← liftM (unwrap hs.sessionKey)
  let peerConnectionId ← liftM (unwrap hs.peerConnectionId)
  set { c with
    aead := some (AeadSession.new sessionKey .aes256Gcm)
    peerConnectionId := some (truncateCid peerConnectionId) }

/-- The connection that `connect` starts from. -/
def newClient (socket : Socket) (config : Config) (connectionId : UInt64) : Connection P :=
  { socket
    ourConnectionId := truncateCid connectionId
    peerConnectionId := none
    state := .init
    handshake := some (HandshakeContext.newClient connectionId)
    aead := none
    streams := StreamManager.init true config.capabilities.maxStreams config.capabilities.maxStreamData
      connectionWindow
    config
    stats := ConnectionStats.default
    isClient := true
    txPacketNumber := 0
    incomingFrames := [] }

def connect (socket : Socket) (config : Config) (identity : Identity P) (connectionId : UInt64) (secret : P.Scalar)
    (serverHello serverFinished : Except String Bytes) : Result (Connection P) :=
  let r := (performClientHandshake identity secret serverHello serverFinished).exec
    (newClient socket config connectionId)
  match r.1 with
  | .ok _ => .ok { r.2 with state := .active }
  | .error e => .error e

def accept (config : Config) (identity : Identity P) (connectionId : UInt64) (secret : P.Scalar)
    (clientHello clientFinished : Except String Bytes) : Action Socket (Connection P) := do
  let frame ← liftM (frameReceived clientHello)
  if frame.header.frameType ≠ .initial then
    throw (.err (.protocolViolation "Expected Initial packet"))
  else do
    let sh := (HandshakeContext.handleClientHello connectionId secret frame identity config.capabilities).exec
      HandshakeContext.newServer
    let shFrame ← liftM sh.1
    Socket.send shFrame.encode
    let sfFrame ← liftM sh.2.createFinished
    Socket.send sfFrame.encode
    let cfFrame ← liftM (frameReceived clientFinished)
    let cf := (HandshakeContext.verifyFinished cfFrame).exec sh.2
    liftM cf.1
    let hs := cf.2
    let sessionKey ← liftM (unwrap hs.sessionKey)
    let peerConnectionId ← liftM (unwrap hs.peerConnectionId)
    let socket ← get
    return {
      socket
      ourConnectionId := truncateCid hs.ourConnectionId
      peerConnectionId := some (truncateCid peerConnectionId)
      state := .active
      handshake := some hs
      aead := some (AeadSession.new sessionKey .aes256Gcm)
      streams := StreamManager.init false config.capabilities.maxStreams config.capabilities.maxStreamData
        connectionWindow
      config
      stats := ConnectionStats.default
      isClient := false
      txPacketNumber := 0
      incomingFrames := [] }

/-- The associated data: the sender's own connection ID and a packet number that
nothing counts up. -/
def makeAad (c : Connection P) : Bytes :=
  toBe 4 c.ourConnectionId.toNat ++ toBe 8 c.txPacketNumber.toNat

/-- `self.peer_connection_id.unwrap_or(self.our_connection_id)` -/
def destination (c : Connection P) : UInt32 := c.peerConnectionId.getD c.ourConnectionId

def isActive (c : Connection P) : Bool := c.state == .active

end Connection

end

end Aether
