import Aether.Discovery.Message
import Aether.Library.Runs
import Aether.Library.Tables

/-! The discovery service (`discovery.rs`): a cache of what peers say of themselves.

The cache is behind a lock. A reader waits for the lock and holds it while it reads
(`held`); the handlers of messages try to take it, and where they do not get it they go
on without. What the clock shows is an argument, and datagrams are sent to addresses
by a socket that takes or refuses each. -/
namespace Aether
open Octets Octets.Method

/-- A socket that sends to addresses. -/
structure DatagramSocket (Addr : Type) where
  /-- What is wrong with the `n`th datagram, if anything. -/
  refuses : Nat → Option String
  attempts : Nat
  sent : List (Bytes × Addr)

def DatagramSocket.sendTo {Addr : Type} (datagram : Bytes) (addr : Addr) : Action (DatagramSocket Addr) Unit := do
  let s ← get
  match s.refuses s.attempts with
  | some text => do
    set { s with attempts := s.attempts + 1 }
    throw (.err (.io text))
  | none => set { s with attempts := s.attempts + 1, sent := s.sent ++ [(datagram, addr)] }

/-- Five minutes. -/
def cacheTtl : Nat := 300 * 1000000000

structure DiscoveryService (Addr : Type) where
  socket : DatagramSocket Addr
  peers : AList fun _ : String => PeerInfo Addr × Instant
  /-- A reader has the lock of the cache. -/
  held : Bool
  ourInfo : PeerInfo Addr
  groupAddr : Addr

namespace DiscoveryService
variable {Addr : Type}

/-- `bind`, with the socket and the peer information that it makes. -/
def bind (socket : DatagramSocket Addr) (ourInfo : PeerInfo Addr) (groupAddr : Addr) : DiscoveryService Addr :=
  { socket, peers := ∅, held := false, ourInfo, groupAddr }

def onSocket {α : Type} (m : Action (DatagramSocket Addr) α) : Action (DiscoveryService Addr) α :=
  focus DiscoveryService.socket (fun socket s => { s with socket }) m

/-! ### The cache -/

/-- A record of this node is not kept, nor one that comes while a reader has the lock. -/
def cachePeer (peerInfo : PeerInfo Addr) (now : Instant) (s : DiscoveryService Addr) : DiscoveryService Addr :=
  if peerInfo.identityHash = s.ourInfo.identityHash then s
  else if s.held then s
  else { s with peers := s.peers.insert peerInfo.identityHash (peerInfo, now) }

def removePeer (identityHash : String) (s : DiscoveryService Addr) : DiscoveryService Addr :=
  if s.held then s else { s with peers := s.peers.erase identityHash }

/-- `now.duration_since(cached_at) < CACHE_TTL`; a time that is yet to come has lasted no time. -/
def fresh (now : Instant) (entry : PeerInfo Addr × Instant) : Bool := now - entry.2 < cacheTtl

/-- What is still fresh. -/
def purged (now : Instant) (s : DiscoveryService Addr) : DiscoveryService Addr :=
  { s with peers := retain (fresh now) s.peers }

/-- What a reader returns, from when it has the lock. The order is the table's. -/
def getPeers (now : Instant) : Action (DiscoveryService Addr) (List (PeerInfo Addr)) := do
  modify (purged now)
  let s ← get
  return (values s.peers).map Prod.fst

def findPeer (identityHash : String) (now : Instant) : Action (DiscoveryService Addr) (Option (PeerInfo Addr)) := do
  let peers ← getPeers now
  return peers.find? fun p => p.identityHash = identityHash

/-! ### Messages -/

section
variable (json : PeerInfoJson Addr)

/-- `timestamp` is what the clock shows. -/
def sendAnnounce (timestamp : UInt64) : Action (DiscoveryService Addr) Unit := do
  let s ← get
  let msg := DiscoveryMessage.announce { s.ourInfo with timestamp }
  onSocket (DatagramSocket.sendTo (msg.encode json) s.groupAddr)

def handleMessage (data : Bytes) (srcAddr : Addr) (now : Instant) : Action (DiscoveryService Addr) Unit := do
  let msg ← liftM (DiscoveryMessage.decode json data)
  let s ← get
  match msg.msgType with
  | .announce =>
    if msg.peerInfo.identityHash = s.ourInfo.identityHash then return ()
    else modify (cachePeer msg.peerInfo now)
  | .query =>
    let response := DiscoveryMessage.announce s.ourInfo
    onSocket (DatagramSocket.sendTo (response.encode json) srcAddr)
  | .goodbye => modify (removePeer msg.peerInfo.identityHash)
  | .response => modify (cachePeer msg.peerInfo now)

def shutdown : Action (DiscoveryService Addr) Unit := do
  let s ← get
  let msg := DiscoveryMessage.goodbye s.ourInfo
  onSocket (DatagramSocket.sendTo (msg.encode json) s.groupAddr)

end

/-! ### What a message does to the cache -/

/-- What a message tells of a peer: that it is there, as its information says, or that it has gone. -/
inductive Report (Addr : Type) where
  | present (info : PeerInfo Addr)
  | gone (identityHash : String)

/-- What a datagram tells, if anything. -/
def reportOf (json : PeerInfoJson Addr) (data : Bytes) : Option (Report Addr) :=
  match DiscoveryMessage.decode json data with
  | .error _ => none
  | .ok msg =>
    match msg.msgType with
    | .announce => some (.present msg.peerInfo)
    | .query => none
    | .response => some (.present msg.peerInfo)
    | .goodbye => some (.gone msg.peerInfo.identityHash)

/-- The service once it has been told. -/
def told (s : DiscoveryService Addr) (now : Instant) : Option (Report Addr) → DiscoveryService Addr
  | none => s
  | some (.present info) => s.cachePeer info now
  | some (.gone identityHash) => s.removePeer identityHash

/-- Services that differ in their sockets at most. -/
structure SameCache (s s' : DiscoveryService Addr) : Prop where
  peers : s'.peers = s.peers
  held : s'.held = s.held
  ourInfo : s'.ourInfo = s.ourInfo

theorem SameCache.refl (s : DiscoveryService Addr) : SameCache s s := ⟨rfl, rfl, rfl⟩

theorem sameCache_onSocket {α : Type} (m : Action (DatagramSocket Addr) α) (s : DiscoveryService Addr) :
    SameCache s ((onSocket m).exec s).2 := ⟨rfl, rfl, rfl⟩

section
variable {s : DiscoveryService Addr}

theorem cachePeer_own {info : PeerInfo Addr} (h : info.identityHash = s.ourInfo.identityHash) (now : Instant) :
    cachePeer info now s = s := if_pos h

theorem cachePeer_held (h : s.held = true) (info : PeerInfo Addr) (now : Instant) : cachePeer info now s = s := by
  rw [cachePeer, if_pos h, ite_self]

theorem cachePeer_free {info : PeerInfo Addr} (hown : info.identityHash ≠ s.ourInfo.identityHash)
    (hheld : s.held = false) (now : Instant) :
    cachePeer info now s = { s with peers := s.peers.insert info.identityHash (info, now) } := by
  rw [cachePeer, if_neg hown, hheld]
  rfl

theorem removePeer_held (h : s.held = true) (identityHash : String) : removePeer identityHash s = s := if_pos h

theorem removePeer_free (h : s.held = false) (identityHash : String) :
    removePeer identityHash s = { s with peers := s.peers.erase identityHash } := by
  rw [removePeer, h]
  rfl

/-- What a message tells is all that it does to the cache, and where it tells something it is handled without error. -/
theorem handleMessage_spec (json : PeerInfoJson Addr) (s : DiscoveryService Addr) (data : Bytes) (srcAddr : Addr) (now : Instant) :
    SameCache (s.told now (reportOf json data)) ((handleMessage json data srcAddr now).exec s).2 ∧
      ((reportOf json data).isSome → ((handleMessage json data srcAddr now).exec s).1 = .ok ()) := by
  rw [handleMessage, reportOf]
  cases DiscoveryMessage.decode json data with
  | error e => exact ⟨.refl s, nofun⟩
  | ok msg =>
    obtain ⟨magic, msgType, version, peerInfo⟩ := msg
    have hlift : (liftM (.ok ⟨magic, msgType, version, peerInfo⟩ : Result (DiscoveryMessage Addr)) :
        Action (DiscoveryService Addr) (DiscoveryMessage Addr)).exec s =
          (.ok ⟨magic, msgType, version, peerInfo⟩, s) := rfl
    rw [exec_bind_ok hlift, exec_get_bind]
    cases msgType with
    | announce =>
      by_cases hown : peerInfo.identityHash = s.ourInfo.identityHash
      · simp only [if_pos hown]
        refine ⟨?_, fun _ => rfl⟩
        rw [told, cachePeer_own hown]
        exact .refl s
      · simp only [if_neg hown]
        exact ⟨.refl _, fun _ => rfl⟩
    | query => exact ⟨sameCache_onSocket _ s, nofun⟩
    | response => exact ⟨.refl _, fun _ => rfl⟩
    | goodbye => exact ⟨.refl _, fun _ => rfl⟩

end

end DiscoveryService

end Aether
