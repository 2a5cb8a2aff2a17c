import Aether.Identity

/-! Discovery messages (`discovery.rs`).

What a peer says of itself travels as JSON, which another crate writes and reads; both
are a parameter (`PeerInfoJson`), as the type of addresses is. -/
namespace Aether
open Octets

structure PeerInfo (Addr : Type) where
  /-- The identity hash, in hexadecimal. -/
  identityHash : String
  /-- The Ed25519 public key, in hexadecimal. -/
  publicKey : String
  addresses : List Addr
  connectionId : UInt64
  timestamp : UInt64
  version : UInt8
  capabilities : List String
  deriving DecidableEq

/-- The `serde_json` crate on peer information. -/
structure PeerInfoJson (Addr : Type) where
  toVec : PeerInfo Addr → Except String Bytes
  fromSlice : Bytes → Except String (PeerInfo Addr)

namespace PeerInfo
variable {Addr : Type} {P : Primitives}

/-- `timestamp` is what the clock shows. -/
def fromIdentity (identity : Identity P) (addresses : List Addr) (connectionId timestamp : UInt64) : PeerInfo Addr :=
  { identityHash := identity.hashHex
    publicKey := Hex.encode identity.publicKeyBytes.toList
    addresses, connectionId, timestamp
    version := aetherVersion
    capabilities := ["aether-v0", "multipath"] }

variable (json : PeerInfoJson Addr)

def encode (info : PeerInfo Addr) : Bytes :=
  match json.toVec info with
  | .ok data => data
  | .error _ => []

def decode (data : Bytes) : Result (PeerInfo Addr) :=
  match json.fromSlice data with
  | .ok info => .ok info
  | .error e => fail (.protocolViolation s!"Invalid peer info: {e}")

end PeerInfo

inductive DiscoveryMessageType where
  | announce
  | query
  | response
  | goodbye
  deriving DecidableEq, Repr

def DiscoveryMessageType.toU8 : DiscoveryMessageType → UInt8
  | announce => 0x01
  | query => 0x02
  | response => 0x03
  | goodbye => 0x04

/-- The type an octet stands for. -/
def DiscoveryMessageType.ofU8 (t : UInt8) : Option DiscoveryMessageType :=
  if t = 0x01 then some announce
  else if t = 0x02 then some query
  else if t = 0x03 then some response
  else if t = 0x04 then some goodbye
  else none

theorem DiscoveryMessageType.ofU8_toU8 (t : DiscoveryMessageType) : ofU8 t.toU8 = some t := by
  cases t <;> rfl

/-- `b"AED$"` -/
def discoveryMagic : Bytes := ascii ['A', 'E', 'D', '$']

structure DiscoveryMessage (Addr : Type) where
  magic : Bytes
  msgType : DiscoveryMessageType
  version : UInt8
  peerInfo : PeerInfo Addr

namespace DiscoveryMessage
variable {Addr : Type}

def announce (peerInfo : PeerInfo Addr) : DiscoveryMessage Addr := ⟨discoveryMagic, .announce, aetherVersion, peerInfo⟩

def query : DiscoveryMessage Addr := ⟨discoveryMagic, .query, aetherVersion, ⟨"", "", [], 0, 0, aetherVersion, []⟩⟩

def goodbye (peerInfo : PeerInfo Addr) : DiscoveryMessage Addr := ⟨discoveryMagic, .goodbye, aetherVersion, peerInfo⟩

variable (json : PeerInfoJson Addr)

def encode (m : DiscoveryMessage Addr) : Bytes :=
  m.magic ++ m.msgType.toU8 :: m.version :: m.peerInfo.encode json

def decode (data : Bytes) : Result (DiscoveryMessage Addr) := do
  if data.length < 6 then fail (.protocolViolation "Discovery message too short")
  else do
    let magic ← slice data 0 4
    if magic ≠ discoveryMagic then fail (.protocolViolation "Invalid discovery magic bytes")
    else do
      let t ← index data 4
      match DiscoveryMessageType.ofU8 t with
      | none => fail (.protocolViolation s!"Unknown discovery message type: 0x{Hex.encode [t]}")
      | some msgType => do
        let version ← index data 5
        let peerInfo ← PeerInfo.decode json (data.drop 6)
        return { magic, msgType, version, peerInfo }

/-- What is read behind the magic octets. -/
theorem decode_wire {json : PeerInfoJson Addr} {t version : UInt8} {msgType : DiscoveryMessageType}
    (ht : DiscoveryMessageType.ofU8 t = some msgType) (rest : Bytes) :
    decode json (discoveryMagic ++ t :: version :: rest) =
      (PeerInfo.decode json rest).map fun peerInfo => ⟨discoveryMagic, msgType, version, peerInfo⟩ := by
  have hlength : ¬ (discoveryMagic ++ t :: version :: rest).length < 6 := by
    have hmagic : discoveryMagic.length = 4 := rfl
    rw [List.length_append, List.length_cons, List.length_cons, hmagic]
    omega
  have hmagic : slice (ε := Error) (discoveryMagic ++ t :: version :: rest) 0 4 = .ok discoveryMagic := by
    have hslice := slice_append (ε := Error) [] discoveryMagic (t :: version :: rest) 0 4 rfl rfl
    rwa [List.nil_append] at hslice
  have htype : index (ε := Error) (discoveryMagic ++ t :: version :: rest) 4 = .ok t := rfl
  have hversion : index (ε := Error) (discoveryMagic ++ t :: version :: rest) 5 = .ok version := rfl
  have hrest : (discoveryMagic ++ t :: version :: rest).drop 6 = rest := rfl
  rw [decode, if_neg hlength, hmagic, ok_bind, if_neg (not_not_intro rfl), htype, ok_bind, ht]
  simp only [hversion, ok_bind, hrest]
  cases PeerInfo.decode json rest <;> rfl

/-- **A message is decoded as it was encoded**, where its peer information is. -/
theorem decode_encode {json : PeerInfoJson Addr} {m : DiscoveryMessage Addr} (hmagic : m.magic = discoveryMagic)
    (hinfo : PeerInfo.decode json (m.peerInfo.encode json) = .ok m.peerInfo) :
    decode json (m.encode json) = .ok m := by
  rw [encode, hmagic, decode_wire m.msgType.ofU8_toU8, hinfo, ← hmagic]
  rfl

end DiscoveryMessage

end Aether
