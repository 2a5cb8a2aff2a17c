import Aether.Identity

/-! The two hello messages (`handshake.rs`) and their octets.

Both decoders read field after field without looking at the length; a field that
the data has no octets for aborts the program. `ClientHello::decode` asks for 80
octets first, which is less than its shortest message. A hello that was encoded
reads back as itself, whatever follows it. -/
namespace Aether
open Octets

/-! ### Capabilities -/

structure Capabilities where
  multipath : Bool
  maxStreams : UInt32
  maxStreamData : UInt64
  ackFrequency : UInt8
  idleTimeoutMs : UInt64
  deriving DecidableEq

namespace Capabilities

/-- `Default` -/
def default : Capabilities := ⟨true, 65536, 1048576, 2, 30000⟩

/-- The end of either hello. -/
def encode (c : Capabilities) : Bytes :=
  (if c.multipath then 1 else 0) :: (toBe 4 c.maxStreams.toNat ++ (toBe 8 c.maxStreamData.toNat ++
    (c.ackFrequency :: toBe 8 c.idleTimeoutMs.toNat)))

def read : Cursor Error Capabilities := do
  let multipath := (← Cursor.byte) != 0
  let maxStreams := UInt32.ofNat (← Cursor.word 4)
  let maxStreamData := UInt64.ofNat (← Cursor.word 8)
  let ackFrequency ← Cursor.byte
  let idleTimeoutMs := UInt64.ofNat (← Cursor.word 8)
  return { multipath, maxStreams, maxStreamData, ackFrequency, idleTimeoutMs }

@[simp] theorem encode_length (c : Capabilities) : c.encode.length = 22 := by
  simp [encode]

@[simp] theorem read_encode (c : Capabilities) (t : Bytes) : read (c.encode ++ t) = .ok (c, t) := by
  have hflag : ((if c.multipath then (1 : UInt8) else 0) != 0) = c.multipath := by
    cases c.multipath <;> rfl
  have h4 : c.maxStreams.toNat % 256 ^ 4 = c.maxStreams.toNat := Nat.mod_eq_of_lt c.maxStreams.toNat_lt
  have h8 : ∀ v : UInt64, v.toNat % 256 ^ 8 = v.toNat := fun v => Nat.mod_eq_of_lt v.toNat_lt
  simp only [read, encode, List.cons_append, List.append_assoc, Cursor.run_bind, Cursor.run_pure,
    Cursor.byte_cons, Cursor.word_toBe, Except.bind, hflag, h4, h8, UInt32.ofNat_toNat, UInt64.ofNat_toNat]

theorem extends_read : Cursor.Extends read := by
  refine Cursor.extends_bind Cursor.extends_byte fun _ => ?_
  refine Cursor.extends_bind (Cursor.extends_word 4) fun _ => ?_
  refine Cursor.extends_bind (Cursor.extends_word 8) fun _ => ?_
  refine Cursor.extends_bind Cursor.extends_byte fun _ => ?_
  exact Cursor.extends_bind (Cursor.extends_word 8) fun _ => Cursor.extends_pure _

end Capabilities

/-! ### ClientHello -/

structure ClientHello where
  version : UInt8
  connectionId : UInt64
  supportedVersions : Bytes
  aead : AeadAlgorithm
  x25519Public : Block 32
  identity : Block 32
  identityPublicKey : Block 32
  capabilities : Capabilities

namespace ClientHello
variable {P : Primitives}

def new (connectionId : UInt64) (x25519Public : Block 32) (identity : Identity P)
    (capabilities : Capabilities) : ClientHello :=
  { version := aetherVersion
    connectionId
    supportedVersions := [aetherVersion]
    aead := .aes256Gcm
    x25519Public
    identity := identity.hash
    identityPublicKey := identity.publicKeyBytes
    capabilities }

def aeadOctet : AeadAlgorithm → UInt8
  | .aes256Gcm => 0x00
  | .chaCha20Poly1305 => 0x01

def encode (h : ClientHello) : Bytes :=
  h.version :: (toBe 8 h.connectionId.toNat ++ (UInt8.ofNat h.supportedVersions.length ::
    (h.supportedVersions ++ (aeadOctet h.aead :: (h.x25519Public.toList ++ (h.identity.toList ++
      (h.identityPublicKey.toList ++ h.capabilities.encode)))))))

def readAead : Cursor Error AeadAlgorithm := do
  match (← Cursor.byte).toNat with
  | 0x00 => return .aes256Gcm
  | 0x01 => return .chaCha20Poly1305
  | _ => throw (.err (.protocolViolation "Unknown AEAD algorithm"))

def read : Cursor Error ClientHello := do
  let version ← Cursor.byte
  let connectionId := UInt64.ofNat (← Cursor.word 8)
  let versionsCount ← Cursor.byte
  let supportedVersions ← Cursor.octets versionsCount.toNat
  let aead ← readAead
  let x25519Public ← Cursor.block 32
  let identity ← Cursor.block 32
  let identityPublicKey ← Cursor.block 32
  let capabilities ← Capabilities.read
  return { version, connectionId, supportedVersions, aead, x25519Public, identity, identityPublicKey,
           capabilities }

def decode (data : Bytes) : Result ClientHello :=
  if data.length < 80 then fail (.protocolViolation "ClientHello too short")
  else read.run' data

theorem encode_length (h : ClientHello) : h.encode.length = 129 + h.supportedVersions.length := by
  simp [encode]
  omega

@[simp] theorem readAead_cons (a : AeadAlgorithm) (t : Bytes) :
    readAead (aeadOctet a :: t) = .ok (a, t) := by
  cases a <;> rfl

/-- Reading a hello takes its octets and leaves what is behind them. -/
theorem read_encode (h : ClientHello) (hversions : h.supportedVersions.length < 256) (t : Bytes) :
    read (h.encode ++ t) = .ok (h, t) := by
  have hcount : (UInt8.ofNat h.supportedVersions.length).toNat = h.supportedVersions.length := by
    rw [UInt8.toNat_ofNat']
    exact Nat.mod_eq_of_lt hversions
  have h8 : ∀ v : UInt64, v.toNat % 256 ^ 8 = v.toNat := fun v => Nat.mod_eq_of_lt v.toNat_lt
  simp only [read, encode, List.cons_append, List.append_assoc, Cursor.run_bind, Cursor.run_pure,
    Cursor.byte_cons, Cursor.word_toBe, Cursor.block_append, Except.bind, hcount,
    Cursor.octets_append, readAead_cons, h8, UInt64.ofNat_toNat, Capabilities.read_encode]

/-- A hello reads back, with any octets behind it. -/
theorem decode_encode (h : ClientHello) (hversions : h.supportedVersions.length < 256) (t : Bytes) :
    decode (h.encode ++ t) = .ok h := by
  have hlen : ¬ (h.encode ++ t).length < 80 := by
    rw [List.length_append, encode_length]
    omega
  rw [decode, if_neg hlen, StateT.run', read_encode h hversions]
  rfl

theorem decode_encode_self (h : ClientHello) (hversions : h.supportedVersions.length < 256) :
    decode h.encode = .ok h := by
  simpa using decode_encode h hversions []

theorem extends_readAead : Cursor.Extends readAead := by
  refine Cursor.extends_bind Cursor.extends_byte fun b => ?_
  split
  · exact Cursor.extends_pure _
  · exact Cursor.extends_pure _
  · exact Cursor.extends_throw _

theorem extends_read : Cursor.Extends read := by
  refine Cursor.extends_bind Cursor.extends_byte fun _ => ?_
  refine Cursor.extends_bind (Cursor.extends_word 8) fun _ => ?_
  refine Cursor.extends_bind Cursor.extends_byte fun _ => ?_
  refine Cursor.extends_bind (Cursor.extends_octets _) fun _ => ?_
  refine Cursor.extends_bind extends_readAead fun _ => ?_
  refine Cursor.extends_bind (Cursor.extends_block 32) fun _ => ?_
  refine Cursor.extends_bind (Cursor.extends_block 32) fun _ => ?_
  refine Cursor.extends_bind (Cursor.extends_block 32) fun _ => ?_
  exact Cursor.extends_bind Capabilities.extends_read fun _ => Cursor.extends_pure _

/-- Whatever is behind a hello, the hello is the same. -/
theorem decode_append {data : Bytes} {hello : ClientHello} (h : decode data = .ok hello) (t : Bytes) :
    decode (data ++ t) = .ok hello := by
  by_cases hlen : data.length < 80
  · rw [decode, if_pos hlen] at h
    cases h
  · have hlong : ¬ (data ++ t).length < 80 := by
      rw [List.length_append]
      omega
    rw [decode, if_neg hlen, StateT.run'] at h
    rw [decode, if_neg hlong, StateT.run']
    cases hread : read data with
    | error e =>
      rw [hread] at h
      cases h
    | ok p =>
      rw [hread] at h
      rw [extends_read t hread]
      exact h

end ClientHello

/-! ### ServerHello -/

structure ServerHello where
  version : UInt8
  sourceConnectionId : UInt64
  destConnectionId : UInt64
  x25519Public : Block 32
  identity : Block 32
  identityPublicKey : Block 32
  /-- A signature on a transcript. -/
  identityProof : Bytes
  capabilities : Capabilities

namespace ServerHello
variable {P : Primitives}

def new (sourceConnectionId destConnectionId : UInt64) (x25519Public : Block 32) (identity : Identity P)
    (transcript : Bytes) (capabilities : Capabilities) : ServerHello :=
  { version := aetherVersion
    sourceConnectionId
    destConnectionId
    x25519Public
    identity := identity.hash
    identityPublicKey := identity.publicKeyBytes
    identityProof := (identity.sign transcript).toList
    capabilities }

def encode (h : ServerHello) : Bytes :=
  h.version :: (toBe 8 h.sourceConnectionId.toNat ++ (toBe 8 h.destConnectionId.toNat ++
    (h.x25519Public.toList ++ (h.identity.toList ++ (h.identityPublicKey.toList ++
      (toBe 2 (UInt16.ofNat h.identityProof.length).toNat ++ (h.identityProof ++ h.capabilities.encode)))))))

def read : Cursor Error ServerHello := do
  let version ← Cursor.byte
  let sourceConnectionId := UInt64.ofNat (← Cursor.word 8)
  let destConnectionId := UInt64.ofNat (← Cursor.word 8)
  let x25519Public ← Cursor.block 32
  let identity ← Cursor.block 32
  let identityPublicKey ← Cursor.block 32
  let proofLen ← Cursor.word 2
  let identityProof ← Cursor.octets proofLen
  let capabilities ← Capabilities.read
  return { version, sourceConnectionId, destConnectionId, x25519Public, identity, identityPublicKey,
           identityProof, capabilities }

def decode (data : Bytes) : Result ServerHello := read.run' data

theorem encode_length (h : ServerHello) : h.encode.length = 137 + h.identityProof.length := by
  simp [encode]
  omega

theorem read_encode (h : ServerHello) (hproof : h.identityProof.length < 65536) (t : Bytes) :
    read (h.encode ++ t) = .ok (h, t) := by
  have hlen : (UInt16.ofNat h.identityProof.length).toNat = h.identityProof.length := by
    rw [UInt16.toNat_ofNat']
    exact Nat.mod_eq_of_lt hproof
  have h8 : ∀ v : UInt64, v.toNat % 256 ^ 8 = v.toNat := fun v => Nat.mod_eq_of_lt v.toNat_lt
  have h2 : h.identityProof.length % 256 ^ 2 = h.identityProof.length := Nat.mod_eq_of_lt hproof
  simp only [read, encode, List.cons_append, List.append_assoc, Cursor.run_bind, Cursor.run_pure,
    Cursor.byte_cons, Cursor.word_toBe, Cursor.block_append, Except.bind, hlen, h2,
    Cursor.octets_append, h8, UInt64.ofNat_toNat, Capabilities.read_encode]

theorem decode_encode (h : ServerHello) (hproof : h.identityProof.length < 65536) (t : Bytes) :
    decode (h.encode ++ t) = .ok h := by
  rw [decode, StateT.run', read_encode h hproof]
  rfl

theorem decode_encode_self (h : ServerHello) (hproof : h.identityProof.length < 65536) : decode h.encode = .ok h := by
  simpa using decode_encode h hproof []

theorem encode_length_signed {h : ServerHello} (hproof : h.identityProof.length = 64) : h.encode.length = 201 := by
  rw [encode_length, hproof]

theorem decode_encode_signed {h : ServerHello} (hproof : h.identityProof.length = 64) : decode h.encode = .ok h :=
  decode_encode_self h (by omega)

end ServerHello

/-! ### Round trips -/

/-- **Both hellos read back as they are**, whatever is behind them, and reading takes no
octet of that. -/
theorem hellos_round_trip (hello : ClientHello) (serverHello : ServerHello)
    (hversions : hello.supportedVersions.length ≤ 255) (hproof : serverHello.identityProof.length ≤ 65535) (t : Bytes) :
    (ClientHello.decode (hello.encode ++ t) = .ok hello ∧ ClientHello.read (hello.encode ++ t) = .ok (hello, t)) ∧
      ServerHello.decode (serverHello.encode ++ t) = .ok serverHello ∧
        ServerHello.read (serverHello.encode ++ t) = .ok (serverHello, t) := by
  have hcount : hello.supportedVersions.length < 256 := Nat.lt_succ_of_le hversions
  have hlen : serverHello.identityProof.length < 65536 := Nat.lt_succ_of_le hproof
  exact ⟨⟨hello.decode_encode hcount t, hello.read_encode hcount t⟩, serverHello.decode_encode hlen t,
    serverHello.read_encode hlen t⟩

/-- A client with three versions, and a server with a proof of one octet. -/
def manyVersions : ClientHello :=
  let block : Block 32 := List.Vector.replicate 32 7
  ⟨0, 0x0123456789ABCDEF, [0, 1, 2], .chaCha20Poly1305, block, block, block, ⟨false, 3, 4, 5, 6⟩⟩

def shortProof : ServerHello :=
  let block : Block 32 := List.Vector.replicate 32 7
  ⟨0, 1, 2, block, block, block, [0xFF], ⟨true, 3, 4, 5, 6⟩⟩

theorem hellos_round_trip_sample :
    (ClientHello.decode (manyVersions.encode ++ [1, 2]) = .ok manyVersions ∧
      ClientHello.read (manyVersions.encode ++ [1, 2]) = .ok (manyVersions, [1, 2])) ∧
      ServerHello.decode (shortProof.encode ++ [1, 2]) = .ok shortProof ∧
        ServerHello.read (shortProof.encode ++ [1, 2]) = .ok (shortProof, [1, 2]) :=
  hellos_round_trip manyVersions shortProof (by decide) (by decide) [1, 2]

/-! ### Hellos are not MACs -/

/-- No MAC has the octets of a hello: MACs are 32 octets long, hellos more than 128. -/
structure Primitives.TellsMacsFromHellos (P : Primitives) : Prop where
  client : ∀ {key message} {h : ClientHello}, h.version = aetherVersion → P.hmac key message ≠ h.encode
  server : ∀ {key message} {h : ServerHello}, h.version = aetherVersion → P.hmac key message ≠ h.encode

end Aether
