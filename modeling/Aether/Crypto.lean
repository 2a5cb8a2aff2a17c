import Aether.Error

/-! Keys and ciphers (`crypto.rs`) over the primitives of other crates.

The primitives are a parameter. Keys and shared secrets have types of their own,
which only the primitives take apart; what they put on the wire is octets. What is
relied on is stated as properties of a choice of primitives and assumed only where
it is used: agreement (`AgreesOnSecrets`), genuine signatures
(`VerifiesSignatures`), the length of a MAC (`MacLength`), authenticated encryption
(`Authenticates`, `Encrypts`, `TagLength`), the symbolic reading of key derivation
(`Symbolic`), in which MACs are as long as it takes to tell them apart, and the symbolic
reading of the key exchange (`TakesSecret`), which is asked only of the public keys that it
is right for. -/
namespace Aether
open Octets

/-- The `x25519_dalek`, `ed25519_dalek`, `aes_gcm`, `hkdf`, `hmac` and `sha2` crates. -/
structure Primitives where
  /-- X25519 secrets. -/
  Scalar : Type
  /-- Shared secrets. -/
  Shared : Type
  SessionKey : Type
  AeadKey : Type
  /-- Ed25519 secret keys. -/
  SigningKey : Type
  x25519Public : Scalar → Block 32
  diffieHellman : Scalar → Block 32 → Shared
  /-- HKDF-SHA256 with a salt, expanded under an info string to 32 octets. -/
  hkdf : Bytes → Shared → Bytes → SessionKey
  /-- HKDF-SHA256 without a salt, expanded under a label to a key and an IV. -/
  hkdfDirectional : SessionKey → Bytes → AeadKey × Block 12
  hmac : SessionKey → Bytes → Bytes
  sha256 : Bytes → Block 32
  verifyingKey : SigningKey → Block 32
  sign : SigningKey → Bytes → Block 64
  verifyingKeyFromBytes : Block 32 → Except String Unit
  verify : Block 32 → Bytes → Block 64 → Except String Unit
  /-- Key, nonce, associated data, message. -/
  aes256GcmEncrypt : AeadKey → Block 12 → Bytes → Bytes → Except String Bytes
  aes256GcmDecrypt : AeadKey → Block 12 → Bytes → Bytes → Except String Bytes

/-- Octets that encryption adds. -/
def aeadTagLen : Nat := 16

namespace Primitives

/-- Both sides of a key exchange compute the same secret. -/
structure AgreesOnSecrets (P : Primitives) : Prop where
  comm : ∀ x y, P.diffieHellman x (P.x25519Public y) = P.diffieHellman y (P.x25519Public x)

/-- Genuine keys and signatures are accepted. -/
structure VerifiesSignatures (P : Primitives) : Prop where
  key : ∀ sk, P.verifyingKeyFromBytes (P.verifyingKey sk) = .ok ()
  signature : ∀ sk message, P.verify (P.verifyingKey sk) message (P.sign sk message) = .ok ()

/-- Decryption returns a message exactly when it was encrypted under the same key,
nonce and associated data. -/
structure Authenticates (P : Primitives) : Prop where
  decrypts : ∀ {key nonce aad message ciphertext},
    P.aes256GcmEncrypt key nonce aad message = .ok ciphertext →
      P.aes256GcmDecrypt key nonce aad ciphertext = .ok message
  authentic : ∀ {key nonce aad message ciphertext key' nonce' aad' message'},
    P.aes256GcmEncrypt key nonce aad message = .ok ciphertext →
      P.aes256GcmDecrypt key' nonce' aad' ciphertext = .ok message' →
        key' = key ∧ nonce' = nonce ∧ aad' = aad

/-- Encryption fails on messages beyond what the mode allows, and on no others. -/
structure Encrypts (P : Primitives) : Prop where
  encrypts : ∀ key nonce {aad message : Bytes}, aad.length ≤ 2 ^ 36 → message.length ≤ 2 ^ 36 →
    ∃ ciphertext, P.aes256GcmEncrypt key nonce aad message = .ok ciphertext

/-- A ciphertext is the message and a tag. -/
structure TagLength (P : Primitives) : Prop where
  length : ∀ {key nonce} {aad message ciphertext : Bytes}, P.aes256GcmEncrypt key nonce aad message = .ok ciphertext →
    ciphertext.length = message.length + aeadTagLen

/-- HMAC-SHA256 gives 32 octets. -/
structure MacLength (P : Primitives) : Prop where
  length : ∀ key message, (P.hmac key message).length = 32

/-- Keys and MACs tell what they were made from. -/
structure Symbolic (P : Primitives) : Prop where
  hkdf : ∀ {salt secret info secret' info'}, P.hkdf salt secret info = P.hkdf salt secret' info' →
    secret = secret' ∧ info = info'
  hmac : ∀ {key message key' message'}, P.hmac key message = P.hmac key' message' →
    key = key' ∧ message = message'

/-- The public key of a secret. X25519 takes any other 32 octets as well: the secret shared with
some of them is no secret, and with others it is the one shared with a key that looks different. -/
def Genuine (P : Primitives) (publicKey : Block 32) : Prop := ∃ x, P.x25519Public x = publicKey

/-- With a contributory public key, a shared secret takes one of the two secrets to compute. -/
structure TakesSecret (P : Primitives) (contributory : Block 32 → Prop) : Prop where
  diffieHellman : ∀ {x X y Y}, contributory Y → P.diffieHellman x X = P.diffieHellman y Y →
    P.x25519Public x = P.x25519Public y ∨ P.x25519Public x = Y

end Primitives

/-- The error text of a result of another crate becomes a `Crypto` error. -/
def mapCrypto {α : Type} (text : String) : Except String α → Result α
  | .ok a => .ok a
  | .error e => fail (.crypto s!"{text}: {e}")

theorem mapCrypto_eq_ok {α : Type} {text : String} {r : Except String α} {a : α} :
    mapCrypto text r = .ok a ↔ r = .ok a := by
  cases r with
  | ok b => simp [mapCrypto]
  | error e => simp [mapCrypto, fail]

inductive AeadAlgorithm where
  | aes256Gcm
  | chaCha20Poly1305
  deriving DecidableEq, Repr

section
variable (P : Primitives)

/-! ### Keys of one direction -/

structure DirectionalKeys where
  txKey : P.AeadKey
  txIv : Block 12
  packetNumber : UInt64

variable {P}

namespace DirectionalKeys

/-- The 44 octets asked of HKDF are within what it can give, so its error never
arises. -/
def derive (secret : P.SessionKey) (label : Bytes) : DirectionalKeys P :=
  let (txKey, txIv) := P.hkdfDirectional secret label
  { txKey, txIv, packetNumber := 0 }

/-- The packet number, least significant octet first, on the last eight octets of the IV. -/
def makeNonce (k : DirectionalKeys P) : Block 12 :=
  List.Vector.map₂ (· ^^^ ·) k.txIv ⟨List.replicate 4 0 ++ toLe 8 k.packetNumber.toNat, by simp⟩

/-- The cipher is AES-256-GCM whatever the session's algorithm is. -/
def encrypt (k : DirectionalKeys P) (plaintext aad : Bytes) : Result Bytes :=
  mapCrypto "AEAD encrypt failed" (P.aes256GcmEncrypt k.txKey k.makeNonce aad plaintext)

def decrypt (k : DirectionalKeys P) (ciphertext aad : Bytes) : Result Bytes :=
  mapCrypto "AEAD decrypt failed" (P.aes256GcmDecrypt k.txKey k.makeNonce aad ciphertext)

end DirectionalKeys

/-! ### Sessions -/

variable (P) in
structure AeadSession where
  clientTx : DirectionalKeys P
  serverTx : DirectionalKeys P
  algorithm : AeadAlgorithm

/-- `b"aether-client-tx"` -/
def clientTxLabel : Bytes :=
  ascii ['a', 'e', 't', 'h', 'e', 'r', '-', 'c', 'l', 'i', 'e', 'n', 't', '-', 't', 'x']

/-- `b"aether-server-tx"` -/
def serverTxLabel : Bytes :=
  ascii ['a', 'e', 't', 'h', 'e', 'r', '-', 's', 'e', 'r', 'v', 'e', 'r', '-', 't', 'x']

namespace AeadSession

def new (sessionKey : P.SessionKey) (algorithm : AeadAlgorithm) : AeadSession P :=
  { clientTx := DirectionalKeys.derive sessionKey clientTxLabel
    serverTx := DirectionalKeys.derive sessionKey serverTxLabel
    algorithm }

def txKeys (s : AeadSession P) (isClient : Bool) : DirectionalKeys P :=
  if isClient then s.clientTx else s.serverTx

def rxKeys (s : AeadSession P) (isClient : Bool) : DirectionalKeys P :=
  if isClient then s.serverTx else s.clientTx

/-- The body has only comments. -/
def incrementTx (s : AeadSession P) (_isClient : Bool) : AeadSession P := s

/-- What one side sends under, the other receives under. -/
theorem rxKeys_not (s : AeadSession P) (isClient : Bool) : s.rxKeys (!isClient) = s.txKeys isClient := by
  cases isClient <;> rfl

end AeadSession

/-! ### The key schedule -/

/-- `b"AETHER-v0-initial-salt-32bytes!OK"` -/
def initialSalt : Bytes :=
  ascii ['A', 'E', 'T', 'H', 'E', 'R', '-', 'v', '0', '-', 'i', 'n', 'i', 't', 'i', 'a', 'l', '-', 's', 'a', 'l',
    't', '-', '3', '2', 'b', 'y', 't', 'e', 's', '!', 'O', 'K']

/-- `b"aether-initial"` -/
def initialInfo : Bytes := ascii ['a', 'e', 't', 'h', 'e', 'r', '-', 'i', 'n', 'i', 't', 'i', 'a', 'l']

/-- The key of the first packet, which nothing asks for. `hkdfOctets` is HKDF-SHA256 of
octets under a salt and an info string. -/
def deriveInitialKey (hkdfOctets : Bytes → Bytes → Bytes → P.SessionKey) (destConnectionId : Bytes) : P.SessionKey :=
  hkdfOctets initialSalt destConnectionId initialInfo

/-- `b"AETHER-v0"` -/
def sessionKeySalt : Bytes := ascii ['A', 'E', 'T', 'H', 'E', 'R', '-', 'v', '0']

def deriveSessionKey (sharedSecret : P.Shared) (transcript : Bytes) : P.SessionKey :=
  P.hkdf sessionKeySalt sharedSecret transcript

def computeFinished (sessionKey : P.SessionKey) (transcript : Bytes) : Bytes :=
  P.hmac sessionKey transcript

def verifyFinished (sessionKey : P.SessionKey) (transcript finished : Bytes) : Result Unit :=
  if computeFinished sessionKey transcript ≠ finished then
    fail (.crypto "Finished MAC verification failed")
  else .ok ()

theorem verifyFinished_eq_ok {sessionKey : P.SessionKey} {transcript finished : Bytes} :
    verifyFinished sessionKey transcript finished = .ok () ↔ finished = computeFinished sessionKey transcript := by
  unfold verifyFinished
  by_cases h : computeFinished sessionKey transcript = finished
  · simp [h]
  · simp [h, fail, Ne.symm h]

end

end Aether
