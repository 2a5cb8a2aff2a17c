import Aether.Crypto
import Aether.Library.Hex

/-! Identities (`identity.rs`): an Ed25519 key pair and the hash of its public half. -/
namespace Aether
open Octets

/-- `b"AETHER-ID-"` -/
def identityPrefix : Bytes := ascii ['A', 'E', 'T', 'H', 'E', 'R', '-', 'I', 'D', '-']

section
variable {P : Primitives}

/-- The hash the source computes of a public key. -/
def computeIdentityHash (publicKey : Block 32) : Block 32 :=
  P.sha256 (identityPrefix ++ publicKey.toList)

/-- Public keys with one hash are one key. -/
structure Primitives.TellsIdentities (P : Primitives) : Prop where
  publicKey : ∀ {publicKey publicKey' : Block 32},
    computeIdentityHash (P := P) publicKey = computeIdentityHash (P := P) publicKey' → publicKey = publicKey'

variable (P) in
/-- The fields are private in the source, and both of its constructors derive the
public key and the hash from the secret key. -/
structure Identity where
  signingKey : P.SigningKey
  publicKey : Block 32
  identityHash : Block 32
  publicKey_eq : publicKey = P.verifyingKey signingKey
  identityHash_eq : identityHash = computeIdentityHash (P := P) publicKey

namespace Identity

/-- What `generate` and `from_seed` do with the key they have. -/
def ofSigningKey (signingKey : P.SigningKey) : Identity P where
  signingKey
  publicKey := P.verifyingKey signingKey
  identityHash := computeIdentityHash (P := P) (P.verifyingKey signingKey)
  publicKey_eq := rfl
  identityHash_eq := rfl

/-- `generate`, with the key that was drawn. -/
def generate (signingKey : P.SigningKey) : Identity P := ofSigningKey signingKey

/-- How a seed becomes a signing key is another crate's. -/
def fromSeed (signingKeyOf : Block 32 → P.SigningKey) (seed : Block 32) : Identity P := ofSigningKey (signingKeyOf seed)

def hash (id : Identity P) : Block 32 := id.identityHash

def hashHex (id : Identity P) : String := Hex.encode id.identityHash.toList

def publicKeyBytes (id : Identity P) : Block 32 := id.publicKey

def sign (id : Identity P) (message : Bytes) : Block 64 := P.sign id.signingKey message

variable (P) in
def verify (publicKey : Block 32) (message : Bytes) (signature : Block 64) : Result Unit := do
  mapCrypto "Invalid Ed25519 public key" (P.verifyingKeyFromBytes publicKey)
  mapCrypto "Signature verification failed" (P.verify publicKey message signature)

variable (P) in
def verifyHash (publicKey identityHash : Block 32) : Result Bool := do
  mapCrypto "Invalid Ed25519 public key" (P.verifyingKeyFromBytes publicKey)
  return computeIdentityHash (P := P) publicKey == identityHash

/-- An identity is its signing key. -/
theorem ext_signingKey {id id' : Identity P} (h : id.signingKey = id'.signingKey) : id = id' := by
  obtain ⟨key, publicKey, hash, hpublic, hhash⟩ := id
  obtain ⟨key', publicKey', hash', hpublic', hhash'⟩ := id'
  cases h
  subst hpublic hhash hpublic' hhash'
  rfl

/-- An identity's signatures pass under its public key. -/
theorem verify_sign (hP : P.VerifiesSignatures) (id : Identity P) (message : Bytes) :
    verify P id.publicKeyBytes message (id.sign message) = .ok () := by
  rw [verify, publicKeyBytes, sign, id.publicKey_eq, hP.key, hP.signature]
  rfl

end Identity

end

end Aether
