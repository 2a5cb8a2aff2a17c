import Aether.Handshake.Messages

/-! A choice of primitives with every property asked of them.

Secrets are single octets, and what they are used for is written out: a shared
secret is the two public keys in order, a key is what it was derived from, a MAC is
its key and its message, a ciphertext its key, nonce, associated data and message.
Nothing is hidden by this; it shows that the properties can be had together, and
runs on it can be evaluated. -/
namespace Aether
open Octets

namespace Transparent

/-! ### Octets that show where they end -/

/-- Every octet behind a one, and a zero at the end. -/
def delimited : Bytes → Bytes
  | [] => [0]
  | b :: rest => 1 :: b :: delimited rest

theorem delimited_append_inj {a b s t : Bytes} (h : delimited a ++ s = delimited b ++ t) : a = b ∧ s = t := by
  induction a generalizing b with
  | nil =>
    cases b with
    | nil => simpa [delimited] using h
    | cons y b => simp [delimited] at h
  | cons x a ih =>
    cases b with
    | nil => simp [delimited] at h
    | cons y b =>
      simp only [delimited, List.cons_append, List.cons.injEq, true_and] at h
      obtain ⟨hab, hst⟩ := ih h.2
      exact ⟨by rw [h.1, hab], hst⟩

theorem block_append_inj {n : Nat} {a b : Block n} {s t : Bytes} (h : a.toList ++ s = b.toList ++ t) :
    a = b ∧ s = t := by
  obtain ⟨hab, hst⟩ := List.append_inj h (by rw [a.toList_length, b.toList_length])
  exact ⟨List.Vector.toList_injective hab, hst⟩

/-! ### Keys -/

def publicKey (x : UInt8) : Block 32 := ⟨List.replicate 32 x, by simp⟩

/-- Two public keys in an order that does not depend on whose is whose. -/
def pair (a b : Block 32) : Block 32 × Block 32 :=
  if ofBe a.toList ≤ ofBe b.toList then (a, b) else (b, a)

theorem pair_comm (a b : Block 32) : pair a b = pair b a := by
  unfold pair
  by_cases hab : ofBe a.toList ≤ ofBe b.toList
  · by_cases hba : ofBe b.toList ≤ ofBe a.toList
    · have heq : a = b := List.Vector.toList_injective
        (ofBe_inj (by rw [a.toList_length, b.toList_length]) (Nat.le_antisymm hab hba))
      rw [heq]
    · rw [if_pos hab, if_neg hba]
  · rw [if_neg hab, if_pos (Nat.le_of_not_le hab)]

theorem pair_left {a b c d : Block 32} (h : pair a b = pair c d) : a = c ∨ a = d := by
  unfold pair at h
  split at h <;> split at h <;> cases h <;> simp

/-- A session key: the shared secret and the transcript. -/
abbrev Key := (Block 32 × Block 32) × Bytes

def keyOctets (key : Key) : Bytes := key.1.1.toList ++ (key.1.2.toList ++ delimited key.2)

theorem keyOctets_append_inj {k l : Key} {s t : Bytes} (h : keyOctets k ++ s = keyOctets l ++ t) :
    k = l ∧ s = t := by
  obtain ⟨⟨a, b⟩, m⟩ := k
  obtain ⟨⟨c, d⟩, n⟩ := l
  simp only [keyOctets, List.append_assoc] at h
  obtain ⟨hac, h₁⟩ := block_append_inj h
  obtain ⟨hbd, h₂⟩ := block_append_inj h₁
  obtain ⟨hmn, hst⟩ := delimited_append_inj h₂
  exact ⟨by rw [hac, hbd, hmn], hst⟩

/-- The first `n` octets, with zeros where there are not so many. -/
def firstOctets (n : Nat) (bs : Bytes) : Block n := ⟨(bs ++ List.replicate n 0).take n, by simp⟩

/-- What a ciphertext says before the message. -/
def sealOctets (key : Key × Bytes) (nonce : Block 12) (aad : Bytes) : Bytes :=
  keyOctets key.1 ++ (delimited key.2 ++ (nonce.toList ++ delimited aad))

theorem sealOctets_append_inj {k l : Key × Bytes} {n m : Block 12} {a b s t : Bytes}
    (h : sealOctets k n a ++ s = sealOctets l m b ++ t) : k = l ∧ n = m ∧ a = b ∧ s = t := by
  obtain ⟨k, p⟩ := k
  obtain ⟨l, q⟩ := l
  simp only [sealOctets, List.append_assoc] at h
  obtain ⟨hkl, h₁⟩ := keyOctets_append_inj h
  obtain ⟨hpq, h₂⟩ := delimited_append_inj h₁
  obtain ⟨hnm, h₃⟩ := block_append_inj h₂
  obtain ⟨hab, hst⟩ := delimited_append_inj h₃
  exact ⟨by rw [hkl, hpq], hnm, hab, hst⟩

/-- A MAC that is its key and its message. -/
def mac (key : Key) (message : Bytes) : Bytes := 0xFF :: (keyOctets key ++ message)

/-- Primitives that hide nothing, over a choice of MAC. -/
def primitives (hmac : Key → Bytes → Bytes) : Primitives where
  Scalar := UInt8
  Shared := Block 32 × Block 32
  SessionKey := Key
  AeadKey := Key × Bytes
  SigningKey := UInt8
  x25519Public := publicKey
  diffieHellman x peer := pair (publicKey x) peer
  hkdf _salt secret info := (secret, info)
  hkdfDirectional secret label := ((secret, label), firstOctets 12 [])
  hmac
  sha256 message := firstOctets 32 message.reverse
  verifyingKey := publicKey
  sign key message := firstOctets 64 (key :: message)
  verifyingKeyFromBytes _ := .ok ()
  verify key message signature :=
    if signature = firstOctets 64 (key.toList.headD 0 :: message) then .ok () else .error "signature error"
  aes256GcmEncrypt key nonce aad message := .ok (sealOctets key nonce aad ++ message)
  aes256GcmDecrypt key nonce aad ciphertext :=
    if sealOctets key nonce aad <+: ciphertext then .ok (ciphertext.drop (sealOctets key nonce aad).length)
    else .error "aead::Error"

section
variable (hmac : Key → Bytes → Bytes)

theorem agreesOnSecrets : (primitives hmac).AgreesOnSecrets where
  comm x y := by
    simp only [primitives]
    exact pair_comm (publicKey x) (publicKey y)

theorem verifiesSignatures : (primitives hmac).VerifiesSignatures where
  key _ := rfl
  signature := by
    intro (sk : UInt8) message
    have hkey : (publicKey sk).toList.headD 0 = sk := rfl
    show (if firstOctets 64 (sk :: message) = firstOctets 64 ((publicKey sk).toList.headD 0 :: message) then _
      else _) = _
    rw [hkey, if_pos rfl]

theorem encrypts : (primitives hmac).Encrypts := ⟨fun _ _ _ _ _ _ => ⟨_, rfl⟩⟩

theorem authenticates : (primitives hmac).Authenticates where
  decrypts := by
    intro key nonce aad message _ hsealed
    cases hsealed
    show (if _ then _ else _) = _
    rw [if_pos (List.prefix_append _ _), List.drop_left]
  authentic := by
    intro key nonce aad message _ key' nonce' aad' message' hsealed h
    cases hsealed
    by_cases hseal : sealOctets key' nonce' aad' <+: sealOctets key nonce aad ++ message
    · obtain ⟨rest, hrest⟩ := hseal
      obtain ⟨hkey, hnonce, haad, _⟩ := sealOctets_append_inj hrest
      exact ⟨hkey, hnonce, haad⟩
    · exact absurd (h.symm.trans (if_neg hseal)) nofun

end

/-- With MACs that tell what they were made from. -/
def symbolic : Primitives := primitives mac

theorem symbolic_symbolic : symbolic.Symbolic where
  hkdf h := Prod.mk.inj h
  hmac h := keyOctets_append_inj (List.cons.inj h).2

/-- The two public keys of a shared secret are written out, whatever they are. -/
theorem symbolic_takesSecret (contributory : Block 32 → Prop) : symbolic.TakesSecret contributory where
  diffieHellman {x X y Y} _ h := by
    simp only [symbolic, primitives] at h ⊢
    exact pair_left h

theorem symbolic_tellsMacsFromHellos : symbolic.TellsMacsFromHellos where
  client := by
    intro key message h hversion heq
    have hhead : (0xFF : UInt8) = h.version := (List.cons.inj heq).1
    exact absurd (hhead.trans hversion) (by decide)
  server := by
    intro key message h hversion heq
    have hhead : (0xFF : UInt8) = h.version := (List.cons.inj heq).1
    exact absurd (hhead.trans hversion) (by decide)

theorem symbolic_tellsIdentities : symbolic.TellsIdentities where
  publicKey {publicKey publicKey'} h := by
    have hreversed : ∀ k : Block 32, (computeIdentityHash (P := symbolic) k).toList = k.toList.reverse := by
      intro k
      have hlen : k.toList.reverse.length = 32 := by rw [List.length_reverse, k.toList_length]
      show ((identityPrefix ++ k.toList).reverse ++ List.replicate 32 0).take 32 = _
      rw [List.reverse_append, List.append_assoc, List.take_append_of_le_length (Nat.le_of_eq hlen.symm),
        List.take_of_length_le (Nat.le_of_eq hlen)]
    have hlists := congrArg List.Vector.toList h
    rw [hreversed, hreversed] at hlists
    exact List.Vector.toList_injective (List.reverse_injective hlists)

/-- With MACs of the length they have. -/
def fixedMacs : Primitives := primitives fun _ _ => List.replicate 32 0

theorem fixedMacs_macLength : fixedMacs.MacLength := ⟨fun _ _ => rfl⟩

/-- With ciphertexts of the length they have: the message and a tag. -/
def tagged : Primitives :=
  { fixedMacs with
    aes256GcmEncrypt := fun _ _ _ message => .ok (message ++ List.replicate aeadTagLen 0)
    aes256GcmDecrypt := fun _ _ _ ciphertext =>
      if aeadTagLen ≤ ciphertext.length then .ok (ciphertext.take (ciphertext.length - aeadTagLen))
      else .error "aead::Error" }

theorem tagged_agreesOnSecrets : tagged.AgreesOnSecrets where
  comm x y := by
    simp only [tagged, fixedMacs, primitives]
    exact pair_comm (publicKey x) (publicKey y)

theorem tagged_verifiesSignatures : tagged.VerifiesSignatures where
  key _ := rfl
  signature sk message := by
    have hfixed : fixedMacs.VerifiesSignatures := verifiesSignatures _
    exact hfixed.signature sk message

theorem tagged_macLength : tagged.MacLength := ⟨fun _ _ => rfl⟩

theorem tagged_encrypts : tagged.Encrypts := ⟨fun _ _ _ _ _ _ => ⟨_, rfl⟩⟩

theorem tagged_tagLength : tagged.TagLength where
  length := by
    intro key nonce aad message ciphertext h
    cases h
    rw [List.length_append, List.length_replicate]

end Transparent

end Aether
