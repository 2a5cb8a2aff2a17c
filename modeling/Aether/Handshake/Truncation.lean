import Aether.Framing.Totality
import Aether.Handshake.Honest

/-! Hellos that end before they should.

Neither decoder of a hello knows how long its message has to be.
`ClientHello::decode` asks for 80 octets, which are neither what the fixed fields
take nor related to the count of versions; `ServerHello::decode` asks for nothing.
What they can read is stated on the octets (`ClientHello.Readable`,
`ServerHello.Readable`), and a handler is aborted on anything else. -/
namespace Aether
open Octets Octets.Method

/-! ### The decoders -/

theorem Capabilities.takes_read : Cursor.Takes 22 Capabilities.read :=
  Cursor.takes_byte.bind fun _ => (Cursor.takes_word 4).bind fun _ => (Cursor.takes_word 8).bind fun _ =>
    Cursor.takes_byte.bind fun _ => (Cursor.takes_word 8).bind fun _ => Cursor.takes_pure _

namespace ClientHello

/-- Octets that are refused before they are read, hold all that is read of them, or
name a cipher that ends the reading. -/
def Readable (data : Bytes) : Prop :=
  data.length < 80 ∨ ∃ versionsCount, data[9]? = some versionsCount ∧
    (129 + versionsCount.toNat ≤ data.length ∨
      ∃ aead, data[10 + versionsCount.toNat]? = some aead ∧ 1 < aead.toNat)

/-- The cipher's octet ends the reading, or what follows it is read. -/
theorem safe_readAead_bind {α : Type} {f : AeadAlgorithm → Cursor Error α} {n : Nat} (hf : ∀ a, Cursor.Takes n (f a))
    (data : Bytes) :
    Safe ((readAead >>= f) data) ↔ ∃ b, data.head? = some b ∧ (1 < b.toNat ∨ n + 1 ≤ data.length) := by
  cases data with
  | nil => exact iff_of_false not_safe_panic (by simp)
  | cons b rest =>
    have hread : readAead (b :: rest) =
        if b.toNat = 0 then .ok (.aes256Gcm, rest)
        else if b.toNat = 1 then .ok (.chaCha20Poly1305, rest)
        else fail (.protocolViolation "Unknown AEAD algorithm") := by
      rw [readAead, Cursor.run_bind, Cursor.byte_cons]
      simp only [Except.bind]
      generalize b.toNat = octet
      rcases octet with _ | _ | octet <;> simp <;> rfl
    have hrest : ∀ a, Safe (f a rest) ↔ n + 1 ≤ rest.length + 1 := fun a =>
      ((hf a).safe rest).trans Nat.add_le_add_iff_right.symm
    simp only [List.head?_cons, Option.some.injEq, exists_eq_left', List.length_cons]
    rw [Cursor.run_bind, hread]
    by_cases hzero : b.toNat = 0
    · rw [if_pos hzero, hzero, or_iff_right (by decide)]
      exact hrest _
    · by_cases hone : b.toNat = 1
      · rw [if_neg hzero, if_pos hone, hone, or_iff_right (by decide)]
        exact hrest _
      · rw [if_neg hzero, if_neg hone]
        have hb : 1 < b.toNat := Nat.one_lt_iff_ne_zero_and_ne_one.mpr ⟨hzero, hone⟩
        exact iff_of_true (safe_err _) (.inl hb)

/-- The fields behind the cipher. -/
theorem takes_keys (version : UInt8) (connectionId : UInt64) (supportedVersions : Bytes) (aead : AeadAlgorithm) :
    Cursor.Takes 118 (do
      let x25519Public ← Cursor.block 32
      let identity ← Cursor.block 32
      let identityPublicKey ← Cursor.block 32
      let capabilities ← Capabilities.read
      return ({ version, connectionId, supportedVersions, aead, x25519Public, identity, identityPublicKey,
                capabilities } : ClientHello)) :=
  (Cursor.takes_block 32).bind fun _ => (Cursor.takes_block 32).bind fun _ => (Cursor.takes_block 32).bind fun _ =>
    Capabilities.takes_read.bind fun _ => Cursor.takes_pure _

/-- The count says where the cipher is, and with it where the fields behind it end. -/
theorem safe_read_iff (data : Bytes) :
    Safe (read data) ↔ ∃ versionsCount, data[9]? = some versionsCount ∧ ∃ aead,
      data[10 + versionsCount.toNat]? = some aead ∧ (1 < aead.toNat ∨ 129 + versionsCount.toNat ≤ data.length) := by
  have hcipher : ∀ version connectionId (versionsCount : UInt8), Cursor.SafeAfter versionsCount.toNat
      (fun rest => ∃ aead, rest.head? = some aead ∧ (1 < aead.toNat ∨ 119 ≤ rest.length)) (do
        let supportedVersions ← Cursor.octets versionsCount.toNat
        let aead ← readAead
        let x25519Public ← Cursor.block 32
        let identity ← Cursor.block 32
        let identityPublicKey ← Cursor.block 32
        let capabilities ← Capabilities.read
        return ({ version, connectionId, supportedVersions, aead, x25519Public, identity, identityPublicKey,
                  capabilities } : ClientHello)) := fun _ _ versionsCount =>
    (Cursor.takes_octets versionsCount.toNat).safeAfter_bind fun _ =>
      Cursor.safeAfter_zero (safe_readAead_bind (takes_keys _ _ _))
  have hread : Cursor.SafeAfter 9 (fun rest => ∃ versionsCount, rest.head? = some versionsCount ∧
      versionsCount.toNat ≤ rest.tail.length ∧ ∃ aead, (rest.tail.drop versionsCount.toNat).head? = some aead ∧
        (1 < aead.toNat ∨ 119 ≤ (rest.tail.drop versionsCount.toNat).length)) read := by
    refine Cursor.takes_byte.safeAfter_bind (k := 8) fun version => ?_
    refine (Cursor.takes_word 8).safeAfter_bind (k := 0) fun connectionId => ?_
    refine Cursor.safeAfter_zero fun rest => ?_
    refine Cursor.safe_byte_bind.trans (exists_congr fun versionsCount => and_congr_right fun _ => ?_)
    exact hcipher _ _ versionsCount rest.tail
  rw [hread data]
  simp only [List.tail_drop, List.drop_drop, List.head?_drop, List.length_drop]
  constructor
  · intro h
    obtain ⟨_, versionsCount, hcount, hversions, aead, haead, hrest⟩ := h
    have hlength := (List.getElem?_eq_some_iff.mp haead).1
    exact ⟨versionsCount, hcount, aead, haead, hrest.imp_right fun h => by omega⟩
  · intro h
    obtain ⟨versionsCount, hcount, aead, haead, hrest⟩ := h
    have hlength := (List.getElem?_eq_some_iff.mp haead).1
    exact ⟨by omega, versionsCount, hcount, by omega, aead, haead, hrest.imp_right fun h => by omega⟩

theorem safe_decode_iff (data : Bytes) : Safe (decode data) ↔ Readable data := by
  unfold decode Readable
  split
  · rename_i hshort
    exact iff_of_true (safe_fail _) (.inl hshort)
  · rename_i hlong
    rw [or_iff_right hlong, Cursor.safe_run', safe_read_iff]
    refine exists_congr fun versionsCount => and_congr_right fun _ => ?_
    constructor
    · intro h
      obtain ⟨aead, haead, hread⟩ := h
      exact hread.symm.imp_right fun hunknown => ⟨aead, haead, hunknown⟩
    · intro h
      rcases h with hlength | ⟨aead, haead, hunknown⟩
      · have hcipher : 10 + versionsCount.toNat < data.length := by omega
        exact ⟨_, List.getElem?_eq_getElem hcipher, .inr hlength⟩
      · exact ⟨aead, haead, .inl hunknown⟩

end ClientHello

namespace ServerHello

/-- Octets that go on for as long as their proof length says. -/
def Readable (data : Bytes) : Prop := 137 + ofBe ((data.drop 113).take 2) ≤ data.length

theorem safe_decode_iff (data : Bytes) : Safe (decode data) ↔ Readable data := by
  have hproof : ∀ version sourceConnectionId destConnectionId x25519Public identity identityPublicKey proofLen,
      Cursor.Takes (proofLen + 22) (do
        let identityProof ← Cursor.octets proofLen
        let capabilities ← Capabilities.read
        return ({ version, sourceConnectionId, destConnectionId, x25519Public, identity, identityPublicKey,
                  identityProof, capabilities } : ServerHello)) := fun _ _ _ _ _ _ proofLen =>
    (Cursor.takes_octets proofLen).bind fun _ => Capabilities.takes_read.bind fun _ => Cursor.takes_pure _
  have hread : Cursor.SafeAfter 113 (fun rest => 2 ≤ rest.length ∧ ofBe (rest.take 2) + 22 ≤ (rest.drop 2).length) read := by
    refine Cursor.takes_byte.safeAfter_bind (k := 112) fun version => ?_
    refine (Cursor.takes_word 8).safeAfter_bind (k := 104) fun sourceConnectionId => ?_
    refine (Cursor.takes_word 8).safeAfter_bind (k := 96) fun destConnectionId => ?_
    refine (Cursor.takes_block 32).safeAfter_bind (k := 64) fun x25519Public => ?_
    refine (Cursor.takes_block 32).safeAfter_bind (k := 32) fun identity => ?_
    refine (Cursor.takes_block 32).safeAfter_bind (k := 0) fun identityPublicKey => ?_
    refine Cursor.safeAfter_zero fun rest => ?_
    refine Cursor.safe_word_bind.trans (and_congr_right fun _ => ?_)
    exact (hproof _ _ _ _ _ _ _).safe _
  rw [decode, Cursor.safe_run', hread data, Readable]
  simp only [List.length_drop]
  omega

end ServerHello

/-! ### The handlers -/

section
variable {P : Primitives}

theorem safe_mapCrypto {α : Type} (text : String) (r : Except String α) : Safe (mapCrypto text r) := by
  cases r with
  | ok a => exact safe_ok a
  | error e => exact safe_fail _

theorem Identity.safe_verify (publicKey : Block 32) (message : Bytes) (signature : Block 64) :
    Safe (Identity.verify P publicKey message signature) :=
  safe_bind (safe_mapCrypto _ _) fun _ _ => safe_mapCrypto _ _

theorem safe_verifyFinished (sessionKey : P.SessionKey) (transcript finished : Bytes) :
    Safe (verifyFinished sessionKey transcript finished) := by
  unfold verifyFinished
  split
  · exact safe_fail _
  · exact safe_ok _

namespace HandshakeContext

theorem safe_orError {α : Type} (o : Option α) (e : Error) : Safe (orError o e) := by
  cases o with
  | none => exact safe_fail e
  | some a => exact safe_ok a

theorem safe_proofBytes (proof : Bytes) : Safe (proofBytes proof) := by
  unfold proofBytes
  split
  · exact safe_ok _
  · exact safe_fail _

theorem total_deriveKeys : Total (deriveKeys : Action (HandshakeContext P) Unit) :=
  total_bind total_get fun _ => total_bind (total_set _) fun _ => total_bind (total_lift (safe_orError _ _)) fun _ =>
    total_bind (total_lift (safe_orError _ _)) fun _ => total_modify _

/-- Decoding is all that can abort a server on a hello. -/
theorem safe_handleClientHello {connectionId : UInt64} {secret : P.Scalar} {frame : Frame} {identity : Identity P}
    {capabilities : Capabilities} {c : HandshakeContext P} :
    Safe ((handleClientHello connectionId secret frame identity capabilities).exec c).1 ↔
      Safe (ClientHello.decode frame.payload) := by
  rw [handleClientHello, safe_exec_lift_bind]
  refine and_iff_left fun hello _ => ?_
  split
  · exact safe_err _
  · exact total_bind (total_modify _) (fun _ => total_bind total_get fun _ => total_bind (total_set _) fun _ =>
      total_bind total_deriveKeys fun _ => total_bind (total_modify _) fun _ => total_pure _) c

/-- Decoding is all that can abort a client on a hello. -/
theorem safe_handleServerHello {frame : Frame} {c : HandshakeContext P} :
    Safe ((handleServerHello frame).exec c).1 ↔ Safe (ServerHello.decode frame.payload) := by
  rw [handleServerHello, safe_exec_lift_bind]
  refine and_iff_left fun hello _ => ?_
  exact total_bind (total_modify _) (fun _ => total_bind total_get fun _ =>
    total_bind (total_lift (safe_proofBytes _)) fun _ => total_bind (total_lift (Identity.safe_verify _ _ _)) fun _ =>
      total_bind (total_set _) fun _ => total_bind total_deriveKeys fun _ => total_modify _) c

theorem safe_createFinished (c : HandshakeContext P) : Safe c.createFinished :=
  safe_bind (safe_orError _ _) fun _ _ => safe_bind (safe_orError _ _) fun _ _ => safe_pure _

theorem total_verifyFinished (frame : Frame) : Total (verifyFinished frame : Action (HandshakeContext P) Unit) :=
  total_bind total_get fun _ => total_bind (total_lift (safe_orError _ _)) fun _ =>
    total_bind (total_lift (safe_verifyFinished _ _ _)) fun _ => total_set _

/-- A client that waits for the server's hello, on the datagram that arrives. -/
def serverHelloArrives (datagram : Bytes) : Action (HandshakeContext P) Unit := do
  let frame ← liftM (Frame.decode datagram)
  handleServerHello frame

/-- **A datagram aborts the client exactly when it is a frame whose payload ends
before its proof length says.** -/
theorem serverHelloArrives_safe_iff (c : HandshakeContext P) (datagram : Bytes) :
    Safe ((serverHelloArrives datagram).exec c).1 ↔
      ∀ frame, Frame.decode datagram = .ok frame → ServerHello.Readable frame.payload := by
  rw [serverHelloArrives, safe_exec_lift_bind, and_iff_right (Frame.safe_decode datagram)]
  refine forall_congr' fun frame => forall_congr' fun _ => ?_
  rw [safe_handleServerHello, ServerHello.safe_decode_iff]

/-- The server's Finished gets to the client before the server's hello. -/
theorem serverHelloArrives_finished_panics :
    (createClientHello fixedClient.secret fixedClient.identity fixedClient.capabilities).exec
        (newClient fixedClient.connectionId) = (.ok (clientHelloFrame fixedClient), greetingContext fixedClient) ∧
      createFinished (serverContext fixedClient fixedServer .keysDerived) =
        .ok (serverFinishedFrame fixedClient fixedServer) ∧
      ((serverHelloArrives (serverFinishedFrame fixedClient fixedServer).encode).exec
        (greetingContext fixedClient)).1 = .error .panic := by
  have hread : Frame.decode (serverFinishedFrame fixedClient fixedServer).encode =
      .ok (serverFinishedFrame fixedClient fixedServer) :=
    onWire_serverFinished _ _ Transparent.fixedMacs_macLength
  have hdecode : ServerHello.decode (serverFinishedFrame fixedClient fixedServer).payload = .error .panic := rfl
  have hhello : (handleServerHello (serverFinishedFrame fixedClient fixedServer)).exec (greetingContext fixedClient) =
      (.error .panic, greetingContext fixedClient) := exec_bind_error (by rw [exec_lift, hdecode])
  refine ⟨rfl, rfl, ?_⟩
  rw [serverHelloArrives, exec_bind_ok (by rw [exec_lift, hread]), hhello]

end HandshakeContext

end

end Aether
