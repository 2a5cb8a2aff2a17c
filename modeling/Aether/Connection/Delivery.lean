import Aether.Connection.Endpoint
import Aether.Connection.Establishment

/-! Whether what one end sends arrives at the other.

Both ends of an honest handshake have the same session, and each receives under the
key and the nonce the other sends under. The associated data is each one's own
connection ID: the two agree exactly where the connection IDs do, as far as they
are sent (`delivered_iff`). -/
namespace Aether
open Octets Octets.Method Connection Endpoint

section
variable {P : Primitives}

namespace Endpoint

/-- A frame in range, in a datagram that the receiver's buffer holds. -/
structure Fits (m : Frame × Bytes) (receiver : Endpoint P) : Prop where
  frame : m.1.WellFormed
  datagram : m.2.length ≤ receiver.connection.config.recvBufferSize

/-- Given the datagram, the receiver returns the frame. -/
def Delivered (m : Frame × Bytes) (receiver : Endpoint P) : Prop :=
  ((recvFrame (.ok m.2)).exec receiver).1 = .ok m.1

/-- The associated data says whose it is. -/
theorem makeAad_eq_iff {a b : Connection P} (ha : a.txPacketNumber = 0) (hb : b.txPacketNumber = 0) :
    a.makeAad = b.makeAad ↔ a.ourConnectionId = b.ourConnectionId := by
  rw [Connection.makeAad, Connection.makeAad, ha, hb]
  constructor
  · intro h
    have hids := (List.append_inj h (by rw [toBe_length, toBe_length])).1
    exact UInt32.toNat_inj.mp (toBe_inj a.ourConnectionId.toNat_lt b.ourConnectionId.toNat_lt hids)
  · intro h
    rw [h]

/-- What one end has sent is read by the other as the frame it was, if at all. -/
theorem reads_iff_of_ready (hP : P.Authenticates) {isClient : Bool} {senderId receiverId : UInt64}
    {session : AeadSession P} {c s : Connection P} (hc : Ready isClient senderId session c)
    (hs : Ready (!isClient) receiverId session s) (ops : List Operation) {m : Frame × Bytes}
    (hm : m ∈ ((start c).run ops).emitted) (hfits : m.2.length ≤ s.config.recvBufferSize) (frame : Frame) :
    reads s (.ok m.2) = .ok frame ↔
      (truncateCid senderId = truncateCid receiverId ∧ s.config.recvBufferSize ≤ isizeMax) ∧
        Frame.decode m.1.encode = .ok frame := by
  have hkeys : session.rxKeys s.isClient = session.txKeys c.isClient := by
    rw [hs.isClient, hc.isClient, AeadSession.rxKeys_not]
  have hplain : decryptWire s m.2 = (session.txKeys c.isClient).decrypt m.2 s.makeAad := by
    rw [decryptWire, hs.aead, ← hkeys]
  have hencrypt := mapCrypto_eq_ok.mp ((sound_run hc.aead ops).emitted m hm)
  have hdecrypts : (session.txKeys c.isClient).decrypt m.2 c.makeAad = .ok m.1.encode :=
    mapCrypto_eq_ok.mpr (hP.decrypts hencrypt)
  have haad : s.makeAad = c.makeAad ↔ truncateCid senderId = truncateCid receiverId := by
    rw [makeAad_eq_iff hs.txPacketNumber hc.txPacketNumber, hs.ourConnectionId, hc.ourConnectionId, eq_comm]
  rw [reads_eq_ok, ← haad]
  constructor
  · intro h
    obtain ⟨hroom, _, harrived, plain, hdecrypt, hframe⟩ := h
    cases harrived
    rw [List.take_of_length_le hfits, hplain] at hdecrypt
    have hsame := (hP.authentic hencrypt (mapCrypto_eq_ok.mp hdecrypt)).2.2
    rw [hsame, hdecrypts] at hdecrypt
    cases hdecrypt
    exact ⟨⟨hsame, hroom⟩, hframe⟩
  · intro h
    obtain ⟨⟨hsame, hroom⟩, hframe⟩ := h
    refine ⟨hroom, m.2, rfl, m.1.encode, ?_, hframe⟩
    rw [List.take_of_length_le hfits, hplain, hsame, hdecrypts]

/-- One direction, in any two runs. -/
theorem delivered_iff_of_ready (hP : P.Authenticates) {isClient : Bool} {senderId receiverId : UInt64}
    {session : AeadSession P} {c s : Connection P} (hc : Ready isClient senderId session c)
    (hs : Ready (!isClient) receiverId session s) (senderOps receiverOps : List Operation) {m : Frame × Bytes}
    (hm : m ∈ ((start c).run senderOps).emitted) (hfits : Fits m ((start s).run receiverOps)) :
    Delivered m ((start s).run receiverOps) ↔
      truncateCid senderId = truncateCid receiverId ∧ s.config.recvBufferSize ≤ isizeMax := by
  have hunchanged := (sound_run hs.aead receiverOps).unchanged
  have hlength : m.2.length ≤ s.config.recvBufferSize := hunchanged.config ▸ hfits.datagram
  rw [Delivered, exec_recvFrame_empty (hunchanged.incomingFrames hs.incomingFrames), hunchanged.reads,
    reads_iff_of_ready hP hc hs senderOps hm hlength, Frame.decode_encode_self m.1 hfits.frame, eq_self_iff_true,
    and_true]

/-- **What either end of an honest pair sends arrives at the other exactly where the
upper halves of their connection IDs coincide** and the other's receive buffer can be made,
whatever both have done before. -/
theorem delivered_iff (hP : P.Authenticates) (hdh : P.AgreesOnSecrets) (hsig : P.VerifiesSignatures)
    (hmac : P.MacLength) {clientId serverId : UInt64} {c s : Connection P} (h : HonestPair clientId serverId c s)
    (clientOps serverOps : List Operation) {m : Frame × Bytes} :
    (m ∈ ((start c).run clientOps).emitted → Fits m ((start s).run serverOps) →
      (Delivered m ((start s).run serverOps) ↔
        truncateCid clientId = truncateCid serverId ∧ s.config.recvBufferSize ≤ isizeMax)) ∧
    (m ∈ ((start s).run serverOps).emitted → Fits m ((start c).run clientOps) →
      (Delivered m ((start c).run clientOps) ↔
        truncateCid clientId = truncateCid serverId ∧ c.config.recvBufferSize ≤ isizeMax)) := by
  obtain ⟨session, hc, hs⟩ := h.ready hdh hsig hmac
  refine ⟨fun hm hfits => delivered_iff_of_ready hP hc hs clientOps serverOps hm hfits, fun hm hfits => ?_⟩
  rw [eq_comm (a := truncateCid clientId)]
  exact delivered_iff_of_ready hP hs hc serverOps clientOps hm hfits

/-- A keep-alive of the sample client, and that it would fit its peer's buffer. -/
theorem sample_ping :
    ∃ m ∈ ((start sampleClient).run [.ping 7]).emitted, Fits m ((start sampleServer).run []) := by
  have hemitted : ((start sampleClient).run [.ping 7]).emitted.map (fun m => (m.1, m.2.length)) =
      [(Frame.ping 2 7, 869)] := by decide +kernel
  obtain ⟨m, hm, hframe⟩ := List.map_eq_singleton_iff.mp hemitted
  obtain ⟨hfirst, hsecond⟩ := Prod.mk.inj hframe
  refine ⟨m, by rw [hm]; exact List.mem_singleton_self m, ?_, ?_⟩
  · rw [hfirst]
    exact Frame.newShort_wellFormed .ping (by decide) 2 0 (by rw [toBe_length]; decide)
  · rw [hsecond]
    show 869 ≤ 65536
    decide

theorem delivered_iff_sample :
    ∃ m ∈ ((start sampleClient).run [.ping 7]).emitted,
      Delivered m ((start sampleServer).run []) ↔
        truncateCid 0x100000000 = truncateCid 0x200000000 ∧ sampleServer.config.recvBufferSize ≤ isizeMax := by
  obtain ⟨m, hm, hfits⟩ := sample_ping
  exact ⟨m, hm, (delivered_iff (Transparent.authenticates _) (Transparent.agreesOnSecrets _)
    (Transparent.verifiesSignatures _) Transparent.fixedMacs_macLength honestPair_sample [.ping 7] []).1 hm hfits⟩

/-- The server of an honest pair does not take its client's keep-alive. -/
theorem undelivered_sample :
    ∃ (clientId serverId : UInt64) (c s : Connection Transparent.fixedMacs), HonestPair clientId serverId c s ∧
      ∃ m ∈ ((start c).run [.ping 7]).emitted, Fits m (start s) ∧ ¬ Delivered m (start s) := by
  obtain ⟨m, hm, hfits⟩ := sample_ping
  refine ⟨_, _, sampleClient, sampleServer, honestPair_sample, m, hm, hfits, ?_⟩
  obtain ⟨session, hc, hs⟩ := honestPair_sample.ready (Transparent.agreesOnSecrets _)
    (Transparent.verifiesSignatures _) Transparent.fixedMacs_macLength
  intro hdelivered
  have hids := (delivered_iff_of_ready (Transparent.authenticates _) hc hs [.ping 7] [] hm hfits).mp hdelivered
  exact absurd hids.1 (by decide)

end Endpoint

end

end Aether
