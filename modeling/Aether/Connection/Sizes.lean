import Aether.Connection.Provenance

/-! How long the datagrams are that `send_stream_data` hands over (`connection.rs`).

A datagram of a Data frame is a short header, a chunk and a tag. The size of the chunks
leaves room for a long header, which these frames do not have, and none for the tag;
so a full chunk makes a datagram of 1408 octets, and a call is within 1400 exactly
where its data is short enough to go in one datagram with both (`datagrams_fit_iff`). -/
namespace Aether
open Octets Octets.Method

section
variable {P : Primitives}

namespace Handing
open Endpoint Connection

/-- What a call of `send_stream_data` hands over. -/
def handedOver (e : Endpoint P) (streamId : StreamId) (data : Bytes) : List (Handed P) :=
  ((sendChunks streamId 0 (chunks maxPayloadSize data)).exec ⟨e, []⟩).2.notes

/-- An encryption is the frame and a tag. -/
theorem sealed_length (hP : P.Encrypts) (htag : P.TagLength) (keys : DirectionalKeys P) {plaintext aad : Bytes}
    (hplaintext : plaintext.length ≤ 2 ^ 36) (haad : aad.length ≤ 2 ^ 36) :
    ∃ d, sealed keys plaintext aad = .ok d ∧ d.octets.length = plaintext.length + aeadTagLen := by
  obtain ⟨ciphertext, hcipher⟩ := hP.encrypts keys.txKey keys.makeNonce haad hplaintext
  have hoctets := sealed_octets keys plaintext aad
  rw [DirectionalKeys.encrypt, hcipher] at hoctets
  cases hsealed : sealed keys plaintext aad with
  | error e =>
    rw [hsealed] at hoctets
    cases hoctets
  | ok d =>
    rw [hsealed] at hoctets
    refine ⟨d, rfl, ?_⟩
    rw [Except.ok.inj hoctets]
    exact htag.length hcipher

/-- A frame that is sent is handed over, whether or not the socket takes it. -/
theorem notes_sendFrame (hP : P.Encrypts) (htag : P.TagLength) {session : AeadSession P} {n : Noted (Endpoint P) (Handed P)}
    (haead : n.receiver.connection.aead = some session) (hactive : n.receiver.connection.state = .active) {frame : Frame}
    (hsize : frame.encode.length ≤ 2 ^ 36) :
    ∃ d, ((sendFrame frame).exec n).2.notes = n.notes ++ [d] ∧ d.octets.length = frame.encode.length + aeadTagLen := by
  have haad : n.receiver.connection.makeAad.length ≤ 2 ^ 36 := by
    rw [Connection.makeAad, List.length_append, toBe_length, toBe_length]
    decide
  obtain ⟨d, hsealed, hlength⟩ :=
    sealed_length hP htag (session.txKeys n.receiver.connection.isClient) hsize haad
  have hget : (bare get : Handing P (Endpoint P) (Endpoint P)).exec n = (.ok n.receiver, n) := rfl
  have hwire := exec_encryptWire haead frame
  rw [hsealed] at hwire
  refine ⟨d, ?_, hlength⟩
  rw [sendFrame, exec_bind_ok hget, if_neg (not_not_intro hactive), exec_bind_ok hwire, notes_hand_bind]

/-- What has been handed over has been handed over. -/
theorem keeps_handed_sendFrame (d : Handed P) (frame : Frame) :
    Keeps (fun n : Noted (Endpoint P) (Handed P) => d ∈ n.notes) (sendFrame frame) := by
  have hbare : ∀ {α : Type} (m : Action (Endpoint P) α),
      Keeps (fun n : Noted (Endpoint P) (Handed P) => d ∈ n.notes) (bare m) := fun m => keeps_bare (Q := (d ∈ ·)) m
  refine keeps_bind (hbare _) fun e => ?_
  split
  · exact keeps_throw _
  · refine keeps_bind (keeps_bind (hbare _) fun e' => ?_) fun encrypted => ?_
    · split
      · exact keeps_bind (hbare _) fun _ => keeps_lift _
      · exact keeps_pure _
    · refine keeps_bind (keeps_bind (keeps_note fun notes h => ?_) fun _ => hbare _) fun _ => hbare _
      exact List.mem_append_left _ h

theorem keeps_handed_sendChunks (d : Handed P) (streamId : StreamId) (i : Nat) (chunks : List Bytes) :
    Keeps (fun n : Noted (Endpoint P) (Handed P) => d ∈ n.notes) (sendChunks streamId i chunks) := by
  induction chunks generalizing i with
  | nil => exact keeps_pure ()
  | cons chunk chunks ih =>
    exact keeps_bind (keeps_bare (Q := (d ∈ ·)) _) fun e => keeps_bind (keeps_handed_sendFrame d _) fun _ => ih (i + 1)

/-- The datagram of a chunk: a short header, the chunk, a tag. -/
theorem handed_chunk (hP : P.Encrypts) (htag : P.TagLength) {session : AeadSession P} {e : Endpoint P}
    (haead : e.connection.aead = some session) (hactive : e.connection.state = .active) (streamId : StreamId) {chunk : Bytes}
    (hchunk : chunk.length ≤ maxPayloadSize) :
    ∃ d, ((sendFrame (Frame.data streamId e.connection.destination (UInt32.ofNat 0 * UInt32.ofNat maxPayloadSize)
        chunk)).exec (⟨e, []⟩ : Noted (Endpoint P) (Handed P))).2.notes = [d] ∧
      d.octets.length = shortHeaderSize + chunk.length + aeadTagLen := by
  have hmax : chunk.length ≤ 1376 := hchunk
  have hencode : (Frame.data streamId e.connection.destination (UInt32.ofNat 0 * UInt32.ofNat maxPayloadSize)
      chunk).encode.length = shortHeaderSize + chunk.length := Frame.newShort_encode_length ..
  have hsize : shortHeaderSize + chunk.length ≤ 2 ^ 36 := by
    rw [shortHeaderSize]
    omega
  obtain ⟨d, hnotes, hlength⟩ := notes_sendFrame hP htag (n := ⟨e, []⟩) haead hactive (hencode.trans_le hsize)
  rw [hencode] at hlength
  exact ⟨d, hnotes, hlength⟩

/-- The first datagram of a call, and that it is the only one if its data is one chunk. -/
theorem handedOver_cases (hP : P.Encrypts) (htag : P.TagLength) {session : AeadSession P} {e : Endpoint P}
    (haead : e.connection.aead = some session) (hactive : e.connection.state = .active) (streamId : StreamId) {data : Bytes}
    (hdata : data ≠ []) :
    ∃ d ∈ handedOver e streamId data,
      d.octets.length = shortHeaderSize + min maxPayloadSize data.length + aeadTagLen ∧
      (data.length ≤ maxPayloadSize → handedOver e streamId data = [d]) := by
  have hsize : 0 < maxPayloadSize := by decide
  have hchunks := chunks_of_ne_nil hsize hdata
  obtain ⟨d, hnotes, hlength⟩ := handed_chunk hP htag haead hactive streamId (List.length_take_le maxPayloadSize data)
  rw [List.length_take] at hlength
  have hget : (bare get : Handing P (Endpoint P) (Endpoint P)).exec ⟨e, []⟩ = (.ok e, ⟨e, []⟩) := rfl
  rcases hexec : (sendFrame (Frame.data streamId e.connection.destination (UInt32.ofNat 0 * UInt32.ofNat maxPayloadSize)
    (data.take maxPayloadSize))).exec (⟨e, []⟩ : Noted (Endpoint P) (Handed P)) with ⟨r, n⟩
  rw [hexec] at hnotes
  have hmem : d ∈ n.notes := by
    rw [hnotes]
    exact List.mem_singleton_self d
  refine ⟨d, ?_, hlength, fun hone => ?_⟩
  · rw [handedOver, hchunks, sendChunks, exec_bind_ok hget]
    cases r with
    | error stop =>
      rw [exec_bind_error hexec]
      exact hmem
    | ok u =>
      rw [exec_bind_ok hexec]
      exact keeps_handed_sendChunks d streamId 1 _ n hmem
  · rw [handedOver, hchunks, List.drop_eq_nil_of_le hone, chunks_nil _ hsize, sendChunks, exec_bind_ok hget]
    cases r with
    | error stop =>
      rw [exec_bind_error hexec]
      exact hnotes
    | ok u =>
      rw [exec_bind_ok hexec]
      exact hnotes

/-- **What a call hands over is within the size of a packet exactly where its data leaves
room for the tag**, on whatever connection that is active, and whatever it has done. -/
theorem datagrams_fit_iff (hP : P.Encrypts) (htag : P.TagLength) {c : Connection P} (hc : c.Returned)
    (ops : List Operation) (hactive : ((start c).run ops).connection.state = .active) (streamId : StreamId) (data : Bytes) :
    (∀ d ∈ handedOver ((start c).run ops) streamId data, d.octets.length ≤ maxPacketSize) ↔ data.length ≤ 1368 := by
  obtain ⟨_, _, session, hready⟩ := hc.ready
  have haead := (sound_run hready.aead ops).unchanged.aead.trans hready.aead
  rcases eq_or_ne data [] with rfl | hdata
  · refine iff_of_true (fun d hd => ?_) (Nat.zero_le _)
    rw [handedOver, chunks_nil _ (by decide)] at hd
    exact absurd hd List.not_mem_nil
  · obtain ⟨d, hmem, hlength, hone⟩ := handedOver_cases hP htag haead hactive streamId hdata
    rw [shortHeaderSize, aeadTagLen, maxPayloadSize] at hlength
    constructor
    · intro hfit
      have hd : d.octets.length ≤ 1400 := hfit d hmem
      omega
    · intro hshort d' hd'
      have hpayload : data.length ≤ maxPayloadSize := hshort.trans (by decide)
      rw [hone hpayload] at hd'
      cases List.mem_singleton.mp hd'
      rw [hlength, maxPacketSize]
      omega

section Sample
open HandshakeContext

/-- A party over ciphers with a tag. -/
def taggedParty (seed : UInt8) : Party Transparent.tagged :=
  ⟨Identity.ofSigningKey (P := Transparent.tagged) seed, Capabilities.default, seed.toUInt64 <<< 32, seed⟩

def taggedClient : Connection Transparent.tagged := clientOf (taggedParty 1) (taggedParty 2) openSocket sampleConfig

theorem taggedClient_returned : taggedClient.Returned :=
  .connect (connect_honest Transparent.tagged_agreesOnSecrets Transparent.tagged_verifiesSignatures
    Transparent.tagged_macLength (taggedParty 1) (taggedParty 2) (fun _ => rfl) rfl)

theorem datagrams_fit_iff_tagged :
    (∀ d ∈ handedOver ((start taggedClient).run [.ping 0]) 2 [1, 2, 3], d.octets.length ≤ maxPacketSize) ↔
      ([1, 2, 3] : Bytes).length ≤ 1368 :=
  datagrams_fit_iff Transparent.tagged_encrypts Transparent.tagged_tagLength taggedClient_returned [.ping 0] rfl 2 [1, 2, 3]

/-- A full chunk does not fit. -/
theorem full_chunk_exceeds :
    taggedClient.Returned ∧ (start taggedClient).connection.state = .active ∧
      ¬ ∀ d ∈ handedOver (start taggedClient) 2 (List.replicate 1376 0), d.octets.length ≤ maxPacketSize := by
  obtain ⟨_, _, session, hready⟩ := taggedClient_returned.ready
  have hdata : (List.replicate 1376 (0 : UInt8)) ≠ [] := List.ne_nil_of_length_pos (by
    rw [List.length_replicate]
    decide)
  obtain ⟨d, hmem, hlength, _⟩ := handedOver_cases Transparent.tagged_encrypts Transparent.tagged_tagLength
    (e := start taggedClient) hready.aead hready.state 2 hdata
  rw [List.length_replicate] at hlength
  exact ⟨taggedClient_returned, rfl, fun hfit => absurd (hlength.symm.trans_le (hfit d hmem)) (by decide)⟩

end Sample

end Handing

end

end Aether
