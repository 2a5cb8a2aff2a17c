import Aether.Connection.Chunks
import Aether.Connection.Replay
import Aether.Library.Runs

/-! What an established connection is to those who use it.

Between the two ends of an honest handshake stands a network that loses, repeats, delays,
reorders and reflects what they send, and makes up whatever else it likes: of what it
gives them, only what they have sent decrypts. An end then accepts exactly what the other one
has sent, where their connection IDs agree as far as they are sent, and nothing at all
where they do not (`accepts_iff`), so that whatever is heard was said (`heard_said`). Data that
was sent in one call is read as far as it has arrived without a gap, as long as none of it
is repeated (`stream_read`). -/
namespace Aether
open Octets Octets.Method Connection Endpoint

section
variable {P : Primitives}

/-- The keys of the two directions are not the same. -/
structure Primitives.SeparatesDirections (P : Primitives) : Prop where
  keys : ∀ secret, (P.hkdfDirectional secret clientTxLabel).1 ≠ (P.hkdfDirectional secret serverTxLabel).1

theorem Transparent.separatesDirections (hmac : Transparent.Key → Bytes → Bytes) :
    (Transparent.primitives hmac).SeparatesDirections where
  keys secret h := by
    have hlabels : clientTxLabel = serverTxLabel := (Prod.mk.inj h).2
    exact absurd hlabels (by decide)

namespace Endpoint

/-! ### What operations leave of an endpoint -/

/-- An endpoint that operations have led to from another one. -/
def Later (e e' : Endpoint P) : Prop := ∃ ops, e' = e.run ops

theorem run_append (e : Endpoint P) (before after : List Operation) :
    e.run (before ++ after) = (e.run before).run after := by
  induction before generalizing e with
  | nil => rfl
  | cons op before ih => exact ih (e.perform op)

theorem Later.trans {e e' e'' : Endpoint P} (h : Later e e') (h' : Later e' e'') : Later e e'' := by
  obtain ⟨before, rfl⟩ := h
  obtain ⟨after, rfl⟩ := h'
  exact ⟨before ++ after, (run_append e before after).symm⟩

theorem later_perform (e : Endpoint P) (op : Operation) : Later e (e.perform op) := ⟨[op], rfl⟩

/-- What an operation has sent comes after what was sent before it. -/
theorem perform_emitted {session : AeadSession P} {e : Endpoint P} (h : e.connection.aead = some session)
    (op : Operation) : e.emitted <+: (e.perform op).emitted := by
  have hclosing : ∀ code, op = .close code →
      e.closing.connection.aead = some session ∧ e.emitted <+: e.closing.emitted := fun _ _ => ⟨h, List.prefix_rfl⟩
  have hkept := perform_keeps (I := fun e' => e'.connection.aead = some session ∧ e.emitted <+: e'.emitted)
    (fun frame e' he => ?_) (fun _ _ he hc _ => ⟨hc.aead.trans he.1, he.2⟩) ⟨h, List.prefix_rfl⟩ hclosing
  · exact hkept.2
  · have hsending := exec_sendFrame he.1 frame
    refine ⟨hsending.unchanged.aead.trans he.1, he.2.trans ?_⟩
    rcases hsending.emitted with ⟨_, _, hemitted⟩ | ⟨datagram, _, hemitted⟩
    · exact ⟨[], (List.append_nil _).trans hemitted.symm⟩
    · exact ⟨_, hemitted.symm⟩

/-- Where a connection decrypts of all that was sent just what is its own, it reads what that says. -/
theorem reads_iff_sent {c : Connection P} {datagram : Bytes} (sent own : Frame × Bytes → Prop)
    (hsent : ∀ m, sent m → ∀ plain, decryptWire c m.2 = .ok plain → own m ∧ plain = m.1.encode)
    (hown : ∀ m, own m → decryptWire c m.2 = .ok m.1.encode)
    (hunforged : ∀ plain, decryptWire c (datagram.take c.config.recvBufferSize) = .ok plain →
      ∃ m, sent m ∧ m.2 = datagram.take c.config.recvBufferSize) (frame : Frame) :
    reads c (.ok datagram) = .ok frame ↔ c.config.recvBufferSize ≤ isizeMax ∧ ∃ m, own m ∧
      m.2 = datagram.take c.config.recvBufferSize ∧ Frame.decode m.1.encode = .ok frame := by
  rw [reads_eq_ok]
  constructor
  · intro hreads
    obtain ⟨hroom, _, harrived, plain, hplain, hframe⟩ := hreads
    cases harrived
    obtain ⟨m, hm, hsame⟩ := hunforged plain hplain
    rw [← hsame] at hplain
    obtain ⟨hmine, rfl⟩ := hsent m hm plain hplain
    exact ⟨hroom, m, hmine, hsame, hframe⟩
  · intro hreads
    obtain ⟨hroom, m, hm, hsame, hframe⟩ := hreads
    exact ⟨hroom, datagram, rfl, m.1.encode, hsame ▸ hown m hm, hframe⟩

/-! ### What operations say on a stream -/

/-- A frame in range that is no longer than a full chunk makes it. -/
structure Small (frame : Frame) : Prop where
  wellFormed : frame.WellFormed
  length : frame.encode.length ≤ shortHeaderSize + maxPayloadSize

theorem small_newShort (frameType : FrameType) {streamId : UInt32} (hstream : streamId ≤ maxStreamId)
    (connectionId offset : UInt32) {payload : Bytes} (hpayload : payload.length ≤ maxPayloadSize) :
    Small (Frame.newShort frameType streamId connectionId offset payload) := by
  refine ⟨Frame.newShort_wellFormed frameType hstream connectionId offset (hpayload.trans_lt (by decide)), ?_⟩
  rw [Frame.newShort_encode_length]
  exact Nat.add_le_add_left hpayload _

theorem small_dataFrames {streamId : UInt32} (hstream : streamId ≤ maxStreamId) (destination : UInt32)
    {data : List Bytes} (hdata : ∀ chunk ∈ data, chunk.length ≤ maxPayloadSize) (i : Nat) :
    ∀ frame ∈ dataFrames streamId destination i data, Small frame := by
  induction data generalizing i with
  | nil => exact fun _ h => absurd h List.not_mem_nil
  | cons chunk data ih =>
    intro frame hframe
    rcases List.mem_cons.mp hframe with rfl | hrest
    · exact small_newShort .data hstream _ _ (hdata chunk List.mem_cons_self)
    · exact ih (fun chunk' h => hdata chunk' (List.mem_cons_of_mem _ h)) (i + 1) frame hrest

/-- Data on a stream. -/
def OnStream (streamId : StreamId) (frame : Frame) : Prop :=
  frame.header.frameType = .data ∧ frame.header.streamId = streamId

instance (streamId : StreamId) (frame : Frame) : Decidable (OnStream streamId frame) :=
  inferInstanceAs (Decidable (_ ∧ _))

/-- A frame that is not read as data on a stream. -/
def Off (streamId : StreamId) (frame : Frame) : Prop :=
  ∀ read, Frame.decode frame.encode = .ok read → ¬ OnStream streamId read

/-- An operation that sends nothing on a stream. -/
def Elsewhere (streamId : StreamId) : Operation → Prop
  | .sendFrame frame => Off streamId frame
  | .sendStreamData other _ => other ≤ maxStreamId ∧ other ≠ streamId
  | _ => True

theorem off_of_wellFormed {streamId : StreamId} {frame : Frame} (hframe : frame.WellFormed)
    (h : ¬ OnStream streamId frame) : Off streamId frame := by
  intro read hread
  rw [Frame.decode_encode_self frame hframe] at hread
  cases hread
  exact h

theorem off_dataFrames {streamId other : StreamId} (h : other ≤ maxStreamId ∧ other ≠ streamId) (destination : UInt32)
    (data : Bytes) : ∀ frame ∈ dataFrames other destination 0 (chunks maxPayloadSize data), Off streamId frame := by
  intro frame hframe
  have hsmall := small_dataFrames h.1 destination (fun _ hchunk => mem_chunks hchunk) 0 frame hframe
  exact off_of_wellFormed hsmall.wellFormed fun hon => h.2 ((mem_dataFrames hframe).2.symm.trans hon.2)

/-- What an operation sends elsewhere is not read on the stream. -/
theorem perform_elsewhere {session : AeadSession P} {e : Endpoint P} (h : e.connection.aead = some session)
    {streamId : StreamId} {op : Operation} (helsewhere : Elsewhere streamId op) :
    ∀ m ∈ (e.perform op).emitted, m ∈ e.emitted ∨ Off streamId m.1 := by
  have hsend (frame : Frame) (hoff : Off streamId frame) :
      ∀ m ∈ ((sendFrame frame).exec e).2.emitted, m ∈ e.emitted ∨ Off streamId m.1 := by
    intro m hm
    rcases (exec_sendFrame h frame).emitted with ⟨_, _, hemitted⟩ | ⟨datagram, _, hemitted⟩
    · rw [hemitted] at hm
      exact .inl hm
    · rw [hemitted] at hm
      rcases List.mem_append.mp hm with hm | hm
      · exact .inl hm
      · cases List.mem_singleton.mp hm
        exact .inr hoff
  cases op with
  | sendFrame frame => exact hsend frame helsewhere
  | sendStreamData other data =>
    intro m hm
    obtain ⟨sent, hemitted, hbegins⟩ := (sent_sendChunks other (chunks maxPayloadSize data) h 0).emitted
    have hafter : (e.perform (.sendStreamData other data)).emitted = e.emitted ++ sent := hemitted
    rw [hafter] at hm
    rcases List.mem_append.mp hm with hm | hm
    · exact .inl hm
    · exact .inr (off_dataFrames helsewhere _ data m.1 (hbegins.subset (List.mem_map_of_mem hm)))
  | ping nonce =>
    refine hsend (Frame.ping e.connection.destination nonce) (off_of_wellFormed ?_ nofun)
    exact Frame.newShort_wellFormed .ping (by decide) _ 0 (by rw [toBe_length]; decide)
  | recvFrame arrived =>
    obtain ⟨c, _, _, hexec⟩ := exec_recvFrame_state e arrived
    rw [perform, hexec]
    exact fun m hm => .inl hm
  | openStream =>
    obtain ⟨c, _, _, hexec⟩ := exec_openStream_state e
    rw [perform, hexec]
    exact fun m hm => .inl hm
  | close code =>
    rw [perform_close]
    exact fun m hm => .inl hm

end Endpoint

variable (P) in
/-- The two ends of a connection, the client's that of `true`, and what each has received. -/
structure Channel where
  ends : Bool → Endpoint P
  heard : Bool → List Frame

namespace Channel

/-- Before either end has done anything. -/
def between (ends : Bool → Connection P) : Channel P := ⟨fun isClient => start (ends isClient), fun _ => []⟩

/-- The frame that an operation returns. -/
def returned (e : Endpoint P) : Operation → List Frame
  | .recvFrame arrived =>
    match ((recvFrame arrived).exec e).1 with
    | .ok frame => [frame]
    | .error _ => []
  | _ => []

/-- One end does something. -/
def next (x : Channel P) (e : Bool × Operation) : Channel P where
  ends := Function.update x.ends e.1 ((x.ends e.1).perform e.2)
  heard := Function.update x.heard e.1 (x.heard e.1 ++ returned (x.ends e.1) e.2)

def step (x : Channel P) (e : Bool × Operation) : Option (Channel P) := some (x.next e)

/-- What an end takes of a datagram. -/
def arrival (x : Channel P) (isClient : Bool) (datagram : Bytes) : Bytes :=
  datagram.take (x.ends isClient).connection.config.recvBufferSize

/-- What the end takes of it was sent by one of the two, if it decrypts. -/
def Unforged (x : Channel P) (isClient : Bool) (datagram : Bytes) : Prop :=
  ∀ plain, decryptWire (x.ends isClient).connection (x.arrival isClient datagram) = .ok plain →
    ∃ sender, ∃ m ∈ (x.ends sender).emitted, m.2 = x.arrival isClient datagram

def Allowed (x : Channel P) (e : Bool × Operation) : Prop :=
  ∀ datagram, e.2 = .recvFrame (.ok datagram) → x.Unforged e.1 datagram

/-- A frame as it is read where it has been sent. -/
def Told (x : Channel P) (sender : Bool) (frame : Frame) : Prop :=
  ∃ m ∈ (x.ends sender).emitted, Frame.decode m.1.encode = .ok frame

/-! ### What is accepted -/

section
variable {ends : Bool → Connection P} {ids : Bool → UInt64} {session : AeadSession P} {x : Channel P}

/-- The two ends of one session, which has a key for each direction. -/
structure Paired (ids : Bool → UInt64) (session : AeadSession P) (ends : Bool → Connection P) : Prop where
  ready : ∀ isClient, Ready isClient (ids isClient) session (ends isClient)
  keys : session.clientTx.txKey ≠ session.serverTx.txKey

theorem agree_iff (ids : Bool → UInt64) (isClient : Bool) :
    truncateCid (ids !isClient) = truncateCid (ids isClient) ↔ truncateCid (ids true) = truncateCid (ids false) := by
  cases isClient with
  | true => exact eq_comm
  | false => exact Iff.rfl

/-- What one end has encrypted is decrypted by the other one, if at all. -/
theorem decryptWire_iff (hP : P.Authenticates) (hpaired : Paired ids session ends) {sender isClient : Bool}
    {wire datagram : Bytes}
    (hencrypt : (session.txKeys sender).encrypt wire (ends sender).makeAad = .ok datagram) (plain : Bytes) :
    decryptWire (ends isClient) datagram = .ok plain ↔
      sender = !isClient ∧ truncateCid (ids true) = truncateCid (ids false) ∧ plain = wire := by
  have hcipher := mapCrypto_eq_ok.mp hencrypt
  have haad : (ends isClient).makeAad = (ends sender).makeAad ↔
      truncateCid (ids sender) = truncateCid (ids isClient) := by
    rw [makeAad_eq_iff (hpaired.ready isClient).txPacketNumber (hpaired.ready sender).txPacketNumber,
      (hpaired.ready isClient).ourConnectionId, (hpaired.ready sender).ourConnectionId, eq_comm]
  rw [decryptWire, (hpaired.ready isClient).aead, (hpaired.ready isClient).isClient]
  constructor
  · intro h
    have hplain := mapCrypto_eq_ok.mp h
    obtain ⟨hkey, hnonce, hsame⟩ := hP.authentic hcipher hplain
    have hother : sender = !isClient := by
      cases sender <;> cases isClient
      · exact absurd hkey hpaired.keys
      · rfl
      · rfl
      · exact absurd hkey.symm hpaired.keys
    have hids := haad.mp hsame
    rw [hkey, hnonce, hsame, hP.decrypts hcipher] at hplain
    rw [hother] at hids
    exact ⟨hother, (agree_iff ids isClient).mp hids, (Except.ok.inj hplain).symm⟩
  · intro h
    obtain ⟨rfl, hids, rfl⟩ := h
    show (session.rxKeys isClient).decrypt datagram (ends isClient).makeAad = _
    rw [haad.mpr ((agree_iff ids isClient).mpr hids), ← Bool.not_not isClient, AeadSession.rxKeys_not, Bool.not_not]
    exact mapCrypto_eq_ok.mpr (hP.decrypts hcipher)

/-- What holds of the two ends and of what each has received. -/
structure Kept (ends : Bool → Connection P) (ids : Bool → UInt64) (x : Channel P) : Prop where
  later : ∀ isClient, Later (start (ends isClient)) (x.ends isClient)
  heard : ∀ isClient, ∀ frame ∈ x.heard isClient,
    x.Told (!isClient) frame ∧ truncateCid (ids true) = truncateCid (ids false)

theorem kept_between (ends : Bool → Connection P) (ids : Bool → UInt64) : Kept ends ids (between ends) :=
  ⟨fun _ => ⟨[], rfl⟩, fun _ _ h => absurd h List.not_mem_nil⟩

/-- An end is still the one that was set up. -/
theorem Kept.sound (h : Kept ends ids x) (hpaired : Paired ids session ends) (isClient : Bool) :
    Sound (ends isClient) session (x.ends isClient) := by
  obtain ⟨ops, hops⟩ := h.later isClient
  rw [hops]
  exact sound_run (hpaired.ready isClient).aead ops

theorem Kept.recvFrame_iff (h : Kept ends ids x) (hP : P.Authenticates) (hpaired : Paired ids session ends)
    {isClient : Bool} {datagram : Bytes} (hunforged : x.Unforged isClient datagram) (frame : Frame) :
    ((recvFrame (.ok datagram)).exec (x.ends isClient)).1 = .ok frame ↔
      truncateCid (ids true) = truncateCid (ids false) ∧ (ends isClient).config.recvBufferSize ≤ isizeMax ∧
        ∃ m ∈ (x.ends !isClient).emitted, m.2 = x.arrival isClient datagram ∧ Frame.decode m.1.encode = .ok frame := by
  have hsound := h.sound hpaired
  have hunchanged := (hsound isClient).unchanged
  have hdecrypts (m : Frame × Bytes) (sender : Bool) (hm : m ∈ (x.ends sender).emitted) (plain : Bytes) :
      decryptWire (x.ends isClient).connection m.2 = .ok plain ↔
        sender = !isClient ∧ truncateCid (ids true) = truncateCid (ids false) ∧ plain = m.1.encode := by
    have hencrypt := (hsound sender).emitted m hm
    rw [(hpaired.ready sender).isClient] at hencrypt
    rw [← decryptWire_iff hP hpaired hencrypt plain, decryptWire, decryptWire, hunchanged.aead,
      hunchanged.isClient, hunchanged.makeAad]
  rw [exec_recvFrame_empty (hunchanged.incomingFrames (hpaired.ready isClient).incomingFrames)]
  refine (reads_iff_sent (fun m => ∃ sender, m ∈ (x.ends sender).emitted) (fun m => truncateCid (ids true) =
    truncateCid (ids false) ∧ m ∈ (x.ends !isClient).emitted) ?_ ?_ ?_ frame).trans ?_
  · intro m hm plain hplain
    obtain ⟨sender, hm⟩ := hm
    obtain ⟨rfl, hids, hsame⟩ := (hdecrypts m sender hm plain).mp hplain
    exact ⟨⟨hids, hm⟩, hsame⟩
  · exact fun m hm => (hdecrypts m _ hm.2 m.1.encode).mpr ⟨rfl, hm.1, rfl⟩
  · intro plain hplain
    obtain ⟨sender, m, hm, hsame⟩ := hunforged plain hplain
    exact ⟨m, ⟨sender, hm⟩, hsame⟩
  · rw [Channel.arrival, hunchanged.config]
    simp only [and_assoc, exists_and_left]
    exact and_left_comm

theorem next_self (x : Channel P) (isClient : Bool) (op : Operation) :
    (x.next (isClient, op)).ends isClient = (x.ends isClient).perform op := Function.update_self ..

theorem next_other (x : Channel P) {isClient other : Bool} (h : other ≠ isClient) (op : Operation) :
    (x.next (isClient, op)).ends other = x.ends other := Function.update_of_ne h ..

/-- What an end has sent stays sent. -/
theorem Kept.emitted_next (h : Kept ends ids x) (hpaired : Paired ids session ends) (e : Bool × Operation)
    (isClient : Bool) : (x.ends isClient).emitted <+: ((x.next e).ends isClient).emitted := by
  by_cases hend : isClient = e.1
  · subst hend
    rw [next_self]
    exact perform_emitted ((h.sound hpaired e.1).unchanged.aead.trans (hpaired.ready e.1).aead) e.2
  · exact ⟨[], (List.append_nil _).trans (congrArg Endpoint.emitted (next_other x hend e.2).symm)⟩

theorem Kept.told_next (h : Kept ends ids x) (hpaired : Paired ids session ends) (e : Bool × Operation)
    {sender : Bool} {frame : Frame} (htold : x.Told sender frame) : (x.next e).Told sender frame := by
  obtain ⟨m, hm, hframe⟩ := htold
  exact ⟨m, (h.emitted_next hpaired e sender).subset hm, hframe⟩

/-- What an operation returns has been said. -/
theorem Kept.returned (h : Kept ends ids x) (hP : P.Authenticates) (hpaired : Paired ids session ends)
    {e : Bool × Operation} (hallowed : x.Allowed e) {frame : Frame} (hframe : frame ∈ returned (x.ends e.1) e.2) :
    x.Told (!e.1) frame ∧ truncateCid (ids true) = truncateCid (ids false) := by
  obtain ⟨isClient, op⟩ := e
  cases op with
  | recvFrame arrived =>
    cases arrived with
    | ok datagram =>
      rw [Channel.returned] at hframe
      cases hexec : ((recvFrame (.ok datagram)).exec (x.ends isClient)).1 with
      | error error =>
        rw [hexec] at hframe
        exact absurd hframe List.not_mem_nil
      | ok heard =>
        rw [hexec] at hframe
        cases List.mem_singleton.mp hframe
        obtain ⟨hids, _, m, hm, _, hdecode⟩ := (h.recvFrame_iff hP hpaired (hallowed datagram rfl) frame).mp hexec
        exact ⟨⟨m, hm, hdecode⟩, hids⟩
    | error text =>
      have hincoming := (h.sound hpaired isClient).unchanged.incomingFrames (hpaired.ready isClient).incomingFrames
      rw [Channel.returned, exec_recvFrame_empty hincoming] at hframe
      cases hreads : reads (x.ends isClient).connection (.error text) with
      | error error =>
        rw [hreads] at hframe
        exact absurd hframe List.not_mem_nil
      | ok heard =>
        obtain ⟨_, _, harrived, _⟩ := reads_eq_ok.mp hreads
        cases harrived
  | _ => exact absurd hframe List.not_mem_nil

theorem Kept.next (h : Kept ends ids x) (hP : P.Authenticates) (hpaired : Paired ids session ends)
    {e : Bool × Operation} (hallowed : x.Allowed e) : Kept ends ids (x.next e) where
  later isClient := by
    by_cases hend : isClient = e.1
    · subst hend
      rw [next_self]
      exact (h.later e.1).trans (later_perform _ e.2)
    · rw [next_other x hend]
      exact h.later isClient
  heard isClient frame hframe := by
    have hbefore : x.Told (!isClient) frame ∧ truncateCid (ids true) = truncateCid (ids false) →
        (x.next e).Told (!isClient) frame ∧ truncateCid (ids true) = truncateCid (ids false) :=
      fun h' => ⟨h.told_next hpaired e h'.1, h'.2⟩
    by_cases hend : isClient = e.1
    · subst hend
      have hheard : (x.next e).heard e.1 = x.heard e.1 ++ Channel.returned (x.ends e.1) e.2 := Function.update_self ..
      rw [hheard] at hframe
      rcases List.mem_append.mp hframe with hold | hnew
      · exact hbefore (h.heard e.1 frame hold)
      · exact hbefore (h.returned hP hpaired hallowed hnew)
    · have hheard : (x.next e).heard isClient = x.heard isClient := Function.update_of_ne hend ..
      rw [hheard] at hframe
      exact hbefore (h.heard isClient frame hframe)

/-! ### What is said on a stream -/

/-- All that an end has said on a stream is some frames. -/
def Only (x : Channel P) (sender : Bool) (streamId : StreamId) (frames : List Frame) : Prop :=
  ∀ frame, x.Told sender frame → OnStream streamId frame → frame ∈ frames

/-- Events among which one end says nothing on a stream. -/
def Quiet (sender : Bool) (streamId : StreamId) (x : Channel P) (e : Bool × Operation) : Prop :=
  x.Allowed e ∧ (e.1 = sender → Elsewhere streamId e.2)

theorem Only.next (hkept : Kept ends ids x) (hpaired : Paired ids session ends) {sender : Bool} {streamId : StreamId}
    {frames : List Frame} (h : x.Only sender streamId frames) {e : Bool × Operation}
    (hquiet : x.Quiet sender streamId e) : (x.next e).Only sender streamId frames := by
  intro frame htold hon
  obtain ⟨m, hm, hframe⟩ := htold
  by_cases hend : sender = e.1
  · subst hend
    rw [next_self] at hm
    have haead := (hkept.sound hpaired e.1).unchanged.aead.trans (hpaired.ready e.1).aead
    rcases perform_elsewhere haead (hquiet.2 rfl) m hm with hm | hoff
    · exact h frame ⟨m, hm, hframe⟩ hon
    · exact absurd hon (hoff frame hframe)
  · rw [next_other x hend] at hm
    exact h frame ⟨m, hm, hframe⟩ hon

/-- Some data is said on a stream that is still fresh. -/
theorem Only.call (hkept : Kept ends ids x) (hpaired : Paired ids session ends) {sender : Bool} {streamId : StreamId}
    (hstream : streamId ≤ maxStreamId) (h : x.Only sender streamId []) (data : Bytes) :
    (x.next (sender, .sendStreamData streamId data)).Only sender streamId ((x.ends sender).frames streamId data) := by
  intro frame htold hon
  obtain ⟨m, hm, hframe⟩ := htold
  rw [next_self] at hm
  have haead := (hkept.sound hpaired sender).unchanged.aead.trans (hpaired.ready sender).aead
  obtain ⟨sent, hemitted, hbegins⟩ := (sent_sendChunks streamId (chunks maxPayloadSize data) haead 0).emitted
  have hafter : ((x.ends sender).perform (.sendStreamData streamId data)).emitted = (x.ends sender).emitted ++ sent :=
    hemitted
  have hframes : (x.ends sender).frames streamId data = sent.map Prod.fst := by
    rw [Endpoint.frames, sendStreamData, hemitted, List.drop_left]
  rw [hafter] at hm
  rcases List.mem_append.mp hm with hm | hm
  · exact absurd (h frame ⟨m, hm, hframe⟩ hon) List.not_mem_nil
  · have hmem : m.1 ∈ sent.map Prod.fst := List.mem_map_of_mem hm
    have hsmall := small_dataFrames hstream _ (fun _ hchunk => mem_chunks hchunk) 0 m.1 (hbegins.subset hmem)
    rw [Frame.decode_encode_self m.1 hsmall.wellFormed] at hframe
    cases hframe
    rw [hframes]
    exact hmem

theorem only_between (ends : Bool → Connection P) (sender : Bool) (streamId : StreamId) :
    (between ends).Only sender streamId [] := by
  intro frame htold
  obtain ⟨m, hm, _⟩ := htold
  exact absurd hm List.not_mem_nil

/-- What has arrived on a stream. -/
def arrived (x : Channel P) (isClient : Bool) (streamId : StreamId) : List Frame :=
  (x.heard isClient).filter (OnStream streamId)

end

/-! ### Between the ends of an honest handshake -/

section Honest
variable {clientId serverId : UInt64} {ends : Bool → Connection P} {x : Channel P}

theorem paired_of_honest (hsep : P.SeparatesDirections) (hdh : P.AgreesOnSecrets) (hsig : P.VerifiesSignatures)
    (hmac : P.MacLength) (h : HonestPair clientId serverId (ends true) (ends false)) :
    ∃ session, Paired (fun isClient => bif isClient then clientId else serverId) session ends := by
  obtain ⟨client, server, clientSocket, serverSocket, rfl, rfl, _, _, hc, hs⟩ := h.ends hdh hsig hmac
  refine ⟨AeadSession.new (HandshakeContext.sharedKey client server) .aes256Gcm, fun isClient => ?_, hsep.keys _⟩
  cases isClient with
  | true =>
    rw [hc]
    exact ⟨rfl, rfl, rfl, rfl, rfl, rfl⟩
  | false =>
    rw [hs]
    exact ⟨rfl, rfl, rfl, rfl, rfl, rfl⟩

theorem kept_reached {ids : Bool → UInt64} {session : AeadSession P} (hP : P.Authenticates)
    (hpaired : Paired ids session ends) (h : Reached step Allowed (between ends) x) : Kept ends ids x := by
  refine h.invariant (I := Kept ends ids) (kept_between ends ids) fun y e z hy he hstep => ?_
  cases hstep
  exact hy.next hP hpaired he

theorem only_reached {ids : Bool → UInt64} {session : AeadSession P} (hP : P.Authenticates)
    (hpaired : Paired ids session ends) {sender : Bool} {streamId : StreamId} {frames : List Frame} {y : Channel P}
    (hy : Kept ends ids y) (honly : y.Only sender streamId frames) (h : Reached step (Quiet sender streamId) y x) :
    Kept ends ids x ∧ x.Only sender streamId frames := by
  refine h.invariant (I := fun x => Kept ends ids x ∧ x.Only sender streamId frames) ⟨hy, honly⟩ ?_
  intro y e z hy he hstep
  cases hstep
  exact ⟨hy.1.next hP hpaired he.1, hy.2.next hy.1 hpaired he⟩

/-- **An end accepts a datagram exactly where the other one has sent it**, in every state the
two get to and whatever the network does, if their connection IDs agree as far as they are
sent; if they do not, it accepts nothing. -/
theorem accepts_iff (hP : P.Authenticates) (hsep : P.SeparatesDirections) (hdh : P.AgreesOnSecrets)
    (hsig : P.VerifiesSignatures) (hmac : P.MacLength) (h : HonestPair clientId serverId (ends true) (ends false))
    (hreached : Reached step Allowed (between ends) x) {isClient : Bool} {datagram : Bytes}
    (hunforged : x.Unforged isClient datagram) (frame : Frame) :
    ((recvFrame (.ok datagram)).exec (x.ends isClient)).1 = .ok frame ↔
      truncateCid clientId = truncateCid serverId ∧ (ends isClient).config.recvBufferSize ≤ isizeMax ∧
        ∃ m ∈ (x.ends !isClient).emitted, m.2 = x.arrival isClient datagram ∧ Frame.decode m.1.encode = .ok frame := by
  obtain ⟨session, hpaired⟩ := paired_of_honest hsep hdh hsig hmac h
  have hkept := kept_reached hP hpaired hreached
  exact hkept.recvFrame_iff hP hpaired hunforged frame

/-- **Whatever is heard was said**: in every run, each frame that an end has received was
sent by the other one before, and none is received if the connection IDs do not agree as far as
they are sent. -/
theorem heard_said (hP : P.Authenticates) (hsep : P.SeparatesDirections) (hdh : P.AgreesOnSecrets)
    (hsig : P.VerifiesSignatures) (hmac : P.MacLength) (h : HonestPair clientId serverId (ends true) (ends false))
    (hreached : Reached step Allowed (between ends) x) (isClient : Bool) :
    (∀ frame ∈ x.heard isClient, ∃ m ∈ (x.ends !isClient).emitted, Frame.decode m.1.encode = .ok frame) ∧
      (x.heard isClient ≠ [] → truncateCid clientId = truncateCid serverId) := by
  obtain ⟨session, hpaired⟩ := paired_of_honest hsep hdh hsig hmac h
  have hkept := kept_reached hP hpaired hreached
  refine ⟨fun frame hframe => (hkept.heard isClient frame hframe).1, fun hne => ?_⟩
  obtain ⟨frame, hframe⟩ := List.exists_mem_of_ne_nil _ hne
  exact (hkept.heard isClient frame hframe).2

/-- **Data that was sent in one call is read as far as it has arrived without a gap**, and
whole where all of it has: among whatever else both ends say and hear, and in whatever order
the network delivers it, as long as the network repeats none of it and the stream is used
for nothing else. -/
theorem stream_read (hP : P.Authenticates) (hsep : P.SeparatesDirections) (hdh : P.AgreesOnSecrets)
    (hsig : P.VerifiesSignatures) (hmac : P.MacLength) (h : HonestPair clientId serverId (ends true) (ends false))
    {sender : Bool} {streamId : StreamId} (hstream : streamId ≤ maxStreamId) {y : Channel P}
    (hbefore : Reached step (Quiet sender streamId) (between ends) y) {data : Bytes} (hsize : data.length < 2 ^ 32)
    (hafter : Reached step (Quiet sender streamId) (y.next (sender, .sendStreamData streamId data)) x)
    (honce : (x.arrived (!sender) streamId).Nodup) (id : StreamId) (isClient : Bool) (window : UInt64) {maxLen : Nat}
    (hmax : data.length ≤ maxLen) (hroom : maxLen ≤ isizeMax) :
    let frames := (y.ends sender).frames streamId data
    let arrived := x.arrived (!sender) streamId
    let run := frames.takeWhile (· ∈ arrived)
    ((Stream.read maxLen).exec (arrived.foldl Stream.deliver (Stream.init id isClient window))).1 =
        .ok (run.flatMap Frame.payload) ∧
      run.flatMap Frame.payload <+: data ∧
      (((sendStreamData streamId data).exec (y.ends sender)).1 = .ok () → frames ⊆ arrived →
        run.flatMap Frame.payload = data) := by
  intro frames arrived run
  obtain ⟨session, hpaired⟩ := paired_of_honest hsep hdh hsig hmac h
  obtain ⟨hkept, honly⟩ := only_reached hP hpaired (kept_between ends _) (only_between ends sender streamId) hbefore
  have hallowed : y.Allowed (sender, .sendStreamData streamId data) := fun _ h => nomatch h
  obtain ⟨hkept', honly'⟩ :=
    only_reached hP hpaired (hkept.next hP hpaired hallowed) (honly.call hkept hpaired hstream data) hafter
  have haead := (hkept.sound hpaired sender).unchanged.aead.trans (hpaired.ready sender).aead
  obtain ⟨hconsecutive, hle⟩ := consecutive_frames haead streamId hsize
  have hsaid : arrived ⊆ frames := by
    intro frame hframe
    obtain ⟨hheard, hon⟩ := List.mem_filter.mp hframe
    have htold := (hkept'.heard (!sender) frame hheard).1
    rw [Bool.not_not] at htold
    exact honly' frame htold (of_decide_eq_true hon)
  obtain ⟨s, hread, _⟩ := hconsecutive.exec_read (List.subperm_of_subset honce hsaid)
    (s := Stream.init id isClient window) rfl rfl (Nat.le_trans hle hmax) fun _ => hroom
  have hdata : (dataFrames streamId (y.ends sender).connection.destination 0 (chunks maxPayloadSize data)).flatMap
      Frame.payload = data := flatMap_dataFrames streamId _ data
  refine ⟨congrArg Prod.fst hread, ?_, fun hok hall => ?_⟩
  · have hcall := frames_prefix haead streamId data
    obtain ⟨rest, hrest⟩ := (List.takeWhile_prefix _).trans hcall
    refine ⟨rest.flatMap Frame.payload, ?_⟩
    rw [← List.flatMap_append, hrest]
    exact hdata
  · have hrun : run = frames := List.takeWhile_eq_self_iff.mpr fun f hf => decide_eq_true (hall hf)
    rw [hrun]
    exact (congrArg _ (frames_of_ok haead hok)).trans hdata

end Honest

/-! ### Two octets on a stream -/

def nearEnds (isClient : Bool) : Connection Transparent.fixedMacs := bif isClient then nearClientEnd else nearServerEnd

/-- The client has said them. -/
def nearSaid : Channel Transparent.fixedMacs := (between nearEnds).next (true, .sendStreamData 0 [104, 105])

/-- What the client has said them in, and that the server may be given it. -/
theorem nearSaid_emitted : ∃ m, (nearSaid.ends true).emitted = [m] ∧ nearSaid.Unforged false m.2 := by
  have hemitted : (nearSaid.ends true).emitted.map (fun m => (m.1, m.2.length)) =
      [(Frame.data 0 1 0 [104, 105], 863)] := by decide +kernel
  obtain ⟨m, hm, hframe⟩ := List.map_eq_singleton_iff.mp hemitted
  refine ⟨m, hm, fun _ _ => ⟨true, m, by rw [hm]; exact List.mem_singleton_self m, ?_⟩⟩
  have hlength : m.2.length ≤ 65536 := by
    rw [(Prod.mk.inj hframe).2]
    decide
  exact (List.take_of_length_le hlength).symm

theorem nearSaid_reached : Reached step Allowed (between nearEnds) nearSaid :=
  .next (true, .sendStreamData 0 [104, 105]) .start (fun _ h => nomatch h) rfl

theorem accepts_iff_near : ∃ m, (nearSaid.ends true).emitted = [m] ∧
    (((recvFrame (.ok m.2)).exec (nearSaid.ends false)).1 = .ok m.1 ↔
      truncateCid 0x100000001 = truncateCid 0x100000002 ∧ (nearEnds false).config.recvBufferSize ≤ isizeMax ∧
        ∃ m' ∈ (nearSaid.ends true).emitted,
          m'.2 = nearSaid.arrival false m.2 ∧ Frame.decode m'.1.encode = .ok m.1) := by
  obtain ⟨m, hemitted, hunforged⟩ := nearSaid_emitted
  exact ⟨m, hemitted, accepts_iff (Transparent.authenticates _) (Transparent.separatesDirections _)
    (Transparent.agreesOnSecrets _) (Transparent.verifiesSignatures _) Transparent.fixedMacs_macLength honestPair_near
    nearSaid_reached hunforged m.1⟩

/-- The server has been given them. -/
def nearHeard (datagram : Bytes) : Channel Transparent.fixedMacs := nearSaid.next (false, .recvFrame (.ok datagram))

theorem allowed_nearHeard {datagram : Bytes} (h : nearSaid.Unforged false datagram) :
    nearSaid.Allowed (false, .recvFrame (.ok datagram)) := by
  intro arrived harrived
  cases harrived
  exact h

theorem heard_said_near : ∃ m, (nearSaid.ends true).emitted = [m] ∧
    (∀ frame ∈ (nearHeard m.2).heard false,
      ∃ m' ∈ ((nearHeard m.2).ends true).emitted, Frame.decode m'.1.encode = .ok frame) ∧
    ((nearHeard m.2).heard false ≠ [] → truncateCid 0x100000001 = truncateCid 0x100000002) := by
  obtain ⟨m, hemitted, hunforged⟩ := nearSaid_emitted
  have hreached : Reached step Allowed (between nearEnds) (nearHeard m.2) :=
    .next _ nearSaid_reached (allowed_nearHeard hunforged) rfl
  exact ⟨m, hemitted, heard_said (Transparent.authenticates _) (Transparent.separatesDirections _)
    (Transparent.agreesOnSecrets _) (Transparent.verifiesSignatures _) Transparent.fixedMacs_macLength honestPair_near
    hreached false⟩

theorem nodup_returned (e : Endpoint P) (op : Operation) : (returned e op).Nodup := by
  cases op with
  | recvFrame arrived =>
    rw [returned]
    split
    · exact List.nodup_singleton _
    · exact List.nodup_nil
  | _ => exact List.nodup_nil

theorem stream_read_near : ∃ m, (nearSaid.ends true).emitted = [m] ∧
    let frames := (start nearClientEnd).frames 0 [104, 105]
    let arrived := (nearHeard m.2).arrived false 0
    let run := frames.takeWhile (· ∈ arrived)
    ((Stream.read 10).exec (arrived.foldl Stream.deliver (Stream.init 0 false 10))).1 =
        .ok (run.flatMap Frame.payload) ∧
      run.flatMap Frame.payload <+: [104, 105] ∧
      (((sendStreamData 0 [104, 105]).exec (start nearClientEnd)).1 = .ok () → frames ⊆ arrived →
        run.flatMap Frame.payload = [104, 105]) := by
  obtain ⟨m, hemitted, hunforged⟩ := nearSaid_emitted
  have hbefore : Reached step (Quiet true 0) (between nearEnds) (between nearEnds) := .start
  have hafter : Reached step (Quiet true 0) nearSaid (nearHeard m.2) :=
    .next (false, .recvFrame (.ok m.2)) .start ⟨allowed_nearHeard hunforged, nofun⟩ rfl
  have honce : ((nearHeard m.2).arrived false 0).Nodup :=
    (nodup_returned (nearSaid.ends false) (.recvFrame (.ok m.2))).filter _
  exact ⟨m, hemitted, stream_read (Transparent.authenticates _) (Transparent.separatesDirections _)
    (Transparent.agreesOnSecrets _) (Transparent.verifiesSignatures _) Transparent.fixedMacs_macLength honestPair_near
    (by decide) hbefore (by decide) hafter honce 0 false 10 (by decide) (by decide)⟩

end Channel

end

end Aether
