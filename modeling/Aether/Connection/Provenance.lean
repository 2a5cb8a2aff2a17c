import Aether.Connection.Establishment
import Aether.Connection.Endpoint
import Aether.Library.Notes

/-! Where the datagrams come from that are handed to a socket (`connection.rs`).

Each function that sends is written once more so that it notes what it hands over: the
encoding of a frame, or what came of encrypting something (`Handed`). Apart from the
notes they are the functions they were (`erases_performClientHandshake`, …), and a run is
the run it was (`run_receiver`).

All of a handshake is handed over as it was encoded, by a client in any case and by a
server that answers; what an established connection hands over is encrypted
(`protected_iff`). -/
namespace Aether
open Octets Octets.Method

section
variable {P : Primitives}

variable (P) in
/-- A datagram, with where it comes from. -/
inductive Handed where
  | encoded (frame : Frame)
  | encrypted (keys : DirectionalKeys P) (plaintext aad ciphertext : Bytes)
      (output : keys.encrypt plaintext aad = .ok ciphertext)

namespace Handed

def octets : Handed P → Bytes
  | encoded frame => frame.encode
  | encrypted _ _ _ ciphertext _ => ciphertext

/-- What came of an encryption with the keys. -/
def Under (keys : DirectionalKeys P) (d : Handed P) : Prop :=
  ∃ plaintext aad ciphertext output, d = .encrypted keys plaintext aad ciphertext output

end Handed

variable (P) in
/-- Methods that hand datagrams over. -/
abbrev Handing (σ α : Type) := Method Error (Noted σ (Handed P)) α

namespace Handing

def hand {σ : Type} (send : Bytes → Action σ Unit) (d : Handed P) : Handing P σ Unit := do
  note d
  bare (send d.octets)

theorem erases_hand {σ : Type} (send : Bytes → Action σ Unit) (d : Handed P) :
    Erases id (hand send d) (send d.octets) := erases_note_bind d (erases_bare _)

/-- What comes of an encryption, and how it came about. -/
def sealed (keys : DirectionalKeys P) (plaintext aad : Bytes) : Result (Handed P) :=
  match output : keys.encrypt plaintext aad with
  | .ok ciphertext => .ok (.encrypted keys plaintext aad ciphertext output)
  | .error e => .error e

theorem sealed_octets (keys : DirectionalKeys P) (plaintext aad : Bytes) :
    (sealed keys plaintext aad).map Handed.octets = keys.encrypt plaintext aad := by
  rw [sealed]
  split
  · rename_i output
    exact output.symm
  · rename_i output
    exact output.symm

theorem sealed_under {keys : DirectionalKeys P} {plaintext aad : Bytes} {d : Handed P}
    (h : sealed keys plaintext aad = .ok d) : d.Under keys := by
  rw [sealed] at h
  split at h
  · cases h
    exact ⟨_, _, _, _, rfl⟩
  · cases h

/-! ### Set-up -/

section
open Connection

def sendOn (datagram : Bytes) : Action (Connection P) Unit := onSocket (Socket.send datagram)

def performClientHandshake (identity : Identity P) (secret : P.Scalar) (serverHello serverFinished : Except String Bytes) :
    Handing P (Connection P) Unit := do
  let c ← bare get
  let chFrame ← bare (onHandshake (HandshakeContext.createClientHello secret identity c.config.capabilities))
  hand sendOn (.encoded chFrame)
  let shFrame ← liftM (frameReceived serverHello)
  bare (onHandshake (HandshakeContext.handleServerHello shFrame))
  let sfFrame ← liftM (frameReceived serverFinished)
  let cfFrame ← bare (onHandshake (HandshakeContext.handleFinishedAndRespond sfFrame))
  hand sendOn (.encoded cfFrame)
  let c ← bare get
  let hs ← liftM (unwrap c.handshake)
  let sessionKey ← liftM (unwrap hs.sessionKey)
  let peerConnectionId ← liftM (unwrap hs.peerConnectionId)
  bare (set { c with
    aead := some (AeadSession.new sessionKey .aes256Gcm)
    peerConnectionId := some (truncateCid peerConnectionId) })

theorem erases_performClientHandshake (identity : Identity P) (secret : P.Scalar)
    (serverHello serverFinished : Except String Bytes) :
    Erases id (performClientHandshake identity secret serverHello serverFinished)
      (Connection.performClientHandshake identity secret serverHello serverFinished) := by
  have hlift : ∀ {α : Type} (o : Result α), Erases id (liftM o : Handing P (Connection P) α) (liftM o) :=
    fun o => erases_lift (by cases o <;> rfl)
  refine erases_bind (erases_bare _) fun c => erases_bind (erases_bare _) fun chFrame => ?_
  refine erases_bind (erases_hand sendOn _) fun _ => erases_bind (hlift _) fun shFrame => ?_
  refine erases_bind (erases_bare _) fun _ => erases_bind (hlift _) fun sfFrame => ?_
  refine erases_bind (erases_bare _) fun cfFrame => erases_bind (erases_hand sendOn _) fun _ => ?_
  refine erases_bind (erases_bare _) fun c => erases_bind (hlift _) fun hs => ?_
  exact erases_bind (hlift _) fun sessionKey => erases_bind (hlift _) fun peerConnectionId => erases_bare _

def connect (socket : Socket) (config : Config) (identity : Identity P) (connectionId : UInt64) (secret : P.Scalar)
    (serverHello serverFinished : Except String Bytes) : Result (Connection P) × List (Handed P) :=
  let r := (performClientHandshake identity secret serverHello serverFinished).exec
    ⟨newClient socket config connectionId, []⟩
  match r.1 with
  | .ok _ => (.ok { r.2.receiver with state := .active }, r.2.notes)
  | .error e => (.error e, r.2.notes)

def accept (config : Config) (identity : Identity P) (connectionId : UInt64) (secret : P.Scalar)
    (clientHello clientFinished : Except String Bytes) : Handing P Socket (Connection P) := do
  let frame ← liftM (frameReceived clientHello)
  if frame.header.frameType ≠ .initial then
    throw (.err (.protocolViolation "Expected Initial packet"))
  else do
    let sh := (HandshakeContext.handleClientHello connectionId secret frame identity config.capabilities).exec
      HandshakeContext.newServer
    let shFrame ← liftM sh.1
    hand Socket.send (.encoded shFrame)
    let sfFrame ← liftM sh.2.createFinished
    hand Socket.send (.encoded sfFrame)
    let cfFrame ← liftM (frameReceived clientFinished)
    let cf := (HandshakeContext.verifyFinished cfFrame).exec sh.2
    liftM cf.1
    let sessionKey ← liftM (unwrap cf.2.sessionKey)
    let peerConnectionId ← liftM (unwrap cf.2.peerConnectionId)
    let socket ← bare get
    return accepted socket config cf.2 sessionKey peerConnectionId

theorem erases_accept (config : Config) (identity : Identity P) (connectionId : UInt64) (secret : P.Scalar)
    (clientHello clientFinished : Except String Bytes) :
    Erases id (accept config identity connectionId secret clientHello clientFinished)
      (Connection.accept config identity connectionId secret clientHello clientFinished) := by
  have hlift : ∀ {α : Type} (o : Result α), Erases id (liftM o : Handing P Socket α) (liftM o) :=
    fun o => erases_lift (by cases o <;> rfl)
  refine erases_bind (hlift _) fun frame => ?_
  simp only [id_eq]
  split
  · exact erases_throw _ _
  · refine erases_bind (hlift _) fun shFrame => erases_bind (erases_hand Socket.send _) fun _ => ?_
    refine erases_bind (hlift _) fun sfFrame => erases_bind (erases_hand Socket.send _) fun _ => ?_
    refine erases_bind (hlift _) fun cfFrame => erases_bind (hlift _) fun _ => ?_
    refine erases_bind (hlift _) fun sessionKey => erases_bind (hlift _) fun peerConnectionId => ?_
    exact erases_bind (erases_bare _) fun socket => erases_pure _ _

end

/-! ### Operations -/

section
open Endpoint Connection

def encryptWire (frame : Frame) : Handing P (Endpoint P) (Handed P) := do
  let e ← bare get
  match e.connection.aead with
  | some aead => do
    bare (set (e.encrypting aead))
    liftM (sealed (aead.txKeys e.connection.isClient) frame.encode e.connection.makeAad)
  | none => return .encoded frame

theorem erases_encryptWire (frame : Frame) :
    Erases Handed.octets (encryptWire (P := P) frame) (Endpoint.encryptWire frame.encode) := by
  refine erases_bind (erases_bare _) fun e => ?_
  simp only [id_eq]
  rcases e.connection.aead with _ | aead
  · exact erases_pure Handed.octets (Handed.encoded frame)
  · exact erases_bind (erases_bare _) fun _ => erases_lift (sealed_octets _ _ _)

def sendFrom (datagram : Bytes) : Action (Endpoint P) Unit := onConnection (onSocket (Socket.send datagram))

def sendFrame (frame : Frame) : Handing P (Endpoint P) Unit := do
  let e ← bare get
  if e.connection.state ≠ .active then throw (.err (.invalidState "Connection not active"))
  else do
    let encrypted ← encryptWire frame
    hand sendFrom encrypted
    bare (modify fun e => { e with
      connection := { e.connection with stats := e.connection.stats.countSent encrypted.octets.length }
      emitted := e.emitted ++ [(frame, encrypted.octets)] })

theorem erases_sendFrame (frame : Frame) : Erases id (sendFrame (P := P) frame) (Endpoint.sendFrame frame) := by
  refine erases_bind (erases_bare _) fun e => ?_
  simp only [id_eq]
  split
  · exact erases_throw _ _
  · refine erases_bind (erases_encryptWire frame) fun encrypted => ?_
    exact erases_bind (erases_hand sendFrom _) fun _ => erases_bare _

def sendChunks (streamId : StreamId) : Nat → List Bytes → Handing P (Endpoint P) Unit
  | _, [] => pure ()
  | i, chunk :: chunks => do
    let e ← bare get
    let offset := UInt32.ofNat i * UInt32.ofNat maxPayloadSize
    sendFrame (Frame.data streamId e.connection.destination offset chunk)
    sendChunks streamId (i + 1) chunks

theorem erases_sendChunks (streamId : StreamId) (i : Nat) (chunks : List Bytes) :
    Erases id (sendChunks (P := P) streamId i chunks) (Endpoint.sendChunks streamId i chunks) := by
  induction chunks generalizing i with
  | nil => exact erases_pure id ()
  | cons chunk chunks ih =>
    exact erases_bind (erases_bare _) fun e => erases_bind (erases_sendFrame _) fun _ => ih (i + 1)

def ping (nonce : UInt64) : Handing P (Endpoint P) Unit := do
  let e ← bare get
  sendFrame (Frame.ping e.connection.destination nonce)

theorem erases_ping (nonce : UInt64) : Erases id (ping (P := P) nonce) (Endpoint.ping nonce) :=
  erases_bind (erases_bare _) fun _ => erases_sendFrame _

def close (code : CloseCode) : Handing P (Endpoint P) Unit := do
  bare (modify fun e => { e with connection := { e.connection with state := .closing } })
  let e ← bare get
  sendFrame (Frame.close e.connection.destination code closeReason)
  bare (modify fun e => { e with connection := { e.connection with state := .closed } })

theorem erases_close (code : CloseCode) : Erases id (close (P := P) code) (Endpoint.close code) :=
  erases_bind (erases_bare _) fun _ => erases_bind (erases_bare _) fun _ =>
    erases_bind (erases_sendFrame _) fun _ => erases_bare _

/-- What an operation leaves, with what it has handed over. -/
def perform (n : Noted (Endpoint P) (Handed P)) : Operation → Noted (Endpoint P) (Handed P)
  | .sendFrame frame => ((sendFrame frame).exec n).2
  | .sendStreamData streamId data => ((sendChunks streamId 0 (chunks maxPayloadSize data)).exec n).2
  | .ping nonce => ((ping nonce).exec n).2
  | .recvFrame arrived => ((bare (Endpoint.recvFrame arrived)).exec n).2
  | .openStream => ((bare Endpoint.openStream).exec n).2
  | .close code => ((close code).exec n).2

def run (n : Noted (Endpoint P) (Handed P)) (ops : List Operation) : Noted (Endpoint P) (Handed P) :=
  ops.foldl perform n

theorem perform_receiver (n : Noted (Endpoint P) (Handed P)) (op : Operation) :
    (perform n op).receiver = n.receiver.perform op := by
  cases op with
  | sendFrame frame => exact (erases_sendFrame frame n).2
  | sendStreamData streamId data => exact (erases_sendChunks streamId 0 _ n).2
  | ping nonce => exact (erases_ping nonce n).2
  | recvFrame arrived => exact (erases_bare _ n).2
  | openStream => exact (erases_bare _ n).2
  | close code => exact (erases_close code n).2

theorem run_receiver (n : Noted (Endpoint P) (Handed P)) (ops : List Operation) :
    (run n ops).receiver = n.receiver.run ops := by
  induction ops generalizing n with
  | nil => rfl
  | cons op ops ih =>
    show (run (perform n op) ops).receiver = (n.receiver.perform op).run ops
    rw [ih, perform_receiver]

/-! ### An established connection -/

theorem notes_hand_bind {σ α : Type} (send : Bytes → Action σ Unit) (d : Handed P) (m : Unit → Action σ α)
    (n : Noted σ (Handed P)) : ((hand send d >>= fun u => bare (m u)).exec n).2.notes = n.notes ++ [d] := by
  rw [hand, bind_assoc, note, exec_modify_bind, exec_bind, bare, exec_focus]
  rcases (send d.octets).exec n.receiver with ⟨r, t⟩
  cases r <;> rfl

theorem exec_encryptWire {session : AeadSession P} {n : Noted (Endpoint P) (Handed P)}
    (h : n.receiver.connection.aead = some session) (frame : Frame) :
    (encryptWire frame).exec n =
      (sealed (session.txKeys n.receiver.connection.isClient) frame.encode n.receiver.connection.makeAad,
        { n with receiver := n.receiver.encrypting session }) := by
  have hget : (bare get : Handing P (Endpoint P) (Endpoint P)).exec n = (.ok n.receiver, n) := rfl
  rw [encryptWire, exec_bind_ok hget, h]
  rfl

/-- An endpoint of a session, all of whose datagrams are encrypted with its keys. -/
structure Sealed (c : Connection P) (session : AeadSession P) (n : Noted (Endpoint P) (Handed P)) : Prop where
  unchanged : Unchanged c n.receiver.connection
  under : ∀ d ∈ n.notes, d.Under (session.txKeys c.isClient)

theorem keeps_sendFrame {c : Connection P} {session : AeadSession P} (hc : c.aead = some session) (frame : Frame) :
    Keeps (Sealed c session) (sendFrame frame) := by
  intro n h
  have haead : n.receiver.connection.aead = some session := h.unchanged.aead.trans hc
  refine ⟨?_, ?_⟩
  · rw [(erases_sendFrame frame n).2]
    exact h.unchanged.trans (Endpoint.exec_sendFrame haead frame).unchanged
  · have hget : (bare get : Handing P (Endpoint P) (Endpoint P)).exec n = (.ok n.receiver, n) := rfl
    rw [sendFrame, exec_bind_ok hget]
    by_cases hstate : n.receiver.connection.state = .active
    · rw [if_neg (not_not_intro hstate)]
      have hwire := exec_encryptWire haead frame
      cases hsealed : sealed (session.txKeys n.receiver.connection.isClient) frame.encode
        n.receiver.connection.makeAad with
      | error e =>
        rw [hsealed] at hwire
        rw [exec_bind_error hwire]
        exact h.under
      | ok d =>
        rw [hsealed] at hwire
        rw [exec_bind_ok hwire, notes_hand_bind]
        intro d' hd'
        rcases List.mem_append.mp hd' with hd' | hd'
        · exact h.under d' hd'
        · cases List.mem_singleton.mp hd'
          rw [← h.unchanged.isClient]
          exact sealed_under hsealed
    · rw [if_pos hstate]
      exact h.under

section Run
variable {c : Connection P} {session : AeadSession P}

theorem sealed_bare {α : Type} {m : Action (Endpoint P) α}
    (hm : ∀ e, Unchanged e.connection (m.exec e).2.connection) : Keeps (Sealed c session) (bare m) :=
  fun n h => ⟨h.unchanged.trans (hm n.receiver), h.under⟩

theorem keeps_sendChunks (hc : c.aead = some session) (streamId : StreamId) (i : Nat) (chunks : List Bytes) :
    Keeps (Sealed c session) (sendChunks streamId i chunks) := by
  induction chunks generalizing i with
  | nil => exact keeps_pure ()
  | cons chunk chunks ih =>
    exact keeps_bind (sealed_bare fun _ => .refl _) fun e => keeps_bind (keeps_sendFrame hc _) fun _ => ih (i + 1)

theorem keeps_ping (hc : c.aead = some session) (nonce : UInt64) : Keeps (Sealed c session) (ping nonce) :=
  keeps_bind (sealed_bare fun _ => .refl _) fun _ => keeps_sendFrame hc _

theorem keeps_close (hc : c.aead = some session) (code : CloseCode) : Keeps (Sealed c session) (close code) := by
  have hstate : ∀ (state : ConnectionState) (e : Endpoint P),
      Unchanged e.connection { e.connection with state } := fun _ _ => ⟨rfl, rfl, rfl, rfl, rfl, rfl, rfl, id⟩
  refine keeps_bind (sealed_bare (hstate .closing)) fun _ => keeps_bind (sealed_bare fun _ => .refl _) fun _ => ?_
  exact keeps_bind (keeps_sendFrame hc _) fun _ => sealed_bare (hstate .closed)

theorem sealed_perform (hc : c.aead = some session) {n : Noted (Endpoint P) (Handed P)} (h : Sealed c session n)
    (op : Operation) : Sealed c session (perform n op) := by
  cases op with
  | sendFrame frame => exact keeps_sendFrame hc frame n h
  | sendStreamData streamId data => exact keeps_sendChunks hc streamId 0 _ n h
  | ping nonce => exact keeps_ping hc nonce n h
  | recvFrame arrived =>
    refine sealed_bare (fun e => ?_) n h
    obtain ⟨c', hc', _, hexec⟩ := exec_recvFrame_state e arrived
    rw [hexec]
    exact hc'
  | openStream =>
    refine sealed_bare (fun e => ?_) n h
    obtain ⟨c', hc', _, hexec⟩ := exec_openStream_state e
    rw [hexec]
    exact hc'
  | close code => exact keeps_close hc code n h

/-- Once it has its keys, a connection hands over nothing else than what it encrypts. -/
theorem sealed_run (hc : c.aead = some session) {n : Noted (Endpoint P) (Handed P)} (h : Sealed c session n)
    (ops : List Operation) : Sealed c session (run n ops) := by
  induction ops generalizing n with
  | nil => exact h
  | cons op ops ih => exact ih (sealed_perform hc h op)

end Run

end

/-! ### Handshakes -/

section
open Connection

theorem keeps_mem_hand {σ : Type} (d d' : Handed P) (send : Bytes → Action σ Unit) :
    Keeps (fun n => d ∈ n.notes) (hand send d') :=
  keeps_bind (keeps_note (Q := fun notes => d ∈ notes) fun _ h => List.mem_append_left _ h) fun _ =>
    keeps_bare (Q := fun notes => d ∈ notes) _

theorem mem_hand {σ : Type} (d : Handed P) (send : Bytes → Action σ Unit) (n : Noted σ (Handed P)) :
    d ∈ ((hand send d).exec n).2.notes := by
  rw [hand, note, exec_modify_bind]
  exact List.mem_append_right _ List.mem_cons_self

/-- What has been handed over stays so. -/
theorem mem_hand_bind {σ α : Type} {d : Handed P} {send : Bytes → Action σ Unit} {f : Unit → Handing P σ α}
    (hf : ∀ u, Keeps (fun n => d ∈ n.notes) (f u)) (n : Noted σ (Handed P)) :
    d ∈ ((hand send d >>= f).exec n).2.notes := by
  have hd := mem_hand d send n
  rw [exec_bind]
  rcases hexec : (hand send d).exec n with ⟨r, t⟩
  rw [hexec] at hd
  cases r with
  | ok u => exact hf u t hd
  | error e => exact hd

theorem keeps_all_hand {σ : Type} {Q : Handed P → Prop} {d : Handed P} (hd : Q d) (send : Bytes → Action σ Unit) :
    Keeps (fun n => ∀ x ∈ n.notes, Q x) (hand send d) := by
  refine keeps_bind (keeps_note (Q := fun notes => ∀ x ∈ notes, Q x) fun notes h x hx => ?_) fun _ =>
    keeps_bare (Q := fun notes => ∀ x ∈ notes, Q x) _
  rcases List.mem_append.mp hx with hx | hx
  · exact h x hx
  · cases List.mem_singleton.mp hx
    exact hd

/-- A datagram that is the encoding of a frame. -/
def IsEncoded (d : Handed P) : Prop := ∃ frame, d = .encoded frame

theorem keeps_performClientHandshake (identity : Identity P) (secret : P.Scalar)
    (serverHello serverFinished : Except String Bytes) :
    Keeps (fun n => ∀ d ∈ n.notes, IsEncoded d)
      (performClientHandshake identity secret serverHello serverFinished) := by
  have hbare : ∀ {α : Type} (m : Action (Connection P) α),
      Keeps (fun n : Noted (Connection P) (Handed P) => ∀ d ∈ n.notes, IsEncoded d) (bare m) :=
    fun m => keeps_bare (Q := fun notes => ∀ d ∈ notes, IsEncoded d) m
  refine keeps_bind (hbare _) fun c => keeps_bind (hbare _) fun chFrame => ?_
  refine keeps_bind (keeps_all_hand ⟨_, rfl⟩ _) fun _ => keeps_bind (keeps_lift _) fun shFrame => ?_
  refine keeps_bind (hbare _) fun _ => keeps_bind (keeps_lift _) fun sfFrame => ?_
  refine keeps_bind (hbare _) fun cfFrame => keeps_bind (keeps_all_hand ⟨_, rfl⟩ _) fun _ => ?_
  refine keeps_bind (hbare _) fun c => keeps_bind (keeps_lift _) fun hs => ?_
  exact keeps_bind (keeps_lift _) fun sessionKey => keeps_bind (keeps_lift _) fun peerConnectionId => hbare _

theorem keeps_accept (config : Config) (identity : Identity P) (connectionId : UInt64) (secret : P.Scalar)
    (clientHello clientFinished : Except String Bytes) :
    Keeps (fun n => ∀ d ∈ n.notes, IsEncoded d)
      (accept config identity connectionId secret clientHello clientFinished) := by
  refine keeps_bind (keeps_lift _) fun frame => ?_
  split
  · exact keeps_throw _
  · refine keeps_bind (keeps_lift _) fun shFrame => keeps_bind (keeps_all_hand ⟨_, rfl⟩ _) fun _ => ?_
    refine keeps_bind (keeps_lift _) fun sfFrame => keeps_bind (keeps_all_hand ⟨_, rfl⟩ _) fun _ => ?_
    refine keeps_bind (keeps_lift _) fun cfFrame => keeps_bind (keeps_lift _) fun _ => ?_
    refine keeps_bind (keeps_lift _) fun sessionKey => keeps_bind (keeps_lift _) fun peerConnectionId => ?_
    exact keeps_bind (keeps_bare (Q := fun notes => ∀ d ∈ notes, IsEncoded d) _) fun socket => keeps_pure _

/-- A client hands its hello over as it encoded it. -/
theorem performClientHandshake_encoded (socket : Socket) (config : Config) (identity : Identity P)
    (connectionId : UInt64) (secret : P.Scalar) (serverHello serverFinished : Except String Bytes) :
    ∃ frame, .encoded frame ∈ ((performClientHandshake identity secret serverHello serverFinished).exec
      ⟨newClient socket config connectionId, []⟩).2.notes := by
  have hbare : ∀ {α : Type} {d : Handed P} (m : Action (Connection P) α),
      Keeps (fun n => d ∈ n.notes) (bare m) := fun m => keeps_bare (Q := fun notes => _ ∈ notes) m
  obtain ⟨frame, n, hcreate⟩ : ∃ frame n,
      (bare (onHandshake (HandshakeContext.createClientHello secret identity
        (newClient (P := P) socket config connectionId).config.capabilities)) :
          Handing P (Connection P) Frame).exec ⟨newClient socket config connectionId, []⟩ = (.ok frame, n) := ⟨_, _, rfl⟩
  have hget : (bare get : Handing P (Connection P) (Connection P)).exec ⟨newClient socket config connectionId, []⟩ =
      (.ok (newClient socket config connectionId), ⟨newClient socket config connectionId, []⟩) := rfl
  refine ⟨frame, ?_⟩
  rw [performClientHandshake, exec_bind_ok hget, exec_bind_ok hcreate]
  refine mem_hand_bind (fun _ => ?_) n
  refine keeps_bind (keeps_lift _) fun shFrame => keeps_bind (hbare _) fun _ => ?_
  refine keeps_bind (keeps_lift _) fun sfFrame => keeps_bind (hbare _) fun cfFrame => ?_
  refine keeps_bind (keeps_mem_hand _ _ _) fun _ => keeps_bind (hbare _) fun c => ?_
  refine keeps_bind (keeps_lift _) fun hs => keeps_bind (keeps_lift _) fun sessionKey => ?_
  exact keeps_bind (keeps_lift _) fun peerConnectionId => hbare _

/-- The first datagram holds a hello that a server answers. -/
def Answerable (clientHello : Except String Bytes) : Prop :=
  ∃ frame hello, frameReceived clientHello = .ok frame ∧ frame.header.frameType = .initial ∧
    ClientHello.decode frame.payload = .ok hello ∧ aetherVersion ∈ hello.supportedVersions

theorem accept_encoded (config : Config) (identity : Identity P) (connectionId : UInt64) (secret : P.Scalar)
    {clientHello : Except String Bytes} (clientFinished : Except String Bytes) (h : Answerable clientHello)
    (n : Noted Socket (Handed P)) :
    ∃ frame, .encoded frame ∈
      ((accept config identity connectionId secret clientHello clientFinished).exec n).2.notes := by
  obtain ⟨frame, hello, hframe, htype, hdecode, hversion⟩ := h
  obtain ⟨sh, hs, hanswer⟩ : ∃ sh hs,
      (HandshakeContext.handleClientHello connectionId secret frame identity config.capabilities).exec
        HandshakeContext.newServer = (.ok sh, hs) :=
    ⟨_, _, HandshakeContext.handleClientHello_eq_ok.mpr ⟨hello, hdecode, hversion, rfl, rfl⟩⟩
  have hreceived : (liftM (frameReceived clientHello) : Handing P Socket Frame).exec n = (.ok frame, n) := by
    rw [exec_lift, hframe]
  have hlift : (liftM (.ok sh : Result Frame) : Handing P Socket Frame).exec n = (.ok sh, n) := rfl
  refine ⟨sh, ?_⟩
  rw [accept, exec_bind_ok hreceived, if_neg (not_not_intro htype), hanswer, exec_bind_ok hlift]
  refine mem_hand_bind (fun _ => ?_) n
  refine keeps_bind (keeps_lift _) fun sfFrame => keeps_bind (keeps_mem_hand _ _ _) fun _ => ?_
  refine keeps_bind (keeps_lift _) fun cfFrame => keeps_bind (keeps_lift _) fun _ => ?_
  refine keeps_bind (keeps_lift _) fun sessionKey => keeps_bind (keeps_lift _) fun peerConnectionId => ?_
  exact keeps_bind (keeps_bare (Q := fun notes => _ ∈ notes) _) fun socket => keeps_pure _

/-- Anything else it hands over nothing for. -/
theorem accept_silent (config : Config) (identity : Identity P) (connectionId : UInt64) (secret : P.Scalar)
    {clientHello : Except String Bytes} (clientFinished : Except String Bytes) (h : ¬ Answerable clientHello)
    (n : Noted Socket (Handed P)) :
    ∃ e, (accept config identity connectionId secret clientHello clientFinished).exec n = (.error e, n) := by
  rw [accept]
  cases hframe : frameReceived clientHello with
  | error e => exact ⟨e, exec_bind_error rfl⟩
  | ok frame =>
    have hreceived : (liftM (.ok frame : Result Frame) : Handing P Socket Frame).exec n = (.ok frame, n) := rfl
    rw [exec_bind_ok hreceived]
    by_cases htype : frame.header.frameType = .initial
    · rw [if_neg (not_not_intro htype)]
      rcases hanswer : (HandshakeContext.handleClientHello connectionId secret frame identity config.capabilities).exec
        HandshakeContext.newServer with ⟨r, hs⟩
      cases r with
      | ok sh =>
        obtain ⟨hello, hdecode, hversion, _, _⟩ := HandshakeContext.handleClientHello_eq_ok.mp hanswer
        exact absurd ⟨frame, hello, hframe, htype, hdecode, hversion⟩ h
      | error e => exact ⟨e, exec_bind_error rfl⟩
    · rw [if_pos htype]
      exact ⟨_, rfl⟩

end

end Handing

/-! ### Whole runs -/

variable (P) in
/-- How a connection is set up, with what the environment answers. -/
inductive Setup where
  | connect (socket : Socket) (config : Config) (identity : Identity P) (connectionId : UInt64) (secret : P.Scalar)
      (serverHello serverFinished : Except String Bytes)
  | accept (socket : Socket) (config : Config) (identity : Identity P) (connectionId : UInt64) (secret : P.Scalar)
      (clientHello clientFinished : Except String Bytes)

namespace Setup

/-- What set-up returns, and what it has handed over. -/
def perform : Setup P → Result (Connection P) × List (Handed P)
  | connect socket config identity connectionId secret serverHello serverFinished =>
    Handing.connect socket config identity connectionId secret serverHello serverFinished
  | accept socket config identity connectionId secret clientHello clientFinished =>
    let r := (Handing.accept config identity connectionId secret clientHello clientFinished).exec ⟨socket, []⟩
    (r.1, r.2.notes)

/-- The X25519 secret of this end. -/
def secret : Setup P → P.Scalar
  | connect _ _ _ _ secret _ _ => secret
  | accept _ _ _ _ secret _ _ => secret

/-- What a connection hands over that has been set up, when operations follow. -/
def operated (s : Setup P) (ops : List Endpoint.Operation) : List (Handed P) :=
  match s.perform.1 with
  | .ok c => (Handing.run ⟨Endpoint.start c, []⟩ ops).notes
  | .error _ => []

/-- All that is handed over in a run. -/
def handed (s : Setup P) (ops : List Endpoint.Operation) : List (Handed P) := s.perform.2 ++ s.operated ops

/-- A server whose first datagram is no hello that it answers. -/
def Silent : Setup P → Prop
  | connect .. => False
  | accept _ _ _ _ _ clientHello _ => ¬ Handing.Answerable clientHello

theorem connect_fst (socket : Socket) (config : Config) (identity : Identity P) (connectionId : UInt64)
    (secret : P.Scalar) (serverHello serverFinished : Except String Bytes) :
    (Handing.connect socket config identity connectionId secret serverHello serverFinished).1 =
      Connection.connect socket config identity connectionId secret serverHello serverFinished := by
  obtain ⟨hresult, hreceiver⟩ := Handing.erases_performClientHandshake identity secret serverHello serverFinished
    ⟨Connection.newClient socket config connectionId, []⟩
  simp only at hresult hreceiver
  unfold Handing.connect Connection.connect
  simp only
  rw [← hresult, ← hreceiver]
  cases ((Handing.performClientHandshake identity secret serverHello serverFinished).exec
    ⟨Connection.newClient socket config connectionId, []⟩).1 <;> rfl

theorem connect_snd (socket : Socket) (config : Config) (identity : Identity P) (connectionId : UInt64)
    (secret : P.Scalar) (serverHello serverFinished : Except String Bytes) :
    (Handing.connect socket config identity connectionId secret serverHello serverFinished).2 =
      ((Handing.performClientHandshake identity secret serverHello serverFinished).exec
        ⟨Connection.newClient socket config connectionId, []⟩).2.notes := by
  rw [Handing.connect]
  split
  · rfl
  · rfl

theorem accept_fst (socket : Socket) (config : Config) (identity : Identity P) (connectionId : UInt64)
    (secret : P.Scalar) (clientHello clientFinished : Except String Bytes) :
    ((Handing.accept config identity connectionId secret clientHello clientFinished).exec ⟨socket, []⟩).1 =
      ((Connection.accept config identity connectionId secret clientHello clientFinished).exec socket).1 := by
  obtain ⟨hresult, _⟩ := Handing.erases_accept config identity connectionId secret clientHello clientFinished
    ⟨socket, []⟩
  refine Eq.trans ?_ hresult
  cases ((Handing.accept config identity connectionId secret clientHello clientFinished).exec ⟨socket, []⟩).1 <;> rfl

theorem perform_encoded (s : Setup P) : ∀ d ∈ s.perform.2, Handing.IsEncoded d := by
  cases s with
  | connect socket config identity connectionId secret serverHello serverFinished =>
    rw [perform, connect_snd]
    exact Handing.keeps_performClientHandshake identity secret serverHello serverFinished
      ⟨Connection.newClient socket config connectionId, []⟩ fun d hd => absurd hd List.not_mem_nil
  | accept socket config identity connectionId secret clientHello clientFinished =>
    exact Handing.keeps_accept config identity connectionId secret clientHello clientFinished ⟨socket, []⟩
      fun d hd => absurd hd List.not_mem_nil

/-- Set-up hands nothing over where it is silent, and only there. -/
theorem perform_nil_iff (s : Setup P) : s.perform.2 = [] ↔ s.Silent := by
  cases s with
  | connect socket config identity connectionId secret serverHello serverFinished =>
    obtain ⟨frame, hframe⟩ := Handing.performClientHandshake_encoded socket config identity connectionId secret
      serverHello serverFinished
    refine iff_of_false (fun hnil => ?_) id
    rw [perform, connect_snd] at hnil
    exact List.ne_nil_of_mem hframe hnil
  | accept socket config identity connectionId secret clientHello clientFinished =>
    constructor
    · intro hnil hanswerable
      obtain ⟨frame, hframe⟩ := Handing.accept_encoded config identity connectionId secret clientFinished hanswerable
        ⟨socket, []⟩
      exact List.ne_nil_of_mem hframe hnil
    · intro hsilent
      obtain ⟨e, hexec⟩ := Handing.accept_silent config identity connectionId secret clientFinished hsilent ⟨socket, []⟩
      rw [perform, hexec]

/-- A server that is silent returns no connection. -/
theorem operated_silent {s : Setup P} (h : s.Silent) (ops : List Endpoint.Operation) : s.operated ops = [] := by
  cases s with
  | connect => exact h.elim
  | accept socket config identity connectionId secret clientHello clientFinished =>
    obtain ⟨e, hexec⟩ := Handing.accept_silent config identity connectionId secret clientFinished h ⟨socket, []⟩
    rw [operated, perform, hexec]

end Setup

section
variable (hkdfOctets : Bytes → Bytes → Bytes → P.SessionKey)

/-- Keys of the key schedule for an end with the secret: of an initial key, under
whatever label, or of a session on a secret shared with a peer. -/
def Scheduled (secret : P.Scalar) (keys : DirectionalKeys P) : Prop :=
  (∃ destConnectionId label, keys = .derive (deriveInitialKey hkdfOctets destConnectionId) label) ∨
    ∃ peerPublic transcript isClient,
      keys = (AeadSession.new (deriveSessionKey (P.diffieHellman secret peerPublic) transcript) .aes256Gcm).txKeys
        isClient

/-- A datagram that is the output of an encryption with such keys. -/
def Handed.Protected (secret : P.Scalar) (d : Handed P) : Prop :=
  ∃ keys, Scheduled hkdfOctets secret keys ∧ d.Under keys

variable {hkdfOctets}

theorem Handed.encoded_not_protected (secret : P.Scalar) (frame : Frame) :
    ¬ (Handed.encoded (P := P) frame).Protected hkdfOctets secret := by
  rintro ⟨_, _, _, _, _, _, h⟩
  cases h

namespace Setup

variable (hkdfOctets) in
/-- The keys a connection is returned with are of the key schedule. -/
theorem scheduled {s : Setup P} {c : Connection P} (h : s.perform.1 = .ok c) :
    ∃ session, c.aead = some session ∧ Scheduled hkdfOctets s.secret (session.txKeys c.isClient) := by
  cases s with
  | connect socket config identity connectionId secret serverHello serverFinished =>
    obtain ⟨_, _, _, _, _, _, hs₃, sessionKey, _, hcreate, _, _, hhello, _, hfinished, _, hkey, _, rfl⟩ :=
      Connection.connect_eq_ok.mp ((connect_fst ..).symm.trans h)
    cases hcreate
    obtain ⟨hello, _, _, _, _, _, hsecret, rfl⟩ := HandshakeContext.handleServerHello_eq_ok.mp hhello
    obtain ⟨_, _, _, _, _, _, rfl⟩ := HandshakeContext.handleFinishedAndRespond_eq_ok.mp hfinished
    cases hsecret
    cases hkey
    exact ⟨_, rfl, .inr ⟨_, _, true, rfl⟩⟩
  | accept socket config identity connectionId secret clientHello clientFinished =>
    obtain ⟨_, _, _, _, _, hs₂, sessionKey, _, _, _, hhello, _, _, _, _, hfinished, hkey, _, _, rfl⟩ :=
      Connection.accept_eq_ok.mp (Prod.ext ((accept_fst ..).symm.trans h) rfl)
    obtain ⟨hello, _, _, _, rfl⟩ := HandshakeContext.handleClientHello_eq_ok.mp hhello
    obtain ⟨_, _, _, rfl⟩ := HandshakeContext.verifyFinished_eq_ok.mp hfinished
    cases hkey
    exact ⟨_, rfl, .inr ⟨_, _, false, rfl⟩⟩

theorem operated_protected (s : Setup P) (ops : List Endpoint.Operation) :
    ∀ d ∈ s.operated ops, d.Protected hkdfOctets s.secret := by
  intro d hd
  rw [operated] at hd
  split at hd
  · rename_i c hc
    obtain ⟨session, haead, hscheduled⟩ := scheduled hkdfOctets hc
    have hstart : Handing.Sealed c session ⟨Endpoint.start c, []⟩ :=
      ⟨.refl c, fun d hd => absurd hd List.not_mem_nil⟩
    exact ⟨_, hscheduled, (Handing.sealed_run haead hstart ops).under d hd⟩
  · exact absurd hd List.not_mem_nil

end Setup

/-- **What a run hands over unencrypted**: the handshake, all of it, and nothing after
it. So everything is encrypted where there is no handshake. The run that is noted is that of
the connection. -/
theorem protected_iff (s : Setup P) (ops : List Endpoint.Operation) :
    ((∀ d ∈ s.handed ops, d.Protected hkdfOctets s.secret) ↔ s.Silent) ∧
      (∀ d ∈ s.perform.2, Handing.IsEncoded d) ∧ (∀ d ∈ s.operated ops, d.Protected hkdfOctets s.secret) ∧
      ∀ c, s.perform.1 = .ok c → (Handing.run ⟨Endpoint.start c, []⟩ ops).receiver = (Endpoint.start c).run ops := by
  refine ⟨⟨fun h => ?_, fun h d hd => ?_⟩, s.perform_encoded, s.operated_protected ops,
    fun c _ => Handing.run_receiver ⟨Endpoint.start c, []⟩ ops⟩
  · rw [← s.perform_nil_iff]
    by_contra hne
    obtain ⟨d, hd⟩ := List.exists_mem_of_ne_nil _ hne
    obtain ⟨frame, rfl⟩ := s.perform_encoded d hd
    exact Handed.encoded_not_protected s.secret frame (h _ (List.mem_append_left _ hd))
  · rw [Setup.handed, s.perform_nil_iff.mpr h, Setup.operated_silent h] at hd
    exact absurd hd List.not_mem_nil

end

section Honest
open Connection HandshakeContext

/-- A client that is answered by a server. -/
def answeredClient : Setup Transparent.fixedMacs :=
  .connect openSocket sampleConfig fixedClient.identity fixedClient.connectionId fixedClient.secret
    (.ok (serverHelloFrame fixedClient fixedServer).encode) (.ok (serverFinishedFrame fixedClient fixedServer).encode)

/-- A client that gets its connection has handed frames over as they were encoded. -/
theorem hello_unprotected :
    (∃ c, answeredClient.perform.1 = .ok c) ∧
      ∀ hkdfOctets, ¬ ∀ d ∈ answeredClient.handed [], d.Protected hkdfOctets answeredClient.secret := by
  have hopen : ∀ n, openSocket.refuses n = none := fun _ => rfl
  have hconfig : sampleConfig.capabilities = fixedClient.capabilities := rfl
  have hconnect := connect_honest (P := Transparent.fixedMacs) (Transparent.agreesOnSecrets _)
    (Transparent.verifiesSignatures _) Transparent.fixedMacs_macLength fixedClient fixedServer hopen hconfig
  rw [← Setup.connect_fst] at hconnect
  obtain ⟨frame, hframe⟩ := Handing.performClientHandshake_encoded openSocket sampleConfig fixedClient.identity
    fixedClient.connectionId fixedClient.secret (.ok (serverHelloFrame fixedClient fixedServer).encode)
    (.ok (serverFinishedFrame fixedClient fixedServer).encode)
  rw [← Setup.connect_snd] at hframe
  have hperform : answeredClient.perform = Handing.connect openSocket sampleConfig fixedClient.identity
      fixedClient.connectionId fixedClient.secret (.ok (serverHelloFrame fixedClient fixedServer).encode)
      (.ok (serverFinishedFrame fixedClient fixedServer).encode) := by rw [answeredClient, Setup.perform]
  rw [← hperform] at hconnect hframe
  exact ⟨⟨_, hconnect⟩, fun hkdfOctets h =>
    Handed.encoded_not_protected answeredClient.secret frame (h _ (List.mem_append_left _ hframe))⟩

end Honest

end

end Aether
