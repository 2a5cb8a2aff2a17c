import Aether.Connection.Connection
import Aether.Framing.RoundTrip
import Aether.Library.Tiling

/-! What an established connection does (`connection.rs`).

Operations are methods of an `Endpoint`: a connection with a record of the key and
nonce of every call of encrypt, and of every frame the socket took, with its
datagram. The record is for statements about runs; no operation reads it.

Everything goes out through `sendFrame`, so `Sending` says once what it can do, and
`Unchanged` what no operation touches. -/
namespace Aether
open Octets Octets.Method

section
variable {P : Primitives}

variable (P) in
structure Endpoint where
  connection : Connection P
  /-- The key and the nonce of each call of encrypt. -/
  encryptions : List (P.AeadKey × Block 12)
  /-- Each frame that was sent, and the datagram it was sent in. -/
  emitted : List (Frame × Bytes)

namespace Endpoint
open Connection

/-- A connection that has done nothing yet. -/
def start (c : Connection P) : Endpoint P := ⟨c, [], []⟩

def onConnection {α : Type} (m : Action (Connection P) α) : Action (Endpoint P) α :=
  focus Endpoint.connection (fun connection e => { e with connection }) m

/-- The endpoint once it has called encrypt. -/
def encrypting (e : Endpoint P) (aead : AeadSession P) : Endpoint P :=
  let txKeys := aead.txKeys e.connection.isClient
  { e with encryptions := e.encryptions ++ [(txKeys.txKey, txKeys.makeNonce)] }

/-- Encryption, if there is a session. The call is recorded whether or not it succeeds. -/
def encryptWire (wire : Bytes) : Action (Endpoint P) Bytes := do
  let e ← get
  match e.connection.aead with
  | some aead => do
    set (e.encrypting aead)
    liftM ((aead.txKeys e.connection.isClient).encrypt wire e.connection.makeAad)
  | none => return wire

/-- Decryption, if there is a session. -/
def decryptWire (c : Connection P) (data : Bytes) : Result Bytes :=
  match c.aead with
  | some aead => (aead.rxKeys c.isClient).decrypt data c.makeAad
  | none => .ok data

def sendFrame (frame : Frame) : Action (Endpoint P) Unit := do
  let e ← get
  if e.connection.state ≠ .active then throw (.err (.invalidState "Connection not active"))
  else do
    let encrypted ← encryptWire frame.encode
    onConnection (onSocket (Socket.send encrypted))
    modify fun e => { e with
      connection := { e.connection with stats := e.connection.stats.countSent encrypted.length }
      emitted := e.emitted ++ [(frame, encrypted)] }

def recvFrame (arrived : Except String Bytes) : Action (Endpoint P) Frame := do
  let e ← get
  match e.connection.incomingFrames with
  | frame :: incomingFrames => do
    set { e with connection := { e.connection with incomingFrames } }
    return frame
  | [] => do
    let data ← liftM (received arrived e.connection.config.recvBufferSize)
    let decrypted ← liftM (decryptWire e.connection data)
    let frame ← liftM (Frame.decode decrypted)
    modify fun e => { e with
      connection := { e.connection with stats := e.connection.stats.countReceived data.length } }
    return frame

/-- The loop of `send_stream_data`, from its `i`th chunk. -/
def sendChunks (streamId : StreamId) : Nat → List Bytes → Action (Endpoint P) Unit
  | _, [] => pure ()
  | i, chunk :: chunks => do
    let e ← get
    let offset := UInt32.ofNat i * UInt32.ofNat maxPayloadSize
    sendFrame (Frame.data streamId e.connection.destination offset chunk)
    sendChunks streamId (i + 1) chunks

def sendStreamData (streamId : StreamId) (data : Bytes) : Action (Endpoint P) Unit :=
  sendChunks streamId 0 (chunks maxPayloadSize data)

def openStream : Action (Endpoint P) StreamId :=
  onConnection (focus Connection.streams (fun streams c => { c with streams }) StreamManager.openStream)

/-- The first stream of the table, in whatever order the table has. -/
def acceptStream : Action (Endpoint P) StreamId := do
  let e ← get
  match e.connection.streams.activeStreams with
  | [] => throw (.err (.invalidState "No streams available"))
  | streamId :: _ => return streamId

/-- `b"Connection closed"` -/
def closeReason : Bytes :=
  ascii ['C', 'o', 'n', 'n', 'e', 'c', 't', 'i', 'o', 'n', ' ', 'c', 'l', 'o', 's', 'e', 'd']

/-- The state is `closing` when the frame is sent, which is no state to send in. -/
def close (code : CloseCode) : Action (Endpoint P) Unit := do
  modify fun e => { e with connection := { e.connection with state := .closing } }
  let e ← get
  sendFrame (Frame.close e.connection.destination code closeReason)
  modify fun e => { e with connection := { e.connection with state := .closed } }

/-- `nonce` is the random number of the frame. -/
def ping (nonce : UInt64) : Action (Endpoint P) Unit := do
  let e ← get
  sendFrame (Frame.ping e.connection.destination nonce)

/-! ### What sending does -/

/-- The ways `sendFrame` ends on a connection that has its keys. -/
inductive Sending (session : AeadSession P) (e : Endpoint P) (frame : Frame) : Result Unit → Endpoint P → Prop where
  | inactive (state : e.connection.state ≠ .active) :
      Sending session e frame (fail (.invalidState "Connection not active")) e
  | unencrypted (error : Stop Error) (state : e.connection.state = .active)
      (encrypts : (session.txKeys e.connection.isClient).encrypt frame.encode e.connection.makeAad = .error error) :
      Sending session e frame (.error error) (e.encrypting session)
  | refused (datagram : Bytes) (text : String) (socket : Socket) (state : e.connection.state = .active)
      (encrypts : (session.txKeys e.connection.isClient).encrypt frame.encode e.connection.makeAad = .ok datagram)
      (refuses : e.connection.socket.refuses e.connection.socket.attempts = some text)
      (same : socket.refuses = e.connection.socket.refuses) :
      Sending session e frame (fail (.io text))
        { e.encrypting session with connection := { e.connection with socket } }
  | taken (datagram : Bytes) (socket : Socket) (stats : ConnectionStats) (state : e.connection.state = .active)
      (encrypts : (session.txKeys e.connection.isClient).encrypt frame.encode e.connection.makeAad = .ok datagram)
      (same : socket.refuses = e.connection.socket.refuses) :
      Sending session e frame (.ok ())
        { e.encrypting session with
          connection := { e.connection with socket, stats }
          emitted := e.emitted ++ [(frame, datagram)] }

theorem exec_encryptWire {e : Endpoint P} {session : AeadSession P} (h : e.connection.aead = some session)
    (wire : Bytes) :
    (encryptWire wire).exec e = ((session.txKeys e.connection.isClient).encrypt wire e.connection.makeAad,
      e.encrypting session) := by
  rw [encryptWire, exec_get_bind, h]
  exact exec_set_bind _ _ _

theorem exec_sendFrame_inactive {e : Endpoint P} (h : e.connection.state ≠ .active) (frame : Frame) :
    (sendFrame frame).exec e = (fail (.invalidState "Connection not active"), e) := by
  rw [sendFrame, exec_get_bind, if_pos h]
  rfl

theorem exec_sendFrame {e : Endpoint P} {session : AeadSession P} (h : e.connection.aead = some session)
    (frame : Frame) :
    Sending session e frame ((sendFrame frame).exec e).1 ((sendFrame frame).exec e).2 := by
  have hencryptWire := exec_encryptWire h frame.encode
  rw [sendFrame, exec_get_bind]
  by_cases hstate : e.connection.state = .active
  · rw [if_neg (not_not_intro hstate)]
    cases hencrypt : (session.txKeys e.connection.isClient).encrypt frame.encode e.connection.makeAad with
    | error error =>
      rw [hencrypt] at hencryptWire
      rw [exec_bind_error hencryptWire]
      exact .unencrypted error hstate hencrypt
    | ok datagram =>
      rw [hencrypt] at hencryptWire
      rw [exec_bind_ok hencryptWire]
      cases hrefuses : e.connection.socket.refuses e.connection.socket.attempts with
      | some text =>
        have hsend : (onConnection (onSocket (Socket.send datagram))).exec (e.encrypting session) =
            (fail (.io text), { e.encrypting session with
              connection := { e.connection with
                socket := { e.connection.socket with attempts := e.connection.socket.attempts + 1 } } }) := by
          simp only [onConnection, onSocket, exec_focus, encrypting, Socket.exec_send_refused hrefuses]
        rw [exec_bind_error hsend]
        exact .refused datagram text _ hstate hencrypt hrefuses rfl
      | none =>
        have hsend : (onConnection (onSocket (Socket.send datagram))).exec (e.encrypting session) =
            (.ok (), { e.encrypting session with
              connection := { e.connection with socket := e.connection.socket.taking datagram } }) := by
          simp only [onConnection, onSocket, exec_focus, encrypting, Socket.exec_send_taken hrefuses]
        rw [exec_bind_ok hsend]
        exact .taken datagram _ _ hstate hencrypt rfl
  · rw [if_pos hstate]
    exact .inactive hstate

/-! ### Runs -/

/-- What a program can ask of its connection, with what the environment answers. -/
inductive Operation where
  | sendFrame (frame : Frame)
  | sendStreamData (streamId : StreamId) (data : Bytes)
  | ping (nonce : UInt64)
  | recvFrame (arrived : Except String Bytes)
  | openStream
  | close (code : CloseCode)

/-- The endpoint an operation leaves; a program may go on after an error. -/
def perform (e : Endpoint P) : Operation → Endpoint P
  | .sendFrame frame => ((sendFrame frame).exec e).2
  | .sendStreamData streamId data => ((sendStreamData streamId data).exec e).2
  | .ping nonce => ((ping nonce).exec e).2
  | .recvFrame arrived => ((recvFrame arrived).exec e).2
  | .openStream => (openStream.exec e).2
  | .close code => ((close code).exec e).2

def run (e : Endpoint P) : List Operation → Endpoint P
  | [] => e
  | op :: ops => run (e.perform op) ops

/-- What no operation touches. -/
structure Unchanged (c c' : Connection P) : Prop where
  ourConnectionId : c'.ourConnectionId = c.ourConnectionId
  peerConnectionId : c'.peerConnectionId = c.peerConnectionId
  aead : c'.aead = c.aead
  isClient : c'.isClient = c.isClient
  txPacketNumber : c'.txPacketNumber = c.txPacketNumber
  config : c'.config = c.config
  refuses : c'.socket.refuses = c.socket.refuses
  incomingFrames : c.incomingFrames = [] → c'.incomingFrames = []

theorem Unchanged.refl (c : Connection P) : Unchanged c c := ⟨rfl, rfl, rfl, rfl, rfl, rfl, rfl, id⟩

theorem Unchanged.trans {c c' c'' : Connection P} (h : Unchanged c c') (h' : Unchanged c' c'') : Unchanged c c'' where
  ourConnectionId := h'.ourConnectionId.trans h.ourConnectionId
  peerConnectionId := h'.peerConnectionId.trans h.peerConnectionId
  aead := h'.aead.trans h.aead
  isClient := h'.isClient.trans h.isClient
  txPacketNumber := h'.txPacketNumber.trans h.txPacketNumber
  config := h'.config.trans h.config
  refuses := h'.refuses.trans h.refuses
  incomingFrames := h'.incomingFrames ∘ h.incomingFrames

theorem Unchanged.makeAad {c c' : Connection P} (h : Unchanged c c') : c'.makeAad = c.makeAad := by
  rw [Connection.makeAad, Connection.makeAad, h.ourConnectionId, h.txPacketNumber]

theorem Unchanged.destination {c c' : Connection P} (h : Unchanged c c') : c'.destination = c.destination := by
  rw [Connection.destination, Connection.destination, h.peerConnectionId, h.ourConnectionId]

theorem Sending.unchanged {session : AeadSession P} {e e' : Endpoint P} {frame : Frame} {r : Result Unit}
    (h : Sending session e frame r e') : Unchanged e.connection e'.connection := by
  cases h with
  | inactive => exact .refl _
  | unencrypted => exact .refl _
  | refused datagram text socket state encrypts refuses same => exact ⟨rfl, rfl, rfl, rfl, rfl, rfl, same, id⟩
  | taken datagram socket stats state encrypts same => exact ⟨rfl, rfl, rfl, rfl, rfl, rfl, same, id⟩

theorem Sending.state {session : AeadSession P} {e e' : Endpoint P} {frame : Frame} {r : Result Unit}
    (h : Sending session e frame r e') : e'.connection.state = e.connection.state := by
  cases h <;> rfl

/-- Whatever arrives, `recvFrame` counts and no more. -/
theorem exec_recvFrame_state (e : Endpoint P) (arrived : Except String Bytes) :
    ∃ c, Unchanged e.connection c ∧ c.state = e.connection.state ∧
      ((recvFrame arrived).exec e).2 = { e with connection := c } := by
  rw [recvFrame, exec_get_bind]
  cases hincoming : e.connection.incomingFrames with
  | cons frame incomingFrames =>
    exact ⟨{ e.connection with incomingFrames }, ⟨rfl, rfl, rfl, rfl, rfl, rfl, rfl, fun h => absurd
      (hincoming.symm.trans h) (List.cons_ne_nil _ _)⟩, rfl, by simp only [exec_bind, exec_set, exec_pure]⟩
  | nil =>
    cases hdata : received arrived e.connection.config.recvBufferSize with
    | error error => exact ⟨_, .refl _, rfl, by simp only [exec_bind, exec_lift]⟩
    | ok data =>
      cases hplain : decryptWire e.connection data with
      | error error => exact ⟨_, .refl _, rfl, by simp only [exec_bind, exec_lift, hplain]⟩
      | ok decrypted =>
        cases hframe : Frame.decode decrypted with
        | error error => exact ⟨_, .refl _, rfl, by simp only [exec_bind, exec_lift, hplain, hframe]⟩
        | ok frame =>
          exact ⟨{ e.connection with stats := e.connection.stats.countReceived data.length },
            ⟨rfl, rfl, rfl, rfl, rfl, rfl, rfl, id⟩, rfl,
            by simp only [exec_bind, exec_lift, hplain, hframe, exec_modify, exec_pure]⟩

/-- What a connection makes of what arrives, from its keys and names alone. -/
def reads (c : Connection P) (arrived : Except String Bytes) : Result Frame := do
  let data ← received arrived c.config.recvBufferSize
  let decrypted ← decryptWire c data
  Frame.decode decrypted

theorem reads_eq_ok {c : Connection P} {arrived : Except String Bytes} {frame : Frame} :
    reads c arrived = .ok frame ↔ c.config.recvBufferSize ≤ isizeMax ∧ ∃ datagram, arrived = .ok datagram ∧
      ∃ plain, decryptWire c (datagram.take c.config.recvBufferSize) = .ok plain ∧ Frame.decode plain = .ok frame := by
  rw [reads, bind_eq_ok]
  constructor
  · intro h
    obtain ⟨data, hdata, h⟩ := h
    obtain ⟨hroom, datagram, harrived, rfl⟩ := received_eq_ok.mp hdata
    exact ⟨hroom, datagram, harrived, bind_eq_ok.mp h⟩
  · intro h
    obtain ⟨hroom, datagram, harrived, h⟩ := h
    exact ⟨_, received_eq_ok.mpr ⟨hroom, datagram, harrived, rfl⟩, bind_eq_ok.mpr h⟩

theorem exec_recvFrame_empty {e : Endpoint P} (h : e.connection.incomingFrames = [])
    (arrived : Except String Bytes) : ((recvFrame arrived).exec e).1 = reads e.connection arrived := by
  rw [recvFrame, exec_get_bind, h]
  show ((liftM (received arrived e.connection.config.recvBufferSize) >>= _ : Action (Endpoint P) Frame).exec e).1 = _
  rw [reads]
  cases received arrived e.connection.config.recvBufferSize with
  | error error => rw [exec_bind_error (exec_lift _ _), error_bind]
  | ok data =>
    rw [exec_bind_ok (exec_lift _ _), ok_bind]
    cases hplain : decryptWire e.connection data with
    | error error => rw [exec_bind_error (exec_lift _ _), error_bind]
    | ok decrypted =>
      rw [exec_bind_ok (exec_lift _ _), ok_bind]
      cases Frame.decode decrypted with
      | error error => rw [exec_bind_error (exec_lift _ _)]
      | ok frame => rw [exec_bind_ok (exec_lift _ _), exec_modify_bind, exec_pure]

theorem Unchanged.reads {c c' : Connection P} (h : Unchanged c c') (arrived : Except String Bytes) :
    Endpoint.reads c' arrived = Endpoint.reads c arrived := by
  simp only [Endpoint.reads, decryptWire, h.aead, h.isClient, h.makeAad, h.config]

theorem exec_openStream_state (e : Endpoint P) :
    ∃ c, Unchanged e.connection c ∧ c.state = e.connection.state ∧ (openStream.exec e).2 = { e with connection := c } :=
  ⟨{ e.connection with streams := (StreamManager.openStream.exec e.connection.streams).2 },
    ⟨rfl, rfl, rfl, rfl, rfl, rfl, rfl, id⟩, rfl, rfl⟩

/-- The connection that is being closed. -/
def closing (e : Endpoint P) : Endpoint P := { e with connection := { e.connection with state := .closing } }

/-- What is being closed sends nothing. -/
theorem exec_sendFrame_closing (e : Endpoint P) (frame : Frame) :
    (sendFrame frame).exec e.closing = (fail (.invalidState "Connection not active"), e.closing) := by
  have hinactive : e.closing.connection.state ≠ .active := nofun
  exact exec_sendFrame_inactive hinactive frame

/-- Closing sends nothing and does not get to `closed`. -/
theorem exec_close (e : Endpoint P) (code : CloseCode) :
    (close code).exec e = (fail (.invalidState "Connection not active"), e.closing) := by
  rw [close, exec_modify_bind, exec_get_bind]
  exact exec_bind_error (exec_sendFrame_closing e _)

theorem perform_close (e : Endpoint P) (code : CloseCode) : e.perform (.close code) = e.closing :=
  congrArg Prod.snd (exec_close e code)

section Invariant
variable {I : Endpoint P → Prop}

theorem keeps_sendChunks (hsend : ∀ frame, Keeps I (sendFrame (P := P) frame)) (streamId : StreamId) (i : Nat)
    (chunks : List Bytes) : Keeps I (sendChunks (P := P) streamId i chunks) := by
  induction chunks generalizing i with
  | nil => exact keeps_pure ()
  | cons chunk chunks ih =>
    exact keeps_bind keeps_get fun e => keeps_bind (hsend _) fun _ => ih (i + 1)

/-- What sending keeps, and what holds whatever happens to the rest of a connection,
every operation keeps; closing moves the state. -/
theorem perform_keeps (hsend : ∀ frame, Keeps I (sendFrame (P := P) frame))
    (hchange : ∀ e c, I e → Unchanged e.connection c → c.state = e.connection.state → I { e with connection := c })
    {e : Endpoint P} (h : I e) {op : Operation} (hclosing : ∀ code, op = .close code → I e.closing) :
    I (e.perform op) := by
  cases op with
  | sendFrame frame => exact hsend frame e h
  | sendStreamData streamId data => exact keeps_sendChunks hsend streamId 0 _ e h
  | ping nonce => exact keeps_bind keeps_get (fun _ => hsend _) e h
  | recvFrame arrived =>
    obtain ⟨c, hc, hstate, hexec⟩ := exec_recvFrame_state e arrived
    rw [perform, hexec]
    exact hchange e c h hc hstate
  | openStream =>
    obtain ⟨c, hc, hstate, hexec⟩ := exec_openStream_state e
    rw [perform, hexec]
    exact hchange e c h hc hstate
  | close code =>
    rw [perform_close]
    exact hclosing code rfl

theorem run_keeps (hsend : ∀ frame, Keeps I (sendFrame (P := P) frame))
    (hchange : ∀ e c, I e → Unchanged e.connection c → c.state = e.connection.state → I { e with connection := c })
    (hclosing : ∀ e, I e → I e.closing) {e : Endpoint P} (h : I e) (ops : List Operation) : I (e.run ops) := by
  induction ops generalizing e with
  | nil => exact h
  | cons op ops ih => exact ih (perform_keeps hsend hchange h fun _ _ => hclosing e h)

end Invariant

/-- Once it is being closed, a connection encrypts nothing and sends nothing. -/
theorem run_inactive {e : Endpoint P} (h : e.connection.state = .closing) (ops : List Operation) :
    (e.run ops).encryptions = e.encryptions ∧ (e.run ops).emitted = e.emitted := by
  have hrun := run_keeps (I := fun e' => e'.connection.state = .closing ∧ e'.encryptions = e.encryptions ∧
    e'.emitted = e.emitted) (fun frame e' he => ?_) (fun e' c he _ hstate => ⟨hstate.trans he.1, he.2⟩)
    (fun e' he => ⟨rfl, he.2⟩) ⟨h, rfl, rfl⟩ ops
  · exact hrun.2
  · have hinactive : e'.connection.state ≠ .active := by
      rw [he.1]
      exact nofun
    rw [exec_sendFrame_inactive hinactive]
    exact he

/-! ### What a run leaves -/

/-- What holds of an endpoint that started as `c`: its keys and names are `c`'s, and
what it sent is what it encrypted under them. -/
structure Sound (c : Connection P) (session : AeadSession P) (e : Endpoint P) : Prop where
  unchanged : Unchanged c e.connection
  emitted : ∀ m ∈ e.emitted, (session.txKeys c.isClient).encrypt m.1.encode c.makeAad = .ok m.2
  encryptions : ∀ x ∈ e.encryptions, x = ((session.txKeys c.isClient).txKey, (session.txKeys c.isClient).makeNonce)

theorem sound_start (c : Connection P) (session : AeadSession P) : Sound c session (start c) :=
  ⟨.refl c, fun _ h => absurd h List.not_mem_nil, fun _ h => absurd h List.not_mem_nil⟩

theorem Sound.encrypting {c : Connection P} {session : AeadSession P} {e : Endpoint P} (h : Sound c session e) :
    ∀ x ∈ (e.encrypting session).encryptions,
      x = ((session.txKeys c.isClient).txKey, (session.txKeys c.isClient).makeNonce) := by
  intro x hx
  rcases List.mem_append.mp hx with hx | hx
  · exact h.encryptions x hx
  · cases List.mem_singleton.mp hx
    rw [h.unchanged.isClient]

theorem Sending.sound {c : Connection P} {session : AeadSession P} {e e' : Endpoint P} {frame : Frame}
    {r : Result Unit} (h : Sending session e frame r e') (he : Sound c session e) : Sound c session e' := by
  have hunchanged := he.unchanged.trans h.unchanged
  cases h with
  | inactive => exact he
  | unencrypted => exact ⟨hunchanged, he.emitted, he.encrypting⟩
  | refused => exact ⟨hunchanged, he.emitted, he.encrypting⟩
  | taken datagram socket stats state encrypts =>
    refine ⟨hunchanged, fun m hm => ?_, he.encrypting⟩
    rcases List.mem_append.mp hm with hm | hm
    · exact he.emitted m hm
    · cases List.mem_singleton.mp hm
      rw [← he.unchanged.isClient, ← he.unchanged.makeAad]
      exact encrypts

/-- **A run leaves its connection's keys and names alone**, whatever is asked and
whatever the environment answers. -/
theorem sound_run {c : Connection P} {session : AeadSession P} (h : c.aead = some session) (ops : List Operation) :
    Sound c session ((start c).run ops) := by
  refine run_keeps (I := Sound c session) (fun frame e he => ?_) (fun e c' he hc _ => ?_) (fun e he => ?_)
    (sound_start c session) ops
  · exact (exec_sendFrame (he.unchanged.aead.trans h) frame).sound he
  · exact ⟨he.unchanged.trans hc, he.emitted, he.encryptions⟩
  · exact ⟨he.unchanged.trans ⟨rfl, rfl, rfl, rfl, rfl, rfl, rfl, id⟩, he.emitted, he.encryptions⟩

/-! ### Sending where nothing stands in the way -/

/-- An endpoint that can send. -/
structure Open (session : AeadSession P) (e : Endpoint P) : Prop where
  aead : e.connection.aead = some session
  state : e.connection.state = .active
  refuses : ∀ n, e.connection.socket.refuses n = none

theorem Open.later {session : AeadSession P} {e e' : Endpoint P} (h : Open session e)
    (hunchanged : Unchanged e.connection e'.connection) (hstate : e'.connection.state = e.connection.state) :
    Open session e' where
  aead := hunchanged.aead.trans h.aead
  state := hstate.trans h.state
  refuses n := by
    rw [hunchanged.refuses]
    exact h.refuses n

/-- What is asked is sent. -/
theorem exec_sendFrame_open (hP : P.Encrypts) {session : AeadSession P} {e : Endpoint P} (h : Open session e)
    {frame : Frame} (hsize : frame.encode.length ≤ 2 ^ 36) :
    ∃ datagram e', (sendFrame frame).exec e = (.ok (), e') ∧ e'.emitted = e.emitted ++ [(frame, datagram)] ∧
      e'.encryptions.length = e.encryptions.length + 1 ∧ Unchanged e.connection e'.connection ∧ Open session e' := by
  have hsending := exec_sendFrame h.aead frame
  rcases hexec : (sendFrame frame).exec e with ⟨r, e'⟩
  rw [hexec] at hsending
  have hunchanged := hsending.unchanged
  have hopen : Open session e' := h.later hunchanged hsending.state
  cases hsending with
  | inactive state => exact absurd h.state state
  | unencrypted error state encrypts =>
    have haad : e.connection.makeAad.length ≤ 2 ^ 36 := by
      rw [Connection.makeAad, List.length_append, toBe_length, toBe_length]
      decide
    obtain ⟨ciphertext, hcipher⟩ := hP.encrypts (session.txKeys e.connection.isClient).txKey
      (session.txKeys e.connection.isClient).makeNonce haad hsize
    exact absurd (encrypts.symm.trans (mapCrypto_eq_ok.mpr hcipher)) nofun
  | refused datagram text socket state encrypts refuses => exact absurd ((h.refuses _).symm.trans refuses) nofun
  | taken datagram socket stats state encrypts =>
    exact ⟨datagram, _, rfl, rfl, List.length_append, hunchanged, hopen⟩

/-- The frames of a call of `send_stream_data`, from the `i`th chunk. -/
def dataFrames (streamId : StreamId) (destination : UInt32) : Nat → List Bytes → List Frame
  | _, [] => []
  | i, chunk :: chunks =>
    Frame.data streamId destination (UInt32.ofNat i * UInt32.ofNat maxPayloadSize) chunk ::
      dataFrames streamId destination (i + 1) chunks

theorem dataFrames_length (streamId : StreamId) (destination : UInt32) (i : Nat) (chunks : List Bytes) :
    (dataFrames streamId destination i chunks).length = chunks.length := by
  induction chunks generalizing i with
  | nil => rfl
  | cons chunk chunks ih => rw [dataFrames, List.length_cons, List.length_cons, ih]

theorem dataFrames_payload (streamId : StreamId) (destination : UInt32) (i : Nat) (chunks : List Bytes) :
    (dataFrames streamId destination i chunks).map Frame.payload = chunks := by
  induction chunks generalizing i with
  | nil => rfl
  | cons chunk chunks ih =>
    rw [dataFrames, List.map_cons, ih]
    rfl

/-- The frames of a call are Data frames on its stream. -/
theorem mem_dataFrames {streamId : StreamId} {destination : UInt32} {i : Nat} {chunks : List Bytes} {f : Frame}
    (h : f ∈ dataFrames streamId destination i chunks) : f.header.frameType = .data ∧ f.header.streamId = streamId := by
  induction chunks generalizing i with
  | nil => exact absurd h List.not_mem_nil
  | cons chunk chunks ih =>
    rcases List.mem_cons.mp h with rfl | hrest
    · exact ⟨rfl, rfl⟩
    · exact ih hrest

theorem Sending.emitted {session : AeadSession P} {e e' : Endpoint P} {frame : Frame} {r : Result Unit}
    (h : Sending session e frame r e') :
    (∃ error, r = .error error ∧ e'.emitted = e.emitted) ∨
      ∃ datagram, r = .ok () ∧ e'.emitted = e.emitted ++ [(frame, datagram)] := by
  cases h with
  | inactive => exact .inl ⟨_, rfl, rfl⟩
  | unencrypted error => exact .inl ⟨error, rfl, rfl⟩
  | refused => exact .inl ⟨_, rfl, rfl⟩
  | taken datagram => exact .inr ⟨datagram, rfl, rfl⟩

theorem Sending.calls_le {session : AeadSession P} {e e' : Endpoint P} {frame : Frame} {r : Result Unit}
    (h : Sending session e frame r e') : e'.encryptions.length ≤ e.encryptions.length + 1 := by
  cases h with
  | inactive => exact Nat.le_succ _
  | _ => exact Nat.le_of_eq List.length_append

theorem Sending.streams {session : AeadSession P} {e e' : Endpoint P} {frame : Frame} {r : Result Unit}
    (h : Sending session e frame r e') : e'.connection.streams = e.connection.streams := by
  cases h <;> rfl

/-- What is left of an endpoint that was to send some frames, however far it got. -/
structure Sent (e e' : Endpoint P) (frames : List Frame) : Prop where
  emitted : ∃ sent, e'.emitted = e.emitted ++ sent ∧ sent.map Prod.fst <+: frames
  encryptions : e'.encryptions.length ≤ e.encryptions.length + frames.length
  streams : e'.connection.streams = e.connection.streams
  unchanged : Unchanged e.connection e'.connection

/-- Whatever stands in the way, a call sends its frames in order and nothing else. -/
theorem sent_sendChunks {session : AeadSession P} (streamId : StreamId) (chunks : List Bytes) {e : Endpoint P}
    (h : e.connection.aead = some session) (i : Nat) :
    Sent e ((sendChunks streamId i chunks).exec e).2 (dataFrames streamId e.connection.destination i chunks) := by
  induction chunks generalizing e i with
  | nil => exact ⟨⟨[], (List.append_nil _).symm, List.prefix_rfl⟩, Nat.le_refl _, rfl, .refl _⟩
  | cons chunk chunks ih =>
    have hsending := exec_sendFrame h (Frame.data streamId e.connection.destination
      (UInt32.ofNat i * UInt32.ofNat maxPayloadSize) chunk)
    rcases hexec : (sendFrame (Frame.data streamId e.connection.destination
      (UInt32.ofNat i * UInt32.ofNat maxPayloadSize) chunk)).exec e with ⟨r, e'⟩
    rw [hexec] at hsending
    rw [sendChunks, exec_get_bind, dataFrames]
    have hcalls : e'.encryptions.length ≤ e.encryptions.length + 1 := hsending.calls_le
    rcases hsending.emitted with ⟨error, hr, hemitted⟩ | ⟨datagram, hr, hemitted⟩
    · cases hr
      rw [exec_bind_error hexec]
      refine ⟨⟨[], ?_, List.nil_prefix⟩, ?_, hsending.streams, hsending.unchanged⟩
      · rw [List.append_nil]
        exact hemitted
      · rw [List.length_cons]
        exact Nat.le_trans hcalls (by omega)
    · cases hr
      rw [exec_bind_ok hexec]
      have haead : e'.connection.aead = some session := hsending.unchanged.aead.trans h
      have hrest := ih haead (i + 1)
      obtain ⟨sent, hsent, hbegins⟩ := hrest.emitted
      rw [hsending.unchanged.destination] at hbegins
      refine ⟨⟨(_, datagram) :: sent, ?_, List.prefix_cons_inj _ |>.mpr hbegins⟩, ?_,
        hrest.streams.trans hsending.streams, hsending.unchanged.trans hrest.unchanged⟩
      · rw [hsent, hemitted, List.append_assoc]
        rfl
      · have hencryptions := hrest.encryptions
        rw [dataFrames_length] at hencryptions
        rw [List.length_cons, dataFrames_length]
        omega

theorem exec_sendChunks_open (hP : P.Encrypts) {session : AeadSession P} (streamId : StreamId) {chunks : List Bytes}
    (hsizes : ∀ chunk ∈ chunks, chunk.length ≤ maxPayloadSize) {e : Endpoint P} (h : Open session e) (i : Nat) :
    ∃ e', (sendChunks streamId i chunks).exec e = (.ok (), e') ∧
      e'.emitted.map Prod.fst = e.emitted.map Prod.fst ++ dataFrames streamId e.connection.destination i chunks ∧
      e'.encryptions.length = e.encryptions.length + chunks.length ∧ Unchanged e.connection e'.connection ∧
      Open session e' := by
  induction chunks generalizing e i with
  | nil => exact ⟨e, rfl, (List.append_nil _).symm, rfl, .refl _, h⟩
  | cons chunk chunks ih =>
    have hsize : (Frame.data streamId e.connection.destination (UInt32.ofNat i * UInt32.ofNat maxPayloadSize)
        chunk).encode.length ≤ 2 ^ 36 := by
      have hchunk : chunk.length ≤ 1376 := hsizes chunk List.mem_cons_self
      rw [Frame.data, Frame.newShort_encode_length]
      omega
    obtain ⟨datagram, e', hexec, hemitted, hcalls, hunchanged, hopen⟩ := exec_sendFrame_open hP h hsize
    obtain ⟨e'', hexec', hemitted', hcalls', hunchanged', hopen'⟩ :=
      ih (fun c hc => hsizes c (List.mem_cons_of_mem _ hc)) hopen (i + 1)
    refine ⟨e'', ?_, ?_, ?_, hunchanged.trans hunchanged', hopen'⟩
    · rw [sendChunks, exec_get_bind, exec_bind_ok hexec, hexec']
    · rw [hemitted', hemitted, hunchanged.destination, dataFrames]
      simp
    · rw [hcalls', hcalls, List.length_cons]
      omega

end Endpoint

end

end Aether
