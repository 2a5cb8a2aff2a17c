import Aether.Connection.Establishment
import Aether.Handshake.Truncation

/-! What a server makes of whatever its socket receives.

`accept` reads two datagrams, the Initial and the client's Finished. The first
aborts the program where the hello in it ends before the decoder does
(`accept_safe_iff`). The second is taken from the socket without regard to where it
comes from: what becomes of a client depends on the datagram that is next in the
queue, the client's or not (`acceptFrom_eq_iff`). -/
namespace Aether
open Octets Octets.Method

section
variable {P : Primitives}

namespace Connection

/-! ### The two halves of `accept` -/

/-- `accept` up to where it waits for the client's Finished. -/
def acceptHello (config : Config) (identity : Identity P) (connectionId : UInt64) (secret : P.Scalar)
    (clientHello : Except String Bytes) : Action Socket (HandshakeContext P) := do
  let frame ← liftM (frameReceived clientHello)
  if frame.header.frameType ≠ .initial then
    throw (.err (.protocolViolation "Expected Initial packet"))
  else do
    let sh := (HandshakeContext.handleClientHello connectionId secret frame identity config.capabilities).exec
      HandshakeContext.newServer
    let shFrame ← liftM sh.1
    Socket.send shFrame.encode
    let sfFrame ← liftM sh.2.createFinished
    Socket.send sfFrame.encode
    return sh.2

/-- The rest, with the context of the first half. -/
def acceptFinished (config : Config) (hs : HandshakeContext P) (clientFinished : Except String Bytes) :
    Action Socket (Connection P) := do
  let cfFrame ← liftM (frameReceived clientFinished)
  let cf := (HandshakeContext.verifyFinished cfFrame).exec hs
  liftM cf.1
  let sessionKey ← liftM (unwrap cf.2.sessionKey)
  let peerConnectionId ← liftM (unwrap cf.2.peerConnectionId)
  let socket ← get
  return accepted socket config cf.2 sessionKey peerConnectionId

theorem accept_eq (config : Config) (identity : Identity P) (connectionId : UInt64) (secret : P.Scalar)
    (clientHello clientFinished : Except String Bytes) :
    accept config identity connectionId secret clientHello clientFinished =
      acceptHello config identity connectionId secret clientHello >>= fun hs =>
        acceptFinished config hs clientFinished := by
  rw [accept, acceptHello, bind_assoc]
  refine bind_congr fun frame => ?_
  split
  · rfl
  · simp only [bind_assoc, pure_bind]
    rfl

/-- The Initial is answered: it is a frame of that type with a hello the server can
read, of a version it speaks, and the socket takes both answers. -/
structure Answers (socket : Socket) (clientHello : Except String Bytes) (frame : Frame) (hello : ClientHello) :
    Prop where
  received : frameReceived clientHello = .ok frame
  type : frame.header.frameType = .initial
  decodes : ClientHello.decode frame.payload = .ok hello
  version : aetherVersion ∈ hello.supportedVersions
  takesHello : socket.refuses socket.attempts = none
  takesFinished : socket.refuses (socket.attempts + 1) = none

/-- The context of a server that has answered. -/
def answering (config : Config) (identity : Identity P) (connectionId : UInt64) (secret : P.Scalar) (frame : Frame)
    (hello : ClientHello) : HandshakeContext P :=
  HandshakeContext.newServer.answered connectionId secret frame hello identity config.capabilities

theorem acceptHello_eq_ok {config : Config} {identity : Identity P} {connectionId : UInt64} {secret : P.Scalar}
    {clientHello : Except String Bytes} {socket left : Socket} {hs : HandshakeContext P}
    (h : (acceptHello config identity connectionId secret clientHello).exec socket = (.ok hs, left)) :
    ∃ frame hello, Answers socket clientHello frame hello ∧
      hs = answering config identity connectionId secret frame hello := by
  obtain ⟨frame, hframe, h⟩ := exec_lift_bind_eq_ok.mp h
  by_cases htype : frame.header.frameType = .initial
  · rw [if_neg (not_not_intro htype)] at h
    simp only [exec_lift_bind_eq_ok, exec_send_bind_eq_ok, exec_pure] at h
    obtain ⟨sh, hsh, hsend, sf, _, hsend', h⟩ := h
    cases h
    obtain ⟨hello, hdecode, hversion, _, hs⟩ := HandshakeContext.handleClientHello_eq_ok.mp (Prod.ext hsh rfl)
    exact ⟨frame, hello, ⟨hframe, htype, hdecode, hversion, hsend, hsend'⟩, hs⟩
  · rw [if_pos htype] at h
    cases h

theorem exec_acceptHello (config : Config) (identity : Identity P) (connectionId : UInt64) (secret : P.Scalar)
    {clientHello : Except String Bytes} {socket : Socket} {frame : Frame} {hello : ClientHello}
    (h : Answers socket clientHello frame hello) :
    ∃ left, (acceptHello config identity connectionId secret clientHello).exec socket =
      (.ok (answering config identity connectionId secret frame hello), left) := by
  have hanswer : ∃ sh, (HandshakeContext.handleClientHello connectionId secret frame identity config.capabilities).exec
      HandshakeContext.newServer = (.ok sh, answering config identity connectionId secret frame hello) :=
    ⟨_, HandshakeContext.handleClientHello_eq_ok.mpr ⟨hello, h.decodes, h.version, rfl, rfl⟩⟩
  obtain ⟨sh, hanswer⟩ := hanswer
  obtain ⟨sf, hfinished⟩ : ∃ sf, (answering config identity connectionId secret frame hello).createFinished = .ok sf :=
    ⟨_, HandshakeContext.createFinished_eq_ok.mpr ⟨_, _, rfl, rfl, rfl⟩⟩
  refine ⟨(socket.taking sh.encode).taking sf.encode, exec_lift_bind_eq_ok.mpr ⟨frame, h.received, ?_⟩⟩
  rw [if_neg (not_not_intro h.type)]
  simp only [exec_lift_bind_eq_ok, exec_send_bind_eq_ok, exec_pure, hanswer]
  exact ⟨sh, rfl, h.takesHello, sf, hfinished, h.takesFinished, rfl⟩

/-! ### The first datagram -/

theorem total_send (datagram : Bytes) : Total (Socket.send datagram) := by
  refine total_bind total_get fun s => ?_
  split
  · exact total_bind (total_set _) fun _ => total_err _
  · exact total_set _

theorem safe_frameReceived (arrived : Except String Bytes) : Safe (frameReceived arrived) := by
  cases arrived with
  | ok datagram => exact Frame.safe_decode _
  | error text => exact safe_fail _

theorem safe_acceptHello (config : Config) (identity : Identity P) (connectionId : UInt64) (secret : P.Scalar)
    (datagram : Bytes) (socket : Socket) :
    Safe ((acceptHello config identity connectionId secret (.ok datagram)).exec socket).1 ↔
      ∀ frame, Frame.decode (datagram.take maxPacketSize) = .ok frame → frame.header.frameType = .initial →
        ClientHello.Readable frame.payload := by
  rw [acceptHello, safe_exec_lift_bind, and_iff_right (safe_frameReceived _)]
  refine forall_congr' fun frame => forall_congr' fun _ => ?_
  by_cases htype : frame.header.frameType = .initial
  · rw [if_neg (not_not_intro htype), safe_exec_lift_bind, HandshakeContext.safe_handleClientHello,
      ClientHello.safe_decode_iff, forall_prop_of_true htype]
    refine and_iff_left fun sh _ => ?_
    exact total_bind (total_send _) (fun _ => total_bind (total_lift (HandshakeContext.safe_createFinished _)) fun _ =>
      total_bind (total_send _) fun _ => total_pure _) socket
  · rw [if_pos htype]
    exact iff_of_true (safe_err _) fun h => absurd h htype

/-- Keys and peer are there to be unwrapped once a server has answered. -/
theorem total_acceptFinished (config : Config) {hs : HandshakeContext P} {key : P.SessionKey} {peer : UInt64}
    (hkey : hs.sessionKey = some key) (hpeer : hs.peerConnectionId = some peer) (clientFinished : Except String Bytes) :
    Total (acceptFinished config hs clientFinished) := by
  refine total_bind (total_lift (safe_frameReceived _)) fun frame socket => ?_
  have htotal := HandshakeContext.total_verifyFinished frame hs
  rcases hexec : (HandshakeContext.verifyFinished frame).exec hs with ⟨r, hs'⟩
  rw [hexec] at htotal
  refine safe_exec_lift_bind.mpr ⟨htotal, fun u hr => ?_⟩
  cases hr
  obtain ⟨_, _, _, rfl⟩ := HandshakeContext.verifyFinished_eq_ok.mp hexec
  rw [hkey, hpeer]
  exact safe_ok _

/-- **The first datagram aborts the server exactly when it is an Initial frame with a
hello that ends too soon**, whatever is sent after it. -/
theorem accept_safe_iff (config : Config) (identity : Identity P) (connectionId : UInt64) (secret : P.Scalar)
    (datagram : Bytes) (clientFinished : Except String Bytes) (socket : Socket) :
    Safe ((accept config identity connectionId secret (.ok datagram) clientFinished).exec socket).1 ↔
      ∀ frame, Frame.decode (datagram.take maxPacketSize) = .ok frame → frame.header.frameType = .initial →
        ClientHello.Readable frame.payload := by
  rw [accept_eq, safe_exec_bind, safe_acceptHello]
  refine and_iff_left fun hs left hexec => ?_
  obtain ⟨frame, hello, _, rfl⟩ := acceptHello_eq_ok hexec
  exact total_acceptFinished config rfl rfl clientFinished left

/-- An Initial frame with eighty zero octets, as many as the decoder asks for. -/
theorem accept_zeros_panics :
    ((accept (P := Transparent.fixedMacs) sampleConfig HandshakeContext.fixedServer.identity
      HandshakeContext.fixedServer.connectionId HandshakeContext.fixedServer.secret
      (.ok (Frame.newLong .initial 0 7 9 (List.replicate 80 0)).encode) (.ok [])).exec openSocket).1 = .error .panic := by
  have hread : frameReceived (.ok (Frame.newLong .initial 0 7 9 (List.replicate 80 0)).encode) =
      .ok (Frame.newLong .initial 0 7 9 (List.replicate 80 0)) := by decide +kernel
  have hdecode : ClientHello.decode (List.replicate 80 0) = .error .panic := rfl
  rw [accept, exec_bind_ok (by rw [exec_lift, hread])]
  rfl

/-! ### The second datagram -/

variable (P) in
/-- What becomes of a call of `accept`. -/
inductive Verdict where
  | waiting
  | aborted
  | failed
  | established (session : Option (AeadSession P))

def verdict : Result (Connection P) → Verdict P
  | .ok c => .established c.aead
  | .error (.err _) => .failed
  | .error .panic => .aborted

/-- A call that has done its first half, on what arrives after it. -/
def resume {Address : Type} (config : Config) (half : Result (HandshakeContext P) × Socket)
    (rest : List (Address × Bytes)) : Verdict P :=
  match half, rest with
  | (.error e, _), _ => verdict (.error e)
  | (.ok _, _), [] => .waiting
  | (.ok hs, left), (_, clientFinished) :: _ => verdict ((acceptFinished config hs (.ok clientFinished)).exec left).1

/-- `accept` on the datagrams that arrive at its socket, each from an address. -/
def acceptFrom {Address : Type} (config : Config) (identity : Identity P) (connectionId : UInt64) (secret : P.Scalar)
    (socket : Socket) (arriving : List (Address × Bytes)) : Verdict P :=
  match arriving with
  | [] => .waiting
  | (_, clientHello) :: rest =>
    resume config ((acceptHello config identity connectionId secret (.ok clientHello)).exec socket) rest

/-- The session key of a server that has answered. -/
def answeringKey (config : Config) (identity : Identity P) (connectionId : UInt64) (secret : P.Scalar) (frame : Frame)
    (hello : ClientHello) : P.SessionKey :=
  deriveSessionKey (P.diffieHellman secret hello.x25519Public)
    (answering config identity connectionId secret frame hello).transcript

/-- The Finished it waits for. -/
def awaited (config : Config) (identity : Identity P) (connectionId : UInt64) (secret : P.Scalar) (frame : Frame)
    (hello : ClientHello) : Bytes :=
  computeFinished (answeringKey config identity connectionId secret frame hello)
    (answering config identity connectionId secret frame hello).transcript

/-- A frame with this MAC, whoever sends it. -/
def CarriesMac (mac datagram : Bytes) : Prop := ∃ frame, frameReceived (.ok datagram) = .ok frame ∧ frame.payload = mac

/-- Two sequences go on alike for a server that waits for this MAC: both end, or the
next datagram carries it in both or in neither. -/
def Alike {Address : Type} (mac : Bytes) : List (Address × Bytes) → List (Address × Bytes) → Prop
  | [], [] => True
  | (_, next₁) :: _, (_, next₂) :: _ => CarriesMac mac next₁ ↔ CarriesMac mac next₂
  | _, _ => False

section Accepting
variable {Address : Type} {config : Config} {identity : Identity P} {connectionId : UInt64} {secret : P.Scalar}
  {socket : Socket}

theorem acceptFrom_cons (a : Address) (clientHello : Bytes) (rest : List (Address × Bytes)) :
    acceptFrom config identity connectionId secret socket ((a, clientHello) :: rest) =
      resume config ((acceptHello config identity connectionId secret (.ok clientHello)).exec socket) rest := rfl

theorem resume_cons (hs : HandshakeContext P) (left : Socket) (a : Address) (clientFinished : Bytes)
    (rest : List (Address × Bytes)) :
    resume config (.ok hs, left) ((a, clientFinished) :: rest) =
      verdict ((acceptFinished config hs (.ok clientFinished)).exec left).1 := rfl

/-- With two datagrams it is a call of `accept`. -/
theorem acceptFrom_two (a b : Address) (clientHello clientFinished : Bytes) (rest : List (Address × Bytes)) :
    acceptFrom config identity connectionId secret socket ((a, clientHello) :: (b, clientFinished) :: rest) =
      verdict ((accept config identity connectionId secret (.ok clientHello) (.ok clientFinished)).exec socket).1 := by
  rw [accept_eq, exec_bind, acceptFrom_cons]
  rcases (acceptHello config identity connectionId secret (.ok clientHello)).exec socket with ⟨r, left⟩
  cases r <;> rfl

theorem verdict_ne_waiting (r : Result (Connection P)) : verdict r ≠ .waiting := by
  rcases r with e | c
  · cases e <;> nofun
  · nofun

/-- The second half establishes a session for the MAC that is awaited … -/
theorem verdict_of_carries {frame : Frame} {hello : ClientHello} {datagram : Bytes} (left : Socket)
    (h : CarriesMac (awaited config identity connectionId secret frame hello) datagram) :
    verdict ((acceptFinished config (answering config identity connectionId secret frame hello)
        (.ok datagram)).exec left).1 =
      .established (some (AeadSession.new (answeringKey config identity connectionId secret frame hello) .aes256Gcm)) := by
  obtain ⟨finished, hfinished, hmac⟩ := h
  have hverify : (HandshakeContext.verifyFinished finished).exec
        (answering config identity connectionId secret frame hello) =
      (.ok (), { answering config identity connectionId secret frame hello with state := .complete }) :=
    HandshakeContext.verifyFinished_eq_ok.mpr ⟨_, rfl, hmac, rfl⟩
  rw [acceptFinished, exec_bind_ok (by rw [exec_lift, hfinished])]
  simp only [hverify]
  rfl

/-- … and fails on anything else. -/
theorem verdict_of_not_carries {frame : Frame} {hello : ClientHello} {datagram : Bytes} (left : Socket)
    (h : ¬ CarriesMac (awaited config identity connectionId secret frame hello) datagram) :
    verdict ((acceptFinished config (answering config identity connectionId secret frame hello)
        (.ok datagram)).exec left).1 = .failed := by
  have htotal : Total (acceptFinished config (answering config identity connectionId secret frame hello)
      (.ok datagram)) := total_acceptFinished config rfl rfl _
  have hsafe := htotal left
  rcases hexec : (acceptFinished config (answering config identity connectionId secret frame hello)
    (.ok datagram)).exec left with ⟨r, left'⟩
  rw [hexec] at hsafe
  cases r with
  | ok c =>
    obtain ⟨finished, hfinished, hrest⟩ := exec_lift_bind_eq_ok.mp hexec
    obtain ⟨u, hverify, _⟩ := exec_lift_bind_eq_ok.mp hrest
    obtain ⟨key, hkey, hmac, _⟩ := HandshakeContext.verifyFinished_eq_ok.mp (Prod.ext hverify rfl)
    cases hkey
    exact absurd ⟨finished, hfinished, hmac⟩ h
  | error e =>
    cases e with
    | err e => rfl
    | panic => exact absurd hsafe not_safe_panic

/-- **What other clients send decides over a client** exactly where the server answers
its Initial and the two sequences do not go on alike, wherever their next datagrams
come from. -/
theorem acceptFrom_eq_iff (config : Config) (identity : Identity P) (connectionId : UInt64) (secret : P.Scalar)
    (socket : Socket) (a : Address) (initial : Bytes) (rest₁ rest₂ : List (Address × Bytes)) :
    acceptFrom config identity connectionId secret socket ((a, initial) :: rest₁) =
        acceptFrom config identity connectionId secret socket ((a, initial) :: rest₂) ↔
      ∀ frame hello, Answers socket (.ok initial) frame hello →
        Alike (awaited config identity connectionId secret frame hello) rest₁ rest₂ := by
  rw [acceptFrom_cons, acceptFrom_cons]
  rcases hexec : (acceptHello config identity connectionId secret (.ok initial)).exec socket with ⟨r, left⟩
  cases r with
  | error e =>
    refine iff_of_true rfl fun frame hello hanswers => ?_
    obtain ⟨_, hok⟩ := exec_acceptHello config identity connectionId secret hanswers
    cases hok.symm.trans hexec
  | ok hs =>
    obtain ⟨frame, hello, hanswers, rfl⟩ := acceptHello_eq_ok hexec
    have hone : (∀ frame' hello', Answers socket (.ok initial) frame' hello' →
        Alike (awaited config identity connectionId secret frame' hello') rest₁ rest₂) ↔
          Alike (awaited config identity connectionId secret frame hello) rest₁ rest₂ := by
      constructor
      · exact fun h => h frame hello hanswers
      · intro h frame' hello' hanswers'
        cases hanswers.received.symm.trans hanswers'.received
        cases hanswers.decodes.symm.trans hanswers'.decodes
        exact h
    rw [hone]
    rcases rest₁ with _ | ⟨⟨_, next₁⟩, rest₁⟩ <;> rcases rest₂ with _ | ⟨⟨_, next₂⟩, rest₂⟩
    · exact iff_of_true rfl trivial
    · exact iff_of_false (verdict_ne_waiting _).symm id
    · exact iff_of_false (verdict_ne_waiting _) id
    · rw [resume_cons, resume_cons, Alike]
      by_cases h₁ : CarriesMac (awaited config identity connectionId secret frame hello) next₁ <;>
        by_cases h₂ : CarriesMac (awaited config identity connectionId secret frame hello) next₂
      · rw [verdict_of_carries left h₁, verdict_of_carries left h₂]
        exact iff_of_true rfl (iff_of_true h₁ h₂)
      · rw [verdict_of_carries left h₁, verdict_of_not_carries left h₂]
        exact iff_of_false nofun fun h => h₂ (h.mp h₁)
      · rw [verdict_of_not_carries left h₁, verdict_of_carries left h₂]
        exact iff_of_false nofun fun h => h₁ (h.mpr h₂)
      · rw [verdict_of_not_carries left h₁, verdict_of_not_carries left h₂]
        exact iff_of_true rfl (iff_of_false h₁ h₂)

end Accepting

section Disturbed
open HandshakeContext

/-- A client at address 1, and what else gets to the server after its Initial. -/
def acceptSample (rest : List (Nat × Bytes)) : Verdict Transparent.fixedMacs :=
  acceptFrom sampleConfig fixedServer.identity fixedServer.connectionId fixedServer.secret openSocket
    ((1, (clientHelloFrame fixedClient).encode) :: rest)

def sampleFinished : Bytes := (clientFinishedFrame fixedClient fixedServer).encode

/-- A single octet from address 2, in front of the client's Finished. -/
theorem acceptFrom_disturbed :
    [(1, sampleFinished)].filter (·.1 = 1) = [(2, [0]), (1, sampleFinished)].filter (·.1 = 1) ∧
      (∃ session, acceptSample [(1, sampleFinished)] = .established session) ∧
      acceptSample [(2, [0]), (1, sampleFinished)] = .failed := by
  have hclient : acceptSample [(1, sampleFinished)] =
      verdict (.ok (serverOf fixedClient fixedServer openSocket sampleConfig)) := by
    rw [acceptSample, acceptFrom_two, sampleFinished,
      accept_honest Transparent.fixedMacs_macLength fixedClient fixedServer (fun _ => rfl) rfl]
  have hanswers : Answers openSocket (.ok (clientHelloFrame fixedClient).encode) (clientHelloFrame fixedClient)
      (helloOfClient fixedClient) :=
    ⟨clientHello_received fixedClient, rfl, ClientHello.decode_encode_self _ (by decide), by decide, rfl, rfl⟩
  obtain ⟨left, hexec⟩ := exec_acceptHello sampleConfig fixedServer.identity fixedServer.connectionId fixedServer.secret
    hanswers
  have hother : ∀ mac, ¬ CarriesMac mac [0] := by
    intro mac h
    obtain ⟨frame, hframe, _⟩ := h
    cases hframe
  refine ⟨rfl, ⟨_, hclient⟩, ?_⟩
  rw [acceptSample, acceptFrom_cons, hexec, resume_cons, verdict_of_not_carries left (hother _)]

end Disturbed

end Connection

end

end Aether
