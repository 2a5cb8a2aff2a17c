import Aether.Framing.Frame
import Aether.Handshake.Messages

/-! One side of a handshake (`handshake.rs`): the context and its handlers.

The random draws of the source, X25519 secrets and the server's connection ID, are
arguments. A handler that fails leaves the fields it has set, as the source does.
Each handler has one lemma for what it does when it succeeds
(`exec_handleClientHello`, …), and those whose success an attacker may bring about
one more for what their success means (`handleServerHello_eq_ok`, …). -/
namespace Aether
open Octets Octets.Method

inductive HandshakeState where
  | initial
  | helloSent
  | keysDerived
  | complete
  | failed
  deriving DecidableEq, Repr

section
variable {P : Primitives}

variable (P) in
structure HandshakeContext where
  state : HandshakeState
  ourConnectionId : UInt64
  peerConnectionId : Option UInt64
  x25519Secret : Option P.Scalar
  peerX25519Public : Option (Block 32)
  transcript : Bytes
  sessionKey : Option P.SessionKey
  capabilities : Option Capabilities
  peerIdentity : Option (Block 32)
  isClient : Bool

/-- `b"ClientHello:"` -/
def clientHelloTag : Bytes := ascii ['C', 'l', 'i', 'e', 'n', 't', 'H', 'e', 'l', 'l', 'o', ':']

/-- `b"ServerHello:"` -/
def serverHelloTag : Bytes := ascii ['S', 'e', 'r', 'v', 'e', 'r', 'H', 'e', 'l', 'l', 'o', ':']

/-- `(cid >> 32) as u32` -/
def truncateCid (connectionId : UInt64) : UInt32 := (connectionId >>> 32).toUInt32

/-- What a server makes of its own capabilities and those offered. -/
def Capabilities.negotiate (ours offered : Capabilities) : Capabilities :=
  { multipath := ours.multipath && offered.multipath
    maxStreams := min ours.maxStreams offered.maxStreams
    maxStreamData := min ours.maxStreamData offered.maxStreamData
    ackFrequency := offered.ackFrequency
    idleTimeoutMs := min ours.idleTimeoutMs offered.idleTimeoutMs }

namespace HandshakeContext

def newClient (ourConnectionId : UInt64) : HandshakeContext P :=
  { state := .initial
    ourConnectionId
    peerConnectionId := none
    x25519Secret := none
    peerX25519Public := none
    transcript := []
    sessionKey := none
    capabilities := none
    peerIdentity := none
    isClient := true }

def newServer : HandshakeContext P :=
  { state := .initial
    ourConnectionId := 0
    peerConnectionId := none
    x25519Secret := none
    peerX25519Public := none
    transcript := []
    sessionKey := none
    capabilities := none
    peerIdentity := none
    isClient := false }

/-- `ok_or_else` -/
def orError {α : Type} (o : Option α) (e : Error) : Result α :=
  match o with
  | some a => .ok a
  | none => fail e

/-- The secret is taken out of the context, which computes keys once. -/
def deriveKeys : Action (HandshakeContext P) Unit := do
  let c ← get
  set { c with x25519Secret := none }
  let ourSecret ← liftM (orError c.x25519Secret (.invalidState "Our X25519 secret not set"))
  let peerPublic ← liftM (orError c.peerX25519Public (.invalidState "Peer X25519 public not set"))
  let sharedSecret := P.diffieHellman ourSecret peerPublic
  modify fun c => { c with sessionKey := some (deriveSessionKey sharedSecret c.transcript) }

def createClientHello (secret : P.Scalar) (identity : Identity P) (capabilities : Capabilities) :
    Action (HandshakeContext P) Frame := do
  modify fun c => { c with x25519Secret := some secret, peerX25519Public := none }
  let c ← get
  let hello := ClientHello.new c.ourConnectionId (P.x25519Public secret) identity capabilities
  let helloData := hello.encode
  set { c with transcript := c.transcript ++ (clientHelloTag ++ helloData), state := .helloSent }
  return Frame.newLong .initial controlStreamId (truncateCid c.ourConnectionId) c.ourConnectionId helloData

def handleClientHello (connectionId : UInt64) (secret : P.Scalar) (frame : Frame) (identity : Identity P)
    (capabilities : Capabilities) : Action (HandshakeContext P) Frame := do
  let hello ← liftM (ClientHello.decode frame.payload)
  if aetherVersion ∉ hello.supportedVersions then
    throw (.err (.versionNegotiation
      s!"Unsupported version: peer supports {hello.supportedVersions}, we are v{aetherVersion}"))
  else do
    modify fun c => { c with
      peerConnectionId := some hello.connectionId
      ourConnectionId := connectionId
      peerX25519Public := some hello.x25519Public
      peerIdentity := some hello.identity
      transcript := c.transcript ++ (clientHelloTag ++ frame.payload)
      x25519Secret := some secret }
    let c ← get
    let negotiated := capabilities.negotiate hello.capabilities
    -- The signature covers the transcript so far: the ClientHello and nothing of this message.
    let serverHello := ServerHello.new c.ourConnectionId hello.connectionId (P.x25519Public secret) identity
      c.transcript negotiated
    let helloData := serverHello.encode
    set { c with transcript := c.transcript ++ (serverHelloTag ++ helloData) }
    deriveKeys
    modify fun c => { c with capabilities := some negotiated, state := .keysDerived }
    return Frame.newLong .initial controlStreamId (truncateCid hello.connectionId) c.ourConnectionId helloData

/-- `try_into` an array of 64 octets. -/
def proofBytes (proof : Bytes) : Result (Block 64) :=
  if h : proof.length = 64 then .ok ⟨proof, h⟩ else fail (.crypto "Invalid signature length")

def handleServerHello (frame : Frame) : Action (HandshakeContext P) Unit := do
  let serverHello ← liftM (ServerHello.decode frame.payload)
  modify fun c => { c with
    peerConnectionId := some serverHello.sourceConnectionId
    peerX25519Public := some serverHello.x25519Public
    peerIdentity := some serverHello.identity }
  let c ← get
  let proof ← liftM (proofBytes serverHello.identityProof)
  liftM (Identity.verify P serverHello.identityPublicKey c.transcript proof)
  set { c with transcript := c.transcript ++ (serverHelloTag ++ frame.payload) }
  deriveKeys
  modify fun c => { c with capabilities := some serverHello.capabilities, state := .keysDerived }

/-- The last statement of the two functions that answer with a Finished. -/
def finishedFrame (c : HandshakeContext P) (sessionKey : P.SessionKey) : Result Frame := do
  let peerCid ← orError c.peerConnectionId (.invalidState "Peer CID not known")
  return Frame.newLong .handshake controlStreamId (truncateCid peerCid) c.ourConnectionId
    (computeFinished sessionKey c.transcript)

def createFinished (c : HandshakeContext P) : Result Frame := do
  let sessionKey ← orError c.sessionKey (.invalidState "Session key not derived")
  finishedFrame c sessionKey

/-- The state is `complete` before the peer's connection ID is looked at. -/
def handleFinishedAndRespond (frame : Frame) : Action (HandshakeContext P) Frame := do
  let c ← get
  let sessionKey ← liftM (orError c.sessionKey (.invalidState "Session key not derived"))
  liftM (Aether.verifyFinished sessionKey c.transcript frame.payload)
  set { c with state := .complete }
  liftM (finishedFrame c sessionKey)

def verifyFinished (frame : Frame) : Action (HandshakeContext P) Unit := do
  let c ← get
  let sessionKey ← liftM (orError c.sessionKey (.invalidState "Session key not derived"))
  liftM (Aether.verifyFinished sessionKey c.transcript frame.payload)
  set { c with state := .complete }

/-! ### What the handlers do -/

@[simp] theorem orError_eq_ok {α : Type} {o : Option α} {e : Error} {a : α} : orError o e = .ok a ↔ o = some a := by
  cases o <;> simp [orError, fail]

theorem proofBytes_eq_ok {bytes : Bytes} {proof : Block 64} : proofBytes bytes = .ok proof ↔ bytes = proof.toList := by
  unfold proofBytes
  constructor
  · intro h
    split at h
    · cases h
      rfl
    · cases h
  · intro h
    subst h
    obtain ⟨bytes, hlen⟩ := proof
    exact dif_pos hlen

/-- A context after its keys are derived. -/
def withKeys (c : HandshakeContext P) (secret : P.Scalar) (peerPublic : Block 32) : HandshakeContext P :=
  { c with
    x25519Secret := none
    sessionKey := some (deriveSessionKey (P.diffieHellman secret peerPublic) c.transcript) }

theorem deriveKeys_eq_ok {c c' : HandshakeContext P} {u : Unit} :
    deriveKeys.exec c = (.ok u, c') ↔ ∃ secret peerPublic, c.x25519Secret = some secret ∧
      c.peerX25519Public = some peerPublic ∧ c' = c.withKeys secret peerPublic := by
  simp only [deriveKeys, exec_get_bind, exec_set_bind, exec_lift_bind_eq_ok, orError_eq_ok, exec_modify]
  constructor
  · intro h
    obtain ⟨secret, hsecret, peerPublic, hpeer, h⟩ := h
    cases h
    exact ⟨secret, peerPublic, hsecret, hpeer, rfl⟩
  · intro h
    obtain ⟨secret, peerPublic, hsecret, hpeer, rfl⟩ := h
    exact ⟨secret, hsecret, peerPublic, hpeer, rfl⟩

theorem exec_deriveKeys {c : HandshakeContext P} {secret : P.Scalar} {peerPublic : Block 32}
    (hsecret : c.x25519Secret = some secret) (hpeer : c.peerX25519Public = some peerPublic) :
    deriveKeys.exec c = (.ok (), c.withKeys secret peerPublic) :=
  deriveKeys_eq_ok.mpr ⟨secret, peerPublic, hsecret, hpeer, rfl⟩

/-- The hello of a client. -/
def clientHelloOf (c : HandshakeContext P) (secret : P.Scalar) (identity : Identity P) (capabilities : Capabilities) :
    ClientHello :=
  ClientHello.new c.ourConnectionId (P.x25519Public secret) identity capabilities

theorem exec_createClientHello (c : HandshakeContext P) (secret : P.Scalar) (identity : Identity P)
    (capabilities : Capabilities) :
    (createClientHello secret identity capabilities).exec c =
      (.ok (Frame.newLong .initial controlStreamId (truncateCid c.ourConnectionId) c.ourConnectionId
          (c.clientHelloOf secret identity capabilities).encode),
        { c with
          x25519Secret := some secret
          peerX25519Public := none
          transcript := c.transcript ++ (clientHelloTag ++ (c.clientHelloOf secret identity capabilities).encode)
          state := .helloSent }) := rfl

/-- A server's transcript when it signs. -/
def greeted (c : HandshakeContext P) (frame : Frame) : Bytes := c.transcript ++ (clientHelloTag ++ frame.payload)

/-- The hello of a server that was offered `hello` in `frame`. -/
def serverHelloOf (c : HandshakeContext P) (connectionId : UInt64) (secret : P.Scalar) (frame : Frame)
    (hello : ClientHello) (identity : Identity P) (capabilities : Capabilities) : ServerHello :=
  ServerHello.new connectionId hello.connectionId (P.x25519Public secret) identity (c.greeted frame)
    (capabilities.negotiate hello.capabilities)

/-- A server's context once its hello is made. -/
def answered (c : HandshakeContext P) (connectionId : UInt64) (secret : P.Scalar) (frame : Frame)
    (hello : ClientHello) (identity : Identity P) (capabilities : Capabilities) : HandshakeContext P :=
  let serverHello := c.serverHelloOf connectionId secret frame hello identity capabilities
  let transcript := c.greeted frame ++ (serverHelloTag ++ serverHello.encode)
  { c with
    state := .keysDerived
    ourConnectionId := connectionId
    peerConnectionId := some hello.connectionId
    x25519Secret := none
    peerX25519Public := some hello.x25519Public
    transcript
    sessionKey := some (deriveSessionKey (P.diffieHellman secret hello.x25519Public) transcript)
    capabilities := some (capabilities.negotiate hello.capabilities)
    peerIdentity := some hello.identity }

theorem handleClientHello_eq_ok {c c' : HandshakeContext P} {connectionId : UInt64} {secret : P.Scalar}
    {frame f : Frame} {identity : Identity P} {capabilities : Capabilities} :
    (handleClientHello connectionId secret frame identity capabilities).exec c = (.ok f, c') ↔
      ∃ hello, ClientHello.decode frame.payload = .ok hello ∧ aetherVersion ∈ hello.supportedVersions ∧
        f = Frame.newLong .initial controlStreamId (truncateCid hello.connectionId) connectionId
          (c.serverHelloOf connectionId secret frame hello identity capabilities).encode ∧
        c' = c.answered connectionId secret frame hello identity capabilities := by
  rw [handleClientHello, exec_lift_bind_eq_ok]
  refine exists_congr fun hello => and_congr_right fun _ => ?_
  by_cases hversion : aetherVersion ∈ hello.supportedVersions
  · rw [if_neg (not_not_intro hversion), exec_modify_bind, exec_get_bind, exec_set_bind,
      exec_bind_ok (exec_deriveKeys rfl rfl), exec_modify_bind, exec_pure]
    constructor
    · intro h
      cases h
      exact ⟨hversion, rfl, rfl⟩
    · intro h
      obtain ⟨_, rfl, rfl⟩ := h
      rfl
  · rw [if_pos hversion, exec_throw]
    constructor
    · intro h
      cases h
    · exact fun h => absurd h.1 hversion

/-- A client's context once it has accepted `hello`. -/
def accepted (c : HandshakeContext P) (secret : P.Scalar) (frame : Frame) (hello : ServerHello) : HandshakeContext P :=
  let transcript := c.transcript ++ (serverHelloTag ++ frame.payload)
  { c with
    state := .keysDerived
    peerConnectionId := some hello.sourceConnectionId
    x25519Secret := none
    peerX25519Public := some hello.x25519Public
    transcript
    sessionKey := some (deriveSessionKey (P.diffieHellman secret hello.x25519Public) transcript)
    capabilities := some hello.capabilities
    peerIdentity := some hello.identity }

theorem handleServerHello_eq_ok {c c' : HandshakeContext P} {frame : Frame} :
    (handleServerHello frame).exec c = (.ok (), c') ↔
      ∃ hello proof secret, ServerHello.decode frame.payload = .ok hello ∧ hello.identityProof = proof.toList ∧
        Identity.verify P hello.identityPublicKey c.transcript proof = .ok () ∧
        c.x25519Secret = some secret ∧ c' = c.accepted secret frame hello := by
  simp only [handleServerHello, exec_lift_bind_eq_ok, exec_modify_bind, exec_get_bind, proofBytes_eq_ok]
  constructor
  · intro h
    obtain ⟨hello, hdecode, proof, hproof, _, hverify, h⟩ := h
    obtain ⟨_, t, hderive, h⟩ := exec_bind_eq_ok.mp (exec_set_bind .. ▸ h)
    obtain ⟨secret, _, hsecret, hpeer, rfl⟩ := deriveKeys_eq_ok.mp hderive
    cases hpeer
    cases h
    exact ⟨hello, proof, secret, hdecode, hproof, hverify, hsecret, rfl⟩
  · intro h
    obtain ⟨hello, proof, secret, hdecode, hproof, hverify, hsecret, rfl⟩ := h
    refine ⟨hello, hdecode, proof, hproof, (), hverify, ?_⟩
    rw [exec_set_bind]
    exact exec_bind_eq_ok.mpr ⟨(), _, exec_deriveKeys hsecret rfl, rfl⟩

/-- The Finished of either side. -/
def finishedOf (c : HandshakeContext P) (sessionKey : P.SessionKey) (peerCid : UInt64) : Frame :=
  Frame.newLong .handshake controlStreamId (truncateCid peerCid) c.ourConnectionId
    (computeFinished sessionKey c.transcript)

theorem finishedFrame_eq_ok {c : HandshakeContext P} {sessionKey : P.SessionKey} {f : Frame} :
    finishedFrame c sessionKey = .ok f ↔
      ∃ peerCid, c.peerConnectionId = some peerCid ∧ f = c.finishedOf sessionKey peerCid := by
  unfold finishedFrame
  cases c.peerConnectionId with
  | none => simp [orError, fail]
  | some peerCid => simp [orError, finishedOf, pure, Except.pure, eq_comm]

theorem createFinished_eq_ok {c : HandshakeContext P} {f : Frame} :
    c.createFinished = .ok f ↔ ∃ sessionKey peerCid, c.sessionKey = some sessionKey ∧
      c.peerConnectionId = some peerCid ∧ f = c.finishedOf sessionKey peerCid := by
  unfold createFinished
  cases c.sessionKey with
  | none => simp [orError, fail]
  | some sessionKey =>
    show finishedFrame c sessionKey = .ok f ↔ _
    simp [finishedFrame_eq_ok]

theorem verifyFinished_eq_ok {c c' : HandshakeContext P} {frame : Frame} :
    (verifyFinished frame).exec c = (.ok (), c') ↔ ∃ sessionKey, c.sessionKey = some sessionKey ∧
      frame.payload = computeFinished sessionKey c.transcript ∧ c' = { c with state := .complete } := by
  simp only [verifyFinished, exec_get_bind, exec_lift_bind_eq_ok, orError_eq_ok, exec_set]
  constructor
  · intro h
    obtain ⟨sessionKey, hkey, _, hmac, h⟩ := h
    cases h
    exact ⟨sessionKey, hkey, Aether.verifyFinished_eq_ok.mp hmac, rfl⟩
  · intro h
    obtain ⟨sessionKey, hkey, hmac, rfl⟩ := h
    exact ⟨sessionKey, hkey, (), Aether.verifyFinished_eq_ok.mpr hmac, rfl⟩

theorem handleFinishedAndRespond_eq_ok {c c' : HandshakeContext P} {frame f : Frame} :
    (handleFinishedAndRespond frame).exec c = (.ok f, c') ↔ ∃ sessionKey peerCid,
      c.sessionKey = some sessionKey ∧ c.peerConnectionId = some peerCid ∧
        frame.payload = computeFinished sessionKey c.transcript ∧ f = c.finishedOf sessionKey peerCid ∧
          c' = { c with state := .complete } := by
  simp only [handleFinishedAndRespond, exec_get_bind, exec_set_bind, exec_lift_bind_eq_ok, orError_eq_ok, exec_lift]
  constructor
  · intro h
    obtain ⟨sessionKey, hkey, _, hmac, h⟩ := h
    obtain ⟨hframe, rfl⟩ := Prod.mk.inj h
    obtain ⟨peerCid, hcid, rfl⟩ := finishedFrame_eq_ok.mp hframe
    exact ⟨sessionKey, peerCid, hkey, hcid, Aether.verifyFinished_eq_ok.mp hmac, rfl, rfl⟩
  · intro h
    obtain ⟨sessionKey, peerCid, hkey, hcid, hmac, rfl, rfl⟩ := h
    refine ⟨sessionKey, hkey, (), Aether.verifyFinished_eq_ok.mpr hmac, ?_⟩
    rw [finishedFrame_eq_ok.mpr ⟨peerCid, hcid, rfl⟩]

/-! ### What a handler that fails leaves -/

theorem deriveKeys_error {c c' : HandshakeContext P} {e : Stop Error} (h : deriveKeys.exec c = (.error e, c')) :
    c' = { c with x25519Secret := none } := by
  rcases c with ⟨_, _, _, secret, peer, _, _, _, _, _⟩
  cases secret with
  | none =>
    cases h
    rfl
  | some =>
    cases peer <;> cases h
    rfl

/-- A rejected hello leaves its connection ID and its keys, but no session key. -/
theorem handleServerHello_error {c c' : HandshakeContext P} {frame : Frame} {e : Stop Error}
    (h : (handleServerHello frame).exec c = (.error e, c')) :
    c'.state = c.state ∧ c'.sessionKey = c.sessionKey ∧ c'.isClient = c.isClient := by
  simp only [handleServerHello, exec_bind_eq_error, exec_lift, exec_get_bind, exec_modify_bind, exec_set_bind,
    Prod.mk.injEq] at h
  rcases h with ⟨_, rfl⟩ | ⟨_, _, ⟨_, rfl⟩, ⟨_, rfl⟩ | ⟨_, _, ⟨_, rfl⟩, ⟨_, rfl⟩ | ⟨_, _, ⟨_, rfl⟩, h⟩⟩⟩
  · exact ⟨rfl, rfl, rfl⟩
  · exact ⟨rfl, rfl, rfl⟩
  · exact ⟨rfl, rfl, rfl⟩
  · rcases h with h | ⟨_, _, _, h⟩
    · rw [deriveKeys_error h]
      exact ⟨rfl, rfl, rfl⟩
    · cases h

theorem verifyFinished_error {c c' : HandshakeContext P} {frame : Frame} {e : Stop Error}
    (h : (verifyFinished frame).exec c = (.error e, c')) : c' = c := by
  simp only [verifyFinished, exec_bind_eq_error, exec_lift, exec_get_bind, Prod.mk.injEq] at h
  rcases h with ⟨_, rfl⟩ | ⟨_, _, ⟨_, rfl⟩, ⟨_, rfl⟩ | ⟨_, _, _, h⟩⟩
  · rfl
  · rfl
  · cases h

/-- A client that knows its peer's connection ID fails before the state moves on. -/
theorem handleFinishedAndRespond_error {c c' : HandshakeContext P} {frame : Frame} {e : Stop Error} {peerCid : UInt64}
    (hcid : c.peerConnectionId = some peerCid)
    (h : (handleFinishedAndRespond frame).exec c = (.error e, c')) : c' = c := by
  simp only [handleFinishedAndRespond, exec_bind_eq_error, exec_lift, exec_get_bind, exec_set_bind, Prod.mk.injEq] at h
  rcases h with ⟨_, rfl⟩ | ⟨sessionKey, _, ⟨_, rfl⟩, ⟨_, rfl⟩ | ⟨_, _, ⟨_, rfl⟩, hframe, _⟩⟩
  · rfl
  · rfl
  · rw [finishedFrame_eq_ok.mpr ⟨peerCid, hcid, rfl⟩] at hframe
    cases hframe

/-- The frame a context makes as its Finished passes as the Finished of its peer. -/
theorem verifyFinished_createFinished {c : HandshakeContext P} {f : Frame} (h : c.createFinished = .ok f) :
    (verifyFinished f).exec c = (.ok (), { c with state := .complete }) := by
  obtain ⟨sessionKey, peerCid, hkey, _, rfl⟩ := createFinished_eq_ok.mp h
  exact verifyFinished_eq_ok.mpr ⟨sessionKey, hkey, rfl, rfl⟩

end HandshakeContext

end

end Aether
