import Aether.Crypto.Transparent
import Aether.Framing.RoundTrip
import Aether.Handshake.Context

/-! A handshake nobody interferes with.

Client and server in turn, every frame through its octets and back. Both ends put
the same transcript together, the client from its own hello and the frame it
receives, the server from the frame it receives and its own hello, so they derive
the same key and accept each other's Finished. -/
namespace Aether
open Octets Octets.Method

section
variable {P : Primitives}

/-- A method call, with the state it leaves. -/
def call {σ α : Type} (m : Action σ α) (s : σ) : Result (α × σ) := do
  let a ← (m.exec s).1
  return (a, (m.exec s).2)

theorem call_eq_ok {σ α : Type} {m : Action σ α} {s t : σ} {a : α} (h : m.exec s = (.ok a, t)) :
    call m s = .ok (a, t) := by
  rw [call, h]
  rfl

variable (P) in
/-- What one side brings to a handshake, the random draws included. -/
structure Party where
  identity : Identity P
  capabilities : Capabilities
  connectionId : UInt64
  secret : P.Scalar

/-- A frame sent and received. -/
def onWire (f : Frame) : Result Frame := Frame.decode f.encode

namespace HandshakeContext

/-- The handshake, from `create_client_hello` to `verify_finished`. -/
def honestHandshake (client server : Party P) : Result (HandshakeContext P × HandshakeContext P) := do
  let clientHello ← call (createClientHello client.secret client.identity client.capabilities)
    (newClient client.connectionId)
  let serverHello ← call (handleClientHello server.connectionId server.secret (← onWire clientHello.1)
    server.identity server.capabilities) newServer
  let keys ← call (handleServerHello (← onWire serverHello.1)) clientHello.2
  let serverFinished ← createFinished serverHello.2
  let clientFinished ← call (handleFinishedAndRespond (← onWire serverFinished)) keys.2
  let confirmed ← call (verifyFinished (← onWire clientFinished.1)) serverHello.2
  return (clientFinished.2, confirmed.2)

/-! ### What each step leaves -/

section Steps
variable (client server : Party P)

def helloOfClient : ClientHello :=
  ClientHello.new client.connectionId (P.x25519Public client.secret) client.identity client.capabilities

def clientHelloFrame : Frame :=
  Frame.newLong .initial controlStreamId (truncateCid client.connectionId) client.connectionId
    (helloOfClient client).encode

/-- The transcript the server signs. -/
def signedTranscript : Bytes := clientHelloTag ++ (helloOfClient client).encode

def helloOfServer : ServerHello :=
  ServerHello.new server.connectionId client.connectionId (P.x25519Public server.secret) server.identity
    (signedTranscript client) (server.capabilities.negotiate client.capabilities)

def serverHelloFrame : Frame :=
  Frame.newLong .initial controlStreamId (truncateCid client.connectionId) server.connectionId
    (helloOfServer client server).encode

def fullTranscript : Bytes :=
  signedTranscript client ++ (serverHelloTag ++ (helloOfServer client server).encode)

/-- The key, as the server computes it. -/
def sharedKey : P.SessionKey :=
  deriveSessionKey (P.diffieHellman server.secret (P.x25519Public client.secret)) (fullTranscript client server)

def clientContext (state : HandshakeState) : HandshakeContext P :=
  { state
    ourConnectionId := client.connectionId
    peerConnectionId := some server.connectionId
    x25519Secret := none
    peerX25519Public := some (P.x25519Public server.secret)
    transcript := fullTranscript client server
    sessionKey := some (sharedKey client server)
    capabilities := some (server.capabilities.negotiate client.capabilities)
    peerIdentity := some server.identity.hash
    isClient := true }

def serverContext (state : HandshakeState) : HandshakeContext P :=
  { state
    ourConnectionId := server.connectionId
    peerConnectionId := some client.connectionId
    x25519Secret := none
    peerX25519Public := some (P.x25519Public client.secret)
    transcript := fullTranscript client server
    sessionKey := some (sharedKey client server)
    capabilities := some (server.capabilities.negotiate client.capabilities)
    peerIdentity := some client.identity.hash
    isClient := false }

/-- The client while it waits for the server's hello. -/
def greetingContext : HandshakeContext P :=
  { newClient client.connectionId with
    x25519Secret := some client.secret
    transcript := signedTranscript client
    state := .helloSent }

theorem exec_createClientHello_honest :
    (createClientHello client.secret client.identity client.capabilities).exec (newClient client.connectionId) =
      (.ok (clientHelloFrame client), greetingContext client) := rfl

theorem onWire_clientHello : onWire (clientHelloFrame client) = .ok (clientHelloFrame client) := by
  refine Frame.decode_encode_self _ (Frame.newLong_wellFormed rfl (by decide) _ _ ?_)
  rw [ClientHello.encode_length]
  show 129 + 1 < 2 ^ 32
  decide

theorem helloOfClient_decodes : ClientHello.decode (clientHelloFrame client).payload = .ok (helloOfClient client) :=
  ClientHello.decode_encode_self (helloOfClient client) (by show 1 < 256; decide)

theorem exec_handleClientHello_honest :
    (handleClientHello server.connectionId server.secret (clientHelloFrame client) server.identity
        server.capabilities).exec newServer =
      (.ok (serverHelloFrame client server), serverContext client server .keysDerived) :=
  handleClientHello_eq_ok.mpr ⟨_, helloOfClient_decodes client, List.mem_singleton_self _, rfl, rfl⟩

theorem helloOfServer_signed : (helloOfServer client server).identityProof.length = 64 :=
  List.Vector.toList_length _

theorem helloOfServer_decodes :
    ServerHello.decode (serverHelloFrame client server).payload = .ok (helloOfServer client server) :=
  ServerHello.decode_encode_signed (helloOfServer_signed client server)

theorem onWire_serverHello : onWire (serverHelloFrame client server) = .ok (serverHelloFrame client server) := by
  refine Frame.decode_encode_self _ (Frame.newLong_wellFormed rfl (by decide) _ _ ?_)
  rw [ServerHello.encode_length_signed (helloOfServer_signed client server)]
  decide

/-- The client gets to the same key from its own secret. -/
theorem exec_handleServerHello_honest (hdh : P.AgreesOnSecrets) (hsig : P.VerifiesSignatures) :
    (handleServerHello (serverHelloFrame client server)).exec (greetingContext client) =
      (.ok (), clientContext client server .keysDerived) := by
  have hdecode := helloOfServer_decodes client server
  have hverify := Identity.verify_sign hsig server.identity (signedTranscript client)
  refine handleServerHello_eq_ok.mpr ⟨_, _, client.secret, hdecode, rfl, hverify, rfl, ?_⟩
  rw [clientContext, sharedKey, hdh.comm]
  rfl

def serverFinishedFrame : Frame :=
  (serverContext client server .keysDerived).finishedOf (sharedKey client server) client.connectionId

def clientFinishedFrame : Frame :=
  (clientContext client server .keysDerived).finishedOf (sharedKey client server) server.connectionId

theorem createFinished_honest :
    createFinished (serverContext client server .keysDerived) = .ok (serverFinishedFrame client server) :=
  createFinished_eq_ok.mpr ⟨_, _, rfl, rfl, rfl⟩

theorem onWire_finishedOf (hmac : P.MacLength) (c : HandshakeContext P) (sessionKey : P.SessionKey) (peerCid : UInt64) :
    onWire (c.finishedOf sessionKey peerCid) = .ok (c.finishedOf sessionKey peerCid) := by
  refine Frame.decode_encode_self _ (Frame.newLong_wellFormed rfl (by decide) _ _ ?_)
  rw [computeFinished, hmac.length]
  decide

theorem exec_handleFinishedAndRespond_honest :
    (handleFinishedAndRespond (serverFinishedFrame client server)).exec (clientContext client server .keysDerived) =
      (.ok (clientFinishedFrame client server), clientContext client server .complete) :=
  handleFinishedAndRespond_eq_ok.mpr ⟨_, _, rfl, rfl, rfl, rfl, rfl⟩

theorem exec_verifyFinished_honest :
    (verifyFinished (clientFinishedFrame client server)).exec (serverContext client server .keysDerived) =
      (.ok (), serverContext client server .complete) :=
  verifyFinished_eq_ok.mpr ⟨_, rfl, rfl, rfl⟩

theorem onWire_serverFinished (hmac : P.MacLength) :
    onWire (serverFinishedFrame client server) = .ok (serverFinishedFrame client server) :=
  onWire_finishedOf hmac _ _ _

theorem onWire_clientFinished (hmac : P.MacLength) :
    onWire (clientFinishedFrame client server) = .ok (clientFinishedFrame client server) :=
  onWire_finishedOf hmac _ _ _

/-- Every step succeeds, and these are the contexts it ends with. -/
theorem honestHandshake_eq (hdh : P.AgreesOnSecrets) (hsig : P.VerifiesSignatures) (hmac : P.MacLength) :
    honestHandshake client server =
      .ok (clientContext client server .complete, serverContext client server .complete) := by
  rw [honestHandshake, call_eq_ok (exec_createClientHello_honest client), ok_bind, onWire_clientHello, ok_bind,
    call_eq_ok (exec_handleClientHello_honest client server), ok_bind, onWire_serverHello, ok_bind,
    call_eq_ok (exec_handleServerHello_honest client server hdh hsig), ok_bind, createFinished_honest, ok_bind,
    onWire_serverFinished client server hmac, ok_bind,
    call_eq_ok (exec_handleFinishedAndRespond_honest client server), ok_bind,
    onWire_clientFinished client server hmac, ok_bind,
    call_eq_ok (exec_verifyFinished_honest client server), ok_bind]
  rfl

end Steps

/-! ### Agreement -/

/-- What the two ends of a handshake hold when it is done. -/
structure Agreement (client server : Party P) (c s : HandshakeContext P) : Prop where
  clientState : c.state = .complete
  serverState : s.state = .complete
  transcript : c.transcript = s.transcript
  sessionKey : ∃ key, c.sessionKey = some key ∧ s.sessionKey = some key
  capabilities : ∃ negotiated, c.capabilities = some negotiated ∧ s.capabilities = some negotiated ∧
    negotiated.multipath = (server.capabilities.multipath && client.capabilities.multipath) ∧
    negotiated.maxStreams = min server.capabilities.maxStreams client.capabilities.maxStreams ∧
    negotiated.maxStreamData = min server.capabilities.maxStreamData client.capabilities.maxStreamData ∧
    negotiated.idleTimeoutMs = min server.capabilities.idleTimeoutMs client.capabilities.idleTimeoutMs
  clientCid : c.ourConnectionId = client.connectionId ∧ s.peerConnectionId = some client.connectionId
  serverCid : s.ourConnectionId = server.connectionId ∧ c.peerConnectionId = some server.connectionId
  clientIdentity : s.peerIdentity = some client.identity.hash
  serverIdentity : c.peerIdentity = some server.identity.hash
  /-- What one side sends under, the other receives under. -/
  keys : ∀ clientKey serverKey algorithm, c.sessionKey = some clientKey → s.sessionKey = some serverKey →
    (AeadSession.new clientKey algorithm).txKeys c.isClient = (AeadSession.new serverKey algorithm).rxKeys s.isClient ∧
    (AeadSession.new serverKey algorithm).txKeys s.isClient = (AeadSession.new clientKey algorithm).rxKeys c.isClient

theorem agreement_honest (client server : Party P) :
    Agreement client server (clientContext client server .complete) (serverContext client server .complete) where
  clientState := rfl
  serverState := rfl
  transcript := rfl
  sessionKey := ⟨_, rfl, rfl⟩
  capabilities := ⟨_, rfl, rfl, rfl, rfl, rfl, rfl⟩
  clientCid := ⟨rfl, rfl⟩
  serverCid := ⟨rfl, rfl⟩
  clientIdentity := rfl
  serverIdentity := rfl
  keys := by
    intro clientKey serverKey algorithm hclient hserver
    cases hclient
    cases hserver
    exact ⟨rfl, rfl⟩

/-- **An honest handshake completes and agrees**, whoever the parties are and
whatever they offer and draw. -/
theorem honest_handshake_agrees (hdh : P.AgreesOnSecrets) (hsig : P.VerifiesSignatures) (hmac : P.MacLength)
    (client server : Party P) :
    ∃ c s, honestHandshake client server = .ok (c, s) ∧ Agreement client server c s :=
  ⟨_, _, honestHandshake_eq client server hdh hsig hmac, agreement_honest client server⟩

/-- A party with everything drawn from one octet. -/
def sampleParty {hmac : Transparent.Key → Bytes → Bytes} (seed : UInt8) : Party (Transparent.primitives hmac) :=
  ⟨Identity.ofSigningKey (P := Transparent.primitives hmac) seed, Capabilities.default, seed.toUInt64 <<< 32, seed⟩

theorem honest_handshake_agrees_sample :
    ∃ c s : HandshakeContext Transparent.fixedMacs,
      honestHandshake (sampleParty 1) (sampleParty 2) = .ok (c, s) ∧
        Agreement (sampleParty 1) (sampleParty 2) c s :=
  honest_handshake_agrees (Transparent.agreesOnSecrets _) (Transparent.verifiesSignatures _)
    Transparent.fixedMacs_macLength (sampleParty 1) (sampleParty 2)

/-- A client and a server whose MACs have the length they have. -/
def fixedClient : Party Transparent.fixedMacs := sampleParty 1

def fixedServer : Party Transparent.fixedMacs := sampleParty 2

end HandshakeContext

end

end Aether
