import Aether.Connection.Connection
import Aether.Handshake.Honest

/-! Two connections out of one handshake.

`connect` and `accept` are taken apart statement by statement, for whatever they
are sent. Where each is sent what the other sends (`HonestPair`), the contexts are
those of the honest handshake, so both ends have the same session. -/
namespace Aether
open Octets Octets.Method

section
variable {P : Primitives}

namespace Connection

/-! ### Statement by statement -/

theorem exec_onSocket_send_bind_eq_ok {α : Type} {c u : Connection P} {datagram : Bytes}
    {f : Unit → Action (Connection P) α} {a : α} :
    (onSocket (Socket.send datagram) >>= f).exec c = (.ok a, u) ↔
      c.socket.refuses c.socket.attempts = none ∧
        (f ()).exec { c with socket := c.socket.taking datagram } = (.ok a, u) := by
  rw [onSocket, exec_focus_bind_eq_ok]
  constructor
  · intro h
    obtain ⟨_, s, hsend, hrest⟩ := h
    obtain ⟨hrefuses, rfl⟩ := Socket.exec_send_eq_ok.mp hsend
    exact ⟨hrefuses, hrest⟩
  · intro h
    exact ⟨(), _, Socket.exec_send_eq_ok.mpr ⟨h.1, rfl⟩, h.2⟩

theorem exec_onHandshake_bind_eq_ok {α β : Type} {c u : Connection P} {m : Action (HandshakeContext P) α}
    {f : α → Action (Connection P) β} {b : β} :
    (onHandshake m >>= f).exec c = (.ok b, u) ↔
      ∃ hs a hs', c.handshake = some hs ∧ m.exec hs = (.ok a, hs') ∧
        (f a).exec { c with handshake := some hs' } = (.ok b, u) := by
  rw [onHandshake, bind_assoc, exec_get_bind, bind_assoc, exec_lift_bind_eq_ok]
  constructor
  · intro h
    obtain ⟨hs, hhs, hrest⟩ := h
    obtain ⟨a, hs', hm, hrest⟩ := exec_focus_bind_eq_ok.mp hrest
    exact ⟨hs, a, hs', unwrap_eq_ok.mp hhs, hm, hrest⟩
  · intro h
    obtain ⟨hs, a, hs', hhs, hm, hrest⟩ := h
    exact ⟨hs, unwrap_eq_ok.mpr hhs, exec_focus_bind_eq_ok.mpr ⟨a, hs', hm, hrest⟩⟩

theorem performClientHandshake_eq_ok {c c' : Connection P} {identity : Identity P} {secret : P.Scalar}
    {serverHello serverFinished : Except String Bytes} {u : Unit} :
    (performClientHandshake identity secret serverHello serverFinished).exec c = (.ok u, c') ↔
      ∃ hs ch hs₁ sh hs₂ sf cf hs₃ sessionKey peerConnectionId,
        c.handshake = some hs ∧
        (HandshakeContext.createClientHello secret identity c.config.capabilities).exec hs = (.ok ch, hs₁) ∧
        c.socket.refuses c.socket.attempts = none ∧
        frameReceived serverHello = .ok sh ∧ (HandshakeContext.handleServerHello sh).exec hs₁ = (.ok (), hs₂) ∧
        frameReceived serverFinished = .ok sf ∧
        (HandshakeContext.handleFinishedAndRespond sf).exec hs₂ = (.ok cf, hs₃) ∧
        c.socket.refuses (c.socket.attempts + 1) = none ∧
        hs₃.sessionKey = some sessionKey ∧ hs₃.peerConnectionId = some peerConnectionId ∧
        c' = { c with
          socket := (c.socket.taking ch.encode).taking cf.encode
          handshake := some hs₃
          aead := some (AeadSession.new sessionKey .aes256Gcm)
          peerConnectionId := some (truncateCid peerConnectionId) } := by
  rw [performClientHandshake, exec_get_bind]
  simp only [exec_onHandshake_bind_eq_ok, exec_onSocket_send_bind_eq_ok, exec_lift_bind_eq_ok, unwrap_eq_ok,
    exec_get_bind, exec_set, Option.some.injEq, exists_eq_left']
  constructor
  · intro h
    obtain ⟨hs, ch, hs₁, hhs, hch, hsend, sh, hsh, _, _, hs₂, rfl, hkeys, sf, hsf, _, cf, hs₃, rfl, hcf, hsend',
      sessionKey, hkey, peerConnectionId, hpeer, h⟩ := h
    cases h
    exact ⟨hs, ch, hs₁, sh, hs₂, sf, cf, hs₃, sessionKey, peerConnectionId, hhs, hch, hsend, hsh, hkeys, hsf, hcf, hsend',
      hkey, hpeer, rfl⟩
  · intro h
    obtain ⟨hs, ch, hs₁, sh, hs₂, sf, cf, hs₃, sessionKey, peerConnectionId, hhs, hch, hsend, hsh, hkeys, hsf, hcf, hsend',
      hkey, hpeer, rfl⟩ := h
    exact ⟨hs, ch, hs₁, hhs, hch, hsend, sh, hsh, _, (), hs₂, rfl, hkeys, sf, hsf, _, cf, hs₃, rfl, hcf, hsend',
      sessionKey, hkey, peerConnectionId, hpeer, rfl⟩

/-- What `connect` makes of a context that has finished. -/
def connected (socket : Socket) (config : Config) (connectionId : UInt64) (hs : HandshakeContext P)
    (sessionKey : P.SessionKey) (peerConnectionId : UInt64) : Connection P :=
  { (newClient socket config connectionId : Connection P) with
    state := .active
    handshake := some hs
    aead := some (AeadSession.new sessionKey .aes256Gcm)
    peerConnectionId := some (truncateCid peerConnectionId) }

theorem connect_eq_ok {socket : Socket} {config : Config} {identity : Identity P} {connectionId : UInt64}
    {secret : P.Scalar} {serverHello serverFinished : Except String Bytes} {c : Connection P} :
    connect socket config identity connectionId secret serverHello serverFinished = .ok c ↔
      ∃ ch hs₁ sh hs₂ sf cf hs₃ sessionKey peerConnectionId,
        (HandshakeContext.createClientHello secret identity config.capabilities).exec
          (HandshakeContext.newClient connectionId) = (.ok ch, hs₁) ∧
        socket.refuses socket.attempts = none ∧
        frameReceived serverHello = .ok sh ∧ (HandshakeContext.handleServerHello sh).exec hs₁ = (.ok (), hs₂) ∧
        frameReceived serverFinished = .ok sf ∧
        (HandshakeContext.handleFinishedAndRespond sf).exec hs₂ = (.ok cf, hs₃) ∧
        socket.refuses (socket.attempts + 1) = none ∧
        hs₃.sessionKey = some sessionKey ∧ hs₃.peerConnectionId = some peerConnectionId ∧
        c = connected ((socket.taking ch.encode).taking cf.encode) config connectionId hs₃ sessionKey
          peerConnectionId := by
  constructor
  · intro h
    rw [connect] at h
    rcases hexec : (performClientHandshake identity secret serverHello serverFinished).exec
      (newClient socket config connectionId) with ⟨r, c'⟩
    rw [hexec] at h
    cases r with
    | error e => cases h
    | ok u =>
      obtain ⟨hs, ch, hs₁, sh, hs₂, sf, cf, hs₃, sessionKey, peerConnectionId, hhs, hch, hsend, hsh, hkeys, hsf, hcf,
        hsend', hkey, hpeer, rfl⟩ := performClientHandshake_eq_ok.mp hexec
      cases hhs
      cases h
      exact ⟨ch, hs₁, sh, hs₂, sf, cf, hs₃, sessionKey, peerConnectionId, hch, hsend, hsh, hkeys, hsf, hcf, hsend', hkey,
        hpeer, rfl⟩
  · intro h
    obtain ⟨ch, hs₁, sh, hs₂, sf, cf, hs₃, sessionKey, peerConnectionId, hch, hsend, hsh, hkeys, hsf, hcf, hsend', hkey,
      hpeer, rfl⟩ := h
    have hexec := (performClientHandshake_eq_ok (c := newClient socket config connectionId) (u := ())).mpr
      ⟨_, ch, hs₁, sh, hs₂, sf, cf, hs₃, sessionKey, peerConnectionId, rfl, hch, hsend, hsh, hkeys, hsf, hcf, hsend', hkey,
        hpeer, rfl⟩
    rw [connect, hexec]
    rfl

/-- What `accept` makes of a context that has finished. -/
def accepted (socket : Socket) (config : Config) (hs : HandshakeContext P) (sessionKey : P.SessionKey)
    (peerConnectionId : UInt64) : Connection P :=
  { socket
    ourConnectionId := truncateCid hs.ourConnectionId
    peerConnectionId := some (truncateCid peerConnectionId)
    state := .active
    handshake := some hs
    aead := some (AeadSession.new sessionKey .aes256Gcm)
    streams := StreamManager.init false config.capabilities.maxStreams config.capabilities.maxStreamData
      connectionWindow
    config
    stats := ConnectionStats.default
    isClient := false
    txPacketNumber := 0
    incomingFrames := [] }

theorem exec_send_bind_eq_ok {α : Type} {s u : Socket} {datagram : Bytes} {f : Unit → Action Socket α} {a : α} :
    (Socket.send datagram >>= f).exec s = (.ok a, u) ↔
      s.refuses s.attempts = none ∧ (f ()).exec (s.taking datagram) = (.ok a, u) := by
  rw [exec_bind_eq_ok]
  constructor
  · intro h
    obtain ⟨_, t, hsend, hrest⟩ := h
    obtain ⟨hrefuses, rfl⟩ := Socket.exec_send_eq_ok.mp hsend
    exact ⟨hrefuses, hrest⟩
  · intro h
    exact ⟨(), _, Socket.exec_send_eq_ok.mpr ⟨h.1, rfl⟩, h.2⟩

theorem accept_eq_ok {socket left : Socket} {config : Config} {identity : Identity P} {connectionId : UInt64}
    {secret : P.Scalar} {clientHello clientFinished : Except String Bytes} {c : Connection P} :
    (accept config identity connectionId secret clientHello clientFinished).exec socket = (.ok c, left) ↔
      ∃ ch sh hs₁ sf cf hs₂ sessionKey peerConnectionId,
        frameReceived clientHello = .ok ch ∧ ch.header.frameType = .initial ∧
        (HandshakeContext.handleClientHello connectionId secret ch identity config.capabilities).exec
          HandshakeContext.newServer = (.ok sh, hs₁) ∧
        socket.refuses socket.attempts = none ∧ hs₁.createFinished = .ok sf ∧
        socket.refuses (socket.attempts + 1) = none ∧
        frameReceived clientFinished = .ok cf ∧ (HandshakeContext.verifyFinished cf).exec hs₁ = (.ok (), hs₂) ∧
        hs₂.sessionKey = some sessionKey ∧ hs₂.peerConnectionId = some peerConnectionId ∧
        left = (socket.taking sh.encode).taking sf.encode ∧
        c = accepted left config hs₂ sessionKey peerConnectionId := by
  rw [accept, exec_lift_bind_eq_ok]
  constructor
  · intro h
    obtain ⟨ch, hch, h⟩ := h
    by_cases htype : ch.header.frameType = .initial
    · rw [if_neg (not_not_intro htype)] at h
      simp only [exec_lift_bind_eq_ok, exec_send_bind_eq_ok, unwrap_eq_ok, exec_get_bind, exec_pure] at h
      obtain ⟨sh, hsh, hsend, sf, hsf, hsend', cf, hcf, _, hverify, sessionKey, hkey, peerConnectionId, hpeer, h⟩ := h
      cases h
      exact ⟨ch, sh, _, sf, cf, _, sessionKey, peerConnectionId, hch, htype, Prod.ext hsh rfl, hsend, hsf, hsend', hcf,
        Prod.ext hverify rfl, hkey, hpeer, rfl, rfl⟩
    · rw [if_pos htype, exec_throw] at h
      cases h
  · intro h
    obtain ⟨ch, sh, hs₁, sf, cf, hs₂, sessionKey, peerConnectionId, hch, htype, hsh, hsend, hsf, hsend', hcf, hverify, hkey,
      hpeer, rfl, rfl⟩ := h
    refine ⟨ch, hch, ?_⟩
    rw [if_neg (not_not_intro htype)]
    simp only [exec_lift_bind_eq_ok, exec_send_bind_eq_ok, unwrap_eq_ok, exec_get_bind, exec_pure, hsh]
    refine ⟨sh, rfl, hsend, sf, hsf, hsend', cf, hcf, (), ?_⟩
    rw [hverify]
    exact ⟨rfl, sessionKey, hkey, peerConnectionId, hpeer, rfl⟩

/-! ### What set-up returns -/

/-- A connection that one of the two functions has returned. -/
inductive Returned (c : Connection P) : Prop where
  | connect {socket : Socket} {config : Config} {identity : Identity P} {connectionId : UInt64} {secret : P.Scalar}
      {serverHello serverFinished : Except String Bytes}
      (connects : connect socket config identity connectionId secret serverHello serverFinished = .ok c)
  | accept {socket left : Socket} {config : Config} {identity : Identity P} {connectionId : UInt64} {secret : P.Scalar}
      {clientHello clientFinished : Except String Bytes}
      (accepts : (accept config identity connectionId secret clientHello clientFinished).exec socket = (.ok c, left))

/-- One end of a session, before it has sent anything. -/
structure Ready (isClient : Bool) (connectionId : UInt64) (session : AeadSession P) (c : Connection P) : Prop where
  isClient : c.isClient = isClient
  ourConnectionId : c.ourConnectionId = truncateCid connectionId
  aead : c.aead = some session
  state : c.state = .active
  txPacketNumber : c.txPacketNumber = 0
  incomingFrames : c.incomingFrames = []

theorem Returned.ready {c : Connection P} (h : c.Returned) :
    ∃ isClient connectionId session, Ready isClient connectionId session c := by
  cases h with
  | connect connects =>
    obtain ⟨_, _, _, _, _, _, _, _, _, _, _, _, _, _, _, _, _, _, rfl⟩ := connect_eq_ok.mp connects
    exact ⟨true, _, _, rfl, rfl, rfl, rfl, rfl, rfl⟩
  | accept accepts =>
    obtain ⟨_, _, _, _, _, _, _, _, _, _, _, _, _, _, _, _, _, _, _, rfl⟩ := accept_eq_ok.mp accepts
    exact ⟨false, _, _, rfl, rfl, rfl, rfl, rfl, rfl⟩

/-- A connection from `connect` and one from `accept`, each of which received what
the other sent. -/
inductive HonestPair (clientId serverId : UInt64) (c s : Connection P) : Prop where
  | intro {clientSocket serverSocket left : Socket} {clientConfig serverConfig : Config}
      {clientIdentity serverIdentity : Identity P} {clientSecret serverSecret : P.Scalar}
      {clientHello serverHello serverFinished clientFinished : Bytes}
      (connects : connect clientSocket clientConfig clientIdentity clientId clientSecret (.ok serverHello)
        (.ok serverFinished) = .ok c)
      (accepts : (accept serverConfig serverIdentity serverId serverSecret (.ok clientHello) (.ok clientFinished)).exec
        serverSocket = (.ok s, left))
      (clientSent : c.socket.sent = clientSocket.sent ++ [clientHello, clientFinished])
      (serverSent : s.socket.sent = serverSocket.sent ++ [serverHello, serverFinished])

theorem HonestPair.returned {clientId serverId : UInt64} {c s : Connection P} (h : HonestPair clientId serverId c s) :
    c.Returned ∧ s.Returned := by
  cases h with
  | intro connects accepts => exact ⟨.connect connects, .accept accepts⟩

/-! ### Both ends of an honest handshake -/

section Honest
open HandshakeContext

/-- A frame that survives the wire survives a buffer it fits. -/
theorem frameReceived_encode {f : Frame} (hwire : onWire f = .ok f) (hsize : f.encode.length ≤ maxPacketSize) :
    frameReceived (.ok f.encode) = .ok f := by
  have htake : f.encode.take maxPacketSize = f.encode := List.take_of_length_le hsize
  show Frame.decode (f.encode.take maxPacketSize) = .ok f
  rw [htake]
  exact hwire

theorem clientHello_received (client : Party P) :
    frameReceived (.ok (clientHelloFrame client).encode) = .ok (clientHelloFrame client) := by
  refine frameReceived_encode (onWire_clientHello client) ?_
  rw [clientHelloFrame, Frame.newLong_encode_length, ClientHello.encode_length]
  show 24 + (129 + 1) ≤ 1400
  decide

theorem serverHello_received (client server : Party P) :
    frameReceived (.ok (serverHelloFrame client server).encode) = .ok (serverHelloFrame client server) := by
  refine frameReceived_encode (onWire_serverHello client server) ?_
  rw [serverHelloFrame, Frame.newLong_encode_length,
    ServerHello.encode_length_signed (helloOfServer_signed client server)]
  decide

theorem finished_received (hmac : P.MacLength) (c : HandshakeContext P) (key : P.SessionKey) (peerCid : UInt64) :
    frameReceived (.ok (c.finishedOf key peerCid).encode) = .ok (c.finishedOf key peerCid) := by
  refine frameReceived_encode (onWire_finishedOf hmac c key peerCid) ?_
  rw [finishedOf, Frame.newLong_encode_length, computeFinished, hmac.length]
  decide

/-- The two ends of an honest handshake, as `connect` and `accept` return them. -/
def clientOf (client server : Party P) (socket : Socket) (config : Config) : Connection P :=
  connected ((socket.taking (clientHelloFrame client).encode).taking (clientFinishedFrame client server).encode) config
    client.connectionId (clientContext client server .complete) (sharedKey client server) server.connectionId

def serverOf (client server : Party P) (socket : Socket) (config : Config) : Connection P :=
  accepted ((socket.taking (serverHelloFrame client server).encode).taking (serverFinishedFrame client server).encode)
    config (serverContext client server .complete) (sharedKey client server) client.connectionId

theorem connect_honest (hdh : P.AgreesOnSecrets) (hsig : P.VerifiesSignatures) (hmac : P.MacLength)
    (client server : Party P) {socket : Socket} (hopen : ∀ n, socket.refuses n = none) {config : Config}
    (hconfig : config.capabilities = client.capabilities) :
    connect socket config client.identity client.connectionId client.secret
        (.ok (serverHelloFrame client server).encode) (.ok (serverFinishedFrame client server).encode) =
      .ok (clientOf client server socket config) := by
  refine connect_eq_ok.mpr ⟨clientHelloFrame client, greetingContext client, serverHelloFrame client server,
    clientContext client server .keysDerived, serverFinishedFrame client server, clientFinishedFrame client server,
    clientContext client server .complete, _, _, ?_, hopen _, serverHello_received client server,
    exec_handleServerHello_honest client server hdh hsig, finished_received hmac _ _ _,
    exec_handleFinishedAndRespond_honest client server, hopen _, rfl, rfl, rfl⟩
  rw [hconfig]
  exact exec_createClientHello_honest client

theorem accept_honest (hmac : P.MacLength) (client server : Party P) {socket : Socket}
    (hopen : ∀ n, socket.refuses n = none) {config : Config} (hconfig : config.capabilities = server.capabilities) :
    (accept config server.identity server.connectionId server.secret (.ok (clientHelloFrame client).encode)
        (.ok (clientFinishedFrame client server).encode)).exec socket =
      (.ok (serverOf client server socket config), (serverOf client server socket config).socket) := by
  refine accept_eq_ok.mpr ⟨clientHelloFrame client, serverHelloFrame client server,
    serverContext client server .keysDerived, serverFinishedFrame client server, clientFinishedFrame client server,
    serverContext client server .complete, _, _, clientHello_received client, rfl, ?_, hopen _,
    createFinished_honest client server, hopen _, finished_received hmac _ _ _,
    exec_verifyFinished_honest client server, rfl, rfl, rfl, rfl⟩
  rw [hconfig]
  exact exec_handleClientHello_honest client server

/-- Whoever the parties are, they can set up a pair of connections. -/
theorem honestPair (hdh : P.AgreesOnSecrets) (hsig : P.VerifiesSignatures) (hmac : P.MacLength)
    (client server : Party P) {socket : Socket} (hopen : ∀ n, socket.refuses n = none) {clientConfig serverConfig : Config}
    (hclient : clientConfig.capabilities = client.capabilities)
    (hserver : serverConfig.capabilities = server.capabilities) :
    HonestPair client.connectionId server.connectionId (clientOf client server socket clientConfig)
      (serverOf client server socket serverConfig) :=
  .intro (connect_honest hdh hsig hmac client server hopen hclient) (accept_honest hmac client server hopen hserver)
    (List.append_assoc ..) (List.append_assoc ..)

/-- A socket that takes everything. -/
def openSocket : Socket := ⟨fun _ => none, 0, []⟩

def sampleConfig : Config := ⟨Capabilities.default, 65536⟩

def sampleClient : Connection Transparent.fixedMacs :=
  clientOf (sampleParty 1) (sampleParty 2) openSocket sampleConfig

def sampleServer : Connection Transparent.fixedMacs :=
  serverOf (sampleParty 1) (sampleParty 2) openSocket sampleConfig

theorem honestPair_sample : HonestPair 0x100000000 0x200000000 sampleClient sampleServer :=
  honestPair (Transparent.agreesOnSecrets _) (Transparent.verifiesSignatures _) Transparent.fixedMacs_macLength
    (sampleParty 1) (sampleParty 2) (fun _ => rfl) rfl rfl

/-- **The ends of an honest pair are those of an honest handshake**, and each offered
what its configuration says. -/
theorem HonestPair.ends (hdh : P.AgreesOnSecrets) (hsig : P.VerifiesSignatures) (hmac : P.MacLength)
    {clientId serverId : UInt64} {c s : Connection P} (h : HonestPair clientId serverId c s) :
    ∃ (client server : Party P) (clientSocket serverSocket : Socket),
      client.connectionId = clientId ∧ server.connectionId = serverId ∧
      client.capabilities = c.config.capabilities ∧ server.capabilities = s.config.capabilities ∧
      c = clientOf client server clientSocket c.config ∧ s = serverOf client server serverSocket s.config := by
  cases h with
  | @intro clientSocket serverSocket left clientConfig serverConfig clientIdentity serverIdentity clientSecret
      serverSecret clientHello serverHello serverFinished clientFinished connects accepts clientSent serverSent =>
    let client : Party P := ⟨clientIdentity, clientConfig.capabilities, clientId, clientSecret⟩
    let server : Party P := ⟨serverIdentity, serverConfig.capabilities, serverId, serverSecret⟩
    obtain ⟨ch, hs₁, sh, hs₂, sf, cf, hs₃, key, cid, hch, _, hsh, hkeys, hsf, hcf, _, hkey, hcid, rfl⟩ :=
      connect_eq_ok.mp connects
    obtain ⟨ch', sh', hs₁', sf', cf', hs₂', key', cid', hch', _, hsh', _, hsf', _, hcf', hverify, hkey', hcid', rfl, rfl⟩ :=
      accept_eq_ok.mp accepts
    -- The client's hello is the same whatever happens later; the rest follows in the order of the handshake.
    cases (exec_createClientHello_honest client).symm.trans hch
    obtain ⟨rfl, rfl⟩ : (clientHelloFrame client).encode = clientHello ∧ cf.encode = clientFinished := by
      simpa [connected, newClient, Socket.taking] using clientSent
    cases (clientHello_received client).symm.trans hch'
    cases (exec_handleClientHello_honest client server).symm.trans hsh'
    cases (createFinished_honest client server).symm.trans hsf'
    obtain ⟨rfl, rfl⟩ : (serverHelloFrame client server).encode = serverHello ∧
        (serverFinishedFrame client server).encode = serverFinished := by
      simpa [accepted, Socket.taking] using serverSent
    cases (serverHello_received client server).symm.trans hsh
    cases (exec_handleServerHello_honest client server hdh hsig).symm.trans hkeys
    cases (finished_received hmac _ _ _ : frameReceived (.ok (serverFinishedFrame client server).encode) = _).symm.trans hsf
    cases (exec_handleFinishedAndRespond_honest client server).symm.trans hcf
    cases (finished_received hmac _ _ _ : frameReceived (.ok (clientFinishedFrame client server).encode) = _).symm.trans
      hcf'
    cases (exec_verifyFinished_honest client server).symm.trans hverify
    cases hkey
    cases hkey'
    cases hcid
    cases hcid'
    exact ⟨client, server, clientSocket, serverSocket, rfl, rfl, rfl, rfl, rfl, rfl⟩

/-- **Both ends of an honest handshake are ready for the same session.** -/
theorem HonestPair.ready (hdh : P.AgreesOnSecrets) (hsig : P.VerifiesSignatures) (hmac : P.MacLength)
    {clientId serverId : UInt64} {c s : Connection P} (h : HonestPair clientId serverId c s) :
    ∃ session, Ready true clientId session c ∧ Ready false serverId session s := by
  obtain ⟨client, server, clientSocket, serverSocket, rfl, rfl, _, _, hc, hs⟩ := h.ends hdh hsig hmac
  rw [hc, hs]
  exact ⟨_, ⟨rfl, rfl, rfl, rfl, rfl, rfl⟩, ⟨rfl, rfl, rfl, rfl, rfl, rfl⟩⟩

end Honest

end Connection

end

end Aether
