import Aether.Connection.Establishment

/-! The limits a connection goes by.

The handshake takes the smaller of what the two sides offer, and each context keeps
the result. The stream managers are not told: each side's goes by what that side
has offered itself, so the two agree with the handshake, and with each other,
exactly where the offers are the same. -/
namespace Aether.Connection
open Octets Octets.Method HandshakeContext

variable {P : Primitives}

/-- The capabilities that a connection's handshake has ended with. -/
def negotiated (c : Connection P) : Option Capabilities := do
  let hs ← c.handshake
  hs.capabilities

/-- A stream manager goes by these capabilities. -/
structure GoesBy (m : StreamManager) (capabilities : Capabilities) : Prop where
  maxStreams : m.maxStreams = capabilities.maxStreams
  initialStreamWindow : m.initialStreamWindow = capabilities.maxStreamData

/-- What was negotiated is the smaller of the offers, and both stream managers go by it. -/
def LimitsNegotiated (c s : Connection P) : Prop :=
  ∃ capabilities, c.negotiated = some capabilities ∧ s.negotiated = some capabilities ∧
    capabilities.maxStreams = min s.config.capabilities.maxStreams c.config.capabilities.maxStreams ∧
    capabilities.maxStreamData = min s.config.capabilities.maxStreamData c.config.capabilities.maxStreamData ∧
    GoesBy c.streams capabilities ∧ GoesBy s.streams capabilities

/-- The offers that decide the limits are the same on both sides. -/
structure SameOffers (client server : Capabilities) : Prop where
  maxStreams : client.maxStreams = server.maxStreams
  maxStreamData : client.maxStreamData = server.maxStreamData

section Ends
variable (client server : Party P) (clientSocket serverSocket : Socket) (clientConfig serverConfig : Config)

theorem negotiated_clientOf : (clientOf client server clientSocket clientConfig).negotiated =
    some (server.capabilities.negotiate client.capabilities) := rfl

theorem negotiated_serverOf : (serverOf client server serverSocket serverConfig).negotiated =
    some (server.capabilities.negotiate client.capabilities) := rfl

/-- Each side starts its stream manager with its own offer. -/
theorem goesBy_clientOf (capabilities : Capabilities) :
    GoesBy (clientOf client server clientSocket clientConfig).streams capabilities ↔
      SameOffers clientConfig.capabilities capabilities :=
  ⟨fun h => ⟨h.maxStreams, h.initialStreamWindow⟩, fun h => ⟨h.maxStreams, h.maxStreamData⟩⟩

theorem goesBy_serverOf (capabilities : Capabilities) :
    GoesBy (serverOf client server serverSocket serverConfig).streams capabilities ↔
      SameOffers serverConfig.capabilities capabilities :=
  ⟨fun h => ⟨h.maxStreams, h.initialStreamWindow⟩, fun h => ⟨h.maxStreams, h.maxStreamData⟩⟩

end Ends

/-- Both offers are what was negotiated from them only if they are the same. -/
theorem sameOffers_negotiate {client server : Capabilities} :
    SameOffers client (server.negotiate client) ∧ SameOffers server (server.negotiate client) ↔
      SameOffers client server := by
  constructor
  · rintro ⟨hclient, hserver⟩
    exact ⟨hclient.maxStreams.trans hserver.maxStreams.symm, hclient.maxStreamData.trans hserver.maxStreamData.symm⟩
  · rintro ⟨hstreams, hdata⟩
    have hmin : server.maxStreams = (server.negotiate client).maxStreams := by
      show server.maxStreams = if server.maxStreams ≤ client.maxStreams then _ else _
      rw [hstreams, ite_self]
    have hmin' : server.maxStreamData = (server.negotiate client).maxStreamData := by
      show server.maxStreamData = if server.maxStreamData ≤ client.maxStreamData then _ else _
      rw [hdata, ite_self]
    exact ⟨⟨hstreams.trans hmin, hdata.trans hmin'⟩, ⟨hmin, hmin'⟩⟩

theorem limitsNegotiated_ends (client server : Party P) (clientSocket serverSocket : Socket)
    {clientConfig serverConfig : Config} (hclient : clientConfig.capabilities = client.capabilities)
    (hserver : serverConfig.capabilities = server.capabilities) :
    LimitsNegotiated (clientOf client server clientSocket clientConfig)
        (serverOf client server serverSocket serverConfig) ↔
      SameOffers clientConfig.capabilities serverConfig.capabilities := by
  have hnegotiate : server.capabilities.negotiate client.capabilities =
      serverConfig.capabilities.negotiate clientConfig.capabilities := by rw [hclient, hserver]
  rw [← sameOffers_negotiate]
  constructor
  · rintro ⟨capabilities, hnegotiated, _, _, _, hc, hs⟩
    cases (negotiated_clientOf client server clientSocket clientConfig).symm.trans hnegotiated
    rw [hnegotiate] at hc hs
    exact ⟨(goesBy_clientOf ..).mp hc, (goesBy_serverOf ..).mp hs⟩
  · rintro ⟨hc, hs⟩
    exact ⟨_, (negotiated_clientOf ..).trans (congrArg some hnegotiate),
      (negotiated_serverOf ..).trans (congrArg some hnegotiate), rfl, rfl, (goesBy_clientOf ..).mpr hc,
      (goesBy_serverOf ..).mpr hs⟩

/-- **The negotiated limits take effect exactly where both sides offer the same**,
whatever else the configurations say. -/
theorem limitsNegotiated_iff (hdh : P.AgreesOnSecrets) (hsig : P.VerifiesSignatures) (hmac : P.MacLength)
    {clientId serverId : UInt64} {c s : Connection P} (h : HonestPair clientId serverId c s) :
    LimitsNegotiated c s ↔ SameOffers c.config.capabilities s.config.capabilities := by
  obtain ⟨client, server, clientSocket, serverSocket, _, _, hclient, hserver, hc, hs⟩ := h.ends hdh hsig hmac
  rw [hc, hs]
  exact limitsNegotiated_ends client server clientSocket serverSocket hclient.symm hserver.symm

theorem limitsNegotiated_iff_sample :
    LimitsNegotiated sampleClient sampleServer ↔
      SameOffers sampleClient.config.capabilities sampleServer.config.capabilities :=
  limitsNegotiated_iff (Transparent.agreesOnSecrets _) (Transparent.verifiesSignatures _)
    Transparent.fixedMacs_macLength honestPair_sample

/-- A client that wants one stream at most. -/
def modestClient : Party Transparent.fixedMacs :=
  { sampleParty 1 with capabilities := { Capabilities.default with maxStreams := 1 } }

def modestConfig : Config := ⟨modestClient.capabilities, 65536⟩

/-- The server it has agreed with on one stream opens as many as it offered itself. -/
theorem limits_exceeded :
    HonestPair modestClient.connectionId fixedServer.connectionId (clientOf modestClient fixedServer openSocket modestConfig)
        (serverOf modestClient fixedServer openSocket sampleConfig) ∧
      ¬ LimitsNegotiated (clientOf modestClient fixedServer openSocket modestConfig)
        (serverOf modestClient fixedServer openSocket sampleConfig) := by
  constructor
  · exact honestPair (Transparent.agreesOnSecrets _) (Transparent.verifiesSignatures _) Transparent.fixedMacs_macLength
      modestClient fixedServer (fun _ => rfl) rfl rfl
  · intro h
    have hoffers := ((limitsNegotiated_ends modestClient fixedServer openSocket openSocket rfl rfl).mp h).maxStreams
    exact absurd hoffers (by decide)

end Aether.Connection
