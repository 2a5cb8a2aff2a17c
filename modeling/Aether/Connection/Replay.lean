import Aether.Connection.Delivery

/-! Datagrams that arrive again.

What `recv_frame` makes of a datagram depends on the receive key, the nonce and the
associated data, and nothing it or any other operation does changes one of them: it
is a function of the connection as it was set up (`recvFrame_run`). A datagram
that was accepted once is therefore accepted whenever the network repeats it, and
a run is free of replays only as far as the network is. -/
namespace Aether
open Octets Octets.Method Connection

section
variable {P : Primitives}

namespace Endpoint

/-- A datagram that a connection has accepted is an error from then on, in this run. -/
def ReplayProtected (c : Connection P) (ops : List Operation) : Prop :=
  ∀ before between after datagram,
    ops = before ++ .recvFrame (.ok datagram) :: (between ++ .recvFrame (.ok datagram) :: after) →
    (∃ frame, ((recvFrame (.ok datagram)).exec ((start c).run before)).1 = .ok frame) →
      ∃ e, ((recvFrame (.ok datagram)).exec
        ((start c).run (before ++ .recvFrame (.ok datagram) :: between))).1 = .error (.err e)

/-- **A datagram is read the same in every state of a connection.** -/
theorem recvFrame_run {c : Connection P} (hc : c.Returned) (ops : List Operation) (datagram : Bytes) :
    ((recvFrame (.ok datagram)).exec ((start c).run ops)).1 = reads c (.ok datagram) := by
  obtain ⟨_, _, session, hready⟩ := hc.ready
  have hunchanged := (sound_run hready.aead ops).unchanged
  rw [exec_recvFrame_empty (hunchanged.incomingFrames hready.incomingFrames), hunchanged.reads]

/-- **A run is protected from replays exactly when the network repeats nothing in it
that the connection can read.** -/
theorem replayProtected_iff {c : Connection P} (hc : c.Returned) (ops : List Operation) :
    ReplayProtected c ops ↔ ∀ before between after datagram,
      ops = before ++ .recvFrame (.ok datagram) :: (between ++ .recvFrame (.ok datagram) :: after) →
        ∀ frame, reads c (.ok datagram) ≠ .ok frame := by
  constructor
  · intro h before between after datagram hops frame hreads
    obtain ⟨e, herror⟩ := h before between after datagram hops ⟨frame, (recvFrame_run hc before datagram).trans hreads⟩
    rw [recvFrame_run hc, hreads] at herror
    cases herror
  · intro h before between after datagram hops haccepted
    obtain ⟨frame, hframe⟩ := haccepted
    exact absurd ((recvFrame_run hc before datagram).symm.trans hframe) (h before between after datagram hops frame)

/-! ### A keep-alive, twice -/

section Repeated
open HandshakeContext

/-- Parties whose connection IDs differ in their lower halves alone. -/
def nearClient : Party Transparent.fixedMacs := { fixedClient with connectionId := 0x100000001 }

def nearServer : Party Transparent.fixedMacs := { fixedServer with connectionId := 0x100000002 }

def nearClientEnd : Connection Transparent.fixedMacs := clientOf nearClient nearServer openSocket sampleConfig

def nearServerEnd : Connection Transparent.fixedMacs := serverOf nearClient nearServer openSocket sampleConfig

theorem honestPair_near : HonestPair 0x100000001 0x100000002 nearClientEnd nearServerEnd :=
  honestPair (Transparent.agreesOnSecrets _) (Transparent.verifiesSignatures _) Transparent.fixedMacs_macLength
    nearClient nearServer (fun _ => rfl) rfl rfl

/-- What the client's keep-alive is sent in, and that the server accepts it whatever it has done before. -/
theorem near_ping_delivered :
    ∃ m ∈ ((start nearClientEnd).run [.ping 7]).emitted, ∀ ops, Delivered m ((start nearServerEnd).run ops) := by
  have hemitted : ((start nearClientEnd).run [.ping 7]).emitted.map (fun m => (m.1, m.2.length)) =
      [(Frame.ping 1 7, 869)] := by decide +kernel
  obtain ⟨m, hm, hframe⟩ := List.map_eq_singleton_iff.mp hemitted
  obtain ⟨hfirst, hsecond⟩ := Prod.mk.inj hframe
  have hsent : m ∈ ((start nearClientEnd).run [.ping 7]).emitted := by
    rw [hm]
    exact List.mem_singleton_self m
  obtain ⟨session, hclient, hserver⟩ := honestPair_near.ready (Transparent.agreesOnSecrets _)
    (Transparent.verifiesSignatures _) Transparent.fixedMacs_macLength
  refine ⟨m, hsent, fun ops => ?_⟩
  have hfits : Fits m ((start nearServerEnd).run ops) := by
    refine ⟨?_, ?_⟩
    · rw [hfirst]
      exact Frame.newShort_wellFormed .ping (by decide) 1 0 (by rw [toBe_length]; decide)
    · have hconfig : ((start nearServerEnd).run ops).connection.config = sampleConfig :=
        (sound_run hserver.aead ops).unchanged.config
      rw [hsecond, hconfig]
      decide
  exact (delivered_iff_of_ready (Transparent.authenticates _) hclient hserver [.ping 7] ops hsent hfits).mpr (by decide)

theorem replayProtected_iff_twice :
    ReplayProtected nearServerEnd [.recvFrame (.ok [0]), .recvFrame (.ok [0])] ↔
      ∀ before between after datagram, [Operation.recvFrame (.ok [0]), .recvFrame (.ok [0])] =
          before ++ .recvFrame (.ok datagram) :: (between ++ .recvFrame (.ok datagram) :: after) →
        ∀ frame, reads nearServerEnd (.ok datagram) ≠ .ok frame :=
  replayProtected_iff honestPair_near.returned.2 _

/-- The server returns the keep-alive twice. -/
theorem ping_replayed :
    nearServerEnd.Returned ∧ ∃ m ∈ ((start nearClientEnd).run [.ping 7]).emitted,
      ((recvFrame (.ok m.2)).exec (start nearServerEnd)).1 = .ok m.1 ∧
      ((recvFrame (.ok m.2)).exec ((start nearServerEnd).run [.recvFrame (.ok m.2)])).1 = .ok m.1 ∧
      ¬ ReplayProtected nearServerEnd [.recvFrame (.ok m.2), .recvFrame (.ok m.2)] := by
  obtain ⟨m, hm, hdelivered⟩ := near_ping_delivered
  refine ⟨honestPair_near.returned.2, m, hm, hdelivered [], hdelivered [.recvFrame (.ok m.2)], fun h => ?_⟩
  obtain ⟨e, herror⟩ := h [] [] [] m.2 rfl ⟨m.1, hdelivered []⟩
  cases (hdelivered [.recvFrame (.ok m.2)]).symm.trans herror

end Repeated

end Endpoint

end

end Aether
