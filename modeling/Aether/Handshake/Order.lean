import Aether.Handshake.Calls

/-! The order of a handshake.

`HandshakeState` lists the states in the order they are meant to be passed, and no
handler but the key derivation asks which of them it is called in: a hello that is
handled late takes the context back. The calls that do are told by the state they
are made in (`Timely`), and a run without them moves forward and stands still once
it is complete (`orderly_iff_timely`). -/
namespace Aether
open Octets Octets.Method

section
variable {P : Primitives}

namespace HandshakeContext

/-- The steps each side is meant to take, standing still among them. -/
def Follows (isClient : Bool) : HandshakeState → HandshakeState → Prop
  | .initial, .helloSent => isClient = true
  | .initial, .keysDerived => isClient = false
  | .helloSent, .keysDerived => isClient = true
  | .keysDerived, .complete => True
  | _, .failed => True
  | s, t => s = t

/-- What does not change any more when the handshake is over. -/
structure Frozen (c c' : HandshakeContext P) : Prop where
  state : c'.state = c.state
  transcript : c'.transcript = c.transcript
  sessionKey : c'.sessionKey = c.sessionKey
  peerIdentity : c'.peerIdentity = c.peerIdentity

/-- The call takes the context a step ahead, and nowhere once it is complete. -/
structure Call.Orderly (c : HandshakeContext P) (call : Call P) : Prop where
  follows : Follows c.isClient c.state (call.exec c).2.state
  frozen : c.state = .complete → Frozen c (call.exec c).2

/-- The call is made when its turn is, or has no effect: a hello is created by a client
that has not got any further, a client's hello is answered by a server that has
not got to the end, and a complete context is sent no server's hello but one it
refuses, from the peer it has. -/
def Call.Timely (c : HandshakeContext P) : Call P → Prop
  | .createClientHello _ _ _ => c.isClient = true ∧ c.state = .initial ∨ c.state = .helloSent
  | .handleClientHello _ _ frame _ _ => ∀ hello, ClientHello.decode frame.payload = .ok hello →
      aetherVersion ∈ hello.supportedVersions →
        c.isClient = false ∧ c.state = .initial ∨ c.state = .helloSent ∨ c.state = .keysDerived
  | .handleServerHello frame => c.state = .complete → ∀ hello, ServerHello.decode frame.payload = .ok hello →
      c.peerIdentity = some hello.identity ∧ ¬ c.Proven hello
  | _ => True

/-- What an orderly run keeps up. -/
structure Settled (c : HandshakeContext P) : Prop where
  keyless : c.state = .initial ∨ c.state = .helloSent → c.sessionKey = none
  spent : c.state ≠ .helloSent → c.x25519Secret = none
  greeting : c.state = .helloSent → c.isClient = true
  alive : c.state ≠ .failed

theorem settled_newClient (connectionId : UInt64) : Settled (newClient connectionId : HandshakeContext P) :=
  ⟨fun _ => rfl, fun _ => rfl, nofun, nofun⟩

theorem settled_newServer : Settled (newServer : HandshakeContext P) := ⟨fun _ => rfl, fun _ => rfl, nofun, nofun⟩

theorem follows_refl (isClient : Bool) (s : HandshakeState) : Follows isClient s s := by
  cases s <;> trivial

/-- A hello is sent first by a client that has done nothing. -/
theorem turn_of_follows {isClient : Bool} {s : HandshakeState} (h : Follows isClient s .helloSent) :
    isClient = true ∧ s = .initial ∨ s = .helloSent := by
  cases s with
  | initial => exact .inl ⟨h, rfl⟩
  | helloSent => exact .inr rfl
  | _ => cases h

theorem Call.orderly_of_same {c : HandshakeContext P} {call : Call P} (h : (call.exec c).2 = c) : call.Orderly c := by
  refine ⟨?_, fun _ => ?_⟩ <;> rw [h]
  · exact follows_refl _ _
  · exact ⟨rfl, rfl, rfl, rfl⟩

theorem Call.Orderly.stays {c : HandshakeContext P} {call : Call P} (h : call.Orderly c) (hc : c.state = .complete) :
    (call.exec c).2.state = .complete :=
  (h.frozen hc).state.trans hc

/-! ### Call by call -/

theorem orderly_createClientHello {c : HandshakeContext P} (secret : P.Scalar) (identity : Identity P)
    (capabilities : Capabilities) :
    (Call.createClientHello secret identity capabilities).Orderly c ↔
      (Call.createClientHello secret identity capabilities).Timely c := by
  show _ ↔ c.isClient = true ∧ c.state = .initial ∨ c.state = .helloSent
  constructor
  · exact fun h => turn_of_follows h.follows
  · intro h
    refine ⟨?_, fun hcomplete => ?_⟩
    · show Follows c.isClient c.state .helloSent
      rcases h with ⟨hclient, hstate⟩ | hstate <;> rw [hstate]
      · exact hclient
      · exact follows_refl _ _
    · rcases h with ⟨_, hstate⟩ | hstate <;> cases hcomplete.symm.trans hstate

theorem orderly_handleClientHello {c : HandshakeContext P} (hc : Settled c) (connectionId : UInt64) (secret : P.Scalar)
    (frame : Frame) (identity : Identity P) (capabilities : Capabilities) :
    (Call.handleClientHello connectionId secret frame identity capabilities).Orderly c ↔
      (Call.handleClientHello connectionId secret frame identity capabilities).Timely c := by
  rcases hexec : (handleClientHello connectionId secret frame identity capabilities).exec c with ⟨r, c'⟩
  have hleft : ((Call.handleClientHello connectionId secret frame identity capabilities).exec c).2 = c' := by
    show ((handleClientHello connectionId secret frame identity capabilities).exec c).2 = c'
    rw [hexec]
  cases r with
  | error e =>
    refine iff_of_true (Call.orderly_of_same (hleft.trans (handleClientHello_error hexec))) ?_
    intro hello hdecode hversion
    obtain ⟨f, hanswer⟩ : ∃ f, (handleClientHello connectionId secret frame identity capabilities).exec c =
        (.ok f, c.answered connectionId secret frame hello identity capabilities) :=
      ⟨_, handleClientHello_eq_ok.mpr ⟨hello, hdecode, hversion, rfl, rfl⟩⟩
    cases hanswer.symm.trans hexec
  | ok f =>
    obtain ⟨hello, hdecode, hversion, _, rfl⟩ := handleClientHello_eq_ok.mp hexec
    constructor
    · intro h _ _ _
      have hfollows : Follows c.isClient c.state .keysDerived := by
        have hmoves := h.follows
        rw [hleft] at hmoves
        exact hmoves
      cases hstate : c.state with
      | initial =>
        rw [hstate] at hfollows
        exact .inl ⟨hfollows, rfl⟩
      | helloSent => exact .inr (.inl rfl)
      | keysDerived => exact .inr (.inr rfl)
      | _ =>
        rw [hstate] at hfollows
        cases hfollows
    · intro h
      have hturn := h hello hdecode hversion
      refine ⟨?_, fun hcomplete => ?_⟩
      · rw [hleft]
        show Follows c.isClient c.state .keysDerived
        rcases hturn with ⟨hserver, hstate⟩ | hstate | hstate <;> rw [hstate]
        · exact hserver
        · exact hc.greeting hstate
        · exact follows_refl _ _
      · rcases hturn with ⟨_, hstate⟩ | hstate | hstate <;> cases hcomplete.symm.trans hstate

/-- A client accepts a hello only while it waits for one. -/
theorem Settled.waits {c : HandshakeContext P} (hc : Settled c) {secret : P.Scalar} (h : c.x25519Secret = some secret) :
    c.state = .helloSent := by
  by_contra hstate
  cases (hc.spent hstate).symm.trans h

theorem orderly_handleServerHello {c : HandshakeContext P} (hc : Settled c) (frame : Frame) :
    (Call.handleServerHello frame).Orderly c ↔ (Call.handleServerHello frame).Timely c := by
  have hhandled := handleServerHello_cases c frame
  rcases hexec : (handleServerHello frame).exec c with ⟨r, c'⟩
  have hleft : ((Call.handleServerHello frame).exec c).2 = c' := by
    show ((handleServerHello frame).exec c).2 = c'
    rw [hexec]
  rw [hexec] at hhandled
  cases hhandled with
  | unread hdecode =>
    refine iff_of_true (Call.orderly_of_same hleft) fun _ hello hdecode' => ?_
    cases hdecode'.symm.trans hdecode
  | @unproven hello _ hdecode hunproven =>
    constructor
    · intro h hcomplete hello' hdecode'
      cases hdecode'.symm.trans hdecode
      have hfrozen := h.frozen hcomplete
      rw [hleft] at hfrozen
      exact ⟨hfrozen.peerIdentity.symm, hunproven⟩
    · intro h
      refine ⟨?_, fun hcomplete => ?_⟩ <;> rw [hleft]
      · exact follows_refl _ _
      · exact ⟨rfl, rfl, rfl, (h hcomplete hello hdecode).1.symm⟩
  | @spent hello _ hdecode hproven hspent =>
    constructor
    · intro h hcomplete
      have hfrozen := h.frozen hcomplete
      rw [hleft] at hfrozen
      cases List.append_right_eq_self.mp hfrozen.transcript
    · intro h
      refine ⟨?_, fun hcomplete => absurd hproven (h hcomplete hello hdecode).2⟩
      rw [hleft]
      exact follows_refl _ _
  | @accepted hello secret hdecode hproven hsecret =>
    have hstate := hc.waits hsecret
    refine iff_of_true ⟨?_, fun hcomplete => ?_⟩ fun hcomplete => ?_
    · rw [hleft, hstate]
      exact hc.greeting hstate
    · cases hcomplete.symm.trans hstate
    · cases hcomplete.symm.trans hstate

/-- A Finished is no use before there is a key. -/
theorem orderly_of_finished {c : HandshakeContext P} (hc : Settled c) {call : Call P}
    (h : (call.exec c).2 = c ∨ c.sessionKey ≠ none ∧ (call.exec c).2 = { c with state := .complete }) :
    call.Orderly c := by
  rcases h with hsame | ⟨hkey, hleft⟩
  · exact Call.orderly_of_same hsame
  · refine ⟨?_, fun hcomplete => ?_⟩ <;> rw [hleft]
    · show Follows c.isClient c.state .complete
      cases hstate : c.state with
      | initial => exact absurd (hc.keyless (.inl hstate)) hkey
      | helloSent => exact absurd (hc.keyless (.inr hstate)) hkey
      | keysDerived => trivial
      | complete => exact follows_refl _ _
      | failed => exact absurd hstate hc.alive
    · exact ⟨hcomplete.symm, rfl, rfl, rfl⟩

theorem orderly_iff {c : HandshakeContext P} (hc : Settled c) (call : Call P) : call.Orderly c ↔ call.Timely c := by
  cases call with
  | createClientHello secret identity capabilities => exact orderly_createClientHello secret identity capabilities
  | handleClientHello connectionId secret frame identity capabilities =>
    exact orderly_handleClientHello hc connectionId secret frame identity capabilities
  | handleServerHello frame => exact orderly_handleServerHello hc frame
  | createFinished => exact iff_of_true (Call.orderly_of_same rfl) trivial
  | handleFinishedAndRespond frame =>
    exact iff_of_true (orderly_of_finished hc (handleFinishedAndRespond_leaves c frame)) trivial
  | verifyFinished frame => exact iff_of_true (orderly_of_finished hc (verifyFinished_leaves c frame)) trivial

/-- Whatever a call leaves is settled, if it is where the call may lead. -/
theorem Left.settled {c c' : HandshakeContext P} (h : Left c c') (hc : Settled c)
    (hfollows : Follows c.isClient c.state c'.state) : Settled c' := by
  cases h with
  | same => exact hc
  | greeting =>
    have hturn := turn_of_follows hfollows
    refine ⟨fun _ => hc.keyless (hturn.imp_left And.right), fun hother => absurd rfl hother, fun _ => ?_, nofun⟩
    exact hturn.elim And.left hc.greeting
  | answered => exact ⟨nofun, fun _ => rfl, nofun, nofun⟩
  | introduced => exact ⟨hc.keyless, hc.spent, hc.greeting, hc.alive⟩
  | accepted => exact ⟨nofun, fun _ => rfl, nofun, nofun⟩
  | complete keyed =>
    exact ⟨nofun, fun _ => hc.spent fun hstate => keyed (hc.keyless (.inr hstate)), nofun, nofun⟩

theorem settled_step {c c' : HandshakeContext P} {call : Call P} (hc : Settled c) (h : call.Orderly c)
    (hstep : call.step c = some c') : Settled c' := by
  cases hstep
  exact (left_exec c call).settled hc h.follows

/-- **The states of a handshake come in their order, and its end is its end, exactly in
the runs all of whose calls are timely.** -/
theorem orderly_iff_timely :
    (∀ (connectionId : UInt64) (calls : List (Call P)),
      Throughout Call.step (fun c call => call.Orderly c) (newClient connectionId) calls ↔
        Throughout Call.step (fun c call => call.Timely c) (newClient connectionId) calls) ∧
    ∀ calls : List (Call P), Throughout Call.step (fun c call => call.Orderly c) newServer calls ↔
      Throughout Call.step (fun c call => call.Timely c) newServer calls :=
  ⟨fun connectionId calls => throughout_iff (fun _ call hc => orderly_iff hc call)
      (fun _ _ _ hc horderly hstep => settled_step hc horderly hstep) (settled_newClient connectionId) calls,
    fun calls => throughout_iff (fun _ call hc => orderly_iff hc call)
      (fun _ _ _ hc horderly hstep => settled_step hc horderly hstep) settled_newServer calls⟩

/-- The client's hello, as it gets to the server once or more. -/
def helloCall : Call Transparent.fixedMacs :=
  .handleClientHello fixedServer.connectionId fixedServer.secret (clientHelloFrame fixedClient) fixedServer.identity
    fixedServer.capabilities

/-- A handshake that is over, and its first message again. -/
theorem replayed_hello_regresses :
    (helloCall.exec (serverContext fixedClient fixedServer .complete)).2.state = .keysDerived ∧
      ¬ Throughout Call.step (fun c call => call.Orderly c) newServer
        [helloCall, .verifyFinished (clientFinishedFrame fixedClient fixedServer), helloCall] := by
  have hstate : (helloCall.exec (serverContext fixedClient fixedServer .complete)).2.state = .keysDerived := by
    decide +kernel
  have hanswer : helloCall.step newServer = some (serverContext fixedClient fixedServer .keysDerived) :=
    congrArg (fun r => some (ended r).2) (exec_handleClientHello_honest fixedClient fixedServer)
  have hconfirm : (Call.verifyFinished (clientFinishedFrame fixedClient fixedServer)).step
      (serverContext fixedClient fixedServer .keysDerived) = some (serverContext fixedClient fixedServer .complete) :=
    congrArg (fun r => some (ended r).2) (exec_verifyFinished_honest fixedClient fixedServer)
  refine ⟨hstate, fun h => ?_⟩
  obtain ⟨_, hrest⟩ := h
  obtain ⟨_, hrest⟩ := hrest _ hanswer
  cases hstate.symm.trans ((hrest _ hconfirm).1.stays rfl)

end HandshakeContext

end

end Aether
