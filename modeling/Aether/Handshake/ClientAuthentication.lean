import Aether.Handshake.Authentication
import Aether.Handshake.Transcript

/-! What a server's completion says about its client.

A client's hello names an identity and a public key and proves neither: whoever
sends it with an X25519 key of its own completes under any name
(`impostor_completes`), and so does whoever knows the secret that the server shares with
the key, as anybody does with one of low order (`disguised_completes`). Where a hello under
an honest name carries the public key of a secret that the adversary does not hold, and
no server is given its own Finished, a server that completes has been greeted by the client
it names (`client_authenticated`). -/
namespace Aether
open Octets Octets.Method HandshakeContext

section
variable {P : Primitives}

namespace Process

/-- A hello of the client's own, with which its transcript begins. -/
structure Made (q : Process P) (hello : ClientHello) : Prop where
  own : ∃ capabilities, hello =
    ClientHello.new q.context.ourConnectionId (P.x25519Public q.secret) q.identity capabilities
  transcript : ∃ rest, q.context.transcript = clientHelloTag ++ (hello.encode ++ rest)

/-- The hello that a server was started by. -/
structure Greeted (p : Process P) (hello : ClientHello) : Prop where
  transcript : ∃ rest, p.context.transcript = clientHelloTag ++ rest ∧ ClientHello.decode rest = .ok hello
  peerIdentity : p.context.peerIdentity = some hello.identity
  peerX25519Public : p.context.peerX25519Public = some hello.x25519Public

/-- Every process knows the hello its handshake began with. -/
structure Introduced (p : Process P) : Prop where
  client : p.context.isClient = true → p.phase ≠ .aborted → ∃ hello, p.Made hello
  server : p.context.isClient = false → ∃ hello, p.Greeted hello

/-- A server's context moves its state and no more. -/
theorem Reacts.server {p p' : Process P} {frame : Frame} {sent : List Message} (h : p.Reacts frame p' sent)
    (hp : p.Sound) (hserver : p.context.isClient = false) :
    p'.context = { p.context with state := p'.context.state } := by
  cases h with
  | greeted hello proof phase => exact absurd ((hp.greeting phase).1.symm.trans hserver) nofun
  | finished => rfl
  | confirmed => rfl
  | aborted context phase state key role same =>
    by_cases hgreeting : p.phase = .awaitServerHello
    · exact absurd ((hp.greeting hgreeting).1.symm.trans hserver) nofun
    · rw [same hgreeting]

/-- A client that goes on keeps the beginning of its transcript. -/
theorem Reacts.made {p p' : Process P} {frame : Frame} {sent : List Message} (h : p.Reacts frame p' sent)
    (hphase : p'.phase ≠ .aborted) (hmade : p.phase ≠ .aborted → ∃ hello, p.Made hello) : ∃ hello, p'.Made hello := by
  cases h with
  | greeted hello proof phase =>
    obtain ⟨made, hmade⟩ := hmade (by rw [phase]; decide)
    obtain ⟨rest, hrest⟩ := hmade.transcript
    refine ⟨made, hmade.own, rest ++ (serverHelloTag ++ frame.payload), ?_⟩
    refine (transcript_accepted hrest p.secret frame hello).trans ?_
    simp only [transcriptOf, List.append_assoc]
  | finished key answer phase =>
    obtain ⟨made, hmade⟩ := hmade (by rw [phase]; decide)
    exact ⟨made, hmade.own, hmade.transcript⟩
  | confirmed key phase =>
    obtain ⟨made, hmade⟩ := hmade (by rw [phase]; decide)
    exact ⟨made, hmade.own, hmade.transcript⟩
  | aborted => exact absurd rfl hphase

theorem Introduced.reacts {p p' : Process P} {frame : Frame} {sent : List Message} (h : p.Introduced)
    (hp : p.Sound) (hreacts : p.Reacts frame p' sent) : p'.Introduced := by
  have hrole := (hreacts.later hp).role
  refine ⟨fun hclient hphase => hreacts.made hphase (h.client (hrole.symm.trans hclient)), fun hserver => ?_⟩
  have hserver' : p.context.isClient = false := hrole.symm.trans hserver
  obtain ⟨hello, hgreeted⟩ := h.server hserver'
  have hcontext := hreacts.server hp hserver'
  refine ⟨hello, ?_, ?_, ?_⟩
  · rw [hcontext]
    exact hgreeted.transcript
  · rw [hcontext]
    exact hgreeted.peerIdentity
  · rw [hcontext]
    exact hgreeted.peerX25519Public

theorem accept_greeted {identity : Identity P} {capabilities : Capabilities} {connectionId : UInt64}
    {secret : P.Scalar} {frame : Frame} {p : Process P} {sent : List Message}
    (h : accept identity capabilities connectionId secret frame = some (p, sent)) :
    ∃ hello, ClientHello.decode frame.payload = .ok hello ∧ p.Greeted hello := by
  obtain ⟨hello, answer, finished, hdecode, rfl, _, _, _⟩ := accept_eq_some h
  have htranscript := transcript_answered connectionId secret frame hello identity capabilities
  rw [transcriptOf, List.append_assoc] at htranscript
  exact ⟨hello, hdecode, ⟨_, htranscript, ClientHello.decode_append hdecode _⟩, rfl, rfl⟩

end Process

namespace Net

/-- Both ways a process starts introduce it. -/
theorem Joins.introduced {e : NetEvent P} {p : Process P} {sent : List Message} (h : Joins e p sent) :
    p.Introduced := by
  cases h with
  | @connect identity capabilities connectionId secret _ _ starts =>
    obtain ⟨frame, hpayload, rfl, rfl⟩ := Process.connect_eq_some starts
    refine ⟨fun _ _ => ⟨_, ⟨capabilities, rfl⟩, [], ?_⟩, nofun⟩
    rw [List.append_nil]
    exact congrArg (clientHelloTag ++ ·) hpayload
  | accept starts =>
    obtain ⟨hello, _, hgreeted⟩ := Process.accept_greeted starts
    obtain ⟨_, answer, finished, _, rfl, _⟩ := Process.accept_eq_some starts
    exact ⟨nofun, fun _ => ⟨hello, hgreeted⟩⟩

/-- A client and a server that begin their transcripts alike speak of one hello. -/
theorem hello_of_transcripts {p q : Process P} {hello made : ClientHello} (hgreeted : p.Greeted hello)
    (hmade : q.Made made) {rest : Bytes} (h : p.context.transcript = clientHelloTag ++ (made.encode ++ rest)) :
    hello = made := by
  obtain ⟨rest', htranscript, hdecode⟩ := hgreeted.transcript
  obtain ⟨capabilities, rfl⟩ := hmade.own
  have hrest := List.append_cancel_left (htranscript.symm.trans h)
  rw [hrest, ClientHello.decode_encode _ (by show 1 < 256; decide)] at hdecode
  exact (Except.ok.inj hdecode).symm

/-! ### The adversary -/

namespace Adversary

/-- A hello that a server is given under an honest name carries the public key of a secret
that the adversary does not hold. -/
def Undisguised (adv : Adversary P) : NetEvent P → Prop
  | .accept _ _ _ _ frame => ∀ hello, ClientHello.decode frame.payload = .ok hello →
    ∀ I : Identity P, adv.honest I.publicKeyBytes → hello.identity = I.hash →
      P.Genuine hello.x25519Public ∧ ¬ adv.Holds hello.x25519Public
  | _ => True

/-- A server that waits is not given the MAC of its own Finished, unless a client has
sent the same MAC, or the adversary can make it. -/
def Unreflected (adv : Adversary P) (n : Net P) : NetEvent P → Prop
  | .deliver i frame => ∀ p key, n.processes[i]? = some p → p.phase = .awaitClientFinished →
    p.context.sessionKey = some key → frame.payload = computeFinished key p.context.transcript →
    (∃ m ∈ n.wire, m.1 = .clientFinished ∧ m.2.payload = frame.payload) ∨ adv.Knows key
  | _ => True

/-- A server's key under an honest name is a genuine one, and not the adversary's. -/
def Excluded (adv : Adversary P) (p : Process P) : Prop :=
  p.context.isClient = false → ∀ I : Identity P, adv.honest I.publicKeyBytes →
    p.context.peerIdentity = some I.hash → ∀ publicKey, p.context.peerX25519Public = some publicKey →
      P.Genuine publicKey ∧ ¬ adv.Holds publicKey

end Adversary

/-- Behind every server that has completed with an honest client stands a context of
that client, which has made the hello that the server's transcript begins with. -/
def ClientAuthentication (adv : Adversary P) (n : Net P) : Prop :=
  ∀ p ∈ n.processes, p.context.isClient = false → p.context.state = .complete →
    ∀ I : Identity P, adv.honest I.publicKeyBytes → p.context.peerIdentity = some I.hash →
      ∃ q ∈ n.processes, q.context.isClient = true ∧ q.identity.publicKeyBytes = I.publicKeyBytes ∧
        ∃ hello, q.Made hello ∧ ∃ rest, p.context.transcript = clientHelloTag ++ (hello.encode ++ rest)

/-! ### What honest parties keep -/

/-- What holds of a network whose honest parties draw their secrets themselves. -/
structure Founded (adv : Adversary P) (n : Net P) : Prop where
  sound : n.Sound
  introduced : ∀ p ∈ n.processes, p.Introduced
  unheld : ∀ p ∈ n.processes, ¬ adv.Holds (P.x25519Public p.secret)

theorem founded_init (adv : Adversary P) : Founded adv init :=
  ⟨sound_init, fun _ h => absurd h List.not_mem_nil, fun _ h => absurd h List.not_mem_nil⟩

theorem Founded.step {adv : Adversary P} {n n' : Net P} {e : NetEvent P} (hn : Founded adv n)
    (hallowed : adv.Allowed n e) (h : n.step e = some n') : Founded adv n' := by
  refine ⟨(moves_of_step hn.sound h).sound hn.sound, ?_, ?_⟩
  · exact forall_step hn.sound hn.introduced (fun _ _ => Joins.introduced)
      (fun _ _ _ _ hp hintroduced => hintroduced.reacts hp) h
  · refine forall_step hn.sound hn.unheld (fun p sent hjoins => ?_) (fun p p' _ _ hp hunheld hreacts => ?_) h
    · cases hjoins with
      | connect starts =>
        rw [(started_connect starts).2]
        exact hallowed.unheld
      | accept starts =>
        rw [(started_accept starts).2]
        exact hallowed.unheld
    · rw [(hreacts.later hp).secret]
      exact hunheld

theorem founded_run {adv : Adversary P} {n : Net P} (h : Reached Net.step adv.Allowed init n) : Founded adv n :=
  h.invariant (founded_init adv) fun _ _ _ hs he => hs.step he

/-! ### Authentication -/

theorem Adversary.Excluded.reacts {adv : Adversary P} {p p' : Process P} {frame : Frame} {sent : List Message}
    (h : adv.Excluded p) (hp : p.Sound) (hreacts : p.Reacts frame p' sent) : adv.Excluded p' := by
  intro hserver
  have hserver' : p.context.isClient = false := (hreacts.later hp).role.symm.trans hserver
  rw [hreacts.server hp hserver']
  exact h hserver'

theorem excluded_step {adv : Adversary P} {n n' : Net P} {e : NetEvent P} (hn : n.Sound)
    (hall : ∀ p ∈ n.processes, adv.Excluded p) (hundisguised : adv.Undisguised e) (h : n.step e = some n') :
    ∀ p ∈ n'.processes, adv.Excluded p := by
  refine forall_step hn hall (fun p sent hjoins => ?_) (fun _ _ _ _ hp hexcluded => hexcluded.reacts hp) h
  cases hjoins with
  | connect starts =>
    obtain ⟨frame, _, rfl, rfl⟩ := Process.connect_eq_some starts
    exact nofun
  | accept starts =>
    obtain ⟨hello, hdecode, hgreeted⟩ := Process.accept_greeted starts
    intro _ I hhonest hidentity publicKey hpublicKey
    cases hgreeted.peerX25519Public.symm.trans hpublicKey
    exact hundisguised hello hdecode I hhonest (Option.some.inj (hgreeted.peerIdentity.symm.trans hidentity))

/-- Behind every server that has completed with an honest client stands a client
that is done, with the same transcript. -/
def ClientFinished (adv : Adversary P) (n : Net P) : Prop :=
  ∀ p ∈ n.processes, p.context.isClient = false → p.context.state = .complete →
    ∀ I : Identity P, adv.honest I.publicKeyBytes → p.context.peerIdentity = some I.hash →
      ∃ q ∈ n.processes, q.context.isClient = true ∧ q.phase = .done ∧ q.context.transcript = p.context.transcript

/-- What a server accepts that was greeted under an honest name comes from a client that is done. -/
theorem client_of_confirmed (hP : P.Symbolic) (hsecrets : P.TakesSecret P.Genuine) (hhello : P.TellsMacsFromHellos)
    {adv : Adversary P} {n : Net P}
    (hn : Founded adv n) (hexcluded : ∀ p ∈ n.processes, adv.Excluded p) {i : Nat} {frame : Frame} {p : Process P}
    (present : n.processes[i]? = some p) (phase : p.phase = .awaitClientFinished)
    (hunreflected : adv.Unreflected n (.deliver i frame)) {key : P.SessionKey}
    (hasKey : p.context.sessionKey = some key) (mac : frame.payload = computeFinished key p.context.transcript)
    {I : Identity P} (hhonest : adv.honest I.publicKeyBytes) (hidentity : p.context.peerIdentity = some I.hash) :
    ∃ q ∈ n.processes, q.context.isClient = true ∧ q.phase = .done ∧ q.context.transcript = p.context.transcript := by
  have hp := List.mem_of_getElem? present
  have hsound := hn.sound.processes p hp
  rcases hunreflected p key present phase hasKey mac with ⟨m, hm, horigin, hpayload⟩ | hknows
  · obtain ⟨q, hq, _, htranscript, _, hauthor⟩ := author_of_mac hP hhello hn.sound hm (hpayload.trans mac)
    rcases hauthor with ⟨hserver, _⟩ | ⟨_, hclient, hdone⟩
    · exact absurd (horigin.symm.trans hserver) nofun
    · exact ⟨q, hq, hclient, hdone, htranscript⟩
  · obtain ⟨publicKey, hpeer, hkey⟩ := hsound.keyed key hasKey
    obtain ⟨hgenuine, hpeerUnheld⟩ := hexcluded p hp (hsound.confirming phase).1 I hhonest hidentity publicKey hpeer
    rw [hkey] at hknows
    exact absurd hknows (not_knows hP hsecrets (hn.unheld p hp) hgenuine hpeerUnheld)

theorem clientFinished_step (hP : P.Symbolic) (hsecrets : P.TakesSecret P.Genuine) (hhello : P.TellsMacsFromHellos)
    {adv : Adversary P} {n n' : Net P} {e : NetEvent P} (hn : Founded adv n) (hexcluded : ∀ p ∈ n.processes, adv.Excluded p)
    (hfinished : ClientFinished adv n) (hunreflected : adv.Unreflected n e) (h : n.Moves e n') :
    ClientFinished adv n' := by
  have hcontinues := h.continues hn.sound
  have hcomplete := h.forall_complete hn.sound
    (Q := fun ps p => p.context.isClient = false → ∀ I : Identity P, adv.honest I.publicKeyBytes →
      p.context.peerIdentity = some I.hash →
      ∃ q ∈ ps, q.context.isClient = true ∧ q.phase = .done ∧ q.context.transcript = p.context.transcript)
    (fun p hp hstate hrole => hfinished p hp hrole hstate) ?_ ?_
  · exact fun p hp hrole hstate => hcomplete p hp hstate hrole
  · intro p hold hrole I hhonest hidentity
    obtain ⟨q, hq, hclient, hdone, htranscript⟩ := hold hrole I hhonest hidentity
    exact ⟨q, hcontinues.done hq hdone, hclient, hdone, htranscript⟩
  · rintro i frame p key rfl haccepts hrole I hhonest hidentity
    obtain ⟨q, hq, hclient, hdone, htranscript⟩ :=
      client_of_confirmed hP hsecrets hhello hn hexcluded haccepts.present (haccepts.server hn.sound hrole) hunreflected
        haccepts.hasKey haccepts.mac hhonest hidentity
    exact ⟨q, hcontinues.done hq hdone, hclient, hdone, htranscript⟩

/-- The client that a server finished with is the one that the server was greeted by. -/
theorem ClientFinished.authenticates (hid : P.TellsIdentities) {adv : Adversary P} {n : Net P}
    (h : ClientFinished adv n) (hintroduced : ∀ p ∈ n.processes, p.Introduced) : ClientAuthentication adv n := by
  intro p hp hserver hstate I hhonest hidentity
  obtain ⟨q, hq, hclient, hdone, htranscript⟩ := h p hp hserver hstate I hhonest hidentity
  obtain ⟨hello, hgreeted⟩ := (hintroduced p hp).server hserver
  obtain ⟨made, hmade⟩ := (hintroduced q hq).client hclient (by rw [hdone]; decide)
  obtain ⟨rest, hrest⟩ := hmade.transcript
  have hbegins : p.context.transcript = clientHelloTag ++ (made.encode ++ rest) := htranscript.symm.trans hrest
  have hsame := hello_of_transcripts hgreeted hmade hbegins
  obtain ⟨capabilities, hown⟩ := hmade.own
  have hhash : q.identity.hash = I.hash := by
    have hnamed := Option.some.inj (hgreeted.peerIdentity.symm.trans hidentity)
    rwa [hsame, hown] at hnamed
  have hkey : q.identity.publicKeyBytes = I.publicKeyBytes := by
    apply hid.publicKey
    rw [Identity.publicKeyBytes, ← q.identity.identityHash_eq, Identity.publicKeyBytes, ← I.identityHash_eq]
    exact hhash
  exact ⟨q, hq, hclient, hkey, made, hmade, rest, hbegins⟩

/-- **Where nobody else's key goes under an honest name and no server is given its own
Finished, a server that completes was greeted by the client it names**, against an
adversary that owns the network. -/
theorem client_authenticated (hP : P.Symbolic) (hsecrets : P.TakesSecret P.Genuine) (hhello : P.TellsMacsFromHellos)
    (hid : P.TellsIdentities) (adv : Adversary P) {n : Net P}
    (h : Reached step (fun n e => adv.Allowed n e ∧ adv.Undisguised e ∧ adv.Unreflected n e) init n) :
    ClientAuthentication adv n := by
  have hinvariant := h.invariant (I := fun n => Founded adv n ∧ (∀ p ∈ n.processes, adv.Excluded p) ∧
    ClientFinished adv n) ⟨founded_init adv, fun _ h => absurd h List.not_mem_nil, fun _ h => absurd h List.not_mem_nil⟩ ?_
  · obtain ⟨hfounded, _, hfinished⟩ := hinvariant
    exact hfinished.authenticates hid hfounded.introduced
  · intro s e t hs he hstep
    obtain ⟨hfounded, hexcluded, hfinished⟩ := hs
    obtain ⟨hallowed, hundisguised, hunreflected⟩ := he
    exact ⟨hfounded.step hallowed hstep, excluded_step hfounded.sound hexcluded hundisguised hstep,
      clientFinished_step hP hsecrets hhello hfounded hexcluded hfinished hunreflected (moves_of_step hfounded.sound hstep)⟩

/-! ### A run that is authenticated -/

section
variable {adv : Adversary P} {client server : Party P}

/-- The run nobody interferes with is allowed, under no borrowed name and without reflection. -/
theorem reached_undisguised (hdh : P.AgreesOnSecrets) (hsig : P.VerifiesSignatures) (hhello : P.TellsMacsFromHellos)
    (hclient : ¬ adv.Holds (P.x25519Public client.secret)) (hserver : ¬ adv.Holds (P.x25519Public server.secret))
    (hapart : P.x25519Public client.secret ≠ P.x25519Public server.secret) :
    Reached step (fun n e => adv.Allowed n e ∧ adv.Undisguised e ∧ adv.Unreflected n e) init
      (confirmed client server) := by
  have hgreeting : adv.Undisguised (acceptEvent client server) := by
    intro hello hdecode _ _ _
    cases (helloOfClient_decodes client).symm.trans hdecode
    exact ⟨⟨client.secret, rfl⟩, hclient⟩
  refine reached_confirmed client server hdh hsig ⟨fresh_connect hclient, trivial, trivial⟩
    ⟨fresh_accept hserver hapart, hgreeting, trivial⟩ ⟨allowed_serverHello hhello, trivial, ?_⟩
    ⟨allowed_of_phase (p := keyedProcess client server) rfl nofun ?_, trivial, ?_⟩
    ⟨allowed_of_phase (p := answeringProcess client server) rfl nofun ?_, trivial, ?_⟩
  · intro p key hp hphase
    cases hp
    cases hphase
  · intro key transcript _
    exact .inl ⟨_, List.mem_cons_of_mem _ (List.mem_cons_of_mem _ List.mem_cons_self), rfl⟩
  · intro p key hp hphase
    cases hp
    cases hphase
  · intro key transcript _
    exact .inl ⟨_, List.mem_append_right _ (List.mem_singleton_self _), rfl⟩
  · intro p key _ _ _ _
    exact .inl ⟨_, List.mem_append_right _ (List.mem_singleton_self _), rfl, rfl⟩

end

theorem client_authenticated_sample :
    ClientAuthentication (sampleAdversary 3) (confirmed (sampleParty 1) (sampleParty 2)) :=
  client_authenticated Transparent.symbolic_symbolic (Transparent.symbolic_takesSecret _)
    Transparent.symbolic_tellsMacsFromHellos
    Transparent.symbolic_tellsIdentities (sampleAdversary 3)
    (reached_undisguised (Transparent.agreesOnSecrets _) (Transparent.verifiesSignatures _)
      Transparent.symbolic_tellsMacsFromHellos (sampleAdversary_holds 3 1 (by decide))
      (sampleAdversary_holds 3 2 (by decide)) (by decide))

/-! ### Runs that are not -/

/-- What a server is that has answered a hello. -/
theorem accept_hello (identity : Identity P) (capabilities : Capabilities) (connectionId : UInt64) (secret : P.Scalar)
    {frame : Frame} {hello : ClientHello} (hdecode : ClientHello.decode frame.payload = .ok hello)
    (hversion : aetherVersion ∈ hello.supportedVersions) :
    ∃ p sent, Process.accept identity capabilities connectionId secret frame = some (p, sent) ∧
      p.phase = .awaitClientFinished ∧ p.context.isClient = false ∧ p.Greeted hello ∧ p.context.sessionKey =
        some (deriveSessionKey (P.diffieHellman secret hello.x25519Public) p.context.transcript) := by
  have hexec := handleClientHello_eq_ok (c := newServer) |>.mpr
    ⟨hello, hdecode, hversion, rfl, (rfl : newServer.answered connectionId secret frame hello identity capabilities = _)⟩
  have hcreates := createFinished_eq_ok.mpr
    ⟨_, _, rfl, rfl, (rfl : (newServer.answered connectionId secret frame hello identity capabilities).finishedOf
      _ hello.connectionId = _)⟩
  obtain ⟨sent, haccept⟩ : ∃ sent, Process.accept identity capabilities connectionId secret frame =
      some (⟨identity, secret, none, newServer.answered connectionId secret frame hello identity capabilities,
        .awaitClientFinished⟩, sent) := by
    simp only [Process.accept, hexec, hcreates]
    exact ⟨_, rfl⟩
  obtain ⟨hello', hdecode', hgreeted⟩ := Process.accept_greeted haccept
  cases hdecode.symm.trans hdecode'
  exact ⟨_, sent, haccept, rfl, rfl, hgreeted, rfl⟩

/-- A server takes any Finished that has its MAC. -/
theorem receive_awaited {p : Process P} {frame : Frame} {key : P.SessionKey} (hphase : p.phase = .awaitClientFinished)
    (hkey : p.context.sessionKey = some key) (hmac : frame.payload = computeFinished key p.context.transcript) :
    p.receive frame = some ({ p with context := { p.context with state := .complete }, phase := .done }, []) := by
  have hexec := HandshakeContext.verifyFinished_eq_ok.mpr ⟨key, hkey, hmac, rfl⟩
  simp only [Process.receive, hphase, hexec]

/-- **A server that is given a hello under an honest name, with a key that no client has, completes
with an adversary that knows what it shares with the key**, in whatever state the network is. -/
theorem disguised_completes (hP : P.Symbolic) {adv : Adversary P} {n : Net P} (h : Reached step adv.Allowed init n)
    {identity : Identity P} {capabilities : Capabilities} {connectionId : UInt64} {secret : P.Scalar} {frame : Frame}
    (hallowed : adv.Allowed n (.accept identity capabilities connectionId secret frame))
    {hello : ClientHello} (hdecode : ClientHello.decode frame.payload = .ok hello)
    (hversion : aetherVersion ∈ hello.supportedVersions) {I : Identity P} (hhonest : adv.honest I.publicKeyBytes)
    (hidentity : hello.identity = I.hash) (hforeign : ∀ q ∈ n.processes, P.x25519Public q.secret ≠ hello.x25519Public)
    (hknown : ∃ x peer, adv.secrets x ∧ P.diffieHellman secret hello.x25519Public = P.diffieHellman x peer) :
    ∃ n' : Net P, Reached step adv.Allowed init n' ∧ ¬ ClientAuthentication adv n' := by
  obtain ⟨p, sent, haccept, hphase, hserver, hgreeted, hkey⟩ :=
    accept_hello identity capabilities connectionId secret hdecode hversion
  have hstep : step n (.accept identity capabilities connectionId secret frame) = some ⟨n.processes ++ [p],
      n.wire ++ sent, n.signed ++ [(identity.publicKeyBytes, clientHelloTag ++ frame.payload)]⟩ := by
    rw [step, haccept]
    rfl
  have hreached := Reached.next _ h hallowed hstep
  have hpresent : (n.processes ++ [p])[n.processes.length]? = some p := List.getElem?_concat_length
  -- The adversary makes the Finished from the shared secret.
  obtain ⟨x, peer, hx, hshared⟩ := hknown
  have hforged : p.receive { frame with payload := computeFinished _ p.context.transcript } = some (_, []) :=
    receive_awaited hphase hkey rfl
  refine ⟨_, .next (.deliver n.processes.length _) hreached
    (allowed_of_phase hpresent (by rw [hphase]; decide) fun key transcript hmac => ?_) (step_deliver hpresent hforged), ?_⟩
  · obtain ⟨rfl, _⟩ := hP.hmac hmac
    rw [hshared]
    exact .inr ⟨x, peer, _, hx, rfl⟩
  · intro hauth
    have hlt : n.processes.length < (n.processes ++ [p]).length := (List.getElem?_eq_some_iff.mp hpresent).1
    obtain ⟨q, hq, hclient, _, made, hmade, rest, hbegins⟩ :=
      hauth _ (List.mem_set hlt _) hserver rfl I hhonest (hgreeted.peerIdentity.trans (congrArg some hidentity))
    -- No client has made the hello: its key is no client's.
    have hold : q ∈ n.processes := by
      rcases List.mem_or_eq_of_mem_set hq with hq | rfl
      · rcases List.mem_append.mp hq with hq | hq
        · exact hq
        · cases List.mem_singleton.mp hq
          exact absurd (hserver.symm.trans hclient) Bool.false_ne_true
      · exact absurd (hserver.symm.trans hclient) Bool.false_ne_true
    have hsame := hello_of_transcripts hgreeted hmade hbegins
    obtain ⟨capabilities', hown⟩ := hmade.own
    refine hforeign q hold ?_
    rw [hsame, hown]
    rfl

/-- So it does with a key that the adversary holds. -/
theorem impostor_completes (hP : P.Symbolic) (hdh : P.AgreesOnSecrets) {adv : Adversary P} {n : Net P}
    (h : Reached step adv.Allowed init n) {identity : Identity P} {capabilities : Capabilities} {connectionId : UInt64}
    {secret : P.Scalar} {frame : Frame} (hallowed : adv.Allowed n (.accept identity capabilities connectionId secret frame))
    {hello : ClientHello} (hdecode : ClientHello.decode frame.payload = .ok hello)
    (hversion : aetherVersion ∈ hello.supportedVersions) {I : Identity P} (hhonest : adv.honest I.publicKeyBytes)
    (hidentity : hello.identity = I.hash) (hheld : adv.Holds hello.x25519Public) :
    ∃ n' : Net P, Reached step adv.Allowed init n' ∧ ¬ ClientAuthentication adv n' := by
  refine disguised_completes hP h hallowed hdecode hversion hhonest hidentity (fun q hq hsame => ?_) ?_
  · exact (founded_run h).unheld q hq (hsame ▸ hheld)
  · obtain ⟨x, hx, hpublic⟩ := hheld
    refine ⟨x, P.x25519Public secret, hx, ?_⟩
    rw [← hpublic, hdh.comm]

/-- The first client's hello, with the adversary's key in it. -/
def impostor : Party Transparent.symbolic := { sampleParty 1 with secret := (3 : UInt8) }

theorem impostor_completes_sample :
    ∃ n : Net Transparent.symbolic, Reached step (sampleAdversary 3).Allowed init n ∧
      ¬ ClientAuthentication (sampleAdversary 3) n := by
  have hallowed : (sampleAdversary 3).Allowed init (acceptEvent impostor (sampleParty 2)) :=
    ⟨sampleAdversary_holds 3 2 (by decide), fun _ h => absurd h List.not_mem_nil, fun _ h => absurd h List.not_mem_nil⟩
  exact impostor_completes Transparent.symbolic_symbolic (Transparent.agreesOnSecrets _) .start hallowed
    (helloOfClient_decodes impostor) (List.mem_singleton_self _) (I := (sampleParty 1).identity) trivial rfl ⟨_, rfl, rfl⟩

end Net

end

end Aether
