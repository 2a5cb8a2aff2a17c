import Aether.Handshake.Network

/-! What a client's completion says about its server.

The identity proof is a signature on the client's own hello: it says that the
server has seen the hello, and nothing of the server's X25519 key, which an
adversary replaces with its own (`impersonated`). Where the key in a hello that a
client accepts is one that only the server it names can have, a client that
completes shares its key and its transcript with that server
(`server_authenticated`). -/
namespace Aether
open Octets Octets.Method HandshakeContext

namespace Net
variable {P : Primitives}

variable (P) in
/-- What the adversary has of its own, and whom it has not corrupted. -/
structure Adversary where
  /-- The X25519 secrets it has. -/
  secrets : P.Scalar → Prop
  /-- The Ed25519 public keys of the honest servers. -/
  honest : Block 32 → Prop

namespace Adversary

/-- The session keys the adversary can derive. -/
def Knows (adv : Adversary P) (key : P.SessionKey) : Prop :=
  ∃ x peer transcript, adv.secrets x ∧ key = deriveSessionKey (P.diffieHellman x peer) transcript

/-- The adversary holds the secret of this public key. -/
def Holds (adv : Adversary P) (publicKey : Block 32) : Prop :=
  ∃ x, adv.secrets x ∧ P.x25519Public x = publicKey

/-- A secret nobody else has, with a public key nobody has been sent. -/
structure Fresh (adv : Adversary P) (n : Net P) (secret : P.Scalar) : Prop where
  unheld : ¬ adv.Holds (P.x25519Public secret)
  other : ∀ p ∈ n.processes, P.x25519Public p.secret ≠ P.x25519Public secret
  unsent : ∀ p ∈ n.processes, p.context.peerX25519Public ≠ some (P.x25519Public secret)

/-- What the adversary can deliver: a MAC it has seen or can compute, and an
identity proof of an honest server that the server has made. Of everything else
it can deliver any octets. -/
structure CanDeliver (adv : Adversary P) (n : Net P) (i : Nat) (frame : Frame) : Prop where
  mac : ∀ key transcript, frame.payload = computeFinished key transcript →
    (∃ m ∈ n.wire, m.2.payload = frame.payload) ∨ adv.Knows key
  proof : ∀ p hello proof, n.processes[i]? = some p → p.phase = .awaitServerHello →
    ServerHello.decode frame.payload = .ok hello → adv.honest hello.identityPublicKey →
    hello.identityProof = proof.toList →
    Identity.verify P hello.identityPublicKey p.context.transcript proof = .ok () →
    (hello.identityPublicKey, p.context.transcript) ∈ n.signed

/-- Honest parties draw fresh secrets; the adversary delivers what it can. -/
def Allowed (adv : Adversary P) (n : Net P) : NetEvent P → Prop
  | .connect _ _ _ secret => adv.Fresh n secret
  | .accept _ _ _ secret _ => adv.Fresh n secret
  | .deliver i frame => adv.CanDeliver n i frame

/-- The X25519 key in the hello is one that only the server it names can have, and contributory. -/
structure BoundTo (adv : Adversary P) (contributory : Block 32 → Prop) (processes : List (Process P))
    (server publicKey : Block 32) : Prop where
  contributes : contributory publicKey
  unheld : ¬ adv.Holds publicKey
  owner : ∀ q ∈ processes, P.x25519Public q.secret = publicKey →
    q.context.isClient = false ∧ q.identity.publicKeyBytes = server

/-- A client that is given a hello with a good proof of an honest server is given
the X25519 key of that server with it. -/
def KeyBound (adv : Adversary P) (contributory : Block 32 → Prop) (n : Net P) : NetEvent P → Prop
  | .deliver i frame => ∀ p hello proof, n.processes[i]? = some p → p.phase = .awaitServerHello →
    ServerHello.decode frame.payload = .ok hello → adv.honest hello.identityPublicKey →
    hello.identityProof = proof.toList →
    Identity.verify P hello.identityPublicKey p.context.transcript proof = .ok () →
    adv.BoundTo contributory n.processes hello.identityPublicKey hello.x25519Public
  | _ => True

end Adversary

/-- Behind every client that has completed with an honest server stands a context of
that server, with the same key and the same transcript. -/
def ServerAuthentication (adv : Adversary P) (n : Net P) : Prop :=
  ∀ p ∈ n.processes, p.context.isClient = true → p.context.state = .complete →
    ∀ server, p.verifiedKey = some server → adv.honest server →
    ∃ key, p.context.sessionKey = some key ∧ ∃ q ∈ n.processes, q.context.isClient = false ∧
      q.identity.publicKeyBytes = server ∧ q.context.sessionKey = some key ∧
      q.context.transcript = p.context.transcript

/-! ### The invariant -/

variable {contributory : Block 32 → Prop}

/-- What holds of the secrets in a network in which keys are bound. -/
structure Guarded (adv : Adversary P) (contributory : Block 32 → Prop) (n : Net P) : Prop where
  distinct : ∀ (i j : Nat) (p q : Process P), n.processes[i]? = some p → n.processes[j]? = some q →
    P.x25519Public p.secret = P.x25519Public q.secret → i = j
  unheld : ∀ p ∈ n.processes, ¬ adv.Holds (P.x25519Public p.secret)
  bound : ∀ p ∈ n.processes, ∀ server, p.verifiedKey = some server → adv.honest server →
    ∀ publicKey, p.context.peerX25519Public = some publicKey → adv.BoundTo contributory n.processes server publicKey

theorem guarded_init (adv : Adversary P) (contributory : Block 32 → Prop) : Guarded adv contributory init :=
  ⟨fun _ _ _ _ h => absurd (List.mem_of_getElem? h) List.not_mem_nil, fun _ h => absurd h List.not_mem_nil,
    fun _ h => absurd h List.not_mem_nil⟩

/-- A process that starts with a fresh secret leaves everybody's keys bound. -/
theorem Guarded.joined {adv : Adversary P} {n : Net P} (h : Guarded adv contributory n) {p : Process P}
    (hfresh : adv.Fresh n p.secret) (hverified : p.verifiedKey = none) {wire : List Message}
    {signed : List (Block 32 × Bytes)} : Guarded adv contributory ⟨n.processes ++ [p], wire, signed⟩ := by
  have hsplit : ∀ (i : Nat) (q : Process P), (n.processes ++ [p])[i]? = some q →
      n.processes[i]? = some q ∨ (i = n.processes.length ∧ q = p) := by
    intro i q hq
    rw [List.getElem?_append] at hq
    split at hq
    · exact .inl hq
    · have hlt := (List.getElem?_eq_some_iff.mp hq).1
      have hi : i - n.processes.length = 0 := Nat.lt_one_iff.mp hlt
      rw [hi] at hq
      cases hq
      exact .inr ⟨by omega, rfl⟩
  refine ⟨?_, ?_, ?_⟩
  · intro i j q r hq hr heq
    rcases hsplit i q hq with hold | ⟨hi, hnew⟩
    · rcases hsplit j r hr with hold' | ⟨_, hnew'⟩
      · exact h.distinct i j q r hold hold' heq
      · exact absurd (hnew' ▸ heq) (hfresh.other q (List.mem_of_getElem? hold))
    · rcases hsplit j r hr with hold' | ⟨hj, _⟩
      · exact absurd (hnew ▸ heq.symm) (hfresh.other r (List.mem_of_getElem? hold'))
      · rw [hi, hj]
  · intro q hq
    rcases List.mem_append.mp hq with hq | hq
    · exact h.unheld q hq
    · cases List.mem_singleton.mp hq
      exact hfresh.unheld
  · intro q hq server hserver hhonest publicKey hpeer
    rcases List.mem_append.mp hq with hq | hq
    · have hbound := h.bound q hq server hserver hhonest publicKey hpeer
      refine ⟨hbound.contributes, hbound.unheld, fun r hr hkey => ?_⟩
      rcases List.mem_append.mp hr with hr | hr
      · exact hbound.owner r hr hkey
      · cases List.mem_singleton.mp hr
        exact absurd (by rw [hpeer, hkey]) (hfresh.unsent q hq)
    · cases List.mem_singleton.mp hq
      exact absurd (hverified.symm.trans hserver) nofun

/-- A process that takes a frame leaves everybody's keys bound, if it is given a
bound one. -/
theorem Guarded.reacted {adv : Adversary P} {n : Net P} (h : Guarded adv contributory n) {i : Nat} {frame : Frame}
    {p p' : Process P} {sent : List Message} (hp : p.Sound) (present : n.processes[i]? = some p)
    (reacts : p.Reacts frame p' sent) (hbound : adv.KeyBound contributory n (.deliver i frame)) {wire : List Message} :
    Guarded adv contributory ⟨n.processes.set i p', wire, n.signed⟩ := by
  have hlater := reacts.later hp
  have hmem := List.mem_of_getElem? present
  -- Where a process stands in the list before, with the same secret.
  have hbefore : ∀ (j : Nat) (q : Process P), (n.processes.set i p')[j]? = some q →
      ∃ r, n.processes[j]? = some r ∧ q.secret = r.secret ∧ (q = r ∨ r = p ∧ q = p') := by
    intro j q hq
    by_cases hij : i = j
    · subst hij
      have hlt : i < n.processes.length := (List.getElem?_eq_some_iff.mp present).1
      rw [List.getElem?_set_self hlt] at hq
      cases hq
      exact ⟨p, present, hlater.secret, .inr ⟨rfl, rfl⟩⟩
    · rw [List.getElem?_set_ne hij] at hq
      exact ⟨q, hq, rfl, .inl rfl⟩
  have hafter : ∀ server publicKey, adv.BoundTo contributory n.processes server publicKey →
      adv.BoundTo contributory (n.processes.set i p') server publicKey := by
    intro server publicKey hold
    refine ⟨hold.contributes, hold.unheld, fun q hq hkey => ?_⟩
    rcases List.mem_or_eq_of_mem_set hq with hq | rfl
    · exact hold.owner q hq hkey
    · rw [hlater.role, hlater.identity]
      exact hold.owner p hmem (by rw [← hlater.secret, hkey])
  refine ⟨?_, ?_, ?_⟩
  · intro j k q r hq hr heq
    obtain ⟨q₀, hq₀, hqs, _⟩ := hbefore j q hq
    obtain ⟨r₀, hr₀, hrs, _⟩ := hbefore k r hr
    exact h.distinct j k q₀ r₀ hq₀ hr₀ (by rw [← hqs, ← hrs, heq])
  · intro q hq
    rcases List.mem_or_eq_of_mem_set hq with hq | rfl
    · exact h.unheld q hq
    · rw [hlater.secret]
      exact h.unheld p hmem
  · intro q hq server hserver hhonest publicKey hpeer
    refine hafter server publicKey ?_
    rcases List.mem_or_eq_of_mem_set hq with hq | rfl
    · exact h.bound q hq server hserver hhonest publicKey hpeer
    · cases reacts with
      | greeted hello proof phase decodes octets verifies =>
        cases hserver
        cases hpeer
        exact hbound p hello proof present phase decodes hhonest octets verifies
      | finished => exact h.bound p hmem server hserver hhonest publicKey hpeer
      | confirmed => exact h.bound p hmem server hserver hhonest publicKey hpeer
      | aborted context phase state key role same =>
        by_cases hgreeting : p.phase = .awaitServerHello
        · exact absurd ((hp.greeting hgreeting).2.2.2.2.symm.trans hserver) nofun
        · cases same hgreeting
          exact h.bound p hmem server hserver hhonest publicKey hpeer

/-! ### Authentication -/

/-- The adversary does not know the key of a client whose peer's key it does not hold. -/
theorem not_knows (hP : P.Symbolic) (hsecrets : P.TakesSecret contributory) {adv : Adversary P} {secret : P.Scalar}
    {publicKey : Block 32} {transcript : Bytes}
    (hsecret : ¬ adv.Holds (P.x25519Public secret)) (hcontributes : contributory publicKey)
    (hpeer : ¬ adv.Holds publicKey) : ¬ adv.Knows (deriveSessionKey (P.diffieHellman secret publicKey) transcript) := by
  intro h
  obtain ⟨x, peer, transcript', hx, hkey⟩ := h
  obtain ⟨hshared, _⟩ := hP.hkdf hkey.symm
  rcases hsecrets.diffieHellman hcontributes hshared with hx' | hx'
  · exact hsecret ⟨x, hx, hx'⟩
  · exact hpeer ⟨x, hx, hx'⟩

/-- A client that has accepted the proof of an honest server and now accepts a
Finished has it from that server. -/
theorem server_of_finished (hP : P.Symbolic) (hsecrets : P.TakesSecret contributory)
    (hhello : P.TellsMacsFromHellos) {adv : Adversary P} {n : Net P}
    (hn : n.Sound) (hguarded : Guarded adv contributory n) {i : Nat} {frame : Frame} {p : Process P}
    (present : n.processes[i]? = some p) (phase : p.phase = .awaitServerFinished)
    (hdeliver : adv.CanDeliver n i frame) {key : P.SessionKey} (hasKey : p.context.sessionKey = some key)
    (mac : frame.payload = computeFinished key p.context.transcript) {server : Block 32}
    (hverified : p.verifiedKey = some server) (hhonest : adv.honest server) :
    ∃ q ∈ n.processes, q.context.isClient = false ∧ q.identity.publicKeyBytes = server ∧
      q.context.sessionKey = some key ∧ q.context.transcript = p.context.transcript := by
  have hp := List.mem_of_getElem? present
  have hsound := hn.processes p hp
  obtain ⟨publicKey, hpeer, hkey⟩ := hsound.keyed key hasKey
  have hbound := hguarded.bound p hp server hverified hhonest publicKey hpeer
  rcases hdeliver.mac key p.context.transcript mac with ⟨m, hm, hpayload⟩ | hknows
  · obtain ⟨q, hq, hasKey', htranscript, _, hauthor⟩ := author_of_mac hP hhello hn hm (hpayload.trans mac)
    obtain ⟨peer', _, hkey'⟩ := (hn.processes q hq).keyed key hasKey'
    obtain ⟨hshared, _⟩ := hP.hkdf (hkey'.symm.trans hkey)
    rcases hsecrets.diffieHellman hbound.contributes hshared with hsame | howner
    · -- The sender would be the client itself, which has sent no Finished yet.
      obtain ⟨j, hj⟩ := List.mem_iff_getElem?.mp hq
      cases hguarded.distinct j i q p hj present hsame
      cases hj.symm.trans present
      rcases hauthor with ⟨_, hserver⟩ | ⟨_, _, hdone⟩
      · exact absurd ((hsound.waiting phase).1.symm.trans hserver) nofun
      · exact absurd (phase.symm.trans hdone) nofun
    · obtain ⟨hrole, hidentity⟩ := hbound.owner q hq howner
      exact ⟨q, hq, hrole, hidentity, hasKey', htranscript⟩
  · rw [hkey] at hknows
    exact absurd hknows (not_knows hP hsecrets (hguarded.unheld p hp) hbound.contributes hbound.unheld)

theorem serverAuthentication_init (adv : Adversary P) : ServerAuthentication adv init :=
  fun _ h => absurd h List.not_mem_nil

/-- A server keeps its name, its key and its transcript. -/
theorem Continues.server {ps qs : List (Process P)} (h : Continues ps qs) {server : Block 32} {key : P.SessionKey}
    {transcript : Bytes} (hps : ∃ q ∈ ps, q.context.isClient = false ∧ q.identity.publicKeyBytes = server ∧
      q.context.sessionKey = some key ∧ q.context.transcript = transcript) :
    ∃ q ∈ qs, q.context.isClient = false ∧ q.identity.publicKeyBytes = server ∧
      q.context.sessionKey = some key ∧ q.context.transcript = transcript := by
  obtain ⟨q, hq, hserver, hidentity, hkey, htranscript⟩ := hps
  obtain ⟨r, hr, hlater⟩ := h q hq
  obtain ⟨hkey', htranscript', _⟩ := hlater.keys key hkey
  exact ⟨r, hr, hlater.role.trans hserver, by rw [hlater.identity, hidentity], hkey', htranscript'.trans htranscript⟩

/-- One step keeps clients authenticated, whatever the adversary delivers. -/
theorem serverAuthentication_step (hP : P.Symbolic) (hsecrets : P.TakesSecret contributory)
    (hhello : P.TellsMacsFromHellos) {adv : Adversary P} {n n' : Net P}
    {e : NetEvent P} (hn : n.Sound) (hguarded : Guarded adv contributory n) (hauth : ServerAuthentication adv n)
    (hallowed : adv.Allowed n e) (h : n.Moves e n') : ServerAuthentication adv n' := by
  have hcontinues := h.continues hn
  have hcomplete := h.forall_complete hn
    (Q := fun ps p => p.context.isClient = true → ∀ server, p.verifiedKey = some server → adv.honest server →
      ∃ key, p.context.sessionKey = some key ∧ ∃ q ∈ ps, q.context.isClient = false ∧
        q.identity.publicKeyBytes = server ∧ q.context.sessionKey = some key ∧
        q.context.transcript = p.context.transcript)
    (fun p hp hstate hrole => hauth p hp hrole hstate) ?_ ?_
  · exact fun p hp hrole hstate => hcomplete p hp hstate hrole
  · intro p hold hrole server hverified hhonest
    obtain ⟨key, hkey, hserver⟩ := hold hrole server hverified hhonest
    exact ⟨key, hkey, hcontinues.server hserver⟩
  · rintro i frame p key rfl haccepts hrole server hverified hhonest
    exact ⟨key, haccepts.hasKey, hcontinues.server (server_of_finished hP hsecrets hhello hn hguarded haccepts.present
      (haccepts.client hn hrole) hallowed haccepts.hasKey haccepts.mac hverified hhonest)⟩

/-- One step keeps secrets apart and keys bound. -/
theorem guarded_step {adv : Adversary P} {n n' : Net P} {e : NetEvent P} (hn : n.Sound)
    (hguarded : Guarded adv contributory n) (hallowed : adv.Allowed n e) (hbound : adv.KeyBound contributory n e)
    (h : n.Moves e n') : Guarded adv contributory n' := by
  cases h with
  | joined _ p sent signed drawn started =>
    cases e with
    | connect identity capabilities connectionId secret =>
      cases drawn
      exact hguarded.joined hallowed started.verifiedKey
    | accept identity capabilities connectionId secret frame =>
      cases drawn
      exact hguarded.joined hallowed started.verifiedKey
    | deliver => cases drawn
  | reacted i frame p p' sent present reacts =>
    exact hguarded.reacted (hn.processes p (List.mem_of_getElem? present)) present reacts hbound

/-- **Where accepted hellos carry the key of the server they name, a client that
completes has completed with it**, against an adversary that owns the network, if keys of
this kind take a secret to share one with. -/
theorem server_authenticated (hP : P.Symbolic) (hsecrets : P.TakesSecret contributory)
    (hhello : P.TellsMacsFromHellos) (adv : Adversary P) {n : Net P}
    (h : Reached step (fun n e => adv.Allowed n e ∧ adv.KeyBound contributory n e) init n) :
    ServerAuthentication adv n := by
  refine (h.invariant (I := fun n => n.Sound ∧ Guarded adv contributory n ∧ ServerAuthentication adv n)
    ⟨sound_init, guarded_init adv contributory, serverAuthentication_init adv⟩ ?_).2.2
  intro s e t hs he hstep
  obtain ⟨hsound, hguarded, hauth⟩ := hs
  obtain ⟨hallowed, hbound⟩ := he
  have hmoves := moves_of_step hsound hstep
  exact ⟨hmoves.sound hsound, guarded_step hsound hguarded hallowed hbound hmoves,
    serverAuthentication_step hP hsecrets hhello hsound hguarded hauth hallowed hmoves⟩

/-! ### A run that is authenticated -/

section
variable {adv : Adversary P} {client server : Party P}

theorem fresh_connect (hclient : ¬ adv.Holds (P.x25519Public client.secret)) :
    adv.Allowed init (connectEvent client) :=
  ⟨hclient, fun _ h => absurd h List.not_mem_nil, fun _ h => absurd h List.not_mem_nil⟩

theorem fresh_accept (hserver : ¬ adv.Holds (P.x25519Public server.secret))
    (hapart : P.x25519Public client.secret ≠ P.x25519Public server.secret) :
    adv.Allowed (greeted client) (acceptEvent client server) := by
  refine ⟨hserver, fun p hp => ?_, fun p hp => ?_⟩
  · cases List.mem_singleton.mp hp
    exact hapart
  · cases List.mem_singleton.mp hp
    exact nofun

theorem other_phase {n : Net P} {i : Nat} {p : Process P} (present : n.processes[i]? = some p)
    (phase : p.phase ≠ .awaitServerHello) : ∀ q, n.processes[i]? = some q → q.phase ≠ .awaitServerHello := by
  intro q hq
  cases hq.symm.trans present
  exact phase

/-- Of what a process is given that does not wait for a hello, only a MAC matters. -/
theorem allowed_of_phase {n : Net P} {i : Nat} {frame : Frame} {p : Process P} (present : n.processes[i]? = some p)
    (phase : p.phase ≠ .awaitServerHello)
    (mac : ∀ key transcript, frame.payload = computeFinished key transcript →
      (∃ m ∈ n.wire, m.2.payload = frame.payload) ∨ adv.Knows key) : adv.Allowed n (.deliver i frame) :=
  ⟨mac, fun q _ _ hq hphase => absurd hphase (other_phase present phase q hq)⟩

theorem keyBound_of_phase {n : Net P} {i : Nat} {frame : Frame} {p : Process P} (present : n.processes[i]? = some p)
    (phase : p.phase ≠ .awaitServerHello) : adv.KeyBound contributory n (.deliver i frame) :=
  fun q _ _ hq hphase => absurd hphase (other_phase present phase q hq)

/-- A server's own hello can be delivered. -/
theorem allowed_serverHello (hhello : P.TellsMacsFromHellos) :
    adv.Allowed (answered client server) (.deliver 0 (serverHelloFrame client server)) := by
  refine ⟨fun key transcript hmac => ?_, fun p hello proof hp _ hdecode _ _ _ => ?_⟩
  · exact absurd hmac.symm (hhello.server (h := helloOfServer client server) rfl)
  · cases hp
    cases (helloOfServer_decodes client server).symm.trans hdecode
    exact List.mem_singleton_self _

/-- The run nobody interferes with is allowed, and its keys are bound. -/
theorem reached_bound (hdh : P.AgreesOnSecrets) (hsig : P.VerifiesSignatures) (hhello : P.TellsMacsFromHellos)
    (hclient : ¬ adv.Holds (P.x25519Public client.secret)) (hserver : ¬ adv.Holds (P.x25519Public server.secret))
    (hcontributes : contributory (P.x25519Public server.secret))
    (hapart : P.x25519Public client.secret ≠ P.x25519Public server.secret) :
    Reached step (fun n e => adv.Allowed n e ∧ adv.KeyBound contributory n e) init (confirmed client server) := by
  have hkeyed : (keyedProcess client server).phase ≠ .awaitServerHello := by
    intro h
    cases h
  have hanswering : (answeringProcess client server).phase ≠ .awaitServerHello := by
    intro h
    cases h
  refine reached_confirmed client server hdh hsig ⟨fresh_connect hclient, trivial⟩
    ⟨fresh_accept hserver hapart, trivial⟩ ⟨allowed_serverHello hhello, ?_⟩
    ⟨allowed_of_phase (p := keyedProcess client server) rfl hkeyed ?_,
      keyBound_of_phase (p := keyedProcess client server) rfl hkeyed⟩
    ⟨allowed_of_phase (p := answeringProcess client server) rfl hanswering ?_,
      keyBound_of_phase (p := answeringProcess client server) rfl hanswering⟩
  · intro p hello proof hp _ hdecode _ _ _
    cases hp
    cases (helloOfServer_decodes client server).symm.trans hdecode
    refine ⟨hcontributes, hserver, fun q hq hkey => ?_⟩
    rcases List.mem_cons.mp hq with rfl | hq
    · exact absurd hkey hapart
    · cases List.mem_singleton.mp hq
      exact ⟨rfl, rfl⟩
  · intro key transcript _
    exact .inl ⟨_, List.mem_cons_of_mem _ (List.mem_cons_of_mem _ List.mem_cons_self), rfl⟩
  · intro key transcript _
    exact .inl ⟨_, List.mem_append_right _ (List.mem_singleton_self _), rfl⟩

/-- What a party with this octet for a secret knows, among parties it has not corrupted. -/
def sampleAdversary (seed : UInt8) : Adversary Transparent.symbolic :=
  ⟨fun x => x = seed, fun _ => True⟩

theorem sampleAdversary_holds (seed seed' : UInt8) (hne : seed ≠ seed') :
    ¬ (sampleAdversary seed).Holds (Transparent.publicKey seed') := by
  intro h
  obtain ⟨x, hx, hkey⟩ := h
  have hhead : x = seed' := congrArg (fun k : Block 32 => k.toList.headD 0) hkey
  exact hne (hx.symm.trans hhead)

theorem server_authenticated_sample :
    ServerAuthentication (sampleAdversary 3) (confirmed (sampleParty 1) (sampleParty 2)) :=
  server_authenticated Transparent.symbolic_symbolic (Transparent.symbolic_takesSecret Transparent.symbolic.Genuine)
    Transparent.symbolic_tellsMacsFromHellos (sampleAdversary 3)
    (reached_bound (Transparent.agreesOnSecrets _) (Transparent.verifiesSignatures _)
      Transparent.symbolic_tellsMacsFromHellos (sampleAdversary_holds 3 1 (by decide)) (sampleAdversary_holds 3 2 (by decide))
      ⟨(sampleParty 2).secret, rfl⟩ (by decide))

end

/-! ### A run that is not -/

section
variable (client server : Party P) (x : P.Scalar)

/-- The server's hello with another X25519 key: the proof is still good. -/
def forgedHello : ServerHello := { helloOfServer client server with x25519Public := P.x25519Public x }

def forgedHelloFrame : Frame := { serverHelloFrame client server with payload := (forgedHello client server x).encode }

def forgedTranscript : Bytes := signedTranscript client ++ (serverHelloTag ++ (forgedHello client server x).encode)

/-- The key, as the adversary computes it. -/
def forgedKey : P.SessionKey :=
  deriveSessionKey (P.diffieHellman x (P.x25519Public client.secret)) (forgedTranscript client server x)

def forgedFinishedFrame : Frame :=
  { serverFinishedFrame client server with
    payload := computeFinished (forgedKey client server x) (forgedTranscript client server x) }

/-- A client that has accepted the forged hello. -/
def deceivedProcess : Process P :=
  ⟨client.identity, client.secret, some server.identity.publicKeyBytes,
    (greetingContext client).accepted client.secret (forgedHelloFrame client server x) (forgedHello client server x),
    .awaitServerFinished⟩

/-- What a client that accepts the forged Finished answers. -/
def deceivedFinishedFrame : Frame :=
  (deceivedProcess client server x).context.finishedOf (forgedKey client server x) server.connectionId

/-- And the forged Finished. -/
def impersonatedProcess : Process P :=
  { deceivedProcess client server x with
    context := { (deceivedProcess client server x).context with state := .complete }
    phase := .done }

theorem forgedHello_decodes :
    ServerHello.decode (forgedHelloFrame client server x).payload = .ok (forgedHello client server x) :=
  ServerHello.decode_encode_signed (helloOfServer_signed client server)

theorem receive_forgedHello (hsig : P.VerifiesSignatures) :
    (greetingProcess client).receive (forgedHelloFrame client server x) =
      some (deceivedProcess client server x, []) := by
  have hverify := Identity.verify_sign hsig server.identity (signedTranscript client)
  have hexec := handleServerHello_eq_ok (c := greetingContext client) |>.mpr
    ⟨_, _, client.secret, forgedHello_decodes client server x, rfl, hverify, rfl, rfl⟩
  simp only [Process.receive, greetingProcess, Process.namedKey, hexec, forgedHello_decodes]
  rfl

theorem receive_forgedFinished (hdh : P.AgreesOnSecrets) :
    (deceivedProcess client server x).receive (forgedFinishedFrame client server x) =
      some (impersonatedProcess client server x, [(.clientFinished, deceivedFinishedFrame client server x)]) := by
  have hkey : (deceivedProcess client server x).context.sessionKey = some (forgedKey client server x) := by
    rw [forgedKey, hdh.comm]
    rfl
  have hexec := handleFinishedAndRespond_eq_ok.mpr
    ⟨_, _, hkey, rfl, (rfl : (forgedFinishedFrame client server x).payload = _), rfl, rfl⟩
  have hphase : (deceivedProcess client server x).phase = .awaitServerFinished := rfl
  simp only [Process.receive, hphase, hexec]
  rfl

theorem forgedTranscript_ne (hkey : P.x25519Public x ≠ P.x25519Public server.secret) :
    fullTranscript client server ≠ forgedTranscript client server x := by
  intro h
  have hencode : (helloOfServer client server).encode = (forgedHello client server x).encode :=
    List.append_cancel_left (List.append_cancel_left h)
  have hhello : helloOfServer client server = forgedHello client server x := by
    have hdecode := helloOfServer_decodes client server
    have hdecode' := forgedHello_decodes client server x
    exact Except.ok.inj (hdecode.symm.trans ((congrArg ServerHello.decode hencode).trans hdecode'))
  exact hkey (congrArg ServerHello.x25519Public hhello).symm

/-- Whoever the parties are, an adversary with an X25519 secret of its own completes
with the client in the server's name. -/
theorem impersonated (hP : P.Symbolic) (hdh : P.AgreesOnSecrets) (hsig : P.VerifiesSignatures)
    (hhello : P.TellsMacsFromHellos) {adv : Adversary P} (hx : adv.secrets x)
    (hhonest : adv.honest server.identity.publicKeyBytes)
    (hclient : ¬ adv.Holds (P.x25519Public client.secret)) (hserver : ¬ adv.Holds (P.x25519Public server.secret))
    (hapart : P.x25519Public client.secret ≠ P.x25519Public server.secret) :
    ∃ n : Net P, Reached step adv.Allowed init n ∧ ¬ ServerAuthentication adv n := by
  have hanswered : Reached step adv.Allowed init (answered client server) :=
    reached_answered client server (fresh_connect hclient) (fresh_accept hserver hapart)
  have hdeliver : adv.Allowed (answered client server) (.deliver 0 (forgedHelloFrame client server x)) := by
    refine ⟨fun key transcript hmac => ?_, fun p hello proof hp _ hdecode _ _ _ => ?_⟩
    · exact absurd hmac.symm (hhello.server (h := forgedHello client server x) rfl)
    · cases hp
      cases (forgedHello_decodes client server x).symm.trans hdecode
      exact List.mem_singleton_self _
  have hdeceived := Reached.next _ hanswered hdeliver (step_deliver rfl (receive_forgedHello client server x hsig))
  have hreceive := receive_forgedFinished client server x hdh
  refine ⟨_, .next (.deliver 0 (forgedFinishedFrame client server x)) hdeceived
    (allowed_of_phase (p := deceivedProcess client server x) rfl nofun fun key transcript hmac => ?_)
    (step_deliver rfl hreceive), fun hauth => ?_⟩
  · obtain ⟨rfl, _⟩ := hP.hmac hmac
    exact .inr ⟨x, _, _, hx, rfl⟩
  · obtain ⟨_, _, q, hq, hrole, _, _, htranscript⟩ :=
      hauth (impersonatedProcess client server x) List.mem_cons_self rfl rfl _ rfl hhonest
    rcases List.mem_cons.mp hq with rfl | hq
    · cases hrole
    · cases List.mem_singleton.mp hq
      exact forgedTranscript_ne client server x (fun hkey => hserver ⟨x, hx, hkey⟩) htranscript

end

theorem impersonated_sample :
    ∃ n : Net Transparent.symbolic, Reached step (sampleAdversary 3).Allowed init n ∧
      ¬ ServerAuthentication (sampleAdversary 3) n :=
  impersonated (sampleParty 1) (sampleParty 2) (3 : UInt8) Transparent.symbolic_symbolic
    (Transparent.agreesOnSecrets _) (Transparent.verifiesSignatures _) Transparent.symbolic_tellsMacsFromHellos
    rfl trivial (sampleAdversary_holds 3 1 (by decide)) (sampleAdversary_holds 3 2 (by decide)) (by decide)

end Net

end Aether
