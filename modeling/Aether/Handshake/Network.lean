import Aether.Handshake.Honest
import Aether.Library.Runs

/-! Handshake contexts on a network.

A process is one context and where it is in the protocol, driven as the
connection drives it: a client waits for a hello and then for a Finished, a server
answers a hello with its own and a Finished and waits for one; whoever gets an
error gives up. The network holds the processes, every frame they have sent with
what it was sent as, and what has been signed. Who may deliver what is left to
the modules that say what an attacker can do.

`Process.Reacts` says once what a process can do on a frame, `Net.Moves` what a step
can do; `Net.Sound` is what holds whatever is delivered. -/
namespace Aether
open Octets Octets.Method

section
variable {P : Primitives}

inductive Phase where
  | awaitServerHello
  | awaitServerFinished
  | awaitClientFinished
  | done
  | aborted
  deriving DecidableEq, Repr

/-- What a frame was sent as. -/
inductive Origin where
  | clientHello
  | serverHello
  | serverFinished
  | clientFinished
  deriving DecidableEq, Repr

variable (P) in
structure Process where
  identity : Identity P
  /-- The secret the context was given; the context itself drops it. -/
  secret : P.Scalar
  /-- The Ed25519 key under which an identity proof was verified. -/
  verifiedKey : Option (Block 32)
  context : HandshakeContext P
  phase : Phase

abbrev Message := Origin × Frame

namespace Process
open HandshakeContext

/-- A client starts. -/
def connect (identity : Identity P) (capabilities : Capabilities) (connectionId : UInt64) (secret : P.Scalar) :
    Option (Process P × List Message) :=
  match (createClientHello secret identity capabilities).exec (newClient connectionId) with
  | (.ok hello, context) =>
    some (⟨identity, secret, none, context, .awaitServerHello⟩, [(.clientHello, hello)])
  | (.error _, _) => none

/-- A server answers a hello, if it can. -/
def accept (identity : Identity P) (capabilities : Capabilities) (connectionId : UInt64) (secret : P.Scalar)
    (frame : Frame) : Option (Process P × List Message) :=
  match (handleClientHello connectionId secret frame identity capabilities).exec newServer with
  | (.ok hello, context) =>
    match context.createFinished with
    | .ok finished =>
      some (⟨identity, secret, none, context, .awaitClientFinished⟩,
        [(.serverHello, hello), (.serverFinished, finished)])
    | .error _ => none
  | (.error _, _) => none

/-- The Ed25519 key a frame's hello names. -/
def namedKey (frame : Frame) : Option (Block 32) :=
  match ServerHello.decode frame.payload with
  | .ok hello => some hello.identityPublicKey
  | .error _ => none

/-- A process takes a frame, as what it is waiting for. -/
def receive (p : Process P) (frame : Frame) : Option (Process P × List Message) :=
  match p.phase with
  | .awaitServerHello =>
    match (handleServerHello frame).exec p.context with
    | (.ok _, context) =>
      some ({ p with context, phase := .awaitServerFinished, verifiedKey := namedKey frame }, [])
    | (.error _, context) => some ({ p with context, phase := .aborted }, [])
  | .awaitServerFinished =>
    match (handleFinishedAndRespond frame).exec p.context with
    | (.ok finished, context) => some ({ p with context, phase := .done }, [(.clientFinished, finished)])
    | (.error _, context) => some ({ p with context, phase := .aborted }, [])
  | .awaitClientFinished =>
    match (HandshakeContext.verifyFinished frame).exec p.context with
    | (.ok _, context) => some ({ p with context, phase := .done }, [])
    | (.error _, context) => some ({ p with context, phase := .aborted }, [])
  | .done | .aborted => none

/-! ### What a process does -/

theorem connect_eq_some {identity : Identity P} {capabilities : Capabilities} {connectionId : UInt64}
    {secret : P.Scalar} {p : Process P} {sent : List Message}
    (h : connect identity capabilities connectionId secret = some (p, sent)) :
    ∃ frame : Frame,
      frame.payload = (ClientHello.new connectionId (P.x25519Public secret) identity capabilities).encode ∧
      sent = [(.clientHello, frame)] ∧
      p = ⟨identity, secret, none,
        { newClient connectionId with
          x25519Secret := some secret
          transcript := clientHelloTag ++ frame.payload
          state := .helloSent }, .awaitServerHello⟩ := by
  rw [connect, exec_createClientHello] at h
  cases h
  exact ⟨_, rfl, rfl, rfl⟩

theorem accept_eq_some {identity : Identity P} {capabilities : Capabilities} {connectionId : UInt64}
    {secret : P.Scalar} {frame : Frame} {p : Process P} {sent : List Message}
    (h : accept identity capabilities connectionId secret frame = some (p, sent)) :
    ∃ (hello : ClientHello) (answer finished : Frame), ClientHello.decode frame.payload = .ok hello ∧
      p = ⟨identity, secret, none, newServer.answered connectionId secret frame hello identity capabilities,
        .awaitClientFinished⟩ ∧
      p.context.createFinished = .ok finished ∧
      answer.payload = (newServer.serverHelloOf connectionId secret frame hello identity capabilities).encode ∧
      sent = [(.serverHello, answer), (.serverFinished, finished)] := by
  rw [accept] at h
  split at h
  · rename_i answer context hexec
    obtain ⟨hello, hdecode, _, rfl, rfl⟩ := handleClientHello_eq_ok.mp hexec
    have hcreates := createFinished_eq_ok.mpr
      ⟨_, _, rfl, rfl, (rfl : (newServer.answered connectionId secret frame hello identity capabilities).finishedOf
        _ hello.connectionId = _)⟩
    rw [hcreates] at h
    cases h
    exact ⟨hello, _, _, hdecode, rfl, hcreates, rfl, rfl⟩
  · cases h

/-- A server's transcript ends with its hello, which names both connection IDs. -/
def Answers (p : Process P) : Prop :=
  ∃ (before : Bytes) (hello : ServerHello), p.context.transcript = before ++ hello.encode ∧
    hello.identityProof.length = 64 ∧ hello.sourceConnectionId = p.context.ourConnectionId ∧
    p.context.peerConnectionId = some hello.destConnectionId

/-- What holds of a process whatever it is sent. -/
structure Sound (p : Process P) : Prop where
  greeting : p.phase = .awaitServerHello → p.context.isClient = true ∧ p.context.state = .helloSent ∧
    p.context.sessionKey = none ∧ p.context.x25519Secret = some p.secret ∧ p.verifiedKey = none
  waiting : p.phase = .awaitServerFinished → p.context.isClient = true ∧ p.context.state = .keysDerived ∧
    ∃ cid, p.context.peerConnectionId = some cid
  confirming : p.phase = .awaitClientFinished → p.context.isClient = false ∧ p.context.state = .keysDerived
  aborted : p.phase = .aborted → p.context.state ≠ .complete
  keyed : ∀ key, p.context.sessionKey = some key → ∃ peer, p.context.peerX25519Public = some peer ∧
    key = deriveSessionKey (P.diffieHellman p.secret peer) p.context.transcript
  answers : p.context.isClient = false → p.Answers

/-- The ways a process takes a frame. -/
inductive Reacts (p : Process P) (frame : Frame) : Process P → List Message → Prop where
  /-- A client accepts a hello. -/
  | greeted (hello : ServerHello) (proof : Block 64) (phase : p.phase = .awaitServerHello)
      (decodes : ServerHello.decode frame.payload = .ok hello) (octets : hello.identityProof = proof.toList)
      (verifies : Identity.verify P hello.identityPublicKey p.context.transcript proof = .ok ()) :
      Reacts p frame
        { p with
          context := p.context.accepted p.secret frame hello
          phase := .awaitServerFinished
          verifiedKey := some hello.identityPublicKey } []
  /-- A client accepts a Finished and answers. -/
  | finished (key : P.SessionKey) (answer : Frame) (phase : p.phase = .awaitServerFinished)
      (hasKey : p.context.sessionKey = some key) (mac : frame.payload = computeFinished key p.context.transcript)
      (creates : p.context.createFinished = .ok answer) :
      Reacts p frame { p with context := { p.context with state := .complete }, phase := .done }
        [(.clientFinished, answer)]
  /-- A server accepts a Finished. -/
  | confirmed (key : P.SessionKey) (phase : p.phase = .awaitClientFinished)
      (hasKey : p.context.sessionKey = some key) (mac : frame.payload = computeFinished key p.context.transcript) :
      Reacts p frame { p with context := { p.context with state := .complete }, phase := .done } []
  | aborted (context : HandshakeContext P) (phase : p.phase ≠ .done) (state : context.state = p.context.state)
      (key : context.sessionKey = p.context.sessionKey) (role : context.isClient = p.context.isClient)
      (same : p.phase ≠ .awaitServerHello → context = p.context) :
      Reacts p frame { p with context, phase := .aborted } []

theorem reacts_of_receive {p p' : Process P} {frame : Frame} {sent : List Message} (hp : p.Sound)
    (h : p.receive frame = some (p', sent)) : p.Reacts frame p' sent := by
  unfold receive at h
  cases hphase : p.phase with
  | awaitServerHello =>
    obtain ⟨_, _, _, hsecret, _⟩ := hp.greeting hphase
    simp only [hphase] at h
    split at h
    · rename_i context hexec
      obtain ⟨hello, proof, secret, hdecode, hproof, hverify, hsecret', rfl⟩ := handleServerHello_eq_ok.mp hexec
      cases hsecret.symm.trans hsecret'
      simp only [namedKey, hdecode] at h
      cases h
      exact .greeted hello proof hphase hdecode hproof hverify
    · rename_i e context hexec
      obtain ⟨hstate, hkey, hrole⟩ := handleServerHello_error hexec
      cases h
      exact .aborted context (by rw [hphase]; decide) hstate hkey hrole (fun hne => absurd hphase hne)
  | awaitServerFinished =>
    obtain ⟨_, _, cid, hcid⟩ := hp.waiting hphase
    simp only [hphase] at h
    split at h
    · rename_i finished context hexec
      obtain ⟨key, peerCid, hkey, hpeer, hmac, hanswer, rfl⟩ := handleFinishedAndRespond_eq_ok.mp hexec
      cases h
      exact .finished key finished hphase hkey hmac (createFinished_eq_ok.mpr ⟨key, peerCid, hkey, hpeer, hanswer⟩)
    · rename_i e context hexec
      cases handleFinishedAndRespond_error hcid hexec
      cases h
      exact .aborted p.context (by rw [hphase]; decide) rfl rfl rfl (fun _ => rfl)
  | awaitClientFinished =>
    simp only [hphase] at h
    split at h
    · rename_i context hexec
      obtain ⟨key, hkey, hmac, rfl⟩ := HandshakeContext.verifyFinished_eq_ok.mp hexec
      cases h
      exact .confirmed key hphase hkey hmac
    · rename_i e context hexec
      cases HandshakeContext.verifyFinished_error hexec
      cases h
      exact .aborted p.context (by rw [hphase]; decide) rfl rfl rfl (fun _ => rfl)
  | done =>
    rw [hphase] at h
    cases h
  | aborted =>
    rw [hphase] at h
    cases h

theorem Reacts.sound {p p' : Process P} {frame : Frame} {sent : List Message} (h : p.Reacts frame p' sent)
    (hp : p.Sound) : p'.Sound := by
  cases h with
  | greeted hello proof phase =>
    obtain ⟨hrole, _⟩ := hp.greeting phase
    refine ⟨nofun, fun _ => ⟨hrole, rfl, _, rfl⟩, nofun, nofun, ?_, fun hserver => ?_⟩
    · intro key hkey
      cases hkey
      exact ⟨_, rfl, rfl⟩
    · exact absurd (hrole.symm.trans hserver) nofun
  | finished key answer phase => exact ⟨nofun, nofun, nofun, nofun, hp.keyed, hp.answers⟩
  | confirmed key phase => exact ⟨nofun, nofun, nofun, nofun, hp.keyed, hp.answers⟩
  | aborted context phase state key role same =>
    refine ⟨nofun, nofun, nofun, ?_, ?_, ?_⟩
    · intro _ hcomplete
      have hstate : p.context.state = .complete := state.symm.trans hcomplete
      cases hphase : p.phase with
      | awaitServerHello => exact absurd ((hp.greeting hphase).2.1.symm.trans hstate) nofun
      | awaitServerFinished => exact absurd ((hp.waiting hphase).2.1.symm.trans hstate) nofun
      | awaitClientFinished => exact absurd ((hp.confirming hphase).2.symm.trans hstate) nofun
      | done => exact phase hphase
      | aborted => exact hp.aborted hphase hstate
    · intro key' hkey'
      by_cases hgreeting : p.phase = .awaitServerHello
      · have hnone := (hp.greeting hgreeting).2.2.1
        exact absurd ((key.symm.trans hkey').symm.trans hnone) nofun
      · cases same hgreeting
        exact hp.keyed key' hkey'
    · intro hserver
      by_cases hgreeting : p.phase = .awaitServerHello
      · exact absurd ((hp.greeting hgreeting).1.symm.trans (role.symm.trans hserver)) nofun
      · cases same hgreeting
        exact hp.answers hserver

/-- Servers that have the same key and the same transcript make the same Finished. -/
theorem Sound.createFinished_congr {p q : Process P} (hp : p.Sound) (hq : q.Sound)
    (hpServer : p.context.isClient = false) (hqServer : q.context.isClient = false)
    (hkey : p.context.sessionKey = q.context.sessionKey) (htranscript : p.context.transcript = q.context.transcript)
    {frame : Frame} (h : p.context.createFinished = .ok frame) : q.context.createFinished = .ok frame := by
  obtain ⟨before, hello, hends, hproof, hour, hpeer⟩ := hp.answers hpServer
  obtain ⟨before', hello', hends', hproof', hour', hpeer'⟩ := hq.answers hqServer
  have happend : before ++ hello.encode = before' ++ hello'.encode := by rw [← hends, ← hends', htranscript]
  have hlen : hello.encode.length = hello'.encode.length := by
    rw [ServerHello.encode_length_signed hproof, ServerHello.encode_length_signed hproof']
  have hencode : hello.encode = hello'.encode := (List.append_inj' happend hlen).2
  have hdecode : (.ok hello : Result ServerHello) = .ok hello' := by
    rw [← ServerHello.decode_encode_signed hproof, hencode, ServerHello.decode_encode_signed hproof']
  cases hdecode
  obtain ⟨key, peerCid, hasKey, hasCid, rfl⟩ := createFinished_eq_ok.mp h
  refine createFinished_eq_ok.mpr ⟨key, peerCid, hkey ▸ hasKey, hpeer' ▸ hpeer ▸ hasCid, ?_⟩
  simp only [finishedOf, ← hour, ← hour', htranscript]

/-- What a process keeps once it has it. -/
structure Later (p q : Process P) : Prop where
  identity : q.identity = p.identity
  secret : q.secret = p.secret
  role : q.context.isClient = p.context.isClient
  done : p.phase = .done → q = p
  keys : ∀ key, p.context.sessionKey = some key → q.context.sessionKey = some key ∧
    q.context.transcript = p.context.transcript ∧ q.context.peerX25519Public = p.context.peerX25519Public
  finished : ∀ frame, p.context.createFinished = .ok frame → q.context.createFinished = .ok frame

theorem Later.refl (p : Process P) : p.Later p :=
  ⟨rfl, rfl, rfl, fun _ => rfl, fun _ h => ⟨h, rfl, rfl⟩, fun _ h => h⟩

theorem Reacts.later {p p' : Process P} {frame : Frame} {sent : List Message} (h : p.Reacts frame p' sent)
    (hp : p.Sound) : p.Later p' := by
  cases h with
  | greeted hello proof phase =>
    have hnone := (hp.greeting phase).2.2.1
    refine ⟨rfl, rfl, rfl, fun hdone => absurd (phase.symm.trans hdone) nofun, ?_, ?_⟩
    · intro key hkey
      exact absurd (hkey.symm.trans hnone) nofun
    · intro frame hframe
      obtain ⟨_, _, hkey, _⟩ := createFinished_eq_ok.mp hframe
      exact absurd (hkey.symm.trans hnone) nofun
  | finished key answer phase =>
    exact ⟨rfl, rfl, rfl, fun hdone => absurd (phase.symm.trans hdone) nofun, fun _ h => ⟨h, rfl, rfl⟩, fun _ h => h⟩
  | confirmed key phase =>
    exact ⟨rfl, rfl, rfl, fun hdone => absurd (phase.symm.trans hdone) nofun, fun _ h => ⟨h, rfl, rfl⟩, fun _ h => h⟩
  | aborted context phase state key role same =>
    refine ⟨rfl, rfl, role, fun hdone => absurd hdone phase, ?_, ?_⟩
    · intro key' hkey'
      by_cases hgreeting : p.phase = .awaitServerHello
      · exact absurd (hkey'.symm.trans (hp.greeting hgreeting).2.2.1) nofun
      · cases same hgreeting
        exact ⟨hkey', rfl, rfl⟩
    · intro frame hframe
      by_cases hgreeting : p.phase = .awaitServerHello
      · obtain ⟨_, _, hkey, _⟩ := createFinished_eq_ok.mp hframe
        exact absurd (hkey.symm.trans (hp.greeting hgreeting).2.2.1) nofun
      · cases same hgreeting
        exact hframe

end Process

variable (P) in
structure Net where
  processes : List (Process P)
  /-- Every frame sent, with what it was sent as. -/
  wire : List Message
  /-- Public keys and what was signed under them. -/
  signed : List (Block 32 × Bytes)

variable (P) in
inductive NetEvent where
  | connect (identity : Identity P) (capabilities : Capabilities) (connectionId : UInt64) (secret : P.Scalar)
  | accept (identity : Identity P) (capabilities : Capabilities) (connectionId : UInt64) (secret : P.Scalar)
      (frame : Frame)
  | deliver (i : Nat) (frame : Frame)

/-- The secret an event draws. -/
def NetEvent.drawn : NetEvent P → Option P.Scalar
  | .connect _ _ _ secret => some secret
  | .accept _ _ _ secret _ => some secret
  | .deliver _ _ => none

namespace Net

def init : Net P := ⟨[], [], []⟩

def step (n : Net P) : NetEvent P → Option (Net P)
  | .connect identity capabilities connectionId secret => do
    let (p, sent) ← Process.connect identity capabilities connectionId secret
    return ⟨n.processes ++ [p], n.wire ++ sent, n.signed⟩
  | .accept identity capabilities connectionId secret frame => do
    let (p, sent) ← Process.accept identity capabilities connectionId secret frame
    return ⟨n.processes ++ [p], n.wire ++ sent,
      n.signed ++ [(identity.publicKeyBytes, clientHelloTag ++ frame.payload)]⟩
  | .deliver i frame => do
    let p ← n.processes[i]?
    let (p', sent) ← p.receive frame
    return ⟨n.processes.set i p', n.wire ++ sent, n.signed⟩

/-! ### What holds whatever is delivered -/

/-- A frame on the wire is what it was sent as. -/
def Genuine (processes : List (Process P)) : Message → Prop
  | (.clientHello, frame) => ∃ hello : ClientHello, hello.version = aetherVersion ∧ frame.payload = hello.encode
  | (.serverHello, frame) => ∃ hello : ServerHello, hello.version = aetherVersion ∧ frame.payload = hello.encode
  | (.serverFinished, frame) =>
    ∃ p ∈ processes, p.context.isClient = false ∧ p.context.createFinished = .ok frame
  | (.clientFinished, frame) =>
    ∃ p ∈ processes, p.context.isClient = true ∧ p.phase = .done ∧ p.context.createFinished = .ok frame

structure Sound (n : Net P) : Prop where
  processes : ∀ p ∈ n.processes, p.Sound
  wire : ∀ m ∈ n.wire, Genuine n.processes m

theorem sound_init : (init : Net P).Sound :=
  ⟨fun _ h => absurd h List.not_mem_nil, fun _ h => absurd h List.not_mem_nil⟩

/-- Every process of one list has its continuation in the other. -/
def Continues (ps qs : List (Process P)) : Prop := ∀ p ∈ ps, ∃ q ∈ qs, p.Later q

theorem continues_append (ps : List (Process P)) (p : Process P) : Continues ps (ps ++ [p]) :=
  fun q hq => ⟨q, List.mem_append_left _ hq, .refl q⟩

theorem continues_set {ps : List (Process P)} {i : Nat} {p p' : Process P} (hi : ps[i]? = some p)
    (h : p.Later p') : Continues ps (ps.set i p') := by
  intro q hq
  obtain ⟨j, hj⟩ := List.mem_iff_getElem?.mp hq
  by_cases hij : i = j
  · subst hij
    cases hi.symm.trans hj
    have hlt : i < ps.length := (List.getElem?_eq_some_iff.mp hi).1
    exact ⟨p', List.mem_iff_getElem?.mpr ⟨i, List.getElem?_set_self hlt⟩, h⟩
  · exact ⟨q, List.mem_iff_getElem?.mpr ⟨j, by rw [List.getElem?_set_ne hij, hj]⟩, .refl q⟩

/-- A process that is done stays. -/
theorem Continues.done {ps qs : List (Process P)} (h : Continues ps qs) {p : Process P} (hp : p ∈ ps)
    (hdone : p.phase = .done) : p ∈ qs := by
  obtain ⟨q, hq, hlater⟩ := h p hp
  rwa [hlater.done hdone] at hq

theorem Genuine.continues {ps qs : List (Process P)} (h : Continues ps qs) {m : Message} (hm : Genuine ps m) :
    Genuine qs m := by
  obtain ⟨origin, frame⟩ := m
  cases origin with
  | clientHello => exact hm
  | serverHello => exact hm
  | serverFinished =>
    obtain ⟨p, hp, hrole, hcreates⟩ := hm
    obtain ⟨q, hq, hlater⟩ := h p hp
    exact ⟨q, hq, hlater.role.trans hrole, hlater.finished frame hcreates⟩
  | clientFinished =>
    obtain ⟨p, hp, hrole, hdone, hcreates⟩ := hm
    exact ⟨p, h.done hp hdone, hrole, hdone, hcreates⟩

/-- A process that has just started, and what it sends. -/
structure Started (p : Process P) (sent : List Message) : Prop where
  sound : p.Sound
  incomplete : p.context.state ≠ .complete
  verifiedKey : p.verifiedKey = none
  genuine : ∀ ps : List (Process P), p ∈ ps → ∀ m ∈ sent, Genuine ps m

/-- The two ways the network moves. -/
inductive Moves (n : Net P) : NetEvent P → Net P → Prop where
  | joined (e : NetEvent P) (p : Process P) (sent : List Message) (signed : List (Block 32 × Bytes))
      (drawn : e.drawn = some p.secret) (started : Started p sent) :
      Moves n e ⟨n.processes ++ [p], n.wire ++ sent, signed⟩
  | reacted (i : Nat) (frame : Frame) (p p' : Process P) (sent : List Message)
      (present : n.processes[i]? = some p) (reacts : p.Reacts frame p' sent) :
      Moves n (.deliver i frame) ⟨n.processes.set i p', n.wire ++ sent, n.signed⟩

theorem started_connect {identity : Identity P} {capabilities : Capabilities} {connectionId : UInt64}
    {secret : P.Scalar} {p : Process P} {sent : List Message}
    (h : Process.connect identity capabilities connectionId secret = some (p, sent)) :
    Started p sent ∧ p.secret = secret := by
  obtain ⟨frame, hpayload, rfl, rfl⟩ := Process.connect_eq_some h
  refine ⟨⟨⟨fun _ => ⟨rfl, rfl, rfl, rfl, rfl⟩, nofun, nofun, nofun, nofun, nofun⟩, nofun, rfl, ?_⟩, rfl⟩
  intro ps _ m hm
  cases List.mem_singleton.mp hm
  exact ⟨_, rfl, hpayload⟩

theorem started_accept {identity : Identity P} {capabilities : Capabilities} {connectionId : UInt64}
    {secret : P.Scalar} {frame : Frame} {p : Process P} {sent : List Message}
    (h : Process.accept identity capabilities connectionId secret frame = some (p, sent)) :
    Started p sent ∧ p.secret = secret := by
  obtain ⟨hello, answer, finished, _, rfl, hcreates, hpayload, rfl⟩ := Process.accept_eq_some h
  refine ⟨⟨⟨nofun, nofun, fun _ => ⟨rfl, rfl⟩, nofun, ?_, fun _ => ?_⟩, nofun, rfl, ?_⟩, rfl⟩
  · intro key' hkey'
    cases hkey'
    exact ⟨_, rfl, rfl⟩
  · exact ⟨_, HandshakeContext.serverHelloOf .newServer connectionId secret frame hello identity capabilities,
      (List.append_assoc ..).symm, List.Vector.toList_length _, rfl, rfl⟩
  · intro ps hps m hm
    rcases List.mem_cons.mp hm with rfl | hm
    · exact ⟨_, rfl, hpayload⟩
    · cases List.mem_singleton.mp hm
      exact ⟨_, hps, rfl, hcreates⟩

/-- Once for all: what a step does to a sound network. -/
theorem moves_of_step {n n' : Net P} (hn : n.Sound) {e : NetEvent P} (h : n.step e = some n') : n.Moves e n' := by
  unfold step at h
  cases e with
  | connect identity capabilities connectionId secret =>
    obtain ⟨⟨p, sent⟩, hconnect, h⟩ := Option.bind_eq_some_iff.mp h
    obtain ⟨hstarted, hsecret⟩ := started_connect hconnect
    cases h
    exact .joined _ p sent _ (by rw [hsecret]; rfl) hstarted
  | accept identity capabilities connectionId secret frame =>
    obtain ⟨⟨p, sent⟩, haccept, h⟩ := Option.bind_eq_some_iff.mp h
    obtain ⟨hstarted, hsecret⟩ := started_accept haccept
    cases h
    exact .joined _ p sent _ (by rw [hsecret]; rfl) hstarted
  | deliver i frame =>
    obtain ⟨p, hp, h⟩ := Option.bind_eq_some_iff.mp h
    obtain ⟨⟨p', sent⟩, hreceive, h⟩ := Option.bind_eq_some_iff.mp h
    cases h
    exact .reacted i frame p p' sent hp (Process.reacts_of_receive (hn.processes p (List.mem_of_getElem? hp)) hreceive)

/-- The process that an event starts. -/
inductive Joins : NetEvent P → Process P → List Message → Prop where
  | connect {identity : Identity P} {capabilities : Capabilities} {connectionId : UInt64} {secret : P.Scalar}
      {p : Process P} {sent : List Message}
      (starts : Process.connect identity capabilities connectionId secret = some (p, sent)) :
      Joins (.connect identity capabilities connectionId secret) p sent
  | accept {identity : Identity P} {capabilities : Capabilities} {connectionId : UInt64} {secret : P.Scalar}
      {frame : Frame} {p : Process P} {sent : List Message}
      (starts : Process.accept identity capabilities connectionId secret frame = some (p, sent)) :
      Joins (.accept identity capabilities connectionId secret frame) p sent

/-- What holds of those that start, and of what a process becomes, holds of all processes. -/
theorem forall_step {I : Process P → Prop} {n n' : Net P} {e : NetEvent P} (hn : n.Sound)
    (hall : ∀ p ∈ n.processes, I p) (hjoins : ∀ p sent, Joins e p sent → I p)
    (hreacts : ∀ p p' frame sent, p.Sound → I p → p.Reacts frame p' sent → I p') (h : n.step e = some n') :
    ∀ p ∈ n'.processes, I p := by
  have hjoined : ∀ p sent, Joins e p sent → ∀ q ∈ n.processes ++ [p], I q := by
    intro p sent hp q hq
    rcases List.mem_append.mp hq with hq | hq
    · exact hall q hq
    · cases List.mem_singleton.mp hq
      exact hjoins p sent hp
  unfold step at h
  cases e with
  | connect identity capabilities connectionId secret =>
    obtain ⟨⟨p, sent⟩, hconnect, h⟩ := Option.bind_eq_some_iff.mp h
    cases h
    exact hjoined p sent (.connect hconnect)
  | accept identity capabilities connectionId secret frame =>
    obtain ⟨⟨p, sent⟩, haccept, h⟩ := Option.bind_eq_some_iff.mp h
    cases h
    exact hjoined p sent (.accept haccept)
  | deliver i frame =>
    obtain ⟨p, hp, h⟩ := Option.bind_eq_some_iff.mp h
    obtain ⟨⟨p', sent⟩, hreceive, h⟩ := Option.bind_eq_some_iff.mp h
    cases h
    have hmem := List.mem_of_getElem? hp
    intro q hq
    rcases List.mem_or_eq_of_mem_set hq with hq | rfl
    · exact hall q hq
    · exact hreacts p _ frame sent (hn.processes p hmem) (hall p hmem)
        (Process.reacts_of_receive (hn.processes p hmem) hreceive)

theorem Moves.continues {n n' : Net P} {e : NetEvent P} (hn : n.Sound) (h : n.Moves e n') :
    Continues n.processes n'.processes := by
  cases h with
  | joined _ p => exact continues_append _ p
  | reacted i frame p p' sent present reacts =>
    exact continues_set present (reacts.later (hn.processes p (List.mem_of_getElem? present)))

/-- A reaction sends what it says it sends. -/
theorem genuine_of_reacts {p p' : Process P} {frame : Frame} {sent : List Message} (hp : p.Sound)
    (h : p.Reacts frame p' sent) {ps : List (Process P)} (hps : p' ∈ ps) : ∀ m ∈ sent, Genuine ps m := by
  cases h with
  | finished key answer phase hasKey mac creates =>
    intro m hm
    cases List.mem_singleton.mp hm
    exact ⟨_, hps, (hp.waiting phase).1, rfl, creates⟩
  | _ => exact fun m hm => absurd hm List.not_mem_nil

theorem Moves.sound {n n' : Net P} {e : NetEvent P} (hn : n.Sound) (h : n.Moves e n') : n'.Sound := by
  have hcontinues := h.continues hn
  cases h with
  | joined _ p sent signed drawn started =>
    refine ⟨fun q hq => ?_, fun m hm => ?_⟩
    · rcases List.mem_append.mp hq with hq | hq
      · exact hn.processes q hq
      · cases List.mem_singleton.mp hq
        exact started.sound
    · rcases List.mem_append.mp hm with hm | hm
      · exact (hn.wire m hm).continues hcontinues
      · exact started.genuine _ (List.mem_append_right _ (List.mem_singleton_self p)) m hm
  | reacted i frame p p' sent present reacts =>
    have hp := hn.processes p (List.mem_of_getElem? present)
    have hlt : i < n.processes.length := (List.getElem?_eq_some_iff.mp present).1
    refine ⟨fun q hq => ?_, fun m hm => ?_⟩
    · rcases List.mem_or_eq_of_mem_set hq with hq | rfl
      · exact hn.processes q hq
      · exact reacts.sound hp
    · rcases List.mem_append.mp hm with hm | hm
      · exact (hn.wire m hm).continues hcontinues
      · exact genuine_of_reacts hp reacts (List.mem_set hlt p') m hm

/-- A process that waits for a Finished is given the MAC that it expects. -/
structure Accepts (n : Net P) (i : Nat) (frame : Frame) (p : Process P) (key : P.SessionKey) : Prop where
  present : n.processes[i]? = some p
  waits : p.phase = .awaitServerFinished ∨ p.phase = .awaitClientFinished
  hasKey : p.context.sessionKey = some key
  mac : frame.payload = computeFinished key p.context.transcript

/-- What holds of the processes that have completed, once it holds of one that completes. -/
theorem Moves.forall_complete {Q : List (Process P) → Process P → Prop} {n n' : Net P} {e : NetEvent P}
    (hn : n.Sound) (h : n.Moves e n') (hall : ∀ p ∈ n.processes, p.context.state = .complete → Q n.processes p)
    (hcontinues : ∀ p, Q n.processes p → Q n'.processes p)
    (hcompletes : ∀ i frame p key, e = .deliver i frame → n.Accepts i frame p key →
      Q n'.processes { p with context := { p.context with state := .complete }, phase := .done }) :
    ∀ p ∈ n'.processes, p.context.state = .complete → Q n'.processes p := by
  have hsound := h.sound hn
  cases h with
  | joined _ p sent signed drawn started =>
    intro q hq hcomplete
    rcases List.mem_append.mp hq with hq | hq
    · exact hcontinues q (hall q hq hcomplete)
    · cases List.mem_singleton.mp hq
      exact absurd hcomplete started.incomplete
  | reacted i frame p p' sent present reacts =>
    intro q hq hcomplete
    rcases List.mem_or_eq_of_mem_set hq with hold | rfl
    · exact hcontinues q (hall q hold hcomplete)
    · cases reacts with
      | greeted hello proof phase => exact absurd hcomplete nofun
      | finished key answer phase hasKey mac =>
        exact hcompletes i frame p key rfl ⟨present, .inl phase, hasKey, mac⟩
      | confirmed key phase hasKey mac => exact hcompletes i frame p key rfl ⟨present, .inr phase, hasKey, mac⟩
      | aborted context phase => exact absurd hcomplete ((hsound.processes _ hq).aborted rfl)

/-- A client that accepts a Finished has waited for its server's. -/
theorem Accepts.client {n : Net P} (hn : n.Sound) {i : Nat} {frame : Frame} {p : Process P} {key : P.SessionKey}
    (h : n.Accepts i frame p key) (hclient : p.context.isClient = true) : p.phase = .awaitServerFinished := by
  rcases h.waits with hphase | hphase
  · exact hphase
  · have hserver := ((hn.processes p (List.mem_of_getElem? h.present)).confirming hphase).1
    exact absurd (hserver.symm.trans hclient) Bool.false_ne_true

/-- And a server for its client's. -/
theorem Accepts.server {n : Net P} (hn : n.Sound) {i : Nat} {frame : Frame} {p : Process P} {key : P.SessionKey}
    (h : n.Accepts i frame p key) (hserver : p.context.isClient = false) : p.phase = .awaitClientFinished := by
  rcases h.waits with hphase | hphase
  · have hclient := ((hn.processes p (List.mem_of_getElem? h.present)).waiting hphase).1
    exact absurd (hserver.symm.trans hclient) Bool.false_ne_true
  · exact hphase

/-- A Finished tells the key and the transcript of the context that made it. -/
theorem keyed_of_createFinished (hP : P.Symbolic) {c : HandshakeContext P} {frame : Frame}
    (hcreates : c.createFinished = .ok frame) {key : P.SessionKey} {transcript : Bytes}
    (hmac : frame.payload = computeFinished key transcript) :
    c.sessionKey = some key ∧ c.transcript = transcript := by
  obtain ⟨key', _, hkey', _, rfl⟩ := HandshakeContext.createFinished_eq_ok.mp hcreates
  obtain ⟨rfl, rfl⟩ := hP.hmac hmac
  exact ⟨hkey', rfl⟩

/-- **A MAC on the wire was made by a process that has its key and its transcript.** -/
theorem author_of_mac (hP : P.Symbolic) (hhello : P.TellsMacsFromHellos) {n : Net P} (hn : n.Sound) {m : Message}
    (hm : m ∈ n.wire) {key : P.SessionKey} {transcript : Bytes}
    (hmac : m.2.payload = computeFinished key transcript) :
    ∃ p ∈ n.processes, p.context.sessionKey = some key ∧ p.context.transcript = transcript ∧
      p.context.createFinished = .ok m.2 ∧
      ((m.1 = .serverFinished ∧ p.context.isClient = false) ∨
        (m.1 = .clientFinished ∧ p.context.isClient = true ∧ p.phase = .done)) := by
  have hgenuine := hn.wire m hm
  obtain ⟨origin, frame⟩ := m
  cases origin with
  | clientHello =>
    obtain ⟨hello, hversion, hpayload⟩ := hgenuine
    exact absurd (hmac.symm.trans hpayload) (hhello.client hversion)
  | serverHello =>
    obtain ⟨hello, hversion, hpayload⟩ := hgenuine
    exact absurd (hmac.symm.trans hpayload) (hhello.server hversion)
  | serverFinished =>
    obtain ⟨p, hp, hrole, hcreates⟩ := hgenuine
    obtain ⟨hkey, htranscript⟩ := keyed_of_createFinished hP hcreates hmac
    exact ⟨p, hp, hkey, htranscript, hcreates, .inl ⟨rfl, hrole⟩⟩
  | clientFinished =>
    obtain ⟨p, hp, hrole, hdone, hcreates⟩ := hgenuine
    obtain ⟨hkey, htranscript⟩ := keyed_of_createFinished hP hcreates hmac
    exact ⟨p, hp, hkey, htranscript, hcreates, .inr ⟨rfl, hrole, hdone⟩⟩

/-! ### A run nobody interferes with -/

theorem step_deliver {n : Net P} {i : Nat} {frame : Frame} {p p' : Process P} {sent : List Message}
    (hp : n.processes[i]? = some p) (h : p.receive frame = some (p', sent)) :
    n.step (.deliver i frame) = some ⟨n.processes.set i p', n.wire ++ sent, n.signed⟩ := by
  simp only [step, hp, h, Option.bind_eq_bind, Option.bind_some]
  rfl

section Exchange
open HandshakeContext
variable (client server : Party P)

/-- A client that has sent its hello. -/
def greetingProcess : Process P :=
  ⟨client.identity, client.secret, none, greetingContext client, .awaitServerHello⟩

/-- A client that has accepted the server's. -/
def keyedProcess : Process P :=
  ⟨client.identity, client.secret, some server.identity.publicKeyBytes, clientContext client server .keysDerived,
    .awaitServerFinished⟩

/-- A client that has accepted the server's Finished and sent its own. -/
def finishedProcess : Process P :=
  ⟨client.identity, client.secret, some server.identity.publicKeyBytes, clientContext client server .complete, .done⟩

/-- A server that has answered a client's hello. -/
def answeringProcess : Process P :=
  ⟨server.identity, server.secret, none, serverContext client server .keysDerived, .awaitClientFinished⟩

/-- A server that has accepted a Finished. -/
def confirmedProcess : Process P :=
  ⟨server.identity, server.secret, none, serverContext client server .complete, .done⟩

theorem receive_serverHello (hdh : P.AgreesOnSecrets) (hsig : P.VerifiesSignatures) :
    (greetingProcess client).receive (serverHelloFrame client server) = some (keyedProcess client server, []) := by
  have hkey : Process.namedKey (serverHelloFrame client server) = some server.identity.publicKeyBytes := by
    rw [Process.namedKey, helloOfServer_decodes]
    rfl
  simp only [Process.receive, greetingProcess, exec_handleServerHello_honest client server hdh hsig, hkey, keyedProcess]

theorem receive_serverFinished :
    (keyedProcess client server).receive (serverFinishedFrame client server) =
      some (finishedProcess client server, [(.clientFinished, clientFinishedFrame client server)]) := by
  simp only [Process.receive, keyedProcess, exec_handleFinishedAndRespond_honest, finishedProcess]

theorem receive_clientFinished :
    (answeringProcess client server).receive (clientFinishedFrame client server) =
      some (confirmedProcess client server, []) := by
  simp only [Process.receive, answeringProcess, exec_verifyFinished_honest, confirmedProcess]

/-- A server that waits takes its own Finished for its client's. -/
theorem receive_ownFinished :
    (answeringProcess client server).receive (serverFinishedFrame client server) =
      some (confirmedProcess client server, []) := by
  have hverify := verifyFinished_createFinished (createFinished_honest client server)
  simp only [Process.receive, answeringProcess, hverify]
  rfl

/-- The network when a client's hello has been sent. -/
def greeted : Net P := ⟨[greetingProcess client], [(.clientHello, clientHelloFrame client)], []⟩

/-- The network when it has been answered. -/
def answered : Net P :=
  ⟨[greetingProcess client, answeringProcess client server],
    [(.clientHello, clientHelloFrame client), (.serverHello, serverHelloFrame client server),
      (.serverFinished, serverFinishedFrame client server)],
    [(server.identity.publicKeyBytes, signedTranscript client)]⟩

/-- The network when the client has its keys. -/
def keyed : Net P := { answered client server with processes :=
  [keyedProcess client server, answeringProcess client server] }

/-- The network when the client has finished. -/
def finished : Net P :=
  ⟨[finishedProcess client server, answeringProcess client server],
    (answered client server).wire ++ [(.clientFinished, clientFinishedFrame client server)],
    (answered client server).signed⟩

/-- The network when both have. -/
def confirmed : Net P := { finished client server with processes :=
  [finishedProcess client server, confirmedProcess client server] }

def connectEvent : NetEvent P :=
  .connect client.identity client.capabilities client.connectionId client.secret

def acceptEvent : NetEvent P :=
  .accept server.identity server.capabilities server.connectionId server.secret (clientHelloFrame client)

theorem step_connectEvent : step init (connectEvent client) = some (greeted client) := rfl

theorem step_acceptEvent : step (greeted client) (acceptEvent client server) = some (answered client server) := by
  have haccept : Process.accept server.identity server.capabilities server.connectionId server.secret
      (clientHelloFrame client) = some (answeringProcess client server,
        [(.serverHello, serverHelloFrame client server), (.serverFinished, serverFinishedFrame client server)]) := by
    simp only [Process.accept, exec_handleClientHello_honest, createFinished_honest]
    rfl
  rw [acceptEvent, step, haccept]
  rfl

/-- An exchange is reached where connecting and answering are allowed. -/
theorem reached_answered {allowed : Net P → NetEvent P → Prop} (hconnect : allowed init (connectEvent client))
    (haccept : allowed (greeted client) (acceptEvent client server)) :
    Reached step allowed init (answered client server) :=
  .next _ (.next _ .start hconnect (step_connectEvent client)) haccept (step_acceptEvent client server)

/-- And a whole handshake where delivering its frames is. -/
theorem reached_confirmed (hdh : P.AgreesOnSecrets) (hsig : P.VerifiesSignatures)
    {allowed : Net P → NetEvent P → Prop} (hconnect : allowed init (connectEvent client))
    (haccept : allowed (greeted client) (acceptEvent client server))
    (hhello : allowed (answered client server) (.deliver 0 (serverHelloFrame client server)))
    (hfinished : allowed (keyed client server) (.deliver 0 (serverFinishedFrame client server)))
    (hconfirm : allowed (finished client server) (.deliver 1 (clientFinishedFrame client server))) :
    Reached step allowed init (confirmed client server) := by
  have hkeyed : step (answered client server) (.deliver 0 (serverHelloFrame client server)) =
      some (keyed client server) := by
    rw [step_deliver rfl (receive_serverHello client server hdh hsig), List.append_nil]
    rfl
  have hdone : step (keyed client server) (.deliver 0 (serverFinishedFrame client server)) =
      some (finished client server) := step_deliver rfl (receive_serverFinished client server)
  have hconfirmed : step (finished client server) (.deliver 1 (clientFinishedFrame client server)) =
      some (confirmed client server) := by
    rw [step_deliver rfl (receive_clientFinished client server), List.append_nil]
    rfl
  have hanswered := reached_answered client server hconnect haccept
  exact .next _ (.next _ (.next _ hanswered hhello hkeyed) hfinished hdone) hconfirm hconfirmed

end Exchange

end Net

end

end Aether
