import Aether.Demo.Exchange

/-! The echo server and all of its clients (`run_server` of the demo).

The connections that are accepted share one socket: each task waits on it for its next
datagram, and whichever of them is woken gets what has come, whoever has sent it. (A
connection that is accepted later is one on which nothing happens before, and what the
accepting loop is woken with comes to no task.) Between connections that share no key, a
task then hears of what was sent by its own client and of nothing else (`served_iff`), and
the first datagram it is handed that is another client's ends it (`running_iff`). What it
answers was said by its own client (`answers_own`), and a client accepts the answers of its
own task alone (`accepts_own`). -/
namespace Aether
open Octets Octets.Method Connection Endpoint Echo

section
variable {P : Primitives} {ι : Type}

namespace Echo

/-- The frames that are heard are those of the first datagrams, and the one after these is not served. -/
theorem frames_served (c : Connection P) (arriving : List Arrival) :
    ∃ n, List.Forall₂ (fun arrived frame => served c arrived = some frame) (arriving.take n) (frames c arriving) ∧
      ∀ arrived, arriving[n]? = some arrived → served c arrived = none := by
  induction arriving with
  | nil => exact ⟨0, .nil, nofun⟩
  | cons arrived arriving ih =>
    cases hserved : served c arrived with
    | none =>
      rw [frames, hserved]
      refine ⟨0, .nil, fun first hfirst => ?_⟩
      cases hfirst
      exact hserved
    | some frame =>
      obtain ⟨n, hframes, hnext⟩ := ih
      rw [frames, hserved]
      exact ⟨n + 1, .cons hserved hframes, hnext⟩

end Echo

variable (P ι) in
/-- The clients, the server's task for each, and what each task has been handed. -/
structure Server where
  clients : ι → Endpoint P
  tasks : ι → Bool × Endpoint P
  handed : ι → List Arrival

namespace Server
variable {ends : ι → Bool → Connection P} {x : Server P ι}

inductive Event (ι : Type) where
  /-- A client does something. -/
  | client (i : ι) (op : Operation)
  /-- A task is woken with what has come to the socket. -/
  | hand (i : ι) (arrived : Arrival)

/-- All connections are set up, and all tasks spawned. -/
def spawned (ends : ι → Bool → Connection P) : Server P ι where
  clients i := start (ends i true)
  tasks i := (true, start (ends i false))
  handed _ := []

section
variable [DecidableEq ι]

/-- A task that has ended waits for nothing any more. -/
def step (x : Server P ι) : Event ι → Option (Server P ι)
  | .client i op => some { x with clients := Function.update x.clients i ((x.clients i).perform op) }
  | .hand i arrived =>
    if (x.tasks i).1 then
      some { x with
        tasks := Function.update x.tasks i (task (x.tasks i).2 [arrived])
        handed := Function.update x.handed i (x.handed i ++ [arrived]) }
    else none

end

/-- The two ends of a connection. -/
def party (x : Server P ι) (i : ι) : Bool → Endpoint P
  | true => x.clients i
  | false => (x.tasks i).2

/-- What a connection takes of a datagram was sent by one of all the ends, if it decrypts. -/
def Unforged (x : Server P ι) (c : Connection P) (datagram : Bytes) : Prop :=
  ∀ plain, decryptWire c (datagram.take c.config.recvBufferSize) = .ok plain →
    ∃ j sender, ∃ m ∈ (x.party j sender).emitted, m.2 = datagram.take c.config.recvBufferSize

def Allowed (x : Server P ι) (e : Event ι) : Prop :=
  ∀ i datagram, e = .hand i (.ok datagram) → x.Unforged (x.party i false).connection datagram

/-- The connection IDs of the two ends agree as far as they are sent. -/
def Agree (ends : ι → Bool → Connection P) (i : ι) : Prop :=
  (ends i true).ourConnectionId = (ends i false).ourConnectionId

/-- What a task is handed, and has a buffer for, is what its own client has sent, and another turn follows it. -/
def Own (ends : ι → Bool → Connection P) (x : Server P ι) (i : ι) (arrived : Arrival) (frame : Frame) : Prop :=
  Agree ends i ∧ (ends i false).config.recvBufferSize ≤ isizeMax ∧
    ∃ datagram, arrived = .ok datagram ∧ frame.header.frameType ≠ .close ∧
      ∃ m ∈ (x.clients i).emitted, m.2 = datagram.take (ends i false).config.recvBufferSize ∧
        Frame.decode m.1.encode = .ok frame

/-- No key of one connection is a key of another one. -/
def Apart (ends : ι → Bool → Connection P) : Prop :=
  ∀ i j, i ≠ j → ∀ session session', (ends i true).aead = some session → (ends j true).aead = some session' →
    ∀ isClient isClient', (session.txKeys isClient).txKey ≠ (session'.txKeys isClient').txKey

/-! ### What the ends accept -/

section
variable {ids : ι → Bool → UInt64} {session : ι → AeadSession P}

theorem agree_iff (hpaired : ∀ i, Channel.Paired (ids i) (session i) (ends i)) (i : ι) :
    Agree ends i ↔ truncateCid (ids i true) = truncateCid (ids i false) := by
  rw [Agree, ((hpaired i).ready true).ourConnectionId, ((hpaired i).ready false).ourConnectionId]

/-- What one end has encrypted is decrypted by the other end of the same connection, if at all. -/
theorem decryptWire_iff (hP : P.Authenticates) (hpaired : ∀ i, Channel.Paired (ids i) (session i) (ends i))
    (hapart : Apart ends) {i j : ι} {sender isClient : Bool} {wire datagram : Bytes}
    (hencrypt : ((session j).txKeys sender).encrypt wire (ends j sender).makeAad = .ok datagram) (plain : Bytes) :
    decryptWire (ends i isClient) datagram = .ok plain ↔
      j = i ∧ sender = !isClient ∧ Agree ends i ∧ plain = wire := by
  by_cases hij : j = i
  · subst hij
    rw [Channel.decryptWire_iff hP (hpaired j) hencrypt plain, ← agree_iff hpaired, eq_self_iff_true, true_and]
  · refine iff_of_false (fun h => ?_) (fun h => hij h.1)
    rw [decryptWire, ((hpaired i).ready isClient).aead, ((hpaired i).ready isClient).isClient] at h
    have hplain : ((session i).rxKeys isClient).decrypt datagram (ends i isClient).makeAad = .ok plain := h
    rw [← Bool.not_not isClient, AeadSession.rxKeys_not] at hplain
    obtain ⟨hkey, -, -⟩ := hP.authentic (mapCrypto_eq_ok.mp hencrypt) (mapCrypto_eq_ok.mp hplain)
    exact hapart i j (fun h => hij h.symm) _ _ ((hpaired i).ready true).aead ((hpaired j).ready true).aead _ _ hkey

/-- What holds in every state. -/
structure Kept (ends : ι → Bool → Connection P) (x : Server P ι) : Prop where
  client : ∀ i, Later (start (ends i true)) (x.clients i)
  task : ∀ i, x.tasks i = task (start (ends i false)) (x.handed i)
  handed : ∀ i datagram, .ok datagram ∈ x.handed i → x.Unforged (ends i false) datagram

theorem kept_spawned (ends : ι → Bool → Connection P) : Kept ends (spawned ends) :=
  ⟨fun _ => ⟨[], rfl⟩, fun _ => rfl, fun _ _ h => absurd h List.not_mem_nil⟩

theorem Kept.later (h : Kept ends x) (i : ι) (isClient : Bool) :
    Later (start (ends i isClient)) (x.party i isClient) := by
  cases isClient with
  | true => exact h.client i
  | false =>
    rw [party, h.task]
    exact Exchange.later_task (x.handed i) _

/-- Each end is still the one that was set up. -/
theorem Kept.sound (h : Kept ends x) (hpaired : ∀ i, Channel.Paired (ids i) (session i) (ends i)) (i : ι)
    (isClient : Bool) : Sound (ends i isClient) (session i) (x.party i isClient) := by
  obtain ⟨ops, hops⟩ := h.later i isClient
  rw [hops]
  exact sound_run ((hpaired i).ready isClient).aead ops

theorem Kept.decryptWire_iff (h : Kept ends x) (hP : P.Authenticates)
    (hpaired : ∀ i, Channel.Paired (ids i) (session i) (ends i)) (hapart : Apart ends) {i j : ι}
    {sender isClient : Bool} {m : Frame × Bytes} (hm : m ∈ (x.party j sender).emitted) (plain : Bytes) :
    decryptWire (ends i isClient) m.2 = .ok plain ↔
      j = i ∧ sender = !isClient ∧ Agree ends i ∧ plain = m.1.encode := by
  have hencrypt := (h.sound hpaired j sender).emitted m hm
  rw [((hpaired j).ready sender).isClient] at hencrypt
  exact Server.decryptWire_iff hP hpaired hapart hencrypt plain

/-- A datagram is read where the other end has sent it. -/
theorem Kept.reads_iff (h : Kept ends x) (hP : P.Authenticates)
    (hpaired : ∀ i, Channel.Paired (ids i) (session i) (ends i)) (hapart : Apart ends) {i : ι} {isClient : Bool}
    {datagram : Bytes} (hunforged : x.Unforged (ends i isClient) datagram) (frame : Frame) :
    reads (ends i isClient) (.ok datagram) = .ok frame ↔
      Agree ends i ∧ (ends i isClient).config.recvBufferSize ≤ isizeMax ∧ ∃ m ∈ (x.party i !isClient).emitted,
        m.2 = datagram.take (ends i isClient).config.recvBufferSize ∧ Frame.decode m.1.encode = .ok frame := by
  refine (reads_iff_sent (fun m => ∃ j sender, m ∈ (x.party j sender).emitted)
    (fun m => Agree ends i ∧ m ∈ (x.party i !isClient).emitted) ?_ ?_ ?_ frame).trans ?_
  · intro m hm plain hplain
    obtain ⟨j, sender, hm⟩ := hm
    obtain ⟨rfl, rfl, hids, hsame⟩ := (h.decryptWire_iff hP hpaired hapart hm plain).mp hplain
    exact ⟨⟨hids, hm⟩, hsame⟩
  · exact fun m hm => (h.decryptWire_iff hP hpaired hapart hm.2 m.1.encode).mpr ⟨rfl, rfl, hm.1, rfl⟩
  · intro plain hplain
    obtain ⟨j, sender, m, hm, hsame⟩ := hunforged plain hplain
    exact ⟨m, ⟨j, sender, hm⟩, hsame⟩
  · simp only [and_assoc, exists_and_left]
    exact and_left_comm

/-- **What a task goes on with is what its own client has sent.** -/
theorem Kept.served_iff (h : Kept ends x) (hP : P.Authenticates)
    (hpaired : ∀ i, Channel.Paired (ids i) (session i) (ends i)) (hapart : Apart ends) {i : ι} {arrived : Arrival}
    (harrived : arrived ∈ x.handed i) (frame : Frame) :
    served (ends i false) arrived = some frame ↔ x.Own ends i arrived frame := by
  constructor
  · intro hserved
    rw [served] at hserved
    cases hread : reads (ends i false) arrived with
    | error error =>
      rw [hread] at hserved
      cases hserved
    | ok heard =>
      rw [hread] at hserved
      have htype : heard.header.frameType ≠ .close ∧ heard = frame := by simpa using hserved
      obtain ⟨hne, rfl⟩ := htype
      obtain ⟨_, datagram, rfl, _⟩ := reads_eq_ok.mp hread
      obtain ⟨hids, hroom, m, hm, hsame, hframe⟩ :=
        (h.reads_iff hP hpaired hapart (h.handed i datagram harrived) heard).mp hread
      exact ⟨hids, hroom, datagram, rfl, hne, m, hm, hsame, hframe⟩
  · intro hown
    obtain ⟨hids, hroom, datagram, rfl, hne, m, hm, hsame, hframe⟩ := hown
    have hread := (h.reads_iff hP hpaired hapart (h.handed i datagram harrived) frame).mpr
      ⟨hids, hroom, m, hm, hsame, hframe⟩
    rw [served, hread]
    exact if_neg hne

/-! ### Every state -/

theorem Unforged.mono {y : Server P ι} {c : Connection P} {datagram : Bytes}
    (hsent : ∀ j sender, (x.party j sender).emitted <+: (y.party j sender).emitted) (h : x.Unforged c datagram) :
    y.Unforged c datagram := by
  intro plain hplain
  obtain ⟨j, sender, m, hm, hsame⟩ := h plain hplain
  exact ⟨j, sender, m, (hsent j sender).subset hm, hsame⟩

theorem unforged_unchanged {c c' : Connection P} (h : Unchanged c c') (datagram : Bytes) :
    x.Unforged c' datagram ↔ x.Unforged c datagram := by
  simp only [Unforged, decryptWire, h.aead, h.isClient, h.makeAad, h.config]

variable [DecidableEq ι]

/-- What an end has sent stays sent. -/
theorem Kept.emitted_step (h : Kept ends x) (hpaired : ∀ i, Channel.Paired (ids i) (session i) (ends i))
    {e : Event ι} {y : Server P ι} (hstep : step x e = some y) (j : ι) (sender : Bool) :
    (x.party j sender).emitted <+: (y.party j sender).emitted := by
  have haead (j : ι) (sender : Bool) : (x.party j sender).connection.aead = some (session j) :=
    (h.sound hpaired j sender).unchanged.aead.trans ((hpaired j).ready sender).aead
  cases e with
  | client i op =>
    cases hstep
    have hclients := (Function.forall_update_iff x.clients fun j e => (x.clients j).emitted <+: e.emitted).mpr
      ⟨perform_emitted (haead i true) op, fun j _ => List.prefix_rfl⟩
    cases sender with
    | true => exact hclients j
    | false => exact List.prefix_rfl
  | hand i arrived =>
    obtain ⟨_, hnext⟩ := Option.ite_none_right_eq_some.mp hstep
    cases hnext
    have hincoming := (h.sound hpaired i false).unchanged.incomingFrames ((hpaired i).ready false).incomingFrames
    obtain ⟨sent, hemitted, _⟩ := sends_task [arrived] (haead i false) hincoming
    have htasks := (Function.forall_update_iff x.tasks fun j task => (x.tasks j).2.emitted <+: task.2.emitted).mpr
      ⟨⟨sent, hemitted.symm⟩, fun j _ => List.prefix_rfl⟩
    cases sender with
    | true => exact List.prefix_rfl
    | false => exact htasks j

theorem Kept.step (h : Kept ends x) (hpaired : ∀ i, Channel.Paired (ids i) (session i) (ends i)) {e : Event ι}
    {y : Server P ι} (hallowed : x.Allowed e) (hstep : Server.step x e = some y) : Kept ends y := by
  have hsent := h.emitted_step hpaired hstep
  cases e with
  | client i op =>
    cases hstep
    have hlater := (Function.forall_update_iff x.clients fun j e => Later (start (ends j true)) e).mpr
      ⟨(h.client i).trans (later_perform _ op), fun j _ => h.client j⟩
    exact ⟨hlater, h.task, fun j datagram hdatagram => (h.handed j datagram hdatagram).mono hsent⟩
  | hand i arrived =>
    obtain ⟨hrunning, hnext⟩ := Option.ite_none_right_eq_some.mp hstep
    cases hnext
    have hnew (datagram : Bytes) (hdatagram : .ok datagram ∈ x.handed i ++ [arrived]) :
        x.Unforged (ends i false) datagram := by
      rcases List.mem_append.mp hdatagram with hold | hnew
      · exact h.handed i datagram hold
      · cases List.mem_singleton.mp hnew
        exact (unforged_unchanged (h.sound hpaired i false).unchanged datagram).mp (hallowed i datagram rfl)
    have hunforged := (Function.forall_update_iff x.handed fun j handed => ∀ datagram, .ok datagram ∈ handed →
      x.Unforged (ends j false) datagram).mpr ⟨hnew, fun j _ => h.handed j⟩
    refine ⟨h.client, fun j => ?_, fun j datagram hdatagram => (hunforged j datagram hdatagram).mono hsent⟩
    show Function.update x.tasks i _ j = Echo.task _ (Function.update x.handed i _ j)
    by_cases hij : j = i
    · subst hij
      have htask := h.task j
      rw [htask] at hrunning
      rw [Function.update_self, Function.update_self, task_append hrunning, ← htask]
    · rw [Function.update_of_ne hij, Function.update_of_ne hij]
      exact h.task j

theorem kept_reached (hpaired : ∀ i, Channel.Paired (ids i) (session i) (ends i))
    (h : Reached Server.step Allowed (spawned ends) x) : Kept ends x :=
  h.invariant (I := Kept ends) (kept_spawned ends) fun _ _ _ hy he hstep => hy.step hpaired he hstep

end

/-! ### Honest clients -/

section Honest
variable {clientId serverId : ι → UInt64}

theorem paired_of_honest (hsep : P.SeparatesDirections) (hdh : P.AgreesOnSecrets) (hsig : P.VerifiesSignatures)
    (hmac : P.MacLength) (h : ∀ i, HonestPair (clientId i) (serverId i) (ends i true) (ends i false)) :
    ∃ session : ι → AeadSession P, ∀ i,
      Channel.Paired (fun isClient => bif isClient then clientId i else serverId i) (session i) (ends i) :=
  Classical.axiomOfChoice fun i => Channel.paired_of_honest hsep hdh hsig hmac (h i)

variable [DecidableEq ι]

/-- **A task goes on only as long as all that it is handed is its own client's**, and for
just as long where its socket takes what it answers: among any number of honest clients, in
every state and whatever the network does, the first datagram of another connection ends it. -/
theorem running_iff (hP : P.Authenticates) (hencrypts : P.Encrypts) (hsep : P.SeparatesDirections)
    (hdh : P.AgreesOnSecrets) (hsig : P.VerifiesSignatures) (hmac : P.MacLength)
    (h : ∀ i, HonestPair (clientId i) (serverId i) (ends i true) (ends i false)) (hapart : Apart ends)
    (hreached : Reached step Allowed (spawned ends) x) (i : ι) :
    let own := ∀ arrived ∈ x.handed i, ∃ frame, x.Own ends i arrived frame
    ((x.tasks i).1 = true → own) ∧
      ((∀ n, (ends i false).socket.refuses n = none) → ((x.tasks i).1 = true ↔ own)) := by
  intro own
  obtain ⟨session, hpaired⟩ := paired_of_honest hsep hdh hsig hmac h
  have hkept := kept_reached hpaired hreached
  have hready := (hpaired i).ready false
  have hserved : AllServed (ends i false) (x.handed i) ↔ own := by
    refine forall₂_congr fun arrived harrived => ?_
    rw [Option.ne_none_iff_exists']
    exact exists_congr fun frame => hkept.served_iff hP hpaired hapart harrived frame
  rw [hkept.task i]
  constructor
  · intro hrunning
    obtain ⟨_, -, -, hwhole⟩ := sends_task (x.handed i) (e := start (ends i false)) hready.aead hready.incomingFrames
    exact hserved.mp (hwhole hrunning).2
  · intro hrefuses
    have hopen : Open (session i) (start (ends i false)) := ⟨hready.aead, hready.state, hrefuses⟩
    exact (task_open hencrypts (x.handed i) hopen hready.incomingFrames).1.trans hserved

/-- **A task answers its own client alone**: what it has sent is what it owes for the first
so many datagrams it was handed, each of which its own client has sent, or a beginning of
it, and nothing for the one after these. -/
theorem answers_own (hP : P.Authenticates) (hencrypts : P.Encrypts) (hsep : P.SeparatesDirections)
    (hdh : P.AgreesOnSecrets) (hsig : P.VerifiesSignatures) (hmac : P.MacLength)
    (h : ∀ i, HonestPair (clientId i) (serverId i) (ends i true) (ends i false)) (hapart : Apart ends)
    (hreached : Reached step Allowed (spawned ends) x) (i : ι) :
    ∃ n frames, List.Forall₂ (x.Own ends i) ((x.handed i).take n) frames ∧
      (∀ arrived, (x.handed i)[n]? = some arrived → ∀ frame, ¬ x.Own ends i arrived frame) ∧
      (x.tasks i).2.emitted.map Prod.fst <+: frames.flatMap (answer (ends i false).destination) ∧
      ((∀ n, (ends i false).socket.refuses n = none) →
        (x.tasks i).2.emitted.map Prod.fst = frames.flatMap (answer (ends i false).destination)) := by
  obtain ⟨session, hpaired⟩ := paired_of_honest hsep hdh hsig hmac h
  have hkept := kept_reached hpaired hreached
  have hready := (hpaired i).ready false
  obtain ⟨n, hframes, hnext⟩ := frames_served (ends i false) (x.handed i)
  refine ⟨n, frames (ends i false) (x.handed i), ?_, fun arrived harrived frame hown => ?_, ?_, fun hrefuses => ?_⟩
  · have hhanded := (List.forall₂_and_left _ _).mpr ⟨fun _ h => List.mem_of_mem_take h, hframes⟩
    exact hhanded.imp fun arrived frame h' => (hkept.served_iff hP hpaired hapart h'.1 frame).mp h'.2
  · have hserved := (hkept.served_iff hP hpaired hapart (List.mem_of_getElem? harrived) frame).mpr hown
    rw [hnext arrived harrived] at hserved
    cases hserved
  · obtain ⟨sent, hemitted, hbegins, -⟩ :=
      sends_task (x.handed i) (e := start (ends i false)) hready.aead hready.incomingFrames
    rw [hkept.task i, hemitted]
    exact hbegins
  · have hopen : Open (session i) (start (ends i false)) := ⟨hready.aead, hready.state, hrefuses⟩
    rw [hkept.task i]
    exact (task_open hencrypts (x.handed i) hopen hready.incomingFrames).2

/-- **A client accepts what its own task has sent, and nothing of any other one's.** -/
theorem accepts_own (hP : P.Authenticates) (hsep : P.SeparatesDirections) (hdh : P.AgreesOnSecrets)
    (hsig : P.VerifiesSignatures) (hmac : P.MacLength)
    (h : ∀ i, HonestPair (clientId i) (serverId i) (ends i true) (ends i false)) (hapart : Apart ends)
    (hreached : Reached step Allowed (spawned ends) x) {i : ι} {datagram : Bytes}
    (hunforged : x.Unforged (ends i true) datagram) (frame : Frame) :
    ((recvFrame (.ok datagram)).exec (x.clients i)).1 = .ok frame ↔
      Agree ends i ∧ (ends i true).config.recvBufferSize ≤ isizeMax ∧ ∃ m ∈ (x.tasks i).2.emitted,
        m.2 = datagram.take (ends i true).config.recvBufferSize ∧ Frame.decode m.1.encode = .ok frame := by
  obtain ⟨session, hpaired⟩ := paired_of_honest hsep hdh hsig hmac h
  have hkept := kept_reached hpaired hreached
  have hunchanged : Unchanged (ends i true) (x.clients i).connection := (hkept.sound hpaired i true).unchanged
  rw [exec_recvFrame_empty (hunchanged.incomingFrames ((hpaired i).ready true).incomingFrames), hunchanged.reads]
  exact hkept.reads_iff hP hpaired hapart hunforged frame

end Honest

/-! ### What one client says, handed to the task of another one -/

section Two
open HandshakeContext

/-- A client with a key of its own. -/
def farClient : Party Transparent.fixedMacs := { nearClient with secret := (9 : UInt8) }

def farEnd (isClient : Bool) : Connection Transparent.fixedMacs :=
  bif isClient then clientOf farClient nearServer openSocket sampleConfig
  else serverOf farClient nearServer openSocket sampleConfig

def twoEnds (near isClient : Bool) : Connection Transparent.fixedMacs :=
  bif near then Channel.nearEnds isClient else farEnd isClient

theorem honestPair_two (near : Bool) :
    HonestPair 0x100000001 0x100000002 (twoEnds near true) (twoEnds near false) := by
  cases near with
  | true => exact honestPair_near
  | false =>
    exact honestPair (Transparent.agreesOnSecrets _) (Transparent.verifiesSignatures _)
      Transparent.fixedMacs_macLength farClient nearServer (fun _ => rfl) rfl rfl

/-- The key that a connection of theirs has its keys from. -/
def twoKey (near : Bool) : Transparent.fixedMacs.SessionKey :=
  sharedKey (bif near then nearClient else farClient) nearServer

theorem twoKey_ne : twoKey true ≠ twoKey false := by
  have hsecret : (twoKey true : Transparent.Key).1 ≠ (twoKey false : Transparent.Key).1 := by decide +kernel
  exact fun h => hsecret (congrArg (fun key : Transparent.Key => key.1) h)

theorem twoEnds_key {near : Bool} {session : AeadSession Transparent.fixedMacs}
    (h : (twoEnds near true).aead = some session) (isClient : Bool) :
    ((session.txKeys isClient).txKey : Transparent.Key × Bytes).1 = twoKey near := by
  cases near <;> cases h <;> cases isClient <;> rfl

theorem twoEnds_apart : Apart twoEnds := by
  intro i j hij session session' hsession hsession' isClient isClient' hkeys
  have hsame : twoKey i = twoKey j := by
    rw [← twoEnds_key hsession isClient, ← twoEnds_key hsession' isClient', hkeys]
  cases i <;> cases j
  · exact hij rfl
  · exact twoKey_ne hsame.symm
  · exact twoKey_ne hsame
  · exact hij rfl

/-- The near client has said two octets. -/
def twoSaid : Server Transparent.fixedMacs Bool :=
  { spawned twoEnds with
    clients := Function.update (fun i => start (twoEnds i true)) true
      ((start nearClientEnd).perform (.sendStreamData 0 [104, 105])) }

/-- The task of the far client has been woken with what came. -/
def misdelivered (datagram : Bytes) : Server Transparent.fixedMacs Bool :=
  { twoSaid with
    tasks := Function.update twoSaid.tasks false (task (twoSaid.tasks false).2 [.ok datagram])
    handed := Function.update twoSaid.handed false (twoSaid.handed false ++ [.ok datagram]) }

/-- What it was said in, and that the states are reached. -/
theorem two_reached : ∃ m, (twoSaid.clients true).emitted = [m] ∧
    (∀ c : Connection Transparent.fixedMacs, c.config = sampleConfig → (misdelivered m.2).Unforged c m.2) ∧
    Reached step Allowed (spawned twoEnds) (misdelivered m.2) := by
  obtain ⟨m, hemitted, _, hfits⟩ := near_said
  have hsent : (twoSaid.clients true).emitted = [m] := by
    simp only [twoSaid, Function.update_self]
    exact hemitted
  have htaken : m.2.take 65536 = m.2 := List.take_of_length_le hfits.datagram
  have hunforged (x : Server Transparent.fixedMacs Bool) (hx : x.clients = twoSaid.clients)
      (c : Connection Transparent.fixedMacs) (hc : c.config = sampleConfig) : x.Unforged c m.2 := by
    intro _ _
    refine ⟨true, true, m, ?_, ?_⟩
    · show m ∈ (x.clients true).emitted
      rw [hx, hsent]
      exact List.mem_singleton_self m
    · rw [hc]
      exact htaken.symm
  refine ⟨m, hsent, hunforged (misdelivered m.2) rfl, ?_⟩
  have hsaid : Reached step Allowed (spawned twoEnds) twoSaid :=
    .next (.client true (.sendStreamData 0 [104, 105])) .start (fun _ _ h => by cases h) rfl
  have hallowed : twoSaid.Allowed (.hand false (.ok m.2)) := by
    intro i datagram h
    cases h
    exact hunforged twoSaid rfl _ rfl
  have hrunning : (twoSaid.tasks false).1 = true := rfl
  have hstep : step twoSaid (.hand false (.ok m.2)) = some (misdelivered m.2) := by
    rw [step, if_pos hrunning]
    rfl
  exact .next _ hsaid hallowed hstep

theorem running_iff_misdelivered : ∃ m, (twoSaid.clients true).emitted = [m] ∧
    let own := ∀ arrived ∈ (misdelivered m.2).handed false, ∃ frame, (misdelivered m.2).Own twoEnds false arrived frame
    (((misdelivered m.2).tasks false).1 = true → own) ∧
      ((∀ n, (twoEnds false false).socket.refuses n = none) → (((misdelivered m.2).tasks false).1 = true ↔ own)) := by
  obtain ⟨m, hemitted, _, hreached⟩ := two_reached
  exact ⟨m, hemitted, running_iff (Transparent.authenticates _) (Transparent.encrypts _)
    (Transparent.separatesDirections _) (Transparent.agreesOnSecrets _) (Transparent.verifiesSignatures _)
    Transparent.fixedMacs_macLength honestPair_two twoEnds_apart hreached false⟩

theorem answers_own_misdelivered : ∃ m, (twoSaid.clients true).emitted = [m] ∧
    ∃ n frames, List.Forall₂ ((misdelivered m.2).Own twoEnds false) (((misdelivered m.2).handed false).take n) frames ∧
      (∀ arrived, ((misdelivered m.2).handed false)[n]? = some arrived →
        ∀ frame, ¬ (misdelivered m.2).Own twoEnds false arrived frame) ∧
      ((misdelivered m.2).tasks false).2.emitted.map Prod.fst <+:
        frames.flatMap (answer (twoEnds false false).destination) ∧
      ((∀ n, (twoEnds false false).socket.refuses n = none) →
        ((misdelivered m.2).tasks false).2.emitted.map Prod.fst =
          frames.flatMap (answer (twoEnds false false).destination)) := by
  obtain ⟨m, hemitted, _, hreached⟩ := two_reached
  exact ⟨m, hemitted, answers_own (Transparent.authenticates _) (Transparent.encrypts _)
    (Transparent.separatesDirections _) (Transparent.agreesOnSecrets _) (Transparent.verifiesSignatures _)
    Transparent.fixedMacs_macLength honestPair_two twoEnds_apart hreached false⟩

theorem accepts_own_misdelivered : ∃ m, (twoSaid.clients true).emitted = [m] ∧
    (((recvFrame (.ok m.2)).exec ((misdelivered m.2).clients false)).1 = .ok m.1 ↔
      Agree twoEnds false ∧ (twoEnds false true).config.recvBufferSize ≤ isizeMax ∧
        ∃ m' ∈ ((misdelivered m.2).tasks false).2.emitted,
          m'.2 = m.2.take (twoEnds false true).config.recvBufferSize ∧ Frame.decode m'.1.encode = .ok m.1) := by
  obtain ⟨m, hemitted, hunforged, hreached⟩ := two_reached
  exact ⟨m, hemitted, accepts_own (Transparent.authenticates _) (Transparent.separatesDirections _)
    (Transparent.agreesOnSecrets _) (Transparent.verifiesSignatures _) Transparent.fixedMacs_macLength honestPair_two
    twoEnds_apart hreached (hunforged (twoEnds false true) rfl) m.1⟩

end Two

end Server

end

end Aether
