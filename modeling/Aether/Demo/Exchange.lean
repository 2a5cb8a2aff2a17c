import Aether.Connection.Channel
import Aether.Demo.Echo

/-! The demo's client and the task that serves it, with what is between them.

The client says its messages one by one and reads one frame after each; then it sends a
keep-alive and closes (`run_client`). The two run side by side, each with the other's
datagrams in the order they were sent; what is on its way to either may get lost, to
the listener that reads from the server's socket, say. In every run the client hears answers to
what it has said, in order, and nothing else (`heard_safe`). Where the server's socket is not
connected, as the demo's is not, the client says one message and waits for good (`unheard`). -/
namespace Aether
open Octets Octets.Method Connection Endpoint

section
variable {P : Primitives}

/-- Where the client is in its messages. -/
inductive Exchange.Phase where
  | saying (messages : List Bytes)
  | waiting (messages : List Bytes)
  | ended (result : Result Unit)

variable (P) in
/-- The two ends, what is on its way between them, and what the client has heard. -/
structure Exchange where
  client : Endpoint P
  phase : Exchange.Phase
  heard : List (Result Frame)
  toServer : List Bytes
  server : Endpoint P
  serving : Bool
  toClient : List Bytes

inductive Exchange.Move where
  | client
  | server
  /-- The oldest datagram on its way to this end does not get there. -/
  | lost (isClient : Bool)
  deriving DecidableEq

namespace Exchange
open Echo

/-- The end of `run_client`. -/
def finish (nonce : UInt64) : Action (Endpoint P) Unit := do
  ping nonce
  close .noError

/-- What an endpoint has sent since it was `e`. -/
def sentSince (e e' : Endpoint P) : List Bytes := (e'.emitted.drop e.emitted.length).map Prod.snd

/-- The client says a message. -/
def say (x : Exchange P) (message : Bytes) (messages : List Bytes) : Exchange P :=
  let r := (sendStreamData 0 message).exec x.client
  { x with
    client := r.2
    toServer := x.toServer ++ sentSince x.client r.2
    phase :=
      match r.1 with
      | .ok _ => .waiting messages
      | .error e => .ended (.error e) }

/-- The client has nothing more to say. -/
def part (nonce : UInt64) (x : Exchange P) : Exchange P :=
  let r := (finish nonce).exec x.client
  { x with client := r.2, toServer := x.toServer ++ sentSince x.client r.2, phase := .ended r.1 }

/-- The client reads a frame. An error is printed and no more; aborted is aborted. -/
def hear (x : Exchange P) (datagram : Bytes) (toClient : List Bytes) (messages : List Bytes) : Exchange P :=
  let r := (recvFrame (.ok datagram)).exec x.client
  { x with
    client := r.2
    toClient
    heard := x.heard ++ [r.1]
    phase :=
      match r.1 with
      | .error .panic => .ended (.error .panic)
      | _ => .saying messages }

/-- The server's task takes a turn. -/
def serve (x : Exchange P) (datagram : Bytes) (toServer : List Bytes) : Exchange P :=
  let r := task x.server [.ok datagram]
  { x with server := r.2, serving := r.1, toServer, toClient := x.toClient ++ sentSince x.server r.2 }

/-- A move, if it can be made. `nonce` is the random number of the keep-alive. -/
def step (nonce : UInt64) (x : Exchange P) : Move → Option (Exchange P)
  | .client =>
    match x.phase with
    | .saying [] => some (x.part nonce)
    | .saying (message :: messages) => some (x.say message messages)
    | .waiting messages =>
      match x.toClient with
      | datagram :: toClient => some (x.hear datagram toClient messages)
      | [] => none
    | .ended _ => none
  | .server =>
    match x.serving, x.toServer with
    | true, datagram :: toServer => some (x.serve datagram toServer)
    | _, _ => none
  | .lost false =>
    match x.toServer with
    | _ :: toServer => some { x with toServer }
    | [] => none
  | .lost true =>
    match x.toClient with
    | _ :: toClient => some { x with toClient }
    | [] => none

def run (nonce : UInt64) (x : Exchange P) : List Move → Option (Exchange P)
  | [] => some x
  | move :: moves => (step nonce x move).bind fun y => run nonce y moves

/-- Neither end can move. -/
def Stuck (nonce : UInt64) (x : Exchange P) : Prop := step nonce x .client = none ∧ step nonce x .server = none

/-- Two connections that have just been set up. -/
def init (c s : Connection P) (messages : List Bytes) : Exchange P :=
  { client := start c, phase := .saying messages, heard := [], toServer := [], server := start s, serving := true,
    toClient := [] }

/-- What a move can be. -/
inductive Moved (nonce : UInt64) (x : Exchange P) : Move → Exchange P → Prop where
  | part (phase : x.phase = .saying []) : Moved nonce x .client (x.part nonce)
  | say {message : Bytes} {messages : List Bytes} (phase : x.phase = .saying (message :: messages)) :
      Moved nonce x .client (x.say message messages)
  | hear {messages : List Bytes} {datagram : Bytes} {toClient : List Bytes} (phase : x.phase = .waiting messages)
      (next : x.toClient = datagram :: toClient) : Moved nonce x .client (x.hear datagram toClient messages)
  | serve {datagram : Bytes} {toServer : List Bytes} (serving : x.serving = true)
      (next : x.toServer = datagram :: toServer) : Moved nonce x .server (x.serve datagram toServer)
  | unserved {datagram : Bytes} {toServer : List Bytes} (next : x.toServer = datagram :: toServer) :
      Moved nonce x (.lost false) { x with toServer }
  | missed {datagram : Bytes} {toClient : List Bytes} (next : x.toClient = datagram :: toClient) :
      Moved nonce x (.lost true) { x with toClient }

theorem moved {nonce : UInt64} {x y : Exchange P} {move : Move} (h : step nonce x move = some y) :
    Moved nonce x move y := by
  cases move with
  | client =>
    simp only [step] at h
    split at h
    case h_1 hphase =>
      cases h
      exact .part hphase
    case h_2 hphase =>
      cases h
      exact .say hphase
    case h_3 hphase =>
      split at h
      case h_1 hnext =>
        cases h
        exact .hear hphase hnext
      case h_2 => cases h
    case h_4 => cases h
  | server =>
    simp only [step] at h
    split at h
    case h_1 hserving hnext =>
      cases h
      exact .serve hserving hnext
    case h_2 => cases h
  | lost isClient =>
    cases isClient with
    | false =>
      simp only [step] at h
      split at h
      case h_1 hnext =>
        cases h
        exact .unserved hnext
      case h_2 => cases h
    | true =>
      simp only [step] at h
      split at h
      case h_1 hnext =>
        cases h
        exact .missed hnext
      case h_2 => cases h

/-- What each of its moves keeps, a run keeps. -/
theorem run_invariant {nonce : UInt64} {I : Exchange P → Prop} {moves : List Move}
    (hmove : ∀ x, ∀ move ∈ moves, ∀ y, I x → Moved nonce x move y → I y) {x y : Exchange P} (hx : I x)
    (h : run nonce x moves = some y) : I y := by
  induction moves generalizing x with
  | nil =>
    cases h
    exact hx
  | cons move moves ih =>
    obtain ⟨x', hstep, hrest⟩ := Option.bind_eq_some_iff.mp h
    have hnext := hmove x move List.mem_cons_self x' hx (moved hstep)
    exact ih (fun x move hmem => hmove x move (List.mem_cons_of_mem _ hmem)) hnext hrest

theorem sentSince_eq {e e' : Endpoint P} {sent : List (Frame × Bytes)} (h : e'.emitted = e.emitted ++ sent) :
    sentSince e e' = sent.map Prod.snd := by
  rw [sentSince, h, List.drop_left]

/-! ### Frames that any buffer holds -/

theorem small_answer {frame : Frame} (h : frame.WellFormed) (destination : UInt32) :
    ∀ answered ∈ answer destination frame, Small answered := by
  intro answered hanswered
  rw [answer] at hanswered
  split at hanswered
  · exact small_dataFrames h.streamId destination (fun _ hchunk => mem_chunks hchunk) 0 answered hanswered
  · exact absurd hanswered List.not_mem_nil

/-- The buffer of the one can be made and holds what the other makes of a frame with a full chunk. -/
structure Holds (sender receiver : Connection P) : Prop where
  room : receiver.config.recvBufferSize ≤ isizeMax
  datagram : ∀ session wire datagram, sender.aead = some session → wire.length ≤ shortHeaderSize + maxPayloadSize →
    (session.txKeys sender.isClient).encrypt wire sender.makeAad = .ok datagram →
    datagram.length ≤ receiver.config.recvBufferSize

/-- What was sent in a small frame fits. -/
theorem fits_of_small {c s : Connection P} {session : AeadSession P} (hc : c.aead = some session)
    {ops ops' : List Operation} {m : Frame × Bytes} (hm : m ∈ ((start c).run ops).emitted) (hsmall : Small m.1)
    (hs : s.aead = some session) (hholds : Holds c s) : Fits m ((start s).run ops') := by
  refine ⟨hsmall.wellFormed, ?_⟩
  rw [(sound_run hs ops').unchanged.config]
  exact hholds.datagram session _ _ hc hsmall.length ((sound_run hc ops).emitted m hm)

/-! ### What the ends do -/

theorem later_finish (nonce : UInt64) (e : Endpoint P) : Later e ((finish nonce).exec e).2 := by
  rw [finish, exec_bind]
  rcases hping : (ping nonce).exec e with ⟨r, e'⟩
  have he' : e.perform (.ping nonce) = e' := by rw [perform, hping]
  have hlater : Later e e' := he' ▸ later_perform e (.ping nonce)
  cases r with
  | error error => exact hlater
  | ok u => exact hlater.trans (later_perform e' (.close .noError))

theorem later_turn (arrived : Arrival) (e : Endpoint P) : Later e ((turn arrived).exec e).2 := by
  rcases hrecv : (recvFrame arrived).exec e with ⟨r, e'⟩
  have he' : e.perform (.recvFrame arrived) = e' := by rw [perform, hrecv]
  have hlater : Later e e' := he' ▸ later_perform e (.recvFrame arrived)
  rw [turn]
  cases r with
  | error error =>
    rw [exec_bind_error hrecv]
    exact hlater
  | ok frame =>
    rw [exec_bind_ok hrecv]
    cases frame.header.frameType with
    | data =>
      have hsend := exec_bind_pure (sendStreamData frame.header.streamId (response frame.payload)) (fun _ => true) e'
      show Later e ((sendStreamData _ _ >>= fun _ => pure true : Action (Endpoint P) Bool).exec e').2
      rw [hsend]
      exact hlater.trans (later_perform e' (.sendStreamData frame.header.streamId (response frame.payload)))
    | _ => exact hlater

theorem later_task (arriving : List Arrival) (e : Endpoint P) : Later e (task e arriving).2 := by
  induction arriving generalizing e with
  | nil => exact ⟨[], rfl⟩
  | cons arrived arriving ih =>
    have hturn := later_turn arrived e
    rcases hexec : (turn arrived).exec e with ⟨r, e'⟩
    rw [hexec] at hturn
    by_cases hr : r = .ok true
    · rw [hr] at hexec
      rw [task_served hexec]
      exact hturn.trans (ih e')
    · rw [task_broken hexec hr]
      exact hturn

/-- Closing sends nothing and fails, so a client always ends with an error. -/
theorem sends_finish {session : AeadSession P} {e : Endpoint P} (haead : e.connection.aead = some session)
    (nonce : UInt64) :
    Sends e [Frame.ping e.connection.destination nonce] ((finish nonce).exec e) ∧
      ∃ error, ((finish nonce).exec e).1 = .error error := by
  have hsending := exec_sendFrame haead (Frame.ping e.connection.destination nonce)
  have hping : (ping nonce).exec e = (sendFrame (Frame.ping e.connection.destination nonce)).exec e := by
    rw [ping, exec_get_bind]
  rcases hexec : (ping nonce).exec e with ⟨r, e'⟩
  rw [← hping, hexec] at hsending
  have hunchanged := hsending.unchanged
  rw [finish]
  rcases hsending.emitted with ⟨error, hr, hemitted⟩ | ⟨datagram, hr, hemitted⟩
  · cases hr
    rw [exec_bind_error hexec]
    exact ⟨⟨hunchanged, [], hemitted.trans (List.append_nil _).symm, List.nil_prefix, nofun⟩, error, rfl⟩
  · cases hr
    rw [exec_bind_ok hexec, exec_close]
    exact ⟨⟨hunchanged.trans ⟨rfl, rfl, rfl, rfl, rfl, rfl, rfl, id⟩, [(_, datagram)], hemitted, List.prefix_rfl,
      nofun⟩, _, rfl⟩

/-! ### What holds in every run -/

/-- What is on its way, as what has been sent: what the server's task has had, what may still get
there, and that it answers what it has had. -/
structure ToServer (s : Connection P) (x : Exchange P) (had pending : List (Frame × Bytes)) : Prop where
  onTheWay : x.toServer = pending.map Prod.snd
  sent : List.Sublist (had ++ pending) x.client.emitted
  answered : x.server.emitted.map Prod.fst <+: (had.map Prod.fst).flatMap (answer s.destination)
  whole : x.serving = true → x.server.emitted.map Prod.fst = (had.map Prod.fst).flatMap (answer s.destination)

/-- And what has been heard, of what the server has sent: all of it but what is on its way, where
nothing of it got lost (`intact`). -/
structure ToClient (intact : Prop) (x : Exchange P) (got pending : List (Frame × Bytes)) : Prop where
  sent : List.Sublist (got ++ pending) x.server.emitted
  whole : intact → x.server.emitted = got ++ pending
  onTheWay : x.toClient = pending.map Prod.snd
  heard : x.heard = got.map fun m => .ok m.1

/-- What both ends and the network keep. -/
structure Kept (agree intact : Prop) (c s : Connection P) (x : Exchange P) : Prop where
  client : Later (start c) x.client
  server : Later (start s) x.server
  clientFrames : ∀ m ∈ x.client.emitted, Small m.1 ∧ m.1.header.frameType ≠ .close
  serverFrames : ∀ m ∈ x.server.emitted, Small m.1
  toServer : ∃ had pending, ToServer s x had pending
  toClient : ∃ got pending, ToClient intact x got pending
  agree : x.server.emitted ≠ [] → agree

section Run
variable {clientId serverId : UInt64} {session : AeadSession P} {c s : Connection P} {intact : Prop}

theorem kept_init (agree intact : Prop) (c s : Connection P) (messages : List Bytes) :
    Kept agree intact c s (init c s messages) where
  client := ⟨[], rfl⟩
  server := ⟨[], rfl⟩
  clientFrames := fun _ h => absurd h List.not_mem_nil
  serverFrames := fun _ h => absurd h List.not_mem_nil
  toServer := ⟨[], [], rfl, List.Sublist.refl _, List.prefix_rfl, fun _ => rfl⟩
  toClient := ⟨[], [], List.Sublist.refl _, fun _ => rfl, rfl, rfl⟩
  agree := fun h => absurd rfl h

/-- Sending frames that may be sent, the client keeps what holds. -/
theorem Kept.sends {agree : Prop} {x : Exchange P} (h : Kept agree intact c s x) {owed : List Frame} {α : Type}
    {r : Result α × Endpoint P} (hsends : Sends x.client owed r) (hlater : Later x.client r.2)
    (howed : ∀ frame ∈ owed, Small frame ∧ frame.header.frameType ≠ .close) (phase : Phase) :
    Kept agree intact c s { x with client := r.2, toServer := x.toServer ++ sentSince x.client r.2, phase } := by
  obtain ⟨sent, hemitted, hbegins, -⟩ := hsends.emitted
  obtain ⟨had, pending, htoServer⟩ := h.toServer
  obtain ⟨got, unread, htoClient⟩ := h.toClient
  refine ⟨h.client.trans hlater, h.server, ?_, h.serverFrames, ⟨had, pending ++ sent, ?_, ?_, htoServer.answered,
    htoServer.whole⟩, ⟨got, unread, htoClient.sent, htoClient.whole, htoClient.onTheWay, htoClient.heard⟩, h.agree⟩
  · intro m hm
    rw [hemitted] at hm
    rcases List.mem_append.mp hm with hm | hm
    · exact h.clientFrames m hm
    · exact howed m.1 (hbegins.subset (List.mem_map_of_mem hm))
  · show x.toServer ++ sentSince x.client r.2 = _
    rw [sentSince_eq hemitted, htoServer.onTheWay, List.map_append]
  · show List.Sublist (had ++ (pending ++ sent)) r.2.emitted
    rw [hemitted, ← List.append_assoc]
    exact htoServer.sent.append_right sent

/-- Whatever the keep-alive and the messages are, they may be sent. -/
theorem small_ping (destination : UInt32) (nonce : UInt64) :
    ∀ frame ∈ [Frame.ping destination nonce], Small frame ∧ frame.header.frameType ≠ .close := by
  intro frame hframe
  cases List.mem_singleton.mp hframe
  refine ⟨small_newShort .ping (by decide) _ _ ?_, nofun⟩
  rw [toBe_length]
  decide

theorem small_message (destination : UInt32) (message : Bytes) :
    ∀ frame ∈ dataFrames 0 destination 0 (chunks maxPayloadSize message),
      Small frame ∧ frame.header.frameType ≠ .close := by
  intro frame hframe
  refine ⟨small_dataFrames (by decide) destination (fun _ hchunk => mem_chunks hchunk) 0 frame hframe, ?_⟩
  rw [(mem_dataFrames hframe).1]
  exact nofun

/-- What the task hears of a datagram of the client. -/
theorem frames_of_sent (hP : P.Authenticates) (hc : Ready true clientId session c)
    (hs : Ready false serverId session s) (hholds : Holds c s) {x : Exchange P}
    (h : Kept (truncateCid clientId = truncateCid serverId) intact c s x) {m : Frame × Bytes}
    (hm : m ∈ x.client.emitted) :
    frames s [.ok m.2] = if truncateCid clientId = truncateCid serverId then [m.1] else [] := by
  obtain ⟨ops, hops⟩ := h.client
  rw [hops] at hm
  obtain ⟨hsmall, htype⟩ := h.clientFrames m (hops ▸ hm)
  have hfits : Fits m ((start s).run []) := fits_of_small hc.aead hm hsmall hs.aead hholds
  have hsent : ∀ m' ∈ [m], m' ∈ ((start c).run ops).emitted ∧ Fits m' (start s) := by
    intro m' hm'
    cases List.mem_singleton.mp hm'
    exact ⟨hm, hfits⟩
  have hframes := frames_sent hP hc hs ops hsent
  simp only [List.map_singleton, hholds.room, and_true] at hframes
  rw [hframes]
  split
  · simp [htype]
  · rfl

/-- A turn of the task. -/
theorem exec_serve (hP : P.Authenticates) (hc : Ready true clientId session c)
    (hs : Ready false serverId session s) (hholds : Holds c s) {x : Exchange P}
    (h : Kept (truncateCid clientId = truncateCid serverId) intact c s x) {m : Frame × Bytes}
    (hm : m ∈ x.client.emitted) :
    ∃ sent, (task x.server [.ok m.2]).2.emitted = x.server.emitted ++ sent ∧
      sent.map Prod.fst <+: answer s.destination m.1 ∧
      (sent ≠ [] → truncateCid clientId = truncateCid serverId) ∧
      ((task x.server [.ok m.2]).1 = true → sent.map Prod.fst = answer s.destination m.1) := by
  have hframes := frames_of_sent hP hc hs hholds h hm
  obtain ⟨ops, hops⟩ := h.server
  have hunchanged := (sound_run hs.aead ops).unchanged
  rw [← hops] at hunchanged
  obtain ⟨sent, hemitted, hbegins, hwhole⟩ := sends_task [.ok m.2] (hunchanged.aead.trans hs.aead)
    (hunchanged.incomingFrames hs.incomingFrames)
  rw [answers_unchanged hunchanged, answers, hframes] at hbegins hwhole
  refine ⟨sent, hemitted, ?_⟩
  by_cases hids : truncateCid clientId = truncateCid serverId
  · rw [if_pos hids, List.flatMap_singleton] at hbegins hwhole
    exact ⟨hbegins, fun _ => hids, fun hserving => (hwhole hserving).1⟩
  · rw [if_neg hids, List.flatMap_nil] at hbegins hwhole
    have hnone : sent = [] := List.map_eq_nil_iff.mp (List.prefix_nil.mp hbegins)
    rw [hnone]
    refine ⟨List.nil_prefix, fun hne => absurd rfl hne, fun hserving => ?_⟩
    -- A task that goes on has heard something.
    have hserved := (allServed_unchanged hunchanged _).mp (hwhole hserving).2 _ (List.mem_singleton_self _)
    obtain ⟨frame, hframe⟩ := Option.ne_none_iff_exists'.mp hserved
    rw [Echo.frames, hframe, if_neg hids] at hframes
    cases hframes

theorem Kept.serve (hP : P.Authenticates) (hc : Ready true clientId session c)
    (hs : Ready false serverId session s) (hholds : Holds c s) {x : Exchange P}
    (h : Kept (truncateCid clientId = truncateCid serverId) intact c s x) (hserving : x.serving = true)
    {datagram : Bytes} {toServer : List Bytes} (hnext : x.toServer = datagram :: toServer) :
    Kept (truncateCid clientId = truncateCid serverId) intact c s (x.serve datagram toServer) := by
  obtain ⟨had, pending, htoServer⟩ := h.toServer
  obtain ⟨got, unread, htoClient⟩ := h.toClient
  rw [htoServer.onTheWay] at hnext
  obtain ⟨m, pending, rfl, rfl, rfl⟩ := List.map_eq_cons_iff.mp hnext
  have hm : m ∈ x.client.emitted := htoServer.sent.subset (List.mem_append_right _ List.mem_cons_self)
  obtain ⟨sent, hemitted, hbegins, hids, hwhole⟩ := exec_serve hP hc hs hholds h hm
  have hframes : ((had ++ [m]).map Prod.fst).flatMap (answer s.destination) =
      x.server.emitted.map Prod.fst ++ answer s.destination m.1 := by
    rw [List.map_append, List.flatMap_append, ← htoServer.whole hserving]
    simp
  refine ⟨h.client, h.server.trans (later_task _ _), h.clientFrames, ?_, ⟨had ++ [m], pending, rfl, ?_, ?_, ?_⟩,
    ⟨got, unread ++ sent, ?_, fun hintact => ?_, ?_, htoClient.heard⟩, ?_⟩
  · intro m' hm'
    replace hm' : m' ∈ (task x.server [.ok m.2]).2.emitted := hm'
    rw [hemitted] at hm'
    rcases List.mem_append.mp hm' with hm' | hm'
    · exact h.serverFrames m' hm'
    · exact small_answer (h.clientFrames m hm).1.wellFormed _ _ (hbegins.subset (List.mem_map_of_mem hm'))
  · rw [List.append_assoc]
    exact htoServer.sent
  · show (task x.server [.ok m.2]).2.emitted.map Prod.fst <+: _
    rw [hframes, hemitted, List.map_append]
    exact (List.prefix_append_right_inj _).mpr hbegins
  · intro hgoes
    show (task x.server [.ok m.2]).2.emitted.map Prod.fst = _
    rw [hframes, hemitted, List.map_append, hwhole hgoes]
  · show List.Sublist _ (task x.server [.ok m.2]).2.emitted
    rw [hemitted, ← List.append_assoc]
    exact htoClient.sent.append_right sent
  · show (task x.server [.ok m.2]).2.emitted = _
    rw [hemitted, htoClient.whole hintact, List.append_assoc]
  · show x.toClient ++ sentSince x.server (task x.server [.ok m.2]).2 = _
    rw [sentSince_eq hemitted, htoClient.onTheWay, List.map_append]
  · intro hne
    replace hne : (task x.server [.ok m.2]).2.emitted ≠ [] := hne
    by_cases hsent : sent = []
    · rw [hemitted, hsent, List.append_nil] at hne
      exact h.agree hne
    · exact hids hsent

/-- A datagram of the server is read as the frame that was sent in it. -/
theorem exec_hear (hP : P.Authenticates) (hc : Ready true clientId session c)
    (hs : Ready false serverId session s) (hholds : Holds s c) {x : Exchange P}
    (h : Kept (truncateCid clientId = truncateCid serverId) intact c s x) {m : Frame × Bytes}
    (hm : m ∈ x.server.emitted) :
    ((recvFrame (.ok m.2)).exec x.client).1 = .ok m.1 ∧
      ((recvFrame (.ok m.2)).exec x.client).2.emitted = x.client.emitted := by
  obtain ⟨clientOps, hclient⟩ := h.client
  obtain ⟨serverOps, hserver⟩ := h.server
  have hids := h.agree (List.ne_nil_of_mem hm)
  have hsmall := h.serverFrames m hm
  rw [hserver] at hm
  have hfits : Fits m ((start c).run clientOps) := fits_of_small hs.aead hm hsmall hc.aead hholds
  have hdelivered := (delivered_iff_of_ready hP hs hc serverOps clientOps hm hfits).mpr ⟨hids.symm, hholds.room⟩
  obtain ⟨connection, -, -, hexec⟩ := exec_recvFrame_state x.client (.ok m.2)
  rw [← hclient, Delivered] at hdelivered
  exact ⟨hdelivered, by rw [hexec]⟩

theorem Kept.hear (hP : P.Authenticates) (hc : Ready true clientId session c)
    (hs : Ready false serverId session s) (hholds : Holds s c) {x : Exchange P}
    (h : Kept (truncateCid clientId = truncateCid serverId) intact c s x) {datagram : Bytes} {toClient : List Bytes}
    (hnext : x.toClient = datagram :: toClient) (messages : List Bytes) :
    Kept (truncateCid clientId = truncateCid serverId) intact c s (x.hear datagram toClient messages) := by
  obtain ⟨had, pending, htoServer⟩ := h.toServer
  obtain ⟨got, unread, htoClient⟩ := h.toClient
  rw [htoClient.onTheWay] at hnext
  obtain ⟨m, unread, rfl, rfl, rfl⟩ := List.map_eq_cons_iff.mp hnext
  have hm : m ∈ x.server.emitted := htoClient.sent.subset (List.mem_append_right _ List.mem_cons_self)
  obtain ⟨hresult, hemitted⟩ := exec_hear hP hc hs hholds h hm
  refine ⟨h.client.trans (later_perform _ (.recvFrame (.ok m.2))), h.server, ?_, h.serverFrames,
    ⟨had, pending, htoServer.onTheWay, ?_, htoServer.answered, htoServer.whole⟩,
    ⟨got ++ [m], unread, ?_, fun hintact => ?_, rfl, ?_⟩, h.agree⟩
  · show ∀ m' ∈ ((recvFrame (.ok m.2)).exec x.client).2.emitted, _
    rw [hemitted]
    exact h.clientFrames
  · show List.Sublist _ ((recvFrame (.ok m.2)).exec x.client).2.emitted
    rw [hemitted]
    exact htoServer.sent
  · rw [List.append_assoc]
    exact htoClient.sent
  · rw [List.append_assoc]
    exact htoClient.whole hintact
  · show x.heard ++ [((recvFrame (.ok m.2)).exec x.client).1] = _
    rw [hresult, htoClient.heard, List.map_append]
    rfl

theorem Kept.unserved {agree : Prop} {x : Exchange P} (h : Kept agree intact c s x) {datagram : Bytes}
    {toServer : List Bytes} (hnext : x.toServer = datagram :: toServer) : Kept agree intact c s { x with toServer } := by
  obtain ⟨had, pending, htoServer⟩ := h.toServer
  obtain ⟨got, unread, htoClient⟩ := h.toClient
  rw [htoServer.onTheWay] at hnext
  obtain ⟨m, pending, rfl, rfl, rfl⟩ := List.map_eq_cons_iff.mp hnext
  refine ⟨h.client, h.server, h.clientFrames, h.serverFrames,
    ⟨had, pending, rfl, ?_, htoServer.answered, htoServer.whole⟩,
    ⟨got, unread, htoClient.sent, htoClient.whole, htoClient.onTheWay, htoClient.heard⟩, h.agree⟩
  exact ((List.sublist_cons_self m pending).append_left had).trans htoServer.sent

theorem Kept.missed {agree : Prop} {x : Exchange P} (h : Kept agree intact c s x) {datagram : Bytes}
    {toClient : List Bytes} (hnext : x.toClient = datagram :: toClient) (hlost : ¬ intact) :
    Kept agree intact c s { x with toClient } := by
  obtain ⟨had, pending, htoServer⟩ := h.toServer
  obtain ⟨got, unread, htoClient⟩ := h.toClient
  rw [htoClient.onTheWay] at hnext
  obtain ⟨m, unread, rfl, rfl, rfl⟩ := List.map_eq_cons_iff.mp hnext
  refine ⟨h.client, h.server, h.clientFrames, h.serverFrames,
    ⟨had, pending, htoServer.onTheWay, htoServer.sent, htoServer.answered, htoServer.whole⟩,
    ⟨got, unread, ?_, fun hintact => absurd hintact hlost, rfl, htoClient.heard⟩, h.agree⟩
  exact ((List.sublist_cons_self m unread).append_left got).trans htoClient.sent

theorem Kept.step (hP : P.Authenticates) (hc : Ready true clientId session c)
    (hs : Ready false serverId session s) (hsc : Holds s c)
    (hcs : Holds c s) {nonce : UInt64} {x y : Exchange P}
    (h : Kept (truncateCid clientId = truncateCid serverId) intact c s x) {move : Move} (hmoved : Moved nonce x move y)
    (hintact : intact → move ≠ .lost true) : Kept (truncateCid clientId = truncateCid serverId) intact c s y := by
  have haead : x.client.connection.aead = some session := by
    obtain ⟨ops, hops⟩ := h.client
    rw [hops]
    exact (sound_run hc.aead ops).unchanged.aead.trans hc.aead
  cases hmoved with
  | part phase => exact h.sends (sends_finish haead nonce).1 (later_finish nonce _) (small_ping _ nonce) _
  | @say message messages phase =>
    exact h.sends (sends_sendStreamData haead 0 message) (later_perform _ (.sendStreamData 0 message))
      (small_message _ message) _
  | hear phase next => exact h.hear hP hc hs hsc next _
  | serve serving next => exact h.serve hP hc hs hcs serving next
  | unserved next => exact h.unserved next
  | missed next => exact h.missed next fun hwhole => hintact hwhole rfl

/-- The frames of a message. -/
def said (c : Connection P) (message : Bytes) : List Frame :=
  dataFrames 0 c.destination 0 (chunks maxPayloadSize message)

/-- The frames of a client that gets to say everything. -/
def script (nonce : UInt64) (c : Connection P) (messages : List Bytes) : List Frame :=
  messages.flatMap (said c) ++ [Frame.ping c.destination nonce]

/-- How far the client has got. -/
def Said (nonce : UInt64) (c : Connection P) (messages : List Bytes) (x : Exchange P) : Prop :=
  match x.phase with
  | .saying rest | .waiting rest =>
    ∃ before, messages = before ++ rest ∧ x.client.emitted.map Prod.fst = before.flatMap (said c)
  | .ended _ => x.client.emitted.map Prod.fst <+: script nonce c messages

/-- What was said before the rest is the beginning of the script. -/
theorem said_prefix_script {nonce : UInt64} {messages before rest : List Bytes} (h : messages = before ++ rest)
    {frames : List Frame} (hframes : frames <+: rest.flatMap (said c) ++ [Frame.ping c.destination nonce]) :
    before.flatMap (said c) ++ frames <+: script nonce c messages := by
  rw [script, h, List.flatMap_append, List.append_assoc]
  exact (List.prefix_append_right_inj _).mpr hframes

theorem Said.step {nonce : UInt64} {messages : List Bytes} {x y : Exchange P} (h : Said nonce c messages x)
    (hunchanged : Unchanged c x.client.connection) (haead : c.aead = some session) {move : Move}
    (hmoved : Moved nonce x move y) : Said nonce c messages y := by
  cases hmoved with
  | part phase =>
    rw [Said, phase] at h
    obtain ⟨before, hbefore, hemitted⟩ := h
    obtain ⟨sent, hsent, hbegins, -⟩ := (sends_finish (hunchanged.aead.trans haead) nonce).1.emitted
    rw [hunchanged.destination] at hbegins
    show ((finish nonce).exec x.client).2.emitted.map Prod.fst <+: _
    rw [hsent, List.map_append, hemitted]
    exact said_prefix_script hbefore hbegins
  | @say message rest phase =>
    rw [Said, phase] at h
    obtain ⟨before, hbefore, hemitted⟩ := h
    obtain ⟨sent, hsent, hbegins, hwhole⟩ :=
      (sends_sendStreamData (hunchanged.aead.trans haead) 0 message).emitted
    rw [hunchanged.destination] at hbegins hwhole
    have hframes : ((sendStreamData 0 message).exec x.client).2.emitted.map Prod.fst =
        before.flatMap (said c) ++ sent.map Prod.fst := by
      rw [hsent, List.map_append, hemitted]
    cases hresult : ((sendStreamData 0 message).exec x.client).1 with
    | ok u =>
      have hphase : (x.say message rest).phase = .waiting rest := by rw [say, hresult]
      rw [Said, hphase]
      refine ⟨before ++ [message], by rw [hbefore, List.append_assoc]; rfl, ?_⟩
      show ((sendStreamData 0 message).exec x.client).2.emitted.map Prod.fst = _
      rw [hframes, hwhole u hresult, List.flatMap_append, List.flatMap_singleton, said]
    | error error =>
      have hphase : (x.say message rest).phase = .ended (.error error) := by rw [say, hresult]
      rw [Said, hphase]
      show ((sendStreamData 0 message).exec x.client).2.emitted.map Prod.fst <+: _
      rw [hframes]
      refine said_prefix_script hbefore ?_
      rw [List.flatMap_cons, List.append_assoc]
      exact hbegins.trans (List.prefix_append _ _)
  | @hear rest datagram toClient phase next =>
    rw [Said, phase] at h
    obtain ⟨before, hbefore, hemitted⟩ := h
    have hframes : ((recvFrame (.ok datagram)).exec x.client).2.emitted.map Prod.fst = before.flatMap (said c) := by
      obtain ⟨connection, -, -, hexec⟩ := exec_recvFrame_state x.client (.ok datagram)
      rw [hexec]
      exact hemitted
    by_cases hpanic : ((recvFrame (.ok datagram)).exec x.client).1 = .error .panic
    · have hphase : (x.hear datagram toClient rest).phase = .ended (.error .panic) := by rw [hear, hpanic]
      rw [Said, hphase]
      show ((recvFrame (.ok datagram)).exec x.client).2.emitted.map Prod.fst <+: _
      rw [hframes, ← List.append_nil (before.flatMap (said c))]
      exact said_prefix_script hbefore List.nil_prefix
    · have hphase : (x.hear datagram toClient rest).phase = .saying rest := by
        simp only [hear]
      rw [Said, hphase]
      exact ⟨before, hbefore, hframes⟩
  | serve serving next => exact h
  | unserved next => exact h
  | missed next => exact h

/-- What holds at the start is kept. -/
theorem kept_run (hP : P.Authenticates) (hc : Ready true clientId session c)
    (hs : Ready false serverId session s) (hsc : Holds s c)
    (hcs : Holds c s) {nonce : UInt64} {messages : List Bytes} {moves : List Move}
    {x : Exchange P} (h : run nonce (init c s messages) moves = some x) :
    Kept (truncateCid clientId = truncateCid serverId) (Move.lost true ∉ moves) c s x ∧ Said nonce c messages x := by
  refine run_invariant (I := fun x =>
    Kept (truncateCid clientId = truncateCid serverId) (Move.lost true ∉ moves) c s x ∧ Said nonce c messages x) ?_
    ⟨kept_init _ _ c s messages, [], rfl, rfl⟩ h
  intro x move hmem y hx hmoved
  obtain ⟨ops, hops⟩ := hx.1.client
  have hunchanged := (sound_run hc.aead ops).unchanged
  rw [← hops] at hunchanged
  have hintact : Move.lost true ∉ moves → move ≠ .lost true := by
    rintro hlost rfl
    exact hlost hmem
  exact ⟨hx.1.step hP hc hs hsc hcs hmoved hintact, hx.2.step hunchanged hc.aead hmoved⟩

theorem Said.begins {nonce : UInt64} {messages : List Bytes} {x : Exchange P} (h : Said nonce c messages x) :
    x.client.emitted.map Prod.fst <+: script nonce c messages := by
  have hsaid : ∀ rest, (∃ before, messages = before ++ rest ∧ x.client.emitted.map Prod.fst = before.flatMap (said c)) →
      x.client.emitted.map Prod.fst <+: script nonce c messages := by
    intro rest h
    obtain ⟨before, hbefore, hemitted⟩ := h
    rw [hemitted, ← List.append_nil (before.flatMap (said c))]
    exact said_prefix_script hbefore List.nil_prefix
  rw [Said] at h
  split at h
  · exact hsaid _ h
  · exact hsaid _ h
  · exact h

end Run

/-- **In every run the client hears what the server answers to what the client says, in order, and nothing
else**; and it hears anything only where the upper halves of the connection IDs coincide. What gets
lost on its way is not answered, or not heard, and sockets may refuse what they like. Where nothing gets
lost on its way back, the client has heard the first of the answers. -/
theorem heard_safe (hP : P.Authenticates) (hdh : P.AgreesOnSecrets)
    (hsig : P.VerifiesSignatures) (hmac : P.MacLength) {clientId serverId : UInt64} {c s : Connection P}
    (h : HonestPair clientId serverId c s) (hsc : Holds s c)
    (hcs : Holds c s) {nonce : UInt64} {messages : List Bytes} {moves : List Move}
    {x : Exchange P} (hrun : run nonce (init c s messages) moves = some x) :
    (∃ had : List Frame, had.Sublist (script nonce c messages) ∧
      x.heard.Sublist ((had.flatMap (answer s.destination)).map .ok) ∧
      (Move.lost true ∉ moves → x.heard <+: (had.flatMap (answer s.destination)).map .ok)) ∧
    (x.heard ≠ [] → truncateCid clientId = truncateCid serverId) := by
  obtain ⟨session, hc, hs⟩ := h.ready hdh hsig hmac
  obtain ⟨hkept, hsaid⟩ := kept_run hP hc hs hsc hcs hrun
  obtain ⟨had, pending, htoServer⟩ := hkept.toServer
  obtain ⟨got, unread, htoClient⟩ := hkept.toClient
  have hgot : x.heard = (got.map Prod.fst).map .ok := by
    rw [htoClient.heard, List.map_map]
    rfl
  have hsent : List.Sublist got x.server.emitted := (List.sublist_append_left got unread).trans htoClient.sent
  refine ⟨⟨had.map Prod.fst, ?_, ?_, fun hintact => ?_⟩, fun hne => hkept.agree fun hnone => hne ?_⟩
  · have hhad := ((List.sublist_append_left had pending).trans htoServer.sent).map Prod.fst
    exact hhad.trans hsaid.begins.sublist
  · rw [hgot]
    exact ((hsent.map Prod.fst).trans htoServer.answered.sublist).map _
  · have hbegins : got.map Prod.fst <+: x.server.emitted.map Prod.fst := by
      rw [htoClient.whole hintact, List.map_append]
      exact List.prefix_append _ _
    rw [hgot]
    exact (hbegins.trans htoServer.answered).map _
  · rw [hnone] at hsent
    rw [hgot, List.sublist_nil.mp hsent]
    rfl

/-! ### A socket that is not connected -/

/-- What holds as long as the server can send nothing: the client has said one message at most. -/
structure Unheard (session : AeadSession P) (messages : List Bytes) (x : Exchange P) : Prop where
  aead : x.server.connection.aead = some session
  incoming : x.server.connection.incomingFrames = []
  refusing : x.serving = true → Refusing x.server.connection
  emitted : x.server.emitted = []
  toClient : x.toClient = []
  heard : x.heard = []
  phase : x.phase = .saying messages ∨ (∃ first rest, messages = first :: rest ∧ x.phase = .waiting rest) ∨
    ∃ r, x.phase = .ended r

/-- A client that is to hear nothing does not get past its first message. -/
theorem Unheard.moved {session : AeadSession P} {nonce : UInt64} {messages : List Bytes} {x y : Exchange P}
    (h : Unheard session messages x) {move : Move} (hmoved : Moved nonce x move y) : Unheard session messages y := by
  cases hmoved with
  | part phase => exact ⟨h.aead, h.incoming, h.refusing, h.emitted, h.toClient, h.heard, .inr (.inr ⟨_, rfl⟩)⟩
  | @say message rest phase =>
    refine ⟨h.aead, h.incoming, h.refusing, h.emitted, h.toClient, h.heard, ?_⟩
    have hmessages : messages = message :: rest := by
      rcases h.phase with hphase | ⟨_, _, -, hphase⟩ | ⟨_, hphase⟩
      · exact (Phase.saying.inj (phase.symm.trans hphase)).symm
      · cases phase.symm.trans hphase
      · cases phase.symm.trans hphase
    cases hresult : ((sendStreamData 0 message).exec x.client).1 with
    | ok u => exact .inr (.inl ⟨message, rest, hmessages, by rw [say, hresult]⟩)
    | error error => exact .inr (.inr ⟨.error error, by rw [say, hresult]⟩)
  | hear phase next =>
    rw [h.toClient] at next
    cases next
  | @serve datagram toServer serving next =>
    obtain ⟨-, hemitted, hrefusing⟩ := task_refusing [.ok datagram] (h.refusing serving) h.aead h.incoming
    have hunchanged := task_unchanged [.ok datagram] h.aead h.incoming
    have hnothing : sentSince x.server (task x.server [.ok datagram]).2 = [] :=
      sentSince_eq (hemitted.trans (List.append_nil _).symm)
    refine ⟨hunchanged.aead.trans h.aead, hunchanged.incomingFrames h.incoming, hrefusing, hemitted.trans h.emitted, ?_,
      h.heard, h.phase⟩
    show x.toClient ++ sentSince x.server (task x.server [.ok datagram]).2 = []
    rw [hnothing, h.toClient]
    rfl
  | unserved => exact ⟨h.aead, h.incoming, h.refusing, h.emitted, h.toClient, h.heard, h.phase⟩
  | missed next =>
    rw [h.toClient] at next
    cases next

/-- **A client of a server whose socket is not connected hears nothing**, and says one message at
most, however the two move and whatever gets lost. -/
theorem unheard {c s : Connection P} (hs : s.Returned) (hrefusing : Refusing s) {nonce : UInt64}
    {messages : List Bytes} {moves : List Move} {x : Exchange P} (hrun : run nonce (init c s messages) moves = some x) :
    x.heard = [] ∧ x.toClient = [] ∧
      (x.phase = .saying messages ∨ (∃ first rest, messages = first :: rest ∧ x.phase = .waiting rest) ∨
        ∃ r, x.phase = .ended r) := by
  obtain ⟨_, _, session, hready⟩ := hs.ready
  have hinit : Unheard session messages (init c s messages) :=
    ⟨hready.aead, hready.incomingFrames, fun _ => hrefusing, rfl, rfl, rfl, .inl rfl⟩
  have h := run_invariant (fun _ _ _ _ hx hmoved => hx.moved hmoved) hinit hrun
  exact ⟨h.heard, h.toClient, h.phase⟩

section Sample
open HandshakeContext

theorem unheard_waiting : ∃ x, run 7 (init nearClientEnd unconnectedServer [[104, 105]]) [.client, .server] = some x ∧
    x.heard = [] ∧ x.toClient = [] ∧
      (x.phase = .saying [[104, 105]] ∨ (∃ first rest, [[104, 105]] = first :: rest ∧ x.phase = .waiting rest) ∨
        ∃ r, x.phase = .ended r) := by
  have hmoves : (run 7 (init nearClientEnd unconnectedServer [[104, 105]]) [.client, .server]).isSome = true := by
    decide +kernel
  obtain ⟨x, hrun⟩ := Option.isSome_iff_exists.mp hmoves
  exact ⟨x, hrun, unheard unconnectedServer_returned unconnectedServer_refusing hrun⟩

/-- What a sample cipher puts before a message. -/
def sealOf (c : Connection Transparent.fixedMacs) (key : Transparent.Key) : Bytes :=
  let keys := (AeadSession.new (P := Transparent.fixedMacs) key .aes256Gcm).txKeys c.isClient
  Transparent.sealOctets keys.txKey keys.makeNonce c.makeAad

theorem holds_sample {sender receiver : Connection Transparent.fixedMacs} {key : Transparent.Key}
    (haead : sender.aead = some (AeadSession.new (P := Transparent.fixedMacs) key .aes256Gcm))
    (hseal : (sealOf sender key).length ≤ 1024) (hbuffer : receiver.config.recvBufferSize = 65536) :
    Holds sender receiver := by
  refine ⟨by rw [hbuffer]; decide, fun session wire datagram hsession hwire hencrypt => ?_⟩
  cases Option.some.inj (haead.symm.trans hsession)
  have hsealed := mapCrypto_eq_ok.mp hencrypt
  cases hsealed
  rw [List.length_append]
  have hlength : wire.length ≤ 1392 := hwire
  rw [hbuffer]
  exact (Nat.add_le_add hseal hlength).trans (by decide)

theorem near_holds : Holds nearServerEnd nearClientEnd ∧ Holds nearClientEnd nearServerEnd :=
  ⟨holds_sample rfl (by decide +kernel) rfl, holds_sample rfl (by decide +kernel) rfl⟩

/-- Two messages, of which the first is echoed and the answer to the second gets lost. -/
def lostEcho : List Move := [.client, .server, .client, .client, .server, .lost true]

theorem heard_safe_lost :
    ∃ x, run 7 (init nearClientEnd nearServerEnd [[104, 105], [33]]) lostEcho = some x ∧ x.heard.length = 1 ∧
      (∃ had : List Frame, had.Sublist (script 7 nearClientEnd [[104, 105], [33]]) ∧
        x.heard.Sublist ((had.flatMap (answer nearServerEnd.destination)).map .ok) ∧
        (Move.lost true ∉ lostEcho → x.heard <+: (had.flatMap (answer nearServerEnd.destination)).map .ok)) ∧
      (x.heard ≠ [] → truncateCid 0x100000001 = truncateCid 0x100000002) := by
  have hmoves : (run 7 (init nearClientEnd nearServerEnd [[104, 105], [33]]) lostEcho).map (fun x => x.heard.length) =
      some 1 := by
    decide +kernel
  obtain ⟨x, hrun, hheard⟩ := Option.map_eq_some_iff.mp hmoves
  exact ⟨x, hrun, hheard, heard_safe (Transparent.authenticates _) (Transparent.agreesOnSecrets _)
    (Transparent.verifiesSignatures _) Transparent.fixedMacs_macLength honestPair_near near_holds.1 near_holds.2
    hrun⟩

end Sample

end Exchange

end

end Aether
