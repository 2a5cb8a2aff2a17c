import Aether.Connection.Chunks
import Aether.Connection.Listener
import Aether.Connection.Replay
import Aether.Library.Utf8

/-! The task of the echo server (`run_server` of the demo).

Each connection that is accepted has a task, which answers the Data frames it receives
and stops for good at the first thing that goes wrong, or at a Close. What it hears of
what arrives depends on the connection alone, so what it owes is a function of the
arrivals (`answers`): it sends a prefix of it whatever its socket does, and all of it as
long as it runs (`task_answers`). A socket that is not connected refuses all it is to
send, and the server binds its socket and does not connect it: that task answers
nothing (`task_sends`). -/
namespace Aether
open Octets Octets.Method Connection Endpoint

section
variable {P : Primitives}

namespace Echo

/-- `format!("echo: {}", String::from_utf8_lossy(&data))` -/
def response (data : Bytes) : Bytes := ascii ['e', 'c', 'h', 'o', ':', ' '] ++ fromUtf8Lossy data

/-- A turn of the loop: whether there is another one. -/
def turn (arrived : Arrival) : Action (Endpoint P) Bool := do
  let frame ← recvFrame arrived
  match frame.header.frameType with
  | .data => do
    sendStreamData frame.header.streamId (response frame.payload)
    return true
  | .close => return false
  | _ => return true

/-- The loop, with what arrives: whether it goes on, and the connection it leaves. -/
def task (e : Endpoint P) : List Arrival → Bool × Endpoint P
  | [] => (true, e)
  | arrived :: arriving =>
    match (turn arrived).exec e with
    | (.ok true, e) => task e arriving
    | (_, e) => (false, e)

/-! ### What is owed -/

/-- The frame after which there is another turn, if its answer is sent. -/
def served (c : Connection P) (arrived : Arrival) : Option Frame :=
  match reads c arrived with
  | .ok frame => if frame.header.frameType = .close then none else some frame
  | .error _ => none

def answer (destination : UInt32) (frame : Frame) : List Frame :=
  if frame.header.frameType = .data then
    dataFrames frame.header.streamId destination 0 (chunks maxPayloadSize (response frame.payload))
  else []

/-- The frames that are heard up to what ends the loop. -/
def frames (c : Connection P) : List Arrival → List Frame
  | [] => []
  | arrived :: arriving =>
    match served c arrived with
    | some frame => frame :: frames c arriving
    | none => []

/-- What is owed for what arrives. -/
def answers (c : Connection P) (arriving : List Arrival) : List Frame :=
  (frames c arriving).flatMap (answer c.destination)

theorem served_unchanged {c c' : Connection P} (h : Unchanged c c') (arrived : Arrival) :
    served c' arrived = served c arrived := by
  rw [served, served, h.reads]

theorem answers_nil (c : Connection P) : answers c [] = [] := rfl

theorem answers_cons {c : Connection P} {arrived : Arrival} {frame : Frame} (h : served c arrived = some frame)
    (arriving : List Arrival) :
    answers c (arrived :: arriving) = answer c.destination frame ++ answers c arriving := by
  simp only [answers, frames, h, List.flatMap_cons]

theorem answers_ended {c : Connection P} {arrived : Arrival} (h : served c arrived = none) (arriving : List Arrival) :
    answers c (arrived :: arriving) = [] := by
  simp only [answers, frames, h, List.flatMap_nil]

/-! ### One turn -/

/-- A turn that hears nothing to go on with ends the loop. -/
theorem exec_turn_ended {e : Endpoint P} (h : e.connection.incomingFrames = []) {arrived : Arrival}
    (hended : served e.connection arrived = none) :
    ∃ r e', (turn arrived).exec e = (r, e') ∧ r ≠ .ok true ∧ e'.emitted = e.emitted ∧
      Unchanged e.connection e'.connection := by
  have hreads := exec_recvFrame_empty h arrived
  obtain ⟨c, hc, -, hexec⟩ := exec_recvFrame_state e arrived
  rcases hrecv : (recvFrame arrived).exec e with ⟨result, e'⟩
  rw [hrecv] at hreads hexec
  cases hexec
  rw [served, ← hreads] at hended
  cases result with
  | error error => exact ⟨_, _, exec_bind_error hrecv, nofun, rfl, hc⟩
  | ok frame =>
    have htype : frame.header.frameType = .close := by simpa using hended
    refine ⟨.ok false, { e with connection := c }, ?_, by simp, rfl, hc⟩
    rw [turn, exec_bind_ok hrecv, htype]
    rfl

theorem exec_recvFrame_socket (e : Endpoint P) (arrived : Arrival) :
    ((recvFrame arrived).exec e).2.connection.socket = e.connection.socket := by
  have hkeeps : ∀ m : Action (Endpoint P) Frame,
      Keeps (fun e' => e'.connection.socket = e.connection.socket) m →
        (m.exec e).2.connection.socket = e.connection.socket :=
    fun m hm => hm e rfl
  rw [recvFrame, exec_get_bind]
  apply hkeeps
  split
  · exact keeps_bind (fun _ _ => rfl) fun _ => keeps_pure _
  · refine keeps_bind (keeps_lift _) fun data => keeps_bind (keeps_lift _) fun plain => ?_
    refine keeps_bind (keeps_lift _) fun frame => keeps_bind (fun _ h => h) fun _ => keeps_pure _

/-- A turn that goes on with a frame answers it, as far as the socket lets it. -/
theorem exec_turn_served {e : Endpoint P} (h : e.connection.incomingFrames = []) {arrived : Arrival} {frame : Frame}
    (hserved : served e.connection arrived = some frame) :
    ∃ c, Unchanged e.connection c ∧ c.state = e.connection.state ∧ c.socket = e.connection.socket ∧
      (turn arrived).exec e = (if frame.header.frameType = .data then
        (((sendStreamData frame.header.streamId (response frame.payload)).exec { e with connection := c }).1.map
            fun _ => true,
          ((sendStreamData frame.header.streamId (response frame.payload)).exec { e with connection := c }).2)
        else (.ok true, { e with connection := c })) := by
  have hreads := exec_recvFrame_empty h arrived
  have hsocket := exec_recvFrame_socket e arrived
  obtain ⟨c, hc, hstate, hexec⟩ := exec_recvFrame_state e arrived
  rcases hrecv : (recvFrame arrived).exec e with ⟨result, e'⟩
  rw [hrecv] at hreads hexec hsocket
  cases hexec
  rw [served, ← hreads] at hserved
  refine ⟨c, hc, hstate, hsocket, ?_⟩
  cases result with
  | error error => cases hserved
  | ok frame' =>
    have htype : frame'.header.frameType ≠ .close ∧ frame' = frame := by simpa using hserved
    obtain ⟨hne, rfl⟩ := htype
    rw [turn, exec_bind_ok hrecv]
    cases hframe : frame'.header.frameType with
    | data => exact exec_bind_pure _ _ _
    | close => exact absurd hframe hne
    | _ => rfl

/-- What was sent of what is owed, and that a success means all of it. -/
structure Sends {α : Type} (e : Endpoint P) (owed : List Frame) (r : Result α × Endpoint P) : Prop where
  unchanged : Unchanged e.connection r.2.connection
  emitted : ∃ sent, r.2.emitted = e.emitted ++ sent ∧ sent.map Prod.fst <+: owed ∧
    ∀ a, r.1 = .ok a → sent.map Prod.fst = owed

theorem sends_sendStreamData {e : Endpoint P} {session : AeadSession P} (haead : e.connection.aead = some session)
    (streamId : StreamId) (data : Bytes) :
    Sends e (dataFrames streamId e.connection.destination 0 (chunks maxPayloadSize data))
      ((sendStreamData streamId data).exec e) := by
  have hsent := sent_sendChunks streamId (chunks maxPayloadSize data) haead 0
  obtain ⟨sent, hemitted, hbegins⟩ := hsent.emitted
  refine ⟨hsent.unchanged, sent, hemitted, hbegins, fun u hok => ?_⟩
  have hwhole := emitted_of_ok streamId (chunks maxPayloadSize data) haead 0 hok
  rw [hemitted, List.map_append] at hwhole
  exact List.append_cancel_left hwhole

theorem sends_turn {e : Endpoint P} {session : AeadSession P} (haead : e.connection.aead = some session)
    (h : e.connection.incomingFrames = []) {arrived : Arrival} {frame : Frame}
    (hserved : served e.connection arrived = some frame) :
    Sends e (answer e.connection.destination frame) ((turn arrived).exec e) := by
  obtain ⟨c, hc, -, hsocket, hexec⟩ := exec_turn_served h hserved
  rw [hexec, answer]
  by_cases htype : frame.header.frameType = .data
  · rw [if_pos htype, if_pos htype, ← hc.destination]
    have hsends := sends_sendStreamData (e := { e with connection := c }) (hc.aead.trans haead) frame.header.streamId
      (response frame.payload)
    obtain ⟨sent, hemitted, hbegins, hwhole⟩ := hsends.emitted
    refine ⟨hc.trans hsends.unchanged, sent, hemitted, hbegins, fun goesOn hok => ?_⟩
    cases hresult : ((sendStreamData frame.header.streamId (response frame.payload)).exec
        { e with connection := c }).1 with
    | ok u => exact hwhole u hresult
    | error error =>
      rw [hresult] at hok
      cases hok
  · rw [if_neg htype, if_neg htype]
    exact ⟨hc, [], (List.append_nil _).symm, List.prefix_rfl, fun _ _ => rfl⟩

/-! ### The task -/

theorem task_served {e e' : Endpoint P} {arrived : Arrival} (h : (turn arrived).exec e = (.ok true, e'))
    (arriving : List Arrival) : task e (arrived :: arriving) = task e' arriving := by
  rw [task, h]

theorem task_broken {e e' : Endpoint P} {arrived : Arrival} {r : Result Bool} (h : (turn arrived).exec e = (r, e'))
    (hr : r ≠ .ok true) (arriving : List Arrival) : task e (arrived :: arriving) = (false, e') := by
  rw [task, h]
  cases r with
  | error error => rfl
  | ok goesOn =>
    cases goesOn with
    | false => rfl
    | true => exact absurd rfl hr

theorem task_append {e : Endpoint P} {before : List Arrival} (h : (task e before).1 = true) (after : List Arrival) :
    task e (before ++ after) = task (task e before).2 after := by
  induction before generalizing e with
  | nil => rfl
  | cons arrived before ih =>
    rcases hturn : (turn arrived).exec e with ⟨r, e'⟩
    by_cases hr : r = .ok true
    · rw [hr] at hturn
      rw [task_served hturn] at h
      rw [List.cons_append, task_served hturn, task_served hturn]
      exact ih h
    · rw [task_broken hturn hr] at h
      cases h

theorem frames_unchanged {c c' : Connection P} (h : Unchanged c c') (arriving : List Arrival) :
    frames c' arriving = frames c arriving := by
  induction arriving with
  | nil => rfl
  | cons arrived arriving ih => rw [frames, frames, served_unchanged h, ih]

theorem answers_unchanged {c c' : Connection P} (h : Unchanged c c') (arriving : List Arrival) :
    answers c' arriving = answers c arriving := by
  rw [answers, answers, frames_unchanged h, h.destination]

/-- Everything that has arrived was a frame to go on with. -/
def AllServed (c : Connection P) (arriving : List Arrival) : Prop := ∀ arrived ∈ arriving, served c arrived ≠ none

theorem allServed_unchanged {c c' : Connection P} (h : Unchanged c c') (arriving : List Arrival) :
    AllServed c' arriving ↔ AllServed c arriving := by
  simp only [AllServed, served_unchanged h]

theorem allServed_cons {c : Connection P} {arrived : Arrival} {frame : Frame} (h : served c arrived = some frame)
    (arriving : List Arrival) : AllServed c (arrived :: arriving) ↔ AllServed c arriving := by
  simp [AllServed, h]

theorem answers_append {c : Connection P} {before : List Arrival} (h : AllServed c before) (after : List Arrival) :
    answers c (before ++ after) = answers c before ++ answers c after := by
  induction before with
  | nil => rfl
  | cons arrived before ih =>
    obtain ⟨frame, hserved⟩ := Option.ne_none_iff_exists'.mp (h arrived List.mem_cons_self)
    rw [List.cons_append, answers_cons hserved, answers_cons hserved, ih ((allServed_cons hserved before).mp h),
      List.append_assoc]

theorem task_unchanged {session : AeadSession P} (arriving : List Arrival) {e : Endpoint P}
    (haead : e.connection.aead = some session) (h : e.connection.incomingFrames = []) :
    Unchanged e.connection (task e arriving).2.connection := by
  induction arriving generalizing e with
  | nil => exact .refl _
  | cons arrived arriving ih =>
    cases hserved : served e.connection arrived with
    | none =>
      obtain ⟨r, e', hturn, hr, -, hunchanged⟩ := exec_turn_ended h hserved
      rw [task_broken hturn hr]
      exact hunchanged
    | some frame =>
      have hunchanged := (sends_turn haead h hserved).unchanged
      rcases hturn : (turn arrived).exec e with ⟨r, e'⟩
      rw [hturn] at hunchanged
      by_cases hr : r = .ok true
      · rw [hr] at hturn
        rw [task_served hturn]
        exact hunchanged.trans (ih (hunchanged.aead.trans haead) (hunchanged.incomingFrames h))
      · rw [task_broken hturn hr]
        exact hunchanged

/-- What is owed by a task that has so much of it behind it. -/
theorem sends_task {session : AeadSession P} (arriving : List Arrival) {e : Endpoint P}
    (haead : e.connection.aead = some session) (h : e.connection.incomingFrames = []) :
    ∃ sent, (task e arriving).2.emitted = e.emitted ++ sent ∧ sent.map Prod.fst <+: answers e.connection arriving ∧
      ((task e arriving).1 = true →
        sent.map Prod.fst = answers e.connection arriving ∧ AllServed e.connection arriving) := by
  induction arriving generalizing e with
  | nil => exact ⟨[], (List.append_nil _).symm, List.prefix_rfl, fun _ => ⟨rfl, fun _ h => absurd h List.not_mem_nil⟩⟩
  | cons arrived arriving ih =>
    cases hserved : served e.connection arrived with
    | none =>
      obtain ⟨r, e', hturn, hr, hemitted, -⟩ := exec_turn_ended h hserved
      rw [task_broken hturn hr, answers_ended hserved]
      exact ⟨[], hemitted.trans (List.append_nil _).symm, List.prefix_rfl, nofun⟩
    | some frame =>
      have hsends := sends_turn haead h hserved
      rcases hturn : (turn arrived).exec e with ⟨r, e'⟩
      rw [hturn] at hsends
      obtain ⟨sent, hemitted, hbegins, hwhole⟩ := hsends.emitted
      have hunchanged : Unchanged e.connection e'.connection := hsends.unchanged
      rw [answers_cons hserved]
      by_cases hr : r = .ok true
      · obtain ⟨sent', hemitted', hbegins', hwhole'⟩ := ih (hunchanged.aead.trans haead) (hunchanged.incomingFrames h)
        rw [answers_unchanged hunchanged] at hbegins' hwhole'
        rw [allServed_unchanged hunchanged] at hwhole'
        rw [hr] at hturn
        rw [task_served hturn, allServed_cons hserved, ← hwhole true hr]
        refine ⟨sent ++ sent', ?_, ?_, fun hgoes => ?_⟩
        · rw [hemitted', hemitted, List.append_assoc]
        · rw [List.map_append]
          exact (List.prefix_append_right_inj _).mpr hbegins'
        · rw [List.map_append, (hwhole' hgoes).1]
          exact ⟨rfl, (hwhole' hgoes).2⟩
      · rw [task_broken hturn hr]
        exact ⟨sent, hemitted, hbegins.trans (List.prefix_append _ _), nofun⟩

/-- **A task sends what it owes in order, and all of it as long as it goes on**, whatever
arrives and whatever its socket does. Where what ends it is a Close, or that it cannot read
what has arrived, it has sent all of it too: only an answer that could not be sent leaves some out. -/
theorem task_answers {s : Connection P} (hs : s.Returned) (arriving : List Arrival) :
    (task (start s) arriving).2.emitted.map Prod.fst <+: answers s arriving ∧
      ((task (start s) arriving).1 = true →
        (task (start s) arriving).2.emitted.map Prod.fst = answers s arriving ∧ AllServed s arriving) ∧
      ∀ before last after, arriving = before ++ last :: after → (task (start s) before).1 = true →
        served s last = none →
          (task (start s) arriving).1 = false ∧
            (task (start s) arriving).2.emitted.map Prod.fst = answers s arriving := by
  obtain ⟨_, _, session, hready⟩ := hs.ready
  obtain ⟨sent, hemitted, hbegins, hwhole⟩ := sends_task arriving (e := start s) hready.aead hready.incomingFrames
  refine ⟨hemitted ▸ hbegins, fun hrunning => hemitted ▸ hwhole hrunning, ?_⟩
  intro before last after harriving hrunning hlast
  obtain ⟨earlier, hearlier, -, hall⟩ := sends_task before (e := start s) hready.aead hready.incomingFrames
  have hserved : AllServed s before := (hall hrunning).2
  have hanswers : earlier.map Prod.fst = answers s before := (hall hrunning).1
  have hunchanged : Unchanged s (task (start s) before).2.connection :=
    task_unchanged before (e := start s) hready.aead hready.incomingFrames
  obtain ⟨r, e', hturn, hr, hsame, -⟩ := exec_turn_ended (hunchanged.incomingFrames hready.incomingFrames)
    ((served_unchanged hunchanged last).trans hlast)
  rw [harriving, task_append hrunning, task_broken hturn hr, answers_append hserved, answers_ended hlast,
    List.append_nil, ← hanswers]
  refine ⟨rfl, ?_⟩
  show e'.emitted.map Prod.fst = _
  rw [hsame, hearlier]
  rfl

/-- What the near client end sends of an operation, in the one datagram that takes. -/
def nearSends (op : Operation) : Bytes := ((start nearClientEnd).perform op).emitted.flatMap Prod.snd

/-- A Close that the client sends by hand: its `close` sends none. -/
def nearArriving : List Arrival :=
  [.ok (nearSends (.sendStreamData 0 [104, 105])), .ok (nearSends (.sendFrame (Frame.close 1 .noError [])))]

/-- A task that answers two octets and is closed. -/
theorem task_answers_closed : (answers nearServerEnd nearArriving).length = 1 ∧
    (task (start nearServerEnd) nearArriving).1 = false ∧
      (task (start nearServerEnd) nearArriving).2.emitted.map Prod.fst = answers nearServerEnd nearArriving := by
  refine ⟨by decide +kernel, (task_answers honestPair_near.returned.2 nearArriving).2.2 [nearArriving.head (by decide)]
    (nearArriving.getLast (by decide)) [] rfl ?_ ?_⟩
  · decide +kernel
  · exact Option.isNone_iff_eq_none.mp (by decide +kernel)

/-! ### Sockets that are connected, and sockets that are not -/

theorem answer_ne_nil {destination : UInt32} {frame : Frame} (h : frame.header.frameType = .data) :
    answer destination frame ≠ [] := by
  have hresponse : response frame.payload ≠ [] := nofun
  rw [answer, if_pos h, chunks_of_ne_nil (by decide) hresponse, dataFrames]
  exact List.cons_ne_nil _ _

theorem exec_turn_open (hP : P.Encrypts) {session : AeadSession P} {e : Endpoint P} (hopen : Open session e)
    (h : e.connection.incomingFrames = []) {arrived : Arrival} {frame : Frame}
    (hserved : served e.connection arrived = some frame) :
    ∃ e', (turn arrived).exec e = (.ok true, e') ∧ Open session e' := by
  obtain ⟨c, hc, hstate, -, hexec⟩ := exec_turn_served h hserved
  have hnext : Open session ({ e with connection := c } : Endpoint P) := hopen.later hc hstate
  rw [hexec]
  by_cases htype : frame.header.frameType = .data
  · have hsizes : ∀ chunk ∈ chunks maxPayloadSize (response frame.payload), chunk.length ≤ maxPayloadSize :=
      fun _ hchunk => mem_chunks hchunk
    obtain ⟨e', hsend, -, -, -, hopen'⟩ := exec_sendChunks_open hP frame.header.streamId hsizes hnext 0
    rw [if_pos htype, sendStreamData, hsend]
    exact ⟨e', rfl, hopen'⟩
  · rw [if_neg htype]
    exact ⟨_, rfl, hnext⟩

theorem task_open (hP : P.Encrypts) {session : AeadSession P} (arriving : List Arrival) {e : Endpoint P}
    (hopen : Open session e) (h : e.connection.incomingFrames = []) :
    ((task e arriving).1 = true ↔ AllServed e.connection arriving) ∧
      (task e arriving).2.emitted.map Prod.fst = e.emitted.map Prod.fst ++ answers e.connection arriving := by
  induction arriving generalizing e with
  | nil => simp [task, AllServed, answers_nil]
  | cons arrived arriving ih =>
    cases hserved : served e.connection arrived with
    | none =>
      obtain ⟨r, e', hturn, hr, hemitted, -⟩ := exec_turn_ended h hserved
      rw [task_broken hturn hr, answers_ended hserved, List.append_nil, hemitted]
      exact ⟨iff_of_false Bool.false_ne_true fun hall => hall arrived List.mem_cons_self hserved, rfl⟩
    | some frame =>
      have hsends := sends_turn hopen.aead h hserved
      obtain ⟨e', hturn, hopen'⟩ := exec_turn_open hP hopen h hserved
      rw [hturn] at hsends
      obtain ⟨sent, hemitted, -, hwhole⟩ := hsends.emitted
      have hunchanged : Unchanged e.connection e'.connection := hsends.unchanged
      obtain ⟨hgoes, hall⟩ := ih hopen' (hunchanged.incomingFrames h)
      rw [allServed_unchanged hunchanged] at hgoes
      rw [answers_unchanged hunchanged] at hall
      rw [task_served hturn, allServed_cons hserved, answers_cons hserved, hall, hemitted, List.map_append,
        hwhole true rfl, List.append_assoc]
      exact ⟨hgoes, rfl⟩

/-- A socket that refuses whatever it is to send from now on. -/
def Refusing (c : Connection P) : Prop := ∀ n, c.socket.attempts ≤ n → c.socket.refuses n ≠ none

theorem Refusing.later {c c' : Connection P} (h : Refusing c) (hsocket : c'.socket = c.socket) : Refusing c' := by
  rw [Refusing, hsocket]
  exact h

theorem exec_sendFrame_refusing {e : Endpoint P} {session : AeadSession P} (h : Refusing e.connection)
    (haead : e.connection.aead = some session) (frame : Frame) :
    ∃ error e', (sendFrame frame).exec e = (.error error, e') ∧ e'.emitted = e.emitted := by
  have hwire := exec_encryptWire haead frame.encode
  obtain ⟨text, hrefuses⟩ := Option.ne_none_iff_exists'.mp (h e.connection.socket.attempts (Nat.le_refl _))
  rw [sendFrame, exec_get_bind]
  split
  · exact ⟨_, e, rfl, rfl⟩
  · cases hencrypt : (session.txKeys e.connection.isClient).encrypt frame.encode e.connection.makeAad with
    | error error =>
      rw [hencrypt] at hwire
      exact ⟨error, _, exec_bind_error hwire, rfl⟩
    | ok datagram =>
      rw [hencrypt] at hwire
      have hsend : (Socket.send datagram).exec (e.encrypting session).connection.socket =
          (fail (.io text), _) := Socket.exec_send_refused hrefuses
      rw [exec_bind_ok hwire, exec_bind]
      simp only [onConnection, onSocket, exec_focus, hsend]
      exact ⟨_, _, rfl, rfl⟩

theorem exec_turn_refusing {e : Endpoint P} {session : AeadSession P} (hrefusing : Refusing e.connection)
    (haead : e.connection.aead = some session) (h : e.connection.incomingFrames = []) {arrived : Arrival}
    {frame : Frame} (hserved : served e.connection arrived = some frame) :
    ∃ r e', (turn arrived).exec e = (r, e') ∧ e'.emitted = e.emitted ∧ Unchanged e.connection e'.connection ∧
      (r = .ok true ↔ frame.header.frameType ≠ .data) ∧ (r = .ok true → Refusing e'.connection) := by
  have hsends := sends_turn haead h hserved
  obtain ⟨c, hc, -, hsocket, hexec⟩ := exec_turn_served h hserved
  by_cases htype : frame.header.frameType = .data
  · have hresponse : response frame.payload ≠ [] := nofun
    obtain ⟨error, e', hsend, hemitted⟩ := exec_sendFrame_refusing (e := { e with connection := c })
      (hrefusing.later hsocket) (hc.aead.trans haead)
      (Frame.data frame.header.streamId c.destination (UInt32.ofNat 0 * UInt32.ofNat maxPayloadSize)
        ((response frame.payload).take maxPayloadSize))
    have hcall : (sendStreamData frame.header.streamId (response frame.payload)).exec { e with connection := c } =
        (.error error, e') := by
      rw [sendStreamData, chunks_of_ne_nil (by decide) hresponse, sendChunks, exec_get_bind]
      exact exec_bind_error hsend
    rw [if_pos htype, hcall] at hexec
    rw [hexec] at hsends ⊢
    have hfailed : (Except.error error : Result Bool) ≠ .ok true := by
      intro hok
      cases hok
    exact ⟨.error error, e', rfl, hemitted, hsends.unchanged, iff_of_false hfailed (not_not_intro htype),
      fun hok => absurd hok hfailed⟩
  · rw [if_neg htype] at hexec
    exact ⟨_, _, hexec, rfl, hc, iff_of_true rfl htype, fun _ => hrefusing.later hsocket⟩

theorem task_refusing {session : AeadSession P} (arriving : List Arrival) {e : Endpoint P}
    (hrefusing : Refusing e.connection) (haead : e.connection.aead = some session)
    (h : e.connection.incomingFrames = []) :
    ((task e arriving).1 = true ↔ AllServed e.connection arriving ∧ answers e.connection arriving = []) ∧
      (task e arriving).2.emitted = e.emitted ∧
      ((task e arriving).1 = true → Refusing (task e arriving).2.connection) := by
  induction arriving generalizing e with
  | nil => simp [task, AllServed, answers_nil, hrefusing]
  | cons arrived arriving ih =>
    cases hserved : served e.connection arrived with
    | none =>
      obtain ⟨r, e', hturn, hr, hemitted, -⟩ := exec_turn_ended h hserved
      rw [task_broken hturn hr]
      exact ⟨iff_of_false Bool.false_ne_true fun hall => hall.1 arrived List.mem_cons_self hserved, hemitted, nofun⟩
    | some frame =>
      obtain ⟨r, e', hturn, hemitted, hunchanged, hr, hnext⟩ := exec_turn_refusing hrefusing haead h hserved
      rw [allServed_cons hserved, answers_cons hserved]
      by_cases htype : frame.header.frameType = .data
      · rw [task_broken hturn fun hok => hr.mp hok htype]
        refine ⟨iff_of_false Bool.false_ne_true fun hall => ?_, hemitted, nofun⟩
        exact answer_ne_nil htype (List.append_eq_nil_iff.mp hall.2).1
      · have hok := hr.mpr htype
        rw [hok] at hturn
        have hrest := ih (hnext hok) (hunchanged.aead.trans haead) (hunchanged.incomingFrames h)
        rw [allServed_unchanged hunchanged, answers_unchanged hunchanged, hemitted] at hrest
        rw [task_served hturn, answer, if_neg htype, List.nil_append]
        exact hrest

/-- **What the task sends depends on whether its socket is connected.** On one that is, it
answers everything up to what ends it, and goes on where nothing has. On one that is not, it sends
nothing and goes on only as long as nothing is to be answered. -/
theorem task_sends (hP : P.Encrypts) {s : Connection P} (hs : s.Returned) (arriving : List Arrival) :
    ((∀ n, s.socket.refuses n = none) →
      ((task (start s) arriving).1 = true ↔ AllServed s arriving) ∧
        (task (start s) arriving).2.emitted.map Prod.fst = answers s arriving) ∧
    (Refusing s →
      ((task (start s) arriving).1 = true ↔ AllServed s arriving ∧ answers s arriving = []) ∧
        (task (start s) arriving).2.emitted = []) := by
  obtain ⟨_, _, session, hready⟩ := hs.ready
  constructor
  · intro hrefuses
    have hopen : Open session (start s) := ⟨hready.aead, hready.state, hrefuses⟩
    exact task_open hP arriving hopen hready.incomingFrames
  · intro hrefuses
    obtain ⟨hgoes, hemitted, -⟩ := task_refusing arriving (e := start s) hrefuses hready.aead hready.incomingFrames
    exact ⟨hgoes, hemitted⟩

section Unconnected
open HandshakeContext

/-- A socket that was given an address for what the handshake sends, and has none afterwards. -/
def unconnectedSocket : Socket := ⟨fun n => if n < 2 then none else some "Destination address required", 0, []⟩

def unconnectedServer : Connection Transparent.fixedMacs :=
  serverOf nearClient nearServer unconnectedSocket sampleConfig

theorem unconnectedServer_returned : unconnectedServer.Returned := by
  refine .accept (accept_eq_ok.mpr ⟨clientHelloFrame nearClient, serverHelloFrame nearClient nearServer,
    serverContext nearClient nearServer .keysDerived, serverFinishedFrame nearClient nearServer,
    clientFinishedFrame nearClient nearServer, serverContext nearClient nearServer .complete, _, _,
    clientHello_received nearClient, rfl, exec_handleClientHello_honest nearClient nearServer, rfl,
    createFinished_honest nearClient nearServer, rfl, finished_received Transparent.fixedMacs_macLength _ _ _,
    exec_verifyFinished_honest nearClient nearServer, rfl, rfl, rfl, rfl⟩ : (accept sampleConfig nearServer.identity
      nearServer.connectionId nearServer.secret (.ok (clientHelloFrame nearClient).encode)
      (.ok (clientFinishedFrame nearClient nearServer).encode)).exec unconnectedSocket =
        (.ok unconnectedServer, unconnectedServer.socket))

theorem unconnectedServer_refusing : Refusing unconnectedServer := by
  intro n hn
  have htwo : ¬ n < 2 := Nat.not_lt.mpr hn
  show (if n < 2 then none else some "Destination address required") ≠ none
  rw [if_neg htwo]
  exact Option.some_ne_none _

/-- Two octets and a Close, on a socket that is connected and on one that is not. -/
theorem task_sends_either :
    ((answers nearServerEnd nearArriving).length = 1 ∧ (answers unconnectedServer nearArriving).length = 1) ∧
    (((task (start nearServerEnd) nearArriving).1 = true ↔ AllServed nearServerEnd nearArriving) ∧
      (task (start nearServerEnd) nearArriving).2.emitted.map Prod.fst = answers nearServerEnd nearArriving) ∧
    ((task (start unconnectedServer) nearArriving).1 = true ↔
      AllServed unconnectedServer nearArriving ∧ answers unconnectedServer nearArriving = []) ∧
    (task (start unconnectedServer) nearArriving).2.emitted = [] :=
  ⟨⟨by decide +kernel, by decide +kernel⟩,
    (task_sends (P := Transparent.fixedMacs) (Transparent.encrypts _) honestPair_near.returned.2 nearArriving).1
      fun _ => rfl,
    (task_sends (P := Transparent.fixedMacs) (Transparent.encrypts _) unconnectedServer_returned nearArriving).2
      unconnectedServer_refusing⟩

end Unconnected

/-! ### An honest client -/

section Honest
variable {clientId serverId : UInt64} {session : AeadSession P} {c s : Connection P}

theorem frames_sent (hP : P.Authenticates) (hc : Ready true clientId session c) (hs : Ready false serverId session s)
    (ops : List Operation) {sent : List (Frame × Bytes)}
    (hsent : ∀ m ∈ sent, m ∈ ((start c).run ops).emitted ∧ Fits m (start s)) :
    frames s (sent.map fun m => .ok m.2) =
      if truncateCid clientId = truncateCid serverId ∧ s.config.recvBufferSize ≤ isizeMax then
        (sent.map Prod.fst).takeWhile fun frame => frame.header.frameType ≠ .close
      else [] := by
  induction sent with
  | nil => simp [frames]
  | cons m sent ih =>
    obtain ⟨hm, hfits⟩ := hsent m List.mem_cons_self
    have hrest := ih fun m' hm' => hsent m' (List.mem_cons_of_mem _ hm')
    rw [List.map_cons, frames, served]
    by_cases hids : truncateCid clientId = truncateCid serverId ∧ s.config.recvBufferSize ≤ isizeMax
    · rw [if_pos hids] at hrest ⊢
      rw [(reads_iff_of_ready hP hc hs ops hm hfits.datagram m.1).mpr ⟨hids, Frame.decode_encode_self m.1 hfits.frame⟩,
        List.map_cons, hrest]
      by_cases htype : m.1.header.frameType = .close
      · simp [htype]
      · simp [htype]
    · rw [if_neg hids]
      cases hreads : reads s (.ok m.2) with
      | error e => rfl
      | ok frame => exact absurd ((reads_iff_of_ready hP hc hs ops hm hfits.datagram frame).mp hreads).1 hids

end Honest

/-- **The server answers an honest client exactly where the upper halves of their connection
IDs coincide** and its receive buffer can be made: whatever the client has done and in whatever
order, how often and with whatever losses its datagrams arrive, the answers are those to the
frames that come before a Close. -/
theorem echoes_iff_ids (hP : P.Authenticates) (hencrypts : P.Encrypts) (hdh : P.AgreesOnSecrets)
    (hsig : P.VerifiesSignatures) (hmac : P.MacLength) {clientId serverId : UInt64} {c s : Connection P}
    (h : HonestPair clientId serverId c s) (hrefuses : ∀ n, s.socket.refuses n = none) (ops : List Operation)
    {sent : List (Frame × Bytes)} (hsent : ∀ m ∈ sent, m ∈ ((start c).run ops).emitted ∧ Fits m (start s)) :
    (task (start s) (sent.map fun m => .ok m.2)).2.emitted.map Prod.fst =
      if truncateCid clientId = truncateCid serverId ∧ s.config.recvBufferSize ≤ isizeMax then
        ((sent.map Prod.fst).takeWhile fun frame => frame.header.frameType ≠ .close).flatMap (answer s.destination)
      else [] := by
  obtain ⟨session, hc, hs⟩ := h.ready hdh hsig hmac
  have hopen : Open session (start s) := ⟨hs.aead, hs.state, hrefuses⟩
  rw [(task_open hencrypts _ hopen hs.incomingFrames).2]
  show [] ++ answers s _ = _
  rw [List.nil_append, answers, frames_sent hP hc hs ops hsent]
  by_cases hids : truncateCid clientId = truncateCid serverId ∧ s.config.recvBufferSize ≤ isizeMax
  · rw [if_pos hids, if_pos hids]
  · rw [if_neg hids, if_neg hids, List.flatMap_nil]

/-- A client that says two octets to a server whose connection ID begins as its own. -/
theorem near_said : ∃ m, ((start nearClientEnd).run [.sendStreamData 0 [104, 105]]).emitted = [m] ∧
    m.1 = Frame.data 0 1 0 [104, 105] ∧ Fits m (start nearServerEnd) := by
  have hemitted : ((start nearClientEnd).run [.sendStreamData 0 [104, 105]]).emitted.map (fun m => (m.1, m.2.length)) =
      [(Frame.data 0 1 0 [104, 105], 863)] := by decide +kernel
  obtain ⟨m, hm, hframe⟩ := List.map_eq_singleton_iff.mp hemitted
  obtain ⟨hfirst, hsecond⟩ := Prod.mk.inj hframe
  refine ⟨m, hm, hfirst, ?_, ?_⟩
  · rw [hfirst]
    exact Frame.newShort_wellFormed .data (by decide) 1 0 (by decide)
  · rw [hsecond]
    show 863 ≤ 65536
    decide

theorem echoes_iff_ids_near : ∃ m, ((start nearClientEnd).run [.sendStreamData 0 [104, 105]]).emitted = [m] ∧
    (task (start nearServerEnd) [.ok m.2, .ok m.2]).2.emitted.map Prod.fst =
      if truncateCid 0x100000001 = truncateCid 0x100000002 ∧ nearServerEnd.config.recvBufferSize ≤ isizeMax then
        (([m, m].map Prod.fst).takeWhile fun frame => frame.header.frameType ≠ .close).flatMap
          (answer nearServerEnd.destination)
      else [] := by
  obtain ⟨m, hemitted, -, hfits⟩ := near_said
  have hsent : ∀ m' ∈ [m, m], m' ∈ ((start nearClientEnd).run [.sendStreamData 0 [104, 105]]).emitted ∧
      Fits m' (start nearServerEnd) := by
    intro m' hm'
    have hsame : m' = m := by simpa using hm'
    rw [hsame, hemitted]
    exact ⟨List.mem_singleton_self m, hfits⟩
  exact ⟨m, hemitted, echoes_iff_ids (Transparent.authenticates _) (Transparent.encrypts _)
    (Transparent.agreesOnSecrets _) (Transparent.verifiesSignatures _) Transparent.fixedMacs_macLength honestPair_near
    (fun _ => rfl) [.sendStreamData 0 [104, 105]] hsent⟩

end Echo

end

end Aether
