import Aether.Demo.Exchange

/-! Exchanges that come to an end.

Where nothing gets lost and both sockets take what they are given, an exchange never
gets stuck: each move leaves one fewer to be made, and where neither end can move the client
has said everything (`Live.ended`). So a client that waits for one frame after each of its
messages gets one. They are the first frames the server has sent, and the echoes where
messages and echoes are a frame each. -/
namespace Aether
open Octets Octets.Method Connection Endpoint

section
variable {P : Primitives}

namespace Exchange
open Echo

/-- Nothing gets lost. -/
def Lossless (moves : List Move) : Prop := ∀ isClient, Move.lost isClient ∉ moves

theorem lossless_nil : Lossless [] := fun _ => List.not_mem_nil

theorem lossless_cons {move : Move} {moves : List Move} :
    Lossless (move :: moves) ↔ (∀ isClient, move ≠ .lost isClient) ∧ Lossless moves := by
  simp only [Lossless, List.mem_cons, not_or, forall_and, ne_comm (a := move)]

/-- What there is to do about a message: to say it, to serve each of its frames, and to read one. -/
def effort (messages : List Bytes) : Nat := (messages.map fun m => (chunks maxPayloadSize m).length + 2).sum

def Phase.work : Phase → Nat
  | .saying rest => effort rest + 2
  | .waiting rest => effort rest + 3
  | .ended _ => 0

/-- How many moves there are left. -/
def work (x : Exchange P) : Nat := Phase.work x.phase + x.toServer.length

/-- Where the client is in its messages, and how much it has heard. -/
def Counted (nonce : UInt64) (c : Connection P) (messages : List Bytes) (x : Exchange P) : Prop :=
  match x.phase with
  | .saying rest => ∃ before, messages = before ++ rest ∧ x.client.emitted.map Prod.fst = before.flatMap (said c) ∧
      x.heard.length = before.length
  | .waiting rest => ∃ before, messages = before ++ rest ∧ x.client.emitted.map Prod.fst = before.flatMap (said c) ∧
      x.heard.length + 1 = before.length
  | .ended r => r = fail (.invalidState "Connection not active") ∧
      x.client.emitted.map Prod.fst = script nonce c messages ∧ x.heard.length = messages.length

/-- Everything that was sent to the server is answered, or on its way. -/
def Flow (s : Connection P) (x : Exchange P) : Prop :=
  ∃ had pending, x.toServer = pending.map Prod.snd ∧ x.client.emitted = had ++ pending ∧
    x.server.emitted.map Prod.fst = (had.map Prod.fst).flatMap (answer s.destination)

theorem Flow.sends {s : Connection P} {x : Exchange P} (h : Flow s x) {e : Endpoint P} {sent : List (Frame × Bytes)}
    (hemitted : e.emitted = x.client.emitted ++ sent) (phase : Phase) :
    Flow s { x with client := e, toServer := x.toServer ++ sentSince x.client e, phase } := by
  obtain ⟨had, pending, hway, hsent, hanswered⟩ := h
  refine ⟨had, pending ++ sent, ?_, ?_, hanswered⟩
  · show x.toServer ++ sentSince x.client e = _
    rw [sentSince_eq hemitted, hway, List.map_append]
  · show e.emitted = _
    rw [hemitted, hsent, List.append_assoc]

/-- What holds where nothing gets lost and the sockets take everything. -/
structure Live (agree : Prop) (session : AeadSession P) (nonce : UInt64) (c s : Connection P) (messages : List Bytes)
    (x : Exchange P) : Prop where
  kept : Kept agree True c s x
  client : (∀ r, x.phase ≠ .ended r) → Open session x.client
  server : Open session x.server
  serving : x.serving = true
  flow : Flow s x
  counted : Counted nonce c messages x

section Run
variable {clientId serverId : UInt64} {session : AeadSession P} {c s : Connection P}

theorem exec_finish_open (hP : P.Encrypts) {e : Endpoint P} (h : Open session e) (nonce : UInt64) :
    ∃ datagram, ((finish nonce).exec e).1 = fail (.invalidState "Connection not active") ∧
      ((finish nonce).exec e).2.emitted = e.emitted ++ [(Frame.ping e.connection.destination nonce, datagram)] := by
  have hsize : (Frame.ping e.connection.destination nonce).encode.length ≤ 2 ^ 36 := by
    rw [Frame.ping, Frame.newShort_encode_length, toBe_length]
    decide
  obtain ⟨datagram, e', hexec, hemitted, -, -, -⟩ := exec_sendFrame_open hP h hsize
  have hping : (ping nonce).exec e = (.ok (), e') := by
    rw [ping, exec_get_bind]
    exact hexec
  rw [finish, exec_bind_ok hping, exec_close]
  exact ⟨datagram, rfl, hemitted⟩

theorem exec_say_open (hP : P.Encrypts) {e : Endpoint P} (h : Open session e) (message : Bytes) :
    ((sendStreamData 0 message).exec e).1 = .ok () ∧ Open session ((sendStreamData 0 message).exec e).2 := by
  have hsizes : ∀ chunk ∈ chunks maxPayloadSize message, chunk.length ≤ maxPayloadSize :=
    fun _ hchunk => mem_chunks hchunk
  obtain ⟨e', hexec, -, -, -, hopen⟩ := exec_sendChunks_open hP 0 hsizes h 0
  rw [sendStreamData, hexec]
  exact ⟨rfl, hopen⟩

/-- A turn on a datagram of the client is made, and there is another one. -/
theorem exec_serve_open (hP : P.Encrypts) {x : Exchange P} (hopen : Open session x.server) {m : Frame × Bytes}
    (hunchanged : Unchanged s x.server.connection) (hincoming : s.incomingFrames = [])
    (hframes : frames s [.ok m.2] = [m.1]) :
    (task x.server [.ok m.2]).1 = true ∧ Open session (task x.server [.ok m.2]).2 := by
  have hserved : served x.server.connection (.ok m.2) = some m.1 := by
    rw [served_unchanged hunchanged]
    cases hnone : served s (.ok m.2) with
    | none =>
      rw [Echo.frames, hnone] at hframes
      cases hframes
    | some frame =>
      rw [Echo.frames, hnone] at hframes
      cases hframes
      rfl
  obtain ⟨e', hturn, hopen'⟩ := exec_turn_open hP hopen (hunchanged.incomingFrames hincoming) hserved
  rw [task_served hturn]
  exact ⟨rfl, hopen'⟩

theorem Kept.clientUnchanged {agree intact : Prop} {x : Exchange P} (h : Kept agree intact c s x)
    (haead : c.aead = some session) : Unchanged c x.client.connection := by
  obtain ⟨ops, hops⟩ := h.client
  rw [hops]
  exact (sound_run haead ops).unchanged

theorem Kept.serverUnchanged {agree intact : Prop} {x : Exchange P} (h : Kept agree intact c s x)
    (haead : s.aead = some session) : Unchanged s x.server.connection := by
  obtain ⟨ops, hops⟩ := h.server
  rw [hops]
  exact (sound_run haead ops).unchanged

section Moves
variable {agree : Prop} {nonce : UInt64} {messages : List Bytes} {x : Exchange P}

theorem Live.part (hP : P.Encrypts) (hc : c.aead = some session) (h : Live agree session nonce c s messages x)
    (hphase : x.phase = .saying []) (hkept : Kept agree True c s (x.part nonce)) :
    Live agree session nonce c s messages (x.part nonce) ∧ (x.part nonce).work + 1 = x.work := by
  have hcounted := h.counted
  rw [Counted, hphase] at hcounted
  obtain ⟨before, hbefore, hsaid, hheard⟩ := hcounted
  rw [List.append_nil] at hbefore
  obtain ⟨datagram, hresult, hemitted⟩ := exec_finish_open hP (h.client (by simp [hphase])) nonce
  refine ⟨⟨hkept, fun hended => absurd rfl (hended _), h.server, h.serving, h.flow.sends hemitted _, hresult, ?_, ?_⟩,
    ?_⟩
  · show ((finish nonce).exec x.client).2.emitted.map Prod.fst = _
    rw [hemitted, List.map_append, hsaid, (h.kept.clientUnchanged hc).destination, script, hbefore]
    rfl
  · rw [hbefore]
    exact hheard
  · show 0 + (x.toServer ++ sentSince x.client ((finish nonce).exec x.client).2).length + 1 = x.work
    rw [sentSince_eq hemitted, List.length_append, work, hphase, Phase.work, effort]
    simp
    omega

theorem Live.say (hP : P.Encrypts) (hc : c.aead = some session) (h : Live agree session nonce c s messages x)
    {message : Bytes} {rest : List Bytes} (hphase : x.phase = .saying (message :: rest))
    (hkept : Kept agree True c s (x.say message rest)) :
    Live agree session nonce c s messages (x.say message rest) ∧ (x.say message rest).work + 1 = x.work := by
  have hcounted := h.counted
  rw [Counted, hphase] at hcounted
  obtain ⟨before, hbefore, hsaid, hheard⟩ := hcounted
  have hunchanged := h.kept.clientUnchanged hc
  obtain ⟨hresult, hopen⟩ := exec_say_open hP (h.client (by simp [hphase])) message
  obtain ⟨sent, hemitted, -, hwhole⟩ := (sends_sendStreamData (hunchanged.aead.trans hc) 0 message).emitted
  have hframes : sent.map Prod.fst = said c message := by
    rw [hwhole () hresult, hunchanged.destination, said]
  have hnext : (x.say message rest).phase = .waiting rest := by rw [Exchange.say, hresult]
  refine ⟨⟨hkept, fun _ => hopen, h.server, h.serving, ?_, ?_⟩, ?_⟩
  · exact h.flow.sends hemitted _
  · rw [Counted, hnext]
    refine ⟨before ++ [message], by rw [hbefore, List.append_assoc]; rfl, ?_, ?_⟩
    · show ((sendStreamData 0 message).exec x.client).2.emitted.map Prod.fst = _
      rw [hemitted, List.map_append, hsaid, hframes, List.flatMap_append, List.flatMap_singleton]
    · rw [List.length_append, ← hheard]
      rfl
  · have hcount := congrArg List.length hframes
    rw [List.length_map, said, dataFrames_length] at hcount
    rw [work, work, hnext, hphase, Phase.work, Phase.work, effort, effort]
    show _ + (x.toServer ++ sentSince x.client ((sendStreamData 0 message).exec x.client).2).length + 1 = _
    rw [sentSince_eq hemitted, List.length_append, List.length_map, hcount]
    simp
    omega

theorem Live.hear (h : Live agree session nonce c s messages x) {rest : List Bytes} {datagram : Bytes}
    {toClient : List Bytes} (hphase : x.phase = .waiting rest) {frame : Frame}
    (hresult : ((recvFrame (.ok datagram)).exec x.client).1 = .ok frame)
    (hkept : Kept agree True c s (x.hear datagram toClient rest)) :
    Live agree session nonce c s messages (x.hear datagram toClient rest) ∧
      (x.hear datagram toClient rest).work + 1 = x.work := by
  have hcounted := h.counted
  rw [Counted, hphase] at hcounted
  obtain ⟨before, hbefore, hsaid, hheard⟩ := hcounted
  obtain ⟨connection, hunchanged, hstate, hexec⟩ := exec_recvFrame_state x.client (.ok datagram)
  have hemitted : ((recvFrame (.ok datagram)).exec x.client).2.emitted = x.client.emitted := by rw [hexec]
  have hnext : (x.hear datagram toClient rest).phase = .saying rest := by rw [Exchange.hear, hresult]
  obtain ⟨had, pending, hway, hsent, hanswered⟩ := h.flow
  refine ⟨⟨hkept, fun _ => ?_, h.server, h.serving, ⟨had, pending, hway, hemitted.trans hsent, hanswered⟩, ?_⟩, ?_⟩
  · show Open session ((recvFrame (.ok datagram)).exec x.client).2
    rw [hexec]
    exact (h.client (by simp [hphase])).later hunchanged hstate
  · rw [Counted, hnext]
    refine ⟨before, hbefore, ?_, ?_⟩
    · show ((recvFrame (.ok datagram)).exec x.client).2.emitted.map Prod.fst = _
      rw [hemitted, hsaid]
    · show (x.heard ++ [_]).length = _
      rw [List.length_append, ← hheard]
      rfl
  · rw [work, work, hnext, hphase, Phase.work, Phase.work]
    show effort rest + 2 + x.toServer.length + 1 = _
    omega

theorem Live.serve (hP : P.Encrypts) (hs : s.aead = some session) (hincoming : s.incomingFrames = [])
    (h : Live agree session nonce c s messages x) {datagram : Bytes} {toServer : List Bytes}
    (hnext : x.toServer = datagram :: toServer)
    (hframes : ∀ m ∈ x.client.emitted, frames s [.ok m.2] = [m.1])
    (hkept : Kept agree True c s (x.serve datagram toServer)) :
    Live agree session nonce c s messages (x.serve datagram toServer) ∧
      (x.serve datagram toServer).work + 1 = x.work := by
  have hunchanged := h.kept.serverUnchanged hs
  obtain ⟨had, pending, hway, hsent, hanswered⟩ := h.flow
  have hlength : x.toServer.length = toServer.length + 1 := by rw [hnext, List.length_cons]
  rw [hway] at hnext
  obtain ⟨m, pending, rfl, rfl, rfl⟩ := List.map_eq_cons_iff.mp hnext
  have hm : m ∈ x.client.emitted := by
    rw [hsent]
    exact List.mem_append_right _ List.mem_cons_self
  obtain ⟨hserving, hopen⟩ := exec_serve_open hP h.server hunchanged hincoming (hframes m hm)
  have htask := (task_open hP [.ok m.2] h.server (hunchanged.incomingFrames hincoming)).2
  rw [answers_unchanged hunchanged, answers, hframes m hm, List.flatMap_singleton] at htask
  refine ⟨⟨hkept, h.client, hopen, hserving, ⟨had ++ [m], pending, rfl, ?_, ?_⟩, h.counted⟩, ?_⟩
  · rw [List.append_assoc]
    exact hsent
  · show (task x.server [.ok m.2]).2.emitted.map Prod.fst = _
    rw [htask, hanswered, List.map_append, List.flatMap_append]
    simp
  · rw [work, work, hlength]
    rfl

end Moves

theorem Live.step (hP : P.Authenticates) (hencrypts : P.Encrypts)
    (hc : Ready true clientId session c) (hs : Ready false serverId session s)
    (hsc : Holds s c) (hcs : Holds c s)
    (hids : truncateCid clientId = truncateCid serverId) {nonce : UInt64} {messages : List Bytes} {x y : Exchange P}
    (h : Live (truncateCid clientId = truncateCid serverId) session nonce c s messages x) {move : Move}
    (hmove : ∀ isClient, move ≠ .lost isClient) (hmoved : Moved nonce x move y) :
    Live (truncateCid clientId = truncateCid serverId) session nonce c s messages y ∧ y.work + 1 = x.work := by
  have hkept := h.kept.step hP hc hs hsc hcs hmoved fun _ => hmove true
  cases hmoved with
  | part phase => exact h.part hencrypts hc.aead phase hkept
  | say phase => exact h.say hencrypts hc.aead phase hkept
  | @hear rest datagram toClient phase next =>
    obtain ⟨got, unread, htoClient⟩ := h.kept.toClient
    have hnext := htoClient.onTheWay.symm.trans next
    obtain ⟨m, unread, rfl, rfl, rfl⟩ := List.map_eq_cons_iff.mp hnext
    have hm : m ∈ x.server.emitted := htoClient.sent.subset (List.mem_append_right _ List.mem_cons_self)
    exact h.hear phase (exec_hear hP hc hs hsc h.kept hm).1 hkept
  | serve serving next =>
    refine h.serve hencrypts hs.aead hs.incomingFrames next (fun m hm => ?_) hkept
    rw [frames_of_sent hP hc hs hcs h.kept hm, if_pos hids]
  | unserved => exact absurd rfl (hmove false)
  | missed => exact absurd rfl (hmove true)

theorem live_init {agree : Prop} (nonce : UInt64) (messages : List Bytes) (hc : Open session (start c))
    (hs : Open session (start s)) : Live agree session nonce c s messages (init c s messages) where
  kept := kept_init agree True c s messages
  client := fun _ => hc
  server := hs
  serving := rfl
  flow := ⟨[], [], rfl, rfl, rfl⟩
  counted := ⟨[], rfl, rfl, rfl⟩

/-- Each move that is made is one fewer to make. -/
theorem live_run (hP : P.Authenticates) (hencrypts : P.Encrypts)
    (hc : Ready true clientId session c) (hs : Ready false serverId session s)
    (hsc : Holds s c) (hcs : Holds c s)
    (hids : truncateCid clientId = truncateCid serverId) {nonce : UInt64} {messages : List Bytes} {x y : Exchange P}
    (h : Live (truncateCid clientId = truncateCid serverId) session nonce c s messages x) {moves : List Move}
    (hmoves : Lossless moves) (hrun : run nonce x moves = some y) :
    Live (truncateCid clientId = truncateCid serverId) session nonce c s messages y ∧
      y.work + moves.length = x.work := by
  induction moves generalizing x with
  | nil =>
    cases hrun
    exact ⟨h, rfl⟩
  | cons move moves ih =>
    obtain ⟨x', hmove, hrest⟩ := Option.bind_eq_some_iff.mp hrun
    obtain ⟨hne, hrestLossless⟩ := lossless_cons.mp hmoves
    obtain ⟨hlive, hwork⟩ := h.step hP hencrypts hc hs hsc hcs hids hne (moved hmove)
    obtain ⟨hlive', hwork'⟩ := ih hlive hrestLossless hrest
    refine ⟨hlive', ?_⟩
    rw [List.length_cons]
    omega

theorem exists_move {nonce : UInt64} {x : Exchange P} (h : ¬ Stuck nonce x) :
    ∃ move y, (∀ isClient, move ≠ .lost isClient) ∧ step nonce x move = some y := by
  by_cases hclient : step nonce x .client = none
  · have hserver : step nonce x .server ≠ none := fun hserver => h ⟨hclient, hserver⟩
    obtain ⟨y, hy⟩ := Option.ne_none_iff_exists'.mp hserver
    exact ⟨.server, y, fun _ h => (by cases h), hy⟩
  · obtain ⟨y, hy⟩ := Option.ne_none_iff_exists'.mp hclient
    exact ⟨.client, y, fun _ h => (by cases h), hy⟩

/-- A run in which nothing gets lost can be carried on to its end. -/
theorem Live.carriedOn (hP : P.Authenticates) (hencrypts : P.Encrypts) (hc : Ready true clientId session c)
    (hs : Ready false serverId session s) (hsc : Holds s c) (hcs : Holds c s)
    (hids : truncateCid clientId = truncateCid serverId) {nonce : UInt64} {messages : List Bytes} (n : Nat)
    {x : Exchange P} (h : Live (truncateCid clientId = truncateCid serverId) session nonce c s messages x)
    (hn : x.work ≤ n) : ∃ more y, Lossless more ∧ run nonce x more = some y ∧ Stuck nonce y := by
  induction n generalizing x with
  | zero =>
    refine ⟨[], x, lossless_nil, rfl, ?_⟩
    by_contra hstuck
    obtain ⟨move, y, hne, hmove⟩ := exists_move hstuck
    have hwork := (h.step hP hencrypts hc hs hsc hcs hids hne (moved hmove)).2
    omega
  | succ n ih =>
    by_cases hstuck : Stuck nonce x
    · exact ⟨[], x, lossless_nil, rfl, hstuck⟩
    · obtain ⟨move, x', hne, hmove⟩ := exists_move hstuck
      obtain ⟨hlive, hwork⟩ := h.step hP hencrypts hc hs hsc hcs hids hne (moved hmove)
      obtain ⟨more, y, hlost, hrun, hend⟩ := ih hlive (by omega)
      refine ⟨move :: more, y, lossless_cons.mpr ⟨hne, hlost⟩, ?_, hend⟩
      rw [run, hmove]
      exact hrun

/-- What a message is answered with. -/
def replies (c s : Connection P) (message : Bytes) : List Frame := (said c message).flatMap (answer s.destination)

theorem replies_ne_nil (c s : Connection P) {message : Bytes} (h : message ≠ []) : replies c s message ≠ [] := by
  rw [replies, said, chunks_of_ne_nil (by decide) h, dataFrames, List.flatMap_cons]
  intro hnil
  exact answer_ne_nil rfl (List.append_eq_nil_iff.mp hnil).1

theorem length_le_replies (c s : Connection P) {messages : List Bytes} (h : ∀ message ∈ messages, message ≠ []) :
    messages.length ≤ (messages.flatMap (replies c s)).length := by
  induction messages with
  | nil => exact Nat.le_refl 0
  | cons message messages ih =>
    have hone := List.length_pos_iff.mpr (replies_ne_nil c s (h message List.mem_cons_self))
    have hrest := ih fun message' hmessage => h message' (List.mem_cons_of_mem _ hmessage)
    rw [List.flatMap_cons, List.length_append, List.length_cons]
    omega

/-- What the client has heard is the beginning of what the server has sent. -/
theorem Kept.heard_eq {agree : Prop} {x : Exchange P} (h : Kept agree True c s x) :
    x.heard = ((x.server.emitted.map Prod.fst).take x.heard.length).map .ok := by
  obtain ⟨got, unread, htoClient⟩ := h.toClient
  rw [htoClient.heard, htoClient.whole trivial, List.length_map, List.map_append, ← List.length_map Prod.fst, List.take_left,
    List.map_map]
  rfl

/-- Where neither end can move, the client has said everything. -/
theorem Live.ended {agree : Prop} {nonce : UInt64} {messages : List Bytes} {x : Exchange P}
    (h : Live agree session nonce c s messages x) (hmessages : ∀ message ∈ messages, message ≠ [])
    (hstuck : Stuck nonce x) : x.toServer = [] ∧ ∃ r, x.phase = .ended r := by
  obtain ⟨hclient, hserver⟩ := hstuck
  have htoServer : x.toServer = [] := by
    cases hnext : x.toServer with
    | nil => rfl
    | cons datagram toServer =>
      simp only [Exchange.step, h.serving, hnext] at hserver
      cases hserver
  refine ⟨htoServer, ?_⟩
  have hcounted := h.counted
  cases hphase : x.phase with
  | ended r => exact ⟨r, rfl⟩
  | saying rest =>
    simp only [Exchange.step, hphase] at hclient
    cases rest <;> cases hclient
  | waiting rest =>
    rw [Counted, hphase] at hcounted
    obtain ⟨before, hbefore, hsaid, hheard⟩ := hcounted
    obtain ⟨got, unread, htoClient⟩ := h.kept.toClient
    obtain ⟨had, pending, hway, hsent, hanswered⟩ := h.flow
    have hunread : unread = [] := by
      cases hnext : x.toClient with
      | nil => exact List.map_eq_nil_iff.mp (htoClient.onTheWay.symm.trans hnext)
      | cons datagram toClient =>
        simp only [Exchange.step, hphase, hnext] at hclient
        cases hclient
    have hpending : pending = [] := List.map_eq_nil_iff.mp (hway.symm.trans htoServer)
    rw [hpending, List.append_nil] at hsent
    rw [← hsent, hsaid, List.flatMap_assoc] at hanswered
    -- Everything that was said has been answered, and every answer has been read.
    have hlength := congrArg List.length hanswered
    rw [List.length_map, htoClient.whole trivial, hunread, List.append_nil] at hlength
    have hgot : x.heard.length = got.length := by rw [htoClient.heard, List.length_map]
    have hmentioned : ∀ message ∈ before, message ≠ [] := by
      intro message hmessage
      apply hmessages
      rw [hbefore]
      exact List.mem_append_left _ hmessage
    have hle := length_le_replies c s hmentioned
    have hreplies : got.length = (before.flatMap (replies c s)).length := hlength
    omega

/-- A message of one chunk whose answer is one is followed by its answer. -/
theorem replies_short (c s : Connection P) {message : Bytes} (hne : message ≠ [])
    (hmessage : message.length ≤ maxPayloadSize) (hresponse : (response message).length ≤ maxPayloadSize) :
    replies c s message = [Frame.data 0 s.destination 0 (response message)] := by
  have hpos : 0 < maxPayloadSize := by decide
  have hone : ∀ (destination : UInt32) {data : Bytes}, data ≠ [] → data.length ≤ maxPayloadSize →
      dataFrames 0 destination 0 (chunks maxPayloadSize data) = [Frame.data 0 destination 0 data] := by
    intro destination data hdata hlength
    rw [chunks_of_ne_nil hpos hdata, List.take_of_length_le hlength, List.drop_eq_nil_of_le hlength, chunks_nil _ hpos]
    rfl
  have hanswer : answer s.destination (Frame.data 0 c.destination 0 message) =
      dataFrames 0 s.destination 0 (chunks maxPayloadSize (response message)) := if_pos rfl
  have hecho : response message ≠ [] := nofun
  rw [replies, said, hone c.destination hne hmessage, List.flatMap_singleton, hanswer,
    hone s.destination hecho hresponse]

theorem Live.completed {agree : Prop} {nonce : UInt64} {messages : List Bytes} {x : Exchange P}
    (h : Live agree session nonce c s messages x) (hmessages : ∀ message ∈ messages, message ≠ [])
    (hstuck : Stuck nonce x) :
    x.phase = .ended (fail (.invalidState "Connection not active")) ∧
      x.heard = ((messages.flatMap (replies c s)).take messages.length).map .ok := by
  obtain ⟨htoServer, r, hphase⟩ := h.ended hmessages hstuck
  have hcounted := h.counted
  rw [Counted, hphase] at hcounted
  obtain ⟨hresult, hsaid, hheard⟩ := hcounted
  obtain ⟨had, pending, hway, hsent, hanswered⟩ := h.flow
  have hpending : pending = [] := List.map_eq_nil_iff.mp (hway.symm.trans htoServer)
  have hsentAll : x.server.emitted.map Prod.fst = messages.flatMap (replies c s) := by
    rw [hpending, List.append_nil] at hsent
    rw [hanswered, ← hsent, hsaid, script, List.flatMap_append, List.flatMap_assoc]
    exact List.append_nil _
  refine ⟨by rw [hphase, hresult], ?_⟩
  rw [h.kept.heard_eq, hsentAll, hheard]

theorem replies_texts (c s : Connection P) {texts : List String}
    (h : ∀ text ∈ texts, utf8 text ≠ [] ∧ (utf8 text).length ≤ 1370) :
    (texts.map utf8).flatMap (replies c s) = texts.map fun text =>
      Frame.data 0 s.destination 0 (ascii ['e', 'c', 'h', 'o', ':', ' '] ++ utf8 text) := by
  induction texts with
  | nil => rfl
  | cons text texts ih =>
    obtain ⟨hne, hlength⟩ := h text List.mem_cons_self
    have hresponse : response (utf8 text) = ascii ['e', 'c', 'h', 'o', ':', ' '] ++ utf8 text := by
      rw [response, fromUtf8Lossy_utf8]
    have hfits : (response (utf8 text)).length ≤ maxPayloadSize := by
      rw [hresponse, List.length_append]
      exact Nat.add_le_add_left hlength 6
    rw [List.map_cons, List.flatMap_cons, replies_short c s hne (hlength.trans (by decide)) hfits, hresponse,
      ih fun text' htext => h text' (List.mem_cons_of_mem _ htext)]
    rfl

end Run

section Ends
variable {clientId serverId : UInt64} {c s : Connection P}

/-- Both ends of an honest pair, with sockets that take everything and buffers that hold a full chunk. -/
structure Connected (clientId serverId : UInt64) (c s : Connection P) : Prop where
  honest : HonestPair clientId serverId c s
  clientSocket : ∀ n, c.socket.refuses n = none
  serverSocket : ∀ n, s.socket.refuses n = none
  clientHolds : Holds s c
  serverHolds : Holds c s

/-- **Where nothing gets lost and the sockets take everything, every run comes to an end**, in
which the client has said everything and heard a frame for each message: the first ones of all that
the server has sent. The client itself ends with the error of its close, and the task goes on waiting. -/
theorem exchange_completes (hP : P.Authenticates) (hencrypts : P.Encrypts)
    (hdh : P.AgreesOnSecrets) (hsig : P.VerifiesSignatures) (hmac : P.MacLength)
    (h : Connected clientId serverId c s) (hids : truncateCid clientId = truncateCid serverId) {nonce : UInt64}
    {messages : List Bytes} (hmessages : ∀ message ∈ messages, message ≠ []) {moves : List Move}
    (hmoves : Lossless moves) {x : Exchange P} (hrun : run nonce (init c s messages) moves = some x) :
    moves.length ≤ (init c s messages).work ∧
      (Stuck nonce x → x.phase = .ended (fail (.invalidState "Connection not active")) ∧ x.serving = true ∧
        x.heard = ((messages.flatMap (replies c s)).take messages.length).map .ok) ∧
      ∃ more y, Lossless more ∧ run nonce x more = some y ∧ Stuck nonce y := by
  obtain ⟨session, hc, hs⟩ := h.honest.ready hdh hsig hmac
  have hinit : Live (truncateCid clientId = truncateCid serverId) session nonce c s messages (init c s messages) :=
    live_init nonce messages ⟨hc.aead, hc.state, h.clientSocket⟩ ⟨hs.aead, hs.state, h.serverSocket⟩
  obtain ⟨hlive, hwork⟩ := live_run hP hencrypts hc hs h.clientHolds h.serverHolds hids hinit hmoves hrun
  refine ⟨by omega, fun hstuck => ?_,
    hlive.carriedOn hP hencrypts hc hs h.clientHolds h.serverHolds hids x.work (Nat.le_refl _)⟩
  obtain ⟨hphase, hheard⟩ := hlive.completed hmessages hstuck
  exact ⟨hphase, hlive.serving, hheard⟩

/-- **Short texts come back as their echoes, one for each and in order.** -/
theorem exchange_echoes (hP : P.Authenticates) (hencrypts : P.Encrypts)
    (hdh : P.AgreesOnSecrets) (hsig : P.VerifiesSignatures) (hmac : P.MacLength)
    (h : Connected clientId serverId c s) (hids : truncateCid clientId = truncateCid serverId) {nonce : UInt64}
    {texts : List String} (htexts : ∀ text ∈ texts, utf8 text ≠ [] ∧ (utf8 text).length ≤ 1370) {moves : List Move}
    (hmoves : Lossless moves) {x : Exchange P} (hrun : run nonce (init c s (texts.map utf8)) moves = some x)
    (hstuck : Stuck nonce x) :
    x.heard = texts.map fun text =>
      .ok (Frame.data 0 s.destination 0 (ascii ['e', 'c', 'h', 'o', ':', ' '] ++ utf8 text)) := by
  obtain ⟨session, hc, hs⟩ := h.honest.ready hdh hsig hmac
  have hinit : Live (truncateCid clientId = truncateCid serverId) session nonce c s (texts.map utf8)
      (init c s (texts.map utf8)) :=
    live_init nonce _ ⟨hc.aead, hc.state, h.clientSocket⟩ ⟨hs.aead, hs.state, h.serverSocket⟩
  obtain ⟨hlive, -⟩ := live_run hP hencrypts hc hs h.clientHolds h.serverHolds hids hinit hmoves hrun
  have hnonempty : ∀ message ∈ texts.map utf8, message ≠ [] := by
    intro message hmessage
    obtain ⟨text, htext, rfl⟩ := List.mem_map.mp hmessage
    exact (htexts text htext).1
  obtain ⟨-, hheard⟩ := hlive.completed hnonempty hstuck
  rw [hheard, replies_texts c s htexts, List.length_map, List.take_of_length_le (by rw [List.length_map]), List.map_map]
  rfl

end Ends

section Sample
open HandshakeContext

theorem connected_near : Connected 0x100000001 0x100000002 nearClientEnd nearServerEnd where
  honest := honestPair_near
  clientSocket := fun _ => rfl
  serverSocket := fun _ => rfl
  clientHolds := near_holds.1
  serverHolds := near_holds.2

/-- A greeting and its echo, to the end of the exchange. -/
def greeting : List Move := [.client, .server, .client, .client, .server]

theorem exchange_completes_near : ∃ x, run 7 (init nearClientEnd nearServerEnd [[104, 105]]) greeting = some x ∧
    Stuck 7 x ∧ greeting.length ≤ (init nearClientEnd nearServerEnd [[104, 105]]).work ∧
    (Stuck 7 x → x.phase = .ended (fail (.invalidState "Connection not active")) ∧ x.serving = true ∧
      x.heard = (([[104, 105]].flatMap (replies nearClientEnd nearServerEnd)).take 1).map .ok) ∧
    ∃ more y, Lossless more ∧ run 7 x more = some y ∧ Stuck 7 y := by
  have hmoves : (run 7 (init nearClientEnd nearServerEnd [[104, 105]]) greeting).map
      (fun x => (step 7 x .client).isNone && (step 7 x .server).isNone) = some true := by
    decide +kernel
  obtain ⟨x, hrun, hnone⟩ := Option.map_eq_some_iff.mp hmoves
  have hstuck : Stuck 7 x := by simpa [Stuck] using hnone
  exact ⟨x, hrun, hstuck, exchange_completes (Transparent.authenticates _) (Transparent.encrypts _)
    (Transparent.agreesOnSecrets _) (Transparent.verifiesSignatures _) Transparent.fixedMacs_macLength connected_near
    (by decide) (by decide) (fun isClient => by cases isClient <;> decide) hrun⟩

/-- The sample server echoes a greeting. -/
theorem exchange_echoes_near : ∃ moves x, run 7 (init nearClientEnd nearServerEnd (["hi"].map utf8)) moves = some x ∧
    x.heard = ["hi"].map fun text =>
      .ok (Frame.data 0 nearServerEnd.destination 0 (ascii ['e', 'c', 'h', 'o', ':', ' '] ++ utf8 text)) := by
  obtain ⟨session, hc, hs⟩ := honestPair_near.ready (Transparent.agreesOnSecrets _)
    (Transparent.verifiesSignatures _) Transparent.fixedMacs_macLength
  have hids : truncateCid 0x100000001 = truncateCid 0x100000002 := by decide
  have hlive : Live (truncateCid 0x100000001 = truncateCid 0x100000002) session 7 nearClientEnd nearServerEnd
      (["hi"].map utf8) (init nearClientEnd nearServerEnd (["hi"].map utf8)) :=
    live_init 7 _ ⟨hc.aead, hc.state, fun _ => rfl⟩ ⟨hs.aead, hs.state, fun _ => rfl⟩
  obtain ⟨moves, x, hlost, hrun, hstuck⟩ := hlive.carriedOn (Transparent.authenticates _) (Transparent.encrypts _) hc hs
    connected_near.clientHolds connected_near.serverHolds hids _ (Nat.le_refl _)
  have htexts : ∀ text ∈ ["hi"], utf8 text ≠ [] ∧ (utf8 text).length ≤ 1370 := by
    intro text htext
    cases List.mem_singleton.mp htext
    decide +kernel
  exact ⟨moves, x, hrun, exchange_echoes (Transparent.authenticates _) (Transparent.encrypts _)
    (Transparent.agreesOnSecrets _) (Transparent.verifiesSignatures _) Transparent.fixedMacs_macLength connected_near
    hids htexts hlost hrun hstuck⟩

end Sample

end Exchange

end

end Aether
