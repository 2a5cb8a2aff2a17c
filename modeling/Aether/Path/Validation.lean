import Aether.Path.Freshness
import Aether.Path.Response

/-! Path validation between two ends.

One end challenges paths, the other answers, and frames go between them encoded. What
was sent stays to be delivered, any number of times and in any order, or never. The
nonce of a path and the messages about it agree as long as IDs are not given out
twice, which up to 256 paths they are not; so the first response for a path activates
it, and nothing else does (`path_validation`). -/
namespace Aether.PathManager
open Octets Octets.Method

/-! ### Two ends -/

/-- Two ends, and the frames each has sent. -/
structure Exchange (Addr : Type) where
  challenger : PathManager Addr
  answerer : PathManager Addr
  challenges : List Bytes
  responses : List Bytes

namespace Exchange

inductive Event (Addr : Type) where
  | challenge (localAddr remoteAddr : Addr) (nonce : UInt64) (now : Instant)
  | deliverChallenge (k : Nat) (remoteAddr localAddr : Addr) (now : Instant)
  | deliverResponse (k : Nat) (now : Instant)

variable {Addr : Type}

/-- A challenger that has registered its primary path, and any answerer. -/
def init (connectionId : UInt64) (maxPaths : Nat) (localAddr remoteAddr : Addr) (now : Instant)
    (answerer : PathManager Addr) : Exchange Addr :=
  { challenger := (new connectionId maxPaths).next (.registerPrimary localAddr remoteAddr now)
    answerer
    challenges := []
    responses := [] }

/-- The k-th frame that was sent, as it is decoded. -/
def received (frames : List Bytes) (k : Nat) : Option Frame := frames[k]?.bind fun octets => (Frame.decode octets).toOption

def next (x : Exchange Addr) : Event Addr → Exchange Addr
  | .challenge localAddr remoteAddr nonce now =>
    match (createPathChallenge localAddr remoteAddr nonce now).exec x.challenger with
    | (.ok (frame, _), challenger) => { x with challenger, challenges := x.challenges ++ [frame.encode] }
    | (.error _, challenger) => { x with challenger }
  | .deliverChallenge k remoteAddr localAddr now =>
    match received x.challenges k with
    | some frame =>
      match (handlePathChallenge frame remoteAddr localAddr now).exec x.answerer with
      | (.ok (response, _), answerer) => { x with answerer, responses := x.responses ++ [response.encode] }
      | (.error _, answerer) => { x with answerer }
    | none => x
  | .deliverResponse k now =>
    match received x.responses k with
    | some frame => { x with challenger := ((handlePathResponse frame now).exec x.challenger).2 }
    | none => x

/-- Nothing is refused. -/
def step (x : Exchange Addr) (event : Event Addr) : Option (Exchange Addr) := some (x.next event)

/-- The path a frame is about. -/
def namedBy (frame : Option Frame) : Option PathId := frame.bind fun frame => (extractPathId frame).toOption

/-- The path an event is about. -/
def subject (x : Exchange Addr) : Event Addr → Option PathId
  | .challenge _ _ _ _ => some x.challenger.nextPathId
  | .deliverChallenge k _ _ _ => namedBy (received x.challenges k)
  | .deliverResponse k _ => namedBy (received x.responses k)

/-- A response for the path has reached the challenger. -/
def Answered (past : List (Exchange Addr × Event Addr)) (pathId : PathId) : Prop :=
  ∃ x k now, (x, .deliverResponse k now) ∈ past ∧ namedBy (received x.responses k) = some pathId

/-- What path validation is to do, of a state and of what happens in it next. -/
structure Validated (r : Recorded (Exchange Addr) (Event Addr)) : Prop where
  /-- What was sent can be read, and is about a path that was challenged. -/
  challenges : ∀ k < r.now.challenges.length,
    ∃ pathId ∈ r.now.challenger.paths, namedBy (received r.now.challenges k) = some pathId
  responses : ∀ k < r.now.responses.length,
    ∃ pathId ∈ r.now.challenger.paths, namedBy (received r.now.responses k) = some pathId
  /-- A challenge that arrives is answered. -/
  answers : ∀ k remoteAddr localAddr now frame pathId, received r.now.challenges k = some frame →
    extractPathId frame = .ok pathId →
      ∃ response m', (handlePathChallenge frame remoteAddr localAddr now).exec r.now.answerer = (.ok (response, pathId), m')
  /-- The first response for a path activates it. -/
  first : ∀ k now frame pathId, received r.now.responses k = some frame → extractPathId frame = .ok pathId →
    ¬ Answered r.past pathId → ∃ m' path, (handlePathResponse frame now).exec r.now.challenger = (.ok pathId, m') ∧
      m'.paths.lookup pathId = some path ∧ path.active = true
  /-- A later one is refused. -/
  later : ∀ k now frame pathId, received r.now.responses k = some frame → extractPathId frame = .ok pathId →
    Answered r.past pathId →
      ∃ e, (handlePathResponse frame now).exec r.now.challenger = (.error (.err e), r.now.challenger)
  /-- Nothing else activates a path. -/
  active : ∀ pathId path, r.now.challenger.paths.lookup pathId = some path → path.active = true →
    pathId ≠ r.now.challenger.primaryPathId → Answered r.past pathId
  /-- What is about one path leaves the others alone, at both ends. -/
  separate : ∀ event other, r.now.subject event ≠ some other →
    (r.now.next event).challenger.paths.lookup other = r.now.challenger.paths.lookup other ∧
      (r.now.next event).answerer.paths.lookup other = r.now.answerer.paths.lookup other

/-! ### On the wire -/

/-- A frame of either type with the ID of a path. -/
theorem decode_pathFrame (frameType : FrameType) (connectionId : UInt32) (pathId : PathId) (nonce : UInt64) :
    Frame.decode ((Frame.newShort frameType controlStreamId connectionId 0 (toBe 8 nonce.toNat)).addExtension
      ⟨.pathId, [pathId]⟩).encode =
      .ok ((Frame.newShort frameType controlStreamId connectionId 0 (toBe 8 nonce.toNat)).addExtension
        ⟨.pathId, [pathId]⟩) := by
  have hextension : ∀ e ∈ [(⟨.pathId, [pathId]⟩ : Extension)], e.WellFormed := by
    intro e he
    cases List.mem_singleton.mp he
    exact ⟨nofun, (by decide : 1 < 2 ^ 24)⟩
  exact Frame.read_back_short frameType (by decide) connectionId 0 (by rw [toBe_length]; decide) hextension

theorem decode_pathChallenge (connectionId : UInt32) (pathId : PathId) (nonce : UInt64) :
    Frame.decode (Frame.pathChallenge connectionId pathId nonce).encode =
      .ok (Frame.pathChallenge connectionId pathId nonce) :=
  decode_pathFrame .pathChallenge connectionId pathId nonce

theorem decode_pathResponse (connectionId : UInt32) (pathId : PathId) (nonce : UInt64) :
    Frame.decode (Frame.pathResponse connectionId pathId nonce).encode =
      .ok (Frame.pathResponse connectionId pathId nonce) :=
  decode_pathFrame .pathResponse connectionId pathId nonce

theorem received_eq_some {frames : List Bytes} {k : Nat} {frame : Frame} :
    received frames k = some frame ↔ ∃ octets, frames[k]? = some octets ∧ Frame.decode octets = .ok frame := by
  rw [received, Option.bind_eq_some_iff]
  refine exists_congr fun octets => and_congr_right fun _ => ?_
  cases Frame.decode octets with
  | error e => exact iff_of_false nofun nofun
  | ok decoded => simp [Except.toOption]

theorem namedBy_eq_some {frame : Frame} {pathId : PathId} :
    namedBy (some frame) = some pathId ↔ extractPathId frame = .ok pathId := by
  rw [namedBy, Option.bind_some]
  cases extractPathId frame with
  | error e => exact iff_of_false nofun nofun
  | ok other => simp [Except.toOption]

/-! ### One path at a time -/

theorem lookup_handlePathResponse {m : PathManager Addr} {frame : Frame} {other : PathId}
    (hother : extractPathId frame ≠ .ok other) (now : Instant) :
    ((handlePathResponse frame now).exec m).2.paths.lookup other = m.paths.lookup other := by
  rcases handlePathResponse_cases m frame now with ⟨pathId, nonce, path, hcarries, _, _, hexec⟩ | ⟨_, e, hexec⟩
  · rw [hexec]
    refine lookup_replace_ne ?_ _
    rintro rfl
    exact hother hcarries.1
  · rw [hexec]

theorem lookup_handlePathChallenge {m : PathManager Addr} {frame : Frame} {other : PathId}
    (hother : extractPathId frame ≠ .ok other) (remoteAddr localAddr : Addr) (now : Instant) :
    ((handlePathChallenge frame remoteAddr localAddr now).exec m).2.paths.lookup other = m.paths.lookup other := by
  rcases handlePathChallenge_cases m frame remoteAddr localAddr now with ⟨pathId, nonce, hcarries, hexec⟩ | ⟨_, e, hexec⟩
  · rw [hexec]
    refine AList.lookup_insert_ne ?_
    rintro rfl
    exact hother hcarries.1
  · rw [hexec]

theorem lookup_createPathChallenge {m : PathManager Addr} {other : PathId} (hother : m.nextPathId ≠ other)
    (localAddr remoteAddr : Addr) (nonce : UInt64) (now : Instant) :
    ((createPathChallenge localAddr remoteAddr nonce now).exec m).2.paths.lookup other = m.paths.lookup other := by
  cases hfull : m.full with
  | true => rw [exec_createPathChallenge_full hfull]
  | false =>
    rw [exec_createPathChallenge_room hfull]
    exact AList.lookup_insert_ne hother.symm

/-! ### One event -/

theorem next_challenge_full {x : Exchange Addr} (h : x.challenger.full = true) (localAddr remoteAddr : Addr)
    (nonce : UInt64) (now : Instant) : x.next (.challenge localAddr remoteAddr nonce now) = x := by
  rw [next, exec_createPathChallenge_full h]
  rfl

theorem next_challenge_room {x : Exchange Addr} (h : x.challenger.full = false) (localAddr remoteAddr : Addr)
    (nonce : UInt64) (now : Instant) :
    x.next (.challenge localAddr remoteAddr nonce now) = { x with
      challenger := { x.challenger with
        nextPathId := x.challenger.nextPathId + 1
        paths := x.challenger.paths.insert x.challenger.nextPathId
          (challenging x.challenger.nextPathId localAddr remoteAddr nonce now) }
      challenges := x.challenges ++
        [(Frame.pathChallenge x.challenger.frameConnectionId x.challenger.nextPathId nonce).encode] } := by
  rw [next, exec_createPathChallenge_room h]

theorem next_deliverChallenge {x : Exchange Addr} {k : Nat} {frame : Frame} (h : received x.challenges k = some frame)
    {pathId : PathId} {nonce : UInt64} (hcarries : Carries frame pathId nonce) (remoteAddr localAddr : Addr)
    (now : Instant) :
    x.next (.deliverChallenge k remoteAddr localAddr now) = { x with
      answerer := { x.answerer with
        paths := x.answerer.paths.insert pathId (x.answerer.answering pathId remoteAddr localAddr now) }
      responses := x.responses ++ [(Frame.pathResponse x.answerer.frameConnectionId pathId nonce).encode] } := by
  rw [next, h]
  dsimp only
  rw [exec_handlePathChallenge_ok hcarries]

theorem next_deliverResponse {x : Exchange Addr} {k : Nat} {frame : Frame} (h : received x.responses k = some frame)
    (now : Instant) : x.next (.deliverResponse k now) =
      { x with challenger := ((handlePathResponse frame now).exec x.challenger).2 } := by
  rw [next, h]

/-- **An event about one path leaves the others alone, in any state.** -/
theorem next_separate (x : Exchange Addr) (event : Event Addr) (other : PathId) (hother : x.subject event ≠ some other) :
    (x.next event).challenger.paths.lookup other = x.challenger.paths.lookup other ∧
      (x.next event).answerer.paths.lookup other = x.answerer.paths.lookup other := by
  cases event with
  | challenge localAddr remoteAddr nonce now =>
    have hlookup := lookup_createPathChallenge (fun hsame => hother (congrArg some hsame)) localAddr remoteAddr nonce now
    rw [next]
    split
    · rename_i hexec
      rw [hexec] at hlookup
      exact ⟨hlookup, rfl⟩
    · rename_i hexec
      rw [hexec] at hlookup
      exact ⟨hlookup, rfl⟩
  | deliverChallenge k remoteAddr localAddr now =>
    rw [next]
    cases hreceived : received x.challenges k with
    | none => exact ⟨rfl, rfl⟩
    | some frame =>
      rw [subject, hreceived, Ne, namedBy_eq_some] at hother
      have hlookup := lookup_handlePathChallenge (m := x.answerer) hother remoteAddr localAddr now
      dsimp only
      split
      · rename_i hexec
        rw [hexec] at hlookup
        exact ⟨rfl, hlookup⟩
      · rename_i hexec
        rw [hexec] at hlookup
        exact ⟨rfl, hlookup⟩
  | deliverResponse k now =>
    rw [next]
    cases hreceived : received x.responses k with
    | none => exact ⟨rfl, rfl⟩
    | some frame =>
      rw [subject, hreceived, Ne, namedBy_eq_some] at hother
      exact ⟨lookup_handlePathResponse hother now, rfl⟩

/-! ### A run -/

theorem answered_append {past : List (Exchange Addr × Event Addr)} {x : Exchange Addr} {event : Event Addr}
    {pathId : PathId} :
    Answered (past ++ [(x, event)]) pathId ↔ Answered past pathId ∨
      ∃ k now, event = .deliverResponse k now ∧ namedBy (received x.responses k) = some pathId := by
  constructor
  · rintro ⟨y, k, now, hmem, hnamed⟩
    rcases List.mem_append.mp hmem with hold | hnew
    · exact .inl ⟨y, k, now, hold, hnamed⟩
    · cases List.mem_singleton.mp hnew
      exact .inr ⟨k, now, rfl, hnamed⟩
  · rintro (⟨y, k, now, hmem, hnamed⟩ | ⟨k, now, rfl, hnamed⟩)
    · exact ⟨y, k, now, List.mem_append_left _ hmem, hnamed⟩
    · exact ⟨x, k, now, List.mem_append_right _ (List.mem_singleton_self _), hnamed⟩

/-- A path that was challenged waits with its nonce for a response, or has had one. -/
inductive Waits (nonce : UInt64) (path : PathState Addr) : Prop → Prop where
  | waiting {answered : Prop} (unanswered : ¬ answered) (outstanding : path.challengeNonce = some nonce)
      (inactive : path.active = false) : Waits nonce path answered
  | done {answered : Prop} (response : answered) (settled : path.challengeNonce = none) (active : path.active = true) :
      Waits nonce path answered

/-- What is kept: paths and messages agree on the nonces. -/
structure Agreed (maxPaths : Nat) (nonce : PathId → UInt64) (r : Recorded (Exchange Addr) (Event Addr)) : Prop where
  cap : r.now.challenger.maxPaths = maxPaths
  primary : r.now.challenger.primaryPathId = 0
  registered : 0 ∈ r.now.challenger.paths
  allocated : Allocated r.now.challenger
  challenges : ∀ octets ∈ r.now.challenges, ∃ connectionId pathId, pathId ≠ 0 ∧ pathId ∈ r.now.challenger.paths ∧
    octets = (Frame.pathChallenge connectionId pathId (nonce pathId)).encode
  responses : ∀ octets ∈ r.now.responses, ∃ connectionId pathId, pathId ≠ 0 ∧ pathId ∈ r.now.challenger.paths ∧
    octets = (Frame.pathResponse connectionId pathId (nonce pathId)).encode
  known : ∀ pathId, Answered r.past pathId → pathId ∈ r.now.challenger.paths
  paths : ∀ pathId path, pathId ≠ 0 → r.now.challenger.paths.lookup pathId = some path →
    Waits (nonce pathId) path (Answered r.past pathId)

variable {maxPaths : Nat} {nonce : PathId → UInt64} {r : Recorded (Exchange Addr) (Event Addr)}

theorem agreed_init (connectionId : UInt64) (maxPaths : Nat) (localAddr remoteAddr : Addr) (now : Instant)
    (answerer : PathManager Addr) (nonce : PathId → UInt64) :
    Agreed maxPaths nonce (.fresh (init connectionId maxPaths localAddr remoteAddr now answerer)) where
  cap := rfl
  primary := rfl
  registered := (AList.mem_insert _).mpr (.inl rfl)
  allocated := allocated_step (allocated_new connectionId maxPaths) (by trivial)
    (.registered localAddr remoteAddr now)
  challenges := fun _ hmem => by cases hmem
  responses := fun _ hmem => by cases hmem
  known := by
    rintro pathId ⟨_, _, _, hmem, _⟩
    cases hmem
  paths := by
    intro pathId path hpathId hpath
    have hlookup : (AList.insert 0 _ ∅ : AList fun _ : PathId => PathState Addr).lookup pathId = some path := hpath
    rw [AList.lookup_insert_ne hpathId] at hlookup
    cases hlookup

/-- The k-th response is one for a path, with its nonce. -/
theorem Agreed.received_response (h : Agreed maxPaths nonce r) {k : Nat} {octets : Bytes}
    (hk : r.now.responses[k]? = some octets) : ∃ connectionId pathId, pathId ≠ 0 ∧ pathId ∈ r.now.challenger.paths ∧
      received r.now.responses k = some (Frame.pathResponse connectionId pathId (nonce pathId)) := by
  obtain ⟨connectionId, pathId, hpathId, hmem, rfl⟩ := h.responses octets (List.mem_of_getElem? hk)
  exact ⟨connectionId, pathId, hpathId, hmem, received_eq_some.mpr ⟨_, hk, decode_pathResponse ..⟩⟩

theorem Agreed.received_challenge (h : Agreed maxPaths nonce r) {k : Nat} {octets : Bytes}
    (hk : r.now.challenges[k]? = some octets) : ∃ connectionId pathId, pathId ≠ 0 ∧ pathId ∈ r.now.challenger.paths ∧
      received r.now.challenges k = some (Frame.pathChallenge connectionId pathId (nonce pathId)) := by
  obtain ⟨connectionId, pathId, hpathId, hmem, rfl⟩ := h.challenges octets (List.mem_of_getElem? hk)
  exact ⟨connectionId, pathId, hpathId, hmem, received_eq_some.mpr ⟨_, hk, decode_pathChallenge ..⟩⟩

/-- A response for a path that waits for one is taken, and no other. -/
theorem Agreed.response (h : Agreed maxPaths nonce r) {pathId : PathId} (hpathId : pathId ≠ 0)
    (hmem : pathId ∈ r.now.challenger.paths) (connectionId : UInt32) (now : Instant) :
    (¬ Answered r.past pathId → ∃ path, r.now.challenger.paths.lookup pathId = some path ∧
      (handlePathResponse (Frame.pathResponse connectionId pathId (nonce pathId)) now).exec r.now.challenger =
        (.ok pathId, { r.now.challenger with
          paths := r.now.challenger.paths.replace pathId (confirmed path now) })) ∧
    (Answered r.past pathId → ∃ e,
      (handlePathResponse (Frame.pathResponse connectionId pathId (nonce pathId)) now).exec r.now.challenger =
        (.error (.err e), r.now.challenger)) := by
  obtain ⟨path, hpath⟩ := exists_lookup hmem
  have hcarries := carries_pathResponse connectionId pathId (nonce pathId)
  cases h.paths pathId path hpathId hpath with
  | waiting hunanswered houtstanding _ =>
    exact ⟨fun _ => ⟨path, hpath, exec_handlePathResponse_ok hcarries hpath houtstanding now⟩,
      fun hanswered => absurd hanswered hunanswered⟩
  | done hanswered hsettled _ =>
    refine ⟨fun hunanswered => absurd hanswered hunanswered, fun _ => ?_⟩
    have hunasked : ∀ other otherNonce otherPath,
        Carries (Frame.pathResponse connectionId pathId (nonce pathId)) other otherNonce →
          r.now.challenger.paths.lookup other = some otherPath → otherPath.challengeNonce ≠ some otherNonce := by
      intro other otherNonce otherPath hother hlookup
      obtain ⟨rfl, rfl⟩ := hcarries.eq hother
      cases hpath.symm.trans hlookup
      rw [hsettled]
      exact Option.some_ne_none _ |>.symm
    obtain ⟨stop, hexec⟩ := exec_handlePathResponse_error hunasked now
    obtain ⟨-, e, rfl⟩ := exec_refused hexec
    exact ⟨e, hexec⟩

/-- What brings no response to the challenger and does not change it. -/
theorem Agreed.quiet (h : Agreed maxPaths nonce r) {x : Exchange Addr} {event : Event Addr}
    (hchallenger : x.challenger = r.now.challenger) (hchallenges : x.challenges = r.now.challenges)
    (hresponses : ∀ octets ∈ x.responses, ∃ connectionId pathId, pathId ≠ 0 ∧ pathId ∈ r.now.challenger.paths ∧
      octets = (Frame.pathResponse connectionId pathId (nonce pathId)).encode)
    (hanswered : ∀ pathId, Answered (r.past ++ [(r.now, event)]) pathId → Answered r.past pathId) :
    Agreed maxPaths nonce ⟨x, r.past ++ [(r.now, event)]⟩ := by
  obtain ⟨challenger, answerer, challenges, responses⟩ := x
  subst hchallenger hchallenges
  refine ⟨h.cap, h.primary, h.registered, h.allocated, h.challenges, hresponses, fun pathId hpathId => ?_, ?_⟩
  · exact h.known pathId (hanswered pathId hpathId)
  · intro pathId path hpathId hpath
    have hsame : Answered (r.past ++ [(r.now, event)]) pathId ↔ Answered r.past pathId :=
      ⟨hanswered pathId, fun hold => answered_append.mpr (.inl hold)⟩
    rw [hsame]
    exact h.paths pathId path hpathId hpath

/-- A path that is new, and its challenge: every message there is is about another path. -/
theorem Agreed.new_challenge (h : Agreed maxPaths nonce r) {event : Event Addr} (hfull : r.now.challenger.full = false)
    (hsize : size r.now.challenger.paths < 256) (localAddr remoteAddr : Addr) (drawn : UInt64) (now : Instant)
    (hanswered : ∀ pathId, Answered (r.past ++ [(r.now, event)]) pathId ↔ Answered r.past pathId) :
    Agreed maxPaths (Function.update nonce r.now.challenger.nextPathId drawn)
      ⟨r.now.next (.challenge localAddr remoteAddr drawn now), r.past ++ [(r.now, event)]⟩ := by
  have hfresh := h.allocated.fresh hsize
  have hne : ∀ pathId ∈ r.now.challenger.paths, pathId ≠ r.now.challenger.nextPathId := by
    rintro pathId hmem rfl
    exact hfresh hmem
  have hnonce : ∀ pathId ∈ r.now.challenger.paths,
      Function.update nonce r.now.challenger.nextPathId drawn pathId = nonce pathId :=
    fun pathId hmem => Function.update_of_ne (hne pathId hmem) _ _
  rw [next_challenge_room hfull]
  exact {
    cap := h.cap
    primary := h.primary
    registered := (AList.mem_insert _).mpr (.inr h.registered)
    allocated := by
      have hcareful : Careful r.now.challenger (.createPathChallenge localAddr remoteAddr drawn now) := Or.inr hsize
      exact allocated_step h.allocated hcareful (.created localAddr remoteAddr drawn now hfull)
    challenges := by
      intro octets hoctets
      rcases List.mem_append.mp hoctets with hold | hnew
      · obtain ⟨connectionId, pathId, hpathId, hmem, rfl⟩ := h.challenges octets hold
        exact ⟨connectionId, pathId, hpathId, (AList.mem_insert _).mpr (.inr hmem), by rw [hnonce pathId hmem]⟩
      · rw [List.mem_singleton.mp hnew]
        refine ⟨r.now.challenger.frameConnectionId, r.now.challenger.nextPathId, (hne 0 h.registered).symm,
          (AList.mem_insert _).mpr (.inl rfl), ?_⟩
        rw [Function.update_self]
    responses := by
      intro octets hoctets
      obtain ⟨connectionId, pathId, hpathId, hmem, rfl⟩ := h.responses octets hoctets
      exact ⟨connectionId, pathId, hpathId, (AList.mem_insert _).mpr (.inr hmem), by rw [hnonce pathId hmem]⟩
    known := fun pathId hpathId => (AList.mem_insert _).mpr (.inr (h.known pathId ((hanswered pathId).mp hpathId)))
    paths := by
      intro pathId path hpathId hpath
      rw [hanswered]
      by_cases hnew : pathId = r.now.challenger.nextPathId
      · subst hnew
        cases (AList.lookup_insert _).symm.trans hpath
        rw [Function.update_self]
        exact .waiting (fun hold => hfresh (h.known _ hold)) rfl rfl
      · have hold : r.now.challenger.paths.lookup pathId = some path := (AList.lookup_insert_ne hnew).symm.trans hpath
        rw [hnonce pathId (mem_of_lookup hold)]
        exact h.paths pathId path hpathId hold }

theorem agreed_challenge (hmax : maxPaths ≤ 256) (h : Agreed maxPaths nonce r) (localAddr remoteAddr : Addr)
    (drawn : UInt64) (now : Instant) :
    ∃ nonce, Agreed maxPaths nonce ⟨r.now.next (.challenge localAddr remoteAddr drawn now),
      r.past ++ [(r.now, .challenge localAddr remoteAddr drawn now)]⟩ := by
  have hanswered : ∀ pathId, Answered (r.past ++ [(r.now, .challenge localAddr remoteAddr drawn now)]) pathId ↔
      Answered r.past pathId := by
    intro pathId
    rw [answered_append]
    exact or_iff_left (by rintro ⟨_, _, hevent, _⟩; cases hevent)
  cases hfull : r.now.challenger.full with
  | true =>
    rw [next_challenge_full hfull]
    exact ⟨nonce, h.quiet rfl rfl h.responses fun pathId => (hanswered pathId).mp⟩
  | false =>
    have hsize : size r.now.challenger.paths < 256 := by
      have hroom : size r.now.challenger.paths < r.now.challenger.maxPaths := Nat.not_le.mp (of_decide_eq_false hfull)
      rw [h.cap] at hroom
      exact Nat.lt_of_lt_of_le hroom hmax
    exact ⟨_, h.new_challenge hfull hsize localAddr remoteAddr drawn now hanswered⟩

theorem agreed_deliverChallenge (h : Agreed maxPaths nonce r) (k : Nat) (remoteAddr localAddr : Addr) (now : Instant) :
    Agreed maxPaths nonce ⟨r.now.next (.deliverChallenge k remoteAddr localAddr now),
      r.past ++ [(r.now, .deliverChallenge k remoteAddr localAddr now)]⟩ := by
  have hanswered : ∀ pathId, Answered (r.past ++ [(r.now, .deliverChallenge k remoteAddr localAddr now)]) pathId →
      Answered r.past pathId := by
    intro pathId hpathId
    refine (answered_append.mp hpathId).resolve_right ?_
    rintro ⟨_, _, hevent, _⟩
    cases hevent
  cases hk : r.now.challenges[k]? with
  | none =>
    have hnext : r.now.next (.deliverChallenge k remoteAddr localAddr now) = r.now := by
      rw [next, received, hk]
      rfl
    rw [hnext]
    exact h.quiet rfl rfl h.responses hanswered
  | some octets =>
    obtain ⟨connectionId, pathId, hpathId, hmem, hreceived⟩ := h.received_challenge hk
    rw [next_deliverChallenge hreceived (carries_pathChallenge _ _ _)]
    refine h.quiet rfl rfl (fun octets hoctets => ?_) hanswered
    rcases List.mem_append.mp hoctets with hold | hnew
    · exact h.responses octets hold
    · exact ⟨_, pathId, hpathId, hmem, List.mem_singleton.mp hnew⟩

/-- The first response for a path confirms it, and changes nothing else. -/
theorem Agreed.first_response (h : Agreed maxPaths nonce r) {event : Event Addr} {pathId : PathId} {path : PathState Addr}
    (hpath : r.now.challenger.paths.lookup pathId = some path) {now : Instant}
    (hallocated : Allocated { r.now.challenger with
      paths := r.now.challenger.paths.replace pathId (confirmed path now) })
    (hanswered : ∀ other, Answered (r.past ++ [(r.now, event)]) other ↔ Answered r.past other ∨ other = pathId) :
    Agreed maxPaths nonce ⟨{ r.now with challenger := { r.now.challenger with
      paths := r.now.challenger.paths.replace pathId (confirmed path now) } }, r.past ++ [(r.now, event)]⟩ where
  cap := h.cap
  primary := h.primary
  registered := AList.mem_replace.mpr h.registered
  allocated := hallocated
  challenges octets hoctets := by
    obtain ⟨connectionId, other, hother, hmem, heq⟩ := h.challenges octets hoctets
    exact ⟨connectionId, other, hother, AList.mem_replace.mpr hmem, heq⟩
  responses octets hoctets := by
    obtain ⟨connectionId, other, hother, hmem, heq⟩ := h.responses octets hoctets
    exact ⟨connectionId, other, hother, AList.mem_replace.mpr hmem, heq⟩
  known other hother := by
    refine AList.mem_replace.mpr ?_
    rcases (hanswered other).mp hother with hold | rfl
    · exact h.known other hold
    · exact mem_of_lookup hpath
  paths other found hother hfound := by
    rw [hanswered]
    by_cases hsame : other = pathId
    · subst hsame
      have hconfirmed := lookup_replace r.now.challenger.paths other other (confirmed path now)
      rw [if_pos rfl, hpath] at hconfirmed
      cases hconfirmed.symm.trans hfound
      exact .done (.inr rfl) rfl rfl
    · have hold : r.now.challenger.paths.lookup other = some found := (lookup_replace_ne hsame _).symm.trans hfound
      rw [or_iff_left hsame]
      exact h.paths other found hother hold

theorem agreed_deliverResponse (h : Agreed maxPaths nonce r) (k : Nat) (now : Instant) :
    Agreed maxPaths nonce ⟨r.now.next (.deliverResponse k now), r.past ++ [(r.now, .deliverResponse k now)]⟩ := by
  cases hk : r.now.responses[k]? with
  | none =>
    have hreceived : received r.now.responses k = none := by
      rw [received, hk]
      rfl
    have hnext : r.now.next (.deliverResponse k now) = r.now := by rw [next, hreceived]
    rw [hnext]
    refine h.quiet rfl rfl h.responses fun pathId hanswered => ?_
    refine (answered_append.mp hanswered).resolve_right ?_
    rintro ⟨_, _, hevent, hnamed⟩
    cases hevent
    rw [hreceived] at hnamed
    cases hnamed
  | some octets =>
    obtain ⟨connectionId, pathId, hpathId, hmem, hreceived⟩ := h.received_response hk
    have hanswered : ∀ other, Answered (r.past ++ [(r.now, .deliverResponse k now)]) other ↔
        Answered r.past other ∨ other = pathId := by
      intro other
      rw [answered_append]
      refine or_congr_right ⟨?_, ?_⟩
      · rintro ⟨_, _, hevent, hnamed⟩
        cases hevent
        rw [hreceived, namedBy_eq_some] at hnamed
        exact (Except.ok.inj hnamed).symm
      · rintro rfl
        exact ⟨k, now, rfl, by rw [hreceived, namedBy_eq_some]; rfl⟩
    have hresponse := h.response hpathId hmem connectionId now
    rw [next_deliverResponse hreceived]
    by_cases hfirst : Answered r.past pathId
    · -- It has had its response; the path stays as it is.
      obtain ⟨e, hexec⟩ := hresponse.2 hfirst
      rw [hexec]
      refine h.quiet rfl rfl h.responses fun other hother => ?_
      rcases (hanswered other).mp hother with hold | rfl
      · exact hold
      · exact hfirst
    · obtain ⟨path, hpath, hexec⟩ := hresponse.1 hfirst
      have hoperation : Careful r.now.challenger
          (.handlePathResponse (Frame.pathResponse connectionId pathId (nonce pathId)) now) := trivial
      have hallocated := allocated_step h.allocated hoperation (changes _ _)
      rw [PathManager.next, Operation.perform, exec_bind_pure, hexec] at hallocated
      rw [hexec]
      exact h.first_response hpath hallocated hanswered

theorem agreed_step (hmax : maxPaths ≤ 256) (h : Agreed maxPaths nonce r) (event : Event Addr) :
    ∃ nonce, Agreed maxPaths nonce ⟨r.now.next event, r.past ++ [(r.now, event)]⟩ := by
  cases event with
  | challenge localAddr remoteAddr drawn now => exact agreed_challenge hmax h localAddr remoteAddr drawn now
  | deliverChallenge k remoteAddr localAddr now => exact ⟨nonce, agreed_deliverChallenge h k remoteAddr localAddr now⟩
  | deliverResponse k now => exact ⟨nonce, agreed_deliverResponse h k now⟩

/-- Where paths and messages agree, path validation does what it is to do. -/
theorem Agreed.validated (h : Agreed maxPaths nonce r) : Validated r where
  challenges := by
    intro k hk
    obtain ⟨connectionId, pathId, _, hmem, hreceived⟩ := h.received_challenge (List.getElem?_eq_getElem hk)
    exact ⟨pathId, hmem, by rw [hreceived, namedBy_eq_some]; rfl⟩
  responses := by
    intro k hk
    obtain ⟨connectionId, pathId, _, hmem, hreceived⟩ := h.received_response (List.getElem?_eq_getElem hk)
    exact ⟨pathId, hmem, by rw [hreceived, namedBy_eq_some]; rfl⟩
  answers := by
    intro k remoteAddr localAddr now frame pathId hreceived hframe
    obtain ⟨octets, hk, _⟩ := received_eq_some.mp hreceived
    obtain ⟨connectionId, other, _, _, hother⟩ := h.received_challenge hk
    cases hother.symm.trans hreceived
    cases hframe
    exact ⟨_, _, exec_handlePathChallenge_ok (carries_pathChallenge _ _ _) remoteAddr localAddr now⟩
  first := by
    intro k now frame pathId hreceived hframe hunanswered
    obtain ⟨octets, hk, _⟩ := received_eq_some.mp hreceived
    obtain ⟨connectionId, other, hpathId, hmem, hother⟩ := h.received_response hk
    cases hother.symm.trans hreceived
    cases hframe
    obtain ⟨path, hpath, hexec⟩ := (h.response hpathId hmem connectionId now).1 hunanswered
    refine ⟨_, confirmed path now, hexec, ?_, rfl⟩
    rw [lookup_replace, if_pos rfl, hpath]
    rfl
  later := by
    intro k now frame pathId hreceived hframe hanswered
    obtain ⟨octets, hk, _⟩ := received_eq_some.mp hreceived
    obtain ⟨connectionId, other, hpathId, hmem, hother⟩ := h.received_response hk
    cases hother.symm.trans hreceived
    cases hframe
    exact (h.response hpathId hmem connectionId now).2 hanswered
  active := by
    intro pathId path hpath hactive hpathId
    rw [h.primary] at hpathId
    cases h.paths pathId path hpathId hpath with
    | waiting _ _ hinactive =>
      rw [hinactive] at hactive
      cases hactive
    | done hanswered => exact hanswered
  separate := fun event other hother => next_separate r.now event other hother

/-- **For every order, loss and duplication of the frames, paths are validated by the
first response for each, and by nothing else.** -/
theorem path_validation (connectionId : UInt64) {maxPaths : Nat} (hmax : maxPaths ≤ 256) (localAddr remoteAddr : Addr)
    (now : Instant) (answerer : PathManager Addr) {r : Recorded (Exchange Addr) (Event Addr)}
    (h : Reached (Recorded.step step) (fun _ _ => True)
      (.fresh (init connectionId maxPaths localAddr remoteAddr now answerer)) r) : Validated r := by
  have hagreed : ∃ nonce, Agreed maxPaths nonce r := by
    refine h.invariant (I := fun r => ∃ nonce, Agreed maxPaths nonce r) ?_ ?_
    · exact ⟨fun _ => 0, agreed_init connectionId maxPaths localAddr remoteAddr now answerer _⟩
    · rintro r event r' ⟨nonce, hr⟩ _ hstep
      obtain ⟨x, hx, rfl⟩ := Recorded.step_eq_some.mp hstep
      cases hx
      exact agreed_step hmax hr event
  obtain ⟨nonce, hr⟩ := hagreed
  exact hr.validated

/-- Two paths, the second validated first and its response delivered twice. -/
def sampleExchange : Recorded (Exchange Nat) (Event Nat) :=
  .after next (init 0xABCD 4 9000 9001 0 (new 0xABCD 4))
    [.challenge 10000 10001 5 0, .challenge 20000 20001 6 0, .deliverChallenge 1 20000 20001 0, .deliverResponse 0 0,
      .deliverResponse 0 0, .deliverChallenge 0 10000 10001 0]

theorem path_validation_sample : Validated sampleExchange :=
  path_validation 0xABCD (by decide) 9000 9001 0 (new 0xABCD 4) (Recorded.reached_after (fun _ _ => rfl) _ _)

end Exchange

end Aether.PathManager
