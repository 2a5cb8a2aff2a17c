import Aether.Path.Operations

/-! What activates a path.

A path that we challenged is to become active by its own response: a `PathResponse`
with its ID and the nonce that was drawn for it. The run says whether that has come
(`standing`), and the table agrees with it as long as no challenge names a path that
waits for a response, and no frame of another type is taken for one. Those are the
calls after which a path is active without a response (`activation_iff`). -/
namespace Aether.PathManager
open Octets Octets.Method
variable {Addr : Type}

/-! ### What has happened to a path -/

/-- Of a path that we challenged: the nonce, and whether its response has been accepted. -/
structure Standing where
  nonce : UInt64
  answered : Bool

/-- The call creates the path, if it succeeds. -/
def creates (m : PathManager Addr) (localAddr remoteAddr : Addr) (nonce : UInt64) (now : Instant) : Option PathId :=
  ((createPathChallenge localAddr remoteAddr nonce now).exec m).1.toOption.map Prod.snd

/-- The call accepts the path's response: the frame is one, and has the nonce. -/
def Accepts (m : PathManager Addr) (frame : Frame) (now : Instant) (pathId : PathId) (nonce : UInt64) : Prop :=
  frame.header.frameType = .pathResponse ∧ UInt64.ofNat (ofBe (frame.payload.take 8)) = nonce ∧
    ((handlePathResponse frame now).exec m).1.toOption = some pathId

instance (m : PathManager Addr) (frame : Frame) (now : Instant) (pathId : PathId) (nonce : UInt64) :
    Decidable (Accepts m frame now pathId nonce) :=
  inferInstanceAs (Decidable (_ ∧ _ ∧ _))

/-- What a call changes in the standing of a path. -/
def Standing.after (pathId : PathId) (standing : Option Standing) (m : PathManager Addr) :
    Operation Addr → Option Standing
  | .registerPrimary _ _ _ => if pathId = 0 then none else standing
  | .createPathChallenge localAddr remoteAddr nonce now =>
    if creates m localAddr remoteAddr nonce now = some pathId then some ⟨nonce, false⟩ else standing
  | .handlePathResponse frame now =>
    standing.map fun s => if Accepts m frame now pathId s.nonce then { s with answered := true } else s
  | _ => standing

/-- The standing of a path after what was called: `none` for one that we did not challenge. -/
def standing (pathId : PathId) (past : List (PathManager Addr × Operation Addr)) : Option Standing :=
  past.foldl (fun standing x => Standing.after pathId standing x.1 x.2) none

theorem standing_append (pathId : PathId) (past : List (PathManager Addr × Operation Addr)) (m : PathManager Addr)
    (operation : Operation Addr) :
    standing pathId (past ++ [(m, operation)]) = Standing.after pathId (standing pathId past) m operation := by
  rw [standing, List.foldl_append]
  rfl

/-- What is asked of a call. -/
structure Lawful (r : Recorded (PathManager Addr) (Operation Addr)) (operation : Operation Addr)
    (r' : Recorded (PathManager Addr) (Operation Addr)) : Prop where
  /-- A path that we challenged is active only after its response. -/
  active : ∀ pathId path s, r'.now.paths.lookup pathId = some path → standing pathId r'.past = some s →
    path.active = true → s.answered = true
  /-- A challenge from the peer leaves a path alone whose nonce is outstanding. -/
  undisturbed : ∀ frame remoteAddr localAddr now, operation = .handlePathChallenge frame remoteAddr localAddr now →
    ∀ pathId path nonce, r.now.paths.lookup pathId = some path → path.challengeNonce = some nonce →
      ∃ path', r'.now.paths.lookup pathId = some path' ∧ path'.active = path.active ∧
        path'.remoteAddr = path.remoteAddr

/-- No challenge names a path that waits for its response, and only a `PathResponse` is
taken for one. -/
def Proper (m : PathManager Addr) : Operation Addr → Prop
  | .handlePathChallenge frame _ _ _ => ∀ pathId nonce path, Carries frame pathId nonce →
    m.paths.lookup pathId = some path → path.challengeNonce = none
  | .handlePathResponse frame _ => frame.header.frameType = .pathResponse ∨
    ∀ pathId nonce path, Carries frame pathId nonce → m.paths.lookup pathId = some path →
      path.challengeNonce ≠ some nonce
  | _ => True

/-! ### The table and the run -/

/-- What is found under an ID and the standing of the path agree: the nonce that is
outstanding is the one the run says, on an inactive path. -/
structure Agrees (found : Option (PathState Addr)) (standing : Option Standing) : Prop where
  known : standing ≠ none → found ≠ none
  outstanding : ∀ path nonce, found = some path → (path.challengeNonce = some nonce ↔ standing = some ⟨nonce, false⟩)
  inactive : ∀ path nonce, found = some path → path.challengeNonce = some nonce → path.active = false

def Linked (r : Recorded (PathManager Addr) (Operation Addr)) : Prop :=
  ∀ pathId, Agrees (r.now.paths.lookup pathId) (standing pathId r.past)

/-- A path with no nonce agrees with any standing but that of an outstanding one. -/
theorem agrees_settled {path : PathState Addr} (hpath : path.challengeNonce = none) {standing : Option Standing}
    (h : ∀ nonce, standing ≠ some ⟨nonce, false⟩) : Agrees (some path) standing where
  known := fun _ => nofun
  outstanding := by
    rintro _ nonce ⟨⟩
    rw [hpath]
    exact iff_of_false nofun (h nonce)
  inactive := by
    rintro _ nonce ⟨⟩ hnonce
    rw [hpath] at hnonce
    cases hnonce

/-- A path that is active and was challenged has had its response. -/
theorem Agrees.answered {found : Option (PathState Addr)} {standing : Option Standing} (h : Agrees found standing)
    {path : PathState Addr} {s : Standing} (hpath : found = some path) (hstanding : standing = some s)
    (hactive : path.active = true) : s.answered = true := by
  obtain ⟨nonce, answered⟩ := s
  cases answered with
  | true => rfl
  | false =>
    have hinactive := h.inactive path nonce hpath ((h.outstanding path nonce hpath).mpr hstanding)
    rw [hinactive] at hactive
    cases hactive

/-- What is recorded of a path is nothing of this. -/
theorem Agrees.noted {found : Option (PathState Addr)} {standing : Option Standing} (h : Agrees found standing)
    {change : PathState Addr → PathState Addr} (hnoted : ∀ path, Noted path (change path)) :
    Agrees (found.map change) standing where
  known := fun hstanding hfound => h.known hstanding (Option.map_eq_none_iff.mp hfound)
  outstanding := by
    intro path nonce hpath
    obtain ⟨before, hbefore, rfl⟩ := Option.map_eq_some_iff.mp hpath
    rw [(hnoted before).challengeNonce]
    exact h.outstanding before nonce hbefore
  inactive := by
    intro path nonce hpath hnonce
    obtain ⟨before, hbefore, rfl⟩ := Option.map_eq_some_iff.mp hpath
    rw [(hnoted before).challengeNonce] at hnonce
    have hinactive := h.inactive before nonce hbefore hnonce
    cases hactive : (change before).active with
    | false => rfl
    | true =>
      rw [(hnoted before).active hactive] at hinactive
      cases hinactive

theorem after_of_notes {operation : Operation Addr} (h : operation.notes = true) (pathId : PathId)
    (standing : Option Standing) (m : PathManager Addr) : Standing.after pathId standing m operation = standing := by
  cases operation with
  | registerPrimary => cases h
  | createPathChallenge => cases h
  | handlePathResponse => cases h
  | _ => rfl

/-- A call that does not accept the path's response. -/
theorem after_of_not_accepts {m : PathManager Addr} {frame : Frame} {now : Instant} {pathId : PathId}
    (h : ∀ nonce, ¬ Accepts m frame now pathId nonce) (standing : Option Standing) :
    Standing.after pathId standing m (.handlePathResponse frame now) = standing := by
  rw [Standing.after]
  cases standing with
  | none => rfl
  | some s => rw [Option.map_some, if_neg (h s.nonce)]

theorem creates_full {m : PathManager Addr} (h : m.full = true) (localAddr remoteAddr : Addr) (nonce : UInt64)
    (now : Instant) : creates m localAddr remoteAddr nonce now = none := by
  rw [creates, exec_createPathChallenge_full h]
  rfl

theorem creates_room {m : PathManager Addr} (h : m.full = false) (localAddr remoteAddr : Addr) (nonce : UInt64)
    (now : Instant) : creates m localAddr remoteAddr nonce now = some m.nextPathId := by
  rw [creates, exec_createPathChallenge_room h]
  rfl

/-- A path is put in the table: it agrees itself, and the others stand as they did. -/
theorem Agrees.insert {paths : AList fun _ : PathId => PathState Addr} {pathId new : PathId} {path : PathState Addr}
    {standing standing' : Option Standing} (h : Agrees (paths.lookup pathId) standing)
    (hnew : pathId = new → Agrees (some path) standing') (hother : pathId ≠ new → standing' = standing) :
    Agrees ((paths.insert new path).lookup pathId) standing' := by
  by_cases hpathId : pathId = new
  · rw [hpathId, AList.lookup_insert]
    exact hnew hpathId
  · rw [AList.lookup_insert_ne hpathId, hother hpathId]
    exact h

theorem agrees_challenging (pathId : PathId) (localAddr remoteAddr : Addr) (nonce : UInt64) (now : Instant) :
    Agrees (some (challenging pathId localAddr remoteAddr nonce now)) (some ⟨nonce, false⟩) := by
  refine ⟨fun _ => nofun, ?_, ?_⟩
  · rintro _ other ⟨⟩
    simp [challenging]
  · rintro _ other ⟨⟩ _
    rfl

section
variable {m : PathManager Addr} {pathId : PathId} {standing : Option Standing}

/-- The response of a path settles it. -/
theorem agrees_confirmed (h : Agrees (m.paths.lookup pathId) standing) {frame : Frame} {now : Instant} {nonce : UInt64}
    {path : PathState Addr} (hcarries : Carries frame pathId nonce) (hpath : m.paths.lookup pathId = some path)
    (houtstanding : path.challengeNonce = some nonce) (htype : frame.header.frameType = .pathResponse) :
    Agrees (some (confirmed path now)) (Standing.after pathId standing m (.handlePathResponse frame now)) := by
  refine agrees_settled rfl fun another => ?_
  -- The nonce that is outstanding is the frame's, so this is the path's response.
  have haccepts : Accepts m frame now pathId nonce :=
    ⟨htype, hcarries.2.2.symm, by rw [exec_handlePathResponse_ok hcarries hpath houtstanding]; rfl⟩
  rw [(h.outstanding path nonce hpath).mp houtstanding, Standing.after, Option.map_some, if_pos haccepts]
  exact fun hsame => Bool.noConfusion (congrArg Standing.answered (Option.some.inj hsame))

/-- A challenge from the peer makes a path, or takes one that waits for nothing. -/
theorem agrees_answering (h : Agrees (m.paths.lookup pathId) standing)
    (hsettled : ∀ path, m.paths.lookup pathId = some path → path.challengeNonce = none) (remoteAddr localAddr : Addr)
    (now : Instant) : Agrees (some (m.answering pathId remoteAddr localAddr now)) standing := by
  cases hpath : m.paths.lookup pathId with
  | none =>
    have hnone : standing = none := by
      by_contra hsome
      exact h.known hsome hpath
    refine agrees_settled (by rw [answering, hpath]; rfl) fun _ => ?_
    rw [hnone]
    exact nofun
  | some path =>
    refine agrees_settled (by rw [answering, hpath]; exact hsettled path hpath) fun another hsame => ?_
    have houtstanding := (h.outstanding path another hpath).mpr hsame
    rw [hsettled path hpath] at houtstanding
    cases houtstanding

/-- **One proper call keeps the table and the run in agreement.** -/
theorem agrees_step {m' : PathManager Addr} {operation : Operation Addr} (hchanges : Changes m operation m')
    (hproper : Proper m operation) (h : Agrees (m.paths.lookup pathId) standing) :
    Agrees (m'.paths.lookup pathId) (Standing.after pathId standing m operation) := by
  cases hchanges with
  | registered localAddr remoteAddr now =>
    refine h.insert (fun hpathId => ?_) fun hpathId => ?_
    · rw [Standing.after, if_pos hpathId]
      exact agrees_settled rfl fun _ => nofun
    · rw [Standing.after, if_neg hpathId]
  | refused localAddr remoteAddr nonce now full =>
    rw [Standing.after, creates_full full, if_neg nofun]
    exact h
  | created localAddr remoteAddr nonce now room =>
    rw [Standing.after, creates_room room]
    refine h.insert (fun hpathId => ?_) fun hpathId => ?_
    · rw [if_pos (congrArg some hpathId.symm)]
      exact agrees_challenging _ localAddr remoteAddr nonce now
    · rw [if_neg fun hsame => hpathId (Option.some.inj hsame).symm]
  | unanswered frame now unasked =>
    obtain ⟨e, hexec⟩ := exec_handlePathResponse_error unasked now
    rw [after_of_not_accepts fun nonce haccepts => by rw [Accepts, hexec] at haccepts; cases haccepts.2.2]
    exact h
  | answered frame now other nonce path carries present outstanding =>
    by_cases hpathId : pathId = other
    · subst hpathId
      rw [lookup_replace, if_pos rfl, present]
      have htype := hproper.resolve_right fun hunasked => hunasked pathId nonce path carries present outstanding
      exact agrees_confirmed h carries present outstanding htype
    · rw [lookup_replace_ne hpathId, after_of_not_accepts]
      · exact h
      · intro _ haccepts
        rw [Accepts, exec_handlePathResponse_ok carries present outstanding now] at haccepts
        exact hpathId (Option.some.inj haccepts.2.2).symm
  | malformed => exact h
  | challenged frame remoteAddr localAddr now other nonce carries =>
    refine h.insert (fun hpathId => ?_) fun _ => rfl
    subst hpathId
    exact agrees_answering h (fun path hpath => hproper pathId nonce path carries hpath) remoteAddr localAddr now
  | noted _ change paths notes _ lookup keeps =>
    rw [after_of_notes notes, lookup]
    exact h.noted (keeps pathId)

end

/-! ### A run -/

section
variable {r : Recorded (PathManager Addr) (Operation Addr)} {operation : Operation Addr}

theorem linked_new (connectionId : UInt64) (maxPaths : Nat) :
    Linked (.fresh (new connectionId maxPaths : PathManager Addr)) :=
  fun _ => ⟨fun h => absurd rfl h, fun _ _ h => (by cases h), fun _ _ h => (by cases h)⟩

theorem linked_step (h : Linked r) (hproper : Proper r.now operation) :
    Linked ⟨r.now.next operation, r.past ++ [(r.now, operation)]⟩ := by
  intro pathId
  show Agrees ((r.now.next operation).paths.lookup pathId) (standing pathId (r.past ++ [(r.now, operation)]))
  rw [standing_append]
  exact agrees_step (changes r.now operation) hproper (h pathId)

theorem lawful_of_proper (h : Linked r) (hproper : Proper r.now operation) :
    Lawful r operation ⟨r.now.next operation, r.past ++ [(r.now, operation)]⟩ where
  active := fun pathId _ _ hpath hstanding => (linked_step h hproper pathId).answered hpath hstanding
  undisturbed := by
    rintro frame remoteAddr localAddr now rfl pathId path nonce hpath hnonce
    refine ⟨path, ?_, rfl, rfl⟩
    have hchanges := changes r.now (.handlePathChallenge frame remoteAddr localAddr now)
    generalize r.now.next (.handlePathChallenge frame remoteAddr localAddr now) = m' at hchanges ⊢
    cases hchanges with
    | malformed => exact hpath
    | challenged _ _ _ _ other _ carries =>
      refine (AList.lookup_insert_ne ?_).trans hpath
      rintro rfl
      rw [hproper pathId _ path carries hpath] at hnonce
      cases hnonce
    | noted _ _ _ notes => cases notes

theorem proper_of_lawful (h : Linked r)
    (hlawful : Lawful r operation ⟨r.now.next operation, r.past ++ [(r.now, operation)]⟩) : Proper r.now operation := by
  cases operation with
  | handlePathChallenge frame remoteAddr localAddr now =>
    intro pathId nonce path hcarries hpath
    cases hnonce : path.challengeNonce with
    | none => rfl
    | some drawn =>
      -- The path would be active, and its response has not come.
      have hstanding := ((h pathId).outstanding path drawn hpath).mp hnonce
      have hlookup : (r.now.next (.handlePathChallenge frame remoteAddr localAddr now)).paths.lookup pathId =
          some (r.now.answering pathId remoteAddr localAddr now) := by
        rw [next, Operation.perform, exec_bind_ok (exec_handlePathChallenge_ok hcarries remoteAddr localAddr now)]
        exact AList.lookup_insert _
      have hanswered := hlawful.active pathId _ _ hlookup ((standing_append ..).trans hstanding) rfl
      cases hanswered
  | handlePathResponse frame now =>
    by_cases htype : frame.header.frameType = .pathResponse
    · exact .inl htype
    · refine .inr fun pathId nonce path hcarries hpath hnonce => ?_
      have hstanding := ((h pathId).outstanding path nonce hpath).mp hnonce
      have hlookup : (r.now.next (.handlePathResponse frame now)).paths.lookup pathId = some (confirmed path now) := by
        rw [next, Operation.perform, exec_bind_pure, exec_handlePathResponse_ok hcarries hpath hnonce, lookup_replace,
          if_pos rfl, hpath]
        rfl
      have hnot : ∀ drawn, ¬ Accepts r.now frame now pathId drawn := fun _ haccepts => htype haccepts.1
      have hsame := after_of_not_accepts hnot (standing pathId r.past)
      have hanswered := hlawful.active pathId _ _ hlookup ((standing_append ..).trans (hsame.trans hstanding)) rfl
      cases hanswered
  | _ => trivial

end

/-- **Paths are activated by their own responses alone as long as the calls are proper,
and no longer.** -/
theorem activation_iff (connectionId : UInt64) (maxPaths : Nat) (operations : List (Operation Addr)) :
    Throughout (Recorded.step step)
        (fun r operation => ∀ r', Recorded.step step r operation = some r' → Lawful r operation r')
        (.fresh (new connectionId maxPaths)) operations ↔
      Throughout (Recorded.step step) (fun r operation => Proper r.now operation)
        (.fresh (new connectionId maxPaths)) operations := by
  refine throughout_iff (I := Linked) ?_ ?_ (linked_new connectionId maxPaths) operations
  · intro r operation h
    constructor
    · exact fun hlawful => proper_of_lawful h (hlawful _ rfl)
    · intro hproper r' hstep
      cases hstep
      exact lawful_of_proper h hproper
  · intro r operation r' h hlawful hstep
    obtain ⟨m, hm, rfl⟩ := Recorded.step_eq_some.mp hstep
    cases hm
    exact linked_step h (proper_of_lawful h (hlawful _ hstep))

/-- Our own challenge comes back to us, and is answered or taken for its answer. -/
theorem activated_reflected :
    ¬ Throughout (Recorded.step step)
        (fun r operation => ∀ r', Recorded.step step r operation = some r' → Lawful r operation r')
        (.fresh (new 0xABCD 4 : PathManager Nat))
        [.createPathChallenge 10000 10001 5 0, .handlePathChallenge (Frame.pathChallenge 0 1 5) 666 667 0] ∧
    ¬ Throughout (Recorded.step step)
        (fun r operation => ∀ r', Recorded.step step r operation = some r' → Lawful r operation r')
        (.fresh (new 0xABCD 4 : PathManager Nat))
        [.createPathChallenge 10000 10001 5 0, .handlePathResponse (Frame.pathChallenge 0 1 5) 0] := by
  constructor
  · intro h
    have hlawful := (h.2 _ rfl).1 _ rfl
    cases hlawful.active 1 _ _ rfl rfl rfl
  · intro h
    have hlawful := (h.2 _ rfl).1 _ rfl
    cases hlawful.active 1 _ _ rfl rfl rfl

end Aether.PathManager
