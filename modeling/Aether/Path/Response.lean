import Aether.Path.Operations

/-! Which responses are accepted, and how often.

A response is accepted for the path that its first PathId extension names, if that path
waits for the nonce at the beginning of the payload. It then waits for none (`Settled`),
and of all that is called only a new challenge under the same ID makes it wait again, so
the frame that was accepted is not accepted a second time (`response_exact`). -/
namespace Aether.PathManager
open Octets Octets.Method
variable {Addr : Type}

/-! ### The ID of a path -/

/-- The first PathId extension has an octet, and the first one is the ID. -/
def Names (frame : Frame) (pathId : PathId) : Prop :=
  ∃ ext, frame.extensions.find? (fun ext => ext.extType = .pathId) = some ext ∧ ext.value.head? = some pathId

theorem extractFrom_eq_ok {extensions : List Extension} {pathId : PathId} :
    extractFrom extensions = .ok pathId ↔
      ∃ ext, extensions.find? (fun ext => ext.extType = .pathId) = some ext ∧ ext.value.head? = some pathId := by
  induction extensions with
  | nil =>
    constructor
    · intro h
      cases h
    · intro h
      obtain ⟨_, hfind, _⟩ := h
      cases hfind
  | cons ext rest ih =>
    rw [extractFrom]
    by_cases htype : ext.extType = .pathId
    · have hfind : (ext :: rest).find? (fun ext => ext.extType = .pathId) = some ext :=
        List.find?_cons_of_pos (decide_eq_true htype)
      rw [if_pos htype, hfind]
      cases hvalue : ext.value with
      | nil => simp [hvalue, fail]
      | cons b bs => simp [hvalue]
    · have hfind : (ext :: rest).find? (fun ext => ext.extType = .pathId) =
          rest.find? (fun ext => ext.extType = .pathId) := List.find?_cons_of_neg (by simpa using htype)
      rw [if_neg htype, hfind]
      exact ih

/-- A frame names one path. -/
theorem Names.eq {frame : Frame} {pathId pathId' : PathId} (h : Names frame pathId) (h' : Names frame pathId') :
    pathId' = pathId :=
  Except.ok.inj ((extractFrom_eq_ok.mpr h').symm.trans (extractFrom_eq_ok.mpr h))

theorem safe_extractFrom (extensions : List Extension) : Safe (extractFrom extensions) := by
  induction extensions with
  | nil => exact safe_err _
  | cons ext rest ih =>
    rw [extractFrom]
    by_cases htype : ext.extType = .pathId
    · rw [if_pos htype]
      cases ext.value with
      | nil => exact safe_err _
      | cons b bs => exact safe_ok b
    · rw [if_neg htype]
      exact ih

theorem safe_payloadNonce (tooShort : String) (frame : Frame) : Safe (payloadNonce tooShort frame) := by
  by_cases hlength : 8 ≤ frame.payload.length
  · rw [payloadNonce_of_le tooShort hlength]
    exact safe_ok _
  · rw [payloadNonce_of_lt tooShort (Nat.not_le.mp hlength)]
    exact safe_err _

/-- No frame aborts the manager. -/
theorem total_handlePathResponse (frame : Frame) (now : Instant) :
    Total (handlePathResponse frame now : Action (PathManager Addr) PathId) := by
  refine total_bind (total_lift (safe_extractFrom _)) fun pathId => ?_
  refine total_bind (total_lift (safe_payloadNonce _ frame)) fun nonce => ?_
  refine total_bind total_get fun m => ?_
  cases m.paths.lookup pathId with
  | none => exact total_err _
  | some path =>
    simp only
    split
    · exact total_err _
    · exact total_bind (total_set _) fun _ => total_pure _

/-! ### What is accepted -/

/-- The frame is the answer to the challenge of a path. -/
structure Answers (m : PathManager Addr) (frame : Frame) (pathId : PathId) (path : PathState Addr) : Prop where
  names : Names frame pathId
  payload : 8 ≤ frame.payload.length
  present : m.paths.lookup pathId = some path
  outstanding : path.challengeNonce = some (UInt64.ofNat (ofBe (frame.payload.take 8)))

theorem answers_iff {m : PathManager Addr} {frame : Frame} {pathId : PathId} {path : PathState Addr} :
    Answers m frame pathId path ↔
      ∃ nonce, Carries frame pathId nonce ∧ m.paths.lookup pathId = some path ∧ path.challengeNonce = some nonce := by
  constructor
  · intro h
    exact ⟨_, ⟨extractFrom_eq_ok.mpr h.names, h.payload, rfl⟩, h.present, h.outstanding⟩
  · intro h
    obtain ⟨_, ⟨hid, hlength, rfl⟩, hpresent, houtstanding⟩ := h
    exact ⟨extractFrom_eq_ok.mp hid, hlength, hpresent, houtstanding⟩

/-- A response is accepted or leaves the manager as it is. -/
theorem response_cases (m : PathManager Addr) (frame : Frame) (now : Instant) :
    (∃ pathId path, Answers m frame pathId path ∧ (handlePathResponse frame now).exec m =
      (.ok pathId, { m with paths := m.paths.replace pathId (confirmed path now) })) ∨
    ((∀ pathId path, ¬ Answers m frame pathId path) ∧
      ∃ e, (handlePathResponse frame now).exec m = (.error (.err e), m)) := by
  rcases handlePathResponse_cases m frame now with ⟨pathId, nonce, path, hcarries, hpath, hnonce, hexec⟩ |
    ⟨hunasked, stop, hexec⟩
  · exact .inl ⟨pathId, path, answers_iff.mpr ⟨nonce, hcarries, hpath, hnonce⟩, hexec⟩
  · refine .inr ⟨fun pathId path h => ?_, ?_⟩
    · obtain ⟨nonce, hcarries, hpath, hnonce⟩ := answers_iff.mp h
      exact hunasked pathId nonce path hcarries hpath hnonce
    · have hsafe := total_handlePathResponse frame now m
      rw [hexec] at hsafe
      cases stop with
      | err e => exact ⟨e, hexec⟩
      | panic => exact absurd rfl hsafe

theorem accepted_iff {m : PathManager Addr} {frame : Frame} {now : Instant} {pathId : PathId} :
    ((handlePathResponse frame now).exec m).1 = .ok pathId ↔ ∃ path, Answers m frame pathId path := by
  rcases response_cases m frame now with ⟨named, path, hanswers, hexec⟩ | ⟨hnone, e, hexec⟩
  · rw [hexec]
    constructor
    · intro h
      cases h
      exact ⟨path, hanswers⟩
    · intro h
      obtain ⟨_, hother⟩ := h
      exact congrArg Except.ok (hother.names.eq hanswers.names)
  · rw [hexec]
    refine iff_of_false nofun fun h => ?_
    obtain ⟨path, hanswers⟩ := h
    exact hnone pathId path hanswers

/-- What a response that is accepted leaves. -/
theorem exec_accepted {m m' : PathManager Addr} {frame : Frame} {now : Instant} {pathId : PathId}
    (h : (handlePathResponse frame now).exec m = (.ok pathId, m')) :
    ∃ path, Answers m frame pathId path ∧ m' = { m with paths := m.paths.replace pathId (confirmed path now) } := by
  rcases response_cases m frame now with ⟨named, path, hanswers, hexec⟩ | ⟨_, e, hexec⟩
  · cases hexec.symm.trans h
    exact ⟨path, hanswers, rfl⟩
  · cases hexec.symm.trans h

theorem exec_refused {m m' : PathManager Addr} {frame : Frame} {now : Instant} {stop : Stop Error}
    (h : (handlePathResponse frame now).exec m = (.error stop, m')) : m' = m ∧ ∃ e, stop = .err e := by
  rcases response_cases m frame now with ⟨named, path, _, hexec⟩ | ⟨_, e, hexec⟩
  · cases hexec.symm.trans h
  · cases hexec.symm.trans h
    exact ⟨rfl, e, rfl⟩

theorem Answers.lookup_replace {m : PathManager Addr} {frame : Frame} {pathId : PathId} {path : PathState Addr}
    (h : Answers m frame pathId path) (value : PathState Addr) (other : PathId) :
    (m.paths.replace pathId value).lookup other = if other = pathId then some value else m.paths.lookup other := by
  rw [Octets.lookup_replace, h.present]
  rfl

/-! ### Used once -/

/-- The path, if it is there, waits for no response. -/
def Settled (m : PathManager Addr) (pathId : PathId) : Prop :=
  ∀ path, m.paths.lookup pathId = some path → path.challengeNonce = none

/-- The call issues a new challenge under the ID. -/
def Challenges (m : PathManager Addr) (pathId : PathId) : Operation Addr → Prop
  | .createPathChallenge localAddr remoteAddr nonce now =>
    ∃ frame, ((createPathChallenge localAddr remoteAddr nonce now).exec m).1 = .ok (frame, pathId)
  | _ => False

/-- A path that is put in waits for no response, or another one was put in. -/
theorem Settled.insert {m : PathManager Addr} {pathId other : PathId} {path : PathState Addr} (h : Settled m pathId)
    (hpath : other = pathId → path.challengeNonce = none) (m' : PathManager Addr)
    (hpaths : m'.paths = m.paths.insert other path) : Settled m' pathId := by
  intro found hfound
  rw [hpaths] at hfound
  by_cases hother : other = pathId
  · subst hother
    rw [AList.lookup_insert] at hfound
    cases hfound
    exact hpath rfl
  · rw [AList.lookup_insert_ne (Ne.symm hother)] at hfound
    exact h found hfound

/-- **Only a new challenge makes a settled path wait.** -/
theorem settled_step {m : PathManager Addr} {pathId : PathId} (h : Settled m pathId) {operation : Operation Addr}
    (hnew : ¬ Challenges m pathId operation) : Settled (m.next operation) pathId := by
  have hchanges := changes m operation
  generalize m.next operation = m' at hchanges
  cases hchanges with
  | registered localAddr remoteAddr now => exact h.insert (fun _ => rfl) _ rfl
  | refused => exact h
  | created localAddr remoteAddr nonce now room =>
    refine h.insert (fun hsame => absurd ?_ hnew) _ rfl
    rw [Challenges, exec_createPathChallenge_room room, hsame]
    exact ⟨_, rfl⟩
  | unanswered => exact h
  | answered frame now other nonce path =>
    intro found hfound
    rcases lookup_replace_eq_some hfound with ⟨_, rfl⟩ | hfound
    · rfl
    · exact h found hfound
  | malformed => exact h
  | challenged frame remoteAddr localAddr now other nonce carries =>
    refine h.insert (fun hsame => ?_) _ rfl
    subst hsame
    rw [answering]
    cases hpath : m.paths.lookup other with
    | none => rfl
    | some path => exact h path hpath
  | noted _ change paths notes count lookup keeps =>
    intro found hfound
    obtain ⟨path, hpath, rfl⟩ := Option.map_eq_some_iff.mp ((lookup pathId).symm.trans hfound)
    rw [(keeps pathId path).challengeNonce]
    exact h path hpath

theorem settled_run {m : PathManager Addr} {pathId : PathId} (h : Settled m pathId) {operations : List (Operation Addr)}
    (hnew : Throughout step (fun m operation => ¬ Challenges m pathId operation) m operations) :
    Settled (operations.foldl next m) pathId := by
  induction operations generalizing m with
  | nil => exact h
  | cons operation rest ih => exact ih (settled_step h hnew.1) (hnew.2 _ rfl)

/-- A path that waits for no response accepts none. -/
theorem refused_of_settled {m : PathManager Addr} {frame : Frame} {pathId : PathId} (h : Settled m pathId)
    (hnames : Names frame pathId) (now : Instant) :
    ∃ e, (handlePathResponse frame now).exec m = (.error (.err e), m) := by
  rcases response_cases m frame now with ⟨other, path, hanswers, _⟩ | ⟨_, hrefused⟩
  · have hpresent := hanswers.present
    rw [hnames.eq hanswers.names] at hpresent
    have houtstanding := hanswers.outstanding
    rw [h path hpresent] at houtstanding
    cases houtstanding
  · exact hrefused

/-- A frame that was accepted is refused until the path is challenged again. -/
theorem refused_after_accepted {m m' : PathManager Addr} {frame : Frame} {now : Instant} {pathId : PathId}
    (h : (handlePathResponse frame now).exec m = (.ok pathId, m')) {operations : List (Operation Addr)}
    (hnew : Throughout step (fun m operation => ¬ Challenges m pathId operation) m' operations) (later : Instant) :
    ∃ e, (handlePathResponse frame later).exec (operations.foldl next m') =
      (.error (.err e), operations.foldl next m') := by
  obtain ⟨path, hanswers, rfl⟩ := exec_accepted h
  have hsettled : Settled { m with paths := m.paths.replace pathId (confirmed path now) } pathId := by
    intro found hfound
    rw [hanswers.lookup_replace, if_pos rfl] at hfound
    cases hfound
    rfl
  exact refused_of_settled (settled_run hsettled hnew) hanswers.names later

/-- **A response is accepted for the path it names with the nonce that path waits for**, and
for no other; it changes that path alone, and a frame that is refused changes none. A frame
that was accepted is refused from then on until a new challenge is issued under the ID. -/
theorem response_exact (m : PathManager Addr) (frame : Frame) (now : Instant) :
    (∀ pathId, ((handlePathResponse frame now).exec m).1 = .ok pathId ↔ ∃ path, Answers m frame pathId path) ∧
    (∀ pathId m', (handlePathResponse frame now).exec m = (.ok pathId, m') →
      (∃ path, m.paths.lookup pathId = some path ∧ m'.paths.lookup pathId =
        some { path with active := true, challengeNonce := none, lastActive := now }) ∧
      (∀ other, other ≠ pathId → m'.paths.lookup other = m.paths.lookup other) ∧ m' = { m with paths := m'.paths }) ∧
    (∀ stop m', (handlePathResponse frame now).exec m = (.error stop, m') → m' = m ∧ ∃ e, stop = .err e) ∧
    (∀ pathId m', (handlePathResponse frame now).exec m = (.ok pathId, m') → ∀ operations : List (Operation Addr),
      Throughout step (fun m operation => ¬ Challenges m pathId operation) m' operations →
        ∀ later, ∃ e, (handlePathResponse frame later).exec (operations.foldl next m') =
          (.error (.err e), operations.foldl next m')) := by
  refine ⟨fun pathId => accepted_iff, fun pathId m' h => ?_, fun stop m' h => exec_refused h,
    fun pathId m' h operations hnew later => refused_after_accepted h hnew later⟩
  obtain ⟨path, hanswers, rfl⟩ := exec_accepted h
  refine ⟨⟨path, hanswers.present, ?_⟩, fun other hother => ?_, rfl⟩
  · rw [hanswers.lookup_replace, if_pos rfl]
    rfl
  · rw [hanswers.lookup_replace, if_neg hother]

end Aether.PathManager
