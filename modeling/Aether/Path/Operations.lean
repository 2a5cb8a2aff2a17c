import Aether.Framing.Builders
import Aether.Library.Runs
import Aether.Path.Path

/-! What is called of the paths, and what it does to the table.

A frame names a path if it has a PathId extension, and `Carries` a nonce for it if
its payload is long enough; frames of the two path types are not told apart there.
`Changes` is everything a call can do, `Changes.found` what it says of one path. -/
namespace Aether
open Octets Octets.Method

namespace PathManager
variable {Addr : Type}

/-! ### Frames that name a path -/

/-- The frame has the ID of a path and a nonce, whatever its type. -/
def Carries (frame : Frame) (pathId : PathId) (nonce : UInt64) : Prop :=
  extractPathId frame = .ok pathId ∧ 8 ≤ frame.payload.length ∧
    nonce = UInt64.ofNat (ofBe (frame.payload.take 8))

theorem payloadNonce_of_le (tooShort : String) {frame : Frame} (h : 8 ≤ frame.payload.length) :
    payloadNonce tooShort frame = .ok (UInt64.ofNat (ofBe (frame.payload.take 8))) := by
  rw [payloadNonce, if_pos h, word, if_pos (by rwa [Nat.zero_add])]
  rfl

theorem payloadNonce_of_lt (tooShort : String) {frame : Frame} (h : frame.payload.length < 8) :
    payloadNonce tooShort frame = fail (.protocolViolation tooShort) := by
  rw [payloadNonce, if_neg (Nat.not_le.mpr h)]

/-- A frame carries one ID and one nonce. -/
theorem Carries.eq {frame : Frame} {pathId pathId' : PathId} {nonce nonce' : UInt64} (h : Carries frame pathId nonce)
    (h' : Carries frame pathId' nonce') : pathId' = pathId ∧ nonce' = nonce :=
  ⟨Except.ok.inj (h'.1.symm.trans h.1), h'.2.2.trans h.2.2.symm⟩

theorem ofBe_nonce (nonce : UInt64) : UInt64.ofNat (ofBe ((toBe 8 nonce.toNat).take 8)) = nonce := by
  have hbound : nonce.toNat < 256 ^ 8 := nonce.toNat_lt
  rw [List.take_of_length_le (Nat.le_of_eq (toBe_length 8 _)), ofBe_toBe_of_lt hbound]
  exact UInt64.ofNat_toNat

theorem carries_pathChallenge (connectionId : UInt32) (pathId : PathId) (nonce : UInt64) :
    Carries (Frame.pathChallenge connectionId pathId nonce) pathId nonce :=
  ⟨rfl, Nat.le_of_eq (toBe_length 8 _).symm, (ofBe_nonce nonce).symm⟩

theorem carries_pathResponse (connectionId : UInt32) (pathId : PathId) (nonce : UInt64) :
    Carries (Frame.pathResponse connectionId pathId nonce) pathId nonce :=
  ⟨rfl, Nat.le_of_eq (toBe_length 8 _).symm, (ofBe_nonce nonce).symm⟩

/-! ### Operations -/

inductive Operation (Addr : Type) where
  | registerPrimary (localAddr remoteAddr : Addr) (now : Instant)
  | createPathChallenge (localAddr remoteAddr : Addr) (nonce : UInt64) (now : Instant)
  | handlePathResponse (frame : Frame) (now : Instant)
  | handlePathChallenge (frame : Frame) (remoteAddr localAddr : Addr) (now : Instant)
  | deactivatePath (pathId : PathId)
  | recordSend (pathId : PathId) (now : Instant)
  | recordLoss (pathId : PathId)
  | recordRtt (pathId : PathId) (rttUs : UInt64)
  | checkTimeouts (timeoutMs : UInt64) (now : Instant)

/-- What an operation returns. -/
inductive Output where
  | path (pathId : PathId)
  | framed (frame : Frame) (pathId : PathId)
  | done
  deriving DecidableEq

def Operation.perform : Operation Addr → Action (PathManager Addr) Output
  | .registerPrimary localAddr remoteAddr now => do
    return .path (← PathManager.registerPrimary localAddr remoteAddr now)
  | .createPathChallenge localAddr remoteAddr nonce now => do
    let (frame, pathId) ← PathManager.createPathChallenge localAddr remoteAddr nonce now
    return .framed frame pathId
  | .handlePathResponse frame now => do return .path (← PathManager.handlePathResponse frame now)
  | .handlePathChallenge frame remoteAddr localAddr now => do
    let (response, pathId) ← PathManager.handlePathChallenge frame remoteAddr localAddr now
    return .framed response pathId
  | .deactivatePath pathId => do
    modify (PathManager.deactivatePath pathId)
    return .done
  | .recordSend pathId now => do
    modify (PathManager.recordSend pathId now)
    return .done
  | .recordLoss pathId => do
    modify (PathManager.recordLoss pathId)
    return .done
  | .recordRtt pathId rttUs => do
    modify (PathManager.recordRtt pathId rttUs)
    return .done
  | .checkTimeouts timeoutMs now => do
    modify (PathManager.checkTimeouts timeoutMs now)
    return .done

/-- The manager an operation leaves, whether it succeeds or not. -/
def next (m : PathManager Addr) (operation : Operation Addr) : PathManager Addr := (operation.perform.exec m).2

/-- Paths refuse no operation. -/
def step (m : PathManager Addr) (operation : Operation Addr) : Option (PathManager Addr) := some (m.next operation)

theorem step_eq (m : PathManager Addr) (operation : Operation Addr) : step m operation = some (m.next operation) := rfl

def full (m : PathManager Addr) : Bool := size m.paths ≥ m.maxPaths

/-! ### The three calls that open and answer -/

/-- A path that is challenged. -/
def challenging (pathId : PathId) (localAddr remoteAddr : Addr) (nonce : UInt64) (now : Instant) : PathState Addr :=
  { PathState.new pathId localAddr remoteAddr now with challengeNonce := some nonce }

/-- A path whose challenge is answered. -/
def confirmed (path : PathState Addr) (now : Instant) : PathState Addr :=
  { path with active := true, challengeNonce := none, lastActive := now }

/-- A path that the peer has challenged, and how a new one begins. -/
def answering (m : PathManager Addr) (pathId : PathId) (remoteAddr localAddr : Addr) (now : Instant) : PathState Addr :=
  { (m.paths.lookup pathId).getD (PathState.new pathId localAddr remoteAddr now) with
    remoteAddr
    lastActive := now
    active := true }

theorem exec_createPathChallenge_full {m : PathManager Addr} (h : m.full = true) (localAddr remoteAddr : Addr)
    (nonce : UInt64) (now : Instant) :
    (createPathChallenge localAddr remoteAddr nonce now).exec m =
      (fail (.flowControl s!"Maximum paths reached: {m.maxPaths}"), m) := by
  rw [createPathChallenge, exec_get_bind, if_pos (of_decide_eq_true h)]
  rfl

theorem exec_createPathChallenge_room {m : PathManager Addr} (h : m.full = false) (localAddr remoteAddr : Addr)
    (nonce : UInt64) (now : Instant) :
    (createPathChallenge localAddr remoteAddr nonce now).exec m =
      (.ok (Frame.pathChallenge m.frameConnectionId m.nextPathId nonce, m.nextPathId),
        { m with
          nextPathId := m.nextPathId + 1
          paths := m.paths.insert m.nextPathId (challenging m.nextPathId localAddr remoteAddr nonce now) }) := by
  rw [createPathChallenge, exec_get_bind, if_neg (of_decide_eq_false h)]
  rfl

/-- An answer is taken where its nonce is the one that is outstanding. -/
theorem exec_handlePathResponse_ok {m : PathManager Addr} {frame : Frame} {pathId : PathId} {nonce : UInt64}
    (hcarries : Carries frame pathId nonce) {path : PathState Addr} (hpath : m.paths.lookup pathId = some path)
    (hnonce : path.challengeNonce = some nonce) (now : Instant) :
    (handlePathResponse frame now).exec m =
      (.ok pathId, { m with paths := m.paths.replace pathId (confirmed path now) }) := by
  obtain ⟨hid, hlength, rfl⟩ := hcarries
  rw [handlePathResponse, exec_bind_ok (by rw [hid]; rfl), exec_bind_ok (by rw [payloadNonce_of_le _ hlength]; rfl),
    exec_get_bind, hpath]
  simp only [hnonce, ne_eq, not_true_eq_false, if_false]
  rfl

/-- Every other frame is refused and changes nothing. -/
theorem exec_handlePathResponse_error {m : PathManager Addr} {frame : Frame}
    (h : ∀ pathId nonce path, Carries frame pathId nonce → m.paths.lookup pathId = some path →
      path.challengeNonce ≠ some nonce) (now : Instant) :
    ∃ e, (handlePathResponse frame now).exec m = (.error e, m) := by
  rw [handlePathResponse]
  cases hid : extractPathId frame with
  | error e => exact ⟨e, exec_bind_error rfl⟩
  | ok pathId =>
    rw [exec_bind_ok (exec_lift _ _)]
    by_cases hlength : 8 ≤ frame.payload.length
    · rw [payloadNonce_of_le _ hlength, exec_bind_ok (exec_lift _ _), exec_get_bind]
      cases hpath : m.paths.lookup pathId with
      | none => exact ⟨_, rfl⟩
      | some path =>
        have hne := h pathId _ path ⟨hid, hlength, rfl⟩ hpath
        simp only [hne, ne_eq, not_false_eq_true, if_true]
        exact ⟨_, rfl⟩
    · rw [payloadNonce_of_lt _ (Nat.not_le.mp hlength)]
      exact ⟨_, exec_bind_error rfl⟩

theorem exec_handlePathChallenge_ok {m : PathManager Addr} {frame : Frame} {pathId : PathId} {nonce : UInt64}
    (hcarries : Carries frame pathId nonce) (remoteAddr localAddr : Addr) (now : Instant) :
    (handlePathChallenge frame remoteAddr localAddr now).exec m =
      (.ok (Frame.pathResponse m.frameConnectionId pathId nonce, pathId),
        { m with paths := m.paths.insert pathId (m.answering pathId remoteAddr localAddr now) }) := by
  obtain ⟨hid, hlength, rfl⟩ := hcarries
  rw [handlePathChallenge, exec_bind_ok (by rw [hid]; rfl), exec_bind_ok (by rw [payloadNonce_of_le _ hlength]; rfl),
    exec_get_bind]
  rfl

theorem exec_handlePathChallenge_error {m : PathManager Addr} {frame : Frame}
    (h : ∀ pathId nonce, ¬ Carries frame pathId nonce) (remoteAddr localAddr : Addr) (now : Instant) :
    ∃ e, (handlePathChallenge frame remoteAddr localAddr now).exec m = (.error e, m) := by
  rw [handlePathChallenge]
  cases hid : extractPathId frame with
  | error e => exact ⟨e, exec_bind_error rfl⟩
  | ok pathId =>
    rw [exec_bind_ok (exec_lift _ _)]
    by_cases hlength : 8 ≤ frame.payload.length
    · exact absurd ⟨hid, hlength, rfl⟩ (h pathId _)
    · rw [payloadNonce_of_lt _ (Nat.not_le.mp hlength)]
      exact ⟨_, exec_bind_error rfl⟩

theorem handlePathResponse_cases (m : PathManager Addr) (frame : Frame) (now : Instant) :
    (∃ pathId nonce path, Carries frame pathId nonce ∧ m.paths.lookup pathId = some path ∧
      path.challengeNonce = some nonce ∧ (handlePathResponse frame now).exec m =
        (.ok pathId, { m with paths := m.paths.replace pathId (confirmed path now) })) ∨
    ((∀ pathId nonce path, Carries frame pathId nonce → m.paths.lookup pathId = some path →
      path.challengeNonce ≠ some nonce) ∧ ∃ e, (handlePathResponse frame now).exec m = (.error e, m)) := by
  by_cases h : ∃ pathId nonce path, Carries frame pathId nonce ∧ m.paths.lookup pathId = some path ∧
      path.challengeNonce = some nonce
  · obtain ⟨pathId, nonce, path, hcarries, hpath, hnonce⟩ := h
    exact .inl ⟨pathId, nonce, path, hcarries, hpath, hnonce, exec_handlePathResponse_ok hcarries hpath hnonce now⟩
  · have hunasked : ∀ pathId nonce path, Carries frame pathId nonce → m.paths.lookup pathId = some path →
        path.challengeNonce ≠ some nonce :=
      fun pathId nonce path hcarries hpath hnonce => h ⟨pathId, nonce, path, hcarries, hpath, hnonce⟩
    exact .inr ⟨hunasked, exec_handlePathResponse_error hunasked now⟩

theorem handlePathChallenge_cases (m : PathManager Addr) (frame : Frame) (remoteAddr localAddr : Addr) (now : Instant) :
    (∃ pathId nonce, Carries frame pathId nonce ∧ (handlePathChallenge frame remoteAddr localAddr now).exec m =
      (.ok (Frame.pathResponse m.frameConnectionId pathId nonce, pathId),
        { m with paths := m.paths.insert pathId (m.answering pathId remoteAddr localAddr now) })) ∨
    ((∀ pathId nonce, ¬ Carries frame pathId nonce) ∧
      ∃ e, (handlePathChallenge frame remoteAddr localAddr now).exec m = (.error e, m)) := by
  by_cases h : ∃ pathId nonce, Carries frame pathId nonce
  · obtain ⟨pathId, nonce, hcarries⟩ := h
    exact .inl ⟨pathId, nonce, hcarries, exec_handlePathChallenge_ok hcarries remoteAddr localAddr now⟩
  · have hempty : ∀ pathId nonce, ¬ Carries frame pathId nonce :=
      fun pathId nonce hcarries => h ⟨pathId, nonce, hcarries⟩
    exact .inr ⟨hempty, exec_handlePathChallenge_error hempty remoteAddr localAddr now⟩

/-! ### What an operation can do -/

/-- The operations that record something of paths, or deactivate them. -/
def Operation.notes : Operation Addr → Bool
  | .deactivatePath _ | .recordSend _ _ | .recordLoss _ | .recordRtt _ _ | .checkTimeouts _ _ => true
  | _ => false

/-- A path of which something was recorded, or that was deactivated. -/
structure Noted (path path' : PathState Addr) : Prop where
  localAddr : path'.localAddr = path.localAddr
  remoteAddr : path'.remoteAddr = path.remoteAddr
  challengeNonce : path'.challengeNonce = path.challengeNonce
  active : path'.active = true → path.active = true

theorem Noted.refl (path : PathState Addr) : Noted path path := ⟨rfl, rfl, rfl, id⟩

/-- Everything an operation can do to the paths, with what makes it do so. -/
inductive Changes (m : PathManager Addr) : Operation Addr → PathManager Addr → Prop where
  | registered (localAddr remoteAddr : Addr) (now : Instant) :
      Changes m (.registerPrimary localAddr remoteAddr now) { m with
        paths := m.paths.insert 0 { PathState.new 0 localAddr remoteAddr now with active := true }
        primaryPathId := 0 }
  | refused (localAddr remoteAddr : Addr) (nonce : UInt64) (now : Instant) (full : m.full = true) :
      Changes m (.createPathChallenge localAddr remoteAddr nonce now) m
  | created (localAddr remoteAddr : Addr) (nonce : UInt64) (now : Instant) (room : m.full = false) :
      Changes m (.createPathChallenge localAddr remoteAddr nonce now) { m with
        nextPathId := m.nextPathId + 1
        paths := m.paths.insert m.nextPathId (challenging m.nextPathId localAddr remoteAddr nonce now) }
  | unanswered (frame : Frame) (now : Instant)
      (unasked : ∀ pathId nonce path, Carries frame pathId nonce → m.paths.lookup pathId = some path →
        path.challengeNonce ≠ some nonce) :
      Changes m (.handlePathResponse frame now) m
  | answered (frame : Frame) (now : Instant) (pathId : PathId) (nonce : UInt64) (path : PathState Addr)
      (carries : Carries frame pathId nonce) (present : m.paths.lookup pathId = some path)
      (outstanding : path.challengeNonce = some nonce) :
      Changes m (.handlePathResponse frame now) { m with paths := m.paths.replace pathId (confirmed path now) }
  | malformed (frame : Frame) (remoteAddr localAddr : Addr) (now : Instant)
      (empty : ∀ pathId nonce, ¬ Carries frame pathId nonce) :
      Changes m (.handlePathChallenge frame remoteAddr localAddr now) m
  | challenged (frame : Frame) (remoteAddr localAddr : Addr) (now : Instant) (pathId : PathId) (nonce : UInt64)
      (carries : Carries frame pathId nonce) :
      Changes m (.handlePathChallenge frame remoteAddr localAddr now) { m with
        paths := m.paths.insert pathId (m.answering pathId remoteAddr localAddr now) }
  | noted (operation : Operation Addr) (change : PathId → PathState Addr → PathState Addr)
      (paths : AList fun _ : PathId => PathState Addr) (notes : operation.notes = true)
      (count : size paths = size m.paths)
      (lookup : ∀ pathId, paths.lookup pathId = (m.paths.lookup pathId).map (change pathId))
      (keeps : ∀ pathId path, Noted path (change pathId path)) :
      Changes m operation { m with paths }

/-- A change of one path is one of every path, of the others by nothing. -/
theorem changes_withPath (m : PathManager Addr) {operation : Operation Addr} (pathId : PathId)
    {change : PathState Addr → PathState Addr} (hnotes : operation.notes = true)
    (hnoted : ∀ path, Noted path (change path)) : Changes m operation (withPath pathId change m) := by
  rw [withPath]
  cases h : m.paths.lookup pathId with
  | none =>
    exact .noted operation (fun _ path => path) m.paths hnotes rfl (fun _ => Option.map_id'.symm)
      fun _ path => .refl path
  | some path =>
    refine .noted operation (fun other path => if other = pathId then change path else path) _ hnotes
      (size_replace _ _ _) (fun other => ?_) fun other path => ?_
    · rw [lookup_replace]
      split
      · rename_i hother
        rw [hother, h]
        rfl
      · exact Option.map_id'.symm
    · split
      · exact hnoted path
      · exact .refl path

/-- **Every operation changes the paths in one of these ways.** -/
theorem changes (m : PathManager Addr) (operation : Operation Addr) : Changes m operation (m.next operation) := by
  cases operation with
  | registerPrimary localAddr remoteAddr now => exact .registered localAddr remoteAddr now
  | createPathChallenge localAddr remoteAddr nonce now =>
    rw [next, Operation.perform]
    cases hfull : m.full with
    | true =>
      rw [exec_bind_error (exec_createPathChallenge_full hfull localAddr remoteAddr nonce now)]
      exact .refused localAddr remoteAddr nonce now hfull
    | false =>
      rw [exec_bind_ok (exec_createPathChallenge_room hfull localAddr remoteAddr nonce now)]
      exact .created localAddr remoteAddr nonce now hfull
  | handlePathResponse frame now =>
    rw [next, Operation.perform, exec_bind_pure]
    rcases handlePathResponse_cases m frame now with ⟨pathId, nonce, path, hcarries, hpath, hnonce, hexec⟩ |
      ⟨hunasked, e, hexec⟩
    · rw [hexec]
      exact .answered frame now pathId nonce path hcarries hpath hnonce
    · rw [hexec]
      exact .unanswered frame now hunasked
  | handlePathChallenge frame remoteAddr localAddr now =>
    rw [next, Operation.perform]
    rcases handlePathChallenge_cases m frame remoteAddr localAddr now with ⟨pathId, nonce, hcarries, hexec⟩ |
      ⟨hempty, e, hexec⟩
    · rw [exec_bind_ok hexec]
      exact .challenged frame remoteAddr localAddr now pathId nonce hcarries
    · rw [exec_bind_error hexec]
      exact .malformed frame remoteAddr localAddr now hempty
  | deactivatePath pathId => exact changes_withPath m pathId rfl fun path => ⟨rfl, rfl, rfl, nofun⟩
  | recordSend pathId now => exact changes_withPath m pathId rfl fun path => ⟨rfl, rfl, rfl, id⟩
  | recordLoss pathId => exact changes_withPath m pathId rfl fun path => ⟨rfl, rfl, rfl, id⟩
  | recordRtt pathId rttUs =>
    refine changes_withPath m pathId rfl fun path => ?_
    split
    · exact ⟨rfl, rfl, rfl, id⟩
    · exact ⟨rfl, rfl, rfl, id⟩
  | checkTimeouts timeoutMs now =>
    refine .noted _ _ _ rfl (size_mapValues _ _) (fun pathId => lookup_mapValues _ _ _) fun pathId path => ?_
    split
    · exact ⟨rfl, rfl, rfl, nofun⟩
    · exact .refl path

theorem Changes.maxPaths {m m' : PathManager Addr} {operation : Operation Addr} (h : Changes m operation m') :
    m'.maxPaths = m.maxPaths := by
  cases h <;> rfl

/-- Recording something of paths puts none in and takes none out. -/
theorem mem_noted {paths paths' : AList fun _ : PathId => PathState Addr}
    {change : PathId → PathState Addr → PathState Addr}
    (h : ∀ pathId, paths'.lookup pathId = (paths.lookup pathId).map (change pathId)) {pathId : PathId} :
    pathId ∈ paths' ↔ pathId ∈ paths := by
  rw [← AList.lookup_isSome, ← AList.lookup_isSome, h, Option.isSome_map]

end PathManager

end Aether
