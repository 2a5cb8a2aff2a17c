import Aether.Stream.Stream
import Aether.Library.Method
import Aether.Library.Tables

/-! What can be asked of the stream table, and what it does to the windows.

Streams are opened and closed, and their windows moved, through the manager or
through `get_stream_mut`. No request makes a window smaller, the connection's or a
stream's, and none but opening puts a stream where there was none
(`request_widens`). -/
namespace Aether
open Octets Octets.Method

namespace StreamManager

/-- What is asked of the table. -/
inductive Request where
  | openStream
  | closeStream (streamId : StreamId)
  | shutdownStream (streamId : StreamId)
  | closeWrite (streamId : StreamId)
  | closeRead (streamId : StreamId)
  | updateWindow (streamId : StreamId) (newMax : UInt64)
  | updateConnectionWindow (newWindow : UInt64)

/-- A change of one stream, through `get_stream_mut`. -/
def onStream (streamId : StreamId) (change : Stream → Stream) : Action StreamManager Unit := do
  let m ← get
  let stream ← liftM (m.getStream streamId)
  set { m with streams := m.streams.replace streamId (change stream) }

/-- A request, with the ID of the stream it opened. -/
def request : Request → Action StreamManager (Option StreamId)
  | .openStream => do return some (← openStream)
  | .closeStream streamId => do
    closeStream streamId
    return none
  | .shutdownStream streamId => do
    shutdownStream streamId
    return none
  | .closeWrite streamId => do
    onStream streamId Stream.closeWrite
    return none
  | .closeRead streamId => do
    onStream streamId Stream.closeRead
    return none
  | .updateWindow streamId newMax => do
    onStream streamId fun stream => { stream with flowControl := stream.flowControl.updateWindow newMax }
    return none
  | .updateConnectionWindow newWindow => do
    modify fun m => m.updateConnectionWindow newWindow
    return none

/-- The stream that was opened, if one was. -/
def opened : Result (Option StreamId) → Option StreamId
  | .ok streamId => streamId
  | .error _ => none

/-- Windows do not get smaller, and the streams are those that were there and the one that was opened. -/
structure Widens (m m' : StreamManager) (opened : Option StreamId) : Prop where
  window : m.connectionFlowWindow ≤ m'.connectionFlowWindow
  streams : ∀ streamId stream', m'.streams.lookup streamId = some stream' →
    opened = some streamId ∨ ∃ stream, m.streams.lookup streamId = some stream ∧
      stream.flowControl.maxOffset ≤ stream'.flowControl.maxOffset

theorem Widens.refl (m : StreamManager) (opened : Option StreamId) : Widens m m opened :=
  ⟨UInt64.le_refl _, fun _ stream' h => .inr ⟨stream', h, UInt64.le_refl _⟩⟩

theorem Widens.weaken {m m' : StreamManager} (h : Widens m m' none) (opened : Option StreamId) :
    Widens m m' opened :=
  ⟨h.window, fun streamId stream' hstream' => .inr ((h.streams streamId stream' hstream').resolve_left nofun)⟩

theorem widens_replace {m : StreamManager} {streamId : StreamId} {stream stream' : Stream}
    (h : m.streams.lookup streamId = some stream)
    (hmax : stream.flowControl.maxOffset ≤ stream'.flowControl.maxOffset) :
    Widens m { m with streams := m.streams.replace streamId stream' } none where
  window := UInt64.le_refl _
  streams := by
    intro other found hfound
    rcases lookup_replace_eq_some hfound with ⟨rfl, rfl⟩ | hold
    · exact .inr ⟨stream, h, hmax⟩
    · exact .inr ⟨found, hold, UInt64.le_refl _⟩

theorem widens_erase (m : StreamManager) (streamId : StreamId) :
    Widens m { m with streams := m.streams.erase streamId } none where
  window := UInt64.le_refl _
  streams := by
    intro other found hfound
    by_cases hother : other = streamId
    · rw [hother, AList.lookup_erase] at hfound
      cases hfound
    · rw [AList.lookup_erase_ne hother] at hfound
      exact .inr ⟨found, hfound, UInt64.le_refl _⟩

theorem widens_onStream (m : StreamManager) (streamId : StreamId) {change : Stream → Stream}
    (h : ∀ stream, stream.flowControl.maxOffset ≤ (change stream).flowControl.maxOffset) :
    Widens m ((onStream streamId change).exec m).2 none := by
  rw [onStream, exec_get_bind, getStream]
  cases hstream : m.streams.lookup streamId with
  | none => exact .refl m none
  | some stream => exact widens_replace hstream (h stream)

theorem widens_putOrRemove {m : StreamManager} {streamId : StreamId} {stream stream' : Stream}
    (h : m.streams.lookup streamId = some stream) (hsame : stream'.flowControl = stream.flowControl) :
    Widens m ((putOrRemove streamId stream').exec m).2 none := by
  rw [putOrRemove, exec_modify]
  by_cases hclosed : stream'.state.isClosed
  · rw [if_pos hclosed]
    exact widens_erase m streamId
  · rw [if_neg hclosed]
    apply widens_replace h
    rw [hsame]
    exact UInt64.le_refl _

end StreamManager

namespace Stream

@[simp] theorem closeWrite_flowControl (s : Stream) : s.closeWrite.flowControl = s.flowControl := by
  unfold closeWrite
  split <;> rfl

@[simp] theorem closeRead_flowControl (s : Stream) : s.closeRead.flowControl = s.flowControl := by
  unfold closeRead
  split <;> rfl

end Stream

theorem FlowControl.le_updateWindow (fc : FlowControl) (newMax : UInt64) :
    fc.maxOffset ≤ (fc.updateWindow newMax).maxOffset := by
  unfold updateWindow
  split
  · exact UInt64.le_of_lt ‹_›
  · exact UInt64.le_refl _

namespace StreamManager

theorem le_updateConnectionWindow (m : StreamManager) (newWindow : UInt64) :
    m.connectionFlowWindow ≤ (m.updateConnectionWindow newWindow).connectionFlowWindow := by
  unfold updateConnectionWindow
  split
  · exact UInt64.le_of_lt ‹_›
  · exact UInt64.le_refl _

@[simp] theorem updateConnectionWindow_streams (m : StreamManager) (newWindow : UInt64) :
    (m.updateConnectionWindow newWindow).streams = m.streams := by
  unfold updateConnectionWindow
  split <;> rfl

/-- Opening, once there is an ID. -/
def openAs (streamId : StreamId) : Action StreamManager StreamId := do
  let m ← get
  if streamId > maxStreamId then
    throw (.err (.flowControl "Stream ID exhausted"))
  else do
    set { m with streams := m.streams.insert streamId (Stream.init streamId m.isClient m.initialStreamWindow) }
    return streamId

theorem exec_openStream {m : StreamManager} (h : ¬ m.streamCount ≥ m.maxStreams.toNat) :
    ∃ streamId m', m'.streams = m.streams ∧ m'.connectionFlowWindow = m.connectionFlowWindow ∧
      openStream.exec m = (openAs streamId).exec m' := by
  rw [openStream, exec_get_bind, if_neg h]
  cases hclient : m.isClient with
  | true =>
    exact ⟨m.nextClientStreamId, { m with nextClientStreamId := m.nextClientStreamId + 2, isClient := true },
      rfl, rfl, rfl⟩
  | false =>
    exact ⟨m.nextServerStreamId, { m with nextServerStreamId := m.nextServerStreamId + 2, isClient := false },
      rfl, rfl, rfl⟩

theorem widens_openAs (m : StreamManager) (streamId : StreamId) :
    Widens m ((openAs streamId).exec m).2 (opened (((openAs streamId).exec m).1.map some)) := by
  rw [openAs, exec_get_bind]
  by_cases hid : streamId > maxStreamId
  · rw [if_pos hid]
    exact .refl m none
  · rw [if_neg hid, exec_set_bind]
    refine ⟨UInt64.le_refl _, fun other found hfound => ?_⟩
    by_cases hother : other = streamId
    · exact .inl (congrArg some hother.symm)
    · have hold : m.streams.lookup other = some found := (AList.lookup_insert_ne hother).symm.trans hfound
      exact .inr ⟨found, hold, UInt64.le_refl _⟩

/-- Opening a stream adds that one at most. -/
theorem widens_openStream (m : StreamManager) :
    Widens m (openStream.exec m).2 (opened ((openStream.exec m).1.map some)) := by
  by_cases hfull : m.streamCount ≥ m.maxStreams.toNat
  · rw [openStream, exec_get_bind, if_pos hfull]
    exact .refl m none
  · obtain ⟨streamId, m', hstreams, hwindow, hexec⟩ := exec_openStream hfull
    have hwidens := widens_openAs m' streamId
    rw [hexec]
    refine ⟨?_, ?_⟩
    · rw [← hwindow]
      exact hwidens.window
    · rw [← hstreams]
      exact hwidens.streams

theorem widens_closeStream (m : StreamManager) (streamId : StreamId) :
    Widens m ((closeStream streamId).exec m).2 none := by
  rw [closeStream, exec_get_bind, getStream]
  cases hstream : m.streams.lookup streamId with
  | none => exact .refl m none
  | some stream => exact widens_putOrRemove hstream stream.closeRead_flowControl

theorem widens_shutdownStream (m : StreamManager) (streamId : StreamId) :
    Widens m ((shutdownStream streamId).exec m).2 none := by
  rw [shutdownStream, exec_get_bind, getStream]
  cases hstream : m.streams.lookup streamId with
  | none => exact .refl m none
  | some stream => exact widens_putOrRemove hstream (by simp)

/-- **No request makes a window smaller, or adds a stream other than by opening it.** -/
theorem request_widens (m : StreamManager) (r : Request) :
    Widens m ((request r).exec m).2 (opened ((request r).exec m).1) := by
  cases r with
  | openStream =>
    rw [request, exec_bind_pure]
    exact widens_openStream m
  | closeStream streamId =>
    rw [request, exec_bind_pure]
    exact (widens_closeStream m streamId).weaken _
  | shutdownStream streamId =>
    rw [request, exec_bind_pure]
    exact (widens_shutdownStream m streamId).weaken _
  | closeWrite streamId =>
    rw [request, exec_bind_pure]
    exact (widens_onStream m streamId fun stream => by simp).weaken _
  | closeRead streamId =>
    rw [request, exec_bind_pure]
    exact (widens_onStream m streamId fun stream => by simp).weaken _
  | updateWindow streamId newMax =>
    rw [request, exec_bind_pure]
    exact (widens_onStream m streamId fun stream => stream.flowControl.le_updateWindow newMax).weaken _
  | updateConnectionWindow newWindow =>
    rw [request, exec_bind_pure, exec_modify]
    refine ⟨m.le_updateConnectionWindow newWindow, fun streamId found hfound => .inr ⟨found, ?_, UInt64.le_refl _⟩⟩
    rwa [updateConnectionWindow_streams] at hfound

end StreamManager

end Aether
