import Aether.Stream.Operations
import Aether.Stream.Reassembly

/-! What is left to read after FIN.

The inbox of a stream is what has arrived on it since it was last put in the table,
and what reads have taken of that. It is the receive buffer and what the reads took
out of it (`held_run`), whatever else is called. FIN closes the reading side:
where ours was the last side open, the stream is removed with its buffer, and
otherwise a read finds the buffer as it was (`fin_keeps_iff`). -/
namespace Aether
open Octets Octets.Method

/-! ### Fragments of a whole -/

/-- The fragments are the pieces of a sequence, each at its offset, in any order. -/
def Tile (xs : Bytes) (fragments : List (UInt32 × Bytes)) : Prop :=
  ∃ c : Cut, xs.length = c.total ∧ (∀ i < c.count, c.start i < 2 ^ 32) ∧
    fragments.Perm ((List.range c.count).map (Stream.fragment c xs))

namespace Stream

/-- The loop of `read` at all the pieces from the k-th on, after those before it. -/
theorem collect_range' {c : Cut} {xs : Bytes} (hxs : xs.length = c.total) {maxLen : Nat} (hmax : xs.length ≤ maxLen)
    (k n : Nat) (hk : k + n = c.count) (consumed : Nat) :
    (collect maxLen ((List.range' k n).map (fragment c xs)) (xs.take (c.start k)) (UInt32.ofNat (c.start k)) consumed).1 =
      xs := by
  induction n generalizing k consumed with
  | zero =>
    rw [Nat.add_zero] at hk
    rw [List.range'_zero, List.map_nil, collect, hk, c.start_count, ← hxs, List.take_length]
  | succ n ih =>
    have hlt : k < c.count := by omega
    have hlength : (xs.take (c.start (k + 1))).length = c.start (k + 1) := by
      rw [List.length_take, hxs]
      exact Nat.min_eq_left (c.start_le_total (Nat.succ_le_of_lt hlt))
    have hnext : UInt32.ofNat (c.start k) + UInt32.ofNat (c.piece xs k).length = UInt32.ofNat (c.start (k + 1)) := by
      rw [c.piece_length hxs hlt, ← UInt32.ofNat_add, Nat.add_sub_cancel' (Nat.le_of_lt (c.start_lt_succ hlt))]
    rw [List.range'_succ, List.map_cons, fragment, collect, if_neg (not_not_intro rfl), c.take_append_piece xs hlt,
      hlength, hnext]
    split
    · -- The limit is reached only where everything is there.
      rename_i hstop
      exact List.take_of_length_le (Nat.le_trans hmax hstop)
    · exact ih (k + 1) (by omega) (consumed + 1)

/-- However the pieces have arrived, sorting puts them in order. -/
theorem sortByOffset_tile {c : Cut} {xs : Bytes} (hstart : ∀ i < c.count, c.start i < 2 ^ 32)
    {buffer : List (UInt32 × Bytes)} (hbuffer : buffer.Perm ((List.range c.count).map (fragment c xs))) :
    sortByOffset buffer = (List.range c.count).map (fragment c xs) := by
  have hoffset : ∀ i < c.count, (UInt32.ofNat (c.start i)).toNat = c.start i := by
    intro i hi
    rw [UInt32.toNat_ofNat', Nat.mod_eq_of_lt (hstart i hi)]
  have hperm := sortByOffset_perm buffer
  have hsorted := sortByOffset_pairwise buffer
  refine List.Perm.eq_of_pairwise ?_ hsorted ?_ (hperm.trans hbuffer)
  · -- Pieces at one offset are one piece.
    intro a b ha hb hab hba
    obtain ⟨i, hi, rfl⟩ := List.mem_map.mp ((hperm.trans hbuffer).mem_iff.mp ha)
    obtain ⟨j, hj, rfl⟩ := List.mem_map.mp hb
    rw [List.mem_range] at hi hj
    have hsame : c.start i = c.start j := by
      rw [← hoffset i hi, ← hoffset j hj]
      exact congrArg UInt32.toNat (UInt32.le_antisymm hab hba)
    rw [c.start_inj (Nat.le_of_lt hi) (Nat.le_of_lt hj) hsame]
  · refine List.pairwise_map.mpr (List.pairwise_lt_range.imp_of_mem ?_)
    intro i j hi hj hij
    rw [List.mem_range] at hi hj
    show UInt32.ofNat (c.start i) ≤ UInt32.ofNat (c.start j)
    rw [UInt32.le_iff_toNat_le, hoffset i hi, hoffset j hj]
    exact c.start_le (Nat.le_of_lt hij) (Nat.le_of_lt hj)

/-- A stream whose reading side is closed gives out what it has buffered, if it has anything and a
vector can hold what is asked for. -/
theorem exec_read_tile {s : Stream} (hclosed : s.state.canRead = false) {xs : Bytes} (htile : Tile xs s.receiveBuffer)
    {maxLen : Nat} (hmax : xs.length ≤ maxLen) :
    ((read maxLen).exec s).1 = .ok xs ↔ xs ≠ [] ∧ maxLen ≤ isizeMax := by
  obtain ⟨c, hxs, hstart, hperm⟩ := htile
  have hempty : s.receiveBuffer.isEmpty = true ↔ xs = [] := by
    rw [List.isEmpty_iff_length_eq_zero, hperm.length_eq, List.length_map, List.length_range, ← List.length_eq_zero_iff,
      hxs, ← c.start_count]
    constructor
    · intro hcount
      rw [hcount, c.start_zero]
    · intro hstart
      exact (c.start_inj (Nat.zero_le _) (Nat.le_refl _) (c.start_zero.trans hstart.symm)).symm
  cases hbuffer : s.receiveBuffer.isEmpty with
  | true =>
    obtain ⟨e, hexec⟩ := exec_read_failed (by rw [hclosed, hbuffer]; rfl) maxLen
    rw [hexec]
    exact iff_of_false nofun fun h => h.1 (hempty.mp hbuffer)
  | false =>
    have hsome : xs ≠ [] := by
      intro hnil
      rw [hempty.mpr hnil] at hbuffer
      cases hbuffer
    have hcount : 0 < c.count := c.count_pos (hxs ▸ List.length_pos_iff.mpr hsome)
    -- The first piece is at offset 0.
    have hfirst : s.AtStart := by
      refine ⟨fragment c xs 0, hperm.mem_iff.mpr (List.mem_map_of_mem (List.mem_range.mpr hcount)), ?_⟩
      rw [fragment, c.start_zero]
      rfl
    refine ⟨fun hread => ⟨hsome, room_of_read hread hfirst⟩, fun h => ?_⟩
    have hcollect := collect_range' hxs hmax 0 c.count (Nat.zero_add _) 0
    rw [← List.range_eq_range', c.start_zero, List.take_zero] at hcollect
    rw [exec_read_collect (by rw [hbuffer, Bool.and_false]) fun _ => h.2, sortByOffset_tile hstart hperm]
    exact congrArg Except.ok hcollect

end Stream

/-! ### What has arrived -/

/-- What has arrived on a stream, and what reads have taken of it. -/
structure Inbox where
  arrived : List (UInt32 × Bytes)
  taken : Bytes

namespace Inbox

def empty : Inbox := ⟨[], []⟩

/-- An operation on the stream. -/
def call (b : Inbox) (s : Stream) : Stream.Operation → Inbox
  | .receiveData offset data => { b with arrived := b.arrived ++ [(offset, data)] }
  | .read maxLen =>
    match ((Stream.read maxLen).exec s).1 with
    | .ok data => { b with taken := b.taken ++ data }
    | .error _ => b
  | _ => b

/-- An operation on the table. -/
def pass (b : Inbox) (streamId : StreamId) (m : StreamManager) : StreamManager.Operation → Inbox
  | .onStream other operation =>
    if other = streamId then
      match m.streams.lookup streamId with
      | some s => b.call s operation
      | none => b
    else b
  | _ => b

/-- A new stream has nothing in its inbox. -/
def after (streamId : StreamId) (b : Inbox) (x : StreamManager × StreamManager.Operation) : Inbox :=
  if StreamManager.created x = some streamId then empty else b.pass streamId x.1 x.2

/-- The buffer is what has arrived and was not taken. -/
def Holds (b : Inbox) (s : Stream) : Prop :=
  ∃ consumed, (consumed ++ s.receiveBuffer).Perm b.arrived ∧ (consumed.map Prod.snd).flatten = b.taken

theorem Holds.same {b : Inbox} {s s' : Stream} (h : b.Holds s) (hsame : s'.receiveBuffer = s.receiveBuffer) :
    b.Holds s' := by
  rw [Holds, hsame]
  exact h

theorem holds_call {b : Inbox} {s : Stream} (h : b.Holds s) (operation : Stream.Operation) :
    (b.call s operation).Holds (s.next operation) := by
  obtain ⟨consumed, hperm, htaken⟩ := h
  cases operation with
  | write data =>
    rw [Stream.next_write]
    split
    · exact ⟨consumed, hperm, htaken⟩
    · exact ⟨consumed, hperm, htaken⟩
  | read maxLen =>
    obtain ⟨taken, left, hsplit, hleft, hdata, hnone⟩ := Stream.exec_read_takes s maxLen
    rw [Stream.next, Stream.Operation.perform, exec_bind_pure, call, hleft]
    refine ⟨consumed ++ taken, ?_, ?_⟩
    · rw [List.append_assoc]
      cases ((Stream.read maxLen).exec s).1 with
      | ok data => exact (hsplit.append_left consumed).trans hperm
      | error e => exact (hsplit.append_left consumed).trans hperm
    · rw [List.map_append, List.flatten_append, htaken]
      cases hread : ((Stream.read maxLen).exec s).1 with
      | ok data => rw [hdata data hread]
      | error e =>
        rw [hnone e hread]
        exact List.append_nil _
  | receiveData offset data =>
    refine ⟨consumed, ?_, htaken⟩
    show (consumed ++ (s.receiveBuffer ++ [(offset, data)])).Perm (b.arrived ++ [(offset, data)])
    rw [← List.append_assoc]
    exact hperm.append_right _
  | closeWrite => exact Holds.same ⟨consumed, hperm, htaken⟩ s.closeWrite_receiveBuffer
  | closeRead => exact Holds.same ⟨consumed, hperm, htaken⟩ s.closeRead_receiveBuffer
  | updateWindow newMax => exact ⟨consumed, hperm, htaken⟩

end Inbox

namespace StreamManager

/-- The inbox of a stream after what was called. -/
def inbox (streamId : StreamId) (past : List (StreamManager × Operation)) : Inbox :=
  past.foldl (Inbox.after streamId) .empty

/-- Nothing is in the buffer of a stream but what its inbox says. -/
def Held (r : Recorded StreamManager Operation) : Prop :=
  ∀ streamId stream, r.now.streams.lookup streamId = some stream → (inbox streamId r.past).Holds stream

theorem after_kept {m : StreamManager} {operation : Operation} {streamId : StreamId} (b : Inbox)
    (hcreated : created (m, operation) ≠ some streamId)
    (htarget : ∀ change, operation.target ≠ some (streamId, change)) : b.after streamId (m, operation) = b := by
  rw [Inbox.after, if_neg hcreated]
  cases operation with
  | onStream other operation =>
    have hother : other ≠ streamId := by
      rintro rfl
      exact htarget _ rfl
    exact if_neg hother
  | _ => rfl

theorem holds_changed {m : StreamManager} {operation : Operation} {streamId : StreamId} {b : Inbox}
    {change : Stream → Stream} {stream : Stream} (htarget : operation.target = some (streamId, change))
    (hpresent : m.streams.lookup streamId = some stream) (h : b.Holds stream) :
    (b.after streamId (m, operation)).Holds (change stream) := by
  rw [Inbox.after, created_eq_none_of_target htarget, if_neg nofun]
  cases operation with
  | closeStream =>
    cases htarget
    exact h.same stream.closeRead_receiveBuffer
  | shutdownStream =>
    cases htarget
    exact h.same ((Stream.closeRead_receiveBuffer _).trans stream.closeWrite_receiveBuffer)
  | onStream other operation =>
    cases htarget
    rw [Inbox.pass, if_pos rfl, hpresent]
    exact Inbox.holds_call h operation
  | _ => cases htarget

theorem held_run {isClient : Bool} {maxStreams : UInt32} {window flowWindow : UInt64}
    {r : Recorded StreamManager Operation}
    (h : Reached (Recorded.step step) (fun _ _ => True) (.fresh (init isClient maxStreams window flowWindow)) r) :
    Held r := by
  refine h.invariant (I := Held) (fun streamId stream hstream => by cases hstream) ?_
  intro r operation r' ih _ hstep
  obtain ⟨m, hm, rfl⟩ := Recorded.step_eq_some.mp hstep
  cases hm
  intro streamId stream hstream
  show (inbox streamId (r.past ++ [(r.now, operation)])).Holds stream
  rw [inbox, List.foldl_append, List.foldl_cons, List.foldl_nil]
  cases (changes r.now operation).found hstream with
  | kept hcreated htarget present =>
    rw [after_kept _ hcreated htarget]
    exact ih streamId stream present
  | changed change before htarget present eq =>
    rw [eq]
    exact holds_changed htarget present (ih streamId before present)
  | made role hcreated eq =>
    rw [Inbox.after, if_pos hcreated, eq]
    exact ⟨[], .refl _, rfl⟩

/-- Where nothing was taken, the buffer is all that has arrived. -/
theorem tile_of_holds {b : Inbox} {stream : Stream} (h : b.Holds stream) (huntaken : b.taken = []) {xs : Bytes}
    (htile : Tile xs b.arrived) : Tile xs stream.receiveBuffer := by
  obtain ⟨consumed, hperm, htaken⟩ := h
  obtain ⟨c, hxs, hstart, hpieces⟩ := htile
  have hnone : consumed = [] := by
    refine List.eq_nil_iff_forall_not_mem.mpr fun f hf => ?_
    have hempty : f.2 = [] := by
      rw [huntaken, List.flatten_eq_nil_iff] at htaken
      exact htaken f.2 (List.mem_map_of_mem hf)
    -- No piece is empty.
    obtain ⟨i, hi, rfl⟩ := List.mem_map.mp ((hperm.trans hpieces).subset (List.mem_append_left _ hf))
    have hlength := c.piece_length hxs (List.mem_range.mp hi)
    rw [show c.piece xs i = [] from hempty, List.length_nil] at hlength
    have hgrow := c.start_lt_succ (List.mem_range.mp hi)
    omega
  rw [hnone, List.nil_append] at hperm
  exact ⟨c, hxs, hstart, hperm.trans hpieces⟩

/-! ### FIN -/

/-- What a read returns after FIN from the peer, and after our own if it comes later. -/
def readAfterFin (m : StreamManager) (streamId : StreamId) (closesLater : Bool) (maxLen : Nat) : Result Output :=
  let m := m.next (.closeStream streamId)
  let m := if closesLater then m.next (.onStream streamId .closeWrite) else m
  ((Operation.onStream streamId (.read maxLen)).perform.exec m).1

theorem next_closeStream {m : StreamManager} {streamId : StreamId} {stream : Stream}
    (h : m.streams.lookup streamId = some stream) :
    m.next (.closeStream streamId) =
      if stream.closeRead.state.isClosed then { m with streams := m.streams.erase streamId }
      else { m with streams := m.streams.replace streamId stream.closeRead } := by
  rw [next, Operation.perform, exec_bind_pure, closeStream, exec_get_bind, getStream, h]
  rfl

theorem next_closeStream_absent {m : StreamManager} {streamId : StreamId} (h : m.streams.lookup streamId = none) :
    m.next (.closeStream streamId) = m := by
  rw [next, Operation.perform, exec_bind_pure, closeStream, exec_get_bind, getStream, h]
  rfl

theorem next_onStream {m : StreamManager} {streamId : StreamId} {stream : Stream}
    (h : m.streams.lookup streamId = some stream) (operation : Stream.Operation) :
    m.next (.onStream streamId operation) =
      { m with streams := m.streams.replace streamId (stream.next operation) } := by
  rw [next, Operation.perform, exec_bind_pure, exec_withStream h]
  rfl

theorem next_onStream_absent {m : StreamManager} {streamId : StreamId} (h : m.streams.lookup streamId = none)
    (operation : Stream.Operation) : m.next (.onStream streamId operation) = m := by
  rw [next, Operation.perform, exec_bind_pure, withStream, exec_get_bind, getStream, h]
  rfl

/-- A read through the table is a read of the stream. -/
theorem exec_onStream_read {m : StreamManager} {streamId : StreamId} {stream : Stream}
    (h : m.streams.lookup streamId = some stream) {maxLen : Nat} {xs : Bytes} :
    ((Operation.onStream streamId (.read maxLen)).perform.exec m).1 = .ok (.stream (.data xs)) ↔
      ((Stream.read maxLen).exec stream).1 = .ok xs := by
  rw [Operation.perform, exec_bind_pure, exec_withStream h, Stream.Operation.perform, exec_bind_pure]
  cases ((Stream.read maxLen).exec stream).1 with
  | error e => simp [Except.map]
  | ok data => simp [Except.map]

theorem exec_onStream_absent {m : StreamManager} {streamId : StreamId} (h : m.streams.lookup streamId = none)
    (operation : Stream.Operation) : ∃ e, ((Operation.onStream streamId operation).perform.exec m).1 = .error e := by
  rw [Operation.perform, exec_bind_pure, withStream, exec_get_bind, getStream, h]
  exact ⟨_, rfl⟩

/-- The reading side of a stream is closed once FIN has come. -/
theorem canRead_closeRead {stream : Stream} : stream.closeRead.state.canRead = false := by
  unfold Stream.closeRead
  cases hstate : stream.state <;> simp [hstate, StreamState.canRead]

/-- Our own FIN changes nothing in that. -/
theorem canRead_closeWrite {stream : Stream} (h : stream.state.canRead = false) :
    stream.closeWrite.state.canRead = false := by
  unfold Stream.closeWrite
  cases hstate : stream.state <;> simp [hstate, StreamState.canRead] at h ⊢

/-- FIN closes a stream for good if our side is closed, or both are already. -/
theorem isClosed_closeRead {stream : Stream} :
    stream.closeRead.state.isClosed = true ↔ stream.state = .halfClosedLocal ∨ stream.state = .closed := by
  unfold Stream.closeRead
  cases hstate : stream.state <;> simp [hstate, StreamState.isClosed]

/-- A stream that is not there stays so. -/
theorem readAfterFin_removed {m : StreamManager} {streamId : StreamId}
    (h : (m.next (.closeStream streamId)).streams.lookup streamId = none) (closesLater : Bool) (maxLen : Nat)
    (xs : Bytes) : readAfterFin m streamId closesLater maxLen ≠ .ok (.stream (.data xs)) := by
  unfold readAfterFin
  simp only [next_onStream_absent h, ite_self]
  obtain ⟨e, herror⟩ := exec_onStream_absent h (.read maxLen)
  rw [herror]
  simp

/-- What FIN leaves in the table is read as it was before. -/
theorem readAfterFin_kept {m : StreamManager} {streamId : StreamId} {stream : Stream}
    (h : (m.next (.closeStream streamId)).streams.lookup streamId = some stream) (hclosed : stream.state.canRead = false)
    (closesLater : Bool) {maxLen : Nat} {xs : Bytes} (htile : Tile xs stream.receiveBuffer)
    (hmax : xs.length ≤ maxLen) :
    readAfterFin m streamId closesLater maxLen = .ok (.stream (.data xs)) ↔ xs ≠ [] ∧ maxLen ≤ isizeMax := by
  cases closesLater with
  | false => exact (exec_onStream_read h).trans (Stream.exec_read_tile hclosed htile hmax)
  | true =>
    have hlater : ((m.next (.closeStream streamId)).next (.onStream streamId .closeWrite)).streams.lookup streamId =
        some stream.closeWrite := by
      rw [next_onStream h, lookup_replace, if_pos rfl, h]
      rfl
    have htile : Tile xs stream.closeWrite.receiveBuffer := by rwa [stream.closeWrite_receiveBuffer]
    exact (exec_onStream_read hlater).trans (Stream.exec_read_tile (canRead_closeWrite hclosed) htile hmax)

/-- **What has arrived is there to be read after FIN if there is any, a vector can hold what is
asked for and FIN does not close the stream for good, and not otherwise.** -/
theorem fin_keeps_iff {isClient : Bool} {maxStreams : UInt32} {window flowWindow : UInt64}
    {r : Recorded StreamManager Operation}
    (h : Reached (Recorded.step step) (fun _ _ => True) (.fresh (init isClient maxStreams window flowWindow)) r)
    (streamId : StreamId) {xs : Bytes} (htile : Tile xs (inbox streamId r.past).arrived)
    (huntaken : (inbox streamId r.past).taken = []) {maxLen : Nat} (hmax : xs.length ≤ maxLen) (closesLater : Bool) :
    readAfterFin r.now streamId closesLater maxLen = .ok (.stream (.data xs)) ↔
      xs ≠ [] ∧ maxLen ≤ isizeMax ∧ ∃ stream, r.now.streams.lookup streamId = some stream ∧
        stream.state ≠ .halfClosedLocal ∧ stream.state ≠ .closed := by
  cases hlookup : r.now.streams.lookup streamId with
  | none =>
    have hgone : (r.now.next (.closeStream streamId)).streams.lookup streamId = none := by
      rw [next_closeStream_absent hlookup, hlookup]
    refine iff_of_false (readAfterFin_removed hgone closesLater maxLen xs) ?_
    rintro ⟨_, _, _, hstream, _⟩
    cases hstream
  | some stream =>
    have htile := tile_of_holds (held_run h streamId stream hlookup) huntaken htile
    have hnext := next_closeStream hlookup
    cases hclosed : stream.closeRead.state.isClosed with
    | true =>
      rw [hclosed, if_pos rfl] at hnext
      refine iff_of_false (readAfterFin_removed ?_ closesLater maxLen xs) ?_
      · rw [hnext, AList.lookup_erase]
      · rintro ⟨_, _, _, hstream, hlocal, hboth⟩
        cases hstream
        exact (isClosed_closeRead.mp hclosed).elim hlocal hboth
    | false =>
      rw [hclosed, if_neg Bool.false_ne_true] at hnext
      have hkept : (r.now.next (.closeStream streamId)).streams.lookup streamId = some stream.closeRead := by
        rw [hnext, lookup_replace, if_pos rfl, hlookup]
        rfl
      have hstate := mt isClosed_closeRead.mpr (by rw [hclosed]; exact Bool.false_ne_true)
      rw [readAfterFin_kept hkept canRead_closeRead closesLater (by rwa [stream.closeRead_receiveBuffer]) hmax]
      constructor
      · intro h
        exact ⟨h.1, h.2, stream, rfl, fun hlocal => hstate (.inl hlocal), fun hboth => hstate (.inr hboth)⟩
      · exact fun h => ⟨h.1, h.2.1⟩

/-- A client whose answer has come in two fragments, the second one first. -/
def answered : Recorded StreamManager Operation :=
  .after next (init true 100 10 10)
    [.openStream, .onStream 2 (.receiveData 2 [3]), .onStream 2 (.receiveData 0 [1, 2])]

theorem tile_reversed : Tile [1, 2, 3] [(2, [3]), (0, [1, 2])] := by
  refine ⟨⟨[2, 1], by decide⟩, rfl, by decide, ?_⟩
  show List.Perm [(2, [3]), (0, [1, 2])] [(0, [1, 2]), (2, [3])]
  exact .swap _ _ _

theorem fin_keeps_answered : readAfterFin answered.now 2 true 3 = .ok (.stream (.data [1, 2, 3])) := by
  have hreached := Recorded.reached_after step_eq (init true 100 10 10)
    [.openStream, .onStream 2 (.receiveData 2 [3]), .onStream 2 (.receiveData 0 [1, 2])]
  refine (fin_keeps_iff (r := answered) hreached 2 tile_reversed rfl (Nat.le_refl 3) true).mpr ?_
  exact ⟨by decide, by decide, _, rfl, by decide, by decide⟩

/-- The same client, had it said first that its request is complete. -/
theorem fin_loses :
    ∃ r, Reached (Recorded.step step) (fun _ _ => True) (.fresh (init true 100 10 10)) r ∧
      Tile [1, 2, 3] (inbox 2 r.past).arrived ∧ (inbox 2 r.past).taken = [] ∧
      ∀ closesLater, readAfterFin r.now 2 closesLater 3 ≠ .ok (.stream (.data [1, 2, 3])) := by
  refine ⟨_, Recorded.reached_after step_eq _ [.openStream, .onStream 2 .closeWrite,
    .onStream 2 (.receiveData 2 [3]), .onStream 2 (.receiveData 0 [1, 2])], tile_reversed, rfl, fun closesLater => ?_⟩
  exact readAfterFin_removed rfl closesLater 3 [1, 2, 3]

end StreamManager

end Aether
