import Aether.Stream.Accounting

/-! When writes succeed, and what offsets they return.

The offset a write returns is the low half of a 64-bit counter, and nothing bounds the
counter but the window, which can be raised to any 64-bit value. So offsets are what
has been written before exactly as long as that has less than 33 bits
(`write_offsets_iff`).

A stream that is open is closed from either side, in either order: its state is a flag
for each (`sides`). Reading looks at one of the flags, writing at both, so that a
write fails also where only the peer has closed (`half_close_iff`). -/
namespace Aether.Stream
open Octets Octets.Method

/-- What a call makes of the counter. -/
theorem sentOffset_next (s : Stream) (operation : Operation) :
    (s.next operation).flowControl.sentOffset.toNat =
      (s.flowControl.sentOffset.toNat + written (s, operation)) % 2 ^ 64 := by
  have hsame : s.flowControl.sentOffset.toNat = (s.flowControl.sentOffset.toNat + 0) % 2 ^ 64 :=
    (Nat.mod_eq_of_lt s.flowControl.sentOffset.toNat_lt).symm
  cases operation with
  | write data =>
    rw [next_write]
    cases haccepts : s.accepts data with
    | true =>
      rw [written, exec_write_accepted haccepts]
      show (s.flowControl.sentOffset + UInt64.ofNat data.length).toNat = _
      rw [UInt64.toNat_add, UInt64.toNat_ofNat', Nat.add_mod_mod]
      rfl
    | false =>
      obtain ⟨e, hexec⟩ := exec_write_refused haccepts
      rw [written, hexec]
      exact hsame
  | read maxLen =>
    rw [next, Operation.perform, exec_bind_pure]
    obtain ⟨_, left, _, hleft, _⟩ := exec_read_takes s maxLen
    rw [hleft]
    exact hsame
  | receiveData offset data =>
    show (s.flowControl.received offset (UInt32.ofNat data.length)).sentOffset.toNat = _
    unfold FlowControl.received
    simp only
    split <;> exact hsame
  | closeWrite =>
    show s.closeWrite.flowControl.sentOffset.toNat = _
    rw [closeWrite_flowControl]
    exact hsame
  | closeRead =>
    show s.closeRead.flowControl.sentOffset.toNat = _
    rw [closeRead_flowControl]
    exact hsame
  | updateWindow newMax =>
    show (s.flowControl.updateWindow newMax).sentOffset.toNat = _
    unfold FlowControl.updateWindow
    split <;> exact hsame

/-- A write that gives an offset was let through. -/
theorem exec_write_eq_ok {s : Stream} {data : Bytes} {offset : UInt32} (h : ((write data).exec s).1 = .ok offset) :
    s.accepts data = true ∧ offset = s.flowControl.sentOffset.toUInt32 := by
  cases haccepts : s.accepts data with
  | true =>
    rw [exec_write_accepted haccepts] at h
    exact ⟨rfl, (Except.ok.inj h).symm⟩
  | false =>
    obtain ⟨e, hexec⟩ := exec_write_refused haccepts
    rw [hexec] at h
    cases h

/-! ### Offsets -/

/-- The range of octets that a call was given: offset and length, where it has written
something. -/
def given : Stream × Operation → Option (Nat × Nat)
  | (s, .write data) =>
    match ((write data).exec s).1 with
    | .ok offset => if data = [] then none else some (offset.toNat, data.length)
    | .error _ => none
  | _ => none

/-- What is promised of a write: its offset is the number of octets written before, its range
meets none of theirs, and it is refused where `fits` says that it cannot be represented. -/
def OffsetHolds (fits : Nat → Nat → Prop) (r : Recorded Stream Operation) : Operation → Prop
  | .write data => data ≠ [] →
    (∀ offset, ((write data).exec r.now).1 = .ok offset → offset.toNat = writtenTotal r.past ∧
      ∀ range ∈ r.past.filterMap given, range.1 + range.2 ≤ offset.toNat ∨ offset.toNat + data.length ≤ range.1) ∧
    (¬ fits (writtenTotal r.past) data.length → ∃ e, ((write data).exec r.now).1 = .error e)
  | _ => True

/-- The window lets nothing through that cannot be represented. -/
def WindowFits (fits : Nat → Nat → Prop) (r : Recorded Stream Operation) : Operation → Prop
  | .write data => data ≠ [] → r.now.accepts data = true → fits (writtenTotal r.past) data.length
  | _ => True

/-- The counter counts, and what was given out lies below what has been written. -/
structure Numbered (r : Recorded Stream Operation) : Prop where
  sent : r.now.flowControl.sentOffset.toNat = writtenTotal r.past % 2 ^ 64
  below : ∀ range ∈ r.past.filterMap given, range.1 + range.2 ≤ writtenTotal r.past

theorem numbered_fresh (id : StreamId) (isClient : Bool) (window : UInt64) :
    Numbered (.fresh (Stream.init id isClient window)) :=
  ⟨rfl, fun _ h => absurd h List.not_mem_nil⟩

section
variable {fits : Nat → Nat → Prop} {r r' : Recorded Stream Operation} {operation : Operation}

/-- What a write was given, it has written. -/
theorem given_write {s : Stream} {data : Bytes} {range : Nat × Nat} (h : given (s, .write data) = some range) :
    data ≠ [] ∧ range.2 = data.length ∧ written (s, .write data) = data.length ∧
      ∃ offset, ((write data).exec s).1 = .ok offset ∧ range.1 = offset.toNat := by
  rw [given] at h
  split at h
  · rename_i offset hoffset
    split at h
    · cases h
    · rename_i hdata
      cases h
      refine ⟨hdata, rfl, ?_, offset, hoffset, rfl⟩
      rw [written, hoffset]
      rfl
  · cases h

/-- A write that keeps the promise keeps the count. -/
theorem Numbered.step (h : Numbered r) (hholds : OffsetHolds fits r operation)
    (hstep : Recorded.step Stream.step r operation = some r') : Numbered r' := by
  obtain ⟨s, hs, rfl⟩ := Recorded.step_eq_some.mp hstep
  cases hs
  refine ⟨?_, fun range hrange => ?_⟩
  · show (r.now.next operation).flowControl.sentOffset.toNat = _
    rw [sentOffset_next, h.sent, writtenTotal_append, Nat.mod_add_mod]
  · rw [writtenTotal_append]
    rw [List.filterMap_append, List.mem_append] at hrange
    rcases hrange with hold | hnew
    · exact Nat.le_add_right_of_le (h.below range hold)
    · cases operation with
      | write data =>
        obtain ⟨x, hx, hgiven⟩ := List.mem_filterMap.mp hnew
        cases List.mem_singleton.mp hx
        obtain ⟨hdata, hlength, hwritten, offset, hoffset, hstart⟩ := given_write hgiven
        rw [hstart, ((hholds hdata).1 offset hoffset).1, hlength, hwritten]
      | _ => exact absurd hnew List.not_mem_nil

/-- One write, in a state where the count is right. -/
theorem offsetHolds_iff (hfits : ∀ before length, 0 < length → fits before length → before < 2 ^ 32) (h : Numbered r) :
    OffsetHolds fits r operation ↔ WindowFits fits r operation := by
  cases operation with
  | write data =>
    refine forall_congr' fun hdata => ⟨fun hholds haccepts => ?_, fun hwindow => ⟨fun offset hoffset => ?_, fun hrefuse => ?_⟩⟩
    · by_contra hunfit
      obtain ⟨e, he⟩ := hholds.2 hunfit
      rw [exec_write_accepted haccepts] at he
      cases he
    · obtain ⟨haccepts, rfl⟩ := exec_write_eq_ok hoffset
      have hlt := hfits _ _ (List.length_pos_iff.mpr hdata) (hwindow haccepts)
      have hexact : r.now.flowControl.sentOffset.toUInt32.toNat = writtenTotal r.past := by
        rw [UInt64.toNat_toUInt32, h.sent]
        omega
      rw [hexact]
      exact ⟨rfl, fun range hrange => .inl (h.below range hrange)⟩
    · cases haccepts : r.now.accepts data with
      | true => exact absurd (hwindow haccepts) hrefuse
      | false =>
        obtain ⟨e, hexec⟩ := exec_write_refused haccepts
        exact ⟨e, by rw [hexec]⟩
  | _ => exact Iff.rfl

end

theorem throughout_offsetHolds_iff {fits : Nat → Nat → Prop}
    (hfits : ∀ before length, 0 < length → fits before length → before < 2 ^ 32) (id : StreamId) (isClient : Bool)
    (window : UInt64) (ops : List Operation) :
    Throughout (Recorded.step step) (OffsetHolds fits) (.fresh (Stream.init id isClient window)) ops ↔
      Throughout (Recorded.step step) (WindowFits fits) (.fresh (Stream.init id isClient window)) ops := by
  refine throughout_iff (I := Numbered) (fun r operation h => ?_) (fun r operation r' h hholds hstep => ?_)
    (numbered_fresh id isClient window) ops
  · exact offsetHolds_iff hfits h
  · exact h.step hholds hstep

/-- **Offsets are right as long as the window keeps what is written to 32 bits**, in every
run: the octets written before, where the offset of a write is to be represented, or those
and its own, where that of every octet is. -/
theorem write_offsets_iff (id : StreamId) (isClient : Bool) (window : UInt64) (ops : List Operation) :
    (Throughout (Recorded.step step) (OffsetHolds fun before _ => before < 2 ^ 32)
        (.fresh (Stream.init id isClient window)) ops ↔
      Throughout (Recorded.step step) (WindowFits fun before _ => before < 2 ^ 32)
        (.fresh (Stream.init id isClient window)) ops) ∧
    (Throughout (Recorded.step step) (OffsetHolds fun before length => before + length ≤ 2 ^ 32)
        (.fresh (Stream.init id isClient window)) ops ↔
      Throughout (Recorded.step step) (WindowFits fun before length => before + length ≤ 2 ^ 32)
        (.fresh (Stream.init id isClient window)) ops) :=
  ⟨throughout_offsetHolds_iff (fun _ _ _ h => h) id isClient window ops,
    throughout_offsetHolds_iff (fun _ _ hlength h => by omega) id isClient window ops⟩

/-- After 2³² octets, another one is given the offset of the first. -/
theorem not_offsetHolds {data : Bytes} (h : data.length = 2 ^ 32) (fits : Nat → Nat → Prop) :
    ¬ Throughout (Recorded.step step) (OffsetHolds fits) (.fresh (Stream.init 2 true 0xFFFFFFFFFFFFFFFF))
      [.write data, .write [0]] := by
  intro hall
  obtain ⟨_, hrest⟩ := hall
  have haccepts : (Stream.init 2 true 0xFFFFFFFFFFFFFFFF).accepts data = true := by
    rw [accepts, FlowControl.canSend, h]
    decide
  have hwritten : written (Stream.init 2 true 0xFFFFFFFFFFFFFFFF, .write data) = 2 ^ 32 := by
    rw [written, exec_write_accepted haccepts, h]
    rfl
  obtain ⟨hholds, _⟩ := hrest _ rfl
  have hnow : (Stream.init 2 true 0xFFFFFFFFFFFFFFFF).next (.write data) =
      { Stream.init 2 true 0xFFFFFFFFFFFFFFFF with flowControl := ⟨0xFFFFFFFFFFFFFFFF, 0, 0x100000000, 0xFFFFFFFFFFFFFFFF⟩ } := by
    rw [next_write, haccepts, h]
    rfl
  have hresult : ((write [0]).exec ((Stream.init 2 true 0xFFFFFFFFFFFFFFFF).next (.write data))).1 = .ok 0 := by
    rw [hnow]
    rfl
  have htotal : writtenTotal [(Stream.init 2 true 0xFFFFFFFFFFFFFFFF, .write data)] = 2 ^ 32 := hwritten
  have hoffset : (0 : UInt32).toNat = writtenTotal [(Stream.init 2 true 0xFFFFFFFFFFFFFFFF, .write data)] :=
    ((hholds (List.cons_ne_nil _ _)).1 0 hresult).1
  rw [htotal] at hoffset
  exact absurd hoffset (by decide)

theorem write_offsets_wrap :
    ¬ Throughout (Recorded.step step) (OffsetHolds fun before _ => before < 2 ^ 32)
      (.fresh (Stream.init 2 true 0xFFFFFFFFFFFFFFFF)) [.write (List.replicate (2 ^ 32) 0), .write [0]] :=
  not_offsetHolds List.length_replicate _

/-! ### The two directions -/

/-- The call closes our side. -/
def Operation.closesWrite : Operation → Bool
  | .closeWrite => true
  | _ => false

/-- The call closes the peer's side. -/
def Operation.closesRead : Operation → Bool
  | .closeRead => true
  | _ => false

/-- Our side has been closed. -/
def writeClosed (past : List (Stream × Operation)) : Bool := past.any fun x => x.2.closesWrite

/-- The peer's side has been closed. -/
def readClosed (past : List (Stream × Operation)) : Bool := past.any fun x => x.2.closesRead

/-- The state of a stream whose sides are closed or not. -/
def sides : Bool → Bool → StreamState
  | false, false => .open
  | true, false => .halfClosedLocal
  | false, true => .halfClosedRemote
  | true, true => .closed

theorem canWrite_sides (write read : Bool) : (sides write read).canWrite = (!write && !read) := by
  cases write <;> cases read <;> rfl

/-- The transitions are those of two flags. -/
theorem next_state {s : Stream} {write read : Bool} (h : s.state = sides write read) (operation : Operation) :
    (s.next operation).state = sides (write || operation.closesWrite) (read || operation.closesRead) := by
  have hquiet : s.state = sides (write || false) (read || false) := by rw [h, Bool.or_false, Bool.or_false]
  cases operation with
  | write data =>
    rw [next_write]
    split <;> exact hquiet
  | read maxLen =>
    rw [next, Operation.perform, exec_bind_pure]
    obtain ⟨_, left, _, hleft, _⟩ := exec_read_takes s maxLen
    rw [hleft]
    exact hquiet
  | receiveData offset data => exact hquiet
  | closeWrite =>
    show s.closeWrite.state = sides (write || true) (read || false)
    rw [closeWrite, h]
    cases write <;> cases read <;> first | rfl | exact h
  | closeRead =>
    show s.closeRead.state = sides (write || false) (read || true)
    rw [closeRead, h]
    cases write <;> cases read <;> first | rfl | exact h
  | updateWindow newMax => exact hquiet

/-- The state is what the calls have closed. -/
def TwoSided (r : Recorded Stream Operation) : Prop := r.now.state = sides (writeClosed r.past) (readClosed r.past)

theorem twoSided_step {r r' : Recorded Stream Operation} {operation : Operation} (h : TwoSided r)
    (hstep : Recorded.step step r operation = some r') : TwoSided r' := by
  obtain ⟨s, hs, rfl⟩ := Recorded.step_eq_some.mp hstep
  cases hs
  rw [TwoSided, writeClosed, readClosed, List.any_append, List.any_append]
  simpa [writeClosed, readClosed] using next_state h operation

/-- A write succeeds exactly where our side has not been closed and the window has room,
whatever the peer has closed. -/
def WritesIndependently (r : Recorded Stream Operation) : Operation → Prop
  | .write data => (∃ offset, ((write data).exec r.now).1 = .ok offset) ↔
    writeClosed r.past = false ∧
      r.now.flowControl.sentOffset.toNat + data.length ≤ r.now.flowControl.maxOffset.toNat
  | _ => True

/-- No write comes where the two answers differ: our side is closed; or the peer's is, and
the window has no room either; or neither is, and the sum that is compared with the
window does not wrap to below it. -/
def SidesAgree (r : Recorded Stream Operation) : Operation → Prop
  | .write data => writeClosed r.past = true ∨
    if readClosed r.past then
      r.now.flowControl.maxOffset.toNat < r.now.flowControl.sentOffset.toNat + data.length
    else r.now.flowControl.sentOffset.toNat + data.length < 2 ^ 64 ∨
      r.now.flowControl.maxOffset.toNat < (r.now.flowControl.sentOffset.toNat + data.length) % 2 ^ 64
  | _ => True

/-- What the code asks of a write. -/
theorem exec_write_ok_iff {r : Recorded Stream Operation} (h : TwoSided r) (data : Bytes) :
    (∃ offset, ((write data).exec r.now).1 = .ok offset) ↔
      writeClosed r.past = false ∧ readClosed r.past = false ∧
        (r.now.flowControl.sentOffset.toNat + data.length) % 2 ^ 64 ≤ r.now.flowControl.maxOffset.toNat := by
  have hwindow : r.now.flowControl.canSend data.length = true ↔
      (r.now.flowControl.sentOffset.toNat + data.length) % 2 ^ 64 ≤ r.now.flowControl.maxOffset.toNat := by
    rw [FlowControl.canSend, decide_eq_true_iff, UInt64.le_iff_toNat_le, UInt64.toNat_add, UInt64.toNat_ofNat',
      Nat.add_mod_mod]
  have haccepts : r.now.accepts data = true ↔ writeClosed r.past = false ∧ readClosed r.past = false ∧
      (r.now.flowControl.sentOffset.toNat + data.length) % 2 ^ 64 ≤ r.now.flowControl.maxOffset.toNat := by
    rw [accepts, h, canWrite_sides, Bool.and_eq_true, hwindow, Bool.and_eq_true, Bool.not_eq_true', Bool.not_eq_true',
      and_assoc]
  rw [← haccepts]
  constructor
  · intro hok
    obtain ⟨offset, hoffset⟩ := hok
    exact (exec_write_eq_ok hoffset).1
  · intro hok
    exact ⟨_, by rw [exec_write_accepted hok]⟩

theorem writesIndependently_iff {r : Recorded Stream Operation} (h : TwoSided r) (operation : Operation) :
    WritesIndependently r operation ↔ SidesAgree r operation := by
  cases operation with
  | write data =>
    have hmax := r.now.flowControl.maxOffset.toNat_lt
    rw [WritesIndependently, SidesAgree, exec_write_ok_iff h]
    cases writeClosed r.past with
    | true => simp
    | false =>
      cases readClosed r.past with
      | true => simp
      | false =>
        simp only [true_and, Bool.false_eq_true, false_or, if_false]
        omega
  | _ => exact Iff.rfl

/-- **The directions close independently as long as no write is tried after FIN**, or where it
is refused in any case. -/
theorem half_close_iff (id : StreamId) (isClient : Bool) (window : UInt64) (ops : List Operation) :
    Throughout (Recorded.step step) WritesIndependently (.fresh (Stream.init id isClient window)) ops ↔
      Throughout (Recorded.step step) SidesAgree (.fresh (Stream.init id isClient window)) ops := by
  refine throughout_iff (I := TwoSided) (fun r operation h => ?_) (fun r operation r' h _ hstep => ?_) ?_ ops
  · exact writesIndependently_iff h operation
  · exact twoSided_step h hstep
  · rfl

/-- The peer sends FIN, and an octet cannot be written. -/
theorem write_after_fin :
    ¬ Throughout (Recorded.step step) WritesIndependently (.fresh (Stream.init 2 true 10)) [.closeRead, .write [7]] := by
  intro h
  obtain ⟨_, hrest⟩ := h
  obtain ⟨hwrites, _⟩ := hrest _ rfl
  obtain ⟨offset, hoffset⟩ := hwrites.mpr ⟨rfl, by decide⟩
  cases hoffset

end Aether.Stream
