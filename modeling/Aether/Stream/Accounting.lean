import Aether.Stream.Operations

/-! What the flow control of a stream counts.

One record holds the sender's two offsets and the receiver's one, and six methods
move them in any order. `Accounted` says what each of them is in terms of the calls
that were made: the octets written so far, the largest window ever given, and the
end of the furthest fragment. It is kept by every call (`accounted_step`), so it
holds of every run (`accounting`). -/
namespace Aether.Stream
open Octets Octets.Method

/-! ### What was called -/

/-- The octets a call has written. -/
def written : Stream × Operation → Nat
  | (s, .write data) => if ((write data).exec s).1.isOk then data.length else 0
  | _ => 0

/-- The window a call gives. -/
def granted : Stream × Operation → Option Nat
  | (_, .updateWindow newMax) => some newMax.toNat
  | _ => none

/-- Where the fragment ends that a call receives. -/
def reached : Stream × Operation → Option Nat
  | (_, .receiveData offset data) => some (offset.toNat + data.length)
  | _ => none

def writtenTotal (past : List (Stream × Operation)) : Nat := (past.map written).sum

/-- The largest of the first window and those given since. -/
def largestWindow (window : Nat) (past : List (Stream × Operation)) : Nat := (past.filterMap granted).foldl max window

/-- The furthest end of a fragment, 0 before there is one. -/
def furthest (past : List (Stream × Operation)) : Nat := (past.filterMap reached).foldl max 0

/-- The fragments received have lengths that a frame can carry. -/
def Framed (past : List (Stream × Operation)) : Prop :=
  ∀ s offset data, (s, Operation.receiveData offset data) ∈ past → data.length < 2 ^ 32

/-! ### What is counted -/

/-- The counters are what the calls make them. -/
structure Accounted (window : Nat) (past : List (Stream × Operation)) (fc : FlowControl) : Prop where
  sent : fc.sentOffset.toNat = writtenTotal past
  within : fc.sentOffset ≤ fc.maxOffset
  max : fc.maxOffset.toNat = largestWindow window past
  received : fc.receivedOffset.toNat = furthest past

/-- One number more, where there is one. -/
def orMax (n : Nat) : Option Nat → Nat
  | none => n
  | some k => Nat.max n k

theorem writtenTotal_append (past : List (Stream × Operation)) (x : Stream × Operation) :
    writtenTotal (past ++ [x]) = writtenTotal past + written x := by
  simp [writtenTotal]

theorem foldl_max_append {α : Type} (f : α → Option Nat) (n : Nat) (past : List α) (x : α) :
    ((past ++ [x]).filterMap f).foldl max n = orMax ((past.filterMap f).foldl max n) (f x) := by
  rw [List.filterMap_append, List.foldl_append]
  cases h : f x with
  | none => rw [List.filterMap_cons_none h]; rfl
  | some k => rw [List.filterMap_cons_some h]; rfl

/-- What a call has to do to each counter for the account to be kept. -/
theorem Accounted.call {window : Nat} {past : List (Stream × Operation)} {fc fc' : FlowControl}
    (h : Accounted window past fc) {x : Stream × Operation}
    (hsent : fc'.sentOffset.toNat = fc.sentOffset.toNat + written x) (hwithin : fc'.sentOffset ≤ fc'.maxOffset)
    (hmax : fc'.maxOffset.toNat = orMax fc.maxOffset.toNat (granted x))
    (hreceived : fc'.receivedOffset.toNat = orMax fc.receivedOffset.toNat (reached x)) :
    Accounted window (past ++ [x]) fc' where
  sent := by rw [writtenTotal_append, hsent, h.sent]
  within := hwithin
  max := by rw [largestWindow, foldl_max_append, hmax, h.max, largestWindow]
  received := by rw [furthest, foldl_max_append, hreceived, h.received, furthest]

/-- A call that writes nothing, gives no window and receives nothing. -/
theorem Accounted.quiet {window : Nat} {past : List (Stream × Operation)} {fc : FlowControl}
    (h : Accounted window past fc) {x : Stream × Operation} (hwritten : written x = 0) (hgranted : granted x = none)
    (hreached : reached x = none) : Accounted window (past ++ [x]) fc :=
  h.call (by rw [hwritten, Nat.add_zero]) h.within (by rw [hgranted]; rfl) (by rw [hreached]; rfl)

theorem accounted_init (id : StreamId) (isClient : Bool) (window : UInt64) :
    Accounted window.toNat [] (Stream.init id isClient window).flowControl :=
  ⟨rfl, UInt64.zero_le, rfl, rfl⟩

/-- A write that is accepted, where the octets written still fit the counter. -/
theorem Accounted.write {window : Nat} {past : List (Stream × Operation)} {s : Stream}
    (h : Accounted window past s.flowControl) {data : Bytes} (haccepts : s.accepts data = true)
    (hbytes : writtenTotal (past ++ [(s, .write data)]) < 2 ^ 64) :
    Accounted window (past ++ [(s, .write data)]) (s.flowControl.reserveSend data.length).2 := by
  have hwritten : written (s, .write data) = data.length := by
    rw [written, exec_write_accepted haccepts]
    rfl
  rw [writtenTotal_append, hwritten, ← h.sent] at hbytes
  refine h.call ?_ (of_decide_eq_true (Bool.and_eq_true_iff.mp haccepts).2) rfl rfl
  show (s.flowControl.sentOffset + UInt64.ofNat data.length).toNat = _
  rw [hwritten, UInt64.toNat_add, UInt64.toNat_ofNat', Nat.add_mod_mod]
  exact Nat.mod_eq_of_lt hbytes

theorem Accounted.updateWindow {window : Nat} {past : List (Stream × Operation)} {s : Stream}
    (h : Accounted window past s.flowControl) (newMax : UInt64) :
    Accounted window (past ++ [(s, .updateWindow newMax)]) (s.flowControl.updateWindow newMax) := by
  unfold FlowControl.updateWindow
  split
  · rename_i hlarger
    have hle := UInt64.le_of_lt hlarger
    exact h.call rfl (UInt64.le_trans h.within hle) (Nat.max_eq_right (UInt64.le_iff_toNat_le.mp hle)).symm rfl
  · rename_i hsmaller
    have hle := UInt64.not_lt.mp hsmaller
    exact h.call rfl h.within (Nat.max_eq_left (UInt64.le_iff_toNat_le.mp hle)).symm rfl

theorem Accounted.receiveData {window : Nat} {past : List (Stream × Operation)} {s : Stream}
    (h : Accounted window past s.flowControl) (offset : UInt32) {data : Bytes} (hdata : data.length < 2 ^ 32) :
    Accounted window (past ++ [(s, .receiveData offset data)])
      (s.flowControl.received offset (UInt32.ofNat data.length)) := by
  have hlast : (offset.toUInt64 + (UInt32.ofNat data.length).toUInt64).toNat = offset.toNat + data.length := by
    have hoffset := offset.toNat_lt
    rw [UInt64.toNat_add, UInt32.toNat_toUInt64, UInt32.toNat_toUInt64, UInt32.toNat_ofNat',
      Nat.mod_eq_of_lt hdata]
    omega
  unfold FlowControl.received
  simp only
  split
  · rename_i hlarger
    have hlt := UInt64.lt_iff_toNat_lt.mp hlarger
    rw [hlast] at hlt
    exact h.call rfl h.within rfl (hlast.trans (Nat.max_eq_right (Nat.le_of_lt hlt)).symm)
  · rename_i hsmaller
    have hle := UInt64.le_iff_toNat_le.mp (UInt64.not_lt.mp hsmaller)
    rw [hlast] at hle
    exact h.call rfl h.within rfl (Nat.max_eq_left hle).symm

/-- **One call keeps the account.** -/
theorem accounted_step {window : Nat} {past : List (Stream × Operation)} {s : Stream}
    (h : Accounted window past s.flowControl) (operation : Operation)
    (hbytes : writtenTotal (past ++ [(s, operation)]) < 2 ^ 64) (hframed : Framed (past ++ [(s, operation)])) :
    Accounted window (past ++ [(s, operation)]) (s.next operation).flowControl := by
  cases operation with
  | write data =>
    rw [next_write]
    cases haccepts : s.accepts data with
    | true => exact h.write haccepts hbytes
    | false =>
      obtain ⟨e, hexec⟩ := exec_write_refused haccepts
      exact h.quiet (by rw [written, hexec]; rfl) rfl rfl
  | read maxLen =>
    rw [next, Operation.perform, exec_bind_pure]
    obtain ⟨_, left, _, hleft, _⟩ := exec_read_takes s maxLen
    rw [hleft]
    exact h.quiet rfl rfl rfl
  | receiveData offset data =>
    exact h.receiveData offset (hframed s offset data (List.mem_append_right _ (List.mem_singleton_self _)))
  | closeWrite =>
    show Accounted window _ s.closeWrite.flowControl
    rw [closeWrite_flowControl]
    exact h.quiet rfl rfl rfl
  | closeRead =>
    show Accounted window _ s.closeRead.flowControl
    rw [closeRead_flowControl]
    exact h.quiet rfl rfl rfl
  | updateWindow newMax => exact h.updateWindow newMax

theorem accounted_run {id : StreamId} {isClient : Bool} {window : UInt64} {r : Recorded Stream Operation}
    (h : Reached (Recorded.step step) (fun _ _ => True) (.fresh (Stream.init id isClient window)) r)
    (hbytes : writtenTotal r.past < 2 ^ 64) (hframed : Framed r.past) :
    Accounted window.toNat r.past r.now.flowControl := by
  refine h.invariant (I := fun r => writtenTotal r.past < 2 ^ 64 → Framed r.past →
    Accounted window.toNat r.past r.now.flowControl) (fun _ _ => accounted_init id isClient window) ?_ hbytes hframed
  intro r operation t ih _ hstep hbytes hframed
  obtain ⟨s, hs, rfl⟩ := Recorded.step_eq_some.mp hstep
  cases hs
  -- What is within bounds at the end was so all along.
  have hbefore : writtenTotal r.past < 2 ^ 64 := by
    simp only [writtenTotal, List.map_append, List.sum_append] at hbytes ⊢
    omega
  exact accounted_step (ih hbefore fun s offset data hmem => hframed s offset data (List.mem_append_left _ hmem))
    operation hbytes hframed

/-! ### The account of a run -/

/-- What a stream and its past say of each other. -/
structure Accounting (window : UInt64) (r : Recorded Stream Operation) : Prop where
  sent : r.now.flowControl.sentOffset.toNat = writtenTotal r.past
  within : r.now.flowControl.sentOffset ≤ r.now.flowControl.maxOffset
  max : r.now.flowControl.maxOffset.toNat = largestWindow window.toNat r.past
  received : r.now.flowControl.receivedOffset.toNat = furthest r.past
  available : r.now.flowControl.availableWindow.toNat =
    r.now.flowControl.maxOffset.toNat - r.now.flowControl.sentOffset.toNat
  /-- A write that fails changes nothing. -/
  refused : ∀ data e s, (write data).exec r.now = (.error e, s) → s = r.now

theorem availableWindow_toNat {fc : FlowControl} (h : fc.sentOffset ≤ fc.maxOffset) :
    fc.availableWindow.toNat = fc.maxOffset.toNat - fc.sentOffset.toNat := by
  have hle := UInt64.le_iff_toNat_le.mp h
  unfold FlowControl.availableWindow
  split
  · rename_i hge
    exact (Nat.sub_eq_zero_of_le (UInt64.le_iff_toNat_le.mp hge)).symm
  · exact UInt64.toNat_sub_of_le _ _ h

/-- A write that fails leaves the stream as it was. -/
theorem exec_write_error {s s' : Stream} {data : Bytes} {e : Stop Error} (h : (write data).exec s = (.error e, s')) :
    s' = s := by
  cases haccepts : s.accepts data with
  | true =>
    rw [exec_write_accepted haccepts] at h
    cases h
  | false =>
    obtain ⟨_, hexec⟩ := exec_write_refused haccepts
    cases hexec.symm.trans h
    rfl

/-- **Whatever is called of a stream, and in whatever order, the counters are what the
calls make them.** -/
theorem accounting (id : StreamId) (isClient : Bool) (window : UInt64) {r : Recorded Stream Operation}
    (h : Reached (Recorded.step step) (fun _ _ => True) (.fresh (Stream.init id isClient window)) r)
    (hbytes : writtenTotal r.past < 2 ^ 64) (hframed : Framed r.past) : Accounting window r := by
  have haccounted := accounted_run h hbytes hframed
  exact ⟨haccounted.sent, haccounted.within, haccounted.max, haccounted.received,
    availableWindow_toNat haccounted.within, fun _ _ _ hexec => exec_write_error hexec⟩

/-- A stream of three octets that is written to twice, the second time too much. -/
def filled : Recorded Stream Operation :=
  let s := Stream.init 2 true 3
  ⟨(s.next (.write [1, 2])).next (.write [3, 4]), [(s, .write [1, 2]), (s.next (.write [1, 2]), .write [3, 4])]⟩

theorem accounting_filled : Accounting 3 filled :=
  accounting 2 true 3 (.next (.write [3, 4]) (.next (.write [1, 2]) .start trivial rfl) trivial rfl) (by decide)
    (fun _ _ _ hmem => by simp [filled] at hmem)

end Aether.Stream
