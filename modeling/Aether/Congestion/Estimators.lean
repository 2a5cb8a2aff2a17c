import Aether.Congestion.Overflow

/-! What the estimators estimate.

The least RTT is the one of the last ten seconds, although the window it is taken from
has been pruned at every acknowledgement, and the greatest bandwidth is the one there
has ever been (`estimators_exact`). That is as long as the times of acknowledgements
do not go back, and no acknowledgement overflows. -/
namespace Aether.CongestionController
open Octets Octets.Method

/-! ### Samples -/

structure Sample where
  bytesAcked : UInt64
  rtt : UInt64
  time : Instant

/-- What the acknowledgements said, in order. -/
def samples (past : List (CongestionController × Call)) : List Sample :=
  past.filterMap fun
    | (_, .onAck bytesAcked rtt now) => some ⟨bytesAcked, rtt, now⟩
    | (_, .onLoss _) => none

/-- Less than ten whole seconds ago. -/
def Sample.young (now : Instant) (x : Sample) : Bool := (now - x.time) / 1000000000 < 10

/-- The least RTT of the young samples. -/
def leastRtt (now : Instant) (xs : List Sample) : Option UInt64 := ((xs.filter (Sample.young now)).map Sample.rtt).min?

/-- In octets a second, of an RTT in microseconds. -/
def Sample.rate (x : Sample) : Nat := x.bytesAcked.toNat * 1000000 / x.rtt.toNat

/-- The greatest rate of the samples that took time, or 0. -/
def greatestRate (xs : List Sample) : Nat := ((xs.filter fun x => 0 < x.rtt).map Sample.rate).max?.getD 0

/-- Times do not go back, and no acknowledgement overflows. -/
def Orderly (scale : Scale) (r : Recorded CongestionController Call) : Call → Prop
  | .onAck bytesAcked rtt now => (∀ x ∈ samples r.past, x.time ≤ now) ∧
    Safe ((onAck .checked scale bytesAcked rtt now).exec r.now).1
  | .onLoss _ => True

theorem samples_onAck (past : List (CongestionController × Call)) (c : CongestionController) (bytesAcked rtt : UInt64)
    (now : Instant) : samples (past ++ [(c, .onAck bytesAcked rtt now)]) = samples past ++ [⟨bytesAcked, rtt, now⟩] :=
  List.filterMap_append

theorem samples_onLoss (past : List (CongestionController × Call)) (c : CongestionController) (currentRtt : UInt64) :
    samples (past ++ [(c, .onLoss currentRtt)]) = samples past :=
  List.filterMap_append.trans (List.append_nil _)

theorem max?_append_singleton (xs : List Nat) (n : Nat) : (xs ++ [n]).max?.getD 0 = max (xs.max?.getD 0) n := by
  cases xs with
  | nil => exact (Nat.zero_max n).symm
  | cons x xs =>
    rw [List.cons_append, List.max?_cons', List.max?_cons', List.foldl_append]
    rfl

/-- A sample that took no time has no rate. -/
theorem greatestRate_append (xs : List Sample) (x : Sample) : greatestRate (xs ++ [x]) = max (greatestRate xs) x.rate := by
  rw [greatestRate, List.filter_append, List.map_append]
  by_cases hrtt : 0 < x.rtt
  · have hlast : [x].filter (fun x => decide (0 < x.rtt)) = [x] := List.filter_cons_of_pos (decide_eq_true hrtt)
    rw [hlast]
    exact max?_append_singleton _ _
  · have hlast : [x].filter (fun x => decide (0 < x.rtt)) = [] := List.filter_cons_of_neg (by simpa using hrtt)
    have hzero : x.rtt.toNat = 0 := Nat.eq_zero_of_not_pos hrtt
    rw [hlast, Sample.rate, hzero, Nat.div_zero, Nat.max_zero, List.map_nil, List.append_nil]
    rfl

/-- An entry of the window. -/
def Sample.entry (x : Sample) : UInt64 × Instant := (x.rtt, x.time)

theorem leastRtt_eq (now : Instant) (xs : List Sample) :
    leastRtt now xs = (((xs.map Sample.entry).filter (recentRtts.young now)).map Prod.fst).min? := by
  rw [leastRtt, List.filter_map, List.map_map]
  rfl

/-! ### One call -/

/-- The window stands for all samples, and the bandwidth is the greatest of their rates. -/
structure Estimates (xs : List Sample) (c : CongestionController) : Prop where
  rttWindow : ∀ t, (∀ x ∈ xs, x.time ≤ t) → recentRtts.Stands t (xs.map Sample.entry) c.rttWindow
  maxBw : c.maxBw.toNat = greatestRate xs

theorem resized_estimators (scale : Scale) (c : CongestionController) :
    (resized scale c).minRtt = c.minRtt ∧ (resized scale c).maxBw = c.maxBw ∧ (resized scale c).rttWindow = c.rttWindow := by
  rw [resized]
  cases c.state with
  | startup =>
    simp only
    split <;> exact ⟨rfl, rfl, rfl⟩
  | _ => exact ⟨rfl, rfl, rfl⟩

/-- A loss is no sample. -/
theorem onLoss_estimators {build : Build} {scale : Scale} {c c' : CongestionController} {currentRtt : UInt64}
    (h : step build scale c (.onLoss currentRtt) = some c') :
    c'.maxBw = c.maxBw ∧ c'.rttWindow = c.rttWindow := by
  rw [step, Call.perform, onLoss, exec_get_bind] at h
  cases hhigh : (build.mul c.minRtt 3 : Result UInt64) with
  | error e =>
    rw [hhigh, exec_bind_error (exec_lift _ _)] at h
    cases h
  | ok high =>
    rw [hhigh, exec_bind_ok (exec_lift _ _)] at h
    by_cases hnoise : currentRtt > high
    · simp [hnoise] at h
      subst h
      exact ⟨rfl, rfl⟩
    · simp [hnoise] at h
      subst h
      exact ⟨rfl, rfl⟩

/-- The window after an acknowledgement is the young part of the samples. -/
theorem Estimates.least {xs : List Sample} {c : CongestionController} (h : Estimates xs c) {scale : Scale}
    {bytesAcked rtt : UInt64} {now : Instant} (htimes : ∀ x ∈ xs, x.time ≤ now)
    (hfits : Fits c (.onAck bytesAcked rtt now)) :
    leastRtt now (xs ++ [⟨bytesAcked, rtt, now⟩]) = some (done scale c (.onAck bytesAcked rtt now)).minRtt := by
  obtain ⟨hminRtt, _, _⟩ := resized_estimators scale (measured bytesAcked rtt now c)
  have hmeasures := measured_spec (c := c) now (fits_onAck_iff.mp hfits).1
  have hyoung : recentRtts.young now (rtt, now) = true := recent_self now
  have hwindow : recentRtts.push now (rtt, now) c.rttWindow =
      ((xs ++ [(⟨bytesAcked, rtt, now⟩ : Sample)]).map Sample.entry).filter (recentRtts.young now) := by
    rw [(h.rttWindow now htimes).push_eq hyoung, List.map_append]
    rfl
  have hmin : (done scale c (.onAck bytesAcked rtt now)).minRtt = (measured bytesAcked rtt now c).minRtt := hminRtt
  have hheld (r : UInt64) :
      Held c rtt now r ↔ r ∈ (recentRtts.push now (rtt, now) c.rttWindow).map Prod.fst := by
    rw [held_iff]
    simp
  rw [leastRtt_eq, ← hwindow, hmin, List.min?_eq_some_iff]
  exact ⟨(hheld _).mp hmeasures.held, fun r hr => hmeasures.least r ((hheld r).mpr hr)⟩

theorem Estimates.onAck {xs : List Sample} {c : CongestionController} (h : Estimates xs c) {scale : Scale}
    {bytesAcked rtt : UInt64} {now : Instant} (hfits : Fits c (.onAck bytesAcked rtt now)) :
    Estimates (xs ++ [⟨bytesAcked, rtt, now⟩]) (done scale c (.onAck bytesAcked rtt now)) := by
  obtain ⟨_, hmaxBw, hrttWindow⟩ := resized_estimators scale (measured bytesAcked rtt now c)
  have hmeasures := measured_spec (c := c) now (fits_onAck_iff.mp hfits).1
  constructor
  · intro t ht
    have hbefore : ∀ x ∈ xs, x.time ≤ t := fun x hx => ht x (List.mem_append_left _ hx)
    have hnow : now ≤ t := ht ⟨bytesAcked, rtt, now⟩ List.mem_concat_self
    have hstands := (h.rttWindow t hbefore).push hnow (rtt, now)
    rw [← hmeasures.rttWindow, ← hrttWindow] at hstands
    rw [List.map_append]
    exact hstands
  · rw [greatestRate_append, ← h.maxBw]
    exact (congrArg UInt64.toNat hmaxBw).trans hmeasures.maxBw

/-! ### Runs -/

/-- Every orderly call keeps the estimates. -/
theorem estimates_step {build : Build} {scale : Scale} {r r' : Recorded CongestionController Call} {call : Call}
    (h : Estimates (samples r.past) r.now) (horderly : Orderly scale r call)
    (hstep : Recorded.step (step build scale) r call = some r') : Estimates (samples r'.past) r'.now := by
  obtain ⟨c', hc', rfl⟩ := Recorded.step_eq_some.mp hstep
  cases call with
  | onAck bytesAcked rtt now =>
    have hfits := (safe_perform_iff scale r.now (.onAck bytesAcked rtt now)).mp horderly.2
    rw [step_of_fits build scale hfits] at hc'
    cases hc'
    rw [samples_onAck]
    exact h.onAck hfits
  | onLoss currentRtt =>
    obtain ⟨hmaxBw, hrttWindow⟩ := onLoss_estimators hc'
    rw [samples_onLoss]
    constructor
    · rw [hrttWindow]
      exact h.rttWindow
    · rw [hmaxBw]
      exact h.maxBw

theorem estimates_reached {build : Build} {scale : Scale} {initialCwnd : UInt64} {start : Instant}
    {r : Recorded CongestionController Call}
    (h : Reached (Recorded.step (step build scale)) (Orderly scale) (Recorded.fresh (new initialCwnd start)) r) :
    Estimates (samples r.past) r.now := by
  refine h.invariant (I := fun r => Estimates (samples r.past) r.now) ?_ ?_
  · exact ⟨fun _ _ => rfl, rfl⟩
  · exact fun _ _ _ hr horderly hstep => estimates_step hr horderly hstep

/-- **After an acknowledgement the estimators are exact**: the least RTT is the one of the
samples of the last ten seconds, and the greatest bandwidth the one of all samples. -/
theorem estimators_exact {build : Build} {scale : Scale} {initialCwnd : UInt64} {start : Instant}
    {r r' : Recorded CongestionController Call} {bytesAcked rtt : UInt64} {now : Instant}
    (h : Reached (Recorded.step (step build scale)) (Orderly scale) (Recorded.fresh (new initialCwnd start)) r)
    (horderly : Orderly scale r (.onAck bytesAcked rtt now))
    (hstep : Recorded.step (step build scale) r (.onAck bytesAcked rtt now) = some r') :
    leastRtt now (samples r'.past) = some r'.now.minRtt ∧ r'.now.maxBw.toNat = greatestRate (samples r'.past) := by
  have hestimates := estimates_reached h
  have hfits := (safe_perform_iff scale r.now (.onAck bytesAcked rtt now)).mp horderly.2
  refine ⟨?_, (estimates_step hestimates horderly hstep).maxBw⟩
  obtain ⟨c', hc', rfl⟩ := Recorded.step_eq_some.mp hstep
  rw [step_of_fits build scale hfits] at hc'
  cases hc'
  rw [samples_onAck]
  exact hestimates.least horderly.1 hfits

/-- A controller that has been told of 1400 octets in 10 ms. -/
def onceAcked : CongestionController :=
  { cwnd := 15400
    minRtt := 10000
    maxBw := 140000
    gain := 3 / 4
    state := .drain
    lastUpdate := 0
    rttWindow := [(10000, 0)] }

/-- Ten seconds later the first sample is no longer young, and the least RTT is greater. -/
theorem estimators_exact_later :
    ∃ r' : Recorded CongestionController Call, leastRtt 10000000000 (samples r'.past) = some r'.now.minRtt ∧
      r'.now.maxBw.toNat = greatestRate (samples r'.past) ∧ r'.now.minRtt = 20000 := by
  have hfirst : step .checked exactScale (new 14000 0) (.onAck 1400 10000 0) = some onceAcked := by
    decide +kernel
  have hsecond : step .checked exactScale onceAcked (.onAck 1400 20000 10000000000) =
      some ⟨2100, 20000, 140000, 3 / 4, .probe, 10000000000, [(20000, 10000000000)]⟩ := by
    decide +kernel
  have hfirstFits : Fits (new 14000 0) (.onAck 1400 10000 0) := fun _ => ⟨by decide, 10000, .inl rfl, by decide⟩
  have hsecondFits : Fits onceAcked (.onAck 1400 20000 10000000000) := fun _ => ⟨by decide, 20000, .inl rfl, by decide⟩
  have hfirstOrderly : Orderly exactScale (Recorded.fresh (new 14000 0)) (.onAck 1400 10000 0) :=
    ⟨fun x hx => (List.not_mem_nil hx).elim, (safe_perform_iff exactScale _ (.onAck 1400 10000 0)).mpr hfirstFits⟩
  have hsecondOrderly :
      Orderly exactScale ⟨onceAcked, [(new 14000 0, .onAck 1400 10000 0)]⟩ (.onAck 1400 20000 10000000000) := by
    refine ⟨fun x hx => ?_, (safe_perform_iff exactScale _ (.onAck 1400 20000 10000000000)).mpr hsecondFits⟩
    cases List.mem_singleton.mp hx
    exact Nat.zero_le _
  have h := estimators_exact (.next (.onAck 1400 10000 0) .start hfirstOrderly (Recorded.step_eq_some.mpr ⟨_, hfirst, rfl⟩))
    hsecondOrderly (Recorded.step_eq_some.mpr ⟨_, hsecond, rfl⟩)
  exact ⟨_, h.1, h.2, rfl⟩

end Aether.CongestionController
