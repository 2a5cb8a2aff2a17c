import Mathlib.Algebra.Order.Floor.Semifield
import Mathlib.Tactic.Ring
import Aether.Congestion.Estimators

/-! The phases of congestion control.

A controller starts up, drains, probes and is steady, and never goes back: it drains for one
acknowledgement, and the first loss that is not the path's noise makes it steady for good
(`phases_in_order`). Once it has started up its window is a function of the samples, so
that an acknowledgement undoes what losses have done to it (`window_of_samples`). -/
namespace Aether
open Octets Octets.Method

/-- How far a state is on. -/
def CongestionState.phase : CongestionState → Nat
  | .startup => 0
  | .drain => 1
  | .probe => 2
  | .steady => 3

namespace CongestionController

/-! ### One call -/

/-- A loss that is not taken for noise. -/
def Congested (build : Build) (c : CongestionController) : Call → Prop
  | .onAck _ _ _ => False
  | .onLoss currentRtt => ∃ high, (build.mul c.minRtt 3 : Result UInt64) = .ok high ∧ ¬ currentRtt > high

/-- What a call does to the phase and the gain, which may be congested. -/
inductive Turns (congested : Prop) : CongestionState → ℚ → Call → CongestionState → ℚ → Prop where
  | grows {gain : ℚ} {bytesAcked rtt : UInt64} {now : Instant} :
      Turns congested .startup gain (.onAck bytesAcked rtt now) .startup gain
  | fills {gain : ℚ} {bytesAcked rtt : UInt64} {now : Instant} :
      Turns congested .startup gain (.onAck bytesAcked rtt now) .drain (3 / 4)
  | drains {gain : ℚ} {bytesAcked rtt : UInt64} {now : Instant} :
      Turns congested .drain gain (.onAck bytesAcked rtt now) .probe (3 / 4)
  | probes {gain : ℚ} {bytesAcked rtt : UInt64} {now : Instant} :
      Turns congested .probe gain (.onAck bytesAcked rtt now) .probe (5 / 4)
  | follows {gain : ℚ} {bytesAcked rtt : UInt64} {now : Instant} :
      Turns congested .steady gain (.onAck bytesAcked rtt now) .steady gain
  | ignores {state : CongestionState} {gain : ℚ} {currentRtt : UInt64} (noise : ¬ congested) :
      Turns congested state gain (.onLoss currentRtt) state gain
  | yields {state : CongestionState} {gain : ℚ} {currentRtt : UInt64} (congestion : congested) :
      Turns congested state gain (.onLoss currentRtt) .steady 1

theorem turns_resize {build : Build} {scale : Scale} {c c' : CongestionController} {u : Unit}
    (h : (resize build scale).exec c = (.ok u, c')) (congested : Prop) (bytesAcked rtt : UInt64) (now : Instant) :
    Turns congested c.state c.gain (.onAck bytesAcked rtt now) c'.state c'.gain := by
  rw [resize, exec_get_bind] at h
  cases hstate : c.state with
  | startup =>
    simp only [hstate, exec_set_bind] at h
    split at h
    · obtain ⟨target, _, h⟩ := exec_lift_bind_eq_ok.mp h
      split at h
      · cases h
        exact .fills
      · cases h
        exact .grows
    · cases h
      exact .grows
  | probe =>
    simp only [hstate, exec_set_bind] at h
    obtain ⟨target, _, h⟩ := exec_lift_bind_eq_ok.mp h
    cases h
    exact .probes
  | drain =>
    simp only [hstate, exec_set_bind] at h
    obtain ⟨target, _, h⟩ := exec_lift_bind_eq_ok.mp h
    cases h
    exact .drains
  | steady =>
    simp only [hstate] at h
    obtain ⟨target, _, h⟩ := exec_lift_bind_eq_ok.mp h
    cases h
    exact .follows

theorem estimateRtt_phase (c : CongestionController) (rtt : UInt64) (now : Instant) :
    (estimateRtt rtt now c).state = c.state ∧ (estimateRtt rtt now c).gain = c.gain := by
  obtain ⟨least, hleast, _⟩ := estimateRtt_spec c rtt now
  rw [hleast]
  exact ⟨rfl, rfl⟩

theorem estimateBw_phase (c : CongestionController) (rate : UInt64) :
    (estimateBw rate c).state = c.state ∧ (estimateBw rate c).gain = c.gain := by
  rw [estimateBw]
  split <;> exact ⟨rfl, rfl⟩

/-- **Every call that returns turns the phase in one of these ways**, in every build. -/
theorem turns_step {build : Build} {scale : Scale} {c c' : CongestionController} {call : Call}
    (h : step build scale c call = some c') : Turns (Congested build c call) c.state c.gain call c'.state c'.gain := by
  have hexec : (call.perform build scale).exec c = (.ok (), c') := by
    rw [step] at h
    split at h
    · rename_i hexec
      cases h
      exact hexec
    · cases h
  cases call with
  | onAck bytesAcked rtt now =>
    rw [Call.perform, onAck, exec_modify_bind, exec_get_bind] at hexec
    obtain ⟨rate, _, hexec⟩ := exec_lift_bind_eq_ok.mp hexec
    rw [exec_modify_bind] at hexec
    obtain ⟨u, c₁, hresize, hexec⟩ := exec_bind_eq_ok.mp hexec
    cases hexec
    have hturns := turns_resize hresize (Congested build c (.onAck bytesAcked rtt now)) bytesAcked rtt now
    rwa [(estimateBw_phase _ rate).1, (estimateBw_phase _ rate).2, (estimateRtt_phase c rtt now).1,
      (estimateRtt_phase c rtt now).2] at hturns
  | onLoss currentRtt =>
    rw [Call.perform, onLoss, exec_get_bind] at hexec
    obtain ⟨high, hhigh, hexec⟩ := exec_lift_bind_eq_ok.mp hexec
    by_cases hnoise : currentRtt > high
    · simp [hnoise] at hexec
      subst hexec
      refine .ignores fun hcongested => ?_
      obtain ⟨high', hhigh', hlow⟩ := hcongested
      cases hhigh.symm.trans hhigh'
      exact hlow hnoise
    · simp [hnoise] at hexec
      subst hexec
      exact .yields ⟨high, hhigh, hnoise⟩

/-! ### Runs -/

def Call.isAck : Call → Bool
  | .onAck _ _ _ => true
  | .onLoss _ => false

/-- The gain of a state; probing begins with the one of draining. -/
def Geared : CongestionState → ℚ → Prop
  | .startup, gain => gain = 289 / 100
  | .drain, gain => gain = 3 / 4
  | .probe, gain => gain = 3 / 4 ∨ gain = 5 / 4
  | .steady, gain => gain = 1

section
variable {congested : Prop} {state state' : CongestionState} {gain gain' : ℚ} {call : Call}

theorem Turns.phase_le (h : Turns congested state gain call state' gain') : state.phase ≤ state'.phase := by
  cases h with
  | yields congestion => cases state <;> decide
  | ignores noise => exact Nat.le_refl _
  | _ => decide

theorem Turns.geared (h : Turns congested state gain call state' gain') (hgain : Geared state gain) :
    Geared state' gain' := by
  cases h with
  | grows => exact hgain
  | fills => rfl
  | drains => exact .inl rfl
  | probes => exact .inr rfl
  | follows => exact hgain
  | ignores noise => exact hgain
  | yields congestion => rfl

/-- It is steady if it was, or is told of congestion. -/
theorem Turns.steady_iff (h : Turns congested state gain call state' gain') (hack : call.isAck = true → ¬ congested) :
    state' = .steady ↔ state = .steady ∨ congested := by
  cases h with
  | ignores noise => exact (or_iff_left noise).symm
  | yields congestion => exact iff_of_true rfl (.inr congestion)
  | follows => exact iff_of_true rfl (.inl rfl)
  | _ => exact iff_of_false nofun (not_or.mpr ⟨nofun, hack rfl⟩)

/-- Draining ends with the next acknowledgement. -/
theorem Turns.drained (h : Turns congested state gain call state' gain') (hdrain : state = .drain)
    (hack : call.isAck = true) : 2 ≤ state'.phase := by
  subst hdrain
  cases h with
  | drains => decide
  | ignores noise => cases hack
  | yields congestion => cases hack

end

/-- The phases a run has gone through, the present one last. -/
def phases (r : Recorded CongestionController Call) : List Nat :=
  r.past.map (fun x => x.1.state.phase) ++ [r.now.state.phase]

/-- The acknowledgements that came while a controller was draining. -/
def drainAcks (past : List (CongestionController × Call)) : List (CongestionController × Call) :=
  past.filter fun x => x.1.state = .drain ∧ x.2.isAck

/-- The losses that were taken for congestion. -/
def Yielded (build : Build) (past : List (CongestionController × Call)) : Prop := ∃ x ∈ past, Congested build x.1 x.2

/-- Where a run stands. -/
structure InOrder (build : Build) (r : Recorded CongestionController Call) : Prop where
  sorted : (phases r).Pairwise (· ≤ ·)
  drained : (drainAcks r.past).length ≤ 1
  draining : r.now.state.phase ≤ 1 → drainAcks r.past = []
  geared : Geared r.now.state r.now.gain
  steady : r.now.state = .steady ↔ Yielded build r.past

theorem pairwise_concat {xs : List Nat} {m n : Nat} (h : (xs ++ [m]).Pairwise (· ≤ ·)) (hmn : m ≤ n) :
    ((xs ++ [m]) ++ [n]).Pairwise (· ≤ ·) := by
  rw [List.pairwise_append]
  refine ⟨h, List.pairwise_singleton _ _, fun k hk n' hn' => ?_⟩
  cases List.mem_singleton.mp hn'
  rcases List.mem_append.mp hk with hk | hk
  · exact Nat.le_trans ((List.pairwise_append.mp h).2.2 k hk m List.mem_cons_self) hmn
  · cases List.mem_singleton.mp hk
    exact hmn

theorem InOrder.step {build : Build} {scale : Scale} {r r' : Recorded CongestionController Call} {call : Call}
    (h : InOrder build r) (hstep : Recorded.step (CongestionController.step build scale) r call = some r') :
    InOrder build r' := by
  obtain ⟨c', hc', rfl⟩ := Recorded.step_eq_some.mp hstep
  have hturns := turns_step hc'
  have hle := hturns.phase_le
  have hack : call.isAck = true → ¬ Congested build r.now call := by
    cases call with
    | onAck => exact fun _ => id
    | onLoss => exact nofun
  have hacks : drainAcks (r.past ++ [(r.now, call)]) = drainAcks r.past ++ drainAcks [(r.now, call)] :=
    List.filter_append ..
  refine ⟨?_, ?_, fun hphase => ?_, hturns.geared h.geared, ?_⟩
  · have hphases : phases ⟨c', r.past ++ [(r.now, call)]⟩ = phases r ++ [c'.state.phase] := by
      simp [phases]
    rw [hphases]
    exact pairwise_concat h.sorted hle
  · rw [hacks, List.length_append]
    by_cases hdrain : r.now.state = .drain
    · have hnone : drainAcks r.past = [] := h.draining (by rw [hdrain]; decide)
      rw [hnone]
      exact Nat.le_trans (Nat.add_le_add_left (List.length_filter_le ..) _) (Nat.le_refl 1)
    · have hnone : drainAcks [(r.now, call)] = [] := by simp [drainAcks, hdrain]
      rw [hnone]
      exact h.drained
  · have hnone : drainAcks [(r.now, call)] = [] := by
      by_cases hdrain : r.now.state = .drain ∧ call.isAck = true
      · exact absurd (hturns.drained hdrain.1 hdrain.2) (Nat.not_le.mpr (Nat.lt_succ_of_le hphase))
      · simpa [drainAcks] using hdrain
    rw [hacks, h.draining (Nat.le_trans hle hphase), hnone]
    rfl
  · rw [hturns.steady_iff hack, h.steady]
    simp [Yielded, or_and_right, exists_or]

/-- **A controller never goes back**: it starts up, drains for one acknowledgement at most,
probes, and is steady for good from the first loss on that it takes for congestion. Its gain
is always that of its phase. -/
theorem phases_in_order (build : Build) (scale : Scale) (initialCwnd : UInt64) (start : Instant)
    (r : Recorded CongestionController Call)
    (h : Reached (Recorded.step (CongestionController.step build scale)) (fun _ _ => True)
      (Recorded.fresh (new initialCwnd start)) r) : InOrder build r := by
  refine h.invariant (I := InOrder build) ?_ ?_
  · refine ⟨List.pairwise_singleton _ _, Nat.zero_le _, fun _ => rfl, rfl, ?_⟩
    exact iff_of_false nofun fun hyielded => absurd hyielded.choose_spec.1 List.not_mem_nil
  · exact fun _ _ _ hr _ hstep => hr.step hstep

/-- A loss of what has just been acknowledged. -/
theorem phases_in_order_loss : ∃ r : Recorded CongestionController Call, r.now.state = .steady ∧ InOrder .checked r := by
  have hack : CongestionController.step .checked exactScale (new 14000 0) (.onAck 1400 10000 0) = some onceAcked := by
    decide +kernel
  have hloss : CongestionController.step .checked exactScale onceAcked (.onLoss 10000) =
      some { onceAcked with cwnd := 7700, state := .steady, gain := 1 } := by
    decide +kernel
  have hreached : Reached (Recorded.step (CongestionController.step .checked exactScale)) (fun _ _ => True)
      (Recorded.fresh (new 14000 0)) _ :=
    .next (.onLoss 10000) (.next (.onAck 1400 10000 0) .start trivial (Recorded.step_eq_some.mpr ⟨_, hack, rfl⟩)) trivial
      (Recorded.step_eq_some.mpr ⟨_, hloss, rfl⟩)
  exact ⟨_, rfl, phases_in_order .checked exactScale 14000 0 _ hreached⟩

/-! ### The window of a controller that has started up -/

/-- What an acknowledgement makes of the bandwidth-delay product, by the state it comes in. -/
def windowOf (scale : Scale) : CongestionState → UInt64 → UInt64
  | .startup, target => target
  | .probe, target => scale target (5 / 4)
  | .drain, target => scale target (3 / 4)
  | .steady, target => target

theorem resized_window {scale : Scale} {c : CongestionController} (h : c.state ≠ .startup) :
    (resized scale c).cwnd = windowOf scale c.state (c.maxBw * c.minRtt / 1000000) := by
  rw [resized]
  cases hstate : c.state with
  | startup => exact absurd hstate h
  | _ => rfl

/-- **The window is a function of the samples** after every acknowledgement but those of
startup: the greatest rate there has been, times the least RTT of the last ten seconds, with
the gain of the state. What losses did to the window before is gone. -/
theorem window_of_samples {build : Build} {scale : Scale} {initialCwnd : UInt64} {start : Instant}
    {r r' : Recorded CongestionController Call} {bytesAcked rtt : UInt64} {now : Instant}
    (h : Reached (Recorded.step (step build scale)) (Orderly scale) (Recorded.fresh (new initialCwnd start)) r)
    (horderly : Orderly scale r (.onAck bytesAcked rtt now))
    (hstep : Recorded.step (step build scale) r (.onAck bytesAcked rtt now) = some r') (hstate : r.now.state ≠ .startup) :
    ∃ least target, leastRtt now (samples r'.past) = some least ∧
      target.toNat = greatestRate (samples r'.past) * least.toNat / 1000000 ∧
      r'.now.cwnd = windowOf scale r.now.state target := by
  have hestimates := estimates_reached h
  have hrate := (estimates_step hestimates horderly hstep).maxBw
  have hfits := (safe_perform_iff scale r.now (.onAck bytesAcked rtt now)).mp horderly.2
  obtain ⟨c', hc', rfl⟩ := Recorded.step_eq_some.mp hstep
  rw [step_of_fits build scale hfits] at hc'
  cases hc'
  have hleast : leastRtt now (samples r.past ++ [⟨bytesAcked, rtt, now⟩]) =
      some (done scale r.now (.onAck bytesAcked rtt now)).minRtt := hestimates.least horderly.1 hfits
  obtain ⟨hbytes, hproduct⟩ := fits_onAck_iff.mp hfits
  have hmeasures := measured_spec (c := r.now) now hbytes
  obtain ⟨hminRtt, hmaxBw, _⟩ := resized_estimators scale (measured bytesAcked rtt now r.now)
  refine ⟨_, (measured bytesAcked rtt now r.now).maxBw * (measured bytesAcked rtt now r.now).minRtt / 1000000,
    by rw [samples_onAck]; exact hleast, ?_, ?_⟩
  · have hbw : (measured bytesAcked rtt now r.now).maxBw.toNat =
        greatestRate (samples (r.past ++ [(r.now, .onAck bytesAcked rtt now)])) :=
      (congrArg UInt64.toNat hmaxBw).symm.trans hrate
    have hmin : (done scale r.now (.onAck bytesAcked rtt now)).minRtt = (measured bytesAcked rtt now r.now).minRtt := hminRtt
    rw [UInt64.toNat_div, toNat_mul_of_lt hproduct, hbw, hmin]
    rfl
  · have hsame : (measured bytesAcked rtt now r.now).state = r.now.state := hmeasures.state
    rw [← hsame]
    exact resized_window (hsame.symm ▸ hstate)

/-- Ten seconds after the first sample only the second one counts: 140000 octets a second for 20 ms, and three
quarters of that. -/
theorem window_of_samples_later :
    ∃ r' : Recorded CongestionController Call, ∃ least target, leastRtt 10000000000 (samples r'.past) = some least ∧
      target.toNat = greatestRate (samples r'.past) * least.toNat / 1000000 ∧
      r'.now.cwnd = windowOf exactScale .drain target ∧ r'.now.cwnd = 2100 := by
  have hfirst : step .checked exactScale (new 14000 0) (.onAck 1400 10000 0) = some onceAcked := by
    decide +kernel
  have hsecond : step .checked exactScale onceAcked (.onAck 1400 20000 10000000000) =
      some ⟨2100, 20000, 140000, 3 / 4, .probe, 10000000000, [(20000, 10000000000)]⟩ := by
    decide +kernel
  have hfirstFits : Fits (new 14000 0) (.onAck 1400 10000 0) := fun _ => ⟨by decide, 10000, .inl rfl, by decide⟩
  have hsecondFits : Fits onceAcked (.onAck 1400 20000 10000000000) := fun _ => ⟨by decide, 20000, .inl rfl, by decide⟩
  have hfirstOrderly : Orderly exactScale (Recorded.fresh (new 14000 0)) (.onAck 1400 10000 0) :=
    ⟨fun x hx => (List.not_mem_nil hx).elim, (safe_perform_iff exactScale _ (.onAck 1400 10000 0)).mpr hfirstFits⟩
  have hsecondOrderly :
      Orderly exactScale ⟨onceAcked, [(new 14000 0, .onAck 1400 10000 0)]⟩ (.onAck 1400 20000 10000000000) := by
    refine ⟨fun x hx => ?_, (safe_perform_iff exactScale _ (.onAck 1400 20000 10000000000)).mpr hsecondFits⟩
    cases List.mem_singleton.mp hx
    exact Nat.zero_le _
  obtain ⟨least, target, hleast, htarget, hcwnd⟩ := window_of_samples
    (.next (.onAck 1400 10000 0) .start hfirstOrderly (Recorded.step_eq_some.mpr ⟨_, hfirst, rfl⟩)) hsecondOrderly
    (Recorded.step_eq_some.mpr ⟨_, hsecond, rfl⟩) (by decide : onceAcked.state ≠ .startup)
  exact ⟨_, least, target, hleast, htarget, hcwnd, rfl⟩

/-! ### Startup -/

/-- A tenth is added, rounded down, as long as it fits in a word. -/
theorem toNat_exactScale_startup (x : UInt64) :
    (exactScale x (11 / 10)).toNat = min (x.toNat + x.toNat / 10) (2 ^ 64 - 1) := by
  have hfloor : ⌊(x.toNat : ℚ) * (11 / 10)⌋₊ = x.toNat + x.toNat / 10 := by
    have hquotient : (x.toNat : ℚ) * (11 / 10) = ((x.toNat * 11 : Nat) : ℚ) / ((10 : Nat) : ℚ) := by
      push_cast
      ring
    rw [hquotient, Nat.floor_div_eq_div]
    omega
  have hword : min (x.toNat + x.toNat / 10) (2 ^ 64 - 1) < 2 ^ 64 := Nat.lt_of_le_of_lt (Nat.min_le_right _ _) (by decide)
  rw [exactScale, hfloor, UInt64.toNat_ofNat_of_lt' hword]

/-- What startup asks of the rounding: one octet more at least where there are ten, up to the
greatest word, and none where there are fewer. It is so for doubles too. -/
structure StartsUp (scale : Scale) : Prop where
  grows : ∀ x : UInt64, 10 ≤ x.toNat → min (x.toNat + 1) (2 ^ 64 - 1) ≤ (scale x (11 / 10)).toNat
  stays : ∀ x : UInt64, x.toNat < 10 → scale x (11 / 10) = x

theorem startsUp_exactScale : StartsUp exactScale where
  grows x hten := by
    rw [toNat_exactScale_startup]
    omega
  stays x hfew := by
    apply UInt64.toNat_inj.mp
    rw [toNat_exactScale_startup]
    omega

/-- What holds of a window that has started up with so many acknowledgements. -/
structure Starting (initialCwnd : Nat) (acks : Nat) (c : CongestionController) : Prop where
  grows : 10 ≤ initialCwnd → min (initialCwnd + acks) (2 ^ 64 - 1) ≤ c.cwnd.toNat
  stays : initialCwnd < 10 → c.cwnd.toNat = initialCwnd
  below : 0 < acks → c.maxBw.toNat = 0 ∨ c.cwnd.toNat < c.maxBw.toNat * c.minRtt.toNat / 1000000

/-- An acknowledgement that does not end startup adds to the window and finds it too small. -/
theorem resized_startup {scale : Scale} {c : CongestionController} (hstate : c.state = .startup)
    (hlater : (resized scale c).state = .startup) :
    resized scale c = { c with cwnd := scale c.cwnd (11 / 10) } ∧
      ¬ (c.maxBw > 0 ∧ scale c.cwnd (11 / 10) ≥ c.maxBw * c.minRtt / 1000000) := by
  rw [resized, hstate] at hlater ⊢
  simp only at hlater ⊢
  split at hlater
  · cases hlater
  · rename_i hsmall
    rw [if_neg hsmall]
    exact ⟨rfl, hsmall⟩

theorem Starting.onAck {scale : Scale} (hscale : StartsUp scale) {initialCwnd acks : Nat} {c : CongestionController}
    {bytesAcked rtt : UInt64} {now : Instant} (h : Starting initialCwnd acks c)
    (hfits : Fits c (.onAck bytesAcked rtt now)) (hstate : c.state = .startup)
    (hlater : (done scale c (.onAck bytesAcked rtt now)).state = .startup) :
    Starting initialCwnd (acks + 1) (done scale c (.onAck bytesAcked rtt now)) := by
  obtain ⟨hbytes, hproduct⟩ := fits_onAck_iff.mp hfits
  have hmeasures := measured_spec (c := c) now hbytes
  obtain ⟨hresized, hsmall⟩ := resized_startup (hmeasures.state.trans hstate) hlater
  have hcwnd : (done scale c (.onAck bytesAcked rtt now)).cwnd = scale c.cwnd (11 / 10) := by
    rw [done, hresized, hmeasures.cwnd]
  refine ⟨fun hten => ?_, fun hfew => ?_, fun _ => ?_⟩
  · have hbefore := h.grows hten
    have hgrows := hscale.grows c.cwnd (by omega)
    rw [hcwnd]
    omega
  · have hbefore := h.stays hfew
    rw [hcwnd, hscale.stays c.cwnd (by omega)]
    exact hbefore
  · rw [done, hresized]
    by_cases hbw : (measured bytesAcked rtt now c).maxBw > 0
    · refine .inr ?_
      have hbelow : scale (measured bytesAcked rtt now c).cwnd (11 / 10) <
          (measured bytesAcked rtt now c).maxBw * (measured bytesAcked rtt now c).minRtt / 1000000 :=
        UInt64.not_le.mp fun hreached => hsmall ⟨hbw, hreached⟩
      have hnumbers := UInt64.lt_iff_toNat_lt.mp hbelow
      rwa [UInt64.toNat_div, toNat_mul_of_lt hproduct] at hnumbers
    · exact .inl (Nat.eq_zero_of_not_pos hbw)

/-- Every call fits in words. -/
def Fitting (r : Recorded CongestionController Call) (call : Call) : Prop := Fits r.now call

theorem starting_step {build : Build} {scale : Scale} (hscale : StartsUp scale) {initialCwnd : Nat}
    {r r' : Recorded CongestionController Call} {call : Call}
    (h : r.now.state = .startup → Starting initialCwnd (samples r.past).length r.now) (hfits : Fits r.now call)
    (hstep : Recorded.step (step build scale) r call = some r') (hlater : r'.now.state = .startup) :
    Starting initialCwnd (samples r'.past).length r'.now := by
  obtain ⟨c', hc', rfl⟩ := Recorded.step_eq_some.mp hstep
  have hstate : r.now.state = .startup := by
    have hle := (turns_step hc').phase_le
    rw [hlater] at hle
    cases hnow : r.now.state with
    | startup => rfl
    | _ => exact absurd (hnow ▸ hle) (by decide)
  rw [step_of_fits build scale hfits] at hc'
  cases hc'
  cases call with
  | onAck bytesAcked rtt now =>
    rw [samples_onAck, List.length_append]
    exact (h hstate).onAck hscale hfits hstate hlater
  | onLoss currentRtt =>
    rw [samples_onLoss]
    rw [done] at hlater ⊢
    split at hlater
    · rename_i hnoise
      rw [if_pos hnoise]
      exact h hstate
    · cases hlater

/-- **Startup is over before the window has grown to what is underway**: it gains an octet with
every acknowledgement, if it began with ten. A smaller one stays as it is. -/
theorem startup_bounded {build : Build} {scale : Scale} (hscale : StartsUp scale) {initialCwnd : UInt64}
    {start : Instant} {r : Recorded CongestionController Call}
    (h : Reached (Recorded.step (step build scale)) Fitting (Recorded.fresh (new initialCwnd start)) r)
    (hstate : r.now.state = .startup) :
    (10 ≤ initialCwnd.toNat → min (initialCwnd.toNat + (samples r.past).length) (2 ^ 64 - 1) ≤ r.now.cwnd.toNat) ∧
    (initialCwnd.toNat < 10 → r.now.cwnd = initialCwnd) ∧
    (0 < (samples r.past).length →
      r.now.maxBw = 0 ∨ r.now.cwnd.toNat < r.now.maxBw.toNat * r.now.minRtt.toNat / 1000000) := by
  have hstarting := h.invariant (I := fun r => r.now.state = .startup →
    Starting initialCwnd.toNat (samples r.past).length r.now) ?_ ?_ hstate
  · refine ⟨hstarting.grows, fun hfew => UInt64.toNat_inj.mp (hstarting.stays hfew), fun hacks => ?_⟩
    exact (hstarting.below hacks).imp UInt64.toNat_inj.mp id
  · exact fun _ => ⟨fun _ => Nat.min_le_left _ _, fun _ => rfl, fun hnone => absurd hnone (Nat.lt_irrefl 0)⟩
  · exact fun _ _ _ hr hfits hstep hlater => starting_step hscale hr hfits hstep hlater

/-- A million octets are underway, and the window is far from it. -/
theorem startup_bounded_once :
    ∃ r : Recorded CongestionController Call, r.now.cwnd = 15400 ∧ (samples r.past).length = 1 ∧
      (10 ≤ 14000 → min (14000 + (samples r.past).length) (2 ^ 64 - 1) ≤ r.now.cwnd.toNat) ∧
      (0 < (samples r.past).length →
        r.now.maxBw = 0 ∨ r.now.cwnd.toNat < r.now.maxBw.toNat * r.now.minRtt.toNat / 1000000) := by
  have hack : step .checked exactScale (new 14000 0) (.onAck 1000000 10000 0) =
      some ⟨15400, 10000, 100000000, 289 / 100, .startup, 0, [(10000, 0)]⟩ := by
    decide +kernel
  have hfits : Fits (new 14000 0) (.onAck 1000000 10000 0) := fun _ => ⟨by decide, 10000, .inl rfl, by decide⟩
  obtain ⟨hgrows, _, hbelow⟩ := startup_bounded startsUp_exactScale
    (.next (.onAck 1000000 10000 0) .start hfits (Recorded.step_eq_some.mpr ⟨_, hack, rfl⟩)) rfl
  exact ⟨_, rfl, rfl, hgrows, hbelow⟩

end CongestionController

end Aether
