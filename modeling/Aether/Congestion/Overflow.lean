import Aether.Congestion.Controller

/-! What a call does, and when it overflows.

An acknowledgement multiplies twice: its octets by a million, and the greatest
bandwidth by the least RTT that is in the window. A loss multiplies the least RTT by
three. Where these fit in a word a call does the same in every build (`exec_of_fits`);
where one does not, the checked build aborts it, and which calls those are is known
before they are made (`safe_perform_iff`). -/
namespace Aether.CongestionController
open Octets Octets.Method

/-! ### The estimators -/

/-- An entry is in the window for ten seconds. -/
def recentRtts : Youth Instant (UInt64 × Instant) where
  young now x := recent now x.2
  lost := by
    intro s t x hst hyoung
    have hage : (s - x.2) / 1000000000 ≤ (t - x.2) / 1000000000 := Nat.div_le_div_right (Nat.sub_le_sub_right hst x.2)
    exact decide_eq_true (Nat.lt_of_le_of_lt hage (of_decide_eq_true hyoung))

theorem recent_self (now : Instant) : recent now now = true := by
  simp [recent]

/-- An RTT that is in the window once the acknowledgement is. -/
def Held (c : CongestionController) (rtt : UInt64) (now : Instant) (r : UInt64) : Prop :=
  r = rtt ∨ ∃ t, (r, t) ∈ c.rttWindow ∧ recent now t = true

theorem held_iff {c : CongestionController} {rtt r : UInt64} {now : Instant} :
    Held c rtt now r ↔ ∃ t, (r, t) ∈ recentRtts.push now (rtt, now) c.rttWindow := by
  simp only [Held, Youth.push, recentRtts, List.mem_append, List.mem_filter, List.mem_singleton, Prod.mk.injEq]
  constructor
  · intro h
    rcases h with rfl | ⟨t, ht⟩
    · exact ⟨now, .inr ⟨rfl, rfl⟩⟩
    · exact ⟨t, .inl ht⟩
  · intro h
    obtain ⟨t, ht | ⟨rfl, _⟩⟩ := h
    · exact .inr ⟨t, ht⟩
    · exact .inl rfl

/-- The least RTT is the one of the window; what it was before does not matter. -/
theorem estimateRtt_spec (c : CongestionController) (rtt : UInt64) (now : Instant) :
    ∃ least, estimateRtt rtt now c =
        { c with minRtt := least, rttWindow := recentRtts.push now (rtt, now) c.rttWindow } ∧
      Held c rtt now least ∧ ∀ r, Held c rtt now r → least ≤ r := by
  have hne : (recentRtts.push now (rtt, now) c.rttWindow).map Prod.fst ≠ [] := by
    simp [Youth.push]
  obtain ⟨least, hleast⟩ : ∃ least, ((recentRtts.push now (rtt, now) c.rttWindow).map Prod.fst).min? = some least :=
    Option.ne_none_iff_exists'.mp fun hnone => hne (List.min?_eq_none_iff.mp hnone)
  have hspec := List.min?_eq_some_iff.mp hleast
  simp only [List.mem_map, Prod.exists, exists_and_right, exists_eq_right] at hspec
  refine ⟨least, ?_, held_iff.mpr hspec.1, fun r hr => hspec.2 r (held_iff.mp hr)⟩
  have hwindow : ((c.rttWindow.filter (fun (x : UInt64 × Instant) => recent now x.2) ++ [(rtt, now)]).map
      Prod.fst).min? = some least := hleast
  rw [estimateRtt]
  by_cases hlower : rtt < c.minRtt
  · simp only [if_pos hlower, hwindow]
    rfl
  · simp only [if_neg hlower, hwindow]
    rfl

/-- The estimators after an acknowledgement whose rate does not overflow. -/
def measured (bytesAcked rtt : UInt64) (now : Instant) (c : CongestionController) : CongestionController :=
  estimateBw (if rtt > 0 then bytesAcked * 1000000 / rtt else c.maxBw) (estimateRtt rtt now c)

/-- What is measured, of the state before. -/
structure Measures (bytesAcked rtt : UInt64) (now : Instant) (c c' : CongestionController) : Prop where
  cwnd : c'.cwnd = c.cwnd
  state : c'.state = c.state
  rttWindow : c'.rttWindow = recentRtts.push now (rtt, now) c.rttWindow
  held : Held c rtt now c'.minRtt
  least : ∀ r, Held c rtt now r → c'.minRtt ≤ r
  maxBw : c'.maxBw.toNat = max c.maxBw.toNat (bytesAcked.toNat * 1000000 / rtt.toNat)

theorem toNat_estimateBw (rate : UInt64) (c : CongestionController) :
    estimateBw rate c = { c with maxBw := (estimateBw rate c).maxBw } ∧
      (estimateBw rate c).maxBw.toNat = max c.maxBw.toNat rate.toNat := by
  rw [estimateBw]
  split
  · rename_i h
    exact ⟨rfl, (Nat.max_eq_right (Nat.le_of_lt h)).symm⟩
  · rename_i h
    exact ⟨rfl, (Nat.max_eq_left (Nat.le_of_not_lt h)).symm⟩

/-- What an acknowledgement measures; a rate over no time is none. -/
theorem measured_spec {c : CongestionController} {bytesAcked rtt : UInt64} (now : Instant)
    (h : 0 < rtt → bytesAcked.toNat * 1000000 < 2 ^ 64) : Measures bytesAcked rtt now c (measured bytesAcked rtt now c) := by
  obtain ⟨least, hleast, hheld, hle⟩ := estimateRtt_spec c rtt now
  obtain ⟨hbw, hmax⟩ := toNat_estimateBw (if rtt > 0 then bytesAcked * 1000000 / rtt else c.maxBw) (estimateRtt rtt now c)
  rw [measured]
  rw [hleast] at hbw hmax ⊢
  have hrate : max c.maxBw.toNat (if rtt > 0 then bytesAcked * 1000000 / rtt else c.maxBw).toNat =
      max c.maxBw.toNat (bytesAcked.toNat * 1000000 / rtt.toNat) := by
    by_cases hrtt : 0 < rtt
    · have hproduct : (bytesAcked * 1000000).toNat = bytesAcked.toNat * 1000000 := toNat_mul_of_lt (h hrtt)
      rw [if_pos hrtt, UInt64.toNat_div, hproduct]
    · have hzero : rtt.toNat = 0 := Nat.eq_zero_of_not_pos hrtt
      rw [if_neg hrtt, hzero, Nat.div_zero, Nat.max_self, Nat.max_zero]
  refine ⟨?_, ?_, ?_, ?_, ?_, hmax.trans hrate⟩ <;> rw [hbw]
  · exact hheld
  · exact hle

/-! ### Calls that do not overflow -/

/-- The window for the bandwidth-delay product, which fits. -/
def resized (scale : Scale) (c : CongestionController) : CongestionController :=
  let target := c.maxBw * c.minRtt / 1000000
  match c.state with
  | .startup =>
    let c := { c with cwnd := scale c.cwnd (11 / 10) }
    if c.maxBw > 0 ∧ c.cwnd ≥ target then { c with state := .drain, gain := 3 / 4 } else c
  | .probe => { c with gain := 5 / 4, cwnd := scale target (5 / 4) }
  | .drain => { c with gain := 3 / 4, cwnd := scale target (3 / 4), state := .probe }
  | .steady => { c with cwnd := target }

/-- A loss that is none of the path's noise. -/
def halved (c : CongestionController) : CongestionController := { c with cwnd := c.cwnd / 2, state := .steady, gain := 1 }

theorem bdp_of_lt (build : Build) {c : CongestionController} (h : c.maxBw.toNat * c.minRtt.toNat < 2 ^ 64) :
    c.bdp build = .ok (c.maxBw * c.minRtt / 1000000) := by
  have hmillion : (1000000 : UInt64) ≠ 0 := by decide
  rw [bdp, build.mul_of_lt h]
  exact divide_of_ne hmillion

theorem exec_resize (build : Build) (scale : Scale) {c : CongestionController}
    (h : c.maxBw.toNat * c.minRtt.toNat < 2 ^ 64) : (resize build scale).exec c = (.ok (), resized scale c) := by
  -- The gain and the window are written before the product, which is of neither.
  have hbdp (d : CongestionController) (hbw : d.maxBw = c.maxBw) (hrtt : d.minRtt = c.minRtt) :
      d.bdp build = .ok (c.maxBw * c.minRtt / 1000000) := by
    have hproduct : d.maxBw.toNat * d.minRtt.toNat < 2 ^ 64 := by rwa [hbw, hrtt]
    rw [bdp_of_lt build hproduct, hbw, hrtt]
  rw [resize, exec_get_bind, resized]
  cases hstate : c.state with
  | startup =>
    simp only [exec_set_bind, hbdp]
    by_cases hbw : c.maxBw > 0
    · by_cases hreached : scale c.cwnd (11 / 10) ≥ c.maxBw * c.minRtt / 1000000
      · rw [if_pos hbw, if_pos ⟨hbw, hreached⟩, exec_bind_ok (exec_lift _ _), if_pos hreached]
        rfl
      · rw [if_pos hbw, if_neg fun hboth => hreached hboth.2, exec_bind_ok (exec_lift _ _), if_neg hreached]
        rfl
    · rw [if_neg hbw, if_neg fun hboth => hbw hboth.1]
      rfl
  | probe =>
    simp only [exec_set_bind, hbdp]
    rfl
  | drain =>
    simp only [exec_set_bind, hbdp]
    rfl
  | steady =>
    simp only [hbdp]
    rfl

/-- The rate is the first product of an acknowledgement, and the second is of what is measured. -/
theorem exec_onAck (build : Build) (scale : Scale) {bytesAcked rtt : UInt64}
    (h : 0 < rtt → bytesAcked.toNat * 1000000 < 2 ^ 64) (now : Instant) (c : CongestionController) :
    (onAck build scale bytesAcked rtt now).exec c =
      (resize build scale >>= fun _ => modify fun c => { c with lastUpdate := now }).exec (measured bytesAcked rtt now c) := by
  obtain ⟨least, hleast, _⟩ := estimateRtt_spec c rtt now
  have hrate : (estimateRtt rtt now c).deliveryRate build bytesAcked rtt =
      .ok (if rtt > 0 then bytesAcked * 1000000 / rtt else c.maxBw) := by
    rw [deliveryRate]
    by_cases hrtt : rtt > 0
    · have hproduct : bytesAcked.toNat * (1000000 : UInt64).toNat < 2 ^ 64 := h hrtt
      rw [if_pos hrtt, if_pos hrtt, build.mul_of_lt hproduct]
      exact divide_of_ne fun hzero => absurd hrtt (by rw [hzero]; decide)
    · rw [if_neg hrtt, if_neg hrtt, hleast]
  rw [onAck, exec_modify_bind, exec_get_bind, exec_bind_ok (by rw [hrate]; rfl), exec_modify_bind]
  rfl

/-- What a call multiplies fits in a word: of an acknowledgement the octets in millionths,
and the greater of the two bandwidths with one of the RTTs that are in the window. -/
def Fits (c : CongestionController) : Call → Prop
  | .onAck bytesAcked rtt now => 0 < rtt → bytesAcked.toNat * 1000000 < 2 ^ 64 ∧
    ∃ r, Held c rtt now r ∧ max c.maxBw.toNat (bytesAcked.toNat * 1000000 / rtt.toNat) * r.toNat < 2 ^ 64
  | .onLoss _ => c.minRtt.toNat * 3 < 2 ^ 64

/-- The product of what was measured is the least of the products. -/
theorem le_product_iff {c c' : CongestionController} {bytesAcked rtt : UInt64} {now : Instant}
    (h : Measures bytesAcked rtt now c c') {n : Nat} :
    n ≤ c'.maxBw.toNat * c'.minRtt.toNat ↔
      ∀ r, Held c rtt now r → n ≤ max c.maxBw.toNat (bytesAcked.toNat * 1000000 / rtt.toNat) * r.toNat := by
  rw [h.maxBw]
  constructor
  · exact fun hn r hr => Nat.le_trans hn (Nat.mul_le_mul_left _ (h.least r hr))
  · exact fun hall => hall _ h.held

theorem product_lt_iff {c c' : CongestionController} {bytesAcked rtt : UInt64} {now : Instant}
    (h : Measures bytesAcked rtt now c c') {n : Nat} :
    c'.maxBw.toNat * c'.minRtt.toNat < n ↔
      ∃ r, Held c rtt now r ∧ max c.maxBw.toNat (bytesAcked.toNat * 1000000 / rtt.toNat) * r.toNat < n := by
  rw [← Nat.not_le, le_product_iff h]
  simp only [not_forall, exists_prop, Nat.not_le]

theorem fits_onAck_iff {c : CongestionController} {bytesAcked rtt : UInt64} {now : Instant} :
    Fits c (.onAck bytesAcked rtt now) ↔ (0 < rtt → bytesAcked.toNat * 1000000 < 2 ^ 64) ∧
      (measured bytesAcked rtt now c).maxBw.toNat * (measured bytesAcked rtt now c).minRtt.toNat < 2 ^ 64 := by
  constructor
  · intro h
    have hrate : 0 < rtt → bytesAcked.toNat * 1000000 < 2 ^ 64 := fun hrtt => (h hrtt).1
    have hmeasures := measured_spec (c := c) now hrate
    refine ⟨hrate, ?_⟩
    by_cases hrtt : 0 < rtt
    · exact (product_lt_iff hmeasures).mpr (h hrtt).2
    · have hzero : (measured bytesAcked rtt now c).minRtt.toNat = 0 :=
        Nat.eq_zero_of_not_pos fun hpos => hrtt (Nat.lt_of_lt_of_le hpos (hmeasures.least rtt (.inl rfl)))
      rw [hzero, Nat.mul_zero]
      decide
  · intro h hrtt
    exact ⟨h.1 hrtt, (product_lt_iff (measured_spec now h.1)).mp h.2⟩

/-- What a call leaves that does not overflow. -/
def done (scale : Scale) (c : CongestionController) : Call → CongestionController
  | .onAck bytesAcked rtt now => { resized scale (measured bytesAcked rtt now c) with lastUpdate := now }
  | .onLoss currentRtt => if currentRtt.toNat > c.minRtt.toNat * 3 then c else halved c

/-- **A call that does not overflow is the same in every build.** -/
theorem exec_of_fits (build : Build) (scale : Scale) {c : CongestionController} {call : Call} (h : Fits c call) :
    (call.perform build scale).exec c = (.ok (), done scale c call) := by
  cases call with
  | onAck bytesAcked rtt now =>
    obtain ⟨hrate, hproduct⟩ := fits_onAck_iff.mp h
    rw [Call.perform, exec_onAck build scale hrate, exec_bind_ok (exec_resize build scale hproduct)]
    rfl
  | onLoss currentRtt =>
    have hfits : c.minRtt.toNat * (3 : UInt64).toNat < 2 ^ 64 := h
    have hhigh : (c.minRtt * 3).toNat = c.minRtt.toNat * 3 := toNat_mul_of_lt hfits
    rw [Call.perform, onLoss, exec_get_bind, build.mul_of_lt hfits, exec_bind_ok (exec_lift _ _), done, ← hhigh]
    by_cases hnoise : currentRtt > c.minRtt * 3
    · have hnumbers : currentRtt.toNat > (c.minRtt * 3).toNat := hnoise
      rw [if_pos hnumbers]
      simp [hnoise]
    · have hnumbers : ¬ currentRtt.toNat > (c.minRtt * 3).toNat := hnoise
      rw [if_neg hnumbers]
      simp [hnoise, halved]

/-! ### Calls that overflow -/

theorem product_of_safe_bdp {c : CongestionController} (h : Safe (c.bdp .checked)) :
    c.maxBw.toNat * c.minRtt.toNat < 2 ^ 64 :=
  Build.safe_mul.mp (safe_bind_iff.mp h).1

theorem product_of_safe_resize {scale : Scale} {c : CongestionController}
    (h : Safe ((resize .checked scale).exec c).1) : c.maxBw.toNat * c.minRtt.toNat < 2 ^ 64 := by
  rw [resize, exec_get_bind] at h
  split at h
  · rw [exec_set_bind] at h
    by_cases hbw : c.maxBw > 0
    · simp only [if_pos hbw] at h
      exact product_of_safe_bdp (safe_exec_lift_bind.mp h).1
    · have hzero : c.maxBw.toNat = 0 := Nat.eq_zero_of_not_pos hbw
      rw [hzero, Nat.zero_mul]
      decide
  · rw [exec_set_bind] at h
    exact product_of_safe_bdp (safe_exec_lift_bind.mp h).1
  · rw [exec_set_bind] at h
    exact product_of_safe_bdp (safe_exec_lift_bind.mp h).1
  · exact product_of_safe_bdp (safe_exec_lift_bind.mp h).1

theorem rate_of_safe_onAck {scale : Scale} {c : CongestionController} {bytesAcked rtt : UInt64} {now : Instant}
    (h : Safe ((onAck .checked scale bytesAcked rtt now).exec c).1) (hrtt : 0 < rtt) :
    bytesAcked.toNat * 1000000 < 2 ^ 64 := by
  rw [onAck, exec_modify_bind, exec_get_bind] at h
  have hrate := (safe_exec_lift_bind.mp h).1
  rw [deliveryRate, if_pos hrtt] at hrate
  exact Build.safe_mul.mp (safe_bind_iff.mp hrate).1

/-- **The checked build aborts exactly the calls that do not fit.** -/
theorem safe_perform_iff (scale : Scale) (c : CongestionController) (call : Call) :
    Safe ((call.perform .checked scale).exec c).1 ↔ Fits c call := by
  constructor
  · intro h
    cases call with
    | onAck bytesAcked rtt now =>
      have hrate := rate_of_safe_onAck h
      refine fits_onAck_iff.mpr ⟨hrate, ?_⟩
      rw [Call.perform, exec_onAck .checked scale hrate] at h
      exact product_of_safe_resize (safe_exec_bind.mp h).1
    | onLoss currentRtt =>
      rw [Call.perform, onLoss, exec_get_bind] at h
      exact Build.safe_mul.mp (safe_exec_lift_bind.mp h).1
  · intro h
    rw [exec_of_fits .checked scale h]
    exact safe_ok _

theorem step_of_fits (build : Build) (scale : Scale) {c : CongestionController} {call : Call} (h : Fits c call) :
    step build scale c call = some (done scale c call) := by
  rw [step, exec_of_fits build scale h]

/-- **No product overflows and nothing is divided by zero** in a run where every call fits,
and only there. -/
theorem arithmetic_safe_iff (build : Build) (scale : Scale) (initialCwnd : UInt64) (start : Instant)
    (calls : List Call) :
    Throughout (step build scale) (fun c call => Safe ((call.perform .checked scale).exec c).1)
        (new initialCwnd start) calls ↔
      Throughout (step build scale) Fits (new initialCwnd start) calls :=
  throughout_iff (I := fun _ => True) (fun c call _ => safe_perform_iff scale c call) (fun _ _ _ _ _ _ => trivial)
    trivial calls

/-- A loss before the first acknowledgement multiplies the greatest word by three. -/
theorem arithmetic_overflows :
    ¬ Throughout (step .checked exactScale) (fun c call => Safe ((call.perform .checked exactScale).exec c).1)
      (new 14000 0) [.onLoss 50000] := by
  intro h
  have hfits : 18446744073709551615 * 3 < 2 ^ 64 := (safe_perform_iff exactScale (new 14000 0) (.onLoss 50000)).mp h.1
  exact absurd hfits (by decide)

end Aether.CongestionController
