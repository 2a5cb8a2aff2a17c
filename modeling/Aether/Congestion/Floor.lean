import Mathlib.Tactic.Linarith
import Aether.Congestion.Overflow

/-! Whether the window stays open.

A window of nothing lets nothing be sent, and nothing that is acknowledged would open
it again. A loss halves the window and an acknowledgement sets it to the
bandwidth-delay product, so a window of one octet is lost to a loss, and any window to
a path on which less than an octet is underway; how much there has to be depends on
the gain (`Sustains`). -/
namespace Aether.CongestionController
open Octets

/-! ### Scaling -/

theorem one_le_exactScale {x : UInt64} {gain : ℚ} (hgain : 0 ≤ gain) :
    1 ≤ (exactScale x gain).toNat ↔ 1 ≤ (x.toNat : ℚ) * gain := by
  have hpos : 0 ≤ (x.toNat : ℚ) * gain := mul_nonneg (Nat.cast_nonneg _) hgain
  have hword : min ⌊(x.toNat : ℚ) * gain⌋₊ (2 ^ 64 - 1) < 2 ^ 64 :=
    Nat.lt_of_le_of_lt (Nat.min_le_right _ _) (by decide)
  rw [exactScale, UInt64.toNat_ofNat_of_lt' hword, le_min_iff, Nat.le_floor_iff hpos, Nat.cast_one]
  exact and_iff_left (by decide)

/-- Startup loses nothing. -/
theorem one_le_startup {x : UInt64} (h : 1 ≤ x.toNat) : 1 ≤ (exactScale x (11 / 10)).toNat := by
  have hx : (1 : ℚ) ≤ x.toNat := Nat.one_le_cast.mpr h
  rw [one_le_exactScale (by norm_num)]
  linarith

/-- Probing loses no octet. -/
theorem one_le_probe {x : UInt64} : 1 ≤ (exactScale x (5 / 4)).toNat ↔ 1 ≤ x.toNat := by
  rw [one_le_exactScale (by norm_num)]
  constructor
  · intro h
    by_contra hzero
    rw [Nat.lt_one_iff.mp (Nat.not_le.mp hzero)] at h
    norm_num at h
  · intro h
    have hx : (1 : ℚ) ≤ x.toNat := Nat.one_le_cast.mpr h
    linarith

/-- Draining takes the only octet. -/
theorem one_le_drain {x : UInt64} : 1 ≤ (exactScale x (3 / 4)).toNat ↔ 2 ≤ x.toNat := by
  rw [one_le_exactScale (by norm_num)]
  constructor
  · intro h
    by_contra hfew
    have hx : (x.toNat : ℚ) ≤ 1 := Nat.cast_le_one.mpr (Nat.lt_succ_iff.mp (Nat.not_le.mp hfew))
    linarith
  · intro h
    have hx : (2 : ℚ) ≤ x.toNat := by exact_mod_cast h
    linarith

/-! ### One call -/

/-- The octets that are to be underway, times a million. -/
def leastUnderway : CongestionState → Nat
  | .startup => 0
  | .probe => 1000000
  | .drain => 2000000
  | .steady => 1000000

/-- The call leaves a window: with every RTT that is in the window of RTTs the greater of
the two bandwidths has enough underway, and a loss is noise or halves more than an octet. -/
def Sustains (c : CongestionController) : Call → Prop
  | .onAck bytesAcked rtt now => ∀ r, Held c rtt now r →
    leastUnderway c.state ≤ max c.maxBw.toNat (bytesAcked.toNat * 1000000 / rtt.toNat) * r.toNat
  | .onLoss currentRtt => currentRtt.toNat > c.minRtt.toNat * 3 ∨ 2 ≤ c.cwnd.toNat

theorem cwnd_resized {c : CongestionController} (hcwnd : 1 ≤ c.cwnd.toNat)
    (h : c.maxBw.toNat * c.minRtt.toNat < 2 ^ 64) :
    1 ≤ (resized exactScale c).cwnd.toNat ↔ leastUnderway c.state ≤ c.maxBw.toNat * c.minRtt.toNat := by
  have htarget : (c.maxBw * c.minRtt / 1000000).toNat = c.maxBw.toNat * c.minRtt.toNat / 1000000 := by
    rw [UInt64.toNat_div, toNat_mul_of_lt h]
    rfl
  rw [resized]
  cases c.state with
  | startup =>
    refine iff_of_true ?_ (Nat.zero_le _)
    simp only
    split <;> exact one_le_startup hcwnd
  | probe =>
    simp only [one_le_probe, htarget, leastUnderway]
    omega
  | drain =>
    simp only [one_le_drain, htarget, leastUnderway]
    omega
  | steady =>
    simp only [htarget, leastUnderway]
    omega

/-- **The window stays open over a call that sustains it**, and only there. -/
theorem cwnd_done {c : CongestionController} (hcwnd : 1 ≤ c.cwnd.toNat) {call : Call} (h : Fits c call) :
    1 ≤ (done exactScale c call).cwnd.toNat ↔ Sustains c call := by
  cases call with
  | onAck bytesAcked rtt now =>
    obtain ⟨hrate, hproduct⟩ := fits_onAck_iff.mp h
    have hmeasures := measured_spec (c := c) now hrate
    rw [Sustains, ← le_product_iff hmeasures, ← hmeasures.state]
    exact cwnd_resized (hmeasures.cwnd.symm ▸ hcwnd) hproduct
  | onLoss currentRtt =>
    rw [Sustains, done]
    by_cases hnoise : currentRtt.toNat > c.minRtt.toNat * 3
    · rw [if_pos hnoise]
      exact iff_of_true hcwnd (.inl hnoise)
    · have hhalf : (c.cwnd / 2).toNat = c.cwnd.toNat / 2 := rfl
      rw [if_neg hnoise, halved, hhalf, or_iff_right hnoise]
      omega

/-! ### Runs -/

/-- The call leaves a window, if it returns. -/
def StaysOpen (build : Build) (c : CongestionController) (call : Call) : Prop :=
  ∀ c', step build exactScale c call = some c' → 1 ≤ c'.cwnd.toNat

theorem staysOpen_of_fits (build : Build) {c : CongestionController} (hcwnd : 1 ≤ c.cwnd.toNat) {call : Call}
    (h : Fits c call) : StaysOpen build c call ↔ Sustains c call := by
  rw [← cwnd_done hcwnd h, StaysOpen, step_of_fits build exactScale h]
  constructor
  · exact fun hopen => hopen _ rfl
  · intro hopen c' hc'
    cases hc'
    exact hopen

/-- A call that is aborted leaves nothing to look at. -/
theorem staysOpen_checked {c : CongestionController} (hcwnd : 1 ≤ c.cwnd.toNat) (call : Call) :
    StaysOpen .checked c call ↔ (Fits c call → Sustains c call) := by
  by_cases hfits : Fits c call
  · rw [staysOpen_of_fits .checked hcwnd hfits]
    exact (imp_iff_right hfits).symm
  · have hunsafe := mt (safe_perform_iff exactScale c call).mp hfits
    refine iff_of_true (fun c' hc' => ?_) fun h => absurd h hfits
    rw [step] at hc'
    split at hc'
    · rename_i hexec
      rw [hexec] at hunsafe
      exact absurd (safe_ok _) hunsafe
    · cases hc'

/-- **The window stays open in a run whose calls all fit and sustain it.** In the checked
build, where a call that does not fit is the last one, it stays open exactly where every
call that fits sustains it. -/
theorem window_stays_open {initialCwnd : UInt64} (h : 1 ≤ initialCwnd.toNat) (start : Instant) (calls : List Call) :
    (∀ build, Throughout (step build exactScale) (fun c call => Fits c call ∧ Sustains c call)
        (new initialCwnd start) calls →
      Throughout (step build exactScale) (StaysOpen build) (new initialCwnd start) calls) ∧
    (Throughout (step .checked exactScale) (StaysOpen .checked) (new initialCwnd start) calls ↔
      Throughout (step .checked exactScale) (fun c call => Fits c call → Sustains c call)
        (new initialCwnd start) calls) := by
  constructor
  · intro build
    refine Throughout.mono (I := fun c => 1 ≤ c.cwnd.toNat) ?_ ?_ h
    · exact fun c call hc hgood => (staysOpen_of_fits build hc hgood.1).mpr hgood.2
    · exact fun c call c' hc hgood hstep => (staysOpen_of_fits build hc hgood.1).mpr hgood.2 c' hstep
  · refine throughout_iff (I := fun c => 1 ≤ c.cwnd.toNat) ?_ ?_ h calls
    · exact fun c call hc => staysOpen_checked hc call
    · exact fun c call c' _ hopen hstep => hopen c' hstep

/-- An acknowledgement in startup, a loss that ends it, and an acknowledgement ten seconds later. -/
theorem window_stays_open_lossy :
    Throughout (step .checked exactScale) (StaysOpen .checked) (new 14000 0)
      [.onAck 1400 10000 0, .onLoss 10000, .onAck 1400 20000 10000000000] := by
  have hack : step .checked exactScale (new 14000 0) (.onAck 1400 10000 0) =
      some ⟨15400, 10000, 140000, 3 / 4, .drain, 0, [(10000, 0)]⟩ := by
    decide +kernel
  have hloss : step .checked exactScale ⟨15400, 10000, 140000, 3 / 4, .drain, 0, [(10000, 0)]⟩ (.onLoss 10000) =
      some ⟨7700, 10000, 140000, 1, .steady, 0, [(10000, 0)]⟩ := by
    decide +kernel
  refine (window_stays_open (by decide : 1 ≤ (14000 : UInt64).toNat) 0 _).2.mpr
    ⟨fun _ _ _ => Nat.zero_le _, fun c hc => ?_⟩
  cases hack.symm.trans hc
  refine ⟨fun _ => .inr (by decide), fun c hc => ?_⟩
  cases hloss.symm.trans hc
  refine ⟨fun _ r hr => ?_, fun _ _ => trivial⟩
  rcases hr with rfl | ⟨t, hmem, hrecent⟩
  · decide
  · cases List.mem_singleton.mp hmem
    decide

/-- One octet is acknowledged at once, and the next is lost. -/
theorem window_closes :
    ¬ Throughout (step .checked exactScale) (StaysOpen .checked) (new 1 0) [.onAck 1 1 0, .onLoss 1] := by
  intro h
  have hack : step .checked exactScale (new 1 0) (.onAck 1 1 0) = some ⟨1, 1, 1000000, 3 / 4, .drain, 0, [(1, 0)]⟩ := by
    decide +kernel
  have hloss : step .checked exactScale ⟨1, 1, 1000000, 3 / 4, .drain, 0, [(1, 0)]⟩ (.onLoss 1) =
      some ⟨0, 1, 1000000, 1, .steady, 0, [(1, 0)]⟩ := by
    decide +kernel
  exact absurd ((h.2 _ hack).1 _ hloss) (by decide)

end Aether.CongestionController
