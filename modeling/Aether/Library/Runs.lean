import Mathlib.Data.List.Induction
import Mathlib.Logic.Basic

/-! Runs: what holds in every state a machine gets to.

A machine is an executable step, which refuses an event where the event makes no
sense, and a run is any sequence of events each of which is allowed where it
happens. What is allowed is a proposition, so that an environment can be described
that no program decides. `Throughout` says of every event of a given run that it is
as it should be where it happens; two such conditions are compared event by event
(`throughout_iff`). A `Recorded` machine remembers its run, for properties that
speak of what has happened. -/
namespace Octets

variable {σ ε : Type}

/-- The states reached from `init` by allowed events. -/
inductive Reached (step : σ → ε → Option σ) (allowed : σ → ε → Prop) (init : σ) : σ → Prop where
  | start : Reached step allowed init init
  | next {s t : σ} (e : ε) :
      Reached step allowed init s → allowed s e → step s e = some t → Reached step allowed init t

namespace Reached
variable {step : σ → ε → Option σ} {allowed : σ → ε → Prop} {init s : σ}

/-- A property of the first state that every allowed step preserves holds in all of them. -/
theorem invariant {I : σ → Prop} (hinit : I init)
    (hstep : ∀ s e t, I s → allowed s e → step s e = some t → I t) (h : Reached step allowed init s) : I s := by
  induction h with
  | start => exact hinit
  | next e _ hallowed hnext ih => exact hstep _ e _ ih hallowed hnext

end Reached

/-- Every event is good where it happens. -/
def Throughout (step : σ → ε → Option σ) (good : σ → ε → Prop) : σ → List ε → Prop
  | _, [] => True
  | s, e :: rest => good s e ∧ ∀ t, step s e = some t → Throughout step good t rest

/-- A condition under which another one holds, and an invariant is kept. -/
theorem Throughout.mono {step : σ → ε → Option σ} {good good' : σ → ε → Prop} {I : σ → Prop}
    (hgood : ∀ s e, I s → good s e → good' s e)
    (hstep : ∀ s e t, I s → good s e → step s e = some t → I t) {s : σ} (hs : I s) {events : List ε}
    (h : Throughout step good s events) : Throughout step good' s events := by
  induction events generalizing s with
  | nil => trivial
  | cons e rest ih => exact ⟨hgood s e hs h.1, fun t ht => ih (hstep s e t hs h.1 ht) (h.2 t ht)⟩

/-- Two conditions that agree in the states of an invariant, where the first keeps it. -/
theorem throughout_iff {step : σ → ε → Option σ} {good good' : σ → ε → Prop} {I : σ → Prop}
    (hagree : ∀ s e, I s → (good s e ↔ good' s e))
    (hstep : ∀ s e t, I s → good s e → step s e = some t → I t) {s : σ} (hs : I s) (events : List ε) :
    Throughout step good s events ↔ Throughout step good' s events := by
  constructor
  · exact .mono (fun s e h => (hagree s e h).mp) hstep hs
  · exact .mono (fun s e h => (hagree s e h).mpr) (fun s e t h hgood => hstep s e t h ((hagree s e h).mpr hgood)) hs

/-! ### Machines that remember -/

/-- A state, with the events that led to it and the states they happened in. -/
structure Recorded (σ ε : Type) where
  now : σ
  past : List (σ × ε)

namespace Recorded
variable {machine : σ → ε → Option σ} {r r' : Recorded σ ε} {e : ε}

/-- Before anything has happened. -/
def fresh (s : σ) : Recorded σ ε := ⟨s, []⟩

/-- The same step, remembered. -/
def step (machine : σ → ε → Option σ) (r : Recorded σ ε) (e : ε) : Option (Recorded σ ε) :=
  (machine r.now e).map fun t => ⟨t, r.past ++ [(r.now, e)]⟩

theorem step_eq_some :
    step machine r e = some r' ↔ ∃ t, machine r.now e = some t ∧ r' = ⟨t, r.past ++ [(r.now, e)]⟩ := by
  rw [step, Option.map_eq_some_iff]
  constructor
  · rintro ⟨t, ht, rfl⟩
    exact ⟨t, ht, rfl⟩
  · rintro ⟨t, ht, rfl⟩
    exact ⟨t, ht, rfl⟩

/-- Events in turn, at a machine that refuses none. -/
def after (next : σ → ε → σ) (s : σ) (events : List ε) : Recorded σ ε :=
  events.foldl (fun r e => ⟨next r.now e, r.past ++ [(r.now, e)]⟩) (fresh s)

theorem reached_after {next : σ → ε → σ} (hmachine : ∀ s e, machine s e = some (next s e)) (s : σ) (events : List ε) :
    Reached (step machine) (fun _ _ => True) (fresh s) (after next s events) := by
  induction events using List.reverseRecOn with
  | nil => exact .start
  | append_singleton events e ih =>
    refine .next e ih trivial (step_eq_some.mpr ⟨_, hmachine _ e, ?_⟩)
    rw [after, List.foldl_append]
    rfl

end Recorded

end Octets
