import Mathlib.Data.List.Basic
import Mathlib.Order.Basic

/-! Windows: what is still young of a history.

A window is pruned whenever an entry comes in, by what is young at that time, and never
sees again what was dropped. Since youth is lost for good (`Youth.lost`), a window that
has been pruned early stands for the whole history at every later time
(`Youth.Stands.push`), so that after each entry it is exactly the young part of the
history (`Youth.Stands.push_eq`). -/
namespace Octets

/-- What is young at a time. -/
structure Youth (T α : Type) [Preorder T] where
  young : T → α → Bool
  lost : ∀ {s t : T} {a : α}, s ≤ t → young t a = true → young s a = true

namespace Youth
variable {T α : Type} [Preorder T] (y : Youth T α)

/-- The window after an entry that comes in at `t`. -/
def push (t : T) (a : α) (kept : List α) : List α := kept.filter (y.young t) ++ [a]

/-- At `t` the window has what the history has. -/
def Stands (t : T) (history kept : List α) : Prop := kept.filter (y.young t) = history.filter (y.young t)

variable {y}

/-- What is dropped at a time is not young later. -/
theorem filter_filter_of_le {s t : T} (hst : s ≤ t) (kept : List α) :
    (kept.filter (y.young s)).filter (y.young t) = kept.filter (y.young t) := by
  rw [List.filter_filter]
  apply List.filter_congr
  intro a _
  cases ha : y.young t a with
  | false => rfl
  | true => exact y.lost hst ha

/-- **Pruning early drops nothing that is young later.** -/
theorem Stands.push {s t : T} {history kept : List α} (h : y.Stands t history kept) (hst : s ≤ t) (a : α) :
    y.Stands t (history ++ [a]) (y.push s a kept) := by
  rw [Stands, Youth.push, List.filter_append, List.filter_append, filter_filter_of_le hst]
  exact congrArg (· ++ _) h

/-- After an entry the window is the young part of the history. -/
theorem Stands.push_eq {t : T} {history kept : List α} (h : y.Stands t history kept) {a : α}
    (ha : y.young t a = true) : y.push t a kept = (history ++ [a]).filter (y.young t) := by
  have hlast : [a].filter (y.young t) = [a] := List.filter_cons_of_pos ha
  rw [Youth.push, List.filter_append, hlast]
  exact congrArg (· ++ [a]) h

end Youth

end Octets
