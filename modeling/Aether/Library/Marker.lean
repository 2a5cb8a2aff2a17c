import Mathlib.Data.List.Basic

/-! Two parts with a marker between them.

A marker tells the parts apart where it occurs once. Where a part may hold it again,
a concatenation can be cut at each occurrence, and these are all the ways
(`append_marker_eq_iff`): a marker whose first element does not come again cannot
overlap with itself. -/
namespace Octets
variable {α : Type}

/-- A marker that stands behind `w` and at the front begins behind the whole marker, or
`w` is nothing. -/
theorem marker_append_eq {a : α} {rest w s t : List α} (ha : a ∉ rest)
    (h : a :: rest ++ s = w ++ (a :: rest ++ t)) :
    (w = [] ∧ s = t) ∨ ∃ x, w = a :: rest ++ x ∧ s = x ++ (a :: rest ++ t) := by
  rcases List.append_eq_append_iff.mp h with ⟨x, hw, hs⟩ | ⟨x, hmarker, ht⟩
  · exact .inr ⟨x, hw, hs⟩
  · cases w with
    | nil =>
      cases hmarker
      exact .inl ⟨rfl, (List.append_cancel_left ht).symm⟩
    | cons b w =>
      obtain ⟨rfl, hrest⟩ := List.cons.inj hmarker
      cases x with
      | nil =>
        have hw : rest = w := hrest.trans (List.append_nil w)
        exact .inr ⟨[], by rw [hw, List.append_nil], ht.symm⟩
      | cons c x =>
        -- The second marker would begin inside the first.
        obtain ⟨rfl, _⟩ := List.cons.inj ht
        have hmem : a ∈ w ++ a :: x := List.mem_append_right w List.mem_cons_self
        exact absurd (hrest.symm ▸ hmem) ha

/-- **Where two marked concatenations are equal**: their parts are, or one first part
goes on with the marker and octets with which the other second part begins. -/
theorem append_marker_eq_iff {a : α} {rest c₁ c₂ s₁ s₂ : List α} (ha : a ∉ rest) :
    c₁ ++ (a :: rest ++ s₁) = c₂ ++ (a :: rest ++ s₂) ↔
      (c₁ = c₂ ∧ s₁ = s₂) ∨ (∃ x, c₂ = c₁ ++ (a :: rest ++ x) ∧ s₁ = x ++ (a :: rest ++ s₂)) ∨
        ∃ x, c₁ = c₂ ++ (a :: rest ++ x) ∧ s₂ = x ++ (a :: rest ++ s₁) := by
  constructor
  · intro h
    rcases List.append_eq_append_iff.mp h with ⟨w, rfl, hw⟩ | ⟨w, rfl, hw⟩
    · rcases marker_append_eq ha hw with ⟨rfl, hs⟩ | ⟨x, rfl, hs⟩
      · exact .inl ⟨(List.append_nil _).symm, hs⟩
      · exact .inr (.inl ⟨x, rfl, hs⟩)
    · rcases marker_append_eq ha hw with ⟨rfl, hs⟩ | ⟨x, rfl, hs⟩
      · exact .inl ⟨List.append_nil _, hs.symm⟩
      · exact .inr (.inr ⟨x, rfl, hs⟩)
  · rintro (⟨rfl, rfl⟩ | ⟨x, rfl, rfl⟩ | ⟨x, rfl, rfl⟩)
    · rfl
    · simp only [List.append_assoc]
    · simp only [List.append_assoc]

end Octets
