import Mathlib.Data.List.AList

/-! Tables: finite maps with one value type, and counters that name new entries.

A table is an association list without repeated keys. What an update does is said
by what a later `lookup` finds (`lookup_replace`, `lookup_mapValues`) and by how
many entries there are.

A counter names entries of its own kind in order: where every key of that kind is
`Behind` it, the key it gives next is fresh, and it stays so while keys of that
kind are put in from the counter alone. Keys of other kinds do not matter. -/
namespace Octets

section
variable {κ ν : Type} [DecidableEq κ]

/-- Replacing the value of a key changes what is found under it, if anything is. -/
theorem lookup_replace (t : AList fun _ : κ => ν) (k k' : κ) (v : ν) :
    (t.replace k v).lookup k' = if k' = k then (t.lookup k).map fun _ => v else t.lookup k' := by
  obtain ⟨entries, hnodup⟩ := t
  show (entries.kreplace k v).dlookup k' = if k' = k then (entries.dlookup k).map _ else entries.dlookup k'
  clear hnodup
  induction entries with
  | nil => exact (ite_self none).symm
  | cons entry entries ih =>
    obtain ⟨key, value⟩ := entry
    by_cases hkey : k = key
    · subst hkey
      have hreplace : (⟨k, value⟩ :: entries : List (Σ _ : κ, ν)).kreplace k v = ⟨k, v⟩ :: entries :=
        List.lookmap_cons_some _ _ (if_pos rfl)
      rw [hreplace]
      by_cases hsame : k' = k
      · subst hsame
        rw [if_pos rfl, List.dlookup_cons_eq, List.dlookup_cons_eq]
        rfl
      · rw [if_neg hsame, List.dlookup_cons_ne entries (⟨k, v⟩ : Σ _ : κ, ν) hsame,
          List.dlookup_cons_ne entries (⟨k, value⟩ : Σ _ : κ, ν) hsame]
    · have hreplace : (⟨key, value⟩ :: entries : List (Σ _ : κ, ν)).kreplace k v = ⟨key, value⟩ :: entries.kreplace k v :=
        List.lookmap_cons_none _ _ (if_neg hkey)
      rw [hreplace, List.dlookup_cons_ne entries (⟨key, value⟩ : Σ _ : κ, ν) hkey]
      by_cases hsame : k' = key
      · subst hsame
        rw [if_neg (Ne.symm hkey), List.dlookup_cons_eq, List.dlookup_cons_eq]
      · rw [List.dlookup_cons_ne _ (⟨key, value⟩ : Σ _ : κ, ν) hsame,
          List.dlookup_cons_ne _ (⟨key, value⟩ : Σ _ : κ, ν) hsame, ih]

theorem lookup_replace_ne {t : AList fun _ : κ => ν} {k k' : κ} (h : k' ≠ k) (v : ν) :
    (t.replace k v).lookup k' = t.lookup k' := by
  rw [lookup_replace, if_neg h]

/-- What is found after a replacement is the new value, or was there before. -/
theorem lookup_replace_eq_some {t : AList fun _ : κ => ν} {k k' : κ} {v v' : ν}
    (h : (t.replace k v).lookup k' = some v') : (k' = k ∧ v' = v) ∨ t.lookup k' = some v' := by
  rw [lookup_replace] at h
  split at h
  · obtain ⟨_, _, rfl⟩ := Option.map_eq_some_iff.mp h
    exact .inl ⟨‹_›, rfl⟩
  · exact .inr h

theorem mem_of_lookup {t : AList fun _ : κ => ν} {k : κ} {v : ν} (h : t.lookup k = some v) : k ∈ t := by
  rw [← AList.lookup_isSome, h]
  rfl

theorem exists_lookup {t : AList fun _ : κ => ν} {k : κ} (h : k ∈ t) : ∃ v, t.lookup k = some v :=
  Option.isSome_iff_exists.mp (AList.lookup_isSome.mpr h)

/-! ### Every value at once -/

/-- The table with every value changed. -/
def mapValues (f : ν → ν) (t : AList fun _ : κ => ν) : AList fun _ : κ => ν :=
  ⟨t.entries.map (.map id fun _ => f), t.nodupKeys.map₂ (fun _ => f) t.entries⟩

@[simp] theorem lookup_mapValues (f : ν → ν) (t : AList fun _ : κ => ν) (k : κ) :
    (mapValues f t).lookup k = (t.lookup k).map f :=
  List.dlookup_map₂ k

/-! ### Some of the entries -/

/-- The entries that pass a test. -/
def retain (keep : ν → Bool) (t : AList fun _ : κ => ν) : AList fun _ : κ => ν :=
  ⟨t.entries.filter fun entry => keep entry.2, t.nodupKeys.sublist List.filter_sublist⟩

theorem lookup_retain (keep : ν → Bool) (t : AList fun _ : κ => ν) (k : κ) :
    (retain keep t).lookup k = (t.lookup k).filter keep := by
  obtain ⟨entries, hnodup⟩ := t
  show (entries.filter fun entry => keep entry.2).dlookup k = (entries.dlookup k).filter keep
  induction entries with
  | nil => rfl
  | cons entry entries ih =>
    obtain ⟨key, value⟩ := entry
    obtain ⟨hfresh, hrest⟩ := List.nodupKeys_cons.mp hnodup
    by_cases hkey : k = key
    · subst hkey
      have hnone : (entries.filter fun entry => keep entry.2).dlookup k = none := by
        rw [List.dlookup_eq_none]
        exact fun hmem => hfresh (List.Sublist.mem hmem (List.filter_sublist.map Sigma.fst))
      rw [List.dlookup_cons_eq, Option.filter_some, List.filter_cons]
      split
      · rw [List.dlookup_cons_eq]
      · exact hnone
    · rw [List.dlookup_cons_ne entries (⟨key, value⟩ : Σ _ : κ, ν) hkey, List.filter_cons, ← ih hrest]
      split
      · exact List.dlookup_cons_ne _ (⟨key, value⟩ : Σ _ : κ, ν) hkey
      · rfl

/-- What a table holds, in its order. -/
def values (t : AList fun _ : κ => ν) : List ν := t.entries.map Sigma.snd

theorem mem_values {t : AList fun _ : κ => ν} {v : ν} : v ∈ values t ↔ ∃ k, t.lookup k = some v := by
  rw [values, List.mem_map]
  constructor
  · intro h
    obtain ⟨⟨k, v'⟩, hentry, rfl⟩ := h
    exact ⟨k, AList.mem_lookup_iff.mpr hentry⟩
  · intro h
    obtain ⟨k, hk⟩ := h
    exact ⟨⟨k, v⟩, AList.mem_lookup_iff.mp hk, rfl⟩

/-- The keys of the entries that pass a test. -/
theorem mem_keys_filter (keep : ν → Bool) {t : AList fun _ : κ => ν} {k : κ} :
    k ∈ (t.entries.filter fun entry => keep entry.2).map (fun entry => entry.1) ↔
      ∃ v, t.lookup k = some v ∧ keep v = true := by
  rw [List.mem_map]
  constructor
  · intro h
    obtain ⟨⟨k', v⟩, hentry, rfl⟩ := h
    obtain ⟨hmem, hkeep⟩ := List.mem_filter.mp hentry
    exact ⟨v, AList.mem_lookup_iff.mpr hmem, hkeep⟩
  · intro h
    obtain ⟨v, hk, hkeep⟩ := h
    exact ⟨⟨k, v⟩, List.mem_filter.mpr ⟨AList.mem_lookup_iff.mp hk, hkeep⟩, rfl⟩

/-- A table whose values show their keys holds one value for each. -/
theorem nodup_values {t : AList fun _ : κ => ν} {f : ν → κ} (h : ∀ k v, t.lookup k = some v → f v = k) :
    ((values t).map f).Nodup := by
  have hkeys : (values t).map f = t.keys := by
    rw [values, List.map_map, AList.keys, List.keys]
    refine List.map_congr_left fun entry hentry => ?_
    exact h entry.1 entry.2 (AList.mem_lookup_iff.mpr hentry)
  rw [hkeys]
  exact t.keys_nodup

/-! ### How many -/

/-- How many entries a table has. -/
def size (t : AList fun _ : κ => ν) : Nat := t.entries.length

omit [DecidableEq κ] in
theorem size_eq_keys (t : AList fun _ : κ => ν) : size t = t.keys.length := by
  rw [size, AList.keys, List.keys, List.length_map]

omit [DecidableEq κ] in
@[simp] theorem size_mapValues (f : ν → ν) (t : AList fun _ : κ => ν) : size (mapValues f t) = size t :=
  List.length_map _

theorem size_insert_of_notMem {t : AList fun _ : κ => ν} {k : κ} (h : k ∉ t) (v : ν) :
    size (t.insert k v) = size t + 1 := by
  rw [size, AList.entries_insert_of_notMem h, List.length_cons, size]

theorem size_insert_of_mem {t : AList fun _ : κ => ν} {k : κ} (h : k ∈ t) (v : ν) : size (t.insert k v) = size t := by
  have hmem := AList.mem_keys.mp h
  have hpos := List.length_pos_of_mem hmem
  rw [size_eq_keys, size_eq_keys, AList.keys_insert, List.length_cons, List.length_erase_of_mem hmem]
  omega

theorem size_insert_le (t : AList fun _ : κ => ν) (k : κ) (v : ν) : size (t.insert k v) ≤ size t + 1 := by
  by_cases h : k ∈ t
  · rw [size_insert_of_mem h]
    exact Nat.le_succ _
  · rw [size_insert_of_notMem h]

theorem size_erase_le (t : AList fun _ : κ => ν) (k : κ) : size (t.erase k) ≤ size t := by
  rw [size_eq_keys, size_eq_keys, AList.keys_erase]
  exact List.length_erase_le

@[simp] theorem size_replace (t : AList fun _ : κ => ν) (k : κ) (v : ν) : size (t.replace k v) = size t := by
  rw [size_eq_keys, size_eq_keys, AList.keys_replace]

end

/-! ### Counters -/

/-- The keys of a counter's own kind come before the one it gives next. -/
def Behind {κ : Type} (own : κ → Prop) (rank : κ → Nat) (next : Nat) (keys : κ → Prop) : Prop :=
  ∀ k, keys k → own k → rank k < next

namespace Behind
variable {κ : Type} {own : κ → Prop} {rank : κ → Nat} {next next' : Nat} {keys keys' : κ → Prop}

theorem fresh (h : Behind own rank next keys) {k : κ} (hown : own k) (hk : next ≤ rank k) : ¬ keys k :=
  fun hmem => Nat.not_lt.mpr hk (h k hmem hown)

/-- A key that is put in is of another kind, or behind the counter as it is then, the
key it has just given among them. -/
theorem grow (h : Behind own rank next keys) (hnext : next ≤ next')
    (hkeys : ∀ k, keys' k → keys k ∨ (own k → rank k < next')) : Behind own rank next' keys' := by
  intro k hk hown
  rcases hkeys k hk with hold | hnew
  · exact Nat.lt_of_lt_of_le (h k hold hown) hnext
  · exact hnew hown

end Behind

end Octets
