import Mathlib.Data.List.AList

/-!
# Finite maps with an iteration order

A hash map or hash set is an association list with distinct keys: lookups see
only the map, iteration sees the order of the list, which stands for the
unspecified order of a hash table.

* `Table` — a map; `modify` changes the value under a key it holds, `values`
  lists the values in iteration order.
* `KeySet` — a set.
* `sweep` — a loop over keys that rewrites the entry of a total map at each.
-/

/-- A finite map from `κ` to `ν`. -/
abbrev Table (κ ν : Type*) := AList fun _ : κ => ν

/-- A finite set of keys. -/
abbrev KeySet (κ : Type*) := Table κ Unit

namespace Table

variable {κ ν : Type*} [DecidableEq κ]

/-- Change the value under `k`, if there is one. -/
def modify (k : κ) (f : ν → ν) (t : Table κ ν) : Table κ ν :=
  match t.lookup k with
  | none => t
  | some v => t.insert k (f v)

/-- The values in iteration order. -/
def values {κ ν : Type*} (t : Table κ ν) : List ν := t.entries.map Sigma.snd

theorem lookup_insert_eq (k k' : κ) (v : ν) (t : Table κ ν) :
    AList.lookup k' (t.insert k v) = if k' = k then some v else t.lookup k' := by
  split
  · next h => subst h; exact AList.lookup_insert t
  · next h => exact AList.lookup_insert_ne h

theorem lookup_erase_eq (k k' : κ) (t : Table κ ν) :
    AList.lookup k' (t.erase k) = if k' = k then none else t.lookup k' := by
  split
  · next h => subst h; exact AList.lookup_erase _ t
  · next h => exact AList.lookup_erase_ne h

theorem lookup_modify (k k' : κ) (f : ν → ν) (t : Table κ ν) :
    (modify k f t).lookup k' = if k' = k then (t.lookup k).map f else t.lookup k' := by
  unfold modify
  cases h : t.lookup k with
  | none =>
    simp only [Option.map_none]
    split
    · next hk => rw [hk, h]
    · rfl
  | some v => exact lookup_insert_eq k k' (f v) t

theorem mem_of_lookup {t : Table κ ν} {k : κ} {v : ν} (h : t.lookup k = some v) : k ∈ t.keys := by
  rw [← AList.mem_keys, ← AList.lookup_isSome, h]; rfl

theorem exists_lookup_of_mem {t : Table κ ν} {k : κ} (h : k ∈ t.keys) : ∃ v, t.lookup k = some v := by
  rw [← AList.mem_keys, ← AList.lookup_isSome, Option.isSome_iff_exists] at h
  exact h

/-- A map in which nothing is found is empty. -/
theorem eq_empty_of_lookup {t : Table κ ν} (h : ∀ k, t.lookup k = none) : t = ∅ := by
  refine AList.ext ?_
  cases hentries : t.entries with
  | nil => rfl
  | cons entry rest =>
    have hfound : t.lookup entry.1 = some entry.2 :=
      AList.mem_lookup_iff.mpr (by rw [hentries]; exact List.mem_cons_self)
    rw [h] at hfound
    cases hfound

/-- A value is listed exactly when some key holds it. -/
theorem mem_values {t : Table κ ν} {v : ν} : v ∈ values t ↔ ∃ k, t.lookup k = some v := by
  unfold values
  rw [List.mem_map]
  constructor
  · rintro ⟨⟨k, v'⟩, hmem, rfl⟩
    exact ⟨k, AList.mem_lookup_iff.mpr hmem⟩
  · rintro ⟨k, hk⟩
    exact ⟨⟨k, v⟩, AList.mem_lookup_iff.mp hk, rfl⟩

theorem length_keys_insert_le (k : κ) (v : ν) (t : Table κ ν) :
    (t.insert k v).keys.length ≤ t.keys.length + 1 := by
  rw [AList.keys_insert, List.length_cons]
  have := List.length_erase_le (a := k) (l := t.keys)
  omega

theorem length_keys_erase_le (k : κ) (t : Table κ ν) :
    (t.erase k).keys.length ≤ t.keys.length := by
  rw [AList.keys_erase]
  exact List.length_erase_le

end Table

/-! ### Sweeping a total map -/

/-- Rewrite the entry of `m` at each of `ks` in turn. -/
def sweep {κ ν : Type*} [DecidableEq κ] (f : κ → ν → ν) (ks : List κ) (m : κ → ν) : κ → ν :=
  ks.foldl (fun m k => Function.update m k (f k (m k))) m

/-- Over distinct keys a sweep rewrites each listed entry once and no other. -/
theorem sweep_apply {κ ν : Type*} [DecidableEq κ] (f : κ → ν → ν) :
    ∀ (ks : List κ), ks.Nodup → ∀ (m : κ → ν) (k : κ),
      sweep f ks m k = if k ∈ ks then f k (m k) else m k := by
  intro ks
  induction ks with
  | nil => intro _ m k; rfl
  | cons j ks ih =>
    intro hnd m k
    rw [List.nodup_cons] at hnd
    show sweep f ks (Function.update m j (f j (m j))) k = _
    rw [ih hnd.2]
    by_cases hkj : k = j
    · subst hkj
      simp [hnd.1]
    · simp [hkj]

/-- What every rewriting leaves alone, a sweep leaves alone. -/
theorem sweep_congr {κ ν β : Type*} [DecidableEq κ] {f : κ → ν → ν} (g : ν → β)
    (hf : ∀ k v, g (f k v) = g v) : ∀ (ks : List κ) (m : κ → ν) (k : κ),
      g (sweep f ks m k) = g (m k) := by
  intro ks
  induction ks with
  | nil => intro m k; rfl
  | cons j ks ih =>
    intro m k
    show g (sweep f ks (Function.update m j (f j (m j))) k) = _
    rw [ih]
    by_cases hkj : k = j
    · subst hkj
      simp [hf]
    · simp [hkj]

/-- An entry that is not listed, or that its rewriting leaves alone, stays. -/
theorem sweep_of_fixed {κ ν : Type*} [DecidableEq κ] {f : κ → ν → ν} {k : κ} :
    ∀ (ks : List κ) (m : κ → ν), (k ∈ ks → ∀ v, f k v = v) → sweep f ks m k = m k := by
  intro ks
  induction ks with
  | nil => intro m _; rfl
  | cons j ks ih =>
    intro m hfix
    show sweep f ks (Function.update m j (f j (m j))) k = _
    rw [ih _ fun hk => hfix (List.mem_cons_of_mem j hk)]
    by_cases hkj : k = j
    · subst hkj
      simp [hfix List.mem_cons_self]
    · simp [hkj]
