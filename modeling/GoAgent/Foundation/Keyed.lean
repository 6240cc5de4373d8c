import Mathlib.Data.List.Nodup

/-!
# Lists of records found and replaced by key

A table kept as a list: `lookup key k` is the first record with key `k`, and `replace key k r`
puts `r` in its place. When the keys are pairwise distinct a record is in the table exactly
when its key finds it, so a statement about all records is one about all lookups. `Sole` says it of
one record, and is kept by what changes the others.
-/

namespace GoAgent.Foundation

variable {κ ρ : Type} [DecidableEq κ] (key : ρ → κ)

def lookup (k : κ) (rows : List ρ) : Option ρ := rows.find? fun r => key r = k

def replace (k : κ) (new : ρ) (rows : List ρ) : List ρ :=
  rows.map fun r => if key r = k then new else r

variable {key} {k j : κ} {r new old : ρ} {rows : List ρ}

theorem key_of_lookup (h : lookup key k rows = some r) : key r = k := by
  simpa using List.find?_some h

theorem mem_of_lookup (h : lookup key k rows = some r) : r ∈ rows := List.mem_of_find?_eq_some h

theorem lookup_isSome_iff : (lookup key k rows).isSome ↔ k ∈ rows.map key := by
  simp [lookup, List.find?_isSome]

theorem lookup_eq_none_iff : lookup key k rows = none ↔ k ∉ rows.map key := by
  rw [← lookup_isSome_iff, Option.not_isSome_iff_eq_none]

theorem lookup_of_mem (hn : (rows.map key).Nodup) (h : r ∈ rows) :
    lookup key (key r) rows = some r := by
  induction rows with
  | nil => cases h
  | cons c rows ih =>
    simp only [List.map_cons, List.nodup_cons] at hn
    simp only [lookup, List.find?_cons]
    rcases List.mem_cons.1 h with rfl | hr
    · simp
    · have hne : key c ≠ key r := fun he => hn.1 (he ▸ List.mem_map_of_mem hr)
      simpa [hne, lookup] using ih hn.2 hr

/-- With distinct keys, the records are exactly what the lookups find. -/
theorem lookup_eq_some_iff (hn : (rows.map key).Nodup) :
    lookup key k rows = some r ↔ r ∈ rows ∧ key r = k :=
  ⟨fun h => ⟨mem_of_lookup h, key_of_lookup h⟩, fun ⟨h, hk⟩ => hk ▸ lookup_of_mem hn h⟩

theorem forall_mem_iff_lookup (hn : (rows.map key).Nodup) {P : ρ → Prop} :
    (∀ r ∈ rows, P r) ↔ ∀ k r, lookup key k rows = some r → P r :=
  ⟨fun h _ _ hr => h _ (mem_of_lookup hr), fun h r hr => h _ r (lookup_of_mem hn hr)⟩

theorem exists_mem_iff_lookup (hn : (rows.map key).Nodup) {P : ρ → Prop} :
    (∃ r ∈ rows, P r) ↔ ∃ k r, lookup key k rows = some r ∧ P r :=
  ⟨fun ⟨r, hr, h⟩ => ⟨_, r, lookup_of_mem hn hr, h⟩, fun ⟨_, r, hr, h⟩ => ⟨r, mem_of_lookup hr, h⟩⟩

/-- A change of the records that keeps their keys. -/
theorem lookup_map {f : ρ → ρ} (hf : ∀ r, key (f r) = key r) :
    lookup key k (rows.map f) = (lookup key k rows).map f := by
  unfold lookup
  rw [List.find?_map]
  congr 2
  funext r
  exact congrArg (fun x => decide (x = k)) (hf r)

theorem lookup_append {rows' : List ρ} :
    lookup key k (rows ++ rows') = (lookup key k rows).or (lookup key k rows') :=
  List.find?_append

@[simp] theorem keys_replace (hk : key new = k) :
    (replace key k new rows).map key = rows.map key := by
  simp only [replace, List.map_map]
  refine List.map_congr_left fun r _ => ?_
  by_cases h : key r = k <;> simp [h, hk]

/-- A column that the new record shares with the one it replaces keeps its values. -/
theorem map_replace {β : Type} {f : ρ → β} (hn : (rows.map key).Nodup)
    (hold : lookup key k rows = some old) (hf : f new = f old) :
    (replace key k new rows).map f = rows.map f := by
  simp only [replace, List.map_map]
  refine List.map_congr_left fun r hr => ?_
  by_cases h : key r = k
  · have : r = old := by
      have hr' := lookup_of_mem hn hr
      rw [h, hold] at hr'
      exact (Option.some.inj hr').symm
    subst this
    simp [h, hf]
  · simp [h]

theorem mem_replace (h : r ∈ replace key k new rows) : r = new ∨ r ∈ rows ∧ key r ≠ k := by
  obtain ⟨c, hc, rfl⟩ := List.mem_map.1 h
  by_cases hk : key c = k
  · simp [hk]
  · simp only [hk, if_false]
    exact Or.inr ⟨hc, hk⟩

theorem lookup_replace_self (hk : key new = k) (hold : lookup key k rows = some old) :
    lookup key k (replace key k new rows) = some new := by
  induction rows with
  | nil => cases hold
  | cons c rows ih =>
    simp only [replace, List.map_cons, lookup, List.find?_cons] at hold ih ⊢
    by_cases hc : key c = k
    · simp [hc, hk]
    · simp only [hc, decide_false, if_false] at hold ⊢
      exact ih hold

theorem lookup_replace_ne (hk : key new = k) (hj : j ≠ k) :
    lookup key j (replace key k new rows) = lookup key j rows := by
  induction rows with
  | nil => rfl
  | cons c rows ih =>
    simp only [replace, List.map_cons, lookup, List.find?_cons] at ih ⊢
    by_cases hc : key c = k
    · have hnew : key new ≠ j := fun h => hj (h ▸ hk)
      have hcj : key c ≠ j := fun h => hj (h ▸ hc)
      simp only [hc, if_true, hnew, decide_false, Ne.symm hj]
      exact ih
    · simp only [hc, if_false]
      by_cases hcj : key c = j <;> simp only [hcj, decide_true, decide_false]
      exact ih

/-- Reading a table after one record was replaced. -/
theorem lookup_replace (hk : key new = k) (hold : lookup key k rows = some old) :
    lookup key j (replace key k new rows) = if j = k then some new else lookup key j rows := by
  split_ifs with h
  · rw [h, lookup_replace_self hk hold]
  · exact lookup_replace_ne hk h

/-- `rows[k] = new` of a dictionary: a new key goes to the end. -/
def assign (key : ρ → κ) (k : κ) (new : ρ) (rows : List ρ) : List ρ :=
  if k ∈ rows.map key then replace key k new rows else rows ++ [new]

theorem assign_of_notMem (h : k ∉ rows.map key) : assign key k new rows = rows ++ [new] :=
  if_neg h

/-- A record that is there is assigned to its key. -/
theorem assign_self (hn : (rows.map key).Nodup) (h : r ∈ rows) : assign key (key r) r rows = rows := by
  have hsame : ∀ c ∈ rows, (if key c = key r then r else c) = c := by
    intro c hc
    split_ifs with hk
    · have hlookup := lookup_of_mem hn hc
      rw [hk, lookup_of_mem hn h] at hlookup
      exact Option.some.inj hlookup
    · rfl
  unfold assign replace
  rw [if_pos (List.mem_map_of_mem h), List.map_congr_left hsame, List.map_id']

theorem mem_assign (h : r ∈ assign key k new rows) : r = new ∨ r ∈ rows := by
  unfold assign at h
  split_ifs at h with hmem
  · exact (mem_replace h).imp_right And.left
  · rcases List.mem_append.1 h with hold | hnew
    · exact .inr hold
    · exact .inl (List.mem_singleton.1 hnew)

theorem nodup_assign (hk : key new = k) (hn : (rows.map key).Nodup) :
    ((assign key k new rows).map key).Nodup := by
  unfold assign
  split_ifs with hmem
  · rwa [keys_replace hk]
  · rw [List.map_append, List.map_singleton, hk]
    exact List.nodup_append.2 ⟨hn, List.nodup_singleton k, fun a ha b hb hab =>
      hmem (List.mem_singleton.1 hb ▸ hab ▸ ha)⟩

/-! ## Records that are alone with their key -/

/-- The record is in the table, and no other has its key. -/
def Sole (key : ρ → κ) (r : ρ) (rows : List ρ) : Prop :=
  r ∈ rows ∧ ∀ r' ∈ rows, key r' = key r → r' = r

theorem Sole.lookup (h : Sole key r rows) : Foundation.lookup key (key r) rows = some r := by
  obtain ⟨r', hr'⟩ := Option.isSome_iff_exists.1
    (lookup_isSome_iff.2 (List.mem_map_of_mem h.1) : (Foundation.lookup key (key r) rows).isSome)
  rw [hr', h.2 r' (mem_of_lookup hr') (key_of_lookup hr')]

omit [DecidableEq κ] in
/-- The other records may change or go, as long as none takes the key. -/
theorem Sole.filterMap {σ : Type} {key' : σ → κ} {f : ρ → Option σ} {new : σ} (h : Sole key r rows)
    (hr : f r = some new) (hf : ∀ x y, f x = some y → key' y = key x) :
    Sole key' new (rows.filterMap f) := by
  refine ⟨List.mem_filterMap.2 ⟨r, h.1, hr⟩, ?_⟩
  intro y hy hkey
  obtain ⟨x, hx, hxy⟩ := List.mem_filterMap.1 hy
  have hx' : x = r := by
    apply h.2 x hx
    rw [← hf x y hxy, hkey, hf r new hr]
  rw [hx', hr] at hxy
  exact (Option.some.inj hxy).symm

omit [DecidableEq κ] in
theorem Sole.map {f : ρ → ρ} (h : Sole key r rows) (hr : f r = r) (hf : ∀ x, key (f x) = key x) :
    Sole key r (rows.map f) := by
  rw [← List.filterMap_eq_map]
  have hsome : (some ∘ f) r = some r := congrArg some hr
  apply h.filterMap hsome
  intro x y hxy
  rw [← Option.some.inj hxy]
  exact hf x

omit [DecidableEq κ] in
theorem Sole.filter {p : ρ → Bool} (h : Sole key r rows) (hr : p r = true) :
    Sole key r (rows.filter p) :=
  ⟨List.mem_filter.2 ⟨h.1, hr⟩, fun x hx => h.2 x (List.mem_filter.1 hx).1⟩

omit [DecidableEq κ] in
theorem Sole.append (h : Sole key r rows) {rows' : List ρ} (hne : ∀ x ∈ rows', key x ≠ key r) :
    Sole key r (rows ++ rows') := by
  refine ⟨List.mem_append_left _ h.1, ?_⟩
  intro x hx hkey
  rcases List.mem_append.1 hx with hx | hx
  · exact h.2 x hx hkey
  · exact absurd hkey (hne x hx)

omit [DecidableEq κ] in
theorem sole_of_new (h : key r ∉ rows.map key) : Sole key r (rows ++ [r]) := by
  refine ⟨List.mem_append_right _ (List.mem_singleton.2 rfl), ?_⟩
  intro x hx hkey
  rcases List.mem_append.1 hx with hx | hx
  · exact absurd (hkey ▸ List.mem_map_of_mem hx) h
  · exact List.mem_singleton.1 hx

end GoAgent.Foundation
