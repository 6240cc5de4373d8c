import GoAgent.Foundation.Keyed
import Mathlib.Data.List.Forall2
import Mathlib.Data.List.Induction

/-!
# Saving the members of an object over their rows

The rows of the members are read once. A member whose key is among them updates its row, and any
other member is inserted.

* `foldl_upsert` — what saving a list of members with distinct keys comes to.
* `upsert_perm` — where the stored members come first, and each updates its row to its own, the
  rows are those of the members.
* `insert_perm` — the same for members that are only ever inserted.
-/

namespace GoAgent.Foundation

variable {κ ρ σ : Type} [DecidableEq κ] (rowKey : ρ → κ) (key : σ → κ) (insert : σ → ρ)
  (update : ρ → σ → ρ)

/-- One turn of the loop over the members; `existing` are the rows that were read. -/
def upsert (existing rows : List ρ) (x : σ) : List ρ :=
  match lookup rowKey (key x) existing with
  | none => rows ++ [insert x]
  | some row => replace rowKey (key x) (update row x) rows

/-- A row after the members were saved. -/
def upserted (xs : List σ) (row : ρ) : ρ :=
  match lookup key (rowKey row) xs with
  | some x => update row x
  | none => row

variable {rowKey key insert update}

theorem upserted_append (hx : ∀ y ∈ xs, key y ≠ key x) (row : ρ) :
    upserted rowKey key update (xs ++ [x]) row =
      if rowKey row = key x then update row x else upserted rowKey key update xs row := by
  unfold upserted
  rw [lookup_append]
  by_cases h : rowKey row = key x
  · have hnone : lookup key (rowKey row) xs = none := by
      rw [lookup_eq_none_iff, h]
      rintro hmem
      obtain ⟨y, hy, hyx⟩ := List.mem_map.1 hmem
      exact hx y hy hyx
    have hsome : lookup key (rowKey row) [x] = some x := by simp [lookup, h]
    rw [hnone, hsome, if_pos h]
    rfl
  · have hnone : lookup key (rowKey row) [x] = none := by simp [lookup, Ne.symm h]
    rw [hnone, if_neg h, Option.or_none]

/-- **Saving members with distinct keys** updates the rows there are and inserts the rest. -/
theorem foldl_upsert {existing : List ρ} {xs : List σ} (hexisting : (existing.map rowKey).Nodup)
    (hxs : (xs.map key).Nodup) (hinsert : ∀ x ∈ xs, rowKey (insert x) = key x)
    (hupdate : ∀ row x, rowKey (update row x) = rowKey row) :
    xs.foldl (upsert rowKey key insert update existing) existing =
      existing.map (upserted rowKey key update xs) ++
        (xs.filter fun x => key x ∉ existing.map rowKey).map insert := by
  induction xs using List.reverseRecOn with
  | nil =>
    have hid : existing.map (upserted rowKey key update []) = existing :=
      List.map_id' existing
    rw [hid]
    exact (List.append_nil existing).symm
  | append_singleton xs x ih =>
    rw [List.map_append, List.nodup_append] at hxs
    have hne : ∀ y ∈ xs, key y ≠ key x := fun y hy =>
      hxs.2.2 _ (List.mem_map_of_mem hy) _ (List.mem_singleton.2 rfl)
    rw [List.foldl_append, List.foldl_cons, List.foldl_nil,
      ih hxs.1 fun y hy => hinsert y (List.mem_append_left _ hy), List.filter_append]
    unfold upsert
    cases hrow : lookup rowKey (key x) existing with
    | none =>
      have hnew : key x ∉ existing.map rowKey := lookup_eq_none_iff.1 hrow
      have hsame : existing.map (upserted rowKey key update (xs ++ [x])) =
          existing.map (upserted rowKey key update xs) := by
        apply List.map_congr_left
        intro row hmem
        rw [upserted_append hne, if_neg]
        exact fun h => hnew (h ▸ List.mem_map_of_mem hmem)
      have hlast : [x].filter (fun x => decide (key x ∉ existing.map rowKey)) = [x] := by
        simpa using hnew
      rw [hsame, hlast, List.map_append, List.append_assoc]
      rfl
    | some row =>
      have hrowKey : rowKey row = key x := key_of_lookup hrow
      have hold : key x ∈ existing.map rowKey := hrowKey ▸ List.mem_map_of_mem (mem_of_lookup hrow)
      have hlast : [x].filter (fun x => decide (key x ∉ existing.map rowKey)) = [] := by
        simpa using hold
      rw [hlast, List.append_nil]
      show replace rowKey (key x) (update row x) _ = _
      unfold replace
      rw [List.map_append, List.map_map, List.map_map]
      congr 1
      · apply List.map_congr_left
        intro row' hmem
        have hkey' : rowKey (upserted rowKey key update xs row') = rowKey row' := by
          unfold upserted
          split
          · exact hupdate _ _
          · rfl
        rw [Function.comp_apply, upserted_append hne, hkey']
        split_ifs with h
        · have heq : row' = row :=
            List.inj_on_of_nodup_map hexisting hmem (mem_of_lookup hrow) (h.trans hrowKey.symm)
          rw [heq]
        · rfl
      · apply List.map_congr_left
        intro y hy
        have hmem : y ∈ xs := (List.mem_filter.1 hy).1
        rw [Function.comp_apply, if_neg]
        rw [hinsert y (List.mem_append_left _ hmem)]
        exact hne y hmem

/-- **The rows of the members.** -/
theorem upsert_perm {existing : List ρ} {stored old new : List σ}
    (hrows : existing.Perm (stored.map insert)) (hexisting : (existing.map rowKey).Nodup)
    (hkeys : ((old ++ new).map key).Nodup) (hinsert : ∀ x, rowKey (insert x) = key x)
    (hupdate : ∀ row x, rowKey (update row x) = rowKey row)
    (hold : List.Forall₂ (fun x y => key y = key x ∧ update (insert x) y = insert y) stored old) :
    ((old ++ new).foldl (upsert rowKey key insert update existing) existing).Perm
      ((old ++ new).map insert) := by
  have hstoredKeys : stored.map key = old.map key := by
    rw [← List.forall₂_eq_eq_eq, List.forall₂_map_left_iff, List.forall₂_map_right_iff]
    exact hold.imp fun _ _ h => h.1.symm
  have hmem (k : κ) : k ∈ existing.map rowKey ↔ k ∈ old.map key := by
    rw [(hrows.map rowKey).mem_iff, List.map_map, ← hstoredKeys]
    simp only [List.mem_map, Function.comp_apply, hinsert]
  rw [foldl_upsert hexisting hkeys (fun x _ => hinsert x) hupdate, List.map_append]
  rw [List.map_append, List.nodup_append] at hkeys
  apply List.Perm.append
  · apply (hrows.map _).trans
    rw [List.map_map]
    have hsame : stored.map (upserted rowKey key update (old ++ new) ∘ insert) =
        old.map insert := by
      rw [← List.forall₂_eq_eq_eq, List.forall₂_map_left_iff, List.forall₂_map_right_iff]
      have hget := List.forall₂_iff_get.1 hold
      rw [List.forall₂_iff_get]
      refine ⟨hget.1, fun i hi hi' => ?_⟩
      obtain ⟨hk, hu⟩ := hget.2 i hi hi'
      have hlookup : lookup key (rowKey (insert (stored.get ⟨i, hi⟩))) (old ++ new) =
          some (old.get ⟨i, hi'⟩) := by
        rw [hinsert, ← hk, lookup_append, lookup_of_mem hkeys.1 (List.get_mem _ _)]
        rfl
      rw [Function.comp_apply, upserted, hlookup]
      exact hu
    rw [hsame]
  · have hfilter : (old ++ new).filter (fun x => decide (key x ∉ existing.map rowKey)) = new := by
      rw [List.filter_append]
      have hfirst : old.filter (fun x => decide (key x ∉ existing.map rowKey)) = [] := by
        rw [List.filter_eq_nil_iff]
        intro x hx
        rw [decide_eq_true_eq, not_not, hmem]
        exact List.mem_map_of_mem hx
      have hsecond : new.filter (fun x => decide (key x ∉ existing.map rowKey)) = new := by
        rw [List.filter_eq_self]
        intro x hx
        rw [decide_eq_true_eq, hmem]
        exact fun h => hkeys.2.2 _ h _ (List.mem_map_of_mem hx) rfl
      rw [hfirst, hsecond, List.nil_append]
    rw [hfilter]

/-- **The rows of members that never change.** -/
theorem insert_perm {existing : List ρ} {stored xs : List σ}
    (hrows : existing.Perm (stored.map insert)) (hstored : stored <+: xs)
    (hkeys : (xs.map key).Nodup) (hinsert : ∀ x, rowKey (insert x) = key x) :
    (existing ++ (xs.filter fun x => key x ∉ existing.map rowKey).map insert).Perm
      (xs.map insert) := by
  have hmem (k : κ) : k ∈ existing.map rowKey ↔ k ∈ stored.map key := by
    rw [(hrows.map rowKey).mem_iff, List.map_map]
    simp only [List.mem_map, Function.comp_apply, hinsert]
  obtain ⟨new, rfl⟩ := hstored
  rw [List.map_append, List.nodup_append] at hkeys
  have hold : stored.filter (fun x => decide (key x ∉ existing.map rowKey)) = [] := by
    rw [List.filter_eq_nil_iff]
    intro x hx
    rw [decide_eq_true_eq, not_not, hmem]
    exact List.mem_map_of_mem hx
  have hnew : new.filter (fun x => decide (key x ∉ existing.map rowKey)) = new := by
    rw [List.filter_eq_self]
    intro x hx
    rw [decide_eq_true_eq, hmem]
    exact fun h => hkeys.2.2 _ h _ (List.mem_map_of_mem hx) rfl
  rw [List.filter_append, hold, hnew, List.nil_append, List.map_append]
  exact hrows.append_right _

end GoAgent.Foundation
