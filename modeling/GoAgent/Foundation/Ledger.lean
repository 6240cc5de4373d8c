import Mathlib.Data.List.Nodup
import Mathlib.Data.List.Infix

/-!
# Append-only logs without repeated keys

`post key e log` appends an entry unless one with its key is already there, and `latest p log`
is the last entry satisfying `p`. `Grows P log log'` says that `log'` extends `log` by entries
satisfying `P` only; then whatever `P` excludes has neither become more frequent nor been
superseded as the latest.
-/

namespace GoAgent.Foundation

variable {κ α : Type} [DecidableEq κ] (key : α → κ)

/-- Append `e` unless its key is logged. -/
def post (e : α) (log : List α) : List α :=
  if ∃ x ∈ log, key x = key e then log else log ++ [e]

/-- The last entry satisfying `p`. -/
def latest (p : α → Bool) (log : List α) : Option α := log.reverse.find? p

variable {key} {e x : α} {log : List α} {p : α → Bool}

theorem post_of_logged (h : ∃ x ∈ log, key x = key e) : post key e log = log := if_pos h

theorem post_of_fresh (h : ¬∃ x ∈ log, key x = key e) : post key e log = log ++ [e] := if_neg h

theorem keys_nodup_post (h : (log.map key).Nodup) : ((post key e log).map key).Nodup := by
  by_cases hk : ∃ x ∈ log, key x = key e
  · rwa [post_of_logged hk]
  · rw [post_of_fresh hk, List.map_append, List.nodup_append]
    refine ⟨h, by simp, ?_⟩
    rintro _ ha _ hb rfl
    obtain ⟨x, hx, hxe⟩ := List.mem_map.1 ha
    rw [List.map_singleton, List.mem_singleton] at hb
    exact hk ⟨x, hx, hxe.trans hb⟩

theorem countP_post_le (e : α) (log : List α) :
    (post key e log).countP p ≤ log.countP p + 1 := by
  unfold post
  split_ifs
  · exact Nat.le_succ _
  · rw [List.countP_append]
    simp only [List.countP_singleton]
    split_ifs <;> omega

theorem latest_append_singleton : latest p (log ++ [e]) = if p e then some e else latest p log := by
  simp only [latest, List.reverse_append, List.reverse_singleton, List.singleton_append,
    List.find?_cons]
  cases p e <;> rfl

theorem latest_post_of_fresh (hk : ¬∃ x ∈ log, key x = key e) (h : p e = true) :
    latest p (post key e log) = some e := by
  rw [post_of_fresh hk, latest_append_singleton, if_pos h]

theorem latest_spec (h : latest p log = some x) : x ∈ log ∧ p x = true :=
  ⟨List.mem_reverse.1 (List.mem_of_find?_eq_some h), List.find?_some h⟩

theorem latest_eq_none_iff : latest p log = none ↔ ∀ x ∈ log, p x = false := by
  simp [latest, List.find?_eq_none]

/-- `log'` extends `log` by entries satisfying `P`. -/
def Grows (P : α → Prop) (log log' : List α) : Prop := ∃ new, log' = log ++ new ∧ ∀ x ∈ new, P x

namespace Grows

variable {P Q : α → Prop} {log' log'' : List α}

theorem refl (P : α → Prop) (log : List α) : Grows P log log := ⟨[], by simp, by simp⟩

theorem trans (h : Grows P log log') (h' : Grows P log' log'') : Grows P log log'' := by
  obtain ⟨a, rfl, ha⟩ := h
  obtain ⟨b, rfl, hb⟩ := h'
  exact ⟨a ++ b, by simp, fun x hx => (List.mem_append.1 hx).elim (ha x) (hb x)⟩

theorem mono (h : Grows P log log') (hPQ : ∀ x, P x → Q x) : Grows Q log log' := by
  obtain ⟨new, rfl, hnew⟩ := h
  exact ⟨new, rfl, fun x hx => hPQ x (hnew x hx)⟩

theorem post (h : P e) : Grows P log (post key e log) := by
  unfold Foundation.post
  split_ifs
  · exact refl P log
  · exact ⟨[e], rfl, fun x hx => List.mem_singleton.1 hx ▸ h⟩

theorem mem (h : Grows P log log') (hx : x ∈ log) : x ∈ log' := by
  obtain ⟨new, rfl, -⟩ := h
  exact List.mem_append_left _ hx

/-- A log that has grown back to itself did not grow on the way. -/
theorem eq_of_eq (h : Grows P log log') (h' : Grows Q log' log'') (heq : log'' = log) :
    log' = log := by
  obtain ⟨a, rfl, -⟩ := h
  obtain ⟨b, rfl, -⟩ := h'
  rw [List.append_assoc, List.append_right_eq_self, List.append_eq_nil_iff] at heq
  rw [heq.1, List.append_nil]

theorem countP_eq (h : Grows P log log') (hp : ∀ x, P x → p x = false) :
    log'.countP p = log.countP p := by
  obtain ⟨new, rfl, hnew⟩ := h
  have : new.countP p = 0 := List.countP_eq_zero.2 fun x hx => by simp [hp x (hnew x hx)]
  rw [List.countP_append, this, Nat.add_zero]

theorem latest_eq (h : Grows P log log') (hp : ∀ x, P x → p x = false) :
    latest p log' = latest p log := by
  obtain ⟨new, rfl, hnew⟩ := h
  have : new.reverse.find? p = none := List.find?_eq_none.2 fun x hx => by
    simp [hp x (hnew x (List.mem_reverse.1 hx))]
  rw [latest, List.reverse_append, List.find?_append, this, Option.none_or, latest]

end Grows

end GoAgent.Foundation
