import GoAgent.Workflow.Run
import Mathlib.Logic.Function.Basic

/-!
# The life cycle of a run

An abstract run is a status together with the statuses of its nodes, over any set of node
names. `Move` says how it may develop: nodes are queued, work, and come to rest; the run
status follows the nodes when one succeeds or is skipped (`refresh`), fails with a node that
fails for good, and is cancelled once a cancellation leaves every node at rest.

`Coherent` ties the run status to its nodes and is kept by every move (`Coherent.move`). From it:

* `Coherent.terminal` — a final status is kept, except that the success or skip of one node
  takes a failed run back to work while another node is accepted (`Revival`);
* `Coherent.waiting`, `Coherent.confirm_status` — while no node has failed, a requested
  cancellation waits for a confirmation, and the last one ends it.
-/

namespace GoAgent.Workflow

variable {ι : Type*}

/-- A run status and the statuses of the nodes of a run. -/
@[ext] structure Lifecycle (ι : Type*) where
  status : WorkflowRunStatus
  node : ι → Option WorkflowNodeStatus

namespace Lifecycle

def All (l : Lifecycle ι) (p : WorkflowNodeStatus → Prop) : Prop :=
  ∀ i s, l.node i = some s → p s

/-- The status `s` for node `i`. -/
def moved [DecidableEq ι] (l : Lifecycle ι) (i : ι) (s : WorkflowNodeStatus) : Lifecycle ι :=
  { l with node := Function.update l.node i (some s) }

def withStatus (l : Lifecycle ι) (s : WorkflowRunStatus) : Lifecycle ι := { l with status := s }

/-- The run status follows the nodes. -/
noncomputable def refresh (l : Lifecycle ι) : Lifecycle ι :=
  open Classical in
  if l.All WorkflowNodeStatus.Complete then l.withStatus .succeeded
  else if ∃ i, l.node i = some .accepted then l.withStatus .accepted
  else if l.status = .accepted then l.withStatus .running
  else l

/-- What a cancellation request makes of a node. -/
def cancelNode (s : WorkflowNodeStatus) : WorkflowNodeStatus :=
  if s = .queued then .cancelled else if s.Active then .cancelRequested else s

/-- A cancellation is complete when every node is at rest. -/
noncomputable def close (l : Lifecycle ι) : Lifecycle ι :=
  open Classical in if l.All WorkflowNodeStatus.Closed then l.withStatus .cancelled else l

end Lifecycle

open Lifecycle

/-- The node a request is about, and whether its success or skip is reported. -/
inductive LifecycleAction (ι : Type*)
  | settle (i : ι)
  | other

/-- The developments of a run. -/
inductive Move [DecidableEq ι] : Lifecycle ι → LifecycleAction ι → Lifecycle ι → Prop
  | stay {l : Lifecycle ι} {a : LifecycleAction ι} : Move l a l
  | start {l : Lifecycle ι} {i : ι} (open_ : ¬l.status.Shut) (hi : l.node i = some .queued) :
      Move l .other ((l.moved i .running).withStatus
        (if l.status = .queued then .running else l.status))
  | accept {l : Lifecycle ι} {i : ι} {s : WorkflowNodeStatus} (open_ : ¬l.status.Shut)
      (hi : l.node i = some s) (hs : s.Active) : Move l .other ((l.moved i .accepted).withStatus .accepted)
  | succeed {l : Lifecycle ι} {i : ι} {s : WorkflowNodeStatus} (hi : l.node i = some s)
      (hs : s.Active ∨ s = .succeeded) : Move l (.settle i) (l.moved i .succeeded).refresh
  | skip {l : Lifecycle ι} {i : ι} {s : WorkflowNodeStatus} (hi : l.node i = some s)
      (hs : s = .queued ∨ s = .skipped) : Move l (.settle i) (l.moved i .skipped).refresh
  | reject {l : Lifecycle ι} {i : ι} (open_ : ¬l.status.Shut) (hi : l.node i = some .queued) :
      Move l .other ((l.moved i .failed).withStatus .failed)
  | retry {l : Lifecycle ι} {i : ι} {s : WorkflowNodeStatus} (hi : l.node i = some s)
      (hs : s.Active) : Move l .other (l.moved i .queued)
  | fail {l : Lifecycle ι} {i : ι} {s : WorkflowNodeStatus} (hi : l.node i = some s)
      (hs : s.Active) : Move l .other ((l.moved i .failed).withStatus .failed)
  | cancel {l : Lifecycle ι} (open_ : ¬l.status.Shut) :
      Move l .other (close ⟨.cancelRequested, fun i => (l.node i).map cancelNode⟩)
  | confirm {l : Lifecycle ι} {i : ι} {s : WorkflowNodeStatus} (hi : l.node i = some s)
      (hs : s = .cancelRequested ∨ s = .cancelled) :
      Move l .other (if l.status = .cancelRequested then (l.moved i .cancelled).close
        else l.moved i .cancelled)

/-- A cancellation has been requested or is complete. -/
def WorkflowRunStatus.Cancelling (s : WorkflowRunStatus) : Prop :=
  s = .cancelRequested ∨ s = .cancelled

instance (s : WorkflowRunStatus) : Decidable s.Cancelling := by
  unfold WorkflowRunStatus.Cancelling; infer_instance

/-- What the run status says is true of the nodes. -/
structure Sound (l : Lifecycle ι) : Prop where
  succeeded : l.status = .succeeded → l.All WorkflowNodeStatus.Complete
  failed : l.status = .failed → ∃ i, l.node i = some .failed
  cancelled : l.status = .cancelled → l.All WorkflowNodeStatus.Closed
  pending : l.status = .cancelRequested → ¬l.All WorkflowNodeStatus.Closed
  cancelling : l.status.Cancelling → l.All fun s => ¬s.Cancellable
  working : ¬l.status.Cancelling → l.All fun s => s ≠ .cancelRequested ∧ s ≠ .cancelled

/-- The run status agrees with the nodes. -/
structure Coherent (l : Lifecycle ι) : Prop extends Sound l where
  complete : l.All WorkflowNodeStatus.Complete → l.status = .succeeded

/-- The success or skip of node `i` takes a failed run back to work: another node is accepted. -/
def Revival (l : Lifecycle ι) : LifecycleAction ι → Prop
  | .settle i => l.status = .failed ∧ ∃ j, j ≠ i ∧ l.node j = some .accepted
  | .other => False

/-! ## Node statuses -/

theorem WorkflowNodeStatus.Complete.closed {s : WorkflowNodeStatus} (h : s.Complete) : s.Closed :=
  Or.inr h

theorem WorkflowNodeStatus.Closed.not_cancellable {s : WorkflowNodeStatus} (h : s.Closed) :
    ¬s.Cancellable := by
  obtain rfl | rfl | rfl := h <;> decide

theorem WorkflowNodeStatus.Active.cancellable {s : WorkflowNodeStatus} (h : s.Active) :
    s.Cancellable := Or.inr h

theorem WorkflowNodeStatus.Closed.complete_or {s : WorkflowNodeStatus} (h : s.Closed) :
    s.Complete ∨ s = .cancelled := h.symm

/-- A node at rest in a cancelled run is closed, or waits for its confirmation, or has failed. -/
theorem WorkflowNodeStatus.not_cancellable {s : WorkflowNodeStatus} (h : ¬s.Cancellable) :
    s.Closed ∨ s = .cancelRequested ∨ s = .failed := by
  cases s <;> revert h <;> decide

section

variable {l : Lifecycle ι} {i : ι} {s : WorkflowNodeStatus} {r : WorkflowRunStatus}

namespace Lifecycle

@[simp] theorem refresh_node : l.refresh.node = l.node := by
  unfold refresh
  split_ifs <;> rfl

@[simp] theorem close_node : l.close.node = l.node := by
  unfold close
  split_ifs <;> rfl

theorem refresh_of_complete (h : l.All WorkflowNodeStatus.Complete) :
    l.refresh = l.withStatus .succeeded := if_pos h

theorem refresh_of_accepted (h : ¬l.All WorkflowNodeStatus.Complete)
    (ha : ∃ i, l.node i = some .accepted) : l.refresh = l.withStatus .accepted := by
  unfold refresh
  rw [if_neg h, if_pos ha]

theorem refresh_of_idle (h : ¬l.All WorkflowNodeStatus.Complete)
    (ha : ¬∃ i, l.node i = some .accepted) :
    l.refresh = if l.status = .accepted then l.withStatus .running else l := by
  unfold refresh
  rw [if_neg h, if_neg ha]

theorem cancelNode_eq_succeeded : cancelNode s = .succeeded ↔ s = .succeeded := by
  cases s <;> decide

theorem not_complete (hi : l.node i = some s) (hs : ¬s.Complete) :
    ¬l.All WorkflowNodeStatus.Complete := fun h => hs (h i s hi)

end Lifecycle

/-! ## Coherence -/

theorem Sound.coherent (h : Sound l) (hc : ¬l.All WorkflowNodeStatus.Complete) : Coherent l :=
  { h with complete := fun h => absurd h hc }

/-- While a node can still be cancelled the run is neither done nor being cancelled. -/
theorem Coherent.of_cancellable (h : Coherent l) (hi : l.node i = some s) (hs : s.Cancellable) :
    l.status ≠ .succeeded ∧ ¬l.status.Cancelling :=
  ⟨fun hr => (h.succeeded hr i s hi).closed.not_cancellable hs,
    fun hr => h.cancelling hr i s hi hs⟩

theorem Sound.withStatus (h : Sound l) (hl : ¬l.status.Cancelling)
    (hr : r = .running ∨ r = .accepted ∨ r = .failed ∧ ∃ i, l.node i = some .failed) :
    Sound (l.withStatus r) := by
  have hr' : ¬r.Cancelling := by obtain rfl | rfl | ⟨rfl, -⟩ := hr <;> decide
  refine ⟨fun h => ?_, fun h => ?_, fun h => absurd (Or.inr h) hr', fun h => absurd (Or.inl h) hr',
    fun h => absurd h hr', fun _ => h.working hl⟩
  · obtain rfl | rfl | ⟨rfl, -⟩ := hr <;> cases h
  · obtain rfl | rfl | ⟨-, hf⟩ := hr
    · cases h
    · cases h
    · exact hf

/-- Refreshing makes a sound run coherent. -/
theorem Sound.refresh (h : Sound l) : Coherent l.refresh := by
  by_cases hc : l.All WorkflowNodeStatus.Complete
  · rw [refresh_of_complete hc]
    refine ⟨⟨fun _ => hc, nofun, nofun, nofun,
      fun h => absurd h (show ¬WorkflowRunStatus.succeeded.Cancelling by decide),
      fun _ j t hj => ?_⟩, fun _ => rfl⟩
    obtain rfl | rfl := hc j t hj <;> decide
  · have hwork : (∃ i, l.node i = some .accepted) → ¬l.status.Cancelling := fun ⟨i, hi⟩ hr =>
      h.cancelling hr i _ hi (by decide)
    by_cases ha : ∃ i, l.node i = some .accepted
    · rw [refresh_of_accepted hc ha]
      exact (h.withStatus (hwork ha) (Or.inr (Or.inl rfl))).coherent hc
    · rw [refresh_of_idle hc ha]
      split_ifs with hr
      · exact (h.withStatus (by rw [hr]; decide) (Or.inl rfl)).coherent hc
      · exact h.coherent hc

/-- A requested cancellation whose nodes are at rest comes to its end when they are closed. -/
theorem Coherent.close {node : ι → Option WorkflowNodeStatus}
    (hrest : ∀ i s, node i = some s → ¬s.Cancellable)
    (hc : ∃ i s, node i = some s ∧ ¬s.Complete) :
    Coherent (Lifecycle.close ⟨.cancelRequested, node⟩) := by
  have hnc : ¬(⟨.cancelRequested, node⟩ : Lifecycle ι).All WorkflowNodeStatus.Complete := by
    obtain ⟨i, s, hi, hs⟩ := hc
    exact not_complete hi hs
  unfold Lifecycle.close
  split_ifs with hall
  · exact Sound.coherent ⟨nofun, nofun, fun _ => hall, nofun, fun _ => hrest,
      fun h => absurd (Or.inr rfl) h⟩ hnc
  · exact Sound.coherent ⟨nofun, nofun, nofun, fun _ => hall, fun _ => hrest,
      fun h => absurd (Or.inl rfl) h⟩ hnc

end

section

variable [DecidableEq ι] {l l' : Lifecycle ι} {i j : ι} {s t : WorkflowNodeStatus}
  {a : LifecycleAction ι} {p : WorkflowNodeStatus → Prop}

namespace Lifecycle

@[simp] theorem moved_status : (l.moved i s).status = l.status := rfl

theorem moved_node : (l.moved i s).node j = if j = i then some s else l.node j := by
  simp [moved, Function.update_apply]

theorem moved_node_self : (l.moved i s).node i = some s := by
  rw [moved_node, if_pos rfl]

theorem all_moved : (l.moved i s).All p ↔ p s ∧ ∀ j, j ≠ i → ∀ t, l.node j = some t → p t := by
  constructor
  · intro h
    refine ⟨h i s moved_node_self, fun j hj t ht => h j t ?_⟩
    rw [moved_node, if_neg hj, ht]
  · rintro ⟨hs, hrest⟩ j t ht
    rw [moved_node] at ht
    split_ifs at ht with hj
    · cases ht
      exact hs
    · exact hrest j hj t ht

/-- A node moves to the status it has. -/
theorem moved_self (h : l.node i = some s) : l.moved i s = l := by
  unfold moved
  rw [← h, Function.update_eq_self]

end Lifecycle

/-- A node that can be cancelled may move to any status a cancellation does not give. -/
theorem Coherent.moved (h : Coherent l) (hi : l.node i = some s) (hs : s.Cancellable)
    (ht : t ≠ .cancelRequested ∧ t ≠ .cancelled) : Sound (l.moved i t) := by
  obtain ⟨hsucc, hcanc⟩ := h.of_cancellable hi hs
  refine ⟨fun hr => absurd hr hsucc, fun hr => ?_, fun hr => absurd (Or.inr hr) hcanc,
    fun hr => absurd (Or.inl hr) hcanc, fun hr => absurd hr hcanc, fun hr => ?_⟩
  · obtain ⟨j, hj⟩ := h.failed hr
    have hji : j ≠ i := by
      rintro rfl
      rw [hi] at hj
      obtain rfl := Option.some.inj hj
      exact absurd hs (by decide)
    exact ⟨j, by rw [moved_node, if_neg hji, hj]⟩
  · exact all_moved.2 ⟨ht, fun j _ => h.working hr j⟩

/-- **Every move keeps a run coherent.** -/
theorem Coherent.move (h : Coherent l) (hm : Move l a l') : Coherent l' := by
  cases hm with
  | stay => exact h
  | @start i open_ hi =>
    have hmoved := h.moved (t := .running) hi (by decide) (by decide)
    refine Sound.coherent ?_ (not_complete moved_node_self (by decide))
    split_ifs with hq
    · exact hmoved.withStatus (by rw [moved_status, hq]; decide) (Or.inl rfl)
    · exact hmoved
  | accept open_ hi hs =>
    refine ((h.moved hi hs.cancellable (by decide)).withStatus (h.of_cancellable hi hs.cancellable).2
      (Or.inr (Or.inl rfl))).coherent ?_
    exact not_complete moved_node_self (by decide)
  | succeed hi hs =>
    refine Sound.refresh ?_
    rcases hs with hs | rfl
    · exact h.moved hi hs.cancellable (by decide)
    · rw [moved_self hi]
      exact h.toSound
  | skip hi hs =>
    refine Sound.refresh ?_
    rcases hs with rfl | rfl
    · exact h.moved hi (by decide) (by decide)
    · rw [moved_self hi]
      exact h.toSound
  | reject open_ hi =>
    have hmoved := h.moved (t := .failed) hi (by decide) (by decide)
    exact (hmoved.withStatus (h.of_cancellable hi (by decide)).2
      (Or.inr (Or.inr ⟨rfl, _, moved_node_self⟩))).coherent
      (not_complete moved_node_self (by decide))
  | retry hi hs =>
    exact (h.moved hi hs.cancellable (by decide)).coherent (not_complete moved_node_self (by decide))
  | fail hi hs =>
    have hmoved := h.moved (t := .failed) hi hs.cancellable (by decide)
    exact (hmoved.withStatus (h.of_cancellable hi hs.cancellable).2
      (Or.inr (Or.inr ⟨rfl, _, moved_node_self⟩))).coherent
      (not_complete moved_node_self (by decide))
  | cancel open_ =>
    obtain ⟨i, s, hi, hs⟩ : ∃ i s, l.node i = some s ∧ ¬s.Complete := by
      have hc : ¬l.All WorkflowNodeStatus.Complete := fun hc =>
        open_ (Or.inr (Or.inl (h.complete hc)))
      simpa [All] using hc
    refine Coherent.close ?_ ⟨i, cancelNode s, by simp [hi], ?_⟩
    · intro j t hj
      obtain ⟨u, -, rfl⟩ := Option.map_eq_some_iff.1 hj
      cases u <;> decide
    · revert hs
      cases s <;> decide
  | @confirm i s hi hs =>
    split_ifs with hr
    · have hl : l.moved i .cancelled = ⟨.cancelRequested, (l.moved i .cancelled).node⟩ := by
        rw [← hr]
        rfl
      rw [hl]
      refine Coherent.close ?_ ⟨i, _, moved_node_self, by decide⟩
      exact all_moved.2 ⟨by decide, fun j _ => h.cancelling (Or.inl hr) j⟩
    · have hcanc : l.status.Cancelling := by
        by_contra hw
        have := h.working hw i s hi
        rcases hs with rfl | rfl
        · exact this.1 rfl
        · exact this.2 rfl
      rcases hs with rfl | rfl
      · exact absurd (h.cancelled (hcanc.resolve_left hr) i _ hi) (by decide)
      · rw [moved_self hi]
        exact h

/-- Settling a node leaves a final status, unless another node is accepted in a failed run. -/
theorem Coherent.settle_terminal (h : Coherent l) (hterm : l.status.Terminal)
    (hi : l.node i = some s) (hs : s.Cancellable ∨ s = t) (ht : t.Complete)
    (hrev : ¬Revival l (.settle i)) : (l.moved i t).refresh.status = l.status := by
  obtain hr | hr | hr := hterm
  · obtain rfl := hs.resolve_left fun hs => (h.of_cancellable hi hs).1 hr
    rw [moved_self hi, refresh_of_complete (h.succeeded hr), hr]
    rfl
  · obtain ⟨j, hj⟩ := h.failed hr
    have hji : j ≠ i := by
      rintro rfl
      obtain rfl := Option.some.inj (hi.symm.trans hj)
      rcases hs with hs | rfl
      · exact absurd hs (by decide)
      · exact absurd ht (by decide)
    have hacc : ¬∃ k, (l.moved i t).node k = some .accepted := by
      rintro ⟨k, hk⟩
      rw [moved_node] at hk
      split_ifs at hk with hki
      · obtain rfl := Option.some.inj hk
        exact absurd ht (by decide)
      · exact hrev ⟨hr, k, hki, hk⟩
    have hjm : (l.moved i t).node j = some .failed := by rw [moved_node, if_neg hji, hj]
    rw [refresh_of_idle (not_complete hjm (by decide)) hacc, moved_status, hr, if_neg (by decide),
      moved_status, hr]
  · obtain rfl := hs.resolve_left fun hs => (h.of_cancellable hi hs).2 (Or.inr hr)
    have hc : ¬l.All WorkflowNodeStatus.Complete := fun hc => by
      have := h.complete hc
      rw [hr] at this
      cases this
    have hacc : ¬∃ k, l.node k = some .accepted := fun ⟨k, hk⟩ =>
      absurd (h.cancelled hr k _ hk) (by decide)
    rw [moved_self hi, refresh_of_idle hc hacc, hr, if_neg (by decide), hr]

/-- **A final status is kept**, unless the move revives the run. -/
theorem Coherent.terminal (h : Coherent l) (hm : Move l a l') (ht : l.status.Terminal)
    (hr : ¬Revival l a) : l'.status = l.status := by
  cases hm with
  | stay => rfl
  | start open_ | accept open_ | reject open_ | cancel open_ => exact absurd (Or.inr ht) open_
  | succeed hi hs => exact h.settle_terminal ht hi (hs.imp_left fun h => h.cancellable) (Or.inl rfl) hr
  | skip hi hs =>
    refine h.settle_terminal ht hi (hs.imp_left ?_) (Or.inr rfl) hr
    rintro rfl
    decide
  | retry => rfl
  | fail hi hs =>
    obtain ⟨hsucc, hcanc⟩ := h.of_cancellable hi hs.cancellable
    obtain hr | hr | hr := ht
    · exact absurd hr hsucc
    · exact hr.symm
    · exact absurd (Or.inr hr) hcanc
  | confirm hi hs =>
    have hne : l.status ≠ .cancelRequested := by obtain hr | hr | hr := ht <;> rw [hr] <;> decide
    rw [if_neg hne, moved_status]

/-- A revived run is accepted again. -/
theorem Revival.accepted (h : Revival l (.settle i)) :
    (l.moved i t).refresh.status = .accepted := by
  obtain ⟨-, j, hji, hj⟩ := h
  have hjm : (l.moved i t).node j = some .accepted := by rw [moved_node, if_neg hji, hj]
  rw [refresh_of_accepted (not_complete hjm (by decide)) ⟨j, hjm⟩]
  rfl

/-! ## Cancellation -/

omit [DecidableEq ι] in
/-- In a cancelled run some node was cancelled. -/
theorem Coherent.exists_cancelled (h : Coherent l) (hr : l.status = .cancelled) :
    ∃ i, l.node i = some .cancelled := by
  by_contra hno
  have hc : l.All WorkflowNodeStatus.Complete := fun i s hi => by
    refine (h.cancelled hr i s hi).resolve_left ?_
    rintro rfl
    exact hno ⟨i, hi⟩
  have := h.complete hc
  rw [hr] at this
  cases this

omit [DecidableEq ι] in
/-- A requested cancellation waits for a node's confirmation, unless a node has failed. -/
theorem Coherent.waiting (h : Coherent l) (hr : l.status = .cancelRequested)
    (hf : ¬∃ i, l.node i = some .failed) : ∃ i, l.node i = some .cancelRequested := by
  by_contra hno
  refine h.pending hr fun i s hi => ?_
  obtain hs | rfl | rfl := WorkflowNodeStatus.not_cancellable (h.cancelling (Or.inl hr) i s hi)
  · exact hs
  · exact absurd ⟨i, hi⟩ hno
  · exact absurd ⟨i, hi⟩ hf

/-- Confirming a node ends the cancellation when it was the last to wait and none has failed. -/
theorem Coherent.confirm_status (h : Coherent l) (hr : l.status = .cancelRequested)
    (hf : ¬∃ i, l.node i = some .failed) : (l.moved i .cancelled).close.status =
      open Classical in if ∃ j, j ≠ i ∧ l.node j = some .cancelRequested then .cancelRequested
        else .cancelled := by
  have hall : (l.moved i .cancelled).All WorkflowNodeStatus.Closed ↔
      ¬∃ j, j ≠ i ∧ l.node j = some .cancelRequested := by
    rw [all_moved]
    constructor
    · rintro ⟨-, hrest⟩ ⟨j, hji, hj⟩
      exact absurd (hrest j hji _ hj) (by decide)
    · refine fun hno => ⟨by decide, fun j hji s hj => ?_⟩
      obtain hs | rfl | rfl := WorkflowNodeStatus.not_cancellable (h.cancelling (Or.inl hr) j s hj)
      · exact hs
      · exact absurd ⟨j, hji, hj⟩ hno
      · exact absurd ⟨j, hj⟩ hf
  unfold Lifecycle.close
  by_cases hno : ∃ j, j ≠ i ∧ l.node j = some .cancelRequested
  · rw [if_neg (by rw [hall]; exact not_not_intro hno), if_pos hno, moved_status, hr]
  · rw [if_pos (hall.2 hno), if_neg hno]
    rfl

end

end GoAgent.Workflow
