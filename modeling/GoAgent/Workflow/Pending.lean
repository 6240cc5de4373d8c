import GoAgent.Workflow.Status

/-!
# Work pending at an executor

The status *accepted* tells callers that a node waits for an external executor. A node leaves
*accepted* by success, by failure or by being put back in the queue. Every move of the life cycle
keeps the status right about it, except the retry of the only accepted node: it queues the node
and leaves the status as it was (`Stranding`).

* `reported_move` — one move keeps the status right exactly when it strands no status.
* `accepted_iff_pending` — in every run without such a retry the status is *accepted* exactly
  while a node is.
-/

namespace GoAgent.Workflow

open GoAgent.Foundation WorkflowRun Lifecycle

/-! ## The life cycle -/

section

variable {ι : Type*} {l : Lifecycle ι}

/-- Where nodes may progress, the status is *accepted* exactly while a node is. -/
def Reported (l : Lifecycle ι) : Prop :=
  ¬l.status.Shut → (l.status = .accepted ↔ ∃ i, l.node i = some .accepted)

theorem reported_of_shut (h : l.status.Shut) : Reported l := fun ho => absurd h ho

/-- A refreshed status is right about the accepted nodes. -/
theorem reported_refresh : Reported l.refresh := by
  intro ho
  rw [refresh_node]
  by_cases hc : l.All WorkflowNodeStatus.Complete
  · rw [refresh_of_complete hc] at ho
    exact absurd (Or.inr (Or.inl rfl)) ho
  · by_cases ha : ∃ i, l.node i = some .accepted
    · rw [refresh_of_accepted hc ha]
      exact iff_of_true rfl ha
    · rw [refresh_of_idle hc ha]
      apply iff_of_false _ ha
      split_ifs with hs
      · exact nofun
      · exact hs

theorem shut_close {node : ι → Option WorkflowNodeStatus} :
    (Lifecycle.close ⟨.cancelRequested, node⟩).status.Shut := by
  unfold Lifecycle.close
  split_ifs
  · exact Or.inr (Or.inr (Or.inr rfl))
  · exact Or.inl rfl

variable [DecidableEq ι] {l' : Lifecycle ι} {i : ι} {s : WorkflowNodeStatus}
  {a : LifecycleAction ι}

/-- The only accepted node is queued again and the status stays *accepted*. -/
def Stranding (l l' : Lifecycle ι) : Prop :=
  l.status = .accepted ∧ ∃ i, l.node i = some .accepted ∧ l' = l.moved i .queued ∧
    ∀ j, l.node j = some .accepted → j = i

/-- A node that is not accepted moves to a status other than *accepted*. -/
theorem exists_accepted_moved (hi : l.node i ≠ some .accepted) (hs : s ≠ .accepted) :
    (∃ j, (l.moved i s).node j = some .accepted) ↔ ∃ j, l.node j = some .accepted := by
  apply exists_congr
  intro j
  rw [moved_node]
  split_ifs with hj
  · subst hj
    exact iff_of_false (fun h => hs (Option.some.inj h)) hi
  · exact Iff.rfl

theorem reported_moved (h : Reported l) (hi : l.node i ≠ some .accepted) (hs : s ≠ .accepted) :
    Reported (l.moved i s) := by
  intro ho
  rw [moved_status, exists_accepted_moved hi hs]
  exact h ho

theorem not_reported_of_stranding (h : Stranding l l') : ¬Reported l' := by
  obtain ⟨hs, i, hi, rfl, hall⟩ := h
  intro hr
  have ho : ¬(l.moved i .queued).status.Shut := by
    rw [moved_status, hs]
    decide
  obtain ⟨j, hj⟩ := (hr ho).1 hs
  rw [moved_node] at hj
  split_ifs at hj with hji
  · cases hj
  · exact hji (hall j hj)

/-- A node goes back to the queue while another one is accepted, or none was. -/
theorem reported_retry (h : Reported l) (hno : ¬Stranding l (l.moved i .queued)) :
    Reported (l.moved i .queued) := by
  by_cases ha : l.node i = some .accepted
  · intro ho
    rw [moved_status] at ho ⊢
    refine iff_of_true ((h ho).2 ⟨i, ha⟩) ?_
    by_contra hnone
    apply hno
    refine ⟨(h ho).2 ⟨i, ha⟩, i, ha, rfl, fun j hj => ?_⟩
    by_contra hji
    apply hnone
    exact ⟨j, by rw [moved_node, if_neg hji, hj]⟩
  · exact reported_moved h ha (by decide)

/-- **One move keeps the status right exactly when it does not strand it.** -/
theorem reported_move (h : Reported l) (hm : Move l a l') : Reported l' ↔ ¬Stranding l l' := by
  refine ⟨fun hr hs => not_reported_of_stranding hs hr, fun hno => ?_⟩
  cases hm with
  | stay => exact h
  | @start i open_ hi =>
    intro _
    have hnode : (∃ j, (l.moved i .running).node j = some .accepted) ↔ l.status = .accepted :=
      (exists_accepted_moved (by simp [hi]) (by decide)).trans (h open_).symm
    refine Iff.trans ?_ hnode.symm
    show (if l.status = .queued then .running else l.status) = _ ↔ _
    split_ifs with hq
    · rw [hq]
      decide
    · exact Iff.rfl
  | @accept i => exact fun _ => iff_of_true rfl ⟨i, moved_node_self⟩
  | succeed | skip => exact reported_refresh
  | reject | fail => exact reported_of_shut (Or.inr (Or.inr (Or.inl rfl)))
  | retry => exact reported_retry h hno
  | cancel => exact reported_of_shut shut_close
  | @confirm i s hi hs =>
    split_ifs with hr
    · have hl : l.moved i .cancelled = ⟨.cancelRequested, (l.moved i .cancelled).node⟩ := by
        rw [← hr]
        rfl
      rw [hl]
      exact reported_of_shut shut_close
    · refine reported_moved h ?_ (by decide)
      rw [hi]
      rcases hs with rfl | rfl <;> decide

end

/-! ## The code -/

variable {v : WorkflowVersion} {run run' : WorkflowRun} {r : Request} {c : WorkflowCommand}
  {call : Call} {i : String} {n n' : WorkflowNodeRun}

/-- Only a retry takes a node from work back to the queue. -/
theorem retried_of_effect (he : Effect v call run c run') (hn : run.node? i = some n)
    (hact : n.status.Active) (hn' : run'.node? i = some n') (hq : n'.status = .queued) :
    ∃ code retryable, c = .failNode i code retryable ∧ n.Retries retryable := by
  rcases gives_of_effect he hn hn' with rfl | hg
  · rw [hq] at hact
    exact absurd hact (by decide)
  · rw [hq] at hg
    cases c with
    | failNode nodeId code retryable =>
      obtain ⟨hi, hs⟩ := hg
      rw [nodeId_of_node? hn] at hi
      by_cases hr : n.Retries retryable
      · exact ⟨code, retryable, by rw [hi], hr⟩
      · rw [if_neg hr] at hs
        cases hs
    | requestCancel =>
      have hs : WorkflowNodeStatus.queued = if n.status.Active then .cancelRequested else .cancelled :=
        hg
      split_ifs at hs
    | _ => cases hg.2

/-- The command reports a failure to be retried for the only accepted node of an accepted run. -/
def WorkflowRun.Strands (run : WorkflowRun) (c : WorkflowCommand) : Prop :=
  run.status = .accepted ∧ match c with
  | .failNode nodeId _ retryable =>
    (∃ n, run.node? nodeId = some n ∧ n.status = .accepted ∧ n.Retries retryable) ∧
      ∀ n ∈ run.nodes, n.status = .accepted → n.nodeId = nodeId
  | _ => False

theorem only_accepted_iff (hnd : (run.nodes.map WorkflowNodeRun.nodeId).Nodup) :
    (∀ n ∈ run.nodes, n.status = .accepted → n.nodeId = i) ↔
      ∀ j, run.lifecycle.node j = some .accepted → j = i := by
  rw [forall_mem_iff_lookup (P := fun n => n.status = .accepted → n.nodeId = i) hnd]
  constructor
  · intro h j hj
    obtain ⟨n, hn, hs⟩ := Option.map_eq_some_iff.1 hj
    exact (nodeId_of_node? hn) ▸ h j n hn hs
  · intro h j n hn hs
    rw [nodeId_of_node? hn]
    exact h j (hs ▸ lifecycle_node hn)

/-- The life cycle is stranded exactly by such commands. -/
theorem stranding_iff (hv : Instantiates v run.nodes) (he : Effect v call run c run') :
    Stranding run.lifecycle run'.lifecycle ↔ run.Strands c := by
  constructor
  · rintro ⟨hs, i, hi, hl, hall⟩
    obtain ⟨n, hn, ha⟩ := Option.map_eq_some_iff.1 hi
    have hi' : run'.lifecycle.node i = some .queued := by rw [hl, moved_node_self]
    obtain ⟨n', hn', hq⟩ := Option.map_eq_some_iff.1 hi'
    obtain ⟨code, retryable, rfl, hr⟩ := retried_of_effect he hn (Or.inr ha) hn' hq
    exact ⟨hs, ⟨n, hn, ha, hr⟩, (only_accepted_iff hv.nodup).2 hall⟩
  · rintro ⟨hs, h⟩
    cases he with
    | @retry nodeId code retryable n hn hact hr =>
      obtain ⟨⟨m, hm, ha, -⟩, hall⟩ := h
      obtain rfl := Option.some.inj (hn.symm.trans hm)
      refine ⟨hs, nodeId, ha ▸ lifecycle_node hn, ?_, (only_accepted_iff hv.nodup).1 hall⟩
      have hst : (n.failedWith (strip code) retryable call.now).status = .queued := if_pos hr
      rw [lifecycle_touched, lifecycle_recordNode, lifecycle_put hn, hst]
      exact (nodeId_of_node? hn :)
    | fail hn _ hr =>
      obtain ⟨⟨m, hm, -, hr'⟩, -⟩ := h
      obtain rfl := Option.some.inj (hn.symm.trans hm)
      exact absurd hr' hr
    | _ => exact h.elim

/-- The status agrees with the accepted nodes. -/
def WorkflowRun.Reported (run : WorkflowRun) : Prop :=
  ¬run.status.Shut → (run.status = .accepted ↔ ∃ n ∈ run.nodes, n.status = .accepted)

theorem reported_lifecycle (hnd : (run.nodes.map WorkflowNodeRun.nodeId).Nodup) :
    run.Reported ↔ Workflow.Reported run.lifecycle := by
  unfold WorkflowRun.Reported Workflow.Reported
  rw [lifecycle_exists hnd]
  exact Iff.rfl

/-- A command keeps the status right exactly when it does not strand it. -/
theorem reported_of_step (hv : Instantiates v run.nodes) (h : run.Reported)
    (hs : Step v run r run') : run'.Reported ↔ ¬run.Strands r.command := by
  have he := effect_of_execute hv hs
  rw [reported_lifecycle (instantiates_of_effect hv he).nodup, ← stranding_iff hv he]
  exact reported_move ((reported_lifecycle hv.nodup).1 h) (move_of_effect hv he)

/-- **The status is *accepted* exactly while a node is**, in every run that does not strand it and
where nodes may still progress; and such a command is exactly what makes them disagree. -/
theorem accepted_iff_pending
    (h : Reachable (Created v) (Guarded (Step v) fun run r => ¬run.Strands r.command) run) :
    (¬run.status.Shut → (run.status = .accepted ↔ ∃ n ∈ run.nodes, n.status = .accepted)) ∧
    ∀ r run', Step v run r run' → ((¬run'.status.Shut →
      (run'.status = .accepted ↔ ∃ n ∈ run'.nodes, n.status = .accepted)) ↔
        ¬run.Strands r.command) := by
  have hinv : Instantiates v run.nodes ∧ run.Reported := by
    refine h.invariant (P := fun run => Instantiates v run.nodes ∧ run.Reported) ?_ ?_
    · intro run hc
      obtain ⟨hv, hs, hnodes, -⟩ := created_spec hc
      refine ⟨hv, fun _ => iff_of_false (by simp [hs]) ?_⟩
      rintro ⟨n, hn, ha⟩
      obtain ⟨_, _, _, rfl⟩ := hnodes n hn
      cases ha
    · rintro run r run' ⟨hv, hr⟩ ⟨hs, hno⟩
      exact ⟨instantiates_of_effect hv (effect_of_execute hv hs), (reported_of_step hv hr hs).2 hno⟩
  exact ⟨hinv.2, fun r run' hs => reported_of_step hinv.1 hinv.2 hs⟩

/-- One node with two attempts. -/
def retrying : WorkflowVersion where
  workflowCode := flow
  version := version1
  nodes := [{ plainNode nodeA with maxAttempts := 2, maxAttempts_pos := Nat.two_pos }]
  edges := []
  enabled := true
  accepted := rfl

/-- Its node is accepted by an executor. -/
def handedOver : List Request :=
  [⟨.startNode "a", callAt 1 "s1"⟩, ⟨.acceptNode "a" "ref", callAt 2 "s2"⟩]

def pendingRun : WorkflowRun := (playNew retrying handedOver).get (by decide +kernel)

theorem accepted_iff_pending_accepted : ¬pendingRun.status.Shut ∧
    (pendingRun.status = .accepted ↔ ∃ n ∈ pendingRun.nodes, n.status = .accepted) := by
  have hplay : playNew retrying handedOver = some pendingRun := (Option.some_get _).symm
  obtain ⟨run₀, hc, hsteps⟩ := run_of_playNew hplay
  have hgood : ∀ r ∈ handedOver, ∀ run, ¬WorkflowRun.Strands run r.command := by
    intro r hr run
    simp only [handedOver, List.mem_cons, List.not_mem_nil, or_false] at hr
    rcases hr with rfl | rfl <;> exact fun h => h.2
  have hguarded : Steps (Guarded (Step retrying) fun run r => ¬run.Strands r.command) run₀
      handedOver pendingRun :=
    (hsteps.guarded hgood).mono fun h => ⟨h.1, h.2 _⟩
  have hopen : ¬pendingRun.status.Shut := by decide +kernel
  exact ⟨hopen, (accepted_iff_pending ⟨run₀, handedOver, hc, hguarded⟩).1 hopen⟩

/-- The executor accepts the node, and its failure is to be retried. -/
def strandedRun : WorkflowRun :=
  (playNew retrying [⟨.startNode "a", callAt 1 "s1"⟩, ⟨.acceptNode "a" "ref", callAt 2 "s2"⟩,
    ⟨.failNode "a" "BUSY" true, callAt 3 "s3"⟩]).get (by decide +kernel)

theorem accepted_when_idle : ¬∀ (v : WorkflowVersion) (run : WorkflowRun), History v run →
    ¬run.status.Shut → (run.status = .accepted ↔ ∃ n ∈ run.nodes, n.status = .accepted) := fun h =>
  absurd (h retrying strandedRun (history_of_playNew (Option.some_get _).symm)) (by decide +kernel)

end GoAgent.Workflow
