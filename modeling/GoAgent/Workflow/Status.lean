import GoAgent.Workflow.Lifecycle
import GoAgent.Workflow.NodeMove

/-!
# The status of a run

A run of the code develops like an abstract life cycle: `WorkflowRun.lifecycle` forgets
everything but the statuses, and every accepted command is a `Move` of it (`move_of_effect`).
So the run status of every run in a history agrees with its nodes (`coherent_of_history`).

* `final_status_kept` — a final status is never left, in a history whose commands do not
  revive a failed run.
* `status_of_nodes` — which node statuses the statuses *succeeded* and *cancelled* stand for.
* `cancellation_spec` — a cancellation leaves no node at work, and confirming its nodes ends it
  exactly when none has failed.
-/

namespace GoAgent.Workflow

open GoAgent.Foundation WorkflowRun

/-- The statuses of a run and of its nodes. -/
def WorkflowRun.lifecycle (run : WorkflowRun) : Lifecycle String where
  status := run.status
  node i := (run.node? i).map WorkflowNodeRun.status

def WorkflowCommand.action : WorkflowCommand → LifecycleAction String
  | .succeedNode nodeId _ _ _ | .skipNode nodeId _ => .settle nodeId
  | _ => .other

variable {v : WorkflowVersion} {run run' : WorkflowRun} {r : Request} {c : WorkflowCommand}
  {call : Call} {i nodeId : String} {n n' : WorkflowNodeRun}

/-! ## The code simulates the life cycle -/

theorem lifecycle_node (hn : run.node? i = some n) : run.lifecycle.node i = some n.status := by
  simp [lifecycle, hn]

theorem lifecycle_all (hnd : (run.nodes.map WorkflowNodeRun.nodeId).Nodup)
    {p : WorkflowNodeStatus → Prop} : run.lifecycle.All p ↔ ∀ n ∈ run.nodes, p n.status := by
  rw [forall_mem_iff_lookup (P := fun n => p n.status) hnd]
  constructor
  · exact fun h i n hn => h i _ (lifecycle_node hn)
  · intro h i s hs
    obtain ⟨n, hn, rfl⟩ := Option.map_eq_some_iff.1 hs
    exact h i n hn

theorem lifecycle_exists (hnd : (run.nodes.map WorkflowNodeRun.nodeId).Nodup)
    {s : WorkflowNodeStatus} : (∃ i, run.lifecycle.node i = some s) ↔ ∃ n ∈ run.nodes, n.status = s := by
  rw [exists_mem_iff_lookup (P := fun n => n.status = s) hnd]
  simp only [lifecycle, Option.map_eq_some_iff]
  rfl

theorem lifecycle_put (hn : run.node? i = some n) (hn' : n'.nodeId = i) :
    (run.put i n').lifecycle = run.lifecycle.moved i n'.status := by
  refine Lifecycle.ext rfl (funext fun j => ?_)
  rw [Lifecycle.moved_node]
  simp only [lifecycle, node?_put hn' hn]
  split_ifs <;> rfl

theorem nodup_put (hnd : (run.nodes.map WorkflowNodeRun.nodeId).Nodup) (hn' : n'.nodeId = i) :
    ((run.put i n').nodes.map WorkflowNodeRun.nodeId).Nodup := by
  rwa [put, keys_replace hn']

section

variable {t suffix : String} {ty : WorkflowEventType} {m : EventMetadata} {s : WorkflowRunStatus}

@[simp] theorem lifecycle_touched : (run.touched call).lifecycle = run.lifecycle := rfl

@[simp] theorem lifecycle_record : (run.record call t ty m).lifecycle = run.lifecycle := rfl

@[simp] theorem lifecycle_recordNode :
    (run.recordNode call suffix n ty m).lifecycle = run.lifecycle := rfl

@[simp] theorem lifecycle_withStatus :
    (run.withStatus s).lifecycle = run.lifecycle.withStatus s := rfl

@[simp] theorem lifecycle_failedWith {code : String} :
    (run.failedWith nodeId code call).lifecycle = run.lifecycle.withStatus .failed := rfl

end

theorem lifecycle_begun : (run.begun call).lifecycle =
    run.lifecycle.withStatus (if run.status = .queued then .running else run.status) := by
  unfold begun
  split_ifs <;> rfl

theorem lifecycle_refreshed (hnd : (run.nodes.map WorkflowNodeRun.nodeId).Nodup) :
    (run.refreshed call).lifecycle = run.lifecycle.refresh := by
  have hstatus : run.lifecycle.status = run.status := rfl
  unfold refreshed
  split_ifs with hall hacc hst
  · exact (Lifecycle.refresh_of_complete ((lifecycle_all hnd).2 hall)).symm
  · rw [Lifecycle.refresh_of_accepted (by rwa [lifecycle_all hnd]) ((lifecycle_exists hnd).2 hacc)]
    rfl
  · rw [Lifecycle.refresh_of_idle (by rwa [lifecycle_all hnd]) (by rwa [lifecycle_exists hnd]),
      hstatus, if_pos hst]
    rfl
  · rw [Lifecycle.refresh_of_idle (by rwa [lifecycle_all hnd]) (by rwa [lifecycle_exists hnd]),
      hstatus, if_neg hst]

theorem lifecycle_closed {t : String} (hnd : (run.nodes.map WorkflowNodeRun.nodeId).Nodup) :
    (run.closed call t).lifecycle = run.lifecycle.close := by
  by_cases hall : ∀ n ∈ run.nodes, n.status.Closed
  · rw [closed_of_all hall, Lifecycle.close, if_pos ((lifecycle_all hnd).2 hall)]
    rfl
  · rw [closed_of_not hall, Lifecycle.close, if_neg (by rwa [lifecycle_all hnd])]

theorem lifecycle_cancelSettled (hnd : (run.nodes.map WorkflowNodeRun.nodeId).Nodup) :
    (run.cancelSettled call).lifecycle =
      if run.status = .cancelRequested then run.lifecycle.close else run.lifecycle := by
  unfold cancelSettled
  split_ifs
  · exact lifecycle_closed hnd
  · rfl

theorem cancelledBy_status : (n.cancelledBy call).status = Lifecycle.cancelNode n.status := by
  have hcases : ∀ s : WorkflowNodeStatus, (if s.Cancellable then
      if s.Active then .cancelRequested else .cancelled else s) = Lifecycle.cancelNode s := by
    intro s
    cases s <;> decide
  rw [← hcases n.status, WorkflowNodeRun.cancelledBy]
  split_ifs with hc ha
  · exact if_pos ha
  · exact if_neg ha
  · rfl

theorem lifecycle_cancelEach :
    (cancelEach call (run.nodes.map WorkflowNodeRun.nodeId) (run.cancelStarted call)).lifecycle =
      ⟨.cancelRequested, fun i => (run.lifecycle.node i).map Lifecycle.cancelNode⟩ := by
  refine Lifecycle.ext cancelEach_status (funext fun i => ?_)
  simp only [lifecycle, cancelEach_node?, cancelStarted_node?, Option.map_map]
  split_ifs with hi
  · rw [Option.map_map]
    congr 1
    exact funext fun n => cancelledBy_status
  · have hnone : run.node? i = none := lookup_eq_none_iff.2 hi
    rw [hnone]
    rfl

/-- What a confirmation makes of the life cycle. -/
theorem lifecycle_confirm {m : EventMetadata} (hnd : (run.nodes.map WorkflowNodeRun.nodeId).Nodup)
    (hn : run.node? i = some n) (hn' : n.status = .cancelRequested ∧ n' = n.cancelledAt call.now ∨
      n.status = .cancelled ∧ n' = n) :
    ((((run.put i n').recordNode call ":confirm" n' .nodeCancelled m).cancelSettled call).touched
      call).lifecycle = if run.lifecycle.status = .cancelRequested then
        (run.lifecycle.moved i .cancelled).close else run.lifecycle.moved i .cancelled := by
  obtain ⟨hid, hst⟩ : n'.nodeId = n.nodeId ∧ n'.status = .cancelled := by
    obtain ⟨-, rfl⟩ | ⟨hc, rfl⟩ := hn'
    · exact ⟨rfl, rfl⟩
    · exact ⟨rfl, hc⟩
  have hid' := hid.trans (nodeId_of_node? hn)
  rw [lifecycle_touched, lifecycle_cancelSettled, lifecycle_recordNode, lifecycle_put hn hid', hst]
  · rfl
  · exact nodup_put hnd hid'

/-- **Simulation.** Every effect is a move of the life cycle. -/
theorem move_of_effect (hv : Instantiates v run.nodes) (he : Effect v call run c run') :
    Move run.lifecycle c.action run'.lifecycle := by
  have hnd := hv.nodup
  cases he with
  | acceptLogged | succeedLogged | cancelAgain => exact .stay
  | start open_ _ _ hn hq =>
    rw [lifecycle_touched, lifecycle_recordNode, lifecycle_begun, lifecycle_put hn]
    · exact .start open_ (hq ▸ lifecycle_node hn)
    · exact (nodeId_of_node? hn :)
  | @accept _ _ n n' open_ hn hn' =>
    obtain ⟨hact, hid, hst⟩ : n.status.Active ∧ n'.nodeId = n.nodeId ∧ n'.status = .accepted := by
      obtain ⟨hr, -, rfl⟩ | ⟨ha, rfl, -⟩ := hn'
      · exact ⟨Or.inl hr, rfl, rfl⟩
      · exact ⟨Or.inr ha, rfl, ha⟩
    rw [lifecycle_touched, lifecycle_record, lifecycle_recordNode, lifecycle_withStatus,
      lifecycle_put hn (hid.trans (nodeId_of_node? hn)), hst]
    exact .accept open_ (lifecycle_node hn) hact
  | succeed hn hact =>
    rw [lifecycle_refreshed, lifecycle_recordNode, lifecycle_put hn]
    · exact .succeed (lifecycle_node hn) (Or.inl hact)
    · exact (nodeId_of_node? hn :)
    · exact nodup_put hnd (nodeId_of_node? hn :)
  | succeedUnlogged hn hs =>
    have hi := lifecycle_node hn
    have hm : Move run.lifecycle (.settle _) (run.lifecycle.moved _ .succeeded).refresh :=
      .succeed hi (Or.inr hs)
    rw [hs] at hi
    rw [Lifecycle.moved_self hi] at hm
    rw [lifecycle_refreshed, lifecycle_recordNode]
    · exact hm
    · exact hnd
  | reject open_ hn hq =>
    rw [lifecycle_touched, lifecycle_failedWith, lifecycle_recordNode, lifecycle_put hn]
    · exact .reject open_ (hq ▸ lifecycle_node hn)
    · exact (nodeId_of_node? hn :)
  | @retry _ code retryable n hn hact hr =>
    have hst : (n.failedWith (strip code) retryable call.now).status = .queued := if_pos hr
    rw [lifecycle_touched, lifecycle_recordNode, lifecycle_put hn, hst]
    · exact .retry (lifecycle_node hn) hact
    · exact (nodeId_of_node? hn :)
  | @fail _ code retryable n hn hact hr =>
    have hst : (n.failedWith (strip code) retryable call.now).status = .failed := if_neg hr
    rw [lifecycle_touched, lifecycle_failedWith, lifecycle_recordNode, lifecycle_put hn, hst]
    · exact .fail (lifecycle_node hn) hact
    · exact (nodeId_of_node? hn :)
  | @skip _ _ n n' _ hn hn' =>
    obtain ⟨hs, hid, hst⟩ : (n.status = .queued ∨ n.status = .skipped) ∧ n'.nodeId = n.nodeId ∧
        n'.status = .skipped := by
      obtain ⟨hq, rfl⟩ | ⟨hs, rfl⟩ := hn'
      · exact ⟨Or.inl hq, rfl, rfl⟩
      · exact ⟨Or.inr hs, rfl, hs⟩
    have hid' := hid.trans (nodeId_of_node? hn)
    rw [lifecycle_refreshed, lifecycle_recordNode, lifecycle_put hn hid', hst]
    · exact .skip (lifecycle_node hn) hs
    · exact nodup_put hnd hid'
  | cancel hs =>
    rw [lifecycle_touched, lifecycle_closed, lifecycle_cancelEach]
    · exact .cancel hs
    · have hkept : Instantiates v (cancelEach call (run.nodes.map WorkflowNodeRun.nodeId)
          (run.cancelStarted call)).nodes := instantiates_cancelEach (by exact hv)
      exact hkept.nodup
  | confirm hn hn' =>
    rw [lifecycle_confirm hnd hn hn']
    exact .confirm (lifecycle_node hn) (hn'.imp And.left And.left)

theorem coherent_of_created (h : Created v run) : Coherent run.lifecycle := by
  obtain ⟨hv, hs, hnodes, -⟩ := created_spec h
  have hall : ∀ {p : WorkflowNodeStatus → Prop}, p .queued → run.lifecycle.All p := fun hp => by
    rw [lifecycle_all hv.nodup]
    intro n hn
    obtain ⟨_, _, _, rfl⟩ := hnodes n hn
    exact hp
  -- A version has a node, so a created run is not complete.
  obtain ⟨n, hn⟩ : ∃ n, n ∈ run.nodes := by
    refine List.exists_mem_of_ne_nil _ fun hnil => v.nodes_ne_nil ?_
    have := hv
    rw [Instantiates, hnil, List.map_nil, List.nil_perm] at this
    exact List.map_eq_nil_iff.1 this
  have hq : n.status = .queued := by
    obtain ⟨_, _, _, rfl⟩ := hnodes n hn
    rfl
  have hst : ∀ {s}, run.lifecycle.status = s → s = .queued := fun h => h.symm.trans hs
  have hcanc : ¬run.lifecycle.status.Cancelling := fun h =>
    h.elim (fun h => absurd (hst h) (by decide)) fun h => absurd (hst h) (by decide)
  refine Sound.coherent ⟨fun h => absurd (hst h) (by decide), fun h => absurd (hst h) (by decide),
    fun h => absurd (Or.inr h) hcanc, fun h => absurd (Or.inl h) hcanc, fun h => absurd h hcanc,
    fun _ => hall (by decide)⟩ fun hc => ?_
  have := (lifecycle_all hv.nodup).1 hc n hn
  rw [hq] at this
  exact absurd this (by decide)

/-- **The run status of every run agrees with its nodes.** -/
theorem coherent_of_history (h : History v run) : Coherent run.lifecycle := by
  have hall : Instantiates v run.nodes ∧ Coherent run.lifecycle := by
    refine h.invariant (P := fun run => Instantiates v run.nodes ∧ Coherent run.lifecycle)
      (fun hc => ⟨(created_spec hc).1, coherent_of_created hc⟩) fun hi hs => ?_
    have he := effect_of_execute hi.1 hs
    exact ⟨instantiates_of_effect hi.1 he, hi.2.move (move_of_effect hi.1 he)⟩
  exact hall.2

/-! ## Final statuses -/

/-- The command takes a failed run back to work: it reports the success of a node, or skips it,
while another node is accepted, and is not the repetition of a logged success. -/
def WorkflowRun.Revives (run : WorkflowRun) (c : WorkflowCommand) : Prop :=
  run.status = .failed ∧ match c with
  | .succeedNode nodeId _ _ _ =>
    (∃ n ∈ run.nodes, n.nodeId ≠ nodeId ∧ n.status = .accepted) ∧
      ¬((∃ n, run.node? nodeId = some n ∧ n.status = .succeeded) ∧
        (run.findLatestNodeEvent nodeId .nodeSucceeded).isSome)
  | .skipNode nodeId _ => ∃ n ∈ run.nodes, n.nodeId ≠ nodeId ∧ n.status = .accepted
  | _ => False

theorem exists_accepted_iff (hnd : (run.nodes.map WorkflowNodeRun.nodeId).Nodup) :
    (∃ n ∈ run.nodes, n.nodeId ≠ nodeId ∧ n.status = .accepted) ↔
      ∃ j, j ≠ nodeId ∧ run.lifecycle.node j = some .accepted := by
  rw [exists_mem_iff_lookup (P := fun n => n.nodeId ≠ nodeId ∧ n.status = .accepted) hnd]
  constructor
  · rintro ⟨j, n, hn, hne, hs⟩
    exact ⟨j, nodeId_of_node? hn ▸ hne, hs ▸ lifecycle_node hn⟩
  · rintro ⟨j, hne, hj⟩
    obtain ⟨n, hn, hs⟩ := Option.map_eq_some_iff.1 hj
    exact ⟨j, n, hn, (nodeId_of_node? hn).symm ▸ hne, hs⟩

/-- A command that revives the life cycle revives the run, unless it changes nothing. -/
theorem revives_of_effect (hv : Instantiates v run.nodes) (he : Effect v call run c run')
    (hr : Revival run.lifecycle c.action) : run' = run ∨ run.Revives c := by
  cases he with
  | acceptLogged | succeedLogged | cancelAgain => exact Or.inl rfl
  | succeed hn hact =>
    refine Or.inr ⟨hr.1, (exists_accepted_iff hv.nodup).2 hr.2, ?_⟩
    rintro ⟨⟨n, hn', hs⟩, -⟩
    obtain rfl := Option.some.inj (hn'.symm.trans hn)
    rw [hs] at hact
    exact absurd hact (by decide)
  | succeedUnlogged hn hs hlog =>
    refine Or.inr ⟨hr.1, (exists_accepted_iff hv.nodup).2 hr.2, ?_⟩
    rintro ⟨-, hsome⟩
    rw [hlog] at hsome
    cases hsome
  | skip => exact Or.inr ⟨hr.1, (exists_accepted_iff hv.nodup).2 hr.2⟩
  | start | accept | reject | retry | fail | cancel | confirm => exact hr.elim

theorem refreshed_status_of_accepted (h : ∃ n ∈ run.nodes, n.status = .accepted) :
    (run.refreshed call).status = .accepted := by
  have hc : ¬∀ n ∈ run.nodes, n.status.Complete := fun hall => by
    obtain ⟨n, hn, hs⟩ := h
    have := hall n hn
    rw [hs] at this
    exact absurd this (by decide)
  unfold refreshed
  rw [if_neg hc, if_pos h]
  rfl

/-- A node other than the one put in its place stays. -/
theorem mem_put_of_ne (hn : n ∈ run.nodes) (hne : n.nodeId ≠ i) : n ∈ (run.put i n').nodes :=
  List.mem_map.2 ⟨n, hn, if_neg hne⟩

/-- A run revived by an accepted command is accepted again. -/
theorem status_of_revives (he : Effect v call run c run') (hr : run.Revives c) :
    run'.status = .accepted := by
  obtain ⟨hf, hr⟩ := hr
  cases he with
  | succeed => 
    obtain ⟨⟨n, hn, hne, hs⟩, -⟩ := hr
    exact refreshed_status_of_accepted ⟨n, mem_put_of_ne hn hne, hs⟩
  | succeedUnlogged =>
    obtain ⟨⟨n, hn, -, hs⟩, -⟩ := hr
    exact refreshed_status_of_accepted ⟨n, hn, hs⟩
  | succeedLogged hn hs hlog => exact absurd ⟨⟨_, hn, hs⟩, by rw [hlog]; rfl⟩ hr.2
  | skip =>
    obtain ⟨n, hn, hne, hs⟩ := hr
    exact refreshed_status_of_accepted ⟨n, mem_put_of_ne hn hne, hs⟩
  | acceptLogged | cancelAgain | start | accept | reject | retry | fail | cancel | confirm =>
    exact hr.elim

/-- One step leaves a final status exactly when it does not revive the run. -/
theorem step_keeps_final_status (h : History v run) (ht : run.status.Terminal)
    (hs : Step v run r run') : run'.status = run.status ↔ ¬run.Revives r.command := by
  have hv := instantiates_of_history h
  have he := effect_of_execute hv hs
  constructor
  · intro heq hr
    have := status_of_revives he hr
    rw [heq, hr.1] at this
    cases this
  · intro hr
    by_cases hrev : Revival run.lifecycle r.command.action
    · rw [(revives_of_effect hv he hrev).resolve_right hr]
    · exact (coherent_of_history h).terminal (move_of_effect hv he) ht hrev

/-- **A final status is kept**: in a history none of whose commands revives the run, no command
changes the status once it is *succeeded*, *failed* or *cancelled*. -/
theorem final_status_kept {rs : List Request} (h : History v run) (ht : run.status.Terminal)
    (hsteps : Steps (Guarded (Step v) fun run r => ¬run.Revives r.command) run rs run') :
    run'.status = run.status := by
  induction hsteps with
  | nil => rfl
  | cons hs _ ih =>
    have hkept := (step_keeps_final_status h ht hs.1).2 hs.2
    rw [ih (h.next hs.1) (by rwa [hkept]), hkept]

/-- Node `a` fails while `b` is accepted and `c` runs. -/
def failsEarly : List Request :=
  [⟨.startNode "a", callAt 1 "s1"⟩, ⟨.startNode "b", callAt 2 "s2"⟩, ⟨.startNode "c", callAt 3 "s3"⟩,
    ⟨.acceptNode "b" "ref", callAt 4 "s4"⟩, ⟨.failNode "a" "BAD" false, callAt 5 "s5"⟩]

def failedRun : WorkflowRun := (playNew parallel failsEarly).get (by decide)

theorem failedRun_history : History parallel failedRun :=
  history_of_playNew (Option.some_get _).symm

/-- The success of `c` takes the failed run back to *accepted*. -/
def revivedRun : WorkflowRun :=
  (play parallel [⟨.succeedNode "c" "done" none [], callAt 6 "s6"⟩] failedRun).get (by decide)

theorem final_status_lost : ¬∀ (v : WorkflowVersion) (run run' : WorkflowRun) (r : Request),
    History v run → run.status.Terminal → Step v run r run' → run'.status = run.status := fun h =>
  absurd (h parallel failedRun revivedRun _ failedRun_history (by decide)
    (step_of_play (Option.some_get _).symm)) (by decide)

theorem final_status_kept_failed :
    ((play parallel [⟨.failNode "c" "BAD" false, callAt 6 "s6"⟩] failedRun).get (by decide)).status =
      .failed :=
  (final_status_kept failedRun_history (by decide) (.cons ⟨step_of_play (Option.some_get _).symm,
    fun h => h.2⟩ (.nil _))).trans (by decide)

/-! ## What the nodes of a finished run are -/

/-- **A run has succeeded exactly when every node has succeeded or was skipped**, and the nodes of
a cancelled run are closed, one of them at least by cancellation. -/
theorem status_of_nodes (h : History v run) :
    (run.status = .succeeded ↔ ∀ n ∈ run.nodes, n.status = .succeeded ∨ n.status = .skipped) ∧
    (run.status = .cancelled →
      (∀ n ∈ run.nodes, n.status = .succeeded ∨ n.status = .skipped ∨ n.status = .cancelled) ∧
      ∃ n ∈ run.nodes, n.status = .cancelled) := by
  have hc := coherent_of_history h
  have hnd := (instantiates_of_history h).nodup
  refine ⟨⟨fun hs => (lifecycle_all hnd).1 (hc.succeeded hs), fun hall =>
    hc.complete ((lifecycle_all hnd).2 hall)⟩, fun hs => ⟨fun n hn => ?_, ?_⟩⟩
  · have hclosed := (lifecycle_all hnd).1 (hc.cancelled hs) n hn
    exact hclosed.complete_or.elim (fun h => h.imp_right Or.inl) fun h => Or.inr (Or.inr h)
  · exact (lifecycle_exists hnd).1 (hc.exists_cancelled hs)

/-- A run that is cancelled before it starts. -/
def cancelledRun : WorkflowRun :=
  (playNew parallel [⟨.skipNode "a" "not needed", callAt 1 "s1"⟩, ⟨.requestCancel, callAt 2 "s2"⟩]).get
    (by decide +kernel)

theorem cancelledRun_history : History parallel cancelledRun :=
  history_of_playNew (Option.some_get _).symm

theorem status_of_nodes_cancelled :
    cancelledRun.status ≠ .succeeded ∧ ∃ n ∈ cancelledRun.nodes, n.status = .cancelled :=
  ⟨fun h => absurd ((status_of_nodes cancelledRun_history).1.1 h) (by decide +kernel),
    ((status_of_nodes cancelledRun_history).2 (by decide +kernel)).2⟩

/-! ## Cancellation -/

/-- Confirming the named nodes one after another is accepted and cancels the run at the last of
them and not before. -/
def Completes (v : WorkflowVersion) : WorkflowRun → List (String × Call) → Prop
  | run, [] => run.status = .cancelled
  | run, (nodeId, call) :: rest => run.status = .cancelRequested ∧
      ∃ run', Step v run ⟨.confirmNodeCancel nodeId, call⟩ run' ∧ Completes v run' rest

/-- In whatever order the nodes that wait for their cancellation are confirmed, the run is
cancelled with the last. -/
def ConfirmsToEnd (v : WorkflowVersion) (run : WorkflowRun) : Prop :=
  ∀ order : List (String × Call), (order.map Prod.fst).Nodup →
    (∀ i, i ∈ order.map Prod.fst ↔ ∃ n ∈ run.nodes, n.nodeId = i ∧ n.status = .cancelRequested) →
    (∀ p ∈ order, p.2.Valid) → Completes v run order

/-- A node that waits for its cancellation can be confirmed. -/
theorem confirm_accepted (h : History v run) (hn : run.node? i = some n)
    (hc : n.status = .cancelRequested) (hcall : call.Valid) :
    ∃ run', Step v run ⟨.confirmNodeCancel i, call⟩ run' := by
  have hcount := attempted_of_history h (mem_of_node? hn) (hc ▸ Or.inr (Or.inl rfl))
  obtain ⟨e, hevent⟩ := nodeEvent_accepted (instantiates_of_history h) hn (n.cancelledAt call.now) rfl
    ":confirm" .nodeCancelled
    { attemptNumber := some n.attemptCount, cancelMode := some "confirmed" } (fun hid => by
      simp only [checkMetadata, EventMetadata.keys, eventMetadataFields]
      simpa using ⟨hid, hcount⟩)
    (by decide) hcall.1
  obtain ⟨run', h⟩ := confirmNodeCancel_requested hn hc hevent hcall.2
  exact ⟨run', map_ok.2 ⟨_, h, rfl⟩⟩

/-- The life cycle after a confirmation. -/
theorem lifecycle_of_confirmed (h : History v run) (hr : run.status = .cancelRequested)
    (hs : Step v run ⟨.confirmNodeCancel i, call⟩ run') :
    run'.lifecycle = (run.lifecycle.moved i .cancelled).close := by
  have hnd := (instantiates_of_history h).nodup
  cases h.effect hs with
  | confirm hn hn' =>
    rw [lifecycle_confirm hnd hn hn']
    exact if_pos hr

theorem completes_of_waiting {order : List (String × Call)} (h : History v run)
    (hr : run.status = .cancelRequested) (hf : ¬∃ i, run.lifecycle.node i = some .failed)
    (hnd : (order.map Prod.fst).Nodup)
    (hall : ∀ i, i ∈ order.map Prod.fst ↔ run.lifecycle.node i = some .cancelRequested)
    (hcalls : ∀ p ∈ order, p.2.Valid) : Completes v run order := by
  induction order generalizing run with
  | nil =>
    obtain ⟨i, hi⟩ := (coherent_of_history h).waiting hr hf
    exact absurd ((hall i).2 hi) (by simp)
  | cons p order ih =>
    obtain ⟨i, call⟩ := p
    simp only [List.map_cons, List.nodup_cons] at hnd
    simp only [List.map_cons, List.mem_cons] at hall
    obtain ⟨n, hn, hc⟩ := Option.map_eq_some_iff.1 ((hall i).1 (Or.inl rfl))
    obtain ⟨run', hs⟩ := confirm_accepted h hn hc (hcalls _ List.mem_cons_self)
    have hl := lifecycle_of_confirmed h hr hs
    have hnode : ∀ j, run'.lifecycle.node j =
        if j = i then some .cancelled else run.lifecycle.node j := fun j => by
      rw [hl, Lifecycle.close_node, Lifecycle.moved_node]
    have hstatus := (coherent_of_history h).confirm_status (i := i) hr hf
    rw [← hl] at hstatus
    refine ⟨hr, run', hs, ?_⟩
    cases order with
    | nil =>
      refine hstatus.trans (if_neg ?_)
      rintro ⟨j, hji, hj⟩
      simpa [hji] using (hall j).2 hj
    | cons q order =>
      have hq : q.1 ≠ i := fun hq => hnd.1 (by simp [hq])
      have hr' : run'.status = .cancelRequested :=
        hstatus.trans (if_pos ⟨q.1, hq, (hall q.1).1 (by simp)⟩)
      refine ih (h.next hs) hr' ?_ hnd.2 (fun j => ?_) fun p hp =>
        hcalls p (List.mem_cons_of_mem _ hp)
      · rintro ⟨j, hj⟩
        rw [hnode] at hj
        split_ifs at hj with hji
        · cases hj
        · exact hf ⟨j, hj⟩
      · rw [hnode]
        split_ifs with hji
        · subst hji
          exact iff_of_false hnd.1 (by decide)
        · rw [← hall j]
          simp [hji]

/-- A run with a failed node is not cancelled by confirmations. -/
theorem not_completes_of_failed {order : List (String × Call)} (h : History v run)
    (hf : ∃ i, run.lifecycle.node i = some .failed) : ¬Completes v run order := by
  obtain ⟨i, hi⟩ := hf
  induction order generalizing run with
  | nil => exact fun hs => absurd ((coherent_of_history h).cancelled hs i _ hi) (by decide)
  | cons p order ih =>
    rintro ⟨-, run', hs, hrest⟩
    refine ih (h.next hs) ?_ hrest
    obtain ⟨n, hn, hfailed⟩ := Option.map_eq_some_iff.1 hi
    obtain ⟨n', hn', hmove⟩ := nodeMove_of_effect (h.effect hs) hn
    obtain rfl := hmove.eq_of_done (Or.inl hfailed)
    exact hfailed ▸ lifecycle_node hn'

/-- With a failed node the waiting nodes do not bring the run to its end: not in the order the
run has them. -/
theorem not_confirmsToEnd_of_failed (h : History v run)
    (hf : ∃ i, run.lifecycle.node i = some .failed) : ¬ConfirmsToEnd v run := fun hend => by
  have hnd := (instantiates_of_history h).nodup
  let call : Call := ⟨⟨0, true⟩, "c", fun _ => 0⟩
  let waiting := (run.nodes.filter fun n => n.status = .cancelRequested).map
    fun n => (n.nodeId, call)
  have hids : waiting.map Prod.fst =
      (run.nodes.filter fun n => n.status = .cancelRequested).map WorkflowNodeRun.nodeId := by
    simp [waiting, List.map_map, Function.comp_def]
  refine not_completes_of_failed h hf (hend waiting ?_ (fun i => ?_) fun p hp => ?_)
  · rw [hids]
    exact hnd.sublist (List.filter_sublist.map _)
  · rw [hids]
    simp [and_comm, and_assoc]
  · obtain ⟨_, -, rfl⟩ := List.mem_map.1 hp
    exact ⟨rfl, show isBlank "c" = false by decide⟩

/-- **Cancellation.** While a cancellation is requested or complete no node is queued, running or
accepted; and confirming the nodes that wait for it, in any order, cancels the run at the last
one exactly when no node has failed. -/
theorem cancellation_spec (h : History v run) :
    (run.status = .cancelRequested ∨ run.status = .cancelled → ∀ n ∈ run.nodes,
      n.status ≠ .queued ∧ n.status ≠ .running ∧ n.status ≠ .accepted) ∧
    (run.status = .cancelRequested →
      (ConfirmsToEnd v run ↔ ∀ n ∈ run.nodes, n.status ≠ .failed)) := by
  have hc := coherent_of_history h
  have hnd := (instantiates_of_history h).nodup
  refine ⟨fun hs n hn => ?_, fun hr => ⟨fun hend n hn hfailed => ?_, fun hf => ?_⟩⟩
  · have hrest := (lifecycle_all hnd).1 (hc.cancelling hs) n hn
    revert hrest
    cases n.status <;> decide
  · exact not_confirmsToEnd_of_failed h ((lifecycle_exists hnd).2 ⟨n, hn, hfailed⟩) hend
  · intro order hnodup hall hcalls
    have hwait : ∀ i, (∃ n ∈ run.nodes, n.nodeId = i ∧ n.status = .cancelRequested) ↔
        run.lifecycle.node i = some .cancelRequested := fun i => by
      simp only [lifecycle, Option.map_eq_some_iff, node?, lookup_eq_some_iff hnd, and_assoc]
    refine completes_of_waiting h hr ?_ hnodup (fun i => (hall i).trans (hwait i)) hcalls
    intro hex
    obtain ⟨n, hn, hfailed⟩ := (lifecycle_exists hnd).1 hex
    exact hf n hn hfailed

/-- Two nodes wait for their cancellation. -/
def waitingRun : WorkflowRun :=
  (playNew parallel [⟨.startNode "a", callAt 1 "s1"⟩, ⟨.startNode "b", callAt 2 "s2"⟩,
    ⟨.requestCancel, callAt 3 "s3"⟩]).get (by decide +kernel)

theorem waitingRun_history : History parallel waitingRun :=
  history_of_playNew (Option.some_get _).symm

theorem cancellation_spec_waiting :
    (∀ n ∈ waitingRun.nodes, n.status ≠ .queued ∧ n.status ≠ .running ∧ n.status ≠ .accepted) ∧
      ConfirmsToEnd parallel waitingRun :=
  ⟨(cancellation_spec waitingRun_history).1 (Or.inl (by decide +kernel)),
    ((cancellation_spec waitingRun_history).2 (by decide +kernel)).2 (by decide +kernel)⟩

/-- The cancellation of the revived run, whose node `a` has failed. -/
def stuckRun : WorkflowRun :=
  (play parallel [⟨.requestCancel, callAt 7 "s7"⟩] revivedRun).get (by decide +kernel)

theorem stuckRun_history : History parallel stuckRun :=
  have hrevived : History parallel revivedRun :=
    failedRun_history.next (step_of_play (Option.some_get _).symm)
  hrevived.next (step_of_play (Option.some_get _).symm)

theorem cancellation_stuck : ¬∀ (v : WorkflowVersion) (run : WorkflowRun), History v run →
    (run.status = .cancelRequested ∨ run.status = .cancelled → ∀ n ∈ run.nodes,
      n.status ≠ .queued ∧ n.status ≠ .running ∧ n.status ≠ .accepted) ∧
    (run.status = .cancelRequested → ConfirmsToEnd v run) := fun h =>
  not_confirmsToEnd_of_failed stuckRun_history ⟨"a", by decide +kernel⟩
    ((h parallel stuckRun stuckRun_history).2 (by decide +kernel))

end GoAgent.Workflow
