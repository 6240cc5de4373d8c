import GoAgent.Workflow.Status

/-!
# The event log of a run

* `logs_of_effect` — the kinds of events each command can append.
* `outputs_of_effect` — a node that has succeeded keeps the outputs it was logged with.
* `end_logged_once` — the log records the end of a run at most once, as long as every repeated
  command repeats what is logged and no second node fails.
-/

namespace GoAgent.Workflow

open GoAgent.Foundation WorkflowRun

variable {v : WorkflowVersion} {run run' run'' : WorkflowRun} {r : Request} {c : WorkflowCommand}
  {call : Call} {i j nodeId t suffix : String} {n n' m : WorkflowNodeRun}
  {ty : WorkflowEventType} {data : EventMetadata} {P Q : WorkflowEventType → Option String → Prop}

/-! ## What the commands log -/

/-- The run is left with a longer log; the new events are of the kinds `P` admits, by their type
and their node. -/
def Logs (P : WorkflowEventType → Option String → Prop) (run run' : WorkflowRun) : Prop :=
  Grows (fun e => P e.eventType e.metadata.nodeId) run.events run'.events

namespace Logs

theorem refl (h : run'.events = run.events) : Logs P run run' := by
  unfold Logs
  rw [h]
  exact Grows.refl _ _

theorem trans (h : Logs P run run') (h' : Logs P run' run'') : Logs P run run'' := Grows.trans h h'

theorem put : Logs P run (run.put i n) := refl rfl

theorem withStatus {s : WorkflowRunStatus} : Logs P run (run.withStatus s) := refl rfl

theorem record (h : P ty data.nodeId) : Logs P run (run.record call t ty data) := Grows.post h

theorem recordNode (h : P ty (some n.nodeId)) : Logs P run (run.recordNode call suffix n ty data) :=
  Grows.post h

theorem begun (h : P .runStarted none) : Logs P run (run.begun call) := by
  unfold WorkflowRun.begun
  split_ifs
  · exact withStatus.trans (record h)
  · exact refl rfl

theorem refreshed (h : (∀ n ∈ run.nodes, n.status.Complete) → P .runSucceeded none) :
    Logs P run (run.refreshed call) := by
  unfold WorkflowRun.refreshed
  split_ifs with hall
  · exact Grows.post (h hall)
  · exact refl rfl
  · exact refl rfl
  · exact refl rfl

theorem failedWith {code : String} (h : P .runFailed (some nodeId)) :
    Logs P run (run.failedWith nodeId code call) := Grows.post h

theorem cancelStarted (h : P .runCancelRequested none) : Logs P run (run.cancelStarted call) :=
  Grows.post h

theorem cancelEach {ids : List String} (hr : ∀ i, P .nodeCancelRequested (some i))
    (hc : ∀ i, P .nodeCancelled (some i)) : Logs P run (cancelEach call ids run) := by
  refine cancelEach_rule (P := fun r => Logs P run r) (fun {r n} h _ _ => h.trans ?_) (refl rfl)
  refine put.trans (recordNode ?_)
  split_ifs
  · exact hr _
  · exact hc _

theorem closed (h : (∀ n ∈ run.nodes, n.status.Closed) → P .runCancelled none) :
    Logs P run (run.closed call t) := by
  by_cases hall : ∀ n ∈ run.nodes, n.status.Closed
  · rw [closed_of_all hall]
    exact withStatus.trans (record (h hall))
  · rw [closed_of_not hall]
    exact refl rfl

theorem cancelSettled (h : run.status = .cancelRequested →
    (∀ n ∈ run.nodes, n.status.Closed) → P .runCancelled none) :
    Logs P run (run.cancelSettled call) := by
  unfold WorkflowRun.cancelSettled
  split_ifs with hr
  · exact closed (h hr)
  · exact refl rfl

end Logs

/-- The kinds of events a command can log. -/
def WorkflowCommand.Kinds : WorkflowCommand → WorkflowEventType → Option String → Prop
  | .startNode i, ty, node => ty = .runStarted ∧ node = none ∨ ty = .nodeStarted ∧ node = some i
  | .acceptNode i _, ty, node => (ty = .nodeAccepted ∨ ty = .runAccepted) ∧ node = some i
  | .succeedNode i _ _ _, ty, node =>
    ty = .nodeSucceeded ∧ node = some i ∨ ty = .runSucceeded ∧ node = none
  | .rejectNodeInput i _, ty, node => (ty = .nodeInputRejected ∨ ty = .runFailed) ∧ node = some i
  | .failNode i _ _, ty, node =>
    (ty = .nodeRetryScheduled ∨ ty = .nodeFailed ∨ ty = .runFailed) ∧ node = some i
  | .skipNode i _, ty, node =>
    ty = .nodeSkipped ∧ node = some i ∨ ty = .runSucceeded ∧ node = none
  | .requestCancel, ty, node => (ty = .runCancelRequested ∨ ty = .runCancelled) ∧ node = none ∨
    (ty = .nodeCancelRequested ∨ ty = .nodeCancelled) ∧ node.isSome
  | .confirmNodeCancel i, ty, node =>
    ty = .nodeCancelled ∧ node = some i ∨ ty = .runCancelled ∧ node = none

/-- **What a command logs.** -/
theorem logs_of_effect (he : Effect v call run c run') : Logs c.Kinds run run' := by
  cases he with
  | acceptLogged | succeedLogged | cancelAgain => exact .refl rfl
  | start _ _ _ hn =>
    have hid := nodeId_of_node? hn
    exact (Logs.put.trans (.begun (Or.inl ⟨rfl, rfl⟩))).trans
      (.recordNode (Or.inr ⟨rfl, congrArg some hid⟩))
  | @accept nodeId _ n n' _ hn hn' =>
    have hid : n'.nodeId = nodeId := by
      obtain ⟨-, -, rfl⟩ | ⟨-, rfl, -⟩ := hn' <;> exact (nodeId_of_node? hn :)
    exact ((Logs.put.trans .withStatus).trans
      (.recordNode ⟨Or.inl rfl, congrArg some hid⟩)).trans (.record ⟨Or.inr rfl, rfl⟩)
  | succeed hn =>
    have hid := nodeId_of_node? hn
    exact (Logs.put.trans (.recordNode (Or.inl ⟨rfl, congrArg some hid⟩))).trans
      (.refreshed fun _ => Or.inr ⟨rfl, rfl⟩)
  | succeedUnlogged hn =>
    have hid := nodeId_of_node? hn
    exact (Logs.recordNode (Or.inl ⟨rfl, congrArg some hid⟩)).trans
      (.refreshed fun _ => Or.inr ⟨rfl, rfl⟩)
  | reject _ hn =>
    have hid := nodeId_of_node? hn
    exact (Logs.put.trans (.recordNode ⟨Or.inl rfl, congrArg some hid⟩)).trans
      (.failedWith ⟨Or.inr rfl, rfl⟩)
  | retry hn =>
    have hid := nodeId_of_node? hn
    exact Logs.put.trans (.recordNode ⟨Or.inl rfl, congrArg some hid⟩)
  | fail hn =>
    have hid := nodeId_of_node? hn
    exact (Logs.put.trans (.recordNode ⟨Or.inr (Or.inl rfl), congrArg some hid⟩)).trans
      (.failedWith ⟨Or.inr (Or.inr rfl), rfl⟩)
  | @skip nodeId _ n n' _ hn hn' =>
    have hid : n'.nodeId = nodeId := by
      obtain ⟨-, rfl⟩ | ⟨-, rfl⟩ := hn' <;> exact (nodeId_of_node? hn :)
    exact (Logs.put.trans (.recordNode (Or.inl ⟨rfl, congrArg some hid⟩))).trans
      (.refreshed fun _ => Or.inr ⟨rfl, rfl⟩)
  | cancel =>
    exact ((Logs.cancelStarted (Or.inl ⟨Or.inl rfl, rfl⟩)).trans
      (.cancelEach (fun _ => Or.inr ⟨Or.inl rfl, rfl⟩) fun _ => Or.inr ⟨Or.inr rfl, rfl⟩)).trans
      (.closed fun _ => Or.inl ⟨Or.inr rfl, rfl⟩)
  | @confirm nodeId n n' _ hn hn' =>
    have hid : n'.nodeId = nodeId := by
      obtain ⟨-, rfl⟩ | ⟨-, rfl⟩ := hn' <;> exact (nodeId_of_node? hn :)
    exact (Logs.put.trans (.recordNode (Or.inl ⟨rfl, congrArg some hid⟩))).trans
      (.cancelSettled fun _ _ => Or.inr ⟨rfl, rfl⟩)

/-! ## Outputs -/

/-- The success event of a node is superseded only by its own success reports. -/
theorem latest_of_effect (he : Effect v call run c run')
    (hc : ∀ summary fp outputs, c ≠ .succeedNode i summary fp outputs) :
    run'.findLatestNodeEvent i .nodeSucceeded = run.findLatestNodeEvent i .nodeSucceeded := by
  refine Grows.latest_eq (logs_of_effect he) fun e hk => ?_
  rw [decide_eq_false_iff_not]
  rintro ⟨hty, hnode⟩
  rw [hty, hnode] at hk
  cases c with
  | succeedNode =>
    obtain ⟨-, h⟩ | ⟨h, -⟩ := hk
    · obtain rfl := Option.some.inj h
      exact hc _ _ _ rfl
    · cases h
  | startNode | skipNode | confirmNodeCancel => obtain ⟨h, -⟩ | ⟨h, -⟩ := hk <;> cases h
  | acceptNode | rejectNodeInput => obtain ⟨h | h, -⟩ := hk <;> cases h
  | failNode => obtain ⟨h | h | h, -⟩ := hk <;> cases h
  | requestCancel => obtain ⟨h | h, -⟩ | ⟨h | h, -⟩ := hk <;> cases h

theorem outputs_congr (h : run'.findLatestNodeEvent i .nodeSucceeded =
    run.findLatestNodeEvent i .nodeSucceeded) : run'.outputReferences i = run.outputReferences i := by
  unfold outputReferences
  rw [h]

theorem latest_refreshed : (run.refreshed call).findLatestNodeEvent i .nodeSucceeded =
    run.findLatestNodeEvent i .nodeSucceeded :=
  Grows.latest_eq (Logs.refreshed (P := fun ty _ => ty = .runSucceeded) fun _ => rfl)
    fun e he => by simp [he]

/-- The outputs after a success was logged under a new transition id. -/
theorem outputs_recordNode (hn : n.nodeId = i) (hfresh : ¬run.hasTransition (call.commandId ++ suffix)) :
    (run.recordNode call suffix n .nodeSucceeded data).outputReferences i =
      data.outputReferences.getD [] := by
  have hlatest : (run.recordNode call suffix n .nodeSucceeded data).findLatestNodeEvent i
      .nodeSucceeded = some (run.nextEvent call (call.commandId ++ suffix) .nodeSucceeded
        { data with nodeId := some n.nodeId }) :=
    latest_post_of_fresh (by exact hfresh) (by simp [nextEvent, hn])
  unfold outputReferences
  rw [hlatest]
  rfl

/-- **A node that has succeeded keeps its outputs.** -/
theorem outputs_of_effect (he : Effect v call run c run') (hn : run.node? i = some n)
    (hs : n.status = .succeeded) : run'.outputReferences i = run.outputReferences i := by
  by_cases hc : ∀ summary fp outputs, c ≠ .succeedNode i summary fp outputs
  · exact outputs_congr (latest_of_effect he hc)
  · push Not at hc
    obtain ⟨summary, fp, outputs, rfl⟩ := hc
    cases he with
    | succeedLogged => rfl
    | succeed hm hact =>
      obtain rfl := Option.some.inj (hm.symm.trans hn)
      rw [hs] at hact
      exact absurd hact (by decide)
    | succeedUnlogged hm _ hlog hout =>
      subst hout
      rw [outputs_congr latest_refreshed]
      by_cases hlogged : run.hasTransition (call.commandId ++ ":succeed")
      · rw [recordNode, record_of_logged hlogged]
      · rw [outputs_recordNode (nodeId_of_node? hm) hlogged, outputReferences, hlog]
        rfl

/-! ## The end of a run -/

/-- The events that record how a run ended. -/
def WorkflowEventType.RunTerminal (ty : WorkflowEventType) : Prop :=
  ty = .runSucceeded ∨ ty = .runFailed ∨ ty = .runCancelled

instance (ty : WorkflowEventType) : Decidable ty.RunTerminal := by
  unfold WorkflowEventType.RunTerminal; infer_instance

/-- How often the log records the end of the run. -/
def WorkflowRun.ends (run : WorkflowRun) : Nat :=
  run.events.countP fun e => e.eventType.RunTerminal

/-- Node `nodeId` has status `s`. -/
def WorkflowRun.At (run : WorkflowRun) (nodeId : String) (s : WorkflowNodeStatus) : Prop :=
  ∃ n, run.node? nodeId = some n ∧ n.status = s

/-- The command asks for the final status its node already has. -/
def WorkflowRun.Reissued (run : WorkflowRun) : WorkflowCommand → Prop
  | .succeedNode nodeId _ _ _ => run.At nodeId .succeeded
  | .skipNode nodeId _ => run.At nodeId .skipped
  | .failNode nodeId _ _ | .rejectNodeInput nodeId _ => run.At nodeId .failed
  | .confirmNodeCancel nodeId => run.At nodeId .cancelled
  | _ => False

/-- The command's own event is logged, and where the run has succeeded so is the run's. -/
def WorkflowRun.Recorded (run : WorkflowRun) (call : Call) (suffix : String) : Prop :=
  run.hasTransition (call.commandId ++ suffix) ∧
    (run.status = .succeeded → run.hasTransition call.commandId)

/-- The command is a failure for good whose end of the run is not logged. -/
def WorkflowRun.FailsRun (run : WorkflowRun) (r : Request) : Prop :=
  ¬run.hasTransition (r.call.commandId ++ ":run-failed") ∧ match r.command with
  | .failNode nodeId _ retryable => ∃ n, run.node? nodeId = some n ∧ ¬n.Retries retryable
  | .rejectNodeInput _ _ => True
  | _ => False

/-- What the request repeats is logged already. -/
def WorkflowRun.Logged (run : WorkflowRun) (r : Request) : Prop :=
  match r.command with
  | .succeedNode nodeId _ _ _ => run.At nodeId .succeeded →
    (run.findLatestNodeEvent nodeId .nodeSucceeded).isSome ∨ run.Recorded r.call ":succeed"
  | .skipNode nodeId _ => run.At nodeId .skipped → run.Recorded r.call ":skip"
  | .confirmNodeCancel nodeId => run.At nodeId .cancelled →
    run.hasTransition (r.call.commandId ++ ":confirm")
  | _ => True

/-- The request repeats nothing that is not logged, and does not fail a second node. -/
def WorkflowRun.Settled (run : WorkflowRun) (r : Request) : Prop :=
  (run.FailsRun r → ¬∃ n ∈ run.nodes, n.status = .failed) ∧ run.Logged r

theorem events_record_iff :
    (run.record call t ty data).events = run.events ↔ run.hasTransition t := by
  constructor
  · intro h
    by_contra hfresh
    rw [record_of_fresh hfresh] at h
    simp at h
  · exact fun h => by rw [record_of_logged h]

/-- Repeating a success or a skip logs nothing exactly when it was recorded under the same id. -/
theorem events_refreshed_iff (h : Coherent run.lifecycle)
    (hnd : (run.nodes.map WorkflowNodeRun.nodeId).Nodup) :
    ((run.recordNode call suffix n ty data).refreshed call).events = run.events ↔
      run.Recorded call suffix := by
  have hrefresh : (run.refreshed call).events = run.events ↔
      (run.status = .succeeded → run.hasTransition call.commandId) := by
    have hall : run.status = .succeeded ↔ ∀ n ∈ run.nodes, n.status.Complete :=
      ⟨fun hs => (lifecycle_all hnd).1 (h.succeeded hs), fun hs =>
        h.complete ((lifecycle_all hnd).2 hs)⟩
    rw [hall]
    unfold refreshed
    split_ifs with hc
    · refine Iff.trans ?_ ⟨fun h _ => h, fun h => h hc⟩
      exact events_record_iff
    · simp [hc]
    · simp [hc]
    · simp [hc]
  constructor
  · intro heq
    have hnode : (run.recordNode call suffix n ty data).events = run.events :=
      Grows.eq_of_eq (Logs.recordNode (P := fun _ _ => True) trivial)
        (Logs.refreshed (P := fun _ _ => True) fun _ => trivial) heq
    have hlog := events_record_iff.1 hnode
    rw [recordNode, record_of_logged hlog] at heq
    exact ⟨hlog, hrefresh.1 heq⟩
  · intro hrec
    rw [recordNode, record_of_logged hrec.1]
    exact hrefresh.2 hrec.2

theorem events_cancelSettled (h : Coherent run.lifecycle)
    (hnd : (run.nodes.map WorkflowNodeRun.nodeId).Nodup) :
    (run.cancelSettled call).events = run.events := by
  unfold cancelSettled
  split_ifs with hr
  · rw [closed_of_not fun hall => h.pending hr ((lifecycle_all hnd).2 hall)]
  · rfl

/-- Repeating a confirmation logs nothing exactly when it was logged under the same id. -/
theorem events_confirm_iff (h : Coherent run.lifecycle)
    (hnd : (run.nodes.map WorkflowNodeRun.nodeId).Nodup) :
    (((run.recordNode call suffix n ty data).cancelSettled call).touched call).events =
      run.events ↔ run.hasTransition (call.commandId ++ suffix) := by
  have hsettled : ((run.recordNode call suffix n ty data).cancelSettled call).events =
      (run.recordNode call suffix n ty data).events := events_cancelSettled h hnd
  rw [touched_events, hsettled]
  exact events_record_iff

theorem WorkflowRun.At.status {s : WorkflowNodeStatus} (h : run.At i s) (hn : run.node? i = some n) :
    n.status = s := by
  obtain ⟨m, hm, hs⟩ := h
  obtain rfl := Option.some.inj (hm.symm.trans hn)
  exact hs

/-- **A repeated command logs nothing** exactly when what it repeats is logged already. -/
theorem events_of_reissued (h : History v run) (hs : Step v run r run')
    (hre : run.Reissued r.command) : run'.events = run.events ↔ run.Logged r := by
  have hc := coherent_of_history h
  have hnd := (instantiates_of_history h).nodup
  have he := h.effect hs
  obtain ⟨c, call⟩ := r
  cases he with
  | start | accept | acceptLogged | cancel | cancelAgain => exact hre.elim
  | succeedLogged _ _ hlog =>
    refine iff_of_true rfl fun _ => Or.inl ?_
    rw [hlog]
    rfl
  | succeed hn hact =>
    rw [hre.status hn] at hact
    exact absurd hact (by decide)
  | succeedUnlogged hn _ hlog =>
    rw [events_refreshed_iff hc hnd]
    refine ⟨fun hrec _ => Or.inr hrec, fun hl => (hl hre).resolve_left ?_⟩
    rw [hlog]
    exact Bool.false_ne_true
  | reject _ hn hq =>
    rw [hre.status hn] at hq
    cases hq
  | retry hn hact | fail hn hact =>
    rw [hre.status hn] at hact
    exact absurd hact (by decide)
  | skip hn hn' =>
    obtain ⟨hq, -⟩ | ⟨-, rfl⟩ := hn'
    · rw [hre.status hn] at hq
      cases hq
    · rw [put_self hnd hn, events_refreshed_iff hc hnd]
      exact ⟨fun hrec _ => hrec, fun hl => hl hre⟩
  | confirm hn hn' =>
    obtain ⟨hq, -⟩ | ⟨-, rfl⟩ := hn'
    · rw [hre.status hn] at hq
      cases hq
    · rw [put_self hnd hn, events_confirm_iff hc hnd]
      exact ⟨fun hlog _ => hlog, fun hl => hl hre⟩

theorem Logs.ends_eq (h : Logs P run run') (hP : ∀ ty node, P ty node → ¬ty.RunTerminal) :
    run'.ends = run.ends :=
  Grows.countP_eq h fun _ he => decide_eq_false (hP _ _ he)

theorem ends_record_le : (run.record call t ty data).ends ≤ run.ends + 1 := countP_post_le _ _

theorem ends_recordNode (hty : ¬ty.RunTerminal) :
    (run.recordNode call suffix n ty data).ends = run.ends :=
  (Logs.recordNode (P := fun ty' _ => ty' = ty) rfl).ends_eq fun _ _ h => h ▸ hty

theorem ends_refreshed : (run.refreshed call).ends = run.ends ∨
    (run.refreshed call).ends ≤ run.ends + 1 ∧ ∀ n ∈ run.nodes, n.status.Complete := by
  unfold refreshed
  split_ifs with hall
  · exact Or.inr ⟨ends_record_le, hall⟩
  · exact Or.inl rfl
  · exact Or.inl rfl
  · exact Or.inl rfl

theorem ends_closed : (run.closed call t).ends = run.ends ∨
    (run.closed call t).ends ≤ run.ends + 1 ∧ (run.closed call t).status = .cancelled := by
  by_cases hall : ∀ n ∈ run.nodes, n.status.Closed
  · rw [closed_of_all hall]
    exact Or.inr ⟨ends_record_le, rfl⟩
  · rw [closed_of_not hall]
    exact Or.inl rfl

theorem ends_failedWith {code : String} : (run.failedWith i code call).ends = run.ends ∨
    (run.failedWith i code call).ends ≤ run.ends + 1 ∧
      ¬run.hasTransition (call.commandId ++ ":run-failed") := by
  by_cases hlog : run.hasTransition (call.commandId ++ ":run-failed")
  · refine Or.inl ?_
    unfold ends failedWith
    rw [record_of_logged (by exact hlog)]
  · exact Or.inr ⟨ends_record_le, hlog⟩

/-- How a command can come to log the end of a run. -/
theorem ends_of_effect (he : Effect v call run c run') :
    run'.ends = run.ends ∨ run'.ends ≤ run.ends + 1 ∧
      ((∀ n ∈ run'.nodes, n.status.Complete) ∨ run.FailsRun ⟨c, call⟩ ∨
        run.status ≠ .cancelled ∧ run'.status = .cancelled) := by
  have hsettle : ∀ {run₁ : WorkflowRun}, run₁.ends = run.ends →
      (run₁.refreshed call).ends = run.ends ∨ (run₁.refreshed call).ends ≤ run.ends + 1 ∧
        ∀ n ∈ (run₁.refreshed call).nodes, n.status.Complete := fun h => by
    rw [← h, refreshed_nodes]
    exact ends_refreshed
  have hfail : ∀ {run₁ : WorkflowRun} {i code : String}, run₁.ends = run.ends →
      (run₁.failedWith i code call).ends = run.ends ∨
        (run₁.failedWith i code call).ends ≤ run.ends + 1 ∧
          ¬run₁.hasTransition (call.commandId ++ ":run-failed") := fun h => by
    rw [← h]
    exact ends_failedWith
  have hclose : ∀ {run₁ : WorkflowRun} {t : String}, run₁.ends = run.ends →
      (run₁.closed call t).ends = run.ends ∨ (run₁.closed call t).ends ≤ run.ends + 1 ∧
        (run₁.closed call t).status = .cancelled := fun h => by
    rw [← h]
    exact ends_closed
  have hlogs := logs_of_effect he
  cases he with
  | acceptLogged | succeedLogged | cancelAgain => exact Or.inl rfl
  | start =>
    refine Or.inl (hlogs.ends_eq ?_)
    rintro ty node (⟨rfl, -⟩ | ⟨rfl, -⟩) <;> decide
  | accept =>
    refine Or.inl (hlogs.ends_eq ?_)
    rintro ty node ⟨rfl | rfl, -⟩ <;> decide
  | retry => exact Or.inl (ends_recordNode (by decide))
  | succeed | succeedUnlogged | skip =>
    refine (hsettle ?_).imp_right fun h => ⟨h.1, Or.inl h.2⟩
    exact ends_recordNode (by decide)
  | reject _ hn =>
    refine (hfail (ends_recordNode (by decide))).imp_right fun h => ⟨h.1, Or.inr (Or.inl ⟨?_, trivial⟩)⟩
    exact fun hlog => h.2 (hasTransition_record.2 (Or.inl hlog))
  | fail hn _ hr =>
    refine (hfail (ends_recordNode (by decide))).imp_right fun h =>
      ⟨h.1, Or.inr (Or.inl ⟨?_, _, hn, hr⟩)⟩
    exact fun hlog => h.2 (hasTransition_record.2 (Or.inl hlog))
  | cancel hs =>
    refine (hclose ?_).imp_right fun h =>
      ⟨h.1, Or.inr (Or.inr ⟨fun hc => hs (Or.inr (Or.inr (Or.inr hc))), h.2⟩)⟩
    refine ((Logs.cancelStarted (P := fun ty _ => ty = .runCancelRequested ∨
      ty = .nodeCancelRequested ∨ ty = .nodeCancelled) (Or.inl rfl)).trans (Logs.cancelEach
      (fun _ => Or.inr (Or.inl rfl)) fun _ => Or.inr (Or.inr rfl))).ends_eq ?_
    rintro ty node (rfl | rfl | rfl) <;> decide
  | confirm =>
    obtain hr | hr := eq_or_ne run.status .cancelRequested
    · have hne : run.status ≠ .cancelled := fun hc => by simp [hr] at hc
      rw [cancelSettled, if_pos (by exact hr)]
      refine (hclose ?_).imp_right fun h => ⟨h.1, Or.inr (Or.inr ⟨hne, h.2⟩)⟩
      exact ends_recordNode (by decide)
    · rw [cancelSettled, if_neg (by exact hr)]
      exact Or.inl (ends_recordNode (by decide))

/-! ## The end is logged once -/

/-- The run has succeeded, is cancelled, or has a failed node. -/
def WorkflowRun.Over (run : WorkflowRun) : Prop :=
  run.status = .succeeded ∨ run.status = .cancelled ∨ ∃ n ∈ run.nodes, n.status = .failed

theorem status_kept (h : History v run) (hs : Step v run r run')
    (hd : run.status = .succeeded ∨ run.status = .cancelled) : run'.status = run.status := by
  refine (step_keeps_final_status h (hd.imp_right Or.inr) hs).2 fun hr => ?_
  rw [hr.1] at hd
  exact absurd hd (by decide)

theorem failed_kept (h : History v run) (hs : Step v run r run')
    (hf : ∃ n ∈ run.nodes, n.status = .failed) : ∃ n ∈ run'.nodes, n.status = .failed := by
  obtain ⟨n, hn, hf⟩ := hf
  have hmem := lookup_of_mem (instantiates_of_history h).nodup hn
  obtain ⟨n', hn', hmove⟩ := nodeMove_of_effect (h.effect hs) hmem
  obtain rfl := hmove.eq_of_done (Or.inl hf)
  exact ⟨n', mem_of_node? hn', hf⟩

theorem over_kept (h : History v run) (hs : Step v run r run') (ho : run.Over) : run'.Over := by
  obtain hd | hd | hf := ho
  · exact Or.inl ((status_kept h hs (Or.inl hd)).trans hd)
  · exact Or.inr (Or.inl ((status_kept h hs (Or.inr hd)).trans hd))
  · exact Or.inr (Or.inr (failed_kept h hs hf))

/-- A failure for good leaves a failed node, on a run that had neither succeeded nor been
cancelled. -/
theorem failsRun_effect (h : History v run) (he : Effect v call run c run')
    (hf : run.FailsRun ⟨c, call⟩) :
    (∃ n ∈ run'.nodes, n.status = .failed) ∧ run.status ≠ .succeeded ∧ run.status ≠ .cancelled := by
  have hopen : ∀ {i n}, run.node? i = some n → n.status.Cancellable →
      run.status ≠ .succeeded ∧ run.status ≠ .cancelled := fun hn hc => by
    have hst := (coherent_of_history h).of_cancellable (lifecycle_node hn) hc
    exact ⟨hst.1, fun hs => hst.2 (Or.inr hs)⟩
  obtain ⟨-, hf⟩ := hf
  cases he with
  | start | accept | acceptLogged | succeed | succeedLogged | succeedUnlogged | skip | cancel
  | cancelAgain | confirm => exact hf.elim
  | retry hn _ hr =>
    obtain ⟨n, hn', hr'⟩ := hf
    obtain rfl := Option.some.inj (hn'.symm.trans hn)
    exact absurd hr hr'
  | reject _ hn hq =>
    exact ⟨⟨_, mem_of_node? (node?_put_self hn (nodeId_of_node? hn :)), rfl⟩, hopen hn (Or.inl hq)⟩
  | fail hn hact hr =>
    exact ⟨⟨_, mem_of_node? (node?_put_self hn (nodeId_of_node? hn :)), if_neg hr⟩,
      hopen hn (Or.inr hact)⟩

/-- A run that has succeeded accepts only repetitions. -/
theorem reissued_of_succeeded (h : History v run) (hs : Step v run r run')
    (hd : run.status = .succeeded) : run' = run ∨ run.Reissued r.command := by
  have hall : ∀ n ∈ run.nodes, n.status.Complete :=
    (lifecycle_all (instantiates_of_history h).nodup).1 ((coherent_of_history h).succeeded hd)
  have hdone : ∀ {i n}, run.node? i = some n → n.status.Cancellable → False := fun hn hc =>
    (hall _ (mem_of_node? hn)).closed.not_cancellable hc
  have he := h.effect hs
  obtain ⟨c, call⟩ := r
  cases he with
  | acceptLogged | succeedLogged | cancelAgain => exact Or.inl rfl
  | start open_ | accept open_ | reject open_ | cancel open_ =>
    exact (open_ (Or.inr (Or.inl hd))).elim
  | succeed hn hact | retry hn hact | fail hn hact => exact (hdone hn (Or.inr hact)).elim
  | succeedUnlogged hn hdone => exact Or.inr ⟨_, hn, hdone⟩
  | skip hn hn' =>
    obtain ⟨hq, -⟩ | ⟨hs, -⟩ := hn'
    · exact (hdone hn (Or.inl hq)).elim
    · exact Or.inr ⟨_, hn, hs⟩
  | confirm hn hn' =>
    obtain ⟨hq, -⟩ | ⟨hs, -⟩ := hn'
    · have := hall _ (mem_of_node? hn)
      rw [hq] at this
      exact absurd this (by decide)
    · exact Or.inr ⟨_, hn, hs⟩

/-- Once a run is over no settled command logs its end again. -/
theorem ends_of_over (h : History v run) (hs : Step v run r run') (hset : run.Settled r)
    (ho : run.Over) : run'.ends = run.ends := by
  have hc' := coherent_of_history (h.next hs)
  have hnd' := (instantiates_of_history (h.next hs)).nodup
  obtain heq | ⟨-, hall | hfail | ⟨hne, hcanc⟩⟩ := ends_of_effect (h.effect hs)
  · exact heq
  · have hdone := hc'.complete ((lifecycle_all hnd').2 hall)
    obtain hd | hd | hf := ho
    · obtain rfl | hre := reissued_of_succeeded h hs hd
      · rfl
      · rw [ends, (events_of_reissued h hs hre).2 hset.2, ends]
    · exact nomatch hdone.symm.trans ((status_kept h hs (Or.inr hd)).trans hd)
    · obtain ⟨n, hn, hf⟩ := failed_kept h hs hf
      have hcomplete := hall n hn
      rw [hf] at hcomplete
      exact absurd hcomplete (by decide)
  · obtain ⟨-, hns, hnc⟩ := failsRun_effect h (h.effect hs) hfail
    exact (ho.elim hns fun ho => ho.elim hnc (hset.1 hfail)).elim
  · obtain hd | hd | hf := ho
    · exact nomatch hcanc.symm.trans ((status_kept h hs (Or.inl hd)).trans hd)
    · exact absurd hd hne
    · obtain ⟨n, hn, hf⟩ := failed_kept h hs hf
      have hclosed := (lifecycle_all hnd').1 (hc'.cancelled hcanc) n hn
      rw [hf] at hclosed
      exact absurd hclosed (by decide)

/-- What logs the end of a run leaves it over. -/
theorem over_of_ends (h : History v run) (hs : Step v run r run') (hne : run'.ends ≠ run.ends) :
    run'.Over ∧ run'.ends ≤ run.ends + 1 := by
  have h' := h.next hs
  obtain heq | ⟨hle, hall | hfail | ⟨-, hcanc⟩⟩ := ends_of_effect (h.effect hs)
  · exact absurd heq hne
  · refine ⟨Or.inl ((coherent_of_history h').complete ?_), hle⟩
    exact (lifecycle_all (instantiates_of_history h').nodup).2 hall
  · exact ⟨Or.inr (Or.inr (failsRun_effect h (h.effect hs) hfail).1), hle⟩
  · exact ⟨Or.inr (Or.inl hcanc), hle⟩

/-- A log that records the end of its run records it once, and the run is over. -/
def WorkflowRun.EndedOnce (run : WorkflowRun) : Prop := run.ends = 0 ∨ run.ends = 1 ∧ run.Over

theorem EndedOnce.step (h : History v run) (hs : Step v run r run') (hset : run.Settled r)
    (ho : run.EndedOnce) : run'.EndedOnce := by
  by_cases heq : run'.ends = run.ends
  · unfold EndedOnce
    rw [heq]
    exact ho.imp_right fun ho => ⟨ho.1, over_kept h hs ho.2⟩
  · obtain ⟨hover, hle⟩ := over_of_ends h hs heq
    obtain h0 | ⟨-, ho⟩ := ho
    · exact Or.inr ⟨by omega, hover⟩
    · exact absurd (ends_of_over h hs hset ho) heq

theorem endedOnce_of_created (h : Created v run) : run.EndedOnce := by
  obtain ⟨-, -, -, e, hev, hty, -⟩ := created_spec h
  left
  rw [ends, hev, List.countP_singleton, hty]
  rfl

/-- A node that has failed refuses to fail again. -/
theorem failure_refused (h : History v run) (hf : run.At nodeId .failed) {code : String}
    {retryable : Bool} : (∃ e, failNode nodeId code retryable call run = .error e run) ∧
      ∃ e, rejectNodeInput nodeId code call run = .error e run := by
  obtain ⟨n, hn, hs⟩ := hf
  have hput := put_self (instantiates_of_history h).nodup hn
  have hnode : ∀ {α} {method : NodeM α} {e}, method n = .error e n →
      onNode nodeId method run = .error e run := fun hm => by
    simp only [onNode, hn, hm, hput]
  have hfail : ∀ {o}, ∃ e, WorkflowNodeRun.fail code retryable o n = .error e n :=
    ⟨_, bind_of_error ((bind_of_ok rfl).trans (check_of_not (by rw [hs]; decide)))⟩
  have hreject : ∀ {o}, ∃ e, WorkflowNodeRun.rejectInput code o n = .error e n :=
    ⟨_, (bind_of_ok rfl).trans (bind_of_error (check_of_not (by rw [hs]; decide)))⟩
  refine ⟨?_, ?_⟩
  · obtain ⟨e, he⟩ := hfail (o := run.occasion call ":fail")
    exact ⟨e, (bind_of_ok rfl).trans (bind_of_error (hnode he))⟩
  · by_cases hshut : run.status.Shut
    · exact ⟨_, (bind_of_ok rfl).trans (bind_of_error (check_of_not (not_not.2 hshut)))⟩
    · obtain ⟨e, he⟩ := hreject (o := run.occasion call ":reject-input")
      refine ⟨e, (bind_of_ok rfl).trans ((bind_of_ok (a := ()) ?_).trans (bind_of_error (hnode he)))⟩
      exact check_ok.2 ⟨hshut, rfl⟩

/-- **The end of a run is logged once**, in a history of settled commands; there a command
repeated on a node that has its target status logs nothing, and a repeated failure is refused. -/
theorem end_logged_once {run₀ : WorkflowRun} {rs : List Request} (h₀ : Created v run₀)
    (hsteps : Steps (Guarded (Step v) Settled) run₀ rs run) :
    run.ends ≤ 1 ∧
    (∀ r run', Guarded (Step v) Settled run r run' → run.Reissued r.command →
      run'.events = run.events) ∧
    ∀ nodeId code retryable call, run.At nodeId .failed →
      (∃ e, failNode nodeId code retryable call run = .error e run) ∧
      ∃ e, rejectNodeInput nodeId code call run = .error e run := by
  have hall : History v run ∧ run.EndedOnce :=
    Steps.invariant (P := fun run => History v run ∧ run.EndedOnce)
      (fun hi hs => ⟨hi.1.next hs.1, EndedOnce.step hi.1 hs.1 hs.2 hi.2⟩) hsteps
      ⟨Reachable.start h₀, endedOnce_of_created h₀⟩
  refine ⟨?_, fun r run' hs hre => (events_of_reissued hall.1 hs.1 hre).2 hs.2.2,
    fun _ _ _ _ hf => failure_refused hall.1 hf⟩
  obtain h | ⟨h, -⟩ := hall.2 <;> omega

/-- A created run of three independent nodes. -/
def newRun : WorkflowRun := (playNew parallel []).get (by decide +kernel)

def startedRun : WorkflowRun :=
  (play parallel [⟨.startNode "a", callAt 1 "s1"⟩] newRun).get (by decide +kernel)

/-- The only node that works fails. -/
def failedOnce : WorkflowRun :=
  (play parallel [⟨.failNode "a" "BAD" false, callAt 2 "s2"⟩] startedRun).get (by decide +kernel)

theorem newRun_created : Created parallel newRun :=
  ⟨"owner", "key", "input", ⟨0, true⟩, 1, fun k => 2 + k, fun _ => 9, by decide +kernel⟩

theorem startedRun_step : Step parallel newRun ⟨.startNode "a", callAt 1 "s1"⟩ startedRun :=
  step_of_play (Option.some_get _).symm

theorem failedOnce_step :
    Step parallel startedRun ⟨.failNode "a" "BAD" false, callAt 2 "s2"⟩ failedOnce :=
  step_of_play (Option.some_get _).symm

theorem end_logged_once_failed : failedOnce.ends ≤ 1 ∧
    ∃ e, failNode "a" "BAD" false (callAt 3 "s3") failedOnce = .error e failedOnce :=
  have hspec := end_logged_once newRun_created
    (.cons ⟨startedRun_step, fun h => h.2.elim, trivial⟩
      (.cons ⟨failedOnce_step, fun _ => by decide +kernel, trivial⟩ (.nil _)))
  ⟨hspec.1, (hspec.2.2 "a" "BAD" false (callAt 3 "s3")
    ⟨_, (Option.some_get (by decide +kernel)).symm, by decide +kernel⟩).1⟩

/-- Node `c` of the failed run fails as well. -/
def failedTwice : WorkflowRun :=
  (play parallel [⟨.failNode "c" "BAD" false, callAt 6 "s6"⟩] failedRun).get (by decide +kernel)

def skippedOnce : WorkflowRun :=
  (play parallel [⟨.skipNode "a" "not needed", callAt 1 "s1"⟩] newRun).get (by decide +kernel)

def skippedTwice : WorkflowRun :=
  (play parallel [⟨.skipNode "a" "not needed", callAt 2 "s2"⟩] skippedOnce).get (by decide +kernel)

theorem end_logged_twice :
    ¬(∀ (v : WorkflowVersion) (run : WorkflowRun), History v run → run.ends ≤ 1) ∧
    ¬(∀ (v : WorkflowVersion) (run run' : WorkflowRun) (r : Request), History v run →
      Step v run r run' → run.Reissued r.command →
      (∀ e ∈ run.events, ¬r.call.commandId.toList <+: e.transitionId.toList) →
      run'.events = run.events) := by
  constructor
  · intro h
    have hhist : History parallel failedTwice :=
      failedRun_history.next (step_of_play (Option.some_get _).symm)
    exact absurd (h parallel failedTwice hhist) (by decide +kernel)
  · intro h
    have hhist : History parallel skippedOnce :=
      (Reachable.start newRun_created).next (step_of_play (Option.some_get _).symm)
    have hre : skippedOnce.At "a" .skipped :=
      ⟨_, (Option.some_get (by decide +kernel)).symm, by decide +kernel⟩
    exact absurd (h parallel skippedOnce skippedTwice _ hhist
      (step_of_play (Option.some_get _).symm) hre (by decide +kernel)) (by decide +kernel)

end GoAgent.Workflow
