import GoAgent.Workflow.Progress
import GoAgent.Workflow.Transactions

/-!
# Recording an outcome

The outcome of an executor is recorded on the run `execute_node` has in memory. While that run is
the stored one, the record goes through for every outcome whose texts the domain accepts and the
columns can hold (`Recordable`).

* `step_recorded` — the domain accepts the outcome.
* `resume_ok` — and the save commits.
-/

namespace GoAgent.Workflow

open GoAgent.Foundation WorkflowRun WorkflowApplication

variable {pg : Postgres} {v : WorkflowVersion} {run run' : WorkflowRun} {r : Request}
  {call : Call} {i : String} {n : WorkflowNodeRun} {rows : WorkflowRows}
  {outcome : Option WorkflowNodeExecutionOutcome} {outputs : References} {c : WorkflowCommand}

/-! ## What the domain accepts -/

/-- The texts of the outcome pass the checks of the domain and of the columns. -/
def Recordable (v : WorkflowVersion) (nodeId : String) :
    Option WorkflowNodeExecutionOutcome → Prop
  | none => True
  | some outcome =>
    match outcome.status with
    | .completed => acceptsOutputs v nodeId outcome.outputReferences →
        isBlank (orElse outcome.resultSummary "节点已完成。") = false ∧
        storableText (orElse outcome.resultSummary "节点已完成。") = true ∧
        (fingerprint outcome.outputFingerprint "输出指纹").isOk = true
    | .accepted => isSafeReference (strip (orElse outcome.executionReference "")) = true
    | .failed => isSafeError (strip (orElse outcome.errorCode "WORKFLOW_EXECUTION_FAILED")) = true

instance : Decidable (Recordable v i outcome) := by
  unfold Recordable
  split
  · infer_instance
  · split <;> infer_instance

theorem isBlank_of_safe {s : String} (h : s.toList ≠ [] ∧ ∀ c ∈ s.toList, isSpace c = false) :
    isBlank s = false := by
  obtain ⟨c, hc⟩ := List.exists_mem_of_ne_nil _ h.1
  exact isBlank_eq_false hc (h.2 c hc)

/-- A node at work that was started accepts a failure report. -/
theorem fail_of_attempted {code : String} {retryable : Bool} (hv : Instantiates v run.nodes)
    (hn : run.node? i = some n) (hact : n.status.Active) (hcount : 0 < n.attemptCount)
    (hcode : isSafeError (strip code) = true) (hnow : call.now.tzAware = true) :
    ∃ run', Step v run ⟨.failNode i code retryable, call⟩ run' := by
  have hblank : isBlank code = false := by
    rw [← isBlank_strip]
    exact isBlank_of_safe (isSafeError_no_space hcode)
  obtain ⟨e, he⟩ := nodeEvent_accepted hv hn (n.failedWith (strip code) retryable call.now) rfl
    ":fail" (if n.Retries retryable then .nodeRetryScheduled else .nodeFailed)
    { attemptNumber := some n.attemptCount, errorCode := some (strip code) } (fun hid => by
      split_ifs <;> simp only [checkMetadata, EventMetadata.keys, eventMetadataFields] <;>
        simpa [hcode, hcount] using hid) (by decide) hnow
  have hnode : onNode i (WorkflowNodeRun.fail code retryable (run.occasion call ":fail")) run =
      .ok e (run.put i (n.failedWith (strip code) retryable call.now)) :=
    onNode_ok.2 ⟨n, _, hn, WorkflowNodeRun.fail_ok.2 ⟨hact, hblank, hcode, rfl, he⟩, rfl⟩
  have hself : (run.put i (n.failedWith (strip code) retryable call.now)).node? i = _ :=
    node?_put_self hn (nodeId_of_node? hn :)
  suffices h : ∃ run', WorkflowRun.failNode i code retryable call run = .ok e run' by
    obtain ⟨run', h⟩ := h
    exact ⟨run', discard_ok.2 ⟨e, h⟩⟩
  simp only [WorkflowRun.failNode, bind_ok, get_ok, lift_ok, node_ok, exists_unit, exists_eq_left,
    exists_and_left, and_assoc]
  by_cases hr : n.Retries retryable
  · have hst : (n.failedWith (strip code) retryable call.now).status ≠ .failed := by
      simp [WorkflowNodeRun.failedWith, hr]
    exact ⟨_, e, _, hnode, _, (appendExisting_ok he).2 rfl, _, hself, by
      simp only [hst, if_false, bind_ok, exists_unit, touch_ok, pure_ok]
      exact ⟨_, ⟨hnow, rfl⟩, trivial, rfl⟩⟩
  · have hst : (n.failedWith (strip code) retryable call.now).status = .failed := by
      simp [WorkflowNodeRun.failedWith, hr]
    exact ⟨_, e, _, hnode, _, (appendExisting_ok he).2 rfl, _, hself, by
      simp only [hst, if_true, bind_ok, exists_unit, touch_ok, pure_ok]
      exact ⟨_, failWith_of_code hself (hv.isIdentifier (mem_of_node? hn) :) rfl hcode hnow, _,
        ⟨hnow, rfl⟩, trivial, rfl⟩⟩

/-- A running node accepts the reference of an executor. -/
theorem accept_of_attempted {reference : String} (hv : Instantiates v run.nodes)
    (hopen : ¬run.status.Shut) (hn : run.node? i = some n) (hr : n.status = .running)
    (hcount : 0 < n.attemptCount) (href : isSafeReference (strip reference) = true)
    (hnow : call.now.tzAware = true) : ∃ run', Step v run ⟨.acceptNode i reference, call⟩ run' := by
  have hblank : isBlank reference = false := by
    rw [← isBlank_strip]
    exact isBlank_of_safe (isSafeReference_no_space href)
  obtain ⟨e, he⟩ := nodeEvent_accepted hv hn (n.acceptedWith (strip reference) call.now) rfl
    ":accept" .nodeAccepted (n.acceptedWith (strip reference) call.now).acceptedMetadata
    (fun hid => by
      simp only [checkMetadata, EventMetadata.keys, eventMetadataFields]
      simpa [WorkflowNodeRun.acceptedMetadata, WorkflowNodeRun.acceptedWith, hcount, href, hblank]
        using hid) (by decide) hnow
  have hnode : onNode i (WorkflowNodeRun.accept reference (run.occasion call ":accept")) run =
      .ok e (run.put i (n.acceptedWith (strip reference) call.now)) :=
    onNode_ok.2 ⟨n, _, hn, WorkflowNodeRun.accept_ok.2 (Or.inr ⟨hr, hblank, href, rfl, he⟩), rfl⟩
  have hne : n.status ≠ .accepted := by
    rw [hr]
    decide
  suffices h : ∃ run', WorkflowRun.acceptNode i reference call run = .ok e run' by
    obtain ⟨run', h⟩ := h
    exact ⟨run', discard_ok.2 ⟨e, h⟩⟩
  simp only [WorkflowRun.acceptNode, bind_ok, get_ok, check_ok, lift_ok, node_ok, exists_unit,
    exists_eq_left, exists_and_left, and_assoc]
  have hdata : checkMetadata .runAccepted { nodeId := some i } = .ok () := by
    simpa [checkMetadata, EventMetadata.keys, eventMetadataFields] using
      isIdentifier_strip (nodeId_of_node? hn ▸ hv.isIdentifier (mem_of_node? hn))
  refine ⟨hopen, ?_⟩
  exact ⟨_, n, hn, e, _, hnode, by
    rw [if_neg hne]
    simp only [bind_ok, exists_unit, modify_ok, appendExisting_ok he, appendEvent_ok, touch_ok,
      pure_ok, exists_eq_left, exists_and_left, and_assoc]
    exact ⟨fun _ => checkEvent_nextEvent (by decide) hdata hnow, hnow, trivial, rfl⟩⟩

def Validation (e : WorkflowError) : Prop := ∃ message, e = .validation message

theorem raisesOnly_text {value label : String} : RaisesOnly Validation (text value label) :=
  raisesOnly_bind (raisesOnly_require ⟨_, rfl⟩) fun _ => raisesOnly_ok

theorem raisesOnly_checkReference {p : String × String} {a b : String} :
    RaisesOnly Validation (checkReference p a b) := by
  have hid : RaisesOnly Validation (identifier p.1 a) := by
    apply raisesOnly_bind raisesOnly_text
    intro s
    split_ifs
    · exact raisesOnly_ok
    · exact raisesOnly_error ⟨_, rfl⟩
  have href : RaisesOnly Validation (opaqueReference p.2 b) :=
    raisesOnly_bind raisesOnly_text fun _ =>
      raisesOnly_bind (raisesOnly_require ⟨_, rfl⟩) fun _ => raisesOnly_ok
  exact raisesOnly_bind hid fun _ => raisesOnly_bind href fun _ => raisesOnly_ok

/-- Outputs that are not those the node declares are refused before anything is written. -/
theorem succeedNode_refused {summary : String} {fp : Option String} (call : Call)
    (hv : Instantiates v run.nodes) (hn : run.node? i = some n) (hout : ¬acceptsOutputs v i outputs) :
    ∃ message, succeedNode v i summary fp outputs call run = .error (.validation message) run := by
  obtain ⟨d, hd, hfixed⟩ := hv.definition (mem_of_node? hn)
  have hdef : v.node i = .ok d :=
    v.node_ok.2 ⟨hd, (congrArg Prod.fst hfixed).trans (nodeId_of_node? hn)⟩
  have hget : (get : RunM WorkflowRun) run = .ok run run := rfl
  have hnode : (lift (run.node i) : RunM _) run = .ok n run := lift_ok.2 ⟨node_ok.2 hn, rfl⟩
  have hdef' : (lift (v.node i) : RunM _) run = .ok d run := lift_ok.2 ⟨hdef, rfl⟩
  by_cases hfields : (∀ f ∈ outputs.map Prod.fst, f ∈ d.outputFields.1) ∧
      ∀ f ∈ d.outputFields.1, f ∈ outputs.map Prod.fst
  · cases hrefs : forEach (fun p => checkReference p "节点输出字段名" "节点输出引用") outputs with
    | ok u => exact absurd ⟨d, hdef, hfields, forEach_ok.1 hrefs⟩ hout
    | error e =>
      obtain ⟨message, rfl⟩ := raisesOnly_forEach (fun _ => raisesOnly_checkReference) e hrefs
      refine ⟨message, (bind_of_ok hget).trans ((bind_of_ok hnode).trans ((bind_of_ok hdef').trans
        ((bind_of_ok (a := ()) (check_ok.2 ⟨hfields, rfl⟩)).trans (bind_of_error ?_))))⟩
      exact lift_error.2 ⟨hrefs, rfl⟩
  · exact ⟨_, (bind_of_ok hget).trans ((bind_of_ok hnode).trans ((bind_of_ok hdef').trans
      (bind_of_error (check_of_not hfields))))⟩

/-- **The domain accepts the outcome** of an executor whose node is running. -/
theorem step_recorded (hv : Instantiates v run.nodes) (hopen : ¬run.status.Shut)
    (hn : run.node? i = some n) (hr : n.status = .running) (hcount : 0 < n.attemptCount)
    (hrec : Recordable v i outcome) (hcall : call.Valid) :
    ∃ run', recordOutcome v i outcome call run = .ok () run' := by
  have hact : n.status.Active := Or.inl hr
  cases outcome with
  | none => exact fail_of_attempted hv hn hact hcount (by decide) hcall.1
  | some outcome =>
    unfold recordOutcome
    unfold Recordable at hrec
    dsimp only at hrec ⊢
    revert hrec
    cases outcome.status with
    | accepted => exact fun hrec => accept_of_attempted hv hopen hn hr hcount hrec hcall.1
    | failed => exact fun hrec => fail_of_attempted hv hn hact hcount hrec hcall.1
    | completed =>
      intro hrec
      dsimp only
      by_cases hout : acceptsOutputs v i outcome.outputReferences
      · obtain ⟨hblank, -, hok⟩ := hrec hout
        obtain ⟨fp', hfp⟩ : ∃ fp', fingerprint outcome.outputFingerprint "输出指纹" = .ok fp' := by
          cases hfp : fingerprint outcome.outputFingerprint "输出指纹" with
          | ok fp' => exact ⟨fp', rfl⟩
          | error e =>
            rw [hfp] at hok
            cases hok
        obtain ⟨d, hd, ⟨hsub, hsup⟩, hvalid⟩ := hout
        obtain ⟨run', h⟩ := report_of_attempted hv hn hact hcount
          { declared := ⟨d, hd, fun f => ⟨hsub f, hsup f⟩⟩, valid := hvalid, summary := hblank,
            fingerprint := ⟨fp', hfp⟩ } hcall
        exact ⟨run', tryCatch_ok.2 (Or.inl h)⟩
      · obtain ⟨message, herr⟩ := succeedNode_refused call hv hn hout
        have hcode : isSafeError (strip "OUTPUT_INVALID") = true := by decide
        obtain ⟨run', h⟩ := fail_of_attempted hv hn hact hcount hcode hcall.1
        exact ⟨run', tryCatch_ok.2 (Or.inr ⟨_, run, discard_error.2 herr, h⟩)⟩

/-! ## What the columns can hold -/

theorem storableText_of_safe {s : String}
    (h : s.toList ≠ [] ∧ ∀ c ∈ s.toList, isSafeChar c = true) : storableText s = true := by
  rw [storableText_iff]
  intro c hc h0
  have hsafe := h.2 c hc
  simp only [isSafeChar, isAlnum, isLower, isUpper, isDigit, isSeparator, Bool.or_eq_true,
    Bool.and_eq_true, decide_eq_true_eq, beq_iff_eq, h0] at hsafe
  rcases hsafe with (h | (rfl | rfl) | rfl) | rfl
  · omega
  all_goals cases h0

/-- The texts no constructor checks and the bounds of the nodes fit into their columns. -/
structure Fits (run : WorkflowRun) : Prop where
  record : (runToRecord run).Accepted
  nodes : ∀ n ∈ run.nodes, storableInt n.maxAttempts = true ∧
    ∀ s, n.resultSummary = some s → storableText s = true
  events : ∀ e ∈ run.events, storableText e.transitionId = true ∧
    ∀ s ∈ e.metadata.workflowCode.toList ++ e.metadata.workflowVersion.toList ++
      e.metadata.skipReason.toList, storableText s = true

theorem node_accepted {runId : UUID} (h : n.Storable) (hmax : storableInt n.maxAttempts = true)
    (hsummary : ∀ s, n.resultSummary = some s → storableText s = true) :
    (nodeToRecord runId n).Accepted := by
  have hsafe : ∀ s, isIdentifier s = true → storableText s = true ∧ notBlank s = true :=
    fun s hs => ⟨storableText_of_safe (isIdentifier_safe hs),
      notBlank_of_isBlank (isIdentifier_strip hs).1⟩
  obtain ⟨u, hu, -⟩ := h.created
  obtain ⟨t, ht, -⟩ := h.updated
  have hattempts : storableInt n.attemptCount = true := by
    have := h.attempts
    simp only [storableInt, Bool.and_eq_true, decide_eq_true_eq] at hmax ⊢
    omega
  refine ⟨?_, ?_, hmax, hattempts, h.maxAttempts, h.attempts, by simp [nodeToRecord, hu],
    by simp [nodeToRecord, ht]⟩
  · intro s hs
    simp only [nodeToRecord, List.mem_cons, List.not_mem_nil, or_false] at hs
    rcases hs with rfl | rfl
    · exact hsafe _ h.nodeId
    · exact hsafe _ h.capabilityCode
  · intro s hs
    simp only [nodeToRecord, List.mem_append, Option.mem_toList] at hs
    rcases hs with ((hs | hs) | hs) | hs
    · exact storableText_of_safe (isSafeReference_safe (h.reference s hs))
    · exact hsummary s hs
    · exact storableText_of_safe (isSafeReference_safe (h.fingerprint s hs :))
    · exact storableText_of_safe (isSafeError_safe (h.failureCode s hs))

theorem texts_accepted {m : EventMetadata} {ty : WorkflowEventType}
    (h : checkMetadata ty m = .ok ()) (hfits : ∀ s ∈ m.workflowCode.toList ++
      m.workflowVersion.toList ++ m.skipReason.toList, storableText s = true) :
    ∀ s ∈ (m.stored pg).texts, storableText s = true := by
  simp only [checkMetadata, except_bind_ok, exists_unit, require_ok, checkPresent_ok, identifier_ok,
    opaqueReference_ok, forEach_ok, checkReference_ok] at h
  obtain ⟨-, hnode, -, herror, href, hout, hmode⟩ := h
  have hsafe : ∀ s, isSafeReference (strip s) = true → storableText s = true := fun s hs =>
    storableText_of_strip (storableText_of_safe (isSafeReference_safe hs))
  have hid : ∀ s, isIdentifier (strip s) = true → storableText s = true := fun s hs =>
    storableText_of_strip (storableText_of_safe (isIdentifier_safe hs))
  intro s hs
  simp only [EventMetadata.texts, EventMetadata.stored, List.mem_append, Option.mem_toList,
    List.mem_flatMap, List.mem_cons, List.not_mem_nil, or_false] at hs hfits
  rcases hs with (((((((hs | hs) | hs) | hs) | hs) | hs) | hs) | hs)
  · exact hfits s (Or.inl (Or.inl hs))
  · exact hfits s (Or.inl (Or.inr hs))
  · obtain ⟨j, ⟨-, hj⟩, -⟩ := hnode s hs
    exact hid s (hj ▸ j.2)
  · exact storableText_of_safe (isSafeError_safe (herror s hs))
  · obtain ⟨_, ⟨-, hsafe', rfl⟩, -⟩ := href s hs
    exact hsafe s hsafe'
  · obtain ⟨p, hp, hs⟩ := hs
    cases hrefs : m.outputReferences with
    | none =>
      rw [hrefs] at hp
      cases hp
    | some o =>
      rw [hrefs] at hp
      obtain ⟨⟨-, hname⟩, -, href'⟩ := hout o hrefs p (pg.mem_jsonb.1 hp)
      rcases hs with rfl | rfl
      · exact hid _ hname
      · exact hsafe _ href'
  · exact hfits s (Or.inr hs)
  · have := hmode s hs
    simp only [List.mem_cons, List.not_mem_nil, or_false] at this
    rcases this with rfl | rfl <;> decide

/-- Every row of a run that fits passes its checks. -/
theorem rows_accepted (pg : Postgres) (hst : run.Storable) (hfits : Fits run) (hroom : run.events.length < 2 ^ 63) :
    (∀ x ∈ run.nodes.map (nodeToRecord run.id), x.Accepted) ∧
      ∀ x ∈ run.events.map (eventToRecord pg), x.Accepted := by
  constructor
  · intro x hx
    obtain ⟨n, hn, rfl⟩ := List.mem_map.1 hx
    exact node_accepted (hst.nodes n hn) (hfits.nodes n hn).1 (hfits.nodes n hn).2
  · intro x hx
    obtain ⟨e, he, rfl⟩ := List.mem_map.1 hx
    obtain ⟨hpos, hblank, hdata, -⟩ := checkEvent_ok.1 (hst.checked e he)
    have hseq : e.sequence ∈ List.range' 1 run.events.length :=
      hst.numbered ▸ List.mem_map_of_mem he
    refine ⟨(hfits.events e he).1, notBlank_of_isBlank hblank,
      texts_accepted hdata (hfits.events e he).2, ?_, hpos⟩
    rw [List.mem_range'_1] at hseq
    show storableInt e.sequence = true
    simp only [storableInt, Bool.and_eq_true, decide_eq_true_eq]
    omega

theorem fits_of_holds (h : Holds pg v rows run) : Fits run where
  record := h.stores.record ▸ h.accepted.run
  nodes n hn := by
    have hacc := h.accepted.nodes _ (h.stores.nodes.mem_iff.2 (List.mem_map_of_mem hn))
    refine ⟨hacc.2.2.1, fun s hs => hacc.2.1 s ?_⟩
    simp [nodeToRecord, hs]
  events e he := by
    have hacc := h.accepted.events _ (h.stores.events.mem_iff.2 (List.mem_map_of_mem he))
    refine ⟨hacc.1, fun s hs => hacc.2.2.1 s ?_⟩
    simp only [eventToRecord, EventMetadata.texts, EventMetadata.stored, List.mem_append] at hs ⊢
    tauto

/-- **A save of a run that fits commits.** -/
theorem save_of_fits {receipt : Option WorkflowCommandReceipt} (h : Holds pg v rows run)
    (hs : Step v run r run') (hfresh : FreshIds r.call.uuid4 rows) (hfits : Fits run')
    (hroom : run'.events.length < 2 ^ 63) (hreceipt : ∀ x ∈ receipt.toList, x.Accepted) :
    ∃ rows', save pg rows run' receipt = .ok rows' := by
  have hw := writes_of_execute hs
  have hev := evolves_of_writes h.instantiates.nodup hw
  have hst := storable_of_writes h.storable hw
  have hnodes := nodes_of_save h.stores h.accepted hev
  have hids := h.eventIds_step hs hfresh
  have hevents := events_of_save h.stores hev.events hids
  obtain ⟨haccN, haccE⟩ := rows_accepted pg hst hfits hroom
  refine ⟨_, commit_ok.2 ⟨?_, rfl⟩⟩
  have hrecord : updateRunRecord rows.run run' = runToRecord run' := by
    rw [h.stores.record]
    exact updateRunRecord_eq hev.constant
  exact {
    run := by
      show (updateRunRecord rows.run run').Accepted
      rw [hrecord]
      exact hfits.record
    nodes := fun x hx => haccN x (hnodes.mem_iff.1 hx)
    events := fun x hx => haccE x (hevents.mem_iff.1 hx)
    receipts := fun x hx => (List.mem_append.1 hx).elim (h.accepted.receipts x)
      fun hx => hreceipt x (List.mem_filter.1 hx).1
    nodePks := by
      rw [(hnodes.map WorkflowNodeRunRecord.id).nodup_iff, List.map_map]
      show (run'.nodes.map WorkflowNodeRun.id).Nodup
      rw [nodePks_of_evolves hev]
      exact h.stores.nodePks.nodup_iff.1 h.accepted.nodePks
    nodeIds := by
      rw [(hnodes.map WorkflowNodeRunRecord.nodeId).nodup_iff, List.map_map]
      show (run'.nodes.map WorkflowNodeRun.nodeId).Nodup
      rw [nodeIds_of_constant hev.nodes]
      exact h.instantiates.nodup
    eventPks := by
      rw [(hevents.map WorkflowEventRecord.id).nodup_iff, List.map_map]
      exact hids
    sequences := by
      rw [(hevents.map WorkflowEventRecord.sequence).nodup_iff, List.map_map]
      show (run'.events.map WorkflowEvent.sequence).Nodup
      rw [hst.numbered]
      exact List.nodup_range' ..
    transitions := by
      rw [(hevents.map WorkflowEventRecord.transitionId).nodup_iff, List.map_map]
      exact hst.transitions
    uniqueReceipts := by
      rw [List.nodup_append]
      refine ⟨h.accepted.uniqueReceipts, ?_, fun x hx y hy hxy => ?_⟩
      · cases receipt with
        | none => exact List.nodup_nil
        | some x => exact (List.nodup_singleton x).filter _
      · rw [List.mem_filter, decide_eq_true_eq] at hy
        exact hy.2 (hxy ▸ hx) }

/-! ## What an outcome leaves -/

theorem length_record_le {t : String} {ty : WorkflowEventType} {data : EventMetadata} :
    (run.record call t ty data).events.length ≤ run.events.length + 1 := by
  by_cases hlogged : run.hasTransition t
  · rw [record_of_logged hlogged]
    exact Nat.le_succ _
  · rw [record_of_fresh hlogged]
    simp

theorem length_refreshed_le : (run.refreshed call).events.length ≤ run.events.length + 1 := by
  unfold refreshed
  split_ifs
  · exact length_record_le
  all_goals exact Nat.le_succ _

/-- A command that records an outcome, with a text the column can hold. -/
def WorkflowCommand.Storable : WorkflowCommand → Prop
  | .succeedNode _ summary _ _ => storableText summary = true
  | .acceptNode .. | .failNode .. => True
  | _ => False

theorem storable_outcomeCommand (h : Recordable v i outcome) :
    (outcomeCommand v i outcome).Storable := by
  unfold outcomeCommand
  split
  · trivial
  · next outcome =>
    unfold Recordable at h
    dsimp only at h
    revert h
    cases outcome.status with
    | accepted | failed => exact fun _ => trivial
    | completed =>
      intro h
      dsimp only
      split_ifs with hout
      · exact (h hout).2.1
      · trivial

namespace Fits

variable {t suffix : String} {ty : WorkflowEventType} {data : EventMetadata} {s : WorkflowRunStatus}

theorem put (h : Fits run) (hn : storableInt n.maxAttempts = true ∧
    ∀ s, n.resultSummary = some s → storableText s = true) : Fits (run.put i n) where
  record := h.record
  nodes m hm := (mem_replace hm).elim (fun heq => heq ▸ hn) fun hm => h.nodes m hm.1
  events := h.events

theorem withStatus (h : Fits run) : Fits (run.withStatus s) := ⟨h.record, h.nodes, h.events⟩

theorem touched (h : Fits run) : Fits (run.touched call) :=
  ⟨⟨h.record.1, h.record.2.1, h.record.2.2.1, rfl⟩, h.nodes, h.events⟩

theorem logged (h : Fits run) (ht : storableText t = true) (hdata : ∀ s ∈ data.workflowCode.toList ++
    data.workflowVersion.toList ++ data.skipReason.toList, storableText s = true) :
    Fits (run.record call t ty data) := by
  by_cases hlogged : run.hasTransition t
  · rwa [record_of_logged hlogged]
  · rw [record_of_fresh hlogged]
    refine ⟨h.record, h.nodes, fun e he => ?_⟩
    rcases List.mem_append.1 he with he | he
    · exact h.events e he
    · rw [List.mem_singleton.1 he]
      exact ⟨ht, hdata⟩

theorem loggedNode (h : Fits run) (hid : storableText call.commandId = true)
    (hsuffix : storableText suffix = true)
    (hdata : (data.workflowCode, data.workflowVersion, data.skipReason) = (none, none, none)) :
    Fits (run.recordNode call suffix n ty data) := by
  obtain ⟨hcode, hversion, hreason⟩ : data.workflowCode = none ∧ data.workflowVersion = none ∧
    data.skipReason = none := by simpa using hdata
  apply h.logged (storableText_append.2 ⟨hid, hsuffix⟩)
  simp [hcode, hversion, hreason]

theorem refreshed (h : Fits run) (hid : storableText call.commandId = true) :
    Fits (run.refreshed call) := by
  unfold WorkflowRun.refreshed
  split_ifs
  · refine logged ⟨⟨h.record.1, fun s hs => ?_, h.record.2.2⟩, h.nodes, h.events⟩ hid nofun
    simp only [runToRecord, List.mem_append, Option.mem_toList] at hs
    rcases hs with hs | hs
    · cases hs
      decide
    · exact h.record.2.1 s (List.mem_append_right _ (Option.mem_toList.2 hs))
  · exact h.withStatus
  · exact h.withStatus
  · exact h

theorem failedWith {code : String} (h : Fits run) (hcode : storableText code = true)
    (hid : storableText call.commandId = true) : Fits (run.failedWith i code call) := by
  refine logged ⟨⟨h.record.1, fun s hs => ?_, h.record.2.2⟩, h.nodes, h.events⟩
    (storableText_append.2 ⟨hid, by decide⟩) nofun
  simp only [runToRecord, List.mem_append, Option.mem_toList] at hs
  rcases hs with hs | hs
  · exact h.record.2.1 s (List.mem_append_left _ (Option.mem_toList.2 hs))
  · cases hs
    exact hcode

/-- The record of an outcome fits, and takes at most two events. -/
theorem of_effect (he : Effect v call run c run') (hc : c.Storable)
    (hid : storableText call.commandId = true) (h : Fits run) :
    Fits run' ∧ run'.events.length ≤ run.events.length + 2 := by
  cases he with
  | start | reject | skip | cancelAgain | cancel | confirm => exact hc.elim
  | acceptLogged | succeedLogged => exact ⟨h, Nat.le_add_right _ 2⟩
  | accept _ hn hn' =>
    refine ⟨?_, length_record_le.trans (Nat.succ_le_succ length_record_le)⟩
    apply touched
    apply logged _ (storableText_append.2 ⟨hid, by decide⟩) (by simp)
    apply loggedNode _ hid (by decide) rfl
    apply withStatus
    apply h.put
    have hnode := h.nodes _ (mem_of_node? hn)
    obtain ⟨-, -, rfl⟩ | ⟨-, rfl, -⟩ := hn' <;> exact hnode
  | succeed hn =>
    refine ⟨?_, length_refreshed_le.trans (Nat.succ_le_succ length_record_le)⟩
    apply refreshed _ hid
    apply loggedNode _ hid (by decide) rfl
    apply h.put
    refine ⟨(h.nodes _ (mem_of_node? hn)).1, fun s hs => ?_⟩
    cases hs
    rw [storableText_iff]
    exact fun c hmem => storableText_iff.1 hc c (mem_of_mem_strip hmem)
  | succeedUnlogged =>
    refine ⟨?_, length_refreshed_le.trans (Nat.succ_le_succ length_record_le)⟩
    apply refreshed _ hid
    exact h.loggedNode hid (by decide) rfl
  | retry hn =>
    refine ⟨?_, length_record_le.trans (Nat.le_succ _)⟩
    apply touched
    apply loggedNode _ hid (by decide) rfl
    have hnode := h.nodes _ (mem_of_node? hn)
    exact h.put hnode
  | fail hn _ _ hcode =>
    refine ⟨?_, length_record_le.trans (Nat.succ_le_succ length_record_le)⟩
    apply touched
    apply failedWith _ (storableText_of_safe (isSafeError_safe hcode)) hid
    apply loggedNode _ hid (by decide) rfl
    have hnode := h.nodes _ (mem_of_node? hn)
    exact h.put hnode

end Fits

/-! ## Recording and saving -/

/-- The executor of an `execute_node` call is running, and its node was saved as running. -/
structure Underway (pg : Postgres) (v : WorkflowVersion) (s : Suspended) : Prop where
  version : s.version = v
  held : ∃ rows, Holds pg v rows s.run
  started : ¬s.run.status.Shut
  node : ∃ n, s.run.node? s.nodeId = some n ∧ n.status = .running ∧ 0 < n.attemptCount
  logged : s.run.hasTransition (s.commandId ++ ":start")

/-- The run in memory is the stored one, and the outcome can be recorded. -/
structure Current (pg : Postgres) (v : WorkflowVersion) (rows : WorkflowRows) (s : Suspended)
    (outcome : Option WorkflowNodeExecutionOutcome) (tick : Tick) : Prop where
  stores : Stores pg rows s.run
  recordable : Recordable v s.nodeId outcome
  now : tick.now.tzAware = true
  commandId : isBlank s.commandId = false
  room : s.run.events.length + 2 < 2 ^ 63

variable {s : Suspended} {tick : Tick} {w : World}

theorem Underway.holds (h : Underway pg v s) (hacc : rows.Accepted) (hst : Stores pg rows s.run) :
    Holds pg v rows s.run := by
  obtain ⟨_, h⟩ := h.held
  exact { stores := hst, accepted := hacc, storable := h.storable, instantiates := h.instantiates,
          code := h.code, version := h.version }

/-- **A current call records its outcome.** -/
theorem resume_ok (h : Underway pg v s) (hacc : w.rows.Accepted)
    (hcur : Current pg v w.rows s outcome tick) (hfresh : FreshIds tick.uuid4 w.rows) :
    ∃ view w', executeResume pg s outcome tick w = .ok view w' := by
  have hholds := h.holds hacc hcur.stores
  obtain ⟨n, hn, hr, hcount⟩ := h.node
  have hcall : (tick.call s.commandId).Valid := ⟨hcur.now, hcur.commandId⟩
  obtain ⟨run', hrun⟩ := step_recorded hholds.instantiates h.started hn hr hcount hcur.recordable
    hcall
  have hstep := step_of_recordOutcome hrun
  have hid : storableText s.commandId = true := by
    obtain ⟨e, he, ht⟩ := h.logged
    have := ((fits_of_holds hholds).events e he).1
    rw [ht] at this
    exact (storableText_append.1 this).1
  obtain ⟨hfits, hlen⟩ := Fits.of_effect (effect_of_execute hholds.instantiates hstep)
    (storable_outcomeCommand hcur.recordable) hid (fits_of_holds hholds)
  have hroom := hcur.room
  obtain ⟨rows', hsave⟩ : ∃ rows',
      save pg w.rows run' (some ⟨"execute-node", s.commandId⟩) = .ok rows' :=
    save_of_fits hholds hstep hfresh hfits (by omega) fun x hx => by
      cases Option.mem_toList.1 hx
      intro t ht
      simp only [List.mem_cons, List.not_mem_nil, or_false] at ht
      rcases ht with rfl | rfl
      · decide
      · exact ⟨hid, notBlank_of_isBlank hcur.commandId⟩
  exact ⟨_, _, saved_ok.2 ⟨run', rows', h.version ▸ hrun, hsave, rfl, rfl⟩⟩

end GoAgent.Workflow
