import GoAgent.Workflow.Interleaving
import GoAgent.Workflow.Rejection

/-!
# Executing a node

`execute_node` makes two transactions: the start of the node, and what its executor answers. The
second checks again, with rules of its own, what the constructor of the outcome has let through.
When a success report is refused there, `execute_node` reports a failure instead, on a run in which
the node has already succeeded; the failure is refused as well, the call raises, and the stored node
keeps running.

* `recordOutcome_iff` — which command an answer comes to;
* `outcome_iff` — the domain and the columns take an answer exactly if it is recordable, it does not
  end the run under a blank id, and the clock has a zone;
* `save_iff` — a save commits exactly if the run fits the columns and the receipt passes its checks;
* `execute_node_settles` — a call returns a view, leaves its node in another status than RUNNING and
  leaves a receipt exactly if it is `Executable`.
-/

namespace GoAgent.Workflow

open GoAgent.Foundation WorkflowRun WorkflowApplication

variable {pg : Postgres} {registry : WorkflowDefinitionRegistry} {v : WorkflowVersion}
  {run run' : WorkflowRun} {r : Request} {c : WorkflowCommand} {call : Call} {i : String}
  {n n' : WorkflowNodeRun} {rows rows' : WorkflowRows} {w w' : World}
  {outcome : Option WorkflowNodeExecutionOutcome} {receipt : Option WorkflowCommandReceipt}

/-! ## The inputs of a ready node -/

section

variable {V : Type} {values : InputValues V} {inputs : Option (Inputs V)} {d : Inputs V}

/-- The exceptions `execute_node` takes for bad inputs. -/
def InvalidInput (e : AppError) : Prop := ∃ message, e = .workflow (.validation message)

theorem raisesOnly_validateInputs {fields : List String} :
    RaisesOnly InvalidInput (validateInputs values fields inputs) := by
  cases inputs with
  | none => exact raisesOnly_error ⟨_, rfl⟩
  | some d =>
    exact raisesOnly_bind (raisesOnly_require ⟨_, rfl⟩) fun _ =>
      raisesOnly_bind (raisesOnly_require ⟨_, rfl⟩) fun _ =>
        raisesOnly_bind (raisesOnly_require ⟨_, rfl⟩) fun _ => raisesOnly_ok

theorem bindFields_returns {references : References} {fields : List String} (d : Inputs V)
    (h : ∀ f ∈ fields, f ∈ references.map Prod.fst) :
    ∃ d', bindFields values references fields d = .ok d' := by
  induction fields generalizing d with
  | nil => exact ⟨d, rfl⟩
  | cons f fields ih =>
    obtain ⟨p, hp⟩ := Option.isSome_iff_exists.1 (lookup_isSome_iff.2 (h f List.mem_cons_self))
    obtain ⟨d', hd'⟩ := ih (setItem d f (values.ofString p.2))
      fun g hg => h g (List.mem_cons_of_mem f hg)
    refine ⟨d', ?_⟩
    rw [bindFields, hp]
    exact hd'

/-- The references of a fed node are all there. -/
theorem bindEdges_returns {edges : List WorkflowEdgeDefinition} (d : Inputs V)
    (h : ∀ e ∈ edges, run.Bound e) : ∃ d', bindEdges values run edges d = .ok d' := by
  induction edges generalizing d with
  | nil => exact ⟨d, rfl⟩
  | cons e edges ih =>
    obtain ⟨d₁, hd₁⟩ : ∃ d₁, bindFields values _ _ d = .ok d₁ :=
      bindFields_returns d (h e List.mem_cons_self)
    obtain ⟨d', hd'⟩ := ih d₁ fun g hg => h g (List.mem_cons_of_mem e hg)
    refine ⟨d', ?_⟩
    rw [bindEdges, hd₁]
    exact hd'

/-- The inputs of a ready node pass or are refused. -/
theorem raisesOnly_buildNodeInputs (hv : Instantiates v run.nodes) (hready : run.Ready v i) :
    RaisesOnly InvalidInput (buildNodeInputs values run v i inputs) := by
  obtain ⟨n, hn, -, hfed⟩ := (ready_iff hv).1 hready
  obtain ⟨m, hm, hfixed⟩ := hv.definition (mem_of_node? hn)
  have hnode : v.node i = .ok m :=
    v.node_ok.2 ⟨hm, (congrArg Prod.fst hfixed).trans (nodeId_of_node? hn)⟩
  have hmem : i ∈ v.nodeIds := by
    rw [← nodeId_of_node? hn]
    exact hv.mem_nodeIds.1 (List.mem_map_of_mem (mem_of_node? hn))
  unfold buildNodeInputs
  rw [hnode, v.incomingEdges_of_mem hmem]
  apply raisesOnly_bind raisesOnly_validateInputs
  intro supplied
  have hbound (e : WorkflowEdgeDefinition)
      (he : e ∈ v.edges.filter fun e => e.targetNodeId.1 = i) : run.Bound e := by
    obtain ⟨he, ht⟩ := List.mem_filter.1 he
    exact (hfed e he (of_decide_eq_true ht)).2
  obtain ⟨merged, hmerged⟩ : ∃ merged, bindEdges values run _ supplied = .ok merged :=
    bindEdges_returns supplied hbound
  rw [hmerged, ok_bind]
  exact raisesOnly_validateInputs

end

/-! ## What the domain accepts -/

theorem start_iff (hv : Instantiates v run.nodes) (hready : run.Ready v i)
    (hleft : ∀ n ∈ run.nodes, n.status = .queued → n.attemptCount < n.maxAttempts) :
    (∃ run', Step v run ⟨.startNode i, call⟩ run') ↔
      ¬run.status.Shut ∧ call.now.tzAware = true := by
  constructor
  · rintro ⟨run', hs⟩
    obtain ⟨e, hs⟩ := discard_ok.1 hs
    obtain ⟨hopen, -, n, -, -, -, he, -⟩ := startNode_ok.1 hs
    exact ⟨hopen, WorkflowNodeRun.tzAware_of_nodeEvent he⟩
  · rintro ⟨hopen, hnow⟩
    exact start_of_attempt hv hopen hready hleft hnow

theorem reject_iff (hv : Instantiates v run.nodes) (hn : run.node? i = some n)
    (hq : n.status = .queued) :
    (∃ run', Step v run ⟨.rejectNodeInput i "INPUT_INVALID", call⟩ run') ↔
      ¬run.status.Shut ∧ call.now.tzAware = true := by
  have hcode : isSafeError (strip "INPUT_INVALID") = true := by decide
  constructor
  · rintro ⟨run', hs⟩
    obtain ⟨e, hs⟩ := discard_ok.1 hs
    simp only [rejectNodeInput, bind_ok, get_ok, check_ok, onNode_ok] at hs
    obtain ⟨_, _, ⟨rfl, rfl⟩, _, _, ⟨hopen, rfl⟩, _, _, ⟨m, m', -, hrej, -⟩, -⟩ := hs
    obtain ⟨-, -, -, -, he⟩ := WorkflowNodeRun.rejectInput_ok.1 hrej
    exact ⟨hopen, WorkflowNodeRun.tzAware_of_nodeEvent he⟩
  · rintro ⟨hopen, hnow⟩
    set n' := n.rejectedWith (strip "INPUT_INVALID") call.now with hn'
    obtain ⟨e, he⟩ := nodeEvent_accepted hv hn n' rfl ":reject-input" .nodeInputRejected
      { errorCode := some (strip "INPUT_INVALID") } (fun hid => by
        simp only [checkMetadata, EventMetadata.keys, eventMetadataFields]
        simpa [hcode] using hid) (by decide) hnow
    have hnode : onNode i (WorkflowNodeRun.rejectInput "INPUT_INVALID"
        (run.occasion call ":reject-input")) run = .ok e (run.put i n') :=
      onNode_ok.2 ⟨n, n', hn, WorkflowNodeRun.rejectInput_ok.2 ⟨hq, by decide, hcode, hn', he⟩, rfl⟩
    have hself : (run.put i n').node? i = some n' := node?_put_self hn (nodeId_of_node? hn :)
    suffices h : ∃ run', rejectNodeInput i "INPUT_INVALID" call run = .ok e run' by
      obtain ⟨run', h⟩ := h
      exact ⟨run', discard_ok.2 ⟨e, h⟩⟩
    simp only [rejectNodeInput, bind_ok, get_ok, check_ok, exists_unit, exists_eq_left,
      exists_and_left, and_assoc]
    exact ⟨hopen, _, e, _, hnode, _, (appendExisting_ok he).2 rfl, _,
      failWith_of_code hself (hv.isIdentifier (mem_of_node? hn) :) rfl hcode hnow, _,
      touch_ok.2 ⟨hnow, rfl⟩, pure_ok.2 ⟨rfl, rfl⟩⟩

theorem fail_iff (code : String) (retryable : Bool) (hv : Instantiates v run.nodes)
    (hn : run.node? i = some n) (hact : n.status.Active) (hcount : 0 < n.attemptCount) :
    (∃ run', Step v run ⟨.failNode i code retryable, call⟩ run') ↔
      isSafeError (strip code) = true ∧ call.now.tzAware = true := by
  constructor
  · rintro ⟨run', hs⟩
    obtain ⟨e, hs⟩ := discard_ok.1 hs
    simp only [WorkflowRun.failNode, bind_ok, get_ok, onNode_ok] at hs
    obtain ⟨_, _, ⟨rfl, rfl⟩, _, _, ⟨m, m', -, hfail, -⟩, -⟩ := hs
    obtain ⟨-, -, hcode, -, he⟩ := WorkflowNodeRun.fail_ok.1 hfail
    exact ⟨hcode, WorkflowNodeRun.tzAware_of_nodeEvent he⟩
  · rintro ⟨hcode, hnow⟩
    exact fail_of_attempted hv hn hact hcount hcode hnow

theorem accept_iff {reference : String} (hv : Instantiates v run.nodes)
    (hopen : ¬run.status.Shut) (hn : run.node? i = some n) (hr : n.status = .running)
    (hcount : 0 < n.attemptCount) :
    (∃ run', Step v run ⟨.acceptNode i reference, call⟩ run') ↔
      isSafeReference (strip reference) = true ∧ call.now.tzAware = true := by
  constructor
  · rintro ⟨run', hs⟩
    obtain ⟨e, hs⟩ := discard_ok.1 hs
    simp only [acceptNode, bind_ok, get_ok, check_ok, lift_ok, onNode_ok] at hs
    obtain ⟨_, _, ⟨rfl, rfl⟩, _, _, ⟨-, rfl⟩, _, _, ⟨-, rfl⟩, _, _, ⟨m, m', -, hacc, -⟩, -⟩ := hs
    rcases WorkflowNodeRun.accept_ok.1 hacc with ⟨-, -, hsafe, -, -, he⟩ | ⟨-, -, hsafe, -, he⟩ <;>
      exact ⟨hsafe, WorkflowNodeRun.tzAware_of_nodeEvent he⟩
  · rintro ⟨hsafe, hnow⟩
    exact accept_of_attempted hv hopen hn hr hcount hsafe hnow

section

variable {summary : String} {fp : Option String} {outputs : References}

/-- With accepted outputs, a success report of a node at work is accepted or leaves its traces. -/
theorem succeed_iff_leaves (hn : run.node? i = some n) (hact : n.status.Active)
    (hout : acceptsOutputs v i outputs) :
    (∃ run', Step v run ⟨.succeedNode i summary fp outputs, call⟩ run') ↔
      Leaves run (succeedNode v i summary fp outputs call) run := by
  constructor
  · rintro ⟨run', hs⟩
    obtain ⟨e, hs⟩ := discard_ok.1 hs
    exact leaves_of_ok hs
  · intro h
    cases hs : succeedNode v i summary fp outputs call run with
    | ok e run' => exact ⟨run', discard_ok.2 ⟨e, hs⟩⟩
    | error e run' =>
      have heq := h e run' hs
      rw [heq] at hs
      exact absurd hout (succeedNode_error hs hn hact).2

theorem succeed_iff (hv : Instantiates v run.nodes) (hn : run.node? i = some n)
    (hact : n.status.Active) (hcount : 0 < n.attemptCount) (hout : acceptsOutputs v i outputs) :
    (∃ run', Step v run ⟨.succeedNode i summary fp outputs, call⟩ run') ↔
      (isBlank summary = false ∧ (fingerprint fp "输出指纹").isOk = true) ∧
        ¬(Others run i WorkflowNodeStatus.Complete ∧ BlankId run call) ∧
        call.now.tzAware = true := by
  have hbegun (m : WorkflowNodeRun) (hm : run.node? i = some m) (_ : m.status.Begun) :
      0 < m.attemptCount := Option.some.inj (hn.symm.trans hm) ▸ hcount
  have hbad : WorkflowNodeRun.BadFingerprint fp ↔ ¬(fingerprint fp "输出指纹").isOk = true := by
    unfold WorkflowNodeRun.BadFingerprint
    cases fingerprint fp "输出指纹" with
    | ok fp' => exact iff_of_false (fun h => h fp' rfl) (not_not.2 rfl)
    | error e => exact iff_of_true (fun fp' h => by cases h) (fun h => by cases h)
  have hrest : ¬RepeatsUnlogged run i summary fp outputs n :=
    fun h => not_succeeded_of_active hact h.1
  rw [succeed_iff_leaves hn hact hout, succeedNode_leaves hv hbegun]
  simp only [SpoilsSucceed, hn, Option.some.injEq, exists_eq_left', hout, hact, hrest, hbad,
    true_and, false_and, or_false, not_or, Bool.not_eq_true, Bool.not_eq_false]
  tauto

end

/-- Recording an outcome and running its command come to the same. -/
theorem recordOutcome_iff (hv : Instantiates v run.nodes) (hn : run.node? i = some n) :
    recordOutcome v i outcome call run = .ok () run' ↔
      Step v run ⟨outcomeCommand v i outcome, call⟩ run' := by
  constructor
  · exact step_of_recordOutcome
  · intro hs
    cases outcome with
    | none => exact hs
    | some outcome =>
      unfold recordOutcome
      unfold outcomeCommand at hs
      dsimp only at hs ⊢
      revert hs
      cases outcome.status with
      | accepted | failed => exact fun hs => hs
      | completed =>
        dsimp only
        intro hs
        by_cases hout : acceptsOutputs v i outcome.outputReferences
        · rw [if_pos hout] at hs
          exact tryCatch_ok.2 (Or.inl hs)
        · rw [if_neg hout] at hs
          obtain ⟨message, herr⟩ := succeedNode_refused call hv hn hout
          exact tryCatch_ok.2 (Or.inr ⟨_, run, discard_error.2 herr, hs⟩)

/-- The outcome ends the run under a command id that is blank. -/
def EndsBlank (v : WorkflowVersion) (run : WorkflowRun) (nodeId : String)
    (outcome : Option WorkflowNodeExecutionOutcome) (call : Call) : Prop :=
  (∃ o, outcome = some o ∧ o.status = .completed ∧ acceptsOutputs v nodeId o.outputReferences) ∧
    Others run nodeId WorkflowNodeStatus.Complete ∧ BlankId run call

/-- The column can hold the summary, where it is recorded. -/
def StorableSummary (v : WorkflowVersion) (nodeId : String)
    (outcome : Option WorkflowNodeExecutionOutcome) : Prop :=
  ∀ o, outcome = some o → o.status = .completed → acceptsOutputs v nodeId o.outputReferences →
    storableText (orElse o.resultSummary "节点已完成。") = true

/-- An outcome is recordable if the domain accepts it and the column can hold its summary. -/
theorem outcome_iff (hv : Instantiates v run.nodes) (hopen : ¬run.status.Shut)
    (hn : run.node? i = some n) (hr : n.status = .running) (hcount : 0 < n.attemptCount) :
    (∃ run', recordOutcome v i outcome call run = .ok () run') ∧ StorableSummary v i outcome ↔
      Recordable v i outcome ∧ ¬EndsBlank v run i outcome call ∧ call.now.tzAware = true := by
  have hact : n.status.Active := Or.inl hr
  simp only [recordOutcome_iff hv hn]
  cases outcome with
  | none =>
    have hcode : isSafeError (strip "EXECUTOR_UNAVAILABLE") = true := by decide
    have hstep : (∃ run', Step v run ⟨outcomeCommand v i none, call⟩ run') ↔ _ :=
      fail_iff "EXECUTOR_UNAVAILABLE" true hv hn hact hcount
    rw [hstep]
    simp [StorableSummary, Recordable, EndsBlank, hcode]
  | some o =>
    cases hs : o.status with
    | accepted =>
      simp only [outcomeCommand, hs, accept_iff hv hopen hn hr hcount]
      simp [StorableSummary, Recordable, EndsBlank, hs]
    | failed =>
      simp only [outcomeCommand, hs, fail_iff _ _ hv hn hact hcount]
      simp [StorableSummary, Recordable, EndsBlank, hs]
    | completed =>
      by_cases hout : acceptsOutputs v i o.outputReferences
      · simp only [outcomeCommand, hs, if_pos hout, succeed_iff hv hn hact hcount hout]
        simp [StorableSummary, Recordable, EndsBlank, hs, hout]
        tauto
      · have hcode : isSafeError (strip "OUTPUT_INVALID") = true := by decide
        simp only [outcomeCommand, hs, if_neg hout, fail_iff _ _ hv hn hact hcount]
        simp [StorableSummary, Recordable, EndsBlank, hs, hout, hcode]

/-! ## What the columns accept -/

/-- The log of a stored run ends before the largest sequence number. -/
theorem length_of_holds (h : Holds pg v rows run) : run.events.length < 2 ^ 63 := by
  by_contra hlong
  have hlast : run.events.length ∈ run.events.map WorkflowEvent.sequence := by
    rw [h.storable.numbered, List.mem_range'_1]
    omega
  obtain ⟨e, he, hseq⟩ := List.mem_map.1 hlast
  have hacc := (h.accepted.events _ (h.stores.events.mem_iff.2 (List.mem_map_of_mem he))).2.2.2.1
  simp only [eventToRecord, hseq, storableInt, Bool.and_eq_true, decide_eq_true_eq] at hacc
  omega

/-- **A save commits exactly if the run fits and the receipt passes its checks.** -/
theorem save_iff (h : Holds pg v rows run) (hs : Step v run r run')
    (hfresh : FreshIds r.call.uuid4 rows) (hnew : ∀ x ∈ receipt.toList, x ∉ rows.receipts) :
    (∃ rows', save pg rows run' receipt = .ok rows') ↔
      Fits run' ∧ run'.events.length < 2 ^ 63 ∧ ∀ x ∈ receipt.toList, x.Accepted := by
  constructor
  · rintro ⟨rows', hsave⟩
    obtain ⟨hafter, -, hreceipts⟩ := h.save hs hfresh hsave
    refine ⟨fits_of_holds hafter, length_of_holds hafter, ?_⟩
    intro x hx
    apply hafter.accepted.receipts
    rw [hreceipts, List.mem_append, List.mem_filter]
    exact Or.inr ⟨hx, decide_eq_true (hnew x hx)⟩
  · rintro ⟨hfits, hroom, hreceipt⟩
    exact save_of_fits h hs hfresh hfits hroom hreceipt

/-! ### The length of the log -/

/-- How many of the transitions a command logs are not in the log yet. -/
def WorkflowRun.added (run : WorkflowRun) (commandId : String) (suffixes : List String) : Nat :=
  suffixes.countP fun s => ¬run.hasTransition (commandId ++ s)

/-- The transitions of a start. -/
def WorkflowRun.startSuffixes (run : WorkflowRun) : List String :=
  if run.status = .queued then [":run-start", ":start"] else [":start"]

instance {P : WorkflowNodeStatus → Prop} [DecidablePred P] : Decidable (Others run i P) := by
  unfold Others; infer_instance

/-- The transitions of a report on a running node, which is queued again where it `retries`. -/
def WorkflowRun.reportSuffixes (run : WorkflowRun) (nodeId : String) (retries : Bool → Bool) :
    WorkflowCommand → List String
  | .succeedNode .. =>
    if Others run nodeId WorkflowNodeStatus.Complete then [":succeed", ""] else [":succeed"]
  | .acceptNode .. => [":accept", ":run-accepted"]
  | .failNode _ _ retryable => if retries retryable then [":fail"] else [":fail", ":run-failed"]
  | _ => []

/-- The transitions of a refused input. -/
def rejectSuffixes : List String := [":reject-input", ":run-failed"]

theorem length_record {t : String} {ty : WorkflowEventType} {m : EventMetadata} :
    (run.record call t ty m).events.length =
      run.events.length + if run.hasTransition t then 0 else 1 := by
  by_cases hlogged : run.hasTransition t
  · rw [record_of_logged hlogged, if_pos hlogged, Nat.add_zero]
  · rw [record_of_fresh hlogged, if_neg hlogged, List.length_append, List.length_singleton]

theorem added_cons {commandId s : String} {suffixes : List String} :
    run.added commandId (s :: suffixes) =
      (if run.hasTransition (commandId ++ s) then 0 else 1) + run.added commandId suffixes := by
  unfold added
  rw [List.countP_cons, Nat.add_comm]
  by_cases h : run.hasTransition (commandId ++ s) <;> simp [h]

theorem added_nil {commandId : String} : run.added commandId [] = 0 := rfl

theorem added_append {commandId : String} {ss ts : List String} :
    run.added commandId (ss ++ ts) = run.added commandId ss + run.added commandId ts :=
  List.countP_append

theorem hasTransition_append {commandId s t : String} {ty : WorkflowEventType} {m : EventMetadata} :
    (run.record call (commandId ++ s) ty m).hasTransition (commandId ++ t) ↔
      run.hasTransition (commandId ++ t) ∨ t = s := by
  rw [hasTransition_record, String.append_right_inj]

theorem length_recordNode {suffix : String} {ty : WorkflowEventType} {m : EventMetadata} :
    (run.recordNode call suffix n ty m).events.length =
      run.events.length + if run.hasTransition (call.commandId ++ suffix) then 0 else 1 :=
  length_record

theorem length_failedWith {code : String} : (run.failedWith i code call).events.length =
    run.events.length + if run.hasTransition (call.commandId ++ ":run-failed") then 0 else 1 :=
  length_record

/-- The log after the start of a node. -/
theorem log_of_start (hv : Instantiates v run.nodes) (hs : Step v run ⟨.startNode i, call⟩ run') :
    run'.events.length = run.events.length + run.added call.commandId run.startSuffixes ∧
      ∀ s, s ≠ ":run-start" → s ≠ ":start" →
        (run'.hasTransition (call.commandId ++ s) ↔ run.hasTransition (call.commandId ++ s)) := by
  cases effect_of_execute hv hs with
  | @start _ n _ hopen _ _ hn =>
    have hput (t : String) : (run.put i (n.started call.now)).hasTransition t ↔
        run.hasTransition t := Iff.rfl
    have hstatus (t : String) : ((run.put i (n.started call.now)).withStatus
        .running).hasTransition t ↔ run.hasTransition t := Iff.rfl
    have htouched (r : WorkflowRun) (t : String) :
        (r.touched call).hasTransition t ↔ r.hasTransition t := Iff.rfl
    constructor
    · rw [touched_events, length_recordNode]
      by_cases hq : run.status = .queued
      · have hq' : (run.put i (n.started call.now)).status = .queued := hq
        simp only [startSuffixes, begun, if_pos hq, if_pos hq', length_record, added_cons, added_nil,
          hasTransition_append, hstatus, withStatus_events, put_events, String.reduceEq,
          or_false]
        omega
      · have hq' : (run.put i (n.started call.now)).status ≠ .queued := hq
        simp only [startSuffixes, begun, if_neg hq, if_neg hq', added_cons, added_nil, hput,
          put_events]
        omega
    · intro s hne hne'
      rw [htouched, recordNode, hasTransition_append, or_iff_left hne']
      unfold begun
      split_ifs
      · rw [hasTransition_append, or_iff_left hne, hstatus]
      · exact hput _

theorem length_refreshed : (run.refreshed call).events.length = run.events.length +
    if ∀ n ∈ run.nodes, n.status.Complete then
      if run.hasTransition call.commandId then 0 else 1
    else 0 := by
  unfold refreshed
  by_cases hall : ∀ n ∈ run.nodes, n.status.Complete
  · rw [if_pos hall, if_pos hall]
    exact length_record
  · rw [if_neg hall, if_neg hall]
    split_ifs <;> rfl

/-- The log after a report on a running node. -/
theorem length_of_report (hv : Instantiates v run.nodes) (hs : Step v run ⟨c, call⟩ run')
    (hc : c.ReportsOn i) (hn : run.node? i = some n) (hr : n.status = .running) :
    run'.events.length = run.events.length + run.added call.commandId
      (run.reportSuffixes i (fun retryable => decide (n.Retries retryable)) c) := by
  have hsame {m : WorkflowNodeRun} (hm : run.node? i = some m) : m = n :=
    Option.some.inj (hm.symm.trans hn)
  have hput (n' : WorkflowNodeRun) (t : String) : (run.put i n').hasTransition t ↔
      run.hasTransition t := Iff.rfl
  have hstatus (n' : WorkflowNodeRun) (t : String) : ((run.put i n').withStatus
      .accepted).hasTransition t ↔ run.hasTransition t := Iff.rfl
  cases effect_of_execute hv hs with
  | start | reject | skip | cancelAgain | cancel | confirm => exact hc.elim
  | acceptLogged _ hm hst | succeedLogged hm hst | succeedUnlogged hm hst =>
    cases hc
    rw [hsame hm, hr] at hst
    cases hst
  | accept _ hm =>
    cases hc
    simp only [touched_events, reportSuffixes, length_record, added_cons, added_nil, recordNode,
      hasTransition_append, hstatus, withStatus_events, put_events,
      String.reduceEq, or_false]
    omega
  | @succeed _ summary _ fp' _ m _ hm =>
    cases hc
    have hall : (∀ x ∈ (run.put i (m.succeededWith (strip summary) fp' call.now)).nodes,
        x.status.Complete) ↔ Others run i WorkflowNodeStatus.Complete := forall_put (Or.inl rfl)
    have hid (r : WorkflowRun) : r.hasTransition (call.commandId ++ "") ↔
        r.hasTransition call.commandId := by rw [String.append_empty]
    simp only [length_refreshed, reportSuffixes, length_recordNode, recordNode_nodes, hall, hput,
      put_events]
    by_cases hothers : Others run i WorkflowNodeStatus.Complete
    · simp only [if_pos hothers, added_cons, added_nil, recordNode, ← hid, hasTransition_append,
        hput, String.reduceEq, or_false]
      omega
    · simp only [if_neg hothers, added_cons, added_nil]
      omega
  | retry hm _ hretry =>
    cases hc
    rw [hsame hm] at hretry
    simp only [touched_events, reportSuffixes, length_recordNode, added_cons, added_nil, hput,
      put_events, hretry, decide_true, if_true]
    omega
  | fail hm _ hretry =>
    cases hc
    rw [hsame hm] at hretry
    simp only [touched_events, reportSuffixes, length_failedWith, recordNode, hasTransition_append,
      hput, added_cons, added_nil, hretry, decide_false, Bool.false_eq_true, if_false,
      String.reduceEq, or_false]
    rw [length_record]
    simp only [hput, put_events]
    omega

theorem length_of_reject {code : String} (hv : Instantiates v run.nodes)
    (hs : Step v run ⟨.rejectNodeInput i code, call⟩ run') :
    run'.events.length = run.events.length + run.added call.commandId rejectSuffixes := by
  cases effect_of_execute hv hs with
  | @reject _ _ n =>
    have hput (n' : WorkflowNodeRun) (t : String) : (run.put i n').hasTransition t ↔
        run.hasTransition t := Iff.rfl
    simp only [touched_events, rejectSuffixes, length_failedWith, recordNode, hasTransition_append,
      hput, added_cons, added_nil, String.reduceEq, or_false]
    rw [length_record]
    simp only [hput, put_events]
    omega

/-! ### The texts -/

/-- A command that logs a transition under its id needs an id that can be stored. -/
theorem storable_of_logged {commandId s : String} (h : Fits run)
    (hlogged : run.hasTransition (commandId ++ s)) : storableText commandId = true := by
  obtain ⟨e, he, ht⟩ := hlogged
  have hstored := (h.events e he).1
  rw [ht] at hstored
  exact (storableText_append.1 hstored).1

theorem fits_start_iff (hv : Instantiates v run.nodes) (hfits : Fits run)
    (hs : Step v run ⟨.startNode i, call⟩ run') :
    Fits run' ↔ storableText call.commandId = true := by
  cases effect_of_execute hv hs with
  | @start _ n _ _ _ _ hn =>
    constructor
    · intro h
      exact storable_of_logged h (s := ":start") (hasTransition_record.2 (Or.inr rfl))
    · intro hid
      apply Fits.touched
      apply Fits.loggedNode _ hid (by decide) rfl
      have hput : Fits (run.put i (n.started call.now)) := hfits.put (hfits.nodes n (mem_of_node? hn) :)
      unfold begun
      split_ifs
      · exact hput.withStatus.logged (storableText_append.2 ⟨hid, by decide⟩) (by simp)
      · exact hput

theorem fits_reject_iff {code : String} (hv : Instantiates v run.nodes) (hfits : Fits run)
    (hs : Step v run ⟨.rejectNodeInput i code, call⟩ run') :
    Fits run' ↔ storableText call.commandId = true := by
  cases effect_of_execute hv hs with
  | @reject _ _ n _ hn _ hcode =>
    constructor
    · intro h
      exact storable_of_logged h (s := ":run-failed") (hasTransition_record.2 (Or.inr rfl))
    · intro hid
      apply Fits.touched
      apply Fits.failedWith _ (storableText_of_safe (isSafeError_safe hcode)) hid
      apply Fits.loggedNode _ hid (by decide) rfl
      exact hfits.put (hfits.nodes n (mem_of_node? hn) :)

theorem storable_outcomeCommand_iff :
    (outcomeCommand v i outcome).Storable ↔ StorableSummary v i outcome := by
  cases outcome with
  | none => simp [outcomeCommand, WorkflowCommand.Storable, StorableSummary]
  | some o =>
    cases hs : o.status with
    | accepted | failed => simp [outcomeCommand, WorkflowCommand.Storable, StorableSummary, hs]
    | completed =>
      by_cases hout : acceptsOutputs v i o.outputReferences <;>
        simp [outcomeCommand, WorkflowCommand.Storable, StorableSummary, hs, hout]

theorem fits_report_iff (hv : Instantiates v run.nodes) (hfits : Fits run)
    (hs : Step v run ⟨c, call⟩ run') (hc : c.ReportsOn i) (hn : run.node? i = some n)
    (hr : n.status = .running) (hid : storableText call.commandId = true) :
    Fits run' ↔ c.Storable := by
  have he := effect_of_execute hv hs
  refine ⟨?_, fun hc => (Fits.of_effect he hc hid hfits).1⟩
  intro h
  cases he with
  | start | reject | skip | cancelAgain | cancel | confirm => exact hc.elim
  | acceptLogged | accept | retry | fail => trivial
  | succeedLogged hm hst | succeedUnlogged hm hst =>
    cases hc
    rw [Option.some.inj (hm.symm.trans hn), hr] at hst
    cases hst
  | @succeed j summary _ fp' _ m _ hm =>
    have hmem : m.succeededWith (strip summary) fp' call.now ∈
        (run.put j (m.succeededWith (strip summary) fp' call.now)).nodes :=
      mem_of_node? (node?_put_self hm (nodeId_of_node? hm :))
    have hnodes := h.nodes
    simp only [refreshed_nodes, recordNode_nodes] at hnodes
    exact storableText_of_strip ((hnodes _ hmem).2 _ rfl)

/-! ## The call -/

section

variable {V : Type} {values : InputValues V} {inputs : Option (Inputs V)}
  {principal : RequestPrincipal} {commandId : String} {started finished : Tick}
  {view : WorkflowRunView}

/-- The owner asks for a ready node under an id not used for this before. -/
structure Callable (pg : Postgres) (registry : WorkflowDefinitionRegistry) (v : WorkflowVersion)
    (w : World) (run : WorkflowRun) (principal : RequestPrincipal) (nodeId commandId : String) :
    Prop where
  load : loadRun pg w.rows = .ok run
  version : registered registry run = .ok v
  owner : Owned principal run
  ready : run.Ready v nodeId
  fresh : ¬hasProcessedCommand w.rows "execute-node" commandId

/-- What a call does that gets as far as its inputs. -/
theorem Callable.executeBegin_iff {x : WorkflowRunView ⊕ Suspended}
    (h : Callable pg registry v w run principal i commandId) (hv : Instantiates v run.nodes) :
    executeBegin pg registry values principal i inputs commandId started w = .ok x w' ↔
      Refused values v run i inputs ∧ (∃ view, x = .inl view ∧
        saved pg "execute-node" commandId run
          (discard (rejectNodeInput i "INPUT_INVALID" (started.call commandId))) w =
            .ok view w') ∨
      ¬Refused values v run i inputs ∧ ∃ run' rows',
        Step v run ⟨.startNode i, started.call commandId⟩ run' ∧
          save pg w.rows run' none = .ok rows' ∧ x = .inr ⟨run', v, i, commandId⟩ ∧
          w' = { rows := rows', executions := w.executions ++ [i] } := by
  obtain ⟨subject, hsub, howner⟩ : ∃ subject, requirePrincipal principal = .ok subject ∧
      run.ownerSubject = strip subject := by
    have howner := h.owner
    unfold Owned at howner
    split at howner
    · exact ⟨_, ‹_›, howner⟩
    · exact howner.elim
  obtain ⟨n, hn, -⟩ := (ready_iff hv).1 h.ready
  obtain ⟨m, hm, hfixed⟩ := hv.definition (mem_of_node? hn)
  have hnode : raised (v.node i) = .ok m := by
    rw [v.node_ok.2 ⟨hm, (congrArg Prod.fst hfixed).trans (nodeId_of_node? hn)⟩]
    rfl
  obtain ⟨ready, hready, hmem⟩ := h.ready
  have hraised : raised (run.readyNodes v) = .ok ready := by
    rw [hready]
    rfl
  have hnew : ¬decide (hasProcessedCommand w.rows "execute-node" commandId) = true := by
    simpa using h.fresh
  unfold executeBegin
  rw [bind_of_ok (lift_ok.2 ⟨hsub, rfl⟩), bind_of_ok (getForUpdate_ok.2 ⟨h.load, howner, rfl⟩),
    bind_of_ok (processed_ok.2 ⟨rfl, rfl⟩), if_neg hnew, bind_of_ok (lift_ok.2 ⟨h.version, rfl⟩),
    bind_of_ok (lift_ok.2 ⟨hraised, rfl⟩), bind_of_ok (a := ()) (check_ok.2 ⟨hmem, rfl⟩),
    bind_of_ok (lift_ok.2 ⟨hnode, rfl⟩)]
  unfold Refused
  cases hb : buildNodeInputs values run v i inputs with
  | ok d =>
    simp only [bind_ok, lift_ok, perform_ok, saveRun_ok, modify_ok, pure_ok, false_and, false_or,
      not_false_eq_true, true_and]
    constructor
    · rintro ⟨run', _, ⟨hstart, rfl⟩, _, _, ⟨rows', hrows, rfl⟩, _, _, rfl, rfl, rfl⟩
      exact ⟨run', rows', hstart, hrows, rfl, rfl⟩
    · rintro ⟨run', rows', hstart, hrows, rfl, rfl⟩
      exact ⟨run', _, ⟨hstart, rfl⟩, (), _, ⟨rows', hrows, rfl⟩, (), _, rfl, rfl, rfl⟩
  | error e =>
    obtain ⟨message, rfl⟩ := raisesOnly_buildNodeInputs hv h.ready e hb
    simp only [bind_ok, pure_ok, true_and, not_true_eq_false, false_and, or_false]
    constructor
    · rintro ⟨view, _, hsaved, rfl, rfl⟩
      exact ⟨view, rfl, hsaved⟩
    · rintro ⟨view, rfl, hsaved⟩
      exact ⟨view, w', hsaved, rfl, rfl⟩

/-- The call returns a view of the stored run, in which the node has left its status RUNNING, and
leaves its receipt. -/
def Settles (pg : Postgres) (registry : WorkflowDefinitionRegistry) (values : InputValues V)
    (w : World) (principal : RequestPrincipal) (nodeId : String) (inputs : Option (Inputs V))
    (commandId : String) (outcome : Option WorkflowNodeExecutionOutcome)
    (started finished : Tick) : Prop :=
  ∃ view w' run', executeNode pg registry values principal nodeId inputs commandId outcome started
      finished w = .ok view w' ∧
    Stores pg w'.rows run' ∧ view = .fromRun run' ∧
    (∃ n, run'.node? nodeId = some n ∧ n.status ≠ .running) ∧
    hasProcessedCommand w'.rows "execute-node" commandId

/-- The log has room for what it lacks of these transitions. -/
def Room (run : WorkflowRun) (commandId : String) (suffixes : List String) : Prop :=
  run.events.length + run.added commandId suffixes < 2 ^ 63

/-- A failed node is queued again after the start. -/
def retriesAfterStart (run : WorkflowRun) (nodeId : String) (retryable : Bool) : Bool :=
  (run.node? nodeId).any fun n => retryable = true ∧ n.attemptCount + 1 < n.maxAttempts

/-- What the outcome of a started node needs. -/
structure Answerable (v : WorkflowVersion) (run : WorkflowRun) (nodeId commandId : String)
    (outcome : Option WorkflowNodeExecutionOutcome) (finished : Tick) : Prop where
  now : finished.now.tzAware = true
  recordable : Recordable v nodeId outcome
  named : ¬EndsBlank v run nodeId outcome (finished.call commandId)
  room : Room run commandId (run.startSuffixes ++
    run.reportSuffixes nodeId (retriesAfterStart run nodeId) (outcomeCommand v nodeId outcome))

/-- What a call needs. -/
structure Executable (values : InputValues V) (v : WorkflowVersion) (run : WorkflowRun)
    (nodeId : String) (inputs : Option (Inputs V)) (commandId : String)
    (outcome : Option WorkflowNodeExecutionOutcome) (started finished : Tick) : Prop where
  open_ : ¬run.status.Shut
  now : started.now.tzAware = true
  receipt : storableText commandId = true ∧ notBlank commandId = true
  refused : Refused values v run nodeId inputs → Room run commandId rejectSuffixes
  answered : ¬Refused values v run nodeId inputs →
    Answerable v run nodeId commandId outcome finished

/-! ### Refused inputs -/

theorem receipt_accepted_iff {commandId : String} :
    (∀ x ∈ (some ⟨"execute-node", commandId⟩ : Option WorkflowCommandReceipt).toList,
      x.Accepted) ↔ storableText commandId = true ∧ notBlank commandId = true := by
  have htype : storableText "execute-node" = true ∧ notBlank "execute-node" = true := by decide
  simp [WorkflowCommandReceipt.Accepted, htype]

/-- A save with a receipt stores the run and the receipt. -/
theorem receipt_of_save (h : Holds pg v rows run) (hs : Step v run r run')
    (hids : FreshIds r.call.uuid4 rows)
    (hnew : ¬hasProcessedCommand rows "execute-node" commandId)
    (hsave : save pg rows run' (some ⟨"execute-node", commandId⟩) = .ok rows') :
    Stores pg rows' run' ∧ hasProcessedCommand rows' "execute-node" commandId := by
  obtain ⟨hafter, -, hreceipts⟩ := h.save hs hids hsave
  refine ⟨hafter.stores, ?_⟩
  unfold hasProcessedCommand
  rw [hreceipts, List.mem_append, List.mem_filter]
  exact Or.inr ⟨Option.mem_toList.2 rfl, decide_eq_true hnew⟩

/-- The save of a call commits if the run fits and the receipt passes its checks. -/
theorem save_receipt_iff (h : Holds pg v rows run) (hs : Step v run r run')
    (hids : FreshIds r.call.uuid4 rows)
    (hnew : ¬hasProcessedCommand rows "execute-node" commandId) :
    (∃ rows', save pg rows run' (some ⟨"execute-node", commandId⟩) = .ok rows') ↔
      Fits run' ∧ run'.events.length < 2 ^ 63 ∧
        storableText commandId = true ∧ notBlank commandId = true := by
  rw [← receipt_accepted_iff]
  apply save_iff h hs hids
  intro x hx
  cases Option.mem_toList.1 hx
  exact hnew

/-- A node whose input is refused has failed. -/
theorem failed_of_reject {code : String} (hv : Instantiates v run.nodes)
    (hs : Step v run ⟨.rejectNodeInput i code, call⟩ run') :
    ∃ n, run'.node? i = some n ∧ n.status ≠ .running := by
  cases effect_of_execute hv hs with
  | @reject _ _ n _ hn =>
    refine ⟨n.rejectedWith (strip code) call.now, ?_, by
      show WorkflowNodeStatus.failed ≠ .running
      decide⟩
    simp only [touched_node?, failedWith_node?, recordNode_node?]
    exact node?_put_self hn (nodeId_of_node? hn :)

theorem refused_settles_iff (hcall : Callable pg registry v w run principal i commandId)
    (h : Holds pg v w.rows run) (hids : FreshIds started.uuid4 w.rows)
    (hbad : Refused values v run i inputs) :
    Settles pg registry values w principal i inputs commandId outcome started finished ↔
      (¬run.status.Shut ∧ started.now.tzAware = true) ∧
        (storableText commandId = true ∧ notBlank commandId = true) ∧
        Room run commandId rejectSuffixes := by
  have hv := h.instantiates
  obtain ⟨n, hn, hq, -⟩ := (ready_iff hv).1 hcall.ready
  have hfits := fits_of_holds h
  have hreject : (∃ run', Step v run ⟨.rejectNodeInput i "INPUT_INVALID",
      started.call commandId⟩ run') ↔ ¬run.status.Shut ∧ started.now.tzAware = true :=
    reject_iff hv hn hq
  constructor
  · rintro ⟨view, w', run₂, hexec, -⟩
    obtain ⟨x, w₁, hbegin, -⟩ := bind_ok.1 hexec
    rcases (hcall.executeBegin_iff hv).1 hbegin with ⟨-, view', -, hsaved⟩ | ⟨hgood, -⟩
    · obtain ⟨run', rows', hstep, hsave, -⟩ := saved_ok.1 hsaved
      change Step v run ⟨.rejectNodeInput i "INPUT_INVALID", started.call commandId⟩ run' at hstep
      obtain ⟨-, hroom, hreceipt⟩ :=
        (save_receipt_iff h hstep hids hcall.fresh).1 ⟨rows', hsave⟩
      refine ⟨hreject.1 ⟨run', hstep⟩, hreceipt, ?_⟩
      rwa [length_of_reject hv hstep] at hroom
    · exact absurd hbad hgood
  · rintro ⟨hok, hreceipt, hroom⟩
    obtain ⟨run', hstep⟩ := hreject.2 hok
    have hfits' := (fits_reject_iff hv hfits hstep).2 hreceipt.1
    have hlength : run'.events.length < 2 ^ 63 := by
      rw [length_of_reject hv hstep]
      exact hroom
    obtain ⟨rows', hsave⟩ := (save_receipt_iff h hstep hids hcall.fresh).2
      ⟨hfits', hlength, hreceipt⟩
    obtain ⟨hstores, hprocessed⟩ := receipt_of_save h hstep hids hcall.fresh hsave
    have hsaved := saved_ok.2 ⟨run', rows', hstep, hsave, rfl, rfl⟩
    have hbegin := (hcall.executeBegin_iff hv).2 (Or.inl ⟨hbad, _, rfl, hsaved⟩)
    exact ⟨_, _, run', bind_ok.2 ⟨_, _, hbegin, pure_ok.2 ⟨rfl, rfl⟩⟩, hstores, rfl,
      failed_of_reject hv hstep, hprocessed⟩

/-! ### Answers of the executor -/

/-- A started node runs, and nothing else about the run has changed that a report looks at. -/
structure Started (run run₁ : WorkflowRun) (nodeId commandId : String) (now : DateTime) : Prop where
  node : ∃ n, run.node? nodeId = some n ∧ run₁.node? nodeId = some (n.started now)
  open_ : ¬run₁.status.Shut
  others : ∀ P, Others run₁ nodeId P ↔ Others run nodeId P
  log : ∀ s, s ≠ ":run-start" → s ≠ ":start" →
    (run₁.hasTransition (commandId ++ s) ↔ run.hasTransition (commandId ++ s))

theorem others_put {P : WorkflowNodeStatus → Prop} (hn' : n'.nodeId = i) :
    Others (run.put i n') i P ↔ Others run i P := by
  simp only [Others, put, replace, List.forall_mem_map]
  refine forall₂_congr fun m _ => ?_
  by_cases hm : m.nodeId = i
  · simp [hm, hn']
  · simp [hm]

theorem started_of_start (hv : Instantiates v run.nodes)
    (hs : Step v run ⟨.startNode i, call⟩ run') : Started run run' i call.commandId call.now := by
  have hlog := (log_of_start hv hs).2
  cases effect_of_execute hv hs with
  | @start _ n _ hopen _ _ hn =>
    have hid : (n.started call.now).nodeId = i := (nodeId_of_node? hn :)
    refine { node := ⟨n, hn, ?_⟩, open_ := status_begun_open hopen, others := ?_, log := hlog }
    · simp only [touched_node?, recordNode_node?, begun_node?]
      exact node?_put_self hn hid
    · intro P
      unfold Others
      simp only [touched_nodes, recordNode_nodes, begun_nodes]
      exact others_put hid

theorem added_congr {run₁ : WorkflowRun} {suffixes : List String}
    (h : ∀ s ∈ suffixes, (run₁.hasTransition (commandId ++ s) ↔ run.hasTransition (commandId ++ s))) :
    run₁.added commandId suffixes = run.added commandId suffixes := by
  apply List.countP_congr
  intro s hs
  simp only [h s hs]

/-- No report logs a transition of a start. -/
theorem not_start_of_report {retries : Bool → Bool} {s : String}
    (hs : s ∈ run.reportSuffixes i retries c) : s ≠ ":run-start" ∧ s ≠ ":start" := by
  unfold reportSuffixes at hs
  cases c with
  | startNode | rejectNodeInput | skipNode | requestCancel | confirmNodeCancel => cases hs
  | acceptNode =>
    simp only [List.mem_cons, List.not_mem_nil, or_false] at hs
    rcases hs with rfl | rfl <;> decide
  | succeedNode =>
    have hmem : s ∈ [":succeed", ""] := by
      dsimp only at hs
      split_ifs at hs
      · exact hs
      · exact List.mem_cons.2 (Or.inl (List.mem_singleton.1 hs))
    simp only [List.mem_cons, List.not_mem_nil, or_false] at hmem
    rcases hmem with rfl | rfl <;> decide
  | failNode =>
    have hmem : s ∈ [":fail", ":run-failed"] := by
      dsimp only at hs
      split_ifs at hs
      · exact List.mem_cons.2 (Or.inl (List.mem_singleton.1 hs))
      · exact hs
    simp only [List.mem_cons, List.not_mem_nil, or_false] at hmem
    rcases hmem with rfl | rfl <;> decide

namespace Started

variable {run₁ : WorkflowRun} {now : DateTime}

theorem reportSuffixes (h : Started run run₁ i commandId now) (hn : run.node? i = some n) :
    run₁.reportSuffixes i (fun retryable => decide ((n.started now).Retries retryable)) c =
      run.reportSuffixes i (retriesAfterStart run i) c := by
  have hretries : (fun retryable => decide ((n.started now).Retries retryable)) =
      retriesAfterStart run i := by
    funext retryable
    rw [retriesAfterStart, hn, Option.any_some]
    exact decide_eq_decide.2 Iff.rfl
  unfold WorkflowRun.reportSuffixes
  rw [hretries]
  simp only [h.others]

theorem added (h : Started run run₁ i commandId now) {retries : Bool → Bool} :
    run₁.added commandId (run.reportSuffixes i retries c) =
      run.added commandId (run.reportSuffixes i retries c) := by
  apply added_congr
  intro s hs
  obtain ⟨hne, hne'⟩ := not_start_of_report hs
  exact h.log s hne hne'

theorem endsBlank (h : Started run run₁ i commandId now) {tick : Tick} :
    EndsBlank v run₁ i outcome (tick.call commandId) ↔
      EndsBlank v run i outcome (tick.call commandId) := by
  have hlog := h.log "" (by decide) (by decide)
  rw [String.append_empty] at hlog
  have hblank : BlankId run₁ (tick.call commandId) ↔ BlankId run (tick.call commandId) :=
    and_congr_right fun _ => not_congr hlog
  rw [EndsBlank, EndsBlank, h.others, hblank]

end Started

/-- Ids that were fresh stay fresh if the command between draws others. -/
theorem freshIds_save {uuid4 : Nat → UUID} (h : Holds pg v rows run) (hs : Step v run r run')
    (hafter : Holds pg v rows' run') (hids : FreshIds uuid4 rows)
    (hapart : ∀ j k, r.call.uuid4 j ≠ uuid4 k) : FreshIds uuid4 rows' := by
  refine ⟨hids.1, ?_⟩
  intro k hk
  rw [hafter.stores.eventPks.mem_iff] at hk
  obtain ⟨new, hnew, hdrawn⟩ := log_of_writes (writes_of_execute hs)
  rw [hnew, List.map_append, List.mem_append, hdrawn] at hk
  rcases hk with hk | hk
  · exact hids.2 k (h.stores.eventPks.mem_iff.2 hk)
  · obtain ⟨j, -, hj⟩ := List.mem_map.1 hk
    exact hapart j k hj

/-- The second half of a call, on the run its first half has stored. -/
theorem resume_iff {run₁ : WorkflowRun} {now : DateTime} (h : Holds pg v rows run₁)
    (hstarted : Started run run₁ i commandId now)
    (hlength : run₁.events.length = run.events.length + run.added commandId run.startSuffixes)
    (hids : FreshIds finished.uuid4 rows)
    (hnew : ¬hasProcessedCommand rows "execute-node" commandId)
    (hid : storableText commandId = true) :
    (∃ run' rows', recordOutcome v i outcome (finished.call commandId) run₁ = .ok () run' ∧
      save pg rows run' (some ⟨"execute-node", commandId⟩) = .ok rows') ↔
      notBlank commandId = true ∧ Answerable v run i commandId outcome finished := by
  have hv := h.instantiates
  have hfits := fits_of_holds h
  obtain ⟨n, hn, hn₁⟩ := hstarted.node
  have hoc : (∃ run', recordOutcome v i outcome (finished.call commandId) run₁ = .ok () run') ∧
      StorableSummary v i outcome ↔ Recordable v i outcome ∧
        ¬EndsBlank v run₁ i outcome (finished.call commandId) ∧ finished.now.tzAware = true :=
    outcome_iff hv hstarted.open_ hn₁ rfl (Nat.succ_pos _)
  rw [hstarted.endsBlank] at hoc
  have hroom {run' : WorkflowRun}
      (hs : Step v run₁ ⟨outcomeCommand v i outcome, finished.call commandId⟩ run') :
      run'.events.length < 2 ^ 63 ↔ Room run commandId (run.startSuffixes ++
        run.reportSuffixes i (retriesAfterStart run i) (outcomeCommand v i outcome)) := by
    have hlen := length_of_report hv hs reportsOn_outcomeCommand hn₁ rfl
    rw [hstarted.reportSuffixes hn] at hlen
    change _ = _ + run₁.added commandId _ at hlen
    rw [hstarted.added] at hlen
    rw [Room, added_append, hlen, hlength, Nat.add_assoc]
  constructor
  · rintro ⟨run', rows', hrec, hsave⟩
    have hs := step_of_recordOutcome hrec
    obtain ⟨hfits', hlen, -, hblank⟩ := (save_receipt_iff h hs hids hnew).1 ⟨rows', hsave⟩
    have hsummary := storable_outcomeCommand_iff.1
      ((fits_report_iff hv hfits hs reportsOn_outcomeCommand hn₁ rfl hid).1 hfits')
    obtain ⟨hrecordable, hnamed, hnow⟩ := hoc.1 ⟨⟨run', hrec⟩, hsummary⟩
    exact ⟨hblank, hnow, hrecordable, hnamed, (hroom hs).1 hlen⟩
  · rintro ⟨hblank, hans⟩
    obtain ⟨⟨run', hrec⟩, hsummary⟩ := hoc.2 ⟨hans.recordable, hans.named, hans.now⟩
    have hs := step_of_recordOutcome hrec
    have hfits' := (fits_report_iff hv hfits hs reportsOn_outcomeCommand hn₁ rfl hid).2
      (storable_outcomeCommand_iff.2 hsummary)
    obtain ⟨rows', hsave⟩ := (save_receipt_iff h hs hids hnew).2
      ⟨hfits', (hroom hs).2 hans.room, hid, hblank⟩
    exact ⟨run', rows', hrec, hsave⟩

theorem answered_settles_iff (hcall : Callable pg registry v w run principal i commandId)
    (h : Holds pg v w.rows run)
    (hleft : ∀ n ∈ run.nodes, n.status = .queued → n.attemptCount < n.maxAttempts)
    (hids : FreshIds started.uuid4 w.rows) (hids' : FreshIds finished.uuid4 w.rows)
    (hapart : ∀ j k, started.uuid4 j ≠ finished.uuid4 k)
    (hgood : ¬Refused values v run i inputs) :
    Settles pg registry values w principal i inputs commandId outcome started finished ↔
      (¬run.status.Shut ∧ started.now.tzAware = true) ∧
        (storableText commandId = true ∧ notBlank commandId = true) ∧
        Answerable v run i commandId outcome finished := by
  have hv := h.instantiates
  have hfits := fits_of_holds h
  have hstart : (∃ run', Step v run ⟨.startNode i, started.call commandId⟩ run') ↔
      ¬run.status.Shut ∧ started.now.tzAware = true := start_iff hv hcall.ready hleft
  have hnone : ∀ x ∈ (none : Option WorkflowCommandReceipt).toList, x ∉ w.rows.receipts := by simp
  have hmiddle {run₁ : WorkflowRun} {rows₁ : WorkflowRows}
      (hs : Step v run ⟨.startNode i, started.call commandId⟩ run₁)
      (hsave : save pg w.rows run₁ none = .ok rows₁) :
      Holds pg v rows₁ run₁ ∧ ¬hasProcessedCommand rows₁ "execute-node" commandId ∧
        FreshIds finished.uuid4 rows₁ := by
    obtain ⟨hafter, -, hreceipts⟩ := h.save hs hids hsave
    refine ⟨hafter, ?_, freshIds_save h hs hafter hids' hapart⟩
    have hfresh : (⟨"execute-node", commandId⟩ : WorkflowCommandReceipt) ∉ w.rows.receipts :=
      hcall.fresh
    unfold hasProcessedCommand
    rw [hreceipts]
    simpa using hfresh
  constructor
  · rintro ⟨view, w', run', hexec, -⟩
    obtain ⟨x, w₁, hbegin, hresume⟩ := bind_ok.1 hexec
    rcases (hcall.executeBegin_iff hv).1 hbegin with ⟨hbad, -⟩ | ⟨-, run₁, rows₁, hs, hsave, rfl, rfl⟩
    · exact absurd hbad hgood
    · obtain ⟨run₂, rows₂, hrec, hsave₂, -⟩ := saved_ok.1 hresume
      have hid := (fits_start_iff hv hfits hs).1 ((save_iff h hs hids hnone).1 ⟨rows₁, hsave⟩).1
      obtain ⟨h₁, hnew, hids₁⟩ := hmiddle hs hsave
      obtain ⟨hblank, hans⟩ := (resume_iff h₁ (started_of_start hv hs) (log_of_start hv hs).1 hids₁
        hnew hid).1 ⟨run₂, rows₂, hrec, hsave₂⟩
      exact ⟨hstart.1 ⟨run₁, hs⟩, ⟨hid, hblank⟩, hans⟩
  · rintro ⟨hok, ⟨hid, hblank⟩, hans⟩
    obtain ⟨run₁, hs⟩ := hstart.2 hok
    have hlength := (log_of_start hv hs).1
    have hroom : run₁.events.length < 2 ^ 63 := by
      have hall := hans.room
      rw [Room, added_append, ← Nat.add_assoc] at hall
      rw [hlength]
      exact Nat.lt_of_le_of_lt (Nat.le_add_right _ _) hall
    obtain ⟨rows₁, hsave⟩ := (save_iff h hs hids hnone).2
      ⟨(fits_start_iff hv hfits hs).2 hid, hroom, by simp⟩
    obtain ⟨h₁, hnew, hids₁⟩ := hmiddle hs hsave
    have hstarted := started_of_start hv hs
    obtain ⟨run₂, rows₂, hrec, hsave₂⟩ := (resume_iff h₁ hstarted hlength hids₁ hnew hid).2
      ⟨hblank, hans⟩
    have hs₂ := step_of_recordOutcome hrec
    obtain ⟨hstores, hprocessed⟩ := receipt_of_save h₁ hs₂ hids₁ hnew hsave₂
    obtain ⟨n, -, hn₁⟩ := hstarted.node
    have hleft := (settles_of_report (effect_of_execute h₁.instantiates hs₂)
      reportsOn_outcomeCommand hn₁ rfl).1
    have hbegin := (hcall.executeBegin_iff hv).2 (Or.inr ⟨hgood, run₁, rows₁, hs, hsave, rfl, rfl⟩)
    have hresume : executeResume pg ⟨run₁, v, i, commandId⟩ outcome finished
        { rows := rows₁, executions := w.executions ++ [i] } =
          .ok (.fromRun run₂) { rows := rows₂, executions := w.executions ++ [i] } :=
      saved_ok.2 ⟨run₂, rows₂, hrec, hsave₂, rfl, rfl⟩
    exact ⟨_, _, run₂, bind_ok.2 ⟨_, _, hbegin, hresume⟩, hstores, rfl, hleft, hprocessed⟩

/-! ### Reachable runs -/

/-- A queued node can be started once more. -/
def Startable (run : WorkflowRun) : Prop :=
  ∀ n ∈ run.nodes, n.status = .queued → n.attemptCount < n.maxAttempts

theorem Startable.reloaded (h : Startable run) : Startable (run.reloaded pg) :=
  fun n hn => h n (mem_orderBy.1 hn)

theorem Startable.saves (h : Saves pg v w r run run' w') (hleft : Startable run) :
    Startable run' := by
  intro n' hn'
  have hself := lookup_of_mem h.after.instantiates.nodup hn'
  obtain ⟨n, hn⟩ := node?_of_mem (i := n'.nodeId) h.before.instantiates
    (h.after.instantiates.mem_nodeIds.1 (List.mem_map_of_mem hn'))
  obtain ⟨m, hm, hmove⟩ :=
    nodeMove_of_effect (effect_of_execute h.before.instantiates h.step) hn
  obtain rfl := Option.some.inj (hm.symm.trans hself)
  exact attempts_left_of_move (hleft n (mem_of_node? hn)) hmove

theorem startable_of_turns {as : List (Action V)} {s₀ s : System}
    (hreg : registry.get v.workflowCode.1 v.version.1 = some v) (h₀ : Opened pg v s₀)
    (hs : Steps (Turn pg registry values) s₀ as s) :
    ∃ run, Serving pg v s run ∧ Startable run := by
  refine hs.invariant (P := fun s => ∃ run, Serving pg v s run ∧ Startable run) ?_ ?_
  · rintro s a s' ⟨run, hserving, hleft⟩ ht
    obtain ⟨run', hserving', ⟨-, rfl⟩ | ⟨r, run₀, hrun₀, -, -, hsaves⟩⟩ := hserving.turn hreg ht
    · exact ⟨run', hserving', hleft⟩
    · refine ⟨run', hserving', Startable.saves hsaves ?_⟩
      rcases hrun₀ with rfl | rfl
      · exact hleft
      · exact hleft.reloaded
  · obtain ⟨run₀, hcreated, hserving₀⟩ := h₀.serving
    refine ⟨run₀, hserving₀, fun n hn _ => ?_⟩
    obtain ⟨now, id, d, rfl⟩ := (created_spec hcreated).2.2.1 n hn
    exact d.maxAttempts_pos

/-- **`execute_node` settles the node exactly if the call is executable.** Whatever calls came
before: the owner asks for a ready node under a command id that is not on record. -/
theorem execute_node_settles {as : List (Action V)} {s₀ s : System}
    (hreg : registry.get v.workflowCode.1 v.version.1 = some v) (h₀ : Opened pg v s₀)
    (hs : Steps (Turn pg registry values) s₀ as s) (hload : loadRun pg s.world.rows = .ok run)
    (howner : Owned principal run) (hready : run.Ready v i)
    (hnew : ¬hasProcessedCommand s.world.rows "execute-node" commandId)
    (hids : FreshIds started.uuid4 s.world.rows) (hids' : FreshIds finished.uuid4 s.world.rows)
    (hapart : ∀ j k, started.uuid4 j ≠ finished.uuid4 k) :
    Settles pg registry values s.world principal i inputs commandId outcome started finished ↔
      Executable values v run i inputs commandId outcome started finished := by
  obtain ⟨run₀, hserving, hleft⟩ := startable_of_turns hreg h₀ hs
  obtain rfl : run₀.reloaded pg = run := Except.ok.inj (hserving.holds.load.symm.trans hload)
  have hholds := hserving.holds.reloaded
  have hcall : Callable pg registry v s.world (run₀.reloaded pg) principal i commandId :=
    { load := hload, version := registered_ok hreg hholds, owner := howner, ready := hready,
      fresh := hnew }
  by_cases hbad : Refused values v (run₀.reloaded pg) i inputs
  · rw [refused_settles_iff hcall hholds hids hbad]
    constructor
    · rintro ⟨⟨hopen, hnow⟩, hreceipt, hroom⟩
      exact ⟨hopen, hnow, hreceipt, fun _ => hroom, fun hgood => absurd hbad hgood⟩
    · intro h
      exact ⟨⟨h.open_, h.now⟩, h.receipt, h.refused hbad⟩
  · rw [answered_settles_iff hcall hholds hleft.reloaded hids hids' hapart hbad]
    constructor
    · rintro ⟨⟨hopen, hnow⟩, hreceipt, hans⟩
      exact ⟨hopen, hnow, hreceipt, fun h => absurd h hbad, fun _ => hans⟩
    · intro h
      exact ⟨⟨h.open_, h.now⟩, h.receipt, h.answered hbad⟩

end

/-! ### A node executed and a node stranded -/

def parallelRun : WorkflowRun :=
  (loadRun server parallelSystem.world.rows).toOption.get (by decide +kernel)

theorem parallelRun_loaded : loadRun server parallelSystem.world.rows = .ok parallelRun := by
  have h : (loadRun server parallelSystem.world.rows).toOption = some parallelRun :=
    (Option.some_get _).symm
  cases hload : loadRun server parallelSystem.world.rows with
  | error e => simp [hload, Except.toOption] at h
  | ok run =>
    rw [hload] at h
    rw [Option.some.inj h]

theorem parallelRun_ready : parallelRun.Ready parallel "a" := by
  have h : (parallelRun.readyNodes parallel).toOption.any fun ready => "a" ∈ ready := by
    decide +kernel
  cases hready : parallelRun.readyNodes parallel with
  | error e => simp [hready, Except.toOption] at h
  | ok ready => exact ⟨ready, hready, by simpa [hready, Except.toOption] using h⟩

/-- A tick whose ids are of one parity. -/
def parityTick (t : Nat) : Tick := ⟨⟨t, true⟩, fun k => 100 + 2 * k + t % 2⟩

theorem freshIds_parityTick {t : Nat}
    (h : ∀ id ∈ rows.events.map WorkflowEventRecord.id, id < 100) :
    FreshIds (parityTick t).uuid4 rows := by
  constructor
  · intro j k hjk
    have heq : 100 + 2 * j + t % 2 = 100 + 2 * k + t % 2 := hjk
    omega
  · intro k hk
    have hlt : 100 + 2 * k + t % 2 < 100 := h _ hk
    omega

theorem parityTicks_apart (j k : Nat) : (parityTick 1).uuid4 j ≠ (parityTick 2).uuid4 k := by
  intro h
  have heq : 100 + 2 * j + 1 = 100 + 2 * k := h
  omega

theorem execute_node_settles_done : Settles server [parallel] strings parallelSystem.world owner
    "a" (some []) "x" (some done) (parityTick 1) (parityTick 2) := by
  refine (execute_node_settles registry_single parallelSystem_opened (.nil _) parallelRun_loaded
    (by decide +kernel) parallelRun_ready (by decide +kernel)
    (freshIds_parityTick (by decide +kernel)) (freshIds_parityTick (by decide +kernel))
    parityTicks_apart).2 ?_
  have hans : Answerable parallel parallelRun "a" "x" (some done) (parityTick 2) :=
    { now := rfl, recordable := by decide +kernel,
      named := fun h => absurd h.2.2.1 (by decide +kernel),
      room := by
        unfold Room
        decide +kernel }
  exact { open_ := by decide +kernel, now := rfl, receipt := by decide +kernel,
          refused := fun h => absurd h (by decide +kernel), answered := fun _ => hans }

/-- A result whose summary is a space. -/
def blankResult : WorkflowNodeExecutionOutcome where
  status := .completed
  resultSummary := some " "
  admitted := by decide

/-- What a call raises. -/
def raisedBy {α : Type} (method : AppM α) (w : World) : Option AppError :=
  match method w with
  | .ok _ _ => none
  | .error e _ => some e

/-- The call that gets the blank result. -/
def blankCall : AppM WorkflowRunView :=
  executeNode server [parallel] strings owner "a" (some []) "x" (some blankResult) (parityTick 1)
    (parityTick 2)

/-- The fallback of the call raises, since the node has already succeeded in memory; the stored node
keeps running, and there is no receipt. -/
theorem blank_summary_strands :
    (loadRun server parallelSystem.world.rows = .ok parallelRun ∧ Owned owner parallelRun ∧
      parallelRun.Ready parallel "a" ∧
      ¬hasProcessedCommand parallelSystem.world.rows "execute-node" "x") ∧
    ¬Settles server [parallel] strings parallelSystem.world owner "a" (some []) "x"
      (some blankResult) (parityTick 1) (parityTick 2) ∧
    (raisedBy blankCall parallelSystem.world).isSome ∧
    (∃ y ∈ (leave blankCall parallelSystem.world).rows.nodes, y.nodeId = "a" ∧
      y.status = "running") ∧
    ¬hasProcessedCommand (leave blankCall parallelSystem.world).rows "execute-node" "x" := by
  have hraised : (raisedBy blankCall parallelSystem.world).isSome := by decide +kernel
  refine ⟨⟨parallelRun_loaded, by decide +kernel, parallelRun_ready, by decide +kernel⟩, ?_, hraised,
    by decide +kernel, by decide +kernel⟩
  rintro ⟨view, w', run', hexec, -⟩
  change blankCall parallelSystem.world = .ok view w' at hexec
  simp [raisedBy, hexec] at hraised

end GoAgent.Workflow
