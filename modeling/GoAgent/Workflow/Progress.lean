import GoAgent.Workflow.Readiness

/-!
# Progress

A run whose nodes are only started and reported successful, under command ids of their own, is
never stuck: the graph of its version has no cycle, so among the nodes that have not succeeded
one has only succeeded predecessors, and it is at work or ready.

**Theorem (`work_completes`).** Such a run can always go on until it has succeeded, and it has
succeeded exactly when every node was started once and reported once.
-/

namespace GoAgent.Workflow

open GoAgent.Foundation WorkflowRun

/-- `start_node` and `succeed_node` -/
def WorkflowCommand.Works : WorkflowCommand → Prop
  | .startNode _ | .succeedNode _ _ _ _ => True
  | _ => False

def WorkflowCommand.started? : WorkflowCommand → Option String
  | .startNode nodeId => some nodeId
  | _ => none

def WorkflowCommand.reported? : WorkflowCommand → Option String
  | .succeedNode nodeId _ _ _ => some nodeId
  | _ => none

/-- The nodes the requests start. -/
def started (rs : List Request) : List String := rs.filterMap fun r => r.command.started?

/-- The nodes whose success the requests report. -/
def reported (rs : List Request) : List String := rs.filterMap fun r => r.command.reported?

def commandIds (rs : List Request) : List String := rs.map fun r => r.call.commandId

/-- A report with exactly the outputs the node declares, all of them valid. -/
structure Reportable (v : WorkflowVersion) (nodeId summary : String) (fp : Option String)
    (outputs : References) : Prop where
  declared : ∃ d, v.node nodeId = .ok d ∧ ∀ f, f ∈ outputs.map Prod.fst ↔ f ∈ d.outputFields.1
  valid : ∀ p ∈ outputs, checkReference p "节点输出字段名" "节点输出引用" = .ok ()
  summary : isBlank summary = false
  fingerprint : ∃ fp', fingerprint fp "输出指纹" = .ok fp'

variable {v : WorkflowVersion} {run run' run₀ : WorkflowRun} {r : Request} {rs : List Request}
  {c : WorkflowCommand} {call : Call} {i j : String} {n : WorkflowNodeRun}

/-! ## What the requests have done -/

/-- A run whose nodes were only started and reported successful. -/
structure Working (v : WorkflowVersion) (rs : List Request) (run : WorkflowRun) : Prop where
  history : History v run
  status : run.status = .queued ∨ run.status = .running ∨ run.status = .succeeded
  nodes : ∀ {i n}, run.node? i = some n →
    n.status = .queued ∨ n.status = .running ∨ n.status = .succeeded
  delivered : ∀ i, run.At i .succeeded → Delivered v run i
  logged : ∀ id, run.hasTransition (id ++ ":succeed") →
    run.status = .succeeded ∨ id ∈ commandIds rs
  nodup : (started rs).Nodup
  starts : ∀ i, i ∈ started rs ↔ ∃ n, run.node? i = some n ∧ n.status ≠ .queued
  reports : ∀ i, i ∈ reported rs ↔ run.At i .succeeded

theorem working_of_created (h : Created v run) : Working v [] run := by
  obtain ⟨hv, hs, hnodes, e, hev, -, ht, -⟩ := created_spec h
  have hq : ∀ {i n}, run.node? i = some n → n.status = .queued := fun hn => by
    obtain ⟨_, _, _, rfl⟩ := hnodes _ (mem_of_node? hn)
    rfl
  have hat : ∀ i, ¬run.At i .succeeded := by
    rintro i ⟨n, hn, hs⟩
    exact nomatch (hq hn).symm.trans hs
  refine ⟨.start h, Or.inl hs, fun hn => Or.inl (hq hn), fun i hi => absurd hi (hat i), ?_,
    List.nodup_nil, fun i => iff_of_false List.not_mem_nil ?_,
    fun i => iff_of_false List.not_mem_nil (hat i)⟩
  · rintro id ⟨e', he', ht'⟩
    rw [hev, List.mem_singleton] at he'
    subst he'
    rw [ht] at ht'
    have : ("" : String) ++ "create" ≠ id ++ ":succeed" := append_ne_append (by decide) (by decide)
    exact absurd ht' this
  · rintro ⟨n, hn, hne⟩
    exact hne (hq hn)

theorem started_snoc : started (rs ++ [r]) = started rs ++ r.command.started?.toList := by
  simp [started, List.filterMap_append, List.filterMap_cons]
  cases r.command.started? <;> rfl

theorem reported_snoc : reported (rs ++ [r]) = reported rs ++ r.command.reported?.toList := by
  simp [reported, List.filterMap_append, List.filterMap_cons]
  cases r.command.reported? <;> rfl

theorem commandIds_snoc : commandIds (rs ++ [r]) = commandIds rs ++ [r.call.commandId] := by
  simp [commandIds]

/-- A node at work is reported under a transition id that is not in the log. -/
theorem Working.fresh (h : Working v rs run) (hid : call.commandId ∉ commandIds rs)
    (hn : run.node? i = some n) (hact : n.status.Active) :
    ¬run.hasTransition (call.commandId ++ ":succeed") := fun hlog =>
  (h.logged _ hlog).elim ((coherent_of_history h.history).of_cancellable (lifecycle_node hn)
    hact.cancellable).1 hid

theorem Working.step_delivered (h : Working v rs run) (hs : Step v run r run')
    (hid : r.call.commandId ∉ commandIds rs) : ∀ i, run'.At i .succeeded → Delivered v run' i :=
  fun _ => delivered_of_effect (h.history.effect hs) h.delivered
    fun _ _ _ _ _ _ hn hact => h.fresh hid hn hact

theorem status_begun (h : run.status = .queued ∨ run.status = .running ∨ run.status = .succeeded) :
    (run.begun call).status = .queued ∨ (run.begun call).status = .running ∨
      (run.begun call).status = .succeeded := by
  unfold begun
  split_ifs with hq
  · exact Or.inr (Or.inl rfl)
  · exact h

theorem status_refreshed (h : run.status = .queued ∨ run.status = .running ∨ run.status = .succeeded)
    (hn : ∀ n ∈ run.nodes, n.status ≠ .accepted) :
    (run.refreshed call).status = .queued ∨ (run.refreshed call).status = .running ∨
      (run.refreshed call).status = .succeeded := by
  unfold refreshed
  split_ifs with hall hacc hst
  · exact Or.inr (Or.inr rfl)
  · obtain ⟨n, hmem, ha⟩ := hacc
    exact absurd ha (hn n hmem)
  · exact Or.inr (Or.inl rfl)
  · exact h

theorem hasTransition_refreshed {t : String} (h : (run.refreshed call).hasTransition t) :
    run.hasTransition t ∨ (run.refreshed call).status = .succeeded := by
  unfold refreshed at h ⊢
  split_ifs with hall hacc hst
  · exact Or.inr rfl
  · rw [if_neg hall, if_pos hacc] at h
    exact Or.inl h
  · rw [if_neg hall, if_neg hacc, if_pos hst] at h
    exact Or.inl h
  · rw [if_neg hall, if_neg hacc, if_neg hst] at h
    exact Or.inl h

/-- A request that starts or reports node `i`, and moves that node only. -/
theorem Working.moved (n' : WorkflowNodeRun) (h : Working v rs run) (hhist : History v run')
    (hdel : ∀ i, run'.At i .succeeded → Delivered v run' i)
    (hst : run'.status = .queued ∨ run'.status = .running ∨ run'.status = .succeeded)
    (hlog : ∀ id, run'.hasTransition (id ++ ":succeed") → run.hasTransition (id ++ ":succeed") ∨
      run'.status = .succeeded ∨ id = r.call.commandId)
    (hn : run.node? i = some n)
    (hnode : ∀ j, run'.node? j = if j = i then some n' else run.node? j)
    (hmove : r.command.started? = some i ∧ r.command.reported? = none ∧ n.status = .queued ∧
        n'.status = .running ∨
      r.command.started? = none ∧ r.command.reported? = some i ∧ n.status = .running ∧
        n'.status = .succeeded) : Working v (rs ++ [r]) run' := by
  have hself : run'.node? i = some n' := by rw [hnode, if_pos rfl]
  have hother : ∀ {j}, j ≠ i → run'.node? j = run.node? j := fun hj => by rw [hnode, if_neg hj]
  have hopen : run.status ≠ .succeeded := by
    refine ((coherent_of_history h.history).of_cancellable (lifecycle_node hn) ?_).1
    obtain ⟨-, -, hq, -⟩ | ⟨-, -, hr, -⟩ := hmove
    · exact Or.inl hq
    · exact Or.inr (Or.inl hr)
  refine ⟨hhist, hst, fun {j m} hm => ?_, hdel, fun id hid => ?_, ?_, fun j => ?_, fun j => ?_⟩
  · rw [hnode] at hm
    split_ifs at hm
    · obtain rfl := Option.some.inj hm
      obtain ⟨-, -, -, h'⟩ | ⟨-, -, -, h'⟩ := hmove
      · exact Or.inr (Or.inl h')
      · exact Or.inr (Or.inr h')
    · exact h.nodes hm
  · rw [commandIds_snoc, List.mem_append, List.mem_singleton]
    obtain hold | hdone | hnew := hlog id hid
    · exact Or.inr (Or.inl ((h.logged id hold).resolve_left hopen))
    · exact Or.inl hdone
    · exact Or.inr (Or.inr hnew)
  · rw [started_snoc]
    obtain ⟨hst, -, hq, -⟩ | ⟨hst, -⟩ := hmove
    · have hnew : i ∉ started rs := fun hi => by
        obtain ⟨m, hm, hne⟩ := (h.starts i).1 hi
        obtain rfl := Option.some.inj (hm.symm.trans hn)
        exact hne hq
      rw [hst]
      exact h.nodup.append (List.nodup_singleton i) (by simpa using hnew)
    · rw [hst]
      simpa using h.nodup
  · rw [started_snoc, List.mem_append, h.starts j]
    by_cases hj : j = i
    · subst hj
      rw [hself]
      obtain ⟨hst, -, -, h'⟩ | ⟨hst, -, hr, h'⟩ := hmove
      · simp [hst, h']
      · simp [hst, h', hn, hr]
    · rw [hother hj]
      obtain ⟨hst, -⟩ | ⟨hst, -⟩ := hmove <;> simp [hst, hj]
  · rw [reported_snoc, List.mem_append, h.reports j]
    by_cases hj : j = i
    · subst hj
      unfold At
      rw [hself]
      obtain ⟨-, hrep, hq, h'⟩ | ⟨-, hrep, -, h'⟩ := hmove
      · simp [hrep, h', hn, hq]
      · simp [hrep, h']
    · unfold At
      rw [hother hj]
      obtain ⟨-, hrep, -⟩ | ⟨-, hrep, -⟩ := hmove <;> simp [hrep, hj]

theorem Working.step (h : Working v rs run) (hs : Step v run r run') (hw : r.command.Works)
    (hid : r.call.commandId ∉ commandIds rs) : Working v (rs ++ [r]) run' := by
  have hdel := h.step_delivered hs hid
  have he := h.history.effect hs
  have hhist := h.history.next hs
  obtain ⟨c, call⟩ := r
  cases he with
  | accept | acceptLogged | reject | retry | fail | skip | cancel | cancelAgain | confirm =>
    exact hw.elim
  | succeedUnlogged hn hdone hlog =>
    obtain ⟨e, -, -, hsome, -⟩ := h.delivered _ ⟨_, hn, hdone⟩
    rw [hlog] at hsome
    cases hsome
  | succeedLogged hn hdone =>
    refine ⟨hhist, h.status, h.nodes, hdel, fun id hlog => ?_, ?_, ?_, fun j => ?_⟩
    · exact (h.logged id hlog).imp_right fun hmem => by simp [commandIds_snoc, hmem]
    · simpa [started_snoc, WorkflowCommand.started?] using h.nodup
    · simpa [started_snoc, WorkflowCommand.started?] using h.starts
    · rw [reported_snoc, List.mem_append, h.reports j]
      refine or_iff_left_of_imp fun hj => ?_
      obtain rfl : j = _ := by simpa [WorkflowCommand.reported?] using hj
      exact ⟨_, hn, hdone⟩
  | @start i n _ open_ _ _ hn hq =>
    refine h.moved (n.started call.now) hhist hdel (status_begun h.status)
      (fun id hlog => Or.inl ?_) hn (fun j => ?_) (Or.inl ⟨rfl, rfl, hq, rfl⟩)
    · obtain hlog | hlog := hasTransition_record.1 (by exact hlog)
      · unfold begun at hlog
        split_ifs at hlog
        · exact (hasTransition_record.1 hlog).resolve_right
            (append_ne_append (by decide) (by decide))
        · exact hlog
      · exact absurd hlog (append_ne_append (by decide) (by decide))
    · simp only [touched_node?, recordNode_node?, begun_node?]
      exact node?_put (nodeId_of_node? hn :) hn
  | @succeed i summary _ fp' _ n _ hn hact =>
    refine h.moved (n.succeededWith (strip summary) fp' call.now) hhist hdel ?_
      (fun id hlog => ?_) hn (fun j => ?_) (Or.inr ⟨rfl, rfl, ?_, rfl⟩)
    · refine status_refreshed h.status fun m hm => ?_
      obtain rfl | ⟨hm, -⟩ := mem_replace hm
      · exact WorkflowNodeStatus.noConfusion
      · have := h.nodes (lookup_of_mem (instantiates_of_history h.history).nodup hm)
        rintro ha
        simp [ha] at this
    · obtain hlog | hdone := hasTransition_refreshed hlog
      · exact (hasTransition_record.1 hlog).imp_right fun hid => Or.inr (append_right_cancel hid)
      · exact Or.inr (Or.inl hdone)
    · simp only [recordNode_node?, refreshed_node?]
      exact node?_put (nodeId_of_node? hn :) hn
    · refine hact.resolve_right fun ha => ?_
      have := h.nodes hn
      simp [ha] at this

theorem working_of_steps (h₀ : Created v run₀)
    (hsteps : Steps (Guarded (Step v) fun _ r => r.command.Works) run₀ rs run)
    (hids : (commandIds rs).Nodup) : Working v rs run := by
  refine Steps.snocInduction (P := fun rs run => (commandIds rs).Nodup → Working v rs run)
    (fun _ => working_of_created h₀) (fun {rs t u r} _ ih hs hids => ?_) hsteps hids
  rw [commandIds_snoc, List.nodup_append] at hids
  exact (ih hids.1).step hs.1 hs.2 fun hmem => hids.2.2 _ hmem _ (List.mem_singleton_self _) rfl

/-! ## What can happen next -/

/-- A ready node with an attempt left can be started while the run is open. -/
theorem start_of_attempt (hv : Instantiates v run.nodes) (hopen : ¬run.status.Shut)
    (hready : run.Ready v i)
    (hleft : ∀ n ∈ run.nodes, n.status = .queued → n.attemptCount < n.maxAttempts)
    (hnow : call.now.tzAware = true) : ∃ run', Step v run ⟨.startNode i, call⟩ run' := by
  obtain ⟨n, hn, hq, -⟩ := (ready_iff hv).1 hready
  obtain ⟨e, he⟩ := nodeEvent_accepted hv hn (n.started call.now) rfl ":start" .nodeStarted
    (n.started call.now).startedMetadata (fun hid => by
      simp only [checkMetadata, EventMetadata.keys, eventMetadataFields]
      simpa [WorkflowNodeRun.startedMetadata, WorkflowNodeRun.started] using hid)
    (by decide) hnow
  exact ⟨_, map_ok.2 ⟨e, startNode_ok.2 ⟨hopen, hready, n, hn, hq,
    hleft n (mem_of_node? hn) hq, he, rfl⟩, rfl⟩⟩

theorem start_accepted (h : History v run) (hopen : ¬run.status.Shut) (hready : run.Ready v i)
    (hcall : call.Valid) : ∃ run', Step v run ⟨.startNode i, call⟩ run' :=
  start_of_attempt (instantiates_of_history h) hopen hready
    (fun _ hn hq => attempts_left_of_history h hn hq) hcall.1

theorem failWith_of_code {code : String} (hn : run.node? i = some n)
    (hid : isIdentifier n.nodeId = true) (hfail : n.failureCode = some code)
    (hcode : isSafeError code = true) (hnow : call.now.tzAware = true) :
    failWith i call run = .ok () (run.failedWith i code call) := by
  obtain rfl := nodeId_of_node? hn
  simp only [failWith, bind_ok, get_ok, lift_ok, node_ok, exists_unit, modify_ok, exists_eq_left,
    exists_and_left, and_assoc]
  refine ⟨n, hn, ?_⟩
  simp only [hfail, appendEvent_ok]
  refine ⟨fun _ => checkEvent_nextEvent (by decide) ?_ hnow, rfl⟩
  simpa [checkMetadata, EventMetadata.keys, eventMetadataFields, hcode] using isIdentifier_strip hid

/-- A node at work that was started accepts a report of its success. -/
theorem report_of_attempted (hv : Instantiates v run.nodes) (hn : run.node? i = some n)
    (hact : n.status.Active) (hcount : 0 < n.attemptCount) {summary : String} {fp : Option String}
    {outputs : References} (hrep : Reportable v i summary fp outputs) (hcall : call.Valid) :
    ∃ run', Step v run ⟨.succeedNode i summary fp outputs, call⟩ run' := by
  obtain ⟨⟨d, hd, hout⟩, hvalid, hsummary, fp', hfp⟩ := hrep
  obtain ⟨e, he⟩ := nodeEvent_accepted hv hn
    (n.succeededWith (strip summary) fp' call.now) rfl ":succeed" .nodeSucceeded
    (n.succeededMetadata outputs) (fun hid => by
      simp only [checkMetadata, EventMetadata.keys, eventMetadataFields]
      simpa [WorkflowNodeRun.succeededMetadata, hcount] using
        ⟨hid, fun a b hp => checkReference_ok.1 (hvalid (a, b) hp)⟩)
    (by decide) hcall.1
  exact ⟨_, map_ok.2 ⟨e, succeedNode_active hn hact hd hout hvalid hsummary hfp he hcall.2, rfl⟩⟩

theorem report_accepted (h : History v run) (hn : run.node? i = some n) (hact : n.status.Active)
    {summary : String} {fp : Option String} {outputs : References}
    (hrep : Reportable v i summary fp outputs) (hcall : call.Valid) :
    ∃ run', Step v run ⟨.succeedNode i summary fp outputs, call⟩ run' :=
  report_of_attempted (instantiates_of_history h) hn hact
    (attempted_of_history h (mem_of_node? hn) (Or.inl hact)) hrep hcall

/-- For every node there is a report to make. -/
theorem exists_report (hi : i ∈ v.nodeIds) :
    ∃ summary fp outputs, Reportable v i summary fp outputs := by
  obtain ⟨d, hd, rfl⟩ := List.mem_map.1 hi
  refine ⟨"done", none, d.outputFields.1.map fun f => (f, "ref"), ⟨d, v.node_ok.2 ⟨hd, rfl⟩, ?_⟩, ?_,
    by decide, none, rfl⟩
  · simp [List.map_map, Function.comp_def]
  · intro p hp
    obtain ⟨f, hf, rfl⟩ := List.mem_map.1 hp
    have href : isBlank "ref" = false ∧ isSafeReference (strip "ref") = true := by decide
    exact checkReference_ok.2 ⟨isIdentifier_strip (d.outputFields.2.1 f hf), href⟩

theorem mem_graph {p x : String} : x ∈ graph v.edges p ↔
    ∃ e ∈ v.edges, e.sourceNodeId.1 = p ∧ e.targetNodeId.1 = x := by
  simp [graph, and_assoc]

/-- **Never stuck.** A run that has not succeeded has a node at work or a ready node. -/
theorem Working.not_stuck (h : Working v rs run) : run.status = .succeeded ∨
    (∃ n ∈ run.nodes, n.status = .running) ∨ ∃ i, run.Ready v i := by
  have hv := instantiates_of_history h.history
  by_cases hall : ∀ i ∈ v.nodeIds, run.At i .succeeded
  · refine Or.inl ((coherent_of_history h.history).complete ((lifecycle_all hv.nodup).2 fun n hn => ?_))
    obtain ⟨m, hm, hs⟩ := hall n.nodeId (hv.mem_nodeIds.1 (List.mem_map_of_mem hn))
    obtain rfl := Option.some.inj (hm.symm.trans (lookup_of_mem hv.nodup hn))
    exact Or.inl hs
  · push Not at hall
    -- A node that has not succeeded, all of whose predecessors have.
    obtain ⟨i, hi, hns, hmin⟩ := v.ranked.exists_minimal (P := fun i => ¬run.At i .succeeded) hall
    obtain ⟨n, hn⟩ := node?_of_mem hv hi
    obtain hq | hr | hs := h.nodes hn
    · refine Or.inr (Or.inr ⟨i, (ready_iff hv).2 ⟨n, hn, hq, fed_of_delivered h.delivered ?_⟩⟩)
      intro e he ht
      exact not_not.1 (hmin _ (source_mem he) (mem_graph.2 ⟨e, he, rfl, ht⟩))
    · exact Or.inr (Or.inl ⟨n, mem_of_node? hn, hr⟩)
    · exact absurd ⟨n, hn, hs⟩ hns

/-! ## Counting -/

theorem Working.mem_nodeIds (h : Working v rs run) (hn : run.node? i = some n) : i ∈ v.nodeIds :=
  (instantiates_of_history h.history).mem_nodeIds.1
    (lookup_isSome_iff.1 (Option.isSome_iff_exists.2 ⟨n, hn⟩))

theorem Working.started_subset (h : Working v rs run) : started rs ⊆ v.nodeIds := fun i hi => by
  obtain ⟨n, hn, -⟩ := (h.starts i).1 hi
  exact h.mem_nodeIds hn

theorem Working.reported_subset (h : Working v rs run) : reported rs ⊆ v.nodeIds := fun i hi => by
  obtain ⟨n, hn, -⟩ := (h.reports i).1 hi
  exact h.mem_nodeIds hn

theorem Working.succeeded_iff (h : Working v rs run) :
    run.status = .succeeded ↔ ∀ i ∈ v.nodeIds, run.At i .succeeded := by
  have hv := instantiates_of_history h.history
  have hc := coherent_of_history h.history
  constructor
  · intro hs i hi
    obtain ⟨n, hn⟩ := node?_of_mem hv hi
    have hcomplete := (lifecycle_all hv.nodup).1 (hc.succeeded hs) n (mem_of_node? hn)
    refine ⟨n, hn, hcomplete.resolve_right fun hk => ?_⟩
    simpa [hk] using h.nodes hn
  · intro hall
    refine hc.complete ((lifecycle_all hv.nodup).2 fun n hn => Or.inl ?_)
    have hmem := hv.mem_nodeIds.1 (List.mem_map_of_mem hn)
    exact (hall _ hmem).status (lookup_of_mem hv.nodup hn)

theorem length_nodeIds : v.nodeIds.length = v.nodes.length := List.length_map _

/-- Distinct members of a list that are all of it are as many. -/
theorem length_eq_iff {l m : List String} (hl : l.Nodup) (hm : m.Nodup) (hsub : l ⊆ m) :
    l.length = m.length ↔ m ⊆ l := by
  constructor
  · exact fun h => ((hl.subperm hsub).perm_of_length_le h.ge).symm.subset
  · exact fun h => ((List.perm_ext_iff_of_nodup hl hm).2 fun _ => ⟨@hsub _, @h _⟩).length_eq

/-- **Work completes.** In a run whose nodes are only started and reported successful under
distinct command ids, something can always be done until the run has succeeded: a node is at work
and accepts the report of its success, or a node is ready and can be started. No node is started
twice; and where none is reported twice, the run has succeeded exactly when all were started and
all were reported. -/
theorem work_completes (h₀ : Created v run₀)
    (hsteps : Steps (Guarded (Step v) fun _ r => r.command.Works) run₀ rs run)
    (hids : (commandIds rs).Nodup) :
    (run.status = .succeeded ∨ (∃ n ∈ run.nodes, n.status = .running) ∨ ∃ i, run.Ready v i) ∧
    (∀ i call, run.Ready v i → call.Valid → ∃ run', Step v run ⟨.startNode i, call⟩ run') ∧
    (∀ n ∈ run.nodes, n.status = .running →
      (∃ summary fp outputs, Reportable v n.nodeId summary fp outputs) ∧
      ∀ summary fp outputs call, Reportable v n.nodeId summary fp outputs → call.Valid →
        ∃ run', Step v run ⟨.succeedNode n.nodeId summary fp outputs, call⟩ run') ∧
    (started rs).Nodup ∧ (started rs).length ≤ v.nodes.length ∧
    ((reported rs).Nodup → (reported rs).length ≤ v.nodes.length ∧
      (run.status = .succeeded ↔
        (started rs).length = v.nodes.length ∧ (reported rs).length = v.nodes.length)) := by
  have h := working_of_steps h₀ hsteps hids
  have hv := instantiates_of_history h.history
  have hnd := v.nodeIds_nodup
  rw [← length_nodeIds]
  refine ⟨h.not_stuck, fun i call hready hcall => ?_, fun n hn hr =>
    ⟨exists_report (hv.mem_nodeIds.1 (List.mem_map_of_mem hn)),
      fun summary fp outputs call hrep hcall => ?_⟩, h.nodup, (h.nodup.subperm h.started_subset).length_le, fun hrep => ⟨?_, ?_⟩⟩
  · refine start_accepted h.history (fun hshut => ?_) hready hcall
    obtain ⟨n, hn, hq, -⟩ := (ready_iff hv).1 hready
    have hopen := (coherent_of_history h.history).of_cancellable (lifecycle_node hn) (Or.inl hq)
    obtain hs | hs | hs := h.status
    · simp [WorkflowRunStatus.Shut, WorkflowRunStatus.Terminal, hs] at hshut
    · simp [WorkflowRunStatus.Shut, WorkflowRunStatus.Terminal, hs] at hshut
    · exact hopen.1 hs
  · exact report_accepted h.history (lookup_of_mem hv.nodup hn) (Or.inl hr) hrep hcall
  · exact (hrep.subperm h.reported_subset).length_le
  · rw [length_eq_iff h.nodup hnd h.started_subset, length_eq_iff hrep hnd h.reported_subset,
      h.succeeded_iff]
    constructor
    · intro hall
      refine ⟨fun i hi => ?_, fun i hi => (h.reports i).2 (hall i hi)⟩
      obtain ⟨n, hn, hs⟩ := hall i hi
      exact (h.starts i).2 ⟨n, hn, by simp [hs]⟩
    · exact fun hall i hi => (h.reports i).1 (hall.2 hi)

def chainWork : List Request :=
  [⟨.startNode "a", callAt 1 "s1"⟩, ⟨.succeedNode "a" "done" none [("x", "ref")], callAt 2 "s2"⟩,
    ⟨.startNode "b", callAt 3 "s3"⟩, ⟨.succeedNode "b" "done" none [], callAt 4 "s4"⟩]

def newChain : WorkflowRun := (playNew chain []).get (by decide +kernel)

theorem newChain_created : Created chain newChain :=
  ⟨"owner", "key", "input", ⟨0, true⟩, 1, fun k => 2 + k, fun _ => 9, by decide +kernel⟩

theorem work_completes_chain :
    ((play chain chainWork newChain).get (by decide +kernel)).status = .succeeded := by
  have hsteps := steps_of_play (Option.some_get (by decide +kernel :
    (play chain chainWork newChain).isSome)).symm
  have hworks : ∀ r ∈ chainWork, r.command.Works := by simp [chainWork, WorkflowCommand.Works]
  exact ((work_completes newChain_created (hsteps.guarded hworks) (by decide)).2.2.2.2.2
    (by decide)).2.2 (by decide)

end GoAgent.Workflow
