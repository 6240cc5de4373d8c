import GoAgent.Workflow.EventLog

/-!
# Readiness

A queued node is ready when it is *fed*: every predecessor has succeeded, and the outputs logged
for it include the fields the edge binds.

* `readyNodes_spec` — the code's readiness, read off the event log, is that condition.
* `started_stays_fed` — a node that was ever started is fed, and the outputs that feed it never
  change.
-/

namespace GoAgent.Workflow

open GoAgent.Foundation WorkflowRun

variable {v : WorkflowVersion} {run run' : WorkflowRun} {r : Request} {c : WorkflowCommand}
  {call : Call} {i suffix : String} {n n' : WorkflowNodeRun}

/-! ## Readiness -/

/-- Every predecessor of the node has succeeded, with the outputs the edges bind. -/
def Fed (v : WorkflowVersion) (run : WorkflowRun) (nodeId : String) : Prop :=
  ∀ e ∈ v.edges, e.targetNodeId.1 = nodeId →
    (∃ p, run.node? e.sourceNodeId.1 = some p ∧ p.status = .succeeded) ∧ run.Bound e

theorem node?_of_mem (hv : Instantiates v run.nodes) (hi : i ∈ v.nodeIds) :
    ∃ n, run.node? i = some n :=
  Option.isSome_iff_exists.1 (lookup_isSome_iff.2 (hv.mem_nodeIds.2 hi))

theorem source_mem {e : WorkflowEdgeDefinition} (he : e ∈ v.edges) :
    e.sourceNodeId.1 ∈ v.nodeIds := by
  obtain ⟨s, hs, -, -, hse, -⟩ := v.edge_ends he
  exact List.mem_map.2 ⟨s, hs, hse⟩

/-- The predecessors' part of the readiness condition. -/
theorem allHold_predecessors (hv : Instantiates v run.nodes) (edges : List WorkflowEdgeDefinition)
    (hedges : ∀ e ∈ edges, e ∈ v.edges) : ∃ b, allHold (fun p => do
        let predecessor ← run.node p
        pure (decide (predecessor.status = .succeeded))) (edges.map fun e => e.sourceNodeId.1) =
        .ok b ∧
      (b = true ↔ ∀ e ∈ edges, ∃ p, run.node? e.sourceNodeId.1 = some p ∧ p.status = .succeeded) := by
  let succeeded (p : String) : Bool := (run.node? p).any fun n => n.status = .succeeded
  refine ⟨_, allHold_eq_all (q := succeeded) fun p hp => ?_, ?_⟩
  · obtain ⟨e, he, rfl⟩ := List.mem_map.1 hp
    obtain ⟨n, hn⟩ := node?_of_mem hv (source_mem (hedges e he))
    have hnode : run.node e.sourceNodeId.1 = .ok n := node_ok.2 hn
    simp [hnode, succeeded, hn]
  · simp [succeeded, Option.any_eq_true]

/-- A node is ready when it is queued and fed. -/
theorem isReady_spec (hv : Instantiates v run.nodes) (hn : n ∈ run.nodes) :
    ∃ b, run.isReady v n = .ok b ∧ (b = true ↔ n.status = .queued ∧ Fed v run n.nodeId) := by
  by_cases hq : n.status = .queued
  · have hmem : n.nodeId ∈ v.nodeIds := hv.mem_nodeIds.1 (List.mem_map_of_mem hn)
    obtain ⟨b, hb, hspec⟩ := allHold_predecessors hv
      (v.edges.filter fun e => e.targetNodeId.1 = n.nodeId) fun e he => (List.mem_filter.1 he).1
    have hedges : (∀ e ∈ v.edges.filter fun e => e.targetNodeId.1 = n.nodeId,
        ∃ p, run.node? e.sourceNodeId.1 = some p ∧ p.status = .succeeded) ↔
        ∀ e ∈ v.edges, e.targetNodeId.1 = n.nodeId →
          ∃ p, run.node? e.sourceNodeId.1 = some p ∧ p.status = .succeeded := by
      simp [List.mem_filter]
    rw [hedges] at hspec
    simp only [isReady, hq, ne_eq, not_true, if_false, v.predecessors_of_mem hmem,
      v.incomingEdges_of_mem hmem, ok_bind, hb, true_and]
    cases b with
    | false =>
      refine ⟨false, rfl, ?_⟩
      simp only [Bool.false_eq_true, false_iff]
      exact fun hfed => Bool.false_ne_true (hspec.2 fun e he ht => (hfed e he ht).1)
    | true =>
      refine ⟨_, rfl, ?_⟩
      simp only [decide_eq_true_eq, List.mem_filter, and_imp]
      exact ⟨fun hb e he ht => ⟨hspec.1 rfl e he ht, hb e he ht⟩, fun hfed e he ht => (hfed e he ht).2⟩
  · exact ⟨false, by simp only [isReady, ne_eq, hq, not_false_eq_true, if_true]; rfl, by simp [hq]⟩

/-- **Ready nodes.** `ready_nodes` always answers, with the queued nodes that are fed. -/
theorem readyNodes_spec (hv : Instantiates v run.nodes) :
    ∃ ready, run.readyNodes v = .ok ready ∧
      ∀ i, i ∈ ready ↔ ∃ n, run.node? i = some n ∧ n.status = .queued ∧ Fed v run i := by
  classical
  have hkeep := keepIf_eq_filter (p := run.isReady v) (l := run.nodes)
    (q := fun n => decide (n.status = .queued ∧ Fed v run n.nodeId)) fun n hn => by
      obtain ⟨b, hb, hspec⟩ := isReady_spec hv hn
      simp only [hb, ← hspec, Bool.decide_eq_true]
  refine ⟨_, by rw [readyNodes, hkeep]; rfl, fun i => ?_⟩
  simp only [List.mem_map, List.mem_filter, decide_eq_true_eq]
  constructor
  · rintro ⟨n, ⟨hn, hq, hfed⟩, rfl⟩
    exact ⟨n, lookup_of_mem hv.nodup hn, hq, hfed⟩
  · rintro ⟨n, hn, hq, hfed⟩
    obtain rfl := nodeId_of_node? hn
    exact ⟨n, ⟨mem_of_node? hn, hq, hfed⟩, rfl⟩

theorem ready_iff (hv : Instantiates v run.nodes) :
    run.Ready v i ↔ ∃ n, run.node? i = some n ∧ n.status = .queued ∧ Fed v run i := by
  obtain ⟨ready, hready, hspec⟩ := readyNodes_spec hv
  rw [← hspec]
  constructor
  · rintro ⟨ready', hready', hi⟩
    obtain rfl := Except.ok.inj (hready'.symm.trans hready)
    exact hi
  · exact fun hi => ⟨ready, hready, hi⟩

/-! ## Delivered outputs -/

/-- The success of the node is logged, with exactly the outputs its definition declares. -/
def Delivered (v : WorkflowVersion) (run : WorkflowRun) (nodeId : String) : Prop :=
  ∃ e outputs d, run.findLatestNodeEvent nodeId .nodeSucceeded = some e ∧
    e.metadata.outputReferences = some outputs ∧ v.node nodeId = .ok d ∧
    ∀ f, f ∈ outputs.map Prod.fst ↔ f ∈ d.outputFields.1

theorem Delivered.bound {e : WorkflowEdgeDefinition} (he : e ∈ v.edges)
    (h : Delivered v run e.sourceNodeId.1) : run.Bound e := by
  obtain ⟨ev, outputs, d, hlog, hout, hd, hfields⟩ := h
  obtain ⟨s, hs, -, -, hsid, -, hsub, -⟩ := v.edge_ends he
  obtain rfl : s = d := Except.ok.inj ((v.node_ok.2 ⟨hs, hsid⟩).symm.trans hd)
  intro f hf
  rw [outputReferences, hlog]
  show f ∈ (ev.metadata.outputReferences.getD []).map Prod.fst
  rw [hout]
  exact (hfields f).2 (hsub f hf)

/-- Where every success is delivered, a node is fed once its predecessors have succeeded. -/
theorem fed_of_delivered (hdel : ∀ i, run.At i .succeeded → Delivered v run i)
    (hpred : ∀ e ∈ v.edges, e.targetNodeId.1 = i → run.At e.sourceNodeId.1 .succeeded) :
    Fed v run i := fun e he ht => ⟨hpred e he ht, (hdel _ (hpred e he ht)).bound he⟩

theorem at_of_put {j : String} {m m' : WorkflowNodeRun} {s : WorkflowNodeStatus}
    (h : (run.put j m').At i s) (hm : run.node? j = some m) (hid : m'.nodeId = m.nodeId)
    (hne : m'.status ≠ s) : run.At i s := by
  obtain ⟨n, hn, hs⟩ := h
  rw [node?_put (hid.trans (nodeId_of_node? hm)) hm] at hn
  split_ifs at hn with hij
  · obtain rfl := Option.some.inj hn
    exact absurd hs hne
  · exact ⟨n, hn, hs⟩

/-- A node succeeds by the report of its success, and not otherwise. -/
theorem succeeds_by_report (he : Effect v call run c run') (h : run'.At i .succeeded) :
    run.At i .succeeded ∨ (∃ n, run.node? i = some n ∧ n.status.Active) ∧
      ∃ summary fp outputs, c = .succeedNode i summary fp outputs := by
  cases he with
  | acceptLogged | succeedLogged | cancelAgain => exact Or.inl h
  | succeedUnlogged =>
    obtain ⟨n, hn, hs⟩ := h
    exact Or.inl ⟨n, by simpa using hn, hs⟩
  | @succeed j summary fp fp' outputs m d hm hact =>
    by_cases hij : i = j
    · subst hij
      exact Or.inr ⟨⟨m, hm, hact⟩, _, _, _, rfl⟩
    · obtain ⟨n, hn, hs⟩ := h
      have hid : (m.succeededWith (strip summary) fp' call.now).nodeId = j :=
        (nodeId_of_node? hm :)
      rw [refreshed_node?, recordNode_node?, node?_put hid hm, if_neg hij] at hn
      exact Or.inl ⟨n, hn, hs⟩
  | start _ _ _ hm =>
    obtain ⟨n, hn, hs⟩ := h
    simp only [touched_node?, recordNode_node?, begun_node?] at hn
    exact Or.inl (at_of_put ⟨n, hn, hs⟩ hm rfl (by simp [WorkflowNodeRun.started]))
  | accept _ hm hm' =>
    obtain ⟨n, hn, hs⟩ := h
    simp only [touched_node?, record_node?, recordNode_node?, withStatus_node?] at hn
    obtain ⟨-, -, rfl⟩ | ⟨ha, rfl, -⟩ := hm'
    · exact Or.inl (at_of_put ⟨n, hn, hs⟩ hm rfl (by simp [WorkflowNodeRun.acceptedWith]))
    · exact Or.inl (at_of_put ⟨n, hn, hs⟩ hm rfl (by simp [ha]))
  | reject _ hm =>
    obtain ⟨n, hn, hs⟩ := h
    simp only [touched_node?, failedWith_node?, recordNode_node?] at hn
    exact Or.inl (at_of_put ⟨n, hn, hs⟩ hm rfl (by simp [WorkflowNodeRun.rejectedWith]))
  | retry hm _ hr =>
    obtain ⟨n, hn, hs⟩ := h
    simp only [touched_node?, recordNode_node?] at hn
    exact Or.inl (at_of_put ⟨n, hn, hs⟩ hm rfl (by simp [WorkflowNodeRun.failedWith, hr]))
  | fail hm _ hr =>
    obtain ⟨n, hn, hs⟩ := h
    simp only [touched_node?, failedWith_node?, recordNode_node?] at hn
    exact Or.inl (at_of_put ⟨n, hn, hs⟩ hm rfl (by simp [WorkflowNodeRun.failedWith, hr]))
  | skip hm hm' =>
    obtain ⟨n, hn, hs⟩ := h
    simp only [refreshed_node?, recordNode_node?] at hn
    obtain ⟨-, rfl⟩ | ⟨hk, rfl⟩ := hm'
    · exact Or.inl (at_of_put ⟨n, hn, hs⟩ hm rfl (by simp [WorkflowNodeRun.skippedWith]))
    · exact Or.inl (at_of_put ⟨n, hn, hs⟩ hm rfl (by simp [hk]))
  | cancel =>
    obtain ⟨n, hn, hs⟩ := h
    simp only [touched_node?, closed_node?, cancelEach_node?, cancelStarted_node?] at hn
    split_ifs at hn
    · obtain ⟨m, hm, rfl⟩ := Option.map_eq_some_iff.1 hn
      rw [cancelledBy_status] at hs
      exact Or.inl ⟨m, hm, Lifecycle.cancelNode_eq_succeeded.1 hs⟩
    · exact Or.inl ⟨n, hn, hs⟩
  | confirm hm hm' =>
    obtain ⟨n, hn, hs⟩ := h
    simp only [touched_node?, cancelSettled_node?, recordNode_node?] at hn
    obtain ⟨-, rfl⟩ | ⟨hk, rfl⟩ := hm'
    · exact Or.inl (at_of_put ⟨n, hn, hs⟩ hm rfl (by simp [WorkflowNodeRun.cancelledAt]))
    · exact Or.inl (at_of_put ⟨n, hn, hs⟩ hm rfl (by simp [hk]))

/-- The event logged for a success under a new transition id. -/
theorem latest_recordNode (hid : n.nodeId = i)
    (hfresh : ¬run.hasTransition (call.commandId ++ suffix)) {data : EventMetadata} :
    ∃ e, ((run.recordNode call suffix n .nodeSucceeded data).refreshed
        call).findLatestNodeEvent i .nodeSucceeded = some e ∧
      e.metadata.outputReferences = data.outputReferences := by
  rw [latest_refreshed]
  exact ⟨_, latest_post_of_fresh (by exact hfresh) (by simp [nextEvent, hid]), rfl⟩

/-- **Deliveries.** While the success of a node at work is reported under transition ids not yet
in the log, every success is delivered. -/
theorem delivered_of_effect (he : Effect v call run c run')
    (hdel : ∀ i, run.At i .succeeded → Delivered v run i)
    (hfresh : ∀ i summary fp outputs n, c = .succeedNode i summary fp outputs →
      run.node? i = some n → n.status.Active → ¬run.hasTransition (call.commandId ++ ":succeed"))
    (h : run'.At i .succeeded) : Delivered v run' i := by
  by_cases hc : ∀ summary fp outputs, c ≠ .succeedNode i summary fp outputs
  · obtain hs | ⟨-, summary, fp, outputs, hs⟩ := succeeds_by_report he h
    · obtain ⟨e, outputs, d, hlog, hd⟩ := hdel i hs
      exact ⟨e, outputs, d, (latest_of_effect he hc).trans hlog, hd⟩
    · exact absurd hs (hc _ _ _)
  · push Not at hc
    obtain ⟨summary, fp, outputs, rfl⟩ := hc
    cases he with
    | succeedLogged => exact hdel i h
    | @succeed _ _ _ fp' _ n _ hn hact hd hout =>
      have hid : (n.succeededWith (strip summary) fp' call.now).nodeId = i :=
        (nodeId_of_node? hn :)
      have hnew : ¬(run.put i (n.succeededWith (strip summary) fp' call.now)).hasTransition
          (call.commandId ++ ":succeed") := hfresh i _ _ _ _ rfl hn hact
      obtain ⟨e, hlog, he⟩ := latest_recordNode hid hnew
      exact ⟨e, outputs, _, hlog, he, hd, hout⟩
    | succeedUnlogged hn hs hlog =>
      obtain ⟨e, -, -, hsome, -⟩ := hdel i ⟨_, hn, hs⟩
      rw [hlog] at hsome
      cases hsome

/-! ## Started nodes stay fed -/

/-- A node that has succeeded stays so, with its outputs. -/
theorem succeeded_of_effect (he : Effect v call run c run') (hn : run.node? i = some n)
    (hs : n.status = .succeeded) :
    run'.node? i = some n ∧ run'.outputReferences i = run.outputReferences i := by
  obtain ⟨n', hn', hmove⟩ := nodeMove_of_effect he hn
  obtain rfl := hmove.eq_of_done (Or.inr (Or.inl hs))
  exact ⟨hn', outputs_of_effect he hn hs⟩

theorem Fed.of_effect (h : Fed v run i) (he : Effect v call run c run') : Fed v run' i := by
  intro e hmem ht
  obtain ⟨⟨p, hp, hs⟩, hbound⟩ := h e hmem ht
  obtain ⟨hp', hout⟩ := succeeded_of_effect he hp hs
  refine ⟨⟨p, hp', hs⟩, ?_⟩
  unfold Bound
  rw [hout]
  exact hbound

/-- Only a start raises the attempts of a node. -/
theorem NodeMove.attempts {ready : String → Prop} {now : DateTime} (h : NodeMove ready now n n') :
    n'.attemptCount = n.attemptCount ∨ ready n.nodeId := by
  cases h with
  | start hready => exact Or.inr hready
  | stay | accept | succeed | reject | fail | skip | cancel | confirm => exact Or.inl rfl

/-- A node that was ever started is fed. -/
theorem fed_of_history (h : History v run) (hn : run.node? i = some n) (ha : 0 < n.attemptCount) :
    Fed v run i := by
  have hall : Instantiates v run.nodes ∧
      ∀ {i n}, run.node? i = some n → 0 < n.attemptCount → Fed v run i := by
    refine h.invariant (P := fun run => Instantiates v run.nodes ∧
      ∀ {i n}, run.node? i = some n → 0 < n.attemptCount → Fed v run i)
      (fun {run} hc => ⟨(created_spec hc).1, fun {i n} hn ha => ?_⟩)
      fun {run r run'} hi hs => ?_
    · obtain ⟨_, _, _, rfl⟩ := (created_spec hc).2.2.1 n (mem_of_node? hn)
      exact absurd ha (lt_irrefl 0)
    · have he := effect_of_execute hi.1 hs
      refine ⟨instantiates_of_effect hi.1 he, fun {i n'} hn' ha => ?_⟩
      obtain ⟨n, hn⟩ := node?_of_mem (i := i) hi.1 (by
        rw [← (instantiates_of_effect hi.1 he).mem_nodeIds]
        exact lookup_isSome_iff.1 (Option.isSome_iff_exists.2 ⟨n', hn'⟩))
      obtain ⟨m, hm, hmove⟩ := nodeMove_of_effect he hn
      obtain rfl := Option.some.inj (hm.symm.trans hn')
      obtain hsame | hready := hmove.attempts
      · exact (hi.2 hn (hsame ▸ ha)).of_effect he
      · obtain ⟨-, -, -, hfed⟩ := (ready_iff hi.1).1 hready
        exact (nodeId_of_node? hn ▸ hfed : Fed v run i).of_effect he
  exact hall.2 hn ha

/-- **A started node stays fed.** From the moment a node has been started, every predecessor has
succeeded and its recorded outputs, which never change, include the fields each edge binds. -/
theorem started_stays_fed {rs : List Request} (h : History v run) (hn : n ∈ run.nodes)
    (ha : 0 < n.attemptCount) (hsteps : Steps (Step v) run rs run') :
    ∀ e ∈ v.edges, e.targetNodeId.1 = n.nodeId →
      (∃ p, run'.node? e.sourceNodeId.1 = some p ∧ p.status = .succeeded) ∧
      (∀ f ∈ e.outputFields.1, f ∈ (run'.outputReferences e.sourceNodeId.1).map Prod.fst) ∧
      run'.outputReferences e.sourceNodeId.1 = run.outputReferences e.sourceNodeId.1 := by
  have hfed := fed_of_history h (lookup_of_mem (instantiates_of_history h).nodup hn) ha
  intro e he ht
  obtain ⟨⟨p, hp, hs⟩, hbound⟩ := hfed e he ht
  have hkept : ∀ {rs run'}, Steps (Step v) run rs run' →
      run'.node? e.sourceNodeId.1 = some p ∧
      run'.outputReferences e.sourceNodeId.1 = run.outputReferences e.sourceNodeId.1 := by
    intro rs run' hsteps
    refine Steps.snocInduction (P := fun _ run' => run'.node? e.sourceNodeId.1 = some p ∧
      run'.outputReferences e.sourceNodeId.1 = run.outputReferences e.sourceNodeId.1)
      ⟨hp, rfl⟩ (fun hsteps ih hstep => ?_) hsteps
    obtain ⟨hp', hout⟩ := succeeded_of_effect (History.effect (h.steps hsteps) hstep) ih.1 hs
    exact ⟨hp', hout.trans ih.2⟩
  obtain ⟨hp', hout⟩ := hkept hsteps
  refine ⟨⟨p, hp', hs⟩, fun f hf => ?_, hout⟩
  rw [hout]
  exact hbound f hf

def oneField (f : Identifier) : FieldNames :=
  ⟨[f.1], fun _ h => List.mem_singleton.1 h ▸ f.2, List.nodup_singleton _⟩

def fieldX : FieldNames := oneField ⟨"x", by decide⟩

/-- Node `b` takes the field `x` from node `a`. -/
def chain : WorkflowVersion where
  workflowCode := flow
  version := version1
  nodes := [{ plainNode nodeA with outputFields := fieldX },
    { plainNode nodeB with inputFields := fieldX }]
  edges := [⟨nodeA, nodeB, fieldX, by decide⟩]
  enabled := true
  accepted := rfl

/-- Node `b` runs on the output of `a`. -/
def chainRun : WorkflowRun :=
  (playNew chain [⟨.startNode "a", callAt 1 "s1"⟩,
    ⟨.succeedNode "a" "done" none [("x", "ref")], callAt 2 "s2"⟩,
    ⟨.startNode "b", callAt 3 "s3"⟩]).get (by decide +kernel)

/-- A repeated success report of `a` leaves what `b` runs on. -/
theorem started_stays_fed_chain :
    ((play chain [⟨.succeedNode "a" "done" none [("x", "ref")], callAt 4 "s4"⟩] chainRun).get
      (by decide +kernel)).outputReferences "a" = chainRun.outputReferences "a" :=
  (started_stays_fed (n := (chainRun.node? "b").get (by decide +kernel))
    (history_of_playNew (Option.some_get _).symm)
    (mem_of_node? (Option.some_get _).symm) (by decide +kernel)
    (.cons (step_of_play (Option.some_get _).symm) (.nil _))
    _ List.mem_cons_self (by decide +kernel)).2.2

end GoAgent.Workflow
