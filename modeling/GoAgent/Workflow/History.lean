import GoAgent.Foundation.Transition
import GoAgent.Workflow.Effect

/-!
# Histories of a run

A history starts with `WorkflowRun.create` and goes on with accepted commands. Every run in it
has the nodes of its version (`instantiates_of_history`), and its log only grows
(`events_prefix_of_steps`).
-/

namespace GoAgent.Workflow

open GoAgent.Foundation WorkflowRun

/-- The request is accepted. -/
def Step (v : WorkflowVersion) (run : WorkflowRun) (r : Request) (run' : WorkflowRun) : Prop :=
  execute v r run = .ok () run'

/-- What `create` can return for a version. -/
def Created (v : WorkflowVersion) (run : WorkflowRun) : Prop :=
  ∃ owner key input now id nodeIdAt uuid4, create v owner key input now id nodeIdAt uuid4 = .ok run

/-- The runs some sequence of accepted commands leads to. -/
def History (v : WorkflowVersion) : WorkflowRun → Prop := Reachable (Created v) (Step v)

variable {v : WorkflowVersion} {run run' : WorkflowRun} {r : Request} {c : WorkflowCommand}
  {call : Call} {i : String} {n : WorkflowNodeRun}

/-! ## Creation -/

/-- The node run made for a definition. -/
def createdNode (now : DateTime) (id : UUID) (d : WorkflowNodeDefinition) : WorkflowNodeRun :=
  { nodeId := nodeIdOf d, nodeType := d.nodeType, capabilityCode := d.capabilityCode.1,
    maxAttempts := d.maxAttempts, createdAt := some now, updatedAt := some now, id }

theorem createNode_eq (now : DateTime) (id : UUID) (d : WorkflowNodeDefinition) :
    createNode now id d = .ok (createdNode now id d) := by
  have hid : identifier (nodeIdOf d) "节点标识" = .ok d.nodeId := identifier_self _ _
  simp only [createNode, hid, identifier_self, except_bind_ok, exists_unit, require_ok,
    except_pure_ok, Except.ok.injEq, exists_eq_left', d.maxAttempts_pos, true_and]
  rfl

/-- A created run: every node of the version queued and never started, and one logged event. -/
theorem created_spec (h : Created v run) :
    Instantiates v run.nodes ∧ run.status = .queued ∧
      (∀ n ∈ run.nodes, ∃ now id d, n = createdNode now id d) ∧
      ∃ e, run.events = [e] ∧ e.eventType = .runCreated ∧ e.transitionId = "create" ∧
        e.metadata.nodeId = none ∧ e.sequence = 1 ∧ e.runId = run.id := by
  obtain ⟨owner, key, input, now, id, nodeIdAt, uuid4, h⟩ := h
  have hnodes : ∀ now, mapEach (fun p => createNode now (nodeIdAt p.2) p.1) v.nodes.zipIdx =
      .ok (v.nodes.zipIdx.map fun p => createdNode now (nodeIdAt p.2) p.1) := fun now => by
    apply mapEach_eq_map
    exact fun p _ => createNode_eq now (nodeIdAt p.2) p.1
  simp only [create, except_bind_ok, utc_ok, text_ok, hnodes, WorkflowEvent.make_ok,
    except_pure_ok, Except.ok.injEq] at h
  obtain ⟨_, ⟨-, rfl⟩, _, -, _, -, _, -, _, rfl, e, ⟨-, rfl⟩, rfl⟩ := h
  refine ⟨?_, rfl, ?_, _, rfl, rfl, rfl, rfl, rfl, rfl⟩
  · have hfixed : ∀ p : WorkflowNodeDefinition × Nat,
        ∀ now, (createdNode now (nodeIdAt p.2) p.1).fixed = p.1.fixed := fun _ _ => rfl
    have hmap : v.nodes.zipIdx.map (fun p => p.1.fixed) =
        (v.nodes.zipIdx.map Prod.fst).map WorkflowNodeDefinition.fixed := by
      rw [List.map_map]
      rfl
    simp only [Instantiates, List.map_map, Function.comp_def, hfixed, hmap, List.zipIdx_map_fst,
      List.Perm.refl]
  · intro n hn
    obtain ⟨p, -, rfl⟩ := List.mem_map.1 hn
    exact ⟨_, _, _, rfl⟩

/-! ## Cancelling the nodes -/

/-- What holds of a run and survives the cancellation of any one node holds after the loop. -/
theorem cancelEach_rule {P : WorkflowRun → Prop}
    (hP : ∀ {run n}, P run → run.node? n.nodeId = some n → n.status.Cancellable →
      P (run.cancelNode call n)) {ids : List String} (h : P run) : P (cancelEach call ids run) := by
  induction ids generalizing run with
  | nil => exact h
  | cons nodeId ids ih =>
    simp only [cancelEach]
    split
    · next n hn =>
      split_ifs with hc
      · exact ih (hP h (by rwa [nodeId_of_node? hn]) hc)
      · exact ih h
    · exact ih h

@[simp] theorem cancelEach_status {ids : List String} :
    (cancelEach call ids run).status = run.status :=
  cancelEach_rule (P := fun r => r.status = run.status) (fun h _ _ => h) rfl

/-- The node a cancellation request leaves. -/
def WorkflowNodeRun.cancelledBy (n : WorkflowNodeRun) (call : Call) : WorkflowNodeRun :=
  if n.status.Cancellable then n.cancelRequestedAt call.now else n

theorem cancelledBy_done : ¬(n.cancelledBy call).status.Cancellable := by
  unfold WorkflowNodeRun.cancelledBy WorkflowNodeRun.cancelRequestedAt
  split_ifs with hc hact
  · show ¬WorkflowNodeStatus.cancelRequested.Cancellable
    decide
  · show ¬WorkflowNodeStatus.cancelled.Cancellable
    decide
  · exact hc

theorem cancelledBy_cancelledBy : (n.cancelledBy call).cancelledBy call = n.cancelledBy call :=
  if_neg cancelledBy_done

theorem cancelNode_node? (hn : run.node? n.nodeId = some n) :
    (if n.status.Cancellable then run.cancelNode call n else run).node? i =
      if i = n.nodeId then (run.node? i).map (·.cancelledBy call) else run.node? i := by
  by_cases hc : n.status.Cancellable
  · have hself : n.cancelledBy call = n.cancelRequestedAt call.now := if_pos hc
    rw [if_pos hc, cancelNode, recordNode_node?, node?_put (by rfl) hn]
    by_cases hi : i = n.nodeId
    · rw [if_pos hi, if_pos hi, hi, hn, Option.map_some, hself]
    · rw [if_neg hi, if_neg hi]
  · have hself : n.cancelledBy call = n := if_neg hc
    rw [if_neg hc]
    by_cases hi : i = n.nodeId
    · rw [if_pos hi, hi, hn, Option.map_some, hself]
    · rw [if_neg hi]

theorem cancelEach_node? {ids : List String} : (cancelEach call ids run).node? i =
    if i ∈ ids then (run.node? i).map (·.cancelledBy call) else run.node? i := by
  induction ids generalizing run with
  | nil => rfl
  | cons nodeId ids ih =>
    simp only [cancelEach, List.mem_cons]
    split
    · next n hn =>
      obtain rfl := nodeId_of_node? hn
      rw [ih, cancelNode_node? hn]
      by_cases hi : i = n.nodeId
      · simp [hi, hn, cancelledBy_cancelledBy]
      · simp [hi]
    · next hn =>
      rw [ih]
      by_cases hi : i = nodeId
      · simp [hi, hn]
      · simp [hi]

/-! ## What every command keeps -/

theorem instantiates_cancelEach {ids : List String} (h : Instantiates v run.nodes) :
    Instantiates v (cancelEach call ids run).nodes :=
  cancelEach_rule (P := fun run => Instantiates v run.nodes)
    (fun h hn _ => instantiates_put h hn rfl) h

/-- No command touches what a node keeps of its definition. -/
theorem instantiates_of_effect (h : Instantiates v run.nodes) (he : Effect v call run c run') :
    Instantiates v run'.nodes := by
  cases he with
  | acceptLogged | succeedLogged | cancelAgain | succeedUnlogged => simpa using h
  | start _ _ _ hn | succeed hn | reject _ hn | retry hn | fail hn =>
    simp only [touched_nodes, recordNode_nodes, begun_nodes, refreshed_nodes, failedWith_nodes]
    exact instantiates_put h hn rfl
  | accept _ hn hn' =>
    simp only [touched_nodes, record_nodes, recordNode_nodes, withStatus_nodes]
    obtain ⟨-, -, rfl⟩ | ⟨-, rfl, -⟩ := hn' <;> exact instantiates_put h hn rfl
  | skip hn hn' =>
    simp only [recordNode_nodes, refreshed_nodes]
    obtain ⟨-, rfl⟩ | ⟨-, rfl⟩ := hn' <;> exact instantiates_put h hn rfl
  | cancel =>
    simp only [touched_nodes, closed_nodes]
    exact instantiates_cancelEach h
  | confirm hn hn' =>
    simp only [touched_nodes, cancelSettled_nodes, recordNode_nodes]
    obtain ⟨-, rfl⟩ | ⟨-, rfl⟩ := hn' <;> exact instantiates_put h hn rfl

theorem instantiates_of_history (h : History v run) : Instantiates v run.nodes :=
  h.invariant (fun h => (created_spec h).1) fun hi h =>
    instantiates_of_effect hi (effect_of_execute hi h)

/-- The effect of a step of a history. -/
theorem History.effect (h : History v run) (hs : Step v run r run') :
    Effect v r.call run r.command run' :=
  effect_of_execute (instantiates_of_history h) hs

/-! ## Playing requests -/

/-- Carry out the requests one after another; `none` when one is refused. -/
def play (v : WorkflowVersion) : List Request → WorkflowRun → Option WorkflowRun
  | [], run => some run
  | r :: rs, run =>
    match execute v r run with
    | .ok () run' => play v rs run'
    | .error _ _ => none

theorem steps_of_play {rs : List Request} (h : play v rs run = some run') :
    Steps (Step v) run rs run' := by
  induction rs generalizing run with
  | nil =>
    cases h
    exact .nil _
  | cons r rs ih =>
    unfold play at h
    split at h
    · next hs => exact .cons hs (ih h)
    · cases h

theorem step_of_play (h : play v [r] run = some run') : Step v run r run' := by
  cases steps_of_play h with
  | cons hs hn =>
    cases hn
    exact hs

/-- A run of the version after the requests. -/
def playNew (v : WorkflowVersion) (rs : List Request) : Option WorkflowRun :=
  match create v "owner" "key" "input" ⟨0, true⟩ 1 (fun k => 2 + k) fun _ => 9 with
  | .ok run => play v rs run
  | .error _ => none

theorem run_of_playNew {rs : List Request} (h : playNew v rs = some run) :
    ∃ run₀, Created v run₀ ∧ Steps (Step v) run₀ rs run := by
  unfold playNew at h
  split at h
  · next run₀ hc => exact ⟨run₀, ⟨_, _, _, _, _, _, _, hc⟩, steps_of_play h⟩
  · cases h

theorem history_of_playNew {rs : List Request} (h : playNew v rs = some run) : History v run := by
  obtain ⟨run₀, hc, hs⟩ := run_of_playNew h
  exact ⟨run₀, rs, hc, hs⟩

/-- A call at time `t`, with ids of its own for the events it logs. -/
def callAt (t : Nat) (commandId : String) : Call where
  now := ⟨t, true⟩
  commandId := commandId
  uuid4 k := 100 * t + k

/-- A node without fields and with one attempt. -/
def plainNode (nodeId : Identifier) : WorkflowNodeDefinition where
  nodeId := nodeId
  nodeType := .capability
  capabilityCode := ⟨"work", by decide⟩
  maxAttempts := 1
  inputFields := ⟨[], by simp⟩
  outputFields := ⟨[], by simp⟩
  maxAttempts_pos := Nat.one_pos

def nodeA : Identifier := ⟨"a", by decide⟩
def nodeB : Identifier := ⟨"b", by decide⟩
def nodeC : Identifier := ⟨"c", by decide⟩
def flow : Identifier := ⟨"flow", by decide⟩
def version1 : Identifier := ⟨"v1", by decide⟩

/-- Three nodes that do not depend on each other. -/
def parallel : WorkflowVersion where
  workflowCode := flow
  version := version1
  nodes := [plainNode nodeA, plainNode nodeB, plainNode nodeC]
  edges := []
  enabled := true
  accepted := rfl

end GoAgent.Workflow
