import GoAgent.Workflow.NodeMove
import Mathlib.Logic.Relation

/-!
# The writes of a command

Whatever a command does to a run it does by single writes: it puts a moved node in its place,
logs a checked event under a fresh transition id, or sets a field of the run. `Write call` lists
them, and an accepted command is a sequence of them (`writes_of_execute`). What every write keeps
is kept by every command, so the facts a stored run needs are read off this one list:

* `Evolves` — a run keeps its identity, its nodes keep theirs, and the log only grows.
* `Storable` — every node and event of a run passes its constructor again.
-/

namespace GoAgent.Workflow

open GoAgent.Foundation WorkflowRun

variable {v : WorkflowVersion} {run run' run₀ : WorkflowRun} {r : Request} {call : Call}
  {nodeId : String} {n n' : WorkflowNodeRun} {o : Occasion} {e : WorkflowEvent} {now : DateTime}

/-- Any move of a node. -/
abbrev AnyMove (now : DateTime) : WorkflowNodeRun → WorkflowNodeRun → Prop :=
  NodeMove (fun _ => True) now

/-- One write of a command. -/
inductive Write (call : Call) (run : WorkflowRun) : WorkflowRun → Prop
  | node {nodeId : String} {n n' : WorkflowNodeRun} (hn : run.node? nodeId = some n)
      (hmove : AnyMove call.now n n') (hnow : call.now.tzAware = true) :
      Write call run (run.put nodeId n')
  | event {e : WorkflowEvent} (hnew : ¬run.hasTransition e.transitionId)
      (hseq : e.sequence = run.events.length + 1) (hrun : e.runId = run.id)
      (hid : e.id = call.uuid4 (run.events.length + 1)) (hcheck : checkEvent e = .ok ()) :
      Write call run { run with events := run.events ++ [e] }
  | status (s : WorkflowRunStatus) : Write call run { run with status := s }
  | resultSummary (s : String) : Write call run { run with resultSummary := some s }
  | failureCode (c : Option String) : Write call run { run with failureCode := c }
  | cancelRequestedAt (hnow : call.now.tzAware = true) :
      Write call run { run with cancelRequestedAt := some call.now }
  | updatedAt (hnow : call.now.tzAware = true) :
      Write call run { run with updatedAt := some call.now }

/-- A sequence of writes of one command. -/
abbrev Writes (call : Call) : WorkflowRun → WorkflowRun → Prop := Relation.ReflTransGen (Write call)

/-! ## The methods of a node move it -/

namespace WorkflowNodeRun

theorem move_of_start (h : start o n = .ok e n') :
    AnyMove o.now n n' ∧ o.now.tzAware = true := by
  obtain ⟨hq, ha, rfl, he⟩ := start_ok.1 h
  exact ⟨.start trivial hq ha, tzAware_of_nodeEvent he⟩

theorem move_of_accept {reference : String} (h : accept reference o n = .ok e n') :
    AnyMove o.now n n' ∧ o.now.tzAware = true := by
  rcases accept_ok.1 h with ⟨-, -, -, -, rfl, he⟩ | ⟨hr, -, href, rfl, he⟩
  · exact ⟨.stay, tzAware_of_nodeEvent he⟩
  · exact ⟨.accept hr href, tzAware_of_nodeEvent he⟩

theorem move_of_succeed {summary : String} {fp : Option String} {outputs : References}
    (h : succeed summary fp outputs o n = .ok e n') :
    AnyMove o.now n n' ∧ o.now.tzAware = true := by
  rcases succeed_ok.1 h with ⟨hact, -, fp', hfp, rfl, he⟩ | ⟨-, -, -, rfl, he⟩
  · exact ⟨.succeed hact fun _ => safe_of_fingerprint hfp, tzAware_of_nodeEvent he⟩
  · exact ⟨.stay, tzAware_of_nodeEvent he⟩

theorem move_of_rejectInput {code : String} (h : rejectInput code o n = .ok e n') :
    AnyMove o.now n n' ∧ o.now.tzAware = true := by
  obtain ⟨hq, -, hcode, rfl, he⟩ := rejectInput_ok.1 h
  exact ⟨.reject hq hcode, tzAware_of_nodeEvent he⟩

theorem move_of_fail {code : String} {retryable : Bool} (h : fail code retryable o n = .ok e n') :
    AnyMove o.now n n' ∧ o.now.tzAware = true := by
  obtain ⟨hact, -, hcode, rfl, he⟩ := fail_ok.1 h
  exact ⟨.fail hact hcode, tzAware_of_nodeEvent he⟩

theorem move_of_skip {reason : String} (h : skip reason o n = .ok e n') :
    AnyMove o.now n n' ∧ o.now.tzAware = true := by
  rcases skip_ok.1 h with ⟨-, -, rfl, he⟩ | ⟨hq, -, rfl, he⟩
  · exact ⟨.stay, tzAware_of_nodeEvent he⟩
  · exact ⟨.skip hq, tzAware_of_nodeEvent he⟩

theorem move_of_requestCancel (h : requestCancel o n = .ok e n') :
    AnyMove o.now n n' ∧ o.now.tzAware = true := by
  rcases requestCancel_ok.1 h with ⟨hact, rfl, he⟩ | ⟨hq, rfl, he⟩
  · exact ⟨.cancel (Or.inr hact), tzAware_of_nodeEvent he⟩
  · exact ⟨.cancel (Or.inl hq), tzAware_of_nodeEvent he⟩

theorem move_of_confirmCancel (h : confirmCancel o n = .ok e n') :
    AnyMove o.now n n' ∧ o.now.tzAware = true := by
  rcases confirmCancel_ok.1 h with ⟨-, rfl, he⟩ | ⟨hc, rfl, he⟩
  · exact ⟨.stay, tzAware_of_nodeEvent he⟩
  · exact ⟨.confirm hc, tzAware_of_nodeEvent he⟩

end WorkflowNodeRun

/-! ## Every command is a sequence of writes -/

section Keeping

variable {eventType : WorkflowEventType} {m : EventMetadata} {transitionId label : String}

theorem keeps_write {f : WorkflowRun → WorkflowRun} (h : ∀ run, Write call run (f run)) :
    Keeps (Writes call run₀) (modify f : RunM Unit) :=
  keeps_modify fun run hrun => hrun.tail (h run)

theorem keeps_onNode {α : Type} {method : NodeM α}
    (h : ∀ n a n', method n = .ok a n' → AnyMove call.now n n' ∧ call.now.tzAware = true) :
    Keeps (Writes call run₀) (onNode nodeId method) := by
  intro run a run' hrun hcall
  obtain ⟨n, n', hn, hm, rfl⟩ := onNode_ok.1 hcall
  obtain ⟨hmove, hnow⟩ := h n a n' hm
  exact hrun.tail (.node hn hmove hnow)

theorem keeps_appendEvent :
    Keeps (Writes call run₀) (appendEvent call transitionId eventType m) := by
  intro run _ run' hrun h
  obtain ⟨hcheck, rfl⟩ := appendEvent_ok.1 h
  by_cases hlogged : run.hasTransition transitionId
  · rwa [record_of_logged hlogged]
  · rw [record_of_fresh hlogged]
    exact hrun.tail (.event hlogged rfl rfl rfl (hcheck hlogged))

theorem keeps_appendExisting : Keeps (Writes call run₀) (appendExisting call e) := by
  intro run _ run' hrun h
  simp only [appendExisting, bind_ok, get_ok, exists_eq_left, exists_and_left, and_assoc] at h
  split_ifs at h with hlogged
  · rwa [(pure_ok.1 h).2]
  · simp only [bind_ok, lift_ok, WorkflowEvent.make_ok, modify_ok, exists_eq_left,
      exists_and_left, and_assoc] at h
    obtain ⟨hcheck, rfl⟩ := h
    exact hrun.tail (.event hlogged rfl rfl rfl hcheck)

theorem keeps_touch : Keeps (Writes call run₀) (touch call label) := by
  intro run _ run' hrun h
  obtain ⟨hnow, rfl⟩ := touch_ok.1 h
  exact hrun.tail (.updatedAt hnow)

theorem keeps_refreshStatus : Keeps (Writes call run₀) (refreshStatus call) := by
  unfold refreshStatus
  refine keeps_bind keeps_get fun run => ?_
  split_ifs
  · exact keeps_bind (keeps_write fun _ => .status _) fun _ =>
      keeps_bind (keeps_write fun _ => .resultSummary _) fun _ => keeps_appendEvent
  · exact keeps_write fun _ => .status _
  · exact keeps_write fun _ => .status _
  · exact keeps_pure

theorem keeps_failWith : Keeps (Writes call run₀) (failWith nodeId call) := by
  unfold failWith
  refine keeps_bind keeps_get fun run => keeps_bind keeps_lift fun n => ?_
  refine keeps_bind (keeps_write fun _ => .status _) fun _ =>
    keeps_bind (keeps_write fun _ => .failureCode _) fun _ => ?_
  split
  · exact keeps_appendEvent
  · exact keeps_throw

theorem keeps_startNode : Keeps (Writes call run₀) (startNode v nodeId call) := by
  unfold startNode
  refine keeps_bind keeps_get fun run => keeps_bind keeps_check fun _ =>
    keeps_bind keeps_lift fun ready => keeps_bind keeps_check fun _ => ?_
  refine keeps_bind (keeps_onNode fun _ _ _ h => WorkflowNodeRun.move_of_start h) fun event => ?_
  have hrest : Keeps (Writes call run₀) (do
      appendExisting call event
      touch call "Run 开始时间"
      pure event : RunM WorkflowEvent) :=
    keeps_bind keeps_appendExisting fun _ => keeps_bind keeps_touch fun _ => keeps_pure
  dsimp only
  split_ifs
  · exact keeps_bind (keeps_write fun _ => .status _) fun _ =>
      keeps_bind keeps_appendEvent fun _ => hrest
  · exact hrest

theorem keeps_acceptNode {reference : String} :
    Keeps (Writes call run₀) (acceptNode nodeId reference call) := by
  unfold acceptNode
  refine keeps_bind keeps_get fun run => keeps_bind keeps_check fun _ =>
    keeps_bind keeps_lift fun n => ?_
  refine keeps_bind (keeps_onNode fun _ _ _ h => WorkflowNodeRun.move_of_accept h) fun event => ?_
  split
  · exact keeps_pure
  · exact keeps_bind (keeps_write fun _ => .status _) fun _ =>
      keeps_bind keeps_appendExisting fun _ => keeps_bind keeps_appendEvent fun _ =>
        keeps_bind keeps_touch fun _ => keeps_pure

theorem keeps_succeedNode {summary : String} {fp : Option String} {outputs : References} :
    Keeps (Writes call run₀) (succeedNode v nodeId summary fp outputs call) := by
  unfold succeedNode
  refine keeps_bind keeps_get fun run => keeps_bind keeps_lift fun n =>
    keeps_bind keeps_lift fun d => keeps_bind keeps_check fun _ => keeps_bind keeps_lift fun _ => ?_
  refine keeps_bind (keeps_of_read fun _ _ _ h => (succeedReplay_ok.1 h).2.2) fun existing => ?_
  split
  · exact keeps_pure
  · exact keeps_bind (keeps_onNode fun _ _ _ h => WorkflowNodeRun.move_of_succeed h) fun _ =>
      keeps_bind keeps_appendExisting fun _ => keeps_bind keeps_refreshStatus fun _ => keeps_pure

theorem keeps_rejectNodeInput {code : String} :
    Keeps (Writes call run₀) (rejectNodeInput nodeId code call) := by
  unfold rejectNodeInput
  refine keeps_bind keeps_get fun run => keeps_bind keeps_check fun _ => ?_
  exact keeps_bind (keeps_onNode fun _ _ _ h => WorkflowNodeRun.move_of_rejectInput h) fun _ =>
    keeps_bind keeps_appendExisting fun _ => keeps_bind keeps_failWith fun _ =>
      keeps_bind keeps_touch fun _ => keeps_pure

theorem keeps_failNode {code : String} {retryable : Bool} :
    Keeps (Writes call run₀) (failNode nodeId code retryable call) := by
  unfold failNode
  refine keeps_bind keeps_get fun run => ?_
  refine keeps_bind (keeps_onNode fun _ _ _ h => WorkflowNodeRun.move_of_fail h) fun event =>
    keeps_bind keeps_appendExisting fun _ => keeps_bind keeps_get fun _ =>
      keeps_bind keeps_lift fun n => ?_
  have hrest : Keeps (Writes call run₀) (do
      touch call "Run 失败时间"
      pure event : RunM WorkflowEvent) :=
    keeps_bind keeps_touch fun _ => keeps_pure
  dsimp only
  split_ifs
  · exact keeps_bind keeps_failWith fun _ => hrest
  · exact hrest

theorem keeps_skipNode {reason : String} :
    Keeps (Writes call run₀) (skipNode nodeId reason call) := by
  unfold skipNode
  refine keeps_bind keeps_get fun run => ?_
  exact keeps_bind (keeps_onNode fun _ _ _ h => WorkflowNodeRun.move_of_skip h) fun _ =>
    keeps_bind keeps_appendExisting fun _ => keeps_bind keeps_refreshStatus fun _ => keeps_pure

theorem keeps_cancelNodes {ids : List String} :
    Keeps (Writes call run₀) (cancelNodes call ids) := by
  induction ids with
  | nil => exact keeps_pure
  | cons nodeId ids ih =>
    unfold cancelNodes
    refine keeps_bind keeps_get fun run => keeps_bind keeps_lift fun n => ?_
    dsimp only
    split_ifs
    · exact keeps_bind (keeps_onNode fun _ _ _ h => WorkflowNodeRun.move_of_requestCancel h) fun _ =>
        keeps_bind keeps_appendExisting fun _ => ih
    · exact ih

theorem requestCancel_writes (h : requestCancel call run = .ok () run') : Writes call run run' := by
  simp only [requestCancel, bind_ok, get_ok, check_ok, exists_unit, exists_eq_left,
    exists_and_left, and_assoc] at h
  obtain ⟨-, h⟩ := h
  split_ifs at h with hcr
  · rw [(pure_ok.1 h).2]
  · simp only [bind_ok, exists_unit, modify_ok, lift_ok, utc_ok, get_ok, exists_eq_left,
      exists_and_left, and_assoc] at h
    obtain ⟨hnow, u, hevent, u', hnodes, h⟩ := h
    have hstart := ((Relation.ReflTransGen.single (.status .cancelRequested)).tail
      (.cancelRequestedAt hnow) : Writes call run _)
    have hwrites := keeps_cancelNodes _ _ _ (keeps_appendEvent _ _ _ hstart hevent) hnodes
    split_ifs at h
    · refine keeps_bind (keeps_write fun _ => .status .cancelled) (fun _ => ?_) _ _ _ hwrites h
      exact keeps_bind keeps_appendEvent fun _ => keeps_touch
    · exact keeps_touch _ _ _ hwrites h

theorem keeps_requestCancel : Keeps (Writes call run₀) (requestCancel call) :=
  fun _ _ _ hrun h => hrun.trans (requestCancel_writes h)

theorem keeps_confirmNodeCancel : Keeps (Writes call run₀) (confirmNodeCancel nodeId call) := by
  unfold confirmNodeCancel
  refine keeps_bind keeps_get fun run => ?_
  refine keeps_bind (keeps_onNode fun _ _ _ h => WorkflowNodeRun.move_of_confirmCancel h) fun event =>
    keeps_bind keeps_appendExisting fun _ => keeps_bind keeps_get fun _ => ?_
  have hrest : Keeps (Writes call run₀) (do
      touch call "Run 取消确认时间"
      pure event : RunM WorkflowEvent) :=
    keeps_bind keeps_touch fun _ => keeps_pure
  dsimp only
  split_ifs
  · exact keeps_bind (keeps_write fun _ => .status _) fun _ =>
      keeps_bind keeps_appendEvent fun _ => hrest
  · exact hrest

end Keeping

/-- **An accepted command is a sequence of writes.** -/
theorem writes_of_execute (h : execute v r run = .ok () run') : Writes r.call run run' := by
  obtain ⟨c, call⟩ := r
  refine (?_ : Keeps (Writes call run) (execute v ⟨c, call⟩)) run () run' .refl h
  cases c with
  | startNode nodeId => exact keeps_discard keeps_startNode
  | succeedNode nodeId summary fp outputs => exact keeps_discard keeps_succeedNode
  | acceptNode nodeId reference => exact keeps_discard keeps_acceptNode
  | rejectNodeInput nodeId code => exact keeps_discard keeps_rejectNodeInput
  | failNode nodeId code retryable => exact keeps_discard keeps_failNode
  | skipNode nodeId reason => exact keeps_discard keeps_skipNode
  | requestCancel => exact keeps_requestCancel
  | confirmNodeCancel nodeId => exact keeps_discard keeps_confirmNodeCancel

/-! ## What no write touches -/

/-- What a node never changes. -/
def WorkflowNodeRun.constant (n : WorkflowNodeRun) :
    UUID × String × WorkflowNodeType × String × Nat × Option DateTime :=
  (n.id, n.nodeId, n.nodeType, n.capabilityCode, n.maxAttempts, n.createdAt)

/-- What a run never changes. -/
def WorkflowRun.constant (run : WorkflowRun) :
    UUID × String × String × String × String × String × Option DateTime :=
  (run.id, run.workflowCode, run.workflowVersion, run.ownerSubject, run.idempotencyKey,
    run.inputFingerprint, run.createdAt)

theorem constant_of_move (h : AnyMove now n n') : n'.constant = n.constant := by
  cases h <;> rfl

/-- The run keeps its identity, its nodes keep theirs, and the log only grows. -/
structure Evolves (run run' : WorkflowRun) : Prop where
  constant : run'.constant = run.constant
  nodes : run'.nodes.map WorkflowNodeRun.constant = run.nodes.map WorkflowNodeRun.constant
  events : run.events <+: run'.events

theorem Evolves.refl (run : WorkflowRun) : Evolves run run := ⟨rfl, rfl, List.prefix_refl _⟩

theorem Evolves.trans {run'' : WorkflowRun} (h : Evolves run run') (h' : Evolves run' run'') :
    Evolves run run'' :=
  ⟨h'.constant.trans h.constant, h'.nodes.trans h.nodes, h.events.trans h'.events⟩

theorem nodeIds_of_constant {nodes nodes' : List WorkflowNodeRun}
    (h : nodes'.map WorkflowNodeRun.constant = nodes.map WorkflowNodeRun.constant) :
    nodes'.map WorkflowNodeRun.nodeId = nodes.map WorkflowNodeRun.nodeId := by
  have := congrArg (List.map fun c => c.2.1) h
  simpa [List.map_map, Function.comp_def, WorkflowNodeRun.constant] using this

theorem evolves_of_write (hnd : (run.nodes.map WorkflowNodeRun.nodeId).Nodup)
    (h : Write call run run') : Evolves run run' := by
  cases h with
  | node hn hmove =>
    exact ⟨rfl, map_replace hnd hn (constant_of_move hmove), List.prefix_refl _⟩
  | event => exact ⟨rfl, rfl, List.prefix_append _ _⟩
  | status | resultSummary | failureCode | cancelRequestedAt | updatedAt =>
    exact ⟨rfl, rfl, List.prefix_refl _⟩

theorem evolves_of_writes (hnd : (run.nodes.map WorkflowNodeRun.nodeId).Nodup)
    (h : Writes call run run') : Evolves run run' := by
  induction h with
  | refl => exact .refl _
  | tail _ hw ih =>
    apply ih.trans
    apply evolves_of_write _ hw
    rwa [nodeIds_of_constant ih.nodes]

/-- The events a command logs get the ids drawn for their positions. -/
theorem log_of_writes (h : Writes call run run') : ∃ new, run'.events = run.events ++ new ∧
    new.map WorkflowEvent.id = (List.range' (run.events.length + 1) new.length).map call.uuid4 := by
  induction h with
  | refl => exact ⟨[], by simp, rfl⟩
  | tail _ hw ih =>
    obtain ⟨new, hnew, hids⟩ := ih
    cases hw with
    | @event e _ _ _ hid =>
      refine ⟨new ++ [e], by rw [hnew, List.append_assoc], ?_⟩
      rw [hnew, List.length_append] at hid
      rw [List.map_append, hids, List.map_singleton, hid, List.length_append, List.length_singleton,
        List.range'_concat, List.map_append, List.map_singleton, Nat.one_mul]
      congr 3
      omega
    | node | status | resultSummary | failureCode | cancelRequestedAt | updatedAt =>
      exact ⟨new, hnew, hids⟩

/-! ## What every constructor accepts again -/

/-- A time that is set and has a zone. -/
def Timed (d : Option DateTime) : Prop := ∃ t, d = some t ∧ t.tzAware = true

/-- The node passes its constructor, and its times are set. -/
structure WorkflowNodeRun.Storable (n : WorkflowNodeRun) : Prop where
  nodeId : isIdentifier n.nodeId = true
  capabilityCode : isIdentifier n.capabilityCode = true
  maxAttempts : 0 < n.maxAttempts
  attempts : n.attemptCount ≤ n.maxAttempts
  reference : ∀ s, n.executionReference = some s → isSafeReference s = true
  fingerprint : ∀ s, n.outputFingerprint = some s → isSafeFingerprint s = true
  failureCode : ∀ s, n.failureCode = some s → isSafeError s = true
  created : Timed n.createdAt
  updated : Timed n.updatedAt

/-- The nodes and events of the run pass their constructors, and the log is in order. -/
structure WorkflowRun.Storable (run : WorkflowRun) : Prop where
  nodes : ∀ n ∈ run.nodes, n.Storable
  checked : ∀ e ∈ run.events, checkEvent e = .ok ()
  owned : ∀ e ∈ run.events, e.runId = run.id
  numbered : run.events.map WorkflowEvent.sequence = List.range' 1 run.events.length
  transitions : (run.events.map WorkflowEvent.transitionId).Nodup
  created : Timed run.createdAt
  updated : Timed run.updatedAt
  cancelled : ∀ t, run.cancelRequestedAt = some t → t.tzAware = true

theorem storable_of_move (h : n.Storable) (hmove : AnyMove now n n') (hnow : now.tzAware = true) :
    n'.Storable := by
  cases hmove with
  | stay => exact h
  | start _ _ ha => exact { h with attempts := ha, updated := ⟨_, rfl, hnow⟩ }
  | accept _ href =>
    refine { h with reference := fun s hs => ?_, updated := ⟨_, rfl, hnow⟩ }
    cases hs
    exact href
  | succeed _ hfp => exact { h with reference := nofun, fingerprint := hfp, updated := ⟨_, rfl, hnow⟩ }
  | reject _ hcode =>
    refine { h with failureCode := fun s hs => ?_, updated := ⟨_, rfl, hnow⟩ }
    cases hs
    exact hcode
  | fail _ hcode =>
    refine { h with reference := nofun, failureCode := fun s hs => ?_, updated := ⟨_, rfl, hnow⟩ }
    cases hs
    exact hcode
  | skip | cancel | confirm => exact { h with updated := ⟨_, rfl, hnow⟩ }

theorem storable_of_write (h : run.Storable) (hw : Write call run run') : run'.Storable := by
  cases hw with
  | @node nodeId n n' hn hmove hnow =>
    refine { h with nodes := fun m hm => ?_ }
    rcases mem_replace hm with rfl | ⟨hm, -⟩
    · exact storable_of_move (h.nodes n (mem_of_node? hn)) hmove hnow
    · exact h.nodes m hm
  | @event e hnew hseq hrun _ hcheck =>
    refine { h with checked := ?_, owned := ?_, numbered := ?_, transitions := ?_ }
    · exact fun x hx => (List.mem_append.1 hx).elim (h.checked x)
        fun hx => List.mem_singleton.1 hx ▸ hcheck
    · exact fun x hx => (List.mem_append.1 hx).elim (h.owned x)
        fun hx => List.mem_singleton.1 hx ▸ hrun
    · rw [List.map_append, h.numbered, List.length_append, List.map_singleton, hseq,
        List.length_singleton, List.range'_concat, Nat.one_mul, Nat.add_comm 1]
    · rw [← post_of_fresh hnew]
      exact keys_nodup_post h.transitions
  | status | resultSummary | failureCode => exact { h with }
  | cancelRequestedAt hnow =>
    refine { h with cancelled := fun t ht => ?_ }
    cases ht
    exact hnow
  | updatedAt hnow => exact { h with updated := ⟨_, rfl, hnow⟩ }

theorem storable_of_writes (h : run.Storable) (hw : Writes call run run') : run'.Storable := by
  induction hw with
  | refl => exact h
  | tail _ hw ih => exact storable_of_write ih hw

theorem storable_of_created (h : Created v run) : run.Storable := by
  obtain ⟨owner, key, input, now, id, nodeIdAt, uuid4, h⟩ := h
  have hnodes : ∀ now, mapEach (fun p => createNode now (nodeIdAt p.2) p.1) v.nodes.zipIdx =
      .ok (v.nodes.zipIdx.map fun p => createdNode now (nodeIdAt p.2) p.1) := fun now => by
    apply mapEach_eq_map
    exact fun p _ => createNode_eq now (nodeIdAt p.2) p.1
  simp only [create, except_bind_ok, utc_ok, text_ok, hnodes, WorkflowEvent.make_ok,
    except_pure_ok, Except.ok.injEq] at h
  obtain ⟨_, ⟨hnow, rfl⟩, _, -, _, -, _, -, _, rfl, e, ⟨hcheck, rfl⟩, rfl⟩ := h
  refine { nodes := ?_, checked := ?_, owned := ?_, numbered := rfl, transitions := ?_,
           created := ⟨_, rfl, hnow⟩, updated := ⟨_, rfl, hnow⟩, cancelled := ?_ }
  · intro n hn
    obtain ⟨p, -, rfl⟩ := List.mem_map.1 hn
    exact { nodeId := p.1.nodeId.2, capabilityCode := p.1.capabilityCode.2,
            maxAttempts := p.1.maxAttempts_pos, attempts := Nat.zero_le _,
            reference := fun _ h => (by cases h), fingerprint := fun _ h => (by cases h),
            failureCode := fun _ h => (by cases h), created := ⟨_, rfl, hnow⟩,
            updated := ⟨_, rfl, hnow⟩ }
  · exact fun x hx => List.mem_singleton.1 hx ▸ hcheck
  · intro x hx
    rw [List.mem_singleton.1 hx]
    rfl
  · exact List.nodup_singleton _
  · intro t ht
    cases ht

end GoAgent.Workflow
