import GoAgent.Foundation.Simulation
import GoAgent.Workflow.Rejection
import GoAgent.Workflow.Reload

/-!
# Runs that differ in order only

A run that was read back lists its nodes by their ids, and from then on a cancellation logs the
nodes in another order. `Matches run run'` says that two runs agree up to that: the same fields, the
same nodes in some order, and the same events of every node and of the run itself, each in the same
order, where an output object may list its entries in any order.

* `agree_execute` — a command is accepted by both runs, and leaves matching runs, or is refused by
  both with the same error.
* `matches_after` — so is every later command.
* `matches_reloaded` — a run and what is read back of it match.
-/

namespace GoAgent.Workflow

open GoAgent.Foundation WorkflowRun

variable {pg : Postgres} {v : WorkflowVersion} {run run' run'' : WorkflowRun} {call : Call}
  {i j : String} {n n' : WorkflowNodeRun} {e e' : WorkflowEvent} {ty : WorkflowEventType}

/-! ## The relation -/

/-- The same transition, up to the id and the number of its event and the order of an object. -/
structure SameEvent (e e' : WorkflowEvent) : Prop where
  runId : e.runId = e'.runId
  transitionId : e.transitionId = e'.transitionId
  eventType : e.eventType = e'.eventType
  createdAt : e.createdAt = e'.createdAt
  metadata : { e.metadata with outputReferences := e'.metadata.outputReferences } = e'.metadata
  outputs : Option.Rel List.Perm e.metadata.outputReferences e'.metadata.outputReferences

/-- The events of a node, or of the run itself. -/
def eventsOf (nodeId : Option String) (log : List WorkflowEvent) : List WorkflowEvent :=
  log.filter fun e => e.metadata.nodeId = nodeId

structure SameLog (log log' : List WorkflowEvent) : Prop where
  length : log.length = log'.length
  events : ∀ nodeId, List.Forall₂ SameEvent (eventsOf nodeId log) (eventsOf nodeId log')

structure Matches (run run' : WorkflowRun) : Prop where
  fields : { run with nodes := [], events := [] } = { run' with nodes := [], events := [] }
  nodes : run.nodes.Perm run'.nodes
  distinct : (run.nodes.map WorkflowNodeRun.nodeId).Nodup
  log : SameLog run.events run'.events

theorem perm_refl_option (o : Option References) : Option.Rel List.Perm o o := by
  cases o with
  | none => exact .none
  | some r => exact .some (.refl r)

theorem SameEvent.refl (e : WorkflowEvent) : SameEvent e e :=
  ⟨rfl, rfl, rfl, rfl, rfl, perm_refl_option _⟩

theorem SameEvent.nodeId (h : SameEvent e e') : e.metadata.nodeId = e'.metadata.nodeId := by
  rw [← h.metadata]

theorem SameEvent.trans {e'' : WorkflowEvent} (h : SameEvent e e') (h' : SameEvent e' e'') :
    SameEvent e e'' where
  runId := h.runId.trans h'.runId
  transitionId := h.transitionId.trans h'.transitionId
  eventType := h.eventType.trans h'.eventType
  createdAt := h.createdAt.trans h'.createdAt
  metadata := by rw [← h'.metadata, ← h.metadata]
  outputs := by
    have hab := h.outputs
    have hbc := h'.outputs
    generalize e.metadata.outputReferences = a at hab
    generalize e'.metadata.outputReferences = b at hab hbc
    generalize e''.metadata.outputReferences = c at hbc
    cases hab with
    | none => exact hbc
    | some hab =>
      cases hbc with
      | some hbc => exact .some (hab.trans hbc)

theorem SameLog.refl (log : List WorkflowEvent) : SameLog log log :=
  ⟨rfl, fun _ => List.forall₂_same.2 fun e _ => .refl e⟩

theorem forall₂_trans {α : Type} {r : α → α → Prop} (hr : ∀ a b c, r a b → r b c → r a c)
    {as bs cs : List α} (h : List.Forall₂ r as bs) (h' : List.Forall₂ r bs cs) :
    List.Forall₂ r as cs := by
  induction h generalizing cs with
  | nil =>
    cases h'
    exact .nil
  | cons hab _ ih =>
    cases h' with
    | cons hbc h' => exact .cons (hr _ _ _ hab hbc) (ih h')

theorem SameLog.trans {log log' log'' : List WorkflowEvent} (h : SameLog log log')
    (h' : SameLog log' log'') : SameLog log log'' :=
  ⟨h.length.trans h'.length, fun x =>
    forall₂_trans (r := SameEvent) (fun _ _ _ => .trans) (h.events x) (h'.events x)⟩

theorem eventsOf_append {x : Option String} {log log' : List WorkflowEvent} :
    eventsOf x (log ++ log') = eventsOf x log ++ eventsOf x log' := List.filter_append ..

theorem eventsOf_singleton {x : Option String} :
    eventsOf x [e] = if e.metadata.nodeId = x then [e] else [] := by
  by_cases h : e.metadata.nodeId = x <;> simp [eventsOf, h]

theorem SameLog.append {log log' : List WorkflowEvent} (h : SameLog log log')
    (he : SameEvent e e') : SameLog (log ++ [e]) (log' ++ [e']) where
  length := by rw [List.length_append, List.length_append, h.length, List.length_singleton,
    List.length_singleton]
  events x := by
    rw [eventsOf_append, eventsOf_append, eventsOf_singleton, eventsOf_singleton, he.nodeId]
    refine List.rel_append (h.events x) ?_
    split_ifs
    · exact .cons he .nil
    · exact .nil

/-- Events of different nodes may be logged in either order. -/
theorem SameLog.swap {log log' : List WorkflowEvent} {f f' : WorkflowEvent} (h : SameLog log log')
    (he : SameEvent e e') (hf : SameEvent f f') (hne : e.metadata.nodeId ≠ f.metadata.nodeId) :
    SameLog (log ++ [e] ++ [f]) (log' ++ [f'] ++ [e']) where
  length := by simp [h.length]
  events x := by
    simp only [eventsOf_append, eventsOf_singleton, List.append_assoc, ← he.nodeId, ← hf.nodeId]
    refine List.rel_append (h.events x) ?_
    by_cases hex : e.metadata.nodeId = x
    · rw [if_pos hex, if_neg (hex ▸ Ne.symm hne), if_neg (hex ▸ Ne.symm hne), if_pos hex]
      exact .cons he .nil
    · rw [if_neg hex, if_neg hex]
      split_ifs
      · exact .cons hf .nil
      · exact .nil

theorem mem_of_eventsOf {x : Option String} {log : List WorkflowEvent} :
    e ∈ eventsOf x log ↔ e ∈ log ∧ e.metadata.nodeId = x := by
  simp [eventsOf]

theorem exists_of_forall₂ {α : Type} {r : α → α → Prop} {a : α} {as bs : List α}
    (h : List.Forall₂ r as bs) (ha : a ∈ as) : ∃ b ∈ bs, r a b := by
  induction h with
  | nil => exact absurd ha List.not_mem_nil
  | cons hab _ ih =>
    rcases List.mem_cons.1 ha with rfl | ha
    · exact ⟨_, List.mem_cons_self, hab⟩
    · obtain ⟨b, hb, hr⟩ := ih ha
      exact ⟨b, List.mem_cons_of_mem _ hb, hr⟩

theorem find?_of_forall₂ {α : Type} {r : α → α → Prop} {p q : α → Bool} {as bs : List α}
    (h : List.Forall₂ r as bs) (hpq : ∀ a b, r a b → p a = q b) :
    Option.Rel r (as.find? p) (bs.find? q) := by
  induction h with
  | nil => exact .none
  | @cons a b as bs hab _ ih =>
    rw [List.find?_cons, List.find?_cons, ← hpq a b hab]
    cases p a with
    | true => exact .some hab
    | false => exact ih

namespace Matches

theorem refl (hnd : (run.nodes.map WorkflowNodeRun.nodeId).Nodup) : Matches run run :=
  ⟨rfl, .refl _, hnd, .refl _⟩

theorem trans (h : Matches run run') (h' : Matches run' run'') : Matches run run'' :=
  ⟨h.fields.trans h'.fields, h.nodes.trans h'.nodes, h.distinct, h.log.trans h'.log⟩

theorem distinct' (h : Matches run run') : (run'.nodes.map WorkflowNodeRun.nodeId).Nodup :=
  (h.nodes.map _).nodup_iff.1 h.distinct

theorem status (h : Matches run run') : run.status = run'.status := by
  have hs := congrArg WorkflowRun.status h.fields
  exact hs

theorem id (h : Matches run run') : run.id = run'.id := by
  have hid := congrArg WorkflowRun.id h.fields
  exact hid

theorem occasion (h : Matches run run') (suffix : String) :
    run.occasion call suffix = run'.occasion call suffix := by
  unfold WorkflowRun.occasion
  rw [h.id]

theorem node? (h : Matches run run') : run.node? i = run'.node? i := by
  ext n
  rw [WorkflowRun.node?, WorkflowRun.node?, lookup_eq_some_iff h.distinct,
    lookup_eq_some_iff h.distinct', h.nodes.mem_iff]

theorem node (h : Matches run run') : run.node i = run'.node i := by
  unfold WorkflowRun.node
  rw [h.node?]

theorem forall_nodes (h : Matches run run') {P : WorkflowNodeRun → Prop} :
    (∀ n ∈ run.nodes, P n) ↔ ∀ n ∈ run'.nodes, P n :=
  forall_congr' fun _ => imp_congr_left h.nodes.mem_iff

theorem exists_nodes (h : Matches run run') {P : WorkflowNodeRun → Prop} :
    (∃ n ∈ run.nodes, P n) ↔ ∃ n ∈ run'.nodes, P n :=
  exists_congr fun _ => and_congr_left' h.nodes.mem_iff

theorem hasTransition (h : Matches run run') {t : String} :
    run.hasTransition t ↔ run'.hasTransition t := by
  have himp {log log' : List WorkflowEvent} (r : WorkflowEvent → WorkflowEvent → Prop)
      (hr : ∀ a b, r a b → a.transitionId = b.transitionId)
      (h : ∀ x, List.Forall₂ r (eventsOf x log) (eventsOf x log'))
      (ht : ∃ e ∈ log, e.transitionId = t) : ∃ e ∈ log', e.transitionId = t := by
    obtain ⟨e, he, rfl⟩ := ht
    obtain ⟨e', he', hee'⟩ := exists_of_forall₂ (h _) (mem_of_eventsOf.2 ⟨he, rfl⟩)
    exact ⟨e', (mem_of_eventsOf.1 he').1, (hr _ _ hee').symm⟩
  constructor
  · exact himp SameEvent (fun _ _ hab => hab.transitionId) h.log.events
  · exact himp (flip SameEvent) (fun _ _ hab => hab.transitionId.symm) fun x => (h.log.events x).flip

theorem latest (h : Matches run run') :
    Option.Rel SameEvent (run.findLatestNodeEvent i ty) (run'.findLatestNodeEvent i ty) := by
  have hfind (log : List WorkflowEvent) : log.reverse.find? (fun e => decide (e.eventType = ty ∧
      e.metadata.nodeId = some i)) =
      (eventsOf (some i) log).reverse.find? fun e => decide (e.eventType = ty) := by
    unfold eventsOf
    rw [← List.filter_reverse, List.find?_filter]
    congr 1
    funext e
    simp [and_comm]
  unfold findLatestNodeEvent
  rw [hfind, hfind]
  apply find?_of_forall₂
  · exact List.forall₂_reverse_iff.2 (h.log.events (some i))
  · intro a b hab
    rw [hab.eventType]

theorem outputReferences (h : Matches run run') :
    (run.outputReferences i).Perm (run'.outputReferences i) := by
  unfold WorkflowRun.outputReferences
  have hlatest : Option.Rel SameEvent (run.findLatestNodeEvent i .nodeSucceeded)
      (run'.findLatestNodeEvent i .nodeSucceeded) := h.latest
  generalize run.findLatestNodeEvent i .nodeSucceeded = o at hlatest
  generalize run'.findLatestNodeEvent i .nodeSucceeded = o' at hlatest
  cases hlatest with
  | none => exact .refl _
  | @some e e' he =>
    have houts := he.outputs
    show (e.metadata.outputReferences.getD []).Perm (e'.metadata.outputReferences.getD [])
    generalize e.metadata.outputReferences = a at houts
    generalize e'.metadata.outputReferences = b at houts
    cases houts with
    | none => exact .refl _
    | some hp => exact hp

theorem bound (h : Matches run run') {edge : WorkflowEdgeDefinition} :
    run.Bound edge ↔ run'.Bound edge :=
  forall₂_congr fun _ _ => (h.outputReferences.map Prod.fst).mem_iff

theorem instantiates (h : Matches run run') :
    Instantiates v run.nodes ↔ Instantiates v run'.nodes :=
  ⟨fun hv => hv.perm h.nodes.symm, fun hv => hv.perm h.nodes⟩

theorem ready (h : Matches run run') (hv : Instantiates v run.nodes) :
    run.Ready v i ↔ run'.Ready v i := by
  rw [ready_iff hv, ready_iff (h.instantiates.1 hv), h.node?]
  unfold Fed
  simp only [h.node?, h.bound]

/-! ### Writing both runs -/

theorem put (h : Matches run run') (hid : n.nodeId = i) : Matches (run.put i n) (run'.put i n) where
  fields := h.fields
  nodes := h.nodes.map _
  distinct := by
    show ((replace WorkflowNodeRun.nodeId i n run.nodes).map WorkflowNodeRun.nodeId).Nodup
    rw [keys_replace hid]
    exact h.distinct
  log := h.log

theorem append (h : Matches run run') (he : SameEvent e e') :
    Matches { run with events := run.events ++ [e] } { run' with events := run'.events ++ [e'] } :=
  ⟨h.fields, h.nodes, h.distinct, h.log.append he⟩

theorem nextEvent (h : Matches run run') {t : String} {m : EventMetadata} :
    run.nextEvent call t ty m = run'.nextEvent call t ty m := by
  unfold WorkflowRun.nextEvent
  rw [h.id, h.log.length]

end Matches

/-! ## The methods of a run -/

section Methods

variable {nodeId transitionId label : String} {m : EventMetadata}

theorem nodeId_of_move {now : DateTime} (h : AnyMove now n n') : n'.nodeId = n.nodeId :=
  congrArg (fun c => c.2.1) (constant_of_move h)

theorem simulates_onNode {α : Type} {method method' : NodeM α} (hsame : method = method')
    (hid : ∀ n a n', method n = .ok a n' → AnyMove call.now n n') :
    Simulates Matches Eq (onNode nodeId method) (onNode nodeId method') := by
  subst hsame
  intro s t h
  unfold onNode
  rw [← h.node?]
  cases hn : s.node? nodeId with
  | none => exact .error
  | some n =>
    dsimp only
    cases hm : method n with
    | error e n' => exact .error
    | ok a n' =>
      have hn' : n'.nodeId = nodeId := (nodeId_of_move (hid n a n' hm)).trans (nodeId_of_node? hn)
      exact .ok rfl (h.put hn')

theorem simulates_appendEvent : Simulates Matches Eq (appendEvent call transitionId ty m)
    (appendEvent call transitionId ty m) := by
  refine Simulates.get.bind fun a b hab => ?_
  refine .ite hab.hasTransition (.pure rfl) (Simulates.bind (.lift alike_refl) fun _ _ _ => ?_)
  rw [hab.nextEvent]
  refine Simulates.bind (.lift alike_refl) fun e e' he => ?_
  subst he
  exact .modify fun _ _ h => h.append (.refl e)

theorem simulates_appendExisting :
    Simulates Matches Eq (appendExisting call e) (appendExisting call e) := by
  refine Simulates.get.bind fun a b hab => ?_
  refine .ite hab.hasTransition (.pure rfl) ?_
  rw [hab.nextEvent]
  refine Simulates.bind (.lift alike_refl) fun e e' he => ?_
  subst he
  exact .modify fun _ _ h => h.append (.refl e)

theorem simulates_touch : Simulates Matches Eq (touch call label) (touch call label) := by
  refine Simulates.bind (.lift alike_refl) fun now now' hnow => ?_
  subst hnow
  exact .modify fun s t h => ⟨congrArg (fun r => { r with updatedAt := some now }) h.fields,
    h.nodes, h.distinct, h.log⟩

theorem simulates_status (st : WorkflowRunStatus) : Simulates (ε := WorkflowError) Matches Eq
    (modify fun r : WorkflowRun => { r with status := st })
    (modify fun r : WorkflowRun => { r with status := st }) :=
  .modify fun _ _ h => ⟨congrArg (fun r => { r with status := st }) h.fields, h.nodes, h.distinct,
    h.log⟩

theorem simulates_refreshStatus :
    Simulates Matches Eq (refreshStatus call) (refreshStatus call) := by
  refine Simulates.get.bind fun a b hab => ?_
  refine .ite hab.forall_nodes ?_ (.ite hab.exists_nodes (simulates_status _) (.ite ?_
    (simulates_status _) (.pure rfl)))
  · refine (simulates_status _).seq (.seq (.modify fun _ _ h => ?_) simulates_appendEvent)
    exact ⟨congrArg (fun r => { r with resultSummary := some "Workflow 节点已全部完成。" })
      h.fields, h.nodes, h.distinct, h.log⟩
  · rw [hab.status]

theorem simulates_failWith :
    Simulates Matches Eq (failWith nodeId call) (failWith nodeId call) := by
  refine Simulates.get.bind fun a b hab => ?_
  rw [hab.node]
  refine Simulates.bind (.lift alike_refl) fun n n' hn => ?_
  subst hn
  refine (simulates_status _).seq (.seq (.modify fun _ _ h => ?_) ?_)
  · exact ⟨congrArg (fun r => { r with failureCode := n.failureCode }) h.fields, h.nodes,
      h.distinct, h.log⟩
  · cases n.failureCode with
    | none => exact .throw
    | some code => exact simulates_appendEvent

/-- What follows the first reads of a start. -/
theorem simulates_start {ready ready' : List String} (hready : nodeId ∈ ready ↔ nodeId ∈ ready')
    {a b : WorkflowRun} (hab : Matches a b) : Simulates Matches Eq (do
      check (nodeId ∈ ready) (.state "节点前置依赖尚未满足。")
      let event ← onNode nodeId (WorkflowNodeRun.start (a.occasion call ":start"))
      if a.status = .queued then
        modify fun r => { r with status := .running }
        appendEvent call (call.commandId ++ ":run-start") .runStarted {}
      appendExisting call event
      touch call "Run 开始时间"
      pure event : RunM WorkflowEvent) (do
      check (nodeId ∈ ready') (.state "节点前置依赖尚未满足。")
      let event ← onNode nodeId (WorkflowNodeRun.start (b.occasion call ":start"))
      if b.status = .queued then
        modify fun r => { r with status := .running }
        appendEvent call (call.commandId ++ ":run-start") .runStarted {}
      appendExisting call event
      touch call "Run 开始时间"
      pure event : RunM WorkflowEvent) := by
  refine (Simulates.check hready).seq ?_
  refine (simulates_onNode (by rw [hab.occasion]) fun _ _ _ h =>
    (WorkflowNodeRun.move_of_start h).1).bind fun e e' he => ?_
  subst he
  have hrest : Simulates Matches Eq (do
      appendExisting call e
      touch call "Run 开始时间"
      pure e : RunM WorkflowEvent) (do
      appendExisting call e
      touch call "Run 开始时间"
      pure e : RunM WorkflowEvent) :=
    simulates_appendExisting.seq (simulates_touch.seq (.pure rfl))
  dsimp only
  exact .ite (by rw [hab.status]) ((simulates_status _).seq (simulates_appendEvent.seq hrest)) hrest

theorem agree_startNode (h : Matches run run') (hv : Instantiates v run.nodes) :
    Agree Matches Eq (startNode v nodeId call run) (startNode v nodeId call run') := by
  obtain ⟨ready, hready, hmem⟩ := readyNodes_spec hv
  obtain ⟨ready', hready', hmem'⟩ := readyNodes_spec (h.instantiates.1 hv)
  have hiff : nodeId ∈ ready ↔ nodeId ∈ ready' := by
    rw [hmem, hmem', ← ready_iff hv, ← ready_iff (h.instantiates.1 hv)]
    exact h.ready hv
  refine (Simulates.get run run' h).bind fun a b s t ha hb hab hst => ?_
  obtain ⟨rfl, rfl⟩ := get_ok.1 ha
  obtain ⟨rfl, rfl⟩ := get_ok.1 hb
  rw [hready, hready']
  refine (Simulates.check (by rw [h.status])).seq ?_ s t h
  refine Simulates.bind (S := fun r r' => r = ready ∧ r' = ready') (.lift (.ok ⟨rfl, rfl⟩)) ?_
  rintro _ _ ⟨rfl, rfl⟩
  exact simulates_start hiff h

theorem simulates_acceptNode {reference : String} : Simulates Matches (fun _ _ => True)
    (acceptNode nodeId reference call) (acceptNode nodeId reference call) := by
  refine Simulates.get.bind fun a b hab => ?_
  refine (Simulates.check (by rw [hab.status])).seq ?_
  rw [hab.node]
  refine Simulates.bind (.lift alike_refl) fun n n' hn => ?_
  subst hn
  refine (simulates_onNode (by rw [hab.occasion]) fun _ _ _ h =>
    (WorkflowNodeRun.move_of_accept h).1).bind fun e e' he => ?_
  subst he
  have hfound : Option.Rel SameEvent
      (if n.status = .accepted then a.findLatestNodeEvent nodeId .nodeAccepted else none)
      (if n.status = .accepted then b.findLatestNodeEvent nodeId .nodeAccepted else none) := by
    split_ifs
    · exact hab.latest
    · exact .none
  generalize (if n.status = .accepted then a.findLatestNodeEvent nodeId .nodeAccepted else none) =
    o at hfound
  generalize (if n.status = .accepted then b.findLatestNodeEvent nodeId .nodeAccepted else none) =
    o' at hfound
  cases hfound with
  | some => exact .pure trivial
  | none =>
    exact (simulates_status _).seq (simulates_appendExisting.seq (simulates_appendEvent.seq
      (simulates_touch.seq (.pure trivial))))

theorem simulates_succeedReplay {summary : String} {fp : Option String} {outputs : References} :
    Simulates Matches (Option.Rel SameEvent) (succeedReplay nodeId summary fp outputs n)
      (succeedReplay nodeId summary fp outputs n) := by
  refine Simulates.get.bind fun a b hab => ?_
  refine .ite Iff.rfl ?_ (.pure .none)
  refine (Simulates.check Iff.rfl).seq ((Simulates.check ?_).seq (.pure hab.latest))
  have hperm := hab.outputReferences (i := nodeId)
  exact and_congr (forall_congr' fun _ => imp_congr_left hperm.mem_iff)
    (forall_congr' fun _ => imp_congr_right fun _ => hperm.mem_iff)

theorem simulates_succeedNode {summary : String} {fp : Option String} {outputs : References} :
    Simulates Matches (fun _ _ => True) (succeedNode v nodeId summary fp outputs call)
      (succeedNode v nodeId summary fp outputs call) := by
  refine Simulates.get.bind fun a b hab => ?_
  rw [hab.node]
  refine Simulates.bind (.lift alike_refl) fun n n' hn => ?_
  subst hn
  refine Simulates.bind (.lift alike_refl) fun d d' hd => ?_
  subst hd
  refine (Simulates.check Iff.rfl).seq (Simulates.seq (.lift alike_refl) ?_)
  refine simulates_succeedReplay.bind fun o o' ho => ?_
  cases ho with
  | some => exact .pure trivial
  | none =>
    refine (simulates_onNode (by rw [hab.occasion]) fun _ _ _ h =>
      (WorkflowNodeRun.move_of_succeed h).1).bind fun e e' he => ?_
    subst he
    exact simulates_appendExisting.seq (simulates_refreshStatus.seq (.pure trivial))

theorem simulates_rejectNodeInput {code : String} : Simulates Matches (fun _ _ => True)
    (rejectNodeInput nodeId code call) (rejectNodeInput nodeId code call) := by
  refine Simulates.get.bind fun a b hab => ?_
  refine (Simulates.check (by rw [hab.status])).seq ?_
  refine (simulates_onNode (by rw [hab.occasion]) fun _ _ _ h =>
    (WorkflowNodeRun.move_of_rejectInput h).1).bind fun e e' he => ?_
  subst he
  exact simulates_appendExisting.seq (simulates_failWith.seq (simulates_touch.seq (.pure trivial)))

theorem simulates_failNode {code : String} {retryable : Bool} :
    Simulates Matches (fun _ _ => True) (failNode nodeId code retryable call)
      (failNode nodeId code retryable call) := by
  refine Simulates.get.bind fun a b hab => ?_
  refine (simulates_onNode (by rw [hab.occasion]) fun _ _ _ h =>
    (WorkflowNodeRun.move_of_fail h).1).bind fun e e' he => ?_
  subst he
  refine simulates_appendExisting.seq (Simulates.get.bind fun c d hcd => ?_)
  rw [hcd.node]
  refine Simulates.bind (.lift alike_refl) fun n n' hn => ?_
  subst hn
  have hrest : Simulates Matches (fun _ _ => True) (do
      touch call "Run 失败时间"
      pure e : RunM WorkflowEvent) (do
      touch call "Run 失败时间"
      pure e : RunM WorkflowEvent) := simulates_touch.seq (.pure trivial)
  dsimp only
  exact .ite Iff.rfl (simulates_failWith.seq hrest) hrest

theorem simulates_skipNode {reason : String} : Simulates Matches (fun _ _ => True)
    (skipNode nodeId reason call) (skipNode nodeId reason call) := by
  refine Simulates.get.bind fun a b hab => ?_
  refine (simulates_onNode (by rw [hab.occasion]) fun _ _ _ h =>
    (WorkflowNodeRun.move_of_skip h).1).bind fun e e' he => ?_
  subst he
  exact simulates_appendExisting.seq (simulates_refreshStatus.seq (.pure trivial))

theorem simulates_confirmNodeCancel : Simulates Matches (fun _ _ => True)
    (confirmNodeCancel nodeId call) (confirmNodeCancel nodeId call) := by
  refine Simulates.get.bind fun a b hab => ?_
  refine (simulates_onNode (by rw [hab.occasion]) fun _ _ _ h =>
    (WorkflowNodeRun.move_of_confirmCancel h).1).bind fun e e' he => ?_
  subst he
  refine simulates_appendExisting.seq (Simulates.get.bind fun c d hcd => ?_)
  have hrest : Simulates Matches (fun _ _ => True) (do
      touch call "Run 取消确认时间"
      pure e : RunM WorkflowEvent) (do
      touch call "Run 取消确认时间"
      pure e : RunM WorkflowEvent) := simulates_touch.seq (.pure trivial)
  dsimp only
  exact .ite (and_congr (by rw [hcd.status]) hcd.forall_nodes)
    ((simulates_status _).seq (simulates_appendEvent.seq hrest)) hrest

end Methods

/-! ## Cancelling the nodes in another order -/

section Cancelling

variable {t t' : String} {ty' : WorkflowEventType} {m m' : EventMetadata}

theorem Matches.record (h : Matches run run') :
    Matches (run.record call t ty m) (run'.record call t ty m) := by
  by_cases hlogged : run.hasTransition t
  · rwa [record_of_logged hlogged, record_of_logged (h.hasTransition.1 hlogged)]
  · rw [record_of_fresh hlogged, record_of_fresh fun hl => hlogged (h.hasTransition.2 hl),
      ← h.nextEvent]
    exact h.append (.refl _)

/-- Two transitions of different nodes may be logged in either order. -/
theorem Matches.record_swap (h : Matches run run') (ht : t ≠ t') (hm : m.nodeId ≠ m'.nodeId) :
    Matches ((run.record call t ty m).record call t' ty' m')
      ((run'.record call t' ty' m').record call t ty m) := by
  by_cases hlogged : run.hasTransition t
  · have hlogged' : (run'.record call t' ty' m').hasTransition t :=
      hasTransition_record.2 (Or.inl (h.hasTransition.1 hlogged))
    rw [record_of_logged hlogged, record_of_logged hlogged']
    exact h.record
  by_cases hother : run'.hasTransition t'
  · have hother' : (run.record call t ty m).hasTransition t' :=
      hasTransition_record.2 (Or.inl (h.hasTransition.2 hother))
    rw [record_of_logged hother, record_of_logged hother']
    exact h.record
  have hfresh : ¬(run.record call t ty m).hasTransition t' := by
    rw [hasTransition_record, h.hasTransition]
    exact not_or.2 ⟨hother, ht.symm⟩
  have hfresh' : ¬(run'.record call t' ty' m').hasTransition t := by
    rw [hasTransition_record, ← h.hasTransition]
    exact not_or.2 ⟨hlogged, ht⟩
  rw [record_of_fresh hfresh, record_of_fresh hfresh', record_of_fresh hlogged,
    record_of_fresh hother]
  have hid := h.id
  refine ⟨h.fields, h.nodes, h.distinct, h.log.swap ?_ ?_ hm⟩ <;>
    exact ⟨hid, rfl, rfl, rfl, rfl, perm_refl_option _⟩

theorem replace_comm {κ ρ : Type} [DecidableEq κ] {key : ρ → κ} {k k' : κ} {new new' : ρ}
    {rows : List ρ} (hne : k ≠ k') (hk : key new = k) (hk' : key new' = k') :
    replace key k new (replace key k' new' rows) = replace key k' new' (replace key k new rows) := by
  unfold replace
  rw [List.map_map, List.map_map]
  apply List.map_congr_left
  intro r _
  by_cases hr : key r = k
  · simp [hr, hk, hne]
  · by_cases hr' : key r = k'
    · simp [hr', hk', hne.symm]
    · simp [hr, hr']

theorem cancelEach_cons {ids : List String} :
    cancelEach call (i :: ids) run = cancelEach call ids (cancelEach call [i] run) := by
  simp only [cancelEach]
  cases run.node? i <;> rfl

/-- A node that cannot be cancelled is passed over. -/
theorem cancelEach_idle (h : ∀ n, run.node? i = some n → ¬n.status.Cancellable) :
    cancelEach call [i] run = run := by
  simp only [cancelEach]
  cases hn : run.node? i with
  | none => rfl
  | some n => exact if_neg (h n hn)

theorem cancelEach_of_cancellable (hn : run.node? i = some n) (hc : n.status.Cancellable) :
    cancelEach call [i] run = run.cancelNode call n := by
  simp only [cancelEach, hn]
  exact if_pos hc

theorem Matches.putCancelled (h : Matches run run') :
    Matches (run.put n.nodeId (n.cancelRequestedAt call.now))
      (run'.put n.nodeId (n.cancelRequestedAt call.now)) := by
  have hid : (n.cancelRequestedAt call.now).nodeId = n.nodeId := rfl
  exact h.put hid

theorem Matches.cancelNode (h : Matches run run') :
    Matches (run.cancelNode call n) (run'.cancelNode call n) :=
  h.putCancelled.record

theorem Matches.cancelOne (h : Matches run run') :
    Matches (cancelEach call [i] run) (cancelEach call [i] run') := by
  by_cases hidle : ∀ n, run.node? i = some n → ¬n.status.Cancellable
  · rw [cancelEach_idle hidle, cancelEach_idle (by rwa [← h.node?])]
    exact h
  · push Not at hidle
    obtain ⟨n, hn, hc⟩ := hidle
    rw [cancelEach_of_cancellable hn hc, cancelEach_of_cancellable (h.node? ▸ hn) hc]
    exact h.cancelNode

theorem Matches.cancelEach {ids : List String} (h : Matches run run') :
    Matches (cancelEach call ids run) (cancelEach call ids run') := by
  induction ids generalizing run run' with
  | nil => exact h
  | cons i ids ih =>
    rw [cancelEach_cons, @cancelEach_cons run']
    exact ih h.cancelOne

theorem cancelOne_node? (hne : j ≠ i) : (cancelEach call [i] run).node? j = run.node? j := by
  rw [cancelEach_node?, if_neg]
  exact fun hj => hne (List.mem_singleton.1 hj)

/-- Two nodes may be cancelled in either order. -/
theorem matches_cancel_swap (hnd : (run.nodes.map WorkflowNodeRun.nodeId).Nodup) (hne : i ≠ j) :
    Matches (cancelEach call [j] (cancelEach call [i] run))
      (cancelEach call [i] (cancelEach call [j] run)) := by
  have hself : Matches run run := .refl hnd
  by_cases hi : ∀ n, run.node? i = some n → ¬n.status.Cancellable
  · have hi' : ∀ n, (cancelEach call [j] run).node? i = some n → ¬n.status.Cancellable := by
      rwa [cancelOne_node? hne]
    rw [cancelEach_idle hi, cancelEach_idle hi']
    exact hself.cancelOne
  by_cases hj : ∀ n, run.node? j = some n → ¬n.status.Cancellable
  · have hj' : ∀ n, (cancelEach call [i] run).node? j = some n → ¬n.status.Cancellable := by
      rwa [cancelOne_node? hne.symm]
    rw [cancelEach_idle hj, cancelEach_idle hj']
    exact hself.cancelOne
  push Not at hi hj
  obtain ⟨n, hn, hc⟩ := hi
  obtain ⟨n', hn', hc'⟩ := hj
  have hother : (cancelEach call [i] run).node? j = some n' := by rwa [cancelOne_node? hne.symm]
  have hother' : (cancelEach call [j] run).node? i = some n := by rwa [cancelOne_node? hne]
  rw [cancelEach_of_cancellable hother hc', cancelEach_of_cancellable hother' hc,
    cancelEach_of_cancellable hn hc, cancelEach_of_cancellable hn' hc']
  obtain rfl := nodeId_of_node? hn
  obtain rfl := nodeId_of_node? hn'
  have hnodes : Matches ((run.put n.nodeId (n.cancelRequestedAt call.now)).put n'.nodeId
      (n'.cancelRequestedAt call.now)) ((run.put n'.nodeId (n'.cancelRequestedAt call.now)).put
        n.nodeId (n.cancelRequestedAt call.now)) := by
    have hcomm := @replace_comm _ _ _ _ _ _ _ _ run.nodes hne
      (show (n.cancelRequestedAt call.now).nodeId = n.nodeId from rfl)
      (show (n'.cancelRequestedAt call.now).nodeId = n'.nodeId from rfl)
    refine ⟨rfl, ?_, hself.putCancelled.putCancelled.distinct, .refl _⟩
    show (replace _ _ _ (replace _ _ _ run.nodes)).Perm (replace _ _ _ (replace _ _ _ run.nodes))
    rw [hcomm]
  apply hnodes.record_swap
  · intro heq
    rw [String.append_right_inj, String.append_left_inj, String.append_right_inj] at heq
    exact hne heq
  · exact fun heq => hne (Option.some.inj heq)

/-- **The nodes may be cancelled in any order.** -/
theorem matches_cancelEach {ids ids' : List String} (hp : ids.Perm ids') (hids : ids.Nodup)
    (h : Matches run run') :
    Matches (cancelEach call ids run) (WorkflowRun.cancelEach call ids' run') := by
  induction hp generalizing run run' with
  | nil => exact h
  | cons i _ ih =>
    rw [cancelEach_cons, @cancelEach_cons run']
    exact ih (List.nodup_cons.1 hids).2 h.cancelOne
  | swap i j ids =>
    have hne : j ≠ i := fun heq => (List.nodup_cons.1 hids).1 (heq ▸ List.mem_cons_self)
    rw [cancelEach_cons, cancelEach_cons (i := i), @cancelEach_cons run',
      @cancelEach_cons (WorkflowRun.cancelEach call [i] run') call j]
    exact ((matches_cancel_swap h.distinct hne).trans h.cancelOne.cancelOne).cancelEach
  | trans hp _ ih ih' =>
    exact (ih hids (.refl h.distinct)).trans (ih' (hp.nodup_iff.1 hids) h)

end Cancelling

/-! ## Commands -/

/-- The nodes are those of the version, and those that work were started. -/
structure Regular (v : WorkflowVersion) (run : WorkflowRun) : Prop where
  instantiates : Instantiates v run.nodes
  attempted : ∀ n ∈ run.nodes, n.status.Begun → 0 < n.attemptCount

theorem regular_of_created (h : Created v run) : Regular v run where
  instantiates := (created_spec h).1
  attempted n hn hs := by
    obtain ⟨now, id, d, rfl⟩ := (created_spec h).2.2.1 n hn
    exact absurd hs (show ¬WorkflowNodeStatus.queued.Begun by decide)

theorem Regular.step {r : Request} (h : Regular v run) (hs : Step v run r run') : Regular v run' := by
  have he := effect_of_execute h.instantiates hs
  have hv' := instantiates_of_effect h.instantiates he
  refine ⟨hv', fun n' hn' => ?_⟩
  have hmem : n'.nodeId ∈ v.nodeIds := hv'.mem_nodeIds.1 (List.mem_map_of_mem hn')
  obtain ⟨n, hn⟩ := node?_of_mem h.instantiates hmem
  obtain ⟨m, hm, hmove⟩ := nodeMove_of_effect he hn
  obtain rfl : m = n' := Option.some.inj (hm.symm.trans (lookup_of_mem hv'.nodup hn'))
  exact attempted_of_move (h.attempted n (mem_of_node? hn)) hmove

theorem Regular.stoppable (h : Regular v run) {s : WorkflowRun} (hnodes : s.nodes = run.nodes)
    (hj : j ∈ run.nodes.map WorkflowNodeRun.nodeId) : Stoppable s j := by
  obtain ⟨n, hn⟩ := node?_of_mem h.instantiates (h.instantiates.mem_nodeIds.1 hj)
  have hmem := mem_of_node? hn
  refine ⟨n, ?_, h.instantiates.isIdentifier hmem, fun hact => h.attempted n hmem (Or.inl hact)⟩
  unfold WorkflowRun.node? at hn ⊢
  rwa [hnodes]

theorem Matches.regular (h : Matches run run') (hs : Regular v run) : Regular v run' where
  instantiates := h.instantiates.1 hs.instantiates
  attempted n hn := hs.attempted n (h.nodes.mem_iff.2 hn)

/-- The end of a cancellation, from its loop on. -/
theorem agree_cancelRest {s t : WorkflowRun} (hst : Matches s t) (h : Matches run run')
    (hs : Regular v run) (hsn : s.nodes = run.nodes) (htn : t.nodes = run'.nodes)
    (hz : call.now.tzAware = true) : Agree Matches (fun _ _ => True)
      ((do
        cancelNodes call (run.nodes.map WorkflowNodeRun.nodeId)
        let run ← get
        if ∀ n ∈ run.nodes, n.status.Closed then
          modify fun r => { r with status := .cancelled }
          appendEvent call (call.commandId ++ ":complete") .runCancelled {}
        touch call "Run 取消时间" : RunM Unit) s)
      ((do
        cancelNodes call (run'.nodes.map WorkflowNodeRun.nodeId)
        let run ← get
        if ∀ n ∈ run.nodes, n.status.Closed then
          modify fun r => { r with status := .cancelled }
          appendEvent call (call.commandId ++ ":complete") .runCancelled {}
        touch call "Run 取消时间" : RunM Unit) t) := by
  obtain ⟨u, hu⟩ := cancelNodes_returns hz fun j hj => hs.stoppable hsn hj
  obtain ⟨u', hu'⟩ := cancelNodes_returns hz fun j hj => (h.regular hs).stoppable htn hj
  have huu : Matches u u' := by
    rw [cancelNodes_ok hu, cancelNodes_ok hu']
    exact matches_cancelEach (h.nodes.map _) h.distinct hst
  rw [bind_of_ok hu, bind_of_ok hu']
  refine Simulates.bind .get (fun a b hab => ?_) u u' huu
  have htouch : Simulates Matches (fun _ _ => True) (touch call "Run 取消时间")
      (touch call "Run 取消时间") := simulates_touch.mono fun _ _ _ => trivial
  dsimp only
  exact .ite hab.forall_nodes
    ((simulates_status _).seq (simulates_appendEvent.seq htouch)) htouch

theorem agree_requestCancel (h : Matches run run') (hs : Regular v run) :
    Agree Matches (fun _ _ => True) (requestCancel call run) (requestCancel call run') := by
  refine (Simulates.get run run' h).bind fun a b s t ha hb _ _ => ?_
  obtain ⟨rfl, rfl⟩ := get_ok.1 ha
  obtain ⟨rfl, rfl⟩ := get_ok.1 hb
  refine (Simulates.check (by rw [h.status]) s t h).bind fun _ _ s₁ t₁ hc hc' _ _ => ?_
  obtain ⟨-, rfl⟩ := check_ok.1 hc
  obtain ⟨-, rfl⟩ := check_ok.1 hc'
  by_cases hcr : s₁.status = .cancelRequested
  · rw [if_pos hcr, if_pos (h.status ▸ hcr)]
    exact .ok trivial h
  rw [if_neg hcr, if_neg fun hcr' => hcr (h.status.trans hcr')]
  refine (simulates_status _ s₁ t₁ h).bind fun _ _ s₂ t₂ hs₂ ht₂ _ h₂ => ?_
  obtain rfl := modify_ok.1 hs₂
  obtain rfl := modify_ok.1 ht₂
  refine (Simulates.lift (S := Eq) alike_refl _ _ h₂).bind
    fun now now' s₃ t₃ hs₃ ht₃ hnow _ => ?_
  subst hnow
  obtain ⟨hnow, rfl⟩ := lift_ok.1 hs₃
  obtain ⟨-, rfl⟩ := lift_ok.1 ht₃
  obtain ⟨hz, rfl⟩ := utc_ok.1 hnow
  have h₄ : Matches { s₁ with status := .cancelRequested, cancelRequestedAt := some call.now }
      { t₁ with status := .cancelRequested, cancelRequestedAt := some call.now } :=
    ⟨congrArg (fun r => { r with cancelRequestedAt := some call.now }) h₂.fields, h.nodes,
      h.distinct, h.log⟩
  refine Agree.bind (S := Eq) (.ok rfl h₄) fun _ _ s₅ t₅ hs₅ ht₅ _ h₅ => ?_
  obtain ⟨-, rfl⟩ := EStateM.Result.ok.inj hs₅
  obtain ⟨-, rfl⟩ := EStateM.Result.ok.inj ht₅
  refine (simulates_appendEvent _ _ h₅).bind fun _ _ s₆ t₆ hs₆ ht₆ _ h₆ => ?_
  have hsn : s₆.nodes = s₁.nodes := by rw [(appendEvent_ok.1 hs₆).2, record_nodes]
  have htn : t₆.nodes = t₁.nodes := by rw [(appendEvent_ok.1 ht₆).2, record_nodes]
  exact agree_cancelRest h₆ h hs hsn htn hz

/-- **One command on matching runs**: both accept it and match again, or both refuse it with the
same error. -/
theorem agree_execute {r : Request} (h : Matches run run') (hs : Regular v run) :
    Agree Matches (fun _ _ => True) (execute v r run) (execute v r run') := by
  obtain ⟨c, call⟩ := r
  cases c with
  | startNode i =>
    have hstart := @agree_startNode _ _ _ call i h hs.instantiates
    show Agree _ _ (EStateM.map _ (startNode v i call) run) (EStateM.map _ (startNode v i call) run')
    unfold EStateM.map
    generalize startNode v i call run = p at hstart
    generalize startNode v i call run' = q at hstart
    cases hstart with
    | ok _ hstate => exact .ok trivial hstate
    | error => exact .error
  | succeedNode i summary fp outputs => exact simulates_succeedNode.discard run run' h
  | acceptNode i reference => exact simulates_acceptNode.discard run run' h
  | rejectNodeInput i code => exact simulates_rejectNodeInput.discard run run' h
  | failNode i code retryable => exact simulates_failNode.discard run run' h
  | skipNode i reason => exact simulates_skipNode.discard run run' h
  | requestCancel => exact agree_requestCancel h hs
  | confirmNodeCancel i => exact simulates_confirmNodeCancel.discard run run' h

/-- Issue commands one after the other, with the error of each that is refused; the caller drops
what a refused command has written. -/
def issueAll (v : WorkflowVersion) :
    List Request → WorkflowRun → List (Option WorkflowError) × WorkflowRun
  | [], run => ([], run)
  | r :: rs, run =>
    match execute v r run with
    | .ok () run' => ((issueAll v rs run').1.cons none, (issueAll v rs run').2)
    | .error e _ => ((issueAll v rs run).1.cons (some e), (issueAll v rs run).2)

/-- **Matching runs answer alike for ever.** -/
theorem matches_after {rs : List Request} (h : Matches run run') (hs : Regular v run) :
    (issueAll v rs run).1 = (issueAll v rs run').1 ∧
      Matches (issueAll v rs run).2 (issueAll v rs run').2 := by
  induction rs generalizing run run' with
  | nil => exact ⟨rfl, h⟩
  | cons r rs ih =>
    have hone := agree_execute (r := r) h hs
    unfold issueAll
    cases hx : execute v r run with
    | ok u s =>
      rw [hx] at hone
      generalize execute v r run' = q at hone
      cases hone with
      | ok _ hstate =>
        obtain ⟨hanswers, hlast⟩ := ih hstate (hs.step hx)
        exact ⟨congrArg (List.cons none) hanswers, hlast⟩
    | error e s =>
      rw [hx] at hone
      generalize execute v r run' = q at hone
      cases hone with
      | error =>
        obtain ⟨hanswers, hlast⟩ := ih h hs
        exact ⟨congrArg (List.cons (some e)) hanswers, hlast⟩

/-! ## Reading back -/

theorem sameEvent_reloaded : SameEvent e (e.reloaded pg) where
  runId := rfl
  transitionId := rfl
  eventType := rfl
  createdAt := rfl
  metadata := rfl
  outputs := by
    show Option.Rel List.Perm e.metadata.outputReferences (e.metadata.outputReferences.map pg.jsonb)
    cases e.metadata.outputReferences with
    | none => exact .none
    | some outputs => exact .some pg.jsonb_perm.symm

/-- **A run matches what is read back of it.** -/
theorem matches_reloaded (hnd : (run.nodes.map WorkflowNodeRun.nodeId).Nodup) :
    Matches run (run.reloaded pg) where
  fields := rfl
  nodes := orderBy_perm.symm
  distinct := hnd
  log :=
    { length := by
        show _ = (run.events.map _).length
        rw [List.length_map]
      events := by
        intro x
        show List.Forall₂ SameEvent _ ((run.events.map (WorkflowEvent.reloaded pg)).filter _)
        rw [List.filter_map, List.forall₂_map_right_iff]
        exact List.forall₂_same.2 fun e _ => sameEvent_reloaded }

end GoAgent.Workflow
