import GoAgent.Workflow.Reload

/-!
# A node's own events

Every transition of a node logs an event of its own under an id made of the command id and a
suffix (`WorkflowCommand.suffix`). The event is dropped when the id is in the log already, and
then a success leaves no outputs behind and the nodes that need them wait for ever.

`Clear` says that a command that can move a node (`Moves`) would log under a new id.

* `own_of_effect` — then a node whose status changes gets exactly one event of its own.
* `own_events_of_turns` — while every call is clear, every success is logged with its outputs and
  a queued node whose predecessors have succeeded is ready.
-/

namespace GoAgent.Workflow

open GoAgent.Foundation WorkflowRun

variable {pg : Postgres} {registry : WorkflowDefinitionRegistry} {v : WorkflowVersion}
  {run run' run₁ : WorkflowRun} {r : Request} {c : WorkflowCommand} {call : Call}
  {i j t : String} {n n' : WorkflowNodeRun} {ty : WorkflowEventType} {data : EventMetadata}

/-! ## Counting -/

/-- The events of the transitions of nodes. -/
def WorkflowEventType.OfNode : WorkflowEventType → Bool
  | .nodeStarted | .nodeAccepted | .nodeSucceeded | .nodeInputRejected | .nodeFailed
  | .nodeRetryScheduled | .nodeSkipped | .nodeCancelRequested | .nodeCancelled => true
  | _ => false

/-- How many events a node has of its own. -/
def WorkflowRun.own (run : WorkflowRun) (nodeId : String) : Nat :=
  run.events.countP fun e => e.eventType.OfNode && e.metadata.nodeId == some nodeId

/-- What the transition id of a node's event adds to the command id. -/
def WorkflowCommand.suffix (c : WorkflowCommand) (nodeId : String) : String :=
  match c with
  | .startNode _ => ":start"
  | .acceptNode .. => ":accept"
  | .succeedNode .. => ":succeed"
  | .rejectNodeInput .. => ":reject-input"
  | .failNode .. => ":fail"
  | .skipNode .. => ":skip"
  | .requestCancel => ":" ++ nodeId ++ ":cancel"
  | .confirmNodeCancel _ => ":confirm"

theorem own_of_logs {P : WorkflowEventType → Option String → Prop} (h : Logs P run run')
    (hP : ∀ ty node, P ty node → ty.OfNode = false ∨ node ≠ some i) : run'.own i = run.own i := by
  apply Grows.countP_eq h
  intro e he
  rw [Bool.and_eq_false_iff, beq_eq_false_iff_ne]
  exact hP _ _ he

/-- Nothing is logged but the run's own events. -/
def OfRun (ty : WorkflowEventType) (_ : Option String) : Prop := ty.OfNode = false

theorem own_of_run (h : Logs OfRun run run') : run'.own i = run.own i :=
  own_of_logs h fun _ _ h => Or.inl h

theorem own_closed : (run.closed call t).own i = run.own i := own_of_run (.closed fun _ => rfl)

theorem own_cancelStarted : (run.cancelStarted call).own i = run.own i :=
  own_of_run (.cancelStarted rfl)

theorem own_recordNode (hid : n.nodeId = i) (hty : ty.OfNode = true)
    (hfresh : ¬run.hasTransition (call.commandId ++ t)) :
    (run.recordNode call t n ty data).own i = run.own i + 1 := by
  unfold recordNode own
  rw [record_of_fresh hfresh, List.countP_append, List.countP_singleton, if_pos]
  simp [nextEvent, hty, hid]

/-- A transition that logs its event, and otherwise only events of the run. -/
theorem own_of_transition (hold : Logs OfRun run run₁) (hid : n.nodeId = i)
    (hty : ty.OfNode = true) (hfresh : ¬run₁.hasTransition (call.commandId ++ t))
    (hnew : Logs OfRun (run₁.recordNode call t n ty data) run') :
    run'.own i = run.own i + 1 := by
  rw [own_of_run hnew, own_recordNode hid hty hfresh, own_of_run hold]

/-! ## Cancelling the nodes -/

theorem suffix_cancel_inj : WorkflowCommand.requestCancel.suffix i =
    WorkflowCommand.requestCancel.suffix j ↔ i = j := by
  simp [WorkflowCommand.suffix]

/-- Cancelling another node leaves node `i`, its events and its transition ids alone. -/
theorem own_cancelNode_other (call : Call) (hne : i ≠ n.nodeId)
    (hn : run.node? n.nodeId = some n) :
    (run.cancelNode call n).node? i = run.node? i ∧
      (run.cancelNode call n).own i = run.own i ∧
      ((run.cancelNode call n).hasTransition
          (call.commandId ++ WorkflowCommand.requestCancel.suffix i) →
        run.hasTransition (call.commandId ++ WorkflowCommand.requestCancel.suffix i)) := by
  refine ⟨?_, ?_, fun h => ?_⟩
  · rw [cancelNode, recordNode_node?, node?_put (by rfl) hn, if_neg hne]
  · refine own_of_logs (P := fun _ node => node = some n.nodeId)
      (Logs.put.trans (Logs.recordNode rfl)) fun _ _ h => Or.inr ?_
    rw [h]
    exact fun heq => hne (Option.some.inj heq).symm
  · obtain h | h := hasTransition_record.1 h
    · exact h
    · exact absurd (suffix_cancel_inj.1 ((String.append_right_inj _).1 h)) hne

theorem own_cancelNode_self
    (hfresh : ¬run.hasTransition (call.commandId ++
      WorkflowCommand.requestCancel.suffix n.nodeId)) :
    (run.cancelNode call n).own n.nodeId = run.own n.nodeId + 1 := by
  have hput : Logs OfRun run (run.put n.nodeId (n.cancelRequestedAt call.now)) := .put
  refine own_of_transition hput rfl ?_ hfresh (.refl rfl)
  split_ifs <;> rfl

theorem own_cancelEach {ids : List String} (hn : run.node? i = some n) :
    (¬n.status.Cancellable → (cancelEach call ids run).own i = run.own i) ∧
    (n.status.Cancellable → i ∈ ids →
      ¬run.hasTransition (call.commandId ++ WorkflowCommand.requestCancel.suffix i) →
        (cancelEach call ids run).own i = run.own i + 1) := by
  induction ids generalizing run n with
  | nil => exact ⟨fun _ => rfl, fun _ hi => nomatch hi⟩
  | cons j ids ih =>
    simp only [cancelEach]
    split
    · next m hm =>
      obtain rfl := nodeId_of_node? hm
      by_cases hij : i = m.nodeId
      · subst hij
        obtain rfl := Option.some.inj (hn.symm.trans hm)
        constructor
        · intro hc
          rw [if_neg hc]
          exact (ih hn).1 hc
        · intro hc _ hfresh
          have hdone : ¬(n.cancelRequestedAt call.now).status.Cancellable := by
            have hself : n.cancelledBy call = n.cancelRequestedAt call.now := if_pos hc
            exact hself ▸ cancelledBy_done
          have hself : (run.cancelNode call n).node? n.nodeId =
              some (n.cancelRequestedAt call.now) := by
            rw [cancelNode, recordNode_node?, node?_put (by rfl) hn, if_pos rfl]
          rw [if_pos hc, (ih hself).1 hdone, own_cancelNode_self hfresh]
      · obtain ⟨hnode, hown, hlog⟩ := own_cancelNode_other call hij hm
        split_ifs
        · obtain ⟨hleft, hright⟩ := ih (hnode.trans hn)
          rw [hown] at hleft hright
          exact ⟨hleft, fun hc hi hfresh => hright hc ((List.mem_cons.1 hi).resolve_left hij)
            fun h => hfresh (hlog h)⟩
        · exact ⟨(ih hn).1, fun hc hi => (ih hn).2 hc ((List.mem_cons.1 hi).resolve_left hij)⟩
    · next hm =>
      have hij : i ≠ j := by
        rintro rfl
        rw [hm] at hn
        cases hn
      exact ⟨(ih hn).1, fun hc hi => (ih hn).2 hc ((List.mem_cons.1 hi).resolve_left hij)⟩

/-! ## Transitions under new ids -/

/-- The command can move the node: it names it, and node and run are in a state it accepts. -/
def WorkflowRun.Moves (v : WorkflowVersion) (run : WorkflowRun) (c : WorkflowCommand)
    (n : WorkflowNodeRun) : Prop :=
  match c with
  | .startNode nodeId =>
    nodeId = n.nodeId ∧ n.status = .queued ∧ ¬run.status.Shut ∧ run.Ready v nodeId
  | .acceptNode nodeId _ => nodeId = n.nodeId ∧ n.status = .running ∧ ¬run.status.Shut
  | .succeedNode nodeId _ _ outputs =>
    nodeId = n.nodeId ∧ n.status.Active ∧ acceptsOutputs v nodeId outputs
  | .rejectNodeInput nodeId _ => nodeId = n.nodeId ∧ n.status = .queued ∧ ¬run.status.Shut
  | .failNode nodeId code _ =>
    nodeId = n.nodeId ∧ n.status.Active ∧ isSafeError (strip code) = true
  | .skipNode nodeId _ => nodeId = n.nodeId ∧ n.status = .queued
  | .requestCancel => n.status.Cancellable ∧ ¬run.status.Shut
  | .confirmNodeCancel nodeId => nodeId = n.nodeId ∧ n.status = .cancelRequested

/-- The command would log the transitions it can make under new ids. -/
def WorkflowRun.Clear (v : WorkflowVersion) (run : WorkflowRun) (r : Request) : Prop :=
  ∀ n ∈ run.nodes, run.Moves v r.command n →
    ¬run.hasTransition (r.call.commandId ++ r.command.suffix n.nodeId)

instance : Decidable (run.Ready v i) :=
  decidable_of_iff ((run.readyNodes v).toOption.any (i ∈ ·) = true) <| by
    unfold Ready
    cases run.readyNodes v <;> simp [Except.toOption]

instance : Decidable (run.Moves v c n) := by
  unfold Moves
  split <;> infer_instance

instance : Decidable (run.Clear v r) := by
  unfold Clear
  infer_instance

theorem hasTransition_begun (ht : t ≠ call.commandId ++ ":run-start") :
    (run.begun call).hasTransition t ↔ run.hasTransition t := by
  unfold begun
  split_ifs
  · rw [hasTransition_record]
    exact or_iff_left ht
  · exact Iff.rfl

theorem hasTransition_cancelStarted (ht : t ≠ call.commandId ++ ":run-cancel-requested") :
    (run.cancelStarted call).hasTransition t ↔ run.hasTransition t := by
  unfold cancelStarted
  rw [hasTransition_record]
  exact or_iff_left ht

/-- The id of a node's cancellation is not that of the run's. -/
theorem suffix_cancel_ne : WorkflowCommand.requestCancel.suffix i ≠ ":run-cancel-requested" := by
  intro h
  have hlast := congrArg (fun s => s.toList.getLast?) h
  have hend : ":cancel".toList.getLast? = some 'l' := by decide
  simp only [WorkflowCommand.suffix, String.toList_append, List.getLast?_append, hend,
    Option.some_or] at hlast
  exact absurd hlast (by decide)

/-- **A node whose status changes gets exactly one event of its own.** -/
theorem own_of_step (hv : Instantiates v run.nodes) (hs : Step v run r run')
    (hclear : run.Clear v r) (hn : run.node? i = some n) (hn' : run'.node? i = some n')
    (hne : n'.status ≠ n.status) : run'.own i = run.own i + 1 := by
  have he := effect_of_execute hv hs
  obtain ⟨c, call⟩ := r
  have hid := nodeId_of_node? hn
  -- A command about one node moves the node it puts in place.
  have hput : ∀ {j m m'}, run.node? j = some m → m'.nodeId = m.nodeId →
      (run.put j m').node? i = some n' → j = i ∧ m = n ∧ m' = n' := fun hm hm' hn'' => by
    obtain rfl | ⟨hj, rfl, rfl⟩ := eq_or_of_put hm hm' hn hn''
    · exact absurd rfl hne
    · exact ⟨hj.trans hid, rfl, rfl⟩
  have hfresh : run.Moves v c n → ¬run.hasTransition (call.commandId ++ c.suffix i) :=
    fun hmoves => hid ▸ hclear n (mem_of_node? hn) hmoves
  cases he with
  | acceptLogged | succeedLogged | cancelAgain =>
    exact absurd (congrArg _ (Option.some.inj (hn'.symm.trans hn))) hne
  | succeedUnlogged => 
    simp only [refreshed_node?, recordNode_node?] at hn'
    exact absurd (congrArg _ (Option.some.inj (hn'.symm.trans hn))) hne
  | start hopen hready hmem hm hq =>
    simp only [touched_node?, recordNode_node?, begun_node?] at hn'
    obtain ⟨rfl, rfl, rfl⟩ := hput hm (by rfl) hn'
    refine own_of_transition (Logs.put.trans (.begun rfl)) hid rfl ?_ (.refl rfl)
    rw [hasTransition_begun (by rw [Ne, String.append_right_inj]; decide)]
    exact hfresh ⟨hid.symm, hq, hopen, _, hready, hmem⟩
  | accept hopen hm hm' =>
    simp only [touched_node?, record_node?, recordNode_node?, withStatus_node?] at hn'
    obtain ⟨hr, -, rfl⟩ | ⟨ha, rfl, -⟩ := hm'
    · obtain ⟨rfl, rfl, rfl⟩ := hput hm (by rfl) hn'
      exact own_of_transition (Logs.put.trans .withStatus) hid rfl
        (hfresh ⟨hid.symm, hr, hopen⟩) (.trans (.record (by rfl)) (.refl rfl))
    · obtain ⟨-, rfl, rfl⟩ := hput hm (by rfl) hn'
      exact absurd rfl hne
  | succeed hm hact =>
    simp only [refreshed_node?, recordNode_node?] at hn'
    obtain ⟨rfl, rfl, rfl⟩ := hput hm (by rfl) hn'
    obtain ⟨_, hsucc⟩ := discard_ok.1 hs
    exact own_of_transition Logs.put hid rfl
      (hfresh ⟨hid.symm, hact, acceptsOutputs_of_succeedNode hsucc⟩) (.refreshed fun _ => rfl)
  | reject hopen hm hq =>
    simp only [touched_node?, failedWith_node?, recordNode_node?] at hn'
    obtain ⟨rfl, rfl, rfl⟩ := hput hm (by rfl) hn'
    exact own_of_transition Logs.put hid rfl (hfresh ⟨hid.symm, hq, hopen⟩)
      (Logs.trans (.failedWith rfl) (.refl rfl))
  | retry hm hact _ hcode =>
    simp only [touched_node?, recordNode_node?] at hn'
    obtain ⟨rfl, rfl, rfl⟩ := hput hm (by rfl) hn'
    exact own_of_transition Logs.put hid rfl (hfresh ⟨hid.symm, hact, hcode⟩) (.refl rfl)
  | fail hm hact _ hcode =>
    simp only [touched_node?, failedWith_node?, recordNode_node?] at hn'
    obtain ⟨rfl, rfl, rfl⟩ := hput hm (by rfl) hn'
    exact own_of_transition Logs.put hid rfl (hfresh ⟨hid.symm, hact, hcode⟩)
      (Logs.trans (.failedWith rfl) (.refl rfl))
  | skip hm hm' =>
    simp only [refreshed_node?, recordNode_node?] at hn'
    obtain ⟨hq, rfl⟩ | ⟨-, rfl⟩ := hm'
    · obtain ⟨rfl, rfl, rfl⟩ := hput hm (by rfl) hn'
      exact own_of_transition Logs.put hid rfl (hfresh ⟨hid.symm, hq⟩) (.refreshed fun _ => rfl)
    · obtain ⟨-, rfl, rfl⟩ := hput hm (by rfl) hn'
      exact absurd rfl hne
  | confirm hm hm' =>
    simp only [touched_node?, cancelSettled_node?, recordNode_node?] at hn'
    obtain ⟨hc, rfl⟩ | ⟨-, rfl⟩ := hm'
    · obtain ⟨rfl, rfl, rfl⟩ := hput hm (by rfl) hn'
      exact own_of_transition Logs.put hid rfl (hfresh ⟨hid.symm, hc⟩)
        (Logs.trans (.cancelSettled fun _ _ => rfl) (.refl rfl))
    · obtain ⟨-, rfl, rfl⟩ := hput hm (by rfl) hn'
      exact absurd rfl hne
  | cancel hopen =>
    have hmem : i ∈ run.nodes.map WorkflowNodeRun.nodeId :=
      List.mem_map.2 ⟨n, mem_of_node? hn, hid⟩
    have hnode : (run.cancelStarted call).node? i = some n := hn
    have hc : n.status.Cancellable := by
      by_contra hc
      have hsame : n.cancelledBy call = n := if_neg hc
      simp only [touched_node?, closed_node?] at hn'
      rw [cancelEach_node?, if_pos hmem, hnode, Option.map_some, hsame] at hn'
      exact hne (congrArg _ (Option.some.inj hn').symm)
    show (((cancelEach call _ (run.cancelStarted call)).closed call _).own i) = _
    rw [own_closed, (own_cancelEach hnode).2 hc hmem, own_cancelStarted]
    rw [hasTransition_cancelStarted]
    · exact hfresh ⟨hc, hopen⟩
    · exact fun h => suffix_cancel_ne ((String.append_right_inj _).1 h)

/-! ## Every turn -/

theorem moves_reloaded (hv : Instantiates v run.nodes) :
    (run.reloaded pg).Moves v c n ↔ run.Moves v c n := by
  cases c with
  | startNode nodeId =>
    exact and_congr_right fun _ => and_congr_right fun _ => and_congr_right fun _ =>
      ready_reloaded hv
  | _ => exact Iff.rfl

theorem clear_reloaded (hv : Instantiates v run.nodes) :
    (run.reloaded pg).Clear v r ↔ run.Clear v r := by
  unfold WorkflowRun.Clear
  simp only [moves_reloaded hv, reloaded_hasTransition]
  exact forall_congr' fun n => imp_congr_left mem_orderBy

/-- The success of every node that has succeeded is logged, with its outputs. -/
def Delivers (v : WorkflowVersion) (run : WorkflowRun) : Prop :=
  ∀ i, run.At i .succeeded → Delivered v run i

theorem delivers_reloaded (hv : Instantiates v run.nodes) (h : Delivers v run) :
    Delivers v (run.reloaded pg) := fun i hi => (h i ((at_reloaded hv).1 hi)).reloaded

theorem delivers_of_step (hv : Instantiates v run.nodes) (hs : Step v run r run')
    (hclear : run.Clear v r) (h : Delivers v run) : Delivers v run' := by
  intro i hi
  apply delivered_of_effect (effect_of_execute hv hs) h _ hi
  intro j summary fp outputs n hc hn hact
  obtain ⟨c, call⟩ := r
  subst hc
  obtain ⟨_, hsucc⟩ := discard_ok.1 hs
  exact hclear n (mem_of_node? hn) ⟨(nodeId_of_node? hn).symm, hact, acceptsOutputs_of_succeedNode hsucc⟩

section

variable {V : Type} {values : InputValues V} {a : Action V} {as : List (Action V)}
  {s s' s₀ : System}

/-- The action finds its receipt, or would log the transitions it can make under new ids. -/
def Action.Clear (pg : Postgres) (values : InputValues V) (v : WorkflowVersion) (s : System)
    (a : Action V) : Prop :=
  ¬a.Replayed s → ∀ run, loadRun pg s.world.rows = .ok run → ∀ r, a.issued values v s run = some r →
    run.Clear v r

instance : Decidable (a.Replayed s) := by
  unfold Action.Replayed
  split <;> infer_instance

instance : Decidable (a.Clear pg values v s) :=
  decidable_of_iff (¬a.Replayed s → ∀ run ∈ (loadRun pg s.world.rows).toOption,
    ∀ r ∈ a.issued values v s run, run.Clear v r) <| by
    unfold Action.Clear
    cases loadRun pg s.world.rows <;> simp [Except.toOption]

/-- What a clear turn does to the run. -/
theorem Serving.clearTurn (hreg : registry.get v.workflowCode.1 v.version.1 = some v)
    (h : Serving pg v s run) (hdel : Delivers v run)
    (ht : Guarded (Turn pg registry values) (Action.Clear pg values v) s a s') :
    ∃ run', Serving pg v s' run' ∧ Delivers v run' ∧ s.world.rows.events <+: s'.world.rows.events ∧
      ∀ i n n', run.node? i = some n → run'.node? i = some n' → n'.status ≠ n.status →
        run'.own i = run.own i + 1 := by
  obtain ⟨run', hserving, ⟨hw, rfl⟩ | ⟨r, run₀, hrun₀, hnew, hissues, hsaves⟩⟩ := h.turn hreg ht.1
  · refine ⟨run', hserving, hdel, hw ▸ List.prefix_rfl, fun i n n' hn hn' hne => ?_⟩
    obtain rfl := Option.some.inj (hn.symm.trans hn')
    exact absurd rfl hne
  · have hv := h.holds.instantiates
    have hclear : run.Clear v r := (clear_reloaded hv).1 (ht.2 hnew _ h.holds.load r hissues)
    have hsame : run₀.Clear v r ∧ Delivers v run₀ ∧ ∀ i, run₀.node? i = run.node? i ∧
        run₀.own i = run.own i := by
      rcases hrun₀ with rfl | rfl
      · exact ⟨hclear, hdel, fun i => ⟨rfl, rfl⟩⟩
      · exact ⟨(clear_reloaded hv).2 hclear, delivers_reloaded hv hdel, fun i =>
          ⟨reloaded_node? hv.nodup, List.countP_map⟩⟩
    obtain ⟨hclear₀, hdel₀, hsame⟩ := hsame
    refine ⟨run', hserving, delivers_of_step hsaves.before.instantiates hsaves.step hclear₀ hdel₀,
      hsaves.log, fun i n n' hn hn' hne => ?_⟩
    rw [← (hsame i).2]
    exact own_of_step hsaves.before.instantiates hsaves.step hclear₀ ((hsame i).1.trans hn) hn' hne

/-- How many stored events a node has of its own. -/
def WorkflowRows.own (rows : WorkflowRows) (nodeId : String) : Nat :=
  rows.events.countP fun e =>
    (WorkflowEventType.ofValue e.eventType).toOption.any WorkflowEventType.OfNode &&
      e.eventMetadata.nodeId == some nodeId

theorem own_of_stores {rows : WorkflowRows} (h : Stores pg rows run) : rows.own i = run.own i := by
  unfold WorkflowRows.own WorkflowRun.own
  rw [h.events.countP_eq, List.countP_map]
  apply List.countP_congr
  intro e _
  simp only [Function.comp_apply, eventToRecord, eventType_ofValue, Except.toOption, Option.any_some]
  exact Iff.rfl

/-- **Own events.** While every action that is no replay would log the transitions it can make
under new ids, a node whose status changes gets exactly one event of its own, every node that has
succeeded has its success logged with the outputs it declares, and a queued node all of whose
predecessors have succeeded is ready. -/
theorem own_events_of_turns (hreg : registry.get v.workflowCode.1 v.version.1 = some v)
    (h₀ : Opened pg v s₀)
    (hs : Steps (Guarded (Turn pg registry values) (Action.Clear pg values v)) s₀ as s) :
    (∀ {a s'}, Guarded (Turn pg registry values) (Action.Clear pg values v) s a s' →
      s.world.rows.events <+: s'.world.rows.events ∧
      ∀ x ∈ s.world.rows.nodes, ∀ x' ∈ s'.world.rows.nodes, x'.nodeId = x.nodeId →
        x'.status ≠ x.status → s'.world.rows.own x.nodeId = s.world.rows.own x.nodeId + 1) ∧
    (∀ x ∈ s.world.rows.nodes, x.status = "succeeded" → ∃ e ∈ s.world.rows.events, ∃ outputs d,
      e.eventType = "NODE_SUCCEEDED" ∧ e.eventMetadata.nodeId = some x.nodeId ∧
      e.eventMetadata.outputReferences = some outputs ∧ v.node x.nodeId = .ok d ∧
      ∀ f, f ∈ outputs.map Prod.fst ↔ f ∈ d.outputFields.1) ∧
    ∀ run, loadRun pg s.world.rows = .ok run → ∀ n ∈ run.nodes, n.status = .queued →
      (∀ e ∈ v.edges, e.targetNodeId.1 = n.nodeId →
        ∃ p ∈ run.nodes, p.nodeId = e.sourceNodeId.1 ∧ p.status = .succeeded) →
      ∃ ready, run.readyNodes v = .ok ready ∧ n.nodeId ∈ ready := by
  obtain ⟨run₀, hcreated, hserving₀⟩ := h₀.serving
  have hdel₀ : Delivers v run₀ := by
    intro i ⟨n, hn, hsucc⟩
    obtain ⟨now, id, d, rfl⟩ := (created_spec hcreated).2.2.1 n (mem_of_node? hn)
    cases hsucc
  obtain ⟨run, hserving, hdel⟩ := hs.invariant
    (P := fun s => ∃ run, Serving pg v s run ∧ Delivers v run)
    (fun ⟨run, hserving, hdel⟩ ht => by
      obtain ⟨run', hserving', hdel', -⟩ := hserving.clearTurn hreg hdel ht
      exact ⟨run', hserving', hdel'⟩) ⟨run₀, hserving₀, hdel₀⟩
  have hv := hserving.holds.instantiates
  refine ⟨fun {a s'} ht => ?_, fun x hx hsucc => ?_, fun run' hrun' n hn hq hpred => ?_⟩
  · obtain ⟨run', hserving', -, hlog, hown⟩ := hserving.clearTurn hreg hdel ht
    refine ⟨hlog, fun x hx x' hx' hid hne => ?_⟩
    obtain ⟨n, hn, rfl⟩ := hserving.mem_nodes.1 hx
    obtain ⟨n', hn', rfl⟩ := hserving'.mem_nodes.1 hx'
    have hnode' : run'.node? n.nodeId = some n' :=
      (lookup_eq_some_iff hserving'.holds.instantiates.nodup).2 ⟨hn', hid⟩
    rw [own_of_stores hserving.holds.stores, own_of_stores hserving'.holds.stores]
    exact hown _ n n' (lookup_of_mem hv.nodup hn) hnode' fun h =>
      hne (congrArg WorkflowNodeStatus.value h)
  · obtain ⟨n, hn, rfl⟩ := hserving.mem_nodes.1 hx
    have hst : n.status = .succeeded := nodeStatus_value_inj.1 hsucc
    obtain ⟨e, outputs, d, hlog, hout, hd, hfields⟩ :=
      hdel n.nodeId ⟨n, lookup_of_mem hv.nodup hn, hst⟩
    obtain ⟨he, hkind⟩ := latest_spec hlog
    obtain ⟨hty, hid⟩ := of_decide_eq_true hkind
    refine ⟨eventToRecord pg e, hserving.holds.stores.events.mem_iff.2 (List.mem_map_of_mem he),
      pg.jsonb outputs, d, congrArg WorkflowEventType.value hty, hid, ?_, hd, fun f => ?_⟩
    · show e.metadata.outputReferences.map pg.jsonb = _
      rw [hout]
      rfl
    · rw [(pg.jsonb_perm.map Prod.fst).mem_iff]
      exact hfields f
  · obtain rfl := Except.ok.inj (hserving.holds.load.symm.trans hrun')
    have hv' : Instantiates v (run.reloaded pg).nodes := instantiates_reloaded hv
    refine (ready_iff hv').2 ⟨n, lookup_of_mem hv'.nodup hn, hq, ?_⟩
    apply fed_of_delivered (delivers_reloaded hv hdel)
    intro e he ht
    obtain ⟨p, hp, hid, hst⟩ := hpred e he ht
    exact ⟨p, (lookup_eq_some_iff hv'.nodup).2 ⟨hp, hid⟩, hst⟩

end

/-! ## An event that is lost -/

theorem handed_names : (∀ f ∈ ["f"], isIdentifier f = true) ∧ ["f"].Nodup := by decide

theorem handed_onwards : nodeB ≠ nodeC := by decide

def handed : FieldNames := ⟨["f"], handed_names⟩

def handingNodes : List WorkflowNodeDefinition :=
  [plainNode nodeA, { plainNode nodeB with outputFields := handed },
    { plainNode nodeC with inputFields := handed }]

def handingEdges : List WorkflowEdgeDefinition := [⟨nodeB, nodeC, handed, handed_onwards⟩]

theorem handing_accepted : checkVersion handingNodes handingEdges = .ok () := rfl

/-- Node `b` hands its output to node `c`; node `a` works on its own. -/
def handing : WorkflowVersion where
  workflowCode := flow
  version := version1
  nodes := handingNodes
  edges := handingEdges
  enabled := true
  accepted := handing_accepted

/-- The key under which an action leaves its receipt. -/
def Action.key {V : Type} : Action V → Option (String × String)
  | .call c _ commandId _ => some (c.type, commandId)
  | .begin _ _ _ commandId _ => some ("execute-node", commandId)
  | .resume .. => none

def done : WorkflowNodeExecutionOutcome where
  status := .completed
  resultSummary := some "done"
  admitted := by decide

def taken : WorkflowNodeExecutionOutcome where
  status := .accepted
  executionReference := some "job"
  admitted := by decide

/-- Node `a` succeeds under the command id under which node `b` is completed later. -/
def sharedId : List (Tick → Action String) :=
  [.begin owner "a" (some []) "x", .resume (some done), .begin owner "b" (some []) "y",
    .resume (some taken), .call (.completeNode "b" "done" none [("f", "ref")]) owner "x"]

def handingOpened : System := (opened handing).get (by decide +kernel)

def handingLost : System := (script handing 1 sharedId handingOpened).get (by decide +kernel)

def lostRun : WorkflowRun :=
  (loadRun server handingLost.world.rows).toOption.get (by decide +kernel)

theorem success_lost : Opened server handing handingOpened ∧
    Steps (Turn server [handing] strings) handingOpened (ticked 1 sharedId) handingLost ∧
    ((ticked 1 sharedId).filterMap Action.key).Nodup ∧
    (∃ x ∈ handingLost.world.rows.nodes, x.nodeId = "b" ∧ x.status = "succeeded") ∧
    (∀ e ∈ handingLost.world.rows.events, e.eventType = "NODE_SUCCEEDED" →
      e.eventMetadata.nodeId ≠ some "b") ∧
    loadRun server handingLost.world.rows = .ok lostRun ∧ ¬lostRun.status.Terminal ∧
    (∃ n ∈ lostRun.nodes, n.nodeId = "c" ∧ n.status = .queued) ∧
    (∀ e ∈ handing.edges, e.targetNodeId.1 = "c" →
      ∃ p ∈ lostRun.nodes, p.nodeId = e.sourceNodeId.1 ∧ p.status = .succeeded) ∧
    lostRun.readyNodes handing = .ok [] := by
  refine ⟨opened_spec (Option.some_get _).symm, turns_of_script ?_ (Option.some_get _).symm,
    by decide, by decide +kernel⟩
  simp only [sharedId, List.mem_cons, List.not_mem_nil, or_false, forall_eq_or_imp, forall_eq]
  exact ⟨fun _ => rfl, fun _ => rfl, fun _ => rfl, fun _ => rfl, fun _ => rfl⟩

/-! ## A run without a loss -/

def fed : WorkflowNodeExecutionOutcome where
  status := .completed
  resultSummary := some "done"
  outputReferences := [("f", "ref")]
  admitted := by decide

def handingStarted : System :=
  (script handing 1 [.begin owner "b" (some []) "x"] handingOpened).get (by decide +kernel)

def handingFed : System :=
  (script handing 2 [.resume (some fed)] handingStarted).get (by decide +kernel)

theorem own_events_of_turns_fed : (∃ x ∈ handingFed.world.rows.nodes, x.status = "succeeded") ∧
    ∀ x ∈ handingFed.world.rows.nodes, x.status = "succeeded" →
      ∃ e ∈ handingFed.world.rows.events, e.eventType = "NODE_SUCCEEDED" ∧
        e.eventMetadata.nodeId = some x.nodeId := by
  refine ⟨by decide +kernel, fun x hx hsucc => ?_⟩
  have hstart : Turn server [handing] strings handingOpened _ handingStarted :=
    turn_of_script (fun _ => rfl) (Option.some_get _).symm
  have hfed : Turn server [handing] strings handingStarted _ handingFed :=
    turn_of_script (fun _ => rfl) (Option.some_get _).symm
  obtain ⟨-, hlogged, -⟩ := own_events_of_turns registry_single
    (opened_spec (Option.some_get _).symm)
    (.cons ⟨hstart, by decide +kernel⟩ (.cons ⟨hfed, by decide +kernel⟩ (.nil _)))
  obtain ⟨e, he, -, -, hty, hid, -⟩ := hlogged x hx hsucc
  exact ⟨e, he, hty, hid⟩

end GoAgent.Workflow
