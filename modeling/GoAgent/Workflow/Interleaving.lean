import GoAgent.Workflow.Outcomes
import GoAgent.Workflow.OwnEvents

/-!
# Interleaved calls

Between the two saves of `execute_node` the row lock is free, so any number of executors may be
running while other calls come and go. The second save writes the run the call has had in memory
since the first. If another command has logged an event meanwhile, the sequence numbers collide
and the database refuses the save: the outcome is lost.

`Orderly` says of a call that resumes that its run is still the stored one (`Current`), or that
its node has been settled by a command that logged an event (`Overtaken`).

* `stale_save` — a save over a longer log is refused.
* `updates_kept_of_interleaving` — while every call resumes orderly, no save undoes another, and
  no node is left running when its executor has returned.
-/

namespace GoAgent.Workflow

open GoAgent.Foundation WorkflowRun WorkflowApplication

variable {pg : Postgres} {registry : WorkflowDefinitionRegistry} {v : WorkflowVersion}
  {run run' run₁ : WorkflowRun} {r : Request} {c : WorkflowCommand} {call : Call} {i : String}
  {n n' : WorkflowNodeRun} {rows rows' : WorkflowRows} {w w' : World}
  {outcome : Option WorkflowNodeExecutionOutcome} {tick : Tick}

/-! ## A system with many calls -/

/-- A world, and the `execute_node` calls whose executors are running. -/
structure Server where
  world : World
  running : List Suspended := []

/-- What happens next: a call, or the return of the `k`-th executor. -/
inductive Next (V : Type)
  | call (command : AppCommand) (principal : RequestPrincipal) (commandId : String) (tick : Tick)
  | begin (principal : RequestPrincipal) (nodeId : String) (inputs : Option (Inputs V))
      (commandId : String) (tick : Tick)
  | reply (k : Nat) (outcome : Option WorkflowNodeExecutionOutcome) (tick : Tick)

section

variable {V : Type}

def Next.action : Next V → Action V
  | .call c principal commandId tick => .call c principal commandId tick
  | .begin principal nodeId inputs commandId tick => .begin principal nodeId inputs commandId tick
  | .reply _ outcome tick => .resume outcome tick

/-- The call that resumes. -/
def Next.resumed (s : Server) : Next V → Option Suspended
  | .call .. | .begin .. => none
  | .reply k _ _ => s.running[k]?

/-- The calls that go on waiting. -/
def Next.waiting (s : Server) : Next V → List Suspended
  | .call .. | .begin .. => s.running
  | .reply k _ _ => s.running.eraseIdx k

/-- The calls know of each other only what they read from the database. -/
def interleave (pg : Postgres) (registry : WorkflowDefinitionRegistry) (values : InputValues V)
    (x : Next V) (s : Server) : Server :=
  let t := act pg registry values x.action { world := s.world, suspended := x.resumed s }
  { world := t.world, running := x.waiting s ++ t.suspended.toList }

/-- One thing happens, with ids never drawn before. -/
structure Interleaved (pg : Postgres) (registry : WorkflowDefinitionRegistry)
    (values : InputValues V) (s : Server) (x : Next V) (s' : Server) : Prop where
  result : s' = interleave pg registry values x s
  fresh : FreshIds x.action.tick.uuid4 s.world.rows

/-- The call's node has been settled by a command that logged an event, and its own event would
be new to the log it knows. -/
structure Overtaken (v : WorkflowVersion) (rows : WorkflowRows) (call : Suspended)
    (outcome : Option WorkflowNodeExecutionOutcome) : Prop where
  node : ∀ x ∈ rows.nodes, x.nodeId = call.nodeId → x.status ≠ "running"
  events : call.run.events.length < rows.events.length
  fresh : ¬call.run.hasTransition
    (call.commandId ++ (outcomeCommand v call.nodeId outcome).suffix call.nodeId)

/-- A call resumes while its run is the stored one, or when its node has been settled. -/
def Orderly (pg : Postgres) (v : WorkflowVersion) (s : Server) : Next V → Prop
  | .call .. | .begin .. => True
  | .reply k outcome tick => ∀ call, s.running[k]? = some call →
    Current pg v s.world.rows call outcome tick ∨ Overtaken v s.world.rows call outcome

end

/-! ## Outcomes -/

/-- The command reports on the work of the node. -/
def WorkflowCommand.ReportsOn (nodeId : String) : WorkflowCommand → Prop
  | .succeedNode j _ _ _ | .acceptNode j _ | .failNode j _ _ => j = nodeId
  | _ => False

theorem reportsOn_outcomeCommand : (outcomeCommand v i outcome).ReportsOn i := by
  unfold outcomeCommand
  split
  · rfl
  · split
    · split_ifs <;> rfl
    · rfl
    · rfl

/-- A report takes a running node out of its status, and touches no other node. -/
theorem settles_of_report (he : Effect v call run c run') (hc : c.ReportsOn i)
    (hn : run.node? i = some n) (hr : n.status = .running) :
    (∃ n', run'.node? i = some n' ∧ n'.status ≠ .running) ∧
      ∀ j, j ≠ i → run'.node? j = run.node? j := by
  have hput : ∀ {m n' : WorkflowNodeRun}, run.node? i = some m → n'.nodeId = m.nodeId →
      n'.status ≠ .running →
      (∃ n'', (run.put i n').node? i = some n'' ∧ n''.status ≠ .running) ∧
        ∀ j, j ≠ i → (run.put i n').node? j = run.node? j := fun hm hid hs => by
    have hid' := hid.trans (nodeId_of_node? hm)
    exact ⟨⟨_, node?_put_self hm hid', hs⟩, fun j hj => by rw [node?_put hid' hm, if_neg hj]⟩
  cases he with
  | start | reject | skip | cancelAgain | cancel | confirm => exact hc.elim
  | acceptLogged _ hm hs | succeedLogged hm hs | succeedUnlogged hm hs =>
    cases hc
    obtain rfl := Option.some.inj (hn.symm.trans hm)
    rw [hs] at hr
    cases hr
  | accept _ hm hm' =>
    cases hc
    simp only [touched_node?, record_node?, recordNode_node?, withStatus_node?]
    obtain ⟨-, -, rfl⟩ | ⟨hs, -, -⟩ := hm'
    · exact hput hm rfl (by simp [WorkflowNodeRun.acceptedWith])
    · obtain rfl := Option.some.inj (hn.symm.trans hm)
      rw [hs] at hr
      cases hr
  | succeed hm =>
    cases hc
    simp only [refreshed_node?, recordNode_node?]
    exact hput hm rfl (by simp [WorkflowNodeRun.succeededWith])
  | retry hm _ hretry =>
    cases hc
    simp only [touched_node?, recordNode_node?]
    exact hput hm rfl (by simp [WorkflowNodeRun.failedWith, hretry])
  | fail hm _ hretry =>
    cases hc
    simp only [touched_node?, failedWith_node?, recordNode_node?]
    exact hput hm rfl (by simp [WorkflowNodeRun.failedWith, hretry])

theorem nodeId_of_moves (hc : c.ReportsOn i) (h : run.Moves v c n) : n.nodeId = i := by
  cases c with
  | succeedNode | acceptNode | failNode => exact h.1.symm.trans hc
  | _ => exact hc.elim

/-- The report of an outcome under a new transition id extends the log. -/
theorem logs_of_report (hv : Instantiates v run.nodes) (hs : Step v run r run')
    (hc : r.command.ReportsOn i) (hn : run.node? i = some n) (hr : n.status = .running)
    (hfresh : ¬run.hasTransition (r.call.commandId ++ r.command.suffix i)) :
    run.events.length < run'.events.length := by
  obtain ⟨⟨n', hn', hne⟩, -⟩ := settles_of_report (effect_of_execute hv hs) hc hn hr
  have hclear : run.Clear v r := by
    intro m _ hmoves
    rwa [nodeId_of_moves hc hmoves]
  have hown := own_of_step hv hs hclear hn hn' (hr ▸ hne)
  obtain ⟨new, hnew, -⟩ := log_of_writes (writes_of_execute hs)
  unfold own at hown
  rw [hnew, List.countP_append] at hown
  have hpos : new ≠ [] := by
    rintro rfl
    rw [List.countP_nil] at hown
    omega
  rw [hnew, List.length_append]
  exact Nat.lt_add_of_pos_right (List.length_pos_iff.2 hpos)

/-! ## A stale save -/

/-- **A save over a longer log is refused**, when it has an event to add. -/
theorem stale_save {receipt : Option WorkflowCommandReceipt} (h : Holds pg v rows run)
    (hst : run₁.Storable) (hs : Step v run₁ r run') (hlen : run₁.events.length < run'.events.length)
    (hstale : run₁.events.length < rows.events.length) (hfresh : FreshIds r.call.uuid4 rows) :
    save pg rows run' receipt ≠ .ok rows' := by
  intro hsave
  obtain ⟨hacc, -⟩ := commit_ok.1 hsave
  have hw := writes_of_execute hs
  obtain ⟨new, hnew, hids⟩ := log_of_writes hw
  have hnumbered := (storable_of_writes hst hw).numbered
  cases new with
  | nil =>
    rw [hnew, List.append_nil] at hlen
    exact absurd hlen (Nat.lt_irrefl _)
  | cons e new =>
    have he : e ∈ run'.events := hnew ▸ List.mem_append_right _ List.mem_cons_self
    -- The first event added gets a number the stored log has already given out.
    have hseq : e.sequence = run₁.events.length + 1 := by
      rw [hnew, List.map_append, List.map_cons, List.length_append, ← List.range'_append_1,
        hst.numbered, List.length_cons, List.range'_succ] at hnumbered
      rw [(List.cons.inj (List.append_cancel_left hnumbered)).1, Nat.add_comm]
    have htaken : e.sequence ∈ rows.events.map WorkflowEventRecord.sequence := by
      have hperm := h.stores.events.map WorkflowEventRecord.sequence
      rw [List.map_map] at hperm
      have hlen' := h.stores.events.length_eq
      rw [List.length_map] at hlen'
      rw [hperm.mem_iff]
      show e.sequence ∈ run.events.map WorkflowEvent.sequence
      rw [h.storable.numbered, List.mem_range'_1]
      omega
    have hunknown : e.id ∉ rows.events.map WorkflowEventRecord.id := by
      rw [List.map_cons, List.length_cons, List.range'_succ, List.map_cons] at hids
      rw [(List.cons.inj hids).1]
      exact hfresh.2 _
    have hnd := hacc.sequences
    rw [List.map_append, List.nodup_append] at hnd
    refine hnd.2.2 _ htaken _ (List.mem_map_of_mem (List.mem_map_of_mem (List.mem_filter.2
      ⟨he, decide_eq_true hunknown⟩))) rfl

/-- A call that was overtaken leaves the world as it is. -/
theorem resume_overtaken {s : Suspended} (h : Underway pg v s) (hrows : Holds pg v w.rows run)
    (hover : Overtaken v w.rows s outcome) (hfresh : FreshIds tick.uuid4 w.rows) :
    leave (executeResume pg s outcome tick) w = w := by
  unfold leave
  cases hresume : executeResume pg s outcome tick w with
  | error e w' => exact atomic_executeResume _ _ _ hresume
  | ok view w' =>
    obtain ⟨run', rows', hrun, hsave, -, -⟩ := saved_ok.1 hresume
    rw [h.version] at hrun
    obtain ⟨_, hheld⟩ := h.held
    obtain ⟨n, hn, hr, -⟩ := h.node
    have hstep := step_of_recordOutcome hrun
    have hlen := logs_of_report hheld.instantiates hstep reportsOn_outcomeCommand hn hr hover.fresh
    exact absurd hsave (stale_save hrows hheld.storable hstep hlen hover.events hfresh)

/-! ## Cancelled runs -/

/-- The request to cancel a run is made once, and nothing can be started or cancelled after it. -/
def WorkflowRun.Halted (run : WorkflowRun) : Prop :=
  run.cancelRequestedAt ≠ none → run.status.Shut ∧ ∀ n ∈ run.nodes, ¬n.status.Cancellable

theorem NodeMove.not_cancellable {ready : String → Prop} {now : DateTime}
    (h : NodeMove ready now n n') (hn : ¬n.status.Cancellable) : ¬n'.status.Cancellable := by
  cases h with
  | stay => exact hn
  | start _ hq | reject hq | skip hq => exact absurd (Or.inl hq) hn
  | accept hr => exact absurd (Or.inr (Or.inl hr)) hn
  | succeed hact | fail hact => exact absurd (Or.inr hact) hn
  | cancel hc => exact absurd hc hn
  | confirm =>
    show ¬WorkflowNodeStatus.cancelled.Cancellable
    decide

theorem cancellable_none_of_effect (hv : Instantiates v run.nodes) (he : Effect v call run c run')
    (h : ∀ n ∈ run.nodes, ¬n.status.Cancellable) : ∀ n ∈ run'.nodes, ¬n.status.Cancellable := by
  intro n' hn'
  have hv' := instantiates_of_effect hv he
  have hself := lookup_of_mem hv'.nodup hn'
  obtain ⟨n, hn⟩ := node?_of_mem hv (hv'.mem_nodeIds.1 (List.mem_map_of_mem hn'))
  obtain ⟨m, hm, hmove⟩ := nodeMove_of_effect he hn
  obtain rfl := Option.some.inj (hm.symm.trans hself)
  exact hmove.not_cancellable (h n (mem_of_node? hn))

section Fields

variable {t : String} {ids : List String}

@[simp] theorem begun_cancelRequestedAt :
    (run.begun call).cancelRequestedAt = run.cancelRequestedAt := by
  unfold begun
  split_ifs <;> rfl

@[simp] theorem refreshed_cancelRequestedAt :
    (run.refreshed call).cancelRequestedAt = run.cancelRequestedAt := by
  unfold refreshed
  split_ifs <;> rfl

@[simp] theorem closed_cancelRequestedAt :
    (run.closed call t).cancelRequestedAt = run.cancelRequestedAt := by
  unfold closed
  split_ifs <;> rfl

@[simp] theorem cancelSettled_cancelRequestedAt :
    (run.cancelSettled call).cancelRequestedAt = run.cancelRequestedAt := by
  unfold cancelSettled
  split_ifs
  · exact closed_cancelRequestedAt
  · rfl

end Fields

/-- Only a cancellation of an open run writes when the run was cancelled. -/
theorem cancelRequestedAt_of_effect (he : Effect v call run c run') :
    run'.cancelRequestedAt = run.cancelRequestedAt ∨ c = .requestCancel ∧ ¬run.status.Shut := by
  cases he with
  | acceptLogged | succeedLogged | cancelAgain => exact Or.inl rfl
  | cancel hopen => exact Or.inr ⟨rfl, hopen⟩
  | start =>
    refine Or.inl ?_
    show (WorkflowRun.begun _ _).cancelRequestedAt = _
    exact begun_cancelRequestedAt
  | accept | reject | retry | fail => exact Or.inl rfl
  | succeed | succeedUnlogged | skip => exact Or.inl refreshed_cancelRequestedAt
  | confirm =>
    refine Or.inl ?_
    show (WorkflowRun.cancelSettled _ _).cancelRequestedAt = _
    exact cancelSettled_cancelRequestedAt

theorem shut_refreshed (h : run.status.Shut) (hnone : ∀ n ∈ run.nodes, ¬n.status.Cancellable) :
    (run.refreshed call).status.Shut := by
  unfold refreshed
  split_ifs with _ hacc hst
  · exact Or.inr (Or.inl rfl)
  · obtain ⟨n, hn, ha⟩ := hacc
    exact absurd (Or.inr (Or.inr ha)) (hnone n hn)
  · rw [hst] at h
    exact absurd h (by decide)
  · exact h

/-- A shut run none of whose nodes can be cancelled stays shut. -/
theorem shut_of_effect (hv : Instantiates v run.nodes) (he : Effect v call run c run')
    (h : run.status.Shut) (hnone : ∀ n ∈ run.nodes, ¬n.status.Cancellable) :
    run'.status.Shut := by
  have hnone' := cancellable_none_of_effect hv he hnone
  cases he with
  | acceptLogged | succeedLogged | cancelAgain => exact h
  | start hopen | accept hopen | reject hopen | cancel hopen => exact absurd h hopen
  | succeed hn hact | retry hn hact | fail hn hact =>
    exact absurd (Or.inr hact) (hnone _ (mem_of_node? hn))
  | succeedUnlogged => exact shut_refreshed h hnone
  | skip =>
    refine shut_refreshed (show (recordNode _ _ _ _ _ _).status.Shut from h) ?_
    simpa using hnone'
  | confirm =>
    show (WorkflowRun.cancelSettled _ _).status.Shut
    unfold cancelSettled closed
    split_ifs
    · exact Or.inr (Or.inr (Or.inr rfl))
    · exact h
    · exact h

theorem halted_of_created (h : Created v run) : run.Halted := by
  obtain ⟨owner, key, input, now, id, nodeIdAt, uuid4, h⟩ := h
  simp only [create, except_bind_ok, except_pure_ok] at h
  obtain ⟨_, -, _, -, _, -, _, -, _, -, _, -, rfl⟩ := h
  exact fun hc => absurd rfl hc

/-- A cancellation leaves nothing to cancel. -/
theorem halted_of_cancel (hv : Instantiates v run.nodes)
    (he : Effect v call run .requestCancel run') (hopen : ¬run.status.Shut) :
    run'.status.Shut ∧ ∀ n ∈ run'.nodes, ¬n.status.Cancellable := by
  have hv' := instantiates_of_effect hv he
  cases he with
  | cancelAgain hs => exact absurd (Or.inl hs) hopen
  | cancel =>
    constructor
    · show (WorkflowRun.closed _ _ _).status.Shut
      unfold closed
      split_ifs
      · exact Or.inr (Or.inr (Or.inr rfl))
      · exact Or.inl cancelEach_status
    · intro n' hn'
      have hself := lookup_of_mem hv'.nodup hn'
      obtain ⟨n, hn⟩ := node?_of_mem hv (hv'.mem_nodeIds.1 (List.mem_map_of_mem hn'))
      have hmem : n'.nodeId ∈ run.nodes.map WorkflowNodeRun.nodeId :=
        hv.mem_nodeIds.2 (hv'.mem_nodeIds.1 (List.mem_map_of_mem hn'))
      change node? _ _ = _ at hself
      simp only [touched_node?, closed_node?] at hself
      rw [cancelEach_node?, if_pos hmem, cancelStarted_node?, hn] at hself
      obtain rfl := Option.some.inj hself
      exact cancelledBy_done

/-- **A cancellation is kept.** -/
theorem halted_of_effect (hv : Instantiates v run.nodes) (he : Effect v call run c run')
    (h : run.Halted) : run'.Halted ∧
      ∀ t, run.cancelRequestedAt = some t → run'.cancelRequestedAt = some t := by
  obtain hsame | ⟨rfl, hopen⟩ := cancelRequestedAt_of_effect he
  · refine ⟨fun hc => ?_, fun t ht => hsame.trans ht⟩
    obtain ⟨hshut, hnone⟩ := h (hsame ▸ hc)
    exact ⟨shut_of_effect hv he hshut hnone, cancellable_none_of_effect hv he hnone⟩
  · refine ⟨fun _ => halted_of_cancel hv he hopen, fun t ht => ?_⟩
    exact absurd (h (by rw [ht]; exact Option.some_ne_none t)).1 hopen

/-! ## Every step -/

/-- The rows store a run, and every call whose executor is running has saved its node. -/
structure Shared (pg : Postgres) (v : WorkflowVersion) (s : Server) (run : WorkflowRun) :
    Prop where
  holds : Holds pg v s.world.rows run
  halted : run.Halted
  waiting : ∀ call ∈ s.running, Underway pg v call ∧ call.run.Halted

theorem halted_reloaded (h : run.Halted) : (run.reloaded pg).Halted := fun hc =>
  ⟨(h hc).1, fun n hn => (h hc).2 n (mem_orderBy.1 hn)⟩

theorem Saves.halted (h : Saves pg v w r run run' w') (hh : run.Halted) : run'.Halted :=
  (halted_of_effect h.before.instantiates
    (effect_of_execute h.before.instantiates h.step) hh).1

theorem status_begun_open (h : ¬run.status.Shut) : ¬(run.begun call).status.Shut := by
  unfold begun
  split_ifs
  · show ¬WorkflowRunStatus.running.Shut
    decide
  · exact h

/-- The start of a node puts its call under way. -/
theorem underway_of_start {commandId : String}
    (h : Saves pg v w ⟨.startNode i, tick.call commandId⟩ run run' w') :
    Underway pg v ⟨run', v, i, commandId⟩ := by
  have he := effect_of_execute h.before.instantiates h.step
  have hafter := h.after
  cases he with
  | @start _ n _ hopen _ _ hn =>
    refine { version := rfl, held := ⟨_, hafter⟩, started := status_begun_open hopen, node := ?_,
             logged := hasTransition_record.2 (Or.inr rfl) }
    refine ⟨n.started tick.now, ?_, rfl, Nat.succ_pos _⟩
    simp only [touched_node?, recordNode_node?, begun_node?]
    exact node?_put_self hn (nodeId_of_node? hn :)

section

variable {V : Type} {values : InputValues V} {x : Next V} {s s' : Server}

/-- A call that resumes records its outcome on the stored run, or changes nothing. -/
theorem Shared.reply {k : Nat} {call : Suspended} (h : Shared pg v s run)
    (ht : Interleaved pg registry values s (.reply k outcome tick) s')
    (hk : s.running[k]? = some call) (hx : Orderly pg v s (.reply k outcome tick : Next V)) :
    ∃ run', Shared pg v s' run' ∧
      (s'.world = s.world ∧ run' = run ∧ Overtaken v s.world.rows call outcome ∨
        Saves pg v s.world ⟨outcomeCommand v call.nodeId outcome, tick.call call.commandId⟩
          call.run run' s'.world) := by
  obtain ⟨hunder, hhalted⟩ := h.waiting call (List.mem_of_getElem? hk)
  have hwait : ∀ call ∈ s.running.eraseIdx k, Underway pg v call ∧ call.run.Halted :=
    fun call hcall => h.waiting call (List.mem_of_mem_eraseIdx hcall)
  have hfresh : FreshIds tick.uuid4 s.world.rows := ht.fresh
  have hnext : s' = { world := leave (executeResume pg call outcome tick) s.world,
                      running := s.running.eraseIdx k } := by
    rw [ht.result]
    simp [interleave, act, Next.action, Next.resumed, Next.waiting, hk]
  rw [hnext]
  obtain hcur | hover := hx call hk
  · obtain ⟨view, w, hresume⟩ := resume_ok hunder h.holds.accepted hcur hfresh
    obtain ⟨run', hsaves⟩ := saves_of_executeResume
      (hunder.holds h.holds.accepted hcur.stores) hunder.version hfresh hresume
    unfold leave
    rw [hresume]
    exact ⟨run', ⟨hsaves.after, hsaves.halted hhalted, hwait⟩, Or.inr hsaves⟩
  · rw [resume_overtaken hunder h.holds hover hfresh]
    exact ⟨run, ⟨h.holds, h.halted, hwait⟩, Or.inl ⟨rfl, rfl, hover⟩⟩

/-- **A step is at most one transaction on the stored run.** -/
theorem Shared.step (hreg : registry.get v.workflowCode.1 v.version.1 = some v)
    (h : Shared pg v s run) (ht : Interleaved pg registry values s x s') (hx : Orderly pg v s x) :
    ∃ run', Shared pg v s' run' ∧ (s'.world = s.world ∧ run' = run ∨
      ∃ r run₀, run₀.Halted ∧ Saves pg v s.world r run₀ run' s'.world) := by
  cases x with
  | call c principal commandId tick =>
    obtain ⟨rfl, hfresh⟩ := ht
    unfold interleave act leave
    dsimp only [Next.action, Next.resumed, Next.waiting, Option.toList_none]
    rw [List.append_nil]
    cases hcall : c.handle pg registry principal commandId tick s.world with
    | error e w =>
      obtain rfl := atomic_handle _ _ _ hcall
      exact ⟨run, h, Or.inl ⟨rfl, rfl⟩⟩
    | ok view w =>
      obtain rfl | ⟨-, -, run', hsaves⟩ := saves_of_handle hreg h.holds hfresh hcall
      · exact ⟨run, h, Or.inl ⟨rfl, rfl⟩⟩
      · exact ⟨run', ⟨hsaves.after, hsaves.halted (halted_reloaded h.halted), h.waiting⟩,
          Or.inr ⟨_, _, (halted_reloaded h.halted), hsaves⟩⟩
  | begin principal nodeId inputs commandId tick =>
    obtain ⟨rfl, hfresh⟩ := ht
    unfold interleave act
    dsimp only [Next.action, Next.resumed, Next.waiting]
    cases hcall : WorkflowApplication.executeBegin pg registry values principal nodeId inputs
      commandId tick s.world with
    | error e w =>
      obtain rfl := atomic_executeBegin _ _ _ hcall
      exact ⟨run, by simpa using h, Or.inl ⟨rfl, rfl⟩⟩
    | ok y w =>
      obtain ⟨⟨view, rfl⟩, rfl⟩ | ⟨-, -, ⟨⟨view, rfl⟩, -, run', hsaves⟩ |
        ⟨-, run', rfl, hsaves⟩⟩ := executeBegin_ok hreg h.holds hfresh hcall
      · exact ⟨run, by simpa using h, Or.inl ⟨rfl, rfl⟩⟩
      · exact ⟨run', ⟨hsaves.after, hsaves.halted (halted_reloaded h.halted), by simpa using h.waiting⟩,
          Or.inr ⟨_, _, (halted_reloaded h.halted), hsaves⟩⟩
      · refine ⟨run', ⟨hsaves.after, hsaves.halted (halted_reloaded h.halted), fun call hcall => ?_⟩,
          Or.inr ⟨_, _, (halted_reloaded h.halted), hsaves⟩⟩
        rcases List.mem_append.1 hcall with hcall | hcall
        · exact h.waiting call hcall
        · cases List.mem_singleton.1 hcall
          exact ⟨underway_of_start hsaves, hsaves.halted (halted_reloaded h.halted)⟩
  | reply k outcome tick =>
    cases hk : s.running[k]? with
    | none =>
      have hsame : s' = { world := s.world, running := s.running.eraseIdx k } := by
        rw [ht.result]
        simp [interleave, act, Next.action, Next.resumed, Next.waiting, hk]
      rw [hsame]
      exact ⟨run, ⟨h.holds, h.halted, fun call hcall =>
        h.waiting call (List.mem_of_mem_eraseIdx hcall)⟩, Or.inl ⟨rfl, rfl⟩⟩
    | some call =>
      obtain ⟨run', hshared, ⟨hw, rfl, -⟩ | hsaves⟩ := h.reply ht hk hx
      · exact ⟨run', hshared, Or.inl ⟨hw, rfl⟩⟩
      · exact ⟨run', hshared, Or.inr ⟨_, _, (h.waiting call (List.mem_of_getElem? hk)).2, hsaves⟩⟩

/-- The log and the cancellation recorded before are there afterwards. -/
structure Kept (rows rows' : WorkflowRows) : Prop where
  events : rows.events <+: rows'.events
  cancellation : ∀ t, rows.run.cancelRequestedAt = some t → rows'.run.cancelRequestedAt = some t

theorem Kept.refl (rows : WorkflowRows) : Kept rows rows := ⟨List.prefix_rfl, fun _ h => h⟩

theorem Kept.trans {rows'' : WorkflowRows} (h : Kept rows rows') (h' : Kept rows' rows'') :
    Kept rows rows'' :=
  ⟨h.events.trans h'.events, fun t ht => h'.cancellation t (h.cancellation t ht)⟩

theorem Saves.kept (h : Saves pg v w r run run' w') (hh : run.Halted) : Kept w.rows w'.rows := by
  refine ⟨h.log, fun t ht => ?_⟩
  rw [h.before.stores.record] at ht
  rw [h.after.stores.record]
  obtain ⟨d, hd, rfl⟩ := Option.map_eq_some_iff.1 ht
  have hsame := (halted_of_effect h.before.instantiates
    (effect_of_execute h.before.instantiates h.step) hh).2 d hd
  exact congrArg (Option.map DateTime.instant) hsame

theorem Shared.kept (hreg : registry.get v.workflowCode.1 v.version.1 = some v)
    (h : Shared pg v s run)
    (ht : Guarded (Interleaved pg registry values) (Orderly pg v) s x s') :
    (∃ run', Shared pg v s' run') ∧ Kept s.world.rows s'.world.rows := by
  obtain ⟨run', hshared, ⟨hw, -⟩ | ⟨r, run₀, hh, hsaves⟩⟩ := h.step hreg ht.1 ht.2
  · exact ⟨⟨run', hshared⟩, hw ▸ .refl _⟩
  · exact ⟨⟨run', hshared⟩, hsaves.kept hh⟩

/-- A report leaves every other node as it is stored, and settles its own. -/
theorem Saves.report (h : Saves pg v w r run run' w') (hc : r.command.ReportsOn i)
    (hn : run.node? i = some n) (hr : n.status = .running) :
    (∀ y ∈ w.rows.nodes, y.nodeId ≠ i ∨ y.status ≠ "running" → y ∈ w'.rows.nodes) ∧
      ∀ y ∈ w'.rows.nodes, y.nodeId = i → y.status ≠ "running" := by
  have hv := h.before.instantiates
  obtain ⟨⟨n', hn', hne⟩, hothers⟩ := settles_of_report (effect_of_execute hv h.step) hc hn hr
  have hid : run'.id = run.id := congrArg Prod.fst
    (evolves_of_writes hv.nodup (writes_of_execute h.step)).constant
  constructor
  · intro y hy hother
    rw [h.before.stores.nodes.mem_iff] at hy
    obtain ⟨m, hm, rfl⟩ := List.mem_map.1 hy
    have hself := lookup_of_mem hv.nodup hm
    have hmi : m.nodeId ≠ i := by
      rintro rfl
      obtain rfl := Option.some.inj (hself.symm.trans hn)
      exact hother.elim (fun h => h rfl) fun h => h (congrArg WorkflowNodeStatus.value hr)
    rw [h.after.stores.nodes.mem_iff, hid]
    exact List.mem_map_of_mem (mem_of_node? ((hothers _ hmi).trans hself))
  · intro y hy hyi hs
    rw [h.after.stores.nodes.mem_iff] at hy
    obtain ⟨m, hm, rfl⟩ := List.mem_map.1 hy
    have hself := lookup_of_mem h.after.instantiates.nodup hm
    obtain rfl : m.nodeId = i := hyi
    obtain rfl := Option.some.inj (hself.symm.trans hn')
    exact hne (nodeStatus_value_inj.1 hs)

/-- **No update is lost** while every call resumes orderly: what was logged or cancelled stays so,
every step is at most one command on the run that is stored, and a call that resumes settles its
node without touching another. -/
theorem updates_kept_of_interleaving {s₀ : Server} {xs : List (Next V)}
    (hreg : registry.get v.workflowCode.1 v.version.1 = some v)
    (h₀ : Opened pg v { world := s₀.world }) (hidle : s₀.running = [])
    (hs : Steps (Guarded (Interleaved pg registry values) (Orderly pg v)) s₀ xs s) :
    (∀ {xs' s'}, Steps (Guarded (Interleaved pg registry values) (Orderly pg v)) s xs' s' →
      Kept s.world.rows s'.world.rows) ∧
    ∀ {x s'}, Guarded (Interleaved pg registry values) (Orderly pg v) s x s' →
      (∃ run run', Stores pg s.world.rows run ∧ Stores pg s'.world.rows run' ∧
        (run' = run ∨ ∃ r, Step v run r run')) ∧
      ∀ {k outcome tick call}, x = .reply k outcome tick → s.running[k]? = some call →
        (∀ y ∈ s.world.rows.nodes, y.nodeId ≠ call.nodeId ∨ y.status ≠ "running" →
          y ∈ s'.world.rows.nodes) ∧
        ∀ y ∈ s'.world.rows.nodes, y.nodeId = call.nodeId → y.status ≠ "running" := by
  obtain ⟨run₀, hcreated, hserving⟩ := h₀.serving
  have hshared₀ : Shared pg v s₀ run₀ :=
    { holds := hserving.holds, halted := halted_of_created hcreated,
      waiting := fun call hcall => by rw [hidle] at hcall; exact nomatch hcall }
  obtain ⟨run, hshared⟩ := hs.invariant (P := fun s => ∃ run, Shared pg v s run)
    (fun ⟨_, h⟩ ht => (h.kept hreg ht).1) ⟨run₀, hshared₀⟩
  refine ⟨fun hs' => ?_, fun {x s'} ht => ⟨?_, fun {k outcome tick call} hx hk => ?_⟩⟩
  · exact hs'.related (P := fun s => ∃ run, Shared pg v s run)
      (R := fun s s' => Kept s.world.rows s'.world.rows) (fun ⟨_, h⟩ ht => (h.kept hreg ht).1)
      (fun s => .refl _) (fun h h' => h.trans h') (fun ⟨_, h⟩ ht => (h.kept hreg ht).2)
      ⟨run, hshared⟩
  · obtain ⟨run', hshared', ⟨hw, rfl⟩ | ⟨r, run₁, -, hsaves⟩⟩ := hshared.step hreg ht.1 ht.2
    · exact ⟨run', run', hshared.holds.stores, hshared'.holds.stores, Or.inl rfl⟩
    · exact ⟨run₁, run', hsaves.before.stores, hsaves.after.stores, Or.inr ⟨r, hsaves.step⟩⟩
  · subst hx
    obtain ⟨run', -, ⟨hw, -, hover⟩ | hsaves⟩ := hshared.reply ht.1 hk ht.2
    · rw [hw]
      exact ⟨fun y hy _ => hy, hover.node⟩
    · obtain ⟨n, hn, hr, -⟩ := (hshared.waiting call (List.mem_of_getElem? hk)).1.node
      exact hsaves.report reportsOn_outcomeCommand hn hr

end

/-! ## An outcome that is lost -/

/-- Let things happen from tick `t` on. -/
def schedule (v : WorkflowVersion) : Nat → List (Tick → Next String) → Server → Option Server
  | _, [], s => some s
  | t, f :: fs, s =>
    if ∀ id ∈ s.world.rows.events.map WorkflowEventRecord.id, id < 100 * t then
      schedule v (t + 1) fs (interleave server [v] strings (f (tickAt t)) s)
    else none

def scheduled : Nat → List (Tick → Next String) → List (Next String)
  | _, [] => []
  | t, f :: fs => f (tickAt t) :: scheduled (t + 1) fs

theorem steps_of_schedule {t : Nat} {fs : List (Tick → Next String)} {s s' : Server}
    (htick : ∀ f ∈ fs, ∀ tick, (f tick).action.tick = tick) (h : schedule v t fs s = some s') :
    Steps (Interleaved server [v] strings) s (scheduled t fs) s' := by
  induction fs generalizing t s with
  | nil =>
    cases h
    exact .nil _
  | cons f fs ih =>
    unfold schedule at h
    split_ifs at h with hguard
    refine .cons ⟨rfl, ?_⟩ (ih (fun f hf => htick f (List.mem_cons_of_mem _ hf)) h)
    rw [htick f List.mem_cons_self]
    exact freshIds_tickAt hguard

/-- Node `b` is executed while the executor of node `a` is running. -/
def race : List (Tick → Next String) :=
  [.begin owner "a" (some []) "x", .begin owner "b" (some []) "y", .reply 1 (some done),
    .reply 0 (some done)]

def parallelSystem : System := (opened parallel).get (by decide +kernel)

theorem parallelSystem_opened : Opened server parallel parallelSystem :=
  opened_spec (Option.some_get _).symm

def parallelOpened : Server := { world := parallelSystem.world }

def raced : Server := (schedule parallel 1 race parallelOpened).get (by decide +kernel)

theorem outcome_lost : Opened server parallel { world := parallelOpened.world } ∧
    Steps (Interleaved server [parallel] strings) parallelOpened (scheduled 1 race) raced ∧
    parallelOpened.running.length = 0 ∧ raced.running.length = 0 ∧
    (∃ y ∈ raced.world.rows.nodes, y.nodeId = "a" ∧ y.status = "running") ∧
    ∀ e ∈ raced.world.rows.events, e.eventType = "NODE_SUCCEEDED" →
      e.eventMetadata.nodeId ≠ some "a" := by
  refine ⟨?_, steps_of_schedule ?_ (Option.some_get _).symm, by decide +kernel⟩
  · exact ⟨parallelSystem_opened.created, parallelSystem_opened.executions, rfl⟩
  · simp only [race, List.mem_cons, List.not_mem_nil, or_false, forall_eq_or_imp, forall_eq]
    exact ⟨fun _ => rfl, fun _ => rfl, fun _ => rfl, fun _ => rfl⟩

/-! ## An outcome that comes too late -/

instance {call : Suspended} : Decidable (Overtaken v rows call outcome) :=
  decidable_of_iff ((∀ x ∈ rows.nodes, x.nodeId = call.nodeId → x.status ≠ "running") ∧
    call.run.events.length < rows.events.length ∧ ¬call.run.hasTransition
      (call.commandId ++ (outcomeCommand v call.nodeId outcome).suffix call.nodeId))
    ⟨fun ⟨a, b, c⟩ => ⟨a, b, c⟩, fun ⟨a, b, c⟩ => ⟨a, b, c⟩⟩

/-- The run is cancelled while the executor of node `a` is running. -/
def cancelled : List (Tick → Next String) :=
  [.begin owner "a" (some []) "x", .call .cancel owner "z"]

def cancelledMeanwhile : Server :=
  (schedule parallel 1 cancelled parallelOpened).get (by decide +kernel)

def answered : Server :=
  (schedule parallel 3 [.reply 0 (some done)] cancelledMeanwhile).get (by decide +kernel)

theorem updates_kept_of_interleaving_late :
    cancelledMeanwhile.world.rows.run.cancelRequestedAt = some 2 ∧
    answered.world.rows.run.cancelRequestedAt = some 2 ∧
    ∀ y ∈ answered.world.rows.nodes, y.nodeId = "a" → y.status ≠ "running" := by
  have hfacts : cancelledMeanwhile.world.rows.run.cancelRequestedAt = some 2 ∧
      ((cancelledMeanwhile.running[0]?).map Suspended.nodeId = some "a") ∧
      ∀ call ∈ cancelledMeanwhile.running,
        Overtaken parallel cancelledMeanwhile.world.rows call (some done) := by
    decide +kernel
  obtain ⟨hcancel, hid, hover⟩ := hfacts
  have hopened : Opened server parallel { world := parallelOpened.world } :=
    ⟨parallelSystem_opened.created, parallelSystem_opened.executions, rfl⟩
  have hmeanwhile : Steps (Guarded (Interleaved server [parallel] strings)
      (Orderly server parallel)) parallelOpened (scheduled 1 cancelled) cancelledMeanwhile := by
    have hsteps : Steps (Interleaved server [parallel] strings) parallelOpened
        (scheduled 1 cancelled) cancelledMeanwhile := by
      refine steps_of_schedule ?_ (Option.some_get _).symm
      simp only [cancelled, List.mem_cons, List.not_mem_nil, or_false, forall_eq_or_imp, forall_eq]
      exact ⟨fun _ => rfl, fun _ => rfl⟩
    have hcalls : ∀ x ∈ scheduled 1 cancelled, ∀ s, Orderly server parallel s x := by
      simp only [cancelled, scheduled, List.mem_cons, List.not_mem_nil, or_false,
        forall_eq_or_imp, forall_eq]
      exact ⟨fun _ => trivial, fun _ => trivial⟩
    exact (hsteps.guarded hcalls).mono fun h => ⟨h.1, h.2 _⟩
  have hlate : Steps (Interleaved server [parallel] strings) cancelledMeanwhile
      (scheduled 3 [.reply 0 (some done)]) answered := by
    refine steps_of_schedule ?_ (Option.some_get _).symm
    simp only [List.mem_singleton, forall_eq]
    exact fun _ => rfl
  have hstep := hlate.of_single
  obtain ⟨call, hk, hcall⟩ := Option.map_eq_some_iff.1 hid
  have hordered : Orderly server parallel cancelledMeanwhile
      (.reply 0 (some done) (tickAt 3) : Next String) := fun call hcall =>
    Or.inr (hover call (List.mem_of_getElem? hcall))
  have hall := updates_kept_of_interleaving registry_single hopened rfl hmeanwhile
  have hkept := hall.1 (.single ⟨hstep, hordered⟩)
  have hsettled := (hall.2 ⟨hstep, hordered⟩).2 rfl hk
  exact ⟨hcancel, hkept.cancellation 2 hcancel, fun y hy hya => hsettled.2 y hy (hya.trans hcall.symm)⟩

end GoAgent.Workflow
