import GoAgent.Workflow.Application

/-!
# Transactions

Every call of the application is at most one transaction: one command of the domain runs on the
stored run, and what it leaves is saved. Calls that follow each other keep the run stored
(`serving_of_act`), and a call that raises leaves the rows as they were.

`Holds pg v rows run` says that the rows store the run; a run that was read back is stored by the
same rows (`Holds.reloaded`).
-/

namespace GoAgent.Workflow

open GoAgent.Foundation WorkflowRun WorkflowApplication

variable {pg : Postgres} {registry : WorkflowDefinitionRegistry} {v : WorkflowVersion}
  {rows rows' : WorkflowRows} {run run' : WorkflowRun} {r : Request} {w w' : World}
  {receipt : Option WorkflowCommandReceipt} {i nodeId : String} {n : WorkflowNodeRun}
  {call : Call} {view : WorkflowRunView}

/-! ## A run that was read back -/

theorem checkEvent_reloaded {e : WorkflowEvent} :
    checkEvent (e.reloaded pg) = .ok () ↔ checkEvent e = .ok () := by
  rw [checkEvent_ok, checkEvent_ok]
  exact and_congr_right fun _ => and_congr_right fun _ => and_congr_left fun _ =>
    checkMetadata_stored

theorem eventToRecord_reloaded {e : WorkflowEvent} :
    eventToRecord pg (e.reloaded pg) = eventToRecord pg e := by
  have hidem : pg.jsonb ∘ pg.jsonb = (pg.jsonb : References → References) :=
    funext fun _ => pg.jsonb_jsonb
  simp only [eventToRecord, WorkflowEvent.reloaded, EventMetadata.stored, Option.map_map, hidem]

theorem stores_reloaded (h : Stores pg rows run) : Stores pg rows (run.reloaded pg) where
  record := h.record
  nodes := h.nodes.trans (orderBy_perm.symm.map _)
  events := by
    have hmap : (run.reloaded pg).events.map (eventToRecord pg) =
        run.events.map (eventToRecord pg) := by
      show (run.events.map _).map _ = _
      rw [List.map_map]
      exact List.map_congr_left fun _ _ => eventToRecord_reloaded
    rw [hmap]
    exact h.events

theorem storable_reloaded (h : run.Storable) : (run.reloaded pg).Storable where
  nodes n hn := h.nodes n (mem_orderBy.1 hn)
  checked e he := by
    obtain ⟨e₀, he₀, rfl⟩ := List.mem_map.1 he
    exact checkEvent_reloaded.2 (h.checked e₀ he₀)
  owned e he := by
    obtain ⟨e₀, he₀, rfl⟩ := List.mem_map.1 he
    exact h.owned e₀ he₀
  numbered := by
    show (run.events.map _).map _ = List.range' 1 (run.events.map _).length
    rw [List.map_map, List.length_map]
    exact h.numbered
  transitions := by
    show ((run.events.map _).map _).Nodup
    rw [List.map_map]
    exact h.transitions
  created := h.created
  updated := h.updated
  cancelled := h.cancelled

theorem instantiates_reloaded (h : Instantiates v run.nodes) :
    Instantiates v (run.reloaded pg).nodes := h.perm orderBy_perm

theorem reloaded_node? (hnd : (run.nodes.map WorkflowNodeRun.nodeId).Nodup) :
    (run.reloaded pg).node? i = run.node? i := by
  have hnd' : ((run.reloaded pg).nodes.map WorkflowNodeRun.nodeId).Nodup :=
    (orderBy_perm.map _).nodup_iff.2 hnd
  ext n
  rw [node?, node?, lookup_eq_some_iff hnd', lookup_eq_some_iff hnd]
  exact and_congr_left fun _ => mem_orderBy

theorem reloaded_hasTransition {t : String} :
    (run.reloaded pg).hasTransition t ↔ run.hasTransition t := by
  show (∃ e ∈ run.events.map (WorkflowEvent.reloaded pg), e.transitionId = t) ↔ _
  simp only [List.mem_map, exists_exists_and_eq_and]
  rfl

/-! ## Saving and loading the stored run -/

/-- The rows store the run, and the run is one of the version. -/
structure Holds (pg : Postgres) (v : WorkflowVersion) (rows : WorkflowRows) (run : WorkflowRun) :
    Prop where
  stores : Stores pg rows run
  accepted : rows.Accepted
  storable : run.Storable
  instantiates : Instantiates v run.nodes
  code : run.workflowCode = v.workflowCode.1
  version : run.workflowVersion = v.version.1

/-- The ids drawn for a call are new and pairwise different. -/
def FreshIds (uuid4 : Nat → UUID) (rows : WorkflowRows) : Prop :=
  Function.Injective uuid4 ∧ ∀ k, uuid4 k ∉ rows.events.map WorkflowEventRecord.id

namespace Holds

theorem load (h : Holds pg v rows run) : loadRun pg rows = .ok (run.reloaded pg) :=
  load_of_stores h.stores h.storable h.instantiates.nodup

theorem reloaded (h : Holds pg v rows run) : Holds pg v rows (run.reloaded pg) where
  stores := stores_reloaded h.stores
  accepted := h.accepted
  storable := storable_reloaded h.storable
  instantiates := instantiates_reloaded h.instantiates
  code := h.code
  version := h.version

theorem eventIds (h : Holds pg v rows run) : (run.events.map WorkflowEvent.id).Nodup :=
  h.stores.eventPks.nodup_iff.1 h.accepted.eventPks

/-- The events of an accepted command have ids of their own. -/
theorem eventIds_step (h : Holds pg v rows run) (hs : Step v run r run')
    (hfresh : FreshIds r.call.uuid4 rows) : (run'.events.map WorkflowEvent.id).Nodup := by
  obtain ⟨new, hnew, hids⟩ := log_of_writes (writes_of_execute hs)
  rw [hnew, List.map_append, hids, List.nodup_append]
  refine ⟨h.eventIds, (List.nodup_range' ..).map hfresh.1, fun x hx y hy => ?_⟩
  obtain ⟨k, -, rfl⟩ := List.mem_map.1 hy
  rintro rfl
  exact hfresh.2 k (h.stores.eventPks.mem_iff.2 hx)

/-- **A transaction stores the run its command leaves.** -/
theorem save (h : Holds pg v rows run) (hs : Step v run r run')
    (hfresh : FreshIds r.call.uuid4 rows) (hsave : Workflow.save pg rows run' receipt = .ok rows') :
    Holds pg v rows' run' ∧ rows.events <+: rows'.events ∧
      rows'.receipts = rows.receipts ++ receipt.toList.filter fun r => r ∉ rows.receipts := by
  have hw := writes_of_execute hs
  have hev := evolves_of_writes h.instantiates.nodup hw
  obtain ⟨hstores, hacc, hlog, hreceipts⟩ :=
    stores_of_save h.stores h.accepted hev (h.eventIds_step hs hfresh) hsave
  have hconst := hev.constant
  simp only [WorkflowRun.constant, Prod.mk.injEq] at hconst
  exact ⟨{ stores := hstores, accepted := hacc, storable := storable_of_writes h.storable hw,
           instantiates := instantiates_of_effect h.instantiates
             (effect_of_execute h.instantiates hs),
           code := hconst.2.1.trans h.code, version := hconst.2.2.1.trans h.version },
    hlog, hreceipts⟩

end Holds

theorem holds_of_create (hc : Created v run) (h : createRun pg run = .ok rows) :
    Holds pg v rows run ∧ rows.receipts = [] := by
  obtain ⟨hstores, hacc, hreceipts⟩ := stores_of_create h
  have hcode : run.workflowCode = v.workflowCode.1 ∧ run.workflowVersion = v.version.1 := by
    obtain ⟨owner, key, input, now, id, nodeIdAt, uuid4, hc⟩ := hc
    simp only [create, except_bind_ok, except_pure_ok] at hc
    obtain ⟨_, -, _, -, _, -, _, -, _, -, _, -, rfl⟩ := hc
    exact ⟨rfl, rfl⟩
  exact ⟨{ stores := hstores, accepted := hacc, storable := storable_of_created hc,
           instantiates := (created_spec hc).1, code := hcode.1, version := hcode.2 }, hreceipts⟩

/-! ## Inverting a call -/

section

variable {subject commandType commandId : String} {principal : RequestPrincipal} {tick : Tick}
  {method : RunM Unit} {u : Unit}

theorem getForUpdate_ok : getForUpdate pg subject w = .ok run w' ↔
    loadRun pg w.rows = .ok run ∧ run.ownerSubject = strip subject ∧ w' = w := by
  simp only [getForUpdate, bind_ok, get_ok, lift_ok, mapError_ok, check_ok, exists_unit, pure_ok,
    exists_eq_left, exists_and_left, and_assoc]
  constructor
  · rintro ⟨a, ha, howner, rfl, rfl⟩
    exact ⟨ha, howner, rfl⟩
  · rintro ⟨hload, howner, rfl⟩
    exact ⟨run, hload, howner, rfl, rfl⟩

theorem processed_ok {b : Bool} : processed commandType commandId w = .ok b w' ↔
    b = decide (hasProcessedCommand w.rows commandType commandId) ∧ w' = w := by
  simp [processed, and_comm]

theorem perform_ok : perform method run = .ok run' ↔ method run = .ok () run' := by
  unfold perform
  cases method run <;> simp

theorem saveRun_ok : saveRun pg run receipt w = .ok u w' ↔
    ∃ rows', save pg w.rows run receipt = .ok rows' ∧ w' = { w with rows := rows' } := by
  simp [saveRun, and_assoc]

theorem saved_ok : saved pg commandType commandId run method w = .ok view w' ↔
    ∃ run' rows', method run = .ok () run' ∧
      save pg w.rows run' (some ⟨commandType, commandId⟩) = .ok rows' ∧ view = .fromRun run' ∧
      w' = { w with rows := rows' } := by
  simp only [saved, bind_ok, lift_ok, perform_ok, saveRun_ok, exists_unit, pure_ok]
  constructor
  · rintro ⟨run', _, ⟨h, rfl⟩, _, ⟨rows', hrows, rfl⟩, rfl, rfl⟩
    exact ⟨run', rows', h, hrows, rfl, rfl⟩
  · rintro ⟨run', rows', h, hrows, rfl, rfl⟩
    exact ⟨run', _, ⟨h, rfl⟩, _, ⟨rows', hrows, rfl⟩, rfl, rfl⟩

theorem registered_ok (hreg : registry.get v.workflowCode.1 v.version.1 = some v)
    (h : Holds pg v rows run) : registered registry run = .ok v := by
  unfold registered
  rw [h.code, h.version, hreg]
  rfl

/-- The principal is the run's owner. -/
def Owned (principal : RequestPrincipal) (run : WorkflowRun) : Prop :=
  match requirePrincipal principal with
  | .ok subject => run.ownerSubject = strip subject
  | .error _ => False

instance {principal : RequestPrincipal} : Decidable (Owned principal run) := by
  unfold Owned
  split <;> infer_instance

theorem owned_of_subject (h : requirePrincipal principal = .ok subject)
    (howner : run.ownerSubject = strip subject) : Owned principal run := by
  unfold Owned
  rw [h]
  exact howner

/-- A call that is no replay runs its command on the run it read. -/
theorem once_ok (hreg : registry.get v.workflowCode.1 v.version.1 = some v)
    (h : Holds pg v w.rows run) {method : WorkflowVersion → RunM Unit}
    (hcall : once pg registry commandType principal commandId method w = .ok view w') :
    w' = w ∨ ¬hasProcessedCommand w.rows commandType commandId ∧
      Owned principal (run.reloaded pg) ∧
      saved pg commandType commandId (run.reloaded pg) (method v) w = .ok view w' := by
  simp only [once, ownedRun, bind_ok, lift_ok, getForUpdate_ok, pure_ok] at hcall
  obtain ⟨_, _, ⟨subject, _, ⟨hsub, rfl⟩, run₀, _, ⟨hload, howner, rfl⟩, version, _,
    ⟨hversion, rfl⟩, rfl, rfl⟩, hcall⟩ := hcall
  obtain rfl := Except.ok.inj (hload.symm.trans h.load)
  obtain rfl := Except.ok.inj (hversion.symm.trans (registered_ok hreg h.reloaded))
  simp only [processed_ok] at hcall
  obtain ⟨b, _, ⟨rfl, rfl⟩, hcall⟩ := hcall
  split_ifs at hcall with hdone
  · exact Or.inl (pure_ok.1 hcall).2
  · exact Or.inr ⟨fun h => hdone (decide_eq_true h), owned_of_subject hsub howner, hcall⟩

end

/-! ## Calls that raise -/

section

variable {subject commandType commandId : String} {principal : RequestPrincipal} {tick : Tick}
  {method : RunM Unit}

theorem reads_getForUpdate : Reads (getForUpdate pg subject) :=
  fixes_bind fixes_get fun _ => fixes_bind fixes_lift fun _ => fixes_bind fixes_check fun _ =>
    fixes_pure

theorem reads_processed : Reads (processed commandType commandId) :=
  fixes_bind fixes_get fun _ => fixes_pure

theorem atomic_saveRun : Atomic (saveRun pg run receipt) :=
  atomic_bind fixes_get fun _ => atomic_bind fixes_lift fun _ => total_modify.atomic

theorem atomic_saved : Atomic (saved pg commandType commandId run method) :=
  atomic_bind fixes_lift fun _ => atomic_saveRun.bind fun _ => total_pure

theorem atomic_once {method : WorkflowVersion → RunM Unit} :
    Atomic (once pg registry commandType principal commandId method) := by
  refine atomic_bind (fixes_bind fixes_lift fun _ => fixes_bind reads_getForUpdate fun _ =>
    fixes_bind fixes_lift fun _ => fixes_pure) fun p => atomic_bind reads_processed fun b => ?_
  split_ifs
  · exact fixes_pure.atomic
  · exact atomic_saved

/-- A call that raises leaves the world as it was. -/
theorem atomic_handle {c : AppCommand} : Atomic (c.handle pg registry principal commandId tick) := by
  cases c with
  | completeNode | failNode | skipNode | confirmNodeCancel =>
    unfold AppCommand.handle
    exact atomic_once
  | cancel =>
    refine atomic_bind fixes_lift fun _ => atomic_bind reads_getForUpdate fun _ =>
      atomic_bind reads_processed fun b => ?_
    split_ifs
    · exact fixes_pure.atomic
    · exact atomic_bind fixes_lift fun _ => atomic_saved

theorem atomic_executeBegin {V : Type} {values : InputValues V} {inputs : Option (Inputs V)} :
    Atomic (executeBegin pg registry values principal nodeId inputs commandId tick) := by
  refine atomic_bind fixes_lift fun _ => atomic_bind reads_getForUpdate fun _ =>
    atomic_bind reads_processed fun b => ?_
  split_ifs
  · exact fixes_pure.atomic
  · refine atomic_bind fixes_lift fun _ => atomic_bind fixes_lift fun _ =>
      atomic_bind fixes_check fun _ => atomic_bind fixes_lift fun _ => ?_
    split
    · exact atomic_saved.bind fun _ => total_pure
    · exact fixes_throw.atomic
    · exact atomic_bind fixes_lift fun _ => atomic_saveRun.bind fun _ =>
        total_bind total_modify fun _ => total_pure

end

theorem atomic_executeResume {s : Suspended} {outcome : Option WorkflowNodeExecutionOutcome}
    {tick : Tick} : Atomic (executeResume pg s outcome tick) := by
  unfold executeResume
  exact atomic_saved

/-! ## The outcome of an executor -/

namespace WorkflowNodeRun

/-- A success report that raises has not changed the node, or has it already succeeded. -/
theorem succeed_error {summary : String} {fp : Option String} {outputs : References} {o : Occasion}
    {e : WorkflowError} {n' : WorkflowNodeRun} (h : succeed summary fp outputs o n = .error e n') :
    n'.nodeId = n.nodeId ∧ (n' = n ∧ ¬n.status.Active ∨ n'.status = .succeeded) := by
  unfold succeed at h
  obtain h | ⟨m, m', hm, hrest⟩ := bind_error.1 h
  · cases h
  obtain ⟨rfl, rfl⟩ := get_ok.1 hm
  split_ifs at hrest with hact
  · obtain hbad | ⟨_, m', hm', hlast⟩ := bind_error.1 hrest
    · cases hbad
    obtain rfl := modify_ok.1 hm'
    have hfix : Fixes (fun n => (n.nodeId, n.status)) (do
        let summary ← lift (text summary "节点结果摘要")
        modify fun n => { n with resultSummary := some summary }
        let fp ← lift (fingerprint fp "输出指纹")
        modify fun n => { n with outputFingerprint := fp }
        modify fun n => { n with executionReference := none }
        let now ← lift (utc o.now "节点完成时间")
        modify fun n => { n with updatedAt := some now }
        let node ← get
        lift (nodeEvent node .nodeSucceeded o
          { attemptNumber := some node.attemptCount, outputReferences := some outputs }) :
        NodeM WorkflowEvent) :=
      fixes_bind fixes_lift fun _ => fixes_bind (fixes_modify fun _ => rfl) fun _ =>
        fixes_bind fixes_lift fun _ => fixes_bind (fixes_modify fun _ => rfl) fun _ =>
          fixes_bind (fixes_modify fun _ => rfl) fun _ => fixes_bind fixes_lift fun _ =>
            fixes_bind (fixes_modify fun _ => rfl) fun _ => fixes_bind fixes_get fun _ => fixes_lift
    obtain ⟨hid, hs⟩ := Prod.mk.inj ((hfix _).2 _ _ hlast)
    exact ⟨hid, Or.inr hs⟩
  · have hsame : n' = _ := Fixes.atomic (fixes_bind fixes_check fun _ =>
      fixes_bind fixes_check fun _ => fixes_lift) _ _ _ hrest
    exact ⟨congrArg _ hsame, Or.inl ⟨hsame, hact⟩⟩

end WorkflowNodeRun

theorem fixes_appendEvent {t : String} {ty : WorkflowEventType} {m : EventMetadata} :
    Fixes WorkflowRun.nodes (appendEvent call t ty m) := by
  refine fixes_bind fixes_get fun run => ?_
  split_ifs
  · exact fixes_pure
  · exact fixes_bind fixes_lift fun _ => fixes_bind fixes_lift fun _ => fixes_modify fun _ => rfl

theorem fixes_appendExisting {e : WorkflowEvent} :
    Fixes WorkflowRun.nodes (appendExisting call e) := by
  refine fixes_bind fixes_get fun run => ?_
  split_ifs
  · exact fixes_pure
  · exact fixes_bind fixes_lift fun _ => fixes_modify fun _ => rfl

theorem fixes_refreshStatus : Fixes WorkflowRun.nodes (refreshStatus call) := by
  refine fixes_bind fixes_get fun run => ?_
  split_ifs
  · exact fixes_bind (fixes_modify fun _ => rfl) fun _ =>
      fixes_bind (fixes_modify fun _ => rfl) fun _ => fixes_appendEvent
  · exact fixes_modify fun _ => rfl
  · exact fixes_modify fun _ => rfl
  · exact fixes_pure

/-- The outputs are those the node declares, and well formed. -/
def acceptsOutputs (v : WorkflowVersion) (nodeId : String) (outputs : References) : Prop :=
  ∃ d, v.node nodeId = .ok d ∧ ((∀ f ∈ outputs.map Prod.fst, f ∈ d.outputFields.1) ∧
    ∀ f ∈ d.outputFields.1, f ∈ outputs.map Prod.fst) ∧
    ∀ p ∈ outputs, checkReference p "节点输出字段名" "节点输出引用" = .ok ()

instance (v : WorkflowVersion) (nodeId : String) (outputs : References) :
    Decidable (acceptsOutputs v nodeId outputs) :=
  match h : v.node nodeId with
  | .error _ => isFalse fun ⟨_, hd, _⟩ => nomatch h.symm.trans hd
  | .ok d => decidable_of_iff (((∀ f ∈ outputs.map Prod.fst, f ∈ d.outputFields.1) ∧
      ∀ f ∈ d.outputFields.1, f ∈ outputs.map Prod.fst) ∧
      ∀ p ∈ outputs, checkReference p "节点输出字段名" "节点输出引用" = .ok ())
    ⟨fun hd => ⟨d, h, hd⟩, fun ⟨_, hd', hrest⟩ => by
      obtain rfl := Except.ok.inj (h.symm.trans hd')
      exact hrest⟩

section

variable {summary : String} {fp : Option String} {outputs : References}

theorem reads_succeedReplay {n : WorkflowNodeRun} :
    Reads (succeedReplay nodeId summary fp outputs n) := by
  refine fixes_bind fixes_get fun run => ?_
  split_ifs
  · exact fixes_bind fixes_check fun _ => fixes_bind fixes_check fun _ => fixes_pure
  · exact fixes_pure

/-- A success report that raises after its checks leaves its node at rest. -/
theorem succeedNode_tail_error {e : WorkflowError} {run₀ : WorkflowRun}
    (h : (do
      let event ← onNode nodeId (WorkflowNodeRun.succeed summary fp outputs
        (run₀.occasion call ":succeed"))
      appendExisting call event
      refreshStatus call
      pure event : RunM WorkflowEvent) run = .error e run')
    (hn : run'.node? nodeId = some n) : ¬n.status.Active := by
  have hdone : ∀ {m : WorkflowNodeRun}, m.status = .succeeded → ¬m.status.Active := fun hs => by
    rw [hs]
    decide
  obtain hraise | ⟨event, run₁, hnode, hrest⟩ := bind_error.1 h
  · unfold onNode at hraise
    cases hn₀ : run.node? nodeId with
    | none =>
      rw [hn₀] at hraise
      obtain ⟨-, rfl⟩ := EStateM.Result.error.inj hraise
      exact nomatch hn₀.symm.trans hn
    | some n₀ =>
      rw [hn₀] at hraise
      dsimp only at hraise
      split at hraise
      · exact nomatch hraise
      · next e n' hsucc =>
        obtain ⟨-, rfl⟩ := EStateM.Result.error.inj hraise
        obtain ⟨hid, hrest⟩ := WorkflowNodeRun.succeed_error hsucc
        have hself := node?_put_self hn₀ (hid.trans (nodeId_of_node? hn₀))
        obtain rfl := Option.some.inj (hself.symm.trans hn)
        obtain ⟨rfl, hact⟩ | hs := hrest
        · exact hact
        · exact hdone hs
  · obtain ⟨n₀, n', hn₀, hsucc, rfl⟩ := onNode_ok.1 hnode
    have hfix : Fixes WorkflowRun.nodes (do
        appendExisting call event
        refreshStatus call
        pure event : RunM WorkflowEvent) :=
      fixes_bind fixes_appendExisting fun _ => fixes_bind fixes_refreshStatus fun _ => fixes_pure
    have hnodes : run'.nodes = (run.put nodeId n').nodes := (hfix _).2 _ _ hrest
    have hs : n'.nodeId = n₀.nodeId ∧ n'.status = .succeeded := by
      rcases WorkflowNodeRun.succeed_ok.1 hsucc with ⟨-, -, fp', -, rfl, -⟩ | ⟨hs, -, -, rfl, -⟩
      · exact ⟨rfl, rfl⟩
      · exact ⟨rfl, hs⟩
    have hself := node?_put_self hn₀ (hs.1.trans (nodeId_of_node? hn₀))
    rw [node?, hnodes] at hn
    obtain rfl := Option.some.inj (hself.symm.trans hn)
    exact hdone hs.2

/-- A success report that raises and leaves its node at work has changed nothing, and its outputs
are not accepted. -/
theorem succeedNode_error {e : WorkflowError} {n : WorkflowNodeRun}
    (h : succeedNode v nodeId summary fp outputs call run = .error e run')
    (hn : run'.node? nodeId = some n) (hact : n.status.Active) :
    run' = run ∧ ¬acceptsOutputs v nodeId outputs := by
  unfold succeedNode at h
  obtain ⟨hraise, -⟩ | ⟨run₀, hget, h₁⟩ := error_of_reads fixes_get h
  · exact nomatch hraise
  rw [(get_ok.1 hget).1] at h₁
  obtain ⟨hraise, heq⟩ | ⟨n₀, hnode, h₂⟩ := error_of_reads fixes_lift h₁
  · rw [heq] at hn
    exact nomatch (lift_error.1 hraise).1.symm.trans (node_ok.2 hn)
  obtain ⟨hraise, heq⟩ | ⟨d, hd, h₃⟩ := error_of_reads fixes_lift h₂
  · refine ⟨heq, fun ⟨d, hd, _⟩ => ?_⟩
    exact nomatch (lift_error.1 hraise).1.symm.trans hd
  have hd' := (lift_ok.1 hd).1
  obtain ⟨hraise, heq⟩ | ⟨_, -, h₄⟩ := error_of_reads fixes_check h₃
  · refine ⟨heq, fun ⟨d', hd'', hout, _⟩ => ?_⟩
    obtain rfl := Except.ok.inj (hd'.symm.trans hd'')
    exact (check_error.1 hraise).1 hout
  obtain ⟨hraise, heq⟩ | ⟨_, -, h₅⟩ := error_of_reads fixes_lift h₄
  · refine ⟨heq, fun ⟨_, _, _, href⟩ => ?_⟩
    have hrefs : forEach (fun p => checkReference p "节点输出字段名" "节点输出引用") outputs = .ok () :=
      forEach_ok.2 href
    exact nomatch (lift_error.1 hraise).1.symm.trans hrefs
  obtain ⟨hraise, heq⟩ | ⟨existing, hreplay, h₆⟩ := error_of_reads reads_succeedReplay h₅
  · -- A node at work is no replay.
    rw [heq] at hn
    obtain rfl := Except.ok.inj ((lift_ok.1 hnode).1.symm.trans (node_ok.2 hn))
    have hs : n₀.status ≠ .succeeded := by
      rcases hact with h | h <;> rw [h] <;> decide
    have hnone : succeedReplay nodeId summary fp outputs n₀ run = .ok none run :=
      succeedReplay_ok.2 ⟨fun h => absurd h hs, (if_neg hs).symm, rfl⟩
    exact nomatch hraise.symm.trans hnone
  · cases existing with
    | some existing => exact nomatch h₆
    | none => exact absurd hact (succeedNode_tail_error h₆ hn)

end

theorem acceptsOutputs_of_succeedNode {summary : String} {fp : Option String}
    {outputs : References} {e : WorkflowEvent}
    (h : succeedNode v nodeId summary fp outputs call run = .ok e run') :
    acceptsOutputs v nodeId outputs := by
  simp only [succeedNode, bind_ok, get_ok, check_ok, lift_ok, exists_unit, forEach_ok,
    exists_eq_left, exists_and_left, and_assoc] at h
  obtain ⟨_, -, d, hd, hsub, hsup, href, -⟩ := h
  exact ⟨d, hd, ⟨hsub, hsup⟩, href⟩

/-- The command that records an outcome: outputs that are not accepted fail the node. -/
def outcomeCommand (v : WorkflowVersion) (nodeId : String)
    (outcome : Option WorkflowNodeExecutionOutcome) : WorkflowCommand :=
  match outcome with
  | none => .failNode nodeId "EXECUTOR_UNAVAILABLE" true
  | some outcome =>
    match outcome.status with
    | .completed =>
      if acceptsOutputs v nodeId outcome.outputReferences then
        .succeedNode nodeId (orElse outcome.resultSummary "节点已完成。") outcome.outputFingerprint
          outcome.outputReferences
      else .failNode nodeId "OUTPUT_INVALID" false
    | .accepted => .acceptNode nodeId (orElse outcome.executionReference "")
    | .failed => .failNode nodeId (orElse outcome.errorCode "WORKFLOW_EXECUTION_FAILED")
        outcome.retryable

theorem active_of_failNode {code : String} {retryable : Bool} {e : WorkflowEvent}
    (h : WorkflowRun.failNode nodeId code retryable call run = .ok e run') :
    ∃ n, run.node? nodeId = some n ∧ n.status.Active := by
  simp only [WorkflowRun.failNode, bind_ok, get_ok, onNode_ok] at h
  obtain ⟨_, _, ⟨rfl, rfl⟩, _, _, ⟨n, n', hn, hfail, -⟩, -⟩ := h
  exact ⟨n, hn, (WorkflowNodeRun.fail_ok.1 hfail).1⟩

/-- **Recording an outcome is one command of the domain.** -/
theorem step_of_recordOutcome {outcome : Option WorkflowNodeExecutionOutcome}
    (h : recordOutcome v nodeId outcome call run = .ok () run') :
    Step v run ⟨outcomeCommand v nodeId outcome, call⟩ run' := by
  cases outcome with
  | none => exact h
  | some outcome =>
    unfold recordOutcome at h
    unfold outcomeCommand
    dsimp only at h ⊢
    revert h
    cases outcome.status with
    | accepted | failed => exact fun h => h
    | completed =>
      intro hrec
      dsimp only
      obtain hsucc | ⟨e, run₁, herr, hcatch⟩ := tryCatch_ok.1 hrec
      · rw [if_pos]
        · exact hsucc
        · obtain ⟨_, hsucc⟩ := discard_ok.1 hsucc
          exact acceptsOutputs_of_succeedNode hsucc
      · cases e with
        | validation message =>
          -- The failure is accepted, so the report of success had left the node at work.
          obtain ⟨_, hfail⟩ := discard_ok.1 hcatch
          obtain ⟨n, hn, hact⟩ := active_of_failNode hfail
          obtain ⟨rfl, hout⟩ := succeedNode_error (discard_error.1 herr) hn hact
          rw [if_neg hout]
          exact hcatch
        | state | idempotencyConflict | recursionError => exact (throw_ok.1 hcatch).elim

/-! ## One action -/

/-- The nodes a command starts. -/
def WorkflowCommand.starts : WorkflowCommand → List String
  | .startNode nodeId => [nodeId]
  | _ => []

/-- A transaction: a command of the domain runs on the stored run and what it leaves is saved;
an executor is invoked for the node it starts. -/
structure Saves (pg : Postgres) (v : WorkflowVersion) (w : World) (r : Request)
    (run run' : WorkflowRun) (w' : World) : Prop where
  before : Holds pg v w.rows run
  step : Step v run r run'
  after : Holds pg v w'.rows run'
  log : w.rows.events <+: w'.rows.events
  executions : w'.executions = w.executions ++ r.command.starts

theorem starts_outcomeCommand {outcome : Option WorkflowNodeExecutionOutcome} :
    (outcomeCommand v nodeId outcome).starts = [] := by
  unfold outcomeCommand
  split
  · rfl
  · split
    · split_ifs <;> rfl
    · rfl
    · rfl

/-- The type under which a call leaves its receipt. -/
def AppCommand.type : AppCommand → String
  | .completeNode .. => "complete-node"
  | .failNode .. => "fail-node"
  | .skipNode .. => "skip-node"
  | .confirmNodeCancel .. => "confirm-cancel"
  | .cancel => "cancel"

/-- The command of the domain a call runs. -/
def AppCommand.command : AppCommand → WorkflowCommand
  | .completeNode nodeId summary fp outputs => .succeedNode nodeId summary fp outputs
  | .failNode nodeId code retryable => .failNode nodeId code retryable
  | .skipNode nodeId reason => .skipNode nodeId reason
  | .confirmNodeCancel nodeId => .confirmNodeCancel nodeId
  | .cancel => .requestCancel

section

variable {commandType commandId : String} {principal : RequestPrincipal} {tick : Tick}
  {method : RunM Unit} {c : AppCommand} {V : Type} {values : InputValues V}
  {inputs : Option (Inputs V)}

theorem saves_of_saved (h : Holds pg v w.rows run) (hfresh : FreshIds r.call.uuid4 w.rows)
    (hs : ∀ run', method run = .ok () run' → Step v run r run') (hstarts : r.command.starts = [])
    (hcall : saved pg commandType commandId run method w = .ok view w') :
    ∃ run', Saves pg v w r run run' w' := by
  obtain ⟨run', rows', hrun, hrows, -, rfl⟩ := saved_ok.1 hcall
  have hstep := hs run' hrun
  obtain ⟨hafter, hlog, -⟩ := h.save hstep hfresh hrows
  refine ⟨run', h, hstep, hafter, hlog, ?_⟩
  rw [hstarts, List.append_nil]

/-- **A call is at most one transaction.** -/
theorem saves_of_handle (hreg : registry.get v.workflowCode.1 v.version.1 = some v)
    (h : Holds pg v w.rows run) (hfresh : FreshIds tick.uuid4 w.rows)
    (hcall : c.handle pg registry principal commandId tick w = .ok view w') :
    w' = w ∨ ¬hasProcessedCommand w.rows c.type commandId ∧ Owned principal (run.reloaded pg) ∧
      ∃ run', Saves pg v w ⟨c.command, tick.call commandId⟩ (run.reloaded pg) run' w' := by
  cases c with
  | completeNode | failNode | skipNode | confirmNodeCancel =>
    unfold AppCommand.handle at hcall
    refine (once_ok hreg h hcall).imp id fun ⟨hnew, howner, hsaved⟩ => ⟨hnew, howner, ?_⟩
    exact saves_of_saved h.reloaded hfresh (fun _ h => h) rfl hsaved
  | cancel =>
    simp only [AppCommand.handle, cancel, bind_ok, lift_ok, getForUpdate_ok, processed_ok] at hcall
    obtain ⟨subject, _, ⟨hsub, rfl⟩, run₀, _, ⟨hload, howner, rfl⟩, b, _, ⟨rfl, rfl⟩, hcall⟩ := hcall
    obtain rfl := Except.ok.inj (hload.symm.trans h.load)
    split_ifs at hcall with hdone
    · exact Or.inl (pure_ok.1 hcall).2
    · refine Or.inr ⟨fun h => hdone (decide_eq_true h), owned_of_subject hsub howner, ?_⟩
      simp only [bind_ok, lift_ok] at hcall
      obtain ⟨_, _, ⟨-, rfl⟩, hsaved⟩ := hcall
      exact saves_of_saved h.reloaded hfresh (fun _ h => h) rfl hsaved

/-- The inputs do not pass, and the node fails for it. -/
def Refused (values : InputValues V) (v : WorkflowVersion) (run : WorkflowRun) (nodeId : String)
    (inputs : Option (Inputs V)) : Prop :=
  match buildNodeInputs values run v nodeId inputs with
  | .error (.workflow (.validation _)) => True
  | _ => False

instance : Decidable (Refused values v run nodeId inputs) := by
  unfold Refused
  split <;> infer_instance

/-- What `execute_node` does before its executor runs. -/
theorem executeBegin_ok {x : WorkflowRunView ⊕ Suspended}
    (hreg : registry.get v.workflowCode.1 v.version.1 = some v)
    (h : Holds pg v w.rows run) (hfresh : FreshIds tick.uuid4 w.rows)
    (hcall : executeBegin pg registry values principal nodeId inputs commandId tick w = .ok x w') :
    (∃ view, x = .inl view) ∧ w' = w ∨ ¬hasProcessedCommand w.rows "execute-node" commandId ∧
      Owned principal (run.reloaded pg) ∧
      ((∃ view, x = .inl view) ∧ Refused values v (run.reloaded pg) nodeId inputs ∧ (∃ run',
        Saves pg v w ⟨.rejectNodeInput nodeId "INPUT_INVALID", tick.call commandId⟩
          (run.reloaded pg) run' w') ∨
      ¬Refused values v (run.reloaded pg) nodeId inputs ∧
        ∃ run', x = .inr ⟨run', v, nodeId, commandId⟩ ∧
          Saves pg v w ⟨.startNode nodeId, tick.call commandId⟩ (run.reloaded pg) run' w') := by
  simp only [executeBegin, bind_ok, lift_ok, getForUpdate_ok, processed_ok] at hcall
  obtain ⟨subject, _, ⟨hsub, rfl⟩, run₀, _, ⟨hload, howner, rfl⟩, b, _, ⟨rfl, rfl⟩, hcall⟩ := hcall
  obtain rfl := Except.ok.inj (hload.symm.trans h.load)
  split_ifs at hcall with hdone
  · obtain ⟨rfl, rfl⟩ := pure_ok.1 hcall
    exact Or.inl ⟨⟨_, rfl⟩, rfl⟩
  · refine Or.inr ⟨fun h => hdone (decide_eq_true h), owned_of_subject hsub howner, ?_⟩
    simp only [bind_ok, lift_ok, check_ok] at hcall
    obtain ⟨version, _, ⟨hversion, rfl⟩, ready, _, ⟨-, rfl⟩, _, _, ⟨-, rfl⟩, d, _, ⟨-, rfl⟩,
      hcall⟩ := hcall
    obtain rfl := Except.ok.inj (hversion.symm.trans (registered_ok hreg h.reloaded))
    cases hb : buildNodeInputs values (run.reloaded pg) version nodeId inputs with
    | ok d =>
      rw [hb] at hcall
      simp only [bind_ok, lift_ok, perform_ok, saveRun_ok, modify_ok, pure_ok] at hcall
      obtain ⟨run', _, ⟨hstart, rfl⟩, _, _, ⟨rows', hrows, rfl⟩, _, _, rfl, rfl, rfl⟩ := hcall
      have hstep : Step version (run.reloaded pg) ⟨.startNode nodeId, tick.call commandId⟩ run' :=
        hstart
      obtain ⟨hafter, hlog, -⟩ := h.reloaded.save hstep hfresh hrows
      refine Or.inr ⟨?_, run', rfl, h.reloaded, hstep, hafter, hlog, rfl⟩
      unfold Refused
      rw [hb]
      exact not_false
    | error e =>
      rw [hb] at hcall
      cases e with
      | permission | lookup | key | load | database => exact (throw_ok.1 hcall).elim
      | workflow e =>
        cases e with
        | state | idempotencyConflict | recursionError => exact (throw_ok.1 hcall).elim
        | validation message =>
          obtain ⟨view, _, hsaved, hx⟩ := bind_ok.1 hcall
          obtain ⟨rfl, rfl⟩ := pure_ok.1 hx
          have hbad : Refused values version (run.reloaded pg) nodeId inputs := by
            unfold Refused
            rw [hb]
            trivial
          exact Or.inl ⟨⟨_, rfl⟩, hbad, saves_of_saved h.reloaded hfresh (fun _ h => h) rfl hsaved⟩

/-- What `execute_node` does after its executor returned, on a run that is stored unchanged. -/
theorem saves_of_executeResume {s : Suspended} {outcome : Option WorkflowNodeExecutionOutcome}
    (h : Holds pg v w.rows s.run) (hv : s.version = v) (hfresh : FreshIds tick.uuid4 w.rows)
    (hcall : executeResume pg s outcome tick w = .ok view w') :
    ∃ run', Saves pg v w ⟨outcomeCommand v s.nodeId outcome, tick.call s.commandId⟩ s.run run'
      w' := by
  obtain ⟨run', rows', hrun, hrows, -, rfl⟩ := saved_ok.1 hcall
  subst hv
  have hstep := step_of_recordOutcome hrun
  obtain ⟨hafter, hlog, -⟩ := h.save hstep hfresh hrows
  refine ⟨run', h, hstep, hafter, hlog, ?_⟩
  rw [starts_outcomeCommand, List.append_nil]

end

/-! ## Calls one after the other -/

section

variable {V : Type} {values : InputValues V} {a : Action V} {as : List (Action V)}
  {s s' : System}

def Action.tick : Action V → Tick
  | .call _ _ _ tick | .begin _ _ _ _ tick | .resume _ tick => tick

/-- No call begins while an executor is running. -/
def Action.Sequential (s : System) : Action V → Prop
  | .call .. | .begin .. => s.suspended = none
  | .resume .. => True

/-- The command of the domain an action issues to the run it has read. -/
def Action.issued (values : InputValues V) (v : WorkflowVersion) (s : System) (run : WorkflowRun) :
    Action V → Option Request
  | .call c principal commandId tick =>
    if Owned principal run then some ⟨c.command, tick.call commandId⟩ else none
  | .begin principal nodeId inputs commandId tick =>
    if Owned principal run then
      if Refused values v run nodeId inputs then
        some ⟨.rejectNodeInput nodeId "INPUT_INVALID", tick.call commandId⟩
      else some ⟨.startNode nodeId, tick.call commandId⟩
    else none
  | .resume outcome tick => s.suspended.map fun call =>
    ⟨outcomeCommand v call.nodeId outcome, tick.call call.commandId⟩

/-- The call finds its receipt. -/
def Action.Replayed (s : System) : Action V → Prop
  | .call c _ commandId _ => hasProcessedCommand s.world.rows c.type commandId
  | .begin _ _ _ commandId _ => hasProcessedCommand s.world.rows "execute-node" commandId
  | .resume .. => False

/-- An action while no other call is running, with ids never drawn before. -/
structure Turn (pg : Postgres) (registry : WorkflowDefinitionRegistry) (values : InputValues V)
    (s : System) (a : Action V) (s' : System) : Prop where
  result : s' = act pg registry values a s
  sequential : a.Sequential s
  fresh : FreshIds a.tick.uuid4 s.world.rows

/-- The run was created and inserted, and nothing else happened. -/
structure Opened (pg : Postgres) (v : WorkflowVersion) (s : System) : Prop where
  created : ∃ run, Created v run ∧ createRun pg run = .ok s.world.rows
  executions : s.world.executions = []
  suspended : s.suspended = none

/-- The rows store the run, and an `execute_node` call whose executor is running has it in
memory. -/
structure Serving (pg : Postgres) (v : WorkflowVersion) (s : System) (run : WorkflowRun) :
    Prop where
  holds : Holds pg v s.world.rows run
  suspended : ∀ call, s.suspended = some call → call.run = run ∧ call.version = v

theorem Holds.idle (h : Holds pg v w.rows run) : Serving pg v { world := w } run where
  holds := h
  suspended _ hcall := nomatch hcall

theorem Serving.mem_nodes {x : WorkflowNodeRunRecord} (h : Serving pg v s run) :
    x ∈ s.world.rows.nodes ↔ ∃ n ∈ run.nodes, nodeToRecord run.id n = x := by
  rw [h.holds.stores.nodes.mem_iff, List.mem_map]

theorem Opened.serving (h : Opened pg v s) : ∃ run, Created v run ∧ Serving pg v s run := by
  obtain ⟨run, hc, hrows⟩ := h.created
  refine ⟨run, hc, (holds_of_create hc hrows).1, fun call hcall => ?_⟩
  rw [h.suspended] at hcall
  cases hcall

/-- **Every turn is at most one transaction**, and the run stays stored. -/
theorem Serving.turn (hreg : registry.get v.workflowCode.1 v.version.1 = some v)
    (h : Serving pg v s run) (ht : Turn pg registry values s a s') :
    ∃ run', Serving pg v s' run' ∧ (s'.world = s.world ∧ run' = run ∨
      ∃ r run₀, (run₀ = run ∨ run₀ = run.reloaded pg) ∧ ¬a.Replayed s ∧
        a.issued values v s (run.reloaded pg) = some r ∧ Saves pg v s.world r run₀ run' s'.world) := by
  obtain ⟨rfl, hseq, hfresh⟩ := ht
  have hidle : ∀ w, s.suspended = none → ∀ run', Holds pg v w.rows run' →
      Serving pg v { s with world := w } run' := fun w hnone run' hrun =>
    ⟨hrun, fun call hcall => by rw [hnone] at hcall; cases hcall⟩
  cases a with
  | call c principal commandId tick =>
    unfold act leave
    dsimp only
    cases hcall : c.handle pg registry principal commandId tick s.world with
    | error e w =>
      obtain rfl := atomic_handle _ _ _ hcall
      exact ⟨run, h, Or.inl ⟨rfl, rfl⟩⟩
    | ok view w =>
      obtain rfl | ⟨hnew, howner, run', hsaves⟩ := saves_of_handle hreg h.holds hfresh hcall
      · exact ⟨run, h, Or.inl ⟨rfl, rfl⟩⟩
      · exact ⟨run', hidle w hseq run' hsaves.after,
          Or.inr ⟨_, _, Or.inr rfl, hnew, if_pos howner, hsaves⟩⟩
  | begin principal nodeId inputs commandId tick =>
    unfold act
    dsimp only
    cases hcall : executeBegin pg registry values principal nodeId inputs commandId tick
      s.world with
    | error e w =>
      obtain rfl := atomic_executeBegin _ _ _ hcall
      exact ⟨run, h, Or.inl ⟨rfl, rfl⟩⟩
    | ok x w =>
      obtain ⟨⟨view, rfl⟩, rfl⟩ | ⟨hnew, howner, ⟨⟨view, rfl⟩, hbad, run', hsaves⟩ |
        ⟨hgood, run', rfl, hsaves⟩⟩ := executeBegin_ok hreg h.holds hfresh hcall
      · exact ⟨run, h, Or.inl ⟨rfl, rfl⟩⟩
      · exact ⟨run', hidle w hseq run' hsaves.after,
          Or.inr ⟨_, _, Or.inr rfl, hnew, (if_pos howner).trans (if_pos hbad), hsaves⟩⟩
      · refine ⟨run', ⟨hsaves.after, fun call hcall => ?_⟩,
          Or.inr ⟨_, _, Or.inr rfl, hnew, (if_pos howner).trans (if_neg hgood), hsaves⟩⟩
        cases hcall
        exact ⟨rfl, rfl⟩
  | resume outcome tick =>
    unfold act
    dsimp only
    cases hcall : s.suspended with
    | none => exact ⟨run, h, Or.inl ⟨rfl, rfl⟩⟩
    | some call =>
      obtain ⟨hrun, hv⟩ := h.suspended call hcall
      unfold leave
      dsimp only
      cases hresume : executeResume pg call outcome tick s.world with
      | error e w =>
        obtain rfl := atomic_executeResume _ _ _ hresume
        exact ⟨run, h.holds.idle, Or.inl ⟨rfl, rfl⟩⟩
      | ok view w =>
        obtain ⟨run', hsaves⟩ := saves_of_executeResume (hrun ▸ h.holds) hv hfresh hresume
        exact ⟨run', hsaves.after.idle,
          Or.inr ⟨_, _, Or.inl hrun, not_false, congrArg (Option.map _) hcall, hsaves⟩⟩

end

/-! ## Runs on concrete inputs -/

/-- Strings in the order of their code points. -/
def codePoints : TextOrder where
  le a b := a ≤ b
  decidable := inferInstance
  total := inferInstance
  trans := inferInstance
  antisymm := inferInstance

def server : Postgres := ⟨codePoints, codePoints⟩

def strings : InputValues String := ⟨id, fun _ => true, fun _ => rfl⟩

def owner : RequestPrincipal := { subject := some "owner", authenticated := true }

/-- The `t`-th tick, with ids of its own. -/
def tickAt (t : Nat) : Tick := ⟨⟨t, true⟩, fun k => 100 * t + k⟩

theorem freshIds_tickAt {t : Nat}
    (h : ∀ id ∈ rows.events.map WorkflowEventRecord.id, id < 100 * t) :
    FreshIds (tickAt t).uuid4 rows :=
  ⟨fun _ _ h => Nat.add_left_cancel h,
    fun _ hk => absurd (h _ hk) (Nat.not_lt.2 (Nat.le_add_right _ _))⟩

theorem registry_single : WorkflowDefinitionRegistry.get [v] v.workflowCode.1 v.version.1 = some v := by
  simp [WorkflowDefinitionRegistry.get, lookup, WorkflowVersion.key]

/-- A run of the version that was just created. -/
def opened (v : WorkflowVersion) : Option System :=
  match create v "owner" "key" "input" ⟨0, true⟩ 0 (fun k => k + 1) (fun k => k) with
  | .error _ => none
  | .ok run =>
    match createRun server run with
    | .error _ => none
    | .ok rows => some { world := { rows } }

theorem opened_spec {s : System} (h : opened v = some s) : Opened server v s := by
  unfold opened at h
  split at h
  · cases h
  · next run hrun =>
    split at h
    · cases h
    · next rows hrows =>
      cases h
      exact ⟨⟨run, ⟨_, _, _, _, _, _, _, hrun⟩, hrows⟩, rfl, rfl⟩

instance {V : Type} (s : System) (a : Action V) : Decidable (a.Sequential s) :=
  match a with
  | .call .. | .begin .. => decidable_of_iff (s.suspended.isNone = true) Option.isNone_iff_eq_none
  | .resume .. => isTrue trivial

/-- Take turns from tick `t` on. -/
def script (v : WorkflowVersion) : Nat → List (Tick → Action String) → System → Option System
  | _, [], s => some s
  | t, f :: fs, s =>
    if (f (tickAt t)).Sequential s ∧
        ∀ id ∈ s.world.rows.events.map WorkflowEventRecord.id, id < 100 * t then
      script v (t + 1) fs (act server [v] strings (f (tickAt t)) s)
    else none

theorem turn_of_script {t : Nat} {f : Tick → Action String} {s s' : System}
    (htick : ∀ tick, (f tick).tick = tick) (h : script v t [f] s = some s') :
    Turn server [v] strings s (f (tickAt t)) s' := by
  unfold script at h
  split_ifs at h with hguard
  cases h
  refine ⟨rfl, hguard.1, ?_⟩
  rw [htick]
  exact freshIds_tickAt hguard.2

/-- The actions of a script that starts at tick `t`. -/
def ticked : Nat → List (Tick → Action String) → List (Action String)
  | _, [] => []
  | t, f :: fs => f (tickAt t) :: ticked (t + 1) fs

theorem turns_of_script {t : Nat} {fs : List (Tick → Action String)} {s s' : System}
    (htick : ∀ f ∈ fs, ∀ tick, (f tick).tick = tick) (h : script v t fs s = some s') :
    Steps (Turn server [v] strings) s (ticked t fs) s' := by
  induction fs generalizing t s with
  | nil =>
    cases h
    exact .nil _
  | cons f fs ih =>
    unfold script at h
    split_ifs at h with hguard
    refine .cons ⟨rfl, hguard.1, ?_⟩ (ih (fun f hf => htick f (List.mem_cons_of_mem _ hf)) h)
    rw [htick f List.mem_cons_self]
    exact freshIds_tickAt hguard.2

end GoAgent.Workflow
