import GoAgent.Foundation.Rejection
import GoAgent.Workflow.Progress
import GoAgent.Workflow.Transactions

/-!
# Rejected workflow commands

The methods of a node write some of its fields before they check the time, and a success report is
written before its summary and fingerprint are checked. The methods of a run write the run before
the event of its end is checked.

**Theorem (`refusal_changes_nothing`).** In a run of commands none of which spoiled the run, a
command that raises leaves the run as it was, exactly if it does not spoil it (`Spoils`).

* `WorkflowNodeRun.leaves_stamped` — what every node method ends with raises on a naive time only.
* `leaves_completing` — a command that completes a node raises late if the run ends with it and the
  command id is blank.
* `cancelNodes_returns` — no node refuses to be cancelled.
-/

namespace GoAgent.Workflow

open GoAgent.Foundation WorkflowRun

/-! ## Node methods -/

namespace WorkflowNodeRun

variable {n n' : WorkflowNodeRun} {o : Occasion}

/-- The end of every node method: it raises exactly if the time has no zone. -/
theorem leaves_stamped (n n₁ : WorkflowNodeRun) (ty : WorkflowEventType)
    (m : WorkflowNodeRun → EventMetadata) (label : String) (hne : n₁.status ≠ n.status)
    (hid : isBlank o.transitionId = false)
    (hm : checkMetadata ty
      { m { n₁ with updatedAt := some o.now } with nodeId := some n₁.nodeId } = .ok ()) :
    Leaves n (do
      let now ← lift (utc o.now label)
      modify fun n => { n with updatedAt := some now }
      let node ← get
      lift (nodeEvent node ty o (m node))) n₁ ↔ o.now.tzAware = true := by
  have hne₁ : n₁ ≠ n := fun h => hne (congrArg status h)
  have hne₂ : { n₁ with updatedAt := some o.now } ≠ n := by
    intro h
    have hs := congrArg status h
    exact hne hs
  rw [leaves_lift_bind_of_ne hne₁]
  simp only [utc_ok, leaves_modify_bind, leaves_get_bind]
  constructor
  · rintro ⟨_, ⟨hz, -⟩, -⟩
    exact hz
  · intro hz
    exact ⟨_, ⟨hz, rfl⟩, (leaves_lift_of_ne hne₂).2 ⟨_, nodeEvent_of_check hid hz hm⟩⟩

theorem imp_iff_not_naive {p q : Prop} {aware : Bool} (h : p → (q ↔ aware = true)) :
    (p → q) ↔ ¬(p ∧ aware = false) := by
  constructor
  · rintro hq ⟨hp, hz⟩
    rw [(h hp).1 (hq hp)] at hz
    cases hz
  · intro hn hp
    apply (h hp).2
    rw [← Bool.not_eq_false]
    exact fun hz => hn ⟨hp, hz⟩

theorem start_leaves (hn : isIdentifier n.nodeId = true) (hid : isBlank o.transitionId = false) :
    Leaves n (start o) n ↔
      ¬((n.status = .queued ∧ n.attemptCount < n.maxAttempts) ∧ o.now.tzAware = false) := by
  simp only [start, leaves_get_bind, leaves_check_bind, leaves_modify_bind, ← and_imp]
  apply imp_iff_not_naive
  rintro ⟨hq, -⟩
  exact leaves_stamped n _ .nodeStarted (fun n => { attemptNumber := some n.attemptCount })
    "节点开始时间" (by simp [hq]) hid
    (by simpa [checkMetadata, EventMetadata.keys, eventMetadataFields] using isIdentifier_strip hn)

/-- The reference passes its check. -/
def GoodReference (reference : String) : Prop :=
  isBlank reference = false ∧ isSafeReference (strip reference) = true

theorem accept_leaves (reference : String) (hn : isIdentifier n.nodeId = true)
    (hid : isBlank o.transitionId = false) (hcount : n.status = .running → 0 < n.attemptCount) :
    Leaves n (accept reference o) n ↔
      ¬((n.status = .running ∧ GoodReference reference) ∧ o.now.tzAware = false) := by
  simp only [accept, leaves_get_bind]
  by_cases ha : n.status = .accepted
  · rw [if_pos ha]
    refine iff_of_true ?_ fun h => by simp [ha] at h
    simp only [leaves_lift_bind, leaves_check_bind]
    exact fun _ _ _ => leaves_lift
  · have hactive : n.status.Active ↔ n.status = .running := by simp [WorkflowNodeStatus.Active, ha]
    have hgood (p : String → Prop) : (∀ r, isBlank reference = false ∧
        isSafeReference r = true ∧ r = strip reference → p r) ↔
        (GoodReference reference → p (strip reference)) := by
      constructor
      · intro h hr
        exact h _ ⟨hr.1, hr.2, rfl⟩
      · rintro h _ ⟨hb, hs, rfl⟩
        exact h ⟨hb, hs⟩
    rw [if_neg ha]
    simp only [requireActive, bind_assoc, leaves_get_bind, leaves_check_bind, leaves_lift_bind,
      leaves_modify_bind, opaqueReference_ok, hactive, hgood, ← and_imp]
    apply imp_iff_not_naive
    rintro ⟨hr, href⟩
    exact leaves_stamped n _ .nodeAccepted
      (fun n => { attemptNumber := some n.attemptCount, executionReference := n.executionReference })
      "节点接收时间" (by simp [hr]) hid (by
        simpa [checkMetadata, EventMetadata.keys, eventMetadataFields, hcount hr, href.1, href.2]
          using isIdentifier_strip hn)

/-- The code passes its check. -/
def GoodCode (code : String) : Prop := isBlank code = false ∧ isSafeError (strip code) = true

theorem goodCode_iff {code label : String} {p : String → Prop} :
    (∀ c, text code label = .ok c → isSafeError c = true → p c) ↔
      (GoodCode code → p (strip code)) := by
  simp only [text_ok]
  constructor
  · intro h hc
    exact h _ ⟨hc.1, rfl⟩ hc.2
  · rintro h _ ⟨hb, rfl⟩ hs
    exact h ⟨hb, hs⟩

theorem rejectInput_leaves (code : String) (hn : isIdentifier n.nodeId = true)
    (hid : isBlank o.transitionId = false) : Leaves n (rejectInput code o) n ↔
      ¬((n.status = .queued ∧ GoodCode code) ∧ o.now.tzAware = false) := by
  simp only [rejectInput, leaves_get_bind, leaves_check_bind, leaves_lift_bind, leaves_modify_bind,
    goodCode_iff]
  rw [← and_imp]
  apply imp_iff_not_naive
  rintro ⟨hq, hcode⟩
  exact leaves_stamped n _ .nodeInputRejected (fun _ => { errorCode := some (strip code) })
    "节点输入拒绝时间" (by simp [hq]) hid (by
      simpa [checkMetadata, EventMetadata.keys, eventMetadataFields, hcode.2]
        using isIdentifier_strip hn)

theorem fail_leaves (code : String) (retryable : Bool) (hn : isIdentifier n.nodeId = true)
    (hid : isBlank o.transitionId = false) (hcount : n.status.Active → 0 < n.attemptCount) :
    Leaves n (fail code retryable o) n ↔
      ¬((n.status.Active ∧ GoodCode code) ∧ o.now.tzAware = false) := by
  simp only [fail, requireActive, bind_assoc, leaves_get_bind, leaves_check_bind, leaves_lift_bind,
    leaves_modify_bind, goodCode_iff]
  rw [← and_imp]
  apply imp_iff_not_naive
  rintro ⟨hact, hcode⟩
  refine leaves_stamped n _ _
    (fun n => { attemptNumber := some n.attemptCount, errorCode := some (strip code) })
    "节点失败时间" ?_ hid ?_
  · rcases hact with h | h <;> simp only [h] <;> split_ifs <;> simp
  · split_ifs <;> simpa [checkMetadata, EventMetadata.keys, eventMetadataFields, hcode.2,
      hcount hact] using isIdentifier_strip hn

theorem skip_leaves {reason : String} (hn : isIdentifier n.nodeId = true)
    (hid : isBlank o.transitionId = false) : Leaves n (skip reason o) n ↔
      ¬((n.status = .queued ∧ isBlank reason = false) ∧ o.now.tzAware = false) := by
  simp only [skip, leaves_get_bind]
  by_cases hs : n.status = .skipped
  · rw [if_pos hs]
    refine iff_of_true ?_ fun h => by simp [hs] at h
    simp only [leaves_lift_bind]
    exact fun _ _ => leaves_lift
  · have hgood (p : String → Prop) : (∀ r, isBlank reason = false ∧ r = strip reason → p r) ↔
        (isBlank reason = false → p (strip reason)) := by
      constructor
      · intro h hb
        exact h _ ⟨hb, rfl⟩
      · rintro h _ ⟨hb, rfl⟩
        exact h hb
    rw [if_neg hs]
    simp only [leaves_check_bind, leaves_lift_bind, leaves_modify_bind, text_ok, hgood, ← and_imp]
    apply imp_iff_not_naive
    rintro ⟨hq, -⟩
    exact leaves_stamped n _ .nodeSkipped (fun n => { skipReason := n.resultSummary })
      "节点跳过时间" (by simp [hq]) hid (by
        simpa [checkMetadata, EventMetadata.keys, eventMetadataFields] using isIdentifier_strip hn)

theorem requestCancel_leaves (hn : isIdentifier n.nodeId = true)
    (hid : isBlank o.transitionId = false) (hcount : n.status.Active → 0 < n.attemptCount) :
    Leaves n (requestCancel o) n ↔ ¬(n.status.Cancellable ∧ o.now.tzAware = false) := by
  simp only [requestCancel, leaves_get_bind]
  by_cases ha : n.status.Active
  · have hc : n.status.Cancellable := Or.inr ha
    rw [if_pos ha, ← imp_iff_not_naive fun _ => ?_]
    · exact ⟨fun h _ => h, fun h => h hc⟩
    · simp only [leaves_modify_bind]
      refine leaves_stamped n _ .nodeCancelRequested
        (fun n => { attemptNumber := some n.attemptCount }) "节点取消时间" ?_ hid ?_
      · rcases ha with h | h <;> simp [h]
      · simpa [checkMetadata, EventMetadata.keys, eventMetadataFields, hcount ha]
          using isIdentifier_strip hn
  · have hc : n.status.Cancellable ↔ n.status = .queued := or_iff_left ha
    rw [if_neg ha, hc]
    simp only [leaves_check_bind, leaves_modify_bind]
    apply imp_iff_not_naive
    intro hq
    exact leaves_stamped n _ .nodeCancelled (fun _ => { cancelMode := some "queued" })
      "节点取消时间" (by simp [hq]) hid (by
        simpa [checkMetadata, EventMetadata.keys, eventMetadataFields] using isIdentifier_strip hn)

theorem confirmCancel_leaves (hn : isIdentifier n.nodeId = true)
    (hid : isBlank o.transitionId = false)
    (hcount : n.status = .cancelRequested → 0 < n.attemptCount) :
    Leaves n (confirmCancel o) n ↔ ¬(n.status = .cancelRequested ∧ o.now.tzAware = false) := by
  simp only [confirmCancel, leaves_get_bind]
  by_cases hs : n.status = .cancelled
  · rw [if_pos hs]
    exact iff_of_true leaves_lift fun h => by simp [hs] at h
  · rw [if_neg hs]
    simp only [leaves_check_bind, leaves_modify_bind]
    apply imp_iff_not_naive
    intro hr
    exact leaves_stamped n _ .nodeCancelled
      (fun n => { attemptNumber := some n.attemptCount, cancelMode := some "confirmed" })
      "节点取消确认时间" (by simp [hr]) hid (by
        simpa [checkMetadata, EventMetadata.keys, eventMetadataFields, hcount hr]
          using isIdentifier_strip hn)

/-- The fingerprint does not pass its check. -/
def BadFingerprint (fp : Option String) : Prop := ∀ fp', fingerprint fp "输出指纹" ≠ .ok fp'

/-- A success report writes the status before it checks its facts. -/
theorem succeed_leaves {summary : String} {fp : Option String} {outputs : References}
    (hn : isIdentifier n.nodeId = true) (hid : isBlank o.transitionId = false)
    (hcount : n.status.Active → 0 < n.attemptCount)
    (houts : ∀ p ∈ outputs, checkReference p "节点输出字段名" "节点输出引用" = .ok ()) :
    Leaves n (succeed summary fp outputs o) n ↔
      ¬(n.status.Active ∧
        (isBlank summary = true ∨ BadFingerprint fp ∨ o.now.tzAware = false)) := by
  simp only [succeed, leaves_get_bind]
  by_cases ha : n.status.Active
  · have hne (n₁ : WorkflowNodeRun) (h : n₁.status = .succeeded) : n₁ ≠ n := by
      rintro rfl
      rcases ha with hs | hs <;> rw [h] at hs <;> cases hs
    have hend (n₁ : WorkflowNodeRun) (hid₁ : n₁.nodeId = n.nodeId)
        (hcount₁ : n₁.attemptCount = n.attemptCount) (hs : n₁.status = .succeeded) :=
      leaves_stamped n n₁ .nodeSucceeded
        (fun n => { attemptNumber := some n.attemptCount, outputReferences := some outputs })
        "节点完成时间" (by rcases ha with h | h <;> simp [h, hs]) hid (by
          simpa [checkMetadata, EventMetadata.keys, eventMetadataFields, hid₁, hcount₁, hcount ha]
            using ⟨isIdentifier_strip hn, fun a b hp => checkReference_ok.1 (houts (a, b) hp)⟩)
    rw [if_neg (not_not.2 ha)]
    simp only [leaves_modify_bind, ha, true_and, not_or, Bool.not_eq_true, Bool.not_eq_false]
    rw [leaves_lift_bind_of_ne (hne _ rfl)]
    simp only [text_ok, leaves_modify_bind]
    constructor
    · rintro ⟨_, ⟨hb, rfl⟩, h⟩
      rw [leaves_lift_bind_of_ne (hne _ rfl)] at h
      obtain ⟨fp', hfp, h⟩ := h
      simp only [leaves_modify_bind] at h
      refine ⟨hb, fun hbad => hbad fp' hfp, (hend _ ?_ ?_ ?_).1 h⟩ <;> rfl
    · rintro ⟨hb, hfp, hz⟩
      obtain ⟨fp', hfp⟩ : ∃ fp', fingerprint fp "输出指纹" = .ok fp' := by
        simpa [BadFingerprint] using hfp
      refine ⟨_, ⟨hb, rfl⟩, ?_⟩
      rw [leaves_lift_bind_of_ne (hne _ rfl)]
      refine ⟨fp', hfp, ?_⟩
      simp only [leaves_modify_bind]
      refine (hend _ ?_ ?_ ?_).2 hz <;> rfl
  · rw [if_pos ha]
    refine iff_of_true ?_ fun h => ha h.1
    simp only [leaves_check_bind]
    exact fun _ _ => leaves_lift

/-! ### Which calls return -/

theorem exists_nodeEvent {ty : WorkflowEventType} {m : EventMetadata}
    (hid : isBlank o.transitionId = false)
    (hm : checkMetadata ty { m with nodeId := some n.nodeId } = .ok ()) :
    (∃ e, nodeEvent n ty o m = .ok e) ↔ o.now.tzAware = true := by
  constructor
  · rintro ⟨e, he⟩
    exact tzAware_of_nodeEvent he
  · intro hz
    exact ⟨_, nodeEvent_of_check hid hz hm⟩

theorem skip_returns {reason : String} (hn : isIdentifier n.nodeId = true)
    (hid : isBlank o.transitionId = false) : (∃ e, skip reason o n = .ok e n') ↔
      (isBlank reason = false ∧ o.now.tzAware = true) ∧
        (n.status = .skipped ∧ n' = n ∨
          n.status = .queued ∧ n' = n.skippedWith (strip reason) o.now) := by
  have hdata (node : WorkflowNodeRun) (h : node.nodeId = n.nodeId) (reason : String) :
      (∃ e, nodeEvent node .nodeSkipped o { skipReason := some reason } = .ok e) ↔
        o.now.tzAware = true := by
    apply exists_nodeEvent hid
    simpa [checkMetadata, EventMetadata.keys, eventMetadataFields, h] using isIdentifier_strip hn
  simp only [skip_ok, exists_or, exists_and_left]
  constructor
  · rintro (⟨hs, hb, rfl, he⟩ | ⟨hq, hb, rfl, he⟩)
    · exact ⟨⟨hb, (hdata _ rfl _).1 he⟩, Or.inl ⟨hs, rfl⟩⟩
    · exact ⟨⟨hb, (hdata _ rfl _).1 he⟩, Or.inr ⟨hq, rfl⟩⟩
  · rintro ⟨⟨hb, hz⟩, ⟨hs, rfl⟩ | ⟨hq, rfl⟩⟩
    · exact Or.inl ⟨hs, hb, rfl, (hdata _ rfl _).2 hz⟩
    · exact Or.inr ⟨hq, hb, rfl, (hdata _ rfl _).2 hz⟩

theorem succeed_returns {summary : String} {fp : Option String} {outputs : References}
    (hn : isIdentifier n.nodeId = true) (hid : isBlank o.transitionId = false)
    (hcount : n.status.Active ∨ n.status = .succeeded → 0 < n.attemptCount)
    (houts : ∀ p ∈ outputs, checkReference p "节点输出字段名" "节点输出引用" = .ok ()) :
    (∃ e, succeed summary fp outputs o n = .ok e n') ↔ o.now.tzAware = true ∧
      (n.status.Active ∧ isBlank summary = false ∧ (∃ fp', fingerprint fp "输出指纹" = .ok fp' ∧
          n' = n.succeededWith (strip summary) fp' o.now) ∨
        n.status = .succeeded ∧ n.resultSummary = some summary ∧ n.outputFingerprint = fp ∧
          n' = n) := by
  have hdata (node : WorkflowNodeRun) (h : node.nodeId = n.nodeId)
      (hc : 0 < node.attemptCount) :
      (∃ e, nodeEvent node .nodeSucceeded o (node.succeededMetadata outputs) = .ok e) ↔
        o.now.tzAware = true := by
    apply exists_nodeEvent hid
    simpa [checkMetadata, EventMetadata.keys, eventMetadataFields, succeededMetadata, h, hc] using
      ⟨isIdentifier_strip hn, fun a b hp => checkReference_ok.1 (houts (a, b) hp)⟩
  simp only [succeed_ok, exists_or, exists_and_left]
  constructor
  · rintro (⟨hact, hb, e, fp', hfp, rfl, he⟩ | ⟨hs, hr, hf, rfl, he⟩)
    · have hz := tzAware_of_nodeEvent he
      exact ⟨hz, Or.inl ⟨hact, hb, fp', hfp, rfl⟩⟩
    · exact ⟨(hdata _ rfl (hcount (Or.inr hs))).1 he, Or.inr ⟨hs, hr, hf, rfl⟩⟩
  · rintro ⟨hz, ⟨hact, hb, fp', hfp, rfl⟩ | ⟨hs, hr, hf, rfl⟩⟩
    · obtain ⟨e, he⟩ := (hdata (n.succeededWith (strip summary) fp' o.now) rfl
        (hcount (Or.inl hact))).2 hz
      exact Or.inl ⟨hact, hb, e, fp', hfp, rfl, he⟩
    · exact Or.inr ⟨hs, hr, hf, rfl, (hdata _ rfl (hcount (Or.inr hs))).2 hz⟩

theorem confirmCancel_returns (n' : WorkflowNodeRun) (hn : isIdentifier n.nodeId = true)
    (hid : isBlank o.transitionId = false)
    (hcount : n.status = .cancelRequested → 0 < n.attemptCount) :
    (∃ e, confirmCancel o n = .ok e n') ↔ o.now.tzAware = true ∧
      (n.status = .cancelled ∧ n' = n ∨ n.status = .cancelRequested ∧ n' = n.cancelledAt o.now) := by
  simp only [confirmCancel_ok, exists_or, exists_and_left]
  constructor
  · rintro (⟨hs, rfl, e, he⟩ | ⟨hs, rfl, e, he⟩)
    · exact ⟨tzAware_of_nodeEvent he, Or.inl ⟨hs, rfl⟩⟩
    · exact ⟨tzAware_of_nodeEvent he, Or.inr ⟨hs, rfl⟩⟩
  · rintro ⟨hz, ⟨hs, rfl⟩ | ⟨hs, rfl⟩⟩
    · refine Or.inl ⟨hs, rfl, (exists_nodeEvent hid ?_).2 hz⟩
      simpa [checkMetadata, EventMetadata.keys, eventMetadataFields] using isIdentifier_strip hn
    · refine Or.inr ⟨hs, rfl, (exists_nodeEvent hid ?_).2 hz⟩
      simpa [checkMetadata, EventMetadata.keys, eventMetadataFields, cancelledAt, hcount hs]
        using isIdentifier_strip hn

end WorkflowNodeRun

/-! ## Run methods -/

variable {v : WorkflowVersion} {run run₀ run₁ : WorkflowRun} {call : Call} {i : String}
  {n n' : WorkflowNodeRun}

theorem put_eq_self (hn : run.node? i = some n) (h : (run.put i n').nodes = run.nodes) :
    n' = n := by
  have hnodes : run.nodes.map (fun r => if r.nodeId = i then n' else r) =
      run.nodes.map fun r => r := by
    rw [List.map_id']
    exact h
  have heq := List.map_inj_left.1 hnodes n (mem_of_node? hn)
  rwa [if_pos (nodeId_of_node? hn)] at heq

/-- A method of a node is rejected without a change if the node's method is. -/
theorem leaves_onNode_bind {α β : Type} {m : NodeM α} {f : α → RunM β}
    (hnd : (run.nodes.map WorkflowNodeRun.nodeId).Nodup) (hn : run.node? i = some n) :
    Leaves run (onNode i m >>= f) run ↔
      Leaves n m n ∧ ∀ a n', m n = .ok a n' → Leaves run (f a) (run.put i n') := by
  rw [leaves_bind]
  constructor
  · rintro ⟨herror, hok⟩
    constructor
    · intro e n' hm
      apply put_eq_self hn
      apply congrArg WorkflowRun.nodes
      apply herror e
      simp only [onNode, hn, hm]
    · intro a n' hm
      exact hok a _ (onNode_ok.2 ⟨n, n', hn, hm, rfl⟩)
  · rintro ⟨herror, hok⟩
    constructor
    · intro e run' h
      simp only [onNode, hn] at h
      cases hm : m n with
      | ok a n' => simp [hm] at h
      | error e' n' =>
        simp only [hm, EStateM.Result.error.injEq] at h
        rw [← h.2, herror e' n' hm, put_self hnd hn]
    · intro a run' h
      obtain ⟨n₁, n', hn₁, hm, rfl⟩ := onNode_ok.1 h
      obtain rfl : n = n₁ := Option.some.inj (hn.symm.trans hn₁)
      exact hok a n' hm

theorem leaves_onNode_none {α β : Type} {m : NodeM α} {f : α → RunM β} (hn : run.node? i = none) :
    Leaves run (onNode i m >>= f) run := by
  intro e run' h
  rcases bind_error.1 h with h | ⟨_, _, h, -⟩
  · simp only [onNode, hn, EStateM.Result.error.injEq] at h
    exact h.2.symm
  · simp [onNode, hn] at h

/-! ### What follows an accepted node method returns -/

section Tails

variable {α : Type} {f : Unit → RunM α} {suffix label : String} {ty : WorkflowEventType}
  {m : EventMetadata} {e : WorkflowEvent}

theorem leaves_appendExisting_bind
    (he : nodeEvent n ty (run.occasion call suffix) m = .ok e) :
    Leaves run₀ (appendExisting call e >>= f) run₁ ↔
      Leaves run₀ (f ()) (run₁.recordNode call suffix n ty m) :=
  leaves_bind_of_ok ((appendExisting_ok he).2 rfl)

theorem leaves_appendEvent_bind (hs : isBlank suffix = false) (hm : checkMetadata ty m = .ok ())
    (hz : call.now.tzAware = true) :
    Leaves run₀ (appendEvent call (call.commandId ++ suffix) ty m >>= f) run₁ ↔
      Leaves run₀ (f ()) (run₁.record call (call.commandId ++ suffix) ty m) :=
  leaves_bind_of_ok (appendEvent_ok.2 ⟨fun _ => checkEvent_nextEvent hs hm hz, rfl⟩)

theorem leaves_touch (hz : call.now.tzAware = true) : Leaves run₀ (touch call label) run₁ :=
  leaves_of_ok (touch_ok.2 ⟨hz, rfl⟩)

theorem leaves_touch_pure {a : α} (hz : call.now.tzAware = true) :
    Leaves run₀ (do touch call label; pure a) run₁ :=
  leaves_of_ok (bind_ok.2 ⟨(), _, touch_ok.2 ⟨hz, rfl⟩, rfl⟩)

end Tails

theorem startNode_leaves (hv : Instantiates v run.nodes)
    (hready : run.Ready v i →
      ∃ n, run.node? i = some n ∧ n.status = .queued ∧ n.attemptCount < n.maxAttempts) :
    Leaves run (startNode v i call) run ↔
      ¬(¬run.status.Shut ∧ run.Ready v i ∧ call.now.tzAware = false) := by
  simp only [startNode, leaves_get_bind, leaves_check_bind, leaves_lift_bind]
  constructor
  · rintro h ⟨hopen, ⟨ready, hr, hmem⟩, hz⟩
    obtain ⟨n, hn, hq, hleft⟩ := hready ⟨ready, hr, hmem⟩
    have hnode := ((leaves_onNode_bind hv.nodup hn).1 (h hopen ready hr hmem)).1
    exact (WorkflowNodeRun.start_leaves (hv.isIdentifier (mem_of_node? hn))
      (isBlank_append_right (by decide))).1 hnode ⟨⟨hq, hleft⟩, hz⟩
  · intro h hopen ready hr hmem
    obtain ⟨n, hn, hq, hleft⟩ := hready ⟨ready, hr, hmem⟩
    refine (leaves_onNode_bind hv.nodup hn).2 ⟨?_, ?_⟩
    · refine (WorkflowNodeRun.start_leaves (hv.isIdentifier (mem_of_node? hn))
        (isBlank_append_right (by decide))).2 ?_
      rintro ⟨-, hz⟩
      exact h ⟨hopen, ⟨ready, hr, hmem⟩, hz⟩
    · intro e n' hm
      obtain ⟨-, -, rfl, he⟩ := WorkflowNodeRun.start_ok.1 hm
      have hz := WorkflowNodeRun.tzAware_of_nodeEvent he
      have hsuffix : isBlank ":run-start" = false := by decide
      have hempty : checkMetadata .runStarted {} = .ok () := by decide
      split_ifs
      · simp only [leaves_modify_bind, leaves_appendEvent_bind hsuffix hempty hz,
          leaves_appendExisting_bind he]
        exact leaves_touch_pure hz
      · simp only [leaves_appendExisting_bind he]
        exact leaves_touch_pure hz

theorem acceptNode_leaves {reference : String} (hv : Instantiates v run.nodes)
    (hbegun : ∀ n, run.node? i = some n → n.status.Begun → 0 < n.attemptCount) :
    Leaves run (acceptNode i reference call) run ↔
      ¬(¬run.status.Shut ∧ ∃ n, run.node? i = some n ∧
        (n.status = .running ∧ WorkflowNodeRun.GoodReference reference) ∧
        call.now.tzAware = false) := by
  simp only [acceptNode, leaves_get_bind, leaves_check_bind, leaves_lift_bind, node_ok]
  have hnode (n : WorkflowNodeRun) (hn : run.node? i = some n) :=
    WorkflowNodeRun.accept_leaves reference (o := run.occasion call ":accept")
      (hv.isIdentifier (mem_of_node? hn)) (isBlank_append_right (by decide))
      fun hr => hbegun n hn (Or.inl (Or.inl hr))
  constructor
  · rintro h ⟨hopen, n, hn, hbad⟩
    exact (hnode n hn).1 ((leaves_onNode_bind hv.nodup hn).1 (h hopen n hn)).1 hbad
  · intro h hopen n hn
    refine (leaves_onNode_bind hv.nodup hn).2 ⟨(hnode n hn).2 fun hbad => h ⟨hopen, n, hn, hbad⟩, ?_⟩
    intro e n' hm
    have he : nodeEvent n' .nodeAccepted (run.occasion call ":accept") n'.acceptedMetadata =
        .ok e := by
      rcases WorkflowNodeRun.accept_ok.1 hm with ⟨-, -, -, -, -, he⟩ | ⟨-, -, -, -, he⟩ <;> exact he
    have hz := WorkflowNodeRun.tzAware_of_nodeEvent he
    cases hlog : (if n.status = .accepted then run.findLatestNodeEvent i .nodeAccepted
        else none) with
    | some e₀ => exact leaves_pure
    | none =>
      have hsuffix : isBlank ":run-accepted" = false := by decide
      have hdata : checkMetadata .runAccepted { nodeId := some i } = .ok () := by
        simpa [checkMetadata, EventMetadata.keys, eventMetadataFields] using
          isIdentifier_strip (nodeId_of_node? hn ▸ hv.isIdentifier (mem_of_node? hn))
      simp only [leaves_modify_bind, leaves_appendExisting_bind he,
        leaves_appendEvent_bind hsuffix hdata hz]
      exact leaves_touch_pure hz

theorem rejectNodeInput_leaves {code : String} (hv : Instantiates v run.nodes) :
    Leaves run (rejectNodeInput i code call) run ↔
      ¬(¬run.status.Shut ∧ ∃ n, run.node? i = some n ∧
        (n.status = .queued ∧ WorkflowNodeRun.GoodCode code) ∧ call.now.tzAware = false) := by
  simp only [rejectNodeInput, leaves_get_bind, leaves_check_bind]
  have hnode (n : WorkflowNodeRun) (hn : run.node? i = some n) :=
    WorkflowNodeRun.rejectInput_leaves code (o := run.occasion call ":reject-input")
      (hv.isIdentifier (mem_of_node? hn)) (isBlank_append_right (by decide))
  constructor
  · rintro h ⟨hopen, n, hn, hbad⟩
    exact (hnode n hn).1 ((leaves_onNode_bind hv.nodup hn).1 (h hopen)).1 hbad
  · intro h hopen
    cases hn : run.node? i with
    | none => exact leaves_onNode_none hn
    | some n =>
      refine (leaves_onNode_bind hv.nodup hn).2
        ⟨(hnode n hn).2 fun hbad => h ⟨hopen, n, hn, hbad⟩, ?_⟩
      intro e n' hm
      obtain ⟨-, -, hcode, rfl, he⟩ := WorkflowNodeRun.rejectInput_ok.1 hm
      have hz := WorkflowNodeRun.tzAware_of_nodeEvent he
      have hself : ((run.put i (n.rejectedWith (strip code) call.now)).recordNode call
          ":reject-input" (n.rejectedWith (strip code) call.now) .nodeInputRejected
          { errorCode := some (strip code) }).node? i = _ :=
        node?_put_self hn (nodeId_of_node? hn :)
      rw [leaves_appendExisting_bind he]
      refine (leaves_bind_of_ok (failWith_of_code hself ?_ rfl hcode hz)).2 (leaves_touch_pure hz)
      exact (hv.isIdentifier (mem_of_node? hn) :)

theorem failNode_leaves {code : String} {retryable : Bool} (hv : Instantiates v run.nodes)
    (hbegun : ∀ n, run.node? i = some n → n.status.Begun → 0 < n.attemptCount) :
    Leaves run (failNode i code retryable call) run ↔
      ¬∃ n, run.node? i = some n ∧
        (n.status.Active ∧ WorkflowNodeRun.GoodCode code) ∧ call.now.tzAware = false := by
  simp only [failNode, leaves_get_bind]
  have hnode (n : WorkflowNodeRun) (hn : run.node? i = some n) :=
    WorkflowNodeRun.fail_leaves code retryable (o := run.occasion call ":fail") (hv.isIdentifier (mem_of_node? hn))
      (isBlank_append_right (by decide)) fun hact => hbegun n hn (Or.inl hact)
  constructor
  · rintro h ⟨n, hn, hbad⟩
    exact (hnode n hn).1 ((leaves_onNode_bind hv.nodup hn).1 h).1 hbad
  · intro h
    cases hn : run.node? i with
    | none => exact leaves_onNode_none hn
    | some n =>
      refine (leaves_onNode_bind hv.nodup hn).2 ⟨(hnode n hn).2 fun hbad => h ⟨n, hn, hbad⟩, ?_⟩
      intro e n' hm
      obtain ⟨-, -, hcode, rfl, he⟩ := WorkflowNodeRun.fail_ok.1 hm
      have hz := WorkflowNodeRun.tzAware_of_nodeEvent he
      have hself (r : WorkflowRun)
          (hr : r.nodes = (run.put i (n.failedWith (strip code) retryable call.now)).nodes) :
          r.node? i = some (n.failedWith (strip code) retryable call.now) := by
        rw [node?, hr]
        exact node?_put_self hn (nodeId_of_node? hn :)
      have hread (r : WorkflowRun)
          (hr : r.nodes = (run.put i (n.failedWith (strip code) retryable call.now)).nodes) :
          (lift (r.node i) : RunM _) r = .ok (n.failedWith (strip code) retryable call.now) r :=
        lift_ok.2 ⟨node_ok.2 (hself r hr), rfl⟩
      rw [leaves_appendExisting_bind he, leaves_get_bind]
      refine (leaves_bind_of_ok (hread _ (by rfl))).2 ?_
      by_cases hst : (n.failedWith (strip code) retryable call.now).status = .failed
      · rw [if_pos hst]
        refine (leaves_bind_of_ok (failWith_of_code (hself _ (by rfl)) ?_ rfl hcode hz)).2
          (leaves_touch_pure hz)
        exact (hv.isIdentifier (mem_of_node? hn) :)
      · rw [if_neg hst]
        exact leaves_touch_pure hz

/-! ### Commands that end with the run -/

/-- The command id is blank, and so is no transition in the log. -/
def BlankId (run : WorkflowRun) (call : Call) : Prop :=
  isBlank call.commandId = true ∧ ¬run.hasTransition call.commandId

/-- The run once its last node is complete. -/
def WorkflowRun.finished (run : WorkflowRun) : WorkflowRun :=
  { run with status := .succeeded, resultSummary := some "Workflow 节点已全部完成。" }

/-- An event with a blank transition is refused. -/
theorem appendEvent_blank (ty : WorkflowEventType) (m : EventMetadata) (h : BlankId run call) :
    ∃ e, appendEvent call call.commandId ty m run = .error e run := by
  cases hr : appendEvent call call.commandId ty m run with
  | ok u run' =>
    have hcheck := (appendEvent_ok.1 hr).1 h.2
    rw [checkEvent_ok, nextEvent, h.1] at hcheck
    cases hcheck.2.1
  | error e run' =>
    refine ⟨e, ?_⟩
    have hleaves : Leaves run (appendEvent call call.commandId ty m) run := by
      simp only [appendEvent, leaves_get_bind, if_neg h.2, leaves_lift_bind]
      exact fun _ _ _ _ => leaves_modify
    rw [hleaves e run' hr]

/-- The end of a command that completes a node: the run may end with it, and then logs an event
under the command id. -/
theorem leaves_refresh {a : WorkflowEvent} (hz : call.now.tzAware = true) :
    Leaves run₀ (do refreshStatus call; pure a) run₁ ↔
      ¬((∀ n ∈ run₁.nodes, n.status.Complete) ∧ BlankId run₁ call ∧ run₁.finished ≠ run₀) := by
  by_cases hbad : (∀ n ∈ run₁.nodes, n.status.Complete) ∧ BlankId run₁ call
  · have herror : ∃ e, refreshStatus call run₁ = .error e run₁.finished := by
      have hid : BlankId run₁.finished call := hbad.2
      obtain ⟨e, he⟩ := appendEvent_blank .runSucceeded {} hid
      refine ⟨e, bind_error.2 (Or.inr ⟨run₁, run₁, rfl, ?_⟩)⟩
      rw [if_pos hbad.1]
      exact he
    obtain ⟨e, he⟩ := herror
    constructor
    · rintro h ⟨-, -, hne⟩
      exact hne (h e _ (bind_error.2 (Or.inl he)))
    · intro h
      have heq : run₁.finished = run₀ := by
        by_contra hne
        exact h ⟨hbad.1, hbad.2, hne⟩
      rintro e' r hr
      rcases bind_error.1 hr with hr | ⟨u, r', hr, -⟩
      · rw [he, EStateM.Result.error.injEq] at hr
        exact hr.2.symm.trans heq
      · rw [he] at hr
        cases hr
  · refine iff_of_true ?_ fun h => hbad ⟨h.1, h.2.1⟩
    refine leaves_of_ok (bind_ok.2 ⟨(), _, refreshStatus_ok.2 ⟨?_, rfl⟩, rfl⟩)
    intro hall hfresh
    refine ⟨?_, hz⟩
    rw [← Bool.not_eq_true]
    exact fun hb => hbad ⟨hall, hb, hfresh⟩

/-- Every node but the named one satisfies `P`. -/
def Others (run : WorkflowRun) (i : String) (P : WorkflowNodeStatus → Prop) : Prop :=
  ∀ m ∈ run.nodes, m.nodeId ≠ i → P m.status

theorem forall_put {P : WorkflowNodeStatus → Prop} (hn' : P n'.status) :
    (∀ m ∈ (run.put i n').nodes, P m.status) ↔ Others run i P := by
  simp only [put, replace, List.forall_mem_map]
  refine forall₂_congr fun m _ => ?_
  by_cases hm : m.nodeId = i
  · simp [hm, hn']
  · simp [hm]

theorem ne_append {s suffix : String} (h : suffix ≠ "") : s ≠ s ++ suffix := by
  intro heq
  have hlist := congrArg String.toList heq
  rw [String.toList_append, List.self_eq_append_right] at hlist
  exact h (String.toList_inj.1 hlist)

theorem blankId_recordNode {suffix : String} {ty : WorkflowEventType} {m : EventMetadata}
    (h : suffix ≠ "") : BlankId (run.recordNode call suffix n ty m) call ↔ BlankId run call := by
  rw [BlankId, recordNode, hasTransition_record, or_iff_left (ne_append h)]
  exact Iff.rfl

/-- The run has ended with all its nodes complete. -/
def WorkflowRun.Ended (run : WorkflowRun) : Prop :=
  run.status = .succeeded ∧ run.resultSummary = some "Workflow 节点已全部完成。"

theorem finished_recordNode {suffix : String} {ty : WorkflowEventType} {m : EventMetadata} :
    (run.recordNode call suffix n ty m).finished = run ↔
      run.hasTransition (call.commandId ++ suffix) ∧ run.Ended := by
  constructor
  · intro h
    have hevents : (run.recordNode call suffix n ty m).events = run.events :=
      (congrArg WorkflowRun.events h :)
    refine ⟨?_, (congrArg WorkflowRun.status h).symm, (congrArg resultSummary h).symm⟩
    by_contra hfresh
    rw [recordNode, record_of_fresh hfresh] at hevents
    simp at hevents
  · rintro ⟨hlogged, hs, hr⟩
    rw [recordNode, record_of_logged hlogged, finished, ← hs, ← hr]

/-- A report of a node that changes it, or repeats an earlier one, and then the end of the run. -/
theorem leaves_completed {suffix : String} {ty : WorkflowEventType} {m : EventMetadata}
    {e : WorkflowEvent} (hnd : (run.nodes.map WorkflowNodeRun.nodeId).Nodup)
    (hn : run.node? i = some n) (hcomplete : n'.status.Complete) (hsuffix : suffix ≠ "")
    (he : nodeEvent n' ty (run.occasion call suffix) m = .ok e) :
    Leaves run (do appendExisting call e; refreshStatus call; pure e) (run.put i n') ↔
      ¬(Others run i WorkflowNodeStatus.Complete ∧ BlankId run call ∧
        ¬(n' = n ∧ run.hasTransition (call.commandId ++ suffix) ∧ run.Ended)) := by
  rw [leaves_appendExisting_bind he, leaves_refresh (WorkflowNodeRun.tzAware_of_nodeEvent he),
    blankId_recordNode hsuffix, recordNode_nodes, forall_put hcomplete]
  have hid : BlankId (run.put i n') call ↔ BlankId run call := Iff.rfl
  have hsame : ((run.put i n').recordNode call suffix n' ty m).finished = run ↔
      n' = n ∧ run.hasTransition (call.commandId ++ suffix) ∧ run.Ended := by
    constructor
    · intro h
      have hnodes : (run.put i n').nodes = run.nodes := (congrArg WorkflowRun.nodes h :)
      obtain rfl := put_eq_self hn hnodes
      rw [put_self hnd hn] at h
      exact ⟨rfl, finished_recordNode.1 h⟩
    · rintro ⟨rfl, h⟩
      rw [put_self hnd hn]
      exact finished_recordNode.2 h
  rw [hid, Ne, hsame]

/-- A command that completes a node is rejected without a change if the node's method is, and if
the end of the run it leads to can be logged. -/
theorem leaves_completing {m : NodeM WorkflowEvent} {suffix : String}
    (hnd : (run.nodes.map WorkflowNodeRun.nodeId).Nodup) (hn : run.node? i = some n)
    (hsuffix : suffix ≠ "")
    (hm : ∀ e n', m n = .ok e n' → n'.status.Complete ∧
      ∃ ty md, nodeEvent n' ty (run.occasion call suffix) md = .ok e) :
    Leaves run (do
      let e ← onNode i m
      appendExisting call e
      refreshStatus call
      pure e) run ↔
      Leaves n m n ∧ ¬((∃ n', (∃ e, m n = .ok e n') ∧
          ¬(n' = n ∧ run.hasTransition (call.commandId ++ suffix) ∧ run.Ended)) ∧
        Others run i WorkflowNodeStatus.Complete ∧ BlankId run call) := by
  rw [leaves_onNode_bind hnd hn]
  refine and_congr_right fun _ => ?_
  constructor
  · rintro h ⟨⟨n', ⟨e, he⟩, hne⟩, hall, hblank⟩
    obtain ⟨hcomplete, ty, md, hev⟩ := hm e n' he
    exact (leaves_completed hnd hn hcomplete hsuffix hev).1 (h e n' he) ⟨hall, hblank, hne⟩
  · intro h e n' he
    obtain ⟨hcomplete, ty, md, hev⟩ := hm e n' he
    apply (leaves_completed hnd hn hcomplete hsuffix hev).2
    rintro ⟨hall, hblank, hne⟩
    exact h ⟨⟨n', ⟨e, he⟩, hne⟩, hall, hblank⟩

/-- A skip that passes its checks finds its time naive, or ends the run under a blank id. -/
def SpoilsSkip (run : WorkflowRun) (i reason : String) (call : Call) : Prop :=
  ∃ n, run.node? i = some n ∧ isBlank reason = false ∧
    (n.status = .queued ∧ call.now.tzAware = false ∨
      (n.status = .queued ∨
          n.status = .skipped ∧ ¬(run.hasTransition (call.commandId ++ ":skip") ∧ run.Ended)) ∧
        call.now.tzAware = true ∧ Others run i WorkflowNodeStatus.Complete ∧ BlankId run call)

theorem skipNode_leaves {reason : String} (hv : Instantiates v run.nodes) :
    Leaves run (skipNode i reason call) run ↔ ¬SpoilsSkip run i reason call := by
  simp only [skipNode, leaves_get_bind]
  cases hn : run.node? i with
  | none =>
    apply iff_of_true (leaves_onNode_none hn)
    rintro ⟨n, hn', -⟩
    simp [hn] at hn'
  | some n =>
    have hid : isBlank (run.occasion call ":skip").transitionId = false :=
      isBlank_append_right (by decide)
    have hvalid := hv.isIdentifier (mem_of_node? hn)
    have hsuffix : ":skip" ≠ "" := by decide
    rw [leaves_completing hv.nodup hn hsuffix, WorkflowNodeRun.skip_leaves hvalid hid]
    · simp only [WorkflowNodeRun.skip_returns hvalid hid, SpoilsSkip, hn, Option.some.injEq,
        exists_eq_left', ← not_or]
      apply not_congr
      constructor
      · rintro (⟨⟨hq, hb⟩, hz⟩ | ⟨⟨n', ⟨⟨hb, hz⟩, hmove⟩, hne⟩, hall⟩)
        · exact ⟨hb, Or.inl ⟨hq, hz⟩⟩
        · refine ⟨hb, Or.inr ⟨?_, hz, hall⟩⟩
          rcases hmove with ⟨hs, rfl⟩ | ⟨hq, rfl⟩
          · exact Or.inr ⟨hs, fun h => hne ⟨rfl, h⟩⟩
          · exact Or.inl hq
      · rintro ⟨hb, ⟨hq, hz⟩ | ⟨hq | ⟨hs, hne⟩, hz, hall⟩⟩
        · exact Or.inl ⟨⟨hq, hb⟩, hz⟩
        · refine Or.inr ⟨⟨_, ⟨⟨hb, hz⟩, Or.inr ⟨hq, rfl⟩⟩, ?_⟩, hall⟩
          rintro ⟨heq, -⟩
          have hstatus := congrArg WorkflowNodeRun.status heq
          rw [hq] at hstatus
          cases hstatus
        · exact Or.inr ⟨⟨n, ⟨⟨hb, hz⟩, Or.inl ⟨hs, rfl⟩⟩, fun h => hne h.2⟩, hall⟩
    · intro e n' he
      rcases WorkflowNodeRun.skip_ok.1 he with ⟨hs, -, rfl, he⟩ | ⟨-, -, rfl, he⟩
      · exact ⟨Or.inr hs, _, _, he⟩
      · exact ⟨Or.inr rfl, _, _, he⟩

/-- The node repeats its report, and the log has lost the first one. -/
def RepeatsUnlogged (run : WorkflowRun) (i summary : String) (fp : Option String)
    (outputs : References) (n : WorkflowNodeRun) : Prop :=
  n.status = .succeeded ∧ (n.resultSummary = some summary ∧ n.outputFingerprint = fp) ∧
    sameDict (run.outputReferences i) outputs ∧
    run.findLatestNodeEvent i .nodeSucceeded = none

/-- A success report writes before its summary and fingerprint are checked; and like every report
that can end the run, it needs a command id for that. -/
def SpoilsSucceed (v : WorkflowVersion) (run : WorkflowRun) (i summary : String)
    (fp : Option String) (outputs : References) (call : Call) : Prop :=
  ∃ n, run.node? i = some n ∧ acceptsOutputs v i outputs ∧
    (n.status.Active ∧ (isBlank summary = true ∨ WorkflowNodeRun.BadFingerprint fp ∨
        call.now.tzAware = false ∨
        Others run i WorkflowNodeStatus.Complete ∧ BlankId run call) ∨
      RepeatsUnlogged run i summary fp outputs n ∧ call.now.tzAware = true ∧
        ¬(run.hasTransition (call.commandId ++ ":succeed") ∧ run.Ended) ∧
        Others run i WorkflowNodeStatus.Complete ∧ BlankId run call)

theorem not_succeeded_of_active {n : WorkflowNodeRun} (h : n.status.Active) :
    n.status ≠ .succeeded := by
  rcases h with h | h <;> rw [h] <;> intro hs <;> cases hs

/-- The part of a success report after its outputs are accepted. -/
theorem leaves_reported {summary : String} {fp : Option String} {outputs : References}
    (hv : Instantiates v run.nodes) (hn : run.node? i = some n)
    (hcount : n.status.Active ∨ n.status = .succeeded → 0 < n.attemptCount)
    (houts : ∀ p ∈ outputs, checkReference p "节点输出字段名" "节点输出引用" = .ok ()) :
    Leaves run (do
      let event ← onNode i (WorkflowNodeRun.succeed summary fp outputs
        (run.occasion call ":succeed"))
      appendExisting call event
      refreshStatus call
      pure event) run ↔
      ¬(n.status.Active ∧ (isBlank summary = true ∨ WorkflowNodeRun.BadFingerprint fp ∨
          call.now.tzAware = false ∨
          Others run i WorkflowNodeStatus.Complete ∧ BlankId run call) ∨
        (n.status = .succeeded ∧ n.resultSummary = some summary ∧ n.outputFingerprint = fp) ∧
          call.now.tzAware = true ∧
          ¬(run.hasTransition (call.commandId ++ ":succeed") ∧ run.Ended) ∧
          Others run i WorkflowNodeStatus.Complete ∧ BlankId run call) := by
  have hid : isBlank (run.occasion call ":succeed").transitionId = false :=
    isBlank_append_right (by decide)
  have hvalid := hv.isIdentifier (mem_of_node? hn)
  have hsuffix : ":succeed" ≠ "" := by decide
  rw [leaves_completing hv.nodup hn hsuffix,
    WorkflowNodeRun.succeed_leaves hvalid hid (fun h => hcount (Or.inl h)) houts]
  · simp only [WorkflowNodeRun.succeed_returns hvalid hid hcount houts, ← not_or]
    apply not_congr
    constructor
    · rintro (⟨hact, hbad⟩ | ⟨⟨n', ⟨hz, hmove⟩, hne⟩, hall⟩)
      · refine Or.inl ⟨hact, ?_⟩
        rcases hbad with h | h | h
        · exact Or.inl h
        · exact Or.inr (Or.inl h)
        · exact Or.inr (Or.inr (Or.inl h))
      · rcases hmove with ⟨hact, -⟩ | ⟨hs, hr, hf, rfl⟩
        · exact Or.inl ⟨hact, Or.inr (Or.inr (Or.inr hall))⟩
        · exact Or.inr ⟨⟨hs, hr, hf⟩, hz, fun h => hne ⟨rfl, h⟩, hall⟩
    · rintro (⟨hact, hbad⟩ | ⟨⟨hs, hr, hf⟩, hz, hne, hall⟩)
      · by_cases hearly : isBlank summary = true ∨ WorkflowNodeRun.BadFingerprint fp ∨
            call.now.tzAware = false
        · exact Or.inl ⟨hact, hearly⟩
        · have hall : Others run i WorkflowNodeStatus.Complete ∧ BlankId run call := by tauto
          simp only [not_or, WorkflowNodeRun.BadFingerprint, not_forall, not_not,
            Bool.not_eq_true, Bool.not_eq_false] at hearly
          obtain ⟨hb, ⟨fp', hfp⟩, hz⟩ := hearly
          refine Or.inr ⟨⟨_, ⟨hz, Or.inl ⟨hact, hb, fp', hfp, rfl⟩⟩, ?_⟩, hall⟩
          rintro ⟨heq, -⟩
          exact not_succeeded_of_active hact (congrArg WorkflowNodeRun.status heq).symm
      · exact Or.inr ⟨⟨n, ⟨hz, Or.inr ⟨hs, hr, hf, rfl⟩⟩, fun h => hne h.2⟩, hall⟩
  · intro e n' he
    rcases WorkflowNodeRun.succeed_ok.1 he with ⟨-, -, fp', -, rfl, hev⟩ | ⟨hs, -, -, rfl, hev⟩
    · exact ⟨Or.inl rfl, _, _, hev⟩
    · exact ⟨Or.inl hs, _, _, hev⟩

theorem succeedNode_leaves {summary : String} {fp : Option String} {outputs : References}
    (hv : Instantiates v run.nodes)
    (hbegun : ∀ n, run.node? i = some n → n.status.Begun → 0 < n.attemptCount) :
    Leaves run (succeedNode v i summary fp outputs call) run ↔
      ¬SpoilsSucceed v run i summary fp outputs call := by
  simp only [succeedNode, leaves_get_bind, leaves_lift_bind, leaves_check_bind, node_ok,
    leaves_read_bind reads_succeedReplay, succeedReplay_ok, and_true]
  have hcount (n : WorkflowNodeRun) (hn : run.node? i = some n)
      (h : n.status.Active ∨ n.status = .succeeded) : 0 < n.attemptCount :=
    hbegun n hn (h.imp_right Or.inr)
  constructor
  · rintro h ⟨n, hn, ⟨d, hd, hdeclared, hrefs⟩, hbad⟩
    have hreplay (hs : n.status = .succeeded → RepeatsUnlogged run i summary fp outputs n) :
        Leaves run _ run :=
      h n hn d hd hdeclared () (forEach_ok.2 hrefs) none ⟨fun hst =>
        ⟨(hs hst).2.1, (hs hst).2.2.1⟩, by
          split_ifs with hst
          · exact (hs hst).2.2.2.symm
          · rfl⟩
    rw [leaves_reported hv hn (hcount n hn) hrefs] at hreplay
    rcases hbad with ⟨hact, hbad⟩ | ⟨hrep, hbad⟩
    · exact hreplay (fun hs => absurd hs (not_succeeded_of_active hact))
        (Or.inl ⟨hact, hbad⟩)
    · exact hreplay (fun _ => hrep) (Or.inr ⟨⟨hrep.1, hrep.2.1⟩, hbad⟩)
  · intro h n hn d hd hdeclared _ hrefs r hr
    have hrefs := forEach_ok.1 hrefs
    obtain ⟨hsame, rfl⟩ := hr
    cases hlog : (if n.status = .succeeded then run.findLatestNodeEvent i .nodeSucceeded
        else none) with
    | some e₀ => exact leaves_pure
    | none =>
      refine (leaves_reported hv hn (hcount n hn) hrefs).2 fun hbad => h ⟨n, hn, ⟨d, hd, hdeclared,
        hrefs⟩, ?_⟩
      apply hbad.imp_right
      rintro ⟨⟨hs, hfacts⟩, hrest⟩
      refine ⟨⟨hs, hfacts, (hsame hs).2, ?_⟩, hrest⟩
      rwa [if_pos hs] at hlog

/-- The last confirmation ends the run, and logs that under the command id. -/
def SpoilsConfirm (run : WorkflowRun) (i : String) (call : Call) : Prop :=
  ∃ n, run.node? i = some n ∧
    (n.status = .cancelRequested ∧ call.now.tzAware = false ∨
      (n.status = .cancelRequested ∨ n.status = .cancelled) ∧ call.now.tzAware = true ∧
        run.status = .cancelRequested ∧ Others run i WorkflowNodeStatus.Closed ∧ BlankId run call)

theorem leaves_confirmed {ty : WorkflowEventType} {m : EventMetadata} {e : WorkflowEvent}
    (hs : n'.status = .cancelled)
    (he : nodeEvent n' ty (run.occasion call ":confirm") m = .ok e) :
    Leaves run (do
      appendExisting call e
      let run ← get
      if run.status = .cancelRequested ∧ ∀ n ∈ run.nodes, n.status.Closed then
        modify fun r => { r with status := .cancelled }
        appendEvent call call.commandId .runCancelled {}
      touch call "Run 取消确认时间"
      pure e) (run.put i n') ↔
      ¬(run.status = .cancelRequested ∧ Others run i WorkflowNodeStatus.Closed ∧
        BlankId run call) := by
  have hclosed : n'.status.Closed := Or.inl hs
  have hsuffix : ":confirm" ≠ "" := by decide
  have hid : BlankId ((run.put i n').recordNode call ":confirm" n' ty m) call ↔ BlankId run call :=
    blankId_recordNode hsuffix
  have hall : (∀ n ∈ ((run.put i n').recordNode call ":confirm" n' ty m).nodes,
      n.status.Closed) ↔ Others run i WorkflowNodeStatus.Closed := forall_put hclosed
  rw [leaves_appendExisting_bind he, leaves_get_bind]
  by_cases hbad : run.status = .cancelRequested ∧ Others run i WorkflowNodeStatus.Closed ∧
      BlankId run call
  · refine iff_of_false (fun h => ?_) (not_not.2 hbad)
    rw [if_pos ⟨hbad.1, hall.2 hbad.2.1⟩, leaves_modify_bind] at h
    have hblank : BlankId (((run.put i n').recordNode call ":confirm" n' ty m).withStatus
        .cancelled) call := hid.2 hbad.2.2
    obtain ⟨e', he'⟩ := appendEvent_blank .runCancelled {} hblank
    have hne := congrArg WorkflowRun.status (h e' _ (bind_error.2 (Or.inl he')))
    rw [hbad.1] at hne
    cases hne
  · refine iff_of_true ?_ hbad
    refine leaves_of_ok ((confirmTail_ok (WorkflowNodeRun.tzAware_of_nodeEvent he)).2
      ⟨fun hlast hfresh => ?_, rfl, rfl⟩)
    rw [← Bool.not_eq_true]
    exact fun hb => hbad ⟨hlast.1, hall.1 hlast.2, hid.1 ⟨hb, hfresh⟩⟩

/-- A confirmation leaves the node cancelled and returns its event. -/
theorem confirmed_event {o : Occasion} {e : WorkflowEvent}
    (h : WorkflowNodeRun.confirmCancel o n = .ok e n') :
    n'.status = .cancelled ∧ ∃ ty m, nodeEvent n' ty o m = .ok e := by
  rcases WorkflowNodeRun.confirmCancel_ok.1 h with ⟨hs, rfl, he⟩ | ⟨-, rfl, he⟩
  · exact ⟨hs, _, _, he⟩
  · exact ⟨rfl, _, _, he⟩

theorem confirmNodeCancel_leaves (hv : Instantiates v run.nodes)
    (hbegun : ∀ n, run.node? i = some n → n.status.Begun → 0 < n.attemptCount) :
    Leaves run (confirmNodeCancel i call) run ↔ ¬SpoilsConfirm run i call := by
  simp only [confirmNodeCancel]
  rw [leaves_get_bind]
  cases hn : run.node? i with
  | none =>
    apply iff_of_true (leaves_onNode_none hn)
    rintro ⟨n, hn', -⟩
    simp [hn] at hn'
  | some n =>
    have hid : isBlank (run.occasion call ":confirm").transitionId = false :=
      isBlank_append_right (by decide)
    have hvalid := hv.isIdentifier (mem_of_node? hn)
    have hcount (hs : n.status = .cancelRequested) : 0 < n.attemptCount :=
      hbegun n hn (Or.inr (Or.inl hs))
    have hreturns (n' : WorkflowNodeRun) := WorkflowNodeRun.confirmCancel_returns n' hvalid hid hcount
    rw [leaves_onNode_bind hv.nodup hn, WorkflowNodeRun.confirmCancel_leaves hvalid hid hcount]
    constructor
    · rintro ⟨hnaive, hend⟩ ⟨n₁, hn₁, hbad⟩
      obtain rfl : n = n₁ := Option.some.inj (hn.symm.trans hn₁)
      rcases hbad with hbad | ⟨hs, hz, hlast⟩
      · exact hnaive hbad
      · obtain ⟨n', e, hm⟩ : ∃ n' e, WorkflowNodeRun.confirmCancel
            (run.occasion call ":confirm") n = .ok e n' := by
          rcases hs with hs | hs
          · exact ⟨_, (hreturns _).2 ⟨hz, Or.inr ⟨hs, rfl⟩⟩⟩
          · exact ⟨n, (hreturns n).2 ⟨hz, Or.inl ⟨hs, rfl⟩⟩⟩
        obtain ⟨hcancelled, ty, md, he⟩ := confirmed_event hm
        exact (leaves_confirmed hcancelled he).1 (hend e n' hm) hlast
    · intro h
      refine ⟨fun hbad => h ⟨n, hn, Or.inl hbad⟩, ?_⟩
      intro e n' hm
      obtain ⟨hcancelled, ty, md, he⟩ := confirmed_event hm
      apply (leaves_confirmed hcancelled he).2
      intro hlast
      obtain ⟨hz, hs⟩ := (hreturns n').1 ⟨e, hm⟩
      refine h ⟨n, hn, Or.inr ⟨?_, hz, hlast⟩⟩
      rcases hs with ⟨hs, -⟩ | ⟨hs, -⟩
      · exact Or.inr hs
      · exact Or.inl hs

/-! ### The cancellation of a run -/

/-- The node can be asked to stop. -/
def Stoppable (run : WorkflowRun) (i : String) : Prop :=
  ∃ n, run.node? i = some n ∧ isIdentifier n.nodeId = true ∧
    (n.status.Active → 0 < n.attemptCount)

theorem requestCancel_returns {o : Occasion} (hn : isIdentifier n.nodeId = true)
    (hid : isBlank o.transitionId = false) (hz : o.now.tzAware = true)
    (hcount : n.status.Active → 0 < n.attemptCount) (hc : n.status.Cancellable) :
    ∃ e ty m, WorkflowNodeRun.requestCancel o n = .ok e (n.cancelRequestedAt o.now) ∧
      nodeEvent (n.cancelRequestedAt o.now) ty o m = .ok e := by
  have hvalid : isIdentifier (n.cancelRequestedAt o.now).nodeId = true := hn
  rcases hc with hq | hact
  · obtain ⟨e, he⟩ : ∃ e, nodeEvent (n.cancelRequestedAt o.now) .nodeCancelled o
        { cancelMode := some "queued" } = .ok e := by
      apply (WorkflowNodeRun.exists_nodeEvent hid ?_).2 hz
      simpa [checkMetadata, EventMetadata.keys, eventMetadataFields] using
        isIdentifier_strip hvalid
    exact ⟨e, _, _, WorkflowNodeRun.requestCancel_ok.2 (Or.inr ⟨hq, rfl, he⟩), he⟩
  · obtain ⟨e, he⟩ : ∃ e, nodeEvent (n.cancelRequestedAt o.now) .nodeCancelRequested o
        { attemptNumber := some n.attemptCount } = .ok e := by
      apply (WorkflowNodeRun.exists_nodeEvent hid ?_).2 hz
      simpa [checkMetadata, EventMetadata.keys, eventMetadataFields, hcount hact] using
        isIdentifier_strip hvalid
    exact ⟨e, _, _, WorkflowNodeRun.requestCancel_ok.2 (Or.inl ⟨hact, rfl, he⟩), he⟩

theorem stoppable_put {j : String} (hn : run.node? i = some n)
    (hactive : ¬n'.status.Active) (hn' : n'.nodeId = n.nodeId) (h : Stoppable run j) :
    Stoppable (run.put i n') j := by
  obtain ⟨m, hm, hvalid, hcount⟩ := h
  have hput := node?_put (i := j) (hn'.trans (nodeId_of_node? hn)) hn
  by_cases hj : j = i
  · subst hj
    obtain rfl : n = m := Option.some.inj (hn.symm.trans hm)
    rw [if_pos rfl] at hput
    exact ⟨n', hput, hn' ▸ hvalid, fun h => absurd h hactive⟩
  · rw [if_neg hj] at hput
    exact ⟨m, hput.trans hm, hvalid, hcount⟩

/-- No node refuses to stop. -/
theorem cancelNodes_returns (hz : call.now.tzAware = true) {ids : List String}
    (h : ∀ j ∈ ids, Stoppable run j) : ∃ run', cancelNodes call ids run = .ok () run' := by
  induction ids generalizing run with
  | nil => exact ⟨run, rfl⟩
  | cons i ids ih =>
    obtain ⟨n, hn, hvalid, hcount⟩ := h i List.mem_cons_self
    have hrest : ∀ j ∈ ids, Stoppable run j := fun j hj => h j (List.mem_cons_of_mem i hj)
    simp only [cancelNodes, bind_ok, get_ok, lift_ok, node_ok, exists_eq_left, exists_and_left,
      and_assoc]
    by_cases hc : n.status.Cancellable
    · have hid : isBlank (run.occasion call (":" ++ i ++ ":cancel")).transitionId = false :=
        isBlank_append_right (isBlank_append_right (by decide))
      obtain ⟨e, ty, m, hm, he⟩ := requestCancel_returns hvalid hid hz hcount hc
      have hactive : ¬(n.cancelRequestedAt call.now).status.Active := by
        unfold WorkflowNodeRun.cancelRequestedAt
        split_ifs <;> intro hact <;> rcases hact with hact | hact <;> cases hact
      have hstopped (j : String) (hj : j ∈ ids) : Stoppable ((run.put i
          (n.cancelRequestedAt call.now)).recordNode call (":" ++ i ++ ":cancel")
          (n.cancelRequestedAt call.now) ty m) j := stoppable_put hn hactive rfl (hrest j hj)
      obtain ⟨run', hrun'⟩ := ih hstopped
      refine ⟨run', n, hn, ?_⟩
      simp only [if_pos hc, bind_ok, exists_unit]
      exact ⟨e, _, onNode_ok.2 ⟨n, _, hn, hm, rfl⟩, _, (appendExisting_ok he).2 rfl, hrun'⟩
    · obtain ⟨run', hrun'⟩ := ih hrest
      refine ⟨run', n, hn, ?_⟩
      rwa [if_neg hc]

theorem requestCancel_leaves (hv : Instantiates v run.nodes)
    (hbegun : ∀ n ∈ run.nodes, n.status.Begun → 0 < n.attemptCount) :
    Leaves run (requestCancel call) run ↔
      ¬((¬run.status.Terminal ∧ run.status ≠ .cancelRequested) ∧ call.now.tzAware = false) := by
  simp only [requestCancel]
  rw [leaves_get_bind, leaves_check_bind]
  by_cases hcr : run.status = .cancelRequested
  · rw [if_pos hcr]
    exact iff_of_true (fun _ => leaves_pure) fun h => h.1.2 hcr
  · rw [if_neg hcr, and_iff_left hcr]
    apply WorkflowNodeRun.imp_iff_not_naive
    intro _
    have hne : run.withStatus .cancelRequested ≠ run :=
      fun h => hcr (congrArg WorkflowRun.status h).symm
    rw [leaves_modify_bind]
    refine (leaves_lift_bind_of_ne hne).trans ?_
    simp only [utc_ok]
    constructor
    · rintro ⟨_, ⟨hz, -⟩, -⟩
      exact hz
    · intro hz
      refine ⟨_, ⟨hz, rfl⟩, ?_⟩
      have hstop : ∀ j ∈ run.nodes.map WorkflowNodeRun.nodeId,
          Stoppable (run.cancelStarted call) j := by
        intro j hj
        obtain ⟨n, hn⟩ := node?_of_mem hv (hv.mem_nodeIds.1 hj)
        have hmem := mem_of_node? hn
        exact ⟨n, hn, hv.isIdentifier hmem, fun hact => hbegun n hmem (Or.inl hact)⟩
      obtain ⟨run', hrun'⟩ := cancelNodes_returns hz hstop
      rw [leaves_modify_bind, leaves_appendEvent_bind (by decide) (by decide) hz]
      refine (leaves_bind_of_ok hrun').2 ?_
      rw [leaves_get_bind]
      split_ifs
      · rw [leaves_modify_bind, leaves_appendEvent_bind (by decide) (by decide) hz]
        exact leaves_touch hz
      · exact leaves_touch hz

/-! ## All commands -/

/-- The command passes its checks, writes, and raises then. -/
def Spoils (v : WorkflowVersion) (run : WorkflowRun) (r : Request) : Prop :=
  match r.command with
  | .startNode i => ¬run.status.Shut ∧ run.Ready v i ∧ r.call.now.tzAware = false
  | .succeedNode i summary fp outputs => SpoilsSucceed v run i summary fp outputs r.call
  | .acceptNode i reference => ¬run.status.Shut ∧ ∃ n, run.node? i = some n ∧
      (n.status = .running ∧ WorkflowNodeRun.GoodReference reference) ∧ r.call.now.tzAware = false
  | .rejectNodeInput i code => ¬run.status.Shut ∧ ∃ n, run.node? i = some n ∧
      (n.status = .queued ∧ WorkflowNodeRun.GoodCode code) ∧ r.call.now.tzAware = false
  | .failNode i code _ => ∃ n, run.node? i = some n ∧
      (n.status.Active ∧ WorkflowNodeRun.GoodCode code) ∧ r.call.now.tzAware = false
  | .skipNode i reason => SpoilsSkip run i reason r.call
  | .requestCancel =>
    (¬run.status.Terminal ∧ run.status ≠ .cancelRequested) ∧ r.call.now.tzAware = false
  | .confirmNodeCancel i => SpoilsConfirm run i r.call

theorem execute_leaves {r : Request} (h : History v run) :
    Leaves run (execute v r) run ↔ ¬Spoils v run r := by
  have hv := instantiates_of_history h
  have hbegun (n : WorkflowNodeRun) (hn : n ∈ run.nodes) (hs : n.status.Begun) :
      0 < n.attemptCount := attempted_of_history h hn hs
  have hattempted (i : String) (n : WorkflowNodeRun) (hn : run.node? i = some n) :=
    hbegun n (mem_of_node? hn)
  obtain ⟨command, call⟩ := r
  cases command with
  | startNode i =>
    refine leaves_discard.trans (startNode_leaves hv fun hready => ?_)
    obtain ⟨n, hn, hq, -⟩ := (ready_iff hv).1 hready
    exact ⟨n, hn, hq, attempts_left_of_history h (mem_of_node? hn) hq⟩
  | succeedNode i summary fp outputs =>
    exact leaves_discard.trans (succeedNode_leaves hv (hattempted i))
  | acceptNode i reference => exact leaves_discard.trans (acceptNode_leaves hv (hattempted i))
  | rejectNodeInput i code => exact leaves_discard.trans (rejectNodeInput_leaves hv)
  | failNode i code retryable => exact leaves_discard.trans (failNode_leaves hv (hattempted i))
  | skipNode i reason => exact leaves_discard.trans (skipNode_leaves hv)
  | requestCancel => exact requestCancel_leaves hv hbegun
  | confirmNodeCancel i => exact leaves_discard.trans (confirmNodeCancel_leaves hv (hattempted i))

/-- A command is issued: the run accepts it, or is left as the error leaves it. -/
def Issues (v : WorkflowVersion) (run : WorkflowRun) (r : Request) (run' : WorkflowRun) : Prop :=
  Step v run r run' ∨ ∃ e, execute v r run = .error e run'

/-- **A refused command changes nothing**, unless it passes its checks and finds its time naive,
the summary or the fingerprint of its report bad, or its command id blank at the end of the run. This
holds in every run of commands, accepted or refused, in which none spoiled the run before. -/
theorem refusal_changes_nothing {rs : List Request} (h₀ : Created v run₀)
    (h : Steps (Guarded (Issues v) fun run r => ¬Spoils v run r) run₀ rs run) (r : Request) :
    (∀ e run', execute v r run = .error e run' → run' = run) ↔ ¬Spoils v run r := by
  have hhist : History v run := by
    refine Steps.invariant (P := History v) ?_ h ⟨run₀, [], h₀, .nil _⟩
    rintro run r run' hrun ⟨hr | ⟨e, he⟩, hgood⟩
    · exact hrun.next hr
    · rw [(execute_leaves hrun).2 hgood e run' he]
      exact hrun
  exact execute_leaves hhist

def startedChain : WorkflowRun :=
  (play chain [⟨.startNode "a", callAt 1 "s1"⟩] newChain).get (by decide +kernel)

theorem startedChain_step : Step chain newChain ⟨.startNode "a", callAt 1 "s1"⟩ startedChain :=
  step_of_play (Option.some_get _).symm

/-- The node that is running cannot be started. -/
def startAgain : Request := ⟨.startNode "a", callAt 2 "s2"⟩

/-- The run that a refused command leaves. -/
def leftBy (v : WorkflowVersion) (r : Request) (run : WorkflowRun) : Option WorkflowRun :=
  match execute v r run with
  | .ok _ _ => none
  | .error _ run' => some run'

theorem startAgain_refused : (leftBy chain startAgain startedChain).isSome = true := by
  decide +kernel

theorem refusal_changes_nothing_started :
    leftBy chain startAgain startedChain = some startedChain := by
  have hkeeps := (refusal_changes_nothing newChain_created
    (.single ⟨Or.inl startedChain_step, fun h => by
      have hz : (callAt 1 "s1").now.tzAware = false := h.2.2
      cases hz⟩) startAgain).2 fun h => by
        have hz : (callAt 2 "s2").now.tzAware = false := h.2.2
        cases hz
  have hrefused := startAgain_refused
  unfold leftBy at hrefused ⊢
  cases h : execute chain startAgain startedChain with
  | ok u run' =>
    rw [h] at hrefused
    exact absurd hrefused Bool.false_ne_true
  | error e run' => exact congrArg some (hkeeps e run' h)

/-- A success report without a summary. -/
def blankReport : Request := ⟨.succeedNode "a" " " none [("x", "ref")], callAt 2 "s2"⟩

theorem blankReport_spoils : (startedChain.node? "a").map WorkflowNodeRun.status = some .running ∧
    (leftBy chain blankReport startedChain).map (fun run =>
      (run.node? "a").map WorkflowNodeRun.status) = some (some .succeeded) := by
  decide +kernel

/-- A success report without a summary is refused, and leaves its node succeeded. -/
theorem refusal_changes_node : ¬∀ v run, History v run →
    ∀ r e run', execute v r run = .error e run' → run' = run := by
  intro hall
  obtain ⟨hrunning, hspoils⟩ := blankReport_spoils
  cases h : execute chain blankReport startedChain with
  | ok u run' => simp [leftBy, h] at hspoils
  | error e run' =>
    have hhist : History chain startedChain := ⟨newChain, _, newChain_created, .single startedChain_step⟩
    have heq := hall chain startedChain hhist blankReport e run' h
    simp [leftBy, h, heq, hrunning] at hspoils

end GoAgent.Workflow
