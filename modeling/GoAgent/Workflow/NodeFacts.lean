import GoAgent.Workflow.Pending

/-!
# The recorded facts of a node

A node may start, be accepted, fail and start again before it comes to rest, and each transition
sets or clears some of the facts it records. `FactsAgree` says which facts go with which status.
Every transition keeps it but one: a success does not clear the failure code that a retried
attempt has left behind.

* `factsAgree_of_move` — what one move does to the facts of a node.
* `facts_agree_of_history` — the facts agree in every run in which no success is reported for a
  node with a failure code; and such a report is exactly what makes them differ.
-/

namespace GoAgent.Workflow

open GoAgent.Foundation WorkflowRun

variable {v : WorkflowVersion} {run run' : WorkflowRun} {r : Request} {c : WorkflowCommand}
  {call : Call} {i : String} {n n' : WorkflowNodeRun} {now : DateTime} {ready : String → Prop}

/-- The facts a node records agree with its status. -/
structure WorkflowNodeRun.FactsAgree (n : WorkflowNodeRun) : Prop where
  succeeded : n.status = .succeeded →
    n.resultSummary.isSome ∧ n.failureCode = none ∧ n.executionReference = none
  accepted : n.status = .accepted → n.executionReference.isSome
  failed : n.status = .failed → n.failureCode.isSome
  waiting : n.status = .queued ∨ n.status = .running →
    n.executionReference = none ∧ n.resultSummary = none

/-- An accepted node has no result yet. -/
def WorkflowNodeRun.Resultless (n : WorkflowNodeRun) : Prop :=
  n.status = .accepted → n.resultSummary = none

theorem resultless_of_active (hf : n.FactsAgree) (hr : n.Resultless) (h : n.status.Active) :
    n.resultSummary = none := by
  rcases h with h | h
  · exact (hf.waiting (Or.inr h)).2
  · exact hr h

/-- The node succeeds with the failure code of an earlier attempt. -/
def SucceedsTainted (n n' : WorkflowNodeRun) : Prop :=
  n.status.Active ∧ n'.status = .succeeded ∧ n.failureCode ≠ none

theorem factsAgree_succeeded {summary : String} {fp : Option String}
    (h : n.failureCode = none) : (n.succeededWith summary fp now).FactsAgree :=
  { succeeded := fun _ => ⟨rfl, h, rfl⟩, accepted := fun h => (by cases h),
    failed := fun h => (by cases h), waiting := fun h => by rcases h with h | h <;> cases h }

theorem factsAgree_failed {code : String} {retryable : Bool} (hf : n.FactsAgree)
    (hr : n.Resultless) (hact : n.status.Active) :
    (n.failedWith code retryable now).FactsAgree := by
  have hcases : (n.failedWith code retryable now).status = .queued ∨
      (n.failedWith code retryable now).status = .failed := by
    simp only [WorkflowNodeRun.failedWith]
    split_ifs
    · exact Or.inl rfl
    · exact Or.inr rfl
  have hnone := resultless_of_active hf hr hact
  refine ⟨fun h => ?_, fun h => ?_, fun _ => rfl, fun _ => ⟨rfl, hnone⟩⟩
  · rw [h] at hcases
    exact absurd hcases (by decide)
  · rw [h] at hcases
    exact absurd hcases (by decide)

theorem factsAgree_cancelled (h : n.status = .cancelRequested ∨ n.status = .cancelled) :
    n.FactsAgree := by
  constructor <;> intro hs
  · rcases h with h | h <;> rw [h] at hs <;> cases hs
  · rcases h with h | h <;> rw [h] at hs <;> cases hs
  · rcases h with h | h <;> rw [h] at hs <;> cases hs
  · rcases h with h | h <;> rw [h] at hs <;> exact absurd hs (by decide)

theorem cancelRequestedAt_status (n : WorkflowNodeRun) (now : DateTime) :
    (n.cancelRequestedAt now).status = .cancelRequested ∨
    (n.cancelRequestedAt now).status = .cancelled := by
  unfold WorkflowNodeRun.cancelRequestedAt
  split_ifs
  · exact Or.inl rfl
  · exact Or.inr rfl

/-- **One move keeps the facts of a node in agreement exactly when it is not a tainted success.** -/
theorem factsAgree_of_move (hf : n.FactsAgree) (hr : n.Resultless) (h : NodeMove ready now n n') :
    n'.FactsAgree ↔ ¬SucceedsTainted n n' := by
  constructor
  · rintro ha ⟨hact, hs, hcode⟩
    cases h with
    | stay =>
      rw [hs] at hact
      exact absurd hact (by decide)
    | succeed => exact hcode (ha.succeeded hs).2.1
    | fail =>
      simp only [WorkflowNodeRun.failedWith] at hs
      split_ifs at hs
    | cancel =>
      rcases cancelRequestedAt_status n now with h | h <;> rw [h] at hs <;> cases hs
    | start | accept | reject | skip | confirm => cases hs
  · intro hno
    cases h with
    | stay => exact hf
    | start _ hq =>
      exact { succeeded := fun h => (by cases h), accepted := fun h => (by cases h),
              failed := fun h => (by cases h), waiting := fun _ => hf.waiting (Or.inl hq) }
    | accept =>
      exact { succeeded := fun h => (by cases h), accepted := fun _ => rfl,
              failed := fun h => (by cases h), waiting := fun h => by rcases h with h | h <;> cases h }
    | succeed hact =>
      apply factsAgree_succeeded
      by_contra hcode
      exact hno ⟨hact, rfl, hcode⟩
    | reject =>
      exact { succeeded := fun h => (by cases h), accepted := fun h => (by cases h),
              failed := fun _ => rfl, waiting := fun h => by rcases h with h | h <;> cases h }
    | fail hact => exact factsAgree_failed hf hr hact
    | skip =>
      exact { succeeded := fun h => (by cases h), accepted := fun h => (by cases h),
              failed := fun h => (by cases h),
              waiting := fun h => by rcases h with h | h <;> cases h }
    | cancel => exact factsAgree_cancelled (cancelRequestedAt_status _ _)
    | confirm => exact factsAgree_cancelled (Or.inr rfl)

theorem resultless_of_move (hf : n.FactsAgree) (hr : n.Resultless) (h : NodeMove ready now n n') :
    n'.Resultless := by
  intro ha
  cases h with
  | stay => exact hr ha
  | accept hrun => exact (hf.waiting (Or.inr hrun)).2
  | fail =>
    simp only [WorkflowNodeRun.failedWith] at ha
    split_ifs at ha
  | cancel =>
    rcases cancelRequestedAt_status n now with h | h <;> rw [h] at ha <;> cases ha
  | start | succeed | reject | skip | confirm => cases ha

/-! ## Runs -/

/-- The facts of every node agree with its status. -/
def WorkflowRun.FactsAgree (run : WorkflowRun) : Prop :=
  ∀ n ∈ run.nodes, n.FactsAgree

/-- The command reports the success of a node at work that shows the failure of an earlier
attempt. -/
def WorkflowRun.Taints (run : WorkflowRun) (c : WorkflowCommand) : Prop :=
  match c with
  | .succeedNode nodeId _ _ _ =>
    ∃ n, run.node? nodeId = some n ∧ n.status.Active ∧ n.failureCode ≠ none
  | _ => False

/-- A node succeeds tainted exactly by such commands. -/
theorem taints_iff (he : Effect v call run c run') : run.Taints c ↔
    ∃ i n n', run.node? i = some n ∧ run'.node? i = some n' ∧ SucceedsTainted n n' := by
  constructor
  · intro h
    cases he with
    | @succeed nodeId summary _ fp' _ n _ hn =>
      obtain ⟨m, hm, hact, hcode⟩ := h
      obtain rfl := Option.some.inj (hn.symm.trans hm)
      refine ⟨nodeId, n, n.succeededWith (strip summary) fp' call.now, hn, ?_, hact, rfl, hcode⟩
      rw [refreshed_node?, recordNode_node?]
      exact node?_put_self hn (nodeId_of_node? hn :)
    | succeedLogged hn hs | succeedUnlogged hn hs =>
      obtain ⟨m, hm, hact, -⟩ := h
      obtain rfl := Option.some.inj (hn.symm.trans hm)
      rw [hs] at hact
      exact absurd hact (by decide)
    | _ => exact h.elim
  · rintro ⟨i, n, n', hn, hn', hact, hs, hcode⟩
    rcases gives_of_effect he hn hn' with rfl | hg
    · rw [hs] at hact
      exact absurd hact (by decide)
    · rw [hs] at hg
      cases c with
      | succeedNode nodeId =>
        obtain ⟨rfl, -⟩ := hg
        exact ⟨n, by rwa [nodeId_of_node? hn], hact, hcode⟩
      | failNode _ _ retryable =>
        have hg := hg.2
        split_ifs at hg
      | requestCancel =>
        have hg : WorkflowNodeStatus.succeeded =
          if n.status.Active then .cancelRequested else .cancelled := hg
        split_ifs at hg
      | _ => cases hg.2

/-- A command keeps the facts in agreement exactly when it is not such a report. -/
theorem factsAgree_of_effect (hv : Instantiates v run.nodes) (he : Effect v call run c run')
    (hf : run.FactsAgree) (hr : ∀ n ∈ run.nodes, n.Resultless) :
    (run'.FactsAgree ↔ ¬run.Taints c) ∧ ∀ n ∈ run'.nodes, n.Resultless := by
  have hv' := instantiates_of_effect hv he
  have hmoves : ∀ {i n'}, run'.node? i = some n' → ∃ n, run.node? i = some n ∧ n.FactsAgree ∧
      n.Resultless ∧ NodeMove (run.Ready v) call.now n n' := by
    intro i n' hn'
    obtain ⟨n, hn⟩ : ∃ n, run.node? i = some n := by
      apply Option.isSome_iff_exists.1
      apply lookup_isSome_iff.2
      rw [hv.mem_nodeIds, ← hv'.mem_nodeIds, ← nodeId_of_node? hn']
      exact List.mem_map_of_mem (mem_of_node? hn')
    obtain ⟨m, hm, hmove⟩ := nodeMove_of_effect he hn
    obtain rfl := Option.some.inj (hm.symm.trans hn')
    exact ⟨n, hn, hf n (mem_of_node? hn), hr n (mem_of_node? hn), hmove⟩
  rw [taints_iff he, WorkflowRun.FactsAgree, forall_mem_iff_lookup (P := fun n => n.FactsAgree)
    hv'.nodup, forall_mem_iff_lookup (P := fun n => n.Resultless) hv'.nodup]
  refine ⟨⟨?_, ?_⟩, ?_⟩
  · rintro hall ⟨i, n, n', hn, hn', ht⟩
    obtain ⟨m, hm, hmf, hmr, hmove⟩ := hmoves hn'
    obtain rfl := Option.some.inj (hm.symm.trans hn)
    exact (factsAgree_of_move hmf hmr hmove).1 (hall i n' hn') ht
  · intro hno i n' hn'
    obtain ⟨n, hn, hnf, hnr, hmove⟩ := hmoves hn'
    exact (factsAgree_of_move hnf hnr hmove).2 fun ht => hno ⟨i, n, n', hn, hn', ht⟩
  · intro i n' hn'
    obtain ⟨n, hn, hnf, hnr, hmove⟩ := hmoves hn'
    exact resultless_of_move hnf hnr hmove

/-- **The facts of every node agree with its status** in every run without a tainted success; and
such a report is exactly what makes them differ. -/
theorem facts_agree_of_history
    (h : Reachable (Created v) (Guarded (Step v) fun run r => ¬run.Taints r.command) run) :
    (∀ n ∈ run.nodes, n.FactsAgree) ∧
    ∀ r run', Step v run r run' → ((∀ n ∈ run'.nodes, n.FactsAgree) ↔ ¬run.Taints r.command) := by
  have hinv : Instantiates v run.nodes ∧ run.FactsAgree ∧ ∀ n ∈ run.nodes, n.Resultless := by
    refine h.invariant (P := fun run => Instantiates v run.nodes ∧ run.FactsAgree ∧
      ∀ n ∈ run.nodes, n.Resultless) ?_ ?_
    · intro run hc
      obtain ⟨hv, -, hnodes, -⟩ := created_spec hc
      refine ⟨hv, fun n hn => ?_, fun n hn => ?_⟩ <;> obtain ⟨_, _, _, rfl⟩ := hnodes n hn
      · exact ⟨nofun, nofun, nofun, fun _ => ⟨rfl, rfl⟩⟩
      · exact nofun
    · rintro run r run' ⟨hv, hf, hr⟩ ⟨hs, hno⟩
      have he := effect_of_execute hv hs
      obtain ⟨hf', hr'⟩ := factsAgree_of_effect hv he hf hr
      exact ⟨instantiates_of_effect hv he, hf'.2 hno, hr'⟩
  refine ⟨hinv.2.1, fun r run' hs => ?_⟩
  exact (factsAgree_of_effect hinv.1 (effect_of_execute hinv.1 hs) hinv.2.1 hinv.2.2).1

theorem facts_agree_of_history_pending : (∃ n ∈ pendingRun.nodes, n.status = .accepted) ∧
    ∀ n ∈ pendingRun.nodes, n.FactsAgree := by
  have hplay : playNew retrying handedOver = some pendingRun := (Option.some_get _).symm
  obtain ⟨run₀, hc, hsteps⟩ := run_of_playNew hplay
  have hgood : ∀ r ∈ handedOver, ∀ run, ¬WorkflowRun.Taints run r.command := by
    intro r hr run
    simp only [handedOver, List.mem_cons, List.not_mem_nil, or_false] at hr
    rcases hr with rfl | rfl <;> exact fun h => h
  have hguarded : Steps (Guarded (Step retrying) fun run r => ¬run.Taints r.command) run₀
      handedOver pendingRun :=
    (hsteps.guarded hgood).mono fun h => ⟨h.1, h.2 _⟩
  exact ⟨by decide +kernel, (facts_agree_of_history ⟨run₀, handedOver, hc, hguarded⟩).1⟩

/-- The node succeeds at its second attempt. -/
def retriedRun : WorkflowRun :=
  (playNew retrying [⟨.startNode "a", callAt 1 "s1"⟩, ⟨.failNode "a" "BUSY" true, callAt 2 "s2"⟩,
    ⟨.startNode "a", callAt 3 "s3"⟩, ⟨.succeedNode "a" "done" none [], callAt 4 "s4"⟩]).get
    (by decide +kernel)

theorem facts_disagree_after_retry : ¬∀ (v : WorkflowVersion) (run : WorkflowRun), History v run →
    ∀ n ∈ run.nodes, n.FactsAgree := fun h => by
  have hnode : ∃ n ∈ retriedRun.nodes, n.status = .succeeded ∧ n.failureCode ≠ none := by
    decide +kernel
  obtain ⟨n, hn, hs, hcode⟩ := hnode
  exact hcode ((h retrying retriedRun (history_of_playNew (Option.some_get _).symm) n hn).succeeded
    hs).2.1

end GoAgent.Workflow
