import GoAgent.Workflow.Readiness
import GoAgent.Workflow.Transactions

/-!
# Attempts

The application invokes an executor only after it has started the node and saved the run, so the
attempt count of a stored node is the number of its invocations (`Counted`): a start raises both,
and nothing else does (`attempts_of_effect`).

* `executions_of_attempts` — the invocations of a node are its attempts, which stay within its
  maximum, and a node that has come to an end is never started again.
-/

namespace GoAgent.Workflow

open GoAgent.Foundation WorkflowRun

variable {pg : Postgres} {registry : WorkflowDefinitionRegistry} {v : WorkflowVersion}
  {run run' : WorkflowRun} {r : Request} {c : WorkflowCommand} {call : Call} {i : String}
  {n n' : WorkflowNodeRun} {w w' : World} {now : DateTime} {ready : String → Prop}

/-- The statuses in which a node has come to its end. -/
def WorkflowNodeStatus.Ended (s : WorkflowNodeStatus) : Prop := s = .failed ∨ s.Closed

instance (s : WorkflowNodeStatus) : Decidable s.Ended := by
  unfold WorkflowNodeStatus.Ended; infer_instance

/-! ## Starts -/

/-- Only a start gives a node the status RUNNING. -/
theorem not_gives_running (hc : c.starts = []) : ¬c.Gives n .running := by
  intro hg
  cases c with
  | startNode => cases hc
  | succeedNode | acceptNode | rejectNodeInput | skipNode | confirmNodeCancel => exact nomatch hg.2
  | failNode _ _ retryable =>
    have hs := hg.2
    split_ifs at hs
  | requestCancel =>
    have hs : WorkflowNodeStatus.running = _ := hg
    split_ifs at hs

/-- **A start raises the attempts of its node by one, and no other command does.** -/
theorem attempts_of_effect (he : Effect v call run c run') (hn : run.node? i = some n)
    (hn' : run'.node? i = some n') : n'.attemptCount = n.attemptCount + c.starts.count i := by
  have hid := nodeId_of_node? hn
  obtain ⟨m, hm, hmove⟩ := nodeMove_of_effect he hn
  obtain rfl := Option.some.inj (hm.symm.trans hn')
  by_cases hc : c.starts = []
  · rw [hc, List.count_nil, Nat.add_zero]
    cases hmove with
    | start =>
      obtain hsame | hg := gives_of_effect he hn hn'
      · rw [hsame]
      · exact absurd hg (not_gives_running hc)
    | stay | accept | succeed | reject | fail | skip | cancel | confirm => rfl
  · cases he with
    | @start j m₀ _ _ _ _ hm₀ =>
      have hstarted : (m₀.started call.now).nodeId = j := (nodeId_of_node? hm₀ :)
      simp only [touched_node?, recordNode_node?, begun_node?] at hn'
      show _ = _ + [j].count i
      rw [node?_put hstarted hm₀] at hn'
      split_ifs at hn' with hij
      · subst hij
        obtain rfl := Option.some.inj (hm₀.symm.trans hn)
        obtain rfl := Option.some.inj hn'
        rw [List.count_singleton_self]
        rfl
      · obtain rfl := Option.some.inj (hn.symm.trans hn')
        rw [List.count_singleton, if_neg (by simpa using Ne.symm hij)]
        rfl
    | _ => exact absurd rfl hc

/-- A node that has come to an end stays as it is. -/
theorem NodeMove.eq_of_ended (h : NodeMove ready now n n') (hs : n.status.Ended) : n' = n := by
  obtain hf | hcanc | hcomplete := hs
  · exact h.eq_of_done (Or.inl hf)
  · cases h with
    | stay => rfl
    | start _ hq | accept hq | reject hq | skip hq | confirm hq =>
      rw [hcanc] at hq
      cases hq
    | succeed hact | fail hact | cancel hact =>
      rw [hcanc] at hact
      exact absurd hact (by decide)
  · exact h.eq_of_done (Or.inr hcomplete)

/-! ## Counting the invocations -/

/-- The attempts of every node are the invocations of executors for it. -/
def Counted (w : World) (run : WorkflowRun) : Prop :=
  ∀ n ∈ run.nodes, n.attemptCount = w.executions.count n.nodeId

/-- A node after a transaction, and the node it was before. -/
theorem Saves.node (h : Saves pg v w r run run' w') (hn' : n' ∈ run'.nodes) :
    ∃ n ∈ run.nodes, n.nodeId = n'.nodeId ∧ NodeMove (run.Ready v) r.call.now n n' ∧
      n'.attemptCount = n.attemptCount + r.command.starts.count n'.nodeId := by
  have he := effect_of_execute h.before.instantiates h.step
  have hself := lookup_of_mem h.after.instantiates.nodup hn'
  obtain ⟨n, hn⟩ := node?_of_mem (i := n'.nodeId) h.before.instantiates
    (h.after.instantiates.mem_nodeIds.1 (List.mem_map_of_mem hn'))
  obtain ⟨m, hm, hmove⟩ := nodeMove_of_effect he hn
  obtain rfl := Option.some.inj (hm.symm.trans hself)
  exact ⟨n, mem_of_node? hn, nodeId_of_node? hn, hmove, attempts_of_effect he hn hm⟩

theorem Counted.saves (h : Saves pg v w r run run' w') (hc : Counted w run) : Counted w' run' := by
  intro n' hn'
  obtain ⟨n, hn, hid, -, ha⟩ := h.node hn'
  rw [ha, hc n hn, hid, h.executions, List.count_append]

theorem Counted.reloaded (h : Counted w run) : Counted w (run.reloaded pg) :=
  fun n hn => h n (mem_orderBy.1 hn)

section

variable {V : Type} {values : InputValues V} {a : Action V} {as : List (Action V)}
  {s s' : System}

/-- A turn keeps the count and the nodes that have come to an end. -/
theorem counted_of_turn (hreg : registry.get v.workflowCode.1 v.version.1 = some v)
    (h : Serving pg v s run) (hc : Counted s.world run) (ht : Turn pg registry values s a s') :
    ∃ run', Serving pg v s' run' ∧ Counted s'.world run' ∧
      ∀ n ∈ run.nodes, n.status.Ended → n ∈ run'.nodes := by
  obtain ⟨run', hserving, ⟨hw, rfl⟩ | ⟨r, run₀, hrun₀, -, -, hsaves⟩⟩ := h.turn hreg ht
  · exact ⟨run', hserving, hw ▸ hc, fun n hn _ => hn⟩
  · have hmem : ∀ n, n ∈ run₀.nodes ↔ n ∈ run.nodes := fun n => by
      rcases hrun₀ with rfl | rfl
      · exact Iff.rfl
      · exact mem_orderBy
    refine ⟨run', hserving, Counted.saves hsaves fun n hn => hc n ((hmem n).1 hn),
      fun n hn hended => ?_⟩
    have hself := lookup_of_mem hsaves.before.instantiates.nodup ((hmem n).2 hn)
    obtain ⟨n', hn', hmove⟩ :=
      nodeMove_of_effect (effect_of_execute hsaves.before.instantiates hsaves.step) hself
    obtain rfl := hmove.eq_of_ended hended
    exact mem_of_node? hn'

theorem counted_of_turns (hreg : registry.get v.workflowCode.1 v.version.1 = some v)
    (h : Serving pg v s run) (hc : Counted s.world run)
    (hs : Steps (Turn pg registry values) s as s') :
    ∃ run', Serving pg v s' run' ∧ Counted s'.world run' ∧
      ∀ n ∈ run.nodes, n.status.Ended → n ∈ run'.nodes := by
  induction hs generalizing run with
  | nil => exact ⟨run, h, hc, fun _ hn _ => hn⟩
  | cons ht _ ih =>
    obtain ⟨run₁, h₁, hc₁, hkept₁⟩ := counted_of_turn hreg h hc ht
    obtain ⟨run', h', hc', hkept'⟩ := ih h₁ hc₁
    exact ⟨run', h', hc', fun n hn he => hkept' n (hkept₁ n hn he) he⟩

/-- The values of the statuses in which a node has come to its end. -/
def endedValues : List String := ["failed", "succeeded", "skipped", "cancelled"]

theorem mem_endedValues {st : WorkflowNodeStatus} : st.value ∈ endedValues ↔ st.Ended := by
  cases st <;> decide

/-- **Executions are attempts.** However calls follow each other and whatever executors do, the
stored attempt count of a node is the number of times an executor was invoked for it, which is at
most the node's maximum; and a node that has failed, succeeded, been skipped or been cancelled is
never started again. -/
theorem executions_of_attempts {s₀ : System}
    (hreg : registry.get v.workflowCode.1 v.version.1 = some v) (h₀ : Opened pg v s₀)
    (hs : Steps (Turn pg registry values) s₀ as s) :
    (∀ x ∈ s.world.rows.nodes, x.attemptCount = s.world.executions.count x.nodeId ∧
      s.world.executions.count x.nodeId ≤ x.maxAttempts) ∧
    ∀ x ∈ s.world.rows.nodes, x.status ∈ endedValues →
      ∀ {as' s'}, Steps (Turn pg registry values) s as' s' →
        s'.world.executions.count x.nodeId = s.world.executions.count x.nodeId := by
  obtain ⟨run₀, hcreated, hserving₀⟩ := h₀.serving
  have hcount₀ : Counted s₀.world run₀ := by
    intro n hn
    obtain ⟨now, id, d, rfl⟩ := (created_spec hcreated).2.2.1 n hn
    rw [h₀.executions]
    rfl
  obtain ⟨run, hserving, hcount, -⟩ := counted_of_turns hreg hserving₀ hcount₀ hs
  constructor
  · intro x hx
    obtain ⟨n, hn, rfl⟩ := hserving.mem_nodes.1 hx
    exact ⟨hcount n hn, (hcount n hn).symm.le.trans (hserving.holds.storable.nodes n hn).attempts⟩
  · intro x hx hended as' s' hs'
    obtain ⟨n, hn, rfl⟩ := hserving.mem_nodes.1 hx
    obtain ⟨run', -, hcount', hkept⟩ := counted_of_turns hreg hserving hcount hs'
    exact (hcount' n (hkept n hn (mem_endedValues.1 hended))).symm.trans (hcount n hn)

end

/-- Node `a` fails for good when its executor raises. -/
def raising : List (Tick → Action String) :=
  [.begin owner "a" (some []) "x", .resume none]

theorem executions_of_attempts_raising : ∃ s₀ s, opened parallel = some s₀ ∧
    script parallel 1 raising s₀ = some s ∧ s.world.executions = ["a"] ∧
    (∀ x ∈ s.world.rows.nodes, x.attemptCount = s.world.executions.count x.nodeId) ∧
    s.world.rows.nodes.map WorkflowNodeRunRecord.status = ["failed", "queued", "queued"] := by
  obtain ⟨s₀, h₀⟩ := Option.isSome_iff_exists.1 (by decide +kernel : (opened parallel).isSome = true)
  have hrun : ((opened parallel).bind (script parallel 1 raising)).any fun s =>
      s.world.executions = ["a"] ∧ s.world.rows.nodes.map WorkflowNodeRunRecord.status =
        ["failed", "queued", "queued"] := by decide +kernel
  rw [h₀, Option.bind_some, Option.any_eq_true] at hrun
  obtain ⟨s, hs, hfacts⟩ := hrun
  obtain ⟨hexec, hstatus⟩ := of_decide_eq_true hfacts
  have htick : ∀ f ∈ raising, ∀ tick, (f tick).tick = tick := by
    simp only [raising, List.mem_cons, List.not_mem_nil, or_false, forall_eq_or_imp, forall_eq]
    exact ⟨fun _ => rfl, fun _ => rfl⟩
  have hsteps := turns_of_script htick hs
  have hcount := (executions_of_attempts registry_single (opened_spec h₀) hsteps).1
  exact ⟨s₀, s, h₀, hs, hexec, fun x hx => (hcount x hx).1, hstatus⟩

end GoAgent.Workflow
