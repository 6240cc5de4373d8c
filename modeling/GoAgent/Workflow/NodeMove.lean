import GoAgent.Workflow.History

/-!
# How a node develops

`NodeMove` lists what one accepted command can do to one node run. Every node of a run makes
such a move at every command (`nodeMove_of_effect`), so what holds of a fresh node and survives
every move holds of every node in a history (`node_invariant`).
-/

namespace GoAgent.Workflow

open GoAgent.Foundation WorkflowRun

/-- `ready_nodes` names the node. -/
def WorkflowRun.Ready (run : WorkflowRun) (v : WorkflowVersion) (nodeId : String) : Prop :=
  ∃ ready, run.readyNodes v = .ok ready ∧ nodeId ∈ ready

/-- What one accepted command can do to a node run; only the nodes `ready` names are started. -/
inductive NodeMove (ready : String → Prop) (now : DateTime) :
    WorkflowNodeRun → WorkflowNodeRun → Prop
  | stay {n : WorkflowNodeRun} : NodeMove ready now n n
  | start {n : WorkflowNodeRun} (hready : ready n.nodeId) (hq : n.status = .queued)
      (ha : n.attemptCount < n.maxAttempts) : NodeMove ready now n (n.started now)
  | accept {n : WorkflowNodeRun} {reference : String} (hr : n.status = .running)
      (href : isSafeReference reference = true) : NodeMove ready now n (n.acceptedWith reference now)
  | succeed {n : WorkflowNodeRun} {summary : String} {fp : Option String}
      (hact : n.status.Active) (hfp : ∀ f, fp = some f → isSafeFingerprint f = true) :
      NodeMove ready now n (n.succeededWith summary fp now)
  | reject {n : WorkflowNodeRun} {code : String} (hq : n.status = .queued)
      (hcode : isSafeError code = true) : NodeMove ready now n (n.rejectedWith code now)
  | fail {n : WorkflowNodeRun} {code : String} {retryable : Bool} (hact : n.status.Active)
      (hcode : isSafeError code = true) : NodeMove ready now n (n.failedWith code retryable now)
  | skip {n : WorkflowNodeRun} {reason : String} (hq : n.status = .queued) :
      NodeMove ready now n (n.skippedWith reason now)
  | cancel {n : WorkflowNodeRun} (hc : n.status.Cancellable) :
      NodeMove ready now n (n.cancelRequestedAt now)
  | confirm {n : WorkflowNodeRun} (hc : n.status = .cancelRequested) :
      NodeMove ready now n (n.cancelledAt now)

variable {v : WorkflowVersion} {run run' : WorkflowRun} {r : Request} {c : WorkflowCommand}
  {call : Call} {i j : String} {n n' m m' : WorkflowNodeRun} {now : DateTime}
  {ready : String → Prop}

theorem nodeMove_put (hm : run.node? j = some m) (hid : m'.nodeId = m.nodeId)
    (hmove : NodeMove ready now m m') (hn : run.node? i = some n) :
    ∃ n', (run.put j m').node? i = some n' ∧ NodeMove ready now n n' := by
  rw [node?_put (hid.trans (nodeId_of_node? hm)) hm]
  by_cases hij : i = j
  · subst hij
    obtain rfl := Option.some.inj (hm.symm.trans hn)
    exact ⟨m', if_pos rfl, hmove⟩
  · exact ⟨n, by rw [if_neg hij, hn], .stay⟩

/-- **Every node makes a node move at every command.** -/
theorem nodeMove_of_effect (he : Effect v call run c run') (hn : run.node? i = some n) :
    ∃ n', run'.node? i = some n' ∧ NodeMove (run.Ready v) call.now n n' := by
  cases he with
  | acceptLogged | succeedLogged | cancelAgain => exact ⟨n, hn, .stay⟩
  | succeedUnlogged => exact ⟨n, by simpa using hn, .stay⟩
  | start _ hready hmem hm hq ha =>
    simp only [touched_node?, recordNode_node?, begun_node?]
    have hid := nodeId_of_node? hm
    exact nodeMove_put hm rfl (.start ⟨_, hready, hid ▸ hmem⟩ hq ha) hn
  | accept _ hm hm' =>
    simp only [touched_node?, record_node?, recordNode_node?, withStatus_node?]
    obtain ⟨hr, href, rfl⟩ | ⟨-, rfl, -⟩ := hm'
    · exact nodeMove_put hm rfl (.accept hr href) hn
    · exact nodeMove_put hm rfl .stay hn
  | succeed hm hact _ _ hfp =>
    simp only [recordNode_node?, refreshed_node?]
    exact nodeMove_put hm rfl (.succeed hact fun _ => safe_of_fingerprint hfp) hn
  | reject _ hm hq hcode =>
    simp only [touched_node?, recordNode_node?, failedWith_node?]
    exact nodeMove_put hm rfl (.reject hq hcode) hn
  | retry hm hact _ hcode =>
    simp only [touched_node?, recordNode_node?]
    exact nodeMove_put hm rfl (.fail hact hcode) hn
  | fail hm hact _ hcode =>
    simp only [touched_node?, recordNode_node?, failedWith_node?]
    exact nodeMove_put hm rfl (.fail hact hcode) hn
  | skip hm hm' =>
    simp only [recordNode_node?, refreshed_node?]
    obtain ⟨hq, rfl⟩ | ⟨-, rfl⟩ := hm'
    · exact nodeMove_put hm rfl (.skip hq) hn
    · exact nodeMove_put hm rfl .stay hn
  | cancel =>
    simp only [touched_node?, closed_node?, cancelEach_node?, cancelStarted_node?, hn,
      Option.map_some]
    by_cases hc : n.status.Cancellable
    · have hself : n.cancelledBy call = n.cancelRequestedAt call.now := if_pos hc
      rw [hself]
      split_ifs
      · exact ⟨_, rfl, .cancel hc⟩
      · exact ⟨_, rfl, .stay⟩
    · have hself : n.cancelledBy call = n := if_neg hc
      rw [hself, ite_self]
      exact ⟨_, rfl, .stay⟩
  | confirm hm hm' =>
    simp only [touched_node?, cancelSettled_node?, recordNode_node?]
    obtain ⟨hc, rfl⟩ | ⟨-, rfl⟩ := hm'
    · exact nodeMove_put hm rfl (.confirm hc) hn
    · exact nodeMove_put hm rfl .stay hn

/-- The status a command gives node `n` when it changes it. -/
def WorkflowCommand.Gives (c : WorkflowCommand) (n : WorkflowNodeRun) (s : WorkflowNodeStatus) :
    Prop :=
  match c with
  | .startNode nodeId => nodeId = n.nodeId ∧ s = .running
  | .succeedNode nodeId _ _ _ => nodeId = n.nodeId ∧ s = .succeeded
  | .acceptNode nodeId _ => nodeId = n.nodeId ∧ s = .accepted
  | .rejectNodeInput nodeId _ => nodeId = n.nodeId ∧ s = .failed
  | .failNode nodeId _ retryable =>
    nodeId = n.nodeId ∧ s = if n.Retries retryable then .queued else .failed
  | .skipNode nodeId _ => nodeId = n.nodeId ∧ s = .skipped
  | .requestCancel => s = if n.status.Active then .cancelRequested else .cancelled
  | .confirmNodeCancel nodeId => nodeId = n.nodeId ∧ s = .cancelled

/-- Putting a node in its place changes no other. -/
theorem eq_or_of_put (hm : run.node? j = some m) (hid : m'.nodeId = m.nodeId)
    (hn : run.node? i = some n) (hn' : (run.put j m').node? i = some n') :
    n' = n ∨ j = n.nodeId ∧ n = m ∧ n' = m' := by
  rw [node?_put (hid.trans (nodeId_of_node? hm)) hm] at hn'
  split_ifs at hn' with hij
  · subst hij
    obtain rfl := Option.some.inj (hn.symm.trans hm)
    exact Or.inr ⟨(nodeId_of_node? hm).symm, rfl, (Option.some.inj hn').symm⟩
  · exact Or.inl (Option.some.inj (hn'.symm.trans hn))

/-- A node a command changes is the one it names, and gets the status the command gives. -/
theorem gives_of_effect (he : Effect v call run c run') (hn : run.node? i = some n)
    (hn' : run'.node? i = some n') : n' = n ∨ c.Gives n n'.status := by
  have hself : run.node? i = some n' → n' = n := fun h => Option.some.inj (h.symm.trans hn)
  cases he with
  | acceptLogged | succeedLogged | cancelAgain => exact Or.inl (hself hn')
  | succeedUnlogged => exact Or.inl (hself (by simpa using hn'))
  | start _ _ _ hm =>
    simp only [touched_node?, recordNode_node?, begun_node?] at hn'
    obtain rfl | ⟨hj, rfl, rfl⟩ := eq_or_of_put hm (by rfl) hn hn'
    · exact Or.inl rfl
    · exact Or.inr ⟨hj, rfl⟩
  | accept _ hm hm' =>
    simp only [touched_node?, record_node?, recordNode_node?, withStatus_node?] at hn'
    obtain ⟨-, -, rfl⟩ | ⟨ha, rfl, -⟩ := hm'
    · obtain rfl | ⟨hj, rfl, rfl⟩ := eq_or_of_put hm (by rfl) hn hn'
      · exact Or.inl rfl
      · exact Or.inr ⟨hj, rfl⟩
    · obtain rfl | ⟨-, rfl, rfl⟩ := eq_or_of_put hm (by rfl) hn hn' <;> exact Or.inl rfl
  | succeed hm =>
    simp only [recordNode_node?, refreshed_node?] at hn'
    obtain rfl | ⟨hj, rfl, rfl⟩ := eq_or_of_put hm (by rfl) hn hn'
    · exact Or.inl rfl
    · exact Or.inr ⟨hj, rfl⟩
  | reject _ hm =>
    simp only [touched_node?, recordNode_node?, failedWith_node?] at hn'
    obtain rfl | ⟨hj, rfl, rfl⟩ := eq_or_of_put hm (by rfl) hn hn'
    · exact Or.inl rfl
    · exact Or.inr ⟨hj, rfl⟩
  | retry hm =>
    simp only [touched_node?, recordNode_node?] at hn'
    obtain rfl | ⟨hj, rfl, rfl⟩ := eq_or_of_put hm (by rfl) hn hn'
    · exact Or.inl rfl
    · exact Or.inr ⟨hj, rfl⟩
  | fail hm =>
    simp only [touched_node?, recordNode_node?, failedWith_node?] at hn'
    obtain rfl | ⟨hj, rfl, rfl⟩ := eq_or_of_put hm (by rfl) hn hn'
    · exact Or.inl rfl
    · exact Or.inr ⟨hj, rfl⟩
  | skip hm hm' =>
    simp only [recordNode_node?, refreshed_node?] at hn'
    obtain ⟨-, rfl⟩ | ⟨-, rfl⟩ := hm'
    · obtain rfl | ⟨hj, rfl, rfl⟩ := eq_or_of_put hm (by rfl) hn hn'
      · exact Or.inl rfl
      · exact Or.inr ⟨hj, rfl⟩
    · obtain rfl | ⟨-, rfl, rfl⟩ := eq_or_of_put hm (by rfl) hn hn' <;> exact Or.inl rfl
  | cancel =>
    simp only [touched_node?, closed_node?, cancelEach_node?, cancelStarted_node?, hn,
      Option.map_some] at hn'
    split_ifs at hn'
    · obtain rfl := Option.some.inj hn'
      unfold WorkflowNodeRun.cancelledBy
      split_ifs
      · exact Or.inr rfl
      · exact Or.inl rfl
    · exact Or.inl (Option.some.inj hn').symm
  | confirm hm hm' =>
    simp only [touched_node?, cancelSettled_node?, recordNode_node?] at hn'
    obtain ⟨-, rfl⟩ | ⟨-, rfl⟩ := hm'
    · obtain rfl | ⟨hj, rfl, rfl⟩ := eq_or_of_put hm (by rfl) hn hn'
      · exact Or.inl rfl
      · exact Or.inr ⟨hj, rfl⟩
    · obtain rfl | ⟨-, rfl, rfl⟩ := eq_or_of_put hm (by rfl) hn hn' <;> exact Or.inl rfl

/-- **Node invariants.** What holds of a fresh node and survives every move holds of every node. -/
theorem node_invariant {P : WorkflowNodeRun → Prop}
    (hcreated : ∀ now id d, P (createdNode now id d))
    (hmove : ∀ {ready now n n'}, P n → NodeMove ready now n n' → P n') (h : History v run) :
    ∀ n ∈ run.nodes, P n := by
  have hall : Instantiates v run.nodes ∧ ∀ n ∈ run.nodes, P n := by
    refine h.invariant (P := fun run => Instantiates v run.nodes ∧ ∀ n ∈ run.nodes, P n)
      (fun hc => ⟨(created_spec hc).1, fun n hn => ?_⟩) fun {run r run'} hi hs => ?_
    · obtain ⟨now, id, d, rfl⟩ := (created_spec hc).2.2.1 n hn
      exact hcreated now id d
    · have he := effect_of_execute hi.1 hs
      have hi' := instantiates_of_effect hi.1 he
      refine ⟨hi', fun n' hn' => ?_⟩
      have hmem : n'.nodeId ∈ run.nodes.map WorkflowNodeRun.nodeId := by
        rw [hi.1.mem_nodeIds, ← hi'.mem_nodeIds]
        exact List.mem_map_of_mem hn'
      obtain ⟨n, hn⟩ := Option.isSome_iff_exists.1 (lookup_isSome_iff.2 hmem)
      obtain ⟨m, hm, hnm⟩ := nodeMove_of_effect he hn
      have hself : run'.node? n'.nodeId = some n' := lookup_of_mem hi'.nodup hn'
      obtain rfl := Option.some.inj (hm.symm.trans hself)
      exact hmove (hi.2 n (mem_of_node? hn)) hnm
  exact hall.2

/-! ## Facts of a node -/

/-- The statuses only a started node can have. -/
def WorkflowNodeStatus.Begun (s : WorkflowNodeStatus) : Prop :=
  s.Active ∨ s = .cancelRequested ∨ s = .succeeded

instance (s : WorkflowNodeStatus) : Decidable s.Begun := by
  unfold WorkflowNodeStatus.Begun; infer_instance

theorem attempted_of_move (hP : n.status.Begun → 0 < n.attemptCount) (h : NodeMove ready now n n')
    (hs : n'.status.Begun) : 0 < n'.attemptCount := by
  cases h with
  | stay => exact hP hs
  | start => exact Nat.succ_pos _
  | accept hr => exact hP (Or.inl (Or.inl hr))
  | succeed hact | fail hact => exact hP (Or.inl hact)
  | reject => exact absurd hs (show ¬WorkflowNodeStatus.failed.Begun by decide)
  | skip => exact absurd hs (show ¬WorkflowNodeStatus.skipped.Begun by decide)
  | confirm => exact absurd hs (show ¬WorkflowNodeStatus.cancelled.Begun by decide)
  | cancel hc =>
    rcases hc with hq | hact
    · have hcanc : (n.cancelRequestedAt now).status = .cancelled :=
        if_neg (by rw [hq]; decide)
      rw [hcanc] at hs
      exact absurd hs (by decide)
    · exact hP (Or.inl hact)

/-- A node that works, waits for its cancellation or has succeeded was started. -/
theorem attempted_of_history (h : History v run) (hn : n ∈ run.nodes) (hs : n.status.Begun) :
    0 < n.attemptCount :=
  node_invariant (P := fun n => n.status.Begun → 0 < n.attemptCount)
    (fun _ _ _ hs => absurd hs (show ¬WorkflowNodeStatus.queued.Begun by decide))
    attempted_of_move h n hn hs

/-- A node goes back to the queue only with an attempt left. -/
theorem attempts_left_of_move (hP : n.status = .queued → n.attemptCount < n.maxAttempts)
    (hmove : NodeMove ready now n n') (hq' : n'.status = .queued) :
    n'.attemptCount < n'.maxAttempts := by
  cases hmove with
  | stay => exact hP hq'
  | reject hq | skip hq => exact hP hq
  | @fail code retryable =>
    by_contra hlt
    have hfailed : (n.failedWith code retryable now).status = .failed := if_neg fun hr => hlt hr.2
    exact absurd (hq'.symm.trans hfailed) (by decide)
  | start | accept | succeed | confirm => exact nomatch hq'
  | cancel =>
    have hne : (n.cancelRequestedAt now).status ≠ .queued := by
      unfold WorkflowNodeRun.cancelRequestedAt
      split_ifs <;> simp
    exact absurd hq' hne

/-- A queued node has an attempt left. -/
theorem attempts_left_of_history (h : History v run) (hn : n ∈ run.nodes)
    (hq : n.status = .queued) : n.attemptCount < n.maxAttempts :=
  node_invariant (P := fun n => n.status = .queued → n.attemptCount < n.maxAttempts)
    (fun _ _ d _ => d.maxAttempts_pos) attempts_left_of_move h n hn hq

/-- A node that has failed, succeeded or been skipped stays as it is. -/
theorem NodeMove.eq_of_done (h : NodeMove ready now n n') (hs : n.status = .failed ∨ n.status.Complete) :
    n' = n := by
  have hne : n.status ≠ .queued ∧ ¬n.status.Active ∧ n.status ≠ .cancelRequested := by
    obtain h | h | h := hs <;> rw [h] <;> decide
  cases h with
  | stay => rfl
  | start _ hq | reject hq | skip hq => exact absurd hq hne.1
  | accept hr => exact absurd (Or.inl hr) hne.2.1
  | succeed hact | fail hact => exact absurd hact hne.2.1
  | cancel hc => exact (hc.elim hne.1 hne.2.1).elim
  | confirm hc => exact absurd hc hne.2.2

end GoAgent.Workflow
