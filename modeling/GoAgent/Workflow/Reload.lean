import GoAgent.Workflow.Readiness
import GoAgent.Workflow.Transactions

/-!
# Runs that were read back

Loading lists the nodes by their ids and the entries of the output objects in the order of the
server. What the domain looks up in a run does not depend on either: the same nodes are found,
the same events are the latest of their kind, with the same outputs as dictionaries, and so the
same nodes are ready.
-/

namespace GoAgent.Workflow

open GoAgent.Foundation WorkflowRun

variable {pg : Postgres} {v : WorkflowVersion} {run run' : WorkflowRun} {i : String}
  {n : WorkflowNodeRun} {ty : WorkflowEventType}

/-! ## Looking up -/

theorem latest_reloaded : (run.reloaded pg).findLatestNodeEvent i ty =
    (run.findLatestNodeEvent i ty).map (WorkflowEvent.reloaded pg) := by
  show (run.events.map (WorkflowEvent.reloaded pg)).reverse.find? _ = _
  rw [← List.map_reverse, List.find?_map]
  rfl

theorem outputReferences_reloaded :
    (run.reloaded pg).outputReferences i = pg.jsonb (run.outputReferences i) := by
  unfold outputReferences
  rw [latest_reloaded]
  cases run.findLatestNodeEvent i .nodeSucceeded with
  | none => rfl
  | some e =>
    show (e.metadata.outputReferences.map pg.jsonb).getD [] =
      pg.jsonb (e.metadata.outputReferences.getD [])
    cases e.metadata.outputReferences <;> rfl

theorem bound_reloaded {e : WorkflowEdgeDefinition} :
    (run.reloaded pg).Bound e ↔ run.Bound e := by
  unfold Bound
  rw [outputReferences_reloaded]
  exact forall₂_congr fun f _ => (pg.jsonb_perm.map Prod.fst).mem_iff

theorem fed_reloaded (hv : Instantiates v run.nodes) :
    Fed v (run.reloaded pg) i ↔ Fed v run i := by
  unfold Fed
  simp only [reloaded_node? hv.nodup, bound_reloaded]

/-- **The same nodes are ready.** -/
theorem ready_reloaded (hv : Instantiates v run.nodes) :
    (run.reloaded pg).Ready v i ↔ run.Ready v i := by
  rw [ready_iff (instantiates_reloaded hv), ready_iff hv, fed_reloaded hv,
    reloaded_node? hv.nodup]

theorem at_reloaded {s : WorkflowNodeStatus} (hv : Instantiates v run.nodes) :
    (run.reloaded pg).At i s ↔ run.At i s := by
  unfold At
  rw [reloaded_node? hv.nodup]

theorem Delivered.reloaded (h : Delivered v run i) : Delivered v (run.reloaded pg) i := by
  obtain ⟨e, outputs, d, hlog, hout, hd, hfields⟩ := h
  refine ⟨e.reloaded pg, pg.jsonb outputs, d, ?_, ?_, hd, fun f => ?_⟩
  · rw [latest_reloaded, hlog]
    rfl
  · show e.metadata.outputReferences.map pg.jsonb = _
    rw [hout]
    rfl
  · rw [(pg.jsonb_perm.map Prod.fst).mem_iff]
    exact hfields f

end GoAgent.Workflow
