import GoAgent.Workflow.Application
import GoAgent.Workflow.History

/-!
# What a caller can put into the inputs of a node

`_build_node_inputs` takes the fields that no incoming edge binds from the caller, and each bound
field from the success event of the predecessor. The rest of the caller's dictionary is dropped
before it is looked at: two dictionaries that agree on the unbound fields are the same from there on
(`SameItems`), and every later step treats the same dictionaries the same.

* `buildNodeInputs_agree` — the two-run part.
* `lookup_bindEdges` — what the edges of an accepted version bind, and that nothing else changes.
* `node_inputs_bound` — both, for every node of every accepted version.
-/

namespace GoAgent.Workflow

open GoAgent.Foundation WorkflowRun

variable {V : Type} {values : InputValues V} {v : WorkflowVersion} {run : WorkflowRun}
  {i k : String} {inputs d d' merged result : Inputs V} {references : References}
  {fields bound : List String} {edges : List WorkflowEdgeDefinition}

/-! ## One dictionary in two orders -/

/-- Two dictionaries with the same items. -/
structure SameItems (d d' : Inputs V) : Prop where
  nodup : (d.map Prod.fst).Nodup
  nodup' : (d'.map Prod.fst).Nodup
  items : ∀ k, lookup Prod.fst k d = lookup Prod.fst k d'

/-- Both raise the same, or return the same dictionary. -/
def SameOutcome (x y : Except AppError (Inputs V)) : Prop :=
  (∃ e, x = .error e ∧ y = .error e) ∨ ∃ d d', x = .ok d ∧ y = .ok d' ∧ SameItems d d'

theorem SameItems.mem_iff (h : SameItems d d') : k ∈ d.map Prod.fst ↔ k ∈ d'.map Prod.fst := by
  rw [← lookup_isSome_iff, ← lookup_isSome_iff, h.items k]

theorem SameItems.forall_iff (h : SameItems d d') {P : String × V → Prop} :
    (∀ p ∈ d, P p) ↔ ∀ p ∈ d', P p := by
  rw [forall_mem_iff_lookup h.nodup, forall_mem_iff_lookup h.nodup']
  simp only [h.items]

theorem SameOutcome.bind {x y : Except AppError (Inputs V)}
    {f : Inputs V → Except AppError (Inputs V)} (h : SameOutcome x y)
    (hf : ∀ {d d'}, SameItems d d' → SameOutcome (f d) (f d')) : SameOutcome (x >>= f) (y >>= f) := by
  rcases h with ⟨e, rfl, rfl⟩ | ⟨d, d', rfl, rfl, hsame⟩
  · exact Or.inl ⟨e, rfl, rfl⟩
  · exact hf hsame

theorem SameOutcome.require {p q : Prop} [Decidable p] [Decidable q] {e : AppError}
    {x y : Except AppError (Inputs V)} (hpq : p ↔ q) (h : SameOutcome x y) :
    SameOutcome (do require p e; x) (do require q e; y) := by
  by_cases hp : p
  · have hq := hpq.1 hp
    simp only [Foundation.require, if_pos hp, if_pos hq]
    exact h
  · have hq := mt hpq.2 hp
    simp only [Foundation.require, if_neg hp, if_neg hq]
    exact Or.inl ⟨e, rfl, rfl⟩

/-! ## Reading the dictionary after a write -/

theorem keys_setItem {value : V} : (setItem d k value).map Prod.fst =
    if k ∈ d.map Prod.fst then d.map Prod.fst else d.map Prod.fst ++ [k] := by
  unfold setItem
  split_ifs with hk
  · exact keys_replace rfl
  · simp

theorem nodup_setItem {value : V} (h : (d.map Prod.fst).Nodup) :
    ((setItem d k value).map Prod.fst).Nodup := by
  rw [keys_setItem]
  split_ifs with hk
  · exact h
  · exact h.append (List.nodup_singleton k) (List.disjoint_singleton.2 hk)

theorem lookup_setItem {j : String} {value : V} : lookup Prod.fst j (setItem d k value) =
    if j = k then some (k, value) else lookup Prod.fst j d := by
  have hkey : Prod.fst (k, value) = k := rfl
  unfold setItem
  split_ifs with hk hj hj
  · rcases Option.isSome_iff_exists.1 (lookup_isSome_iff.2 hk) with ⟨old, hold⟩
    rw [hj, lookup_replace_self hkey hold]
  · rw [lookup_replace_ne hkey hj]
  · rw [lookup_append, hj, lookup_eq_none_iff.2 hk]
    simp [lookup]
  · rw [lookup_append]
    have hnone : lookup Prod.fst j [(k, value)] = none := by
      simpa [lookup] using Ne.symm hj
    rw [hnone, Option.or_none]

theorem lookup_filter : lookup Prod.fst k (d.filter fun p => p.1 ∉ bound) =
    if k ∈ bound then none else lookup Prod.fst k d := by
  unfold lookup
  rw [List.find?_filter]
  split_ifs with hk
  · apply List.find?_eq_none.2
    intro p _ hp
    simp only [decide_eq_true_eq] at hp
    exact hp.1 (hp.2 ▸ hk)
  · congr 1
    funext p
    by_cases hp : p.1 = k
    · simp [hp, hk]
    · simp [hp]

/-! ## Every step treats the same dictionaries the same -/

theorem sameItems_setItem {value : V} (h : SameItems d d') :
    SameItems (setItem d k value) (setItem d' k value) := by
  refine ⟨nodup_setItem h.nodup, nodup_setItem h.nodup', fun j => ?_⟩
  rw [lookup_setItem, lookup_setItem, h.items j]

theorem sameItems_filter (hd : (d.map Prod.fst).Nodup) (hd' : (d'.map Prod.fst).Nodup)
    (hagree : ∀ k, k ∉ bound → lookup Prod.fst k d = lookup Prod.fst k d') :
    SameItems (d.filter fun p => p.1 ∉ bound) (d'.filter fun p => p.1 ∉ bound) := by
  refine ⟨?_, ?_, fun k => ?_⟩
  · exact hd.sublist (List.filter_sublist.map Prod.fst)
  · exact hd'.sublist (List.filter_sublist.map Prod.fst)
  · rw [lookup_filter, lookup_filter]
    split_ifs with hk
    · rfl
    · exact hagree k hk

theorem validateInputs_same (h : SameItems d d') :
    SameOutcome (validateInputs values fields (some d)) (validateInputs values fields (some d')) := by
  unfold validateInputs
  apply SameOutcome.require
  · simp only [h.mem_iff]
  apply SameOutcome.require
  · simp only [h.mem_iff]
  apply SameOutcome.require h.forall_iff
  exact Or.inr ⟨d, d', rfl, rfl, h⟩

theorem bindFields_same (h : SameItems d d') :
    SameOutcome (bindFields values references fields d)
      (bindFields values references fields d') := by
  induction fields generalizing d d' with
  | nil => exact Or.inr ⟨d, d', rfl, rfl, h⟩
  | cons field fields ih =>
    unfold bindFields
    cases lookup Prod.fst field references with
    | none => exact Or.inl ⟨_, rfl, rfl⟩
    | some p => exact ih (sameItems_setItem h)

theorem bindEdges_same (h : SameItems d d') :
    SameOutcome (bindEdges values run edges d) (bindEdges values run edges d') := by
  induction edges generalizing d d' with
  | nil => exact Or.inr ⟨d, d', rfl, rfl, h⟩
  | cons edge edges ih => exact (bindFields_same h).bind ih

/-- **Nothing of the caller's reaches a bound field**: dictionaries that agree on the other fields
build the same inputs, or are refused alike. -/
theorem buildNodeInputs_agree (hd : (d.map Prod.fst).Nodup) (hd' : (d'.map Prod.fst).Nodup)
    (hagree : ∀ k, (∀ e ∈ v.edges, e.targetNodeId.1 = i → k ∉ e.outputFields.1) →
      lookup Prod.fst k d = lookup Prod.fst k d') :
    SameOutcome (buildNodeInputs values run v i (some d))
      (buildNodeInputs values run v i (some d')) := by
  unfold buildNodeInputs
  cases hnode : v.node i with
  | error e => exact Or.inl ⟨_, rfl, rfl⟩
  | ok node =>
    rcases v.node_ok.1 hnode with ⟨hmem, hid⟩
    have hi : i ∈ v.nodeIds := hid ▸ List.mem_map_of_mem hmem
    rw [v.incomingEdges_of_mem hi]
    have hsame := sameItems_filter hd hd' fun k hk => hagree k fun e he hei hke => hk <|
      List.mem_flatMap.2 ⟨e, List.mem_filter.2 ⟨he, decide_eq_true hei⟩, hke⟩
    apply (validateInputs_same hsame).bind
    intro supplied supplied' hsupplied
    apply (bindEdges_same hsupplied).bind
    intro merged merged' hmerged
    exact validateInputs_same hmerged

/-! ## What the edges bind -/

/-- Edges that bind no field twice. -/
theorem checkBindings_ok (h : checkBindings bound edges = .ok ()) :
    (∀ e ∈ edges, ∀ f ∈ e.outputFields.1, f ∉ bound) ∧
      edges.Pairwise fun e e' => ∀ f ∈ e.outputFields.1, f ∉ e'.outputFields.1 := by
  induction edges generalizing bound with
  | nil => exact ⟨by simp, List.Pairwise.nil⟩
  | cons e edges ih =>
    simp only [checkBindings, except_bind_ok, require_ok, exists_unit] at h
    rcases h with ⟨hfree, hrest⟩
    rcases ih hrest with ⟨hlater, hpairwise⟩
    simp only [List.mem_append, not_or] at hlater
    constructor
    · rw [List.forall_mem_cons]
      exact ⟨hfree, fun e' he' f hf => (hlater e' he' f hf).1⟩
    · apply List.pairwise_cons.2 ⟨_, hpairwise⟩
      intro e' he' f hf hf'
      exact (hlater e' he' f hf').2 hf

theorem lookup_bindFields (h : bindFields values references fields d = .ok d') :
    (k ∈ fields → ∃ reference, lookup Prod.fst k references = some (k, reference) ∧
      lookup Prod.fst k d' = some (k, values.ofString reference)) ∧
    (k ∉ fields → lookup Prod.fst k d' = lookup Prod.fst k d) := by
  induction fields generalizing d with
  | nil =>
    cases h
    simp
  | cons field fields ih =>
    unfold bindFields at h
    cases hfound : lookup Prod.fst field references with
    | none =>
      rw [hfound] at h
      cases h
    | some p =>
      rw [hfound] at h
      rcases ih h with ⟨hin, hout⟩
      have hkey : p.1 = field := key_of_lookup hfound
      constructor
      · intro hk
        by_cases hrest : k ∈ fields
        · exact hin hrest
        · have hk : k = field := (List.mem_cons.1 hk).resolve_right hrest
          refine ⟨p.2, ?_, ?_⟩
          · rw [hk, hfound, ← hkey]
          · rw [hout hrest, lookup_setItem, if_pos hk, hk]
      · intro hk
        rcases not_or.1 (mt List.mem_cons.2 hk) with ⟨hne, hrest⟩
        rw [hout hrest, lookup_setItem, if_neg hne]

/-- Each field that an edge binds holds the reference of the edge's source. -/
theorem lookup_bindEdges (h : bindEdges values run edges d = .ok d')
    (hpairwise : edges.Pairwise fun e e' => ∀ f ∈ e.outputFields.1, f ∉ e'.outputFields.1) :
    (∀ e ∈ edges, k ∈ e.outputFields.1 → ∃ reference,
      lookup Prod.fst k (run.outputReferences e.sourceNodeId.1) = some (k, reference) ∧
      lookup Prod.fst k d' = some (k, values.ofString reference)) ∧
    ((∀ e ∈ edges, k ∉ e.outputFields.1) → lookup Prod.fst k d' = lookup Prod.fst k d) := by
  induction edges generalizing d with
  | nil =>
    cases h
    simp
  | cons e edges ih =>
    simp only [bindEdges, except_bind_ok] at h
    rcases h with ⟨d₁, hfirst, hrest⟩
    rcases List.pairwise_cons.1 hpairwise with ⟨hapart, hpairwise⟩
    rcases ih hrest hpairwise with ⟨hin, hout⟩
    rcases lookup_bindFields (k := k) hfirst with ⟨hbound, hkept⟩
    constructor
    · intro e' he' hk
      rcases List.mem_cons.1 he' with rfl | he'
      · have hlater : ∀ e'' ∈ edges, k ∉ e''.outputFields.1 := fun e'' he'' => hapart e'' he'' k hk
        rw [hout hlater]
        exact hbound hk
      · exact hin e' he' hk
    · intro hk
      rw [hout fun e' he' => hk e' (List.mem_cons_of_mem e he'), hkept (hk e List.mem_cons_self)]

theorem outputReferences_eq {reference : String}
    (h : lookup Prod.fst k (run.outputReferences i) = some (k, reference)) :
    ∃ event, run.findLatestNodeEvent i .nodeSucceeded = some event ∧
      lookup Prod.fst k (event.metadata.outputReferences.getD []) = some (k, reference) := by
  unfold WorkflowRun.outputReferences at h
  cases hevent : run.findLatestNodeEvent i .nodeSucceeded with
  | none =>
    rw [hevent] at h
    cases h
  | some event =>
    rw [hevent] at h
    exact ⟨event, rfl, h⟩

/-- **The inputs of a node.** Of two dictionaries that agree on the fields no edge binds, both are
refused alike or both give the same inputs; the inputs have exactly the declared fields, and a bound
field holds what the predecessor's last success event has on record. -/
theorem node_inputs_bound (hd : (d.map Prod.fst).Nodup) (hd' : (d'.map Prod.fst).Nodup)
    (hagree : ∀ k, (∀ e ∈ v.edges, e.targetNodeId.1 = i → k ∉ e.outputFields.1) →
      lookup Prod.fst k d = lookup Prod.fst k d') :
    SameOutcome (buildNodeInputs values run v i (some d))
      (buildNodeInputs values run v i (some d')) ∧
    ∀ result, buildNodeInputs values run v i (some d) = .ok result →
      (∃ node, v.node i = .ok node ∧ ∀ f, f ∈ result.map Prod.fst ↔ f ∈ node.inputFields.1) ∧
      ∀ e ∈ v.edges, e.targetNodeId.1 = i → ∀ f ∈ e.outputFields.1, ∃ event reference,
        run.findLatestNodeEvent e.sourceNodeId.1 .nodeSucceeded = some event ∧
        lookup Prod.fst f (event.metadata.outputReferences.getD []) = some (f, reference) ∧
        lookup Prod.fst f result = some (f, values.ofString reference) := by
  refine ⟨buildNodeInputs_agree hd hd' hagree, fun result h => ?_⟩
  simp only [buildNodeInputs, raised, except_bind_ok, mapError_ok] at h
  rcases h with ⟨node, hnode, incoming, hincoming, supplied, -, merged, hmerged, hvalid⟩
  rcases v.node_ok.1 hnode with ⟨hmem, hid⟩
  have hi : i ∈ v.nodeIds := hid ▸ List.mem_map_of_mem hmem
  simp only [validateInputs, except_bind_ok, require_ok, exists_unit, except_pure_ok] at hvalid
  rcases hvalid with ⟨hall, honly, -, rfl⟩
  refine ⟨⟨node, hnode, fun f => ⟨honly f, hall f⟩⟩, fun e he hei f hf => ?_⟩
  rcases v.checks.2.2.2.1 node hmem with ⟨es, hes, hbindings⟩
  have heq : es = incoming := by
    rw [hid] at hes
    exact Except.ok.inj (hes.symm.trans hincoming)
  subst heq
  have hin : e ∈ es := by
    rw [v.incomingEdges_of_mem hi] at hincoming
    rw [← Except.ok.inj hincoming]
    exact List.mem_filter.2 ⟨he, decide_eq_true hei⟩
  rcases (lookup_bindEdges hmerged (checkBindings_ok hbindings).2).1 e hin hf with
    ⟨reference, hreference, hresult⟩
  rcases outputReferences_eq hreference with ⟨event, hevent, hrecorded⟩
  exact ⟨event, reference, hevent, hrecorded, hresult⟩

/-! ## A forged artifact -/

def artifactId : FieldNames := ⟨["artifact_id"], by decide⟩

theorem nodeA_ne_nodeB : nodeA ≠ nodeB := by decide

/-- `a` makes an artifact, and `b` works on it under a note of the caller's. -/
def artifactChain : WorkflowVersion where
  workflowCode := flow
  version := version1
  nodes := [{ plainNode nodeA with outputFields := artifactId },
    { plainNode nodeB with inputFields := ⟨["artifact_id", "note"], by decide⟩ }]
  edges := [⟨nodeA, nodeB, artifactId, nodeA_ne_nodeB⟩]
  enabled := true
  accepted := by decide +kernel

def artifactMade : List Request :=
  [⟨.startNode "a", callAt 1 "s1"⟩,
    ⟨.succeedNode "a" "done" none [("artifact_id", "artifact:real")], callAt 2 "s2"⟩]

def artifactRun : WorkflowRun := (playNew artifactChain artifactMade).get (by decide +kernel)

def textValues : InputValues String where
  ofString s := s
  dumps _ := true
  dumps_ofString _ := rfl

def forged : Inputs String := [("artifact_id", "artifact:forged"), ("note", "n")]

example : buildNodeInputs textValues artifactRun artifactChain "b" (some forged) =
    .ok [("note", "n"), ("artifact_id", "artifact:real")] := by
  decide +kernel

theorem forged_agrees (k : String)
    (hk : ∀ e ∈ artifactChain.edges, e.targetNodeId.1 = "b" → k ∉ e.outputFields.1) :
    lookup Prod.fst k forged = lookup Prod.fst k [("note", "n")] := by
  have hne : k ∉ ["artifact_id"] := hk ⟨nodeA, nodeB, artifactId, nodeA_ne_nodeB⟩ List.mem_cons_self rfl
  have hne : "artifact_id" ≠ k := fun h => hne (List.mem_singleton.2 h.symm)
  simp [lookup, forged, hne]

theorem node_inputs_bound_forged :
    SameOutcome (buildNodeInputs textValues artifactRun artifactChain "b" (some forged))
      (buildNodeInputs textValues artifactRun artifactChain "b" (some [("note", "n")])) ∧
    ∀ result, buildNodeInputs textValues artifactRun artifactChain "b" (some forged) = .ok result →
      (∃ node, artifactChain.node "b" = .ok node ∧
        ∀ f, f ∈ result.map Prod.fst ↔ f ∈ node.inputFields.1) ∧
      ∀ e ∈ artifactChain.edges, e.targetNodeId.1 = "b" → ∀ f ∈ e.outputFields.1, ∃ event reference,
        artifactRun.findLatestNodeEvent e.sourceNodeId.1 .nodeSucceeded = some event ∧
        lookup Prod.fst f (event.metadata.outputReferences.getD []) = some (f, reference) ∧
        lookup Prod.fst f result = some (f, textValues.ofString reference) :=
  node_inputs_bound (by decide) (by decide) forged_agrees

end GoAgent.Workflow
