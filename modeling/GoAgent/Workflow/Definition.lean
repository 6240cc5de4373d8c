import GoAgent.Foundation.Digraph
import GoAgent.Foundation.Keyed
import GoAgent.Foundation.Text

/-!
# Workflow definitions

The immutable side of the workflow domain: node, edge and version definitions, and the checks
their constructors make. A definition is a structure that carries what its constructor has
checked, so an unchecked one cannot be built; `make` is the constructor, with the checks in
the source's order and with its messages.

A version is *accepted* when `checkVersion` passes: its node ids are distinct, every edge joins
two of its nodes over fields both sides declare, no input field is bound twice and the graph
has no cycle. `assertAcyclic_iff` says that the last check raises for cyclic graphs only.
-/

namespace GoAgent.Workflow

open GoAgent.Foundation

/-- The exceptions of the workflow domain. `recursionError` is the interpreter's own. -/
inductive WorkflowError
  | validation (message : String)
  | state (message : String)
  | idempotencyConflict (message : String)
  | recursionError
  deriving DecidableEq

/-! ## Field checks -/

def text (value label : String) : Except WorkflowError String := do
  require (isBlank value = false) (.validation (label ++ "不能为空。"))
  pure (strip value)

def isSeparator (c : Char) : Bool := c == '.' || c == '_' || c == '-'

/-- `[a-z0-9]*(?:[._-][a-z0-9]+)*$`; the flag says that the last character was a separator. -/
def identifierTail : Bool → List Char → Bool
  | afterSeparator, [] => !afterSeparator
  | afterSeparator, c :: cs =>
    if isLower c || isDigit c then identifierTail false cs
    else isSeparator c && !afterSeparator && identifierTail true cs

/-- `^[a-z][a-z0-9]*(?:[._-][a-z0-9]+)*$` -/
def isIdentifier (s : String) : Bool :=
  match s.toList with
  | [] => false
  | c :: cs => isLower c && identifierTail false cs

/-- Normalised identifiers. -/
abbrev Identifier := { s : String // isIdentifier s = true }

def identifier (value label : String) : Except WorkflowError Identifier := do
  let normalized ← text value label
  if h : isIdentifier normalized = true then pure ⟨normalized, h⟩
  else .error (.validation (label ++ "格式无效。"))

/-- `^[A-Z][A-Z0-9_.-]{1,63}$` -/
def isSafeError (s : String) : Bool :=
  matchesClass isUpper (fun c => isUpper c || isDigit c || isSeparator c) 1 63 s.toList

/-- `^[A-Za-z0-9][A-Za-z0-9._:-]{0,127}$` -/
def isSafeReference (s : String) : Bool :=
  matchesClass isAlnum (fun c => isAlnum c || isSeparator c || c == ':') 0 127 s.toList

/-- `^[A-Za-z0-9][A-Za-z0-9._:-]{0,127}$` -/
def isSafeFingerprint (s : String) : Bool :=
  matchesClass isAlnum (fun c => isAlnum c || isSeparator c || c == ':') 0 127 s.toList

def opaqueReference (value label : String) : Except WorkflowError String := do
  let normalized ← text value label
  require (isSafeReference normalized = true) (.validation (label ++ "必须是不透明的安全引用。"))
  pure normalized

def fingerprint (value : Option String) (label : String) : Except WorkflowError (Option String) :=
  match value with
  | none => pure none
  | some value => do
    let normalized ← text value label
    require (isSafeFingerprint normalized = true) (.validation (label ++ "格式无效。"))
    pure (some normalized)

def utc (value : DateTime) (label : String) : Except WorkflowError DateTime := do
  require (value.tzAware = true) (.validation (label ++ "必须包含时区。"))
  pure value

@[simp] theorem text_ok {value label s : String} :
    text value label = .ok s ↔ isBlank value = false ∧ s = strip value := by
  simp [text, eq_comm (a := s)]

@[simp] theorem identifier_ok {value label : String} {i : Identifier} :
    identifier value label = .ok i ↔ isBlank value = false ∧ i.1 = strip value := by
  obtain ⟨s, hs⟩ := i
  simp only [identifier, except_bind_ok, text_ok]
  constructor
  · rintro ⟨t, ⟨hb, rfl⟩, h⟩
    split at h
    · cases h
      exact ⟨hb, rfl⟩
    · cases h
  · rintro ⟨hb, rfl⟩
    exact ⟨_, ⟨hb, rfl⟩, by simp [hs]⟩

@[simp] theorem opaqueReference_ok {value label s : String} :
    opaqueReference value label = .ok s ↔
      isBlank value = false ∧ isSafeReference s = true ∧ s = strip value := by
  simp only [opaqueReference, except_bind_ok, exists_unit, text_ok, require_ok,
    except_pure_ok]
  constructor
  · rintro ⟨t, ⟨hb, rfl⟩, hs, rfl⟩
    exact ⟨hb, hs, rfl⟩
  · rintro ⟨hb, hs, rfl⟩
    exact ⟨_, ⟨hb, rfl⟩, hs, rfl⟩

/-- An accepted fingerprint is normalised. -/
theorem safe_of_fingerprint {value value' : Option String} {label s : String}
    (h : fingerprint value label = .ok value') (hs : value' = some s) :
    isSafeFingerprint s = true := by
  subst hs
  cases value with
  | none => cases h
  | some value =>
    simp only [fingerprint, except_bind_ok, exists_unit, text_ok, require_ok, except_pure_ok] at h
    obtain ⟨t, -, ht, h⟩ := h
    cases h
    exact ht

@[simp] theorem utc_ok {value d : DateTime} {label : String} :
    utc value label = .ok d ↔ value.tzAware = true ∧ d = value := by
  simp [utc, eq_comm (a := d)]

/-- The characters of normalised identifiers, references and codes. -/
def isSafeChar (c : Char) : Bool := isAlnum c || isSeparator c || c == ':'

theorem not_isSpace_of_isSafeChar {c : Char} (h : isSafeChar c = true) : isSpace c = false := by
  simp only [isSafeChar, isSeparator, Bool.or_eq_true, beq_iff_eq] at h
  rcases h with (h | (rfl | rfl) | rfl) | rfl
  · exact not_isSpace_of_isAlnum h
  all_goals decide

theorem identifierTail_safe {b : Bool} {l : List Char} (h : identifierTail b l = true) :
    ∀ c ∈ l, isSafeChar c = true := by
  induction l generalizing b with
  | nil => simp
  | cons a l ih =>
    simp only [identifierTail] at h
    intro c hc
    split at h
    next ha =>
      rcases List.mem_cons.1 hc with rfl | hc
      · simp only [isSafeChar, isAlnum, Bool.or_eq_true] at ha ⊢
        tauto
      · exact ih h c hc
    next =>
      simp only [Bool.and_eq_true] at h
      rcases List.mem_cons.1 hc with rfl | hc
      · simp [isSafeChar, h.1.1]
      · exact ih h.2 c hc

theorem isIdentifier_safe {s : String} (h : isIdentifier s = true) :
    s.toList ≠ [] ∧ ∀ c ∈ s.toList, isSafeChar c = true := by
  unfold isIdentifier at h
  split at h
  · cases h
  · next c cs hs =>
    rw [hs]
    simp only [Bool.and_eq_true] at h
    refine ⟨List.cons_ne_nil _ _, fun d hd => ?_⟩
    rcases List.mem_cons.1 hd with rfl | hd
    · simp [isSafeChar, isAlnum, h.1]
    · exact identifierTail_safe h.2 d hd

theorem isSafeReference_safe {s : String} (h : isSafeReference s = true) :
    s.toList ≠ [] ∧ ∀ c ∈ s.toList, isSafeChar c = true :=
  all_of_matchesClass (fun c hc => by simp [isSafeChar, hc]) (fun c hc => hc) h

theorem isSafeError_safe {s : String} (h : isSafeError s = true) :
    s.toList ≠ [] ∧ ∀ c ∈ s.toList, isSafeChar c = true :=
  all_of_matchesClass (fun c hc => by simp [isSafeChar, isAlnum, hc]) (fun c hc => by
    simp only [isSafeChar, isAlnum, Bool.or_eq_true] at hc ⊢
    tauto) h

theorem isIdentifier_no_space {s : String} (h : isIdentifier s = true) :
    s.toList ≠ [] ∧ ∀ c ∈ s.toList, isSpace c = false :=
  (isIdentifier_safe h).imp_right fun h c hc => not_isSpace_of_isSafeChar (h c hc)

theorem isSafeReference_no_space {s : String} (h : isSafeReference s = true) :
    s.toList ≠ [] ∧ ∀ c ∈ s.toList, isSpace c = false :=
  (isSafeReference_safe h).imp_right fun h c hc => not_isSpace_of_isSafeChar (h c hc)

theorem isSafeError_no_space {s : String} (h : isSafeError s = true) :
    s.toList ≠ [] ∧ ∀ c ∈ s.toList, isSpace c = false :=
  (isSafeError_safe h).imp_right fun h c hc => not_isSpace_of_isSafeChar (h c hc)

/-- Text that is not empty and has no white space passes `text` unchanged. -/
theorem text_self {s : String} (label : String) (hne : s.toList ≠ [])
    (h : ∀ c ∈ s.toList, isSpace c = false) : text s label = .ok s := by
  obtain ⟨c, hc⟩ := List.exists_mem_of_ne_nil _ hne
  rw [text_ok]
  exact ⟨isBlank_eq_false hc (h c hc), (strip_eq_self h).symm⟩

theorem isIdentifier_strip {s : String} (h : isIdentifier s = true) :
    isBlank s = false ∧ isIdentifier (strip s) = true := by
  obtain ⟨hne, hsp⟩ := isIdentifier_no_space h
  obtain ⟨hb, hs⟩ := text_ok.1 (text_self "" hne hsp)
  exact ⟨hb, hs ▸ h⟩

/-- A normalised identifier passes its check unchanged. -/
theorem identifier_self (i : Identifier) (label : String) : identifier i.1 label = .ok i := by
  obtain ⟨hne, h⟩ := isIdentifier_no_space i.2
  rw [identifier_ok]
  exact text_ok.1 (text_self label hne h)

theorem opaqueReference_self {s label : String} (hs : isSafeReference s = true) :
    opaqueReference s label = .ok s := by
  obtain ⟨hne, h⟩ := isSafeReference_no_space hs
  have := text_ok.1 (text_self label hne h)
  rw [opaqueReference_ok]
  exact ⟨this.1, hs, this.2⟩

/-! ## Node and edge definitions -/

inductive WorkflowNodeType
  | capability
  deriving DecidableEq

/-- `WorkflowNodeType(value)` -/
def WorkflowNodeType.ofValue (value : String) : Except WorkflowError WorkflowNodeType :=
  if value = "capability" then pure .capability else .error (.validation "节点类型无效。")

/-- A list of distinct field names. -/
abbrev FieldNames := { l : List String // (∀ f ∈ l, isIdentifier f = true) ∧ l.Nodup }

def fieldNames (fields : List String) (label : String) (duplicate : WorkflowError) :
    Except WorkflowError FieldNames := do
  let normalized ← mapEach (fun field => identifier field label) fields
  let names := normalized.map Subtype.val
  if h : names.Nodup then
    pure ⟨names, fun f hf => by
      obtain ⟨i, -, rfl⟩ := List.mem_map.1 hf
      exact i.2, h⟩
  else .error duplicate

structure WorkflowNodeDefinition where
  nodeId : Identifier
  nodeType : WorkflowNodeType
  capabilityCode : Identifier
  maxAttempts : Nat
  inputFields : FieldNames
  outputFields : FieldNames
  maxAttempts_pos : 0 < maxAttempts
  deriving DecidableEq

def WorkflowNodeDefinition.make (nodeId nodeType capabilityCode : String) (maxAttempts : Int)
    (inputFields outputFields : List String) : Except WorkflowError WorkflowNodeDefinition := do
  let nodeId ← identifier nodeId "节点标识"
  let capabilityCode ← identifier capabilityCode "能力代码"
  let nodeType ← WorkflowNodeType.ofValue nodeType
  if h : 0 < maxAttempts then
    let inputFields ← fieldNames inputFields "输入字段名"
      (.validation "输入字段必须是非重复的非空字段名。")
    let outputFields ← fieldNames outputFields "输出字段名"
      (.validation "输出字段必须是非重复的非空字段名。")
    pure { nodeId, nodeType, capabilityCode, maxAttempts := maxAttempts.toNat, inputFields,
           outputFields, maxAttempts_pos := by omega }
  else .error (.validation "节点最大尝试次数必须为正整数。")

structure WorkflowEdgeDefinition where
  sourceNodeId : Identifier
  targetNodeId : Identifier
  outputFields : FieldNames
  no_loop : sourceNodeId ≠ targetNodeId
  deriving DecidableEq

def WorkflowEdgeDefinition.make (sourceNodeId targetNodeId : String) (outputFields : List String) :
    Except WorkflowError WorkflowEdgeDefinition := do
  let sourceNodeId ← identifier sourceNodeId "边源节点"
  let targetNodeId ← identifier targetNodeId "边目标节点"
  if h : sourceNodeId ≠ targetNodeId then
    let outputFields ← fieldNames outputFields "边输出字段名" (.validation "边输出字段不能重复。")
    pure { sourceNodeId, targetNodeId, outputFields, no_loop := h }
  else .error (.validation "Workflow 不允许节点自环。")

/-! ## Versions -/

def nodeIdOf (node : WorkflowNodeDefinition) : String := node.nodeId.1

/-- The definition of a node among `nodes`. -/
def nodeIn (nodes : List WorkflowNodeDefinition) (nodeId : String) :
    Except WorkflowError WorkflowNodeDefinition :=
  match lookup nodeIdOf nodeId nodes with
  | some node => pure node
  | none => .error (.validation "Workflow 节点不存在。")

def incomingEdgesIn (nodes : List WorkflowNodeDefinition) (edges : List WorkflowEdgeDefinition)
    (nodeId : String) : Except WorkflowError (List WorkflowEdgeDefinition) := do
  let _ ← nodeIn nodes nodeId
  pure (edges.filter fun edge => edge.targetNodeId.1 = nodeId)

/-- The successor lists `_assert_acyclic` builds. -/
def graph (edges : List WorkflowEdgeDefinition) (nodeId : String) : List String :=
  (edges.filter fun edge => edge.sourceNodeId.1 = nodeId).map fun edge => edge.targetNodeId.1

def assertAcyclic (nodeIds : List String) (edges : List WorkflowEdgeDefinition) :
    Except WorkflowError Unit :=
  match searchAll (graph edges) nodeIds with
  | .ok _ => pure ()
  | .error .cycle => .error (.validation "Workflow 边不能形成循环。")
  | .error .outOfFuel => .error .recursionError

/-- Both ends of an edge exist and declare the fields it carries. -/
def checkEdge (nodes : List WorkflowNodeDefinition) (edge : WorkflowEdgeDefinition) :
    Except WorkflowError Unit := do
  let nodeIds := nodes.map nodeIdOf
  require (edge.sourceNodeId.1 ∈ nodeIds ∧ edge.targetNodeId.1 ∈ nodeIds)
    (.validation "Workflow 边必须引用当前 Version 的节点。")
  let source ← nodeIn nodes edge.sourceNodeId.1
  let target ← nodeIn nodes edge.targetNodeId.1
  require (∀ f ∈ edge.outputFields.1, f ∈ source.outputFields.1)
    (.validation "边引用了源节点未声明的输出字段。")
  require (∀ f ∈ edge.outputFields.1, f ∈ target.inputFields.1)
    (.validation "边输出字段未被目标节点声明为输入字段。")

/-- No field is bound by two of the edges; `bound` are the fields bound so far. -/
def checkBindings : List String → List WorkflowEdgeDefinition → Except WorkflowError Unit
  | _, [] => pure ()
  | bound, edge :: edges => do
    require (∀ f ∈ edge.outputFields.1, f ∉ bound)
      (.validation "Workflow 输入字段不能被多条边重复绑定。")
    checkBindings (bound ++ edge.outputFields.1) edges

def checkVersion (nodes : List WorkflowNodeDefinition) (edges : List WorkflowEdgeDefinition) :
    Except WorkflowError Unit := do
  require (nodes ≠ []) (.validation "Workflow Version 至少需要一个节点。")
  let nodeIds := nodes.map nodeIdOf
  require nodeIds.Nodup (.validation "Workflow 节点标识不能重复。")
  forEach (checkEdge nodes) edges
  forEach (fun node => do
    let incoming ← incomingEdgesIn nodes edges (nodeIdOf node)
    checkBindings [] incoming) nodes
  assertAcyclic nodeIds edges

/-- An accepted workflow version. -/
structure WorkflowVersion where
  workflowCode : Identifier
  version : Identifier
  nodes : List WorkflowNodeDefinition
  edges : List WorkflowEdgeDefinition
  enabled : Bool
  accepted : checkVersion nodes edges = .ok ()

namespace WorkflowVersion

def make (workflowCode version : String) (nodes : List WorkflowNodeDefinition)
    (edges : List WorkflowEdgeDefinition) (enabled : Bool) :
    Except WorkflowError WorkflowVersion := do
  let workflowCode ← identifier workflowCode "Workflow 代码"
  let version ← identifier version "Workflow 版本"
  match h : checkVersion nodes edges with
  | .ok () => pure { workflowCode, version, nodes, edges, enabled, accepted := h }
  | .error e => .error e

/-- The key of a version in the registry. -/
def key (v : WorkflowVersion) : String := v.workflowCode.1 ++ ":" ++ v.version.1

def nodeIds (v : WorkflowVersion) : List String := v.nodes.map nodeIdOf

def node (v : WorkflowVersion) (nodeId : String) : Except WorkflowError WorkflowNodeDefinition :=
  nodeIn v.nodes nodeId

def incomingEdges (v : WorkflowVersion) (nodeId : String) :
    Except WorkflowError (List WorkflowEdgeDefinition) :=
  incomingEdgesIn v.nodes v.edges nodeId

def predecessors (v : WorkflowVersion) (nodeId : String) : Except WorkflowError (List String) := do
  let incoming ← v.incomingEdges nodeId
  pure (incoming.map fun edge => edge.sourceNodeId.1)

/-! ### What acceptance gives -/

variable (v : WorkflowVersion)

/-- The checks of `checkVersion`, one by one. -/
theorem checks : v.nodes ≠ [] ∧ v.nodeIds.Nodup ∧ (∀ e ∈ v.edges, checkEdge v.nodes e = .ok ()) ∧
    (∀ n ∈ v.nodes, ∃ es, incomingEdgesIn v.nodes v.edges (nodeIdOf n) = .ok es ∧
      checkBindings [] es = .ok ()) ∧ assertAcyclic v.nodeIds v.edges = .ok () := by
  have h := v.accepted
  simp only [checkVersion, exists_unit, except_bind_ok, require_ok, forEach_ok] at h
  obtain ⟨hne, hnd, hedges, hbind, hacyc⟩ := h
  exact ⟨hne, hnd, hedges, hbind, hacyc⟩

theorem nodes_ne_nil : v.nodes ≠ [] := v.checks.1

theorem nodeIds_nodup : v.nodeIds.Nodup := v.checks.2.1

theorem lookup_nodes {n : WorkflowNodeDefinition} {nodeId : String} :
    lookup nodeIdOf nodeId v.nodes = some n ↔ n ∈ v.nodes ∧ nodeIdOf n = nodeId :=
  lookup_eq_some_iff v.nodeIds_nodup

theorem node_ok {n : WorkflowNodeDefinition} {nodeId : String} :
    v.node nodeId = .ok n ↔ n ∈ v.nodes ∧ nodeIdOf n = nodeId := by
  rw [← v.lookup_nodes]
  unfold node nodeIn
  cases lookup nodeIdOf nodeId v.nodes <;> simp

theorem incomingEdges_of_mem {nodeId : String} (h : nodeId ∈ v.nodeIds) :
    v.incomingEdges nodeId = .ok (v.edges.filter fun e => e.targetNodeId.1 = nodeId) := by
  obtain ⟨n, hn, rfl⟩ := List.mem_map.1 h
  have hnode : nodeIn v.nodes (nodeIdOf n) = .ok n := v.node_ok.2 ⟨hn, rfl⟩
  simp [incomingEdges, incomingEdgesIn, hnode]

theorem predecessors_of_mem {nodeId : String} (h : nodeId ∈ v.nodeIds) :
    v.predecessors nodeId = .ok ((v.edges.filter fun e => e.targetNodeId.1 = nodeId).map
      fun e => e.sourceNodeId.1) := by
  simp [predecessors, v.incomingEdges_of_mem h]

/-- The ends of an edge, with the fields they declare. -/
theorem edge_ends {e : WorkflowEdgeDefinition} (he : e ∈ v.edges) :
    ∃ s ∈ v.nodes, ∃ t ∈ v.nodes, nodeIdOf s = e.sourceNodeId.1 ∧ nodeIdOf t = e.targetNodeId.1 ∧
      (∀ f ∈ e.outputFields.1, f ∈ s.outputFields.1) ∧
      (∀ f ∈ e.outputFields.1, f ∈ t.inputFields.1) := by
  have h := v.checks.2.2.1 e he
  simp only [checkEdge, exists_unit, except_bind_ok, require_ok] at h
  obtain ⟨-, s, hs, t, ht, hsf, htf⟩ := h
  obtain ⟨hs, hse⟩ := v.node_ok.1 hs
  obtain ⟨ht, hte⟩ := v.node_ok.1 ht
  exact ⟨s, hs, t, ht, hse, hte, hsf, htf⟩

/-- The graph of an accepted version has no cycle. -/
theorem ranked : Ranked (graph v.edges) v.nodeIds := by
  have h := v.checks.2.2.2.2
  unfold assertAcyclic at h
  cases hs : searchAll (graph v.edges) v.nodeIds with
  | ok m => exact ranked_of_searchAll hs
  | error e => rw [hs] at h; cases e <;> cases h

end WorkflowVersion

/-! ## Cycles of edges -/

/-- Some edge leads from `x` to `y`. -/
def Leads (edges : List WorkflowEdgeDefinition) (x y : String) : Prop :=
  ∃ edge ∈ edges, edge.sourceNodeId.1 = x ∧ edge.targetNodeId.1 = y

section

variable {nodeIds : List String} {edges : List WorkflowEdgeDefinition}

theorem edge_graph : Edge (graph edges) = Leads edges := by
  funext x y
  simp only [Edge, graph, Leads, List.mem_map, List.mem_filter, decide_eq_true_eq, and_assoc]

theorem closed_graph (hends : ∀ e ∈ edges, e.sourceNodeId.1 ∈ nodeIds ∧ e.targetNodeId.1 ∈ nodeIds) :
    Closed (graph edges) nodeIds := by
  intro x _ c hc
  have hleads : Leads edges x c := edge_graph ▸ hc
  rcases hleads with ⟨e, he, -, rfl⟩
  exact (hends e he).2

theorem cyclic_graph_iff
    (hends : ∀ e ∈ edges, e.sourceNodeId.1 ∈ nodeIds ∧ e.targetNodeId.1 ∈ nodeIds) :
    Cyclic (graph edges) nodeIds ↔ ∃ x, Relation.TransGen (Leads edges) x x := by
  unfold Cyclic
  rw [edge_graph]
  constructor
  · intro ⟨x, _, hcycle⟩
    exact ⟨x, hcycle⟩
  · intro ⟨x, hcycle⟩
    rcases Relation.TransGen.head'_iff.1 hcycle with ⟨y, ⟨e, he, rfl, -⟩, -⟩
    exact ⟨e.sourceNodeId.1, (hends e he).1, hcycle⟩

/-- **The cycle check** ends, within a recursion no deeper than the nodes are many, and raises
exactly when some node leads back to itself. -/
theorem assertAcyclic_iff
    (hends : ∀ e ∈ edges, e.sourceNodeId.1 ∈ nodeIds ∧ e.targetNodeId.1 ∈ nodeIds) :
    (∀ fuel, nodeIds.length < fuel →
      visitEach (visit (graph edges) fuel) nodeIds { visiting := [], visited := [] } =
        searchAll (graph edges) nodeIds) ∧
    (assertAcyclic nodeIds edges = .error (.validation "Workflow 边不能形成循环。") ↔
      ∃ x, Relation.TransGen (Leads edges) x x) ∧
    (assertAcyclic nodeIds edges = .ok () ↔ ¬∃ x, Relation.TransGen (Leads edges) x x) := by
  have hclosed := closed_graph hends
  rw [← cyclic_graph_iff hends, ← searchAll_error_iff hclosed]
  refine ⟨fun fuel hfuel => ?_, ?_⟩
  · apply visitEach_mono hfuel
    intro hout
    cases (searchAll_error hclosed hout).1
  · unfold assertAcyclic
    cases h : searchAll (graph edges) nodeIds with
    | ok m => simp [pure, Except.pure]
    | error e =>
      rw [(searchAll_error hclosed h).1]
      simp

end

def draftToReview : WorkflowEdgeDefinition where
  sourceNodeId := ⟨"draft", by decide⟩
  targetNodeId := ⟨"review", by decide⟩
  outputFields := ⟨["draft_id"], by decide⟩
  no_loop := by decide

def reviewToDraft : WorkflowEdgeDefinition where
  sourceNodeId := ⟨"review", by decide⟩
  targetNodeId := ⟨"draft", by decide⟩
  outputFields := ⟨["review_id"], by decide⟩
  no_loop := by decide

theorem assertAcyclic_iff_back_and_forth :
    (∀ fuel, ["draft", "review"].length < fuel →
      visitEach (visit (graph [draftToReview, reviewToDraft]) fuel) ["draft", "review"]
          { visiting := [], visited := [] } =
        searchAll (graph [draftToReview, reviewToDraft]) ["draft", "review"]) ∧
    (assertAcyclic ["draft", "review"] [draftToReview, reviewToDraft] =
        .error (.validation "Workflow 边不能形成循环。") ↔
      ∃ x, Relation.TransGen (Leads [draftToReview, reviewToDraft]) x x) ∧
    (assertAcyclic ["draft", "review"] [draftToReview, reviewToDraft] = .ok () ↔
      ¬∃ x, Relation.TransGen (Leads [draftToReview, reviewToDraft]) x x) :=
  assertAcyclic_iff (by decide)

end GoAgent.Workflow
