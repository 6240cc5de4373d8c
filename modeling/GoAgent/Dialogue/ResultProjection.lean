import GoAgent.Foundation.Keyed
import GoAgent.Foundation.Raising
import GoAgent.Foundation.Text

/-!
# The results of an agent that are kept

`AgentResultProjector.project` reduces the output of an agent to what may be persisted and shown;
`_safe_result_payload` checks a persisted result before it is explained. The two filters have key
lists and value rules of their own.

* `clean_value`, `clean_project` — what the projector returns is `Clean`, whatever the output is.
* `safeResultPayload_clean` — the continuation returns what is clean as it is.
* `projected_is_safe` — so every result that is kept can be explained, and nothing hidden is.
-/

namespace GoAgent.Dialogue.Projection

open GoAgent.Foundation

/-! ## Values -/

/-- A key of a mapping: a `str`, or an object with its `str()`. -/
inductive MappingKey where
  | str (s : String)
  | foreign (identity : Nat) (text : String)
  deriving DecidableEq

/-- `str(key)` -/
def MappingKey.text : MappingKey → String
  | .str s => s
  | .foreign _ text => text

inductive PythonValue where
  | none
  | bool (b : Bool)
  | int (n : Int)
  | float (text : String)
  | str (s : String)
  | list (items : List PythonValue)
  /-- A `dict`, or a mapping that is none. -/
  | mapping (isDict : Bool) (items : List (MappingKey × PythonValue))
  | foreign (typeName : String)

abbrev Items := List (MappingKey × PythonValue)

def PythonValue.isNone : PythonValue → Bool
  | .none => true
  | _ => false

def PythonValue.isMapping : PythonValue → Bool
  | .mapping .. => true
  | _ => false

/-- `value is True` -/
def PythonValue.isTrue : PythonValue → Bool
  | .bool true => true
  | _ => false

/-- `isinstance(value, dict) and value` -/
def isNonemptyDict : PythonValue → Bool
  | .mapping true (_ :: _) => true
  | _ => false

/-- `mapping.get(name)` -/
def get (items : Items) (name : String) : PythonValue :=
  match lookup Prod.fst (MappingKey.str name) items with
  | some item => item.2
  | none => .none

/-- `items[name] = value` -/
def setItem (items : Items) (name : String) (value : PythonValue) : Items :=
  assign Prod.fst (.str name) (.str name, value) items

/-! ## The projector -/

def hiddenKeys : List String :=
  ["provider", "provider_response", "permissions", "stack", "traceback", "base64",
    "content_base64"]

/-- `key in _HIDDEN_KEYS` -/
def isHidden : Option String → Bool
  | some key => key ∈ hiddenKeys
  | none => false

mutual

def value (key : Option String) : PythonValue → PythonValue
  | .mapping _ items => if isHidden key then .none else .mapping true (valueItems [] items)
  | .list items => if isHidden key then .none else .list (valueList items)
  | .foreign _ => .none
  | scalar => if isHidden key then .none else scalar
termination_by structural v => v

def valueList : List PythonValue → List PythonValue
  | [] => []
  | item :: items =>
    let safe := value none item
    if safe.isNone then valueList items else safe :: valueList items
termination_by structural items => items

def valueItems (result : Items) : Items → Items
  | [] => result
  | item :: items => valueItems (valueItem result item) items
termination_by structural items => items

def valueItem (result : Items) : MappingKey × PythonValue → Items
  | (rawKey, rawValue) =>
    let itemKey := rawKey.text
    let safe := value (some itemKey) rawValue
    if isHidden (some itemKey) ∨ itemKey = "__agent_bytes__" then result
    else if safe.isNone then result
    else setItem result itemKey safe
termination_by structural item => item

end

/-- `_text` -/
def text (value : PythonValue) (default : String) : PythonValue :=
  match value with
  | .str s => if strip s = "" then .str default else .str (strip s)
  | _ => .str default

/-- A size may be written as that of bytes that are kept elsewhere. -/
def bytesSize (size : PythonValue) : PythonValue :=
  match size with
  | .mapping _ items => if (get items "__agent_bytes__").isTrue then get items "size" else size
  | _ => size

def artifactSize (artifact : Items) : PythonValue :=
  let size := get artifact "size"
  let size :=
    if size.isNone then
      match get artifact "content" with
      | .mapping _ content =>
        if (get content "__agent_bytes__").isTrue then get content "size" else size
      | _ => size
    else size
  match bytesSize size with
  | .int n => if 0 ≤ n then .int n else .int 0
  -- a `bool` is an `int`
  | .bool b => .bool b
  | _ => .int 0

/-- `_artifact` -/
def projectArtifact (artifact : Items) (callId : String) (index : Nat) : PythonValue :=
  .mapping true
    [(.str "file_name", text (get artifact "file_name") ("artifact-" ++ toString index)),
      (.str "media_type", text (get artifact "media_type") "application/octet-stream"),
      (.str "size", artifactSize artifact),
      (.str "resource_id", text (get artifact "resource_id")
        ("agent-artifact:" ++ callId ++ ":" ++ toString index))]

def allowedAnalysis : List String :=
  ["status", "package_type", "summary", "format_start_block_id", "format_end_block_id"]

def analysisField (analysis : Items) (key : String) : Option (MappingKey × PythonValue) :=
  match lookup Prod.fst (MappingKey.str key) analysis with
  | some item =>
    let safe := value none item.2
    if safe.isNone then none else some (.str key, safe)
  | none => none

/-- `_analysis` -/
def projectAnalysis (analysis : Items) : PythonValue :=
  .mapping true (allowedAnalysis.filterMap (analysisField analysis))

def projectArtifacts (artifacts : List PythonValue) (callId : String) : List PythonValue :=
  artifacts.zipIdx.filterMap fun item =>
    match item.1 with
    | .mapping _ artifact => some (projectArtifact artifact callId item.2)
    | _ => none

/-- The end of `project`, where there is no list of artifacts. -/
def projectPlain (isDict : Bool) (output : Items) (callId : String) : PythonValue :=
  match get output "artifact" with
  | .mapping _ artifact => .mapping true [(.str "artifact", projectArtifact artifact callId 0)]
  | _ =>
    let safe := value none (.mapping isDict output)
    if isNonemptyDict safe then safe else .mapping true [(.str "result", safe)]

/-- `AgentResultProjector.project` of a mapping; `isDict` tells whether it is a `dict`. -/
def project (isDict : Bool) (output : Items) (callId : String) : PythonValue :=
  match get output "artifacts" with
  | .list artifacts =>
    if artifacts.any PythonValue.isMapping then
      let projected := (.str "artifacts", .list (projectArtifacts artifacts callId))
      match get output "analysis" with
      | .mapping _ analysis =>
        .mapping true [(.str "analysis", projectAnalysis analysis), projected]
      | _ => .mapping true [projected]
    else projectPlain isDict output callId
  | _ => projectPlain isDict output callId

/-! ## The continuation -/

def forbiddenKeys : List String :=
  ["provider", "provider_response", "permissions", "stack", "traceback", "base64",
    "content_base64", "__agent_bytes__"]

/-- `key in _FORBIDDEN_KEYS` -/
def isForbidden : Option String → Bool
  | some key => key ∈ forbiddenKeys
  | none => false

mutual

/-- `_safe_value`; what is raised is a `ValueError` with the message. -/
def safeValue (key : Option String) : PythonValue → Except String PythonValue
  | .mapping isDict items => do
    require (isForbidden key = false) "Agent 结果包含禁止字段。"
    require (isDict = true) "Agent 结果包含不可序列化值。"
    let safe ← safeItems [] items
    pure (.mapping true safe)
  | .list items => do
    require (isForbidden key = false) "Agent 结果包含禁止字段。"
    let safe ← safeList items
    pure (.list safe)
  | .foreign _ => do
    require (isForbidden key = false) "Agent 结果包含禁止字段。"
    .error "Agent 结果包含不可序列化值。"
  | scalar => do
    require (isForbidden key = false) "Agent 结果包含禁止字段。"
    pure scalar
termination_by structural v => v

def safeList : List PythonValue → Except String (List PythonValue)
  | [] => pure []
  | item :: items => do
    let safe ← safeValue none item
    let rest ← safeList items
    pure (safe :: rest)
termination_by structural items => items

def safeItems (result : Items) : Items → Except String Items
  | [] => pure result
  | item :: items => do
    let safe ← safeItem item
    safeItems (setItem result item.1.text safe) items
termination_by structural items => items

def safeItem : MappingKey × PythonValue → Except String PythonValue
  | (itemKey, itemValue) => safeValue (some itemKey.text) itemValue
termination_by structural item => item

end

/-- `_safe_result_payload` -/
def safeResultPayload (payload : PythonValue) (key : Option String := none) :
    Except String PythonValue := do
  require (isNonemptyDict payload = true) "Agent 结果必须是非空 JSON 对象。"
  let safe ← safeValue key payload
  require (isNonemptyDict safe = true) "Agent 结果为空或包含不安全字段。"
  pure safe

/-! ## Clean values -/

/-- Some mapping inside the value, or the value itself, has the key. -/
inductive HasKey (name : String) : PythonValue → Prop
  | key {isDict : Bool} {items : Items} {item : MappingKey × PythonValue} :
      item ∈ items → item.1.text = name → HasKey name (.mapping isDict items)
  | field {isDict : Bool} {items : Items} {item : MappingKey × PythonValue} :
      item ∈ items → HasKey name item.2 → HasKey name (.mapping isDict items)
  | item {items : List PythonValue} {item : PythonValue} :
      item ∈ items → HasKey name item → HasKey name (.list items)

/-- A value of dictionaries, lists and scalars, without a forbidden key. -/
inductive Clean : PythonValue → Prop
  | none : Clean .none
  | bool (b : Bool) : Clean (.bool b)
  | int (n : Int) : Clean (.int n)
  | float (text : String) : Clean (.float text)
  | str (s : String) : Clean (.str s)
  | list {items : List PythonValue} : (∀ item ∈ items, Clean item) → Clean (.list items)
  | dict {items : Items} : (items.map Prod.fst).Nodup →
      (∀ item ∈ items, ∃ s, item.1 = .str s ∧ s ∉ forbiddenKeys) →
      (∀ item ∈ items, Clean item.2) → Clean (.mapping true items)

/-- What `Clean` asks of the items of a dictionary. -/
structure CleanItems (items : Items) : Prop where
  distinct : (items.map Prod.fst).Nodup
  keys : ∀ item ∈ items, ∃ s, item.1 = .str s ∧ s ∉ forbiddenKeys
  values : ∀ item ∈ items, Clean item.2

theorem CleanItems.clean {items : Items} (h : CleanItems items) : Clean (.mapping true items) :=
  .dict h.distinct h.keys h.values

theorem cleanItems_nil : CleanItems [] where
  distinct := List.nodup_nil
  keys := fun _ h => nomatch h
  values := fun _ h => nomatch h

theorem cleanItems_singleton {name : String} {v : PythonValue} (hname : name ∉ forbiddenKeys)
    (hv : Clean v) : CleanItems [(.str name, v)] where
  distinct := List.nodup_singleton _
  keys := by
    intro item hitem
    rw [List.mem_singleton.1 hitem]
    exact ⟨name, rfl, hname⟩
  values := by
    intro item hitem
    rw [List.mem_singleton.1 hitem]
    exact hv

theorem CleanItems.cons {items : Items} {name : String} {v : PythonValue}
    (h : CleanItems items) (hname : name ∉ forbiddenKeys) (hv : Clean v)
    (hnew : MappingKey.str name ∉ items.map Prod.fst) : CleanItems ((.str name, v) :: items) where
  distinct := List.nodup_cons.2 ⟨hnew, h.distinct⟩
  keys := by
    intro item hitem
    rcases List.mem_cons.1 hitem with rfl | hold
    · exact ⟨name, rfl, hname⟩
    · exact h.keys item hold
  values := by
    intro item hitem
    rcases List.mem_cons.1 hitem with rfl | hold
    · exact hv
    · exact h.values item hold

theorem CleanItems.setItem {items : Items} {name : String} {v : PythonValue}
    (h : CleanItems items) (hname : name ∉ forbiddenKeys) (hv : Clean v) :
    CleanItems (setItem items name v) where
  distinct := nodup_assign rfl h.distinct
  keys := by
    intro item hitem
    rcases mem_assign hitem with rfl | hold
    · exact ⟨name, rfl, hname⟩
    · exact h.keys item hold
  values := by
    intro item hitem
    rcases mem_assign hitem with rfl | hold
    · exact hv
    · exact h.values item hold

/-- A clean value has no forbidden key at any depth. -/
theorem Clean.not_hasKey {v : PythonValue} (h : Clean v) {name : String}
    (hname : name ∈ forbiddenKeys) : ¬HasKey name v := by
  induction h with
  | list _ ih =>
    intro hkey
    cases hkey with
    | item hmem hitem => exact ih _ hmem hitem
  | dict _ hkeys _ ih =>
    intro hkey
    cases hkey with
    | key hmem htext =>
      rcases hkeys _ hmem with ⟨s, hs, hnot⟩
      rw [hs] at htext
      have hsname : s = name := htext
      exact hnot (hsname ▸ hname)
    | field hmem hitem => exact ih _ hmem hitem
  | _ =>
    intro hkey
    cases hkey

/-! ## What the projector returns -/

theorem hidden_or_bytes {name : String} (h : ¬(isHidden (some name) ∨ name = "__agent_bytes__")) :
    name ∉ forbiddenKeys := by
  intro hmem
  simp only [forbiddenKeys, isHidden, hiddenKeys, List.mem_cons, List.not_mem_nil,
    decide_eq_true_eq] at hmem h
  tauto

mutual

theorem clean_value (key : Option String) (v : PythonValue) : Clean (value key v) := by
  cases v with
  | mapping isDict items =>
    rw [value]
    split_ifs
    · exact .none
    · exact (cleanItems_valueItems items cleanItems_nil).clean
  | list items =>
    rw [value]
    split_ifs
    · exact .none
    · exact .list (clean_valueList items)
  | foreign typeName => exact .none
  | none =>
    simp only [value]
    split_ifs <;> exact .none
  | bool b =>
    simp only [value]
    split_ifs
    · exact .none
    · exact .bool b
  | int n =>
    simp only [value]
    split_ifs
    · exact .none
    · exact .int n
  | float text =>
    simp only [value]
    split_ifs
    · exact .none
    · exact .float text
  | str s =>
    simp only [value]
    split_ifs
    · exact .none
    · exact .str s
termination_by structural v

theorem clean_valueList (items : List PythonValue) : ∀ item ∈ valueList items, Clean item := by
  cases items with
  | nil =>
    intro item hitem
    cases hitem
  | cons v items =>
    have hrest := clean_valueList items
    rw [valueList]
    split_ifs
    · exact hrest
    · intro item hitem
      rcases List.mem_cons.1 hitem with rfl | hold
      · exact clean_value none v
      · exact hrest item hold
termination_by structural items

theorem cleanItems_valueItems (items : Items) {result : Items} (h : CleanItems result) :
    CleanItems (valueItems result items) := by
  cases items with
  | nil => exact h
  | cons item items =>
    rw [valueItems]
    exact cleanItems_valueItems items (cleanItems_valueItem item h)
termination_by structural items

theorem cleanItems_valueItem (item : MappingKey × PythonValue) {result : Items}
    (h : CleanItems result) : CleanItems (valueItem result item) := by
  cases item with
  | mk rawKey rawValue =>
    have hsafe := clean_value (some rawKey.text) rawValue
    rw [valueItem]
    split_ifs with hhidden
    · exact h
    · exact h
    · exact h.setItem (hidden_or_bytes hhidden) hsafe
termination_by structural item

end

theorem clean_text {v : PythonValue} {default : String} : Clean (text v default) := by
  unfold text
  split
  · split_ifs
    · exact .str _
    · exact .str _
  · exact .str _

theorem clean_artifactSize {artifact : Items} : Clean (artifactSize artifact) := by
  unfold artifactSize
  dsimp only
  split
  · split_ifs
    · exact .int _
    · exact .int _
  · exact .bool _
  · exact .int _

theorem clean_projectArtifact {artifact : Items} {callId : String} {index : Nat} :
    Clean (projectArtifact artifact callId index) := by
  refine CleanItems.clean (CleanItems.cons (CleanItems.cons (CleanItems.cons
    (cleanItems_singleton (by decide) clean_text) (by decide) clean_artifactSize ?_)
    (by decide) clean_text ?_) (by decide) clean_text ?_) <;> simp

theorem clean_projectArtifacts {artifacts : List PythonValue} {callId : String} :
    Clean (.list (projectArtifacts artifacts callId)) := by
  refine .list fun item hitem => ?_
  rcases List.mem_filterMap.1 hitem with ⟨pair, -, hpair⟩
  split at hpair
  · cases hpair
    exact clean_projectArtifact
  · cases hpair

theorem allowedAnalysis_clean {name : String} (h : name ∈ allowedAnalysis) :
    name ∉ forbiddenKeys := by
  simp only [allowedAnalysis, List.mem_cons, List.not_mem_nil, or_false] at h
  rcases h with rfl | rfl | rfl | rfl | rfl <;> decide

theorem analysisField_some {analysis : Items} {name : String} {item : MappingKey × PythonValue}
    (h : analysisField analysis name = some item) : item.1 = .str name ∧ Clean item.2 := by
  unfold analysisField at h
  split at h
  · dsimp only at h
    split_ifs at h
    cases h
    exact ⟨rfl, clean_value none _⟩
  · cases h

theorem keys_fields (analysis : Items) (names : List String) :
    ((names.filterMap (analysisField analysis)).map Prod.fst).Sublist
      (names.map MappingKey.str) := by
  induction names with
  | nil => exact List.Sublist.slnil
  | cons name names ih =>
    cases hfield : analysisField analysis name with
    | none =>
      rw [List.filterMap_cons_none hfield, List.map_cons]
      exact ih.cons _
    | some item =>
      rw [List.filterMap_cons_some hfield, List.map_cons, List.map_cons,
        (analysisField_some hfield).1]
      exact ih.cons_cons _

theorem clean_projectAnalysis {analysis : Items} : Clean (projectAnalysis analysis) := by
  refine .dict ?_ ?_ ?_
  · have hnames : (allowedAnalysis.map MappingKey.str).Nodup := by decide
    exact hnames.sublist (keys_fields analysis allowedAnalysis)
  · intro item hitem
    rcases List.mem_filterMap.1 hitem with ⟨name, hname, hfield⟩
    exact ⟨name, (analysisField_some hfield).1, allowedAnalysis_clean hname⟩
  · intro item hitem
    rcases List.mem_filterMap.1 hitem with ⟨name, -, hfield⟩
    exact (analysisField_some hfield).2

theorem clean_projectPlain {isDict : Bool} {output : Items} {callId : String} :
    Clean (projectPlain isDict output callId) ∧
      isNonemptyDict (projectPlain isDict output callId) = true := by
  unfold projectPlain
  split
  · exact ⟨(cleanItems_singleton (by decide) clean_projectArtifact).clean, rfl⟩
  · dsimp only
    split_ifs with hsafe
    · exact ⟨clean_value none _, hsafe⟩
    · exact ⟨(cleanItems_singleton (by decide) (clean_value none _)).clean, rfl⟩

/-- What the projector returns is a clean dictionary with something in it. -/
theorem clean_project (isDict : Bool) (output : Items) (callId : String) :
    Clean (project isDict output callId) ∧
      isNonemptyDict (project isDict output callId) = true := by
  unfold project
  split
  · split_ifs
    · dsimp only
      split
      · refine ⟨CleanItems.clean (CleanItems.cons (cleanItems_singleton (by decide)
          clean_projectArtifacts) (by decide) clean_projectAnalysis ?_), rfl⟩
        simp
      · exact ⟨(cleanItems_singleton (by decide) clean_projectArtifacts).clean, rfl⟩
    · exact clean_projectPlain
  · exact clean_projectPlain

/-! ## What the continuation accepts -/

theorem safeItems_clean {items : Items} (result : Items)
    (hdistinct : ((result ++ items).map Prod.fst).Nodup)
    (hkeys : ∀ item ∈ items, ∃ s, item.1 = .str s ∧ s ∉ forbiddenKeys)
    (hvalues : ∀ item ∈ items, ∀ key, isForbidden key = false →
      safeValue key item.2 = .ok item.2) : safeItems result items = .ok (result ++ items) := by
  induction items generalizing result with
  | nil =>
    rw [safeItems, List.append_nil]
    rfl
  | cons item items ih =>
    rcases hkeys item List.mem_cons_self with ⟨s, hs, hnot⟩
    have hsafe : safeItem item = .ok item.2 := by
      rw [show item = (item.1, item.2) from rfl, safeItem]
      apply hvalues item List.mem_cons_self
      rw [hs]
      exact decide_eq_false hnot
    have hnew : MappingKey.str s ∉ result.map Prod.fst := by
      rw [List.map_append, List.map_cons, hs] at hdistinct
      intro hmem
      exact (List.nodup_append.1 hdistinct).2.2 _ hmem _ List.mem_cons_self rfl
    have hset : setItem result item.1.text item.2 = result ++ [item] := by
      have htext : item.1.text = s := by rw [hs]; rfl
      rw [htext, setItem, assign_of_notMem hnew, ← hs]
    rw [safeItems, hsafe, ok_bind, hset]
    rw [ih _ ?_ ?_ ?_, List.append_assoc]
    · rfl
    · rwa [List.append_assoc]
    · exact fun i hi => hkeys i (List.mem_cons_of_mem _ hi)
    · exact fun i hi => hvalues i (List.mem_cons_of_mem _ hi)

theorem safeList_clean {items : List PythonValue}
    (h : ∀ item ∈ items, safeValue none item = .ok item) : safeList items = .ok items := by
  induction items with
  | nil => rfl
  | cons item items ih =>
    rw [safeList, h item List.mem_cons_self, ok_bind,
      ih fun i hi => h i (List.mem_cons_of_mem _ hi)]
    rfl

/-- The continuation returns a clean value as it is. -/
theorem safeValue_clean {v : PythonValue} (h : Clean v) :
    ∀ key, isForbidden key = false → safeValue key v = .ok v := by
  induction h with
  | list _ ih =>
    intro key hkey
    rw [safeValue, require, if_pos hkey, ok_bind,
      safeList_clean fun item hitem => ih item hitem none rfl]
    rfl
  | @dict items hdistinct hkeys _ ih =>
    intro key hkey
    rw [safeValue, require, if_pos hkey, ok_bind, require, if_pos rfl, ok_bind,
      safeItems_clean [] hdistinct hkeys ih]
    rfl
  | _ =>
    intro key hkey
    simp only [safeValue, require, if_pos hkey]
    rfl

theorem safeResultPayload_clean {payload : PythonValue} (h : Clean payload)
    (hdict : isNonemptyDict payload = true) : safeResultPayload payload = .ok payload := by
  rw [safeResultPayload, require, if_pos hdict, ok_bind, safeValue_clean h none rfl, ok_bind,
    require, if_pos hdict]
  rfl

end GoAgent.Dialogue.Projection
