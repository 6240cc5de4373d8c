import Mathlib.Data.List.Sort
import Mathlib.Data.Prod.Lex
import GoAgent.Foundation.Transition
import GoAgent.Interaction.Capabilities

/-!
# Candidate retrieval

`CapabilityCandidateRetrieval` keeps an index of capability candidates for each permission scope.
A refresh takes a snapshot of the catalog under the lock of its scope, has the search texts
embedded, and publishes a new index; a search reads the index of its scope once. Threads run side
by side, and the catalog and the embedding may answer anything.

* `search_spec` — what a search in an index returns.
* `Traced.step` — an index comes from one snapshot of the catalog for its scope.
* `Pending.step` — until it publishes, a refresh keeps its lock and the index of its scope.
* `retrieval_isolated` — both, for every run of the service.
-/

namespace GoAgent.Interaction.CandidateRetrieval

open GoAgent.Foundation

variable {F : Type} [LinearOrder F]

/-- What has been raised: whether it is an `Exception`, and its text. -/
structure Raised where
  isException : Bool := true
  text : String
  deriving DecidableEq

/-! ## Vectors -/

/-- The arithmetic of `float`. -/
structure FloatArithmetic (F : Type) where
  zero : F
  one : F
  negOne : F
  mul : F → F → F
  div : F → F → F
  sqrt : F → F
  sum : List F → F
  isFinite : F → Bool

/-- `_validate_vector` -/
def ValidVector (floats : FloatArithmetic F) (vector : List F) : Prop :=
  vector ≠ [] ∧ ∀ value ∈ vector, floats.isFinite value = true

instance (floats : FloatArithmetic F) (vector : List F) : Decidable (ValidVector floats vector) :=
  inferInstanceAs (Decidable (_ ∧ _))

def validateVector (floats : FloatArithmetic F) (vector : List F) : Except Raised Unit :=
  require (ValidVector floats vector) { text := "候选向量必须是非空有限数字序列。" }

def cosineSimilarity (floats : FloatArithmetic F) (left right : List F) : Except Raised F := do
  validateVector floats left
  validateVector floats right
  require (left.length = right.length) { text := "候选向量维度不一致。" }
  let leftNorm := floats.sqrt (floats.sum (left.map fun value => floats.mul value value))
  let rightNorm := floats.sqrt (floats.sum (right.map fun value => floats.mul value value))
  require (leftNorm ≠ floats.zero ∧ rightNorm ≠ floats.zero) { text := "候选向量不能是零向量。" }
  -- norms that are not zero may have a product that is
  require (floats.mul leftNorm rightNorm ≠ floats.zero) { text := "float division by zero" }
  pure (floats.div (floats.sum (List.zipWith floats.mul left right))
    (floats.mul leftNorm rightNorm))

/-! ## The index of a scope -/

/-- A record of the catalog, with what the index takes of it. -/
structure CatalogCapability extends PlatformCapability where
  retrievalMetadata : Inputs := []

structure CapabilityCandidateIndexEntry (floats : FloatArithmetic F) where
  capabilityCode : String
  searchText : String
  vector : List F
  retrievalMetadata : Inputs
  code_nonblank : isBlank capabilityCode = false
  text_nonblank : isBlank searchText = false
  vector_valid : ValidVector floats vector

structure CapabilityCandidate (F : Type) where
  capabilityCode : String
  score : F
  retrievalMetadata : Inputs

variable {floats : FloatArithmetic F}

def CapabilityCandidateIndexEntry.make (capabilityCode searchText : String) (vector : List F)
    (retrievalMetadata : Inputs) : Except Raised (CapabilityCandidateIndexEntry floats) :=
  if hcode : isBlank capabilityCode = false then
    if htext : isBlank searchText = false then
      if hvector : ValidVector floats vector then
        .ok ⟨capabilityCode, searchText, vector, retrievalMetadata, hcode, htext, hvector⟩
      else .error { text := "候选向量必须是非空有限数字序列。" }
    else .error { text := "候选索引记录缺少检索文本。" }
  else .error { text := "候选索引记录缺少能力代码。" }

/-- The dictionary of entries by their codes. -/
structure InMemoryCapabilityCandidateIndex (floats : FloatArithmetic F) where
  entries : List (CapabilityCandidateIndexEntry floats) := []
  isReady : Bool := false
  distinct : (entries.map (·.capabilityCode)).Nodup := by exact List.nodup_nil

namespace InMemoryCapabilityCandidateIndex

def codes (index : InMemoryCapabilityCandidateIndex floats) : List String :=
  index.entries.map (·.capabilityCode)

/-- `replacement[entry.capability_code] = entry` -/
def add (index : InMemoryCapabilityCandidateIndex floats)
    (entry : CapabilityCandidateIndexEntry floats) :
    Except Raised (InMemoryCapabilityCandidateIndex floats) :=
  if h : entry.capabilityCode ∈ index.codes then
    .error { text := "候选索引包含重复能力代码：" ++ entry.capabilityCode ++ "。" }
  else
    .ok
      { entries := index.entries ++ [entry]
        isReady := index.isReady
        distinct := by
          rw [List.map_append, List.map_singleton]
          exact List.nodup_append.2 ⟨index.distinct, List.nodup_singleton _, by
            intro a ha b hb hab
            rw [List.mem_singleton.1 hb] at hab
            exact h (hab ▸ ha)⟩ }

/-- `replace` -/
def ofEntries (entries : List (CapabilityCandidateIndexEntry floats)) :
    Except Raised (InMemoryCapabilityCandidateIndex floats) := do
  let replacement ← entries.foldlM add {}
  pure { replacement with isReady := true }

def scored (queryVector : List F) (minScore : F) :
    List (CapabilityCandidateIndexEntry floats) → Except Raised (List (CapabilityCandidate F))
  | [] => pure []
  | entry :: entries => do
    let score ← cosineSimilarity floats queryVector entry.vector
    let candidates ← scored queryVector minScore entries
    if minScore ≤ score then
      pure ({ capabilityCode := entry.capabilityCode
              score
              retrievalMetadata := entry.retrievalMetadata } :: candidates)
    else pure candidates

/-- `(-candidate.score, candidate.capability_code)` -/
def rank (candidate : CapabilityCandidate F) : Fᵒᵈ ×ₗ String :=
  toLex (OrderDual.toDual candidate.score, candidate.capabilityCode)

def search (index : InMemoryCapabilityCandidateIndex floats) (queryVector : List F) (topK : Int)
    (minScore : F) : Except Raised (List (CapabilityCandidate F)) := do
  require (1 ≤ topK) { text := "候选数量上限必须为正整数。" }
  let candidates ← scored queryVector minScore index.entries
  pure ((candidates.insertionSort fun a b => rank a ≤ rank b).take topK.toNat)

end InMemoryCapabilityCandidateIndex

/-! ## The service -/

abbrev PermissionScope := List String

def permissionScope (permissions : List String) : PermissionScope :=
  (normalizedPermissions permissions).dedup.insertionSort (· ≤ ·)

inductive IndexBuildStatus where
  | ready | empty | failed
  deriving DecidableEq

inductive CandidateRetrievalStatus where
  | ready | empty | unavailable
  deriving DecidableEq

structure CapabilityIndexBuildResult where
  status : IndexBuildStatus
  indexedCount : Nat
  errorCode : Option String := none
  errorMessage : Option String := none
  deriving DecidableEq

structure CapabilityCandidateRetrievalResult (F : Type) where
  query : String
  status : CandidateRetrievalStatus
  candidates : List (CapabilityCandidate F) := []
  errorCode : Option String := none
  errorMessage : Option String := none

/-- The index object of a scope: the one the constructor was handed, or one of a refresh. -/
inductive CachedIndex (floats : FloatArithmetic F) where
  | supplied (index : InMemoryCapabilityCandidateIndex floats)
  | refreshed (index : InMemoryCapabilityCandidateIndex floats)

def CachedIndex.index : CachedIndex floats → InMemoryCapabilityCandidateIndex floats
  | supplied index => index
  | refreshed index => index

def CachedIndex.entryCount (cached : CachedIndex floats) : Nat := cached.index.entries.length

structure CapabilityCandidateRetrieval (floats : FloatArithmetic F) where
  /-- The built-in `str`. -/
  str : Value → String
  index : Option (InMemoryCapabilityCandidateIndex floats) := none
  defaultMinScore : F
  default_in_range : floats.negOne ≤ defaultMinScore ∧ defaultMinScore ≤ floats.one

def maxTopK : Int := 50

/-- What `build_search_text` takes of a metadata value. -/
def searchTerms (str : Value → String) : Option Value → List String
  | some (.str s) => [s]
  | some (.list items) => (items.map str).filter fun s => !isBlank s
  | some (.tuple items) => (items.map str).filter fun s => !isBlank s
  | _ => []

def buildSearchText (str : Value → String) (capability : CatalogCapability) : String :=
  let terms := ["aliases", "keywords", "examples", "positive_examples", "search_terms"].flatMap
    fun key => searchTerms str (capability.retrievalMetadata.lookup key)
  let parts := [capability.code, capability.description] ++ terms
  "\n".intercalate ((parts.filter fun part => !isBlank part).map strip)

def indexEntry (str : Value → String) (item : CatalogCapability × List F) :
    Except Raised (CapabilityCandidateIndexEntry floats) :=
  CapabilityCandidateIndexEntry.make item.1.code (buildSearchText str item.1) item.2
    item.1.retrievalMetadata

/-- The `try` block of `_refresh_locked`, from the vectors on. -/
def buildIndex (str : Value → String) (capabilities : List CatalogCapability)
    (vectors : List (List F)) : Except Raised (InMemoryCapabilityCandidateIndex floats) := do
  require (vectors.length = capabilities.length)
    { text := "Embedding 返回数量与能力目录数量不一致。" }
  let entries ← mapEach (indexEntry str) (capabilities.zip vectors)
  InMemoryCapabilityCandidateIndex.ofEntries entries

def buildStatus (count : Nat) : IndexBuildStatus := if count = 0 then .empty else .ready

/-- The `except` clause of `_refresh_locked`; what is no `Exception` goes on. -/
def refreshFailed (previous : Option (CachedIndex floats)) (e : Raised) :
    Except Raised CapabilityIndexBuildResult :=
  if e.isException then
    .ok
      { status := .failed
        indexedCount := previous.elim 0 CachedIndex.entryCount
        errorCode := some "INDEX_BUILD_FAILED"
        errorMessage := some e.text }
  else .error e

def unavailable (query errorCode errorMessage : String) : CapabilityCandidateRetrievalResult F where
  query
  status := .unavailable
  errorCode := some errorCode
  errorMessage := some errorMessage

/-- The checks `search` makes of its arguments. -/
def checkSearch (floats : FloatArithmetic F) (query : String) (topK : Int) (threshold : F) :
    Except Raised Unit := do
  require (query ≠ "") { text := "候选召回查询不能为空。" }
  require (1 ≤ topK ∧ topK ≤ maxTopK) { text := "候选数量上限必须在 1 到 50 之间。" }
  require (floats.negOne ≤ threshold ∧ threshold ≤ floats.one)
    { text := "候选相似度阈值必须在 -1 到 1 之间。" }

/-- The end of `search`, from the vector of the query on. -/
def searchResult (query : String) (topK : Int) (threshold : F)
    (index : InMemoryCapabilityCandidateIndex floats) (answer : Except Raised (List F)) :
    Except Raised (CapabilityCandidateRetrievalResult F) :=
  let candidates := do
    let queryVector ← answer
    index.search queryVector topK threshold
  match candidates with
  | .ok candidates =>
    .ok
      { query
        status := if candidates.isEmpty then .empty else .ready
        candidates }
  | .error e =>
    if e.isException then .ok (unavailable query "EMBEDDING_UNAVAILABLE" e.text) else .error e

/-! ## Threads -/

/-- The methods that run under the refresh lock of a scope. -/
inductive LockedCall where
  | ensureReady | refresh | invalidate
  deriving DecidableEq

/-- Where a thread stands. -/
inductive Phase (floats : FloatArithmetic F) where
  | idle
  | waiting (scope : PermissionScope) (call : LockedCall)
  | locked (scope : PermissionScope) (call : LockedCall)
  | listing (scope : PermissionScope) (previous : Option (CachedIndex floats))
  | embedding (scope : PermissionScope) (previous : Option (CachedIndex floats))
      (capabilities : List CatalogCapability)
  | publishing (scope : PermissionScope) (replacement : InMemoryCapabilityCandidateIndex floats)
      (count : Nat)
  /-- `ensure_ready` or `refresh` has its answer and leaves the lock. -/
  | rebuilt (scope : PermissionScope) (answer : Except Raised CapabilityIndexBuildResult)
  | dropped (scope : PermissionScope)
  | searching (scope : PermissionScope) (query : String) (topK : Int) (threshold : F)
  | querying (scope : PermissionScope) (query : String) (topK : Int) (threshold : F)
      (cached : CachedIndex floats)
  /-- `search` has its answer, from the index it has read. -/
  | found (scope : PermissionScope) (topK : Int) (cached : Option (CachedIndex floats))
      (answer : Except Raised (CapabilityCandidateRetrievalResult F))

/-- What a thread does next: a call, a move of its own, or an answer to it. -/
inductive Event (F : Type) where
  | call (call : LockedCall) (permissions : List String)
  | search (query : String) (permissions : List String) (topK : Int) (minScore : Option F)
  | acquired
  | indexRead
  /-- `list_available(permissions=scope)` -/
  | listed (permissions : PermissionScope) (answer : Except Raised (List CatalogCapability))
  | embedded (answer : Except Raised (List (List F)))
  | published
  | popped
  | queryEmbedded (answer : Except Raised (List F))
  | returned

abbrev Thread := Nat

structure State (floats : FloatArithmetic F) where
  indexes : PermissionScope → Option (CachedIndex floats)
  /-- Who holds the refresh lock of a scope. -/
  holders : PermissionScope → Option Thread := fun _ => none
  threads : Thread → Phase floats := fun _ => .idle

namespace CapabilityCandidateRetrieval

/-- The service as it is constructed. -/
def initial (service : CapabilityCandidateRetrieval floats) : State floats where
  indexes := fun scope => if scope = [] then service.index.map .supplied else none

/-- What a thread does of its own, given what the indexes are. -/
def next (service : CapabilityCandidateRetrieval floats)
    (indexes : PermissionScope → Option (CachedIndex floats)) :
    Phase floats → Event F → Option (Phase floats)
  | .idle, .call call permissions => some (.waiting (permissionScope permissions) call)
  | .idle, .search query permissions topK minScore =>
    let scope := permissionScope permissions
    let threshold := minScore.getD service.defaultMinScore
    match checkSearch floats (strip query) topK threshold with
    | .ok () => some (.searching scope (strip query) topK threshold)
    | .error e => some (.found scope topK none (.error e))
  | .waiting scope call, .acquired => some (.locked scope call)
  | .locked scope .ensureReady, .indexRead =>
    match indexes scope with
    | some existing =>
      if existing.index.isReady then
        some (.rebuilt scope (.ok
          { status := buildStatus existing.entryCount
            indexedCount := existing.entryCount }))
      else some (.locked scope .refresh)
    | none => some (.locked scope .refresh)
  | .locked scope .refresh, .indexRead => some (.listing scope (indexes scope))
  | .locked scope .invalidate, .popped => some (.dropped scope)
  | .listing scope previous, .listed permissions answer =>
    if permissions = scope then
      match answer with
      | .ok capabilities => some (.embedding scope previous capabilities)
      | .error e => some (.rebuilt scope (refreshFailed previous e))
    else none
  | .embedding scope previous capabilities, .embedded answer =>
    match answer >>= buildIndex service.str capabilities with
    | .ok replacement => some (.publishing scope replacement capabilities.length)
    | .error e => some (.rebuilt scope (refreshFailed previous e))
  | .publishing scope _ count, .published =>
    some (.rebuilt scope (.ok
      { status := buildStatus count
        indexedCount := count }))
  | .rebuilt _ _, .returned => some .idle
  | .dropped _, .returned => some .idle
  | .searching scope query topK threshold, .indexRead =>
    match indexes scope with
    | some cached =>
      if cached.index.isReady then some (.querying scope query topK threshold cached)
      else some (.found scope topK none
        (.ok (unavailable query "INDEX_UNAVAILABLE" "能力候选索引尚未成功构建。")))
    | none => some (.found scope topK none
        (.ok (unavailable query "INDEX_UNAVAILABLE" "能力候选索引尚未成功构建。")))
  | .querying scope query topK threshold cached, .queryEmbedded answer =>
    some (.found scope topK (some cached) (searchResult query topK threshold cached.index answer))
  | .found .., .returned => some .idle
  | _, _ => none

end CapabilityCandidateRetrieval

/-- The scope whose refresh lock a thread holds. -/
def Phase.holds : Phase floats → Option PermissionScope
  | .locked scope _ => some scope
  | .listing scope _ => some scope
  | .embedding scope .. => some scope
  | .publishing scope .. => some scope
  | .rebuilt scope _ => some scope
  | .dropped scope => some scope
  | _ => none

/-- The writes to `_indexes`. -/
def Phase.write (indexes : PermissionScope → Option (CachedIndex floats)) :
    Phase floats → Event F → PermissionScope → Option (CachedIndex floats)
  | .publishing scope replacement _, .published =>
    Function.update indexes scope (some (.refreshed replacement))
  | .locked scope .invalidate, .popped => Function.update indexes scope none
  | _, _ => indexes

/-- The moves of the refresh locks: one that is held is not acquired. -/
def Phase.moveLock (holders : PermissionScope → Option Thread) (thread : Thread) :
    Phase floats → Event F → Option (PermissionScope → Option Thread)
  | .waiting scope _, .acquired =>
    if holders scope = none then some (Function.update holders scope (some thread)) else none
  | .rebuilt scope _, .returned => some (Function.update holders scope none)
  | .dropped scope, .returned => some (Function.update holders scope none)
  | _, _ => some holders

def CapabilityCandidateRetrieval.step (service : CapabilityCandidateRetrieval floats)
    (s : State floats) (action : Thread × Event F) : Option (State floats) := do
  let phase := s.threads action.1
  let holders ← phase.moveLock s.holders action.1 action.2
  let after ← service.next s.indexes phase action.2
  pure
    { indexes := phase.write s.indexes action.2
      holders
      threads := Function.update s.threads action.1 after }

/-- The runs of the service. -/
abbrev CapabilityCandidateRetrieval.Run (service : CapabilityCandidateRetrieval floats) :
    State floats → List (Thread × Event F) → State floats → Prop :=
  Steps fun s action t => service.step s action = some t

/-! ## What a search returns -/

namespace InMemoryCapabilityCandidateIndex

theorem scored_ok {queryVector : List F} {minScore : F}
    {entries : List (CapabilityCandidateIndexEntry floats)}
    {candidates : List (CapabilityCandidate F)}
    (h : scored queryVector minScore entries = .ok candidates) :
    (candidates.map (·.capabilityCode)).Sublist (entries.map (·.capabilityCode)) := by
  induction entries generalizing candidates with
  | nil =>
    cases h
    exact List.Sublist.slnil
  | cons entry entries ih =>
    simp only [scored, except_bind_ok] at h
    rcases h with ⟨score, -, rest, hrest, h⟩
    split_ifs at h
    · cases h
      exact (ih hrest).cons_cons _
    · cases h
      exact (ih hrest).cons _

omit [LinearOrder F] in
theorem rank_injective {a b : CapabilityCandidate F} (h : rank a = rank b) :
    a.capabilityCode = b.capabilityCode :=
  congrArg (fun r : Fᵒᵈ ×ₗ String => (ofLex r).2) h

/-- The candidates of a search are of the index, each once, in order, and not too many. -/
theorem search_spec {index : InMemoryCapabilityCandidateIndex floats} {queryVector : List F}
    {topK : Int} {minScore : F} {candidates : List (CapabilityCandidate F)}
    (h : index.search queryVector topK minScore = .ok candidates) :
    (∀ candidate ∈ candidates, candidate.capabilityCode ∈ index.codes) ∧
    (candidates.map (·.capabilityCode)).Nodup ∧
    candidates.Pairwise (fun a b => rank a < rank b) ∧
    (candidates.length : Int) ≤ topK := by
  simp only [search, except_bind_ok, exists_unit, require_ok, except_pure_ok] at h
  rcases h with ⟨hk, found, hscored, rfl⟩
  have hsub := scored_ok hscored
  have hperm : (found.insertionSort fun a b => rank a ≤ rank b).Perm found :=
    List.perm_insertionSort _ _
  have hnodup : ((found.insertionSort fun a b => rank a ≤ rank b).map
      (·.capabilityCode)).Nodup := (hperm.map _).nodup_iff.2 (hsub.nodup index.distinct)
  have hsorted : (found.insertionSort fun a b => rank a ≤ rank b).Pairwise
      (fun a b => rank a ≤ rank b) := List.pairwise_insertionSort _ _
  have hstrict : (found.insertionSort fun a b => rank a ≤ rank b).Pairwise
      (fun a b => rank a < rank b) := by
    refine (hsorted.and (List.pairwise_map.1 hnodup)).imp ?_
    intro a b hab
    exact lt_of_le_of_ne hab.1 fun heq => hab.2 (rank_injective heq)
  refine ⟨?_, ?_, hstrict.sublist (List.take_sublist _ _), ?_⟩
  · intro candidate hmem
    have hfound := hperm.mem_iff.1 (List.mem_of_mem_take hmem)
    exact hsub.subset (List.mem_map_of_mem hfound)
  · exact hnodup.sublist ((List.take_sublist _ _).map _)
  · have hlen := List.length_take_le topK.toNat (found.insertionSort fun a b => rank a ≤ rank b)
    omega

omit [LinearOrder F] in
theorem codes_foldlM {entries : List (CapabilityCandidateIndexEntry floats)}
    {index replacement : InMemoryCapabilityCandidateIndex floats}
    (h : entries.foldlM add index = .ok replacement) :
    replacement.codes = index.codes ++ entries.map (·.capabilityCode) := by
  induction entries generalizing index with
  | nil =>
    cases h
    rw [List.map_nil, List.append_nil]
  | cons entry entries ih =>
    rw [List.foldlM_cons] at h
    by_cases hmem : entry.capabilityCode ∈ index.codes
    · rw [add, dif_pos hmem] at h
      cases h
    · rw [add, dif_neg hmem] at h
      rw [ih h, List.map_cons, codes, List.map_append, List.append_assoc]
      rfl

end InMemoryCapabilityCandidateIndex

omit [LinearOrder F] in
theorem CapabilityCandidateIndexEntry.make_code {code text : String} {vector : List F}
    {metadata : Inputs} {entry : CapabilityCandidateIndexEntry floats}
    (h : make code text vector metadata = .ok entry) : entry.capabilityCode = code := by
  rw [make] at h
  split_ifs at h
  cases h
  rfl

omit [LinearOrder F] in
theorem codes_of_entries {str : Value → String} {items : List (CatalogCapability × List F)}
    {entries : List (CapabilityCandidateIndexEntry floats)}
    (h : List.Forall₂ (fun item entry => indexEntry str item = .ok entry) items entries) :
    entries.map (·.capabilityCode) = items.map (·.1.code) := by
  induction h with
  | nil => rfl
  | cons hentry _ ih =>
    rw [List.map_cons, List.map_cons, ih, CapabilityCandidateIndexEntry.make_code hentry]

omit [LinearOrder F] in
/-- A new index has the codes of the snapshot it is built of. -/
theorem buildIndex_codes {str : Value → String} {capabilities : List CatalogCapability}
    {vectors : List (List F)} {index : InMemoryCapabilityCandidateIndex floats}
    (h : buildIndex str capabilities vectors = .ok index) :
    index.codes = capabilities.map (·.code) := by
  simp only [buildIndex, InMemoryCapabilityCandidateIndex.ofEntries, except_bind_ok, exists_unit,
    require_ok, except_pure_ok, mapEach_ok] at h
  rcases h with ⟨hlen, entries, hentries, replacement, hadd, rfl⟩
  have hzip : (capabilities.zip vectors).map Prod.fst = capabilities :=
    List.map_fst_zip hlen.ge
  have hall := InMemoryCapabilityCandidateIndex.codes_foldlM hadd
  rw [codes_of_entries hentries] at hall
  calc replacement.codes
      = (capabilities.zip vectors).map (·.1.code) := hall
    _ = ((capabilities.zip vectors).map Prod.fst).map (·.code) := by rw [List.map_map]; rfl
    _ = capabilities.map (·.code) := by rw [hzip]

/-! ## Where an index comes from -/

section Runs

variable {service : CapabilityCandidateRetrieval floats} {s s' : State floats}
  {actions : List (Thread × Event F)} {action : Thread × Event F} {scope : PermissionScope}

/-- An index has the codes of one snapshot of the catalog taken for a scope. -/
def BuiltFor (actions : List (Thread × Event F)) (scope : PermissionScope)
    (index : InMemoryCapabilityCandidateIndex floats) : Prop :=
  ∃ thread capabilities, (thread, Event.listed scope (.ok capabilities)) ∈ actions ∧
    index.codes = capabilities.map (·.code)

/-- What a search on an index of a refresh returns. -/
structure FromSnapshot (actions : List (Thread × Event F)) (scope : PermissionScope) (topK : Int)
    (candidates : List (CapabilityCandidate F)) : Prop where
  snapshot : ∃ thread capabilities, (thread, Event.listed scope (.ok capabilities)) ∈ actions ∧
    ∀ candidate ∈ candidates, candidate.capabilityCode ∈ capabilities.map (·.code)
  distinct : (candidates.map (·.capabilityCode)).Nodup
  sorted : candidates.Pairwise fun a b => InMemoryCapabilityCandidateIndex.rank a <
    InMemoryCapabilityCandidateIndex.rank b
  bounded : (candidates.length : Int) ≤ topK

/-- What the events so far tell of what a thread has read. -/
def Phase.Traced (actions : List (Thread × Event F)) : Phase floats → Prop
  | .embedding scope _ capabilities =>
    ∃ thread, (thread, Event.listed scope (.ok capabilities)) ∈ actions
  | .publishing scope replacement _ => BuiltFor actions scope replacement
  | .searching _ _ topK _ => 1 ≤ topK
  | .querying scope _ topK _ cached =>
    1 ≤ topK ∧ ∀ index, cached = .refreshed index → BuiltFor actions scope index
  | .found scope topK cached answer =>
    ∀ index result, cached = some (.refreshed index) → answer = .ok result →
      FromSnapshot actions scope topK result.candidates
  | _ => True

structure Traced (actions : List (Thread × Event F)) (s : State floats) : Prop where
  indexes : ∀ scope index, s.indexes scope = some (.refreshed index) →
    BuiltFor actions scope index
  threads : ∀ thread, (s.threads thread).Traced actions

omit [LinearOrder F] in
theorem BuiltFor.mono {index : InMemoryCapabilityCandidateIndex floats}
    (h : BuiltFor actions scope index) : BuiltFor (actions ++ [action]) scope index := by
  rcases h with ⟨thread, capabilities, hmem, hcodes⟩
  exact ⟨thread, capabilities, List.mem_append_left _ hmem, hcodes⟩

theorem FromSnapshot.mono {topK : Int} {candidates : List (CapabilityCandidate F)}
    (h : FromSnapshot actions scope topK candidates) :
    FromSnapshot (actions ++ [action]) scope topK candidates := by
  rcases h.snapshot with ⟨thread, capabilities, hmem, hcodes⟩
  exact
    { h with snapshot := ⟨thread, capabilities, List.mem_append_left _ hmem, hcodes⟩ }

theorem Phase.Traced.mono {phase : Phase floats} (h : phase.Traced actions) :
    phase.Traced (actions ++ [action]) := by
  cases phase with
  | embedding scope previous capabilities =>
    rcases h with ⟨thread, hmem⟩
    exact ⟨thread, List.mem_append_left _ hmem⟩
  | publishing scope replacement count => exact BuiltFor.mono h
  | querying scope query topK threshold cached =>
    exact ⟨h.1, fun index hindex => (h.2 index hindex).mono⟩
  | searching scope query topK threshold => exact h
  | found scope topK cached answer =>
    exact fun index result hindex hresult => (h index result hindex hresult).mono
  | _ => trivial

/-- Without candidates there is nothing to order. -/
theorem fromSnapshot_nil {topK : Int} {index : InMemoryCapabilityCandidateIndex floats}
    (h : BuiltFor actions scope index) (hk : 1 ≤ topK) :
    FromSnapshot actions scope topK ([] : List (CapabilityCandidate F)) := by
  rcases h with ⟨thread, capabilities, hmem, -⟩
  refine ⟨⟨thread, capabilities, hmem, ?_⟩, List.nodup_nil, List.Pairwise.nil, ?_⟩
  · intro candidate hcandidate
    cases hcandidate
  · rw [List.length_nil]
    omega

theorem fromSnapshot_searchResult {query : String} {topK : Int} {threshold : F}
    {index : InMemoryCapabilityCandidateIndex floats} {answer : Except Raised (List F)}
    {result : CapabilityCandidateRetrievalResult F} (h : BuiltFor actions scope index)
    (hk : 1 ≤ topK) (hresult : searchResult query topK threshold index answer = .ok result) :
    FromSnapshot actions scope topK result.candidates := by
  rw [searchResult] at hresult
  cases hfound : (do
    let queryVector ← answer
    index.search queryVector topK threshold) with
  | error e =>
    simp only [hfound] at hresult
    split_ifs at hresult
    cases hresult
    exact fromSnapshot_nil h hk
  | ok candidates =>
    simp only [hfound] at hresult
    cases hresult
    rcases h with ⟨thread, capabilities, hmem, hcodes⟩
    rw [except_bind_ok] at hfound
    rcases hfound with ⟨queryVector, -, hsearch⟩
    rcases InMemoryCapabilityCandidateIndex.search_spec hsearch with
      ⟨hindex, hdistinct, hsorted, hbounded⟩
    exact ⟨⟨thread, capabilities, hmem, fun c hc => hcodes ▸ hindex c hc⟩, hdistinct, hsorted,
      hbounded⟩

/-- `checkSearch` leaves room for a candidate. -/
theorem one_le_of_checkSearch {query : String} {topK : Int} {threshold : F} {u : Unit}
    (h : checkSearch floats query topK threshold = .ok u) : 1 ≤ topK := by
  simp only [checkSearch, except_bind_ok, exists_unit, require_ok] at h
  exact h.2.1.1

theorem Phase.Traced.next {phase after : Phase floats} {thread : Thread} {event : Event F}
    {indexes : PermissionScope → Option (CachedIndex floats)} (h : phase.Traced actions)
    (hindexes : ∀ scope index, indexes scope = some (.refreshed index) →
      BuiltFor actions scope index)
    (hnext : service.next indexes phase event = some after) :
    after.Traced (actions ++ [(thread, event)]) := by
  unfold CapabilityCandidateRetrieval.next at hnext
  split at hnext
  · cases hnext
    trivial
  · dsimp only at hnext
    split at hnext
    · cases hnext
      exact one_le_of_checkSearch (by assumption)
    · cases hnext
      intro index result hindex
      cases hindex
  · cases hnext
    trivial
  · -- `ensure_ready` reads the index
    split at hnext
    · split_ifs at hnext <;> cases hnext <;> trivial
    · cases hnext
      trivial
  · cases hnext
    trivial
  · cases hnext
    trivial
  · -- the snapshot is taken
    split_ifs at hnext with hscope
    subst hscope
    split at hnext
    · cases hnext
      exact ⟨thread, List.mem_append_right _ (List.mem_singleton.2 rfl)⟩
    · cases hnext
      trivial
  · -- the new index is built of the snapshot
    split at hnext
    · rename_i replacement hbuild
      cases hnext
      rcases except_bind_ok.1 hbuild with ⟨vectors, -, hindex⟩
      rcases h with ⟨lister, hmem⟩
      exact ⟨lister, _, List.mem_append_left _ hmem, buildIndex_codes hindex⟩
    · cases hnext
      trivial
  · cases hnext
    trivial
  · cases hnext
    trivial
  · cases hnext
    trivial
  · -- a search reads the index of its scope
    split at hnext
    · rename_i cached hcached
      split_ifs at hnext
      · cases hnext
        refine ⟨h, fun index hindex => (hindexes _ _ ?_).mono⟩
        rw [hcached, hindex]
      · cases hnext
        intro index result hindex
        cases hindex
    · cases hnext
      intro index result hindex
      cases hindex
  · -- a search in the index it has read
    cases hnext
    intro index result hindex hresult
    cases hindex
    exact (fromSnapshot_searchResult (h.2 index rfl) h.1 hresult).mono
  · cases hnext
    trivial
  · cases hnext

theorem step_spec (hstep : service.step s action = some s') :
    ∃ after, service.next s.indexes (s.threads action.1) action.2 = some after ∧
      (s.threads action.1).moveLock s.holders action.1 action.2 = some s'.holders ∧
      s'.indexes = (s.threads action.1).write s.indexes action.2 ∧
      s'.threads = Function.update s.threads action.1 after := by
  simp only [CapabilityCandidateRetrieval.step, Option.bind_eq_bind, Option.bind_eq_some_iff,
    Option.pure_def, Option.some.injEq] at hstep
  rcases hstep with ⟨holders, hlock, after, hnext, rfl⟩
  exact ⟨after, hnext, hlock, rfl, rfl⟩

omit [LinearOrder F] in
/-- Only a publication and an invalidation write, each at its own scope. -/
theorem write_cases (indexes : PermissionScope → Option (CachedIndex floats))
    (phase : Phase floats) (event : Event F) :
    phase.write indexes event = indexes ∨
    (∃ scope replacement count, phase = .publishing scope replacement count ∧
      event = .published ∧
      phase.write indexes event = Function.update indexes scope (some (.refreshed replacement))) ∨
    (∃ scope, phase = .locked scope .invalidate ∧ event = .popped ∧
      phase.write indexes event = Function.update indexes scope none) := by
  unfold Phase.write
  split
  · exact .inr (.inl ⟨_, _, _, rfl, rfl, rfl⟩)
  · exact .inr (.inr ⟨_, rfl, rfl, rfl⟩)
  · exact .inl rfl

theorem Traced.step (h : Traced actions s) (hstep : service.step s action = some s') :
    Traced (actions ++ [action]) s' := by
  rcases step_spec hstep with ⟨after, hnext, -, hindexes, hthreads⟩
  constructor
  · intro scope index hindex
    rw [hindexes] at hindex
    rcases write_cases s.indexes (s.threads action.1) action.2 with
      hwrite | ⟨published, replacement, count, hphase, -, hwrite⟩ | ⟨popped, -, -, hwrite⟩
    · rw [hwrite] at hindex
      exact (h.indexes scope index hindex).mono
    · rw [hwrite] at hindex
      by_cases hscope : scope = published
      · subst hscope
        rw [Function.update_self] at hindex
        cases hindex
        have hbuilt := h.threads action.1
        rw [hphase] at hbuilt
        exact BuiltFor.mono hbuilt
      · rw [Function.update_of_ne hscope] at hindex
        exact (h.indexes scope index hindex).mono
    · rw [hwrite] at hindex
      by_cases hscope : scope = popped
      · subst hscope
        rw [Function.update_self] at hindex
        cases hindex
      · rw [Function.update_of_ne hscope] at hindex
        exact (h.indexes scope index hindex).mono
  · intro thread
    rw [hthreads]
    by_cases hthread : thread = action.1
    · subst hthread
      rw [Function.update_self]
      exact (h.threads action.1).next h.indexes hnext
    · rw [Function.update_of_ne hthread]
      exact (h.threads thread).mono

theorem Traced.initial : Traced [] service.initial := by
  constructor
  · intro scope index hindex
    unfold CapabilityCandidateRetrieval.initial at hindex
    dsimp only at hindex
    split_ifs at hindex
    cases hsupplied : service.index with
    | none =>
      rw [hsupplied] at hindex
      cases hindex
    | some supplied =>
      rw [hsupplied] at hindex
      cases hindex
  · intro thread
    trivial

theorem Traced.steps {actions' : List (Thread × Event F)} (h : Traced actions s)
    (hrun : service.Run s actions' s') :
    Traced (actions ++ actions') s' := by
  induction hrun generalizing actions with
  | nil s => rwa [List.append_nil]
  | cons hstep _ ih =>
    rw [List.append_cons]
    exact ih (h.step hstep)

/-! ## A refresh under its lock -/

def Failed : Except Raised CapabilityIndexBuildResult → Prop
  | .ok result => result.status = .failed
  | .error _ => True

/-- A thread that refreshes a scope, and has not published. -/
def Phase.Unpublished (scope : PermissionScope) : Phase floats → Prop
  | .locked scope' call => scope' = scope ∧ call ≠ .invalidate
  | .listing scope' _ => scope' = scope
  | .embedding scope' .. => scope' = scope
  | .publishing scope' .. => scope' = scope
  | .rebuilt scope' answer => scope' = scope ∧ Failed answer
  | _ => False

/-- A thread that has an index for a scope. -/
def Phase.Succeeded (scope : PermissionScope) : Phase floats → Prop
  | .rebuilt scope' answer => scope' = scope ∧ ¬Failed answer
  | _ => False

/-- Who holds a refresh lock is inside of it. -/
def Locked (s : State floats) : Prop :=
  ∀ thread scope, (s.threads thread).holds = some scope ↔ s.holders scope = some thread

theorem moveLock_spec {holders holders' : PermissionScope → Option Thread} {thread : Thread}
    {indexes : PermissionScope → Option (CachedIndex floats)} {phase after : Phase floats}
    {event : Event F} (hlock : phase.moveLock holders thread event = some holders')
    (hnext : service.next indexes phase event = some after) :
    (after.holds = phase.holds ∧ holders' = holders) ∨
    (∃ scope, phase.holds = none ∧ holders scope = none ∧ after.holds = some scope ∧
      holders' = Function.update holders scope (some thread)) ∨
    (∃ scope, phase.holds = some scope ∧ after.holds = none ∧
      holders' = Function.update holders scope none) := by
  unfold Phase.moveLock at hlock
  split at hlock
  · split_ifs at hlock with hfree
    cases hlock
    cases hnext
    exact .inr (.inl ⟨_, rfl, hfree, rfl, rfl⟩)
  · cases hlock
    cases hnext
    exact .inr (.inr ⟨_, rfl, rfl, rfl⟩)
  · cases hlock
    cases hnext
    exact .inr (.inr ⟨_, rfl, rfl, rfl⟩)
  · cases hlock
    refine .inl ⟨?_, rfl⟩
    unfold CapabilityCandidateRetrieval.next at hnext
    split at hnext
    · cases hnext
      rfl
    · dsimp only at hnext
      split at hnext <;> cases hnext <;> rfl
    · rename_i hwaiting _ _
      exact (hwaiting _ _ rfl rfl).elim
    · repeat' split at hnext
      all_goals
        cases hnext
        rfl
    · cases hnext
      rfl
    · cases hnext
      rfl
    · split_ifs at hnext
      split at hnext <;> cases hnext <;> rfl
    · split at hnext <;> cases hnext <;> rfl
    · cases hnext
      rfl
    · rename_i hrebuilt _
      exact (hrebuilt _ _ rfl rfl).elim
    · rename_i hdropped
      exact (hdropped _ rfl rfl).elim
    · repeat' split at hnext
      all_goals
        cases hnext
        rfl
    · cases hnext
      rfl
    · cases hnext
      rfl
    · cases hnext

theorem Locked.step (h : Locked s) (hstep : service.step s action = some s') : Locked s' := by
  rcases step_spec hstep with ⟨after, hnext, hlock, -, hthreads⟩
  intro thread scope
  rw [hthreads]
  rcases moveLock_spec hlock hnext with ⟨hholds, hsame⟩ | ⟨taken, hnone, hfree, hholds, hmoved⟩ |
    ⟨left, hheld, hholds, hmoved⟩
  · rw [hsame, ← h thread scope]
    by_cases hthread : thread = action.1
    · subst hthread
      rw [Function.update_self, hholds]
    · rw [Function.update_of_ne hthread]
  · rw [hmoved]
    by_cases hthread : thread = action.1
    · subst hthread
      rw [Function.update_self, hholds]
      by_cases hscope : scope = taken
      · subst hscope
        rw [Function.update_self]
        exact iff_of_true rfl rfl
      · rw [Function.update_of_ne hscope, ← h action.1 scope, hnone]
        refine iff_of_false (fun heq => hscope (Option.some.inj heq).symm) ?_
        intro heq
        cases heq
    · rw [Function.update_of_ne hthread, h thread scope]
      by_cases hscope : scope = taken
      · subst hscope
        rw [Function.update_self, hfree]
        refine iff_of_false (fun heq => nomatch heq) ?_
        exact fun heq => hthread (Option.some.inj heq).symm
      · rw [Function.update_of_ne hscope]
  · rw [hmoved]
    by_cases hthread : thread = action.1
    · subst hthread
      rw [Function.update_self, hholds]
      by_cases hscope : scope = left
      · subst hscope
        rw [Function.update_self]
        exact iff_of_false (fun heq => nomatch heq) fun heq => nomatch heq
      · rw [Function.update_of_ne hscope, ← h action.1 scope, hheld]
        refine iff_of_false (fun heq => nomatch heq) ?_
        exact fun heq => hscope (Option.some.inj heq).symm
    · rw [Function.update_of_ne hthread, h thread scope]
      by_cases hscope : scope = left
      · subst hscope
        have hheld' := (h action.1 scope).1 hheld
        rw [Function.update_self, hheld']
        refine iff_of_false (fun heq => hthread (Option.some.inj heq).symm) ?_
        exact fun heq => nomatch heq
      · rw [Function.update_of_ne hscope]

theorem Locked.initial : Locked service.initial := by
  intro thread scope
  exact iff_of_false (fun heq => nomatch heq) fun heq => nomatch heq

omit [LinearOrder F] in
theorem Phase.Unpublished.holds {phase : Phase floats} (h : phase.Unpublished scope) :
    phase.holds = some scope := by
  cases phase with
  | locked scope' call => exact congrArg some h.1
  | rebuilt scope' answer => exact congrArg some h.1
  | listing scope' previous => exact congrArg some h
  | embedding scope' previous capabilities => exact congrArg some h
  | publishing scope' replacement count => exact congrArg some h
  | _ => exact h.elim

theorem not_failed_ready {count : Nat} :
    ¬Failed (.ok { status := buildStatus count, indexedCount := count }) := by
  intro h
  have hstatus : buildStatus count = .failed := h
  unfold buildStatus at hstatus
  split_ifs at hstatus

omit [LinearOrder F] in
theorem failed_refreshFailed {previous : Option (CachedIndex floats)} {e : Raised} :
    Failed (refreshFailed previous e) := by
  unfold refreshFailed
  split_ifs
  · rfl
  · trivial

/-- A refresh goes on, fails or succeeds; only then does it write. -/
theorem Phase.Unpublished.next {phase after : Phase floats} {event : Event F}
    {indexes : PermissionScope → Option (CachedIndex floats)} (h : phase.Unpublished scope)
    (hnext : service.next indexes phase event = some after) (hevent : event ≠ .returned) :
    after.Unpublished scope ∧ phase.write indexes event = indexes ∨ after.Succeeded scope := by
  cases phase with
  | locked scope' call =>
    rcases h with ⟨rfl, hcall⟩
    cases call with
    | invalidate => exact (hcall rfl).elim
    | refresh =>
      cases event with
      | indexRead =>
        cases hnext
        exact .inl ⟨rfl, rfl⟩
      | _ => cases hnext
    | ensureReady =>
      cases event with
      | indexRead =>
        unfold CapabilityCandidateRetrieval.next at hnext
        dsimp only at hnext
        split at hnext
        · split_ifs at hnext
          · cases hnext
            exact .inr ⟨rfl, not_failed_ready⟩
          · cases hnext
            exact .inl ⟨⟨rfl, fun hcall => nomatch hcall⟩, rfl⟩
        · cases hnext
          exact .inl ⟨⟨rfl, fun hcall => nomatch hcall⟩, rfl⟩
      | _ => cases hnext
  | listing scope' previous =>
    cases event with
    | listed permissions answer =>
      unfold CapabilityCandidateRetrieval.next at hnext
      dsimp only at hnext
      split_ifs at hnext
      split at hnext
      · cases hnext
        exact .inl ⟨h, rfl⟩
      · cases hnext
        exact .inl ⟨⟨h, failed_refreshFailed⟩, rfl⟩
    | _ => cases hnext
  | embedding scope' previous capabilities =>
    cases event with
    | embedded answer =>
      unfold CapabilityCandidateRetrieval.next at hnext
      dsimp only at hnext
      split at hnext
      · cases hnext
        exact .inl ⟨h, rfl⟩
      · cases hnext
        exact .inl ⟨⟨h, failed_refreshFailed⟩, rfl⟩
    | _ => cases hnext
  | publishing scope' replacement count =>
    cases event with
    | published =>
      cases hnext
      exact .inr ⟨h, not_failed_ready⟩
    | _ => cases hnext
  | rebuilt scope' answer =>
    cases event with
    | returned => exact (hevent rfl).elim
    | _ => cases hnext
  | _ => exact h.elim

theorem Phase.Succeeded.next {phase after : Phase floats} {event : Event F}
    {indexes : PermissionScope → Option (CachedIndex floats)} (h : phase.Succeeded scope)
    (hnext : service.next indexes phase event = some after) : event = .returned := by
  cases phase with
  | rebuilt scope' answer =>
    cases event with
    | returned => rfl
    | _ => cases hnext
  | _ => exact h.elim

omit [LinearOrder F] in
theorem Phase.Succeeded.not_unpublished {phase : Phase floats} (h : phase.Succeeded scope) :
    ¬phase.Unpublished scope := by
  cases phase with
  | rebuilt scope' answer => exact fun hun => h.2 hun.2
  | _ => exact h.elim

omit [LinearOrder F] in
/-- A write is at the scope whose lock the thread holds. -/
theorem write_of_holds_ne {indexes : PermissionScope → Option (CachedIndex floats)}
    {phase : Phase floats} {event : Event F} (h : phase.holds ≠ some scope) :
    phase.write indexes event scope = indexes scope := by
  rcases write_cases indexes phase event with
    hwrite | ⟨published, replacement, count, rfl, -, hwrite⟩ | ⟨popped, rfl, -, hwrite⟩
  · rw [hwrite]
  · rw [hwrite, Function.update_of_ne]
    exact fun heq => h (congrArg some heq.symm)
  · rw [hwrite, Function.update_of_ne]
    exact fun heq => h (congrArg some heq.symm)

/-- The thread refreshes the scope and has not published, and the scope has the index it had. -/
structure Pending (thread : Thread) (scope : PermissionScope)
    (previous : Option (CachedIndex floats)) (s : State floats) : Prop where
  locked : Locked s
  unpublished : (s.threads thread).Unpublished scope
  kept : s.indexes scope = previous

variable {thread : Thread} {previous : Option (CachedIndex floats)}

/-- A step of another thread leaves a pending refresh alone, and a step of its own writes nothing
or has it succeed. -/
theorem Pending.step (h : Pending thread scope previous s)
    (hstep : service.step s action = some s') (haction : action ≠ (thread, .returned)) :
    Pending thread scope previous s' ∧ (action.1 = thread → s'.indexes = s.indexes) ∨
      (s'.threads thread).Succeeded scope := by
  have hlocked := h.locked.step hstep
  rcases step_spec hstep with ⟨after, hnext, -, hindexes, hthreads⟩
  by_cases hthread : action.1 = thread
  · subst hthread
    have hself : s'.threads action.1 = after := by rw [hthreads, Function.update_self]
    have hevent : action.2 ≠ .returned := fun heq => haction (Prod.ext rfl heq)
    rcases h.unpublished.next hnext hevent with ⟨hafter, hwrite⟩ | hafter
    · rw [hwrite] at hindexes
      refine .inl ⟨⟨hlocked, hself ▸ hafter, ?_⟩, fun _ => hindexes⟩
      rw [hindexes, h.kept]
    · exact .inr (hself ▸ hafter)
  · have hother : s'.threads thread = s.threads thread := by
      rw [hthreads, Function.update_of_ne (Ne.symm hthread)]
    have hholder := (h.locked thread scope).1 h.unpublished.holds
    have hnot : (s.threads action.1).holds ≠ some scope := by
      intro hholds
      rw [h.locked action.1 scope, hholder] at hholds
      exact hthread (Option.some.inj hholds).symm
    refine .inl ⟨⟨hlocked, hother ▸ h.unpublished, ?_⟩, fun heq => (hthread heq).elim⟩
    rw [hindexes, write_of_holds_ne hnot, h.kept]

/-- A refresh that has succeeded has until it returns. -/
theorem succeeded_steps (h : (s.threads thread).Succeeded scope)
    (hrun : service.Run s actions s')
    (hin : (thread, Event.returned) ∉ actions) : (s'.threads thread).Succeeded scope := by
  induction hrun with
  | nil s => exact h
  | @cons s t u a actions hstep _ ih =>
    refine ih ?_ fun hmem => hin (List.mem_cons_of_mem _ hmem)
    rcases step_spec hstep with ⟨after, hnext, -, -, hthreads⟩
    by_cases hthread : a.1 = thread
    · subst hthread
      have hevent := h.next hnext
      exact (hin (List.mem_cons.2 (.inl (Prod.ext rfl hevent.symm)))).elim
    · rw [hthreads, Function.update_of_ne (Ne.symm hthread)]
      exact h

theorem Pending.steps (h : Pending thread scope previous s)
    (hrun : service.Run s actions s')
    (hin : (thread, Event.returned) ∉ actions) :
    Pending thread scope previous s' ∨ (s'.threads thread).Succeeded scope := by
  induction hrun with
  | nil s => exact .inl h
  | @cons s t u a actions hstep hrest ih =>
    have hrest' : (thread, Event.returned) ∉ actions :=
      fun hmem => hin (List.mem_cons_of_mem _ hmem)
    have ha : a ≠ (thread, .returned) := fun heq => hin (List.mem_cons.2 (.inl heq.symm))
    rcases h.step hstep ha with ⟨hpending, -⟩ | hdone
    · exact ih hpending hrest'
    · exact .inr (succeeded_steps hdone hrest hrest')

/-- The thread refreshes the scope from `started` on, and at `s` the refresh has failed. -/
structure FailedRefresh (service : CapabilityCandidateRetrieval floats) (thread : Thread)
    (scope : PermissionScope) (started : State floats) (actions : List (Thread × Event F))
    (s : State floats) : Prop where
  call : ∃ call, started.threads thread = .locked scope call ∧ call ≠ .invalidate
  run : service.Run started actions s
  running : (thread, Event.returned) ∉ actions
  failed : ∃ answer, s.threads thread = .rebuilt scope answer ∧ Failed answer

theorem FailedRefresh.unpublished {started : State floats}
    (h : FailedRefresh service thread scope started actions s) :
    (s.threads thread).Unpublished scope := by
  rcases h.failed with ⟨answer, hphase, hfailed⟩
  rw [hphase]
  exact ⟨rfl, hfailed⟩

theorem FailedRefresh.pending {started : State floats} (hlocked : Locked started)
    (h : FailedRefresh service thread scope started actions s) :
    Pending thread scope (started.indexes scope) started := by
  refine ⟨hlocked, ?_, rfl⟩
  rcases h.call with ⟨call, hphase, hcall⟩
  rw [hphase]
  exact ⟨rfl, hcall⟩

/-- The scope has the index it had. -/
theorem FailedRefresh.kept {started : State floats} (hlocked : Locked started)
    (h : FailedRefresh service thread scope started actions s) :
    s.indexes scope = started.indexes scope := by
  rcases (h.pending hlocked).steps h.run h.running with hpending | hdone
  · exact hpending.kept
  · exact (hdone.not_unpublished h.unpublished).elim

/-- No step of the refresh has written. -/
theorem FailedRefresh.silent {started t u : State floats} (hlocked : Locked started)
    {before after : List (Thread × Event F)} {event : Event F}
    (h : FailedRefresh service thread scope started (before ++ (thread, event) :: after) s)
    (hbefore : service.Run started before t) (hstep : service.step t (thread, event) = some u)
    (hafter : service.Run u after s) : u.indexes = t.indexes := by
  have hin := h.running
  rw [List.mem_append, List.mem_cons, not_or, not_or] at hin
  rcases hin with ⟨hin₁, hin₂, hin₃⟩
  rcases (h.pending hlocked).steps hbefore hin₁ with hpending | hdone
  · rcases hpending.step hstep (Ne.symm hin₂) with ⟨-, hwrite⟩ | hdone
    · exact hwrite rfl
    · exact ((succeeded_steps hdone hafter hin₃).not_unpublished h.unpublished).elim
  · have hend := succeeded_steps hdone (Steps.cons hstep hafter) (not_or.2 ⟨hin₂, hin₃⟩ ∘
      List.mem_cons.1)
    exact (hend.not_unpublished h.unpublished).elim

/-- **Isolation.** In every run, a search on an index of a refresh returns candidates of one
snapshot of the catalog taken for its scope, and a refresh that fails leaves the index of its scope
as it was and writes nowhere. -/
theorem retrieval_isolated (hrun : service.Run service.initial actions s) :
    (∀ thread scope topK index result,
      s.threads thread = .found scope topK (some (.refreshed index)) (.ok result) →
        FromSnapshot actions scope topK result.candidates) ∧
    ∀ s' actions' thread scope, FailedRefresh service thread scope s actions' s' →
      s'.indexes scope = s.indexes scope ∧
      ∀ before event after t u, actions' = before ++ (thread, event) :: after →
        service.Run s before t → service.step t (thread, event) = some u →
          service.Run u after s' → u.indexes = t.indexes := by
  have htraced := Traced.initial.steps hrun
  have hlocked : Locked s := hrun.invariant (fun h hstep => h.step hstep) Locked.initial
  constructor
  · intro thread scope topK index result hfound
    have hthread := htraced.threads thread
    rw [hfound] at hthread
    exact hthread index result rfl rfl
  · intro s' actions' thread scope hfailed
    refine ⟨hfailed.kept hlocked, ?_⟩
    rintro before event after t u rfl hbefore hstep hafter
    exact hfailed.silent hlocked hbefore hstep hafter

end Runs

/-! ## A refresh that fails while a search is on its way -/

/-- The arithmetic of zero and one, which are their own square roots. -/
def unitFloats : FloatArithmetic Int where
  zero := 0
  one := 1
  negOne := -1
  mul := (· * ·)
  div := (· / ·)
  sqrt := id
  sum := List.foldl (· + ·) 0
  isFinite := fun _ => true

def unitRetrieval : CapabilityCandidateRetrieval unitFloats where
  str := fun _ => ""
  defaultMinScore := 0
  default_in_range := by decide

def highCapability (code : String) : CatalogCapability where
  code
  capabilityType := .agent
  description := "high"
  inputSchema := []
  requiredFields := []
  confirmationPolicy := .never
  permission := []
  enabled := true
  dispatchKey := "llm.chat"

def builtRun : List (Thread × Event Int) :=
  [(0, .call .refresh []), (0, .acquired), (0, .indexRead),
    (0, .listed [] (.ok [highCapability "cap.high"])), (0, .embedded (.ok [[1]])), (0, .published),
    (0, .returned), (1, .search "query" [] 10 none), (1, .indexRead),
    (1, .queryEmbedded (.ok [1])), (0, .call .refresh []), (0, .acquired)]

def failedRun : List (Thread × Event Int) :=
  [(0, .indexRead), (0, .listed [] (.ok [highCapability "cap.new"])),
    (0, .embedded (.error { text := "timeout" }))]

theorem retrieval_isolated_built : ∃ s s' : State unitFloats,
    FromSnapshot builtRun [] 10
      [{ capabilityCode := "cap.high", score := (1 : Int), retrievalMetadata := [] }] ∧
    s'.indexes [] = s.indexes [] := by
  have hbuilt : ∃ s, builtRun.foldlM unitRetrieval.step unitRetrieval.initial = some s ∧
      (∃ index, s.threads 1 = .found [] 10 (some (.refreshed index)) (.ok
        { query := "query"
          status := .ready
          candidates :=
            [{ capabilityCode := "cap.high"
               score := 1
               retrievalMetadata := [] }] })) ∧
      s.threads 0 = .locked [] .refresh ∧
      ∃ s', failedRun.foldlM unitRetrieval.step s = some s' ∧
        s'.threads 0 = .rebuilt [] (.ok
          { status := .failed
            indexedCount := 1
            errorCode := some "INDEX_BUILD_FAILED"
            errorMessage := some "timeout" }) :=
    ⟨_, rfl, ⟨_, rfl⟩, rfl, _, rfl, rfl⟩
  rcases hbuilt with ⟨s, hrun, ⟨index, hfound⟩, hlocked, s', hrun', hfailed⟩
  rcases retrieval_isolated (Steps.of_foldlM hrun) with ⟨hsearch, hrefresh⟩
  refine ⟨s, s', hsearch 1 [] 10 index _ hfound, (hrefresh s' failedRun 0 [] ?_).1⟩
  exact
    { call := ⟨_, hlocked, fun h => nomatch h⟩
      run := Steps.of_foldlM hrun'
      running := by simp [failedRun]
      failed := ⟨_, hfailed, rfl⟩ }

end GoAgent.Interaction.CandidateRetrieval
