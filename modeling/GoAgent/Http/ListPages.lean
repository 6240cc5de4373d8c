import GoAgent.Conversation.History
import GoAgent.Http.Cursors
import Mathlib.Data.Prod.Lex

/-!
# The lists of tasks and of conversations

Both lists are read a page at a time, from a cursor on: the rows of an owner in descending order of
the time of their last change and, where that is the same, of their id; pinned conversations come
first. `follow` goes from page to page by the texts that the responses name.

* `afterTaskCursor_eq`, `afterConversationCursor_eq` — the conditions of the queries are the orders
  of their `ORDER BY`.
* `tasks_listed`, `conversations_listed` — whoever follows the cursors is given every row of the
  owner once, in order, and no other.
-/

namespace GoAgent.Http

open GoAgent.Foundation GoAgent.Conversation

inductive ListError where
  | cursor (raised : Raised)
  | value (message : String)
  | http (statusCode : Nat) (code : String)
  | index
  deriving DecidableEq

/-- `rows[-1]` -/
def lastOf {α : Type} (rows : List α) : Except ListError α :=
  match rows.getLast? with
  | some row => .ok row
  | none => .error .index

/-! ## Tasks -/

/-- A `Task`, and the row of it; `facts` are its other fields. -/
structure Task (φ : Type) where
  id : Uuid
  ownerSubject : String
  updatedAt : Timestamp
  facts : φ
  utc : updatedAt.offset = some 0

/-- The rows of `task`. -/
structure TaskStore (φ : Type) where
  tasks : List (Task φ)
  primaryKey : (tasks.map Task.id).Nodup

structure TaskListPage (φ : Type) where
  tasks : List (Task φ)
  hasMore : Bool
  nextCursor : Option TaskListCursor

section Lists

variable {φ : Type}

/-- `WHERE owner_subject = …` -/
def TaskStore.owned (store : TaskStore φ) (ownerSubject : String) : List (Task φ) :=
  store.tasks.filter fun t => decide (t.ownerSubject = ownerSubject)

/-- `ORDER BY updated_at DESC, id DESC` -/
def taskOrder (t : Task φ) : OrderDual (Int ×ₗ Uuid) :=
  OrderDual.toDual (toLex (t.updatedAt.instant, t.id))

/-- The condition that a cursor adds to the query. -/
def afterTaskCursor (cursor : TaskListCursor) (t : Task φ) : Bool :=
  t.updatedAt.instant < cursor.updatedAt.instant ||
    (t.updatedAt.instant = cursor.updatedAt.instant && t.id < cursor.id)

/-- `TaskRepository.list_owned` -/
def TaskStore.listOwned (store : TaskStore φ) (ownerSubject : String) (limit : Nat)
    (cursor : Option TaskListCursor) : Except ListError (TaskListPage φ) := do
  require (0 < limit) (.value "任务列表大小必须是正整数。")
  let selected := (store.owned ownerSubject).filter fun t => cursor.all fun c => afterTaskCursor c t
  let (tasks, hasMore) := pageOf limit (orderedBy taskOrder selected)
  if hasMore then
    let last ← lastOf tasks
    pure { tasks, hasMore, nextCursor := some { updatedAt := last.updatedAt, id := last.id } }
  else
    pure { tasks, hasMore, nextCursor := none }

def maxTaskPageSize : Nat := 200

/-- `list_tasks`, for an owner: the tasks of the page, and the cursor that the response names. -/
def listTasks (depth : Nat) (store : TaskStore φ) (ownerSubject : String) (limit : Nat)
    (cursor : Option String) : Except ListError (List (Task φ) × Option String) := do
  require (1 ≤ limit ∧ limit ≤ maxTaskPageSize) (.http 422 "INVALID_TASK_PAGINATION")
  let pageCursor ← (decodeTaskCursor depth cursor).mapError ListError.cursor
  let page ← store.listOwned ownerSubject limit pageCursor
  pure (page.tasks, page.nextCursor.map encodeTaskCursor)

/-! ## Conversations -/

/-- The rows of `conversation`; a `timestamptz` is read as an aware time. -/
structure ConversationTable where
  conversations : List ConversationRecord
  primaryKey : (conversations.map ConversationRecord.id).Nodup
  aware : ∀ c ∈ conversations, c.updatedAt.offset ≠ none

structure ConversationSummary where
  id : Uuid
  createdAt : Timestamp
  updatedAt : Timestamp
  topicSummary : Option String
  isPinned : Bool
  deriving DecidableEq

/-- The summary of a row. -/
def summaryOf (record : ConversationRecord) : ConversationSummary where
  id := record.id
  createdAt := record.createdAt
  updatedAt := record.updatedAt
  topicSummary := record.topicSummary
  isPinned := record.isPinned

structure ConversationSummaryPage where
  conversations : List ConversationSummary
  hasMore : Bool
  nextCursor : Option ConversationListCursor

/-- `WHERE owner_subject = …` -/
def ConversationTable.owned (table : ConversationTable) (ownerSubject : String) :
    List ConversationRecord :=
  table.conversations.filter fun c => decide (c.ownerSubject = ownerSubject)

/-- `ORDER BY is_pinned DESC, updated_at DESC, id DESC` -/
def conversationOrder (c : ConversationRecord) : OrderDual (Bool ×ₗ Int ×ₗ Uuid) :=
  OrderDual.toDual (toLex (c.isPinned, toLex (c.updatedAt.instant, c.id)))

/-- The conditions of which a cursor asks for one. -/
def cursorConditions (cursor : ConversationListCursor) (c : ConversationRecord) : List Bool :=
  let conditions : List Bool :=
    [c.isPinned == cursor.isPinned && c.updatedAt.instant < cursor.updatedAt.instant,
      c.isPinned == cursor.isPinned && c.updatedAt.instant = cursor.updatedAt.instant &&
        c.id < cursor.id]
  if cursor.isPinned then (c.isPinned == false) :: conditions else conditions

/-- `or_(*conditions)` -/
def afterConversationCursor (cursor : ConversationListCursor) (c : ConversationRecord) : Bool :=
  (cursorConditions cursor c).any id

/-- `ConversationListReadRepository.list_owned` -/
def ConversationTable.listOwned (table : ConversationTable) (ownerSubject : String) (limit : Nat)
    (cursor : Option ConversationListCursor) : Except ListError ConversationSummaryPage := do
  let selected := (table.owned ownerSubject).filter fun r =>
    cursor.all fun c => afterConversationCursor c r
  let (records, hasMore) := pageOf limit (orderedBy conversationOrder selected)
  let conversations := records.map summaryOf
  if hasMore then
    let last ← lastOf conversations
    pure
      { conversations
        hasMore
        nextCursor := some
          { updatedAt := last.updatedAt
            id := last.id
            isPinned := last.isPinned } }
  else
    pure { conversations, hasMore, nextCursor := none }

/-- A page of the list for an owner, from the text of a cursor on, and the text of the next one. -/
def listConversations (depth : Nat) (table : ConversationTable) (ownerSubject : String)
    (limit : Nat) (cursor : Option String) :
    Except ListError (List ConversationSummary × Option String) := do
  let listCursor ← (decodeConversationCursor depth cursor).mapError ListError.cursor
  let page ← table.listOwned ownerSubject limit listCursor
  pure (page.conversations, page.nextCursor.map encodeConversationCursor)

/-! ## The conditions of the queries -/

/-- The place of a cursor in the list. -/
def TaskListCursor.order (cursor : TaskListCursor) : OrderDual (Int ×ₗ Uuid) :=
  OrderDual.toDual (toLex (cursor.updatedAt.instant, cursor.id))

def ConversationListCursor.order (cursor : ConversationListCursor) :
    OrderDual (Bool ×ₗ Int ×ₗ Uuid) :=
  OrderDual.toDual (toLex (cursor.isPinned, toLex (cursor.updatedAt.instant, cursor.id)))

/-- The condition is the order of the list. -/
theorem afterTaskCursor_eq (cursor : TaskListCursor) (t : Task φ) :
    afterTaskCursor cursor t = decide (cursor.order < taskOrder t) := by
  unfold afterTaskCursor TaskListCursor.order taskOrder
  rw [Bool.eq_iff_iff, decide_eq_true_eq, OrderDual.toDual_lt_toDual, Prod.Lex.toLex_lt_toLex]
  simp

/-- The conditions are the order of the list. -/
theorem afterConversationCursor_eq (cursor : ConversationListCursor) (c : ConversationRecord) :
    afterConversationCursor cursor c = decide (cursor.order < conversationOrder c) := by
  unfold afterConversationCursor cursorConditions ConversationListCursor.order conversationOrder
  rw [Bool.eq_iff_iff, decide_eq_true_eq, OrderDual.toDual_lt_toDual, Prod.Lex.toLex_lt_toLex,
    Prod.Lex.toLex_lt_toLex]
  cases cursor.isPinned <;> cases c.isPinned <;> simp

/-! ## The pages -/

variable {store : TaskStore φ} {table : ConversationTable} {ownerSubject : String}
  {limit depth : Nat}

theorem lastOf_eq {α : Type} {rows : List α} {row : α} (h : rows.getLast? = some row) :
    lastOf rows = .ok row := by
  unfold lastOf
  rw [h]

/-- The rows of an owner are told apart by their ids. -/
theorem nodup_taskOrder : ((store.owned ownerSubject).map taskOrder).Nodup := by
  have hids : ((store.owned ownerSubject).map Task.id).Nodup :=
    store.primaryKey.sublist (List.filter_sublist.map _)
  apply List.Nodup.of_map fun order => (ofLex (OrderDual.ofDual order)).2
  rw [List.map_map]
  exact hids

theorem nodup_conversationOrder :
    ((table.owned ownerSubject).map conversationOrder).Nodup := by
  have hids : ((table.owned ownerSubject).map ConversationRecord.id).Nodup :=
    table.primaryKey.sublist (List.filter_sublist.map _)
  apply List.Nodup.of_map fun order => (ofLex (ofLex (OrderDual.ofDual order)).2).2
  rw [List.map_map]
  exact hids

/-- What the query selects after a cursor, in order. -/
theorem tasks_after (cursor : Option TaskListCursor) :
    orderedBy taskOrder ((store.owned ownerSubject).filter fun t =>
        cursor.all fun c => afterTaskCursor c t) =
      rowsAfter taskOrder (store.owned ownerSubject) (cursor.map TaskListCursor.order) := by
  unfold rowsAfter
  congr 2
  funext t
  cases cursor with
  | none => rfl
  | some c => exact afterTaskCursor_eq c t

theorem conversations_after (cursor : Option ConversationListCursor) :
    orderedBy conversationOrder ((table.owned ownerSubject).filter fun r =>
        cursor.all fun c => afterConversationCursor c r) =
      rowsAfter conversationOrder (table.owned ownerSubject)
        (cursor.map ConversationListCursor.order) := by
  unfold rowsAfter
  congr 2
  funext r
  cases cursor with
  | none => rfl
  | some c => exact afterConversationCursor_eq c r

/-- The text names the rows after a place. -/
def TaskNames (value : Option String) (after : Option (OrderDual (Int ×ₗ Uuid))) : Prop :=
  ∃ cursor : Option TaskListCursor, value = cursor.map encodeTaskCursor ∧
    after = cursor.map TaskListCursor.order ∧ ∀ c ∈ cursor, c.updatedAt.offset ≠ none

def ConversationNames (value : Option String)
    (after : Option (OrderDual (Bool ×ₗ Int ×ₗ Uuid))) : Prop :=
  ∃ cursor : Option ConversationListCursor, value = cursor.map encodeConversationCursor ∧
    after = cursor.map ConversationListCursor.order ∧ ∀ c ∈ cursor, c.updatedAt.offset ≠ none

theorem decode_taskNames {cursor : Option TaskListCursor}
    (haware : ∀ c ∈ cursor, c.updatedAt.offset ≠ none) :
    decodeTaskCursor (depth + 1) (cursor.map encodeTaskCursor) = .ok cursor := by
  cases cursor with
  | none => rfl
  | some c => exact decodeTaskCursor_encode (haware c rfl)

theorem decode_conversationNames {cursor : Option ConversationListCursor}
    (haware : ∀ c ∈ cursor, c.updatedAt.offset ≠ none) :
    decodeConversationCursor (depth + 1) (cursor.map encodeConversationCursor) = .ok cursor := by
  cases cursor with
  | none => rfl
  | some c => exact decodeConversationCursor_encode (haware c rfl)

theorem listTasks_of_page {cursor : Option TaskListCursor} {page : TaskListPage φ}
    (hlimit : 1 ≤ limit ∧ limit ≤ maxTaskPageSize) (haware : ∀ c ∈ cursor, c.updatedAt.offset ≠ none)
    (hpage : store.listOwned ownerSubject limit cursor = .ok page) :
    listTasks (depth + 1) store ownerSubject limit (cursor.map encodeTaskCursor) =
      .ok (page.tasks, page.nextCursor.map encodeTaskCursor) := by
  unfold listTasks
  rw [decode_taskNames haware, require, if_pos hlimit]
  change (store.listOwned ownerSubject limit cursor >>= _) = _
  rw [hpage]
  rfl

theorem listConversations_of_page {cursor : Option ConversationListCursor}
    {page : ConversationSummaryPage} (haware : ∀ c ∈ cursor, c.updatedAt.offset ≠ none)
    (hpage : table.listOwned ownerSubject limit cursor = .ok page) :
    listConversations (depth + 1) table ownerSubject limit (cursor.map encodeConversationCursor) =
      .ok (page.conversations, page.nextCursor.map encodeConversationCursor) := by
  unfold listConversations
  rw [decode_conversationNames haware]
  change (table.listOwned ownerSubject limit cursor >>= _) = _
  rw [hpage]
  rfl

variable {value : Option String}

section TaskPages

variable {after : Option (OrderDual (Int ×ₗ Uuid))}

theorem listTasks_last (hlimit : 1 ≤ limit ∧ limit ≤ maxTaskPageSize) (hname : TaskNames value after)
    (hshort : (rowsAfter taskOrder (store.owned ownerSubject) after).length ≤ limit) :
    listTasks (depth + 1) store ownerSubject limit value =
      .ok (rowsAfter taskOrder (store.owned ownerSubject) after, none) := by
  obtain ⟨cursor, rfl, rfl, haware⟩ := hname
  have hpos : 0 < limit := hlimit.1
  apply @listTasks_of_page _ _ _ _ _ _ ⟨_, false, none⟩ hlimit haware
  unfold TaskStore.listOwned
  dsimp only
  rw [tasks_after, pageOf_eq, List.take_of_length_le hshort, decide_eq_false (Nat.not_lt.2 hshort),
    require, if_pos hpos]
  rfl

theorem listTasks_more {k : OrderDual (Int ×ₗ Uuid)} (hlimit : 1 ≤ limit ∧ limit ≤ maxTaskPageSize)
    (hname : TaskNames value after)
    (hlong : limit < (rowsAfter taskOrder (store.owned ownerSubject) after).length)
    (hk : ((rowsAfter taskOrder (store.owned ownerSubject) after).take limit).getLast?.map
      taskOrder = some k) :
    ∃ next, listTasks (depth + 1) store ownerSubject limit value =
        .ok ((rowsAfter taskOrder (store.owned ownerSubject) after).take limit, some next) ∧
      TaskNames (some next) (some k) := by
  obtain ⟨cursor, rfl, rfl, haware⟩ := hname
  obtain ⟨t, ht, rfl⟩ := Option.map_eq_some_iff.1 hk
  let next : TaskListCursor := { updatedAt := t.updatedAt, id := t.id }
  refine ⟨encodeTaskCursor next, ?_, some next, rfl, rfl, ?_⟩
  · have hpos : 0 < limit := hlimit.1
    apply @listTasks_of_page _ _ _ _ _ _ ⟨_, true, some next⟩ hlimit haware
    unfold TaskStore.listOwned
    dsimp only
    rw [tasks_after, pageOf_eq, decide_eq_true hlong, require, if_pos hpos]
    dsimp only
    rw [lastOf_eq ht]
    rfl
  · intro c hc
    obtain rfl := Option.some.inj hc
    show t.updatedAt.offset ≠ none
    rw [t.utc]
    exact Option.some_ne_none 0

end TaskPages

section ConversationPages

variable {after : Option (OrderDual (Bool ×ₗ Int ×ₗ Uuid))}

theorem listConversations_last (hname : ConversationNames value after)
    (hshort : (rowsAfter conversationOrder (table.owned ownerSubject) after).length ≤ limit) :
    listConversations (depth + 1) table ownerSubject limit value =
      .ok ((rowsAfter conversationOrder (table.owned ownerSubject) after).map summaryOf, none) := by
  obtain ⟨cursor, rfl, rfl, haware⟩ := hname
  apply @listConversations_of_page _ _ _ _ _ ⟨_, false, none⟩ haware
  unfold ConversationTable.listOwned
  dsimp only
  rw [conversations_after, pageOf_eq, List.take_of_length_le hshort,
    decide_eq_false (Nat.not_lt.2 hshort)]
  rfl

theorem listConversations_more {k : OrderDual (Bool ×ₗ Int ×ₗ Uuid)}
    (hname : ConversationNames value after)
    (hlong : limit < (rowsAfter conversationOrder (table.owned ownerSubject) after).length)
    (hk : ((rowsAfter conversationOrder (table.owned ownerSubject) after).take limit).getLast?.map
      conversationOrder = some k) :
    ∃ next, listConversations (depth + 1) table ownerSubject limit value =
        .ok (((rowsAfter conversationOrder (table.owned ownerSubject) after).take limit).map
          summaryOf, some next) ∧
      ConversationNames (some next) (some k) := by
  obtain ⟨cursor, rfl, rfl, haware⟩ := hname
  obtain ⟨r, hr, rfl⟩ := Option.map_eq_some_iff.1 hk
  let next : ConversationListCursor :=
    { updatedAt := r.updatedAt
      id := r.id
      isPinned := r.isPinned }
  refine ⟨encodeConversationCursor next, ?_, some next, rfl, rfl, ?_⟩
  · have hlast : (((rowsAfter conversationOrder (table.owned ownerSubject)
        (cursor.map ConversationListCursor.order)).take limit).map summaryOf).getLast? =
          some (summaryOf r) := by
      rw [List.getLast?_map, hr]
      rfl
    apply @listConversations_of_page _ _ _ _ _ ⟨_, true, some next⟩ haware
    unfold ConversationTable.listOwned
    dsimp only
    rw [conversations_after, pageOf_eq, decide_eq_true hlong]
    dsimp only
    rw [lastOf_eq hlast]
    rfl
  · intro c hc
    obtain rfl := Option.some.inj hc
    have hmem := List.mem_of_mem_take (List.mem_of_getLast? hr)
    rw [rowsAfter, perm_orderedBy.mem_iff, List.mem_filter] at hmem
    exact table.aware r (List.mem_of_mem_filter hmem.1)

end ConversationPages

/-- **The list of tasks.** Whoever starts without a cursor and follows those that the responses name
is given every task of the owner once and no other, in descending order of the time of the last
change and of the id; and comes to an end. -/
theorem tasks_listed (store : TaskStore φ) (ownerSubject : String) (depth : Nat)
    (hlimit : 1 ≤ limit ∧ limit ≤ maxTaskPageSize) :
    ∃ listed : List (Task φ),
      (∀ fuel, (store.owned ownerSubject).length < fuel →
        follow (listTasks (depth + 1) store ownerSubject limit) fuel none = some (.ok listed)) ∧
      listed.Perm (store.owned ownerSubject) ∧ (listed.map Task.id).Nodup ∧
      listed.Pairwise fun a b => b.updatedAt.instant < a.updatedAt.instant ∨
        b.updatedAt.instant = a.updatedAt.instant ∧ b.id < a.id := by
  have hperm : (orderedBy taskOrder (store.owned ownerSubject)).Perm (store.owned ownerSubject) :=
    perm_orderedBy
  refine ⟨orderedBy taskOrder (store.owned ownerSubject), ?_, hperm, ?_, ?_⟩
  · intro fuel hfuel
    have hall := @follow_eq _ _ _ _ _ _ _ _ _ (listTasks (depth + 1) store ownerSubject limit)
      (fun t => t) TaskNames nodup_taskOrder hlimit.1
      ⟨none, rfl, rfl, fun c hc => nomatch hc⟩ (fun value after hname hshort => by
        rw [List.map_id']
        exact listTasks_last hlimit hname hshort)
      (fun value after k hname hlong hk => by
        rw [List.map_id']
        exact listTasks_more hlimit hname hlong hk) fuel hfuel
    rwa [List.map_id'] at hall
  · rw [(hperm.map Task.id).nodup_iff]
    exact store.primaryKey.sublist (List.filter_sublist.map _)
  · apply (pairwise_orderedBy nodup_taskOrder).imp
    intro a b hab
    unfold taskOrder at hab
    rwa [OrderDual.toDual_lt_toDual, Prod.Lex.toLex_lt_toLex] at hab

theorem utc_zone : ∀ o ∈ (some 0 : Option Int), -dayMicroseconds < o ∧ o < dayMicroseconds := by
  intro o ho
  obtain rfl := Option.some.inj ho
  exact ⟨by decide, by decide⟩

/-- Noon of the first of January 2024. -/
def newYear : Timestamp where
  year := 2024
  month := 1
  day := 1
  hour := 12
  minute := 0
  second := 0
  microsecond := 0
  offset := some 0
  date := by decide
  time := by decide
  zone := utc_zone

/-- Two tasks of one owner that were changed at one time, and one of another. -/
def tiedTasks : TaskStore Unit where
  tasks := [⟨1, "alice", newYear, (), rfl⟩, ⟨2, "mallory", newYear, (), rfl⟩,
    ⟨3, "alice", newYear, (), rfl⟩]
  primaryKey := by decide

theorem tasks_listed_tied : ∃ listed : List (Task Unit),
    follow (listTasks 1 tiedTasks "alice" 1) 3 none = some (.ok listed) ∧
      listed.map Task.id = [3, 1] := by
  obtain ⟨listed, hlisted, hperm, -, hsorted⟩ := tasks_listed tiedTasks "alice" 0
    (by decide : 1 ≤ 1 ∧ 1 ≤ maxTaskPageSize)
  refine ⟨listed, hlisted 3 (by decide), ?_⟩
  have hids : (listed.map Task.id).Perm [1, 3] := hperm.map Task.id
  have hdescending : (listed.map Task.id).Pairwise fun a b => b < a := by
    rw [List.pairwise_map]
    apply hsorted.imp_of_mem
    intro a b ha hb hab
    have htime (t : Task Unit) (ht : t ∈ listed) : t.updatedAt = newYear := by
      have hmem : t ∈ tiedTasks.tasks := List.mem_of_mem_filter (hperm.mem_iff.1 ht)
      simp only [tiedTasks, List.mem_cons, List.not_mem_nil, or_false] at hmem
      rcases hmem with rfl | rfl | rfl <;> rfl
    rw [htime a ha, htime b hb] at hab
    exact (hab.resolve_left (lt_irrefl _)).2
  exact hids.trans (by decide) |>.eq_of_pairwise
    (fun _ _ _ _ hab hba => absurd (lt_trans hab hba) (lt_irrefl _)) hdescending (by decide)

/-- **The list of conversations.** Whoever follows its cursors is given every conversation of the
owner once and no other, the pinned ones first, and each group in descending order of the time of the
last change and of the id; and comes to an end. -/
theorem conversations_listed (table : ConversationTable) (ownerSubject : String) (depth : Nat)
    (hlimit : 0 < limit) :
    ∃ listed : List ConversationRecord,
      (∀ fuel, (table.owned ownerSubject).length < fuel →
        follow (listConversations (depth + 1) table ownerSubject limit) fuel none =
          some (.ok (listed.map summaryOf))) ∧
      listed.Perm (table.owned ownerSubject) ∧ (listed.map ConversationRecord.id).Nodup ∧
      listed.Pairwise fun a b => (a.isPinned = true ∧ b.isPinned = false) ∨
        a.isPinned = b.isPinned ∧ (b.updatedAt.instant < a.updatedAt.instant ∨
          b.updatedAt.instant = a.updatedAt.instant ∧ b.id < a.id) := by
  have hperm : (orderedBy conversationOrder (table.owned ownerSubject)).Perm
      (table.owned ownerSubject) := perm_orderedBy
  refine ⟨orderedBy conversationOrder (table.owned ownerSubject), ?_, hperm, ?_, ?_⟩
  · intro fuel hfuel
    exact follow_eq ConversationNames nodup_conversationOrder hlimit
      ⟨none, rfl, rfl, fun c hc => nomatch hc⟩
      (fun value after hname hshort => listConversations_last hname hshort)
      (fun value after k hname hlong hk => listConversations_more hname hlong hk) hfuel
  · rw [(hperm.map ConversationRecord.id).nodup_iff]
    exact table.primaryKey.sublist (List.filter_sublist.map _)
  · apply (pairwise_orderedBy nodup_conversationOrder).imp
    intro a b hab
    unfold conversationOrder at hab
    rw [OrderDual.toDual_lt_toDual, Prod.Lex.toLex_lt_toLex, Prod.Lex.toLex_lt_toLex] at hab
    rcases hab with hpinned | ⟨hsame, hrest⟩
    · have hlt : b.isPinned < a.isPinned := hpinned
      rw [Bool.lt_iff] at hlt
      exact Or.inl ⟨hlt.2, hlt.1⟩
    · exact Or.inr ⟨hsame.symm, hrest⟩

/-- A pinned conversation that was changed with another. -/
def pinnedTable : ConversationTable where
  conversations := [⟨1, "alice", newYear, newYear, none, false⟩,
    ⟨2, "alice", newYear, newYear, some "topic", true⟩]
  primaryKey := by decide
  aware := by
    intro c hc
    simp only [List.mem_cons, List.not_mem_nil, or_false] at hc
    rcases hc with rfl | rfl <;> exact Option.some_ne_none 0

theorem conversations_listed_pinned : ∃ listed : List ConversationRecord,
    follow (listConversations 1 pinnedTable "alice" 1) 3 none =
        some (.ok (listed.map summaryOf)) ∧ listed.length = 2 := by
  obtain ⟨listed, hlisted, hperm, -⟩ := conversations_listed pinnedTable "alice" 0
    (by decide : 0 < 1)
  exact ⟨listed, hlisted 3 (by decide), hperm.length_eq⟩

end Lists

end GoAgent.Http
