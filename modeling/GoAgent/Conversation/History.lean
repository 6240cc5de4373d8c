import GoAgent.Conversation.Context
import GoAgent.Foundation.IsoTime
import GoAgent.Foundation.Keyset

/-!
# Reading a conversation

The messages of a conversation are read page by page from the first one on, or as a window of the
last ones; a context is built from either.

* `loadHistory_eq` — the pages hold every message once, in order.
* `recent_context_eq` — the context of the window is the context of the complete history.
-/

namespace GoAgent.Conversation

open GoAgent.Foundation

/-! ## The store -/

/-- `ConversationRecord`, and the `Conversation` of it. -/
structure ConversationRecord where
  id : Uuid
  ownerSubject : String
  createdAt : Timestamp
  updatedAt : Timestamp
  topicSummary : Option String
  isPinned : Bool
  deriving DecidableEq

/-- The rows of `conversation` and `conversation_message`. -/
structure ConversationStore where
  conversations : List ConversationRecord
  messages : List Message
  /-- `uq_conversation_message_conversation_sequence` -/
  unique : (messages.map fun m => (m.conversationId, m.sequence)).Nodup

/-- `WHERE conversation_id = …` -/
def ConversationStore.messagesOf (store : ConversationStore) (conversationId : Uuid) :
    List Message :=
  store.messages.filter fun m => decide (m.conversationId = conversationId)

/-- `scalar(select(ConversationRecord).where(…))` -/
def ConversationStore.conversation (store : ConversationStore) (conversationId : Uuid) :
    Except ConversationError ConversationRecord :=
  match store.conversations.find? fun c => decide (c.id = conversationId) with
  | some conversation => .ok conversation
  | none => .error (.notFound ("会话不存在：" ++ String.ofList (uuidStr conversationId)))

/-! ## Pages of the history -/

structure ConversationHistoryPage where
  conversation : ConversationRecord
  messages : List Message
  hasMore : Bool
  nextAfterSequence : Option Nat

/-- `messages[-1].sequence` -/
def lastSequence (messages : List Message) : Except ConversationError Nat :=
  match messages.getLast? with
  | some m => .ok m.sequence
  | none => .error .index

/-- `ConversationHistoryReadRepository.read_history` -/
def readHistory (store : ConversationStore) (conversationId : Uuid) (limit : Nat)
    (afterSequence : Option Nat) : Except ConversationError ConversationHistoryPage := do
  let conversation ← store.conversation conversationId
  let records := (rowsAfter Message.sequence (store.messagesOf conversationId) afterSequence).take
    (limit + 1)
  let messages := records.take limit
  if limit < records.length then
    let next ← lastSequence messages
    pure
      { conversation
        messages
        hasMore := true
        nextAfterSequence := some next }
  else
    pure
      { conversation
        messages
        hasMore := false
        nextAfterSequence := none }

def maxHistoryPageSize : Nat := 200

/-- `ConversationHistoryReadService.read_history` -/
def HistoryReadService.readHistory (store : ConversationStore) (conversationId : Uuid) (limit : Nat)
    (afterSequence : Option Nat) : Except ConversationError ConversationHistoryPage := do
  require (1 ≤ limit ∧ limit ≤ maxHistoryPageSize) (.value "历史页大小必须在 1 到 200 之间。")
  require (∀ after ∈ afterSequence, 0 < after) (.value "历史游标必须是正整数。")
  Conversation.readHistory store conversationId limit afterSequence

/-- `_load_history`: the loop, for at most `fuel` pages. -/
def loadHistory (store : ConversationStore) (conversationId : Uuid) :
    Nat → List Message → Option Nat → Option (Except ConversationError (List Message))
  | 0, _, _ => none
  | fuel + 1, history, afterSequence =>
    match HistoryReadService.readHistory store conversationId maxHistoryPageSize afterSequence with
    | .error e => some (.error e)
    | .ok page =>
      if page.hasMore = false then some (.ok (history ++ page.messages))
      else if page.nextAfterSequence.all fun next => afterSequence.any fun after => next ≤ after then
        some (.error (.value "会话历史分页游标无效。"))
      else loadHistory store conversationId fuel (history ++ page.messages) page.nextAfterSequence

/-! ## The recent window -/

structure ConversationRecentMessageWindow where
  conversationId : Uuid
  messages : List Message

/-- `ConversationHistoryReadRepository.read_recent_messages` -/
def readRecentMessages (store : ConversationStore) (conversationId : Uuid) (throughSequence : Nat)
    (limit : Nat) : Except ConversationError ConversationRecentMessageWindow := do
  let _ ← store.conversation conversationId
  let records := (orderedBy (fun m => OrderDual.toDual m.sequence)
    ((store.messagesOf conversationId).filter fun m => m.sequence ≤ throughSequence)).take limit
  pure
    { conversationId
      messages := records.reverse }

/-- The loop of `_validate_window`. -/
def validateMessages (conversationId : Uuid) (throughSequence : Nat) :
    Nat → List Message → Except ConversationError Unit
  | _, [] => .ok ()
  | previous, m :: ms => do
    require (m.conversationId = conversationId) (.value "上下文最近消息快照包含其他会话的消息。")
    require (previous < m.sequence) (.value "上下文最近消息快照必须按顺序号严格递增。")
    require (m.sequence ≤ throughSequence) (.value "上下文最近消息快照超出顺序截止边界。")
    validateMessages conversationId throughSequence m.sequence ms

/-- `_validate_window` -/
def validateWindow (conversationId : Uuid) (throughSequence limit : Nat)
    (window : ConversationRecentMessageWindow) : Except ConversationError Unit := do
  require (window.conversationId = conversationId) (.value "上下文最近消息快照包含其他会话。")
  require (window.messages.length ≤ limit) (.value "上下文最近消息快照超过数量上限。")
  validateMessages conversationId throughSequence 0 window.messages

def maxRecentMessageWindowSize : Nat := 200

/-- `ConversationRecentMessageReadService.read_recent_messages` -/
def RecentMessageReadService.readRecentMessages (store : ConversationStore) (conversationId : Uuid)
    (throughSequence limit : Nat) : Except ConversationError ConversationRecentMessageWindow := do
  require (0 < throughSequence) (.value "上下文消息截止顺序号必须是正整数。")
  require (1 ≤ limit ∧ limit ≤ maxRecentMessageWindowSize)
    (.value "上下文消息数量上限必须在 1 到 200 之间。")
  let window ← Conversation.readRecentMessages store conversationId throughSequence limit
  validateWindow conversationId throughSequence limit window
  pure window

/-! ## Contexts -/

/-- `str(error)` -/
def ConversationError.text : ConversationError → String
  | value message | notFound message | contextBudgetExceeded message | streamingPersistence message
    => message
  | index => "tuple index out of range"

/-- `StreamingConversationService._read_recent_messages` -/
def streamReadRecentMessages (store : ConversationStore) (conversationId : Uuid)
    (throughSequence : Nat) (policy : ContextPolicy) :
    Except ConversationError ConversationRecentMessageWindow :=
  match RecentMessageReadService.readRecentMessages store conversationId throughSequence
    policy.maxMessages with
  | .ok window => .ok window
  | .error e =>
    .error (.streamingPersistence (if e.text.isEmpty then "会话历史暂时无法读取。" else e.text))

/-- The context of `execute`, from the recent window. -/
def recentContext (store : ConversationStore) (cost : ModelContextMessage → Int)
    (conversationId : Uuid) (throughSequence : Nat) (policy : ContextPolicy)
    (budget : ContextBudget) : Except ConversationError ModelContext := do
  let window ← streamReadRecentMessages store conversationId throughSequence policy
  build cost conversationId window.messages policy budget

/-- The context of a continuation, from the complete history. -/
def continuationContext (store : ConversationStore) (cost : ModelContextMessage → Int)
    (conversationId : Uuid) (policy : ContextPolicy) (budget : ContextBudget) (fuel : Nat) :
    Option (Except ConversationError ModelContext) :=
  (loadHistory store conversationId fuel [] none).map fun loaded =>
    loaded >>= fun messages => build cost conversationId messages policy budget

/-! ## The pages -/

section Pages

variable {store : ConversationStore} {conversationId : Uuid} {history : List Message}
  {afterSequence : Option Nat} {limit fuel : Nat}

theorem nodup_messagesOf : ((store.messagesOf conversationId).map Message.sequence).Nodup := by
  have hsub : ((store.messagesOf conversationId).map fun m => (m.conversationId, m.sequence)).Nodup :=
    store.unique.sublist (List.filter_sublist.map _)
  rw [List.Nodup, List.pairwise_map] at hsub ⊢
  refine hsub.imp_of_mem fun {a b} ha hb hne hsequence => hne ?_
  rw [ConversationStore.messagesOf, List.mem_filter, decide_eq_true_eq] at ha hb
  rw [ha.2, hb.2, hsequence]

theorem conversation_ok (hconversation : ∃ c ∈ store.conversations, c.id = conversationId) :
    ∃ c, store.conversation conversationId = .ok c := by
  cases hfind : store.conversations.find? fun c => decide (c.id = conversationId) with
  | some c => exact ⟨c, by rw [ConversationStore.conversation, hfind]⟩
  | none =>
    rcases hconversation with ⟨c, hc, hid⟩
    rw [List.find?_eq_none] at hfind
    exact absurd (decide_eq_true hid) (hfind c hc)

/-- What is not read yet, and more than a page of it. -/
theorem readHistory_more {c : ConversationRecord} (hc : store.conversation conversationId = .ok c)
    (hlong : limit < (rowsAfter Message.sequence (store.messagesOf conversationId)
      afterSequence).length) {k : Nat}
    (hk : ((rowsAfter Message.sequence (store.messagesOf conversationId) afterSequence).take
      limit).getLast?.map Message.sequence = some k) :
    readHistory store conversationId limit afterSequence = .ok
      { conversation := c
        messages := (rowsAfter Message.sequence (store.messagesOf conversationId)
          afterSequence).take limit
        hasMore := true
        nextAfterSequence := some k } := by
  have hlen : limit < ((rowsAfter Message.sequence (store.messagesOf conversationId)
      afterSequence).take (limit + 1)).length := by
    rw [List.length_take]
    omega
  rw [Option.map_eq_some_iff] at hk
  rcases hk with ⟨m, hm, rfl⟩
  simp only [readHistory, hc, ok_bind, if_pos hlen, List.take_take, Nat.min_eq_left (Nat.le_succ limit),
    lastSequence, hm]
  rfl

theorem readHistory_last {c : ConversationRecord} (hc : store.conversation conversationId = .ok c)
    (hshort : (rowsAfter Message.sequence (store.messagesOf conversationId)
      afterSequence).length ≤ limit) :
    readHistory store conversationId limit afterSequence = .ok
      { conversation := c
        messages := rowsAfter Message.sequence (store.messagesOf conversationId) afterSequence
        hasMore := false
        nextAfterSequence := none } := by
  rw [readHistory, hc, ok_bind, List.take_of_length_le (by omega), if_neg (by omega),
    List.take_of_length_le hshort]
  rfl

/-- The loop reads the rest of the history, and ends. -/
def LoadsRest (store : ConversationStore) (conversationId : Uuid) (afterSequence : Option Nat)
    (rest : List Message) : Prop :=
  (∀ k ∈ afterSequence, 0 < k) → ∀ history fuel, rest.length < fuel →
    loadHistory store conversationId fuel history afterSequence = some (.ok (history ++ rest))

theorem loadHistory_eq (hconversation : ∃ c ∈ store.conversations, c.id = conversationId) :
    LoadsRest store conversationId none
      (orderedBy Message.sequence (store.messagesOf conversationId)) := by
  rcases conversation_ok hconversation with ⟨c, hc⟩
  apply keyset_induction (P := LoadsRest store conversationId) nodup_messagesOf
    (by decide : 0 < maxHistoryPageSize)
  · intro after hshort hpos history fuel hfuel
    cases fuel with
    | zero => omega
    | succ fuel =>
      rw [loadHistory, HistoryReadService.readHistory, require, if_pos (by decide), require,
        if_pos hpos, readHistory_last hc hshort]
      rfl
  · intro after k hlong hk hrest ih hpos history fuel hfuel
    cases fuel with
    | zero => omega
    | succ fuel =>
      rcases Option.map_eq_some_iff.1 hk with ⟨m, hm, rfl⟩
      have hnext : ∀ a ∈ after, a < m.sequence := by
        intro a ha
        have hmem := List.mem_of_mem_take (List.mem_of_getLast? hm)
        rw [rowsAfter, perm_orderedBy.mem_iff, List.mem_filter] at hmem
        have hafter := hmem.2
        rw [Option.mem_def.1 ha, Option.all_some, decide_eq_true_eq] at hafter
        exact hafter
      have hread := readHistory_more hc hlong hk
      have hcursor : (some m.sequence).all (fun next => after.any fun a => decide (next ≤ a)) =
          false := by
        cases after with
        | none => rfl
        | some a => simpa using hnext a rfl
      rw [loadHistory, HistoryReadService.readHistory, require, if_pos (by decide), require,
        if_pos hpos, hread]
      show (if true = false then _ else if (some m.sequence).all _ = true then _ else _) = _
      rw [if_neg (by decide), hcursor, if_neg (by decide),
        ih (fun _ h => by cases h; exact m.positive) _ fuel
          (by rw [List.length_drop]; rw [maxHistoryPageSize] at hlong ⊢; omega),
        List.append_assoc, List.take_append_drop]

end Pages

/-! ## The window -/

section Window

variable {store : ConversationStore} {conversationId : Uuid} {throughSequence limit : Nat}
  {policy : ContextPolicy} {budget : ContextBudget} {cost : ModelContextMessage → Int}

/-- Rows in descending order are the rows in ascending order, reversed. -/
theorem orderedBy_desc {rows : List Message} (hkeys : (rows.map Message.sequence).Nodup) :
    orderedBy (fun m => OrderDual.toDual m.sequence) rows =
      (orderedBy Message.sequence rows).reverse := by
  symm
  apply eq_orderedBy ((List.reverse_perm _).trans perm_orderedBy)
  rw [List.pairwise_reverse]
  exact pairwise_orderedBy hkeys

/-- The last messages of a list, in order. -/
def lastMessages (limit : Nat) (messages : List Message) : List Message :=
  messages.drop (messages.length - limit)

theorem readRecentMessages_eq {c : ConversationRecord}
    (hc : store.conversation conversationId = .ok c)
    (hthrough : ∀ m ∈ store.messagesOf conversationId, m.sequence ≤ throughSequence) :
    readRecentMessages store conversationId throughSequence limit = .ok
      { conversationId
        messages := lastMessages limit
          (orderedBy Message.sequence (store.messagesOf conversationId)) } := by
  have hall : (store.messagesOf conversationId).filter (fun m => m.sequence ≤ throughSequence) =
      store.messagesOf conversationId :=
    List.filter_eq_self.2 fun m hm => decide_eq_true (hthrough m hm)
  simp only [readRecentMessages, hc, ok_bind, hall, orderedBy_desc nodup_messagesOf,
    List.take_reverse, List.reverse_reverse]
  rfl

theorem validateMessages_ok {previous : Nat} {messages : List Message} :
    validateMessages conversationId throughSequence previous messages = .ok () ↔
      (∀ m ∈ messages, m.conversationId = conversationId ∧ m.sequence ≤ throughSequence) ∧
        (previous :: messages.map Message.sequence).IsChain (· < ·) := by
  induction messages generalizing previous with
  | nil => simp [validateMessages]
  | cons m ms ih =>
    simp only [validateMessages, except_bind_ok, exists_unit, require_ok, ih, List.map_cons,
      List.isChain_cons_cons, List.forall_mem_cons]
    tauto

/-- The messages of a conversation in order are admitted. -/
theorem history_admitted : validateRequest conversationId 0
    (orderedBy Message.sequence (store.messagesOf conversationId)) = .ok () := by
  refine validateRequest_ok.2 ⟨?_, ?_⟩
  · intro m hm
    rw [perm_orderedBy.mem_iff, ConversationStore.messagesOf, List.mem_filter,
      decide_eq_true_eq] at hm
    exact hm.2
  · rw [List.isChain_iff_pairwise, List.pairwise_cons, List.pairwise_map]
    refine ⟨?_, pairwise_orderedBy nodup_messagesOf⟩
    intro n hn
    rcases List.mem_map.1 hn with ⟨m, -, rfl⟩
    exact m.positive

theorem lastMessages_admitted {messages : List Message}
    (h : validateRequest conversationId 0 messages = .ok ()) :
    validateRequest conversationId 0 (lastMessages limit messages) = .ok () := by
  rw [validateRequest_ok] at h ⊢
  exact ⟨fun m hm => h.1 m (List.mem_of_mem_drop hm),
    chain_of_suffix ((List.drop_suffix _ messages).map Message.sequence) h.2⟩

/-- The window is read and is valid. -/
theorem streamReadRecentMessages_eq
    (hconversation : ∃ c ∈ store.conversations, c.id = conversationId)
    (hlimit : policy.maxMessages ≤ maxRecentMessageWindowSize) (hpos : 0 < throughSequence)
    (hthrough : ∀ m ∈ store.messagesOf conversationId, m.sequence ≤ throughSequence) :
    streamReadRecentMessages store conversationId throughSequence policy = .ok
      { conversationId
        messages := lastMessages policy.maxMessages
          (orderedBy Message.sequence (store.messagesOf conversationId)) } := by
  rcases conversation_ok hconversation with ⟨c, hc⟩
  have hvalid : validateWindow conversationId throughSequence policy.maxMessages
      { conversationId
        messages := lastMessages policy.maxMessages
          (orderedBy Message.sequence (store.messagesOf conversationId)) } = .ok () := by
    have hadmitted := validateRequest_ok.1
      (@lastMessages_admitted _ policy.maxMessages _ (@history_admitted store conversationId))
    simp only [validateWindow, except_bind_ok, exists_unit, require_ok, validateMessages_ok, true_and]
    refine ⟨?_, ?_, hadmitted.2⟩
    · rw [lastMessages, List.length_drop]
      omega
    · intro m hm
      refine ⟨hadmitted.1 m hm, hthrough m ?_⟩
      exact perm_orderedBy.mem_iff.1 (List.mem_of_mem_drop hm)
  rw [streamReadRecentMessages, RecentMessageReadService.readRecentMessages, require, if_pos hpos,
    ok_bind, require, if_pos ⟨policy.positive, hlimit⟩, ok_bind, readRecentMessages_eq hc hthrough,
    ok_bind, hvalid, ok_bind]
  rfl

theorem candidates_drop (policy : ContextPolicy) (l : List ModelContextMessage) :
    candidates policy (l.drop (l.length - policy.maxMessages)) = candidates policy l := by
  rw [candidates, candidates, List.drop_drop, List.length_drop]
  congr 1
  omega

/-- What a context says of the conversation; the count of what it leaves out is relative to what was
read. -/
def ModelContext.selection (context : ModelContext) :
    Uuid × List ModelContextMessage × ContextBudget × Int :=
  (context.conversationId, context.messages, context.budget, context.usedCost)

/-- The check of a context does not look at how many messages it leaves out. -/
theorem checked_selection {a b : ModelContext} (hselection : a.selection = b.selection)
    (ha : 0 ≤ a.omittedMessageCount) (hb : 0 ≤ b.omittedMessageCount) :
    a.checked.map ModelContext.selection = b.checked.map ModelContext.selection := by
  rcases a with ⟨id, messages, budget, used, omitted⟩
  rcases b with ⟨id', messages', budget', used', omitted'⟩
  simp only [ModelContext.selection, Prod.mk.injEq] at hselection
  rcases hselection with ⟨rfl, rfl, rfl, rfl⟩
  simp only [ModelContext.checked, require, if_pos ha, if_pos hb, ok_bind]
  split_ifs
  · cases requireIncreasing "上下文消息必须按顺序号严格递增。" 0
      (messages.map ModelContextMessage.sequence) <;> rfl
  · rfl

theorem length_select {selected selected' messages : List ModelContextMessage} {maxCost used used' : Int}
    (h : select cost maxCost selected used messages = .ok (selected', used')) :
    selected'.length ≤ selected.length + messages.length := by
  induction messages generalizing selected used with
  | nil =>
    cases h
    exact le_rfl
  | cons m ms ih =>
    simp only [select, except_bind_ok] at h
    rcases h with ⟨c, -, h⟩
    split_ifs at h with hover
    · cases h
      omega
    · have := ih h
      simp only [List.length_append, List.length_cons, List.length_nil] at this ⊢
      omega

/-- The last messages of a history make the context of the history. -/
theorem build_lastMessages {messages : List Message}
    (hadmitted : validateRequest conversationId 0 messages = .ok ()) :
    (build cost conversationId (lastMessages policy.maxMessages messages) policy budget).map
        ModelContext.selection =
      (build cost conversationId messages policy budget).map ModelContext.selection := by
  have hcandidates : candidates policy ((lastMessages policy.maxMessages messages).map
      ModelContextMessage.fromMessage) =
      candidates policy (messages.map ModelContextMessage.fromMessage) := by
    have h := candidates_drop policy (messages.map ModelContextMessage.fromMessage)
    rwa [List.length_map, ← List.map_drop] at h
  simp only [build, hadmitted, lastMessages_admitted hadmitted, ok_bind, hcandidates]
  cases hselect : select cost budget.maxCost [] 0
      (candidates policy (messages.map ModelContextMessage.fromMessage)).reverse with
  | error e => rfl
  | ok selected =>
    have hlen := length_select hselect
    rw [List.length_nil, List.length_reverse, candidates, List.length_drop, List.length_map] at hlen
    simp only [ok_bind]
    refine checked_selection (by rfl) ?_ ?_
    · simp only [lastMessages, List.length_map, List.length_drop]
      omega
    · simp only [List.length_map]
      omega

end Window

def helloStore : ConversationStore where
  conversations :=
    [{ id := 0
       ownerSubject := "user"
       createdAt := ⟨2026, 1, 1, 0, 0, 0, 0, some 0, by decide, by decide, by decide⟩
       updatedAt := ⟨2026, 1, 1, 0, 0, 0, 0, some 0, by decide, by decide, by decide⟩
       topicSummary := none
       isPinned := false }]
  messages := [hello]
  unique := by decide

end GoAgent.Conversation
