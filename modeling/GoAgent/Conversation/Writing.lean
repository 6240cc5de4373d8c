import GoAgent.Conversation.History
import GoAgent.Foundation.Json
import GoAgent.Foundation.Keyed
import GoAgent.Foundation.Postgres
import GoAgent.Foundation.Transactions

/-!
# Writing conversations at the same time

Every operation of the repositories is a transaction at READ COMMITTED. It locks the row of its
conversation first, and the one that pins also locks its owner, by a hash of the subject; then it
reads what it needs and commits. The model runs any number of them at once, statement by statement.

**The contract.** The invariant (`Sound`) is on the tables alone. `Frame` says what a commit may do:
without the lock of a conversation it leaves its row, its messages and its events alone, and without
the lock of an owner it pins nothing of theirs.

* `serves_conversations` — every operation keeps to it.
* `messages_in_sequence`, `events_in_sequence` — the logs have no gap, no duplicate, and lose
  nothing that was acknowledged.
* `pins_within_limit` — the last pin is given once.
* `first_summary_stays` — a generated summary never replaces another.
-/

namespace GoAgent.Conversation

open GoAgent.Foundation

/-! ## The tables -/

inductive ConversationEventType
  | agentCall
  | agentResult
  | agentError
  deriving DecidableEq

/-- `ConversationEvent`, with a payload that `json.dumps` and `json.loads` have gone over. -/
structure ConversationEvent where
  id : Uuid
  conversationId : Uuid
  eventType : ConversationEventType
  callId : String
  capabilityCode : String
  sequence : Nat
  payload : List (String × Json)
  notBlank : isBlank callId = false ∧ isBlank capabilityCode = false
  notEmpty : payload ≠ []

namespace ConversationEvent

def numbered (e : ConversationEvent) (sequence : Nat) : ConversationEvent := { e with sequence }

@[simp] theorem numbered_self {e : ConversationEvent} : e.numbered e.sequence = e := rfl

@[simp] theorem numbered_numbered {e : ConversationEvent} {m n : Nat} :
    (e.numbered m).numbered n = e.numbered n := rfl

end ConversationEvent

structure ConversationTables where
  conversations : List ConversationRecord
  messages : List Message
  events : List ConversationEvent

namespace ConversationTables

def conversation (s : ConversationTables) (id : Uuid) : Option ConversationRecord :=
  lookup ConversationRecord.id id s.conversations

def messagesOf (s : ConversationTables) (id : Uuid) : List Message :=
  s.messages.filter fun m => decide (m.conversationId = id)

def eventsOf (s : ConversationTables) (id : Uuid) : List ConversationEvent :=
  s.events.filter fun e => decide (e.conversationId = id)

/-- `select(func.count(…))` -/
def pinnedCount (s : ConversationTables) (ownerSubject : String) : Nat :=
  s.conversations.countP fun c => decide (c.ownerSubject = ownerSubject) && c.isPinned

/-- `coalesce(max(sequence), 0)` -/
def maxSequence (sequences : List Nat) : Nat := sequences.foldl max 0

/-! ### Statements that write -/

def insertConversation (c : ConversationRecord) (s : ConversationTables) :
    Option ConversationTables :=
  if c.id ∉ s.conversations.map ConversationRecord.id ∧ storableText c.ownerSubject = true ∧
      notBlank c.ownerSubject = true then
    some { s with conversations := s.conversations ++ [c] }
  else none

/-- `UPDATE conversation SET … WHERE id = …` -/
def update (id : Uuid) (f : ConversationRecord → ConversationRecord) (s : ConversationTables) :
    ConversationTables :=
  { s with conversations := s.conversations.map fun c => if c.id = id then f c else c }

/-- `DELETE FROM conversation WHERE id = …`, and what the foreign keys cascade to. -/
def delete (id : Uuid) (s : ConversationTables) : ConversationTables where
  conversations := s.conversations.filter fun c => decide (c.id ≠ id)
  messages := s.messages.filter fun m => decide (m.conversationId ≠ id)
  events := s.events.filter fun e => decide (e.conversationId ≠ id)

def insertMessage (m : Message) (s : ConversationTables) : Option ConversationTables :=
  if m.id ∉ s.messages.map Message.id ∧
      m.sequence ∉ (s.messagesOf m.conversationId).map Message.sequence ∧
      m.conversationId ∈ s.conversations.map ConversationRecord.id ∧
      storableText m.content = true ∧ notBlank m.content = true ∧ storableInt m.sequence = true then
    some { s with messages := s.messages ++ [m] }
  else none

/-- `storable` says which payloads a `JSONB` column takes. -/
def insertEvent (storable : List (String × Json) → Bool) (e : ConversationEvent)
    (s : ConversationTables) : Option ConversationTables :=
  if e.id ∉ s.events.map ConversationEvent.id ∧
      e.sequence ∉ (s.eventsOf e.conversationId).map ConversationEvent.sequence ∧
      e.conversationId ∈ s.conversations.map ConversationRecord.id ∧
      (∀ t ∈ [e.callId, e.capabilityCode], storableText t = true ∧ notBlank t = true) ∧
      0 < e.sequence ∧ storableInt e.sequence = true ∧ storable e.payload = true then
    some { s with events := s.events ++ [e] }
  else none

end ConversationTables

/-- `chk_conversation_topic_summary_valid` -/
def validSummary (summary : String) : Bool :=
  storableText summary && notBlank summary && summary.toList.head? != some ' ' &&
    summary.toList.getLast? != some ' ' && summary.toList.all (fun c => c != '\n' && c != '\r') &&
    decide (summary.toList.length ≤ 80)

/-! ## The repositories -/

inductive LockKey
  | subject (hash : Int)
  | conversation (id : Uuid)
  deriving DecidableEq

/-- What the operations answer. -/
inductive Answer
  | conversation (c : ConversationRecord)
  | message (m : Message)
  | event (e : ConversationEvent)
  | nothing
  | notFound
  | accessDenied
  | pinLimitExceeded
  | outOfOrder
  | refused
  | notRefreshed

/-- The limit on pins, `hashtextextended(…, 0)`, and what a `JSONB` column takes. -/
structure Setting where
  pinnedConversationLimit : Nat
  hash : String → Int
  storable : List (String × Json) → Bool

abbrev Transaction := Program LockKey ConversationTables Answer

namespace ConversationRepository

variable (setting : Setting)

/-- `session.refresh(record)`, in a transaction of its own. -/
def refreshed (id : Uuid) : Transaction :=
  .read fun s =>
    match s.conversation id with
    | none => .answer .notRefreshed
    | some c => .answer (.conversation c)

def saveConversation (c : ConversationRecord) : Transaction :=
  .commit (ConversationTables.insertConversation c) (refreshed c.id) (.answer .refused)

/-- `select(…).where(ConversationRecord.id == …).with_for_update()` -/
def withRow (id : Uuid) (found : ConversationRecord → Transaction) : Transaction :=
  .lock (.conversation id) <| .read fun s =>
    match s.conversation id with
    | none => .answer .notFound
    | some c => found c

def summarized (summary : Option String) (now : Timestamp) (c : ConversationRecord) :
    ConversationRecord :=
  { c with
    topicSummary := summary
    updatedAt := now }

/-- The commit of an operation that sets the summary. -/
def setSummary (id : Uuid) (summary : Option String) (now : Timestamp) : Transaction :=
  .commit
    (fun s => if summary.all validSummary = true then
      some (s.update id (summarized summary now)) else none)
    (refreshed id) (.answer .refused)

def updateTopicSummary (id : Uuid) (summary : Option String) (now : Timestamp) : Transaction :=
  withRow id fun _ => setSummary id summary now

def updateTopicSummaryIfEmpty (id : Uuid) (summary : String) (now : Timestamp) : Transaction :=
  .lock (.conversation id) <| .read fun s =>
    match s.conversation id with
    | none => .answer .nothing
    | some c =>
      if c.topicSummary = none then setSummary id (some summary) now else .answer .nothing

def pinned (isPinned : Bool) (c : ConversationRecord) : ConversationRecord :=
  { c with isPinned }

/-- `update_pinned`. A session that has the record already, `stillLoaded`, does not load it again
when it locks the row. -/
def updatePinned (ownerSubject : String) (id : Uuid) (isPinned : Bool)
    (stillLoaded : Option ConversationRecord) : Transaction :=
  let write : Transaction :=
    .commit (fun s => some (s.update id (pinned isPinned))) (refreshed id) (.answer .refused)
  .lock (.subject (setting.hash ownerSubject)) <| withRow id fun c =>
    if c.ownerSubject = ownerSubject then
      if (stillLoaded.getD c).isPinned = isPinned then
        .commit some (refreshed id) (.answer .refused)
      else if isPinned then
        .read fun s =>
          if setting.pinnedConversationLimit ≤ s.pinnedCount ownerSubject then
            .answer .pinLimitExceeded
          else write
      else write
    else .answer .notFound

def deleteConversation (id : Uuid) : Transaction :=
  withRow id fun _ => .commit (fun s => some (s.delete id)) (.answer .nothing) (.answer .refused)

/-- The message `append_message` writes; `uuid4` is its id. -/
def nextMessage (s : ConversationTables) (id : Uuid) (role : MessageRole) (content : String)
    (notBlank : isBlank content = false) (uuid4 : Uuid) : Message where
  id := uuid4
  conversationId := id
  role := role
  content := content
  sequence := ConversationTables.maxSequence ((s.messagesOf id).map Message.sequence) + 1
  notBlank := notBlank
  positive := Nat.succ_pos _

def touched (now : Timestamp) (c : ConversationRecord) : ConversationRecord :=
  { c with updatedAt := now }

def appendMessage (id : Uuid) (role : MessageRole) (content : String)
    (notBlank : isBlank content = false) (uuid4 : Uuid) (now : Timestamp) : Transaction :=
  withRow id fun _ => .read fun s =>
    .commit
      (fun s' => (s'.update id (touched now)).insertMessage
        (nextMessage s id role content notBlank uuid4))
      (.read fun s =>
        match lookup Message.id uuid4 s.messages with
        | none => .answer .notRefreshed
        | some m => .answer (.message m))
      (.answer .refused)

/-- `next_event_sequence` -/
def nextEventSequence (id : Uuid) (next : Nat → Transaction) : Transaction :=
  withRow id fun _ => .read fun s =>
    next (ConversationTables.maxSequence ((s.eventsOf id).map ConversationEvent.sequence) + 1)

def saveEvent (e : ConversationEvent) : Transaction :=
  nextEventSequence e.conversationId fun sequence =>
    if sequence ≠ e.sequence then .answer .outOfOrder
    else
      .commit (ConversationTables.insertEvent setting.storable e)
        (.read fun s =>
          match lookup ConversationEvent.id e.id s.events with
          | none => .answer .notRefreshed
          | some e => .answer (.event e))
        (.answer .refused)

/-- `DialogueAgentInvocationService._append_event`: both calls are of one transaction. -/
def appendEvent (e : ConversationEvent) : Transaction :=
  nextEventSequence e.conversationId fun sequence => saveEvent setting (e.numbered sequence)

end ConversationRepository

namespace ConversationManagementService

/-- `ConversationAccessService.resolve` -/
def resolve (ownerSubject : String) (id : Uuid) (found : ConversationRecord → Transaction) :
    Transaction :=
  .read fun s =>
    match s.conversation id with
    | none => .answer .accessDenied
    | some c => if c.ownerSubject = ownerSubject then found c else .answer .accessDenied

/-- `stillLoaded` says whether the session keeps the record that resolved the conversation. -/
def pin (setting : Setting) (ownerSubject : String) (id : Uuid) (isPinned stillLoaded : Bool) :
    Transaction :=
  resolve ownerSubject id fun loaded =>
    ConversationRepository.updatePinned setting loaded.ownerSubject id isPinned
      (if stillLoaded then some loaded else none)

def delete (ownerSubject : String) (id : Uuid) : Transaction :=
  resolve ownerSubject id fun _ => ConversationRepository.deleteConversation id

end ConversationManagementService

/-- The operations on conversations. -/
inductive ConversationRequest
  | saveConversation (ownerSubject : String) (id : Uuid) (now : Timestamp)
  | updateTopicSummary (id : Uuid) (summary : Option String) (now : Timestamp)
  | updateTopicSummaryIfEmpty (id : Uuid) (summary : String) (now : Timestamp)
  | pin (ownerSubject : String) (id : Uuid) (isPinned stillLoaded : Bool)
  | delete (ownerSubject : String) (id : Uuid)
  | appendMessage (id : Uuid) (role : MessageRole) (content : String)
      (notBlank : isBlank content = false) (uuid4 : Uuid) (now : Timestamp)
  | appendEvent (e : ConversationEvent)

/-- `Conversation(owner_subject=…)` -/
def newConversation (ownerSubject : String) (id : Uuid) (now : Timestamp) : ConversationRecord where
  id := id
  ownerSubject := ownerSubject
  createdAt := now
  updatedAt := now
  topicSummary := none
  isPinned := false

def serveConversation (setting : Setting) : ConversationRequest → Transaction
  | .saveConversation ownerSubject id now =>
    ConversationRepository.saveConversation (newConversation ownerSubject id now)
  | .updateTopicSummary id summary now => ConversationRepository.updateTopicSummary id summary now
  | .updateTopicSummaryIfEmpty id summary now =>
    ConversationRepository.updateTopicSummaryIfEmpty id summary now
  | .pin ownerSubject id isPinned stillLoaded =>
    ConversationManagementService.pin setting ownerSubject id isPinned stillLoaded
  | .delete ownerSubject id => ConversationManagementService.delete ownerSubject id
  | .appendMessage id role content notBlank uuid4 now =>
    ConversationRepository.appendMessage id role content notBlank uuid4 now
  | .appendEvent e => ConversationRepository.appendEvent setting e

/-! ## The contract -/

/-- `1`, `2`, and so on. -/
def Numbered (sequences : List Nat) : Prop := sequences = List.range' 1 sequences.length

/-- What the requests of a run have in common: the conversations that are given a summary by hand,
and what each id was drawn for. -/
structure Scenario where
  renamed : Uuid → Prop
  message : Uuid → Uuid × MessageRole × String
  event : Uuid → ConversationEvent

def ConversationRequest.Fits (scenario : Scenario) : ConversationRequest → Prop
  | .updateTopicSummary id _ _ => scenario.renamed id
  | .appendMessage id role content _ uuid4 _ => scenario.message uuid4 = (id, role, content)
  | .appendEvent e => (scenario.event e.id).numbered e.sequence = e
  | _ => True

structure Sound (setting : Setting) (scenario : Scenario) (s : ConversationTables) : Prop where
  ids : (s.conversations.map ConversationRecord.id).Nodup
  messageIds : (s.messages.map Message.id).Nodup
  eventIds : (s.events.map ConversationEvent.id).Nodup
  messages : ∀ id, Numbered ((s.messagesOf id).map Message.sequence)
  events : ∀ id, Numbered ((s.eventsOf id).map ConversationEvent.sequence)
  messageRows : ∀ m ∈ s.messages, s.conversation m.conversationId ≠ none
  eventRows : ∀ e ∈ s.events, s.conversation e.conversationId ≠ none
  pinned : ∀ ownerSubject, s.pinnedCount ownerSubject ≤ setting.pinnedConversationLimit
  messageDrawn : ∀ m ∈ s.messages, scenario.message m.id = (m.conversationId, m.role, m.content)
  eventDrawn : ∀ e ∈ s.events, (scenario.event e.id).numbered e.sequence = e

/-- What a commit does to the tables. -/
structure Frame (setting : Setting) (scenario : Scenario) (held : List LockKey)
    (s s' : ConversationTables) : Prop where
  row : ∀ {id c}, .conversation id ∉ held → s.conversation id = some c → s'.conversation id = some c
  messages : ∀ {id}, .conversation id ∉ held → s'.messagesOf id = s.messagesOf id
  events : ∀ {id}, .conversation id ∉ held → s'.eventsOf id = s.eventsOf id
  pinned : ∀ {ownerSubject}, .subject (setting.hash ownerSubject) ∉ held →
    s'.pinnedCount ownerSubject ≤ s.pinnedCount ownerSubject
  grows : ∀ id, s'.conversation id = none ∨
    s.messagesOf id <+: s'.messagesOf id ∧ s.eventsOf id <+: s'.eventsOf id
  owner : ∀ {id c c'}, s.conversation id = some c → s'.conversation id = some c' →
    c'.ownerSubject = c.ownerSubject
  summary : ∀ {id c c'}, ¬scenario.renamed id → s.conversation id = some c →
    s'.conversation id = some c' → c.topicSummary ≠ none → c'.topicSummary = c.topicSummary

/-- What an answer says of the tables when it is given. -/
def ConversationRequest.Answered (setting : Setting) (q : ConversationRequest) :
    Answer → ConversationTables → Prop
  | .conversation c, s => s.conversation c.id = some c
  | .message m, s => m ∈ s.messages ∧
      ∃ now, q = .appendMessage m.conversationId m.role m.content m.notBlank m.id now
  | .event e, s => e ∈ s.events ∧ ∃ sequence, q = .appendEvent (e.numbered sequence)
  | .pinLimitExceeded, s => ∃ ownerSubject id stillLoaded,
      q = .pin ownerSubject id true stillLoaded ∧
        s.pinnedCount ownerSubject = setting.pinnedConversationLimit
  | .outOfOrder, _ => False
  | _, _ => True

abbrev Scenario.Request (scenario : Scenario) : Type :=
  { q : ConversationRequest // q.Fits scenario }

def conversationContract (setting : Setting) (scenario : Scenario) :
    Contract LockKey ConversationTables scenario.Request Answer where
  invariant := Sound setting scenario
  guarantee q a held s s' := Frame setting scenario held s s' ∧ ∀ r, a = some r →
    q.1.Answered setting r s'
  answers q := q.1.Answered setting

section Writes

variable {setting : Setting} {scenario : Scenario} {held : List LockKey}
  {s s' : ConversationTables} {id j : Uuid} {c : ConversationRecord} {m : Message}
  {e : ConversationEvent} {f : ConversationRecord → ConversationRecord}
  {p : ConversationRecord → Bool} {rows : List ConversationRecord} {ownerSubject : String}

open ConversationTables

/-! ### Sequences -/

theorem foldl_max_range' {n a : Nat} :
    (List.range' (a + 1) n).foldl max a = a + n := by
  induction n generalizing a with
  | zero => rfl
  | succ n ih =>
    rw [List.range'_succ, List.foldl_cons, Nat.max_eq_right (Nat.le_succ a), ih]
    omega

theorem maxSequence_of_numbered {sequences : List Nat} (h : Numbered sequences) :
    maxSequence sequences = sequences.length := by
  rw [maxSequence, h, foldl_max_range', List.length_range', Nat.zero_add]

theorem numbered_snoc {sequences : List Nat} (h : Numbered sequences) :
    Numbered (sequences ++ [sequences.length + 1]) := by
  unfold Numbered at h ⊢
  rw [List.length_append, List.length_singleton, List.range'_concat, ← h]
  congr 2
  omega

theorem not_mem_of_numbered {sequences : List Nat} (h : Numbered sequences) :
    sequences.length + 1 ∉ sequences := by
  intro hmem
  rw [h, List.mem_range'_1] at hmem
  rw [List.length_range'] at hmem
  omega

/-! ### Rows -/

theorem conversation_update (hf : ∀ c, (f c).id = c.id) : (s.update id f).conversation j =
    (s.conversation j).map fun c => if c.id = id then f c else c := by
  apply lookup_map
  intro c
  split_ifs
  · exact hf c
  · rfl

theorem conversation_update_ne (hf : ∀ c, (f c).id = c.id) (hj : j ≠ id) :
    (s.update id f).conversation j = s.conversation j := by
  rw [conversation_update hf]
  cases hc : s.conversation j with
  | none => rfl
  | some c =>
    have hid : c.id ≠ id := fun h => hj ((key_of_lookup hc).symm.trans h)
    rw [Option.map_some, if_neg hid]

theorem conversation_update_self (hf : ∀ c, (f c).id = c.id) (hc : s.conversation id = some c) :
    (s.update id f).conversation id = some (f c) := by
  rw [conversation_update hf, hc, Option.map_some, if_pos (key_of_lookup hc)]

theorem exists_update (hf : ∀ c, (f c).id = c.id) :
    (s.update id f).conversation j = none ↔ s.conversation j = none := by
  rw [conversation_update hf, Option.map_eq_none_iff]

theorem ids_update (hf : ∀ c, (f c).id = c.id) :
    (s.update id f).conversations.map ConversationRecord.id =
      s.conversations.map ConversationRecord.id := by
  show (s.conversations.map _).map _ = _
  rw [List.map_map]
  apply List.map_congr_left
  intro c _
  rw [Function.comp_apply]
  split_ifs
  · exact hf c
  · rfl

/-! ### Pins -/

theorem countP_update_le (hp : ∀ c ∈ rows, c.id = id → p (f c) = true → p c = true) :
    (rows.map fun c => if c.id = id then f c else c).countP p ≤ rows.countP p := by
  rw [List.countP_map]
  apply List.countP_mono_left
  intro c hc
  rw [Function.comp_apply]
  split_ifs with hid
  · exact hp c hc hid
  · exact fun h => h

theorem countP_update_succ (hn : (rows.map ConversationRecord.id).Nodup) :
    (rows.map fun c => if c.id = id then f c else c).countP p ≤ rows.countP p + 1 := by
  induction rows with
  | nil => exact Nat.zero_le _
  | cons c rows ih =>
    rw [List.map_cons, List.nodup_cons] at hn
    rw [List.map_cons, List.countP_cons, List.countP_cons]
    by_cases hid : c.id = id
    · have hrest : (rows.map fun c => if c.id = id then f c else c) = rows := by
        conv_rhs => rw [← List.map_id rows]
        apply List.map_congr_left
        intro d hd
        rw [if_neg]
        · rfl
        · exact fun h => hn.1 (hid.trans h.symm ▸ List.mem_map_of_mem hd)
      rw [hrest]
      split_ifs <;> omega
    · rw [if_neg hid]
      have := ih hn.2
      omega

/-- An update that pins nothing. -/
theorem pinnedCount_update_le (hf : ∀ c, (f c).ownerSubject = c.ownerSubject)
    (hpin : ∀ c, (f c).isPinned = true → c.isPinned = true) :
    (s.update id f).pinnedCount ownerSubject ≤ s.pinnedCount ownerSubject := by
  apply countP_update_le
  intro c _ _ h
  rw [Bool.and_eq_true, decide_eq_true_eq] at h ⊢
  exact ⟨(hf c).symm.trans h.1, hpin c h.2⟩

/-- The update of a row of another owner. -/
theorem pinnedCount_update_other (hf : ∀ c, (f c).ownerSubject = c.ownerSubject)
    (hn : (s.conversations.map ConversationRecord.id).Nodup) (hc : s.conversation id = some c)
    (hne : c.ownerSubject ≠ ownerSubject) :
    (s.update id f).pinnedCount ownerSubject ≤ s.pinnedCount ownerSubject := by
  apply countP_update_le
  intro d hd hid h
  rw [Bool.and_eq_true, decide_eq_true_eq] at h
  have heq : some d = some c := by
    rw [← hc, conversation, ← hid]
    exact (lookup_of_mem hn hd).symm
  rw [Option.some.inj heq] at h
  exact absurd ((hf c).symm.trans h.1) hne

theorem pinnedCount_update_succ (hn : (s.conversations.map ConversationRecord.id).Nodup) :
    (s.update id f).pinnedCount ownerSubject ≤ s.pinnedCount ownerSubject + 1 :=
  countP_update_succ hn

/-! ### Updates -/

/-- An update leaves everything but a row of the tables as it is. -/
theorem sound_update (h : Sound setting scenario s) (hf : ∀ c, (f c).id = c.id)
    (hpinned : ∀ ownerSubject,
      (s.update id f).pinnedCount ownerSubject ≤ setting.pinnedConversationLimit) :
    Sound setting scenario (s.update id f) where
  ids := by
    rw [ids_update hf]
    exact h.ids
  messageIds := h.messageIds
  eventIds := h.eventIds
  messages := h.messages
  events := h.events
  messageRows m hm := fun hnone => h.messageRows m hm ((exists_update hf).1 hnone)
  eventRows e he := fun hnone => h.eventRows e he ((exists_update hf).1 hnone)
  pinned := hpinned
  messageDrawn := h.messageDrawn
  eventDrawn := h.eventDrawn

theorem frame_update (hid : ∀ c, (f c).id = c.id)
    (howner : ∀ c, (f c).ownerSubject = c.ownerSubject) (hheld : .conversation id ∈ held)
    (hpinned : ∀ {ownerSubject}, .subject (setting.hash ownerSubject) ∉ held →
      (s.update id f).pinnedCount ownerSubject ≤ s.pinnedCount ownerSubject)
    (hsummary : ∀ c, ¬scenario.renamed id → s.conversation id = some c → c.topicSummary ≠ none →
      (f c).topicSummary = c.topicSummary) :
    Frame setting scenario held s (s.update id f) where
  row {j c} hj hc := by
    rw [conversation_update_ne hid, hc]
    rintro rfl
    exact hj hheld
  messages _ := rfl
  events _ := rfl
  pinned := hpinned
  grows _ := Or.inr ⟨List.prefix_rfl, List.prefix_rfl⟩
  owner {j c c'} hc hc' := by
    by_cases hj : j = id
    · subst hj
      obtain rfl := Option.some.inj ((conversation_update_self hid hc).symm.trans hc')
      exact howner c
    · rw [conversation_update_ne hid hj, hc] at hc'
      rw [Option.some.inj hc']
  summary {j c c'} hren hc hc' hsome := by
    by_cases hj : j = id
    · subst hj
      obtain rfl := Option.some.inj ((conversation_update_self hid hc).symm.trans hc')
      exact hsummary c hren hc hsome
    · rw [conversation_update_ne hid hj, hc] at hc'
      rw [Option.some.inj hc']

/-! ### Insertions and deletion -/

theorem conversation_insert (h : c.id ∉ s.conversations.map ConversationRecord.id) :
    lookup ConversationRecord.id j (s.conversations ++ [c]) =
      if j = c.id then some c else s.conversation j := by
  rw [lookup_append]
  split_ifs with hj
  · have hnone : lookup ConversationRecord.id j s.conversations = none :=
      lookup_eq_none_iff.2 (hj ▸ h)
    rw [hnone, hj]
    simp [lookup]
  · have hnone : lookup ConversationRecord.id j [c] = none := by
      simp [lookup, Ne.symm hj]
    rw [hnone, Option.or_none]
    rfl

theorem messagesOf_append :
    ({ s with messages := s.messages ++ [m] } : ConversationTables).messagesOf j =
      s.messagesOf j ++ if m.conversationId = j then [m] else [] := by
  rw [messagesOf, List.filter_append, messagesOf]
  congr 1
  split_ifs with h <;> simp [h]

theorem eventsOf_append :
    ({ s with events := s.events ++ [e] } : ConversationTables).eventsOf j =
      s.eventsOf j ++ if e.conversationId = j then [e] else [] := by
  rw [eventsOf, List.filter_append, eventsOf]
  congr 1
  split_ifs with h <;> simp [h]

theorem conversation_delete : (s.delete id).conversation j =
    if j = id then none else s.conversation j := by
  show lookup ConversationRecord.id j (s.conversations.filter _) = _
  split_ifs with hj
  · rw [lookup_eq_none_iff]
    intro hmem
    obtain ⟨c, hc, hid⟩ := List.mem_map.1 hmem
    have hne := (List.mem_filter.1 hc).2
    rw [decide_eq_true_eq] at hne
    exact hne (hid.trans hj)
  · unfold lookup ConversationTables.conversation lookup
    rw [List.find?_filter]
    congr 1
    funext c
    by_cases hc : c.id = j
    · simp [hc, hj]
    · simp [hc]

theorem filter_delete {α : Type} {key : α → Uuid} {xs : List α} :
    ((xs.filter fun x => decide (key x ≠ id)).filter fun x => decide (key x = j)) =
      if j = id then [] else xs.filter fun x => decide (key x = j) := by
  rw [List.filter_filter]
  split_ifs with hj
  · rw [List.filter_eq_nil_iff]
    intro x _ hx
    simp only [Bool.and_eq_true, decide_eq_true_eq] at hx
    exact hx.2 (hx.1.trans hj)
  · apply List.filter_congr
    intro x _
    by_cases hx : key x = j
    · simp [hx, hj]
    · simp [hx]

/-- A row of its own leaves the others alone. -/
theorem sound_insertConversation (h : Sound setting scenario s) (hpin : c.isPinned = false)
    (hs : insertConversation c s = some s') :
    Sound setting scenario s' ∧ Frame setting scenario held s s' := by
  unfold insertConversation at hs
  split_ifs at hs with hok
  obtain rfl := Option.some.inj hs
  have hfind {j : Uuid} : ConversationTables.conversation
      { s with conversations := s.conversations ++ [c] } j =
        if j = c.id then some c else s.conversation j := conversation_insert hok.1
  have hnone : s.conversation c.id = none := lookup_eq_none_iff.2 hok.1
  have hold {j : Uuid} {d : ConversationRecord} (hd : s.conversation j = some d) : j ≠ c.id := by
    rintro rfl
    exact absurd (hnone.symm.trans hd) (Option.some_ne_none d).symm
  have hcount {ownerSubject : String} : ConversationTables.pinnedCount
      { s with conversations := s.conversations ++ [c] } ownerSubject =
        s.pinnedCount ownerSubject := by
    show (s.conversations ++ [c]).countP _ = _
    rw [List.countP_append, List.countP_singleton, hpin, Bool.and_false]
    rfl
  have hrow {j : Uuid} (hj : s.conversation j ≠ none) : ConversationTables.conversation
      { s with conversations := s.conversations ++ [c] } j ≠ none := by
    rw [hfind]
    split_ifs
    · exact Option.some_ne_none c
    · exact hj
  constructor
  · refine ⟨?_, h.messageIds, h.eventIds, h.messages, h.events,
      fun m hm => hrow (h.messageRows m hm), fun e he => hrow (h.eventRows e he),
      fun ownerSubject => hcount.trans_le (h.pinned ownerSubject), h.messageDrawn, h.eventDrawn⟩
    show ((s.conversations ++ [c]).map _).Nodup
    rw [List.map_append, List.nodup_append]
    refine ⟨h.ids, List.nodup_singleton _, fun x hx y hy hxy => ?_⟩
    obtain rfl := List.mem_singleton.1 hy
    exact hok.1 (hxy ▸ hx)
  · refine ⟨fun {j d} _ hd => ?_, fun _ => rfl, fun _ => rfl, fun _ => hcount.le,
      fun _ => Or.inr ⟨List.prefix_rfl, List.prefix_rfl⟩, fun {j d d'} hd hd' => ?_,
      fun {j d d'} _ hd hd' _ => ?_⟩
    · rw [hfind, if_neg (hold hd), hd]
    · rw [hfind, if_neg (hold hd), hd] at hd'
      rw [Option.some.inj hd']
    · rw [hfind, if_neg (hold hd), hd] at hd'
      rw [Option.some.inj hd']

theorem sound_delete (h : Sound setting scenario s) (hheld : .conversation id ∈ held) :
    Sound setting scenario (s.delete id) ∧ Frame setting scenario held s (s.delete id) := by
  have hmessages {j : Uuid} : (s.delete id).messagesOf j = if j = id then [] else s.messagesOf j :=
    filter_delete
  have hevents {j : Uuid} : (s.delete id).eventsOf j = if j = id then [] else s.eventsOf j :=
    filter_delete
  have hcount {ownerSubject : String} :
      (s.delete id).pinnedCount ownerSubject ≤ s.pinnedCount ownerSubject :=
    List.filter_sublist.countP_le
  have hrow {j : Uuid} (hj : j ≠ id) (hsome : s.conversation j ≠ none) :
      (s.delete id).conversation j ≠ none := by
    rw [conversation_delete, if_neg hj]
    exact hsome
  have hne {j : Uuid} (hj : .conversation j ∉ held) : j ≠ id := by
    rintro rfl
    exact hj hheld
  constructor
  · refine ⟨h.ids.sublist (List.filter_sublist.map _),
      h.messageIds.sublist (List.filter_sublist.map _),
      h.eventIds.sublist (List.filter_sublist.map _), fun j => ?_, fun j => ?_, fun m hm => ?_,
      fun e he => ?_, fun ownerSubject => hcount.trans (h.pinned ownerSubject),
      fun m hm => h.messageDrawn m (List.mem_of_mem_filter hm),
      fun e he => h.eventDrawn e (List.mem_of_mem_filter he)⟩
    · rw [hmessages]
      split_ifs
      · rfl
      · exact h.messages j
    · rw [hevents]
      split_ifs
      · rfl
      · exact h.events j
    · obtain ⟨hm, hid⟩ := List.mem_filter.1 hm
      exact hrow (of_decide_eq_true hid) (h.messageRows m hm)
    · obtain ⟨he, hid⟩ := List.mem_filter.1 he
      exact hrow (of_decide_eq_true hid) (h.eventRows e he)
  · refine ⟨fun {j d} hj hd => ?_, fun {j} hj => ?_, fun {j} hj => ?_, fun _ => hcount, fun j => ?_,
      fun {j d d'} hd hd' => ?_, fun {j d d'} _ hd hd' _ => ?_⟩
    · rw [conversation_delete, if_neg (hne hj), hd]
    · rw [hmessages, if_neg (hne hj)]
    · rw [hevents, if_neg (hne hj)]
    · by_cases hj : j = id
      · exact Or.inl (conversation_delete.trans (if_pos hj))
      · rw [hmessages, hevents, if_neg hj, if_neg hj]
        exact Or.inr ⟨List.prefix_rfl, List.prefix_rfl⟩
    · rw [conversation_delete] at hd'
      split_ifs at hd'
      rw [hd] at hd'
      rw [Option.some.inj hd']
    · rw [conversation_delete] at hd'
      split_ifs at hd'
      rw [hd] at hd'
      rw [Option.some.inj hd']

/-- A message with the next number. -/
theorem sound_insertMessage (h : Sound setting scenario s) (hs : insertMessage m s = some s')
    (hsequence : m.sequence = (s.messagesOf m.conversationId).length + 1)
    (hdrawn : scenario.message m.id = (m.conversationId, m.role, m.content))
    (hheld : .conversation m.conversationId ∈ held) :
    Sound setting scenario s' ∧ Frame setting scenario held s s' ∧ m ∈ s'.messages := by
  unfold insertMessage at hs
  split_ifs at hs with hok
  obtain rfl := Option.some.inj hs
  refine ⟨⟨h.ids, ?_, h.eventIds, fun j => ?_, h.events, fun m' hm' => ?_, h.eventRows, h.pinned,
      fun m' hm' => ?_, h.eventDrawn⟩,
    ⟨fun _ hd => hd, fun {j} hj => ?_, fun _ => rfl, fun _ => le_rfl, fun j => ?_,
      fun hd hd' => congrArg _ (Option.some.inj (hd'.symm.trans hd)),
      fun _ hd hd' _ => congrArg _ (Option.some.inj (hd'.symm.trans hd))⟩,
    List.mem_append_right _ List.mem_cons_self⟩
  · show ((s.messages ++ [m]).map _).Nodup
    rw [List.map_append, List.nodup_append]
    refine ⟨h.messageIds, List.nodup_singleton _, fun x hx y hy hxy => ?_⟩
    obtain rfl := List.mem_singleton.1 hy
    exact hok.1 (hxy ▸ hx)
  · rw [messagesOf_append]
    split_ifs with hj
    · subst hj
      have hsnoc := numbered_snoc (h.messages m.conversationId)
      rw [List.length_map, ← hsequence] at hsnoc
      rw [List.map_append]
      exact hsnoc
    · rw [List.append_nil]
      exact h.messages j
  · rcases List.mem_append.1 hm' with hm' | hm'
    · exact h.messageRows m' hm'
    · rw [List.mem_singleton.1 hm']
      exact fun hnone => lookup_eq_none_iff.1 hnone hok.2.2.1
  · rcases List.mem_append.1 hm' with hm' | hm'
    · exact h.messageDrawn m' hm'
    · rw [List.mem_singleton.1 hm']
      exact hdrawn
  · rw [messagesOf_append, if_neg, List.append_nil]
    rintro rfl
    exact hj hheld
  · rw [messagesOf_append]
    exact Or.inr ⟨List.prefix_append _ _, List.prefix_rfl⟩

theorem sound_insertEvent (h : Sound setting scenario s)
    (hs : insertEvent setting.storable e s = some s')
    (hsequence : e.sequence = (s.eventsOf e.conversationId).length + 1)
    (hdrawn : (scenario.event e.id).numbered e.sequence = e)
    (hheld : .conversation e.conversationId ∈ held) :
    Sound setting scenario s' ∧ Frame setting scenario held s s' ∧ e ∈ s'.events := by
  unfold insertEvent at hs
  split_ifs at hs with hok
  obtain rfl := Option.some.inj hs
  refine ⟨⟨h.ids, h.messageIds, ?_, h.messages, fun j => ?_, h.messageRows, fun e' he' => ?_,
      h.pinned, h.messageDrawn, fun e' he' => ?_⟩,
    ⟨fun _ hd => hd, fun _ => rfl, fun {j} hj => ?_, fun _ => le_rfl, fun j => ?_,
      fun hd hd' => congrArg _ (Option.some.inj (hd'.symm.trans hd)),
      fun _ hd hd' _ => congrArg _ (Option.some.inj (hd'.symm.trans hd))⟩,
    List.mem_append_right _ List.mem_cons_self⟩
  · show ((s.events ++ [e]).map _).Nodup
    rw [List.map_append, List.nodup_append]
    refine ⟨h.eventIds, List.nodup_singleton _, fun x hx y hy hxy => ?_⟩
    obtain rfl := List.mem_singleton.1 hy
    exact hok.1 (hxy ▸ hx)
  · rw [eventsOf_append]
    split_ifs with hj
    · subst hj
      have hsnoc := numbered_snoc (h.events e.conversationId)
      rw [List.length_map, ← hsequence] at hsnoc
      rw [List.map_append]
      exact hsnoc
    · rw [List.append_nil]
      exact h.events j
  · rcases List.mem_append.1 he' with he' | he'
    · exact h.eventRows e' he'
    · rw [List.mem_singleton.1 he']
      exact fun hnone => lookup_eq_none_iff.1 hnone hok.2.2.1
  · rcases List.mem_append.1 he' with he' | he'
    · exact h.eventDrawn e' he'
    · rw [List.mem_singleton.1 he']
      exact hdrawn
  · rw [eventsOf_append, if_neg, List.append_nil]
    rintro rfl
    exact hj hheld
  · rw [eventsOf_append]
    exact Or.inr ⟨List.prefix_rfl, List.prefix_append _ _⟩

end Writes

/-! ### Every operation keeps the contract -/

section Operations

variable {setting : Setting} {scenario : Scenario} {q : scenario.Request} {held : List LockKey}
  {s s' : ConversationTables} {id : Uuid} {c : ConversationRecord}

open ConversationTables ConversationRepository ConversationManagementService

/-- A commit that does not answer yet. -/
theorem guarantee_of_frame (h : Frame setting scenario held s s') :
    (conversationContract setting scenario).guarantee q none held s s' :=
  ⟨h, fun r hr => absurd hr (Option.some_ne_none r).symm⟩

theorem safe_refreshed : (conversationContract setting scenario).Safe q (refreshed id) held s := by
  intro s' _ _
  cases hc : s'.conversation id with
  | none =>
    simp only [hc]
    trivial
  | some c =>
    simp only [hc]
    show s'.conversation c.id = some c
    rw [key_of_lookup hc]
    exact hc

theorem safe_withRow {found : ConversationRecord → Transaction}
    (h : ∀ s' c, (conversationContract setting scenario).Later held s s' →
      s'.conversation id = some c →
      (conversationContract setting scenario).Safe q (found c) (.conversation id :: held) s') :
    (conversationContract setting scenario).Safe q (withRow id found) held s := by
  intro _ hlock _ s' hs' _
  cases hc : s'.conversation id with
  | none =>
    simp only [hc]
    trivial
  | some c =>
    simp only [hc]
    exact h s' c (hlock.trans hs'.unlock) hc

/-- The row of a locked conversation stays as it is. -/
theorem conversation_later (h : (conversationContract setting scenario).Later held s s')
    (hheld : .conversation id ∈ held) (hc : s.conversation id = some c) :
    s'.conversation id = some c :=
  h.keeps (P := fun s => s.conversation id = some c) hheld
    (fun _ _ _ _ _ hid _ _ hg hc => hg.1.row hid hc) hc

/-- So do its messages and its events. -/
theorem messagesOf_later (h : (conversationContract setting scenario).Later held s s')
    (hheld : .conversation id ∈ held) : s'.messagesOf id = s.messagesOf id :=
  h.keeps (P := fun u => u.messagesOf id = s.messagesOf id) hheld
    (fun _ _ _ _ _ hid _ _ hg hu => (hg.1.messages hid).trans hu) rfl

theorem eventsOf_later (h : (conversationContract setting scenario).Later held s s')
    (hheld : .conversation id ∈ held) : s'.eventsOf id = s.eventsOf id :=
  h.keeps (P := fun u => u.eventsOf id = s.eventsOf id) hheld
    (fun _ _ _ _ _ hid _ _ hg hu => (hg.1.events hid).trans hu) rfl

/-- Under the lock of its owner, nothing of theirs is pinned. -/
theorem pinnedCount_later {ownerSubject : String} {n : Nat}
    (h : (conversationContract setting scenario).Later held s s')
    (hheld : .subject (setting.hash ownerSubject) ∈ held) (hn : s.pinnedCount ownerSubject < n) :
    s'.pinnedCount ownerSubject < n :=
  h.keeps (P := fun s => s.pinnedCount ownerSubject < n) hheld
    (fun _ _ _ _ _ hsubject _ _ hg hn => (hg.1.pinned hsubject).trans_lt hn) hn

/-- An update that pins nothing and is not the second summary. -/
theorem safe_update {f : ConversationRecord → ConversationRecord} {refused : Transaction}
    {write : ConversationTables → Option ConversationTables}
    (hwrite : ∀ {s s'}, write s = some s' → s' = s.update id f)
    (hid : ∀ c, (f c).id = c.id) (howner : ∀ c, (f c).ownerSubject = c.ownerSubject)
    (hpin : ∀ c, (f c).isPinned = true → c.isPinned = true) (hheld : .conversation id ∈ held)
    (hc : s.conversation id = some c)
    (hsummary : ¬scenario.renamed id → c.topicSummary ≠ none →
      (f c).topicSummary = c.topicSummary)
    (hrefused : ∀ s, (conversationContract setting scenario).Safe q refused [] s) :
    (conversationContract setting scenario).Safe q (.commit write (refreshed id) refused)
      held s := by
  intro s' hs' hinv
  refine ⟨fun s'' hw => ?_, fun _ => hrefused s'⟩
  obtain rfl := hwrite hw
  have hcount {ownerSubject : String} :
      (s'.update id f).pinnedCount ownerSubject ≤ s'.pinnedCount ownerSubject :=
    pinnedCount_update_le howner hpin
  have hrow : s'.conversation id = some c := conversation_later hs' hheld hc
  refine ⟨sound_update hinv hid fun ownerSubject => hcount.trans (hinv.pinned ownerSubject),
    guarantee_of_frame (frame_update hid howner hheld (fun _ => hcount) fun d hren hd => ?_),
    fun _ => safe_refreshed⟩
  obtain rfl := Option.some.inj (hrow.symm.trans hd)
  exact hsummary hren

theorem safe_setSummary {summary : Option String} {now : Timestamp}
    (hheld : .conversation id ∈ held) (hc : s.conversation id = some c)
    (h : scenario.renamed id ∨ c.topicSummary = none) :
    (conversationContract setting scenario).Safe q (setSummary id summary now) held s := by
  refine safe_update (f := summarized summary now) (fun hw => ?_) (fun _ => rfl) (fun _ => rfl)
    (fun _ hpin => hpin) hheld hc (fun hren hsome => ?_) fun _ => trivial
  · split_ifs at hw
    exact (Option.some.inj hw).symm
  · exact absurd h (not_or.2 ⟨hren, hsome⟩)

theorem safe_saveConversation (hpin : c.isPinned = false) :
    (conversationContract setting scenario).Safe q (saveConversation c) held s := by
  intro s' _ hinv
  refine ⟨fun s'' hw => ?_, fun _ => trivial⟩
  obtain ⟨hinv', hframe⟩ := sound_insertConversation hinv hpin hw
  exact ⟨hinv', guarantee_of_frame hframe, fun _ => safe_refreshed⟩

theorem safe_updateTopicSummary {summary : Option String} {now : Timestamp}
    (h : scenario.renamed id) :
    (conversationContract setting scenario).Safe q (updateTopicSummary id summary now) held s :=
  safe_withRow fun _ _ _ hc => safe_setSummary List.mem_cons_self hc (Or.inl h)

theorem safe_updateTopicSummaryIfEmpty {summary : String} {now : Timestamp} :
    (conversationContract setting scenario).Safe q (updateTopicSummaryIfEmpty id summary now)
      held s := by
  intro _ _ _ s' _ _
  cases hc : s'.conversation id with
  | none =>
    simp only [hc]
    trivial
  | some c =>
    simp only [hc]
    split_ifs with hempty
    · exact safe_setSummary List.mem_cons_self hc (Or.inr hempty)
    · trivial

theorem safe_deleteConversation :
    (conversationContract setting scenario).Safe q (deleteConversation id) held s := by
  refine safe_withRow fun s c _ _ s' _ hinv => ⟨fun s'' hw => ?_, fun _ => trivial⟩
  obtain rfl := Option.some.inj hw
  obtain ⟨hinv', hframe⟩ := sound_delete hinv (List.mem_cons_self (l := held))
  exact ⟨hinv', ⟨hframe, fun r hr => Option.some.inj hr ▸ trivial⟩, fun _ => trivial⟩

/-- A commit that goes on from an update of the row may do what the update may. -/
theorem Frame.after_update {f : ConversationRecord → ConversationRecord}
    (hid : ∀ c, (f c).id = c.id) (hframe : Frame setting scenario held s (s.update id f))
    (h : Frame setting scenario held (s.update id f) s') : Frame setting scenario held s s' where
  row hj hc := h.row hj (hframe.row hj hc)
  messages hj := h.messages hj
  events hj := h.events hj
  pinned hsubject := (h.pinned hsubject).trans (hframe.pinned hsubject)
  grows j := h.grows j
  owner {j c c'} hc hc' := by
    obtain ⟨d, hd⟩ := Option.ne_none_iff_exists'.1 fun hnone =>
      absurd ((exists_update hid).1 hnone ▸ hc) (Option.some_ne_none c).symm
    exact (h.owner hd hc').trans (hframe.owner hc hd)
  summary {j c c'} hren hc hc' hsome := by
    obtain ⟨d, hd⟩ := Option.ne_none_iff_exists'.1 fun hnone =>
      absurd ((exists_update hid).1 hnone ▸ hc) (Option.some_ne_none c).symm
    have hsummary := hframe.summary hren hc hd hsome
    rw [← hsummary]
    exact h.summary hren hd hc' (hsummary ▸ hsome)

theorem safe_appendMessage {role : MessageRole} {content : String}
    {notBlank : isBlank content = false} {uuid4 : Uuid} {now : Timestamp}
    (hq : q.1 = .appendMessage id role content notBlank uuid4 now) :
    (conversationContract setting scenario).Safe q
      (appendMessage id role content notBlank uuid4 now) held s := by
  have hdrawn : scenario.message uuid4 = (id, role, content) := by
    have hfits := q.2
    rw [hq] at hfits
    exact hfits
  refine safe_withRow fun _ c _ _ s _ hinv s' hs' hinv' => ⟨fun s'' hw => ?_, fun _ => trivial⟩
  -- the messages counted are still all of them
  have hkept : s'.messagesOf id = s.messagesOf id := messagesOf_later hs' List.mem_cons_self
  have hsequence : (nextMessage s id role content notBlank uuid4).sequence =
      (s'.messagesOf id).length + 1 := by
    rw [hkept]
    show maxSequence _ + 1 = _
    rw [maxSequence_of_numbered (hinv.messages id), List.length_map]
  have htouched : Sound setting scenario (s'.update id (touched now)) :=
    sound_update hinv' (fun _ => rfl) fun _ =>
      (pinnedCount_update_le (f := touched now) (fun _ => rfl) fun _ h => h).trans (hinv'.pinned _)
  have hframe : Frame setting scenario (.conversation id :: held) s' (s'.update id (touched now)) :=
    frame_update (fun _ => rfl) (fun _ => rfl) List.mem_cons_self
      (fun _ => pinnedCount_update_le (fun _ => rfl) fun _ h => h) fun _ _ _ _ => rfl
  obtain ⟨hinv'', hframe', -⟩ := sound_insertMessage htouched hw hsequence hdrawn
    (List.mem_cons_self (l := held))
  have hboth : Frame setting scenario (.conversation id :: held) s' s'' :=
    .after_update (f := touched now) (fun _ => rfl) hframe hframe'
  refine ⟨hinv'', guarantee_of_frame hboth, fun _ u _ hu => ?_⟩
  cases hm : lookup Message.id uuid4 u.messages with
  | none =>
    simp only [hm]
    trivial
  | some m =>
    simp only [hm]
    refine ⟨mem_of_lookup hm, now, ?_⟩
    have hfound := hu.messageDrawn m (mem_of_lookup hm)
    have hkey := key_of_lookup hm
    rw [hkey, hdrawn] at hfound
    obtain ⟨mid, mconversation, mrole, mcontent, msequence, mblank, mpositive⟩ := m
    obtain rfl := hkey
    cases hfound
    exact hq

/-- An event that was given the next number under the lock is not refused for its order. -/
theorem safe_saveEvent {e : ConversationEvent}
    (hheld : .conversation e.conversationId ∈ held)
    (hsequence : e.sequence = (s.eventsOf e.conversationId).length + 1)
    (hq : ∃ sequence, q.1 = .appendEvent (e.numbered sequence)) :
    (conversationContract setting scenario).Safe q (saveEvent setting e) held s := by
  have hdrawn : (scenario.event e.id).numbered e.sequence = e := by
    obtain ⟨sequence, hq⟩ := hq
    have hfits : q.1.Fits scenario := q.2
    rw [hq] at hfits
    have hsame : (scenario.event e.id).numbered sequence = e.numbered sequence := hfits
    rw [← ConversationEvent.numbered_numbered, hsame, ConversationEvent.numbered_numbered,
      ConversationEvent.numbered_self]
  refine safe_withRow fun s₁ c hs₁ _ s₂ hs₂ hinv₂ => ?_
  have hevents : s₂.eventsOf e.conversationId = s.eventsOf e.conversationId :=
    (eventsOf_later hs₂ List.mem_cons_self).trans (eventsOf_later hs₁ hheld)
  have hnext : maxSequence ((s₂.eventsOf e.conversationId).map ConversationEvent.sequence) + 1 =
      e.sequence := by
    rw [maxSequence_of_numbered (hinv₂.events e.conversationId), List.length_map, hevents,
      hsequence]
  simp only [hnext, ne_eq, not_true_eq_false, if_false]
  refine fun s₃ hs₃ hinv₃ => ⟨fun s₄ hw => ?_, fun _ => trivial⟩
  have hkept : s₃.eventsOf e.conversationId = s.eventsOf e.conversationId :=
    (eventsOf_later hs₃ List.mem_cons_self).trans hevents
  obtain ⟨hinv₄, hframe, -⟩ := sound_insertEvent hinv₃ hw (hkept ▸ hsequence) hdrawn
    (List.mem_cons_self (l := held))
  refine ⟨hinv₄, guarantee_of_frame hframe, fun _ u _ hu => ?_⟩
  cases he : lookup ConversationEvent.id e.id u.events with
  | none =>
    simp only [he]
    trivial
  | some e' =>
    simp only [he]
    have hfound := hu.eventDrawn e' (mem_of_lookup he)
    rw [key_of_lookup he] at hfound
    refine ⟨mem_of_lookup he, ?_⟩
    obtain ⟨sequence, hq⟩ := hq
    rw [← hdrawn, ConversationEvent.numbered_numbered] at hq
    refine ⟨sequence, hq.trans ?_⟩
    rw [← hfound, ConversationEvent.numbered_numbered]

theorem safe_appendEvent {e : ConversationEvent} (hq : q.1 = .appendEvent e) :
    (conversationContract setting scenario).Safe q (appendEvent setting e) held s := by
  refine safe_withRow fun s₁ c _ _ s₂ _ hinv => ?_
  refine safe_saveEvent List.mem_cons_self ?_ ⟨e.sequence, hq⟩
  show maxSequence _ + 1 = _
  rw [maxSequence_of_numbered (hinv.events e.conversationId), List.length_map]
  rfl

theorem frame_refl : Frame setting scenario held s s where
  row _ hc := hc
  messages _ := rfl
  events _ := rfl
  pinned _ := le_rfl
  grows _ := Or.inr ⟨List.prefix_rfl, List.prefix_rfl⟩
  owner hc hc' := congrArg _ (Option.some.inj (hc'.symm.trans hc))
  summary _ hc hc' _ := congrArg _ (Option.some.inj (hc'.symm.trans hc))

/-- Under the lock of its owner, who has fewer pins than the limit, a conversation is pinned. -/
theorem safe_pin {ownerSubject : String} (hsubject : .subject (setting.hash ownerSubject) ∈ held)
    (hheld : .conversation id ∈ held) (hc : s.conversation id = some c)
    (howner : c.ownerSubject = ownerSubject)
    (hcount : s.pinnedCount ownerSubject < setting.pinnedConversationLimit) :
    (conversationContract setting scenario).Safe q
      (.commit (fun s => some (s.update id (pinned true))) (refreshed id) (.answer .refused))
      held s := by
  refine fun s' hs' hinv => ⟨fun s'' hw => ?_, fun _ => trivial⟩
  obtain rfl := Option.some.inj hw
  have hrow : s'.conversation id = some c := conversation_later hs' hheld hc
  have hcount' := pinnedCount_later hs' hsubject hcount
  have hother {other : String} (hne : ownerSubject ≠ other) :
      (s'.update id (pinned true)).pinnedCount other ≤ s'.pinnedCount other :=
    pinnedCount_update_other (f := pinned true) (fun _ => rfl) hinv.ids hrow (howner.trans_ne hne)
  refine ⟨sound_update hinv (fun _ => rfl) fun other => ?_,
    guarantee_of_frame (frame_update (fun _ => rfl) (fun _ => rfl) hheld
      (fun {other} hfree => hother ?_) fun _ _ _ _ => rfl), fun _ => safe_refreshed⟩
  · by_cases hne : ownerSubject = other
    · subst hne
      exact (pinnedCount_update_succ hinv.ids).trans hcount'
    · exact (hother hne).trans (hinv.pinned other)
  · rintro rfl
    exact hfree hsubject

theorem safe_updatePinned {ownerSubject : String} {isPinned : Bool}
    {stillLoaded : Option ConversationRecord}
    (hq : isPinned = true → ∃ stillLoaded, q.1 = .pin ownerSubject id true stillLoaded) :
    (conversationContract setting scenario).Safe q
      (updatePinned setting ownerSubject id isPinned stillLoaded) held s := by
  refine fun s₁ _ _ => safe_withRow fun s₂ c _ hc => ?_
  split_ifs with howner hsame hpin
  · refine fun s₃ _ hinv => ⟨fun s₄ hw => ?_, fun _ => trivial⟩
    obtain rfl := Option.some.inj hw
    exact ⟨hinv, guarantee_of_frame frame_refl, fun _ => safe_refreshed⟩
  · intro s₃ hs₃ hinv
    dsimp only
    split_ifs with hlimit
    · obtain ⟨loaded, hq⟩ := hq hpin
      exact ⟨ownerSubject, id, loaded, hq, (hinv.pinned ownerSubject).antisymm hlimit⟩
    · rw [hpin]
      exact safe_pin (List.mem_cons_of_mem _ List.mem_cons_self) List.mem_cons_self
        (conversation_later hs₃ List.mem_cons_self hc) howner (Nat.lt_of_not_le hlimit)
  · exact safe_update (f := pinned isPinned) (fun hw => (Option.some.inj hw).symm)
      (fun _ => rfl) (fun _ => rfl) (fun _ h => absurd h hpin) List.mem_cons_self hc
      (fun _ _ => rfl) fun _ => trivial
  · trivial

theorem safe_resolve {ownerSubject : String} {found : ConversationRecord → Transaction}
    (h : ∀ s c, c.ownerSubject = ownerSubject →
      (conversationContract setting scenario).Safe q (found c) held s) :
    (conversationContract setting scenario).Safe q (resolve ownerSubject id found) held s := by
  intro s' _ _
  cases hc : s'.conversation id with
  | none =>
    simp only [hc]
    trivial
  | some c =>
    simp only [hc]
    split_ifs with howner
    · exact h s' c howner
    · trivial

/-- **Every request is served within the contract.** -/
theorem serves_conversations : Serves (conversationContract setting scenario)
    fun q => serveConversation setting q.1 := by
  rintro ⟨q, hq⟩ s -
  cases q with
  | saveConversation => exact safe_saveConversation rfl
  | updateTopicSummary => exact safe_updateTopicSummary hq
  | updateTopicSummaryIfEmpty => exact safe_updateTopicSummaryIfEmpty
  | pin ownerSubject id isPinned stillLoaded =>
    refine safe_resolve fun _ c howner => safe_updatePinned fun hpin => ⟨stillLoaded, ?_⟩
    rw [howner, ← hpin]
  | delete => exact safe_resolve fun _ _ _ => safe_deleteConversation
  | appendMessage => exact safe_appendMessage rfl
  | appendEvent => exact safe_appendEvent rfl

end Operations

/-! ## Every interleaving -/

section Runs

variable {τ : Type} [DecidableEq τ] {setting : Setting} {scenario : Scenario} {id : Uuid}
  {x y z : Database τ LockKey ConversationTables scenario.Request Answer}
  {a : DatabaseAction τ scenario.Request Answer}
  {as : List (DatabaseAction τ scenario.Request Answer)}

/-- The clients of a run. -/
def serveRequest (setting : Setting) {scenario : Scenario} (q : scenario.Request) : Transaction :=
  serveConversation setting q.1

/-- No client is at work, and the tables are sound. -/
abbrev Idle (setting : Setting) {scenario : Scenario}
    (x : Database τ LockKey ConversationTables scenario.Request Answer) : Prop :=
  Opened (conversationContract setting scenario) x

/-- A step after which the conversation exists. -/
abbrev StepKeeping (setting : Setting) {scenario : Scenario} (id : Uuid) :
    Database τ LockKey ConversationTables scenario.Request Answer →
      DatabaseAction τ scenario.Request Answer →
      Database τ LockKey ConversationTables scenario.Request Answer → Prop :=
  Keeping (fun s => s.conversation id ≠ none) (serveRequest setting)

theorem logs_grow (hx : Sane (conversationContract setting scenario) x)
    (h : Steps (StepKeeping setting id) x as y) :
    x.store.messagesOf id <+: y.store.messagesOf id ∧
      x.store.eventsOf id <+: y.store.eventsOf id := by
  refine related_of_keeping (R := fun s s' => s.messagesOf id <+: s'.messagesOf id ∧
      s.eventsOf id <+: s'.eventsOf id)
    serves_conversations (fun _ => ⟨List.prefix_rfl, List.prefix_rfl⟩) ?_ ?_ hx h
  · intro s s' s'' h h'
    exact ⟨h.1.trans h'.1, h.2.trans h'.2⟩
  · intro _ _ _ s s' _ _ hkept hg
    exact (hg.1.grows id).resolve_left hkept

theorem getElem?_of_numbered {α : Type} {sequence : α → Nat} {xs ys : List α} {v : α}
    (hxs : Numbered (xs.map sequence)) (hv : v ∈ xs) (h : xs <+: ys) :
    ys[sequence v - 1]? = some v := by
  obtain ⟨i, hi, rfl⟩ := List.mem_iff_getElem.1 hv
  have hsequence : sequence xs[i] = i + 1 := by
    have hget : (xs.map sequence)[i]? = some (sequence xs[i]) := by
      rw [List.getElem?_map, List.getElem?_eq_getElem hi]
      rfl
    rw [hxs, List.getElem?_range' (by simpa using hi)] at hget
    rw [← Option.some.inj hget]
    omega
  obtain ⟨rest, rfl⟩ := h
  rw [hsequence, Nat.add_sub_cancel, List.getElem?_append_left hi, List.getElem?_eq_getElem hi]

theorem answered_of_step {q : scenario.Request} {r : Answer}
    (hx : Sane (conversationContract setting scenario) x)
    (hs : DatabaseStep (serveRequest setting) x a y) (hr : a.answer? = some (q, r)) :
    q.1.Answered setting r y.store := by
  obtain ⟨held, ⟨-, hanswers⟩ | ⟨-, hanswers⟩⟩ := allows_of_answer serves_conversations hx hs hr
  · exact hanswers r rfl
  · exact hanswers r rfl

/-- **The messages of a conversation are numbered `1`, `2`, … in every interleaving**, and a message
that was acknowledged is the one asked for and stays at its number. -/
theorem messages_in_sequence
    (hx : Reachable (Idle setting) (DatabaseStep (serveRequest setting)) x) :
    (∀ id, (x.store.messagesOf id).map Message.sequence =
      List.range' 1 (x.store.messagesOf id).length) ∧
    ∀ {a y q m}, DatabaseStep (serveRequest setting) x a y → a.answer? = some (q, .message m) →
      (∃ now, q.1 = .appendMessage m.conversationId m.role m.content m.notBlank m.id now) ∧
      ∀ {as z}, Steps (StepKeeping setting m.conversationId) y as z →
        (z.store.messagesOf m.conversationId)[m.sequence - 1]? = some m := by
  have hsane := sane_of_reachable serves_conversations hx
  refine ⟨fun id => ?_, fun {a y q m} hs hanswer => ?_⟩
  · have hnumbered := hsane.invariant.messages id
    unfold Numbered at hnumbered
    rw [List.length_map] at hnumbered
    exact hnumbered
  have hy := (sane_step serves_conversations hsane hs).1
  obtain ⟨hmem, hasked⟩ := answered_of_step hsane hs hanswer
  refine ⟨hasked, fun hz => ?_⟩
  exact getElem?_of_numbered (hy.invariant.messages m.conversationId)
    (List.mem_filter.2 ⟨hmem, decide_eq_true rfl⟩) (logs_grow hy hz).1

/-- **So are its events**, and `_append_event` is never refused for the order. -/
theorem events_in_sequence
    (hx : Reachable (Idle setting) (DatabaseStep (serveRequest setting)) x) :
    (∀ id, (x.store.eventsOf id).map ConversationEvent.sequence =
      List.range' 1 (x.store.eventsOf id).length) ∧
    ∀ {a y q r}, DatabaseStep (serveRequest setting) x a y → a.answer? = some (q, r) →
      r ≠ .outOfOrder ∧ ∀ {e}, r = .event e →
        (∃ sequence, q.1 = .appendEvent (e.numbered sequence)) ∧
        ∀ {as z}, Steps (StepKeeping setting e.conversationId) y as z →
          (z.store.eventsOf e.conversationId)[e.sequence - 1]? = some e := by
  have hsane := sane_of_reachable serves_conversations hx
  refine ⟨fun id => ?_, fun {a y q r} hs hanswer => ?_⟩
  · have hnumbered := hsane.invariant.events id
    unfold Numbered at hnumbered
    rw [List.length_map] at hnumbered
    exact hnumbered
  have hy := (sane_step serves_conversations hsane hs).1
  have hmeets := answered_of_step hsane hs hanswer
  refine ⟨fun horder => ?_, fun {e} he => ?_⟩
  · subst horder
    exact hmeets
  subst he
  obtain ⟨hmem, hasked⟩ := hmeets
  refine ⟨hasked, fun hz => ?_⟩
  exact getElem?_of_numbered (hy.invariant.events e.conversationId)
    (List.mem_filter.2 ⟨hmem, decide_eq_true rfl⟩) (logs_grow hy hz).2

/-- **No owner has more pins than the limit**, however many requests race for the last, and who is
refused for it has that many. -/
theorem pins_within_limit
    (hx : Reachable (Idle setting) (DatabaseStep (serveRequest setting)) x) :
    (∀ ownerSubject, x.store.pinnedCount ownerSubject ≤ setting.pinnedConversationLimit) ∧
    ∀ {a y q}, DatabaseStep (serveRequest setting) x a y →
      a.answer? = some (q, .pinLimitExceeded) →
      ∃ ownerSubject id stillLoaded, q.1 = .pin ownerSubject id true stillLoaded ∧
        y.store.pinnedCount ownerSubject = setting.pinnedConversationLimit :=
  ⟨(invariant_of_reachable serves_conversations hx).pinned, fun hs hanswer =>
    answered_of_step (sane_of_reachable serves_conversations hx) hs hanswer⟩

/-- **The first summary is never written over**, unless by hand, and no conversation changes its
owner: of the generated summaries that race for an empty one, the first stays. -/
theorem first_summary_stays {c : ConversationRecord}
    (hx : Reachable (Idle setting) (DatabaseStep (serveRequest setting)) x)
    (h : Steps (StepKeeping setting id) x as y) (hc : x.store.conversation id = some c) :
    ∃ c', y.store.conversation id = some c' ∧ c'.ownerSubject = c.ownerSubject ∧
      (¬scenario.renamed id → c.topicSummary ≠ none → c'.topicSummary = c.topicSummary) := by
  refine related_of_keeping (R := fun s s' => ∀ c, s.conversation id = some c →
      ∃ c', s'.conversation id = some c' ∧ c'.ownerSubject = c.ownerSubject ∧
        (¬scenario.renamed id → c.topicSummary ≠ none → c'.topicSummary = c.topicSummary))
    serves_conversations (fun _ c hc => ⟨c, hc, rfl, fun _ _ => rfl⟩) ?_ ?_
    (sane_of_reachable serves_conversations hx) h c hc
  · intro s s' s'' h h' c hc
    obtain ⟨c', hc', howner, hsummary⟩ := h c hc
    obtain ⟨c'', hc'', howner', hsummary'⟩ := h' c' hc'
    refine ⟨c'', hc'', howner'.trans howner, fun hren hsome => ?_⟩
    have hkept := hsummary hren hsome
    exact (hsummary' hren (hkept ▸ hsome)).trans hkept
  · rintro _ _ _ s s' - - hkept ⟨hg, -⟩ c hc
    obtain ⟨c', hc'⟩ := Option.ne_none_iff_exists'.1 hkept
    exact ⟨c', hc', hg.owner hc hc', fun hren hsome => hg.summary hren hc hc' hsome⟩

/-! ### A run -/

/-- The one owner has used the one pin. -/
def sampleSetting : Setting where
  pinnedConversationLimit := 1
  hash _ := 0
  storable _ := true

theorem sampleEvent_notBlank : isBlank "call" = false ∧ isBlank "agent" = false := by
  decide +kernel

theorem sampleEvent_notEmpty : [("step", Json.int 1)] ≠ [] := List.cons_ne_nil _ _

def sampleEvent : ConversationEvent where
  id := 8
  conversationId := 1
  eventType := .agentCall
  callId := "call"
  capabilityCode := "agent"
  sequence := 0
  payload := [("step", Json.int 1)]
  notBlank := sampleEvent_notBlank
  notEmpty := sampleEvent_notEmpty

def sampleScenario : Scenario where
  renamed _ := False
  message _ := (1, .user, "hello")
  event _ := sampleEvent

theorem sampleTime_date : (1 ≤ 2026 ∧ 2026 ≤ 9999) ∧ (1 ≤ 1 ∧ 1 ≤ 12) ∧
    1 ≤ 1 ∧ 1 ≤ daysInMonth 2026 1 := by decide

theorem sampleTime_time : 12 < 24 ∧ 0 < 60 ∧ 0 < 60 ∧ 0 < 1000000 := by decide

theorem sampleTime_zone : ∀ o ∈ some (0 : Int), -dayMicroseconds < o ∧ o < dayMicroseconds := by
  decide

def sampleTime : Timestamp where
  year := 2026
  month := 1
  day := 1
  hour := 12
  minute := 0
  second := 0
  microsecond := 0
  offset := some 0
  date := sampleTime_date
  time := sampleTime_time
  zone := sampleTime_zone

def sampleTables : ConversationTables where
  conversations :=
    [⟨1, "owner", sampleTime, sampleTime, some "tender", true⟩,
      ⟨2, "owner", sampleTime, sampleTime, none, false⟩]
  messages := []
  events := []

theorem sampleMessage_notBlank : isBlank "hello" = false := by decide +kernel

def sampleAppend : sampleScenario.Request :=
  ⟨.appendMessage 1 .user "hello" sampleMessage_notBlank 7 sampleTime, rfl⟩

def samplePin : sampleScenario.Request := ⟨.pin "owner" 2 true false, trivial⟩

def sampleAppendEvent : sampleScenario.Request := ⟨.appendEvent sampleEvent, rfl⟩

def sampleStart : Database (Fin 3) LockKey ConversationTables sampleScenario.Request Answer where
  store := sampleTables
  clients _ := none

theorem idle_sampleStart : Idle sampleSetting sampleStart := by
  refine ⟨⟨by decide, by decide, by decide, fun _ => rfl, fun _ => rfl, ?_, ?_,
    fun ownerSubject => ?_, ?_, ?_⟩, fun _ => rfl⟩
  · exact fun _ hm => absurd hm List.not_mem_nil
  · exact fun _ he => absurd he List.not_mem_nil
  · simp only [sampleStart, sampleTables, ConversationTables.pinnedCount, List.countP_cons,
      List.countP_nil, Bool.and_false, Bool.and_true]
    split_ifs <;> simp_all [sampleSetting]
  · exact fun _ hm => absurd hm List.not_mem_nil
  · exact fun _ he => absurd he List.not_mem_nil

/-- The three clients are at work at once; each has one statement to go. -/
def sampleRace : Database (Fin 3) LockKey ConversationTables sampleScenario.Request Answer :=
  (Database.schedule (serveRequest sampleSetting)
    [(0, some sampleAppend), (1, some samplePin), (2, some sampleAppendEvent), (0, none), (1, none),
      (2, none), (0, none), (1, none), (2, none), (0, none), (1, none), (0, none), (2, none),
      (2, none), (2, none), (2, none), (2, none), (2, none), (2, none), (1, none)] sampleStart).2

theorem reachable_sampleRace :
    Reachable (Idle sampleSetting) (DatabaseStep (serveRequest sampleSetting)) sampleRace :=
  ⟨sampleStart, _, idle_sampleStart, steps_of_schedule⟩

/-- What a client answers in its next turn. -/
def sampleAnswer (t : Fin 3) : Option Answer :=
  (sampleRace.turn (serveRequest sampleSetting) t none).bind fun next =>
    next.1.answer?.map Prod.snd

theorem step_of_sampleAnswer {t : Fin 3} {r : Answer} (h : sampleAnswer t = some r) :
    ∃ a y q, DatabaseStep (serveRequest sampleSetting) sampleRace a y ∧
      a.answer? = some (q, r) := by
  obtain ⟨⟨a, y⟩, hturn, hanswer⟩ := Option.bind_eq_some_iff.1 h
  obtain ⟨⟨q, _⟩, hasked, rfl⟩ := Option.map_eq_some_iff.1 hanswer
  exact ⟨a, y, q, step_of_turn hturn, hasked⟩

def sampleMessage : Message :=
  ConversationRepository.nextMessage sampleTables 1 .user "hello" sampleMessage_notBlank 7

theorem messages_in_sequence_raced :
    ∃ a y, DatabaseStep (serveRequest sampleSetting) sampleRace a y ∧
      (y.store.messagesOf 1)[0]? = some sampleMessage := by
  obtain ⟨a, y, q, hs, hanswer⟩ := step_of_sampleAnswer (t := 0) (r := .message sampleMessage) rfl
  exact ⟨a, y, hs, ((messages_in_sequence reachable_sampleRace).2 hs hanswer).2 (.nil y)⟩

theorem events_in_sequence_raced :
    ∃ a y, DatabaseStep (serveRequest sampleSetting) sampleRace a y ∧
      (y.store.eventsOf 1)[0]? = some (sampleEvent.numbered 1) := by
  obtain ⟨a, y, q, hs, hanswer⟩ :=
    step_of_sampleAnswer (t := 2) (r := .event (sampleEvent.numbered 1)) rfl
  exact ⟨a, y, hs, (((events_in_sequence reachable_sampleRace).2 hs hanswer).2 rfl).2 (.nil y)⟩

theorem pins_within_limit_raced :
    ∃ a y ownerSubject, DatabaseStep (serveRequest sampleSetting) sampleRace a y ∧
      y.store.pinnedCount ownerSubject = 1 := by
  obtain ⟨a, y, q, hs, hanswer⟩ := step_of_sampleAnswer (t := 1) (r := .pinLimitExceeded) rfl
  obtain ⟨ownerSubject, _, _, _, hcount⟩ := (pins_within_limit reachable_sampleRace).2 hs hanswer
  exact ⟨a, y, ownerSubject, hs, hcount⟩

theorem first_summary_stays_raced :
    ∃ as y c', Steps (StepKeeping sampleSetting 1) sampleStart as y ∧ as.length = 5 ∧
      y.store.conversation 1 = some c' ∧ c'.topicSummary = some "tender" := by
  have h : ∃ as y, Steps (StepKeeping sampleSetting 1) sampleStart as y ∧ as.length = 5 :=
    ⟨_, _, .cons ⟨step_of_turn (t := 0) (q := some sampleAppend) rfl, Option.some_ne_none _⟩ <|
      .cons ⟨step_of_turn (t := 0) (q := none) rfl, Option.some_ne_none _⟩ <|
      .cons ⟨step_of_turn (t := 0) (q := none) rfl, Option.some_ne_none _⟩ <|
      .cons ⟨step_of_turn (t := 0) (q := none) rfl, Option.some_ne_none _⟩ <|
      .cons ⟨step_of_turn (t := 0) (q := none) rfl, Option.some_ne_none _⟩ <| .nil _, rfl⟩
  obtain ⟨as, y, hrun, hlength⟩ := h
  obtain ⟨c', hc', -, hsummary⟩ :=
    first_summary_stays ⟨sampleStart, [], idle_sampleStart, .nil _⟩ hrun rfl
  exact ⟨as, y, c', hrun, hlength, hc', hsummary id (Option.some_ne_none _)⟩

end Runs

end GoAgent.Conversation
