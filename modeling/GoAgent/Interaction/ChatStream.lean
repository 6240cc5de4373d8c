import GoAgent.Dialogue.StreamingConversation

/-!
# The chat stream

`InteractionChatStreamApplication.stream` reads the events of a conversation stream and emits what
the client sees: it waits for the first chunk with something in it, then passes the chunks on, with
heartbeats while it waits, and completes after the conversation has saved the answer. A `Session` is
a chat and the turn it reads; the turn moves on its own, in any order with what the chat observes.

* `ordered_of_stream` — a stream hands out its chunks in order, and none after it has completed.
* `accounts_answered`, `accounts_observe` — what the chat keeps of what it has read and emitted.
* `shown_is_saved` — what is saved is what the client has been shown, stripped.
-/

namespace GoAgent.Interaction.ChatStream

open GoAgent.Foundation
open GoAgent.Dialogue.Streaming

/-! ## The chat -/

inductive InteractionStreamEvent where
  /-- "meta" -/
  | metadata (requestId : String) (conversationId : UUID) (model promptVersion : String)
  | delta (requestId content : String)
  | heartbeat (requestId : String)
  | complete (requestId model promptVersion : String)
      (inputTokens outputTokens totalTokens : Option Int)
  | error (code message : String) (retryable : Bool)
  deriving DecidableEq

/-- Where `stream` stands: in its first `try`, at an event of `_stream_with_heartbeats` or at an
`await` of it, after the loop, or returned. -/
inductive ChatPhase where
  | executing
  /-- `_prime_stream` -/
  | priming (conversationId : Option UUID)
  | received (event : StreamingConversationEvent)
  /-- The generator has yielded `None`. -/
  | beating
  | awaiting
  /-- `asyncio.wait` has timed out for a heartbeat. -/
  | waited
  | ended
  | finished

structure Chat where
  requestId : String
  phase : ChatPhase := .executing
  model : String := ""
  promptVersion : String := ""
  latest : ChatLlmStreamChunk := { content := "" }
  completedResult : Option StreamingConversationResult := none
  emitted : List InteractionStreamEvent := []

/-- `value or default` -/
def orText (value : Option String) (default : String) : String :=
  match value with
  | some s => if s = "" then default else s
  | none => default

/-- The `except` clauses around `_prime_stream`; what is no `Exception` goes on. -/
def primeError : BaseException → Option InteractionStreamEvent
  | .exception "TimeoutError" => some (.error "UPSTREAM_TIMEOUT" "上游模型响应超时。" true)
  | .exception "ValueError" => some (.error "CHAT_INPUT_INVALID" "请求内容无效。" false)
  | .exception "ConversationAccessDeniedError" =>
    some (.error "CONVERSATION_ACCESS_DENIED" "会话不可用。" true)
  | .exception "StreamingConversationPersistenceError" =>
    some (.error "CONVERSATION_PERSISTENCE_ERROR" "对话暂时无法保存。" true)
  | .exception _ => some (.error "UPSTREAM_UNAVAILABLE" "上游模型暂时不可用。" true)
  | _ => none

/-- The `except` clauses around the loop. -/
def streamError : BaseException → Option InteractionStreamEvent
  | .exception "TimeoutError" => some (.error "UPSTREAM_TIMEOUT" "上游模型响应超时。" true)
  | .exception "StreamingConversationPersistenceError" =>
    some (.error "CONVERSATION_PERSISTENCE_ERROR" "对话暂时无法保存。" true)
  | .exception _ => some (.error "UPSTREAM_STREAM_ERROR" "模型生成过程中发生错误。" true)
  | _ => none

namespace Chat

def emit (c : Chat) (e : InteractionStreamEvent) : Chat := { c with emitted := c.emitted ++ [e] }

/-- The stream ends, with an error event or without. -/
def fail (c : Chat) (event : Option InteractionStreamEvent) : Chat :=
  { c with
    phase := .finished
    emitted := c.emitted ++ event.toList }

/-- `_prime_stream` goes on with an answer of the stream. -/
def prime (c : Chat) (conversationId : Option UUID) : Answer → Chat
  | .event (.started id) => { c with phase := .priming (some id) }
  | .event (.delta id chunk) =>
    if chunk.hasUpstreamActivity || !isBlank chunk.content then
      match conversationId with
      | none => c.fail (primeError (.exception "RuntimeError"))
      | some conversation =>
        let model := orText chunk.model "unknown"
        let promptVersion := orText chunk.promptVersion "llm-chat-v1"
        { c.emit (.metadata c.requestId conversation model promptVersion) with
          phase := .received (.delta id chunk)
          model
          promptVersion
          latest := chunk }
    else c
  | .event (.completed ..) => c
  | .raised e =>
    -- the stream has ended, and `_prime_stream` raises
    if e = .exception "StopAsyncIteration" then c.fail (primeError (.exception "RuntimeError"))
    else c.fail (primeError e)
  | .closed _ => c

/-- An answer to the `anext` of `_stream_with_heartbeats`. -/
def next (c : Chat) : Answer → Chat
  | .event e => { c with phase := .received e }
  | .raised e =>
    if e = .exception "StopAsyncIteration" then { c with phase := .ended }
    else c.fail (streamError e)
  | .closed _ => c

/-- The body of the loop for an event. -/
def handle (c : Chat) : StreamingConversationEvent → Chat
  | .completed _ result =>
    { c with
      completedResult := some result
      phase := .ended }
  | .delta _ chunk =>
    if chunk.content = "" then
      { c with
        latest := chunk
        phase := .awaiting }
    else
      { c.emit (.delta c.requestId chunk.content) with
        latest := chunk
        phase := .awaiting }
  | .started _ => { c with phase := .awaiting }

/-- After the loop. -/
def complete (c : Chat) : Chat :=
  match c.completedResult with
  | none => c.fail (streamError (.exception "RuntimeError"))
  | some result =>
    { c.emit (.complete c.requestId (orText result.model (orText c.latest.model c.model))
        (orText result.promptVersion (orText c.latest.promptVersion c.promptVersion))
        result.inputTokens result.outputTokens result.totalTokens) with
      phase := .finished }

end Chat

/-- What the chat learns otherwise than from the stream. -/
inductive Observation where
  /-- What `is_disconnected` returns. -/
  | disconnected (answer : Bool)
  /-- What `is_disconnected` raises. -/
  | raised (e : BaseException)
  | heartbeat
  | timeout
  /-- The chat is cancelled, or closed where it has emitted an event. -/
  | cancelled

namespace Chat

def observe (c : Chat) : Observation → Option Chat
  | .disconnected true =>
    match c.phase with
    | .received _ | .beating | .ended => some (c.fail none)
    | .waited => some { c with phase := .ended }
    | _ => none
  | .disconnected false =>
    match c.phase with
    | .received event => some (c.handle event)
    | .beating => some { c.emit (.heartbeat c.requestId) with phase := .awaiting }
    | .waited => some { c with phase := .beating }
    | .ended => some c.complete
    | _ => none
  | .raised e =>
    match c.phase with
    | .received _ | .beating | .waited | .ended => some (c.fail (streamError e))
    | _ => none
  | .heartbeat =>
    match c.phase with
    | .awaiting => some { c with phase := .waited }
    | _ => none
  | .timeout =>
    match c.phase with
    | .priming _ => some (c.fail (primeError (.exception "TimeoutError")))
    | .awaiting => some (c.fail (streamError (.exception "TimeoutError")))
    | _ => none
  | .cancelled => some (c.fail none)

/-- An answer of the stream to the chat that waits for it. -/
def answered (c : Chat) (a : Answer) : Option Chat :=
  match c.phase with
  | .priming conversationId => some (c.prime conversationId a)
  | .awaiting => some (c.next a)
  | _ => none

/-- `execute` has returned or raised. -/
def executed (c : Chat) (phase : Phase) : Option Chat :=
  match c.phase, phase with
  | .executing, .streaming .. => some { c with phase := .priming none }
  | .executing, .failed e => some (c.fail (primeError e))
  | _, _ => none

end Chat

/-! ## Sessions -/

structure Session where
  turn : Turn := {}
  chat : Chat
  /-- The answers of the stream that the chat has read. -/
  read : Nat := 0

inductive SessionEvent where
  /-- A step of the turn; the calls of the chat are among them. -/
  | turn (event : Event)
  | executed
  | answered
  | observed (observation : Observation)

def Session.step (s : Session) : SessionEvent → Option Session
  | .turn event => (GoAgent.Dialogue.Streaming.step s.turn event).map fun turn => { s with turn }
  | .executed => (s.chat.executed s.turn.phase).map fun chat => { s with chat }
  | .answered => do
    let a ← s.turn.answers[s.read]?
    let chat ← s.chat.answered a
    pure { s with chat, read := s.read + 1 }
  | .observed observation => (s.chat.observe observation).map fun chat => { s with chat }

def SessionMoves (s : Session) (event : SessionEvent) (s' : Session) : Prop :=
  s.step event = some s'

/-! ## What a stream hands out -/

/-- The chunk an answer carries. -/
def chunkOf : Answer → Option ChatLlmStreamChunk
  | .event (.delta _ chunk) => some chunk
  | _ => none

def deltas (answers : List Answer) : List ChatLlmStreamChunk := answers.filterMap chunkOf

def IsCompleted : Answer → Prop
  | .event (.completed ..) => True
  | _ => False

/-- An answer that is neither a chunk nor the completion. -/
def Plain (a : Answer) : Prop := chunkOf a = none ∧ ¬IsCompleted a

theorem plain_started (id : UUID) : Plain (.event (.started id)) := ⟨rfl, fun h => h⟩

theorem plain_raised (e : BaseException) : Plain (.raised e) := ⟨rfl, fun h => h⟩

theorem plain_closed (e : Option BaseException) : Plain (.closed e) := ⟨rfl, fun h => h⟩

/-- The generator has completed, or ended otherwise. -/
def Late : Generator → Prop
  | .atCompleted | .closing _ | .finished => True
  | .created | .atStarted | .pulling | .atDelta | .appending => False

structure Ordered (t : Turn) : Prop where
  deltas : deltas t.answers = t.chunks
  /-- No chunk comes after the stream has completed. -/
  after : t.answers.Pairwise fun a b => IsCompleted a → chunkOf b = none
  completed : (∃ a ∈ t.answers, IsCompleted a) → t.saved = [answerOf t.chunks] ∧ Late t.generator

section Turns

variable {t t' : Turn} {conversation : UUID} {userMessage : Message} {event : Event}

/-- A step that hands out neither a chunk nor the completion. -/
structure Quiet (t t' : Turn) : Prop where
  chunks : t'.chunks = t.chunks
  answers : t'.answers = t.answers ∨ ∃ a, Plain a ∧ t'.answers = t.answers ++ [a]
  late : Late t.generator → Late t'.generator ∧ t'.saved = t.saved

theorem Ordered.quiet (h : Ordered t) (hq : Quiet t t') : Ordered t' := by
  rcases hq with ⟨hchunks, hanswers, hlate⟩
  have hcompleted : (∃ a ∈ t.answers, IsCompleted a) →
      t'.saved = [answerOf t'.chunks] ∧ Late t'.generator := by
    intro hex
    rcases h.completed hex with ⟨hsaved, hl⟩
    rcases hlate hl with ⟨hl', hsaved'⟩
    exact ⟨by rw [hsaved', hsaved, hchunks], hl'⟩
  rcases hanswers with heq | ⟨a, ⟨ha, hna⟩, heq⟩
  · refine ⟨by rw [heq, hchunks, h.deltas], by rw [heq]; exact h.after, ?_⟩
    rw [heq]
    exact hcompleted
  · refine ⟨?_, ?_, ?_⟩
    · rw [heq, hchunks, ← h.deltas, ChatStream.deltas, List.filterMap_append,
        List.filterMap_cons_none ha, List.filterMap_nil, List.append_nil]
      rfl
    · rw [heq, List.pairwise_append]
      refine ⟨h.after, List.pairwise_singleton _ a, fun b _ c hc _ => ?_⟩
      rw [List.mem_singleton.1 hc]
      exact ha
    · rw [heq]
      rintro ⟨b, hb, hbc⟩
      rcases List.mem_append.1 hb with hb | hb
      · exact hcompleted ⟨b, hb, hbc⟩
      · rw [List.mem_singleton.1 hb] at hbc
        exact absurd hbc hna

theorem quiet_closeAfter (e : BaseException) : Quiet t (t.closeAfter e) := by
  unfold Turn.closeAfter
  split
  · exact ⟨rfl, Or.inr ⟨_, plain_raised _, rfl⟩, fun h => ⟨h, rfl⟩⟩
  · exact ⟨rfl, Or.inr ⟨_, plain_raised _, rfl⟩, fun h => ⟨h, rfl⟩⟩

theorem quiet_finish (ending : Ending) : Quiet t (t.finish ending) := by
  have hafter : ∀ e, Quiet t (Turn.closeAfter { t with generator := .finished, pending := none } e) := by
    intro e
    have h := quiet_closeAfter (t := { t with generator := .finished, pending := none }) e
    exact ⟨h.chunks, h.answers, fun _ => h.late trivial⟩
  unfold Turn.finish
  split
  · exact ⟨rfl, Or.inr ⟨_, plain_closed _, rfl⟩, fun _ => ⟨trivial, rfl⟩⟩
  · exact ⟨rfl, Or.inr ⟨_, plain_closed _, rfl⟩, fun _ => ⟨trivial, rfl⟩⟩
  · exact ⟨rfl, Or.inr ⟨_, plain_closed _, rfl⟩, fun _ => ⟨trivial, rfl⟩⟩
  · exact hafter _
  · exact hafter _

theorem quiet_anext {opening : Option BaseException} :
    Quiet t (anext conversation opening t) := by
  unfold anext
  split
  · exact ⟨rfl, Or.inr ⟨_, plain_raised _, rfl⟩, fun h => ⟨h, rfl⟩⟩
  · split
    · exact ⟨rfl, Or.inr ⟨_, plain_raised _, rfl⟩, fun h => ⟨h, rfl⟩⟩
    · cases hg : t.generator with
      | created =>
        exact ⟨rfl, Or.inr ⟨_, plain_started _, rfl⟩, fun h => by rw [hg] at h; cases h⟩
      | atStarted =>
        cases opening with
        | none => exact ⟨rfl, Or.inl rfl, fun h => by rw [hg] at h; cases h⟩
        | some e => exact quiet_finish _
      | atDelta => exact ⟨rfl, Or.inl rfl, fun h => by rw [hg] at h; cases h⟩
      | atCompleted => exact ⟨rfl, Or.inl rfl, fun _ => ⟨trivial, rfl⟩⟩
      | finished => exact quiet_finish _
      | pulling | appending | closing => exact ⟨rfl, Or.inl rfl, fun h => ⟨h, rfl⟩⟩

theorem quiet_aclose : Quiet t (aclose t) := by
  unfold aclose
  split
  · exact ⟨rfl, Or.inr ⟨_, plain_closed _, rfl⟩, fun h => ⟨h, rfl⟩⟩
  · split
    · exact ⟨rfl, Or.inr ⟨_, plain_closed _, rfl⟩, fun h => ⟨h, rfl⟩⟩
    · cases hg : t.generator with
      | created | atStarted | finished =>
        exact ⟨rfl, Or.inr ⟨_, plain_closed _, rfl⟩, fun _ => ⟨trivial, rfl⟩⟩
      | atDelta | atCompleted => exact ⟨rfl, Or.inl rfl, fun _ => ⟨trivial, rfl⟩⟩
      | pulling | appending | closing => exact ⟨rfl, Or.inl rfl, fun h => ⟨h, rfl⟩⟩

theorem quiet_streamClosed {ending : Ending} {error : Option BaseException} :
    Quiet t (streamClosed t ending error) := by
  have hfinish : ∀ ending, Quiet t (Turn.finish { t with stream.closed := true } ending) := by
    intro ending
    have h := quiet_finish (t := { t with stream.closed := true }) ending
    exact ⟨h.chunks, h.answers, h.late⟩
  cases error with
  | none => exact hfinish ending
  | some e => exact hfinish (.raised e)

/-- A chunk comes before the completion. -/
theorem ordered_pulled {answer : Pull} (h : Ordered t) (hgenerator : t.generator = .pulling) :
    Ordered (pulled conversation t answer) := by
  have hnone : ¬∃ a ∈ t.answers, IsCompleted a := by
    intro hex
    have hlate := (h.completed hex).2
    rw [hgenerator] at hlate
    exact hlate
  have hpulling : Late t.generator → False := fun hlate => by rw [hgenerator] at hlate; exact hlate
  cases answer with
  | chunk chunk =>
    refine ⟨?_, ?_, ?_⟩
    · show ChatStream.deltas (t.answers ++ [_]) = t.chunks ++ [chunk]
      rw [ChatStream.deltas, List.filterMap_append, ← h.deltas]
      rfl
    · show List.Pairwise _ (t.answers ++ [_])
      rw [List.pairwise_append]
      exact ⟨h.after, List.pairwise_singleton _ _, fun a ha b _ hc => absurd ⟨a, ha, hc⟩ hnone⟩
    · rintro ⟨a, ha, hc⟩
      rcases List.mem_append.1 ha with ha | ha
      · exact absurd ⟨a, ha, hc⟩ hnone
      · rw [List.mem_singleton.1 ha] at hc
        cases hc
  | ended =>
    unfold pulled
    simp only
    split
    · exact h.quiet ⟨rfl, Or.inl rfl, fun hlate => absurd hlate hpulling⟩
    · exact h.quiet ⟨rfl, Or.inl rfl, fun hlate => absurd hlate hpulling⟩
  | raised e => exact h.quiet ⟨rfl, Or.inl rfl, fun hlate => absurd hlate hpulling⟩

theorem ordered_appended {outcome : Except BaseException Message} (h : Ordered t) (hsound : Sound t)
    (hgenerator : t.generator = .appending) :
    Ordered (appended conversation userMessage t outcome) := by
  have hnot : Late t.generator → False := fun hlate => by rw [hgenerator] at hlate; exact hlate
  cases outcome with
  | error e => exact h.quiet ⟨rfl, Or.inl rfl, fun hlate => absurd hlate hnot⟩
  | ok message =>
    have hsaved : t.saved = [answerOf t.chunks] := by
      have hstanding := hsound.standing
      rw [hgenerator] at hstanding
      generalize t.pending = pending, t.closed = closed, t.stream = stream, t.saved = saved
        at hstanding ⊢
      cases hstanding
      rfl
    refine ⟨?_, ?_, fun _ => ⟨hsaved, trivial⟩⟩
    · show ChatStream.deltas (t.answers ++ [_]) = t.chunks
      rw [ChatStream.deltas, List.filterMap_append, ← h.deltas]
      exact List.append_nil _
    · show List.Pairwise _ (t.answers ++ [_])
      rw [List.pairwise_append]
      refine ⟨h.after, List.pairwise_singleton _ _, fun a _ b hb _ => ?_⟩
      rw [List.mem_singleton.1 hb]
      rfl

/-- **Every step of the stream keeps the order.** -/
theorem ordered_of_stream (h : Ordered t) (hsound : Sound t)
    (hs : stream conversation userMessage t event = some t') : Ordered t' := by
  unfold stream at hs
  split at hs
  · cases hs
    exact h.quiet quiet_anext
  · cases hs
    exact h.quiet quiet_aclose
  · split at hs <;> cases hs
    next hgenerator => exact ordered_pulled h hgenerator
  · split at hs <;> cases hs
    next hgenerator => exact ordered_appended h hsound hgenerator
  · split at hs <;> cases hs
    exact h.quiet quiet_streamClosed
  · cases hs

theorem ordered_new (hanswers : t.answers = []) (hchunks : t.chunks = []) : Ordered t := by
  refine ⟨by rw [hanswers, hchunks]; rfl, by rw [hanswers]; exact List.Pairwise.nil, ?_⟩
  rw [hanswers]
  rintro ⟨a, ha, -⟩
  cases ha

/-- Every turn hands out its chunks in order. -/
theorem ordered_of_reachable (h : Reachable (· = {}) Moves t) : Ordered t := by
  have hstage : Stage (fun t => Sound t ∧ Ordered t) t := by
    refine h.invariant (P := Stage fun t => Sound t ∧ Ordered t) (fun hinit => ?_) ?_
    · rw [hinit]
      exact .resolving
    · intro t event t' hstage hs
      have hguarded : Guarded Moves (fun _ _ => True) t event t' := ⟨hs, trivial⟩
      refine stage_of_step (fun _ _ => ⟨sound_new, ordered_new rfl rfl⟩) ?_ hstage hguarded
      rintro t t' conversation userMessage event ⟨hsound, hordered⟩ - hs
      exact ⟨sound_of_stream hsound hs, ordered_of_stream hordered hsound hs⟩
  cases hstage with
  | resolving | acquiring | appending | reading | failed => exact ordered_new rfl rfl
  | streaming _ _ _ _ _ hP => exact hP.2

/-- The answers of a stream stay. -/
theorem answers_prefix (hs : Moves t event t') : t.answers <+: t'.answers := by
  have hquiet : ∀ {u u' : Turn}, Quiet u u' → u.answers <+: u'.answers := by
    intro u u' h
    rcases h.answers with heq | ⟨a, -, heq⟩
    · rw [heq]
    · rw [heq]
      exact List.prefix_append _ _
  unfold Moves step at hs
  split at hs
  · unfold stream at hs
    split at hs
    · cases hs
      exact hquiet quiet_anext
    · cases hs
      exact hquiet quiet_aclose
    · split at hs <;> cases hs
      unfold pulled
      split
      · exact List.prefix_append _ _
      · simp only
        split <;> exact List.prefix_rfl
      · exact List.prefix_rfl
    · split at hs <;> cases hs
      unfold appended
      split
      · exact List.prefix_append _ _
      · exact List.prefix_rfl
    · split at hs <;> cases hs
      exact hquiet quiet_streamClosed
    · cases hs
  · unfold prepare at hs
    split at hs
    · split at hs <;> cases hs <;> exact List.prefix_rfl
    · split at hs <;> cases hs <;> exact List.prefix_rfl
    · split at hs <;> cases hs <;> exact List.prefix_rfl
    · split at hs <;> cases hs <;> exact List.prefix_rfl
    · cases hs

end Turns

/-! ## What the client has been shown -/

def deltaContent : InteractionStreamEvent → Option String
  | .delta _ content => some content
  | _ => none

/-- The contents of the delta events. -/
def shownContents (emitted : List InteractionStreamEvent) : List String :=
  emitted.filterMap deltaContent

def IsComplete : InteractionStreamEvent → Prop
  | .complete .. => True
  | _ => False

/-- Of the chunks read, a blank beginning is skipped, and the rest is shown but for what is still
to be handled. -/
def Shown (seen : List Answer) (emitted : List InteractionStreamEvent)
    (pending : List ChatLlmStreamChunk) : Prop :=
  ∃ skipped shown, deltas seen = skipped ++ shown ++ pending ∧
    (∀ chunk ∈ skipped, isBlank chunk.content = true) ∧
    String.join (shownContents emitted) = String.join (shown.map ChatLlmStreamChunk.content)

def Completed (seen : List Answer) : Prop := ∃ a ∈ seen, IsCompleted a

/-- A chat that has not completed. -/
structure Showing (seen : List Answer) (c : Chat) (pending : List ChatLlmStreamChunk) : Prop where
  shown : Shown seen c.emitted pending
  incomplete : ∀ e ∈ c.emitted, ¬IsComplete e
  result : c.completedResult ≠ none → Completed seen

/-- What a chat has emitted of what it has read, where it stands. -/
def Accounts (seen : List Answer) (c : Chat) : Prop :=
  match c.phase with
  | .executing | .priming _ =>
    Showing seen c [] ∧ shownContents c.emitted = [] ∧
      ∀ chunk ∈ deltas seen, isBlank chunk.content = true
  | .received event =>
    Showing seen c (chunkOf (.event event)).toList ∧ (IsCompleted (.event event) → Completed seen)
  | .beating | .awaiting | .waited | .ended => Showing seen c []
  | .finished => (∃ e ∈ c.emitted, IsComplete e) → Shown seen c.emitted [] ∧ Completed seen

section Chats

variable {c c' : Chat} {seen : List Answer} {a : Answer} {pending : List ChatLlmStreamChunk}
  {e : InteractionStreamEvent}

theorem deltas_append : deltas (seen ++ [a]) = deltas seen ++ (chunkOf a).toList := by
  rw [deltas, List.filterMap_append]
  cases h : chunkOf a with
  | none => rw [List.filterMap_cons_none h]; rfl
  | some chunk => rw [List.filterMap_cons_some h]; rfl

theorem Completed.append (h : Completed seen) : Completed (seen ++ [a]) := by
  rcases h with ⟨b, hb, hc⟩
  exact ⟨b, List.mem_append_left _ hb, hc⟩

theorem completed_last (h : IsCompleted a) : Completed (seen ++ [a]) :=
  ⟨a, List.mem_append_right _ List.mem_cons_self, h⟩

/-- An answer is read. -/
theorem Showing.read (h : Showing seen c []) : Showing (seen ++ [a]) c (chunkOf a).toList := by
  rcases h with ⟨⟨skipped, shown, hdeltas, hblank, hjoin⟩, hincomplete, hresult⟩
  refine ⟨⟨skipped, shown, ?_, hblank, hjoin⟩, hincomplete, fun hr => (hresult hr).append⟩
  rw [deltas_append, hdeltas, List.append_nil]

theorem join_append {l : List String} {s : String} :
    String.join (l ++ [s]) = String.join l ++ s := by
  rw [String.join, List.foldl_append]
  rfl

theorem shownContents_emit (he : deltaContent e = none) :
    shownContents (c.emitted ++ [e]) = shownContents c.emitted := by
  rw [shownContents, List.filterMap_append, List.filterMap_cons_none he, List.filterMap_nil,
    List.append_nil]
  rfl

theorem primeError_incomplete {raised : BaseException} (he : e ∈ primeError raised) :
    ¬IsComplete e := by
  unfold primeError at he
  split at he <;> cases he <;> exact fun h => h

theorem streamError_incomplete {raised : BaseException} (he : e ∈ streamError raised) :
    ¬IsComplete e := by
  unfold streamError at he
  split at he <;> cases he <;> exact fun h => h

/-- A chat that fails has not completed. -/
theorem accounts_fail {event : Option InteractionStreamEvent}
    (h : ∀ e ∈ c.emitted, ¬IsComplete e) (hevent : ∀ e ∈ event, ¬IsComplete e) :
    Accounts seen (c.fail event) := by
  rintro ⟨e, he, hcomplete⟩
  rcases List.mem_append.1 he with he | he
  · exact absurd hcomplete (h e he)
  · exact absurd hcomplete (hevent e (Option.mem_toList.1 he))

/-- An answer that leaves the chat waiting for the first chunk. -/
theorem accounts_priming (h : Showing seen c []) (hnone : shownContents c.emitted = [])
    (hblank : ∀ chunk ∈ deltas seen, isBlank chunk.content = true)
    (ha : ∀ chunk ∈ chunkOf a, isBlank chunk.content = true)
    (hemitted : c'.emitted = c.emitted) (hresult : c'.completedResult = c.completedResult)
    (hphase : ∃ id, c'.phase = .priming id) : Accounts (seen ++ [a]) c' := by
  have hall : ∀ chunk ∈ deltas (seen ++ [a]), isBlank chunk.content = true := by
    intro chunk hchunk
    rw [deltas_append, List.mem_append, Option.mem_toList] at hchunk
    exact hchunk.elim (hblank chunk) (ha chunk)
  rcases hphase with ⟨id, hid⟩
  rw [Accounts, hid]
  refine ⟨⟨⟨_, [], by simp, hall, ?_⟩, ?_, ?_⟩, ?_, hall⟩
  · rw [hemitted, hnone]
    rfl
  · rw [hemitted]
    exact h.incomplete
  · rw [hresult]
    exact fun hr => (h.result hr).append
  · rw [hemitted]
    exact hnone

theorem accounts_prime {conversationId : Option UUID} (h : Showing seen c [])
    (hphase : c.phase = .priming conversationId) (hnone : shownContents c.emitted = [])
    (hblank : ∀ chunk ∈ deltas seen, isBlank chunk.content = true) :
    Accounts (seen ++ [a]) (c.prime conversationId a) := by
  have hno : ∀ {chunk : ChatLlmStreamChunk}, chunk ∈ (none : Option ChatLlmStreamChunk) →
      isBlank chunk.content = true := fun h => by cases h
  cases a with
  | event event =>
    cases event with
    | started id => exact accounts_priming h hnone hblank (fun _ => hno) rfl rfl ⟨_, rfl⟩
    | completed id result =>
      exact accounts_priming h hnone hblank (fun _ => hno) rfl rfl ⟨_, hphase⟩
    | delta id chunk =>
      simp only [Chat.prime]
      split_ifs with hactive
      · cases conversationId with
        | none => exact accounts_fail h.incomplete fun _ => primeError_incomplete
        | some conversation =>
          refine ⟨⟨⟨deltas seen, [], ?_, hblank, ?_⟩, ?_, fun hr => (h.result hr).append⟩,
            fun hc => by cases hc⟩
          · rw [deltas_append, List.append_nil]
          · show String.join (shownContents (c.emitted ++ [_])) = _
            rw [shownContents_emit rfl, hnone]
            rfl
          · intro e he
            rcases List.mem_append.1 he with he | he
            · exact h.incomplete e he
            · rw [List.mem_singleton.1 he]
              exact fun hc => hc
      · have hchunk : isBlank chunk.content = true := by
          simp only [Bool.or_eq_true, Bool.not_eq_true', not_or, Bool.not_eq_false] at hactive
          exact hactive.2
        refine accounts_priming h hnone hblank ?_ rfl rfl ⟨_, hphase⟩
        intro other hother
        cases hother
        exact hchunk
  | raised e =>
    simp only [Chat.prime]
    split_ifs
    · exact accounts_fail h.incomplete fun _ => primeError_incomplete
    · exact accounts_fail h.incomplete fun _ => primeError_incomplete
  | closed e => exact accounts_priming h hnone hblank (fun _ => hno) rfl rfl ⟨_, hphase⟩

/-- An answer to the chat that shows what comes. -/
theorem accounts_next (h : Showing seen c []) (hphase : c.phase = .awaiting) :
    Accounts (seen ++ [a]) (c.next a) := by
  have hread := h.read (a := a)
  cases a with
  | event event =>
    exact ⟨⟨hread.shown, hread.incomplete, hread.result⟩, fun hc => completed_last hc⟩
  | raised e =>
    simp only [Chat.next]
    split_ifs
    · exact ⟨hread.shown, hread.incomplete, hread.result⟩
    · exact accounts_fail h.incomplete fun _ => streamError_incomplete
  | closed e =>
    rw [Accounts, Chat.next, hphase]
    exact hread

/-- The chat handles an event it has received. -/
theorem accounts_handle {event : StreamingConversationEvent}
    (h : Showing seen c (chunkOf (.event event)).toList)
    (hevent : IsCompleted (.event event) → Completed seen) : Accounts seen (c.handle event) := by
  rcases h with ⟨⟨skipped, shown, hdeltas, hblank, hjoin⟩, hincomplete, hresult⟩
  cases event with
  | started id => exact ⟨⟨skipped, shown, hdeltas, hblank, hjoin⟩, hincomplete, hresult⟩
  | completed id result =>
    exact ⟨⟨skipped, shown, hdeltas, hblank, hjoin⟩, hincomplete, fun _ => hevent trivial⟩
  | delta id chunk =>
    have hdeltas' : deltas seen = skipped ++ (shown ++ [chunk]) ++ [] := by
      rw [List.append_nil, ← List.append_assoc]
      exact hdeltas
    have hshown : String.join ((shown ++ [chunk]).map ChatLlmStreamChunk.content) =
        String.join (shownContents c.emitted) ++ chunk.content := by
      rw [List.map_append, List.map_singleton, join_append, ← hjoin]
    simp only [Chat.handle]
    split_ifs with hempty
    · refine ⟨⟨skipped, shown ++ [chunk], hdeltas', hblank, ?_⟩, hincomplete, hresult⟩
      rw [hshown, hempty, String.append_empty]
    · refine ⟨⟨skipped, shown ++ [chunk], hdeltas', hblank, ?_⟩, ?_, hresult⟩
      · rw [hshown, ← join_append]
        exact congrArg String.join List.filterMap_append
      · intro e he
        rcases List.mem_append.1 he with he | he
        · exact hincomplete e he
        · rw [List.mem_singleton.1 he]
          exact fun hc => hc

/-- After the loop the chat completes, if the stream has. -/
theorem accounts_complete (h : Showing seen c []) : Accounts seen c.complete := by
  unfold Chat.complete
  split
  · exact accounts_fail h.incomplete fun _ => streamError_incomplete
  · next result hresult =>
    intro _
    refine ⟨?_, h.result (by rw [hresult]; exact Option.some_ne_none result)⟩
    rcases h.shown with ⟨skipped, shown, hdeltas, hblank, hjoin⟩
    refine ⟨skipped, shown, hdeltas, hblank, ?_⟩
    exact (congrArg String.join (shownContents_emit rfl)).trans hjoin

theorem accounts_cancelled (h : Accounts seen c) : Accounts seen (c.fail none) := by
  have hnone : ∀ e ∈ (none : Option InteractionStreamEvent), ¬IsComplete e := fun _ he => by cases he
  unfold Accounts at h
  split at h
  · exact accounts_fail h.1.incomplete hnone
  · exact accounts_fail h.1.incomplete hnone
  · exact accounts_fail h.1.incomplete hnone
  · exact accounts_fail h.incomplete hnone
  · exact accounts_fail h.incomplete hnone
  · exact accounts_fail h.incomplete hnone
  · exact accounts_fail h.incomplete hnone
  · show (∃ e ∈ c.emitted ++ [], IsComplete e) → Shown seen (c.emitted ++ []) [] ∧ Completed seen
    rw [List.append_nil]
    exact h

/-- **Whatever the chat observes, its account of the stream stays right.** -/
theorem accounts_observe {o : Observation} (h : Accounts seen c) (ho : c.observe o = some c') :
    Accounts seen c' := by
  have hfail : ∀ {raised : BaseException}, (∀ e ∈ c.emitted, ¬IsComplete e) →
      Accounts seen (c.fail (streamError raised)) :=
    fun hc => accounts_fail hc fun _ => streamError_incomplete
  have hcancelled := accounts_cancelled h
  unfold Accounts at h
  cases o with
  | cancelled =>
    cases ho
    exact hcancelled
  | disconnected answer =>
    cases answer with
    | true =>
      cases hphase : c.phase <;> simp only [Chat.observe, hphase] at ho <;> cases ho
      · exact hcancelled
      · exact hcancelled
      · rw [hphase] at h
        exact ⟨h.shown, h.incomplete, h.result⟩
      · exact hcancelled
    | false =>
      cases hphase : c.phase <;> simp only [Chat.observe, hphase] at ho <;> cases ho <;>
        rw [hphase] at h
      · exact accounts_handle h.1 h.2
      · refine ⟨?_, ?_, h.result⟩
        · rcases h.shown with ⟨skipped, shown, hdeltas, hblank, hjoin⟩
          exact ⟨skipped, shown, hdeltas, hblank,
            (congrArg String.join (shownContents_emit rfl)).trans hjoin⟩
        · intro e he
          rcases List.mem_append.1 he with he | he
          · exact h.incomplete e he
          · rw [List.mem_singleton.1 he]
            exact fun hc => hc
      · exact ⟨h.shown, h.incomplete, h.result⟩
      · exact accounts_complete h
  | raised e =>
    cases hphase : c.phase <;> simp only [Chat.observe, hphase] at ho <;> cases ho <;>
      rw [hphase] at h
    · exact hfail h.1.incomplete
    · exact hfail h.incomplete
    · exact hfail h.incomplete
    · exact hfail h.incomplete
  | heartbeat =>
    cases hphase : c.phase <;> simp only [Chat.observe, hphase] at ho <;> cases ho
    rw [hphase] at h
    exact ⟨h.shown, h.incomplete, h.result⟩
  | timeout =>
    cases hphase : c.phase <;> simp only [Chat.observe, hphase] at ho <;> cases ho <;>
      rw [hphase] at h
    · exact accounts_fail h.1.incomplete fun _ => primeError_incomplete
    · exact hfail h.incomplete

/-- **An answer that the chat reads is accounted for.** -/
theorem accounts_answered (h : Accounts seen c) (ha : c.answered a = some c') :
    Accounts (seen ++ [a]) c' := by
  unfold Chat.answered at ha
  unfold Accounts at h
  cases hphase : c.phase with
  | priming conversationId =>
    rw [hphase] at h ha
    cases ha
    exact accounts_prime h.1 hphase h.2.1 h.2.2
  | awaiting =>
    rw [hphase] at h ha
    cases ha
    exact accounts_next h hphase
  | _ =>
    rw [hphase] at ha
    cases ha

theorem accounts_executed {phase : Phase} (h : Accounts seen c) (he : c.executed phase = some c') :
    Accounts seen c' := by
  unfold Accounts at h
  cases hphase : c.phase <;> simp only [Chat.executed, hphase] at he <;> try cases he
  rw [hphase] at h
  cases phase with
  | streaming =>
    cases he
    exact ⟨⟨h.1.shown, h.1.incomplete, h.1.result⟩, h.2⟩
  | failed e =>
    cases he
    exact accounts_fail h.1.incomplete fun _ => primeError_incomplete
  | _ => cases he

end Chats

/-! ## What is saved -/

section Sessions

variable {s s' : Session} {event : SessionEvent}

/-- The turn runs as turns do, and the chat has accounted for what it has read. -/
structure Following (s : Session) : Prop where
  turn : Reachable (· = {}) Moves s.turn
  read : s.read ≤ s.turn.answers.length
  accounts : Accounts (s.turn.answers.take s.read) s.chat

theorem following_of_step (h : Following s) (hs : SessionMoves s event s') : Following s' := by
  rcases h with ⟨hturn, hread, haccounts⟩
  cases event with
  | turn event =>
    rcases Option.map_eq_some_iff.1 hs with ⟨t, ht, rfl⟩
    have hprefix := answers_prefix ht
    refine ⟨hturn.next ht, hread.trans hprefix.length_le, ?_⟩
    rcases hprefix with ⟨more, hmore⟩
    show Accounts (t.answers.take s.read) s.chat
    rw [← hmore, List.take_append_of_le_length hread]
    exact haccounts
  | executed =>
    rcases Option.map_eq_some_iff.1 hs with ⟨c, hc, rfl⟩
    exact ⟨hturn, hread, accounts_executed haccounts hc⟩
  | answered =>
    rcases Option.bind_eq_some_iff.1 hs with ⟨a, ha, hs⟩
    rcases Option.bind_eq_some_iff.1 hs with ⟨c, hc, hs⟩
    cases hs
    rcases List.getElem?_eq_some_iff.1 ha with ⟨hlt, hget⟩
    refine ⟨hturn, hlt, ?_⟩
    show Accounts (s.turn.answers.take (s.read + 1)) c
    rw [List.take_succ_eq_append_getElem hlt, hget]
    exact accounts_answered haccounts hc
  | observed o =>
    rcases Option.map_eq_some_iff.1 hs with ⟨c, hc, rfl⟩
    exact ⟨hturn, hread, accounts_observe haccounts hc⟩

/-- White space in front is stripped. -/
theorem strip_append_of_blank {a b : String} (ha : isBlank a = true) : strip (a ++ b) = strip b := by
  have hdrop : (a.toList ++ b.toList).dropWhile isSpace = b.toList.dropWhile isSpace :=
    List.dropWhile_append_of_pos fun c hc => List.all_eq_true.1 ha c hc
  rw [strip, strip, String.toList_append, hdrop]

theorem isBlank_join {l : List String} (hl : ∀ s ∈ l, isBlank s = true) :
    isBlank (String.join l) = true := by
  induction l using List.reverseRecOn with
  | nil => rfl
  | append_singleton l s ih =>
    rw [join_append, isBlank, String.toList_append, List.all_append, Bool.and_eq_true]
    exact ⟨ih fun t ht => hl t (List.mem_append_left _ ht),
      hl s (List.mem_append_right _ List.mem_cons_self)⟩

theorem join_append_list {l m : List String} :
    String.join (l ++ m) = String.join l ++ String.join m := by
  induction m using List.reverseRecOn with
  | nil => simp [String.join]
  | append_singleton m s ih =>
    rw [← List.append_assoc, join_append, ih, join_append, String.append_assoc]

/-- **What is saved is what the client has been shown.** In every run in which the stream completes,
the one message saved is the text of the deltas, stripped. -/
theorem shown_is_saved
    (h : Reachable (fun s => ∃ requestId, s = { chat := { requestId } }) SessionMoves s)
    (hcomplete : ∃ e ∈ s.chat.emitted, IsComplete e) :
    s.turn.saved = [strip (String.join (shownContents s.chat.emitted))] := by
  have hfollowing : Following s := by
    refine h.invariant (P := Following) (fun hinit => ?_) fun hf hs => following_of_step hf hs
    rcases hinit with ⟨requestId, rfl⟩
    refine ⟨Reachable.start rfl, Nat.zero_le _, ⟨⟨[], [], rfl, ?_, rfl⟩, ?_, ?_⟩, rfl, ?_⟩
    · exact fun chunk hchunk => by cases hchunk
    · exact fun e he => by cases he
    · exact fun hr => absurd rfl hr
    · exact fun chunk hchunk => by cases hchunk
  rcases hfollowing with ⟨hturn, hread, haccounts⟩
  have hordered := ordered_of_reachable hturn
  have hshown : Shown (s.turn.answers.take s.read) s.chat.emitted [] ∧
      Completed (s.turn.answers.take s.read) := by
    have hno : ¬∀ e ∈ s.chat.emitted, ¬IsComplete e := by
      rcases hcomplete with ⟨e, he, hc⟩
      exact fun hall => hall e he hc
    unfold Accounts at haccounts
    split at haccounts
    · exact absurd haccounts.1.incomplete hno
    · exact absurd haccounts.1.incomplete hno
    · exact absurd haccounts.1.incomplete hno
    · exact absurd haccounts.incomplete hno
    · exact absurd haccounts.incomplete hno
    · exact absurd haccounts.incomplete hno
    · exact absurd haccounts.incomplete hno
    · exact haccounts hcomplete
  rcases hshown with ⟨⟨skipped, shown, hdeltas, hblank, hjoin⟩, a, ha, hcompleted⟩
  -- the chat has read every chunk: none comes after the completion
  have hchunks : s.turn.chunks = skipped ++ shown := by
    have hsplit := List.take_append_drop s.read s.turn.answers
    have hafter := hordered.after
    rw [← hsplit, List.pairwise_append] at hafter
    have hrest : deltas (s.turn.answers.drop s.read) = [] :=
      List.filterMap_eq_nil_iff.2 fun b hb => hafter.2.2 a ha b hb hcompleted
    rw [← hordered.deltas, ← hsplit, deltas, List.filterMap_append, ← deltas, ← deltas, hrest,
      List.append_nil, hdeltas, List.append_nil]
  rw [(hordered.completed ⟨a, List.mem_of_mem_take ha, hcompleted⟩).1, answerOf, hchunks,
    List.map_append, join_append_list, strip_append_of_blank, ← hjoin]
  exact isBlank_join (List.forall_mem_map.2 hblank)

end Sessions

/-- The model answers in two chunks, the first of them blank. -/
def repliedRun : List SessionEvent :=
  preparedRun.map .turn ++
    [.executed, .turn (.anext none), .answered, .turn (.anext none),
      .turn (.pulled (.chunk { content := " " })), .answered, .turn (.anext none),
      .turn (.pulled (.chunk { content := "答" })), .answered, .observed (.disconnected false),
      .turn (.anext none), .turn (.pulled .ended), .turn (.appended (.ok reply)), .answered,
      .observed (.disconnected false), .observed (.disconnected false)]

def repliedSession : Session where
  turn :=
    { phase := .streaming 7 question
      leased := true
      generator := .atCompleted
      stream := { opened := true, ended := true }
      chunks := [{ content := " " }, { content := "答" }]
      saved := ["答"]
      answers := [.event (.started 7), .event (.delta 7 { content := " " }),
        .event (.delta 7 { content := "答" }),
        .event (.completed 7 (completedResult defaultPromptVersion 7 question reply
          [{ content := " " }, { content := "答" }]))] }
  chat :=
    { requestId := "r"
      phase := .finished
      model := "unknown"
      promptVersion := "llm-chat-v1"
      latest := { content := "答" }
      completedResult := some (completedResult defaultPromptVersion 7 question reply
        [{ content := " " }, { content := "答" }])
      emitted := [.metadata "r" 7 "unknown" "llm-chat-v1", .delta "r" "答",
        .complete "r" "unknown" "llm-chat-v1" none none none] }
  read := 4

theorem replied_is_saved : repliedSession.turn.saved =
    [strip (String.join (shownContents repliedSession.chat.emitted))] := by
  have hrun : repliedRun.foldlM Session.step { chat := { requestId := "r" } } =
      some repliedSession := by rfl
  refine shown_is_saved ⟨_, repliedRun, ⟨"r", rfl⟩, Steps.of_foldlM hrun⟩
    ⟨.complete "r" "unknown" "llm-chat-v1" none none none, ?_, ?_⟩
  · simp [repliedSession]
  · trivial

end GoAgent.Interaction.ChatStream
