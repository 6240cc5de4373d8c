import GoAgent.Foundation.Raising
import GoAgent.Foundation.Text
import GoAgent.Foundation.Transition

/-!
# A turn of a streaming conversation

`execute` waits for the lease of the conversation, saves the user message and returns a stream;
the stream wraps a generator that opens the model stream, passes its chunks on, saves the answer
and closes the model stream, and releases the lease when it is closed itself. A `Turn` is where
these stand. An event is a call of the consumer, `anext` or `aclose`, or the end of something
awaited: a chunk, a saved message, the closing of the model stream. What is awaited may end in any
way, by a cancellation too, and the consumer may call at any time.

`Sound` holds of every stream; `Orderly` of one whose consumer makes no call while an `anext` is
in progress.

* `sound_of_step`, `orderly_of_step` — every step keeps them.
* `stream_releases_once` — what holds however the consumer calls.
* `lease_outlives_stream` — the lease outlives the model stream, for a consumer that waits.
* `released_before_closed` — a consumer that closes the stream while an `anext` is in progress
  ends the lease first.
-/

namespace GoAgent.Dialogue.Streaming

open GoAgent.Foundation

/-! ## The stream and its generator -/

structure ChatLlmStreamChunk where
  content : String
  hasUpstreamActivity : Bool := false
  model : Option String := none
  promptVersion : Option String := none
  inputTokens : Option Int := none
  outputTokens : Option Int := none
  totalTokens : Option Int := none

structure Message where
  id : UUID
  content : String
  sequence : Nat

structure StreamingConversationResult where
  conversationId : UUID
  userMessage : Message
  assistantMessage : Message
  model : Option String
  promptVersion : Option String
  inputTokens : Option Int
  outputTokens : Option Int
  totalTokens : Option Int

inductive StreamingConversationEvent where
  | started (conversationId : UUID)
  | delta (conversationId : UUID) (chunk : ChatLlmStreamChunk)
  | completed (conversationId : UUID) (result : StreamingConversationResult)

/-- How far `execute` is. -/
inductive Phase where
  | resolving
  | acquiring (conversation : UUID)
  | appending (conversation : UUID)
  | reading (conversation : UUID) (userMessage : Message)
  | streaming (conversation : UUID) (userMessage : Message)
  | failed (e : BaseException)

/-- How `_stream_turn_generator` leaves its `try`. -/
inductive Ending where
  | returned
  | raised (e : BaseException)

/-- Where `_stream_turn_generator` stands: at a `yield`, or at an `await`. -/
inductive Generator where
  | created
  | atStarted
  | pulling
  | atDelta
  | appending
  | atCompleted
  | closing (ending : Ending)
  | finished

/-- The call of the consumer that runs the generator. -/
inductive Call where
  | next
  | close
  deriving DecidableEq

/-- What a call of the consumer is answered. -/
inductive Answer where
  | event (e : StreamingConversationEvent)
  | raised (e : BaseException)
  | closed (error : Option BaseException)

/-- The stream of the model: opened, ended by itself without an error, closed. -/
structure ModelStream where
  opened : Bool := false
  ended : Bool := false
  closed : Bool := false

structure Turn where
  phase : Phase := .resolving
  leased : Bool := false
  generator : Generator := .created
  stream : ModelStream := {}
  chunks : List ChatLlmStreamChunk := []
  /-- `_LeaseReleasingStream._closed` -/
  closed : Bool := false
  pending : Option Call := none
  /-- The answers handed to `append_message`. -/
  saved : List String := []
  releases : Nat := 0
  answers : List Answer := []

/-- `"".join(chunk.content for chunk in chunks).strip()` -/
def answerOf (chunks : List ChatLlmStreamChunk) : String :=
  strip (String.join (chunks.map ChatLlmStreamChunk.content))

def defaultPromptVersion : String := "dialogue-streaming-chat-v1"

def completedResult (promptVersion : String) (conversation : UUID) (userMessage message : Message)
    (chunks : List ChatLlmStreamChunk) : StreamingConversationResult :=
  let latest := chunks.getLast?
  { conversationId := conversation
    userMessage
    assistantMessage := message
    model := latest.bind ChatLlmStreamChunk.model
    promptVersion := match latest with
      | some chunk => chunk.promptVersion
      | none => some promptVersion
    inputTokens := latest.bind ChatLlmStreamChunk.inputTokens
    outputTokens := latest.bind ChatLlmStreamChunk.outputTokens
    totalTokens := latest.bind ChatLlmStreamChunk.totalTokens }

/-- `raise StreamingConversationPersistenceError(…) from error` -/
def persistenceError : BaseException → BaseException
  | .exception _ => .exception "StreamingConversationPersistenceError"
  | e => e

/-- The same, but for `ConversationAccessDeniedError`. -/
def resolveError (e : BaseException) : BaseException :=
  if e = .exception "ConversationAccessDeniedError" then e else persistenceError e

namespace Turn

def release (t : Turn) : Turn := { t with releases := t.releases + 1 }

def answer (t : Turn) (a : Answer) : Turn := { t with answers := t.answers ++ [a] }

def fail (t : Turn) (e : BaseException) : Turn := { t with phase := .failed e }

/-- The generator yields to the `anext` in progress. -/
def yields (t : Turn) (e : StreamingConversationEvent) : Turn :=
  { t with pending := none }.answer (.event e)

/-- The `except` of `__anext__`: the generator has ended, or runs for another call. -/
def closeAfter (t : Turn) (e : BaseException) : Turn :=
  if t.closed then t.answer (.raised e)
  else { t.release with closed := true }.answer (.raised e)

/-- The generator ends, and with it the call that runs it. -/
def finish (t : Turn) (ending : Ending) : Turn :=
  let done := { t with generator := .finished, pending := none }
  match t.pending, ending with
  | some .close, .returned | some .close, .raised .generatorExit =>
    done.release.answer (.closed none)
  | some .close, .raised e => done.release.answer (.closed (some e))
  | _, .returned => done.closeAfter (.exception "StopAsyncIteration")
  | _, .raised e => done.closeAfter e

end Turn

/-- `__anext__`; `opening` is what `self._llm.stream` raises, if it is called now. -/
def anext (conversation : UUID) (opening : Option BaseException) (t : Turn) : Turn :=
  if t.closed then t.answer (.raised (.exception "StopAsyncIteration"))
  else if t.pending.isSome then
    -- neither `anext` nor `aclose` runs a generator that is running
    { t.release with closed := true }.answer (.raised (.exception "RuntimeError"))
  else
    match t.generator with
    | .created => { t with generator := .atStarted }.yields (.started conversation)
    | .atStarted =>
      match opening with
      | none =>
        { t with generator := .pulling, stream.opened := true, pending := some .next }
      | some e => t.finish (.raised e)
    | .atDelta => { t with generator := .pulling, pending := some .next }
    | .atCompleted => { t with generator := .closing .returned, pending := some .next }
    | .finished => t.finish .returned
    | .pulling | .appending | .closing _ => t

/-- `aclose` -/
def aclose (t : Turn) : Turn :=
  if t.closed then t.answer (.closed none)
  else if t.pending.isSome then
    { t.release with closed := true }.answer (.closed (some (.exception "RuntimeError")))
  else
    match t.generator with
    | .created | .atStarted | .finished =>
      { t.release with closed := true, generator := .finished }.answer (.closed none)
    | .atDelta | .atCompleted =>
      { t with closed := true, generator := .closing (.raised .generatorExit),
               pending := some .close }
    | .pulling | .appending | .closing _ => t

/-- What the model stream answers to the `async for`. -/
inductive Pull where
  | chunk (chunk : ChatLlmStreamChunk)
  | ended
  | raised (e : BaseException)

def pulled (conversation : UUID) (t : Turn) : Pull → Turn
  | .chunk chunk =>
    { t with generator := .atDelta, chunks := t.chunks ++ [chunk] }.yields
      (.delta conversation chunk)
  | .ended =>
    let t := { t with stream.ended := true }
    if answerOf t.chunks = "" then
      { t with generator := .closing (.raised (.exception "RuntimeError")) }
    else { t with generator := .appending, saved := t.saved ++ [answerOf t.chunks] }
  | .raised e => { t with generator := .closing (.raised e) }

def appended (conversation : UUID) (userMessage : Message) (t : Turn) :
    Except BaseException Message → Turn
  | .ok message =>
    { t with generator := .atCompleted }.yields
      (.completed conversation
        (completedResult defaultPromptVersion conversation userMessage message t.chunks))
  | .error e => { t with generator := .closing (.raised (persistenceError e)) }

def streamClosed (t : Turn) (ending : Ending) : Option BaseException → Turn
  | none => { t with stream.closed := true }.finish ending
  | some e => { t with stream.closed := true }.finish (.raised e)

inductive Event where
  /-- The conversation is created or resolved. -/
  | resolved (outcome : Except BaseException UUID)
  | acquired (error : Option BaseException)
  /-- The user message is saved. -/
  | userSaved (outcome : Except BaseException Message)
  /-- The history is read, and the request built. -/
  | prepared (error : Option BaseException)
  | anext (opening : Option BaseException)
  | aclose
  | pulled (answer : Pull)
  | appended (outcome : Except BaseException Message)
  | streamClosed (error : Option BaseException)

/-- A step of `execute`, up to the stream it returns. -/
def prepare (t : Turn) : Event → Option Turn
  | .resolved outcome =>
    match t.phase, outcome with
    | .resolving, .ok conversation => some { t with phase := .acquiring conversation }
    | .resolving, .error e => some (t.fail (resolveError e))
    | _, _ => none
  | .acquired error =>
    match t.phase, error with
    | .acquiring conversation, none =>
      some { t with phase := .appending conversation, leased := true }
    | .acquiring _, some e => some (t.fail e)
    | _, _ => none
  | .userSaved outcome =>
    match t.phase, outcome with
    | .appending conversation, .ok message =>
      some { t with phase := .reading conversation message }
    | .appending _, .error e => some (t.release.fail (persistenceError e))
    | _, _ => none
  | .prepared error =>
    match t.phase, error with
    | .reading conversation message, none =>
      some { t with phase := .streaming conversation message }
    | .reading .., some e => some (t.release.fail e)
    | _, _ => none
  | _ => none

/-- A step of the stream. -/
def stream (conversation : UUID) (userMessage : Message) (t : Turn) : Event → Option Turn
  | .anext opening => some (anext conversation opening t)
  | .aclose => some (aclose t)
  | .pulled answer =>
    match t.generator with
    | .pulling => some (pulled conversation t answer)
    | _ => none
  | .appended outcome =>
    match t.generator with
    | .appending => some (appended conversation userMessage t outcome)
    | _ => none
  | .streamClosed error =>
    match t.generator with
    | .closing ending => some (streamClosed t ending error)
    | _ => none
  | _ => none

def step (t : Turn) (event : Event) : Option Turn :=
  match t.phase with
  | .streaming conversation userMessage => stream conversation userMessage t event
  | _ => prepare t event

def Moves (t : Turn) (event : Event) (t' : Turn) : Prop := step t event = some t'

/-! ## Sound streams -/

def Answer.IsEvent : Answer → Prop
  | event _ => True
  | raised _ | closed _ => False

/-- What has been saved is the answer of a model stream that ended by itself. -/
def Saved (chunks : List ChatLlmStreamChunk) (ended : Bool) (saved : List String) : Prop :=
  saved = [] ∨ ended = true ∧ answerOf chunks ≠ "" ∧ saved = [answerOf chunks]

/-- What goes with where the generator stands: the call that runs it, whether the stream is
closed, what has become of the model stream, and what is saved. -/
inductive Standing (chunks : List ChatLlmStreamChunk) :
    Generator → Option Call → Bool → ModelStream → List String → Prop
  | created : Standing chunks .created none false {} []
  | atStarted : Standing chunks .atStarted none false {} []
  | pulling (closed : Bool) :
      Standing chunks .pulling (some .next) closed { opened := true } []
  | atDelta (closed : Bool) : Standing chunks .atDelta none closed { opened := true } []
  | appending (closed : Bool) (hanswer : answerOf chunks ≠ "") :
      Standing chunks .appending (some .next) closed { opened := true, ended := true }
        [answerOf chunks]
  | atCompleted (closed : Bool) (hanswer : answerOf chunks ≠ "") :
      Standing chunks .atCompleted none closed { opened := true, ended := true }
        [answerOf chunks]
  | closing (ending : Ending) (call : Call) (closed ended : Bool) (saved : List String)
      (hcall : call = .close → closed = true) (hsaved : Saved chunks ended saved) :
      Standing chunks (.closing ending) (some call) closed { opened := true, ended } saved
  | finished (stream : ModelStream) (saved : List String)
      (hstream : stream.opened = stream.closed) (hsaved : Saved chunks stream.ended saved) :
      Standing chunks .finished none true stream saved

/-- An answer that is no event closes the stream. -/
def Answered (answers : List Answer) (closed : Bool) : Prop :=
  (∃ a ∈ answers, ¬a.IsEvent) → closed = true

/-- How often a stream has released the lease: once, when it is closed and not being closed. -/
def releasesOf : Bool → Option Call → Nat
  | true, some .close | false, _ => 0
  | true, some .next | true, none => 1

structure Sound (t : Turn) : Prop where
  standing : Standing t.chunks t.generator t.pending t.closed t.stream t.saved
  releases : t.releases = releasesOf t.closed t.pending
  answered : Answered t.answers t.closed

/-- The stream is closed when its generator has ended, or for that. -/
def Orderly (t : Turn) : Prop :=
  t.closed = true → t.generator = .finished ∨ t.pending = some .close

/-- The consumer makes no call while an `anext` is in progress. -/
def Alone (t : Turn) : Event → Prop
  | .anext _ | .aclose => t.pending ≠ some .next
  | _ => True

instance (t : Turn) : (event : Event) → Decidable (Alone t event)
  | .anext _ | .aclose => inferInstanceAs (Decidable (t.pending ≠ some .next))
  | .resolved _ | .acquired _ | .userSaved _ | .prepared _ | .pulled _ | .appended _
  | .streamClosed _ => inferInstanceAs (Decidable True)

section

variable {t t' : Turn} {conversation : UUID} {userMessage : Message} {event : Event}

theorem answered_event {answers : List Answer} {closed : Bool} {e : StreamingConversationEvent}
    (h : Answered answers closed) : Answered (answers ++ [.event e]) closed := by
  rintro ⟨a, ha, hevent⟩
  apply h
  rcases List.mem_append.1 ha with ha | ha
  · exact ⟨a, ha, hevent⟩
  · rw [List.mem_singleton.1 ha] at hevent
    exact absurd trivial hevent

theorem answered_closed {answers : List Answer} : Answered answers true := fun _ => rfl

/-- A closed stream stays so, and an open one is closed and releases the lease. -/
theorem sound_closeAfter {e : BaseException}
    (hreleases : t.releases = releasesOf t.closed t.pending)
    (hgenerator : t.generator = .finished) (hpending : t.pending = none)
    (hstream : t.stream.opened = t.stream.closed)
    (hsaved : Saved t.chunks t.stream.ended t.saved) : Sound (t.closeAfter e) := by
  obtain ⟨phase, leased, generator, stream, chunks, closed, pending, saved, releases, answers⟩ := t
  dsimp only at hreleases hgenerator hpending hstream hsaved
  subst hgenerator hpending hreleases
  cases closed with
  | true => exact ⟨.finished stream saved hstream hsaved, rfl, answered_closed⟩
  | false => exact ⟨.finished stream saved hstream hsaved, rfl, answered_closed⟩

/-- The generator has ended, in whatever way, for the call in progress or without an `await`. -/
theorem sound_finish {ending : Ending}
    (hreleases : t.releases = releasesOf t.closed t.pending)
    (hclose : t.pending = some .close → t.closed = true)
    (hstream : t.stream.opened = t.stream.closed)
    (hsaved : Saved t.chunks t.stream.ended t.saved) : Sound (t.finish ending) := by
  obtain ⟨phase, leased, generator, stream, chunks, closed, pending, saved, releases, answers⟩ := t
  dsimp only at hreleases hclose hstream hsaved
  by_cases hpending : pending = some .close
  · have hclosed := hclose hpending
    subst hpending hclosed hreleases
    cases ending with
    | returned => exact ⟨.finished stream saved hstream hsaved, rfl, answered_closed⟩
    | raised e =>
      cases e <;> exact ⟨.finished stream saved hstream hsaved, rfl, answered_closed⟩
  · have hnone : releases = releasesOf closed none := by
      rw [hreleases]
      rcases pending with - | - | -
      · rfl
      · cases closed <;> rfl
      · exact absurd rfl hpending
    have hdone : ∀ e, Sound (Turn.closeAfter ⟨phase, leased, .finished, stream, chunks, closed, none,
        saved, releases, answers⟩ e) := fun e => sound_closeAfter hnone rfl rfl hstream hsaved
    rcases pending with - | - | -
    · cases ending <;> exact hdone _
    · cases ending <;> exact hdone _
    · exact absurd rfl hpending

theorem sound_anext {opening : Option BaseException} (h : Sound t) :
    Sound (anext conversation opening t) := by
  obtain ⟨phase, leased, generator, stream, chunks, closed, pending, saved, releases, answers⟩ := t
  obtain ⟨hstanding, hreleases, hanswered⟩ := h
  dsimp only at hstanding hreleases hanswered
  cases closed with
  | true => exact ⟨hstanding, hreleases, answered_closed⟩
  | false =>
    subst hreleases
    cases hstanding with
    | created => exact ⟨.atStarted, rfl, answered_event hanswered⟩
    | atStarted =>
      cases opening with
      | none => exact ⟨.pulling _, rfl, hanswered⟩
      | some e =>
        have hfinish : Sound (Turn.finish ⟨phase, leased, .atStarted, {}, chunks, false, none, [],
            releasesOf false none, answers⟩ (.raised e)) :=
          sound_finish rfl (fun h => by cases h) rfl (Or.inl rfl)
        exact hfinish
    | atDelta => exact ⟨.pulling _, rfl, hanswered⟩
    | atCompleted _ hanswer =>
      exact ⟨.closing _ _ _ _ _ (fun h => by cases h) (Or.inr ⟨rfl, hanswer, rfl⟩), rfl, hanswered⟩
    | pulling => exact ⟨.pulling _, rfl, answered_closed⟩
    | appending _ hanswer => exact ⟨.appending _ hanswer, rfl, answered_closed⟩
    | closing ending call _ ended saved hcall hsaved =>
      cases call with
      | close => cases hcall rfl
      | next => exact ⟨.closing _ _ _ _ _ (fun _ => rfl) hsaved, rfl, answered_closed⟩

theorem sound_aclose (h : Sound t) : Sound (aclose t) := by
  obtain ⟨phase, leased, generator, stream, chunks, closed, pending, saved, releases, answers⟩ := t
  obtain ⟨hstanding, hreleases, hanswered⟩ := h
  dsimp only at hstanding hreleases hanswered
  cases closed with
  | true => exact ⟨hstanding, hreleases, answered_closed⟩
  | false =>
    subst hreleases
    cases hstanding with
    | created | atStarted => exact ⟨.finished _ _ rfl (Or.inl rfl), rfl, answered_closed⟩
    | atDelta =>
      exact ⟨.closing _ _ _ _ _ (fun _ => rfl) (Or.inl rfl), rfl, answered_closed⟩
    | atCompleted _ hanswer =>
      exact ⟨.closing _ _ _ _ _ (fun _ => rfl) (Or.inr ⟨rfl, hanswer, rfl⟩), rfl, answered_closed⟩
    | pulling => exact ⟨.pulling _, rfl, answered_closed⟩
    | appending _ hanswer => exact ⟨.appending _ hanswer, rfl, answered_closed⟩
    | closing ending call _ ended saved hcall hsaved =>
      cases call with
      | close => cases hcall rfl
      | next => exact ⟨.closing _ _ _ _ _ (fun _ => rfl) hsaved, rfl, answered_closed⟩

theorem sound_pulled {answer : Pull} (h : Sound t) (hgenerator : t.generator = .pulling) :
    Sound (pulled conversation t answer) := by
  obtain ⟨phase, leased, generator, stream, chunks, closed, pending, saved, releases, answers⟩ := t
  obtain ⟨hstanding, hreleases, hanswered⟩ := h
  dsimp only at hstanding hreleases hanswered hgenerator
  subst hgenerator hreleases
  cases hstanding
  cases answer with
  | chunk chunk => exact ⟨.atDelta _, by cases closed <;> rfl, answered_event hanswered⟩
  | raised e =>
    exact ⟨.closing _ _ _ _ _ (fun h => by cases h) (Or.inl rfl), rfl, hanswered⟩
  | ended =>
    unfold pulled
    by_cases hanswer : answerOf chunks = ""
    · simp only [hanswer, ↓reduceIte]
      exact ⟨.closing _ _ _ _ _ (fun h => by cases h) (Or.inl rfl), rfl, hanswered⟩
    · simp only [hanswer, ↓reduceIte]
      exact ⟨.appending _ hanswer, rfl, hanswered⟩

theorem sound_appended {outcome : Except BaseException Message} (h : Sound t)
    (hgenerator : t.generator = .appending) :
    Sound (appended conversation userMessage t outcome) := by
  obtain ⟨phase, leased, generator, stream, chunks, closed, pending, saved, releases, answers⟩ := t
  obtain ⟨hstanding, hreleases, hanswered⟩ := h
  dsimp only at hstanding hreleases hanswered hgenerator
  subst hgenerator hreleases
  cases hstanding with
  | appending _ hanswer =>
    cases outcome with
    | ok message =>
      exact ⟨.atCompleted _ hanswer, by cases closed <;> rfl, answered_event hanswered⟩
    | error e =>
      exact ⟨.closing _ _ _ _ _ (fun h => by cases h) (Or.inr ⟨rfl, hanswer, rfl⟩), rfl, hanswered⟩

theorem sound_streamClosed {ending : Ending} {error : Option BaseException} (h : Sound t)
    (hgenerator : t.generator = .closing ending) : Sound (streamClosed t ending error) := by
  obtain ⟨phase, leased, generator, stream, chunks, closed, pending, saved, releases, answers⟩ := t
  obtain ⟨hstanding, hreleases, hanswered⟩ := h
  dsimp only at hstanding hreleases hanswered hgenerator
  subst hgenerator
  cases hstanding with
  | closing _ call _ ended _ hcall hsaved =>
    have hclose : some call = some .close → closed = true := fun h => hcall (Option.some.inj h)
    cases error with
    | none => exact sound_finish hreleases hclose rfl hsaved
    | some e => exact sound_finish hreleases hclose rfl hsaved

/-- **Every step of the stream keeps it sound.** -/
theorem sound_of_stream (h : Sound t) (hs : stream conversation userMessage t event = some t') :
    Sound t' := by
  unfold stream at hs
  split at hs
  · cases hs
    exact sound_anext h
  · cases hs
    exact sound_aclose h
  · split at hs <;> cases hs
    next hgenerator => exact sound_pulled h hgenerator
  · split at hs <;> cases hs
    next hgenerator => exact sound_appended h hgenerator
  · split at hs <;> cases hs
    next hgenerator => exact sound_streamClosed h hgenerator
  · cases hs

/-! ## Orderly streams -/

theorem closed_closeAfter {e : BaseException} : (t.closeAfter e).generator = t.generator := by
  unfold Turn.closeAfter
  split <;> rfl

/-- What ends the generator leaves it finished. -/
theorem generator_finish {ending : Ending} : (t.finish ending).generator = .finished := by
  unfold Turn.finish
  split <;> first | rfl | exact closed_closeAfter

/-- **A consumer that waits keeps the stream orderly.** -/
theorem orderly_of_stream (h : Sound t) (ho : Orderly t) (halone : Alone t event)
    (hs : stream conversation userMessage t event = some t') : Orderly t' := by
  obtain ⟨phase, leased, generator, stream, chunks, closed, pending, saved, releases, answers⟩ := t
  obtain ⟨hstanding, hreleases, hanswered⟩ := h
  dsimp only at hstanding
  cases event with
  | resolved | acquired | userSaved | prepared => cases hs
  | anext opening =>
    cases hs
    cases closed with
    | true => exact ho
    | false =>
      cases hstanding with
      | created | atDelta | atCompleted => exact fun h => by cases h
      | atStarted =>
        cases opening with
        | none => exact fun h => by cases h
        | some e => exact fun _ => Or.inl rfl
      | pulling | appending => exact absurd rfl halone
      | closing ending call _ ended saved hcall hsaved =>
        cases call with
        | next => exact absurd rfl halone
        | close => cases hcall rfl
  | aclose =>
    cases hs
    cases closed with
    | true => exact ho
    | false =>
      cases hstanding with
      | created | atStarted => exact fun _ => Or.inl rfl
      | atDelta | atCompleted => exact fun _ => Or.inr rfl
      | pulling | appending => exact absurd rfl halone
      | closing ending call _ ended saved hcall hsaved =>
        cases call with
        | next => exact absurd rfl halone
        | close => cases hcall rfl
  | pulled answer =>
    cases hstanding with
    | pulling closed =>
      have hopen : closed = false := by
        cases closed with
        | false => rfl
        | true => rcases ho rfl with h | h <;> cases h
      subst hopen
      cases answer with
      | chunk | raised =>
        cases hs
        exact fun h => by cases h
      | ended =>
        cases hs
        unfold pulled
        dsimp only
        split <;> exact fun h => by cases h
    | _ => cases hs
  | appended outcome =>
    cases hstanding with
    | appending closed hanswer =>
      have hopen : closed = false := by
        cases closed with
        | false => rfl
        | true => rcases ho rfl with h | h <;> cases h
      subst hopen
      cases outcome <;> cases hs <;> exact fun h => by cases h
    | _ => cases hs
  | streamClosed error =>
    cases hstanding with
    | closing ending call =>
      cases error <;> cases hs <;> exact fun _ => Or.inl generator_finish
    | _ => cases hs

/-! ## Turns -/

/-- The turns there are: `execute` at an `await` or failed, or a stream with `P`. -/
inductive Stage (P : Turn → Prop) : Turn → Prop
  | resolving : Stage P {}
  | acquiring (conversation : UUID) : Stage P { phase := .acquiring conversation }
  | appending (conversation : UUID) :
      Stage P { phase := .appending conversation, leased := true }
  | reading (conversation : UUID) (userMessage : Message) :
      Stage P { phase := .reading conversation userMessage, leased := true }
  | failed (e : BaseException) (leased : Bool) :
      Stage P { phase := .failed e, leased, releases := leased.toNat }
  | streaming (t : Turn) (conversation : UUID) (userMessage : Message)
      (hphase : t.phase = .streaming conversation userMessage) (hleased : t.leased = true)
      (hP : P t) : Stage P t

/-- The steps of a stream leave what `execute` has done. -/
theorem phase_of_stream (hs : stream conversation userMessage t event = some t') :
    t'.phase = t.phase ∧ t'.leased = t.leased := by
  have hcloseAfter : ∀ (u : Turn) (e : BaseException),
      (u.closeAfter e).phase = u.phase ∧ (u.closeAfter e).leased = u.leased := by
    intro u e
    unfold Turn.closeAfter
    split <;> exact ⟨rfl, rfl⟩
  have hfinish : ∀ (u : Turn) (ending : Ending),
      (u.finish ending).phase = u.phase ∧ (u.finish ending).leased = u.leased := by
    intro u ending
    unfold Turn.finish
    split <;> first | exact ⟨rfl, rfl⟩ | exact hcloseAfter _ _
  unfold stream at hs
  split at hs
  · cases hs
    unfold anext
    split
    · exact ⟨rfl, rfl⟩
    · split
      · exact ⟨rfl, rfl⟩
      · split <;> first | exact ⟨rfl, rfl⟩ | exact hfinish _ _ | skip
        split
        · exact ⟨rfl, rfl⟩
        · exact hfinish _ _
  · cases hs
    unfold aclose
    split
    · exact ⟨rfl, rfl⟩
    · split
      · exact ⟨rfl, rfl⟩
      · split <;> exact ⟨rfl, rfl⟩
  · split at hs <;> cases hs
    unfold pulled
    split
    · exact ⟨rfl, rfl⟩
    · dsimp only
      split <;> exact ⟨rfl, rfl⟩
    · exact ⟨rfl, rfl⟩
  · split at hs <;> cases hs
    unfold appended
    split <;> exact ⟨rfl, rfl⟩
  · split at hs <;> cases hs
    unfold streamClosed
    split <;> exact hfinish _ _
  · cases hs

/-- What the steps of a stream keep holds of every turn's stream, if of a new one. -/
theorem stage_of_step {P : Turn → Prop} {good : Turn → Event → Prop}
    (hnew : ∀ conversation userMessage,
      P { phase := .streaming conversation userMessage, leased := true })
    (hstream : ∀ {t t' : Turn} {conversation : UUID} {userMessage : Message} {event : Event},
      P t → good t event → stream conversation userMessage t event = some t' → P t')
    (h : Stage P t) (hs : Guarded Moves good t event t') : Stage P t' := by
  obtain ⟨hs, hgood⟩ := hs
  cases h with
  | resolving =>
    cases event with
    | resolved outcome =>
      cases outcome <;> cases hs
      · exact .failed _ false
      · exact .acquiring _
    | _ => cases hs
  | acquiring conversation =>
    cases event with
    | acquired error =>
      cases error <;> cases hs
      · exact .appending _
      · exact .failed _ false
    | _ => cases hs
  | appending conversation =>
    cases event with
    | userSaved outcome =>
      cases outcome <;> cases hs
      · exact .failed _ true
      · exact .reading _ _
    | _ => cases hs
  | reading conversation userMessage =>
    cases event with
    | prepared error =>
      cases error <;> cases hs
      · exact .streaming _ _ _ rfl rfl (hnew _ _)
      · exact .failed _ true
    | _ => cases hs
  | failed e leased => cases event <;> cases hs
  | streaming _ conversation userMessage hphase hleased hP =>
    simp only [Moves, step, hphase] at hs
    obtain ⟨hphase', hleased'⟩ := phase_of_stream hs
    exact .streaming _ conversation userMessage (hphase'.trans hphase) (hleased'.trans hleased)
      (hstream hP hgood hs)

theorem sound_new : Sound { phase := .streaming conversation userMessage, leased := true } := by
  refine ⟨.created, rfl, fun h => ?_⟩
  obtain ⟨a, ha, -⟩ := h
  cases ha

theorem stage_of_reachable (h : Reachable (· = {}) Moves t) : Stage Sound t := by
  refine h.invariant (P := Stage Sound) (fun hinit => ?_) fun hstage hs => ?_
  · rw [hinit]
    exact .resolving
  · have hguarded : Guarded Moves (fun _ _ => True) _ _ _ := ⟨hs, trivial⟩
    exact stage_of_step (fun _ _ => sound_new) (fun hsound _ hs => sound_of_stream hsound hs)
      hstage hguarded

theorem stage_of_alone (h : Reachable (· = {}) (Guarded Moves Alone) t) :
    Stage (fun t => Sound t ∧ Orderly t) t := by
  refine h.invariant (P := Stage fun t => Sound t ∧ Orderly t) (fun hinit => ?_) fun hstage hs => ?_
  · rw [hinit]
    exact .resolving
  · refine stage_of_step (fun _ _ => ⟨sound_new, fun h => by cases h⟩) ?_ hstage hs
    rintro t t' conversation userMessage event ⟨hsound, ho⟩ halone hs
    exact ⟨sound_of_stream hsound hs, orderly_of_stream hsound ho halone hs⟩

theorem releasesOf_le (closed : Bool) (call : Option Call) : releasesOf closed call ≤ 1 := by
  unfold releasesOf
  split <;> decide

theorem Standing.saved (h : Standing t.chunks t.generator t.pending t.closed t.stream t.saved) :
    Saved t.chunks t.stream.ended t.saved := by
  generalize t.generator = generator, t.pending = pending, t.closed = closed, t.stream = stream,
    t.saved = saved at h ⊢
  cases h with
  | created | atStarted | pulling | atDelta => exact Or.inl rfl
  | appending _ hanswer | atCompleted _ hanswer => exact Or.inr ⟨rfl, hanswer, rfl⟩
  | closing _ _ _ _ _ _ hsaved | finished _ _ _ hsaved => exact hsaved

/-- **However the consumer calls**, the lease is released once and one answer saved at most. -/
theorem stream_releases_once (h : Reachable (· = {}) Moves t) :
    t.releases ≤ 1 ∧
    -- a turn that fails before it streams has given the lease back
    (∀ e, t.phase = .failed e → t.releases = t.leased.toNat) ∧
    -- and so has a stream that has answered a call otherwise than by an event
    ((∃ a ∈ t.answers, ¬a.IsEvent) → t.pending = none → t.releases = 1) ∧
    -- the answer of a model stream that has ended by itself is saved, if it is not blank
    (t.saved = [] ∨ t.stream.ended = true ∧ answerOf t.chunks ≠ "" ∧
      t.saved = [answerOf t.chunks]) := by
  have hstage := stage_of_reachable h
  cases hstage with
  | resolving | acquiring | appending | reading =>
    refine ⟨Nat.zero_le _, fun e he => ?_, fun ⟨a, ha, _⟩ => ?_, Or.inl rfl⟩
    · cases he
    · cases ha
  | failed e leased =>
    refine ⟨?_, fun _ _ => rfl, fun ⟨a, ha, _⟩ => ?_, Or.inl rfl⟩
    · exact Bool.toNat_le leased
    · cases ha
  | streaming _ conversation userMessage hphase hleased hsound =>
    refine ⟨?_, fun e he => ?_, fun hanswer hpending => ?_, hsound.standing.saved⟩
    · rw [hsound.releases]
      exact releasesOf_le _ _
    · rw [hphase] at he
      cases he
    · rw [hsound.releases, hsound.answered hanswer, hpending]
      rfl

/-- **With a consumer that waits, the lease outlives the model stream.** -/
theorem lease_outlives_stream (h : Reachable (· = {}) (Guarded Moves Alone) t) :
    -- the lease is released once, when the model stream is closed if it has been opened
    t.releases ≤ 1 ∧
    (t.releases = 1 → t.stream.opened = true → t.stream.closed = true) ∧
    (∀ e, t.phase = .failed e → t.releases = t.leased.toNat) ∧
    ((∃ a ∈ t.answers, ¬a.IsEvent) → t.pending = none → t.releases = 1) ∧
    -- and one answer is saved at most, of a model stream that has ended by itself
    (t.saved = [] ∨ t.stream.ended = true ∧ answerOf t.chunks ≠ "" ∧
      t.saved = [answerOf t.chunks]) := by
  have hreach : Reachable (· = {}) Moves t := by
    obtain ⟨s₀, events, hinit, hsteps⟩ := h
    exact ⟨s₀, events, hinit, hsteps.of_guarded⟩
  obtain ⟨honce, hfailed, hover, hsaved⟩ := stream_releases_once hreach
  refine ⟨honce, fun hone hopened => ?_, hfailed, hover, hsaved⟩
  have hstage := stage_of_alone h
  cases hstage with
  | resolving | acquiring | appending | reading | failed => cases hopened
  | streaming _ conversation userMessage hphase hleased hP =>
    obtain ⟨hsound, ho⟩ := hP
    have hreleases := hsound.releases
    have hstanding := hsound.standing
    rw [hone] at hreleases
    cases hclosed : t.closed with
    | false =>
      rw [hclosed] at hreleases
      cases hreleases
    | true =>
      rcases ho hclosed with hgenerator | hpending
      · rw [hgenerator] at hstanding
        generalize t.pending = pending, t.closed = closed, t.stream = stream, t.saved = saved
          at hstanding hopened ⊢
        cases hstanding with
        | finished _ _ hstream => exact hstream.symm.trans hopened
      · rw [hclosed, hpending] at hreleases
        cases hreleases

/-- A call in progress goes on. -/
theorem call_goes_on (h : Sound t) (hphase : t.phase = .streaming conversation userMessage)
    (hcall : t.pending ≠ none) :
    (∃ t', Moves t (.pulled .ended) t') ∨ (∃ t', Moves t (.appended (.error .cancelledError)) t') ∨
      ∃ t', Moves t (.streamClosed none) t' := by
  have hstanding := h.standing
  cases hgenerator : t.generator with
  | created | atStarted | atDelta | atCompleted | finished =>
    rw [hgenerator] at hstanding
    generalize t.pending = pending at hstanding hcall
    generalize t.closed = closed, t.stream = stream, t.saved = saved at hstanding
    cases hstanding
    exact absurd rfl hcall
  | pulling =>
    refine Or.inl ⟨pulled conversation t .ended, ?_⟩
    simp only [Moves, step, hphase, stream, hgenerator]
  | appending =>
    refine Or.inr (Or.inl ⟨appended conversation userMessage t (.error .cancelledError), ?_⟩)
    simp only [Moves, step, hphase, stream, hgenerator]
  | closing ending =>
    refine Or.inr (Or.inr ⟨streamClosed t ending none, ?_⟩)
    simp only [Moves, step, hphase, stream, hgenerator]

end

/-! ## A consumer that waits, and one that does not -/

def question : Message := { id := 1, content := "问", sequence := 1 }

def reply : Message := { id := 2, content := "答", sequence := 2 }

def preparedRun : List Event :=
  [.resolved (.ok 7), .acquired none, .userSaved (.ok question), .prepared none]

/-- The consumer closes the stream after the first chunk. -/
def waitingRun : List Event :=
  preparedRun ++ [.anext none, .anext none, .pulled (.chunk { content := "答" }), .aclose,
    .streamClosed none]

def waitingTurn : Turn :=
  { phase := .streaming 7 question
    leased := true
    generator := .finished
    stream := { opened := true, closed := true }
    chunks := [{ content := "答" }]
    closed := true
    releases := 1
    answers := [.event (.started 7), .event (.delta 7 { content := "答" }), .closed none] }

theorem lease_outlives_stream_waiting :
    waitingTurn.releases = 1 ∧ waitingTurn.stream.closed = true := by
  have hreach : Reachable (· = {}) (Guarded Moves Alone) waitingTurn :=
    ⟨{}, waitingRun, rfl, Steps.guarded_of_foldlM (f := step) rfl⟩
  exact ⟨rfl, (lease_outlives_stream hreach).2.1 rfl rfl⟩

/-- The consumer closes the stream while it waits for the first chunk. -/
def hastyRun : List Event := preparedRun ++ [.anext none, .anext none, .aclose]

def hastyTurn : Turn :=
  { phase := .streaming 7 question
    leased := true
    generator := .pulling
    stream := { opened := true }
    closed := true
    pending := some .next
    releases := 1
    answers := [.event (.started 7), .closed (some (.exception "RuntimeError"))] }

/-- **The lease may be released while the model stream is open.** -/
theorem released_before_closed :
    ∃ t, Reachable (· = {}) Moves t ∧ t.releases = 1 ∧ t.stream.opened = true ∧
      t.stream.closed = false :=
  ⟨hastyTurn, ⟨{}, hastyRun, rfl, Steps.of_foldlM (f := step) rfl⟩, rfl, rfl, rfl⟩

end GoAgent.Dialogue.Streaming
