import GoAgent.Dialogue.StreamingConversation
import GoAgent.Llm.TransientRetry

/-!
# Streaming a chat with retries

The chat adapter opens a stream of the provider and holds its chunks back until one shows activity.
Up to there a transient failure has it open another stream; from there on the chunks are handed out
as they come, and a failure ends the call.

* `heldBack_eq` — what is handed out of one attempt.
* `streamed_streamLoop` — what the loop does from any attempt on.
* `stream_last_attempt` — all that is handed out comes from the last stream opened.
-/

namespace GoAgent.Llm.ChatRetryStream

open GoAgent.Foundation GoAgent.Dialogue.Streaming GoAgent.Llm.TransientRetry

/-! ## One attempt -/

/-- How the stream of an attempt comes to its end; a timeout is a failure. -/
inductive Ending (E : Type) where
  | ended
  | failed (error : E)
  | cancelled

structure Attempt (E : Type) where
  chunks : List ChatLlmStreamChunk
  ending : Ending E

/-- What an attempt fails with: an error of the provider, or the `RuntimeError` for a stream without
activity. -/
inductive StreamError (E : Type) where
  | provider (error : E)
  | emptyResponse

/-- What the call comes to; an error is raised as an `UpstreamServiceError`. -/
inductive StreamResult (E : Type) where
  | completed
  | upstream (error : StreamError E)
  | cancelled
  /-- `LLM 流式重试循环在未创建流时结束。` -/
  | unfinished

def isActive (chunk : ChatLlmStreamChunk) : Bool :=
  chunk.hasUpstreamActivity || !isBlank chunk.content

/-- `_first_activity_chunk`: the first chunk with activity and what comes after it -/
def firstActivityChunk :
    List ChatLlmStreamChunk → Option (ChatLlmStreamChunk × List ChatLlmStreamChunk)
  | [] => none
  | chunk :: rest => if isActive chunk then some (chunk, rest) else firstActivityChunk rest

/-- The chunks without those before the first activity. -/
def withoutLeading (chunks : List ChatLlmStreamChunk) : List ChatLlmStreamChunk :=
  chunks.dropWhile fun chunk => !isActive chunk

theorem heldBack_eq (chunks : List ChatLlmStreamChunk) : withoutLeading chunks =
    match firstActivityChunk chunks with
    | some (chunk, rest) => chunk :: rest
    | none => [] := by
  induction chunks with
  | nil => rfl
  | cons chunk rest ih =>
    rw [withoutLeading, List.dropWhile_cons, firstActivityChunk]
    by_cases hactive : isActive chunk = true
    · rw [if_pos hactive, hactive]
      rfl
    · rw [if_neg hactive, Bool.eq_false_iff.2 hactive]
      exact ih

theorem withoutLeading_eq_nil {chunks : List ChatLlmStreamChunk} :
    withoutLeading chunks = [] ↔ firstActivityChunk chunks = none := by
  rw [heldBack_eq]
  cases firstActivityChunk chunks with
  | none => exact ⟨fun _ => rfl, fun _ => rfl⟩
  | some found => exact ⟨fun h => (nomatch h), fun h => (nomatch h)⟩

section Attempts

variable {S E : Type}

/-- What the call comes to when this is its last attempt. -/
def Attempt.result (attempt : Attempt E) : StreamResult E :=
  match attempt.ending with
  | .ended => if (withoutLeading attempt.chunks).isEmpty then .upstream .emptyResponse else .completed
  | .failed error => .upstream (.provider error)
  | .cancelled => .cancelled

/-- The error of an attempt that shows no activity. -/
def Attempt.error (attempt : Attempt E) : Option (StreamError E) :=
  match attempt.ending with
  | .ended => some .emptyResponse
  | .failed error => some (.provider error)
  | .cancelled => none

variable {attempts : Nat → Attempt E} {attempt : Nat}

theorem result_of_error {error : StreamError E}
    (hnone : firstActivityChunk (attempts attempt).chunks = none)
    (herror : (attempts attempt).error = some error) :
    (attempts attempt).result = .upstream error := by
  unfold Attempt.error at herror
  unfold Attempt.result
  cases hending : (attempts attempt).ending with
  | ended =>
    rw [hending] at herror
    cases herror
    have hnil := withoutLeading_eq_nil.2 hnone
    dsimp only
    rw [hnil]
    rfl
  | failed failure =>
    rw [hending] at herror
    cases herror
    rfl
  | cancelled =>
    rw [hending] at herror
    cases herror

/-- A `RuntimeError` is no failure that `classify_llm_failure` knows. -/
def describeError (describe : E → LlmFailure S) : StreamError E → LlmFailure S
  | .provider error => describe error
  | .emptyResponse => {}

variable [LinearOrder S] [Zero S] {describe : E → LlmFailure S}

/-- A transient error is one of the provider. -/
theorem ending_of_retryable {error : StreamError E} (herror : (attempts attempt).error = some error)
    (hretry : (describeError describe error).Retryable) :
    ∃ failure, (attempts attempt).ending = .failed failure ∧ (describe failure).Retryable := by
  unfold Attempt.error at herror
  cases hending : (attempts attempt).ending with
  | ended =>
    rw [hending] at herror
    cases herror
    cases hretry
  | failed failure =>
    rw [hending] at herror
    cases herror
    exact ⟨failure, rfl, hretry⟩
  | cancelled =>
    rw [hending] at herror
    cases herror

end Attempts

/-! ## The call -/

section Adapter

variable {S E : Type} [LinearOrder S] [Zero S] [Add S]

/-- How many streams are opened, the chunks handed out, the waits, and what comes of it. -/
structure StreamRun (S E : Type) where
  opened : Nat
  yielded : List ChatLlmStreamChunk
  waits : List S
  result : StreamResult E

variable (config : LlmRetryConfig S) (describe : E → LlmFailure S) (attempts : Nat → Attempt E)

/-- A run from attempt `first` on: every attempt but the last showed no activity and failed for a
transient reason, and what is handed out comes from the last one. -/
structure Streamed (first : Nat) (waited : S) (run : StreamRun S E) : Prop where
  first_le : first ≤ run.opened
  opened_le : run.opened ≤ config.maxAttempts
  retried : ∀ i, first ≤ i → i < run.opened → withoutLeading (attempts i).chunks = [] ∧
    ∃ error, (attempts i).ending = .failed error ∧ (describe error).Retryable
  yielded_eq : run.yielded = withoutLeading (attempts run.opened).chunks
  result_eq : run.result = (attempts run.opened).result
  within : total run.waits waited ≤ config.totalBackoffBudgetSeconds

section Steps

variable {config : LlmRetryConfig S} {describe : E → LlmFailure S} {attempts : Nat → Attempt E}
  {attempt : Nat} {waited : S}

/-- A run that ends with its first attempt. -/
theorem streamed_last {yielded : List ChatLlmStreamChunk} {result : StreamResult E}
    (hattempt : attempt ≤ config.maxAttempts)
    (hwaited : waited ≤ config.totalBackoffBudgetSeconds)
    (hyielded : yielded = withoutLeading (attempts attempt).chunks)
    (hresult : result = (attempts attempt).result) :
    Streamed config describe attempts attempt waited ⟨attempt, yielded, [], result⟩ where
  first_le := le_rfl
  opened_le := hattempt
  retried := fun _ hle hlt => absurd hlt (Nat.not_lt.2 hle)
  yielded_eq := hyielded
  result_eq := hresult
  within := hwaited

theorem Streamed.cons {delay : S} {error : E} {run : StreamRun S E}
    (hnone : firstActivityChunk (attempts attempt).chunks = none)
    (hfailed : (attempts attempt).ending = .failed error) (hretry : (describe error).Retryable)
    (h : Streamed config describe attempts (attempt + 1) (waited + delay) run) :
    Streamed config describe attempts attempt waited
      { run with waits := delay :: run.waits } where
  first_le := (Nat.le_succ attempt).trans h.first_le
  opened_le := h.opened_le
  retried := by
    intro i hle hlt
    rcases Nat.eq_or_lt_of_le hle with rfl | hlt'
    · exact ⟨withoutLeading_eq_nil.2 hnone, error, hfailed, hretry⟩
    · exact h.retried i hlt' hlt
  yielded_eq := h.yielded_eq
  result_eq := h.result_eq
  within := h.within

end Steps

variable [One S] [Mul S] [Div S] [NatCast S] (random : Nat → S)

/-- The loop of `stream`, with `left` attempts to come. -/
def streamLoop : Nat → Nat → S → StreamRun S E
  | 0, attempt, _ => ⟨attempt - 1, [], [], .unfinished⟩
  | left + 1, attempt, waited =>
    match firstActivityChunk (attempts attempt).chunks with
    | some (chunk, rest) =>
      -- after the first activity nothing is retried
      ⟨attempt, chunk :: rest, [], (attempts attempt).result⟩
    | none =>
      match (attempts attempt).error with
      | none => ⟨attempt, [], [], .cancelled⟩
      | some error =>
        match retryDelay config random waited (describeError describe error) attempt with
        | none => ⟨attempt, [], [], .upstream error⟩
        | some delay =>
          let run := streamLoop left (attempt + 1) (waited + delay)
          { run with waits := delay :: run.waits }

def stream : StreamRun S E := streamLoop config describe attempts random config.maxAttempts 1 0

variable {config random describe attempts} {attempt : Nat} {waited : S}

/-- **The loop**, from any attempt on. -/
theorem streamed_streamLoop {left : Nat} (hleft : left + attempt = config.maxAttempts + 1)
    (hattempt : attempt ≤ config.maxAttempts)
    (hwaited : waited ≤ config.totalBackoffBudgetSeconds) :
    Streamed config describe attempts attempt waited
      (streamLoop config describe attempts random left attempt waited) := by
  induction left generalizing attempt waited with
  | zero => exact absurd hattempt (by omega)
  | succ left ih =>
    rw [streamLoop]
    have hheld := heldBack_eq (attempts attempt).chunks
    cases hfirst : firstActivityChunk (attempts attempt).chunks with
    | some found =>
      rw [hfirst] at hheld
      exact streamed_last hattempt hwaited hheld.symm rfl
    | none =>
      rw [hfirst] at hheld
      dsimp only
      cases herror : (attempts attempt).error with
      | none =>
        refine streamed_last hattempt hwaited hheld.symm ?_
        unfold Attempt.error at herror
        unfold Attempt.result
        split at herror
        · cases herror
        · cases herror
        · rfl
      | some error =>
        dsimp only
        cases hdelay : retryDelay config random waited (describeError describe error) attempt with
        | none => exact streamed_last hattempt hwaited hheld.symm (result_of_error hfirst herror).symm
        | some delay =>
          rcases retryDelay_some config random hdelay with ⟨hretry, hlt, hbudget⟩
          rcases ending_of_retryable herror hretry with ⟨failure, hfailed, hretry'⟩
          exact (ih (by omega) hlt hbudget).cons hfirst hfailed hretry'

/-- **A streaming call.** What is handed out is what one attempt yields from its first activity on,
and that is the last attempt; the attempts before showed no activity. -/
theorem stream_last_attempt :
    1 ≤ (stream config describe attempts random).opened ∧
    (stream config describe attempts random).opened ≤ config.maxAttempts ∧
    (stream config describe attempts random).yielded =
      withoutLeading (attempts (stream config describe attempts random).opened).chunks ∧
    (∀ i, 1 ≤ i → i < (stream config describe attempts random).opened →
      withoutLeading (attempts i).chunks = []) ∧
    (stream config describe attempts random).result =
      (attempts (stream config describe attempts random).opened).result := by
  have h : Streamed config describe attempts 1 0 (stream config describe attempts random) :=
    streamed_streamLoop rfl config.attempts_pos config.budget_pos.le
  exact ⟨h.first_le, h.opened_le, h.yielded_eq, fun i hle hlt => (h.retried i hle hlt).1,
    h.result_eq⟩

end Adapter

end GoAgent.Llm.ChatRetryStream
