import GoAgent.Foundation.Raising
import GoAgent.Foundation.Transition
import GoAgent.Interaction.Contracts

/-!
# The turn of a confirmed agent call

`execute` waits for the lease of the conversation, runs `confirm` in a thread that no cancellation
of the caller stops, and hands an approved command to a supervisor task, whose worker runs in a
thread too. A `Turn` is where the caller, the confirmation task and the supervisor stand; an event
is what one of them does next, or a cancellation of the caller. A call of `confirm` and of the
worker may end in any way, and the caller may be cancelled at every `await`, repeatedly.

`Stage` lists the stages of a turn.

* `stage_of_step`, `stage_of_run` — every step leads from stage to stage.
* `Stage.progress`, `Stage.bounded` — an unfinished turn goes on, and ends.
* `turn_releases_once` — the lease is released once, after all that was started, and the approved
  command is executed once, or not at all when no worker could be made.
-/

namespace GoAgent.Dialogue.AgentTurn

open GoAgent.Foundation GoAgent.Interaction

/-! ## The turn -/

inductive DialogueAgentTurnStatus where
  | completed | accepted | cancelled | rejected | failed
  deriving DecidableEq

structure DialogueAgentTurnCommand where
  conversationId : UUID
  capabilityCode : String
  inputs : Inputs
  principal : RequestPrincipal
  approvedDispatch : ApprovedCapabilityDispatch
  call : StructuredAgentCall

structure DialogueAgentTurnResult where
  status : DialogueAgentTurnStatus
  message : String
  conversationId : Option UUID := none
  executionResult : Option Value := none
  errorCode : Option String := none

structure DialogueAgentTurnPreparation where
  result : Option DialogueAgentTurnResult := none
  command : Option DialogueAgentTurnCommand := none
  exactlyOne : result.isNone ≠ command.isNone

/-- Where `execute` stands: at an `await`, or at its end. -/
inductive Caller where
  /-- `await self._coordinator.acquire(…)` -/
  | acquiring
  /-- The first `await` of `await_shielded_task`. -/
  | confirming
  /-- The loop of `await_shielded_task`, after a cancellation. -/
  | draining
  /-- `await asyncio.shield(supervisor)` -/
  | supervising
  | returned (result : DialogueAgentTurnResult)
  | raised (e : BaseException)

inductive Confirmation where
  | absent
  | running
  | ended (outcome : Except BaseException DialogueAgentTurnPreparation)

/-- The supervisor task, and how far `_execute_worker` is in its thread. -/
inductive Supervisor where
  | absent
  | scheduled (command : DialogueAgentTurnCommand)
  | creating (command : DialogueAgentTurnCommand)
  | executing (command : DialogueAgentTurnCommand)
  | closing (command : DialogueAgentTurnCommand)
      (outcome : Except BaseException DialogueAgentTurnResult)
  | worked (command : DialogueAgentTurnCommand)
      (outcome : Except BaseException DialogueAgentTurnResult)
  | ended (outcome : Except BaseException DialogueAgentTurnResult)

structure Turn where
  caller : Caller := .acquiring
  confirmation : Confirmation := .absent
  supervisor : Supervisor := .absent
  /-- How often `lease.release` has been called. -/
  releases : Nat := 0
  /-- What `worker.execute` has been called with. -/
  executed : List DialogueAgentTurnCommand := []

namespace Turn

def release (t : Turn) : Turn := { t with releases := t.releases + 1 }

def raise (t : Turn) (e : BaseException) : Turn := { t with caller := .raised e }

/-- `asyncio.create_task(self._supervise_started_turn(lease, command))` -/
def supervise (t : Turn) (command : DialogueAgentTurnCommand) : Turn :=
  { t with supervisor := .scheduled command }

/-- `execute` after `await_shielded_task` has returned. -/
def prepared (t : Turn) (preparation : DialogueAgentTurnPreparation) : Turn :=
  match preparation.result, preparation.command with
  | some result, _ => { t.release with caller := .returned result }
  | none, none => t.release.raise (.exception "RuntimeError")
  | none, some command => { t.supervise command with caller := .supervising }

/-- The handler of `asyncio.CancelledError`. -/
def cancelled (t : Turn) : Turn :=
  match t.confirmation with
  | .ended (.ok preparation) =>
    match preparation.result, preparation.command with
    | some _, _ => t.release.raise .cancelledError
    | none, none => t.release.raise .cancelledError
    | none, some command => (t.supervise command).raise .cancelledError
  | .ended (.error _) => t.release.raise .cancelledError
  -- `.result()` of a task that is not done raises
  | .absent | .running => t.release.raise .cancelledError

/-- `while not task.done()` -/
def drain (t : Turn) : Turn :=
  match t.confirmation with
  | .ended _ => t.cancelled
  | .absent | .running => { t with caller := .draining }

end Turn

/-- The `except Exception` of `_supervise_started_turn`. -/
def guardWorker (command : DialogueAgentTurnCommand) :
    Except BaseException DialogueAgentTurnResult → Except BaseException DialogueAgentTurnResult
  | .ok result => .ok result
  | .error (.exception _) =>
    .ok {
      status := .failed
      message := "Agent 调用暂时无法完成。"
      conversationId := some command.conversationId
      errorCode := some "DIALOGUE_AGENT_UNAVAILABLE" }
  | .error e => .error e

inductive Event where
  /-- The lease is acquired. -/
  | granted
  /-- The caller is cancelled. -/
  | cancel
  /-- `confirm` ends. -/
  | confirmed (outcome : Except BaseException DialogueAgentTurnPreparation)
  /-- The caller goes on: what it awaits has ended. -/
  | resumed
  /-- The supervisor starts its thread. -/
  | started
  /-- `worker_factory.create` ends. -/
  | created (error : Option BaseException)
  /-- `worker.execute` ends. -/
  | executed (outcome : Except BaseException DialogueAgentTurnResult)
  /-- `worker.close` ends. -/
  | closed (error : Option BaseException)
  /-- The supervisor goes on after its thread has ended. -/
  | supervised

def resume (t : Turn) : Option Turn :=
  match t.caller, t.confirmation, t.supervisor with
  | .confirming, .ended (.ok preparation), _ => some (t.prepared preparation)
  | .confirming, .ended (.error .cancelledError), _ => some t.drain
  | .confirming, .ended (.error e), _ => some (t.release.raise e)
  | .draining, .ended _, _ => some t.cancelled
  | .supervising, _, .ended (.ok result) => some { t with caller := .returned result }
  | .supervising, _, .ended (.error e) => some (t.raise e)
  | _, _, _ => none

def step (t : Turn) : Event → Option Turn
  | .granted =>
    match t.caller with
    | .acquiring => some { t with caller := .confirming, confirmation := .running }
    | _ => none
  | .cancel =>
    match t.caller with
    | .acquiring | .supervising => some (t.raise .cancelledError)
    | .confirming | .draining => some t.drain
    | .returned _ | .raised _ => none
  | .confirmed outcome =>
    match t.confirmation with
    | .running => some { t with confirmation := .ended outcome }
    | _ => none
  | .resumed => resume t
  | .started =>
    match t.supervisor with
    | .scheduled command => some { t with supervisor := .creating command }
    | _ => none
  | .created error =>
    match t.supervisor, error with
    | .creating command, none =>
      some { t with supervisor := .executing command, executed := t.executed ++ [command] }
    | .creating command, some e => some { t with supervisor := .worked command (.error e) }
    | _, _ => none
  | .executed outcome =>
    match t.supervisor with
    | .executing command => some { t with supervisor := .closing command outcome }
    | _ => none
  | .closed error =>
    match t.supervisor, error with
    | .closing command outcome, none => some { t with supervisor := .worked command outcome }
    | .closing command _, some e => some { t with supervisor := .worked command (.error e) }
    | _, _ => none
  | .supervised =>
    match t.supervisor with
    | .worked command outcome =>
      some { t.release with supervisor := .ended (guardWorker command outcome) }
    | _ => none

def Event.isCancel : Event → Bool
  | cancel => true
  | _ => false

def Moves (t : Turn) (event : Event) (t' : Turn) : Prop := step t event = some t'

/-! ## Stages -/

def Caller.Ended : Caller → Prop
  | returned _ | raised _ => True
  | acquiring | confirming | draining | supervising => False

def Confirmation.Ended : Confirmation → Prop
  | ended _ => True
  | absent | running => False

/-- No worker is in progress, and no supervisor either. -/
def Supervisor.Over : Supervisor → Prop
  | absent | ended _ => True
  | scheduled _ | creating _ | executing _ | closing .. | worked .. => False

/-- No worker is in progress. -/
def Supervisor.WorkerOver : Supervisor → Prop
  | absent | worked .. | ended _ => True
  | scheduled _ | creating _ | executing _ | closing .. => False

/-- Nothing that was started is still in progress. -/
structure Turn.Finished (t : Turn) : Prop where
  caller : t.caller.Ended
  confirmation : t.confirmation ≠ .running
  supervisor : t.supervisor.Over

/-- The command `confirm` has returned. -/
def Confirmation.command : Confirmation → Option DialogueAgentTurnCommand
  | ended (.ok preparation) => preparation.command
  | ended (.error _) | absent | running => none

/-- How far the supervisor of a command is: how often it has released the lease, and what its
worker has executed, in a run over `events`. -/
inductive Supervising (events : List Event) (command : DialogueAgentTurnCommand) :
    Supervisor → Nat → List DialogueAgentTurnCommand → Prop
  | scheduled : Supervising events command (.scheduled command) 0 []
  | creating : Supervising events command (.creating command) 0 []
  | executing : Supervising events command (.executing command) 0 [command]
  | closing (outcome : Except BaseException DialogueAgentTurnResult) :
      Supervising events command (.closing command outcome) 0 [command]
  | worked (outcome : Except BaseException DialogueAgentTurnResult) :
      Supervising events command (.worked command outcome) 0 [command]
  | notCreated (outcome : Except BaseException DialogueAgentTurnResult) (e : BaseException)
      (he : .created (some e) ∈ events) : Supervising events command (.worked command outcome) 0 []
  | ended (outcome : Except BaseException DialogueAgentTurnResult) :
      Supervising events command (.ended outcome) 1 [command]
  | abandoned (outcome : Except BaseException DialogueAgentTurnResult) (e : BaseException)
      (he : .created (some e) ∈ events) : Supervising events command (.ended outcome) 1 []

/-- The turns a run over `events` can lead to. -/
inductive Stage (events : List Event) : Turn → Prop
  | acquiring : Stage events {}
  | withdrawn (e : BaseException) : Stage events { caller := .raised e }
  | confirming (caller : Caller) (confirmation : Confirmation)
      (hcaller : caller = .confirming ∨ caller = .draining)
      (hconfirmation : confirmation ≠ .absent) :
      Stage events { caller, confirmation }
  | settled (caller : Caller) (outcome : Except BaseException DialogueAgentTurnPreparation)
      (hcaller : caller.Ended) (hcommand : (Confirmation.ended outcome).command = none) :
      Stage events { caller, confirmation := .ended outcome, releases := 1 }
  | supervised (caller : Caller) (preparation : DialogueAgentTurnPreparation)
      (command : DialogueAgentTurnCommand) (supervisor : Supervisor) (releases : Nat)
      (executed : List DialogueAgentTurnCommand) (hcaller : caller = .supervising ∨ caller.Ended)
      (hcommand : preparation.command = some command)
      (hsupervisor : Supervising events command supervisor releases executed) :
      Stage events
        { caller, confirmation := .ended (.ok preparation), supervisor, releases, executed }

section

variable {t t' : Turn} {events : List Event} {event : Event}

theorem Supervising.mono {events' : List Event} {command : DialogueAgentTurnCommand}
    {supervisor : Supervisor} {releases : Nat} {executed : List DialogueAgentTurnCommand}
    (h : Supervising events command supervisor releases executed)
    (hsub : ∀ event ∈ events, event ∈ events') :
    Supervising events' command supervisor releases executed := by
  cases h with
  | scheduled => exact .scheduled
  | creating => exact .creating
  | executing => exact .executing
  | closing outcome => exact .closing outcome
  | worked outcome => exact .worked outcome
  | notCreated outcome e he => exact .notCreated outcome e (hsub _ he)
  | ended outcome => exact .ended outcome
  | abandoned outcome e he => exact .abandoned outcome e (hsub _ he)

theorem Stage.mono {events' : List Event} (h : Stage events t)
    (hsub : ∀ event ∈ events, event ∈ events') : Stage events' t := by
  cases h with
  | acquiring => exact .acquiring
  | withdrawn e => exact .withdrawn e
  | confirming caller confirmation hcaller hconfirmation =>
    exact .confirming caller confirmation hcaller hconfirmation
  | settled caller outcome hcaller hcommand => exact .settled caller outcome hcaller hcommand
  | supervised caller preparation command supervisor releases executed hcaller hcommand h =>
    exact .supervised caller preparation command supervisor releases executed hcaller hcommand
      (h.mono hsub)

/-- A preparation is a result or a command. -/
theorem DialogueAgentTurnPreparation.cases (p : DialogueAgentTurnPreparation) :
    (∃ result, p.result = some result ∧ p.command = none) ∨
      ∃ command, p.result = none ∧ p.command = some command := by
  have hone := p.exactlyOne
  cases hresult : p.result with
  | some result =>
    cases hcommand : p.command with
    | none => exact Or.inl ⟨result, rfl, rfl⟩
    | some command =>
      rw [hresult, hcommand] at hone
      exact absurd rfl hone
  | none =>
    cases hcommand : p.command with
    | some command => exact Or.inr ⟨command, rfl, rfl⟩
    | none =>
      rw [hresult, hcommand] at hone
      exact absurd rfl hone

/-- What `confirm` has ended with is acted on, cancelled or not. -/
theorem stage_prepared {caller : Caller} {p : DialogueAgentTurnPreparation} :
    Stage events (Turn.prepared { caller, confirmation := .ended (.ok p) } p) := by
  unfold Turn.prepared
  rcases p.cases with ⟨result, hresult, hcommand⟩ | ⟨command, hresult, hcommand⟩
  · rw [hresult]
    exact .settled _ _ trivial hcommand
  · rw [hresult, hcommand]
    exact .supervised _ p command _ _ _ (Or.inl rfl) hcommand .scheduled

theorem stage_cancelled {caller : Caller}
    {outcome : Except BaseException DialogueAgentTurnPreparation} :
    Stage events (Turn.cancelled { caller, confirmation := .ended outcome }) := by
  unfold Turn.cancelled
  cases outcome with
  | error e => exact .settled _ _ trivial rfl
  | ok p =>
    rcases p.cases with ⟨result, hresult, hcommand⟩ | ⟨command, hresult, hcommand⟩
    · simp only [hresult]
      exact .settled _ _ trivial hcommand
    · simp only [hresult, hcommand]
      exact .supervised _ p command _ _ _ (Or.inr trivial) hcommand .scheduled

theorem stage_drain {caller : Caller} {confirmation : Confirmation}
    (hconfirmation : confirmation ≠ .absent) :
    Stage events (Turn.drain { caller, confirmation }) := by
  cases confirmation with
  | absent => exact absurd rfl hconfirmation
  | running => exact .confirming _ _ (Or.inr rfl) hconfirmation
  | ended outcome => exact stage_cancelled

/-! ## Steps -/

theorem not_ended_of_waiting {caller : Caller}
    (hwaiting : caller = .confirming ∨ caller = .draining) : ¬caller.Ended := by
  rcases hwaiting with rfl | rfl <;> exact id

/-- The caller waits for the confirmation task. -/
theorem stage_of_confirming {caller : Caller} {confirmation : Confirmation}
    (hcaller : caller = .confirming ∨ caller = .draining) (hconfirmation : confirmation ≠ .absent)
    (hs : Moves { caller, confirmation } event t') : Stage events t' := by
  cases event with
  | granted => rcases hcaller with rfl | rfl <;> cases hs
  | cancel =>
    rcases hcaller with rfl | rfl <;> cases hs <;> exact stage_drain hconfirmation
  | confirmed outcome =>
    cases confirmation with
    | running =>
      cases hs
      exact .confirming _ _ hcaller (by simp)
    | absent | ended => cases hs
  | resumed =>
    cases confirmation with
    | absent => exact absurd rfl hconfirmation
    | running => rcases hcaller with rfl | rfl <;> cases hs
    | ended outcome =>
      rcases hcaller with rfl | rfl
      · cases outcome with
        | ok preparation =>
          cases hs
          exact stage_prepared
        | error e =>
          cases e with
          | cancelledError =>
            cases hs
            exact stage_drain hconfirmation
          | generatorExit | exception | other =>
            cases hs
            exact .settled _ _ trivial rfl
      · cases hs
        exact stage_cancelled
  | started | created | executed | closed | supervised => cases hs

/-- Nothing but the supervisor goes on when the caller is through with the confirmation. -/
theorem stage_of_supervised {caller : Caller} {preparation : DialogueAgentTurnPreparation}
    {command : DialogueAgentTurnCommand} {supervisor : Supervisor} {releases : Nat}
    {executed : List DialogueAgentTurnCommand} (hcaller : caller = .supervising ∨ caller.Ended)
    (hcommand : preparation.command = some command)
    (h : Supervising events command supervisor releases executed)
    (hs : Moves { caller, confirmation := .ended (.ok preparation), supervisor, releases, executed }
      event t') : Stage (events ++ [event]) t' := by
  have h := h.mono fun x hx => List.mem_append_left [event] hx
  have hlast : event ∈ events ++ [event] := List.mem_append_right _ List.mem_cons_self
  have hstage : ∀ {supervisor' : Supervisor} {releases' : Nat}
      {executed' : List DialogueAgentTurnCommand},
      Supervising (events ++ [event]) command supervisor' releases' executed' →
        Stage (events ++ [event]) ⟨caller, .ended (.ok preparation), supervisor', releases',
          executed'⟩ := fun h' => .supervised _ _ _ _ _ _ hcaller hcommand h'
  cases event with
  | granted => cases caller <;> cases hs; simp [Caller.Ended] at hcaller
  | cancel =>
    cases caller with
    | supervising =>
      cases hs
      exact .supervised _ _ _ _ _ _ (Or.inr trivial) hcommand h
    | acquiring | confirming | draining => simp [Caller.Ended] at hcaller
    | returned | raised => cases hs
  | confirmed outcome => cases hs
  | resumed =>
    cases caller with
    | supervising =>
      cases h with
      | ended outcome | abandoned outcome =>
        cases outcome <;> cases hs <;>
          exact .supervised _ _ _ _ _ _ (Or.inr trivial) hcommand (by constructor <;> assumption)
      | _ => cases hs
    | acquiring | confirming | draining => simp [Caller.Ended] at hcaller
    | returned | raised => cases hs
  | started =>
    cases h with
    | scheduled =>
      cases hs
      exact hstage .creating
    | _ => cases hs
  | created error =>
    cases h with
    | creating =>
      cases error with
      | none =>
        cases hs
        exact hstage .executing
      | some e =>
        cases hs
        exact hstage (.notCreated _ e hlast)
    | _ => cases hs
  | executed outcome =>
    cases h with
    | executing =>
      cases hs
      exact hstage (.closing outcome)
    | _ => cases hs
  | closed error =>
    cases h with
    | closing outcome =>
      cases error <;> cases hs <;> exact hstage (.worked _)
    | _ => cases hs
  | supervised =>
    cases h with
    | worked outcome =>
      cases hs
      exact hstage (.ended _)
    | notCreated outcome e he =>
      cases hs
      exact hstage (.abandoned _ e he)
    | _ => cases hs

/-- **Every step leads from stage to stage.** -/
theorem stage_of_step (h : Stage events t) (hs : Moves t event t') :
    Stage (events ++ [event]) t' := by
  cases h with
  | acquiring =>
    cases event with
    | granted =>
      cases hs
      exact .confirming _ _ (Or.inl rfl) (by simp)
    | cancel =>
      cases hs
      exact .withdrawn _
    | _ => cases hs
  | withdrawn e => cases event <;> cases hs
  | confirming caller confirmation hcaller hconfirmation =>
    exact stage_of_confirming hcaller hconfirmation hs
  | settled caller outcome hcaller hcommand =>
    cases caller with
    | returned | raised => cases event <;> cases hs
    | acquiring | confirming | draining | supervising => exact hcaller.elim
  | supervised caller preparation command supervisor releases executed hcaller hcommand h =>
    exact stage_of_supervised hcaller hcommand h hs

theorem stage_of_run (h : Steps Moves {} events t) : Stage events t := by
  refine Steps.snocInduction (P := Stage) .acquiring (fun _ hstage hs => ?_) h
  exact stage_of_step hstage hs

/-! ## Progress -/

/-- An unfinished turn goes on without a further cancellation. -/
theorem Stage.progress (h : Stage events t) (hunfinished : ¬t.Finished) :
    ∃ event t', event.isCancel = false ∧ Moves t event t' := by
  cases h with
  | acquiring => exact ⟨.granted, _, rfl, rfl⟩
  | withdrawn e => exact absurd ⟨trivial, by simp, trivial⟩ hunfinished
  | confirming caller confirmation hcaller hconfirmation =>
    cases confirmation with
    | absent => exact absurd rfl hconfirmation
    | running => exact ⟨.confirmed (.error .cancelledError), _, rfl, rfl⟩
    | ended outcome =>
      rcases hcaller with rfl | rfl
      · cases outcome with
        | ok preparation => exact ⟨.resumed, _, rfl, rfl⟩
        | error e => cases e <;> exact ⟨.resumed, _, rfl, rfl⟩
      · exact ⟨.resumed, _, rfl, rfl⟩
  | settled caller outcome hcaller hcommand =>
    exact absurd ⟨hcaller, by simp, trivial⟩ hunfinished
  | supervised caller preparation command supervisor releases executed hcaller hcommand h =>
    cases h with
    | scheduled => exact ⟨.started, _, rfl, rfl⟩
    | creating => exact ⟨.created none, _, rfl, rfl⟩
    | executing => exact ⟨.executed (.error .cancelledError), _, rfl, rfl⟩
    | closing outcome => exact ⟨.closed none, _, rfl, rfl⟩
    | worked outcome | notCreated outcome => exact ⟨.supervised, _, rfl, rfl⟩
    | ended outcome | abandoned outcome =>
      rcases hcaller with rfl | hended
      · cases outcome <;> exact ⟨.resumed, _, rfl, rfl⟩
      · exact absurd ⟨hended, by simp, trivial⟩ hunfinished

def Caller.left : Caller → Nat
  | acquiring => 10
  | confirming | draining => 8
  | supervising => 1
  | returned _ | raised _ => 0

def Confirmation.left : Confirmation → Nat
  | running => 1
  | absent | ended _ => 0

def Supervisor.left : Supervisor → Nat
  | scheduled _ => 6
  | creating _ => 5
  | executing _ => 4
  | closing .. => 3
  | worked .. => 2
  | absent | ended _ => 0

/-- How many steps are left to the end, at most. -/
def Turn.left (t : Turn) : Nat := t.caller.left + t.confirmation.left + t.supervisor.left

/-- The caller is through with the confirmation, and may have scheduled the supervisor. -/
theorem left_of_confirmed {u : Turn} (hcaller : t.caller.left = 8) (hu : u.caller.left ≤ 1)
    (hconfirmation : u.confirmation = t.confirmation)
    (hsupervisor : u.supervisor = t.supervisor ∨ ∃ command, u.supervisor = .scheduled command) :
    u.left < t.left := by
  unfold Turn.left
  rw [hcaller, hconfirmation]
  rcases hsupervisor with h | ⟨command, h⟩
  · rw [h]
    omega
  · rw [h, Supervisor.left]
    omega

theorem left_prepared {preparation : DialogueAgentTurnPreparation} (hcaller : t.caller.left = 8) :
    (t.prepared preparation).left < t.left := by
  unfold Turn.prepared
  split
  · exact left_of_confirmed hcaller (Nat.zero_le _) rfl (Or.inl rfl)
  · exact left_of_confirmed hcaller (Nat.zero_le _) rfl (Or.inl rfl)
  · exact left_of_confirmed hcaller (Nat.le_refl _) rfl (Or.inr ⟨_, rfl⟩)

theorem left_cancelled (hcaller : t.caller.left = 8) : t.cancelled.left < t.left := by
  unfold Turn.cancelled
  split
  · split
    · exact left_of_confirmed hcaller (Nat.zero_le _) rfl (Or.inl rfl)
    · exact left_of_confirmed hcaller (Nat.zero_le _) rfl (Or.inl rfl)
    · exact left_of_confirmed hcaller (Nat.zero_le _) rfl (Or.inr ⟨_, rfl⟩)
  · exact left_of_confirmed hcaller (Nat.zero_le _) rfl (Or.inl rfl)
  · exact left_of_confirmed hcaller (Nat.zero_le _) rfl (Or.inl rfl)
  · exact left_of_confirmed hcaller (Nat.zero_le _) rfl (Or.inl rfl)

theorem left_drain (hcaller : t.caller.left = 8) : t.drain.left ≤ t.left := by
  unfold Turn.drain
  split
  · exact (left_cancelled hcaller).le
  · exact Nat.add_le_add_right (Nat.add_le_add_right hcaller.ge _) _
  · exact Nat.add_le_add_right (Nat.add_le_add_right hcaller.ge _) _

theorem left_resume (hs : resume t = some t') : t'.left < t.left := by
  unfold resume at hs
  split at hs
  case h_1 hcaller _ =>
    cases hs
    exact left_prepared (congrArg Caller.left hcaller)
  case h_2 hcaller hconfirmation =>
    cases hs
    unfold Turn.drain
    rw [hconfirmation]
    exact left_cancelled (congrArg Caller.left hcaller)
  case h_3 _ hcaller _ =>
    cases hs
    exact left_of_confirmed (congrArg Caller.left hcaller) (Nat.zero_le _) rfl (Or.inl rfl)
  case h_4 hcaller _ =>
    cases hs
    exact left_cancelled (congrArg Caller.left hcaller)
  case h_5 hcaller _ | h_6 hcaller _ =>
    cases hs
    exact Nat.add_lt_add_right (Nat.add_lt_add_right (hcaller ▸ Nat.zero_lt_one) _) _
  case h_7 => cases hs

/-- A step of the supervisor brings the end nearer. -/
theorem left_of_supervisor {u : Turn} (hcaller : u.caller = t.caller)
    (hconfirmation : u.confirmation = t.confirmation)
    (hsupervisor : u.supervisor.left < t.supervisor.left) : u.left + 1 ≤ t.left := by
  unfold Turn.left
  rw [hcaller, hconfirmation]
  omega

/-- A cancellation does not put the end off, and every other step brings it nearer. -/
theorem left_of_step (hs : Moves t event t') :
    t'.left + (if event.isCancel then 0 else 1) ≤ t.left := by
  cases event with
  | granted =>
    simp only [Moves, step] at hs
    split at hs <;> cases hs
    next hcaller =>
      simp only [Turn.left, hcaller, Caller.left, Confirmation.left, Event.isCancel]
      simp
      omega
  | cancel =>
    simp only [Moves, step] at hs
    have hraise : (t.raise .cancelledError).left ≤ t.left := by
      have hle : (Caller.raised .cancelledError).left ≤ t.caller.left := Nat.zero_le _
      exact Nat.add_le_add_right (Nat.add_le_add_right hle _) _
    split at hs <;> cases hs
    · exact hraise
    · exact hraise
    · next hcaller => exact left_drain (congrArg Caller.left hcaller)
    · next hcaller => exact left_drain (congrArg Caller.left hcaller)
  | confirmed outcome =>
    simp only [Moves, step] at hs
    split at hs <;> cases hs
    next hconfirmation =>
      simp only [Turn.left, hconfirmation, Confirmation.left, Event.isCancel, Bool.false_eq_true,
        if_false]
      omega
  | resumed => exact left_resume hs
  | started =>
    simp only [Moves, step] at hs
    split at hs <;> cases hs
    next hsupervisor =>
      refine left_of_supervisor rfl rfl ?_
      rw [hsupervisor]
      exact Nat.lt_succ_self 5
  | created error =>
    simp only [Moves, step] at hs
    split at hs <;> cases hs
    all_goals
      refine left_of_supervisor rfl rfl ?_
      simp only [*, Supervisor.left]
      omega
  | executed outcome =>
    simp only [Moves, step] at hs
    split at hs <;> cases hs
    next hsupervisor =>
      refine left_of_supervisor rfl rfl ?_
      rw [hsupervisor]
      exact Nat.lt_succ_self 3
  | closed error =>
    simp only [Moves, step] at hs
    split at hs <;> cases hs
    all_goals
      refine left_of_supervisor rfl rfl ?_
      simp only [*, Supervisor.left]
      omega
  | supervised =>
    simp only [Moves, step] at hs
    split at hs <;> cases hs
    next hsupervisor =>
      refine left_of_supervisor rfl rfl ?_
      rw [hsupervisor]
      exact Nat.zero_lt_two

/-- **A run has ten steps at most, beside the cancellations.** -/
theorem run_bounded (h : Steps Moves t events t') :
    events.countP (fun event => !event.isCancel) + t'.left ≤ t.left := by
  induction h with
  | nil => simp
  | @cons _ _ _ event _ hs _ ih =>
    have hle := left_of_step hs
    rw [List.countP_cons]
    cases hcancel : event.isCancel <;> simp only [hcancel] at hle ⊢ <;> simp at hle ⊢ <;> omega

/-! ## The lease and the command -/

/-- The lease is released by the caller once `confirm` has ended, or by the supervisor. -/
theorem release_cases (hs : Moves t event t') (hrelease : t'.releases ≠ t.releases) :
    (t.caller = .confirming ∨ t.caller = .draining) ∧ t.confirmation.Ended ∨
      ∃ command outcome, t.supervisor = .worked command outcome := by
  have hdrain : t.drain.releases ≠ t.releases → t.confirmation.Ended := by
    unfold Turn.drain
    split
    · next hconfirmation => exact fun _ => hconfirmation ▸ trivial
    · exact fun h => absurd rfl h
    · exact fun h => absurd rfl h
  cases event with
  | cancel =>
    simp only [Moves, step] at hs
    split at hs <;> cases hs
    · exact absurd rfl hrelease
    · exact absurd rfl hrelease
    · next hcaller => exact Or.inl ⟨Or.inl hcaller, hdrain hrelease⟩
    · next hcaller => exact Or.inl ⟨Or.inr hcaller, hdrain hrelease⟩
  | resumed =>
    simp only [Moves, step, resume] at hs
    split at hs <;> cases hs
    · next hcaller hended => exact Or.inl ⟨Or.inl hcaller, hended ▸ trivial⟩
    · next hcaller hended => exact Or.inl ⟨Or.inl hcaller, hended ▸ trivial⟩
    · next hcaller hended => exact Or.inl ⟨Or.inl hcaller, hended ▸ trivial⟩
    · next hcaller hended => exact Or.inl ⟨Or.inr hcaller, hended ▸ trivial⟩
    · exact absurd rfl hrelease
    · exact absurd rfl hrelease
  | supervised =>
    simp only [Moves, step] at hs
    split at hs <;> cases hs
    next command outcome hsupervisor => exact Or.inr ⟨command, outcome, hsupervisor⟩
  | granted | confirmed | started | created | executed | closed =>
    simp only [Moves, step] at hs
    split at hs <;> cases hs
    all_goals exact absurd rfl hrelease

/-- A release finds the confirmation task and any worker ended. -/
theorem Stage.release_of_step (h : Stage events t) (hs : Moves t event t')
    (hrelease : t'.releases ≠ t.releases) : t.confirmation.Ended ∧ t.supervisor.WorkerOver := by
  rcases release_cases hs hrelease with ⟨hcaller, hended⟩ | ⟨command, outcome, hsupervisor⟩
  · refine ⟨hended, ?_⟩
    cases h with
    | acquiring | withdrawn | confirming | settled => trivial
    | supervised caller _ _ _ _ _ hended' =>
      rcases hended' with rfl | hended'
      · rcases hcaller with h | h <;> cases h
      · exact absurd hended' (not_ended_of_waiting hcaller)
  · rw [hsupervisor]
    refine ⟨?_, trivial⟩
    cases h with
    | acquiring | withdrawn | confirming | settled => cases hsupervisor
    | supervised => trivial

/-- **The lease of an agent turn is released once, and its command executed once.** -/
theorem turn_releases_once (h : Steps Moves {} events t) :
    -- at most one release, and none before the confirmation and any worker have ended
    t.releases ≤ 1 ∧
    (∀ event t', Moves t event t' → t'.releases ≠ t.releases →
      t.confirmation.Ended ∧ t.supervisor.WorkerOver) ∧
    (t.releases = 1 → t.confirmation.Ended ∧ t.supervisor.Over) ∧
    -- only the approved command is executed, at most once
    (t.executed = [] ∨ ∃ command, t.confirmation.command = some command ∧
      t.executed = [command]) ∧
    -- in the end a lease that was acquired is released
    (t.Finished → t.confirmation ≠ .absent → t.releases = 1) ∧
    -- and an approved command executed, unless no worker could be created
    (∀ command, t.Finished → t.confirmation.command = some command →
      t.executed = [command] ∨ t.executed = [] ∧ ∃ e, .created (some e) ∈ events) ∧
    -- and there is an end
    (¬t.Finished → ∃ event t', event.isCancel = false ∧ Moves t event t') ∧
    events.countP (fun event => !event.isCancel) ≤ 10 := by
  have hstage := stage_of_run h
  refine ⟨?_, fun event t' hs hrelease => hstage.release_of_step hs hrelease, ?_, ?_, ?_, ?_,
    hstage.progress, ?_⟩
  · cases hstage with
    | acquiring | withdrawn | confirming => exact Nat.zero_le _
    | settled => exact Nat.le_refl _
    | supervised _ _ _ _ _ _ _ _ hsupervisor =>
      cases hsupervisor with
      | ended | abandoned => exact Nat.le_refl _
      | _ => exact Nat.zero_le _
  · intro hone
    cases hstage with
    | acquiring | withdrawn | confirming => cases hone
    | settled => exact ⟨trivial, trivial⟩
    | supervised _ _ _ _ _ _ _ _ hsupervisor =>
      refine ⟨trivial, ?_⟩
      cases hsupervisor with
      | ended | abandoned => trivial
      | _ => cases hone
  · cases hstage with
    | acquiring | withdrawn | confirming | settled => exact Or.inl rfl
    | supervised _ _ command _ _ _ _ hcommand hsupervisor =>
      cases hsupervisor with
      | scheduled | creating | notCreated | abandoned => exact Or.inl rfl
      | executing | closing | worked | ended => exact Or.inr ⟨command, hcommand, rfl⟩
  · intro hfinished hleased
    cases hstage with
    | acquiring | withdrawn => exact absurd rfl hleased
    | confirming _ _ hcaller => exact absurd hfinished.caller (not_ended_of_waiting hcaller)
    | settled => rfl
    | supervised _ _ _ _ _ _ _ _ hsupervisor =>
      cases hsupervisor with
      | ended | abandoned => rfl
      | _ => exact hfinished.supervisor.elim
  · intro command hfinished happroved
    cases hstage with
    | acquiring | withdrawn => cases happroved
    | confirming _ _ hcaller => exact absurd hfinished.caller (not_ended_of_waiting hcaller)
    | settled _ _ _ hnone =>
      rw [happroved] at hnone
      cases hnone
    | supervised _ _ command' _ _ _ _ hcommand hsupervisor =>
      have hsame : command' = command := Option.some.inj (hcommand.symm.trans happroved)
      subst hsame
      cases hsupervisor with
      | ended => exact Or.inl rfl
      | abandoned _ e he => exact Or.inr ⟨rfl, e, he⟩
      | _ => exact hfinished.supervisor.elim
  · have hle := run_bounded h
    exact (Nat.le_add_right _ _).trans hle

end

/-! ## Two turns -/

def reviewCommand : DialogueAgentTurnCommand :=
  { conversationId := 7
    capabilityCode := "agent.review"
    inputs := []
    principal := {}
    approvedDispatch :=
      { proposalId := "p", capabilityCode := "agent.review", dispatchKey := "agent.review" }
    call := { callId := "c", capabilityCode := "agent.review" } }

def approved : DialogueAgentTurnPreparation where
  command := some reviewCommand
  exactlyOne := by decide

def reviewed : DialogueAgentTurnResult := { status := .completed, message := "Agent 已完成执行。" }

/-- The caller is cancelled twice while `confirm` runs. -/
def cancelledRun : List Event :=
  [.granted, .cancel, .cancel, .confirmed (.ok approved), .resumed, .started, .created none,
    .executed (.ok reviewed), .closed none, .supervised]

def cancelledTurn : Turn :=
  { caller := .raised .cancelledError
    confirmation := .ended (.ok approved)
    supervisor := .ended (.ok reviewed)
    releases := 1
    executed := [reviewCommand] }

theorem turn_releases_once_cancelled :
    cancelledTurn.Finished ∧ cancelledTurn.releases = 1 := by
  have hrun : Steps Moves {} cancelledRun cancelledTurn := Steps.of_foldlM (f := step) rfl
  have hfinished : cancelledTurn.Finished := ⟨trivial, by simp [cancelledTurn], trivial⟩
  have honce := turn_releases_once hrun
  exact ⟨hfinished, honce.2.2.2.2.1 hfinished (by simp [cancelledTurn])⟩

/-- No worker can be created. -/
def abandonedRun : List Event :=
  [.granted, .confirmed (.ok approved), .resumed, .started, .created (some (.exception "OSError")),
    .supervised, .resumed]

def abandonedTurn : Turn :=
  { caller := .returned
      { status := .failed
        message := "Agent 调用暂时无法完成。"
        conversationId := some 7
        errorCode := some "DIALOGUE_AGENT_UNAVAILABLE" }
    confirmation := .ended (.ok approved)
    supervisor := .ended (guardWorker reviewCommand (.error (.exception "OSError")))
    releases := 1 }

/-- An approved command is not executed when the worker cannot be created. -/
theorem approved_not_executed :
    ∃ t events, Steps Moves {} events t ∧ t.Finished ∧
      t.confirmation.command = some reviewCommand ∧ t.executed = [] :=
  ⟨abandonedTurn, abandonedRun, Steps.of_foldlM (f := step) rfl,
    ⟨trivial, by simp [abandonedTurn], trivial⟩, rfl, rfl⟩

end GoAgent.Dialogue.AgentTurn
