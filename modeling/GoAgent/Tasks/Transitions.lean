import GoAgent.Tasks.Reissue

/-!
# The transitions in the log

The text of a transition begins with a tag that tells which command logged it, so what a log can
hold already is known from the status: a task that was not asked to cancel has no `cancel:` in its
log, and an attempt that is still active has no failure there. This is why the command that ends an
attempt always finds its transition new.

* `execute_logs` — a command logs under its own tag.
* `journal_of_reachable` — what the tags in the log say of the task.
-/

namespace GoAgent.Tasks

open GoAgent.Foundation GoAgent.Tasks.Task GoAgent.Tasks.TaskAttempt

variable {t t' t₀ t₁ : Task} {call : Call} {k : Nat} {a a' : TaskAttempt} {u : Unit}

/-! ## What a command logs -/

/-- What the text of a transition begins with. -/
def Tagged (tag transitionId : String) : Prop := tag.toList <+: transitionId.toList

/-- Every event the method adds satisfies `P`. -/
def Logs {α : Type} (P : String → Prop) (m : TaskM α) : Prop :=
  ∀ t a t', m t = .ok a t' → ∀ e ∈ t'.events, e ∈ t.events ∨ P e.transitionId

section Logging

variable {α β : Type} {P : String → Prop} {m : TaskM α} {f : α → TaskM β}

theorem logs_of_fixes (h : Fixes Task.events m) : Logs P m := by
  intro t a t' hm e he
  rw [(h t).1 a t' hm] at he
  exact Or.inl he

theorem logs_bind (hm : Logs P m) (hf : ∀ a, Logs P (f a)) : Logs P (m >>= f) := by
  intro t b t' h e he
  obtain ⟨a, u, hu, ht⟩ := bind_ok.1 h
  rcases hf a u b t' ht e he with he | he
  · exact hm t a u hu e he
  · exact Or.inr he

theorem logs_fixes_bind (hm : Fixes Task.events m) (hf : ∀ a, Logs P (f a)) : Logs P (m >>= f) :=
  logs_bind (logs_of_fixes hm) hf

theorem logs_lift_bind {y : Except TaskError α} (hf : ∀ a, y = .ok a → Logs P (f a)) :
    Logs P (lift y >>= f) := by
  intro t b t' h e he
  obtain ⟨a, u, hu, ht⟩ := bind_ok.1 h
  obtain ⟨hy, rfl⟩ := lift_ok.1 hu
  exact hf a hy u b t' ht e he

theorem logs_get_bind {f : Task → TaskM β} (hf : ∀ t, Logs P (f t)) : Logs P (get >>= f) :=
  logs_fixes_bind fixes_get hf

theorem logs_check_bind {p : Prop} [Decidable p] {e : TaskError} {f : Unit → TaskM β}
    (hf : Logs P (f ())) : Logs P (check p e >>= f) :=
  logs_fixes_bind fixes_check fun _ => hf

theorem logs_modify_bind {g : Task → Task} {f : Unit → TaskM β} (hg : ∀ t, (g t).events = t.events)
    (hf : Logs P (f ())) : Logs P ((modify g : TaskM Unit) >>= f) :=
  logs_fixes_bind (fixes_modify hg) fun _ => hf

theorem logs_appendEvent {transitionId : String} {ty : TaskEventType} {metadata : Metadata}
    (h : P (strip transitionId)) : Logs P (appendEvent call transitionId ty metadata) := by
  intro t _ t' ha e he
  obtain ⟨-, e', htakes, rfl⟩ := appendEvent_ok.1 ha
  rcases List.mem_append.1 he with he | he
  · exact Or.inl he
  · obtain ⟨-, -, -, metadata', -, rfl⟩ := TaskEvent.make_ok.1 htakes.2
    rw [List.mem_singleton.1 he]
    right
    simpa [nextEvent] using h

theorem fixes_validate {τ : Type} {g : Task → τ} : Fixes g validateInvariants :=
  fixes_bind fixes_get fun _ => fixes_lift

theorem fixes_onAttempt {α : Type} {method : AttemptM α} :
    Fixes Task.events (onAttempt k method) := by
  intro t
  unfold onAttempt
  cases t.attempts[k]? with
  | none => simp
  | some a => cases h : method a <;> simp_all

theorem logs_recorded {transitionId : String} {ty : TaskEventType} {metadata : Metadata}
    (h : P (strip transitionId)) :
    Logs P (do appendEvent call transitionId ty metadata; validateInvariants) :=
  logs_bind (logs_appendEvent h) fun _ => logs_of_fixes fixes_validate

theorem tagged_strip {tag rest : String} (h : tag.toList.any isSpace = false) :
    Tagged tag (strip (tag ++ rest)) := by
  refine prefix_strip fun c hc => ?_
  simpa using List.any_eq_false.1 h c hc

end Logging

theorem claim_logs {workerId claimId leaseToken : String} {leaseExpiresAt : DateTime} :
    Logs (Tagged "claim:") (claim workerId claimId leaseToken leaseExpiresAt call) := by
  refine logs_lift_bind fun now _ => logs_get_bind fun t => ?_
  refine logs_check_bind <| logs_check_bind <| logs_check_bind <| logs_lift_bind fun a _ => ?_
  refine logs_modify_bind (fun _ => rfl) <| logs_modify_bind (fun _ => rfl) <|
    logs_modify_bind (fun _ => rfl) ?_
  refine logs_bind (logs_appendEvent (tagged_strip (by decide))) fun _ => ?_
  exact logs_of_fixes (fixes_bind fixes_validate fun _ => fixes_pure)

theorem renewLease_logs {attemptId : UUID} {leaseToken : String} {renewalSequence : Int}
    {leaseExpiresAt : DateTime} : Logs (fun _ => False)
      (renewLease attemptId leaseToken renewalSequence leaseExpiresAt call) := by
  refine logs_get_bind fun t => logs_lift_bind fun k _ => logs_lift_bind fun a _ => ?_
  refine logs_check_bind <| logs_check_bind <| logs_lift_bind fun active _ => logs_check_bind ?_
  exact logs_of_fixes (fixes_bind fixes_onAttempt fun _ => fixes_bind fixes_get fun _ => fixes_lift)

theorem requestCancel_logs {commandId : String} :
    Logs (Tagged "cancel:") (requestCancel commandId call) := by
  refine logs_lift_bind fun now _ => logs_lift_bind fun command _ => logs_get_bind fun t => ?_
  have hlog {ty : TaskEventType} {m : Metadata} :
      Logs (Tagged "cancel:") (do
        appendEvent call ("cancel:" ++ command) ty m
        validateInvariants) :=
    logs_recorded (tagged_strip (by decide))
  split_ifs
  · exact logs_modify_bind (fun _ => rfl) <| logs_modify_bind (fun _ => rfl) <|
      logs_modify_bind (fun _ => rfl) hlog
  · exact logs_modify_bind (fun _ => rfl) <| logs_modify_bind (fun _ => rfl) <|
      logs_modify_bind (fun _ => rfl) hlog
  · exact logs_of_fixes (fixes_bind fixes_throw fun _ => fixes_validate)

theorem fixes_assertActiveLease {leaseToken : String} :
    Fixes Task.events (assertActiveLease k leaseToken call) :=
  fixes_bind fixes_get fun _ => fixes_bind fixes_lift fun _ => fixes_bind fixes_check fun _ =>
    fixes_onAttempt

theorem confirmCancel_logs {attemptId : UUID} {leaseToken : String} :
    Logs (Tagged "cancelled:") (confirmCancel attemptId leaseToken call) := by
  refine logs_get_bind fun t => logs_lift_bind fun k _ => logs_lift_bind fun a _ => ?_
  split_ifs
  · exact logs_lift_bind fun token _ => logs_of_fixes fixes_check
  · refine logs_check_bind <| logs_check_bind <| logs_fixes_bind fixes_assertActiveLease fun _ => ?_
    refine logs_lift_bind fun now _ => logs_fixes_bind fixes_onAttempt fun _ => ?_
    refine logs_modify_bind (fun _ => rfl) <| logs_modify_bind (fun _ => rfl) ?_
    exact logs_recorded (tagged_strip (by decide))

theorem fixes_assertSameTerminalResult {leaseToken fingerprint : String} {τ : Type}
    {g : Task → τ} : Fixes g (assertSameTerminalResult a leaseToken fingerprint) :=
  fixes_bind fixes_lift fun _ => fixes_bind fixes_check fun _ => fixes_check

theorem complete_logs {attemptId : UUID} {leaseToken fingerprint summary : String} :
    Logs (Tagged "succeeded:") (complete attemptId leaseToken fingerprint summary call) := by
  refine logs_get_bind fun t => logs_lift_bind fun k _ => logs_lift_bind fun a _ => ?_
  refine logs_lift_bind fun _ _ => ?_
  split_ifs
  · exact logs_of_fixes fixes_assertSameTerminalResult
  · refine logs_check_bind <| logs_check_bind <| logs_fixes_bind fixes_assertActiveLease fun _ => ?_
    refine logs_lift_bind fun now _ => logs_lift_bind fun _ _ => ?_
    refine logs_fixes_bind fixes_onAttempt fun _ => ?_
    refine logs_modify_bind (fun _ => rfl) <| logs_modify_bind (fun _ => rfl) <|
      logs_modify_bind (fun _ => rfl) <| logs_modify_bind (fun _ => rfl) <|
      logs_modify_bind (fun _ => rfl) ?_
    rw [String.append_assoc, String.append_assoc]
    exact logs_recorded (tagged_strip (by decide))

/-- What the transitions of an attempt's failures begin with. -/
def failTag (attemptId : UUID) : String := "failed:" ++ uuidText attemptId ++ ":"

theorem digit_of_mem_uuidText {id : UUID} {c : Char} (hc : c ∈ (uuidText id).toList) :
    c.isDigit = true := by
  have hdigits : (uuidText id).toList = Nat.toDigits 10 id := Nat.toList_repr
  rw [hdigits] at hc
  exact Nat.isDigit_of_mem_toDigits (by decide) (by decide) hc

theorem uuidText_inj {id id' : UUID} (h : (uuidText id).toList = (uuidText id').toList) :
    id = id' := by
  have hdigits (i : UUID) : (uuidText i).toList = Nat.toDigits 10 i := Nat.toList_repr
  rw [hdigits, hdigits] at h
  rw [← Nat.ofDigitChars_ten_toDigits (n := id), h, Nat.ofDigitChars_ten_toDigits]

theorem not_isSpace_failTag {id : UUID} : (failTag id).toList.any isSpace = false := by
  have hdigits : (uuidText id).toList.any isSpace = false := by
    rw [List.any_eq_false]
    intro c hc
    have hdigit := digit_of_mem_uuidText hc
    simp only [Char.isDigit, Bool.and_eq_true, decide_eq_true_eq, UInt32.le_iff_toNat_le] at hdigit
    have hcode : isDigit c = true := by
      simp only [isDigit, Bool.and_eq_true, decide_eq_true_eq]
      exact hdigit
    simp [not_isSpace_of_isAlnum (c := c) (by simp [isAlnum, hcode])]
  simp only [failTag, String.toList_append, List.any_append, hdigits]
  decide

theorem names_id {attemptId : UUID} (h : t.Names attemptId k a) : a.id = attemptId := by
  obtain ⟨hk, ha⟩ := h
  unfold findAttempt at hk
  split at hk
  · next j hj =>
    obtain rfl := except_pure_ok.1 hk
    obtain ⟨hlt, hid, -⟩ := List.findIdx?_eq_some_iff_getElem.1 hj
    obtain ⟨_, rfl⟩ := List.getElem?_eq_some_iff.1 ha
    exact of_decide_eq_true hid
  · cases hk

theorem fail_logs {attemptId : UUID} {leaseToken : String} {category : FailureCategory}
    {code fingerprint : String} {retryAt : Option DateTime} :
    Logs (Tagged (failTag attemptId))
      (fail attemptId leaseToken category code fingerprint retryAt call) := by
  refine logs_get_bind fun t => logs_lift_bind fun k hk => logs_lift_bind fun a ha => ?_
  have hid : a.id = attemptId := names_id (findAttempt_names hk ha)
  refine logs_lift_bind fun shown _ => ?_
  have hlog {ty : TaskEventType} {m : Metadata} : Logs (Tagged (failTag attemptId))
      (do
        appendEvent call ("failed:" ++ uuidText a.id ++ ":" ++ shown) ty m
        validateInvariants) := by
    rw [hid]
    exact logs_recorded (tagged_strip not_isSpace_failTag)
  split_ifs
  · exact logs_of_fixes fixes_assertSameTerminalResult
  · refine logs_check_bind <| logs_check_bind <| logs_fixes_bind fixes_assertActiveLease fun _ => ?_
    refine logs_lift_bind fun now _ => logs_lift_bind fun _ _ => logs_lift_bind fun retry _ => ?_
    refine logs_fixes_bind fixes_onAttempt fun _ => ?_
    refine logs_modify_bind (fun _ => rfl) <| logs_modify_bind (fun _ => rfl) <|
      logs_modify_bind (fun _ => rfl) <| logs_modify_bind (fun _ => rfl) ?_
    cases retry with
    | some time =>
      exact logs_modify_bind (fun _ => rfl) <| logs_modify_bind (fun _ => rfl) hlog
    | none => exact logs_modify_bind (fun _ => rfl) hlog

theorem requeueDue_logs {commandId : String} :
    Logs (Tagged "requeue:") (requeueDue commandId call) := by
  refine logs_lift_bind fun now _ => logs_get_bind fun t => logs_check_bind <| logs_check_bind ?_
  refine logs_modify_bind (fun _ => rfl) <| logs_modify_bind (fun _ => rfl) <|
    logs_modify_bind (fun _ => rfl) <| logs_lift_bind fun command _ => ?_
  exact logs_recorded (tagged_strip (by decide))

theorem requestManualRetry_logs {commandId : String} :
    Logs (Tagged "manual-retry:") (requestManualRetry commandId call) := by
  refine logs_lift_bind fun now _ => logs_get_bind fun t => logs_check_bind <| logs_check_bind ?_
  refine logs_modify_bind (fun _ => rfl) <| logs_modify_bind (fun _ => rfl) <|
    logs_modify_bind (fun _ => rfl) <| logs_modify_bind (fun _ => rfl) <|
    logs_modify_bind (fun _ => rfl) <| logs_lift_bind fun command _ => ?_
  exact logs_recorded (tagged_strip (by decide))

theorem fixes_recoverOutcome {retryAt : Option DateTime} {now : DateTime} :
    Fixes Task.events (recoverOutcome retryAt now) := by
  refine fixes_bind fixes_get fun t => ?_
  have hput {time : DateTime} {s : TaskStatus} : Fixes Task.events (do
      (modify fun t : Task => { t with availableAt := time } : TaskM Unit)
      pure s) := fixes_bind (fixes_modify fun _ => rfl) fun _ => fixes_pure
  split_ifs
  · exact fixes_pure
  · exact fixes_bind (fixes_modify fun _ => rfl) fun _ => fixes_pure
  · cases retryAt with
    | none => exact hput
    | some time =>
      refine fixes_bind fixes_lift fun time => ?_
      split_ifs
      · exact hput
      · exact hput

theorem recoverExpiredAttempt_logs {commandId : String} {retryAt : Option DateTime}
    {attemptId : Option UUID} :
    Logs (Tagged "recovered:") (recoverExpiredAttempt commandId retryAt attemptId call) := by
  refine logs_lift_bind fun now _ => logs_get_bind fun t => logs_check_bind ?_
  refine logs_lift_bind fun active _ => ?_
  cases active with
  | none => exact logs_of_fixes fixes_throw
  | some k =>
    refine logs_lift_bind fun a _ => logs_check_bind <| logs_check_bind ?_
    refine logs_fixes_bind fixes_onAttempt fun _ => logs_fixes_bind fixes_recoverOutcome fun _ => ?_
    refine logs_modify_bind (fun _ => rfl) <| logs_modify_bind (fun _ => rfl) <|
      logs_lift_bind fun command _ => ?_
    exact logs_recorded (tagged_strip (by decide))

/-- What the transition a command logs begins with. -/
def TaskCommand.tag : TaskCommand → Option String
  | .claim .. => some "claim:"
  | .renewLease .. => none
  | .requestCancel .. => some "cancel:"
  | .confirmCancel .. => some "cancelled:"
  | .complete .. => some "succeeded:"
  | .fail .. => some "failed:"
  | .requeueDue .. => some "requeue:"
  | .requestManualRetry .. => some "manual-retry:"
  | .recoverExpiredAttempt .. => some "recovered:"

theorem logs_discard {α : Type} {P : String → Prop} {m : TaskM α} (h : Logs P m) :
    Logs P (discard m) := by
  intro t _ t' hm
  obtain ⟨a, ha⟩ := discard_ok.1 hm
  exact h t a t' ha

theorem Logs.mono {α : Type} {P Q : String → Prop} {m : TaskM α} (h : Logs P m)
    (hPQ : ∀ s, P s → Q s) : Logs Q m :=
  fun t a t' hm e he => (h t a t' hm e he).imp_right (hPQ _)

theorem tagged_failed {attemptId : UUID} {s : String} (h : Tagged (failTag attemptId) s) :
    Tagged "failed:" s := by
  refine List.IsPrefix.trans ?_ h
  simp only [failTag, String.append_assoc, String.toList_append]
  exact List.prefix_append _ _

theorem execute_logs (r : Request) :
    Logs (fun s => ∃ tag, r.command.tag = some tag ∧ Tagged tag s) (execute r) := by
  obtain ⟨command, call⟩ := r
  cases command with
  | claim => exact (logs_discard claim_logs).mono fun _ h => ⟨_, rfl, h⟩
  | renewLease => exact (logs_discard renewLease_logs).mono fun _ h => h.elim
  | requestCancel => exact requestCancel_logs.mono fun _ h => ⟨_, rfl, h⟩
  | confirmCancel => exact confirmCancel_logs.mono fun _ h => ⟨_, rfl, h⟩
  | complete => exact complete_logs.mono fun _ h => ⟨_, rfl, h⟩
  | fail =>
    exact fail_logs.mono fun _ h => ⟨_, rfl, tagged_failed h⟩
  | requeueDue => exact requeueDue_logs.mono fun _ h => ⟨_, rfl, h⟩
  | requestManualRetry => exact requestManualRetry_logs.mono fun _ h => ⟨_, rfl, h⟩
  | recoverExpiredAttempt => exact recoverExpiredAttempt_logs.mono fun _ h => ⟨_, rfl, h⟩

/-! ## What the tags say -/

/-- What the tags in the log say of the task. -/
structure Journal (t : Task) : Prop where
  cancel : ∀ e ∈ t.events, Tagged "cancel:" e.transitionId →
    t.status = .cancelRequested ∨ t.status = .cancelled
  cancelled : ∀ e ∈ t.events, Tagged "cancelled:" e.transitionId → t.status = .cancelled
  succeeded : ∀ e ∈ t.events, Tagged "succeeded:" e.transitionId → t.status = .succeeded
  failed : ∀ e ∈ t.events, ∀ attemptId, Tagged (failTag attemptId) e.transitionId →
    ∃ k a, t.Names attemptId k a ∧ ¬a.isActive

def tags : List String :=
  ["create:", "claim:", "cancel:", "cancelled:", "succeeded:", "failed:", "requeue:",
    "manual-retry:", "recovered:"]

/-- A text has one tag only. -/
theorem tag_unique {p q s : String} (hp : p ∈ tags) (hq : q ∈ tags) (hps : Tagged p s)
    (hqs : Tagged q s) : p = q := by
  have hfree : ∀ p ∈ tags, ∀ q ∈ tags, p.toList <+: q.toList → p = q := by decide +kernel
  rcases List.prefix_or_prefix_of_prefix hps hqs with h | h
  · exact hfree p hp q hq h
  · exact (hfree q hq p hp h).symm

theorem tag_mem {c : TaskCommand} {tag : String} (h : c.tag = some tag) : tag ∈ tags := by
  cases c <;> simp_all [TaskCommand.tag, tags]

/-- The tag of a failure tells the attempt. -/
theorem failTag_unique {i j : UUID} {s : String} (hi : Tagged (failTag i) s)
    (hj : Tagged (failTag j) s) : i = j := by
  have hdigits (i : UUID) (rest : List Char) :
      ((uuidText i).toList ++ ':' :: rest).takeWhile Char.isDigit = (uuidText i).toList := by
    rw [List.takeWhile_append_of_pos fun c hc => digit_of_mem_uuidText hc,
      List.takeWhile_cons_of_neg (by decide), List.append_nil]
  have hsplit (i : UUID) (rest : List Char) : (failTag i).toList ++ rest =
      "failed:".toList ++ ((uuidText i).toList ++ ':' :: rest) := by
    simp [failTag]
  obtain ⟨x, hx⟩ := hi
  obtain ⟨y, hy⟩ := hj
  rw [← hy, hsplit, hsplit] at hx
  have hrest := List.append_cancel_left hx
  apply uuidText_inj
  rw [← hdigits i x, hrest, hdigits]

/-- An event with the tag was logged before, or by the command of the tag. -/
theorem logged_or {r : Request} {tag : String} (htag : tag ∈ tags) (h : Accepts t r t')
    {e : TaskEvent} (he : e ∈ t'.events) (hte : Tagged tag e.transitionId) :
    e ∈ t.events ∨ r.command.tag = some tag := by
  rcases execute_logs r t () t' h e he with he | ⟨p, hp, hpe⟩
  · exact Or.inl he
  · exact Or.inr (tag_unique (tag_mem hp) htag hpe hte ▸ hp)

/-- A settled attempt keeps its name. -/
theorem names_of_effect {c : TaskCommand} {attemptId : UUID} (h : Effect call t c t')
    (hn : t.Names attemptId k a) (hsettled : ¬a.isActive) : t'.Names attemptId k a := by
  have hsucc := attempts_of_effect h
  refine ⟨findAttempt_extended ?_ hn.1, settled_of_succeeds hsucc hn.2 hsettled⟩
  exact columns_of_succeeds (fun _ _ h => h.id) hsucc

/-- An attempt that a command reported as failed is settled. -/
theorem failed_of_effect {attemptId : UUID} {leaseToken : String} {category : FailureCategory}
    {code fingerprint : String} {retryAt : Option DateTime}
    (h : Effect call t (.fail attemptId leaseToken category code fingerprint retryAt) t') :
    ∃ k a, t'.Names attemptId k a ∧ ¬a.isActive := by
  cases h with
  | failAgain hs ha => exact ⟨_, _, ha.names, by simp [TaskAttempt.isActive, ha.status]⟩
  | failRetry _ hn | fail _ hn =>
    exact ⟨_, _, names_put hn continues_finished, by simp [TaskAttempt.isActive, finished]⟩

theorem journal_of_accepts {r : Request} (hj : Journal t) (h : Accepts t r t') : Journal t' := by
  have heffect : Effect r.call t r.command t' := effect_of_execute h
  have hkept (hs : t.status.next = []) : t'.status = t.status :=
    (status_of_effect heffect).resolve_right (by simp [hs])
  refine ⟨?_, ?_, ?_, ?_⟩
  · intro e he htag
    rcases logged_or (by decide) h he htag with hold | hnew
    · rcases hj.cancel e hold htag with hs | hs
      · have hnext := status_of_effect heffect
        rw [hs] at hnext
        simpa [TaskStatus.next] using hnext
      · exact Or.inr ((hkept (by rw [hs]; rfl)).trans hs)
    · obtain ⟨command, call⟩ := r
      cases heffect <;> simp_all [TaskCommand.tag]
  · intro e he htag
    rcases logged_or (by decide) h he htag with hold | hnew
    · have hs := hj.cancelled e hold htag
      exact (hkept (by rw [hs]; rfl)).trans hs
    · obtain ⟨command, call⟩ := r
      cases heffect <;> simp_all [TaskCommand.tag]
  · intro e he htag
    rcases logged_or (by decide) h he htag with hold | hnew
    · have hs := hj.succeeded e hold htag
      exact (hkept (by rw [hs]; rfl)).trans hs
    · obtain ⟨command, call⟩ := r
      cases heffect <;> simp_all [TaskCommand.tag]
  · intro e he attemptId htag
    rcases logged_or (by decide) h he (tagged_failed htag) with hold | hnew
    · obtain ⟨k, a, hn, hsettled⟩ := hj.failed e hold attemptId htag
      exact ⟨k, a, names_of_effect heffect hn hsettled, hsettled⟩
    · obtain ⟨command, call⟩ := r
      cases command with
      | fail id leaseToken category code fingerprint retryAt =>
        rcases fail_logs t () t' h e he with hold | hid
        · obtain ⟨k, a, hn, hsettled⟩ := hj.failed e hold attemptId htag
          exact ⟨k, a, names_of_effect heffect hn hsettled, hsettled⟩
        · rw [failTag_unique htag hid]
          exact failed_of_effect heffect
      | _ => simp [TaskCommand.tag] at hnew

theorem tagged_of_created (h : Created t) : ∀ e ∈ t.events, Tagged "create:" e.transitionId := by
  obtain ⟨_, _, _, _, _, _, _, _, _, h⟩ := h
  simp only [create, except_bind_ok, exists_unit, requireUtc_ok, requireText_ok, require_ok,
    except_pure_ok] at h
  obtain ⟨_, -, _, -, _, -, _, -, _, -, -, -, -, transitionId, ⟨-, rfl⟩, e, he, rfl⟩ := h
  obtain ⟨-, -, -, _, -, rfl⟩ := TaskEvent.make_ok.1 he
  simp only [List.mem_singleton, forall_eq, nextEvent, strip_strip]
  exact tagged_strip (by decide)

theorem journal_of_created (h : Created t) : Journal t := by
  have htags := tagged_of_created h
  have hno {tag : String} (htag : tag ∈ tags) (hne : "create:" ≠ tag) :
      ∀ e ∈ t.events, ¬Tagged tag e.transitionId :=
    fun e he h => hne (tag_unique (by decide) htag (htags e he) h)
  refine ⟨?_, ?_, ?_, ?_⟩
  · intro e he h
    exact absurd h (hno (by decide) (by decide) e he)
  · intro e he h
    exact absurd h (hno (by decide) (by decide) e he)
  · intro e he h
    exact absurd h (hno (by decide) (by decide) e he)
  · intro e he attemptId h
    exact absurd (tagged_failed h) (hno (by decide) (by decide) e he)

theorem journal_of_reachable (h : Reachable Created Accepts t) : Journal t :=
  h.invariant (fun h => journal_of_created h) fun hj h => journal_of_accepts hj h

end GoAgent.Tasks
