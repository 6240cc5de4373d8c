import GoAgent.Tasks.Succession

/-!
# The facts of a settled task

A task that succeeded or failed shows a failure code and a result fingerprint, and so does the
attempt that settled it. Every command but one writes both sides alike. Recovery writes the code
but leaves the fingerprint of an earlier failure in place, so a task whose last lease expires can
end up failed with a fingerprint that its last attempt never reported.

* `facts_of_accepts` — one command keeps the facts in agreement exactly when it is not such a
  recovery.
* `facts_agree` — the facts agree in every run without one.
-/

namespace GoAgent.Tasks

open GoAgent.Foundation GoAgent.Tasks.Task GoAgent.Tasks.TaskAttempt

variable {t t' t₀ : Task} {call : Call} {k : Nat} {a a' : TaskAttempt} {rs : List Request}

/-- A settled task shows the facts of its last attempt. -/
def FactsAgree (t : Task) : Prop :=
  t.status = .succeeded ∨ t.status = .failed →
    ∃ a, t.attempts.getLast? = some a ∧ t.failureCode = a.failureCode ∧
      t.resultFingerprint = a.resultFingerprint

/-- The request recovers the last attempt the task had, while an earlier result is on show. -/
def Stale (t : Task) (r : Request) : Prop :=
  (∃ commandId retryAt attemptId, r.command = .recoverExpiredAttempt commandId retryAt attemptId) ∧
    t.status = .running ∧ t.maxAttempts ≤ t.attempts.length ∧ t.resultFingerprint ≠ none

theorem factsAgree_of_open (hs : t.status ≠ .succeeded ∧ t.status ≠ .failed) : FactsAgree t :=
  fun h => absurd h (by simp [hs])

/-- **One command.** From a task whose facts agree, a command leads to one whose facts agree
exactly when it is not a stale recovery. -/
theorem facts_of_accepts {r : Request} (hs : Sound t) (hlast : LastActive t) (ht : FactsAgree t)
    (h : Accepts t r t') : FactsAgree t' ↔ ¬Stale t r := by
  obtain ⟨c, call⟩ := r
  have heffect : Effect call t c t' := effect_of_execute h
  cases heffect with
  | renewAgain | confirmAgain | completeAgain | failAgain =>
    exact iff_of_true ht (by simp [Stale])
  | renew hn hholds =>
    have hlive := live_of_active hs hn.2 hholds.active
    refine iff_of_true (factsAgree_of_open ?_) (by simp [Stale])
    rcases hlive with hs | hs <;> simp [Task.put, hs]
  | claim | cancelWaiting | cancelRunning | confirm | failRetry | requeue | manualRetry =>
    exact iff_of_true (factsAgree_of_open (by simp)) (by simp [Stale])
  | complete _ hn hholds | fail _ hn hholds =>
    refine iff_of_true (fun _ => ?_) (by simp [Stale])
    exact ⟨_, getLast?_put hlast hn.2 hholds.active, rfl, rfl⟩
  | recover hlive _ ha _ hactive hout =>
    cases hout with
    | cancel hs =>
      exact iff_of_true (factsAgree_of_open (by simp)) (by simp [Stale, hs])
    | delayed _ hleft | requeued _ hleft =>
      exact iff_of_true (factsAgree_of_open (by simp)) fun h => Nat.not_le.2 hleft h.2.2.1
    | exhausted hs hleft =>
      have hrun : t.status = .running := hlive.resolve_right hs
      constructor
      · intro h hstale
        obtain ⟨b, hb, -, hfp⟩ := h (Or.inr rfl)
        rw [getLast?_put hlast ha hactive, Option.some.injEq] at hb
        rw [← hb] at hfp
        exact hstale.2.2.2 hfp
      · intro h _
        refine ⟨_, getLast?_put hlast ha hactive, rfl, ?_⟩
        by_contra hfp
        exact h ⟨⟨_, _, _, rfl⟩, hrun, hleft, hfp⟩

/-- **The facts of a settled task** are those of its last attempt, in every run without a stale
recovery; and such a recovery is exactly what makes them differ. -/
theorem facts_agree (h₀ : Created t₀)
    (h : Steps (Guarded Accepts fun t r => ¬Stale t r) t₀ rs t) :
    FactsAgree t ∧ ∀ r t', Accepts t r t' → (FactsAgree t' ↔ ¬Stale t r) := by
  have hinv : (Healthy t ∧ LastActive t) ∧ FactsAgree t := by
    refine Steps.invariant (P := fun t => (Healthy t ∧ LastActive t) ∧ FactsAgree t) ?_ h
      ⟨⟨healthy_of_created h₀, lastActive_of_created h₀⟩, ?_⟩
    · rintro t r t' ⟨⟨hh, hl⟩, ht⟩ ⟨hr, hgood⟩
      exact ⟨⟨healthy_of_execute hh hr, lastActive_of_effect hh.sound hl (effect_of_execute hr)⟩,
        (facts_of_accepts hh.sound hl ht hr).2 hgood⟩
    · exact factsAgree_of_open (by simp [(created_ok h₀).1])
  exact ⟨hinv.2, fun r t' hr => facts_of_accepts hinv.1.1.sound hinv.1.2 hinv.2 hr⟩

def completedTask : Task :=
  (play [⟨.complete 11 "tok1" "f1" "done", callAt 2⟩] claimedTask).get (by decide +kernel)

theorem facts_agree_completed : ∃ a, completedTask.attempts.getLast? = some a ∧
    completedTask.failureCode = a.failureCode ∧
    completedTask.resultFingerprint = a.resultFingerprint :=
  (facts_agree newTask_created (.cons ⟨claimedTask_accepted, by simp [Stale, firstClaim]⟩
    (.single ⟨accepts_of_play (Option.some_get _).symm, by simp [Stale]⟩))).1
    (Or.inl (by decide +kernel : completedTask.status = .succeeded))

/-- The first attempt fails, and the lease of the second one expires. -/
def expiredTwice : List Request :=
  [firstClaim, ⟨.fail 11 "tok1" .transient "BUSY" "f1" (some ⟨3, true⟩),
    callAt 2⟩, ⟨.requeueDue "again", callAt 3⟩, ⟨.claim "w2" "c2" "tok2" ⟨9, true⟩, callAt 4⟩,
    ⟨.recoverExpiredAttempt "late" none none, callAt 10⟩]

theorem expiredTwice_facts : (playNew expiredTwice).any (fun t => t.status = .failed ∧
    t.attempts.getLast?.bind TaskAttempt.resultFingerprint ≠ t.resultFingerprint) = true := by
  decide +kernel

theorem facts_disagree : ¬∀ t, Reachable Created Accepts t → FactsAgree t := by
  intro hall
  obtain ⟨t, ht, hfacts⟩ := (Option.any_eq_true _ _).1 expiredTwice_facts
  obtain ⟨hs, hne⟩ := of_decide_eq_true hfacts
  obtain ⟨a, ha, -, hfp⟩ := hall t (reachable_of_playNew ht) (Or.inr hs)
  rw [ha] at hne
  exact hne hfp.symm

end GoAgent.Tasks
