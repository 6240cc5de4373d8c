import Mathlib.Algebra.Order.Field.Rat
import Mathlib.Data.List.Basic
import Mathlib.Tactic.Linarith

/-!
# The rate of requests to a provider

`LlmRequestGovernor` fills a bucket of tokens at a steady rate, up to the burst, and takes one for
each request. The clock is read under the lock of the bucket, so that its readings come in order.
Seconds and tokens are rational numbers.

* `Bounded.take` — the tokens stay within the burst.
* `grants_until_le` — what is granted up to a time is paid for by the tokens and the refill.
* `rate_limited` — the bounds of any sequence of calls.
-/

namespace GoAgent.Llm.RequestGovernance

/-- `LlmRequestGovernanceConfig`, without the number of slots. -/
structure LlmRequestGovernanceConfig where
  requestsPerMinute : ℚ
  burst : Nat
  requests_pos : 0 < requestsPerMinute
  burst_pos : 1 ≤ burst

/-- `_tokens` and `_last_refill` -/
structure Bucket where
  tokens : ℚ
  lastRefill : ℚ

section Governor

variable (config : LlmRequestGovernanceConfig)

/-- Tokens a second. -/
def rate : ℚ := config.requestsPerMinute / 60

/-- The bucket of a new governor. -/
def fullBucket (start : ℚ) : Bucket := ⟨config.burst, start⟩

/-- The tokens after the refill. -/
def refilled (bucket : Bucket) (now : ℚ) : ℚ :=
  min config.burst (bucket.tokens + max 0 (now - bucket.lastRefill) * rate config)

/-- `_take_token_or_delay`, with the bucket it leaves -/
def takeTokenOrDelay (bucket : Bucket) (now : ℚ) : Bucket × Option ℚ :=
  if 1 ≤ refilled config bucket now then (⟨refilled config bucket now - 1, now⟩, none)
  else (⟨refilled config bucket now, now⟩, some ((1 - refilled config bucket now) / rate config))

/-- The bucket after calls at the given times. -/
def after (bucket : Bucket) (times : List ℚ) : Bucket :=
  times.foldl (fun bucket now => (takeTokenOrDelay config bucket now).1) bucket

/-- The times of the calls that are granted. -/
def grants : Bucket → List ℚ → List ℚ
  | _, [] => []
  | bucket, now :: times =>
    let (bucket', delay) := takeTokenOrDelay config bucket now
    if delay = none then now :: grants bucket' times else grants bucket' times

/-! ## One call -/

structure Bounded (bucket : Bucket) : Prop where
  nonneg : 0 ≤ bucket.tokens
  le_burst : bucket.tokens ≤ config.burst

variable {config} {bucket : Bucket} {now : ℚ}

theorem rate_pos : 0 < rate config := div_pos config.requests_pos (by norm_num)

theorem bounded_fullBucket (start : ℚ) : Bounded config (fullBucket config start) where
  nonneg := Nat.cast_nonneg config.burst
  le_burst := le_rfl

theorem refilled_le_burst : refilled config bucket now ≤ config.burst := min_le_left _ _

theorem refilled_nonneg (h : Bounded config bucket) : 0 ≤ refilled config bucket now := by
  have hadded : 0 ≤ max 0 (now - bucket.lastRefill) * rate config :=
    mul_nonneg (le_max_left _ _) rate_pos.le
  have htokens := h.nonneg
  apply le_min
  · exact Nat.cast_nonneg config.burst
  · linarith

/-- A refill adds what the time since the last one pays for. -/
theorem refilled_le (hclock : bucket.lastRefill ≤ now) :
    refilled config bucket now ≤ bucket.tokens + (now - bucket.lastRefill) * rate config := by
  have helapsed : max 0 (now - bucket.lastRefill) = now - bucket.lastRefill :=
    max_eq_right (by linarith)
  rw [refilled, helapsed]
  exact min_le_right _ _

theorem take_granted (h : 1 ≤ refilled config bucket now) :
    takeTokenOrDelay config bucket now = (⟨refilled config bucket now - 1, now⟩, none) := if_pos h

theorem take_delayed (h : ¬1 ≤ refilled config bucket now) :
    takeTokenOrDelay config bucket now =
      (⟨refilled config bucket now, now⟩, some ((1 - refilled config bucket now) / rate config)) :=
  if_neg h

/-- A call keeps the tokens within the burst. -/
theorem Bounded.take (h : Bounded config bucket) (now : ℚ) :
    Bounded config (takeTokenOrDelay config bucket now).1 := by
  have hnonneg : 0 ≤ refilled config bucket now := refilled_nonneg h
  have hburst : refilled config bucket now ≤ config.burst := refilled_le_burst
  by_cases hone : 1 ≤ refilled config bucket now
  · rw [take_granted hone]
    exact ⟨by linarith, by linarith⟩
  · rw [take_delayed hone]
    exact ⟨hnonneg, hburst⟩

/-- **The delay.** After the delay there is a token, when nobody else takes it. -/
theorem granted_after_delay {delay later : ℚ}
    (h : (takeTokenOrDelay config bucket now).2 = some delay) (hlater : now + delay ≤ later) :
    (takeTokenOrDelay config (takeTokenOrDelay config bucket now).1 later).2 = none := by
  by_cases hone : 1 ≤ refilled config bucket now
  · rw [take_granted hone] at h
    cases h
  · rw [take_delayed hone] at h ⊢
    have hdelay : (1 - refilled config bucket now) / rate config = delay := Option.some.inj h
    have hpaid : 1 - refilled config bucket now ≤ (later - now) * rate config := by
      rw [← div_le_iff₀ rate_pos, hdelay]
      linarith
    have hburst : (1 : ℚ) ≤ config.burst := by exact_mod_cast config.burst_pos
    have hmax : (later - now) * rate config ≤ max 0 (later - now) * rate config :=
      mul_le_mul_of_nonneg_right (le_max_right _ _) rate_pos.le
    have hfull : 1 ≤ refilled config ⟨refilled config bucket now, now⟩ later := by
      apply le_min hburst
      dsimp only
      linarith
    rw [take_granted hfull]

/-! ## Sequences of calls -/

theorem bounded_after (h : Bounded config bucket) (times : List ℚ) :
    Bounded config (after config bucket times) := by
  induction times generalizing bucket with
  | nil => exact h
  | cons now times ih => exact ih (h.take _)

variable {times : List ℚ} {s t : ℚ}

theorem grants_granted (h : 1 ≤ refilled config bucket now) :
    grants config bucket (now :: times) =
      now :: grants config ⟨refilled config bucket now - 1, now⟩ times := by
  rw [grants, take_granted h]
  rfl

theorem grants_delayed (h : ¬1 ≤ refilled config bucket now) :
    grants config bucket (now :: times) =
      grants config ⟨refilled config bucket now, now⟩ times := by
  rw [grants, take_delayed h]
  rfl

theorem grants_subset : ∀ g ∈ grants config bucket times, g ∈ times := by
  induction times generalizing bucket with
  | nil => exact fun _ hg => nomatch hg
  | cons now times ih =>
    intro g hg
    by_cases hone : 1 ≤ refilled config bucket now
    · rw [grants_granted hone] at hg
      rcases List.mem_cons.1 hg with rfl | hg
      · exact List.mem_cons_self
      · exact List.mem_cons_of_mem now (ih g hg)
    · rw [grants_delayed hone] at hg
      exact List.mem_cons_of_mem now (ih g hg)

/-- The grants up to a time. -/
def upTo (t : ℚ) (gs : List ℚ) : List ℚ := gs.filter fun g => g ≤ t

/-- The grants in a window. -/
def window (s t : ℚ) (gs : List ℚ) : List ℚ := gs.filter fun g => s ≤ g ∧ g ≤ t

theorem upTo_cons {g : ℚ} {gs : List ℚ} (h : g ≤ t) : upTo t (g :: gs) = g :: upTo t gs :=
  List.filter_cons_of_pos (decide_eq_true h)

theorem window_cons {g : ℚ} {gs : List ℚ} (hs : s ≤ g) (ht : g ≤ t) :
    window s t (g :: gs) = g :: window s t gs :=
  List.filter_cons_of_pos (decide_eq_true ⟨hs, ht⟩)

theorem window_cons_before {g : ℚ} {gs : List ℚ} (h : g < s) :
    window s t (g :: gs) = window s t gs := by
  apply List.filter_cons_of_neg
  rw [decide_eq_true_eq]
  exact fun hin => absurd hin.1 (not_le.2 h)

/-- Nothing is granted up to a time that is past. -/
theorem upTo_past (hclock : (now :: times).Pairwise (· ≤ ·)) (hpast : t < now) :
    upTo t (grants config bucket (now :: times)) = [] := by
  rw [upTo, List.filter_eq_nil_iff]
  intro g hg hle
  have hnow : now ≤ g := by
    rcases List.mem_cons.1 (grants_subset g hg) with rfl | hmem
    · exact le_rfl
    · exact List.rel_of_pairwise_cons hclock hmem
  have hle' : g ≤ t := of_decide_eq_true hle
  linarith

theorem length_window_le (gs : List ℚ) : (window s t gs).length ≤ (upTo t gs).length := by
  have hsub : window s t gs = (upTo t gs).filter fun g => s ≤ g := by
    rw [window, upTo, List.filter_filter]
    apply List.filter_congr
    intro g _
    rw [Bool.decide_and]
  rw [hsub]
  exact List.length_filter_le _ _

/-- **The account.** What is granted up to a time is paid for by the tokens there are and by the
refill until then. -/
theorem grants_until_le (h : Bounded config bucket)
    (hclock : (bucket.lastRefill :: times).Pairwise (· ≤ ·)) (t : ℚ) :
    ((upTo t (grants config bucket times)).length : ℚ) ≤
      bucket.tokens + max 0 (t - bucket.lastRefill) * rate config := by
  induction times generalizing bucket with
  | nil =>
    have hadded : 0 ≤ max 0 (t - bucket.lastRefill) * rate config :=
      mul_nonneg (le_max_left _ _) rate_pos.le
    have htokens := h.nonneg
    rw [grants, upTo, List.filter_nil, List.length_nil, Nat.cast_zero]
    linarith
  | cons now times ih =>
    have hnow : bucket.lastRefill ≤ now := List.rel_of_pairwise_cons hclock List.mem_cons_self
    by_cases hpast : t < now
    · have hadded : 0 ≤ max 0 (t - bucket.lastRefill) * rate config :=
        mul_nonneg (le_max_left _ _) rate_pos.le
      have htokens := h.nonneg
      rw [upTo_past hclock.of_cons hpast, List.length_nil, Nat.cast_zero]
      linarith
    · rw [not_lt] at hpast
      have hfill : refilled config bucket now ≤
          bucket.tokens + (now - bucket.lastRefill) * rate config := refilled_le hnow
      have hall : max 0 (t - bucket.lastRefill) = t - bucket.lastRefill :=
        max_eq_right (by linarith)
      have hlater : max 0 (t - now) = t - now := max_eq_right (by linarith)
      by_cases hone : 1 ≤ refilled config bucket now
      · have hbounded := h.take now
        rw [take_granted hone] at hbounded
        have hrest := ih hbounded hclock.of_cons
        dsimp only at hrest
        rw [hlater] at hrest
        rw [grants_granted hone, upTo_cons hpast, List.length_cons, Nat.cast_succ, hall]
        linarith
      · have hbounded := h.take now
        rw [take_delayed hone] at hbounded
        have hrest := ih hbounded hclock.of_cons
        dsimp only at hrest
        rw [hlater] at hrest
        rw [grants_delayed hone, hall]
        linarith

/-- **Windows.** No window has more grants than the burst and the refill over it. -/
theorem grants_window_le (h : Bounded config bucket)
    (hclock : (bucket.lastRefill :: times).Pairwise (· ≤ ·)) (hst : s ≤ t) :
    ((window s t (grants config bucket times)).length : ℚ) ≤
      config.burst + (t - s) * rate config := by
  have hwindow : 0 ≤ (t - s) * rate config := mul_nonneg (by linarith) rate_pos.le
  have hburst : (0 : ℚ) ≤ config.burst := Nat.cast_nonneg config.burst
  induction times generalizing bucket with
  | nil =>
    rw [grants, window, List.filter_nil, List.length_nil, Nat.cast_zero]
    linarith
  | cons now times ih =>
    by_cases hbefore : now < s
    · -- the window has not started
      by_cases hone : 1 ≤ refilled config bucket now
      · have hbounded := h.take now
        rw [take_granted hone] at hbounded
        rw [grants_granted hone, window_cons_before hbefore]
        exact ih hbounded hclock.of_cons
      · have hbounded := h.take now
        rw [take_delayed hone] at hbounded
        rw [grants_delayed hone]
        exact ih hbounded hclock.of_cons
    · rw [not_lt] at hbefore
      by_cases hpast : t < now
      · have hnone := length_window_le (s := s) (t := t) (grants config bucket (now :: times))
        rw [upTo_past hclock.of_cons hpast, List.length_nil, Nat.le_zero] at hnone
        rw [hnone, Nat.cast_zero]
        linarith
      · -- from the first call of the window on the account holds
        rw [not_lt] at hpast
        have hfull : refilled config bucket now ≤ config.burst := refilled_le_burst
        have hlater : max 0 (t - now) = t - now := max_eq_right (by linarith)
        have hshorter : (t - now) * rate config ≤ (t - s) * rate config :=
          mul_le_mul_of_nonneg_right (by linarith) rate_pos.le
        by_cases hone : 1 ≤ refilled config bucket now
        · have hbounded := h.take now
          rw [take_granted hone] at hbounded
          have hrest := grants_until_le hbounded hclock.of_cons t
          dsimp only at hrest
          rw [hlater] at hrest
          have hsub : ((window s t (grants config ⟨refilled config bucket now - 1, now⟩
              times)).length : ℚ) ≤ (upTo t (grants config
                ⟨refilled config bucket now - 1, now⟩ times)).length :=
            Nat.cast_le.2 (length_window_le _)
          rw [grants_granted hone, window_cons hbefore hpast, List.length_cons, Nat.cast_succ]
          linarith
        · have hbounded := h.take now
          rw [take_delayed hone] at hbounded
          have hrest := grants_until_le hbounded hclock.of_cons t
          dsimp only at hrest
          rw [hlater] at hrest
          have hsub : ((window s t (grants config ⟨refilled config bucket now, now⟩
              times)).length : ℚ) ≤ (upTo t (grants config
                ⟨refilled config bucket now, now⟩ times)).length :=
            Nat.cast_le.2 (length_window_le _)
          rw [grants_delayed hone]
          linarith

/-- **The rate.** In every sequence of calls, the tokens stay within the burst, no window has more
grants than the burst and the refill over it, and after the delay of a refused call the next one is
granted. -/
theorem rate_limited {start : ℚ} (hclock : (start :: times).Pairwise (· ≤ ·)) :
    (0 ≤ (after config (fullBucket config start) times).tokens ∧
      (after config (fullBucket config start) times).tokens ≤ config.burst) ∧
    (∀ s t, s ≤ t →
      ((window s t (grants config (fullBucket config start) times)).length : ℚ) ≤
        config.burst + (t - s) * (config.requestsPerMinute / 60)) ∧
    ∀ now delay later,
      (takeTokenOrDelay config (after config (fullBucket config start) times) now).2 = some delay →
        now + delay ≤ later →
          (takeTokenOrDelay config (takeTokenOrDelay config
            (after config (fullBucket config start) times) now).1 later).2 = none := by
  have hbounded : Bounded config (after config (fullBucket config start) times) :=
    bounded_after (bounded_fullBucket start) times
  refine ⟨⟨hbounded.nonneg, hbounded.le_burst⟩, fun s t hst => ?_, fun now delay later h hlater => ?_⟩
  · exact grants_window_le (bounded_fullBucket start) hclock hst
  · exact granted_after_delay h hlater

/-- One request a second, one at a time. -/
def secondly : LlmRequestGovernanceConfig where
  requestsPerMinute := 60
  burst := 1
  requests_pos := by norm_num
  burst_pos := le_rfl

theorem rate_limited_secondly :
    ((window 0 2 (grants secondly (fullBucket secondly 0) [0, 1, 1, 2])).length : ℚ) ≤
      1 + (2 - 0) * (60 / 60) :=
  (@rate_limited secondly [0, 1, 1, 2] 0 (by decide)).2.1 0 2 (by norm_num)

end Governor

end GoAgent.Llm.RequestGovernance
