import GoAgent.Tender.Chunked

/-!
# The calls of a chunked analysis

Whatever the model answers and however long it takes, the calls stay within the budget: an
`Account` says that no more than `max_llm_calls` were made, no more than `max_retries + 1` of them
for one target, and none for a target still pending. The targets are taken in order, so every
loop hands the account on with fewer targets pending.

* `attempts_spec` — one target takes at most its attempts, and an answer it returns was accepted.
* `analyzeChunks_spec`, `mergeLevel_spec`, `mergeLoop_spec` — the loops keep the account.
* `chunked_within_budget` — the analysis of a plan that has a chunk ends within its budget, and
  with an accepted answer for every chunk if it returns one.
* `empty_plan_never_ends` — without a chunk the merge loop has nothing to merge, and goes on.
-/

namespace GoAgent.Tender

open GoAgent.Foundation

/-! ## One target stays within its attempts -/

section

variable {p : Provider} {budget : TenderAnalysisBudget} {target : Target}
  {validator : StructuredLlmResult → Except Raised Unit} {started : Int} {callCount : Nat}
  {s s' : Spent}

/-- The state a computation leaves behind, however it ends. -/
def leaves {ε σ α : Type} : EStateM.Result ε σ α → σ
  | .ok _ s => s
  | .error _ s => s

/-- What a step of the calls leaves: more calls of the target, within the budget of calls. -/
structure Adds (budget : TenderAnalysisBudget) (target : Target) (most : Nat) (s s' : Spent) :
    Prop where
  calls : ∃ j ≤ most, s'.calls = s.calls ++ List.replicate j target
  within : s'.calls.length ≤ budget.maxLlmCalls

/-- **One target takes at most its attempts**, and an answer it returns was accepted. -/
theorem attempts_spec (p : Provider) (target : Target)
    (validator : StructuredLlmResult → Except Raised Unit) (started : Int) (n : Nat)
    (lastError : Option Raised) (hcount : callCount = s.calls.length)
    (hmax : callCount ≤ budget.maxLlmCalls) :
    Adds budget target n s
      (leaves (attempts p budget target validator started n callCount lastError s)) ∧
    ∀ result c s', attempts p budget target validator started n callCount lastError s =
        .ok (result, c) s' →
      c = s'.calls.length ∧ s.calls.length < c ∧ s'.calls[c - 1]? = some target ∧
        accept budget validator (p.reply (c - 1)) = .ok result := by
  induction n generalizing s callCount lastError with
  | zero =>
    refine ⟨⟨⟨0, Nat.le_refl 0, (List.append_nil _).symm⟩, hcount ▸ hmax⟩, ?_⟩
    intro result c s' h
    cases h
  | succ n ih =>
    have hsame : ∀ r, Adds budget target (n + 1) s { s with readings := r } := fun r =>
      ⟨⟨0, Nat.zero_le _, (List.append_nil _).symm⟩, hcount ▸ hmax⟩
    by_cases htime : p.clock s.readings - started ≤ budget.maxTotalSeconds
    swap
    · have hrun : attempts p budget target validator started (n + 1) callCount lastError s =
          .error (.analysis "招标分析总耗时超过请求预算。")
            { s with readings := s.readings + 1 } := by
        unfold attempts
        rw [bind_of_ok (show perfCounter p s = .ok _ _ from rfl), bind_of_error (check_of_not htime)]
      rw [hrun]
      exact ⟨hsame _, fun _ _ _ h => by cases h⟩
    by_cases hcalls : callCount + 1 ≤ budget.maxLlmCalls
    swap
    · have hrun : attempts p budget target validator started (n + 1) callCount lastError s =
          .error (.analysis "招标分析调用次数超过请求预算。")
            { s with readings := s.readings + 1 } := by
        unfold attempts
        rw [bind_of_ok (show perfCounter p s = .ok _ _ from rfl),
          bind_of_ok (a := ()) (check_ok.2 ⟨htime, rfl⟩), bind_of_error (check_of_not hcalls)]
      rw [hrun]
      exact ⟨hsame _, fun _ _ _ h => by cases h⟩
    · let s₁ : Spent := { calls := s.calls ++ [target], readings := s.readings + 1 }
      have hlen : s₁.calls.length = s.calls.length + 1 := by simp [s₁]
      have hrun : attempts p budget target validator started (n + 1) callCount lastError s =
          settleAttempt (fun e => attempts p budget target validator started n (callCount + 1)
            (some e)) (callCount + 1) (accept budget validator (p.reply s.calls.length)) s₁ := by
        conv_lhs => unfold attempts
        rw [bind_of_ok (show perfCounter p s = .ok _ _ from rfl),
          bind_of_ok (a := ()) (check_ok.2 ⟨htime, rfl⟩), bind_of_ok (a := ()) (check_ok.2 ⟨hcalls, rfl⟩)]
        rfl
      have hone : Adds budget target (n + 1) s s₁ := ⟨⟨1, by omega, rfl⟩, by omega⟩
      -- an answer that is refused leaves the remaining attempts
      have hretry : ∀ e : Raised, attempts p budget target validator started (n + 1) callCount
          lastError s = attempts p budget target validator started n (callCount + 1) (some e) s₁ →
          Adds budget target (n + 1) s
            (leaves (attempts p budget target validator started (n + 1) callCount lastError s)) ∧
          ∀ result c s', attempts p budget target validator started (n + 1) callCount lastError s =
              .ok (result, c) s' →
            c = s'.calls.length ∧ s.calls.length < c ∧ s'.calls[c - 1]? = some target ∧
              accept budget validator (p.reply (c - 1)) = .ok result := by
        intro e he
        obtain ⟨⟨⟨j, hj, hcalls'⟩, hwithin⟩, hok⟩ :=
          ih (some e) (by omega : callCount + 1 = s₁.calls.length) hcalls
        rw [he]
        refine ⟨⟨⟨j + 1, by omega, ?_⟩, hwithin⟩, fun r c s' h => ?_⟩
        · rw [hcalls', List.replicate_succ, List.append_assoc, List.singleton_append]
        · obtain ⟨hc, hlt, hlast, haccept⟩ := hok r c s' h
          exact ⟨hc, by omega, hlast, haccept⟩
      cases haccept : accept budget validator (p.reply s.calls.length) with
      | ok result =>
        rw [haccept] at hrun
        rw [hrun]
        refine ⟨hone, fun r c s' h => ?_⟩
        cases h
        have hindex : callCount + 1 - 1 = s.calls.length := by omega
        refine ⟨by omega, by omega, ?_, ?_⟩
        · simp [hindex, s₁]
        · rw [hindex, haccept]
      | error e =>
        rw [haccept] at hrun
        cases e with
        | notConfigured message =>
          rw [hrun]
          exact ⟨hone, fun _ _ _ h => by cases h⟩
        | upstream message => exact hretry _ hrun
        | other typeName message => exact hretry _ hrun

/-! ## Accounts -/

/-- The calls made so far keep the budget, and none is for a pending target. -/
structure Account (budget : TenderAnalysisBudget) (pending : Target → Prop) (s : Spent) :
    Prop where
  total : s.calls.length ≤ budget.maxLlmCalls
  each : ∀ t, s.calls.count t ≤ budget.maxRetries + 1
  pending : ∀ t, pending t → t ∉ s.calls

section

variable {P Q : Target → Prop}

theorem Account.mono (h : Account budget P s) (hQ : ∀ t, Q t → P t) : Account budget Q s :=
  { h with pending := fun t ht => h.pending t (hQ t ht) }

theorem Account.closed (h : Account budget P s) : Account budget (fun _ => False) s :=
  h.mono fun _ => False.elim

/-- The calls of a pending target are accounted for once it is done. -/
theorem Account.adds (h : Account budget P s) (hadds : Adds budget target (budget.maxRetries + 1) s s')
    (ht : P target) (hQ : ∀ t, Q t → P t ∧ t ≠ target) : Account budget Q s' := by
  obtain ⟨⟨j, hj, hcalls⟩, hwithin⟩ := hadds
  refine ⟨hwithin, fun t => ?_, fun t hQt hmem => ?_⟩
  · rw [hcalls, List.count_append, List.count_replicate]
    by_cases htarget : target = t
    · subst htarget
      have hnone : s.calls.count target = 0 := List.count_eq_zero.2 (h.pending _ ht)
      simp only [hnone, BEq.rfl, ↓reduceIte]
      omega
    · have heach := h.each t
      simpa [htarget] using heach
  · rw [hcalls, List.mem_append] at hmem
    obtain ⟨hP, hne⟩ := hQ t hQt
    rcases hmem with hmem | hmem
    · exact h.pending t hP hmem
    · exact hne (List.mem_replicate.1 hmem).2

theorem Adds.prefix {most : Nat} (h : Adds budget target most s s') : s.calls <+: s'.calls := by
  obtain ⟨⟨j, -, hcalls⟩, -⟩ := h
  exact ⟨_, hcalls.symm⟩

/-- One target of the pending ones. -/
theorem invokeBounded_spec (p : Provider) (validator : StructuredLlmResult → Except Raised Unit)
    (started : Int) (h : Account budget P s) (hcount : callCount = s.calls.length)
    (ht : P target) :
    Account budget (fun _ => False)
      (leaves (invokeBounded p budget target validator started callCount s)) ∧
    ∀ result c s', invokeBounded p budget target validator started callCount s =
        .ok (result, c) s' →
      (∀ {Q : Target → Prop}, (∀ t, Q t → P t ∧ t ≠ target) → Account budget Q s') ∧
        c = s'.calls.length ∧ callCount < c ∧ s.calls <+: s'.calls ∧
        ∃ j : Nat, s'.calls[j]? = some target ∧ accept budget validator (p.reply j) = .ok result := by
  obtain ⟨hadds, hok⟩ := attempts_spec p target validator started (budget.maxRetries + 1) none hcount
    (hcount ▸ h.total)
  refine ⟨h.adds hadds ht fun _ hf => hf.elim, fun result c s' hrun => ?_⟩
  obtain ⟨hc, hlt, hlast, haccept⟩ := hok result c s' hrun
  have hadds' : Adds budget target (budget.maxRetries + 1) s s' := by
    have hleaves := congrArg leaves hrun
    rw [← show leaves (EStateM.Result.ok (result, c) s' : EStateM.Result TenderError _ _) = s' from
      rfl, ← hleaves]
    exact hadds
  exact ⟨fun hQ => h.adds hadds' ht hQ, hc, hcount ▸ hlt, hadds'.prefix, _, hlast, haccept⟩

end

/-! ## The loops -/

/-- The chunks from the `k`-th on, and the merges after them. -/
def Target.From (k : Nat) : Target → Prop
  | chunk k' _ => k ≤ k'
  | merge .. => True

/-- The merges of later levels. -/
def Target.After (level : Nat) : Target → Prop
  | chunk .. => False
  | merge level' _ => level < level'

/-- The merges of this level from the `i`-th batch on, and those of later levels. -/
def Target.FromBatch (level i : Nat) : Target → Prop
  | chunk .. => False
  | merge level' i' => level < level' ∨ level' = level ∧ i ≤ i'

/-- The model gave an answer for the chunk that passed its checks. -/
def Answered (p : Provider) (budget : TenderAnalysisBudget) (chunk : TenderChunk) (k : Nat)
    (s : Spent) : Prop :=
  ∃ j : Nat, s.calls[j]? = some (.chunk k chunk.chunkId) ∧
    ∃ result, accept budget (chunkValidator chunk) (p.reply j) = .ok result

theorem Answered.later {chunk : TenderChunk} {k : Nat} (h : Answered p budget chunk k s)
    ( hprefix : s.calls <+: s'.calls) : Answered p budget chunk k s' := by
  obtain ⟨j, hj, hresult⟩ := h
  refine ⟨j, ?_, hresult⟩
  obtain ⟨rest, hrest⟩ := hprefix
  rw [← hrest, List.getElem?_append_left (List.getElem?_eq_some_iff.1 hj).1]
  exact hj

theorem analyzeChunks_spec {k : Nat} (p : Provider) (started : Int) (chunks : List TenderChunk)
    (model : String) (h : Account budget (Target.From k) s) (hcount : callCount = s.calls.length) :
    Account budget (fun _ => False)
      (leaves (analyzeChunks p budget started (chunks.zipIdx k) model callCount s)) ∧
    ∀ locals model' c s', analyzeChunks p budget started (chunks.zipIdx k) model callCount s =
        .ok (locals, model', c) s' →
      Account budget (Target.After 0) s' ∧ c = s'.calls.length ∧ locals.length = chunks.length ∧
        s.calls <+: s'.calls ∧ ∀ i chunk, chunks[i]? = some chunk → Answered p budget chunk (k + i) s' := by
  induction chunks generalizing k s callCount model with
  | nil =>
    refine ⟨h.closed, fun locals model' c s' hrun => ?_⟩
    cases hrun
    refine ⟨h.mono fun t ht => ?_, hcount, rfl, List.prefix_rfl, fun i chunk hi => ?_⟩
    · cases t with
      | chunk => exact ht.elim
      | merge => trivial
    · simp at hi
  | cons chunk chunks ih =>
    rw [List.zipIdx_cons]
    unfold analyzeChunks
    have hpending : Target.From k (.chunk k chunk.chunkId) := Nat.le_refl k
    obtain ⟨hstop, hgo⟩ := invokeBounded_spec p (chunkValidator chunk) started h hcount hpending
    cases hinvoke : invokeBounded p budget (.chunk k chunk.chunkId) (chunkValidator chunk) started
        callCount s with
    | error e s₁ =>
      rw [hinvoke] at hstop
      rw [bind_of_error hinvoke]
      exact ⟨hstop, fun _ _ _ _ hrun => by cases hrun⟩
    | ok r s₁ =>
      obtain ⟨result, c₁⟩ := r
      rw [bind_of_ok hinvoke]
      obtain ⟨hnext, hc₁, -, hprefix, j, hj, haccept⟩ := hgo result c₁ s₁ hinvoke
      have haccount : Account budget (Target.From (k + 1)) s₁ := hnext fun t ht => by
        cases t with
        | chunk k' id =>
          refine ⟨Nat.le_of_succ_le ht, ?_⟩
          rintro ⟨⟩
          exact Nat.lt_irrefl _ ht
        | merge => exact ⟨trivial, fun heq => by cases heq⟩
      dsimp only
      cases hvalue : result.value.asChunkAnalysis with
      | error e => exact ⟨haccount.closed, fun _ _ _ _ hrun => by cases hrun⟩
      | ok local' =>
        obtain ⟨hstop', hgo'⟩ := ih result.model haccount hc₁
        dsimp only
        cases hrest : analyzeChunks p budget started (chunks.zipIdx (k + 1)) result.model c₁ s₁ with
        | error e s₂ =>
          rw [hrest] at hstop'
          rw [bind_of_error hrest]
          exact ⟨hstop', fun _ _ _ _ hrun => by cases hrun⟩
        | ok r s₂ =>
          obtain ⟨locals, model₂, c₂⟩ := r
          rw [hrest] at hstop'
          rw [bind_of_ok hrest]
          refine ⟨hstop', fun _ _ _ _ hrun => ?_⟩
          cases hrun
          obtain ⟨haccount₂, hc₂, hlen, hprefix₂, hanswered⟩ := hgo' _ _ _ _ hrest
          refine ⟨haccount₂, hc₂, by simp [hlen], hprefix.trans hprefix₂, fun i chunk' hi => ?_⟩
          cases i with
          | zero =>
            cases hi
            exact Answered.later ⟨j, hj, result, haccept⟩ hprefix₂
          | succ i =>
            have hanswer := hanswered i chunk' hi
            rwa [Nat.add_assoc, Nat.add_comm 1] at hanswer

theorem mergeLevel_spec {level i : Nat} (p : Provider) (started : Int)
    (batches : List (List MergeItem)) (names : String × String)
    (h : Account budget (Target.FromBatch level i) s) (hcount : callCount = s.calls.length) :
    Account budget (fun _ => False)
      (leaves (mergeLevel p budget started level (batches.zipIdx i) names callCount s)) ∧
    ∀ merged names' c s', mergeLevel p budget started level (batches.zipIdx i) names callCount s =
        .ok (merged, names', c) s' →
      Account budget (Target.After level) s' ∧ c = s'.calls.length ∧
        merged.length = batches.length ∧ callCount + batches.length ≤ c ∧
        s.calls <+: s'.calls := by
  induction batches generalizing i s callCount names with
  | nil =>
    refine ⟨h.closed, fun merged names' c s' hrun => ?_⟩
    cases hrun
    refine ⟨h.mono fun t ht => ?_, hcount, rfl, Nat.le_refl _, List.prefix_rfl⟩
    cases t with
    | chunk => exact ht.elim
    | merge => exact Or.inl ht
  | cons batch batches ih =>
    rw [List.zipIdx_cons]
    unfold mergeLevel
    have hpending : Target.FromBatch level i (.merge level i) := Or.inr ⟨rfl, Nat.le_refl i⟩
    obtain ⟨hstop, hgo⟩ := invokeBounded_spec p (fun _ => .ok ()) started h hcount hpending
    cases hinvoke : invokeBounded p budget (.merge level i) (fun _ => .ok ()) started callCount
        s with
    | error e s₁ =>
      rw [hinvoke] at hstop
      rw [bind_of_error hinvoke]
      exact ⟨hstop, fun _ _ _ _ hrun => by cases hrun⟩
    | ok r s₁ =>
      obtain ⟨result, c₁⟩ := r
      rw [bind_of_ok hinvoke]
      obtain ⟨hnext, hc₁, hlt, hprefix, -⟩ := hgo result c₁ s₁ hinvoke
      have haccount : Account budget (Target.FromBatch level (i + 1)) s₁ := hnext fun t ht => by
        cases t with
        | chunk => exact ht.elim
        | merge level' i' =>
          rcases ht with ht | ⟨rfl, ht⟩
          · refine ⟨Or.inl ht, ?_⟩
            rintro ⟨⟩
            exact Nat.lt_irrefl _ ht
          · refine ⟨Or.inr ⟨rfl, Nat.le_of_succ_le ht⟩, ?_⟩
            rintro ⟨⟩
            exact Nat.lt_irrefl _ ht
      dsimp only
      cases hvalue : result.value.asTenderAnalysis with
      | error e =>
        have hlift : (lift (.error e : Except TenderError TenderAnalysis) : TenderM _) s₁ =
            .error e s₁ := rfl
        rw [bind_of_error hlift]
        exact ⟨haccount.closed, fun _ _ _ _ hrun => by cases hrun⟩
      | ok merged =>
        have hlift : (lift (.ok merged : Except TenderError TenderAnalysis) : TenderM _) s₁ =
            .ok merged s₁ := rfl
        rw [bind_of_ok hlift]
        obtain ⟨hstop', hgo'⟩ := ih (result.model, result.promptVersion) haccount hc₁
        cases hrest : mergeLevel p budget started level (batches.zipIdx (i + 1))
            (result.model, result.promptVersion) c₁ s₁ with
        | error e s₂ =>
          rw [hrest] at hstop'
          rw [bind_of_error hrest]
          exact ⟨hstop', fun _ _ _ _ hrun => by cases hrun⟩
        | ok r s₂ =>
          obtain ⟨rest, names₂, c₂⟩ := r
          rw [hrest] at hstop'
          rw [bind_of_ok hrest]
          refine ⟨hstop', fun _ _ _ _ hrun => ?_⟩
          cases hrun
          obtain ⟨haccount₂, hc₂, hlen, hle, hprefix₂⟩ := hgo' _ _ _ _ hrest
          refine ⟨haccount₂, hc₂, congrArg (· + 1) hlen, ?_, hprefix.trans hprefix₂⟩
          show callCount + (batches.length + 1) ≤ c₂
          omega

/-- A level of at least one item makes at least one batch. -/
theorem batches_ne_nil {items : List MergeItem} {batches : List (List MergeItem)}
    {maxItems maxChars : Nat} (h : mergeBatches items maxItems maxChars = .ok batches)
    (hne : items ≠ []) : batches ≠ [] := by
  obtain ⟨-, rfl⟩ := mergeBatches_ok h
  intro hnil
  have hflat : (batch (joins maxItems maxChars) [] items).flatten = [] ++ items := flatten_batch
  rw [hnil] at hflat
  exact hne hflat.symm

/-- One level of the loop: it stops, it has the single result, or it goes on with what it merged. -/
theorem mergeLoop_step {level : Nat} {current : List MergeItem} (p : Provider) (started : Int)
    (names : String × String) (h : Account budget (Target.After level) s) (hcount : callCount = s.calls.length)
    (hne : current ≠ []) :
    (∃ e s', (∀ fuel, mergeLoop p budget started (fuel + 1) level current names callCount s =
        .error e s') ∧ Account budget (fun _ => False) s') ∨
    (∃ r s', (∀ fuel, mergeLoop p budget started (fuel + 1) level current names callCount s =
        .ok (some r) s') ∧ Account budget (fun _ => False) s' ∧ s.calls <+: s'.calls) ∨
    ∃ merged names' c s', (∀ fuel, mergeLoop p budget started (fuel + 1) level current names
        callCount s = mergeLoop p budget started fuel (level + 1) merged names' c s') ∧
      Account budget (Target.After (level + 1)) s' ∧ c = s'.calls.length ∧ callCount < c ∧
      merged ≠ [] ∧ s.calls <+: s'.calls := by
  have haccount : Account budget (Target.FromBatch (level + 1) 1) s := h.mono fun t ht => by
    cases t with
    | chunk => exact ht.elim
    | merge level' i =>
      show level < level'
      rcases ht with ht | ⟨rfl, -⟩ <;> omega
  cases hbatches : mergeBatches current budget.maxMergeItems budget.mergeInputChars with
  | error e =>
    refine Or.inl ⟨e, s, fun fuel => ?_, h.closed⟩
    unfold mergeLoop
    rw [hbatches]
    rfl
  | ok batches =>
    have hlift : (lift (.ok batches : Except TenderError (List (List MergeItem))) : TenderM _) s =
        .ok batches s := rfl
    obtain ⟨hstop, hgo⟩ := mergeLevel_spec p started batches names haccount hcount
    cases hlevel : mergeLevel p budget started (level + 1) (batches.zipIdx 1) names callCount s with
    | error e s₁ =>
      rw [hlevel] at hstop
      refine Or.inl ⟨e, s₁, fun fuel => ?_, hstop⟩
      unfold mergeLoop
      rw [hbatches, bind_of_ok hlift, bind_of_error hlevel]
    | ok r s₁ =>
      obtain ⟨merged, names₁, c⟩ := r
      rw [hlevel] at hstop
      obtain ⟨hafter, hc, hlen, hle, hprefix⟩ := hgo _ _ _ _ hlevel
      have hpos : 0 < merged.length := hlen ▸ List.length_pos_iff.2 (batches_ne_nil hbatches hne)
      have hrun : ∀ fuel, mergeLoop p budget started (fuel + 1) level current names callCount s =
          settleLevel (mergeLoop p budget started fuel (level + 1)) names₁ c merged s₁ :=
        fun fuel => by
        conv_lhs => unfold mergeLoop
        rw [hbatches]
        exact (bind_of_ok hlift).trans (bind_of_ok hlevel)
      cases merged with
      | nil => exact absurd hpos (Nat.lt_irrefl 0)
      | cons final merged =>
        cases merged with
        | nil => exact Or.inr (Or.inl ⟨(final, names₁), s₁, hrun, hstop, hprefix⟩)
        | cons next merged =>
          refine Or.inr (Or.inr ⟨_, names₁, c, s₁, hrun, hafter, hc, by omega, ?_, hprefix⟩)
          exact List.cons_ne_nil _ _

/-- **The merge ends within the calls that are left**, and more levels change nothing. -/
theorem mergeLoop_spec {level : Nat} {current : List MergeItem} (p : Provider) (started : Int)
    (fuel fuel' : Nat) (names : String × String) (h : Account budget (Target.After level) s)
    (hcount : callCount = s.calls.length) (hne : current ≠ [])
    (hfuel : budget.maxLlmCalls < callCount + fuel)
    (hfuel' : budget.maxLlmCalls < callCount + fuel') :
    mergeLoop p budget started fuel level current names callCount s =
      mergeLoop p budget started fuel' level current names callCount s ∧
    Account budget (fun _ => False)
      (leaves (mergeLoop p budget started fuel level current names callCount s)) ∧
    ∀ r s', mergeLoop p budget started fuel level current names callCount s = .ok r s' →
      r.isSome ∧ s.calls <+: s'.calls := by
  have htotal := h.total
  induction fuel generalizing fuel' level current names callCount s with
  | zero => omega
  | succ fuel ih =>
    cases fuel' with
    | zero => omega
    | succ fuel' =>
      obtain ⟨e, s', hrun, hleft⟩ | ⟨r, s', hrun, hleft, hprefix⟩ |
        ⟨merged, names', c, s', hrun, hafter, hc, hlt, hmerged, hprefix⟩ :=
        mergeLoop_step p started names h hcount hne
      · rw [hrun fuel, hrun fuel']
        exact ⟨rfl, hleft, fun _ _ h => by cases h⟩
      · rw [hrun fuel, hrun fuel']
        refine ⟨rfl, hleft, fun _ _ h => ?_⟩
        cases h
        exact ⟨rfl, hprefix⟩
      · rw [hrun fuel, hrun fuel']
        obtain ⟨heq, hleft, hok⟩ := ih fuel' names' hafter hc hmerged (by omega) (by omega) hafter.total
        exact ⟨heq, hleft, fun r s'' h => ⟨(hok r s'' h).1, hprefix.trans (hok r s'' h).2⟩⟩

/-! ## The whole analysis -/

variable {documentBlockIds : List String} {chunks : List TenderChunk}

theorem finish_some {locals : List TenderChunkAnalysis}
    {merged : TenderAnalysis × String × String}
    {result : Option (TenderAnalysis × String × String)}
    (h : finish documentBlockIds locals (some merged) = .ok result) : ∃ r, result = some r := by
  simp only [finish, except_bind_ok, except_pure_ok] at h
  obtain ⟨r, -, rfl⟩ := h
  exact ⟨_, rfl⟩

/-- The analysis ends so: however many more levels it may take, and not cut short by them. -/
def Ends (p : Provider) (budget : TenderAnalysisBudget) (documentBlockIds : List String)
    (chunks : List TenderChunk)
    (outcome : EStateM.Result TenderError Spent (Option (TenderAnalysis × String × String))) :
    Prop :=
  (∃ bound, ∀ fuel, bound < fuel →
    executeChunked p budget fuel documentBlockIds chunks {} = outcome) ∧
  ∀ s, outcome ≠ .ok none s

/-- **A plan with a chunk is analysed within its budget.** The analysis ends, with no more calls
than the budget has and no more than `max_retries + 1` for a target, and it returns an analysis
only with an accepted answer for every chunk. -/
theorem chunked_within_budget (hne : chunks ≠ []) :
    ∃ outcome, Ends p budget documentBlockIds chunks outcome ∧
    (leaves outcome).calls.length ≤ budget.maxLlmCalls ∧
    (∀ t, (leaves outcome).calls.count t ≤ budget.maxRetries + 1) ∧
    ∀ r s', outcome = .ok r s' →
      ∀ k chunk, chunks[k]? = some chunk → Answered p budget chunk k s' := by
  let s₀ : Spent := { readings := 1 }
  have h₀ : Account budget (Target.From 0) s₀ :=
    ⟨Nat.zero_le _, fun _ => Nat.zero_le _, fun _ _ hmem => by cases hmem⟩
  obtain ⟨hstop, hgo⟩ := analyzeChunks_spec p (p.clock 0) chunks "unknown" h₀
    (rfl : 0 = s₀.calls.length)
  have hclock : perfCounter p {} = .ok (p.clock 0) s₀ := rfl
  cases hchunks : analyzeChunks p budget (p.clock 0) chunks.zipIdx "unknown" 0 s₀ with
  | error e s₁ =>
    rw [hchunks] at hstop
    refine ⟨.error e s₁, ⟨⟨0, fun fuel _ => ?_⟩, fun _ h => by cases h⟩, hstop.total, hstop.each,
      fun _ _ h => by cases h⟩
    unfold executeChunked
    rw [bind_of_ok hclock, bind_of_error hchunks]
  | ok r s₁ =>
    obtain ⟨locals, model, c⟩ := r
    obtain ⟨hafter, hc, hlen, -, hanswered⟩ := hgo _ _ _ _ hchunks
    have hlocals : locals.map MergeItem.chunk ≠ [] := by
      intro hnil
      rw [List.map_eq_nil_iff] at hnil
      rw [hnil] at hlen
      exact hne (List.length_eq_zero_iff.1 hlen.symm)
    let fuel₀ := budget.maxLlmCalls + 1
    have hspec := fun fuel (hfuel : budget.maxLlmCalls < fuel) =>
      mergeLoop_spec p (p.clock 0) fuel₀ fuel (model, TENDER_MERGE_PROMPT_VERSION) hafter hc hlocals
        (by omega) (by omega)
    have hrun : ∀ fuel, executeChunked p budget fuel documentBlockIds chunks {} =
        (mergeLoop p budget (p.clock 0) fuel 0 (locals.map .chunk)
          (model, TENDER_MERGE_PROMPT_VERSION) c >>= fun merged =>
            lift (finish documentBlockIds locals merged)) s₁ := fun fuel => by
      unfold executeChunked
      exact (bind_of_ok hclock).trans (bind_of_ok hchunks)
    obtain ⟨-, hleft, hok⟩ := hspec fuel₀ (Nat.lt_succ_self _)
    cases hmerge : mergeLoop p budget (p.clock 0) fuel₀ 0 (locals.map .chunk)
        (model, TENDER_MERGE_PROMPT_VERSION) c s₁ with
    | error e s₂ =>
      rw [hmerge] at hleft
      refine ⟨.error e s₂, ⟨⟨budget.maxLlmCalls, fun fuel hfuel => ?_⟩, fun _ h => by cases h⟩,
        hleft.total, hleft.each, fun _ _ h => by cases h⟩
      rw [hrun, bind_of_error ((hspec fuel hfuel).1.symm.trans hmerge)]
    | ok r s₂ =>
      rw [hmerge] at hleft
      obtain ⟨hsome, hprefix⟩ := hok r s₂ hmerge
      obtain ⟨merged, rfl⟩ := Option.isSome_iff_exists.1 hsome
      have hends : ∀ fuel, budget.maxLlmCalls < fuel →
          executeChunked p budget fuel documentBlockIds chunks {} = _ := fun fuel hfuel =>
        (hrun fuel).trans (bind_of_ok ((hspec fuel hfuel).1.symm.trans hmerge))
      cases hfinish : finish documentBlockIds locals (some merged) with
      | error e =>
        rw [hfinish] at hends
        exact ⟨_, ⟨⟨_, hends⟩, fun _ h => by cases h⟩, hleft.total, hleft.each,
          fun _ _ h => by cases h⟩
      | ok result =>
        rw [hfinish] at hends
        obtain ⟨result', rfl⟩ := finish_some hfinish
        refine ⟨_, ⟨⟨_, hends⟩, fun _ h => by cases h⟩, hleft.total, hleft.each, fun r s' h => ?_⟩
        cases h
        intro k chunk hk
        have hanswer := hanswered k chunk hk
        rw [Nat.zero_add] at hanswer
        exact hanswer.later hprefix

/-- Without a chunk no number of levels suffices. -/
theorem mergeLoop_nil {fuel level : Nat} {names : String × String} :
    mergeLoop p budget started fuel level [] names callCount s = .ok none s := by
  induction fuel generalizing level with
  | zero => rfl
  | succ fuel ih => exact ih

theorem executeChunked_nil {fuel : Nat} :
    executeChunked p budget fuel documentBlockIds [] {} = .ok none { readings := 1 } := by
  have hclock : perfCounter p {} = .ok (p.clock 0) { readings := 1 } := rfl
  have hchunks : analyzeChunks p budget (p.clock 0) [].zipIdx "unknown" 0 { readings := 1 } =
      .ok ([], "unknown", 0) { readings := 1 } := rfl
  exact (bind_of_ok hclock).trans ((bind_of_ok hchunks).trans (bind_of_ok mergeLoop_nil))

end

/-! ## A plan of one chunk, and one of none -/

/-- A model that is never reached in time. -/
def upstreamDown : Provider where
  reply _ := .error (.upstream "timeout")
  clock _ := 0

theorem empty_plan_never_ends : ¬∃ outcome, Ends upstreamDown {} [] [] outcome := by
  rintro ⟨outcome, ⟨bound, hends⟩, hnone⟩
  have hrun := hends (bound + 1) (Nat.lt_succ_self _)
  exact hnone _ (hrun.symm.trans executeChunked_nil)

theorem chunked_within_budget_down : ∃ outcome,
    Ends upstreamDown {} [] [⟨"chunk-0001", []⟩] outcome ∧ (leaves outcome).calls.length ≤ 160 := by
  have hne : [(⟨"chunk-0001", []⟩ : TenderChunk)] ≠ [] := List.cons_ne_nil _ _
  obtain ⟨outcome, hends, hcalls, -⟩ := chunked_within_budget hne
  exact ⟨outcome, hends, hcalls⟩

end GoAgent.Tender
