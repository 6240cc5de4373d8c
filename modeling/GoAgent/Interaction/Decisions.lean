import GoAgent.Foundation.Indexed
import GoAgent.Interaction.Confirmations
import GoAgent.Interaction.Gates

/-!
# A proposal is decided once

The gateway gives a proposal out once, to a thread of the subject it was kept for: this thread
`holds` it until it is decided. `Sound` says that every proposal given out is held by one thread or
decided, that a pending invocation whose proposal is given out belongs to a thread in the
transaction, and that dispatches and cancelled events come from decisions.

A step changes the stores, or moves one thread. The lemmas `Sound.stores`, `Sound.move`,
`Sound.take`, `Sound.decide` and `Sound.record` say what each kind of change keeps.

* `sound_of_step` — every step keeps `Sound`.
* `decided_once` — dispatches, cancelled events, subjects and stores in every reachable world.
-/

namespace GoAgent.Interaction

open GoAgent.Foundation

/-! ## Threads -/

/-- The proposal a thread has consumed and not decided. -/
def Thread.holds (t : Thread) : Option String :=
  match t.phase with
  | .plainConsumed _ | .consumed .. | .closing .. => some t.command.proposalId
  | _ => none

def Thread.recording (t : Thread) : Option String :=
  match t.phase with
  | .recording .. => some t.command.proposalId
  | _ => none

def Thread.inTransaction (t : Thread) : Bool :=
  match t.phase with
  | .cancelReading | .consuming _ | .consumed .. | .unavailable _ | .closing .. | .recording .. => true
  | _ => false

def Thread.plain (t : Thread) : Bool :=
  match t.phase with
  | .plain => true
  | _ => false

theorem Thread.id_of_holds {t : Thread} {id : String} (h : t.holds = some id) :
    t.command.proposalId = id := by
  unfold Thread.holds at h
  split at h
  · exact Option.some.inj h
  · exact Option.some.inj h
  · exact Option.some.inj h
  · cases h

namespace World

def Issued (w : World) (id : String) (subject : Option String) : Prop :=
  ∃ p, (p, subject) ∈ w.gateway.issued ∧ p.proposalId = id

def takenIds (w : World) : List String := w.taken.map Prod.fst

def holders (w : World) (id : String) : Nat := (w.threads.map Thread.holds).count (some id)

def recorders (w : World) (id : String) : Nat := (w.threads.map Thread.recording).count (some id)

/-- No pending invocation is bound to what a thread asks for. -/
def Unbound (w : World) (t : Thread) : Prop :=
  ∀ b ∈ w.pending, b.proposalId = t.command.proposalId → b.subject ≠ t.subject

end World

/-! ## The invariant -/

structure Sound (a : Application) (w : World) : Prop where
  issuedOnce : (w.gateway.issued.map fun i => i.1.proposalId).Nodup
  kept : ∀ e ∈ w.gateway.entries, (e.proposal, e.subject) ∈ w.gateway.issued ∧ e.id ∉ w.takenIds
  bound : ∀ b ∈ w.pending, a.dialogueAgents = true ∧ w.Issued b.proposalId b.subject
  taken : ∀ x ∈ w.taken, w.Issued x.1 x.2
  withdrawn : ∀ x ∈ w.withdrawn, w.Issued x.1 x.2
  hidden : ∀ id ∈ w.hidden, id ∉ w.takenIds ∧ ∀ t ∈ w.threads, t.command.proposalId ≠ id
  held : ∀ t ∈ w.threads, ∀ id, t.holds = some id → (id, t.subject) ∈ w.taken
  unbound : ∀ t ∈ w.threads, t.plain → w.Unbound t
  covered : ∀ b ∈ w.pending, b.proposalId ∈ w.takenIds →
    ∃ (k : Nat) (t : Thread), w.threads[k]? = some t ∧ t.holds = some b.proposalId ∧ t.inTransaction
  locked : ∀ (k : Nat) (t : Thread), w.threads[k]? = some t → t.inTransaction → w.lock = some k
  once : ∀ id, w.takenIds.count id ≤ 1
  counted : ∀ id, w.holders id + w.decided.count id = w.takenIds.count id
  outcomes : ∀ id, w.dispatches.count id + w.cancellations.count id + w.recorders id ≤
    w.decided.count id

section

variable {a : Application} {w : World} {k : Nat} {t t' : Thread} {g : Gateway} {pending : Pending}
  {id : String} {lock : Option Nat}

theorem sound_initial : Sound a {} := by
  refine ⟨List.nodup_nil, ?_, ?_, ?_, ?_, ?_, ?_, ?_, ?_, ?_, ?_, ?_, ?_⟩
  · intro e he; cases he
  · intro b hb; cases hb
  · intro x hx; cases hx
  · intro x hx; cases hx
  · intro id hid; cases hid
  · intro t ht; cases ht
  · intro t ht; cases ht
  · intro b hb; cases hb
  · intro k t ht; simp at ht
  · exact fun id => Nat.zero_le 1
  · exact fun id => rfl
  · exact fun id => Nat.le_refl 0

/-- The id of a proposal tells its subject. -/
theorem Sound.subject_unique (h : Sound a w) {s s' : Option String} (hs : w.Issued id s)
    (hs' : w.Issued id s') : s = s' := by
  obtain ⟨p, hp, rfl⟩ := hs
  obtain ⟨p', hp', he⟩ := hs'
  have := List.inj_on_of_nodup_map h.issuedOnce hp' hp he
  exact (congrArg Prod.snd this).symm

/-- The stores lose something. -/
theorem Sound.stores (h : Sound a w) (hissued : g.issued = w.gateway.issued)
    (hentries : ∀ e ∈ g.entries, e ∈ w.gateway.entries) (hpending : ∀ b ∈ pending, b ∈ w.pending) :
    Sound a { w with gateway := g, pending := pending } where
  issuedOnce := by
    show (g.issued.map _).Nodup
    rw [hissued]
    exact h.issuedOnce
  kept e he := by
    show (e.proposal, e.subject) ∈ g.issued ∧ _
    rw [hissued]
    exact h.kept e (hentries e he)
  bound b hb := by
    show _ ∧ ∃ p, (p, b.subject) ∈ g.issued ∧ _
    rw [hissued]
    exact h.bound b (hpending b hb)
  taken x hx := by
    show ∃ p, (p, x.2) ∈ g.issued ∧ _
    rw [hissued]
    exact h.taken x hx
  withdrawn x hx := by
    show ∃ p, (p, x.2) ∈ g.issued ∧ _
    rw [hissued]
    exact h.withdrawn x hx
  hidden := h.hidden
  held := h.held
  unbound t ht hplain b hb := h.unbound t ht hplain b (hpending b hb)
  covered b hb := h.covered b (hpending b hb)
  locked := h.locked
  once := h.once
  counted := h.counted
  outcomes := h.outcomes

/-! ## One thread moves -/

/-- Who is in the transaction, after a thread has moved and set the lock. -/
def Hands (w : World) (k : Nat) (t' : Thread) (lock : Option Nat) : Prop :=
  (t'.inTransaction → lock = some k) ∧ ∀ j, j ≠ k → w.lock = some j → lock = some j

theorem mem_set {t₁ : Thread} (h : t₁ ∈ w.threads.set k t') : t₁ = t' ∨ t₁ ∈ w.threads :=
  (List.mem_or_eq_of_mem_set h).symm

theorem Sound.locked_set (h : Sound a w) (ht : w.threads[k]? = some t) (hands : Hands w k t' lock) :
    ∀ j t₁, (w.threads.set k t')[j]? = some t₁ → t₁.inTransaction → lock = some j := by
  intro j t₁ ht₁ hin
  rw [getElem?_set_of ht] at ht₁
  by_cases hj : j = k
  · rw [if_pos hj] at ht₁
    obtain rfl := Option.some.inj ht₁
    rw [hj]
    exact hands.1 hin
  · rw [if_neg hj] at ht₁
    exact hands.2 j hj (h.locked j t₁ ht₁ hin)

theorem Sound.hidden_set (h : Sound a w) (ht : w.threads[k]? = some t)
    (hcommand : t'.command = t.command) :
    ∀ id ∈ w.hidden, ∀ t₁ ∈ w.threads.set k t', t₁.command.proposalId ≠ id := by
  intro id hid t₁ ht₁
  rcases mem_set ht₁ with rfl | ht₁
  · rw [hcommand]
    exact (h.hidden id hid).2 t (List.mem_of_getElem? ht)
  · exact (h.hidden id hid).2 t₁ ht₁

theorem holders_set (ht : w.threads[k]? = some t) (t' : Thread) (id : String) :
    ((w.threads.set k t').map Thread.holds).count (some id) + (if t.holds = some id then 1 else 0) =
      w.holders id + if t'.holds = some id then 1 else 0 := by
  have hk : (w.threads.map Thread.holds)[k]? = some t.holds := by rw [List.getElem?_map, ht]; rfl
  rw [World.holders, List.map_set]
  exact count_set hk

theorem recorders_set (ht : w.threads[k]? = some t) (t' : Thread) (id : String) :
    ((w.threads.set k t').map Thread.recording).count (some id) +
        (if t.recording = some id then 1 else 0) =
      w.recorders id + if t'.recording = some id then 1 else 0 := by
  have hk : (w.threads.map Thread.recording)[k]? = some t.recording := by
    rw [List.getElem?_map, ht]; rfl
  rw [World.recorders, List.map_set]
  exact count_set hk

/-- A thread moves, and holds what it has held. -/
theorem Sound.move (h : Sound a w) (ht : w.threads[k]? = some t) (hcommand : t'.command = t.command)
    (hholds : t'.holds = t.holds) (hrecording : t'.recording = t.recording ∨ t'.recording = none)
    (hin : t.holds ≠ none → t.inTransaction → t'.inTransaction)
    (hplain : t'.plain → w.Unbound t') (hands : Hands w k t' lock) :
    Sound a { w with threads := w.threads.set k t', lock := lock } where
  issuedOnce := h.issuedOnce
  kept := h.kept
  bound := h.bound
  taken := h.taken
  withdrawn := h.withdrawn
  hidden id hid := ⟨(h.hidden id hid).1, h.hidden_set ht hcommand id hid⟩
  held t₁ ht₁ id hid := by
    rcases mem_set ht₁ with rfl | ht₁
    · have := h.held t (List.mem_of_getElem? ht) id (hholds ▸ hid)
      rwa [Thread.subject, ← hcommand] at this
    · exact h.held t₁ ht₁ id hid
  unbound t₁ ht₁ hp := by
    rcases mem_set ht₁ with rfl | ht₁
    · exact hplain hp
    · exact h.unbound t₁ ht₁ hp
  covered b hb hid := by
    obtain ⟨j, t₁, ht₁, hholds₁, hin₁⟩ := h.covered b hb hid
    by_cases hj : j = k
    · subst hj
      obtain rfl := Option.some.inj (ht₁.symm.trans ht)
      refine ⟨j, t', by rw [getElem?_set_of ht, if_pos rfl], hholds.trans hholds₁, hin ?_ hin₁⟩
      rw [hholds₁]
      exact Option.some_ne_none _
    · exact ⟨j, t₁, by rw [getElem?_set_of ht, if_neg hj]; exact ht₁, hholds₁, hin₁⟩
  locked := h.locked_set ht hands
  once := h.once
  counted id := by
    have := holders_set ht t' id
    rw [hholds] at this
    have hcounted := h.counted id
    show ((w.threads.set k t').map Thread.holds).count (some id) + w.decided.count id =
      w.takenIds.count id
    omega
  outcomes id := by
    have := recorders_set ht t' id
    have houtcomes := h.outcomes id
    show w.dispatches.count id + w.cancellations.count id +
      ((w.threads.set k t').map Thread.recording).count (some id) ≤ w.decided.count id
    rcases hrecording with he | he
    · rw [he] at this
      omega
    · rw [he, if_neg (Option.some_ne_none id).symm] at this
      omega

/-- A thread consumes a proposal that is not given out yet. -/
theorem Sound.take (h : Sound a w) (ht : w.threads[k]? = some t) (t' : Thread)
    (hcommand : t'.command = t.command)
    (hfree : ∀ e ∈ w.gateway.entries, e.id ≠ id) (hnew : id ∉ w.takenIds)
    (hissued : w.Issued id t.subject) (hshown : id ∉ w.hidden) (hholds : t.holds = none)
    (hholds' : t'.holds = some id) (hrecording : t'.recording = t.recording)
    (hpart : t'.inTransaction ∨ ∀ b ∈ w.pending, b.proposalId ≠ id) (hplain : t'.plain = false)
    (hands : Hands w k t' w.lock) :
    Sound a { w with threads := w.threads.set k t', taken := w.taken ++ [(id, t.subject)] } := by
  have hids : (w.taken ++ [(id, t.subject)]).map Prod.fst = w.takenIds ++ [id] := by
    rw [List.map_append]
    rfl
  have hmem : ∀ {id'}, id' ∈ w.takenIds ++ [id] → id' ∈ w.takenIds ∨ id' = id := by
    intro id' h'
    rcases List.mem_append.1 h' with h' | h'
    · exact Or.inl h'
    · exact Or.inr (List.mem_singleton.1 h')
  refine ⟨h.issuedOnce, ?_, h.bound, ?_, h.withdrawn, ?_, ?_, ?_, ?_, h.locked_set ht hands, ?_, ?_,
    ?_⟩
  · intro e he
    refine ⟨(h.kept e he).1, fun hid => ?_⟩
    rw [World.takenIds, hids] at hid
    rcases hmem hid with hid | hid
    · exact (h.kept e he).2 hid
    · exact hfree e he hid
  · intro x hx
    rcases List.mem_append.1 hx with hx | hx
    · exact h.taken x hx
    · rw [List.mem_singleton.1 hx]
      exact hissued
  · intro id' hid'
    refine ⟨fun hid => ?_, h.hidden_set ht hcommand id' hid'⟩
    rw [World.takenIds, hids] at hid
    rcases hmem hid with hid | hid
    · exact (h.hidden id' hid').1 hid
    · exact hshown (hid ▸ hid')
  · intro t₁ ht₁ id' hid'
    rcases mem_set ht₁ with rfl | ht₁
    · obtain rfl := Option.some.inj (hholds'.symm.trans hid')
      have hsubject : t₁.subject = t.subject := congrArg (fun c => c.principal.subject) hcommand
      rw [hsubject]
      exact List.mem_append_right _ List.mem_cons_self
    · exact List.mem_append_left _ (h.held t₁ ht₁ id' hid')
  · intro t₁ ht₁ hp
    rcases mem_set ht₁ with rfl | ht₁
    · rw [hplain] at hp
      cases hp
    · exact h.unbound t₁ ht₁ hp
  · intro b hb hid
    rw [World.takenIds, hids] at hid
    rcases hmem hid with hid | hid
    · obtain ⟨j, t₁, ht₁, hholds₁, hin₁⟩ := h.covered b hb hid
      have hj : j ≠ k := by
        rintro rfl
        obtain rfl := Option.some.inj (ht₁.symm.trans ht)
        rw [hholds] at hholds₁
        cases hholds₁
      exact ⟨j, t₁, by rw [getElem?_set_of ht, if_neg hj]; exact ht₁, hholds₁, hin₁⟩
    · rcases hpart with hpart | hpart
      · exact ⟨k, t', by rw [getElem?_set_of ht, if_pos rfl], hid ▸ hholds', hpart⟩
      · exact absurd hid (hpart b hb)
  · intro id'
    rw [World.takenIds, hids, List.count_append, List.count_singleton]
    have honce := h.once id'
    by_cases he : id = id'
    · rw [← he, List.count_eq_zero_of_not_mem hnew]
      simp
    · simpa [he] using honce
  · intro id'
    rw [World.takenIds, hids, List.count_append, List.count_singleton]
    have := holders_set ht t' id'
    have hcounted := h.counted id'
    show ((w.threads.set k t').map Thread.holds).count (some id') + w.decided.count id' = _
    rw [hholds, hholds'] at this
    by_cases he : id = id'
    · simp only [he, reduceCtorEq, ↓reduceIte, BEq.rfl] at this ⊢
      omega
    · simp only [Option.some.injEq, he, reduceCtorEq, ↓reduceIte, beq_iff_eq] at this ⊢
      omega
  · intro id'
    have := recorders_set ht t' id'
    have houtcomes := h.outcomes id'
    show w.dispatches.count id' + w.cancellations.count id' +
      ((w.threads.set k t').map Thread.recording).count (some id') ≤ w.decided.count id'
    rw [hrecording] at this
    omega

/-- A thread decides what it holds, with `n` dispatches, or with a cancelled event to record. -/
theorem Sound.decide (h : Sound a w) (ht : w.threads[k]? = some t) (t' : Thread)
    (hcommand : t'.command = t.command)
    (hfree : ∀ b ∈ w.pending, b.proposalId ≠ id) (hholds : t.holds = some id)
    (hholds' : t'.holds = none) (hrecording : t.recording = none) {n : Nat}
    (hn : n + (if t'.recording = some id then 1 else 0) ≤ 1)
    (hrecords : ∀ id', t'.recording = some id' → id' = id) (hplain : t'.plain = false)
    (hands : Hands w k t' lock) :
    Sound a { w with
      threads := w.threads.set k t'
      lock := lock
      dispatches := w.dispatches ++ List.replicate n id
      decided := w.decided ++ [id] } := by
  refine ⟨h.issuedOnce, h.kept, h.bound, h.taken, h.withdrawn,
    fun id' hid' => ⟨(h.hidden id' hid').1, h.hidden_set ht hcommand id' hid'⟩, ?_, ?_, ?_,
    h.locked_set ht hands, h.once, ?_, ?_⟩
  · intro t₁ ht₁ id' hid'
    rcases mem_set ht₁ with rfl | ht₁
    · rw [hholds'] at hid'
      cases hid'
    · exact h.held t₁ ht₁ id' hid'
  · intro t₁ ht₁ hp
    rcases mem_set ht₁ with rfl | ht₁
    · rw [hplain] at hp
      cases hp
    · exact h.unbound t₁ ht₁ hp
  · intro b hb hid
    obtain ⟨j, t₁, ht₁, hholds₁, hin₁⟩ := h.covered b hb hid
    have hj : j ≠ k := by
      rintro rfl
      obtain rfl := Option.some.inj (ht₁.symm.trans ht)
      rw [hholds] at hholds₁
      exact hfree b hb (Option.some.inj hholds₁).symm
    exact ⟨j, t₁, by rw [getElem?_set_of ht, if_neg hj]; exact ht₁, hholds₁, hin₁⟩
  · intro id'
    have := holders_set ht t' id'
    have hcounted := h.counted id'
    show ((w.threads.set k t').map Thread.holds).count (some id') +
      (w.decided ++ [id]).count id' = w.takenIds.count id'
    rw [List.count_append, List.count_singleton]
    rw [hholds, hholds'] at this
    by_cases he : id = id'
    · simp only [he, reduceCtorEq, ↓reduceIte, BEq.rfl] at this ⊢
      omega
    · simp only [Option.some.injEq, he, reduceCtorEq, ↓reduceIte, beq_iff_eq] at this ⊢
      omega
  · intro id'
    have := recorders_set ht t' id'
    have houtcomes := h.outcomes id'
    show (w.dispatches ++ List.replicate n id).count id' + w.cancellations.count id' +
      ((w.threads.set k t').map Thread.recording).count (some id') ≤ (w.decided ++ [id]).count id'
    rw [List.count_append, List.count_append, List.count_singleton, List.count_replicate]
    rw [hrecording] at this
    by_cases he : id = id'
    · simp only [← he, reduceCtorEq, ↓reduceIte, BEq.rfl] at this houtcomes ⊢
      omega
    · have hnone : t'.recording ≠ some id' := fun hr => he (hrecords id' hr).symm
      simp only [he, hnone, reduceCtorEq, ↓reduceIte, beq_iff_eq] at this ⊢
      omega

/-- A cancelled event is recorded. -/
theorem Sound.record (h : Sound a w) (ht : w.threads[k]? = some t) (hcommand : t'.command = t.command)
    (hholds : t.holds = none) (hholds' : t'.holds = none) (hrecording : t.recording = some id)
    (hrecording' : t'.recording = none) (hplain : t'.plain = false) (hands : Hands w k t' lock) :
    Sound a { w with
      threads := w.threads.set k t'
      lock := lock
      cancellations := w.cancellations ++ [id] } := by
  have hmove := h.move ht hcommand (hholds'.trans hholds.symm) (Or.inr hrecording')
    (fun hne => absurd hholds hne) (fun hp => absurd (hplain.symm.trans hp) Bool.false_ne_true) hands
  refine ⟨hmove.issuedOnce, hmove.kept, hmove.bound, hmove.taken, hmove.withdrawn, hmove.hidden,
    hmove.held, hmove.unbound, hmove.covered, hmove.locked, hmove.once, hmove.counted, fun id' => ?_⟩
  have := recorders_set ht t' id'
  have houtcomes := h.outcomes id'
  show w.dispatches.count id' + (w.cancellations ++ [id]).count id' +
    ((w.threads.set k t').map Thread.recording).count (some id') ≤ w.decided.count id'
  rw [List.count_append, List.count_singleton]
  rw [hrecording, hrecording'] at this
  by_cases he : id = id'
  · simp only [he, reduceCtorEq, ↓reduceIte, BEq.rfl] at this ⊢
    omega
  · simp only [Option.some.injEq, he, reduceCtorEq, ↓reduceIte, beq_iff_eq] at this ⊢
    omega

end

/-! ## The stores and the gateway -/

section

variable {a : Application} {w : World} {t : Thread} {g g₀ : Gateway} {id : String}
  {subject : Option String}

theorem mem_purge {now : Int} {pending : Pending} {b : PendingAgentInvocation}
    (h : b ∈ pending.purge now) : b ∈ pending := List.mem_of_mem_filter h

/-- What `read` answers is bound to the one who reads. -/
theorem read_some {now : Int} {pending : Pending} {b : PendingAgentInvocation}
    (h : pending.read now id subject = some b) :
    b ∈ pending ∧ b.proposalId = id ∧ b.subject = subject := by
  unfold Pending.read at h
  split at h
  · cases h
  · next b' hlookup =>
    split at h
    · cases h
    · next hsubject =>
      obtain rfl := Option.some.inj h
      exact ⟨mem_purge (mem_of_lookup hlookup), key_of_lookup hlookup, not_not.1 hsubject⟩

theorem consume_sub {now : Int} {pending : Pending} {b : PendingAgentInvocation}
    (h : b ∈ pending.consume now id subject) : b ∈ pending := by
  unfold Pending.consume at h
  split at h
  · exact mem_purge h
  · exact mem_purge (List.mem_of_mem_filter h)

/-- What the gateway has left of a proposal it gives out. -/
theorem consumed_free {p : ConfirmationProposal} (h : (g.consumed id subject).1 = some p) :
    ∀ e ∈ (g.consumed id subject).2, e.id ≠ id := by
  cases hlookup : lookup ProposalEntry.id id g.purgeExpired.entries with
  | none =>
    simp only [Gateway.consumed, hlookup] at h
    cases h
  | some e₀ =>
    by_cases hsubject : e₀.subject = subject
    · intro e he
      simp only [Gateway.consumed, hlookup, if_neg (not_not.2 hsubject)] at he
      simpa using (List.mem_filter.1 he).2
    · simp only [Gateway.consumed, hlookup, if_pos hsubject] at h
      cases h

/-- No pending invocation is bound to a proposal whose subject does not find it. -/
theorem Sound.free (h : Sound a w) (hun : w.Unbound t)
    (hissued : w.Issued t.command.proposalId t.subject) :
    ∀ b ∈ w.pending, b.proposalId ≠ t.command.proposalId := by
  intro b hb hid
  have hbound := (h.bound b hb).2
  rw [hid] at hbound
  exact hun b hb hid (h.subject_unique hbound hissued)

theorem Sound.pendingRead (h : Sound a w) : Sound a (w.pendingRead t).1 :=
  h.stores rfl (fun _ he => he) fun _ hb => mem_purge hb

theorem Sound.unbound_of_read (h : Sound a w) (hread : (w.pendingRead t).2 = none) :
    (w.pendingRead t).1.Unbound t := by
  intro b hb hid hsubject
  have hread : w.pending.read w.gateway.now t.command.proposalId t.subject = none := hread
  unfold Pending.read at hread
  split at hread
  · next hlookup =>
    apply lookup_eq_none_iff.1 hlookup
    rw [← hid]
    exact List.mem_map_of_mem hb
  · next b₀ hlookup =>
    split at hread
    · next hne =>
      have hbound := (h.pendingRead.bound b hb).2
      have hbound₀ := (h.bound b₀ (mem_purge (mem_of_lookup hlookup))).2
      rw [key_of_lookup hlookup, ← hid] at hbound₀
      exact hne ((h.subject_unique hbound₀ hbound).trans hsubject)
    · cases hread

/-- What `consume` of the pending invocations does for a thread. -/
theorem Sound.pendingConsume (h : Sound a w) :
    ∃ pending withdrawn b, w.pendingConsume t =
      ({ w with pending := pending, withdrawn := withdrawn }, b) ∧
      Sound a { w with pending := pending, withdrawn := withdrawn } ∧
      ({ w with pending := pending, withdrawn := withdrawn } : World).Unbound t := by
  refine ⟨_, _, _, rfl, ?_, ?_⟩
  · have hsub : ∀ b ∈ w.pending.consume w.gateway.now t.command.proposalId t.subject,
        b ∈ w.pending := fun _ hb => consume_sub hb
    have hstores := h.stores (g := w.gateway) rfl (fun _ he => he) hsub
    refine ⟨hstores.issuedOnce, hstores.kept, hstores.bound, hstores.taken, fun x hx => ?_,
      hstores.hidden, hstores.held, hstores.unbound, hstores.covered, hstores.locked, hstores.once,
      hstores.counted, hstores.outcomes⟩
    rcases List.mem_append.1 hx with hx | hx
    · exact h.withdrawn x hx
    · cases hread : w.pending.read w.gateway.now t.command.proposalId t.subject with
      | none =>
        rw [hread] at hx
        cases hx
      | some b =>
        rw [hread] at hx
        obtain ⟨hmem, hid, hsubject⟩ := read_some hread
        rw [List.mem_singleton.1 hx]
        have hbound := (h.bound b hmem).2
        rwa [hid, hsubject] at hbound
  · intro b hb hid
    have hb : b ∈ w.pending.consume w.gateway.now t.command.proposalId t.subject := hb
    cases hread : w.pending.read w.gateway.now t.command.proposalId t.subject with
    | none =>
      simp only [Pending.consume, hread] at hb
      exact h.unbound_of_read hread b hb hid
    | some b' =>
      simp only [Pending.consume, hread] at hb
      exact absurd hid (by simpa using (List.mem_filter.1 hb).2)

/-- What `consume` of the gateway does for a thread. -/
theorem Sound.gatewayConsume (h : Sound a w) :
    ∃ g, g.issued = w.gateway.issued ∧ Sound a { w with gateway := g } ∧
      (w.gatewayConsume t = ({ w with gateway := g }, none) ∨
        ∃ p, w.gatewayConsume t = ({ w with
            gateway := g, taken := w.taken ++ [(t.command.proposalId, t.subject)] }, some p) ∧
          (∀ e ∈ g.entries, e.id ≠ t.command.proposalId) ∧ t.command.proposalId ∉ w.takenIds ∧
          w.Issued t.command.proposalId t.subject) := by
  obtain ⟨htaken, hleft⟩ :=
    @consumed_spec w.gateway t.command.proposalId t.subject
  refine ⟨{ w.gateway with entries := (w.gateway.consumed t.command.proposalId t.subject).2 }, rfl,
    h.stores rfl hleft fun _ hb => hb, ?_⟩
  have heq : w.gatewayConsume t = ({ w with
      gateway := { w.gateway with
        entries := (w.gateway.consumed t.command.proposalId t.subject).2 }
      taken := w.taken ++ ((w.gateway.consumed t.command.proposalId t.subject).1.map
        fun _ => (t.command.proposalId, t.subject)).toList },
      (w.gateway.consumed t.command.proposalId t.subject).1) := rfl
  cases hconsumed : (w.gateway.consumed t.command.proposalId t.subject).1 with
  | none =>
    left
    rw [heq, hconsumed]
    simp
  | some p =>
    right
    rw [heq, hconsumed]
    obtain ⟨e, he, rfl, hsubject, hid⟩ := htaken p hconsumed
    have hid' : e.id = t.command.proposalId := hid
    refine ⟨e.proposal, rfl, consumed_free hconsumed, ?_, e.proposal, ?_, hid⟩
    · rw [← hid']
      exact (h.kept e he).2
    · rw [← hsubject]
      exact (h.kept e he).1

/-- What a function of the gateway leaves as it was, and how often it has executed something. -/
structure Frame (g₀ : Gateway) (n : Nat) (g : Gateway) : Prop where
  entries : g.entries = g₀.entries
  issued : g.issued = g₀.issued
  executions : executions g.acts ≤ n

theorem Frame.mono {n m : Nat} (h : Frame g₀ n g) (hn : n ≤ m) : Frame g₀ m g :=
  ⟨h.entries, h.issued, h.executions.trans hn⟩

theorem executions_append {acts : List Act} {x : Act} :
    executions (acts ++ [x]) = executions acts + executions [x] := List.countP_append

theorem pure_frame {α : Type} {n m : Nat} {x : α} (hn : n ≤ m) :
    Triple (Frame g₀ n) (pure x : GatewayM α) (fun _ => Frame g₀ m) (Frame g₀ m) :=
  Triple.pure fun _ h => h.mono hn

theorem act_frame {n m : Nat} {x : Act} (hn : n + executions [x] ≤ m) :
    Triple (Frame g₀ n) (act x) (fun _ => Frame g₀ m) (Frame g₀ m) := by
  refine Triple.modify fun g h => ⟨h.entries, h.issued, ?_⟩
  show executions (g.acts ++ [x]) ≤ m
  have := h.executions
  rw [executions_append]
  omega

theorem getAvailable_frame {d : Deployment} {n : Nat} {code : String} {permissions : List String} :
    Upholds (Frame g₀ n) (getAvailable d code permissions) := by
  refine Triple.bind (R := fun _ => Frame g₀ n) (Triple.get.imp (fun _ h => h) (fun _ _ h => h.2)
    fun _ h => h) fun g => ?_
  refine Triple.bind (R := fun _ => Frame g₀ n)
    (Triple.modify fun g' h => ⟨h.entries, h.issued, h.executions⟩) fun _ => ?_
  refine Triple.bind (act_frame (Nat.le_refl n)) fun _ => ?_
  split
  · exact pure_frame (Nat.le_refl n)
  · exact pure_frame (Nat.le_refl n)
  · exact Triple.throw fun _ h => h

theorem lift_frame {α : Type} {n : Nat} {y : Except BaseException α} :
    Upholds (Frame g₀ n) (lift y) :=
  Triple.lift (fun _ _ _ h => h) fun _ _ _ h => h

theorem callHandler_frame {s : Surroundings} {r : Route} {x : Execution} :
    Triple (Frame g₀ 0) (callHandler s r x) (fun _ => Frame g₀ 1) (Frame g₀ 1) := by
  refine Triple.bind (act_frame (Nat.le_refl 1)) fun _ => ?_
  split
  · exact pure_frame (Nat.le_refl 1)
  · split
    · exact pure_frame (Nat.le_refl 1)
    · split <;> exact pure_frame (Nat.le_refl 1)
  · exact Triple.throw fun _ h => h

/-- A read of the catalog, and what is done with its answer. -/
theorem frame_of_getAvailable {α : Type} {d : Deployment} {code : String}
    {permissions : List String} {f : Except String (Option PlatformCapability) → GatewayM α}
    (hf : ∀ r, Triple (Frame g₀ 0) (f r) (fun _ => Frame g₀ 1) (Frame g₀ 1)) :
    Triple (Frame g₀ 0) (getAvailable d code permissions >>= f) (fun _ => Frame g₀ 1)
      (Frame g₀ 1) :=
  Triple.bind (getAvailable_frame.imp (fun _ h => h) (fun _ _ h => h)
    fun _ h => h.mono (Nat.zero_le 1)) hf

theorem dispatch_frame {d : Deployment} {s : Surroundings} {approved : ApprovedCapabilityDispatch}
    {principal : RequestPrincipal} :
    Triple (Frame g₀ 0) (dispatch d s approved principal) (fun _ => Frame g₀ 1) (Frame g₀ 1) := by
  refine frame_of_getAvailable fun r => ?_
  rcases r with e | (_ | c)
  · exact pure_frame (Nat.zero_le 1)
  · exact pure_frame (Nat.zero_le 1)
  · dsimp only
    split
    · exact pure_frame (Nat.zero_le 1)
    · refine Triple.bind (lift_frame.imp (fun _ h => h) (fun _ _ h => h)
        fun _ h => h.mono (Nat.zero_le 1)) fun validation => ?_
      split
      · exact pure_frame (Nat.zero_le 1)
      · split
        · split
          · exact callHandler_frame
          · exact pure_frame (Nat.zero_le 1)
        · split
          · exact callHandler_frame
          · exact pure_frame (Nat.zero_le 1)

theorem confirmConsumed_frame (d : Deployment) (s : Surroundings)
    (command : GatewayConfirmationCommand) (p : ConfirmationProposal) :
    Triple (Frame g₀ 0) (confirmConsumed d s command p) (fun _ => Frame g₀ 1) (Frame g₀ 1) := by
  unfold confirmConsumed
  split
  · exact pure_frame (Nat.zero_le 1)
  · dsimp only
    split
    · exact pure_frame (Nat.zero_le 1)
    · exact Triple.bind dispatch_frame fun _ => pure_frame (Nat.le_refl 1)
    · exact pure_frame (Nat.zero_le 1)

theorem confirmDialogueAgentConsumed_frame (d : Deployment) (command : GatewayConfirmationCommand)
    (p : ConfirmationProposal) :
    Triple (Frame g₀ 0) (confirmDialogueAgentConsumed d command p) (fun _ => Frame g₀ 1)
      (Frame g₀ 1) := by
  unfold confirmDialogueAgentConsumed
  split
  · exact pure_frame (Nat.zero_le 1)
  · split
    · exact pure_frame (Nat.zero_le 1)
    · refine frame_of_getAvailable fun r => ?_
      rcases r with e | (_ | c)
      · exact pure_frame (Nat.zero_le 1)
      · exact pure_frame (Nat.zero_le 1)
      · dsimp only
        split
        · exact pure_frame (Nat.zero_le 1)
        · split
          · exact pure_frame (Nat.zero_le 1)
          · refine Triple.bind (lift_frame.imp (fun _ h => h) (fun _ _ h => h)
              fun _ h => h.mono (Nat.zero_le 1)) fun validation => ?_
            split
            · exact pure_frame (Nat.zero_le 1)
            · unfold approve
              split
              · exact pure_frame (Nat.zero_le 1)
              · exact Triple.bind (act_frame (Nat.le_refl 1)) fun _ => pure_frame (Nat.le_refl 1)

/-- What the world is after a function of the gateway. -/
theorem ran_frame {α : Type} {m : GatewayM α}
    (h : Triple (Frame w.gateway 0) m (fun _ => Frame w.gateway 1) (Frame w.gateway 1)) :
    ∃ g r, w.ran (m { w.gateway with acts := [] }) = ({ w with gateway := g }, r) ∧
      Frame w.gateway 1 g := by
  have hstart : Frame w.gateway 0 { w.gateway with acts := [] } := ⟨rfl, rfl, Nat.le_refl 0⟩
  obtain ⟨hok, herror⟩ := h _ hstart
  cases hm : m { w.gateway with acts := [] } with
  | ok a g => exact ⟨g, .ok a, rfl, hok a g hm⟩
  | error e g => exact ⟨g, .error e, rfl, herror e g hm⟩

end

/-! ## Steps -/

section

variable {a : Application} {w w' : World} {k : Nat} {t t' : Thread} {phase : Phase}

theorem hands_stay (h : Sound a w) (ht : w.threads[k]? = some t)
    (hin : t'.inTransaction → t.inTransaction) : Hands w k t' w.lock :=
  ⟨fun hin' => h.locked k t ht (hin hin'), fun _ _ hj => hj⟩

theorem hands_release (h : Sound a w) (ht : w.threads[k]? = some t) (hin : t.inTransaction)
    (hin' : t'.inTransaction = false) : Hands w k t' none := by
  refine ⟨fun he => absurd (hin'.symm.trans he) Bool.false_ne_true, fun j hj hlock => ?_⟩
  have hk := h.locked k t ht hin
  exact absurd (Option.some.inj (hlock.symm.trans hk)) hj

theorem hands_lock (hlock : w.lock = none) : Hands w k t' (some k) := by
  refine ⟨fun _ => rfl, fun j _ hj => ?_⟩
  rw [hlock] at hj
  cases hj

/-- A thread that holds nothing moves to where it holds nothing. -/
theorem Sound.go (h : Sound a w) (ht : w.threads[k]? = some t) (hholds : t.holds = none)
    (hholds' : ({ t with phase } : Thread).holds = none)
    (hrecording : ({ t with phase } : Thread).recording = none)
    (hplain : ({ t with phase } : Thread).plain → w.Unbound t)
    (hin : ({ t with phase } : Thread).inTransaction → t.inTransaction) :
    Sound a (w.moveTo k t phase) :=
  h.move ht rfl (hholds'.trans hholds.symm) (Or.inr hrecording) (fun hne => absurd hholds hne)
    hplain (hands_stay h ht hin)

/-- A thread that holds nothing leaves the transaction. -/
theorem Sound.leave (h : Sound a w) (ht : w.threads[k]? = some t) (hin : t.inTransaction)
    (hholds : t.holds = none) (hholds' : ({ t with phase } : Thread).holds = none)
    (hrecording : ({ t with phase } : Thread).recording = none)
    (hplain : ({ t with phase } : Thread).plain = false)
    (hin' : ({ t with phase } : Thread).inTransaction = false) :
    Sound a (w.moveTo k t phase).release :=
  h.move ht rfl (hholds'.trans hholds.symm) (Or.inr hrecording) (fun hne => absurd hholds hne)
    (fun hp => absurd (hplain.symm.trans hp) Bool.false_ne_true) (hands_release h ht hin hin')

/-- The subject that a thread which holds a proposal consumed it for. -/
theorem Sound.issued_of_holds (h : Sound a w) (ht : w.threads[k]? = some t)
    (hholds : t.holds = some t.command.proposalId) :
    t.command.proposalId ∈ w.takenIds ∧ w.Issued t.command.proposalId t.subject := by
  have htaken := h.held t (List.mem_of_getElem? ht) _ hholds
  exact ⟨List.mem_map.2 ⟨_, htaken, rfl⟩, h.taken _ htaken⟩

/-- A thread outside the transaction that holds a proposal leaves no pending invocation of it. -/
theorem Sound.free_of_plain (h : Sound a w) (ht : w.threads[k]? = some t)
    (hholds : t.holds = some t.command.proposalId) (hin : t.inTransaction = false) :
    ∀ b ∈ w.pending, b.proposalId ≠ t.command.proposalId := by
  intro b hb hid
  obtain ⟨htaken, -⟩ := h.issued_of_holds ht hholds
  obtain ⟨j, t₁, ht₁, hholds₁, hin₁⟩ := h.covered b hb (hid ▸ htaken)
  have hcount : (w.threads.map Thread.holds).count (some t.command.proposalId) ≤ 1 := by
    have hcounted := h.counted t.command.proposalId
    have honce := h.once t.command.proposalId
    rw [World.holders] at hcounted
    omega
  have hj : j = k := by
    apply index_unique hcount
    · rw [List.getElem?_map, ht₁]
      exact congrArg some (hid ▸ hholds₁)
    · rw [List.getElem?_map, ht]
      exact congrArg some hholds
  subst hj
  obtain rfl := Option.some.inj (ht₁.symm.trans ht)
  exact absurd (hin.symm.trans hin₁) Bool.false_ne_true

/-! ## One step of a thread -/

theorem sound_route {command : GatewayConfirmationCommand} {b : Option PendingAgentInvocation}
    (h : Sound a w) (ht : w.threads[k]? = some ⟨command, .reading⟩)
    (hb : b = none → w.Unbound ⟨command, .reading⟩) :
    Sound a (w.route a k ⟨command, .reading⟩ b) := by
  unfold World.route
  split
  · exact h.go ht rfl rfl rfl (fun _ => hb rfl) (fun hin => by cases hin)
  · split
    · exact h.go ht rfl rfl rfl (fun hp => by cases hp) (fun hin => by cases hin)
    · split
      · exact h.go ht rfl rfl rfl (fun hp => by cases hp) (fun hin => by cases hin)
      · split
        · exact h.go ht rfl rfl rfl (fun hp => by cases hp) (fun hin => by cases hin)
        · exact h.go ht rfl rfl rfl (fun hp => by cases hp) (fun hin => by cases hin)

/-- The gateway gives a proposal to a thread. -/
theorem Sound.given (h : Sound a w) {g : Gateway} (hg : Sound a { w with gateway := g })
    (ht : w.threads[k]? = some t) (hissued : g.issued = w.gateway.issued)
    (hfree : ∀ e ∈ g.entries, e.id ≠ t.command.proposalId)
    (hnew : t.command.proposalId ∉ w.takenIds) (his : w.Issued t.command.proposalId t.subject)
    (hholds : t.holds = none) (hholds' : ({ t with phase } : Thread).holds = some t.command.proposalId)
    (hrecording : ({ t with phase } : Thread).recording = t.recording)
    (hplain : ({ t with phase } : Thread).plain = false)
    (hin : ({ t with phase } : Thread).inTransaction → t.inTransaction)
    (hpart : ({ t with phase } : Thread).inTransaction ∨ t.plain) :
    Sound a (({ w with
      gateway := g
      taken := w.taken ++ [(t.command.proposalId, t.subject)] } : World).moveTo k t phase) := by
  have hmem := List.mem_of_getElem? ht
  apply hg.take (t := t) ht { t with phase } rfl hfree hnew ?_
    (fun hid => (h.hidden _ hid).2 t hmem rfl) hholds hholds' hrecording ?_ hplain
    (hands_stay hg ht hin)
  · show ∃ p, (p, t.subject) ∈ g.issued ∧ p.proposalId = t.command.proposalId
    rw [hissued]
    exact his
  · rcases hpart with hpart | hpart
    · exact Or.inl hpart
    · exact Or.inr (h.free (h.unbound t hmem hpart) his)

theorem sound_plain {s : Surroundings} {command : GatewayConfirmationCommand} (h : Sound a w)
    (ht : w.threads[k]? = some ⟨command, .plain⟩)
    (hs : w.advance a k ⟨command, .plain⟩ s = some w') : Sound a w' := by
  obtain ⟨g, hissued, hg, heq | ⟨p, heq, hfree, hnew, his⟩⟩ :=
    h.gatewayConsume (t := ⟨command, .plain⟩)
  · simp only [World.advance, heq] at hs
    cases hs
    exact hg.go ht rfl rfl rfl (fun hp => by cases hp) (fun hin => by cases hin)
  · simp only [World.advance, heq] at hs
    cases hs
    exact h.given hg ht hissued hfree hnew his rfl rfl rfl rfl (fun hin => by cases hin) (Or.inr rfl)

theorem sound_consuming {s : Surroundings} {command : GatewayConfirmationCommand}
    {conversationId : Option UUID} (h : Sound a w)
    (ht : w.threads[k]? = some ⟨command, .consuming conversationId⟩)
    (hs : w.advance a k ⟨command, .consuming conversationId⟩ s = some w') : Sound a w' := by
  obtain ⟨g, hissued, hg, heq | ⟨p, heq, hfree, hnew, his⟩⟩ :=
    h.gatewayConsume (t := ⟨command, .consuming conversationId⟩)
  · simp only [World.advance, heq] at hs
    cases hs
    exact hg.go ht rfl rfl rfl (fun hp => by cases hp) (fun _ => rfl)
  · simp only [World.advance, heq] at hs
    cases hs
    exact h.given hg ht hissued hfree hnew his rfl rfl rfl rfl (fun _ => rfl) (Or.inl rfl)

theorem sound_plainConsumed {s : Surroundings} {command : GatewayConfirmationCommand}
    {p : ConfirmationProposal} (h : Sound a w)
    (ht : w.threads[k]? = some ⟨command, .plainConsumed p⟩)
    (hs : w.advance a k ⟨command, .plainConsumed p⟩ s = some w') : Sound a w' := by
  obtain ⟨g, r, heq, hframe⟩ := ran_frame (w := w) (confirmConsumed_frame a.deployment s command p)
  simp only [World.advance, heq] at hs
  cases hs
  have hg : Sound a { w with gateway := g } :=
    h.stores hframe.issued (fun e he => hframe.entries ▸ he) fun _ hb => hb
  exact hg.decide ht ⟨command, .answered r⟩ rfl (h.free_of_plain ht rfl rfl) rfl rfl rfl
    hframe.executions (fun id hid => by cases hid) rfl (hands_stay hg ht fun hin => by cases hin)

theorem sound_consumed {s : Surroundings} {command : GatewayConfirmationCommand}
    {conversationId : Option UUID} {p : ConfirmationProposal} (h : Sound a w)
    (ht : w.threads[k]? = some ⟨command, .consumed conversationId p⟩)
    (hs : w.advance a k ⟨command, .consumed conversationId p⟩ s = some w') : Sound a w' := by
  obtain ⟨g, r, heq, hframe⟩ := ran_frame (w := w)
    (confirmDialogueAgentConsumed_frame a.deployment command p)
  simp only [World.advance, heq] at hs
  cases hs
  have hg : Sound a { w with gateway := g } :=
    h.stores hframe.issued (fun e he => hframe.entries ▸ he) fun _ hb => hb
  exact hg.move ht rfl rfl (Or.inl rfl) (fun _ _ => rfl) (fun hp => by cases hp)
    (hands_stay hg ht fun _ => rfl)

/-- How the transaction ends. -/
structure Closes (w : World) (k : Nat) (t : Thread) (w' : World) (t' : Thread)
    (lock : Option Nat) (n : Nat) : Prop where
  world : w' = { w with
    threads := w.threads.set k t'
    lock := lock
    dispatches := w.dispatches ++ List.replicate n t.command.proposalId }
  command : t'.command = t.command
  holds : t'.holds = none
  plain : t'.plain = false
  hands : Hands w k t' lock
  /-- A dispatch, or a cancelled event to record. -/
  one : n + (if t'.recording = some t.command.proposalId then 1 else 0) ≤ 1
  records : ∀ id, t'.recording = some id → id = t.command.proposalId

/-- The transaction ends with an answer. -/
theorem closes_release (h : Sound a w) (ht : w.threads[k]? = some t) (hin : t.inTransaction)
    (phase : Phase)
    (hholds : ({ t with phase } : Thread).holds = none)
    (hrecording : ({ t with phase } : Thread).recording = none)
    (hplain : ({ t with phase } : Thread).plain = false)
    (hin' : ({ t with phase } : Thread).inTransaction = false) :
    Closes w k t (w.moveTo k t phase).release { t with phase } none 0 := by
  refine ⟨?_, rfl, hholds, hplain, hands_release h ht hin hin', ?_, fun id hid => ?_⟩
  · rw [List.replicate_zero, List.append_nil]
    rfl
  · rw [hrecording, if_neg (Option.some_ne_none _).symm]
    exact Nat.zero_le 1
  · rw [hrecording] at hid
    cases hid

theorem close_ends (h : Sound a w) (ht : w.threads[k]? = some t) (hin : t.inTransaction)
    (conversationId : Option UUID)
    (confirmation : Except BaseException DialogueAgentConfirmationResult)
    (b : Option PendingAgentInvocation) :
    ∃ t' lock n, Closes w k t (w.close k t conversationId confirmation b) t' lock n ∧
      ((∃ c, confirmation = .ok c ∧ c.status = .rejected) → n = 0 ∧ t'.recording = none) := by
  unfold World.close
  split
  · exact ⟨_, none, 0, closes_release h ht hin _ rfl rfl rfl rfl, fun _ => ⟨rfl, rfl⟩⟩
  · exact ⟨_, none, 0, closes_release h ht hin _ rfl rfl rfl rfl, fun _ => ⟨rfl, rfl⟩⟩
  · next c haction =>
    dsimp only
    have hreleased := closes_release h ht hin (.prepared (.ok (confirmInTurn t.command
      conversationId c b))) rfl rfl rfl rfl
    cases hcommand : (confirmInTurn t.command conversationId c b).command with
    | none => exact ⟨_, none, 0, ⟨rfl, rfl, rfl, rfl, hreleased.hands, hreleased.one,
        hreleased.records⟩, fun _ => ⟨rfl, rfl⟩⟩
    | some command =>
      refine ⟨_, none, 1, ⟨rfl, rfl, rfl, rfl, hreleased.hands, Nat.le_refl 1,
        hreleased.records⟩, ?_⟩
      rintro ⟨c', hc', hrejected⟩
      obtain rfl := Except.ok.inj hc'
      simp [confirmInTurn, hrejected] at hcommand
  · next c haction =>
    split
    · exact ⟨_, none, 0, closes_release h ht hin _ rfl rfl rfl rfl, fun _ => ⟨rfl, rfl⟩⟩
    · next conversation call hcancel =>
      refine ⟨{ t with phase := .recording conversation call }, w.lock, 0,
        ⟨by simp [World.moveTo], rfl, rfl, rfl, hands_stay h ht fun _ => hin, ?_, ?_⟩, ?_⟩
      · rw [Nat.zero_add]
        split
        · exact Nat.le_refl 1
        · exact Nat.zero_le 1
      · exact fun id hid => (Option.some.inj hid).symm
      · rintro ⟨c', hc', hrejected⟩
        obtain rfl := Except.ok.inj hc'
        simp [cancelConsumed, hrejected] at hcancel

theorem sound_unavailable {s : Surroundings} {command : GatewayConfirmationCommand}
    {conversationId : Option UUID} (h : Sound a w)
    (ht : w.threads[k]? = some ⟨command, .unavailable conversationId⟩)
    (hs : w.advance a k ⟨command, .unavailable conversationId⟩ s = some w') : Sound a w' := by
  obtain ⟨pending, withdrawn, b, heq, hb, -⟩ :=
    h.pendingConsume (t := ⟨command, .unavailable conversationId⟩)
  simp only [World.advance, heq] at hs
  cases hs
  obtain ⟨t', lock, n, hcloses, hrejected⟩ := close_ends hb ht rfl conversationId
    (.ok unavailableConfirmation) b
  obtain ⟨rfl, hrecording⟩ := hrejected ⟨_, rfl, rfl⟩
  rw [hcloses.world, List.replicate_zero, List.append_nil]
  exact hb.move ht hcloses.command hcloses.holds (Or.inr hrecording) (fun hne => absurd rfl hne)
    (fun hp => absurd (hcloses.plain.symm.trans hp) Bool.false_ne_true) hcloses.hands

theorem sound_closing {s : Surroundings} {command : GatewayConfirmationCommand}
    {conversationId : Option UUID}
    {confirmation : Except BaseException DialogueAgentConfirmationResult} (h : Sound a w)
    (ht : w.threads[k]? = some ⟨command, .closing conversationId confirmation⟩)
    (hs : w.advance a k ⟨command, .closing conversationId confirmation⟩ s = some w') :
    Sound a w' := by
  obtain ⟨pending, withdrawn, b, heq, hb, hun⟩ :=
    h.pendingConsume (t := ⟨command, .closing conversationId confirmation⟩)
  simp only [World.advance, heq] at hs
  cases hs
  obtain ⟨t', lock, n, hcloses, -⟩ := close_ends hb ht rfl conversationId
    confirmation b
  rw [hcloses.world]
  exact hb.decide ht t' hcloses.command (hb.free hun (hb.issued_of_holds ht rfl).2) rfl hcloses.holds
    rfl hcloses.one hcloses.records hcloses.plain hcloses.hands

/-- **A step of a thread keeps the invariant.** -/
theorem sound_advance {s : Surroundings} (h : Sound a w) (ht : w.threads[k]? = some t)
    (hs : w.advance a k t s = some w') : Sound a w' := by
  obtain ⟨command, phase⟩ := t
  cases phase with
  | reading =>
    simp only [World.advance] at hs
    split at hs
    · next hagents =>
      cases hs
      refine h.go ht rfl rfl rfl (fun _ b hb => ?_) (fun hin => by cases hin)
      have hagents' := (h.bound b hb).1
      rw [hagents'] at hagents
      cases hagents
    · split at hs
      · cases hs
      · cases hs
        exact sound_route h.pendingRead ht h.unbound_of_read
  | plain => exact sound_plain h ht hs
  | plainConsumed p => exact sound_plainConsumed h ht hs
  | entering conversationId =>
    simp only [World.advance] at hs
    split at hs
    · cases hs
    · next hlock =>
      cases hs
      have hnone : w.lock = none := by simpa using hlock
      cases command.action with
      | confirm =>
        exact h.move ht rfl rfl (Or.inr rfl) (fun hne => absurd rfl hne) (fun hp => by cases hp)
          (hands_lock hnone)
      | cancel =>
        exact h.move ht rfl rfl (Or.inr rfl) (fun hne => absurd rfl hne) (fun hp => by cases hp)
          (hands_lock hnone)
  | cancelReading =>
    simp only [World.advance] at hs
    split at hs
    · next w₁ heq =>
      cases hs
      have hw₁ : (w.pendingRead ⟨command, .cancelReading⟩).1 = w₁ := congrArg Prod.fst heq
      subst hw₁
      exact h.pendingRead.leave ht rfl rfl rfl rfl rfl rfl
    · next w₁ current heq =>
      cases hs
      have hw₁ : (w.pendingRead ⟨command, .cancelReading⟩).1 = w₁ := congrArg Prod.fst heq
      subst hw₁
      exact h.pendingRead.go ht rfl rfl rfl (fun hp => by cases hp) (fun _ => rfl)
  | consuming conversationId => exact sound_consuming h ht hs
  | consumed conversationId p => exact sound_consumed h ht hs
  | unavailable conversationId => exact sound_unavailable h ht hs
  | closing conversationId confirmation => exact sound_closing h ht hs
  | recording conversation call =>
    simp only [World.advance] at hs
    cases hs
    exact h.record ht rfl rfl rfl rfl rfl rfl (hands_release h ht rfl rfl)
  | answered result => cases hs
  | prepared preparation => cases hs

theorem sound_raise {e : BaseException} (h : Sound a w) (ht : w.threads[k]? = some t)
    (hs : w.raise k t e = some w') : Sound a w' := by
  obtain ⟨command, phase⟩ := t
  unfold World.raise at hs
  split at hs
  · next conversationId hphase =>
    obtain rfl : phase = .entering conversationId := hphase
    split at hs
    · cases hs
    · cases hs
      exact h.go ht rfl rfl rfl (fun hp => by cases hp) (fun hin => by cases hin)
  · next conversation call hphase =>
    obtain rfl : phase = .recording conversation call := hphase
    cases hs
    exact h.leave ht rfl rfl rfl rfl rfl rfl
  · cases hs

/-! ## The other steps -/

theorem sound_start (h : Sound a w) (hholds : t.holds = none) (hrecording : t.recording = none)
    (hplain : t.plain = false) (hin : t.inTransaction = false) (hs : w.start t = some w') :
    Sound a w' := by
  unfold World.start at hs
  split at hs
  · cases hs
  · next hshown =>
    cases hs
    refine ⟨h.issuedOnce, h.kept, h.bound, h.taken, h.withdrawn, ?_, ?_, ?_, ?_, ?_, h.once, ?_, ?_⟩
    · refine fun id hid => ⟨(h.hidden id hid).1, fun t₁ ht₁ he => ?_⟩
      rcases List.mem_append.1 ht₁ with ht₁ | ht₁
      · exact (h.hidden id hid).2 t₁ ht₁ he
      · rw [List.mem_singleton.1 ht₁] at he
        exact hshown (he ▸ hid)
    · intro t₁ ht₁ id hid
      rcases List.mem_append.1 ht₁ with ht₁ | ht₁
      · exact h.held t₁ ht₁ id hid
      · rw [List.mem_singleton.1 ht₁, hholds] at hid
        cases hid
    · intro t₁ ht₁ hp
      rcases List.mem_append.1 ht₁ with ht₁ | ht₁
      · exact h.unbound t₁ ht₁ hp
      · rw [List.mem_singleton.1 ht₁, hplain] at hp
        cases hp
    · intro b hb hid
      obtain ⟨j, t₁, ht₁, hrest⟩ := h.covered b hb hid
      refine ⟨j, t₁, ?_, hrest⟩
      rw [List.getElem?_append_left (List.getElem?_eq_some_iff.1 ht₁).1]
      exact ht₁
    · intro j t₁ ht₁ hin₁
      rcases Nat.lt_or_ge j w.threads.length with hj | hj
      · rw [List.getElem?_append_left hj] at ht₁
        exact h.locked j t₁ ht₁ hin₁
      · rw [List.getElem?_append_right hj] at ht₁
        have hmem := List.mem_of_getElem? ht₁
        rw [List.mem_singleton.1 hmem, hin] at hin₁
        cases hin₁
    · intro id
      have hcounted := h.counted id
      show ((w.threads ++ [t]).map Thread.holds).count (some id) + w.decided.count id =
        w.takenIds.count id
      rw [World.holders] at hcounted
      simp only [List.map_append, List.map_cons, List.map_nil, List.count_append, hholds,
        List.count_cons, List.count_nil, beq_iff_eq, reduceCtorEq, ↓reduceIte]
      omega
    · intro id
      have houtcomes := h.outcomes id
      show w.dispatches.count id + w.cancellations.count id +
        ((w.threads ++ [t]).map Thread.recording).count (some id) ≤ w.decided.count id
      rw [World.recorders] at houtcomes
      simp only [List.map_append, List.map_cons, List.map_nil, List.count_append, hrecording,
        List.count_cons, List.count_nil, beq_iff_eq, reduceCtorEq, ↓reduceIte]
      omega

theorem sound_issue {proposal : ConfirmationProposal} {subject : Option String} (h : Sound a w)
    (hs : w.step a (.issue proposal subject) = some w') : Sound a w' := by
  simp only [World.step] at hs
  split at hs
  · cases hs
  · next hfresh =>
    obtain ⟨hnew, hnamed⟩ := not_or.1 hfresh
    cases hs
    have hissued : ∀ {id s}, w.Issued id s → ∃ p, (p, s) ∈ w.gateway.issued ++ [(proposal, subject)] ∧
        p.proposalId = id := fun ⟨p, hp, hid⟩ => ⟨p, List.mem_append_left _ hp, hid⟩
    have hnot : proposal.proposalId ∉ w.takenIds := by
      intro hid
      obtain ⟨x, hx, hx'⟩ := List.mem_map.1 hid
      obtain ⟨p, hp, hp'⟩ := h.taken x hx
      exact hnew ⟨_, hp, hp'.trans hx'⟩
    refine ⟨?_, ?_, fun b hb => ⟨(h.bound b hb).1, hissued (h.bound b hb).2⟩,
      fun x hx => hissued (h.taken x hx), fun x hx => hissued (h.withdrawn x hx), ?_, h.held,
      h.unbound, h.covered, h.locked, h.once, h.counted, h.outcomes⟩
    · show ((w.gateway.issued ++ [(proposal, subject)]).map fun i => i.1.proposalId).Nodup
      rw [List.map_append]
      refine List.Nodup.append h.issuedOnce (List.nodup_singleton _) fun id hid hid' => ?_
      obtain ⟨i, hi, rfl⟩ := List.mem_map.1 hid
      exact hnew ⟨i, hi, List.mem_singleton.1 hid'⟩
    · intro e he
      rcases List.mem_append.1 he with he | he
      · have hkept := h.kept e (mem_purgeExpired (List.mem_of_mem_filter he))
        exact ⟨List.mem_append_left _ hkept.1, hkept.2⟩
      · rw [List.mem_singleton.1 he]
        exact ⟨List.mem_append_right _ List.mem_cons_self, hnot⟩
    · intro id hid
      rcases List.mem_append.1 hid with hid | hid
      · exact h.hidden id hid
      · rw [List.mem_singleton.1 hid]
        exact ⟨hnot, fun t ht he => hnamed (List.mem_map.2 ⟨t, ht, he⟩)⟩

theorem sound_bind {id : String} {command : DialogueAgentInvocationCommand} (h : Sound a w)
    (hs : w.step a (.bind id command) = some w') : Sound a w' := by
  simp only [World.step] at hs
  split at hs
  · cases hs
  · next hguard =>
    cases hs
    simp only [Bool.not_eq_eq_eq_not, Bool.not_true, not_or, not_not, Bool.not_eq_false] at hguard
    obtain ⟨hagents, -, hhidden, hissued⟩ := hguard
    obtain ⟨i, hi, hi'⟩ := List.mem_map.1 hissued
    have hmem : ∀ {b}, b ∈ w.pending.save a.deployment w.gateway.now id command →
        b ∈ w.pending ∨ b.proposalId = id ∧ b.subject = command.principal.subject := by
      intro b hb
      rcases List.mem_append.1 hb with hb | hb
      · exact Or.inl (mem_purge (List.mem_of_mem_filter hb))
      · rw [List.mem_singleton.1 hb]
        exact Or.inr ⟨rfl, rfl⟩
    refine ⟨h.issuedOnce, h.kept, ?_, h.taken, h.withdrawn,
      fun id' hid' => h.hidden id' (List.mem_of_mem_filter hid'), h.held, ?_, ?_, h.locked, h.once,
      h.counted, h.outcomes⟩
    · intro b hb
      rcases hmem hb with hb | ⟨hid, hsubject⟩
      · exact h.bound b hb
      · refine ⟨hagents, i.1, ?_, (congrArg Prod.fst hi').trans hid.symm⟩
        have he : (i.1, b.subject) = i := Prod.ext rfl (hsubject.trans (congrArg Prod.snd hi').symm)
        rw [he]
        exact hi
    · intro t ht hp b hb hid
      rcases hmem hb with hb | ⟨hid', -⟩
      · exact h.unbound t ht hp b hb hid
      · exact absurd (hid.symm.trans hid') ((h.hidden id hhidden).2 t ht)
    · intro b hb hid
      rcases hmem hb with hb | ⟨hid', -⟩
      · exact h.covered b hb hid
      · exact absurd (hid' ▸ hid) (h.hidden id hhidden).1

theorem sound_announce {id : String} (h : Sound a w) :
    Sound a { w with hidden := w.hidden.filter (· ≠ id) } :=
  ⟨h.issuedOnce, h.kept, h.bound, h.taken, h.withdrawn,
    fun id' hid' => h.hidden id' (List.mem_of_mem_filter hid'), h.held, h.unbound, h.covered,
    h.locked, h.once, h.counted, h.outcomes⟩

/-- **Every step keeps the invariant.** -/
theorem sound_of_step {e : Event} (h : Sound a w) (hs : Moves a w e w') : Sound a w' := by
  cases e with
  | issue proposal subject => exact sound_issue h hs
  | bind id command => exact sound_bind h hs
  | announce id =>
    cases hs
    exact sound_announce h
  | wait ticks =>
    cases hs
    exact h.stores rfl (fun _ he => he) fun _ hb => hb
  | request command => exact sound_start h rfl rfl rfl rfl hs
  | withdraw id principal =>
    simp only [Moves, World.step] at hs
    split at hs
    · cases hs
    · exact sound_start h rfl rfl rfl rfl hs
  | advance k s =>
    obtain ⟨t, ht, hs⟩ := Option.bind_eq_some_iff.1 hs
    exact sound_advance h ht hs
  | raise k e =>
    obtain ⟨t, ht, hs⟩ := Option.bind_eq_some_iff.1 hs
    exact sound_raise h ht hs

theorem sound_of_reachable (h : Reachable (· = {}) (Moves a) w) : Sound a w := by
  refine h.invariant (P := Sound a) (fun hinit => ?_) sound_of_step
  rw [hinit]
  exact sound_initial

/-! ## Decisions -/

theorem Sound.bound_unique (h : Sound a w) {id : String} {s : Option String} (his : w.Issued id s) :
    ∃ p, (p, s) ∈ w.gateway.issued ∧ p.proposalId = id ∧
      ∀ i ∈ w.gateway.issued, i.1.proposalId = id → i = (p, s) := by
  obtain ⟨p, hp, hid⟩ := his
  exact ⟨p, hp, hid, fun i hi hi' => List.inj_on_of_nodup_map h.issuedOnce hi hp (hi'.trans hid.symm)⟩

theorem Sound.decided_free (h : Sound a w) {id : String} (hid : id ∈ w.decided) :
    (∀ e ∈ w.gateway.entries, e.id ≠ id) ∧ ∀ b ∈ w.pending, b.proposalId ≠ id := by
  have hdecided := List.count_pos_iff.2 hid
  have hcounted := h.counted id
  have honce := h.once id
  have htaken : id ∈ w.takenIds := List.count_pos_iff.1 (by omega)
  refine ⟨fun e he hid' => (h.kept e he).2 (hid' ▸ htaken), fun b hb hid' => ?_⟩
  obtain ⟨k, t, ht, hholds, -⟩ := h.covered b hb (hid' ▸ htaken)
  have hholder : 0 < w.holders id := by
    apply List.count_pos_iff.2
    exact List.mem_map.2 ⟨t, List.mem_of_getElem? ht, hid' ▸ hholds⟩
  omega

/-- **A proposal is decided once.** -/
theorem decided_once (h : Reachable (· = {}) (Moves a) w) (id : String) :
    -- there is one dispatch or one cancelled event, and it comes from a decision
    w.dispatches.count id + w.cancellations.count id ≤ 1 ∧
    (id ∈ w.dispatches ∨ id ∈ w.cancellations → id ∈ w.decided) ∧
    -- whoever has consumed it, from either store, is the one subject it was bound to
    (∀ s, (id, s) ∈ w.taken ∨ (id, s) ∈ w.withdrawn →
      ∃ p, (p, s) ∈ w.gateway.issued ∧ p.proposalId = id ∧
        ∀ i ∈ w.gateway.issued, i.1.proposalId = id → i = (p, s)) ∧
    -- decided, it is in neither store
    (id ∈ w.decided →
      (∀ e ∈ w.gateway.entries, e.id ≠ id) ∧ ∀ b ∈ w.pending, b.proposalId ≠ id) ∧
    -- given out by the gateway, it is left to the transaction that is about to consume the other
    (id ∈ w.takenIds →
      (∀ e ∈ w.gateway.entries, e.id ≠ id) ∧ ∀ b ∈ w.pending, b.proposalId = id →
        ∃ (k : Nat) (t : Thread), w.lock = some k ∧ w.threads[k]? = some t ∧ t.holds = some id) := by
  have hsound := sound_of_reachable h
  have houtcomes := hsound.outcomes id
  have hcounted := hsound.counted id
  have honce := hsound.once id
  refine ⟨by omega, fun hid => ?_, fun s hs => ?_, hsound.decided_free, fun hid => ⟨?_, ?_⟩⟩
  · apply List.count_pos_iff.1
    rcases hid with hid | hid
    · have hpos := List.count_pos_iff.2 hid
      omega
    · have hpos := List.count_pos_iff.2 hid
      omega
  · rcases hs with hs | hs
    · exact hsound.bound_unique (hsound.taken _ hs)
    · exact hsound.bound_unique (hsound.withdrawn _ hs)
  · exact fun e he hid' => (hsound.kept e he).2 (hid' ▸ hid)
  · intro b hb hid'
    obtain ⟨k, t, ht, hholds, hin⟩ := hsound.covered b hb (hid' ▸ hid)
    exact ⟨k, t, hsound.locked k t ht hin, ht, hid' ▸ hholds⟩

end

/-! ## Two clicks and a cancellation -/

def tenderAgent : PlatformCapability :=
  { code := "tender.parse"
    capabilityType := .agent
    description := "解析招标文件"
    inputSchema := []
    requiredFields := []
    confirmationPolicy := .always
    permission := []
    enabled := true
    dispatchKey := "tender.parse" }

def tenderApplication : Application where
  deployment := {
    ttlSeconds := 300
    catalog := fun _ => .ok ⟨[tenderAgent], [⟨"tender.parse", .agent⟩]⟩
    handlers := []
    agentHandler := true }

def tenderProposal : ConfirmationProposal :=
  { proposalId := "p1"
    capabilityCode := "tender.parse"
    capabilityType := .agent
    dispatchKey := "tender.parse"
    summary := "解析招标文件"
    confirmationPrompt := "批准后将开始处理该请求。" }

def tenderInvocation : DialogueAgentInvocationCommand :=
  { conversationId := some 1
    capabilityCode := "tender.parse"
    inputs := []
    principal := {}
    call := some { callId := "c1", capabilityCode := "tender.parse" } }

def tenderSurroundings : Surroundings where
  output := .ok { status := .unrecognized }
  proposalId := ""

/-- The second click and the cancellation read the invocation before the first click consumes it. -/
def tenderEvents : List Event :=
  [.issue tenderProposal none, .bind "p1" tenderInvocation,
    .request ⟨"p1", .confirm, {}⟩, .request ⟨"p1", .confirm, {}⟩, .request ⟨"p1", .cancel, {}⟩] ++
  [0, 1, 2, 0, 0, 0, 0, 2, 2, 1, 1, 1].map fun k => .advance k tenderSurroundings

def tenderDecided : World := (tenderEvents.foldlM (World.step tenderApplication) {}).getD {}

theorem decided_once_tender :
    (tenderDecided.dispatches = ["p1"] ∧ tenderDecided.cancellations = []) ∧
      tenderDecided.dispatches.count "p1" + tenderDecided.cancellations.count "p1" ≤ 1 := by
  have hrun : tenderEvents.foldlM (World.step tenderApplication) {} = some tenderDecided := rfl
  have hreach : Reachable (· = {}) (Moves tenderApplication) tenderDecided :=
    ⟨{}, tenderEvents, rfl, Steps.of_foldlM hrun⟩
  exact ⟨⟨rfl, rfl⟩, (decided_once hreach "p1").1⟩

end GoAgent.Interaction
