import GoAgent.Foundation.Indexed
import GoAgent.Foundation.Keyed
import GoAgent.Foundation.Raising
import GoAgent.Foundation.Text
import GoAgent.Foundation.Transition
import Mathlib.Logic.Function.Basic

/-!
# The conversation turn coordinator

Ordinary turns of one conversation take turns: `acquire` joins the lock state of the conversation,
made on demand, and waits for its lock; the lease it returns gives both back, once. The lock is a
correct mutex: a waiting caller may enter while nobody holds it.

A step of a `World` is a call of `acquire` up to its `await`, a waiting caller that enters or is
cancelled, or a call of `release`. `Sound` says that the registry is exactly what the turns in
progress claim, that reference counts count them, and that a lock is locked while one turn holds
it.

* `sound_of_step`, `sound_of_reachable` — every step keeps `Sound`.
* `release_total` — no release and no cancellation raises.
* `turns_exclude_each_other` — what the registry and the leases satisfy in every reachable world.
-/

namespace GoAgent.Dialogue.Coordination

open GoAgent.Foundation

/-! ## The coordinator -/

inductive RuntimeError where
  | invalidReferences (message : String)
  | lockNotAcquired
  deriving DecidableEq

structure ConversationLockState where
  locked : Bool := false
  references : Int := 0
  deriving DecidableEq

/-- A conversation and the address of its lock state. -/
structure Entry where
  conversation : UUID
  state : Nat
  deriving DecidableEq

/-- The lock states made so far, by address, and the registry of those in use. -/
structure ConversationTurnCoordinator where
  heap : Nat → ConversationLockState := fun _ => {}
  allocated : Nat := 0
  states : List Entry := []

structure ConversationTurnLease where
  conversation : UUID
  state : Nat
  released : Bool := false
  deriving DecidableEq

abbrev CoordinatorM := EStateM RuntimeError ConversationTurnCoordinator

namespace ConversationTurnCoordinator

def withState (c : ConversationTurnCoordinator) (address : Nat) (state : ConversationLockState) :
    ConversationTurnCoordinator :=
  { c with heap := Function.update c.heap address state }

def addReferences (c : ConversationTurnCoordinator) (address : Nat) (n : Int) :
    ConversationTurnCoordinator :=
  c.withState address
    { c.heap address with references := (c.heap address).references + n }

/-- `acquire` up to `await state.lock.acquire()`. -/
def join (conversation : UUID) : CoordinatorM Nat := do
  let c ← get
  match lookup Entry.conversation conversation c.states with
  | some e => do
    set (c.addReferences e.state 1)
    pure e.state
  | none => do
    let address := c.allocated
    let c := { c.withState address {} with
      allocated := address + 1, states := c.states ++ [Entry.mk conversation address] }
    set (c.addReferences address 1)
    pure address

def delete (c : ConversationTurnCoordinator) (conversation : UUID) : ConversationTurnCoordinator :=
  { c with states := c.states.filter fun e => e.conversation ≠ conversation }

def releaseReference (conversation : UUID) (address : Nat) : CoordinatorM Unit := do
  modify fun c => c.addReferences address (-1)
  let c ← get
  check (0 ≤ (c.heap address).references) (.invalidReferences "会话锁引用计数无效。")
  if (c.heap address).references = 0 ∧
      (lookup Entry.conversation conversation c.states).map Entry.state = some address then
    set (c.delete conversation)

/-- `asyncio.Lock.release` and then the reference. -/
def release (conversation : UUID) (address : Nat) : CoordinatorM Unit := do
  let c ← get
  check ((c.heap address).locked = true) .lockNotAcquired
  set (c.withState address { c.heap address with locked := false })
  releaseReference conversation address

end ConversationTurnCoordinator

open ConversationTurnCoordinator

def ConversationTurnLease.release (lease : ConversationTurnLease) :
    CoordinatorM ConversationTurnLease := do
  if lease.released then pure lease
  else do
    ConversationTurnCoordinator.release lease.conversation lease.state
    pure { lease with released := true }

/-! ## Callers -/

/-- How far a call of `acquire` has come. -/
inductive Turn where
  | waiting (conversation : UUID) (state : Nat)
  | leased (lease : ConversationTurnLease)
  | cancelled
  deriving DecidableEq

/-- The lock state a turn has joined and not given back. -/
def Turn.claim : Turn → Option Entry
  | waiting conversation state => some ⟨conversation, state⟩
  | leased lease => if lease.released then none else some ⟨lease.conversation, lease.state⟩
  | cancelled => none

/-- The lock a turn holds. -/
def Turn.holding : Turn → Option Entry
  | leased lease => if lease.released then none else some ⟨lease.conversation, lease.state⟩
  | waiting .. | cancelled => none

structure World where
  coordinator : ConversationTurnCoordinator := {}
  turns : List Turn := []

inductive Event where
  | acquire (conversation : UUID)
  | enter (k : Nat)
  | cancel (k : Nat)
  | release (k : Nat)
  deriving DecidableEq

/-- One thing happens; between two `await`s nothing else runs. -/
inductive Moves : World → Event → World → Prop
  | acquire {w : World} {conversation : UUID} {address : Nat} {c : ConversationTurnCoordinator}
      (h : join conversation w.coordinator = .ok address c) :
      Moves w (.acquire conversation) ⟨c, w.turns ++ [.waiting conversation address]⟩
  | enter {w : World} {k : Nat} {conversation : UUID} {address : Nat}
      (hturn : w.turns[k]? = some (.waiting conversation address))
      (hfree : (w.coordinator.heap address).locked = false) :
      Moves w (.enter k)
        ⟨w.coordinator.withState address { w.coordinator.heap address with locked := true },
          w.turns.set k (.leased { conversation, state := address })⟩
  | cancel {w : World} {k : Nat} {conversation : UUID} {address : Nat}
      {c : ConversationTurnCoordinator}
      (hturn : w.turns[k]? = some (.waiting conversation address))
      (h : releaseReference conversation address w.coordinator = .ok () c) :
      Moves w (.cancel k) ⟨c, w.turns.set k .cancelled⟩
  | release {w : World} {k : Nat} {lease lease' : ConversationTurnLease}
      {c : ConversationTurnCoordinator} (hturn : w.turns[k]? = some (.leased lease))
      (h : lease.release w.coordinator = .ok lease' c) :
      Moves w (.release k) ⟨c, w.turns.set k (.leased lease')⟩

/-- How many turns have joined the lock state. -/
def World.claims (w : World) (e : Entry) : Nat := (w.turns.map Turn.claim).count (some e)

/-- How many turns hold its lock. -/
def World.holds (w : World) (e : Entry) : Nat := (w.turns.map Turn.holding).count (some e)

/-- The registry is what the turns in progress claim. -/
structure Sound (w : World) : Prop where
  registered : ∀ e, e ∈ w.coordinator.states ↔ 0 < w.claims e
  references : ∀ e ∈ w.coordinator.states, (w.coordinator.heap e.state).references = w.claims e
  locked : ∀ e ∈ w.coordinator.states,
    w.holds e = if (w.coordinator.heap e.state).locked then 1 else 0
  conversations : (w.coordinator.states.map Entry.conversation).Nodup
  addresses : (w.coordinator.states.map Entry.state).Nodup
  allocated : ∀ e ∈ w.coordinator.states, e.state < w.coordinator.allocated
  idle : ∀ a, a ∉ w.coordinator.states.map Entry.state → (w.coordinator.heap a).references = 0

/-! ## Counting -/

section

variable {w w' : World} {c c' : ConversationTurnCoordinator} {e e' : Entry} {t t' : Turn}
  {k n : Nat} {conversation : UUID} {address : Nat}

theorem claims_append : World.claims ⟨c, w.turns ++ [t]⟩ e =
    w.claims e + if t.claim = some e then 1 else 0 := by
  simp [World.claims, List.count_append, List.count_cons]

theorem holds_append : World.holds ⟨c, w.turns ++ [t]⟩ e =
    w.holds e + if t.holding = some e then 1 else 0 := by
  simp [World.holds, List.count_append, List.count_cons]

theorem claims_set (h : w.turns[k]? = some t) :
    World.claims ⟨c, w.turns.set k t'⟩ e + (if t.claim = some e then 1 else 0) =
      w.claims e + if t'.claim = some e then 1 else 0 := by
  have hk : (w.turns.map Turn.claim)[k]? = some t.claim := by rw [List.getElem?_map, h]; rfl
  rw [World.claims, World.claims, List.map_set]
  exact count_set hk

theorem holds_set (h : w.turns[k]? = some t) :
    World.holds ⟨c, w.turns.set k t'⟩ e + (if t.holding = some e then 1 else 0) =
      w.holds e + if t'.holding = some e then 1 else 0 := by
  have hk : (w.turns.map Turn.holding)[k]? = some t.holding := by rw [List.getElem?_map, h]; rfl
  rw [World.holds, World.holds, List.map_set]
  exact count_set hk

theorem claim_of_holding (h : t.holding = some e) : t.claim = some e := by
  cases t with
  | leased lease => exact h
  | waiting | cancelled => cases h

theorem claims_pos (h : w.turns[k]? = some t) (hclaim : t.claim = some e) : 0 < w.claims e := by
  apply List.count_pos_iff.2
  exact List.mem_map.2 ⟨t, List.mem_of_getElem? h, hclaim⟩

theorem holds_pos (h : w.turns[k]? = some t) (hholding : t.holding = some e) : 0 < w.holds e := by
  apply List.count_pos_iff.2
  exact List.mem_map.2 ⟨t, List.mem_of_getElem? h, hholding⟩

/-! ## What the methods do -/

theorem heap_addReferences_self {m : Int} : (c.addReferences address m).heap address =
    { c.heap address with references := (c.heap address).references + m } :=
  Function.update_self ..

theorem heap_addReferences_ne {a : Nat} {m : Int} (h : a ≠ address) :
    (c.addReferences address m).heap a = c.heap a := Function.update_of_ne h ..

theorem join_known (hkeys : (c.states.map Entry.conversation).Nodup) (he : e ∈ c.states) :
    join e.conversation c = .ok e.state (c.addReferences e.state 1) := by
  have hget : (get : CoordinatorM ConversationTurnCoordinator) c = .ok c c := rfl
  unfold join
  rw [bind_of_ok hget, lookup_of_mem hkeys he]
  rfl

/-- The coordinator after a first join. -/
def opened (c : ConversationTurnCoordinator) (conversation : UUID) : ConversationTurnCoordinator :=
  ConversationTurnCoordinator.addReferences { c.withState c.allocated {} with
    allocated := c.allocated + 1, states := c.states ++ [⟨conversation, c.allocated⟩] } c.allocated 1

theorem join_new (hnew : conversation ∉ c.states.map Entry.conversation) :
    join conversation c = .ok c.allocated (opened c conversation) := by
  have hget : (get : CoordinatorM ConversationTurnCoordinator) c = .ok c c := rfl
  unfold join
  rw [bind_of_ok hget, lookup_eq_none_iff.2 hnew]
  rfl

theorem heap_opened_self : (opened c conversation).heap c.allocated = { references := 1 } := by
  rw [opened, heap_addReferences_self]
  simp [withState]

theorem heap_opened_ne {a : Nat} (h : a ≠ c.allocated) :
    (opened c conversation).heap a = c.heap a := by
  rw [opened, heap_addReferences_ne h]
  exact Function.update_of_ne h ..

/-- The coordinator after one of `n + 1` references is given back. -/
def dropped (c : ConversationTurnCoordinator) (e : Entry) (n : Nat) : ConversationTurnCoordinator :=
  if n = 0 then (c.addReferences e.state (-1)).delete e.conversation
  else c.addReferences e.state (-1)

theorem releaseReference_eq (hkeys : (c.states.map Entry.conversation).Nodup) (he : e ∈ c.states)
    (hcount : (c.heap e.state).references = n + 1) :
    releaseReference e.conversation e.state c = .ok () (dropped c e n) := by
  let c₁ := c.addReferences e.state (-1)
  have hmodify : (modify fun c => c.addReferences e.state (-1) : CoordinatorM Unit) c =
      .ok () c₁ := rfl
  have hget : (get : CoordinatorM ConversationTurnCoordinator) c₁ = .ok c₁ c₁ := rfl
  have hrefs : (c₁.heap e.state).references = n := by
    rw [heap_addReferences_self]
    show (c.heap e.state).references + -1 = n
    omega
  have hlookup : lookup Entry.conversation e.conversation c₁.states = some e :=
    lookup_of_mem hkeys he
  unfold releaseReference
  rw [bind_of_ok hmodify, bind_of_ok hget,
    bind_of_ok (a := ()) (check_ok.2 ⟨by omega, rfl⟩), hlookup, hrefs]
  unfold dropped
  by_cases hzero : n = 0
  · rw [if_pos hzero, if_pos ⟨by omega, rfl⟩]
    rfl
  · rw [if_neg hzero, if_neg fun h => hzero (by omega)]
    rfl

theorem release_eq (hkeys : (c.states.map Entry.conversation).Nodup) (he : e ∈ c.states)
    (hcount : (c.heap e.state).references = n + 1) (hlocked : (c.heap e.state).locked = true) :
    ConversationTurnCoordinator.release e.conversation e.state c =
      .ok () (dropped (c.withState e.state { c.heap e.state with locked := false }) e n) := by
  let c₁ := c.withState e.state { c.heap e.state with locked := false }
  have hget : (get : CoordinatorM ConversationTurnCoordinator) c = .ok c c := rfl
  have hset : (set c₁ : CoordinatorM Unit) c = .ok () c₁ := rfl
  have hrefs : (c₁.heap e.state).references = n + 1 := by
    have hself : c₁.heap e.state = { c.heap e.state with locked := false } :=
      Function.update_self ..
    rw [hself]
    exact hcount
  unfold ConversationTurnCoordinator.release
  rw [bind_of_ok hget, bind_of_ok (a := ()) (check_ok.2 ⟨hlocked, rfl⟩), bind_of_ok hset]
  exact releaseReference_eq (c := c₁) hkeys he hrefs

/-! ## Steps -/

theorem sound_initial : Sound {} where
  registered _ := by simp [World.claims]
  references := by simp
  locked := by simp
  conversations := List.nodup_nil
  addresses := List.nodup_nil
  allocated := by simp
  idle _ _ := rfl

theorem Sound.eq_of_state (h : Sound w) (he : e ∈ w.coordinator.states)
    (he' : e' ∈ w.coordinator.states) (hstate : e.state = e'.state) : e = e' :=
  List.inj_on_of_nodup_map h.addresses he he' hstate

theorem Sound.eq_of_conversation (h : Sound w) (he : e ∈ w.coordinator.states)
    (he' : e' ∈ w.coordinator.states) (hconv : e.conversation = e'.conversation) : e = e' :=
  List.inj_on_of_nodup_map h.conversations he he' hconv

/-- A reference is given back: its entry has one claim less, and goes with the last. -/
theorem sound_dropped (w' : World) (c₁ : ConversationTurnCoordinator) (h : Sound w)
    (he : e ∈ w.coordinator.states) (hn : w.claims e = n + 1)
    (hstates : c₁.states = w.coordinator.states) (halloc : c₁.allocated = w.coordinator.allocated)
    (hheap : ∀ a, a ≠ e.state → c₁.heap a = w.coordinator.heap a)
    (hrefs : (c₁.heap e.state).references = n + 1)
    (hlocked : w'.holds e = if (c₁.heap e.state).locked then 1 else 0)
    (hclaims : ∀ x, w'.claims x = if x = e then n else w.claims x)
    (hholds : ∀ x, x ≠ e → w'.holds x = w.holds x) (hw' : w'.coordinator = dropped c₁ e n) :
    Sound w' := by
  have hmem : ∀ x, x ∈ w'.coordinator.states ↔ x ∈ w.coordinator.states ∧ (x = e → n ≠ 0) := by
    intro x
    rw [hw', dropped]
    split_ifs with hzero
    · show x ∈ c₁.states.filter _ ↔ _
      rw [List.mem_filter, hstates]
      constructor
      · rintro ⟨hx, hne⟩
        refine ⟨hx, fun hxe => ?_⟩
        simp [hxe] at hne
      · rintro ⟨hx, hne⟩
        refine ⟨hx, ?_⟩
        rw [decide_eq_true_eq]
        exact fun hconv => hne (h.eq_of_conversation hx he hconv) hzero
    · show x ∈ c₁.states ↔ _
      rw [hstates]
      exact ⟨fun hx => ⟨hx, fun _ => hzero⟩, fun hx => hx.1⟩
  have hsublist : w'.coordinator.states.Sublist w.coordinator.states := by
    rw [hw', dropped, ← hstates]
    split_ifs
    · exact List.filter_sublist
    · exact List.Sublist.refl _
  have hself : w'.coordinator.heap e.state =
      { c₁.heap e.state with references := n } := by
    have hheap' : w'.coordinator.heap = (c₁.addReferences e.state (-1)).heap := by
      rw [hw', dropped]
      split_ifs <;> rfl
    rw [hheap', heap_addReferences_self, hrefs, Int.add_neg_cancel_right]
  have hother : ∀ a, a ≠ e.state → w'.coordinator.heap a = w.coordinator.heap a := by
    intro a ha
    have hheap' : w'.coordinator.heap = (c₁.addReferences e.state (-1)).heap := by
      rw [hw', dropped]
      split_ifs <;> rfl
    rw [hheap', heap_addReferences_ne ha, hheap a ha]
  have hstate : ∀ x ∈ w'.coordinator.states, x ≠ e → x.state ≠ e.state := fun x hx hne hxe =>
    hne (h.eq_of_state ((hmem x).1 hx).1 he hxe)
  have halloc' : w'.coordinator.allocated = w.coordinator.allocated := by
    rw [hw', dropped, ← halloc]
    split_ifs <;> rfl
  constructor
  · intro x
    rw [hmem, hclaims]
    split_ifs with hx
    · subst hx
      exact ⟨fun hx => Nat.pos_of_ne_zero (hx.2 rfl), fun hpos => ⟨he, fun _ => hpos.ne'⟩⟩
    · rw [h.registered]
      exact ⟨fun hx' => hx'.1, fun hpos => ⟨hpos, fun hxe => absurd hxe hx⟩⟩
  · intro x hx
    rw [hclaims]
    split_ifs with hxe
    · rw [hxe, hself]
    · rw [hother _ (hstate x hx hxe)]
      exact h.references x ((hmem x).1 hx).1
  · intro x hx
    by_cases hxe : x = e
    · rw [hxe, hself]
      exact hlocked
    · rw [hother _ (hstate x hx hxe), hholds x hxe]
      exact h.locked x ((hmem x).1 hx).1
  · exact h.conversations.sublist (hsublist.map _)
  · exact h.addresses.sublist (hsublist.map _)
  · intro x hx
    rw [halloc']
    exact h.allocated x ((hmem x).1 hx).1
  · intro a ha
    by_cases hae : a = e.state
    · have hzero : n = 0 := by
        by_contra hne
        apply ha
        rw [hae]
        exact List.mem_map_of_mem ((hmem e).2 ⟨he, fun _ => hne⟩)
      rw [hae, hself, hzero]
      rfl
    · rw [hother a hae]
      apply h.idle
      intro hmap
      obtain ⟨x, hx, rfl⟩ := List.mem_map.1 hmap
      apply ha
      exact List.mem_map_of_mem ((hmem x).2 ⟨hx, fun hxe => absurd (congrArg Entry.state hxe) hae⟩)

/-- The lock state a turn in progress has joined is in the registry, under its references. -/
theorem Sound.claimed (h : Sound w) (hturn : w.turns[k]? = some t) (hclaim : t.claim = some e) :
    e ∈ w.coordinator.states ∧
      ∃ n : Nat, w.claims e = n + 1 ∧ (w.coordinator.heap e.state).references = n + 1 := by
  have hpos := claims_pos hturn hclaim
  have he := (h.registered e).2 hpos
  refine ⟨he, w.claims e - 1, by omega, ?_⟩
  rw [h.references e he]
  omega

theorem sound_joined (h : Sound w) {c : ConversationTurnCoordinator}
    (hjoin : join conversation w.coordinator = .ok address c) :
    Sound ⟨c, w.turns ++ [.waiting conversation address]⟩ := by
  have hclaims : ∀ x, World.claims ⟨c, w.turns ++ [.waiting conversation address]⟩ x =
      w.claims x + if (⟨conversation, address⟩ : Entry) = x then 1 else 0 := fun x => by
    simp only [claims_append, Turn.claim, Option.some.injEq]
  have hholds : ∀ x, World.holds ⟨c, w.turns ++ [.waiting conversation address]⟩ x = w.holds x :=
    fun x => holds_append
  by_cases hknown : conversation ∈ w.coordinator.states.map Entry.conversation
  · obtain ⟨e, he, rfl⟩ := List.mem_map.1 hknown
    rw [join_known h.conversations he] at hjoin
    obtain ⟨rfl, rfl⟩ := EStateM.Result.ok.inj hjoin
    constructor
    · intro x
      rw [hclaims]
      by_cases hx : e = x
      · subst hx
        rw [if_pos rfl]
        exact ⟨fun _ => Nat.succ_pos _, fun _ => he⟩
      · have hne : (⟨e.conversation, e.state⟩ : Entry) ≠ x := hx
        rw [if_neg hne]
        exact h.registered x
    · intro x hx
      rw [hclaims]
      by_cases hxe : e = x
      · subst hxe
        rw [heap_addReferences_self, if_pos rfl]
        show (w.coordinator.heap e.state).references + 1 = _
        rw [h.references e he]
        rfl
      · have hne : (⟨e.conversation, e.state⟩ : Entry) ≠ x := hxe
        rw [heap_addReferences_ne fun hs => hxe (h.eq_of_state he hx hs.symm), if_neg hne]
        exact h.references x hx
    · intro x hx
      rw [hholds, h.locked x hx]
      by_cases hxe : e = x
      · subst hxe
        rw [heap_addReferences_self]
      · rw [heap_addReferences_ne fun hs => hxe (h.eq_of_state he hx hs.symm)]
    · exact h.conversations
    · exact h.addresses
    · exact h.allocated
    · intro a ha
      have hne : a ≠ e.state := by
        rintro rfl
        exact ha (List.mem_map_of_mem he)
      show ((w.coordinator.addReferences e.state 1).heap a).references = 0
      rw [heap_addReferences_ne hne]
      exact h.idle a ha
  · rw [join_new hknown] at hjoin
    obtain ⟨rfl, rfl⟩ := EStateM.Result.ok.inj hjoin
    let e : Entry := ⟨conversation, w.coordinator.allocated⟩
    have hmem : ∀ x, x ∈ (opened w.coordinator conversation).states ↔
        x ∈ w.coordinator.states ∨ x = e := fun x => by
      show x ∈ w.coordinator.states ++ [e] ↔ _
      rw [List.mem_append, List.mem_singleton]
    have hnot : e ∉ w.coordinator.states := fun he => hknown (List.mem_map_of_mem he)
    have hnone : w.claims e = 0 := by
      by_contra hne
      exact hnot ((h.registered e).2 (Nat.pos_of_ne_zero hne))
    have hnoholds : w.holds e = 0 := by
      by_contra hne
      have hin := List.count_pos_iff.1 (Nat.pos_of_ne_zero hne)
      obtain ⟨t, ht, hholding⟩ := List.mem_map.1 hin
      obtain ⟨k, hk⟩ := List.mem_iff_getElem?.1 ht
      exact absurd (claims_pos hk (claim_of_holding hholding)) (by omega)
    have hold : ∀ x ∈ w.coordinator.states, x.state ≠ w.coordinator.allocated := fun x hx =>
      (h.allocated x hx).ne
    constructor
    · intro x
      rw [hmem, hclaims, h.registered]
      by_cases hx : e = x
      · subst hx
        simp [hnone, e]
      · rw [if_neg hx]
        exact ⟨fun hor => hor.resolve_right fun hxe => hx hxe.symm, Or.inl⟩
    · intro x hx
      rw [hclaims]
      rcases (hmem x).1 hx with hx | rfl
      · have hne : e ≠ x := fun hxe => hnot (hxe ▸ hx)
        rw [heap_opened_ne (hold x hx), if_neg hne]
        exact h.references x hx
      · show ((opened w.coordinator conversation).heap w.coordinator.allocated).references = _
        rw [heap_opened_self, hnone, if_pos rfl]
        rfl
    · intro x hx
      rw [hholds]
      rcases (hmem x).1 hx with hx | rfl
      · rw [heap_opened_ne (hold x hx)]
        exact h.locked x hx
      · show _ = if ((opened w.coordinator conversation).heap w.coordinator.allocated).locked then 1
          else 0
        rw [heap_opened_self, hnoholds]
        rfl
    · show ((w.coordinator.states ++ [e]).map Entry.conversation).Nodup
      rw [List.map_append, List.nodup_append]
      refine ⟨h.conversations, List.nodup_singleton _, ?_⟩
      rintro a ha b hb rfl
      rw [List.mem_singleton.1 hb] at ha
      exact hknown ha
    · show ((w.coordinator.states ++ [e]).map Entry.state).Nodup
      rw [List.map_append, List.nodup_append]
      refine ⟨h.addresses, List.nodup_singleton _, ?_⟩
      rintro a ha b hb rfl
      rw [List.mem_singleton.1 hb] at ha
      obtain ⟨x, hx, hstate⟩ := List.mem_map.1 ha
      exact hold x hx hstate
    · intro x hx
      show x.state < w.coordinator.allocated + 1
      rcases (hmem x).1 hx with hx | rfl
      · exact Nat.lt_succ_of_lt (h.allocated x hx)
      · exact Nat.lt_succ_self _
    · intro a ha
      have hne : a ≠ w.coordinator.allocated := by
        rintro rfl
        exact ha (List.mem_map.2 ⟨e, (hmem e).2 (Or.inr rfl), rfl⟩)
      show ((opened w.coordinator conversation).heap a).references = 0
      rw [heap_opened_ne hne]
      apply h.idle
      intro hmap
      obtain ⟨x, hx, rfl⟩ := List.mem_map.1 hmap
      exact ha (List.mem_map.2 ⟨x, (hmem x).2 (Or.inl hx), rfl⟩)

/-- The world after a turn gets the lock. -/
def entered (w : World) (k : Nat) (e : Entry) : World :=
  ⟨w.coordinator.withState e.state { w.coordinator.heap e.state with locked := true },
    w.turns.set k (.leased { conversation := e.conversation, state := e.state })⟩

theorem sound_entered (h : Sound w) (hturn : w.turns[k]? = some (.waiting e.conversation e.state))
    (hfree : (w.coordinator.heap e.state).locked = false) : Sound (entered w k e) := by
  obtain ⟨he, -⟩ := h.claimed (e := e) hturn rfl
  have hclaims : ∀ x, (entered w k e).claims x = w.claims x := fun x => by
    have hset : (entered w k e).claims x + _ = w.claims x + _ := claims_set hturn
    exact Nat.add_right_cancel hset
  have hholds : ∀ x, (entered w k e).holds x = w.holds x + if e = x then 1 else 0 := fun x => by
    have hset : (entered w k e).holds x + _ = w.holds x + _ := holds_set hturn
    simpa [Turn.holding] using hset
  have hself : (entered w k e).coordinator.heap e.state =
      { w.coordinator.heap e.state with locked := true } := Function.update_self ..
  have hother : ∀ a, a ≠ e.state →
      (entered w k e).coordinator.heap a = w.coordinator.heap a := fun a ha =>
    Function.update_of_ne ha ..
  have hrefs : ∀ a, ((entered w k e).coordinator.heap a).references =
      (w.coordinator.heap a).references := fun a => by
    by_cases ha : a = e.state
    · rw [ha, hself]
    · rw [hother a ha]
  constructor
  · intro x
    rw [hclaims]
    exact h.registered x
  · intro x hx
    rw [hclaims, hrefs]
    exact h.references x hx
  · intro x hx
    rw [hholds, h.locked x hx]
    by_cases hxe : e = x
    · subst hxe
      rw [hself, if_pos rfl, hfree]
      rfl
    · have hstate : x.state ≠ e.state := fun hs => hxe (h.eq_of_state he hx hs.symm)
      rw [hother _ hstate, if_neg hxe, Nat.add_zero]
  · exact h.conversations
  · exact h.addresses
  · exact h.allocated
  · intro a ha
    rw [hrefs]
    exact h.idle a ha

/-- A waiting turn that is cancelled gives its reference back. -/
theorem cancel_eq (h : Sound w) (hturn : w.turns[k]? = some (.waiting e.conversation e.state)) :
    ∃ c, releaseReference e.conversation e.state w.coordinator = .ok () c ∧
      Sound ⟨c, w.turns.set k .cancelled⟩ := by
  obtain ⟨he, n, hn, hrefs⟩ := h.claimed (e := e) hturn rfl
  refine ⟨_, releaseReference_eq h.conversations he hrefs, ?_⟩
  let w' : World := ⟨dropped w.coordinator e n, w.turns.set k .cancelled⟩
  have hholds : ∀ x, w'.holds x = w.holds x := fun x => by
    have hset : w'.holds x + _ = w.holds x + _ := holds_set hturn
    exact Nat.add_right_cancel hset
  have hclaims : ∀ x, w'.claims x = if x = e then n else w.claims x := fun x => by
    have hset : w'.claims x + (if some e = some x then 1 else 0) = w.claims x + 0 :=
      claims_set hturn
    by_cases hx : x = e
    · rw [hx, if_pos rfl] at hset
      rw [hx, if_pos rfl]
      omega
    · rw [if_neg fun hex => hx (Option.some.inj hex).symm] at hset
      rw [if_neg hx]
      exact hset
  exact sound_dropped w' w.coordinator h he hn rfl rfl (fun _ _ => rfl) hrefs
    ((hholds e).trans (h.locked e he)) hclaims (fun x _ => hholds x) rfl

/-- A lease gives its lock and its reference back the first time, and nothing after that. -/
theorem release_eq_of_sound {lease : ConversationTurnLease} (h : Sound w)
    (hturn : w.turns[k]? = some (.leased lease)) :
    ∃ c, lease.release w.coordinator = .ok { lease with released := true } c ∧
      Sound ⟨c, w.turns.set k (.leased { lease with released := true })⟩ := by
  obtain ⟨conversation, state, released⟩ := lease
  cases released with
  | true =>
    refine ⟨w.coordinator, rfl, ?_⟩
    rw [set_self hturn]
    exact h
  | false =>
    let e : Entry := ⟨conversation, state⟩
    obtain ⟨he, n, hn, hrefs⟩ := h.claimed (e := e) hturn rfl
    have hheld := holds_pos (e := e) hturn rfl
    have hlocked : (w.coordinator.heap e.state).locked = true := by
      by_contra hfree
      rw [h.locked e he, if_neg hfree] at hheld
      exact Nat.lt_irrefl 0 hheld
    have hone : w.holds e = 1 := by rw [h.locked e he, if_pos hlocked]
    let c₁ := w.coordinator.withState e.state { w.coordinator.heap e.state with locked := false }
    have hself : c₁.heap e.state = { w.coordinator.heap e.state with locked := false } :=
      Function.update_self ..
    have hrun : ConversationTurnLease.release ⟨conversation, state, false⟩ w.coordinator =
        .ok ⟨conversation, state, true⟩ (dropped c₁ e n) :=
      bind_of_ok (release_eq h.conversations he hrefs hlocked)
    refine ⟨_, hrun, ?_⟩
    let w' : World := ⟨dropped c₁ e n, w.turns.set k (.leased ⟨conversation, state, true⟩)⟩
    have hholds : ∀ x, w'.holds x + (if some e = some x then 1 else 0) = w.holds x + 0 :=
      fun x => holds_set hturn
    have hclaims : ∀ x, w'.claims x = if x = e then n else w.claims x := fun x => by
      have hset : w'.claims x + (if some e = some x then 1 else 0) = w.claims x + 0 :=
        claims_set hturn
      by_cases hx : x = e
      · rw [hx, if_pos rfl] at hset
        rw [hx, if_pos rfl]
        omega
      · rw [if_neg fun hex => hx (Option.some.inj hex).symm] at hset
        rw [if_neg hx]
        exact hset
    refine sound_dropped w' c₁ h he hn rfl rfl
      (fun a ha => Function.update_of_ne ha ..) ?_ ?_ hclaims (fun x hx => ?_) rfl
    · rw [hself]
      exact hrefs
    · have hset := hholds e
      rw [if_pos rfl] at hset
      rw [hself]
      show w'.holds e = 0
      omega
    · have hset := hholds x
      rw [if_neg fun hex => hx (Option.some.inj hex).symm] at hset
      exact hset

/-- **Every step keeps the registry sound.** -/
theorem sound_of_step {event : Event} (h : Sound w) (hs : Moves w event w') : Sound w' := by
  cases hs with
  | acquire hjoin => exact sound_joined h hjoin
  | @enter _ conversation address hturn hfree =>
    exact sound_entered (e := ⟨conversation, address⟩) h hturn hfree
  | @cancel _ conversation address c hturn hcancel =>
    obtain ⟨c', hrun, hsound⟩ := cancel_eq (e := ⟨conversation, address⟩) h hturn
    rw [hrun] at hcancel
    cases hcancel
    exact hsound
  | @release _ lease lease' c hturn hrelease =>
    obtain ⟨c', hrun, hsound⟩ := release_eq_of_sound h hturn
    rw [hrun] at hrelease
    cases hrelease
    exact hsound

theorem sound_of_reachable (h : Reachable (· = {}) Moves w) : Sound w :=
  h.invariant (P := Sound) (by rintro _ rfl; exact sound_initial) sound_of_step

/-! ## Exclusion -/

theorem Sound.lease_unique {i j : Nat} {lease lease' : ConversationTurnLease} (h : Sound w)
    (hi : w.turns[i]? = some (.leased lease)) (hj : w.turns[j]? = some (.leased lease'))
    (hheld : lease.released = false) (hheld' : lease'.released = false)
    (hconv : lease.conversation = lease'.conversation) : i = j := by
  have hholding : (Turn.leased lease).holding = some ⟨lease.conversation, lease.state⟩ := by
    simp [Turn.holding, hheld]
  have hholding' : (Turn.leased lease').holding = some ⟨lease'.conversation, lease'.state⟩ := by
    simp [Turn.holding, hheld']
  obtain ⟨he, -⟩ := h.claimed hi (claim_of_holding hholding)
  obtain ⟨he', -⟩ := h.claimed hj (claim_of_holding hholding')
  rw [← h.eq_of_conversation he he' hconv] at hholding'
  apply index_unique (l := w.turns.map Turn.holding)
    (a := some ⟨lease.conversation, lease.state⟩)
  · show w.holds _ ≤ 1
    rw [h.locked _ he]
    split_ifs <;> omega
  · rw [List.getElem?_map, hi, Option.map_some, hholding]
  · rw [List.getElem?_map, hj, Option.map_some, hholding']

/-- No release and no cancellation raises. -/
theorem release_total (h : Sound w) :
    (∀ (k : Nat) (lease : ConversationTurnLease), w.turns[k]? = some (.leased lease) →
      ∃ lease' c, lease.release w.coordinator = .ok lease' c) ∧
    ∀ (k : Nat) (conversation : UUID) (address : Nat),
      w.turns[k]? = some (.waiting conversation address) →
        ∃ c, releaseReference conversation address w.coordinator = .ok () c := by
  constructor
  · intro k lease hk
    obtain ⟨c, hrun, -⟩ := release_eq_of_sound h hk
    exact ⟨_, c, hrun⟩
  · intro k conversation address hk
    obtain ⟨c, hrun, -⟩ := cancel_eq (e := ⟨conversation, address⟩) h hk
    exact ⟨c, hrun⟩

/-- **The turns of a conversation exclude each other, and the registry knows those in progress.** -/
theorem turns_exclude_each_other (h : Reachable (· = {}) Moves w) :
    -- at most one lease of a conversation is held
    (∀ (i j : Nat) (lease lease' : ConversationTurnLease), w.turns[i]? = some (.leased lease) →
      w.turns[j]? = some (.leased lease') → lease.released = false → lease'.released = false →
      lease.conversation = lease'.conversation → i = j) ∧
    -- a lock state has an entry exactly while its reference count is positive
    (∀ a, (∃ e ∈ w.coordinator.states, e.state = a) ↔
      0 < (w.coordinator.heap a).references) ∧
    -- a conversation has one live lock state: that of its entry, and of every turn in progress
    (∀ e ∈ w.coordinator.states, ∀ e' ∈ w.coordinator.states,
      e.conversation = e'.conversation → e = e') ∧
    (∀ t ∈ w.turns, ∀ e, t.claim = some e → e ∈ w.coordinator.states) ∧
    -- the registry is empty when all callers are done
    ((∀ t ∈ w.turns, t.claim = none) → w.coordinator.states = []) ∧
    -- and giving back never raises
    (∀ (k : Nat) (lease : ConversationTurnLease), w.turns[k]? = some (.leased lease) →
      ∃ lease' c, lease.release w.coordinator = .ok lease' c) ∧
    ∀ (k : Nat) (conversation : UUID) (address : Nat),
      w.turns[k]? = some (.waiting conversation address) →
        ∃ c, releaseReference conversation address w.coordinator = .ok () c := by
  have hsound := sound_of_reachable h
  refine ⟨fun i j lease lease' => hsound.lease_unique, fun a => ⟨?_, fun hpos => ?_⟩,
    fun e he e' he' => hsound.eq_of_conversation he he', fun t ht e hclaim => ?_, fun hdone => ?_,
    release_total hsound⟩
  · rintro ⟨e, he, rfl⟩
    rw [hsound.references e he]
    exact Int.natCast_pos.2 ((hsound.registered e).1 he)
  · by_contra hnone
    have hzero : (w.coordinator.heap a).references ≠ 0 := by omega
    apply hzero
    apply hsound.idle
    intro hmap
    obtain ⟨e, he, rfl⟩ := List.mem_map.1 hmap
    exact hnone ⟨e, he, rfl⟩
  · obtain ⟨k, hk⟩ := List.mem_iff_getElem?.1 ht
    exact (hsound.claimed hk hclaim).1
  · rw [List.eq_nil_iff_forall_not_mem]
    intro e he
    obtain ⟨t, ht, hclaim⟩ := List.mem_map.1 (List.count_pos_iff.1 ((hsound.registered e).1 he))
    rw [hdone t ht] at hclaim
    cases hclaim

end

/-! ## Two callers of two conversations -/

def twoCallers : World :=
  { coordinator := opened (opened {} 7) 8
    turns := [.waiting 7 0, .waiting 8 1] }

theorem turns_exclude_each_other_two :
    (∃ e ∈ twoCallers.coordinator.states, e.state = 0) ∧
      0 < (twoCallers.coordinator.heap 0).references := by
  have hfirst : Moves {} (.acquire 7) ⟨opened {} 7, [.waiting 7 0]⟩ := .acquire rfl
  have hsecond : Moves ⟨opened {} 7, [.waiting 7 0]⟩ (.acquire 8) twoCallers := .acquire rfl
  have hstart : Reachable (· = {}) Moves {} := Reachable.start rfl
  have hreach : Reachable (· = {}) Moves twoCallers := (hstart.next hfirst).next hsecond
  have hentry : ∃ e ∈ twoCallers.coordinator.states, e.state = 0 :=
    ⟨⟨7, 0⟩, List.mem_cons_self, rfl⟩
  exact ⟨hentry, ((turns_exclude_each_other hreach).2.1 0).1 hentry⟩

end GoAgent.Dialogue.Coordination
