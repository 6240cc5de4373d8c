import GoAgent.Foundation.Transition

/-!
# An object in memory and the rows it is saved to

A session works on one object: commands change it in memory, a save writes it to its rows, and a
load replaces it by what the rows hold, so that what was not saved is lost.

`tracked` is the invariant rule: the rows store an earlier version of the object in memory. It asks
what a command does to the object, and what a save and a load do to the rows.
-/

namespace GoAgent.Foundation

variable {ρ σ α κ : Type}

structure Session (ρ σ : Type) where
  rows : ρ
  value : σ

inductive SessionAction (α κ : Type)
  | command (a : α)
  | save (receipt : κ)
  | load

/-- One action; a command that is refused, a save the database refuses and a load that fails are no
steps. -/
inductive SessionStep (step : Session ρ σ → α → σ → Prop) (save : ρ → σ → κ → ρ → Prop)
    (load : ρ → σ → Prop) : Session ρ σ → SessionAction α κ → Session ρ σ → Prop
  | command {s : Session ρ σ} {a : α} {x : σ} (h : step s a x) :
      SessionStep step save load s (.command a) { s with value := x }
  | save {s : Session ρ σ} {receipt : κ} {rows : ρ} (h : save s.rows s.value receipt rows) :
      SessionStep step save load s (.save receipt) { s with rows := rows }
  | load {s : Session ρ σ} {x : σ} (h : load s.rows x) :
      SessionStep step save load s .load { s with value := x }

/-- **The rows store an earlier version of the object in memory.** -/
theorem tracked {init : Session ρ σ → Prop} {step : Session ρ σ → α → σ → Prop}
    {save : ρ → σ → κ → ρ → Prop} {load : ρ → σ → Prop} {stored : ρ → σ → Prop}
    {later : σ → σ → Prop} (hinit : ∀ {s}, init s → stored s.rows s.value ∧ later s.value s.value)
    (hcommand : ∀ {s base a x}, stored s.rows base → later base s.value → step s a x → later base x)
    (hsave : ∀ {rows base x receipt rows'}, stored rows base → later base x →
      save rows x receipt rows' → stored rows' x ∧ later x x)
    (hload : ∀ {rows base x}, stored rows base → load rows x → stored rows x ∧ later x x)
    {s : Session ρ σ} (h : Reachable init (SessionStep step save load) s) :
    ∃ base, stored s.rows base ∧ later base s.value := by
  refine h.invariant (P := fun s => ∃ base, stored s.rows base ∧ later base s.value)
    (fun h => ⟨_, hinit h⟩) ?_
  rintro s a s' ⟨base, hbase, hlater⟩ hs
  cases hs with
  | command h => exact ⟨base, hbase, hcommand hbase hlater h⟩
  | save h => exact ⟨s.value, hsave hbase hlater h⟩
  | load h => exact ⟨_, hload hbase h⟩

end GoAgent.Foundation
