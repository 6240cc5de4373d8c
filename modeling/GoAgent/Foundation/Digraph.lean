import GoAgent.Foundation.Raising
import Mathlib.Data.Finset.Max
import Mathlib.Data.List.Chain
import Mathlib.Data.List.Perm.Subperm

/-!
# Depth-first cycle check of a finite directed graph

`searchAll` visits every node of a graph given by its successor lists. A node being visited is
marked *visiting*; meeting such a node again is a cycle. `fuel` bounds the recursion depth.

**Theorem (`ranked_of_searchAll`).** If the search accepts, the graph has a rank that drops
along every edge.

**Theorem (`searchAll_error_iff`).** In a closed graph the search rejects exactly when there is a
cycle, and more fuel changes nothing (`visitEach_mono`).

The visited nodes are kept in finishing order, latest first. When a node finishes, all its
successors have finished before it and it has not itself, so every successor of a visited node
stands further down the list (`Finished`), and the position in the list is the rank. The visiting
nodes are a path from the node being visited back to the root (`OnPath`): it repeats no node, so it
is no longer than the graph, and a successor that stands on it closes a cycle.
-/

namespace GoAgent.Foundation

variable {ν : Type} [DecidableEq ν]

inductive SearchError
  | cycle
  | outOfFuel
  deriving DecidableEq

/-- The two mark sets of the search. -/
structure Marks (ν : Type) where
  visiting : List ν
  visited : List ν

/-- Visit the nodes of a list from left to right. -/
def visitEach (f : ν → Marks ν → Except SearchError (Marks ν)) :
    List ν → Marks ν → Except SearchError (Marks ν)
  | [], m => .ok m
  | x :: xs, m => do
    let m ← f x m
    visitEach f xs m

/-- Visit a node and everything reachable from it. -/
def visit (children : ν → List ν) : Nat → ν → Marks ν → Except SearchError (Marks ν)
  | 0, _, _ => .error .outOfFuel
  | fuel + 1, x, m =>
    if x ∈ m.visiting then .error .cycle
    else if x ∈ m.visited then .ok m
    else do
      let m ← visitEach (visit children fuel) (children x) { m with visiting := x :: m.visiting }
      pure { visiting := m.visiting.erase x, visited := x :: m.visited }

/-- Visit every node. A path without repetition has at most as many nodes as the graph, so one
more level of recursion than that is enough. -/
def searchAll (children : ν → List ν) (nodes : List ν) : Except SearchError (Marks ν) :=
  visitEach (visit children (nodes.length + 1)) nodes { visiting := [], visited := [] }

/-! ## Finishing order -/

/-- Each node stands before all its successors, and once. -/
def Finished (children : ν → List ν) : List ν → Prop
  | [] => True
  | x :: xs => x ∉ xs ∧ (∀ c ∈ children x, c ∈ xs) ∧ Finished children xs

/-- What a search step may do to the marks. -/
structure Extends (children : ν → List ν) (m m' : Marks ν) : Prop where
  visiting : m'.visiting = m.visiting
  visited : ∀ y ∈ m.visited, y ∈ m'.visited
  finished : Finished children m'.visited
  disjoint : ∀ y ∈ m'.visiting, y ∉ m'.visited

variable {children : ν → List ν}

omit [DecidableEq ν] in
theorem visitEach_extends {f : ν → Marks ν → Except SearchError (Marks ν)}
    (hf : ∀ {x m m'}, f x m = .ok m' → Finished children m.visited →
      (∀ y ∈ m.visiting, y ∉ m.visited) → Extends children m m' ∧ x ∈ m'.visited) :
    ∀ {xs : List ν} {m m' : Marks ν}, visitEach f xs m = .ok m' →
      Finished children m.visited → (∀ y ∈ m.visiting, y ∉ m.visited) →
      Extends children m m' ∧ ∀ x ∈ xs, x ∈ m'.visited
  | [], m, m', h, hfin, hdis => by
    cases h
    exact ⟨⟨rfl, fun _ h => h, hfin, hdis⟩, by simp⟩
  | x :: xs, m, m', h, hfin, hdis => by
    simp only [visitEach, except_bind_ok] at h
    obtain ⟨m₁, h₁, h₂⟩ := h
    obtain ⟨he₁, hx⟩ := hf h₁ hfin hdis
    obtain ⟨he₂, hxs⟩ := visitEach_extends hf h₂ he₁.finished he₁.disjoint
    refine ⟨⟨he₂.visiting.trans he₁.visiting, fun y hy => he₂.visited y (he₁.visited y hy),
      he₂.finished, he₂.disjoint⟩, ?_⟩
    intro y hy
    rcases List.mem_cons.1 hy with rfl | hy
    · exact he₂.visited _ hx
    · exact hxs y hy

theorem visit_extends (fuel : Nat) : ∀ {x : ν} {m m' : Marks ν}, visit children fuel x m = .ok m' →
    Finished children m.visited → (∀ y ∈ m.visiting, y ∉ m.visited) →
    Extends children m m' ∧ x ∈ m'.visited := by
  induction fuel with
  | zero => intro x m m' h; simp [visit] at h
  | succ fuel ih =>
    intro x m m' h hfin hdis
    simp only [visit] at h
    split_ifs at h with hvis hdone
    · cases h
      exact ⟨⟨rfl, fun _ h => h, hfin, hdis⟩, hdone⟩
    · simp only [except_bind_ok, except_pure_ok] at h
      obtain ⟨m₁, h₁, rfl⟩ := h
      have hdis' : ∀ y ∈ x :: m.visiting, y ∉ m.visited := fun y hy => by
        rcases List.mem_cons.1 hy with rfl | hy
        · exact hdone
        · exact hdis y hy
      obtain ⟨he, hc⟩ := visitEach_extends (fun h => ih h) h₁ hfin hdis'
      -- While `x` is visiting no call can finish it, so it is new to the finishing order.
      have hx : x ∉ m₁.visited := he.disjoint x (by rw [he.visiting]; exact List.mem_cons_self)
      have hv : m₁.visiting.erase x = m.visiting := by rw [he.visiting]; simp
      refine ⟨⟨hv, fun y hy => List.mem_cons_of_mem _ (he.visited y hy), ⟨hx, hc, he.finished⟩, ?_⟩,
        List.mem_cons_self⟩
      intro y hy hmem
      simp only [hv] at hy
      rcases List.mem_cons.1 hmem with rfl | hmem
      · exact hvis hy
      · exact he.disjoint y (by rw [he.visiting]; exact List.mem_cons_of_mem _ hy) hmem

/-- The number of nodes from `x` to the end of the finishing order. -/
def height (order : List ν) (x : ν) : Nat := (order.dropWhile fun y => y ≠ x).length

theorem height_le (order : List ν) (x : ν) : height order x ≤ order.length :=
  (List.dropWhile_sublist _).length_le

theorem height_cons_ne {order : List ν} {x y : ν} (h : y ≠ x) :
    height (y :: order) x = height order x := by
  simp [height, h]

omit [DecidableEq ν] in
theorem mem_of_finished {order : List ν} (h : Finished children order) {x c : ν} (hx : x ∈ order)
    (hc : c ∈ children x) : c ∈ order := by
  induction order with
  | nil => cases hx
  | cons y ys ih =>
    obtain ⟨-, hy, hys⟩ := h
    rcases List.mem_cons.1 hx with rfl | hx
    · exact List.mem_cons_of_mem _ (hy c hc)
    · exact List.mem_cons_of_mem _ (ih hys hx)

theorem height_lt_of_finished {order : List ν} (h : Finished children order) {x c : ν}
    (hx : x ∈ order) (hc : c ∈ children x) : height order c < height order x := by
  induction order with
  | nil => cases hx
  | cons y ys ih =>
    obtain ⟨hny, hy, hys⟩ := h
    have hcy : ∀ {z}, z ∈ ys → height (y :: ys) z = height ys z := fun {z} hz =>
      height_cons_ne fun he => hny (he ▸ hz)
    rcases List.mem_cons.1 hx with rfl | hx
    · have hself : height (x :: ys) x = ys.length + 1 := by simp [height]
      have hle := height_le ys c
      rw [hcy (hy c hc), hself]
      omega
    · rw [hcy hx, hcy (mem_of_finished hys hx hc)]
      exact ih hys hx

/-! ## Acyclic graphs -/

/-- Some rank drops along every edge out of `nodes`. -/
def Ranked (children : ν → List ν) (nodes : List ν) : Prop :=
  ∃ rank : ν → Nat, ∀ x ∈ nodes, ∀ c ∈ children x, rank c < rank x

/-- **An accepting search proves the graph acyclic.** -/
theorem ranked_of_searchAll {nodes : List ν} {m : Marks ν}
    (h : searchAll children nodes = .ok m) : Ranked children nodes := by
  obtain ⟨he, hall⟩ := visitEach_extends (fun h => visit_extends _ h) h trivial (by simp)
  exact ⟨height m.visited, fun x hx c hc => height_lt_of_finished he.finished (hall x hx) hc⟩

/-! ## Cyclic graphs -/

def Edge (children : ν → List ν) (x c : ν) : Prop := c ∈ children x

def Cyclic (children : ν → List ν) (nodes : List ν) : Prop :=
  ∃ x ∈ nodes, Relation.TransGen (Edge children) x x

/-- No edge leaves the graph. -/
def Closed (children : ν → List ν) (nodes : List ν) : Prop :=
  ∀ x ∈ nodes, ∀ c ∈ children x, c ∈ nodes

omit [DecidableEq ν] in
theorem Ranked.not_cyclic {nodes : List ν} (hclosed : Closed children nodes)
    (h : Ranked children nodes) : ¬Cyclic children nodes := by
  rintro ⟨x, hx, hcycle⟩
  rcases h with ⟨rank, hrank⟩
  have hdrops : ∀ {y}, Relation.TransGen (Edge children) x y → y ∈ nodes ∧ rank y < rank x := by
    intro y hy
    induction hy with
    | single hxy => exact ⟨hclosed x hx _ hxy, hrank x hx _ hxy⟩
    | tail _ hyz ih =>
      rcases ih with ⟨hy, hlt⟩
      exact ⟨hclosed _ hy _ hyz, (hrank _ hy _ hyz).trans hlt⟩
  exact Nat.lt_irrefl (rank x) (hdrops hcycle).2

/-- Where the search stands: the nodes being visited, latest first, each an edge after the next. -/
structure OnPath (children : ν → List ν) (nodes : List ν) (path : List ν) : Prop where
  chain : path.IsChain fun c x => Edge children x c
  nodup : path.Nodup
  mem : ∀ x ∈ path, x ∈ nodes

omit [DecidableEq ν] in
theorem visitEach_visiting {f : ν → Marks ν → Except SearchError (Marks ν)}
    (hf : ∀ {x m m'}, f x m = .ok m' → m'.visiting = m.visiting) {xs : List ν} {m m' : Marks ν}
    (h : visitEach f xs m = .ok m') : m'.visiting = m.visiting := by
  induction xs generalizing m with
  | nil =>
    cases h
    rfl
  | cons x xs ih =>
    simp only [visitEach, except_bind_ok] at h
    rcases h with ⟨m₁, h₁, h₂⟩
    exact (ih h₂).trans (hf h₁)

/-- What a finished visit leaves on the path is what it found there. -/
theorem visit_visiting {fuel : Nat} {x : ν} {m m' : Marks ν}
    (h : visit children fuel x m = .ok m') : m'.visiting = m.visiting := by
  induction fuel generalizing x m m' with
  | zero => simp [visit] at h
  | succ fuel ih =>
    simp only [visit] at h
    split_ifs at h
    · cases h
      rfl
    · simp only [except_bind_ok, except_pure_ok] at h
      rcases h with ⟨m₁, h₁, rfl⟩
      have hpath : m₁.visiting = x :: m.visiting := visitEach_visiting ih h₁
      simp [hpath]

omit [DecidableEq ν] in
/-- A loop over the children fails at one of them, with the path it started from. -/
theorem visitEach_error {f : ν → Marks ν → Except SearchError (Marks ν)}
    (hf : ∀ {x m m'}, f x m = .ok m' → m'.visiting = m.visiting) {xs : List ν} {m : Marks ν}
    {e : SearchError} (h : visitEach f xs m = .error e) :
    ∃ x ∈ xs, ∃ m', m'.visiting = m.visiting ∧ f x m' = .error e := by
  induction xs generalizing m with
  | nil => cases h
  | cons x xs ih =>
    simp only [visitEach] at h
    cases hx : f x m with
    | error e' =>
      rw [hx] at h
      cases h
      exact ⟨x, List.mem_cons_self, m, rfl, hx⟩
    | ok m₁ =>
      rw [hx] at h
      rcases ih h with ⟨y, hy, m', hm', hfail⟩
      exact ⟨y, List.mem_cons_of_mem x hy, m', hm'.trans (hf hx), hfail⟩

omit [DecidableEq ν] in
/-- A node on the path that is met again lies on a cycle. -/
theorem cyclic_of_mem_path {nodes path : List ν} {x : ν}
    (hchain : (x :: path).IsChain fun c x => Edge children x c) (hx : x ∈ path)
    (hmem : x ∈ nodes) : Cyclic children nodes := by
  have hwalks : (x :: path).IsChain fun c x => Relation.TransGen (Edge children) x c :=
    hchain.imp fun _ _ h => Relation.TransGen.single h
  have htrans : ∀ a b c, Relation.TransGen (Edge children) b a →
      Relation.TransGen (Edge children) c b → Relation.TransGen (Edge children) c a :=
    fun _ _ _ hab hbc => hbc.trans hab
  have : IsTrans ν fun c x => Relation.TransGen (Edge children) x c := ⟨htrans⟩
  exact ⟨x, hmem, (List.pairwise_cons.1 hwalks.pairwise).1 x hx⟩

/-- **A visit fails on a cycle only**, when the fuel covers what the path leaves of the graph. -/
theorem visit_error {nodes : List ν} (hclosed : Closed children nodes) {fuel : Nat} {x : ν}
    {m : Marks ν} {e : SearchError} (hx : x ∈ nodes) (hpath : OnPath children nodes m.visiting)
    (hchain : (x :: m.visiting).IsChain fun c x => Edge children x c)
    (hfuel : nodes.length < fuel + m.visiting.length)
    (h : visit children fuel x m = .error e) : e = .cycle ∧ Cyclic children nodes := by
  induction fuel generalizing x m with
  | zero =>
    have hle : m.visiting.length ≤ nodes.length :=
      (hpath.nodup.subperm fun y hy => hpath.mem y hy).length_le
    omega
  | succ fuel ih =>
    simp only [visit] at h
    split_ifs at h with hvisiting hvisited
    · cases h
      exact ⟨rfl, cyclic_of_mem_path hchain hvisiting hx⟩
    · cases hloop : visitEach (visit children fuel) (children x)
        { m with visiting := x :: m.visiting } with
      | ok m₁ =>
        rw [hloop] at h
        cases h
      | error e' =>
        rw [hloop] at h
        cases h
        rcases visitEach_error visit_visiting hloop with ⟨c, hc, m', hm', hfail⟩
        have hpath' : OnPath children nodes m'.visiting := by
          rw [hm']
          exact ⟨hchain, List.nodup_cons.2 ⟨hvisiting, hpath.nodup⟩,
            List.forall_mem_cons.2 ⟨hx, hpath.mem⟩⟩
        apply ih (hclosed x hx c hc) hpath' _ _ hfail
        · rw [hm']
          exact List.isChain_cons_cons.2 ⟨hc, hchain⟩
        · rw [hm', List.length_cons]
          omega

theorem searchAll_error {nodes : List ν} (hclosed : Closed children nodes) {e : SearchError}
    (h : searchAll children nodes = .error e) : e = .cycle ∧ Cyclic children nodes := by
  rcases visitEach_error visit_visiting h with ⟨x, hx, m, hm, hfail⟩
  have hpath : OnPath children nodes m.visiting := by
    rw [hm]
    exact ⟨List.isChain_nil, List.nodup_nil, by simp⟩
  apply visit_error hclosed hx hpath _ _ hfail
  · rw [hm]
    exact List.isChain_singleton x
  · omega

/-- **The search rejects exactly the cyclic graphs.** -/
theorem searchAll_error_iff {nodes : List ν} (hclosed : Closed children nodes) :
    searchAll children nodes = .error .cycle ↔ Cyclic children nodes := by
  constructor
  · intro h
    exact (searchAll_error hclosed h).2
  · intro hcyclic
    cases h : searchAll children nodes with
    | ok m => exact absurd hcyclic ((ranked_of_searchAll h).not_cyclic hclosed)
    | error e => rw [(searchAll_error hclosed h).1]

/-! ## More fuel -/

omit [DecidableEq ν] in
theorem visitEach_mono_of {f g : ν → Marks ν → Except SearchError (Marks ν)}
    (hfg : ∀ x m, f x m ≠ .error .outOfFuel → g x m = f x m) {xs : List ν} {m : Marks ν}
    (h : visitEach f xs m ≠ .error .outOfFuel) : visitEach g xs m = visitEach f xs m := by
  induction xs generalizing m with
  | nil => rfl
  | cons x xs ih =>
    simp only [visitEach] at h ⊢
    have hx : f x m ≠ .error .outOfFuel := by
      intro hout
      rw [hout] at h
      exact h rfl
    rw [hfg x m hx]
    cases hm : f x m with
    | error e => rfl
    | ok m₁ =>
      rw [hm] at h
      exact ih h

theorem visit_succ {fuel : Nat} {x : ν} {m : Marks ν}
    (h : visit children fuel x m ≠ .error .outOfFuel) :
    visit children (fuel + 1) x m = visit children fuel x m := by
  induction fuel generalizing x m with
  | zero => exact absurd rfl h
  | succ fuel ih =>
    rw [visit] at h ⊢
    rw [visit]
    split_ifs with hvisiting hvisited
    · rfl
    · rfl
    · rw [if_neg hvisiting, if_neg hvisited] at h
      have hloop : visitEach (visit children fuel) (children x)
          { m with visiting := x :: m.visiting } ≠ .error .outOfFuel := by
        intro hout
        rw [hout] at h
        exact h rfl
      rw [visitEach_mono_of (fun y m' => ih) hloop]

/-- **More fuel changes nothing** once there is enough. -/
theorem visitEach_mono {fuel fuel' : Nat} (hle : fuel ≤ fuel') {xs : List ν} {m : Marks ν}
    (h : visitEach (visit children fuel) xs m ≠ .error .outOfFuel) :
    visitEach (visit children fuel') xs m = visitEach (visit children fuel) xs m := by
  induction fuel', hle using Nat.le_induction with
  | base => rfl
  | succ fuel' _ ih =>
    rw [← ih]
    apply visitEach_mono_of fun y m' => visit_succ
    rw [ih]
    exact h

/-! ## Minimal nodes -/

/-- In an acyclic graph every non-empty set of nodes has a member none of whose predecessors is
in the set. -/
theorem Ranked.exists_minimal {nodes : List ν} (h : Ranked children nodes) {P : ν → Prop}
    (hP : ∃ x ∈ nodes, P x) :
    ∃ x ∈ nodes, P x ∧ ∀ p ∈ nodes, x ∈ children p → ¬P p := by
  classical
  obtain ⟨rank, hrank⟩ := h
  obtain ⟨x₀, hx₀, hP₀⟩ := hP
  obtain ⟨x, hx, hmax⟩ := (nodes.toFinset.filter P).exists_max_image rank
    ⟨x₀, by simp [hx₀, hP₀]⟩
  simp only [Finset.mem_filter, List.mem_toFinset] at hx hmax
  refine ⟨x, hx.1, hx.2, fun p hp hxp hPp => ?_⟩
  have hle := hmax p ⟨hp, hPp⟩
  have hlt := hrank p hp x hxp
  omega

end GoAgent.Foundation
