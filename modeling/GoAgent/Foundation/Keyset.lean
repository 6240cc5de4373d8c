import Mathlib.Data.List.Sort

/-!
# Keyset pages

Rows are listed in the order of a key, a page at a time: a page holds the first rows after a key,
and when there are more it names the key of its last row, after which the next page starts.

* `keyset_induction` — what holds of a page from the rows after it holds of all the rows in order.
* `follow_eq` — whoever follows the names of the next pages is given all the rows in order.
* `readGrowing_spec` — and all of a log that grows meanwhile, as it is when the last page is read.
-/

namespace GoAgent.Foundation

section Keyset

variable {α κ : Type} [LinearOrder κ] (key : α → κ)

/-- `ORDER BY key` -/
def orderedBy (rows : List α) : List α := rows.insertionSort fun a b => key a ≤ key b

/-- The rows after a key, in order. -/
def rowsAfter (rows : List α) (after : Option κ) : List α :=
  orderedBy key (rows.filter fun a => after.all fun k => decide (k < key a))

variable {key} {rows rest pre l : List α} {limit : Nat} {k : κ}

theorem perm_orderedBy : (orderedBy key rows).Perm rows := List.perm_insertionSort _ rows

/-- Rows of distinct keys are in strict order. -/
theorem pairwise_orderedBy (hkeys : (rows.map key).Nodup) :
    (orderedBy key rows).Pairwise fun a b => key a < key b := by
  have hle : (orderedBy key rows).Pairwise fun a b => key a ≤ key b :=
    List.pairwise_insertionSort _ rows
  have hne : (orderedBy key rows).Pairwise fun a b => key a ≠ key b := by
    have hperm : (orderedBy key rows).Perm rows := perm_orderedBy
    have hnodup := (hperm.map key).nodup_iff.2 hkeys
    exact List.pairwise_map.1 hnodup
  exact (hle.and hne).imp fun h => lt_of_le_of_ne h.1 h.2

/-- There is one strict order. -/
theorem eq_orderedBy (hperm : l.Perm rows) (hl : l.Pairwise fun a b => key a < key b) :
    l = orderedBy key rows := by
  have hkeys : (rows.map key).Nodup := by
    rw [← (hperm.map key).nodup_iff, List.Nodup, List.pairwise_map]
    exact hl.imp fun h => ne_of_lt h
  exact (hperm.trans (List.perm_insertionSort _ rows).symm).eq_of_pairwise
    (fun a b _ _ hab hba => absurd (lt_trans hab hba) (lt_irrefl _)) hl (pairwise_orderedBy hkeys)

theorem orderedBy_filter (hkeys : (rows.map key).Nodup) (p : α → Bool) :
    orderedBy key (rows.filter p) = (orderedBy key rows).filter p :=
  (eq_orderedBy (perm_orderedBy.filter p) ((pairwise_orderedBy hkeys).filter p)).symm

/-- After the last key of a part of the rows come the others. -/
theorem rowsAfter_last (hkeys : (rows.map key).Nodup) (hrows : orderedBy key rows = pre ++ rest) :
    rowsAfter key rows (pre.getLast?.map key) = rest := by
  have hsorted := pairwise_orderedBy hkeys
  rw [hrows, List.pairwise_append] at hsorted
  rw [rowsAfter, orderedBy_filter hkeys, hrows, List.filter_append]
  rcases List.eq_nil_or_concat' pre with rfl | ⟨init, last, rfl⟩
  · simp
  · have hlast : (init ++ [last]).getLast?.map key = some (key last) := by simp
    rw [hlast, List.filter_eq_nil_iff.2, List.filter_eq_self.2, List.nil_append]
    · intro b hb
      exact decide_eq_true (hsorted.2.2 last (List.mem_append_right _ List.mem_cons_self) b hb)
    · intro a ha
      rw [Option.all_some, decide_eq_true_eq, not_lt]
      rcases List.mem_append.1 ha with ha | ha
      · exact le_of_lt ((List.pairwise_append.1 hsorted.1).2.2 a ha last List.mem_cons_self)
      · rw [List.mem_singleton.1 ha]

/-- **Page by page, every row is listed once, in order.** What holds of the last page, and of a page
that another follows, holds of all the rows. -/
theorem keyset_induction {P : Option κ → List α → Prop} (hkeys : (rows.map key).Nodup)
    (hlimit : 0 < limit)
    (last : ∀ after, (rowsAfter key rows after).length ≤ limit → P after (rowsAfter key rows after))
    (more : ∀ after k, limit < (rowsAfter key rows after).length →
      ((rowsAfter key rows after).take limit).getLast?.map key = some k →
      rowsAfter key rows (some k) = (rowsAfter key rows after).drop limit →
      P (some k) ((rowsAfter key rows after).drop limit) → P after (rowsAfter key rows after)) :
    P none (orderedBy key rows) := by
  have hall : ∀ n (pre rest : List α), rest.length ≤ n → orderedBy key rows = pre ++ rest →
      P (pre.getLast?.map key) rest := by
    intro n
    induction n using Nat.strong_induction_on with
    | _ n ih =>
      intro pre rest hn hrows
      have hafter := rowsAfter_last hkeys hrows
      by_cases hlong : limit < rest.length
      · have hsplit : orderedBy key rows = (pre ++ rest.take limit) ++ rest.drop limit := by
          rw [List.append_assoc, List.take_append_drop, hrows]
        have hne : rest.take limit ≠ [] := by
          intro h
          have := congrArg List.length h
          rw [List.length_take, List.length_nil] at this
          omega
        have hlast : (pre ++ rest.take limit).getLast?.map key =
            some (key ((rest.take limit).getLast hne)) := by
          rw [List.getLast?_append_of_ne_nil _ hne, List.getLast?_eq_some_getLast hne]
          rfl
        have hnext := ih (n - 1) (by omega) (pre ++ rest.take limit) (rest.drop limit)
          (by rw [List.length_drop]; omega) hsplit
        have hrest := rowsAfter_last hkeys hsplit
        rw [hlast] at hnext hrest
        have hmore := more (pre.getLast?.map key) (key ((rest.take limit).getLast hne))
        rw [hafter] at hmore
        apply hmore hlong _ hrest hnext
        rw [List.getLast?_eq_some_getLast hne]
        rfl
      · have hpage := last (pre.getLast?.map key)
        rw [hafter] at hpage
        exact hpage (not_lt.1 hlong)
  exact hall _ [] (orderedBy key rows) le_rfl rfl

end Keyset

/-! ## Following the pages -/

section Follow

variable {α β κ ν ε : Type}

/-- `LIMIT limit + 1`: a page, and whether there are more rows. -/
def pageOf (limit : Nat) (rows : List α) : List α × Bool :=
  let records := rows.take (limit + 1)
  (records.take limit, decide (limit < records.length))

theorem pageOf_eq (limit : Nat) (rows : List α) :
    pageOf limit rows = (rows.take limit, decide (limit < rows.length)) := by
  have hlong : limit < (rows.take (limit + 1)).length ↔ limit < rows.length := by
    rw [List.length_take]
    omega
  unfold pageOf
  dsimp only
  rw [List.take_take, Nat.min_eq_left (Nat.le_succ limit), decide_eq_decide.2 hlong]

/-- The pages are read one after the other, from a name on until a page names no next one; at most
`fuel` of them. -/
def follow (read : Option ν → Except ε (List β × Option ν)) :
    Nat → Option ν → Option (Except ε (List β))
  | 0, _ => none
  | fuel + 1, name =>
    match read name with
    | .error e => some (.error e)
    | .ok (page, none) => some (.ok page)
    | .ok (page, some next) => (follow read fuel (some next)).map fun rest => rest.map (page ++ ·)

variable [LinearOrder κ] {key : α → κ} {rows : List α} {limit : Nat}
  {read : Option ν → Except ε (List β × Option ν)} {f : α → β}

/-- **Following the pages lists every row once, in order**, if a page that is named by a key holds
the first rows after it, and names the key of its last row unless there are no more. -/
theorem follow_eq (names : Option ν → Option κ → Prop) (hkeys : (rows.map key).Nodup)
    (hlimit : 0 < limit) (hstart : names none none)
    (hlast : ∀ name after, names name after → (rowsAfter key rows after).length ≤ limit →
      read name = .ok ((rowsAfter key rows after).map f, none))
    (hmore : ∀ name after k, names name after → limit < (rowsAfter key rows after).length →
      ((rowsAfter key rows after).take limit).getLast?.map key = some k →
      ∃ next, read name = .ok (((rowsAfter key rows after).take limit).map f, some next) ∧
        names (some next) (some k))
    {fuel : Nat} (hfuel : rows.length < fuel) :
    follow read fuel none = some (.ok ((orderedBy key rows).map f)) := by
  have hall : ∀ name fuel, names name none → (orderedBy key rows).length < fuel →
      follow read fuel name = some (.ok ((orderedBy key rows).map f)) := by
    refine keyset_induction (P := fun after rest => ∀ name fuel, names name after →
      rest.length < fuel → follow read fuel name = some (.ok (rest.map f))) hkeys hlimit ?_ ?_
    · intro after hshort name fuel hname hfuel
      cases fuel with
      | zero => omega
      | succ fuel => rw [follow, hlast name after hname hshort]
    · intro after k hlong hk hrest ih name fuel hname hfuel
      cases fuel with
      | zero => omega
      | succ fuel =>
        obtain ⟨next, hread, hnext⟩ := hmore name after k hname hlong hk
        have hlen : ((rowsAfter key rows after).drop limit).length < fuel := by
          rw [List.length_drop]
          omega
        rw [follow, hread]
        dsimp only
        have happend : ((rowsAfter key rows after).take limit).map f ++
            ((rowsAfter key rows after).drop limit).map f = (rowsAfter key rows after).map f := by
          rw [← List.map_append, List.take_append_drop]
        rw [ih (some next) fuel hnext hlen, Option.map_some]
        exact congrArg (fun listed => some (Except.ok listed)) happend
  apply hall none fuel hstart
  rw [perm_orderedBy.length_eq]
  exact hfuel

end Follow

/-! ## A log that grows while it is read -/

section Growing

variable {α κ : Type} [LinearOrder κ] {key : α → κ} {limit : Nat} {pre : List α}
  {logs : List (List α)}

/-- The pages from a key on, each of the log as it is when the page is read, until one says that
there are no more; whether one does. -/
def readGrowing (key : α → κ) (limit : Nat) : Option κ → List (List α) → List α × Bool
  | _, [] => ([], false)
  | after, log :: logs =>
    let page := pageOf limit (rowsAfter key log after)
    if page.2 then
      let rest := readGrowing key limit (page.1.getLast?.map key) logs
      (page.1 ++ rest.1, rest.2)
    else (page.1, true)

/-- What is read after a part of the log: the rest of the log of the last page, or as many pages
as there were reads. -/
theorem readGrowing_spec (hlimit : 0 < limit) (hgrow : logs.Pairwise (· <+: ·))
    (hsorted : ∀ log ∈ logs, log.Pairwise fun a b => key a < key b)
    (hpre : ∀ log ∈ logs, pre <+: log) :
    ((readGrowing key limit (pre.getLast?.map key) logs).2 = true →
      ∃ log ∈ logs, pre ++ (readGrowing key limit (pre.getLast?.map key) logs).1 = log) ∧
    ((readGrowing key limit (pre.getLast?.map key) logs).2 = false →
      (readGrowing key limit (pre.getLast?.map key) logs).1.length = logs.length * limit ∧
        ∀ log ∈ logs.getLast?,
          pre ++ (readGrowing key limit (pre.getLast?.map key) logs).1 <+: log) := by
  induction logs generalizing pre with
  | nil => simp [readGrowing]
  | cons log logs ih =>
    obtain ⟨rest, rfl⟩ := hpre log List.mem_cons_self
    have hlog := hsorted _ List.mem_cons_self
    have hordered : orderedBy key (pre ++ rest) = pre ++ rest := (eq_orderedBy (.refl _) hlog).symm
    have hkeys : ((pre ++ rest).map key).Nodup := by
      rw [List.Nodup, List.pairwise_map]
      exact hlog.imp fun h => ne_of_lt h
    rw [readGrowing, pageOf_eq, rowsAfter_last hkeys hordered]
    dsimp only
    by_cases hlong : limit < rest.length
    · rw [if_pos (decide_eq_true hlong)]
      have hne : rest.take limit ≠ [] := by
        intro h
        have hlength := congrArg List.length h
        rw [List.length_take, List.length_nil] at hlength
        omega
      have hlast : (rest.take limit).getLast?.map key =
          (pre ++ rest.take limit).getLast?.map key := by
        rw [List.getLast?_append_of_ne_nil _ hne]
      rw [List.pairwise_cons] at hgrow
      have hpage : ∀ log ∈ logs, pre ++ rest.take limit <+: log := fun log hmem =>
        ((List.prefix_append_right_inj pre).2 (List.take_prefix limit rest)).trans
          (hgrow.1 log hmem)
      have hnext := @ih (pre ++ rest.take limit) hgrow.2
        (fun log hmem => hsorted log (List.mem_cons_of_mem _ hmem)) hpage
      rw [← hlast] at hnext
      refine ⟨fun hdone => ?_, fun hmore => ?_⟩
      · obtain ⟨log, hmem, heq⟩ := hnext.1 hdone
        rw [List.append_assoc] at heq
        exact ⟨log, List.mem_cons_of_mem _ hmem, heq⟩
      · obtain ⟨hlength, hprefix⟩ := hnext.2 hmore
        constructor
        · rw [List.length_append, hlength, List.length_take, List.length_cons]
          rw [Nat.min_eq_left hlong.le, Nat.succ_mul, Nat.add_comm]
        · intro log hmem
          rw [← List.append_assoc]
          cases logs with
          | nil =>
            obtain rfl := Option.some.inj hmem
            simp only [readGrowing, List.append_nil]
            exact (List.prefix_append_right_inj pre).2 (List.take_prefix limit rest)
          | cons log' logs =>
            rw [List.getLast?_cons_cons] at hmem
            exact hprefix log hmem
    · rw [if_neg fun h => hlong (of_decide_eq_true h), List.take_of_length_le (not_lt.1 hlong)]
      exact ⟨fun _ => ⟨_, List.mem_cons_self, rfl⟩, fun h => absurd h.symm Bool.false_ne_true⟩

end Growing

end GoAgent.Foundation
