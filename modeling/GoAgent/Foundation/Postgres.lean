import GoAgent.Foundation.Text
import Mathlib.Algebra.Order.Ring.Int
import Mathlib.Data.List.Sort

/-!
# What a PostgreSQL column keeps

A `TEXT` value has no NUL character and a `BIGINT` is a 64-bit integer; `btrim` strips blanks. A
`JSONB` object keeps its entries but not their order, and `ORDER BY` lists rows by a key. Both
orders on strings are the server's own (the collation of the database and the order of object
keys), so a `Postgres` carries them; nothing depends on which they are.

* `orderBy_eq` — rows listed in the order of distinct keys come out the same however they are
  stored.
* `jsonb_jsonb` — an object read back is stored as it is.
-/

namespace GoAgent.Foundation

/-! ## Ordering rows -/

section

variable {κ ρ : Type} (le : κ → κ → Prop) [DecidableRel le] (key : ρ → κ)

/-- `ORDER BY key ASC` -/
def orderBy (rows : List ρ) : List ρ := rows.insertionSort fun a b => le (key a) (key b)

variable {le key} {rows rows' : List ρ}

theorem orderBy_perm : (orderBy le key rows).Perm rows := List.perm_insertionSort _ _

@[simp] theorem mem_orderBy {r : ρ} : r ∈ orderBy le key rows ↔ r ∈ rows := orderBy_perm.mem_iff

theorem orderBy_of_pairwise (h : rows.Pairwise fun a b => le (key a) (key b)) :
    orderBy le key rows = rows := h.insertionSort_eq

theorem map_orderBy {ρ' : Type} {key' : ρ' → κ} (f : ρ → ρ') (hf : ∀ r, key' (f r) = key r) :
    (orderBy le key rows).map f = orderBy le key' (rows.map f) :=
  List.map_insertionSort _ _ f rows fun a _ b _ => by rw [hf, hf]

theorem orderBy_pairwise [Std.Total le] [IsTrans κ le] :
    (orderBy le key rows).Pairwise fun a b => le (key a) (key b) := by
  have htotal : Std.Total fun a b : ρ => le (key a) (key b) :=
    ⟨fun a b => Std.Total.total (key a) (key b)⟩
  have htrans : IsTrans ρ fun a b => le (key a) (key b) :=
    ⟨fun _ _ _ => IsTrans.trans (r := le) _ _ _⟩
  exact List.pairwise_insertionSort _ rows

/-- **Rows with distinct keys have one order.** -/
theorem orderBy_eq [Std.Total le] [IsTrans κ le] [Std.Antisymm le] (hp : rows.Perm rows')
    (hnd : (rows'.map key).Nodup) (hs : rows'.Pairwise fun a b => le (key a) (key b)) :
    orderBy le key rows = rows' := by
  apply List.Perm.eq_of_pairwise _ orderBy_pairwise hs (orderBy_perm.trans hp)
  intro a b ha hb hab hba
  have hkey := Std.Antisymm.antisymm (r := le) _ _ hab hba
  exact List.inj_on_of_nodup_map hnd (hp.mem_iff.1 (mem_orderBy.1 ha)) hb hkey

end

/-! ## Columns -/

/-- A `TEXT` column can hold the string. -/
def storableText (s : String) : Bool := s.toList.all fun c => c.toNat != 0

/-- A `BIGINT` column can hold the number. -/
def storableInt (n : Int) : Bool := -2 ^ 63 ≤ n && n < 2 ^ 63

theorem storableText_iff {s : String} : storableText s = true ↔ ∀ c ∈ s.toList, c.toNat ≠ 0 := by
  simp [storableText]

theorem storableText_append {s t : String} :
    storableText (s ++ t) = true ↔ storableText s = true ∧ storableText t = true := by
  simp [storableText, String.toList_append]

/-- White space can be stored. -/
theorem storableText_of_strip {s : String} (h : storableText (strip s) = true) :
    storableText s = true := by
  rw [storableText_iff] at h ⊢
  intro c hc
  by_cases hsp : isSpace c = true
  · intro h0
    simp [isSpace, h0] at hsp
  · exact h c (mem_strip hc (Bool.not_eq_true _ ▸ hsp))

/-- `btrim(s) <> ''` -/
def notBlank (s : String) : Bool := s.toList.any fun c => c != ' '

theorem notBlank_of_isBlank {s : String} (h : isBlank s = false) : notBlank s = true := by
  unfold isBlank at h
  obtain ⟨c, hc, hs⟩ := List.all_eq_false.1 h
  apply List.any_eq_true.2
  refine ⟨c, hc, ?_⟩
  rw [bne_iff_ne]
  rintro rfl
  exact hs (by decide)

theorem notBlank_append_right {s t : String} (h : notBlank t = true) : notBlank (s ++ t) = true := by
  unfold notBlank at h ⊢
  rw [String.toList_append, List.any_append, h, Bool.or_true]

/-- A linear order on strings. -/
structure TextOrder where
  le : String → String → Prop
  decidable : DecidableRel le
  total : Std.Total le
  trans : IsTrans String le
  antisymm : Std.Antisymm le

attribute [instance] TextOrder.decidable TextOrder.total TextOrder.trans TextOrder.antisymm

/-- The orders a server has: of text in `ORDER BY`, and of the keys of a `JSONB` object. -/
structure Postgres where
  collation : TextOrder
  keys : TextOrder

namespace Postgres

variable (pg : Postgres) {β : Type}

/-- A JSON object as it is read back from a `JSONB` column. -/
def jsonb (o : List (String × β)) : List (String × β) := orderBy pg.keys.le Prod.fst o

theorem jsonb_perm {o : List (String × β)} : (pg.jsonb o).Perm o := orderBy_perm

@[simp] theorem mem_jsonb {o : List (String × β)} {p : String × β} : p ∈ pg.jsonb o ↔ p ∈ o :=
  mem_orderBy

@[simp] theorem jsonb_jsonb {o : List (String × β)} : pg.jsonb (pg.jsonb o) = pg.jsonb o :=
  orderBy_of_pairwise orderBy_pairwise

@[simp] theorem jsonb_nil : pg.jsonb ([] : List (String × β)) = [] := rfl

end Postgres

end GoAgent.Foundation
