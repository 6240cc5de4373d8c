import Mathlib.Data.List.DropRight
import Mathlib.Data.List.Infix
import Mathlib.Tactic.SplitIfs

/-!
# Python text, times and identifiers

`strip` is Python's `str.strip()`, and the predicates below are the full matches of the
anchored regular expressions over ASCII classes that the domain models use, written as the
automata they denote.
-/

namespace GoAgent.Foundation

abbrev UUID := Nat

/-- A `datetime`: an instant, and whether it carries a time zone. -/
structure DateTime where
  instant : Int
  tzAware : Bool := true
  deriving DecidableEq

/-- The code points `str.isspace` is true of. -/
def isSpace (c : Char) : Bool :=
  let n := c.toNat
  (9 ≤ n && n ≤ 13) || (28 ≤ n && n ≤ 32) || n == 0x85 || n == 0xA0 || n == 0x1680 ||
    (0x2000 ≤ n && n ≤ 0x200A) || n == 0x2028 || n == 0x2029 || n == 0x202F || n == 0x205F ||
    n == 0x3000

/-- `str.strip()`. -/
def strip (s : String) : String :=
  String.ofList ((s.toList.dropWhile isSpace).reverse.dropWhile isSpace).reverse

/-- `not s.strip()`. -/
def isBlank (s : String) : Bool := s.toList.all isSpace

/-- `part in s`. -/
def contains (part s : List Char) : Bool := s.tails.any fun t => part.isPrefixOf t

/-- `[a-z]` -/
def isLower (c : Char) : Bool := 97 ≤ c.toNat && c.toNat ≤ 122

/-- `[A-Z]` -/
def isUpper (c : Char) : Bool := 65 ≤ c.toNat && c.toNat ≤ 90

/-- `[0-9]` -/
def isDigit (c : Char) : Bool := 48 ≤ c.toNat && c.toNat ≤ 57

def isAlnum (c : Char) : Bool := isLower c || isUpper c || isDigit c

/-- The decimal digits zero, each followed by the other nine of its script. -/
def decimalZeros : List Nat :=
  [0x30, 0x660, 0x6F0, 0x7C0, 0x966, 0x9E6, 0xA66, 0xAE6, 0xB66, 0xBE6, 0xC66, 0xCE6, 0xD66, 0xDE6,
    0xE50, 0xED0, 0xF20, 0x1040, 0x1090, 0x17E0, 0x1810, 0x1946, 0x19D0, 0x1A80, 0x1A90, 0x1B50,
    0x1BB0, 0x1C40, 0x1C50, 0xA620, 0xA8D0, 0xA900, 0xA9D0, 0xA9F0, 0xAA50, 0xABF0, 0xFF10, 0x104A0,
    0x10D30, 0x11066, 0x110F0, 0x11136, 0x111D0, 0x112F0, 0x11450, 0x114D0, 0x11650, 0x116C0,
    0x11730, 0x118E0, 0x11950, 0x11C50, 0x11D50, 0x11DA0, 0x16A60, 0x16AC0, 0x16B50, 0x1D7CE,
    0x1D7D8, 0x1D7E2, 0x1D7EC, 0x1D7F6, 0x1E140, 0x1E2F0, 0x1E950, 0x1FBF0]

/-- `\d` -/
def isDecimal (c : Char) : Bool :=
  decimalZeros.any fun first => first ≤ c.toNat && c.toNat < first + 10

/-- `^head tail{lo,hi}$` for two character classes. -/
def matchesClass (head tail : Char → Bool) (lo hi : Nat) : List Char → Bool
  | [] => false
  | c :: cs => head c && cs.all tail && lo ≤ cs.length && cs.length ≤ hi

theorem all_of_matchesClass {head tail p : Char → Bool} {lo hi : Nat} {l : List Char}
    (hhead : ∀ c, head c = true → p c = true) (htail : ∀ c, tail c = true → p c = true)
    (h : matchesClass head tail lo hi l = true) : l ≠ [] ∧ ∀ c ∈ l, p c = true := by
  cases l with
  | nil => simp [matchesClass] at h
  | cons a l =>
    simp only [matchesClass, Bool.and_eq_true, List.all_eq_true] at h
    refine ⟨List.cons_ne_nil _ _, fun c hc => ?_⟩
    rcases List.mem_cons.1 hc with rfl | hc
    · exact hhead _ h.1.1.1
    · exact htail _ (h.1.1.2 c hc)

theorem not_isSpace_of_isAlnum {c : Char} (h : isAlnum c = true) : isSpace c = false := by
  simp only [isAlnum, isLower, isUpper, isDigit, Bool.or_eq_true, Bool.and_eq_true,
    decide_eq_true_eq] at h
  simp only [isSpace, Bool.or_eq_false_iff, Bool.and_eq_false_iff, decide_eq_false_iff_not,
    beq_eq_false_iff_ne]
  omega

theorem dropWhile_eq_self {p : Char → Bool} {l : List Char} (h : ∀ c ∈ l, p c = false) :
    l.dropWhile p = l := by
  cases l with
  | nil => rfl
  | cons c l => simp [h c List.mem_cons_self]

/-- Text without white space is its own `strip`. -/
theorem strip_eq_self {s : String} (h : ∀ c ∈ s.toList, isSpace c = false) : strip s = s := by
  unfold strip
  rw [dropWhile_eq_self h, dropWhile_eq_self fun c hc => h c (List.mem_reverse.1 hc),
    List.reverse_reverse, String.ofList_toList]

theorem mem_dropWhile {p : Char → Bool} {l : List Char} {c : Char} (hc : c ∈ l)
    (h : p c = false) : c ∈ l.dropWhile p := by
  rw [← List.takeWhile_append_dropWhile (p := p) (l := l), List.mem_append] at hc
  rcases hc with hc | hc
  · rw [List.mem_takeWhile_imp hc] at h
    cases h
  · exact hc

/-- What is no white space is kept. -/
theorem mem_strip {s : String} {c : Char} (hc : c ∈ s.toList) (h : isSpace c = false) :
    c ∈ (strip s).toList := by
  rw [strip, String.toList_ofList, List.mem_reverse]
  exact mem_dropWhile (List.mem_reverse.2 (mem_dropWhile hc h)) h

theorem mem_of_mem_strip {s : String} {c : Char} (hc : c ∈ (strip s).toList) : c ∈ s.toList := by
  rw [strip, String.toList_ofList, List.mem_reverse] at hc
  exact (List.dropWhile_sublist _).subset
    (List.mem_reverse.1 ((List.dropWhile_sublist _).subset hc))

theorem isBlank_eq_false {s : String} {c : Char} (hc : c ∈ s.toList) (h : isSpace c = false) :
    isBlank s = false := by
  unfold isBlank
  rw [List.all_eq_false]
  exact ⟨c, hc, by simp [h]⟩

/-- Appending to a text that is not blank leaves it not blank. -/
theorem isBlank_append_right {s t : String} (h : isBlank t = false) : isBlank (s ++ t) = false := by
  unfold isBlank at h ⊢
  rw [String.toList_append, List.all_append, h, Bool.and_false]

theorem all_dropWhile {p : Char → Bool} (l : List Char) : (l.dropWhile p).all p = l.all p := by
  induction l with
  | nil => rfl
  | cons c l ih =>
    rw [List.dropWhile_cons, List.all_cons]
    cases hc : p c
    · simp [hc]
    · simpa using ih

@[simp] theorem isBlank_strip {s : String} : isBlank (strip s) = isBlank s := by
  simp only [isBlank, strip, String.toList_ofList, List.all_reverse, all_dropWhile]

/-- What starts outside the class is kept when the class is dropped from its front. -/
theorem dropWhile_of_prefix {p : Char → Bool} {l m : List Char} (h : m <+: l.dropWhile p) :
    m.dropWhile p = m := by
  cases m with
  | nil => rfl
  | cons c m =>
    obtain ⟨r, hr⟩ := h
    have hc : p c = false := by
      have hhead := List.head?_dropWhile_not p l
      rw [← hr] at hhead
      exact hhead
    simp [hc]

@[simp] theorem strip_strip {s : String} : strip (strip s) = strip s := by
  have h : ((s.toList.dropWhile isSpace).rdropWhile isSpace).dropWhile isSpace =
      (s.toList.dropWhile isSpace).rdropWhile isSpace :=
    dropWhile_of_prefix (List.rdropWhile_prefix isSpace _)
  have hstrip (l : List Char) : ((l.dropWhile isSpace).reverse.dropWhile isSpace).reverse =
      (l.dropWhile isSpace).rdropWhile isSpace := rfl
  rw [strip, strip, String.toList_ofList, hstrip, hstrip, h, List.rdropWhile_idempotent]

theorem dropWhile_strip {text : String} :
    (strip text).toList.dropWhile isSpace = (strip text).toList := by
  refine dropWhile_of_prefix (l := text.toList) ?_
  rw [strip, String.toList_ofList]
  exact List.rdropWhile_prefix isSpace _

theorem dropWhile_reverse_strip {text : String} :
    (strip text).toList.reverse.dropWhile isSpace = (strip text).toList.reverse := by
  rw [strip, String.toList_ofList, List.reverse_reverse]
  exact List.dropWhile_idempotent _ _

/-- A stripped text stays stripped after a front without white space. -/
theorem strip_append_strip {p s : String} (hp : ∀ c ∈ p.toList, isSpace c = false)
    (hs : isBlank s = false) : strip (p ++ strip s) = p ++ strip s := by
  have hback : ((strip s).toList.reverse ++ p.toList.reverse).dropWhile isSpace =
      (strip s).toList.reverse ++ p.toList.reverse := by
    have hne : (strip s).toList ≠ [] := by
      intro hnil
      rw [← isBlank_strip, isBlank, hnil] at hs
      cases hs
    rw [List.dropWhile_append, dropWhile_reverse_strip, if_neg (by simpa using hne)]
  have hfront : (p.toList ++ (strip s).toList).dropWhile isSpace =
      p.toList ++ (strip s).toList := by
    rw [List.dropWhile_append, dropWhile_eq_self hp, dropWhile_strip]
    split_ifs with hnil
    · rw [List.isEmpty_iff.1 hnil, List.nil_append]
    · rfl
  apply String.toList_inj.1
  rw [strip, String.toList_ofList, String.toList_append, hfront, List.reverse_append, hback,
    List.reverse_append, List.reverse_reverse, List.reverse_reverse]

/-- A front without white space is kept. -/
theorem prefix_strip {p s : String} (hp : ∀ c ∈ p.toList, isSpace c = false) :
    p.toList <+: (strip (p ++ s)).toList := by
  have hrev : ∀ c ∈ p.toList.reverse, isSpace c = false := fun c hc => hp c (List.mem_reverse.1 hc)
  rw [strip, String.toList_ofList, String.toList_append]
  by_cases hnil : p.toList = []
  · rw [hnil]
    exact List.nil_prefix
  · have hfront : (p.toList ++ s.toList).dropWhile isSpace = p.toList ++ s.toList := by
      rw [List.dropWhile_append, dropWhile_eq_self hp, if_neg (by simpa using hnil)]
    rw [hfront, List.reverse_append, List.dropWhile_append]
    split_ifs
    · rw [dropWhile_eq_self hrev, List.reverse_reverse]
    · rw [List.reverse_append, List.reverse_reverse]
      exact List.prefix_append _ _

/-- Texts that end differently differ. -/
theorem append_ne_append {s t a b : String} (hab : ¬a.toList <:+ b.toList)
    (hba : ¬b.toList <:+ a.toList) : s ++ a ≠ t ++ b := fun h => by
  have h' : s.toList ++ a.toList = t.toList ++ b.toList := by
    rw [← String.toList_append, ← String.toList_append, h]
  have ha : a.toList <:+ t.toList ++ b.toList := h' ▸ List.suffix_append _ _
  exact (List.suffix_or_suffix_of_suffix ha (List.suffix_append _ _)).elim hab hba

theorem append_right_cancel {s t a : String} (h : s ++ a = t ++ a) : s = t := by
  have h' : s.toList ++ a.toList = t.toList ++ a.toList := by
    rw [← String.toList_append, ← String.toList_append, h]
  exact String.toList_inj.1 (List.append_cancel_right h')

/-- A piece of a text that is split has no separator. -/
theorem mem_of_mem_splitOn {cs raw : List Char} {sep : Char} (h : raw ∈ cs.splitOn sep) :
    ∀ c ∈ raw, c ∈ cs ∧ c ≠ sep := by
  induction cs generalizing raw with
  | nil =>
    rw [List.splitOn_nil, List.mem_singleton] at h
    subst h
    exact fun c hc => (by cases hc)
  | cons d cs ih =>
    have hrest {raw : List Char} (h : raw ∈ cs.splitOn sep) : ∀ c ∈ raw, c ∈ d :: cs ∧ c ≠ sep :=
      fun c hc => ⟨List.mem_cons_of_mem _ (ih h c hc).1, (ih h c hc).2⟩
    rw [List.splitOn_cons_eq_if_modifyHead] at h
    split_ifs at h with hsep
    · rcases List.mem_cons.1 h with rfl | h
      · exact fun c hc => (by cases hc)
      · exact hrest h
    · obtain ⟨first, rest, hsplit⟩ := List.exists_cons_of_ne_nil (List.splitOn_ne_nil sep cs)
      rw [hsplit, List.modifyHead_cons] at h
      rcases List.mem_cons.1 h with rfl | h
      · intro c hc
        rcases List.mem_cons.1 hc with rfl | hc
        · exact ⟨List.mem_cons_self, by simpa using hsep⟩
        · exact hrest (hsplit ▸ List.mem_cons_self) c hc
      · exact hrest (hsplit ▸ List.mem_cons_of_mem _ h)

end GoAgent.Foundation
