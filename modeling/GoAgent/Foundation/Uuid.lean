import GoAgent.Foundation.JsonParsing
import Mathlib.Tactic.Ring

/-!
# UUID text

`uuidStr` is `str` of a UUID and `uuidOfText` is `UUID` of a text: braces, hyphens and the prefixes
of a URN are dropped, and the 32 characters that are left are read by `int` in base 16.

* `uuidOfText_uuidStr` — what is written is read back.
-/

namespace GoAgent.Foundation

/-- The 128 bits of a UUID. -/
abbrev Uuid := Fin (2 ^ 128)

instance uuidNeZero : NeZero (2 ^ 128) := ⟨by decide⟩

/-! ## Python's `int` of a text in base 16 -/

/-- The digit of a hexadecimal digit, or of a decimal digit of another script. -/
def digitValue (c : Char) : Option Nat :=
  match hexValue c with
  | some d => some d
  | none =>
    (decimalZeros.find? fun first => first ≤ c.toNat && c.toNat < first + 10).map fun first =>
      c.toNat - first

/-- Digits with single underscores between them; `closed` after a digit. -/
def hexRun : Bool → Nat → List Char → Option Nat
  | closed, n, [] => if closed then some n else none
  | closed, n, c :: cs =>
    if c = '_' then (if closed then hexRun false n cs else none)
    else match digitValue c with
      | some d => hexRun true (n * 16 + d) cs
      | none => none

def trimSpace (s : List Char) : List Char :=
  ((s.dropWhile isSpace).reverse.dropWhile isSpace).reverse

/-- The digits after a prefix `0x`, which one underscore may follow. -/
def hexNumber (s : List Char) : Option Nat :=
  if s.head? = some '0' ∧ (s[1]? = some 'x' ∨ s[1]? = some 'X') then
    if s[2]? = some '_' then hexRun false 0 (s.drop 3) else hexRun false 0 (s.drop 2)
  else hexRun false 0 s

/-- `int(s, 16)`; `none` is a `ValueError`. -/
def intBase16 (s : List Char) : Option Int :=
  let t := trimSpace s
  if t.head? = some '-' then (hexNumber t.tail).map fun (n : Nat) => -(n : Int)
  else if t.head? = some '+' then (hexNumber t.tail).map fun (n : Nat) => (n : Int)
  else (hexNumber t).map fun (n : Nat) => (n : Int)

/-! ## UUIDs -/

/-- `s.replace(part, "")`, with `skip` characters of a part left to drop -/
def without (part : List Char) : Nat → List Char → List Char
  | _, [] => []
  | skip + 1, _ :: cs => without part skip cs
  | 0, c :: cs =>
    if part.isPrefixOf (c :: cs) then without part (part.length - 1) cs else c :: without part 0 cs

def isBrace (c : Char) : Bool := c == '\x7b' || c == '\x7d'

/-- `s.strip("\x7b\x7d")` -/
def stripBraces (s : List Char) : List Char :=
  ((s.dropWhile isBrace).reverse.dropWhile isBrace).reverse

/-- `UUID(s)`; `none` is a `ValueError`. -/
def uuidOfText (s : List Char) : Option Uuid :=
  let hex := without "uuid:".toList 0 (without "urn:".toList 0 s)
  let hex := without ['-'] 0 (stripBraces hex)
  if hex.length ≠ 32 then none
  else match intBase16 hex with
    | none => none
    | some n => if h : 0 ≤ n ∧ n.toNat < 2 ^ 128 then some ⟨n.toNat, h.2⟩ else none

/-- `%0{w}x` of a number below `16 ^ w` -/
def hexPad : Nat → Nat → List Char
  | 0, _ => []
  | w + 1, n => hexDigit (n / 16 ^ w % 16) :: hexPad w n

/-- `str(id)` -/
def uuidStr (id : Uuid) : List Char :=
  hexPad 8 (id.val / 16 ^ 24) ++ '-' :: (hexPad 4 (id.val / 16 ^ 20) ++ '-' ::
    (hexPad 4 (id.val / 16 ^ 16) ++ '-' :: (hexPad 4 (id.val / 16 ^ 12) ++ '-' ::
      hexPad 12 id.val)))

/-! ## What is written is read back -/

section RoundTrip

variable {w n : Nat}

/-- `[0-9a-f]` -/
def isHexLower (c : Char) : Bool := isDigit c || (97 ≤ c.toNat && c.toNat ≤ 102)

theorem hexDigit_facts (n : Nat) : digitValue (hexDigit (n % 16)) = some (n % 16) ∧
    isHexLower (hexDigit (n % 16)) = true := by
  have hall : ∀ d < 16, digitValue (hexDigit d) = some d ∧ isHexLower (hexDigit d) = true := by
    decide
  exact hall (n % 16) (Nat.mod_lt n (by decide))

theorem isHexLower_of_mem {c : Char} (hc : c ∈ hexPad w n) : isHexLower c = true := by
  induction w with
  | zero => cases hc
  | succ w ih =>
    rw [hexPad, List.mem_cons] at hc
    rcases hc with rfl | hc
    · exact (hexDigit_facts _).2
    · exact ih hc

theorem ne_of_isHexLower {c d : Char} (hc : isHexLower c = true) (hd : isHexLower d = false) :
    c ≠ d := by
  rintro rfl
  rw [hd] at hc
  cases hc

theorem hexRun_hexPad {closed : Bool} {m : Nat} (hw : closed = true ∨ 0 < w) :
    hexRun closed m (hexPad w n) = some (m * 16 ^ w + n % 16 ^ w) := by
  induction w generalizing closed m with
  | zero =>
    obtain rfl : closed = true := hw.resolve_right (Nat.lt_irrefl 0)
    simp [hexPad, hexRun, Nat.mod_one]
  | succ w ih =>
    rcases hexDigit_facts (n / 16 ^ w) with ⟨hvalue, hlower⟩
    rw [hexPad, hexRun, if_neg (ne_of_isHexLower hlower (by decide)), hvalue]
    simp only [ih (Or.inl rfl), Option.some.injEq]
    rw [Nat.mod_pow_succ, Nat.pow_succ]
    ring

theorem hexPad_append {v : Nat} : hexPad v (n / 16 ^ w) ++ hexPad w n = hexPad (v + w) n := by
  induction v with
  | zero => rw [hexPad, List.nil_append, Nat.zero_add]
  | succ v ih =>
    rw [hexPad, List.cons_append, ih, Nat.succ_add, hexPad, Nat.div_div_eq_div_mul, ← Nat.pow_add,
      Nat.add_comm w v]

theorem length_hexPad : (hexPad w n).length = w := by
  induction w with
  | zero => rfl
  | succ w ih => rw [hexPad, List.length_cons, ih]

/-- What does not start anywhere is not dropped. -/
theorem without_eq_self {p : Char} {part s : List Char} (hp : p ∉ s) :
    without (p :: part) 0 s = s := by
  induction s with
  | nil => rfl
  | cons c cs ih =>
    rw [List.mem_cons, not_or] at hp
    have hprefix : (p :: part).isPrefixOf (c :: cs) = false := by
      simp [List.isPrefixOf, hp.1]
    rw [without, hprefix, if_neg Bool.false_ne_true, ih hp.2]

theorem without_hyphen {s t : List Char} (hs : '-' ∉ s) :
    without ['-'] 0 (s ++ '-' :: t) = s ++ without ['-'] 0 t := by
  induction s with
  | nil => simp [without, List.isPrefixOf]
  | cons c cs ih =>
    rw [List.mem_cons, not_or] at hs
    have hprefix : ['-'].isPrefixOf (c :: (cs ++ '-' :: t)) = false := by
      simp [List.isPrefixOf, hs.1]
    rw [List.cons_append, without, hprefix, if_neg Bool.false_ne_true, ih hs.2, List.cons_append]

/-- The digits of a UUID are written in five groups. -/
theorem without_hyphen_uuidStr (id : Uuid) : without ['-'] 0 (uuidStr id) = hexPad 32 id.val := by
  have hno {w n : Nat} : '-' ∉ hexPad w n :=
    fun h => ne_of_isHexLower (isHexLower_of_mem h) (by decide) rfl
  have h12 : hexPad 4 (id.val / 16 ^ 12) ++ hexPad 12 id.val = hexPad 16 id.val := hexPad_append
  have h16 : hexPad 4 (id.val / 16 ^ 16) ++ hexPad 16 id.val = hexPad 20 id.val := hexPad_append
  have h20 : hexPad 4 (id.val / 16 ^ 20) ++ hexPad 20 id.val = hexPad 24 id.val := hexPad_append
  have h24 : hexPad 8 (id.val / 16 ^ 24) ++ hexPad 24 id.val = hexPad 32 id.val := hexPad_append
  rw [uuidStr, without_hyphen hno, without_hyphen hno, without_hyphen hno, without_hyphen hno,
    without_eq_self hno, h12, h16, h20, h24]

theorem mem_uuidStr {id : Uuid} {c : Char} (hc : c ∈ uuidStr id) :
    isHexLower c = true ∨ c = '-' := by
  simp only [uuidStr, List.mem_append, List.mem_cons] at hc
  rcases hc with hc | rfl | hc | rfl | hc | rfl | hc | rfl | hc
  · exact Or.inl (isHexLower_of_mem hc)
  · exact Or.inr rfl
  · exact Or.inl (isHexLower_of_mem hc)
  · exact Or.inr rfl
  · exact Or.inl (isHexLower_of_mem hc)
  · exact Or.inr rfl
  · exact Or.inl (isHexLower_of_mem hc)
  · exact Or.inr rfl
  · exact Or.inl (isHexLower_of_mem hc)

theorem intBase16_hexPad (hw : 0 < w) (hn : n < 16 ^ w) : intBase16 (hexPad w n) = some (n : Int) := by
  have hspace : ∀ c ∈ hexPad w n, isSpace c = false := by
    intro c hc
    have hlower := isHexLower_of_mem hc
    apply not_isSpace_of_isAlnum
    simp only [isHexLower, isAlnum, isLower, isDigit, Bool.or_eq_true, Bool.and_eq_true,
      decide_eq_true_eq] at hlower ⊢
    omega
  have htrim : trimSpace (hexPad w n) = hexPad w n := by
    rw [trimSpace, dropWhile_eq_self hspace,
      dropWhile_eq_self fun c hc => hspace c (List.mem_reverse.1 hc), List.reverse_reverse]
  have hhead (d : Char) (hd : isHexLower d = false) : (hexPad w n).head? ≠ some d :=
    fun h => ne_of_isHexLower (isHexLower_of_mem (List.mem_of_mem_head? h)) hd rfl
  have hsecond (d : Char) (hd : isHexLower d = false) : (hexPad w n)[1]? ≠ some d :=
    fun h => ne_of_isHexLower (isHexLower_of_mem (List.mem_of_getElem? h)) hd rfl
  have hprefix : ¬((hexPad w n).head? = some '0' ∧
      ((hexPad w n)[1]? = some 'x' ∨ (hexPad w n)[1]? = some 'X')) := by
    rintro ⟨-, h | h⟩
    · exact hsecond 'x' (by decide) h
    · exact hsecond 'X' (by decide) h
  have hnumber : hexNumber (hexPad w n) = some n := by
    rw [hexNumber, if_neg hprefix, hexRun_hexPad (Or.inr hw), Nat.mod_eq_of_lt hn, Nat.zero_mul,
      Nat.zero_add]
  simp only [intBase16, htrim, if_neg (hhead '-' (by decide)), if_neg (hhead '+' (by decide)),
    hnumber, Option.map_some]

/-- **`UUID` undoes `str`.** -/
theorem uuidOfText_uuidStr (id : Uuid) : uuidOfText (uuidStr id) = some id := by
  have hno (d : Char) (hd : isHexLower d = false) (hne : d ≠ '-') : d ∉ uuidStr id := by
    intro h
    rcases mem_uuidStr h with hlower | rfl
    · exact ne_of_isHexLower hlower hd rfl
    · exact hne rfl
  have hurn : without "urn:".toList 0 (uuidStr id) = uuidStr id :=
    without_eq_self (p := 'u') (hno 'u' (by decide) (by decide))
  have huuid : without "uuid:".toList 0 (uuidStr id) = uuidStr id :=
    without_eq_self (p := 'u') (hno 'u' (by decide) (by decide))
  have hbrace : ∀ c ∈ uuidStr id, isBrace c = false := by
    intro c hc
    rw [isBrace, Bool.or_eq_false_iff, beq_eq_false_iff_ne, beq_eq_false_iff_ne]
    constructor
    · rintro rfl
      exact hno _ (by decide) (by decide) hc
    · rintro rfl
      exact hno _ (by decide) (by decide) hc
  have hstrip : stripBraces (uuidStr id) = uuidStr id := by
    rw [stripBraces, dropWhile_eq_self hbrace,
      dropWhile_eq_self fun c hc => hbrace c (List.mem_reverse.1 hc), List.reverse_reverse]
  have hint : intBase16 (hexPad 32 id.val) = some (id.val : Int) :=
    intBase16_hexPad (by decide) (Nat.lt_of_lt_of_eq id.isLt (by decide))
  have hbits : 0 ≤ (id.val : Int) ∧ id.val < 2 ^ 128 := ⟨Int.natCast_nonneg _, id.isLt⟩
  simp only [uuidOfText, hurn, huuid, hstrip, without_hyphen_uuidStr, length_hexPad, ne_eq,
    not_true_eq_false, if_false, hint, Int.toNat_natCast, dif_pos hbits]

end RoundTrip

end GoAgent.Foundation
