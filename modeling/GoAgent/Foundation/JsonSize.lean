import GoAgent.Foundation.JsonRoundTrip
import Mathlib.Algebra.Group.Nat.Defs

/-!
# The least size of JSON text

`textSize` counts the characters of a text, with a comma or a colon and a space after it as one.
`leastSize` is a size for values, and no text that reads as a value is smaller than it.

* `textSize_cut`, `textSize_cut_end` — a text is smaller without a long part, or without its end.
* `takes_scanUnits`, `takes_scanNumber`, `takes_scanOnce` — what a reader takes of a text.
* `leastSize_le` — a text is as large as what it reads as.
-/

namespace GoAgent.Foundation

/-! ## The size of a text -/

/-- `,` or `:` -/
def isSeparator (c : Char) : Bool := c == ',' || c == ':'

def textSize : List Char → Nat
  | [] => 0
  | c :: cs => (if isSeparator c = true ∧ cs.head? = some ' ' then 0 else 1) + textSize cs

section Text

variable {a b s r t : List Char} {c : Char}

theorem textSize_cons (hc : isSeparator c = false) : textSize (c :: s) = 1 + textSize s := by
  rw [textSize, if_neg]
  rw [hc]
  exact fun h => Bool.false_ne_true h.1

theorem textSize_cons_le : textSize (c :: s) ≤ 1 + textSize s := by
  rw [textSize]
  split_ifs <;> omega

theorem textSize_le_cons : textSize s ≤ textSize (c :: s) := by
  rw [textSize]
  omega

theorem textSize_space : textSize (' ' :: s) = 1 + textSize s := textSize_cons (by decide)

/-- A separator and the white space after it have a size of one at least. -/
theorem textSize_separator : 1 + textSize (skipSpace s) ≤ textSize (c :: s) := by
  have hskip (s : List Char) : textSize (skipSpace s) ≤ textSize s := by
    unfold skipSpace
    induction s with
    | nil => exact le_refl _
    | cons c s ih =>
      rw [List.dropWhile_cons]
      split_ifs
      · exact ih.trans textSize_le_cons
      · exact le_refl _
  rw [textSize]
  split_ifs with h
  · cases s with
    | nil => cases h.2
    | cons d s =>
      have hd : d = ' ' := Option.some.inj h.2
      subst hd
      have hblank : skipSpace (' ' :: s) = skipSpace s := rfl
      rw [hblank, textSize_space]
      have := hskip s
      omega
  · have := hskip s
    omega

theorem textSize_singleton : textSize [c] = 1 := by
  rw [textSize, if_neg]
  · rfl
  · exact fun h => nomatch h.2

/-- What a character counts depends on the next one only. -/
theorem textSize_cons_append {d : Char} : textSize (c :: (d :: a ++ b)) =
    (if isSeparator c = true ∧ (d :: a).head? = some ' ' then 0 else 1) +
      textSize (d :: a ++ b) := rfl

theorem textSize_append_le : textSize (a ++ b) ≤ textSize a + textSize b := by
  induction a with
  | nil => rw [List.nil_append, textSize, Nat.zero_add]
  | cons c a ih =>
    cases a with
    | nil =>
      rw [textSize_singleton]
      exact textSize_cons_le
    | cons d a =>
      rw [List.cons_append, textSize_cons_append, textSize]
      omega

/-- Two texts in a row lose at most one character. -/
theorem textSize_append_ge : textSize a + textSize b ≤ textSize (a ++ b) + 1 := by
  induction a with
  | nil =>
    rw [List.nil_append, textSize]
    omega
  | cons c a ih =>
    cases a with
    | nil =>
      have := textSize_le_cons (s := b) (c := c)
      rw [textSize_singleton, List.singleton_append]
      omega
    | cons d a =>
      rw [List.cons_append, textSize_cons_append, textSize]
      omega

theorem textSize_le_append_left : textSize b ≤ textSize (a ++ b) := by
  induction a with
  | nil => exact le_refl _
  | cons c a ih => exact ih.trans textSize_le_cons

theorem textSize_le_append_right : textSize a ≤ textSize (a ++ b) := by
  induction a with
  | nil =>
    rw [List.nil_append, textSize]
    exact Nat.zero_le _
  | cons c a ih =>
    cases a with
    | nil =>
      rw [textSize_singleton, List.singleton_append, textSize]
      split_ifs with h
      · cases b with
        | nil => cases h.2
        | cons d b =>
          have hd : d = ' ' := Option.some.inj h.2
          subst hd
          rw [textSize_space]
          omega
      · omega
    | cons d a =>
      rw [List.cons_append, textSize_cons_append, textSize]
      omega

theorem textSize_snoc (hc : c ≠ ' ') : textSize (a ++ [c]) = textSize a + 1 := by
  induction a with
  | nil => exact textSize_singleton
  | cons d a ih =>
    have hhead : (a ++ [c]).head? = some ' ' ↔ a.head? = some ' ' := by
      cases a with
      | nil => exact iff_of_false (fun h => hc (Option.some.inj h)) fun h => nomatch h
      | cons e a => exact Iff.rfl
    rw [List.cons_append, textSize, textSize, ih]
    simp only [hhead]
    omega

theorem length_le_textSize : a.length ≤ 2 * textSize a ∧
    (a.head? = some ' ' → a.length + 1 ≤ 2 * textSize a) := by
  induction a with
  | nil => exact ⟨le_refl _, fun h => nomatch h⟩
  | cons c a ih =>
    rw [List.length_cons]
    constructor
    · rw [textSize]
      split_ifs with h
      · have := ih.2 h.2
        omega
      · have := ih.1
        omega
    · intro h
      have hc : c = ' ' := Option.some.inj h
      subst hc
      have := ih.1
      rw [textSize_space]
      omega

/-- A text is smaller without a part that is long. -/
theorem textSize_cut (h : 5 ≤ b.length) : textSize (a ++ r) < textSize (a ++ (b ++ r)) := by
  have hle := textSize_append_le (a := a) (b := r)
  have hge := textSize_append_ge (a := a) (b := b ++ r)
  have hge' := textSize_append_ge (a := b) (b := r)
  have hlong := (length_le_textSize (a := b)).1
  omega

/-- A text is smaller without its end. -/
theorem textSize_cut_end (hc : c ≠ ' ') : textSize a < textSize (a ++ (b ++ [c])) := by
  rw [← List.append_assoc, textSize_snoc hc]
  exact Nat.lt_succ_of_le textSize_le_append_right

end Text

/-! ## The size of a value -/

/-- How many characters a writer needs for a code point of a string. -/
def unitSize (ensureAscii : Bool) (n : Nat) : Nat :=
  if n = 34 ∨ n = 92 ∨ n = 10 ∨ n = 13 ∨ n = 9 ∨ n = 8 ∨ n = 12 then 2
  else if n < 32 then 6
  else if 0xD800 ≤ n ∧ n < 0xE000 ∨ 0x110000 ≤ n then 6
  else if ensureAscii = true ∧ 126 < n then if n < 0x10000 then 6 else 12
  else 1

def unitsSize (ensureAscii : Bool) : List Nat → Nat
  | [] => 0
  | n :: ns =>
    (if (n = 44 ∨ n = 58) ∧ ns.head? = some 32 then 0 else unitSize ensureAscii n) +
      unitsSize ensureAscii ns

mutual

def JsonValue.leastSize (ensureAscii : Bool) : JsonValue → Nat
  | .null => 4
  | .bool true => 4
  | .bool false => 5
  | .int n => (dumpInt n).length
  | .float text => text.length
  | .str s => 2 + unitsSize ensureAscii s
  | .arr items => 1 + max 1 (itemsSize ensureAscii items)
  | .obj fields => 1 + max 1 (fieldsSize ensureAscii fields)
termination_by structural v => v

/-- With what follows each item. -/
def itemsSize (ensureAscii : Bool) : List JsonValue → Nat
  | [] => 0
  | v :: vs => v.leastSize ensureAscii + 1 + itemsSize ensureAscii vs
termination_by structural items => items

def fieldsSize (ensureAscii : Bool) : List (List Nat × JsonValue) → Nat
  | [] => 0
  | f :: fs => fieldSize ensureAscii f + 1 + fieldsSize ensureAscii fs
termination_by structural fields => fields

def fieldSize (ensureAscii : Bool) : List Nat × JsonValue → Nat
  | (name, v) => 2 + unitsSize ensureAscii name + 1 + v.leastSize ensureAscii
termination_by structural field => field

end

/-! ## What a reader takes -/

/-- A reader goes from `s` to what follows, and has taken `n` at least. -/
structure Takes (n : Nat) (s r : List Char) : Prop where
  suffix : r <:+ s
  size : n + textSize r ≤ textSize s

/-- A writer that escapes writes no other characters. -/
def AsciiFor (ensureAscii : Bool) (s : List Char) : Prop :=
  ensureAscii = true → ∀ c ∈ s, c.toNat ≤ 126

section Takes

variable {m n : Nat} {s r t : List Char} {c : Char} {ensureAscii : Bool}

theorem AsciiFor.suffix (h : AsciiFor ensureAscii s) (hr : r <:+ s) : AsciiFor ensureAscii r :=
  fun he c hc => h he c (hr.mem hc)

theorem Takes.refl (s : List Char) : Takes 0 s s where
  suffix := List.suffix_rfl
  size := by omega

theorem Takes.trans (h₁ : Takes m s r) (h₂ : Takes n r t) : Takes (m + n) s t where
  suffix := h₂.suffix.trans h₁.suffix
  size := by
    have := h₁.size
    have := h₂.size
    omega

theorem Takes.mono (h : Takes m s r) (hn : n ≤ m) : Takes n s r where
  suffix := h.suffix
  size := by
    have := h.size
    omega

theorem takes_cons (hc : isSeparator c = false) : Takes 1 (c :: s) s where
  suffix := List.suffix_cons c s
  size := by rw [textSize_cons hc]

theorem takes_skipSpace : Takes 0 s (skipSpace s) where
  suffix := List.dropWhile_suffix _
  size := by
    have hsuffix : skipSpace s <:+ s := List.dropWhile_suffix _
    rcases hsuffix with ⟨a, ha⟩
    have := textSize_le_append_left (a := a) (b := skipSpace s)
    rw [ha] at this
    omega

/-- A separator, and the white space after it. -/
theorem takes_separator : Takes 1 (c :: s) (skipSpace s) where
  suffix := (List.dropWhile_suffix _).trans (List.suffix_cons c s)
  size := textSize_separator

/-- Characters of a word or a number. -/
theorem takes_append {a : List Char} (ha : ∀ c ∈ a, isSeparator c = false) :
    Takes a.length (a ++ s) s := by
  induction a with
  | nil => exact Takes.refl s
  | cons c a ih =>
    have hrest := ih fun d hd => ha d (List.mem_cons_of_mem _ hd)
    exact ((takes_cons (ha c List.mem_cons_self)).trans hrest).mono
      (Nat.le_of_eq (Nat.add_comm _ _))

theorem expect_ok (h : expect c s = .ok r) : s = c :: r := by
  unfold expect at h
  split_ifs at h with hhead
  cases h
  cases s with
  | nil => cases hhead
  | cons d s =>
    cases hhead
    rfl

/-! ### Strings -/

theorem unitSize_le (ensureAscii : Bool) (h : n < 0x10000) : unitSize ensureAscii n ≤ 6 := by
  unfold unitSize
  split_ifs <;> omega

theorem unitSize_simpleEscape (ensureAscii : Bool) (h : simpleEscape c = some n) :
    unitSize ensureAscii n ≤ 2 := by
  unfold simpleEscape at h
  split_ifs at h <;> cases h <;> simp [unitSize]

/-- A character of a text is no half of a surrogate pair. -/
theorem unitSize_plain (hascii : ensureAscii = true → c.toNat ≤ 126) (hquote : c ≠ '"')
    (hslash : c ≠ '\\') (hcontrol : ¬c.toNat < 32) : unitSize ensureAscii c.toNat = 1 := by
  have hvalid := c.valid
  have hmax : c.toNat < 0xD800 ∨ 0xDFFF < c.toNat ∧ c.toNat < 0x110000 := hvalid
  have hquote' : c.toNat ≠ 34 := fun h => hquote (Char.toNat_inj.1 h)
  have hslash' : c.toNat ≠ 92 := fun h => hslash (Char.toNat_inj.1 h)
  unfold unitSize
  rw [if_neg (by omega), if_neg hcontrol, if_neg (by omega), if_neg]
  rintro ⟨he, hbig⟩
  have := hascii he
  omega

/-- What has been paid for the character that is being read. -/
def StringState.paid : StringState → Nat
  | .plain => 0
  | .escaped => 1
  | .hex left _ => 5 - left

def StringState.Sound : StringState → Prop
  | .hex left read => left ≤ 3 ∧ (read + 1) * 16 ^ (left + 1) ≤ 0x10000
  | _ => True

/-- A separator is followed by a space in the text when it is in the string. -/
theorem unitsSize_plain {u : List Nat} (hascii : ensureAscii = true → c.toNat ≤ 126)
    (hquote : c ≠ '"') (hslash : c ≠ '\\') (hcontrol : ¬c.toNat < 32)
    (hscan : scanUnits .plain s = some (u, r))
    (hrest : unitsSize ensureAscii u + 1 + textSize r ≤ textSize s) :
    unitsSize ensureAscii (c.toNat :: u) + 1 + textSize r ≤ textSize (c :: s) := by
  have hunit := unitSize_plain hascii hquote hslash hcontrol
  rw [unitsSize, textSize, hunit]
  by_cases hsep : isSeparator c = true ∧ s.head? = some ' '
  · have hc : c.toNat = 44 ∨ c.toNat = 58 := by
      rcases Bool.or_eq_true_iff.1 hsep.1 with h | h
      · rw [beq_iff_eq.1 h]
        exact .inl rfl
      · rw [beq_iff_eq.1 h]
        exact .inr rfl
    have hu : u.head? = some 32 := by
      cases s with
      | nil => cases hsep.2
      | cons d s =>
        have hd : d = ' ' := Option.some.inj hsep.2
        subst hd
        have hspace : (scanUnits .plain s).map (fun r => (32 :: r.1, r.2)) = some (u, r) := hscan
        rcases Option.map_eq_some_iff.1 hspace with ⟨⟨u', r'⟩, -, heq⟩
        cases heq
        rfl
    rw [if_pos ⟨hc, hu⟩, if_pos hsep]
    omega
  · rw [if_neg hsep]
    split_ifs <;> omega

theorem isSeparator_of_hexValue {d : Nat} (h : hexValue c = some d) :
    isSeparator c = false ∧ d < 16 := by
  unfold hexValue isDigit at h
  have hnot : c.toNat ≠ 44 ∧ c.toNat ≠ 58 ∧ d < 16 := by
    split_ifs at h with hdigit hlower hupper
    · rw [Bool.and_eq_true, decide_eq_true_eq, decide_eq_true_eq] at hdigit
      cases h
      omega
    · cases h
      omega
    · cases h
      omega
  refine ⟨?_, hnot.2.2⟩
  rw [isSeparator, Bool.or_eq_false_iff, beq_eq_false_iff_ne, beq_eq_false_iff_ne]
  constructor
  · rintro rfl
    exact hnot.1 rfl
  · rintro rfl
    exact hnot.2.1 rfl

theorem isSeparator_of_simpleEscape (h : simpleEscape c = some n) : isSeparator c = false := by
  unfold simpleEscape at h
  split_ifs at h <;> subst_vars <;> rfl

theorem unitsSize_cons_le (ensureAscii : Bool) (n : Nat) (u : List Nat) :
    unitsSize ensureAscii (n :: u) ≤ unitSize ensureAscii n + unitsSize ensureAscii u := by
  rw [unitsSize]
  split_ifs <;> omega

theorem takes_scanUnits {state : StringState} {u : List Nat} (hsound : state.Sound)
    (hascii : AsciiFor ensureAscii s) (h : scanUnits state s = some (u, r)) :
    r <:+ s ∧ unitsSize ensureAscii u + 1 + textSize r ≤ textSize s + state.paid := by
  induction s generalizing state u with
  | nil => cases state <;> cases h
  | cons c cs ih =>
    have hcs : AsciiFor ensureAscii cs := hascii.suffix (List.suffix_cons c cs)
    have hc : ensureAscii = true → c.toNat ≤ 126 := fun he => hascii he c List.mem_cons_self
    have hplain : StringState.plain.Sound := trivial
    have hescaped : StringState.escaped.Sound := trivial
    have hhex : (StringState.hex 3 0).Sound := ⟨by omega, by decide⟩
    cases state with
    | plain =>
      rw [scanUnits] at h
      split_ifs at h with hquote hslash hcontrol
      · cases h
        refine ⟨List.suffix_cons c r, ?_⟩
        rw [hquote, textSize_cons (by decide), unitsSize, StringState.paid]
        omega
      · rcases ih hescaped hcs h with ⟨hsuffix, hsize⟩
        refine ⟨hsuffix.trans (List.suffix_cons c cs), ?_⟩
        rw [hslash, textSize_cons (by decide)]
        simp only [StringState.paid] at hsize ⊢
        omega
      · rcases Option.map_eq_some_iff.1 h with ⟨⟨u', r'⟩, hscan, heq⟩
        cases heq
        rcases ih hplain hcs hscan with ⟨hsuffix, hsize⟩
        exact ⟨hsuffix.trans (List.suffix_cons c cs),
          unitsSize_plain hc hquote hslash hcontrol hscan hsize⟩
    | escaped =>
      rw [scanUnits] at h
      split_ifs at h with hu
      · rcases ih hhex hcs h with ⟨hsuffix, hsize⟩
        refine ⟨hsuffix.trans (List.suffix_cons c cs), ?_⟩
        rw [hu, textSize_cons (by decide)]
        simp only [StringState.paid] at hsize ⊢
        omega
      · cases hesc : simpleEscape c with
        | none =>
          rw [hesc] at h
          cases h
        | some n =>
          rw [hesc] at h
          rcases Option.map_eq_some_iff.1 h with ⟨⟨u', r'⟩, hscan, heq⟩
          cases heq
          rcases ih hplain hcs hscan with ⟨hsuffix, hsize⟩
          refine ⟨hsuffix.trans (List.suffix_cons c cs), ?_⟩
          have hunits := unitsSize_cons_le ensureAscii n u'
          have hunit := unitSize_simpleEscape ensureAscii hesc
          rw [textSize_cons (isSeparator_of_simpleEscape hesc)]
          simp only [StringState.paid] at hsize ⊢
          omega
    | hex left read =>
      rw [scanUnits] at h
      cases hd : hexValue c with
      | none =>
        rw [hd] at h
        cases h
      | some d =>
        rw [hd] at h
        rcases isSeparator_of_hexValue hd with ⟨hsep, hlt⟩
        rcases hsound with ⟨hleft, hread⟩
        rw [textSize_cons hsep]
        cases left with
        | zero =>
          rcases Option.map_eq_some_iff.1 h with ⟨⟨u', r'⟩, hscan, heq⟩
          cases heq
          rcases ih hplain hcs hscan with ⟨hsuffix, hsize⟩
          refine ⟨hsuffix.trans (List.suffix_cons c cs), ?_⟩
          have hunits := unitsSize_cons_le ensureAscii (read * 16 + d) u'
          have hunit := unitSize_le ensureAscii (show read * 16 + d < 0x10000 by omega)
          simp only [StringState.paid] at hsize ⊢
          omega
        | succ left =>
          have hsound' : (StringState.hex left (read * 16 + d)).Sound := by
            refine ⟨by omega, ?_⟩
            calc (read * 16 + d + 1) * 16 ^ (left + 1)
                ≤ (read * 16 + 16) * 16 ^ (left + 1) := Nat.mul_le_mul_right _ (by omega)
              _ = (read + 1) * (16 ^ (left + 1) * 16) := by
                have hsucc : (read + 1) * 16 = read * 16 + 16 := by omega
                rw [Nat.mul_comm (16 ^ (left + 1)) 16, ← Nat.mul_assoc, hsucc]
              _ ≤ 0x10000 := hread
          rcases ih hsound' hcs h with ⟨hsuffix, hsize⟩
          refine ⟨hsuffix.trans (List.suffix_cons c cs), ?_⟩
          simp only [StringState.paid] at hsize ⊢
          omega

/-- Two halves in a row are written as two escapes. -/
theorem unitsSize_joinSurrogates (ensureAscii : Bool) (u : List Nat) :
    unitsSize ensureAscii (joinSurrogates u) ≤ unitsSize ensureAscii u := by
  induction u using joinSurrogates.induct with
  | case1 => exact le_refl _
  | case2 n => exact le_refl _
  | case3 n m rest hpair ih =>
    have hhead : ∀ x : Nat, (x = 44 ∨ x = 58) → ¬(0xD800 ≤ x ∧ x < 0xE000) := by
      intro x hx
      omega
    have hn : unitsSize ensureAscii (n :: m :: rest) =
        6 + (6 + unitsSize ensureAscii rest) := by
      have hbig (x : Nat) (hx : 0xD800 ≤ x ∧ x < 0xE000) : unitSize ensureAscii x = 6 := by
        unfold unitSize
        rw [if_neg (by omega), if_neg (by omega), if_pos (.inl hx)]
      rw [unitsSize, if_neg (by omega), unitsSize, if_neg (by omega), hbig n (by omega),
        hbig m (by omega)]
    have hjoined (x : Nat) : unitSize ensureAscii x ≤ 12 := by
      unfold unitSize
      split_ifs <;> omega
    rw [joinSurrogates, if_pos hpair, hn]
    have hcons := unitsSize_cons_le ensureAscii
      (0x10000 + (n - 0xD800) * 1024 + (m - 0xDC00)) (joinSurrogates rest)
    have := hjoined (0x10000 + (n - 0xD800) * 1024 + (m - 0xDC00))
    omega
  | case4 n m rest hpair ih =>
    rw [joinSurrogates, if_neg hpair, unitsSize, unitsSize]
    have hhead : (m :: rest).head? = some 32 → (joinSurrogates (m :: rest)).head? = some 32 := by
      intro h
      have hm : m = 32 := Option.some.inj h
      rw [joinSurrogates_cons (by omega), hm]
      rfl
    split_ifs with h₁ h₂ h₂
    · omega
    · omega
    · exact absurd ⟨h₂.1, hhead h₂.2⟩ h₁
    · omega

/-! ### Numbers and words -/

theorem isSeparator_of_isDigit (h : isDigit c = true) : isSeparator c = false := by
  rw [isSeparator, Bool.or_eq_false_iff, beq_eq_false_iff_ne, beq_eq_false_iff_ne]
  constructor
  · rintro rfl
    exact absurd h (by decide)
  · rintro rfl
    exact absurd h (by decide)

theorem isSeparator_of_takeWhile {l : List Char} :
    ∀ c ∈ l.takeWhile isDigit, isSeparator c = false :=
  fun _ hc => isSeparator_of_isDigit (List.mem_takeWhile_imp hc)

/-- Digits stand for a number that has no more digits. -/
theorem ofDigitChars_lt {digits : List Char} (h : ∀ c ∈ digits, isDigit c = true) (init : Nat) :
    Nat.ofDigitChars 10 digits init < (init + 1) * 10 ^ digits.length := by
  induction digits generalizing init with
  | nil =>
    rw [Nat.ofDigitChars_nil, List.length_nil]
    omega
  | cons c digits ih =>
    rw [Nat.ofDigitChars_cons, List.length_cons]
    have hrest := ih (fun d hd => h d (List.mem_cons_of_mem _ hd)) (10 * init + (c.toNat - '0'.toNat))
    have hc := h c List.mem_cons_self
    simp only [isDigit, Bool.and_eq_true, decide_eq_true_eq] at hc
    have hdigit : c.toNat - '0'.toNat < 10 := by
      have hzero : '0'.toNat = 48 := rfl
      omega
    calc Nat.ofDigitChars 10 digits (10 * init + (c.toNat - '0'.toNat))
        < (10 * init + (c.toNat - '0'.toNat) + 1) * 10 ^ digits.length := hrest
      _ ≤ ((init + 1) * 10) * 10 ^ digits.length := Nat.mul_le_mul_right _ (by omega)
      _ = (init + 1) * 10 ^ (digits.length + 1) := by
        rw [Nat.pow_succ, Nat.mul_assoc, Nat.mul_comm 10]

theorem length_toDigits_ofDigitChars {digits : List Char} (h : ∀ c ∈ digits, isDigit c = true)
    (hne : digits ≠ []) :
    (Nat.toDigits 10 (Nat.ofDigitChars 10 digits 0)).length ≤ digits.length := by
  rw [Nat.length_toDigits_le_iff (by decide) (List.length_pos_iff.2 hne)]
  have hlt := ofDigitChars_lt h 0
  rwa [Nat.zero_add, Nat.one_mul] at hlt

theorem length_dumpInt_neg (n : Nat) : (dumpInt (-n)).length ≤ 1 + (Nat.toDigits 10 n).length := by
  cases n with
  | zero => decide
  | succ n =>
    have hneg : dumpInt (-((n + 1 : Nat) : Int)) = '-' :: Nat.toDigits 10 (n + 1) := rfl
    rw [hneg, List.length_cons]
    omega

theorem fraction_spec (s : List Char) :
    fraction s <+: s ∧ ∀ c ∈ fraction s, isSeparator c = false := by
  unfold fraction
  split
  · split_ifs
    · exact ⟨List.nil_prefix, fun _ h => nomatch h⟩
    · refine ⟨List.cons_prefix_cons.2 ⟨rfl, List.takeWhile_prefix _⟩, fun c hc => ?_⟩
      rcases List.mem_cons.1 hc with rfl | hdigit
      · rfl
      · exact isSeparator_of_takeWhile c hdigit
  · exact ⟨List.nil_prefix, fun _ h => nomatch h⟩

theorem exponent_spec (s : List Char) :
    exponent s <+: s ∧ ∀ c ∈ exponent s, isSeparator c = false := by
  cases s with
  | nil => exact ⟨List.nil_prefix, fun _ h => absurd h List.not_mem_nil⟩
  | cons e s =>
    rw [exponent]
    by_cases he : e = 'e' ∨ e = 'E'
    · rw [if_pos he]
      extract_lets sign digits
      have hsign : s = sign ++ s.drop sign.length ∧ ∀ c ∈ sign, isSeparator c = false := by
        cases s with
        | nil =>
          refine ⟨rfl, fun c hc => ?_⟩
          have hnil : c ∈ ([] : List Char) := hc
          cases hnil
        | cons d s =>
          simp only [sign, List.head?_cons, Option.some.injEq]
          split_ifs with hd
          · refine ⟨rfl, fun c hc => ?_⟩
            rw [List.mem_singleton.1 hc]
            rcases hd with rfl | rfl <;> rfl
          · exact ⟨rfl, fun _ h => absurd h List.not_mem_nil⟩
      split_ifs
      · exact ⟨List.nil_prefix, fun _ h => absurd h List.not_mem_nil⟩
      · constructor
        · refine List.cons_prefix_cons.2 ⟨rfl, ?_⟩
          have hdigits : digits <+: s.drop sign.length := List.takeWhile_prefix _
          have hboth := (List.prefix_append_right_inj sign).2 hdigits
          rwa [← hsign.1] at hboth
        · intro c hc
          rcases List.mem_cons.1 hc with rfl | hc
          · rcases he with rfl | rfl <;> rfl
          · rcases List.mem_append.1 hc with hc | hc
            · exact hsign.2 c hc
            · exact isSeparator_of_takeWhile c hc
    · rw [if_neg he]
      exact ⟨List.nil_prefix, fun _ h => absurd h List.not_mem_nil⟩

/-- What a number token takes. -/
theorem takes_tokens {sign unsigned digits rest : List Char} (hs : s = sign ++ unsigned)
    (hsign : ∀ c ∈ sign, isSeparator c = false) (hunsigned : unsigned = digits ++ rest)
    (hdigits : ∀ c ∈ digits, isSeparator c = false) :
    Takes (sign.length + digits.length) s rest := by
  rw [hs, hunsigned]
  exact (takes_append hsign).trans (takes_append hdigits)

theorem takes_scanNumber {v : JsonValue} (h : scanNumber s = .ok (v, r)) :
    Takes (v.leastSize ensureAscii) s r := by
  unfold scanNumber at h
  extract_lets sign unsigned digits rest frac exp at h
  have hs : s = sign ++ unsigned := by
    simp only [sign, unsigned]
    split_ifs with hhead
    · cases s with
      | nil => cases hhead
      | cons c s =>
        cases hhead
        rfl
    · rfl
  have hsign : ∀ c ∈ sign, isSeparator c = false := by
    simp only [sign]
    split_ifs
    · intro c hc
      rw [List.mem_singleton.1 hc]
      rfl
    · exact fun _ h => nomatch h
  have hdigit : ∀ c ∈ digits, isDigit c = true := by
    simp only [digits]
    split_ifs
    · intro c hc
      rw [List.mem_singleton.1 hc]
      rfl
    · exact fun c hc => List.mem_takeWhile_imp hc
  have hunsigned : unsigned = digits ++ rest := by
    have hprefix : digits <+: unsigned := by
      simp only [digits]
      split_ifs with hzero
      · cases hu : unsigned with
        | nil =>
          rw [hu] at hzero
          cases hzero
        | cons c u =>
          rw [hu] at hzero
          cases hzero
          exact List.cons_prefix_cons.2 ⟨rfl, List.nil_prefix⟩
      · exact List.takeWhile_prefix _
    exact (List.prefix_iff_eq_append.1 hprefix).symm
  have htokens := takes_tokens hs hsign hunsigned fun c hc => isSeparator_of_isDigit (hdigit c hc)
  have hone (hempty : ¬digits.isEmpty = true) :
      (Nat.toDigits 10 (Nat.ofDigitChars 10 digits 0)).length ≤ digits.length :=
    length_toDigits_ofDigitChars hdigit fun hnil => hempty (List.isEmpty_iff.2 hnil)
  split_ifs at h with hempty hwhole hlong hplus
  · rcases Prod.mk.inj (Except.ok.inj h) with ⟨rfl, hr⟩
    rw [← hr]
    exact htokens.mono ((hone hempty).trans (Nat.le_add_left _ _))
  · rcases Prod.mk.inj (Except.ok.inj h) with ⟨rfl, hr⟩
    rw [← hr]
    have hpos : 0 < sign.length := List.length_pos_iff.2 fun hnil =>
      hplus (List.isEmpty_iff.2 hnil)
    have hneg := length_dumpInt_neg (Nat.ofDigitChars 10 digits 0)
    have hlen := hone hempty
    exact htokens.mono (hneg.trans (by omega))
  · rcases Prod.mk.inj (Except.ok.inj h) with ⟨rfl, hr⟩
    rcases fraction_spec rest with ⟨hfrac, hfracs⟩
    rcases exponent_spec (rest.drop frac.length) with ⟨hexp, hexps⟩
    have hrest : rest = frac ++ (exp ++ r) := by
      have h₁ : frac ++ rest.drop frac.length = rest := List.prefix_iff_eq_append.1 hfrac
      have h₂ : exp ++ (rest.drop frac.length).drop exp.length = rest.drop frac.length :=
        List.prefix_iff_eq_append.1 hexp
      rw [← hr, List.length_append, ← List.drop_drop, h₂, h₁]
    have htail : Takes (frac.length + exp.length) rest r := takes_tokens hrest hfracs rfl hexps
    apply (htokens.trans htail).mono
    rw [JsonValue.leastSize, List.length_append, List.length_append, List.length_append]
    omega

theorem takes_scanScalar {v : JsonValue} (h : scanScalar s = .ok (v, r)) :
    Takes (v.leastSize ensureAscii) s r := by
  unfold scanScalar at h
  cases hfind : jsonConstants.find? fun p => p.1.isPrefixOf s with
  | none =>
    rw [hfind] at h
    exact takes_scanNumber h
  | some p =>
    rw [hfind] at h
    cases h
    have hprefix : p.1 <+: s := List.isPrefixOf_iff_prefix.1
      (List.find?_some (p := fun p : List Char × JsonValue => p.1.isPrefixOf s) hfind)
    have hmem := List.mem_of_find?_eq_some hfind
    have hletters : jsonConstants.all (fun p => p.1.all fun c => !isSeparator c) = true := by decide
    have hword : ∀ c ∈ p.1, isSeparator c = false := by
      intro c hc
      have hp := List.all_eq_true.1 (List.all_eq_true.1 hletters p hmem) c hc
      rwa [Bool.not_eq_true'] at hp
    have hsize : p.2.leastSize ensureAscii = p.1.length := by
      simp only [jsonConstants, List.mem_cons, List.not_mem_nil, or_false] at hmem
      rcases hmem with rfl | rfl | rfl | rfl | rfl | rfl <;> rfl
    have htakes := takes_append (s := s.drop p.1.length) hword
    rw [List.prefix_iff_eq_append.1 hprefix] at htakes
    rwa [hsize]

/-! ### Containers -/

/-- A reader takes as much as its value needs. -/
def TakesValues (ensureAscii : Bool)
    (scan : List Char → Except LoadsError (JsonValue × List Char)) : Prop :=
  ∀ s v r, AsciiFor ensureAscii s → scan s = .ok (v, r) → Takes (v.leastSize ensureAscii) s r

variable {scan : List Char → Except LoadsError (JsonValue × List Char)} {depth fuel : Nat}

theorem takes_scanString {u : List Nat} (hascii : AsciiFor ensureAscii s)
    (h : scanString s = .ok (u, r)) : Takes (unitsSize ensureAscii u + 1) s r := by
  unfold scanString at h
  cases hscan : scanUnits .plain s with
  | none =>
    rw [hscan] at h
    cases h
  | some p =>
    rw [hscan] at h
    cases h
    have hplain : StringState.plain.Sound := trivial
    rcases takes_scanUnits hplain hascii hscan with ⟨hsuffix, hsize⟩
    have hjoin := unitsSize_joinSurrogates ensureAscii p.1
    refine ⟨hsuffix, ?_⟩
    simp only [StringState.paid] at hsize
    omega

/-- What ends a container counts one. -/
theorem takes_closing (hc : isSeparator c = false) (h : s.head? = some c) : Takes 1 s s.tail := by
  have hs : c :: s.tail = s := List.cons_head?_tail h
  have htakes := takes_cons (s := s.tail) hc
  rwa [hs] at htakes

theorem takes_scanItems (hscan : TakesValues ensureAscii scan) {vs : List JsonValue}
    (hascii : AsciiFor ensureAscii s) (h : scanItems scan fuel s = .ok (vs, r)) :
    Takes (max 1 (itemsSize ensureAscii vs)) s r := by
  induction fuel generalizing s vs with
  | zero => cases h
  | succ fuel ih =>
    rw [scanItems, except_bind_ok] at h
    rcases h with ⟨⟨v, t⟩, hv, h⟩
    have hvalue := (hscan s v t hascii hv).trans takes_skipSpace
    dsimp only at h
    split_ifs at h with hclosed
    · cases h
      exact (hvalue.trans (takes_closing (by decide) hclosed)).mono (by simp only [itemsSize]; omega)
    · rw [except_bind_ok] at h
      rcases h with ⟨t', hcomma, h⟩
      rw [except_bind_ok] at h
      rcases h with ⟨⟨vs', t₂⟩, hitems, h⟩
      cases h
      have hnext : Takes 1 (skipSpace t) (skipSpace t') := by
        rw [expect_ok hcomma]
        exact takes_separator
      have hboth := hvalue.trans hnext
      have hrest := ih (hascii.suffix hboth.suffix) hitems
      exact (hboth.trans hrest).mono (by simp only [itemsSize]; omega)

theorem takes_scanField (hscan : TakesValues ensureAscii scan) {f : List Nat × JsonValue}
    (hascii : AsciiFor ensureAscii s) (h : scanField scan s = .ok (f, r)) :
    Takes (fieldSize ensureAscii f) s r := by
  rw [scanField, except_bind_ok] at h
  rcases h with ⟨t, hquote, h⟩
  rw [except_bind_ok] at h
  rcases h with ⟨⟨name, t'⟩, hname, h⟩
  rw [except_bind_ok] at h
  rcases h with ⟨t₂, hcolon, h⟩
  rw [except_bind_ok] at h
  rcases h with ⟨⟨v, t₃⟩, hv, h⟩
  cases h
  have hopen : Takes 1 s t := by
    rw [expect_ok hquote]
    exact takes_cons (by decide)
  have hstring := hopen.trans (takes_scanString (hascii.suffix hopen.suffix) hname)
  have hseparator : Takes 1 (skipSpace t') (skipSpace t₂) := by
    rw [expect_ok hcolon]
    exact takes_separator
  have hbefore := (hstring.trans takes_skipSpace).trans hseparator
  have hvalue := hscan (skipSpace t₂) v r (hascii.suffix hbefore.suffix) hv
  exact (hbefore.trans hvalue).mono (by simp only [fieldSize]; omega)

theorem takes_scanFields (hscan : TakesValues ensureAscii scan)
    {fs : List (List Nat × JsonValue)} (hascii : AsciiFor ensureAscii s)
    (h : scanFields scan fuel s = .ok (fs, r)) :
    Takes (max 1 (fieldsSize ensureAscii fs)) s r := by
  induction fuel generalizing s fs with
  | zero => cases h
  | succ fuel ih =>
    rw [scanFields, except_bind_ok] at h
    rcases h with ⟨⟨f, t⟩, hf, h⟩
    have hfield := (takes_scanField hscan hascii hf).trans takes_skipSpace
    dsimp only at h
    split_ifs at h with hclosed
    · cases h
      exact (hfield.trans (takes_closing (by decide) hclosed)).mono (by simp only [fieldsSize]; omega)
    · rw [except_bind_ok] at h
      rcases h with ⟨t', hcomma, h⟩
      rw [except_bind_ok] at h
      rcases h with ⟨⟨fs', t₂⟩, hfields, h⟩
      cases h
      have hnext : Takes 1 (skipSpace t) (skipSpace t') := by
        rw [expect_ok hcomma]
        exact takes_separator
      have hboth := hfield.trans hnext
      have hrest := ih (hascii.suffix hboth.suffix) hfields
      exact (hboth.trans hrest).mono (by simp only [fieldsSize]; omega)

theorem takes_scanArray (hscan : TakesValues ensureAscii scan) {v : JsonValue}
    (hascii : AsciiFor ensureAscii s) (h : scanArray scan s = .ok (v, r)) :
    Takes (v.leastSize ensureAscii) ('[' :: s) r := by
  have hopen : Takes 1 ('[' :: s) (skipSpace s) :=
    (takes_cons (by decide)).trans takes_skipSpace
  unfold scanArray at h
  dsimp only at h
  split_ifs at h with hclosed
  · cases h
    exact (hopen.trans (takes_closing (by decide) hclosed)).mono (by simp [JsonValue.leastSize,
      itemsSize])
  · rw [except_bind_ok] at h
    rcases h with ⟨⟨vs, t⟩, hitems, h⟩
    cases h
    have hrest := takes_scanItems hscan (hascii.suffix takes_skipSpace.suffix) hitems
    exact hopen.trans hrest

theorem takes_scanObject (hscan : TakesValues ensureAscii scan) {v : JsonValue}
    (hascii : AsciiFor ensureAscii s) (h : scanObject scan s = .ok (v, r)) :
    Takes (v.leastSize ensureAscii) ('\x7b' :: s) r := by
  have hopen : Takes 1 ('\x7b' :: s) (skipSpace s) :=
    (takes_cons (by decide)).trans takes_skipSpace
  unfold scanObject at h
  dsimp only at h
  split_ifs at h with hclosed
  · cases h
    exact hopen.trans (takes_closing (by decide) hclosed)
  · rw [except_bind_ok] at h
    rcases h with ⟨⟨fs, t⟩, hfields, h⟩
    cases h
    have hrest := takes_scanFields hscan (hascii.suffix takes_skipSpace.suffix) hfields
    exact hopen.trans hrest

theorem takes_scanOnce (depth : Nat) : TakesValues ensureAscii (scanOnce depth) := by
  have hstring {depth : Nat} {cs r : List Char} {v : JsonValue} (hascii : AsciiFor ensureAscii cs)
      (h : scanOnce depth ('"' :: cs) = .ok (v, r)) :
      Takes (v.leastSize ensureAscii) ('"' :: cs) r := by
    rw [scanOnce_string, except_bind_ok] at h
    rcases h with ⟨⟨u, t⟩, hu, h⟩
    cases h
    have hquote : Takes 1 ('"' :: cs) cs := takes_cons (by decide)
    refine (hquote.trans (takes_scanString hascii hu)).mono ?_
    rw [JsonValue.leastSize]
    omega
  induction depth with
  | zero =>
    intro s v r hascii h
    cases s with
    | nil => cases h
    | cons c cs =>
      have hcs := hascii.suffix (List.suffix_cons c cs)
      by_cases hc : c = '"'
      · subst hc
        exact hstring hcs h
      · rw [scanOnce, if_neg hc] at h
        split_ifs at h
        · exact takes_scanScalar h
  | succ depth ih =>
    intro s v r hascii h
    cases s with
    | nil => cases h
    | cons c cs =>
      have hcs := hascii.suffix (List.suffix_cons c cs)
      by_cases hc : c = '"'
      · subst hc
        exact hstring hcs h
      · rw [scanOnce, if_neg hc] at h
        split_ifs at h with hopen hbrace
        · subst hbrace
          exact takes_scanObject ih hcs h
        · have hbracket : c = '[' := hopen.resolve_left hbrace
          subst hbracket
          exact takes_scanArray ih hcs h
        · exact takes_scanScalar h

/-- **The least size.** No text is smaller than what it reads as. -/
theorem leastSize_le {v : JsonValue} (hascii : AsciiFor ensureAscii s)
    (h : loads depth s = .ok v) : v.leastSize ensureAscii ≤ textSize s := by
  unfold loads at h
  split_ifs at h
  rw [except_bind_ok] at h
  rcases h with ⟨⟨v', r⟩, hscan, h⟩
  dsimp only at h
  split_ifs at h with hend
  cases h
  have hskip : skipSpace s <:+ s := takes_skipSpace.suffix
  have htakes := takes_scanOnce depth (skipSpace s) v r (hascii.suffix hskip) hscan
  have := (takes_skipSpace.trans htakes).size
  omega

end Takes

end GoAgent.Foundation
