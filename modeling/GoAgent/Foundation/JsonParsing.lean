import GoAgent.Foundation.Json
import GoAgent.Foundation.Raising

/-!
# Reading JSON text

`loads` is Python's `json.loads` on a text. Strings are lists of code points, because an escape can
name half of a surrogate pair. A value may be nested as deep as the interpreter recurses, which is
the parameter `depth`; what is nested deeper raises a `RecursionError`.

* `loads_ne_exhausted` — the reader always comes to an end.
* `loads_ne_recursion` — a text no longer than the depth is not nested too deep.
-/

namespace GoAgent.Foundation

/-- What a text stands for. A number with a fraction or an exponent is kept as its text. -/
inductive JsonValue where
  | null
  | bool (b : Bool)
  | int (n : Int)
  | float (text : List Char)
  | str (s : List Nat)
  | arr (items : List JsonValue)
  | obj (fields : List (List Nat × JsonValue))

/-- Why `json.loads` raises; `digits` is the limit on the length of an integer. -/
inductive LoadsError where
  | decode
  | digits
  | recursion
  | exhausted
  deriving DecidableEq

/-! ## Scalars -/

/-- `[ \t\n\r]*` -/
def isJsonSpace (c : Char) : Bool := c == ' ' || c == '\t' || c == '\n' || c == '\r'

def skipSpace (s : List Char) : List Char := s.dropWhile isJsonSpace

def hexValue (c : Char) : Option Nat :=
  if isDigit c then some (c.toNat - 48)
  else if 97 ≤ c.toNat ∧ c.toNat ≤ 102 then some (c.toNat - 87)
  else if 65 ≤ c.toNat ∧ c.toNat ≤ 70 then some (c.toNat - 55)
  else none

/-- The character of an escape other than `\u`. -/
def simpleEscape (c : Char) : Option Nat :=
  if c = '"' then some 34
  else if c = '\\' then some 92
  else if c = '/' then some 47
  else if c = 'b' then some 8
  else if c = 'f' then some 12
  else if c = 'n' then some 10
  else if c = 'r' then some 13
  else if c = 't' then some 9
  else none

/-- Where a string is read: between characters, after a backslash, or before the last `left + 1`
digits of an escape. -/
inductive StringState where
  | plain
  | escaped
  | hex (left read : Nat)

/-- The code units of a string and what follows it; `none` is an error. -/
def scanUnits : StringState → List Char → Option (List Nat × List Char)
  | _, [] => none
  | .plain, c :: cs =>
    if c = '"' then some ([], cs)
    else if c = '\\' then scanUnits .escaped cs
    else if c.toNat < 32 then none
    else (scanUnits .plain cs).map fun r => (c.toNat :: r.1, r.2)
  | .escaped, c :: cs =>
    if c = 'u' then scanUnits (.hex 3 0) cs
    else match simpleEscape c with
      | some n => (scanUnits .plain cs).map fun r => (n :: r.1, r.2)
      | none => none
  | .hex left read, c :: cs =>
    match hexValue c with
    | none => none
    | some d =>
      match left with
      | 0 => (scanUnits .plain cs).map fun r => ((read * 16 + d) :: r.1, r.2)
      | left + 1 => scanUnits (.hex left (read * 16 + d)) cs

/-- A high and a low surrogate in a row are one code point. -/
def joinSurrogates : List Nat → List Nat
  | [] => []
  | [n] => [n]
  | n :: m :: rest =>
    if 0xD800 ≤ n ∧ n < 0xDC00 ∧ 0xDC00 ≤ m ∧ m < 0xE000 then
      (0x10000 + (n - 0xD800) * 1024 + (m - 0xDC00)) :: joinSurrogates rest
    else n :: joinSurrogates (m :: rest)

/-- `scanstring`, after the opening quote -/
def scanString (s : List Char) : Except LoadsError (List Nat × List Char) :=
  match scanUnits .plain s with
  | some (units, rest) => .ok (joinSurrogates units, rest)
  | none => .error .decode

/-- Digits, after a point. -/
def fraction : List Char → List Char
  | '.' :: cs => if (cs.takeWhile isDigit).isEmpty then [] else '.' :: cs.takeWhile isDigit
  | _ => []

/-- An exponent: `[eE][-+]?[0-9]+` -/
def exponent : List Char → List Char
  | [] => []
  | e :: cs =>
    if e = 'e' ∨ e = 'E' then
      let sign := if cs.head? = some '+' ∨ cs.head? = some '-' then cs.take 1 else []
      let digits := (cs.drop sign.length).takeWhile isDigit
      if digits.isEmpty then [] else e :: sign ++ digits
    else []

/-- The longest integer that `int` converts has this many digits. -/
def maxIntDigits : Nat := 4300

/-- `_match_number` -/
def scanNumber (s : List Char) : Except LoadsError (JsonValue × List Char) :=
  let sign := if s.head? = some '-' then ['-'] else []
  let unsigned := s.drop sign.length
  let digits := if unsigned.head? = some '0' then ['0'] else unsigned.takeWhile isDigit
  let rest := unsigned.drop digits.length
  let frac := fraction rest
  let exp := exponent (rest.drop frac.length)
  if digits.isEmpty then .error .decode
  else if frac.isEmpty ∧ exp.isEmpty then
    if maxIntDigits < digits.length then .error .digits
    else
      let n := Nat.ofDigitChars 10 digits 0
      .ok (.int (if sign.isEmpty then n else -n), rest)
  else .ok (.float (sign ++ digits ++ frac ++ exp), rest.drop (frac ++ exp).length)

def jsonConstants : List (List Char × JsonValue) :=
  [("null".toList, .null), ("true".toList, .bool true), ("false".toList, .bool false),
    ("NaN".toList, .float "NaN".toList), ("Infinity".toList, .float "Infinity".toList),
    ("-Infinity".toList, .float "-Infinity".toList)]

def scanScalar (s : List Char) : Except LoadsError (JsonValue × List Char) :=
  match jsonConstants.find? fun p => p.1.isPrefixOf s with
  | some (text, v) => .ok (v, s.drop text.length)
  | none => scanNumber s

/-! ## Containers -/

/-- The character that must come next. -/
def expect (c : Char) (s : List Char) : Except LoadsError (List Char) :=
  if s.head? = some c then .ok s.tail else .error .decode

section Loops

variable (scan : List Char → Except LoadsError (JsonValue × List Char))

/-- The loop of `_parse_array`, before a value. -/
def scanItems : Nat → List Char → Except LoadsError (List JsonValue × List Char)
  | 0, _ => .error .exhausted
  | fuel + 1, s => do
    let (v, r) ← scan s
    let r := skipSpace r
    if r.head? = some ']' then .ok ([v], r.tail)
    else do
      let r ← expect ',' r
      let (vs, rest) ← scanItems fuel (skipSpace r)
      .ok (v :: vs, rest)

/-- A name, a colon and a value. -/
def scanField (s : List Char) : Except LoadsError ((List Nat × JsonValue) × List Char) := do
  let r ← expect '"' s
  let (name, r) ← scanString r
  let r ← expect ':' (skipSpace r)
  let (v, r) ← scan (skipSpace r)
  .ok ((name, v), r)

/-- The loop of `_parse_object`, before a name. -/
def scanFields : Nat → List Char → Except LoadsError (List (List Nat × JsonValue) × List Char)
  | 0, _ => .error .exhausted
  | fuel + 1, s => do
    let (f, r) ← scanField scan s
    let r := skipSpace r
    if r.head? = some '}' then .ok ([f], r.tail)
    else do
      let r ← expect ',' r
      let (fs, rest) ← scanFields fuel (skipSpace r)
      .ok (f :: fs, rest)

/-- `_parse_array`, after the bracket -/
def scanArray (s : List Char) : Except LoadsError (JsonValue × List Char) :=
  let r := skipSpace s
  if r.head? = some ']' then .ok (.arr [], r.tail)
  else do
    let (vs, rest) ← scanItems scan (r.length + 1) r
    .ok (.arr vs, rest)

/-- `_parse_object`, after the brace -/
def scanObject (s : List Char) : Except LoadsError (JsonValue × List Char) :=
  let r := skipSpace s
  if r.head? = some '}' then .ok (.obj [], r.tail)
  else do
    let (fs, rest) ← scanFields scan (r.length + 1) r
    .ok (.obj fs, rest)

end Loops

/-- `scan_once`, on what is nested at most `depth` deep -/
def scanOnce : Nat → List Char → Except LoadsError (JsonValue × List Char)
  | _, [] => .error .decode
  | depth, c :: cs =>
    if c = '"' then do
      let (s, rest) ← scanString cs
      .ok (.str s, rest)
    else if c = '{' ∨ c = '[' then
      match depth with
      | 0 => .error .recursion
      | depth + 1 => if c = '{' then scanObject (scanOnce depth) cs else scanArray (scanOnce depth) cs
    else scanScalar (c :: cs)

/-- `json.loads` -/
def loads (depth : Nat) (s : List Char) : Except LoadsError JsonValue := do
  if s.head? = some '\ufeff' then .error .decode
  else do
    let (v, rest) ← scanOnce depth (skipSpace s)
    if skipSpace rest = [] then .ok v else .error .decode

/-- `fields[name]`: of several fields of one name the last counts. -/
def JsonValue.field (fields : List (List Nat × JsonValue)) (name : List Nat) : Option JsonValue :=
  (fields.reverse.find? fun f => f.1 = name).map Prod.snd

/-! ## Every text is read to an end -/

/-- A reader of `s` consumes some of it when it returns, comes to an end, and nests deeper than
`depth` only on a text that long. -/
structure Good {α : Type} (depth : Nat) (s : List Char)
    (result : Except LoadsError (α × List Char)) : Prop where
  consumes : ∀ v r, result = .ok (v, r) → r.length < s.length
  ends : result ≠ .error .exhausted
  shallow : result = .error .recursion → depth < s.length

namespace Good

variable {α β : Type} {depth : Nat} {s s' r : List Char} {v : α}
  {x : Except LoadsError (α × List Char)} {c : Char}

theorem ok (h : r.length < s.length) : Good depth s (.ok (v, r)) where
  consumes _ _ heq := by
    cases heq
    exact h
  ends := by simp
  shallow h := by cases h

theorem error {e : LoadsError} (hends : e ≠ .exhausted) (hshallow : e ≠ .recursion) :
    Good depth s (.error e : Except LoadsError (α × List Char)) where
  consumes _ _ heq := by cases heq
  ends heq := hends (Except.error.inj heq)
  shallow heq := absurd (Except.error.inj heq) hshallow

theorem decode : Good depth s (.error .decode : Except LoadsError (α × List Char)) :=
  error (by decide) (by decide)

theorem mono (h : Good depth s x) (hlen : s.length ≤ s'.length) : Good depth s' x where
  consumes v r heq := Nat.lt_of_lt_of_le (h.consumes v r heq) hlen
  ends := h.ends
  shallow heq := Nat.lt_of_lt_of_le (h.shallow heq) hlen

theorem bind {f : α × List Char → Except LoadsError (β × List Char)} (h : Good depth s x)
    (hf : ∀ v r, r.length < s.length → Good depth s (f (v, r))) : Good depth s (x >>= f) := by
  cases x with
  | ok vr =>
    rcases vr with ⟨v, r⟩
    exact hf v r (h.consumes v r rfl)
  | error e =>
    have hsame : (Except.error e >>= f) = (.error e : Except LoadsError (β × List Char)) := rfl
    rw [hsame]
    constructor
    · intro v r heq
      cases heq
    · intro heq
      cases heq
      exact h.ends rfl
    · intro heq
      cases heq
      exact h.shallow rfl

theorem expect_bind (s' : List Char) {f : List Char → Except LoadsError (β × List Char)}
    (hf : ∀ r, r.length < s'.length → Good depth s (f r)) :
    Good depth s (expect c s' >>= f) := by
  unfold expect
  split_ifs with hhead
  · apply hf
    cases s' with
    | nil => cases hhead
    | cons d s' => exact Nat.lt_succ_self _
  · exact decode

end Good

section Readers

variable {depth fuel : Nat} {s : List Char}
  {scan : List Char → Except LoadsError (JsonValue × List Char)}

theorem length_scanUnits {state : StringState} {u : List Nat} {r : List Char}
    (h : scanUnits state s = some (u, r)) : r.length < s.length := by
  induction s generalizing state u with
  | nil => cases state <;> cases h
  | cons c cs ih =>
    have hmap {state : StringState} {n : Nat}
        (h : (scanUnits state cs).map (fun r => (n :: r.1, r.2)) = some (u, r)) :
        r.length < (c :: cs).length := by
      rcases Option.map_eq_some_iff.1 h with ⟨⟨u', r'⟩, hscan, heq⟩
      cases heq
      exact Nat.lt_succ_of_lt (ih hscan)
    cases state with
    | plain =>
      rw [scanUnits] at h
      split_ifs at h
      · cases h
        exact Nat.lt_succ_self _
      · exact Nat.lt_succ_of_lt (ih h)
      · exact hmap h
    | escaped =>
      rw [scanUnits] at h
      split_ifs at h
      · exact Nat.lt_succ_of_lt (ih h)
      · cases hesc : simpleEscape c with
        | none =>
          rw [hesc] at h
          cases h
        | some n =>
          rw [hesc] at h
          exact hmap h
    | hex left read =>
      rw [scanUnits] at h
      cases hd : hexValue c with
      | none =>
        rw [hd] at h
        cases h
      | some d =>
        rw [hd] at h
        cases left with
        | zero => exact hmap h
        | succ left => exact Nat.lt_succ_of_lt (ih h)

theorem good_scanString : Good depth s (scanString s) := by
  unfold scanString
  cases h : scanUnits .plain s with
  | none => exact Good.decode
  | some r => exact Good.ok (length_scanUnits h)

theorem length_skipSpace : (skipSpace s).length ≤ s.length :=
  (List.dropWhile_sublist _).length_le

theorem good_scanNumber : Good depth s (scanNumber s) := by
  unfold scanNumber
  extract_lets sign unsigned digits rest frac exp
  by_cases hempty : digits.isEmpty = true
  · rw [if_pos hempty]
    exact Good.decode
  · rw [if_neg hempty]
    -- a number has a digit, so what follows it is shorter
    have hpos : 0 < digits.length := by
      rw [List.isEmpty_iff] at hempty
      exact List.length_pos_iff.2 hempty
    have hunsigned : unsigned ≠ [] := by
      intro hnil
      apply hempty
      simp only [digits, hnil]
      rfl
    have hrest : rest.length < s.length := by
      have hlen : unsigned.length ≤ s.length := by
        simp only [unsigned, List.length_drop]
        omega
      have hlt := List.length_pos_iff.2 hunsigned
      simp only [rest, List.length_drop]
      omega
    split_ifs
    · exact Good.error (by decide) (by decide)
    · exact Good.ok hrest
    · exact Good.ok hrest
    · apply Good.ok
      rw [List.length_drop]
      omega

theorem good_scanScalar : Good depth s (scanScalar s) := by
  unfold scanScalar
  cases h : jsonConstants.find? fun p => p.1.isPrefixOf s with
  | none => exact good_scanNumber
  | some p =>
    apply Good.ok
    have hwords : ∀ p ∈ jsonConstants, 0 < p.1.length := by
      intro p hp
      simp only [jsonConstants, List.mem_cons, List.not_mem_nil, or_false] at hp
      rcases hp with rfl | rfl | rfl | rfl | rfl | rfl
      all_goals decide
    have hpos := hwords p (List.mem_of_find?_eq_some h)
    have hprefix : p.1 <+: s := List.isPrefixOf_iff_prefix.1
      (List.find?_some (p := fun p : List Char × JsonValue => p.1.isPrefixOf s) h)
    have hlen := hprefix.length_le
    rw [List.length_drop]
    omega

/-- Every value is read by a good reader. -/
def Reader (depth : Nat) (scan : List Char → Except LoadsError (JsonValue × List Char)) : Prop :=
  ∀ s, Good depth s (scan s)

theorem good_scanItems (hscan : Reader depth scan) (hfuel : s.length < fuel) :
    Good depth s (scanItems scan fuel s) := by
  induction fuel generalizing s with
  | zero => exact absurd hfuel (Nat.not_lt_zero _)
  | succ fuel ih =>
    rw [scanItems]
    apply (hscan s).bind
    intro v r hr
    have hskip := length_skipSpace (s := r)
    show Good depth s (if (skipSpace r).head? = some ']' then _ else _)
    split_ifs
    · apply Good.ok
      rw [List.length_tail]
      omega
    · apply Good.expect_bind (skipSpace r)
      intro r' hr'
      have hskip' := length_skipSpace (s := r')
      have hrest : Good depth s (scanItems scan fuel (skipSpace r')) :=
        (ih (s := skipSpace r') (by omega)).mono (by omega)
      exact hrest.bind fun vs rest hlen => Good.ok hlen

theorem good_scanField (hscan : Reader depth scan) : Good depth s (scanField scan s) := by
  unfold scanField
  apply Good.expect_bind s
  intro r hr
  apply ((good_scanString (s := r)).mono (Nat.le_of_lt hr)).bind
  intro name r' hr'
  have hskip' := length_skipSpace (s := r')
  apply Good.expect_bind (skipSpace r')
  intro r₂ hr₂
  have hskip₂ := length_skipSpace (s := r₂)
  apply ((hscan (skipSpace r₂)).mono (by omega)).bind
  intro v r₃ hr₃
  exact Good.ok hr₃

theorem good_scanFields (hscan : Reader depth scan) (hfuel : s.length < fuel) :
    Good depth s (scanFields scan fuel s) := by
  induction fuel generalizing s with
  | zero => exact absurd hfuel (Nat.not_lt_zero _)
  | succ fuel ih =>
    rw [scanFields]
    apply (good_scanField hscan).bind
    intro f r hr
    have hskip := length_skipSpace (s := r)
    show Good depth s (if (skipSpace r).head? = some '\x7d' then _ else _)
    split_ifs
    · apply Good.ok
      rw [List.length_tail]
      omega
    · apply Good.expect_bind (skipSpace r)
      intro r' hr'
      have hskip' := length_skipSpace (s := r')
      have hrest : Good depth s (scanFields scan fuel (skipSpace r')) :=
        (ih (s := skipSpace r') (by omega)).mono (by omega)
      exact hrest.bind fun fs rest hlen => Good.ok hlen

theorem good_scanArray (hscan : Reader depth scan) : Good depth s (scanArray scan s) := by
  have hskip := length_skipSpace (s := s)
  unfold scanArray
  dsimp only
  split_ifs with hclosed
  · apply Good.ok
    cases h : skipSpace s with
    | nil =>
      rw [h] at hclosed
      cases hclosed
    | cons c r =>
      rw [h, List.length_cons] at hskip
      exact hskip
  · have hitems := (good_scanItems hscan (Nat.lt_succ_self (skipSpace s).length)).mono hskip
    exact hitems.bind fun vs rest hlen => Good.ok hlen

theorem good_scanObject (hscan : Reader depth scan) : Good depth s (scanObject scan s) := by
  have hskip := length_skipSpace (s := s)
  unfold scanObject
  dsimp only
  split_ifs with hclosed
  · apply Good.ok
    cases h : skipSpace s with
    | nil =>
      rw [h] at hclosed
      cases hclosed
    | cons c r =>
      rw [h, List.length_cons] at hskip
      exact hskip
  · have hfields := (good_scanFields hscan (Nat.lt_succ_self (skipSpace s).length)).mono hskip
    exact hfields.bind fun fs rest hlen => Good.ok hlen

/-- A container is nested one deeper than what it holds. -/
theorem Good.cons {α : Type} {c : Char} {x : Except LoadsError (α × List Char)}
    (h : Good depth s x) : Good (depth + 1) (c :: s) x where
  consumes v r heq := Nat.lt_succ_of_lt (h.consumes v r heq)
  ends := h.ends
  shallow heq := Nat.succ_lt_succ (h.shallow heq)

theorem Good.tooDeep {α : Type} {c : Char} :
    Good 0 (c :: s) (.error .recursion : Except LoadsError (α × List Char)) where
  consumes _ _ heq := by cases heq
  ends := by simp
  shallow _ := Nat.succ_pos _

theorem good_scanOnce (depth : Nat) : Reader depth (scanOnce depth) := by
  induction depth with
  | zero =>
    intro s
    cases s with
    | nil => exact Good.decode
    | cons c cs =>
      rw [scanOnce]
      split_ifs
      · exact ((good_scanString (s := cs)).mono (Nat.le_succ _)).bind fun u r hlen => Good.ok hlen
      · exact Good.tooDeep
      · exact good_scanScalar
  | succ depth ih =>
    intro s
    cases s with
    | nil => exact Good.decode
    | cons c cs =>
      rw [scanOnce]
      split_ifs
      · exact ((good_scanString (s := cs)).mono (Nat.le_succ _)).bind fun u r hlen => Good.ok hlen
      · exact (good_scanObject ih).cons
      · exact (good_scanArray ih).cons
      · exact good_scanScalar

theorem loads_error {e : LoadsError} (h : loads depth s = .error e) :
    e ≠ .exhausted ∧ (e = .recursion → depth < s.length) := by
  unfold loads at h
  split_ifs at h
  · cases h
    exact ⟨by decide, fun h => by cases h⟩
  · have hgood := good_scanOnce depth (skipSpace s)
    cases hscan : scanOnce depth (skipSpace s) with
    | ok vr =>
      rw [hscan] at h
      have hrest : (if skipSpace vr.2 = [] then Except.ok vr.1 else .error .decode) = .error e := h
      split_ifs at hrest
      cases hrest
      exact ⟨by decide, fun h => by cases h⟩
    | error e' =>
      rw [hscan] at h
      have hsame : (.error e' : Except LoadsError JsonValue) = .error e := h
      cases hsame
      constructor
      · rintro rfl
        exact hgood.ends hscan
      · rintro rfl
        exact Nat.lt_of_lt_of_le (hgood.shallow hscan) length_skipSpace

/-- **The reader always comes to an end.** -/
theorem loads_ne_exhausted : loads depth s ≠ .error .exhausted := fun h => (loads_error h).1 rfl

/-- A text no longer than the depth is not nested too deep. -/
theorem loads_ne_recursion (hlen : s.length ≤ depth) : loads depth s ≠ .error .recursion :=
  fun h => Nat.not_lt.2 hlen ((loads_error h).2 rfl)

end Readers

end GoAgent.Foundation
