import GoAgent.Foundation.JsonParsing

/-!
# JSON text is read back

Every value that is written is read back by `loads`, in every style whose separators are a comma and
a colon with white space after them. A character outside the first plane that is escaped is written
as a surrogate pair, and joined again. `JsonValue.write` writes what `json.loads` reads, floats and
halves of surrogate pairs included; on a `Json` it is `dumps`.

* `scanString_dumpString`, `scanScalar_dumpInt`, `scanOnce_write` — strings, integers and values,
  whatever follows them.
* `loads_write`, `loads_dumps` — `json.loads` undoes `json.dumps`.
-/

namespace GoAgent.Foundation

/-! ## What a character is written as -/

/-- The code points that are escaped with one letter. -/
def shortEscapes : List (Nat × Char) :=
  [(34, '"'), (92, '\\'), (10, 'n'), (13, 'r'), (9, 't'), (8, 'b'), (12, 'f')]

/-- The four forms of a character in a string. -/
inductive Written (ensureAscii : Bool) (c : Char) : List Char → Prop
  | short {e : Char} (h : (c.toNat, e) ∈ shortEscapes) : Written ensureAscii c ['\\', e]
  | code (hshort : ∀ p ∈ shortEscapes, p.1 ≠ c.toNat) (hplane : c.toNat < 0x10000)
      (h : c.toNat < 32 ∨ ensureAscii = true ∧ 126 < c.toNat) :
      Written ensureAscii c (unicodeEscape c.toNat)
  | pair (hascii : ensureAscii = true) (h : 0x10000 ≤ c.toNat) :
      Written ensureAscii c (unicodeEscape (0xD800 + (c.toNat - 0x10000) / 1024) ++
        unicodeEscape (0xDC00 + (c.toNat - 0x10000) % 1024))
  | plain (hquote : c ≠ '"') (hback : c ≠ '\\') (h : 32 ≤ c.toNat)
      (hascii : ensureAscii = true → c.toNat ≤ 126) : Written ensureAscii c [c]

theorem written_escapeChar (ensureAscii : Bool) (c : Char) :
    Written ensureAscii c (escapeChar ensureAscii c) := by
  rw [escapeChar]
  by_cases hquote : c = '"'
  · rw [if_pos hquote]
    subst hquote
    exact .short (by decide)
  rw [if_neg hquote]
  by_cases hback : c = '\\'
  · rw [if_pos hback]
    subst hback
    exact .short (by decide)
  rw [if_neg hback]
  by_cases hline : c = '\n'
  · rw [if_pos hline]
    subst hline
    exact .short (by decide)
  rw [if_neg hline]
  by_cases hreturn : c = '\r'
  · rw [if_pos hreturn]
    subst hreturn
    exact .short (by decide)
  rw [if_neg hreturn]
  by_cases htab : c = '\t'
  · rw [if_pos htab]
    subst htab
    exact .short (by decide)
  rw [if_neg htab]
  by_cases hbackspace : c.toNat = 8
  · rw [if_pos hbackspace]
    exact .short (by rw [hbackspace]; decide)
  rw [if_neg hbackspace]
  by_cases hfeed : c.toNat = 12
  · rw [if_pos hfeed]
    exact .short (by rw [hfeed]; decide)
  rw [if_neg hfeed]
  have hshort : ∀ p ∈ shortEscapes, p.1 ≠ c.toNat := by
    have hne (d : Char) (h : c ≠ d) : d.toNat ≠ c.toNat := fun hd => h (Char.toNat_inj.1 hd).symm
    intro p hp
    simp only [shortEscapes, List.mem_cons, List.not_mem_nil, or_false] at hp
    rcases hp with rfl | rfl | rfl | rfl | rfl | rfl | rfl
    · exact hne '"' hquote
    · exact hne '\\' hback
    · exact hne '\n' hline
    · exact hne '\r' hreturn
    · exact hne '\t' htab
    · exact Ne.symm hbackspace
    · exact Ne.symm hfeed
  by_cases hcontrol : c.toNat < 32
  · rw [if_pos hcontrol]
    exact .code hshort (by omega) (.inl hcontrol)
  rw [if_neg hcontrol]
  by_cases hwide : (ensureAscii && decide (126 < c.toNat)) = true
  · rw [if_pos hwide]
    rw [Bool.and_eq_true, decide_eq_true_eq] at hwide
    by_cases hplane : c.toNat < 0x10000
    · rw [if_pos hplane]
      exact .code hshort hplane (.inr hwide)
    · rw [if_neg hplane]
      exact .pair hwide.1 (Nat.not_lt.1 hplane)
  · rw [if_neg hwide]
    refine .plain hquote hback (Nat.not_lt.1 hcontrol) fun hascii => ?_
    by_contra hlt
    apply hwide
    rw [hascii, Bool.true_and, decide_eq_true_eq]
    exact Nat.not_le.1 hlt

/-! ## Strings are read back -/

section Strings

variable {rest tail : List Char}

/-- The code units that a character is written as. -/
def charUnits (ensureAscii : Bool) (c : Char) : List Nat :=
  if ensureAscii && decide (0x10000 ≤ c.toNat) then
    [0xD800 + (c.toNat - 0x10000) / 1024, 0xDC00 + (c.toNat - 0x10000) % 1024]
  else [c.toNat]

theorem hexValue_hexDigit {d : Nat} (hd : d < 16) : hexValue (hexDigit d) = some d := by
  have hall : ∀ d < 16, hexValue (hexDigit d) = some d := by decide
  exact hall d hd

theorem scanUnits_hex {left read d : Nat} (hd : d < 16) :
    scanUnits (.hex (left + 1) read) (hexDigit d :: tail) =
      scanUnits (.hex left (read * 16 + d)) tail := by
  rw [scanUnits, hexValue_hexDigit hd]

theorem scanUnits_unicodeEscape {n : Nat} (hn : n < 0x10000) :
    scanUnits .plain (unicodeEscape n ++ tail) =
      (scanUnits .plain tail).map fun r => (n :: r.1, r.2) := by
  have hescape : scanUnits .plain (unicodeEscape n ++ tail) = scanUnits (.hex 3 0)
      (hexDigit (n / 4096 % 16) :: hexDigit (n / 256 % 16) :: hexDigit (n / 16 % 16) ::
        hexDigit (n % 16) :: tail) := rfl
  have hlast {read : Nat} : scanUnits (.hex 0 read) (hexDigit (n % 16) :: tail) =
      (scanUnits .plain tail).map fun r => ((read * 16 + n % 16) :: r.1, r.2) := by
    rw [scanUnits, hexValue_hexDigit (Nat.mod_lt _ (by decide))]
  rw [hescape, scanUnits_hex (Nat.mod_lt _ (by decide)), scanUnits_hex (Nat.mod_lt _ (by decide)),
    scanUnits_hex (Nat.mod_lt _ (by decide)), hlast]
  have hdigits : (((0 * 16 + n / 4096 % 16) * 16 + n / 256 % 16) * 16 + n / 16 % 16) * 16 + n % 16 =
      n := by omega
  rw [hdigits]

theorem scanUnits_simple {e : Char} {n : Nat} (he : e ≠ 'u') (hn : simpleEscape e = some n) :
    scanUnits .plain ('\\' :: e :: tail) =
      (scanUnits .plain tail).map fun r => (n :: r.1, r.2) := by
  have hescape : scanUnits .plain ('\\' :: e :: tail) = scanUnits .escaped (e :: tail) := rfl
  rw [hescape, scanUnits, if_neg he, hn]

/-- A character is read back from what it was written as. -/
theorem scanUnits_escapeChar {ensureAscii : Bool} {c : Char} :
    scanUnits .plain (escapeChar ensureAscii c ++ tail) =
      (scanUnits .plain tail).map fun r => (charUnits ensureAscii c ++ r.1, r.2) := by
  have hunits (h : c.toNat < 0x10000) : charUnits ensureAscii c = [c.toNat] := by
    rw [charUnits, decide_eq_false (Nat.not_le.2 h), Bool.and_false, if_neg Bool.false_ne_true]
  have hmax : c.toNat < 0x110000 := by
    rcases c.valid with h | h
    · exact Nat.lt_trans h (by decide)
    · exact h.2
  have hwritten := written_escapeChar ensureAscii c
  generalize escapeChar ensureAscii c = text at hwritten
  cases hwritten with
  | short h =>
    rename_i e
    have hread : e ≠ 'u' ∧ simpleEscape e = some c.toNat ∧ c.toNat < 0x10000 := by
      have hall : ∀ p ∈ shortEscapes, p.2 ≠ 'u' ∧ simpleEscape p.2 = some p.1 ∧ p.1 < 0x10000 := by
        decide
      exact hall _ h
    rw [hunits hread.2.2]
    exact scanUnits_simple hread.1 hread.2.1
  | code _ hplane _ =>
    rw [hunits hplane]
    exact scanUnits_unicodeEscape hplane
  | pair hascii h =>
    have hpair : charUnits ensureAscii c =
        [0xD800 + (c.toNat - 0x10000) / 1024, 0xDC00 + (c.toNat - 0x10000) % 1024] := by
      rw [charUnits, hascii, decide_eq_true h, Bool.and_self, if_pos rfl]
    rw [hpair, List.append_assoc, scanUnits_unicodeEscape (by omega),
      scanUnits_unicodeEscape (by omega), Option.map_map]
    rfl
  | plain hquote hback h hascii =>
    have hplain : scanUnits .plain (c :: tail) =
        (scanUnits .plain tail).map fun r => (c.toNat :: r.1, r.2) := by
      rw [scanUnits, if_neg hquote, if_neg hback, if_neg (Nat.not_lt.2 h)]
    have hsame : charUnits ensureAscii c = [c.toNat] := by
      rw [charUnits, if_neg]
      intro hwide
      rw [Bool.and_eq_true, decide_eq_true_eq] at hwide
      have := hascii hwide.1
      omega
    rw [hsame]
    exact hplain

theorem joinSurrogates_cons {n : Nat} {l : List Nat} (hn : ¬(0xD800 ≤ n ∧ n < 0xDC00)) :
    joinSurrogates (n :: l) = n :: joinSurrogates l := by
  cases l with
  | nil => rfl
  | cons m l =>
    rw [joinSurrogates, if_neg]
    rintro ⟨hlo, hhi, -⟩
    exact hn ⟨hlo, hhi⟩

theorem joinSurrogates_units {ensureAscii : Bool} {c : Char} {l : List Nat} :
    joinSurrogates (charUnits ensureAscii c ++ l) = c.toNat :: joinSurrogates l := by
  have hvalid := c.valid
  have hmax : c.toNat < 0xD800 ∨ 0xDFFF < c.toNat ∧ c.toNat < 0x110000 := hvalid
  unfold charUnits
  split_ifs with hpair
  · rw [Bool.and_eq_true, decide_eq_true_eq] at hpair
    have hjoin : 0x10000 + (0xD800 + (c.toNat - 0x10000) / 1024 - 0xD800) * 1024 +
        (0xDC00 + (c.toNat - 0x10000) % 1024 - 0xDC00) = c.toNat := by omega
    rw [List.cons_append, List.cons_append, List.nil_append, joinSurrogates, if_pos (by omega),
      hjoin]
  · exact joinSurrogates_cons (by omega)

theorem scanUnits_dumped {ensureAscii : Bool} (l : List Char) :
    scanUnits .plain (l.flatMap (escapeChar ensureAscii) ++ '"' :: rest) =
      some (l.flatMap (charUnits ensureAscii), rest) := by
  induction l with
  | nil => rfl
  | cons c l ih => rw [List.flatMap_cons, List.append_assoc, scanUnits_escapeChar, ih]; rfl

theorem joinSurrogates_dumped {ensureAscii : Bool} (l : List Char) :
    joinSurrogates (l.flatMap (charUnits ensureAscii)) = l.map Char.toNat := by
  induction l with
  | nil => rfl
  | cons c l ih => rw [List.flatMap_cons, joinSurrogates_units, ih, List.map_cons]

/-- The code points of a text. -/
def codePoints (s : String) : List Nat := s.toList.map Char.toNat

theorem scanString_dumpString {ensureAscii : Bool} {s : String} :
    scanString (s.toList.flatMap (escapeChar ensureAscii) ++ '"' :: rest) =
      .ok (codePoints s, rest) := by
  rw [scanString, scanUnits_dumped]
  simp only [joinSurrogates_dumped, codePoints]

/-- A character that is written as it is. -/
def isPlain (c : Char) : Bool :=
  32 ≤ c.toNat && c.toNat ≤ 126 && c.toNat != 34 && c.toNat != 92

theorem escapeChar_plain {ensureAscii : Bool} {c : Char} (hc : isPlain c = true) :
    escapeChar ensureAscii c = [c] := by
  simp only [isPlain, Bool.and_eq_true, decide_eq_true_eq, bne_iff_ne] at hc
  have hne (d : Char) (hd : d.toNat < 32 ∨ d.toNat = 34 ∨ d.toNat = 92) : c ≠ d := by
    rintro rfl
    omega
  rw [escapeChar, if_neg (hne '"' (by decide)), if_neg (hne '\\' (by decide)),
    if_neg (hne '\n' (by decide)), if_neg (hne '\r' (by decide)), if_neg (hne '\t' (by decide)),
    if_neg (by omega), if_neg (by omega), if_neg (by omega), if_neg]
  simp only [Bool.and_eq_true, decide_eq_true_eq]
  omega

theorem dumpString_plain {ensureAscii : Bool} {s : List Char} (hs : ∀ c ∈ s, isPlain c = true) :
    dumpString ensureAscii (String.ofList s) = '"' :: s ++ ['"'] := by
  have hflat : s.flatMap (escapeChar ensureAscii) = s := by
    induction s with
    | nil => rfl
    | cons c s ih =>
      rw [List.flatMap_cons, escapeChar_plain (hs c List.mem_cons_self),
        ih fun d hd => hs d (List.mem_cons_of_mem c hd), List.singleton_append]
  rw [dumpString, String.toList_ofList, hflat]

end Strings

/-! ## Integers are read back -/

/-- What may follow a number without being read as a part of it. -/
def Closes (rest : List Char) : Prop :=
  ∀ c, rest.head? = some c → isDigit c = false ∧ c ≠ '.' ∧ c ≠ 'e' ∧ c ≠ 'E'

section Numbers

variable {rest : List Char} {n : Nat}

theorem isDigit_of_mem_toDigits {c : Char} (hc : c ∈ Nat.toDigits 10 n) : isDigit c = true := by
  have hdigit := Nat.isDigit_of_mem_toDigits (by decide) (by decide) hc
  simp only [Char.isDigit, Bool.and_eq_true, decide_eq_true_eq, UInt32.le_iff_toNat_le,
    ge_iff_le] at hdigit
  simp only [isDigit, Bool.and_eq_true, decide_eq_true_eq]
  exact hdigit

/-- No zeros lead. -/
theorem head_toDigits (hn : 0 < n) : (Nat.toDigits 10 n).head? ≠ some '0' := by
  induction n using Nat.strongRecOn with
  | ind n ih =>
    by_cases hlt : n < 10
    · rw [Nat.toDigits_of_lt_base hlt]
      have hall : ∀ d < 10, 0 < d → [Nat.digitChar d].head? ≠ some '0' := by decide
      exact hall n hlt hn
    · rw [Nat.toDigits_of_base_le (by decide) (Nat.not_lt.1 hlt),
        List.head?_append_of_ne_nil _ Nat.toDigits_ne_nil]
      exact ih (n / 10) (by omega) (by omega)

theorem takeWhile_closes {l : List Char} (hl : ∀ c ∈ l, isDigit c = true) (hrest : Closes rest) :
    (l ++ rest).takeWhile isDigit = l := by
  rw [List.takeWhile_append_of_pos hl]
  cases rest with
  | nil => simp
  | cons c rest => simp [(hrest c rfl).1]

theorem fraction_closes (hrest : Closes rest) : fraction rest = [] := by
  cases rest with
  | nil => rfl
  | cons c rest =>
    unfold fraction
    split
    · next heq =>
      cases heq
      exact absurd rfl (hrest '.' rfl).2.1
    · rfl

theorem exponent_closes (hrest : Closes rest) : exponent rest = [] := by
  cases rest with
  | nil => rfl
  | cons c rest =>
    have hc := (hrest c rfl).2.2
    rw [exponent, if_neg (not_or.2 hc)]

theorem digits_scanned (hrest : Closes rest) :
    (if (Nat.toDigits 10 n ++ rest).head? = some '0' then ['0']
      else (Nat.toDigits 10 n ++ rest).takeWhile isDigit) = Nat.toDigits 10 n := by
  rw [List.head?_append_of_ne_nil _ Nat.toDigits_ne_nil]
  by_cases hn : 0 < n
  · rw [if_neg (head_toDigits hn)]
    exact takeWhile_closes (fun c hc => isDigit_of_mem_toDigits hc) hrest
  · obtain rfl : n = 0 := Nat.eq_zero_of_not_pos hn
    rfl

theorem head_dumped_ne_minus : (Nat.toDigits 10 n ++ rest).head? ≠ some '-' := by
  rw [List.head?_append_of_ne_nil _ Nat.toDigits_ne_nil]
  intro h
  exact absurd (isDigit_of_mem_toDigits (List.mem_of_mem_head? h)) (by decide)

theorem scanNumber_natural (hlen : (Nat.toDigits 10 n).length ≤ maxIntDigits)
    (hrest : Closes rest) :
    scanNumber (Nat.toDigits 10 n ++ rest) = .ok (.int n, rest) := by
  unfold scanNumber
  simp only [if_neg head_dumped_ne_minus, List.length_nil, List.drop_zero, digits_scanned hrest,
    List.drop_left, fraction_closes hrest, exponent_closes hrest, List.isEmpty_nil, and_self,
    if_true, if_neg (Nat.not_lt.2 hlen), Nat.ofDigitChars_ten_toDigits]
  simp

theorem scanNumber_negative (hlen : (Nat.toDigits 10 n).length ≤ maxIntDigits)
    (hrest : Closes rest) :
    scanNumber ('-' :: Nat.toDigits 10 n ++ rest) = .ok (.int (-n), rest) := by
  unfold scanNumber
  simp only [List.cons_append, List.head?_cons, if_true, List.length_singleton, List.length_nil,
    List.drop_succ_cons, List.drop_zero, digits_scanned hrest, List.drop_left, fraction_closes hrest,
    exponent_closes hrest, List.isEmpty_nil, and_self, if_neg (Nat.not_lt.2 hlen),
    Nat.ofDigitChars_ten_toDigits]
  simp

/-- A number is none of the words. -/
theorem scanScalar_number {c : Char} {cs : List Char}
    (hc : isDigit c = true ∨ c = '-' ∧ ∃ d, cs.head? = some d ∧ isDigit d = true) :
    scanScalar (c :: cs) = scanNumber (c :: cs) := by
  have hnone : (jsonConstants.find? fun p => p.1.isPrefixOf (c :: cs)) = none := by
    have hne (d : Char) (hd : isDigit d = true) : d ≠ 'n' ∧ d ≠ 't' ∧ d ≠ 'f' ∧ d ≠ 'N' ∧ d ≠ 'I' ∧
        d ≠ '-' := by
      refine ⟨?_, ?_, ?_, ?_, ?_, ?_⟩
      all_goals
        rintro rfl
        exact absurd hd (by decide)
    rcases hc with hc | ⟨rfl, d, hd, hdigit⟩
    · have hc' := hne c hc
      simp [jsonConstants, List.isPrefixOf, Ne.symm hc'.1, Ne.symm hc'.2.1, Ne.symm hc'.2.2.1,
        Ne.symm hc'.2.2.2.1, Ne.symm hc'.2.2.2.2.1, Ne.symm hc'.2.2.2.2.2]
    · have hd' := (hne d hdigit).2.2.2.2.1
      cases cs with
      | nil => cases hd
      | cons d' cs =>
        cases hd
        simp [jsonConstants, List.isPrefixOf, Ne.symm hd']
  rw [scanScalar, hnone]

theorem scanScalar_dumpInt {i : Int} (hlen : (Nat.toDigits 10 i.natAbs).length ≤ maxIntDigits)
    (hrest : Closes rest) : scanScalar (dumpInt i ++ rest) = .ok (.int i, rest) := by
  have hcons (n : Nat) : ∃ c cs, Nat.toDigits 10 n = c :: cs ∧ isDigit c = true := by
    cases h : Nat.toDigits 10 n with
    | nil => exact absurd h Nat.toDigits_ne_nil
    | cons c cs => exact ⟨c, cs, rfl, isDigit_of_mem_toDigits (h ▸ List.mem_cons_self)⟩
  cases i with
  | ofNat n =>
    rcases hcons n with ⟨c, cs, heq, hc⟩
    have hscan := scanNumber_natural hlen hrest
    simp only [Int.natAbs_ofNat', heq, List.cons_append] at hscan
    rw [dumpInt, heq, List.cons_append, scanScalar_number (Or.inl hc)]
    exact hscan
  | negSucc n =>
    rcases hcons (n + 1) with ⟨c, cs, heq, hc⟩
    have hscan := scanNumber_negative hlen hrest
    simp only [Int.natAbs_negSucc, Nat.succ_eq_add_one, heq, List.cons_append] at hscan
    rw [dumpInt, heq, List.cons_append, List.cons_append,
      scanScalar_number (Or.inr ⟨rfl, c, rfl, hc⟩)]
    exact hscan

end Numbers

/-! ## Values are read back -/

mutual

/-- The value that `dumps` writes. -/
def Json.value : Json → JsonValue
  | .null => .null
  | .bool b => .bool b
  | .int n => .int n
  | .str s => .str (codePoints s)
  | .arr items => .arr (itemValues items)
  | .obj fields => .obj (fieldValues fields)
termination_by structural j => j

def itemValues : List Json → List JsonValue
  | [] => []
  | v :: vs => v.value :: itemValues vs
termination_by structural items => items

def fieldValues : List (String × Json) → List (List Nat × JsonValue)
  | [] => []
  | f :: fs => fieldValue f :: fieldValues fs
termination_by structural fields => fields

def fieldValue : String × Json → List Nat × JsonValue
  | (name, v) => (codePoints name, v.value)
termination_by structural field => field

end

/-! ## The writer -/

/-- A code point in a string; half of a surrogate pair is always escaped. -/
def writeUnit (ensureAscii : Bool) (n : Nat) : List Char :=
  if 0xD800 ≤ n ∧ n < 0xE000 then unicodeEscape n else escapeChar ensureAscii (Char.ofNat n)

def writeString (ensureAscii : Bool) (s : List Nat) : List Char :=
  '"' :: (s.flatMap (writeUnit ensureAscii) ++ ['"'])

mutual

/-- `json.dumps` of what `json.loads` has read. -/
def JsonValue.write (k : JsonStyle) : JsonValue → List Char
  | .null => "null".toList
  | .bool true => "true".toList
  | .bool false => "false".toList
  | .int n => dumpInt n
  | .float text => text
  | .str s => writeString k.ensureAscii s
  | .arr items => '[' :: (writeItems k items ++ [']'])
  | .obj fields => '\x7b' :: (writeFields k fields ++ ['\x7d'])
termination_by structural v => v

def writeItems (k : JsonStyle) : List JsonValue → List Char
  | [] => []
  | [v] => v.write k
  | v :: v' :: vs => v.write k ++ k.item ++ writeItems k (v' :: vs)
termination_by structural items => items

def writeFields (k : JsonStyle) : List (List Nat × JsonValue) → List Char
  | [] => []
  | [f] => writeField k f
  | f :: f' :: fs => writeField k f ++ k.item ++ writeFields k (f' :: fs)
termination_by structural fields => fields

def writeField (k : JsonStyle) : List Nat × JsonValue → List Char
  | (name, v) => writeString k.ensureAscii name ++ k.key ++ v.write k
termination_by structural field => field

end

/-! ### The characters that are written -/

theorem mem_writeItems {k : JsonStyle} {c : Char} {items : List JsonValue}
    (hc : c ∈ writeItems k items) : c ∈ k.item ∨ ∃ v ∈ items, c ∈ v.write k := by
  induction items with
  | nil => cases hc
  | cons v items ih =>
    cases items with
    | nil => exact Or.inr ⟨v, List.mem_cons_self, hc⟩
    | cons v' items =>
      rw [writeItems, List.mem_append, List.mem_append] at hc
      rcases hc with (hc | hc) | hc
      · exact Or.inr ⟨v, List.mem_cons_self, hc⟩
      · exact Or.inl hc
      · rcases ih hc with hitem | ⟨w, hw, hc⟩
        · exact Or.inl hitem
        · exact Or.inr ⟨w, List.mem_cons_of_mem v hw, hc⟩

theorem mem_writeField {k : JsonStyle} {c : Char} {f : List Nat × JsonValue}
    (hc : c ∈ writeField k f) :
    c ∈ writeString k.ensureAscii f.1 ∨ c ∈ k.key ∨ c ∈ f.2.write k := by
  cases f with
  | mk name v =>
    rw [writeField, List.mem_append, List.mem_append, or_assoc] at hc
    exact hc

theorem mem_writeFields {k : JsonStyle} {c : Char} {fields : List (List Nat × JsonValue)}
    (hc : c ∈ writeFields k fields) : c ∈ k.item ∨ ∃ f ∈ fields, c ∈ writeField k f := by
  induction fields with
  | nil => cases hc
  | cons f fields ih =>
    cases fields with
    | nil => exact Or.inr ⟨f, List.mem_cons_self, hc⟩
    | cons f' fields =>
      rw [writeFields, List.mem_append, List.mem_append] at hc
      rcases hc with (hc | hc) | hc
      · exact Or.inr ⟨f, List.mem_cons_self, hc⟩
      · exact Or.inl hc
      · rcases ih hc with hitem | ⟨g, hg, hc⟩
        · exact Or.inl hitem
        · exact Or.inr ⟨g, List.mem_cons_of_mem f hg, hc⟩

/-! ### The writer is `json.dumps` -/

theorem writeString_codePoints (ensureAscii : Bool) (s : String) :
    writeString ensureAscii (codePoints s) = dumpString ensureAscii s := by
  have hunit (c : Char) : writeUnit ensureAscii c.toNat = escapeChar ensureAscii c := by
    have hvalid := c.valid
    have hmax : c.toNat < 0xD800 ∨ 0xDFFF < c.toNat ∧ c.toNat < 0x110000 := hvalid
    rw [writeUnit, if_neg (by omega), Char.ofNat_toNat]
  have hall (l : List Char) : (l.map Char.toNat).flatMap (writeUnit ensureAscii) =
      l.flatMap (escapeChar ensureAscii) := by
    induction l with
    | nil => rfl
    | cons c l ih => rw [List.map_cons, List.flatMap_cons, List.flatMap_cons, ih, hunit]
  rw [writeString, dumpString, codePoints, hall]
  rfl

mutual

theorem write_value (k : JsonStyle) (v : Json) : v.value.write k = v.dumps k := by
  cases v with
  | null => rfl
  | bool b => cases b <;> rfl
  | int n => rfl
  | str s => exact writeString_codePoints k.ensureAscii s
  | arr items =>
    rw [Json.value, JsonValue.write, Json.dumps, writeItems_values k items]
    rfl
  | obj fields =>
    rw [Json.value, JsonValue.write, Json.dumps, writeFields_values k fields]
    rfl
termination_by structural v

theorem writeItems_values (k : JsonStyle) (items : List Json) :
    writeItems k (itemValues items) = dumpItems k items := by
  cases items with
  | nil => rfl
  | cons v items =>
    have hv := write_value k v
    have hrest := writeItems_values k items
    cases items with
    | nil => exact hv
    | cons v' items =>
      rw [itemValues] at hrest ⊢
      rw [itemValues, writeItems, dumpItems, hv, hrest]
termination_by structural items

theorem writeFields_values (k : JsonStyle) (fields : List (String × Json)) :
    writeFields k (fieldValues fields) = dumpFields k fields := by
  cases fields with
  | nil => rfl
  | cons f fields =>
    have hf := writeField_value k f
    have hrest := writeFields_values k fields
    cases fields with
    | nil => exact hf
    | cons f' fields =>
      rw [fieldValues] at hrest ⊢
      rw [fieldValues, writeFields, dumpFields, hf, hrest]
termination_by structural fields

theorem writeField_value (k : JsonStyle) (f : String × Json) :
    writeField k (fieldValue f) = dumpField k f := by
  cases f with
  | mk name v =>
    rw [fieldValue, writeField, dumpField, writeString_codePoints, write_value k v]
termination_by structural f

end

/-! ## What is written is read back -/

/-- The reader takes the value: it is nested `depth` deep at most, and no integer is too long. -/
inductive Json.Readable : Nat → Json → Prop
  | null {depth : Nat} : Readable depth .null
  | bool {depth : Nat} (b : Bool) : Readable depth (.bool b)
  | int {depth : Nat} {n : Int} (h : (Nat.toDigits 10 n.natAbs).length ≤ maxIntDigits) :
      Readable depth (.int n)
  | str {depth : Nat} (s : String) : Readable depth (.str s)
  | arr {depth : Nat} {items : List Json} (h : ∀ v ∈ items, Readable depth v) :
      Readable (depth + 1) (.arr items)
  | obj {depth : Nat} {fields : List (String × Json)} (h : ∀ f ∈ fields, Readable depth f.2) :
      Readable (depth + 1) (.obj fields)

/-- A number with a fraction or an exponent, as `json.dumps` writes it. -/
structure FloatText (text : List Char) : Prop where
  opens : ∃ c cs, text = c :: cs ∧ (isDigit c = true ∨ c = '-')
  reads : ∀ rest, Closes rest → scanScalar (text ++ rest) = .ok (.float text, rest)

/-- The reader takes what is written: it is nested `depth` deep at most, no integer is too long, and
every string is a text. -/
inductive JsonValue.Readable : Nat → JsonValue → Prop
  | null {depth : Nat} : Readable depth .null
  | bool {depth : Nat} (b : Bool) : Readable depth (.bool b)
  | int {depth : Nat} {n : Int} (h : (Nat.toDigits 10 n.natAbs).length ≤ maxIntDigits) :
      Readable depth (.int n)
  | float {depth : Nat} {text : List Char} (h : FloatText text) : Readable depth (.float text)
  | str {depth : Nat} (s : String) : Readable depth (.str (codePoints s))
  | arr {depth : Nat} {items : List JsonValue} (h : ∀ v ∈ items, Readable depth v) :
      Readable (depth + 1) (.arr items)
  | obj {depth : Nat} {fields : List (List Nat × JsonValue)}
      (hnames : ∀ f ∈ fields, ∃ name, f.1 = codePoints name)
      (h : ∀ f ∈ fields, Readable depth f.2) : Readable (depth + 1) (.obj fields)

/-- The separators are a comma and a colon, and white space after them. -/
structure JsonStyle.Spaced (k : JsonStyle) : Prop where
  item : ∃ a, k.item = ',' :: a ∧ ∀ c ∈ a, isJsonSpace c = true
  key : ∃ b, k.key = ':' :: b ∧ ∀ c ∈ b, isJsonSpace c = true

section Containers

variable {k : JsonStyle} {rest : List Char} {depth fuel : Nat}
  {scan : List Char → Except LoadsError (JsonValue × List Char)}

theorem closes_of_head {c : Char} (hc : isDigit c = false ∧ c ≠ '.' ∧ c ≠ 'e' ∧ c ≠ 'E') :
    Closes (c :: rest) := by
  intro d hd
  cases hd
  exact hc

theorem skipSpace_append {a : List Char} (ha : ∀ c ∈ a, isJsonSpace c = true) :
    skipSpace (a ++ rest) = skipSpace rest := by
  unfold skipSpace
  exact List.dropWhile_append_of_pos ha

theorem skipSpace_cons {c : Char} (hc : isJsonSpace c = false) :
    skipSpace (c :: rest) = c :: rest := by
  unfold skipSpace
  rw [List.dropWhile_cons, hc, if_neg Bool.false_ne_true]

/-- A value starts with no white space, with no mark and with nothing that ends a list. -/
def Opens (text : List Char) : Prop :=
  ∃ c cs, text = c :: cs ∧ isJsonSpace c = false ∧ c ≠ ']' ∧ c ≠ '\ufeff'

theorem opens_number {c : Char} {cs : List Char} (hc : isDigit c = true ∨ c = '-') :
    Opens (c :: cs) := by
  have hne (d : Char) (hd : isDigit d = false) (hminus : d ≠ '-') : c ≠ d := by
    rintro rfl
    rcases hc with hc | hc
    · rw [hd] at hc
      cases hc
    · exact hminus hc
  refine ⟨c, cs, rfl, ?_, hne _ (by decide) (by decide), hne _ (by decide) (by decide)⟩
  simp only [isJsonSpace, Bool.or_eq_false_iff, beq_eq_false_iff_ne]
  exact ⟨⟨⟨hne _ (by decide) (by decide), hne _ (by decide) (by decide)⟩,
    hne _ (by decide) (by decide)⟩, hne _ (by decide) (by decide)⟩

theorem dumpInt_head (n : Int) : ∃ c cs, dumpInt n = c :: cs ∧ (isDigit c = true ∨ c = '-') := by
  cases n with
  | ofNat n =>
    cases h : Nat.toDigits 10 n with
    | nil => exact absurd h Nat.toDigits_ne_nil
    | cons c cs => exact ⟨c, cs, h, Or.inl (isDigit_of_mem_toDigits (h ▸ List.mem_cons_self))⟩
  | negSucc n => exact ⟨'-', _, rfl, Or.inr rfl⟩

theorem write_opens {v : JsonValue} (hv : v.Readable depth) : Opens (v.write k) := by
  cases hv with
  | null => exact ⟨'n', _, rfl, by decide⟩
  | bool b =>
    cases b
    · exact ⟨'f', _, rfl, by decide⟩
    · exact ⟨'t', _, rfl, by decide⟩
  | @int _ n =>
    rcases dumpInt_head n with ⟨c, cs, heq, hc⟩
    rw [JsonValue.write, heq]
    exact opens_number hc
  | float h =>
    rcases h.opens with ⟨c, cs, heq, hc⟩
    rw [JsonValue.write, heq]
    exact opens_number hc
  | str s => exact ⟨'"', _, rfl, by decide⟩
  | arr => exact ⟨'[', _, rfl, by decide⟩
  | obj => exact ⟨'\x7b', _, rfl, by decide⟩

/-- The reader reads back one value, whatever follows it. -/
structure ReadsBack (k : JsonStyle) (scan : List Char → Except LoadsError (JsonValue × List Char))
    (v : JsonValue) : Prop where
  opens : Opens (v.write k)
  reads : ∀ rest, Closes rest → scan (v.write k ++ rest) = .ok (v, rest)

theorem ReadsBack.skipSpace {v : JsonValue} (h : ReadsBack k scan v) :
    skipSpace (v.write k ++ rest) = v.write k ++ rest := by
  rcases h.opens with ⟨c, cs, heq, hc, -⟩
  rw [heq, List.cons_append, skipSpace_cons hc]

/-- After an item comes a comma and the next one. -/
theorem scanItems_write (hk : k.Spaced) (items : List JsonValue) (hitems : items ≠ [])
    (hscan : ∀ v ∈ items, ReadsBack k scan v) (hfuel : items.length ≤ fuel) :
    scanItems scan fuel (writeItems k items ++ ']' :: rest) = .ok (items, rest) := by
  induction fuel generalizing items with
  | zero => exact absurd (List.eq_nil_of_length_eq_zero (Nat.le_zero.1 hfuel)) hitems
  | succ fuel ih =>
    cases items with
    | nil => exact absurd rfl hitems
    | cons v vs =>
      have hv := hscan v List.mem_cons_self
      cases vs with
      | nil =>
        have hread := hv.reads (']' :: rest) (closes_of_head (by decide))
        rw [writeItems, scanItems, hread]
        rfl
      | cons v' vs =>
        rcases hk.item with ⟨a, ha, hspace⟩
        have hv' := hscan v' (List.mem_cons_of_mem _ List.mem_cons_self)
        have hrest := ih (v' :: vs) (List.cons_ne_nil _ _)
          (fun w hw => hscan w (List.mem_cons_of_mem _ hw)) (Nat.le_of_succ_le_succ hfuel)
        have hskip : skipSpace (a ++ (writeItems k (v' :: vs) ++ ']' :: rest)) =
            writeItems k (v' :: vs) ++ ']' :: rest := by
          rw [skipSpace_append hspace]
          cases vs with
          | nil => exact hv'.skipSpace
          | cons w ws =>
            rw [writeItems, List.append_assoc, List.append_assoc]
            exact hv'.skipSpace
        have hread := hv.reads (',' :: (a ++ (writeItems k (v' :: vs) ++ ']' :: rest)))
          (closes_of_head (by decide))
        rw [writeItems, ha, scanItems, List.append_assoc, List.append_assoc, List.cons_append,
          hread]
        show (scanItems scan fuel (skipSpace (a ++ (writeItems k (v' :: vs) ++ ']' :: rest))) >>=
          fun t => .ok (v :: t.1, t.2)) = _
        rw [hskip, hrest]
        rfl

theorem writeField_head (f : List Nat × JsonValue) : ∃ tail, writeField k f = '"' :: tail := by
  rcases f with ⟨name, v⟩
  exact ⟨_, rfl⟩

theorem skipSpace_writeField (f : List Nat × JsonValue) :
    skipSpace (writeField k f ++ rest) = writeField k f ++ rest := by
  rcases writeField_head (k := k) f with ⟨tail, heq⟩
  rw [heq]
  exact skipSpace_cons (by decide)

/-- The name is a text and the reader reads back the value. -/
def FieldReadsBack (k : JsonStyle) (scan : List Char → Except LoadsError (JsonValue × List Char))
    (f : List Nat × JsonValue) : Prop :=
  (∃ name, f.1 = codePoints name) ∧ ReadsBack k scan f.2

theorem scanField_write (hk : k.Spaced) (f : List Nat × JsonValue)
    (hscan : FieldReadsBack k scan f) (rest : List Char) (hrest : Closes rest) :
    scanField scan (writeField k f ++ rest) = .ok (f, rest) := by
  rcases f with ⟨points, v⟩
  rcases hscan with ⟨⟨name, rfl⟩, hv⟩
  rcases hk.key with ⟨b, hb, hspace⟩
  let tail := b ++ (v.write k ++ rest)
  have hwrite : writeField k (codePoints name, v) ++ rest =
      '"' :: (name.toList.flatMap (escapeChar k.ensureAscii) ++ '"' :: ':' :: tail) := by
    rw [writeField, writeString_codePoints, dumpString, hb]
    simp [tail]
  have hskip : skipSpace tail = v.write k ++ rest := by
    rw [skipSpace_append hspace]
    exact hv.skipSpace
  rw [hwrite]
  show (scanString (name.toList.flatMap (escapeChar k.ensureAscii) ++ '"' :: ':' :: tail) >>=
    fun t => expect ':' (skipSpace t.2) >>= fun r => scan (skipSpace r) >>=
      fun u => .ok ((t.1, u.1), u.2)) = _
  rw [scanString_dumpString]
  show (scan (skipSpace tail) >>= fun u => .ok ((codePoints name, u.1), u.2)) = _
  rw [hskip, hv.reads rest hrest]
  rfl

theorem scanFields_write (hk : k.Spaced) (fields : List (List Nat × JsonValue))
    (hfields : fields ≠ []) (hscan : ∀ f ∈ fields, FieldReadsBack k scan f)
    (hfuel : fields.length ≤ fuel) :
    scanFields scan fuel (writeFields k fields ++ '\x7d' :: rest) = .ok (fields, rest) := by
  induction fuel generalizing fields with
  | zero => exact absurd (List.eq_nil_of_length_eq_zero (Nat.le_zero.1 hfuel)) hfields
  | succ fuel ih =>
    cases fields with
    | nil => exact absurd rfl hfields
    | cons f fs =>
      have hf := hscan f List.mem_cons_self
      cases fs with
      | nil =>
        have hread := scanField_write hk f hf ('\x7d' :: rest) (closes_of_head (by decide))
        rw [writeFields, scanFields, hread]
        rfl
      | cons f' fs =>
        rcases hk.item with ⟨a, ha, hspace⟩
        have hrest := ih (f' :: fs) (List.cons_ne_nil _ _)
          (fun g hg => hscan g (List.mem_cons_of_mem _ hg)) (Nat.le_of_succ_le_succ hfuel)
        have hskip : skipSpace (a ++ (writeFields k (f' :: fs) ++ '\x7d' :: rest)) =
            writeFields k (f' :: fs) ++ '\x7d' :: rest := by
          rw [skipSpace_append hspace]
          cases fs with
          | nil => exact skipSpace_writeField f'
          | cons g gs =>
            rw [writeFields, List.append_assoc, List.append_assoc]
            exact skipSpace_writeField f'
        have hread := scanField_write hk f hf
          (',' :: (a ++ (writeFields k (f' :: fs) ++ '\x7d' :: rest))) (closes_of_head (by decide))
        rw [writeFields, ha, scanFields, List.append_assoc, List.append_assoc, List.cons_append,
          hread]
        show (scanFields scan fuel (skipSpace (a ++ (writeFields k (f' :: fs) ++ '\x7d' :: rest))) >>=
          fun t => .ok (f :: t.1, t.2)) = _
        rw [hskip, hrest]
        rfl

theorem length_writeItems (items : List JsonValue) (hopens : ∀ v ∈ items, Opens (v.write k)) :
    items.length ≤ (writeItems k items).length := by
  induction items with
  | nil => exact Nat.le_refl 0
  | cons v vs ih =>
    rcases hopens v List.mem_cons_self with ⟨c, cs, heq, -⟩
    cases vs with
    | nil => simp [writeItems, heq]
    | cons v' vs =>
      have hmore := ih fun w hw => hopens w (List.mem_cons_of_mem _ hw)
      rw [writeItems, heq]
      simp only [List.length_append, List.length_cons] at hmore ⊢
      omega

theorem length_writeFields (fields : List (List Nat × JsonValue)) :
    fields.length ≤ (writeFields k fields).length := by
  induction fields with
  | nil => exact Nat.le_refl 0
  | cons f fs ih =>
    rcases writeField_head (k := k) f with ⟨tail, heq⟩
    cases fs with
    | nil => simp [writeFields, heq]
    | cons f' fs =>
      rw [writeFields, heq]
      simp only [List.length_append, List.length_cons] at ih ⊢
      omega

theorem scanArray_write (hk : k.Spaced) (items : List JsonValue)
    (hscan : ∀ v ∈ items, ReadsBack k scan v) :
    scanArray scan (writeItems k items ++ ']' :: rest) = .ok (.arr items, rest) := by
  cases items with
  | nil => rfl
  | cons v vs =>
    have hv := hscan v List.mem_cons_self
    have hhead : ∃ tail, writeItems k (v :: vs) ++ ']' :: rest = v.write k ++ tail := by
      cases vs with
      | nil => exact ⟨']' :: rest, rfl⟩
      | cons v' vs =>
        refine ⟨k.item ++ (writeItems k (v' :: vs) ++ ']' :: rest), ?_⟩
        rw [writeItems, List.append_assoc, List.append_assoc]
    rcases hhead with ⟨tail, htail⟩
    have hskip : skipSpace (writeItems k (v :: vs) ++ ']' :: rest) =
        writeItems k (v :: vs) ++ ']' :: rest := by
      rw [htail]
      exact hv.skipSpace
    have hopen : (writeItems k (v :: vs) ++ ']' :: rest).head? ≠ some ']' := by
      rcases hv.opens with ⟨c, cs, heq, -, hne, -⟩
      rw [htail, heq]
      intro h
      exact hne (Option.some.inj h)
    have hlength : (v :: vs).length ≤ (writeItems k (v :: vs) ++ ']' :: rest).length + 1 := by
      have hitems := length_writeItems (v :: vs) fun w hw => (hscan w hw).opens
      rw [List.length_append]
      omega
    rw [scanArray, hskip, if_neg hopen,
      scanItems_write hk (v :: vs) (List.cons_ne_nil _ _) hscan hlength]
    rfl

theorem scanObject_write (hk : k.Spaced) (fields : List (List Nat × JsonValue))
    (hscan : ∀ f ∈ fields, FieldReadsBack k scan f) :
    scanObject scan (writeFields k fields ++ '\x7d' :: rest) = .ok (.obj fields, rest) := by
  cases fields with
  | nil => rfl
  | cons f fs =>
    have hhead : ∃ tail, writeFields k (f :: fs) ++ '\x7d' :: rest = '"' :: tail := by
      rcases writeField_head (k := k) f with ⟨tail, heq⟩
      cases fs with
      | nil =>
        rw [writeFields, heq]
        exact ⟨_, rfl⟩
      | cons f' fs =>
        rw [writeFields, heq]
        exact ⟨_, rfl⟩
    rcases hhead with ⟨tail, htail⟩
    have hskip : skipSpace (writeFields k (f :: fs) ++ '\x7d' :: rest) =
        writeFields k (f :: fs) ++ '\x7d' :: rest := by
      rw [htail]
      exact skipSpace_cons (by decide)
    have hopen : (writeFields k (f :: fs) ++ '\x7d' :: rest).head? ≠ some '\x7d' := by
      rw [htail]
      intro h
      exact absurd (Option.some.inj h) (by decide)
    have hlength : (f :: fs).length ≤ (writeFields k (f :: fs) ++ '\x7d' :: rest).length + 1 := by
      have hfields := length_writeFields (k := k) (f :: fs)
      rw [List.length_append]
      omega
    rw [scanObject, hskip, if_neg hopen,
      scanFields_write hk (f :: fs) (List.cons_ne_nil _ _) hscan hlength]
    rfl

theorem scanOnce_string {cs : List Char} : scanOnce depth ('"' :: cs) = (do
    let (s, rest) ← scanString cs
    .ok (.str s, rest)) := by
  cases depth <;> rfl

theorem scanOnce_array {cs : List Char} :
    scanOnce (depth + 1) ('[' :: cs) = scanArray (scanOnce depth) cs := rfl

theorem scanOnce_object {cs : List Char} :
    scanOnce (depth + 1) ('\x7b' :: cs) = scanObject (scanOnce depth) cs := rfl

theorem scanOnce_scalar {c : Char} {cs : List Char} (hquote : c ≠ '"') (hbrace : c ≠ '\x7b')
    (hbracket : c ≠ '[') : scanOnce depth (c :: cs) = scanScalar (c :: cs) := by
  have hopen : ¬(c = '\x7b' ∨ c = '[') := not_or.2 ⟨hbrace, hbracket⟩
  cases depth with
  | zero => rw [scanOnce, if_neg hquote, if_neg hopen]
  | succ depth => rw [scanOnce, if_neg hquote, if_neg hopen]

theorem scanOnce_number {c : Char} {cs : List Char} (hc : isDigit c = true ∨ c = '-') :
    scanOnce depth (c :: cs) = scanScalar (c :: cs) := by
  have hne (d : Char) (hd : isDigit d = false) (hminus : d ≠ '-') : c ≠ d := by
    rintro rfl
    rcases hc with hc | hc
    · rw [hd] at hc
      cases hc
    · exact hminus hc
  exact scanOnce_scalar (hne _ (by decide) (by decide)) (hne _ (by decide) (by decide))
    (hne _ (by decide) (by decide))

/-- **Every value is read back** from what is written of it, whatever follows it. -/
theorem scanOnce_write (hk : k.Spaced) {v : JsonValue} (hv : v.Readable depth) :
    ReadsBack k (scanOnce depth) v := by
  have hopens : Opens (v.write k) := write_opens hv
  refine ⟨hopens, ?_⟩
  clear hopens
  induction hv with
  | null =>
    intro rest _
    exact scanOnce_scalar (by decide) (by decide) (by decide)
  | bool b =>
    intro rest _
    cases b
    · exact scanOnce_scalar (by decide) (by decide) (by decide)
    · exact scanOnce_scalar (by decide) (by decide) (by decide)
  | @int _ n h =>
    intro rest hrest
    rcases dumpInt_head n with ⟨c, cs, heq, hc⟩
    have hscan := scanScalar_dumpInt h hrest
    rw [heq] at hscan
    rw [JsonValue.write, heq, List.cons_append, scanOnce_number hc]
    exact hscan
  | @float _ text h =>
    intro rest hrest
    have hscan := h.reads rest hrest
    rcases h.opens with ⟨c, cs, heq, hc⟩
    rw [JsonValue.write, heq, List.cons_append, scanOnce_number hc, ← List.cons_append, ← heq]
    exact hscan
  | str s =>
    intro rest _
    have hwrite : JsonValue.write k (.str (codePoints s)) ++ rest =
        '"' :: (s.toList.flatMap (escapeChar k.ensureAscii) ++ '"' :: rest) := by
      rw [JsonValue.write, writeString_codePoints, dumpString]
      simp
    rw [hwrite, scanOnce_string, scanString_dumpString]
    rfl
  | @arr depth items h ih =>
    intro rest _
    have hwrite : JsonValue.write k (.arr items) ++ rest =
        '[' :: (writeItems k items ++ ']' :: rest) := by
      rw [JsonValue.write]
      simp
    rw [hwrite, scanOnce_array, scanArray_write hk items fun v hv => ⟨write_opens (h v hv), ih v hv⟩]
  | @obj depth fields hnames h ih =>
    intro rest _
    have hwrite : JsonValue.write k (.obj fields) ++ rest =
        '\x7b' :: (writeFields k fields ++ '\x7d' :: rest) := by
      rw [JsonValue.write]
      simp
    rw [hwrite, scanOnce_object, scanObject_write hk fields
      fun f hf => ⟨hnames f hf, write_opens (h f hf), ih f hf⟩]

/-- **`json.loads` undoes `json.dumps`.** -/
theorem loads_write (hk : k.Spaced) {v : JsonValue} (hv : v.Readable depth) :
    loads depth (v.write k) = .ok v := by
  have hread := scanOnce_write hk hv
  have hscan := hread.reads [] (fun c hc => by cases hc)
  have hskip := @ReadsBack.skipSpace _ [] _ _ hread
  rw [List.append_nil] at hscan hskip
  have hmark : (v.write k).head? ≠ some '\ufeff' := by
    rcases hread.opens with ⟨c, cs, heq, -, -, hc⟩
    rw [heq]
    intro h
    exact hc (Option.some.inj h)
  rw [loads, if_neg hmark, hskip, hscan]
  rfl

theorem mem_itemValues {v : JsonValue} {items : List Json} (h : v ∈ itemValues items) :
    ∃ w ∈ items, v = w.value := by
  induction items with
  | nil => cases h
  | cons w items ih =>
    rw [itemValues, List.mem_cons] at h
    rcases h with rfl | h
    · exact ⟨w, List.mem_cons_self, rfl⟩
    · rcases ih h with ⟨w', hw, heq⟩
      exact ⟨w', List.mem_cons_of_mem _ hw, heq⟩

theorem mem_fieldValues {f : List Nat × JsonValue} {fields : List (String × Json)}
    (h : f ∈ fieldValues fields) : ∃ g ∈ fields, f = (codePoints g.1, g.2.value) := by
  induction fields with
  | nil => cases h
  | cons g fields ih =>
    rw [fieldValues, List.mem_cons] at h
    rcases h with rfl | h
    · rcases g with ⟨name, w⟩
      exact ⟨(name, w), List.mem_cons_self, rfl⟩
    · rcases ih h with ⟨g', hg, heq⟩
      exact ⟨g', List.mem_cons_of_mem _ hg, heq⟩

theorem readable_value {v : Json} (hv : v.Readable depth) : v.value.Readable depth := by
  induction hv with
  | null => exact .null
  | bool b => exact .bool b
  | int h => exact .int h
  | str s => exact .str s
  | arr _ ih =>
    apply JsonValue.Readable.arr
    intro v hv
    rcases mem_itemValues hv with ⟨w, hw, rfl⟩
    exact ih w hw
  | obj _ ih =>
    apply JsonValue.Readable.obj
    · intro f hf
      rcases mem_fieldValues hf with ⟨g, -, rfl⟩
      exact ⟨g.1, rfl⟩
    · intro f hf
      rcases mem_fieldValues hf with ⟨g, hg, rfl⟩
      exact ih g hg

theorem loads_dumps (hk : k.Spaced) {v : Json} (hv : v.Readable depth) :
    loads depth (v.dumps k) = .ok v.value := by
  rw [← write_value]
  exact loads_write hk (readable_value hv)

end Containers

end GoAgent.Foundation
