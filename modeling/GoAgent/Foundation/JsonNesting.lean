import GoAgent.Foundation.JsonSize

/-!
# JSON text in JSON text

What the reader takes off a text is read the same wherever it stands: before any rest that does not
go on with a number, and at any greater depth.

* `carries_scanOnce` — the text of a value can be carried to another place.
* `loads_object` — the text of an object without the white space around it.
* `loads_wrapped` — an object that holds the text under a name.
-/

namespace GoAgent.Foundation

/-- The text is read as the value whatever comes next, except for what goes on with a number. -/
def ReadsAs (scan : List Char → Except LoadsError (JsonValue × List Char)) (text : List Char)
    (v : JsonValue) : Prop :=
  ∀ rest, Closes rest → scan (text ++ rest) = .ok (v, rest)

/-- What `scan` takes off a text is read the same by `scan'` elsewhere. -/
def Carries (scan scan' : List Char → Except LoadsError (JsonValue × List Char)) : Prop :=
  ∀ s v r, scan s = .ok (v, r) → ∃ text, text ≠ [] ∧ s = text ++ r ∧ ReadsAs scan' text v

section Carrying

variable {s r : List Char}

/-! ## Strings -/

theorem scanUnits_carried {state : StringState} {u : List Nat}
    (h : scanUnits state s = some (u, r)) :
    ∃ text, s = text ++ r ∧ ∀ rest, scanUnits state (text ++ rest) = some (u, rest) := by
  induction s generalizing state u with
  | nil =>
    rw [scanUnits] at h
    cases h
  | cons c s ih =>
    cases state with
    | plain =>
      rw [scanUnits] at h
      split_ifs at h with hquote hslash hcontrol
      · cases h
        refine ⟨[c], rfl, fun rest => ?_⟩
        rw [List.singleton_append, scanUnits, if_pos hquote]
      · rcases ih h with ⟨text, rfl, hread⟩
        refine ⟨c :: text, rfl, fun rest => ?_⟩
        rw [List.cons_append, scanUnits, if_neg hquote, if_pos hslash, hread]
      · rcases Option.map_eq_some_iff.1 h with ⟨p, hp, hu⟩
        cases hu
        rcases ih hp with ⟨text, rfl, hread⟩
        refine ⟨c :: text, rfl, fun rest => ?_⟩
        rw [List.cons_append, scanUnits, if_neg hquote, if_neg hslash, if_neg hcontrol, hread]
        rfl
    | escaped =>
      rw [scanUnits] at h
      split_ifs at h with hcode
      · rcases ih h with ⟨text, rfl, hread⟩
        refine ⟨c :: text, rfl, fun rest => ?_⟩
        rw [List.cons_append, scanUnits, if_pos hcode, hread]
      · cases hsimple : simpleEscape c with
        | none =>
          rw [hsimple] at h
          cases h
        | some n =>
          rw [hsimple] at h
          rcases Option.map_eq_some_iff.1 h with ⟨p, hp, hu⟩
          cases hu
          rcases ih hp with ⟨text, rfl, hread⟩
          refine ⟨c :: text, rfl, fun rest => ?_⟩
          rw [List.cons_append, scanUnits, if_neg hcode, hsimple]
          dsimp only
          rw [hread]
          rfl
    | hex left read =>
      rw [scanUnits] at h
      cases hdigit : hexValue c with
      | none =>
        rw [hdigit] at h
        cases h
      | some d =>
        rw [hdigit] at h
        cases left with
        | zero =>
          rcases Option.map_eq_some_iff.1 h with ⟨p, hp, hu⟩
          cases hu
          rcases ih hp with ⟨text, rfl, hread⟩
          refine ⟨c :: text, rfl, fun rest => ?_⟩
          rw [List.cons_append, scanUnits, hdigit]
          dsimp only
          rw [hread]
          rfl
        | succ left =>
          rcases ih h with ⟨text, rfl, hread⟩
          refine ⟨c :: text, rfl, fun rest => ?_⟩
          rw [List.cons_append, scanUnits, hdigit]
          exact hread rest

theorem scanString_carried {u : List Nat} (h : scanString s = .ok (u, r)) :
    ∃ text, s = text ++ r ∧ ∀ rest, scanString (text ++ rest) = .ok (u, rest) := by
  unfold scanString at h
  cases hscan : scanUnits .plain s with
  | none =>
    rw [hscan] at h
    cases h
  | some p =>
    rw [hscan] at h
    cases h
    rcases scanUnits_carried hscan with ⟨text, hs, hread⟩
    refine ⟨text, hs, fun rest => ?_⟩
    rw [scanString, hread]

/-! ## Numbers -/

theorem head_ne {c d : Char} (h : c ≠ d) : ¬(c :: s).head? = some d :=
  fun hc => h (Option.some.inj hc)

/-- What may follow digits without going on with them. -/
def Stops (rest : List Char) : Prop := ∀ c, rest.head? = some c → isDigit c = false

theorem Closes.stops (h : Closes r) : Stops r := fun c hc => (h c hc).1

theorem takeWhile_stops {l : List Char} (hl : ∀ c ∈ l, isDigit c = true) (hr : Stops r) :
    (l ++ r).takeWhile isDigit = l := by
  rw [List.takeWhile_append_of_pos hl]
  cases r with
  | nil => rw [List.takeWhile_nil, List.append_nil]
  | cons c r => rw [List.takeWhile_cons, hr c rfl, if_neg Bool.false_ne_true, List.append_nil]

theorem fraction_cases (s : List Char) : fraction s = [] ∨ ∃ digits, digits ≠ [] ∧
    (∀ c ∈ digits, isDigit c = true) ∧ fraction s = '.' :: digits ∧
    s = fraction s ++ s.drop (fraction s).length := by
  unfold fraction
  split
  · rename_i cs
    split_ifs with hempty
    · exact .inl rfl
    · refine .inr ⟨cs.takeWhile isDigit, ?_, fun c hc => List.mem_takeWhile_imp hc, rfl, ?_⟩
      · intro hnil
        exact hempty (List.isEmpty_iff.2 hnil)
      · have hprefix : '.' :: cs.takeWhile isDigit <+: '.' :: cs :=
          List.cons_prefix_cons.2 ⟨rfl, List.takeWhile_prefix _⟩
        exact (List.prefix_iff_eq_append.1 hprefix).symm
  · exact .inl rfl

theorem fraction_carried {digits : List Char} (hne : digits ≠ [])
    (hdigits : ∀ c ∈ digits, isDigit c = true) (hr : Stops r) :
    fraction ('.' :: digits ++ r) = '.' :: digits := by
  have htake := takeWhile_stops hdigits hr
  rw [List.cons_append, fraction, htake, if_neg]
  intro hempty
  exact hne (List.isEmpty_iff.1 hempty)

theorem exponent_cases (s : List Char) : exponent s = [] ∨ ∃ e sign digits,
    (e = 'e' ∨ e = 'E') ∧ (sign = [] ∨ sign = ['+'] ∨ sign = ['-']) ∧ digits ≠ [] ∧
    (∀ c ∈ digits, isDigit c = true) ∧ exponent s = e :: sign ++ digits ∧
    s = exponent s ++ s.drop (exponent s).length := by
  cases s with
  | nil => exact .inl rfl
  | cons e s =>
    rw [exponent]
    by_cases he : e = 'e' ∨ e = 'E'
    · rw [if_pos he]
      extract_lets sign digits
      have hsign : (sign = [] ∨ sign = ['+'] ∨ sign = ['-']) ∧ s = sign ++ s.drop sign.length := by
        cases s with
        | nil => exact ⟨.inl rfl, rfl⟩
        | cons d s =>
          by_cases hd : d = '+' ∨ d = '-'
          · have hsigned : sign = [d] := by
              simp only [sign, List.head?_cons, Option.some.injEq, if_pos hd]
              rfl
            rw [hsigned]
            refine ⟨?_, rfl⟩
            rcases hd with rfl | rfl
            · exact .inr (.inl rfl)
            · exact .inr (.inr rfl)
          · have hunsigned : sign = [] := by
              simp only [sign, List.head?_cons, Option.some.injEq, if_neg hd]
            rw [hunsigned]
            exact ⟨.inl rfl, rfl⟩
      by_cases hempty : digits.isEmpty = true
      · rw [if_pos hempty]
        exact .inl rfl
      · rw [if_neg hempty]
        refine .inr ⟨e, sign, digits, he, hsign.1, ?_, fun c hc => List.mem_takeWhile_imp hc, rfl, ?_⟩
        · intro hnil
          exact hempty (List.isEmpty_iff.2 hnil)
        · have hdigits : digits <+: s.drop sign.length := List.takeWhile_prefix _
          have hboth := (List.prefix_append_right_inj sign).2 hdigits
          rw [← hsign.2] at hboth
          have hprefix : e :: sign ++ digits <+: e :: s := List.cons_prefix_cons.2 ⟨rfl, hboth⟩
          exact (List.prefix_iff_eq_append.1 hprefix).symm
    · rw [if_neg he]
      exact .inl rfl

/-- The digits of an exponent whose sign is known. -/
theorem exponent_signed {e : Char} {sign digits cs : List Char} (he : e = 'e' ∨ e = 'E')
    (hsign : (if cs.head? = some '+' ∨ cs.head? = some '-' then cs.take 1 else []) = sign)
    (htake : (cs.drop sign.length).takeWhile isDigit = digits) (hne : digits ≠ []) :
    exponent (e :: cs) = e :: sign ++ digits := by
  subst hsign
  subst htake
  rw [exponent, if_pos he]
  dsimp only
  rw [if_neg]
  intro hempty
  exact hne (List.isEmpty_iff.1 hempty)

theorem exponent_carried {e : Char} {sign digits : List Char} (he : e = 'e' ∨ e = 'E')
    (hsign : sign = [] ∨ sign = ['+'] ∨ sign = ['-']) (hne : digits ≠ [])
    (hdigits : ∀ c ∈ digits, isDigit c = true) (hr : Stops r) :
    exponent (e :: sign ++ digits ++ r) = e :: sign ++ digits := by
  have htake := takeWhile_stops hdigits hr
  rcases hsign with rfl | rfl | rfl
  · have hhead : ¬((digits ++ r).head? = some '+' ∨ (digits ++ r).head? = some '-') := by
      cases digits with
      | nil => exact absurd rfl hne
      | cons d digits =>
        have hd := hdigits d List.mem_cons_self
        rw [List.cons_append, List.head?_cons, Option.some.injEq, Option.some.injEq]
        rintro (rfl | rfl)
        · cases hd
        · cases hd
    exact exponent_signed he (if_neg hhead) htake hne
  · exact @exponent_signed _ _ _ ('+' :: (digits ++ r)) he (if_pos (.inl rfl)) htake hne
  · exact @exponent_signed _ _ _ ('-' :: (digits ++ r)) he (if_pos (.inr rfl)) htake hne

/-- The end of a number after its sign and its digits. -/
def numberAfter (sign digits rest : List Char) : Except LoadsError (JsonValue × List Char) :=
  let frac := fraction rest
  let exp := exponent (rest.drop frac.length)
  if frac.isEmpty ∧ exp.isEmpty then
    if maxIntDigits < digits.length then .error .digits
    else
      let n := Nat.ofDigitChars 10 digits 0
      .ok (.int (if sign.isEmpty then n else -n), rest)
  else .ok (.float (sign ++ digits ++ frac ++ exp), rest.drop (frac ++ exp).length)

/-- The sign and the digits a number starts with. -/
structure Starts (sign digits : List Char) : Prop where
  signed : sign = [] ∨ sign = ['-']
  nonempty : digits ≠ []
  digit : ∀ c ∈ digits, isDigit c = true
  unpadded : digits = ['0'] ∨ digits.head? ≠ some '0'

theorem Starts.head {sign digits : List Char} (h : Starts sign digits) :
    ∃ d ds, digits = d :: ds ∧ isDigit d = true := by
  cases hdigits : digits with
  | nil => exact absurd hdigits h.nonempty
  | cons d ds =>
    refine ⟨d, ds, rfl, h.digit d ?_⟩
    rw [hdigits]
    exact List.mem_cons_self

theorem scanNumber_cases {v : JsonValue} (h : scanNumber s = .ok (v, r)) :
    ∃ sign digits rest, s = sign ++ (digits ++ rest) ∧ Starts sign digits ∧
      numberAfter sign digits rest = .ok (v, r) := by
  unfold scanNumber at h
  extract_lets sign unsigned digits rest frac exp at h
  by_cases hempty : digits.isEmpty = true
  · rw [if_pos hempty] at h
    cases h
  rw [if_neg hempty] at h
  have hsign : (sign = [] ∨ sign = ['-']) ∧ s = sign ++ unsigned := by
    by_cases hhead : s.head? = some '-'
    · have hminus : sign = ['-'] := if_pos hhead
      refine ⟨.inr hminus, ?_⟩
      simp only [unsigned, hminus]
      cases s with
      | nil => cases hhead
      | cons c s =>
        cases hhead
        rfl
    · have hplus : sign = [] := if_neg hhead
      refine ⟨.inl hplus, ?_⟩
      simp only [unsigned, hplus]
      rfl
  have hdigits : (∀ c ∈ digits, isDigit c = true) ∧ (digits = ['0'] ∨ digits.head? ≠ some '0') ∧
      digits <+: unsigned := by
    by_cases hzero : unsigned.head? = some '0'
    · have hone : digits = ['0'] := if_pos hzero
      rw [hone]
      refine ⟨fun c hc => ?_, .inl rfl, ?_⟩
      · rw [List.mem_singleton.1 hc]
        rfl
      · cases hu : unsigned with
        | nil =>
          rw [hu] at hzero
          cases hzero
        | cons c u =>
          rw [hu] at hzero
          cases hzero
          exact List.cons_prefix_cons.2 ⟨rfl, List.nil_prefix⟩
    · have htake : digits = unsigned.takeWhile isDigit := if_neg hzero
      have hprefix : digits <+: unsigned := by
        rw [htake]
        exact List.takeWhile_prefix _
      refine ⟨?_, .inr ?_, hprefix⟩
      · rw [htake]
        exact fun c hc => List.mem_takeWhile_imp hc
      · intro hhead
        rcases hprefix with ⟨t, ht⟩
        apply hzero
        rw [← ht, List.head?_append, hhead]
        rfl
  refine ⟨sign, digits, rest, ?_, ⟨hsign.1, ?_, hdigits.1, hdigits.2.1⟩, h⟩
  · have hunsigned : digits ++ rest = unsigned := List.prefix_iff_eq_append.1 hdigits.2.2
    rw [hunsigned]
    exact hsign.2
  · intro hnil
    exact hempty (List.isEmpty_iff.2 hnil)

theorem scanNumber_starts {sign digits rest : List Char} (h : Starts sign digits)
    (hrest : Stops rest) :
    scanNumber (sign ++ (digits ++ rest)) = numberAfter sign digits rest := by
  rcases h.head with ⟨d, ds, hcons, hd⟩
  have hsign : (if (sign ++ (digits ++ rest)).head? = some '-' then ['-'] else []) = sign := by
    rcases h.signed with rfl | rfl
    · rw [if_neg]
      rw [hcons]
      intro hminus
      cases hminus
      cases hd
    · exact if_pos rfl
  have htake : (if (digits ++ rest).head? = some '0' then ['0'] else
      (digits ++ rest).takeWhile isDigit) = digits := by
    rcases h.unpadded with hzero | hzero
    · rw [hzero]
      exact if_pos rfl
    · rw [if_neg, takeWhile_stops h.digit hrest]
      rw [hcons] at hzero ⊢
      exact hzero
  have hempty : ¬digits.isEmpty = true := fun hnil => h.nonempty (List.isEmpty_iff.1 hnil)
  unfold scanNumber
  dsimp only
  rw [hsign, List.drop_left, htake, List.drop_left, if_neg hempty]
  rfl

/-- An exponent is read again before what closes a number. -/
theorem exponent_again (s : List Char) {t : List Char} (ht : Closes t) :
    exponent (exponent s ++ t) = exponent s ∧ Stops (exponent s ++ t) ∧
      (exponent s ++ t).head? ≠ some '.' := by
  rcases exponent_cases s with hnil | ⟨e, sign, digits, he, hsign, hne, hdigits, heq, -⟩
  · rw [hnil]
    refine ⟨exponent_closes ht, ht.stops, ?_⟩
    intro hhead
    exact (ht '.' hhead).2.1 rfl
  · rw [heq]
    refine ⟨exponent_carried he hsign hne hdigits ht.stops, ?_, ?_⟩
    · intro c hc
      cases hc
      rcases he with rfl | rfl <;> rfl
    · intro hhead
      cases hhead
      rcases he with h | h <;> cases h

theorem fraction_again (s : List Char) {t : List Char} (ht : Stops t) (hdot : t.head? ≠ some '.') :
    fraction (fraction s ++ t) = fraction s ∧ Stops (fraction s ++ t) := by
  rcases fraction_cases s with hnil | ⟨digits, hne, hdigits, heq, -⟩
  · rw [hnil, List.nil_append]
    refine ⟨?_, ht⟩
    cases t with
    | nil => rfl
    | cons c t =>
      unfold fraction
      split
      · next h =>
        cases h
        exact absurd rfl hdot
      · rfl
  · rw [heq]
    refine ⟨fraction_carried hne hdigits ht, ?_⟩
    intro c hc
    cases hc
    rfl

theorem numberAfter_carried {sign digits rest : List Char} {v : JsonValue}
    (h : numberAfter sign digits rest = .ok (v, r)) : ∃ text, rest = text ++ r ∧
      ∀ t, Closes t → Stops (text ++ t) ∧ numberAfter sign digits (text ++ t) = .ok (v, t) := by
  unfold numberAfter at h
  extract_lets frac exp at h
  have hrest : rest = frac ++ (exp ++ (rest.drop frac.length).drop exp.length) := by
    have hfrac : rest = frac ++ rest.drop frac.length := by
      rcases fraction_cases rest with hnil | ⟨-, -, -, -, heq⟩
      · simp only [frac, hnil]
        rfl
      · exact heq
    have hexp : rest.drop frac.length = exp ++ (rest.drop frac.length).drop exp.length := by
      rcases exponent_cases (rest.drop frac.length) with hnil | ⟨-, -, -, -, -, -, -, -, heq⟩
      · simp only [exp, hnil]
        rfl
      · exact heq
    rw [← hexp]
    exact hfrac
  -- after the sign and the digits the same two tokens are found again
  have hagain (t : List Char) (ht : Closes t) :
      Stops (frac ++ exp ++ t) ∧ numberAfter sign digits (frac ++ exp ++ t) =
        if frac.isEmpty ∧ exp.isEmpty then
          if maxIntDigits < digits.length then .error .digits
          else .ok (.int (if sign.isEmpty then Nat.ofDigitChars 10 digits 0
            else -Nat.ofDigitChars 10 digits 0), frac ++ exp ++ t)
        else .ok (.float (sign ++ digits ++ frac ++ exp), t) := by
    rcases exponent_again (rest.drop frac.length) ht with ⟨hexp, hstops, hdot⟩
    rcases fraction_again rest hstops hdot with ⟨hfrac, hstops'⟩
    rw [List.append_assoc]
    refine ⟨hstops', ?_⟩
    have hfrac' : fraction (frac ++ (exp ++ t)) = frac := hfrac
    have hexp' : exponent (exp ++ t) = exp := hexp
    unfold numberAfter
    dsimp only
    rw [hfrac', List.drop_left, hexp', List.length_append, ← List.drop_drop, List.drop_left,
      List.drop_left]
  by_cases hwhole : frac.isEmpty ∧ exp.isEmpty
  · rw [if_pos hwhole] at h
    by_cases hlong : maxIntDigits < digits.length
    · rw [if_pos hlong] at h
      cases h
    rw [if_neg hlong] at h
    cases h
    refine ⟨[], rfl, fun t ht => ?_⟩
    have ht' := hagain t ht
    rw [if_pos hwhole, if_neg hlong, List.isEmpty_iff.1 hwhole.1, List.isEmpty_iff.1 hwhole.2] at ht'
    exact ht'
  · rw [if_neg hwhole] at h
    cases h
    refine ⟨frac ++ exp, ?_, fun t ht => ?_⟩
    · rw [List.length_append, ← List.drop_drop, List.append_assoc]
      exact hrest
    · have ht' := hagain t ht
      rw [if_neg hwhole] at ht'
      exact ht'

theorem carries_scanScalar : Carries scanScalar scanScalar := by
  intro s v r h
  cases hfind : jsonConstants.find? fun p => p.1.isPrefixOf s with
  | none =>
    rw [scanScalar, hfind] at h
    rcases scanNumber_cases h with ⟨sign, digits, rest, rfl, hstarts, hafter⟩
    rcases numberAfter_carried hafter with ⟨text, rfl, hread⟩
    rcases hstarts.head with ⟨d, ds, hcons, hd⟩
    refine ⟨sign ++ (digits ++ text), ?_, ?_, fun t ht => ?_⟩
    · rw [hcons]
      exact List.append_ne_nil_of_right_ne_nil _ (List.cons_ne_nil _ _)
    · rw [List.append_assoc, List.append_assoc]
    · have hnumber := scanNumber_starts hstarts (hread t ht).1
      rw [(hread t ht).2] at hnumber
      rw [List.append_assoc, List.append_assoc, ← hnumber]
      rcases hstarts.signed with rfl | rfl
      · rw [hcons]
        exact scanScalar_number (.inl hd)
      · rw [hcons]
        exact scanScalar_number (.inr ⟨rfl, d, rfl, hd⟩)
  | some p =>
    rw [scanScalar, hfind] at h
    cases h
    have hprefix : p.1 <+: s := List.isPrefixOf_iff_prefix.1
      (List.find?_some (p := fun p : List Char × JsonValue => p.1.isPrefixOf s) hfind)
    have hmem := List.mem_of_find?_eq_some hfind
    refine ⟨p.1, ?_, (List.prefix_iff_eq_append.1 hprefix).symm, fun t _ => ?_⟩
    · simp only [jsonConstants, List.mem_cons, List.not_mem_nil, or_false] at hmem
      rcases hmem with rfl | rfl | rfl | rfl | rfl | rfl <;> exact List.cons_ne_nil _ _
    · simp only [jsonConstants, List.mem_cons, List.not_mem_nil, or_false] at hmem
      rcases hmem with rfl | rfl | rfl | rfl | rfl | rfl <;> rfl

/-- What a number with a fraction or an exponent is made of. -/
def isFloatChar (c : Char) : Bool :=
  isDigit c || c == '-' || c == '+' || c == '.' || c == 'e' || c == 'E'

/-- The text of a number with a fraction or an exponent. -/
def IsFloat (text : List Char) : Prop := scanNumber text = .ok (.float text, [])

theorem floatChars_fraction {c : Char} (hc : c ∈ fraction s) : isFloatChar c = true := by
  rcases fraction_cases s with hnil | ⟨digits, -, hdigits, heq, -⟩
  · rw [hnil] at hc
    cases hc
  · rw [heq, List.mem_cons] at hc
    rcases hc with rfl | hc
    · rfl
    · simp [isFloatChar, hdigits c hc]

theorem floatChars_exponent {c : Char} (hc : c ∈ exponent s) : isFloatChar c = true := by
  rcases exponent_cases s with hnil | ⟨e, sign, digits, he, hsign, -, hdigits, heq, -⟩
  · rw [hnil] at hc
    cases hc
  · rw [heq, List.cons_append, List.mem_cons, List.mem_append] at hc
    rcases hc with rfl | hc | hc
    · rcases he with rfl | rfl <;> rfl
    · rcases hsign with rfl | rfl | rfl
      · cases hc
      · rw [List.mem_singleton.1 hc]
        rfl
      · rw [List.mem_singleton.1 hc]
        rfl
    · simp [isFloatChar, hdigits c hc]

theorem floatChars {text : List Char} (h : IsFloat text) : ∀ c ∈ text, isFloatChar c = true := by
  rcases scanNumber_cases h with ⟨sign, digits, rest, -, hstarts, hafter⟩
  unfold numberAfter at hafter
  dsimp only at hafter
  split_ifs at hafter
  · cases hafter
  · cases hafter
  · have htext := JsonValue.float.inj (Prod.mk.inj (Except.ok.inj hafter)).1
    intro c hc
    rw [← htext, List.mem_append, List.mem_append, List.mem_append] at hc
    rcases hc with ((hc | hc) | hc) | hc
    · rcases hstarts.signed with rfl | rfl
      · cases hc
      · rw [List.mem_singleton.1 hc]
        rfl
    · simp [isFloatChar, hstarts.digit c hc]
    · exact floatChars_fraction hc
    · exact floatChars_exponent hc

theorem floatText {text : List Char} (h : IsFloat text) : FloatText text := by
  rcases scanNumber_cases h with ⟨sign, digits, rest, htext, hstarts, -⟩
  rcases hstarts.head with ⟨d, ds, hcons, hd⟩
  have hhead : ∃ c cs, text = c :: cs ∧
      (isDigit c = true ∨ c = '-' ∧ ∃ d, cs.head? = some d ∧ isDigit d = true) := by
    rcases hstarts.signed with rfl | rfl
    · exact ⟨d, ds ++ rest, by rw [htext, hcons]; rfl, Or.inl hd⟩
    · exact ⟨'-', d :: ds ++ rest, by rw [htext, hcons]; rfl, Or.inr ⟨rfl, d, rfl, hd⟩⟩
  rcases hhead with ⟨c, cs, hcs, hc⟩
  refine ⟨⟨c, cs, hcs, hc.imp_right And.left⟩, fun rest hrest => ?_⟩
  have hscalar : scanScalar text = .ok (.float text, []) := by
    rw [hcs, scanScalar_number hc, ← hcs]
    exact h
  rcases carries_scanScalar _ _ _ hscalar with ⟨same, -, hsame, hreads⟩
  have hread := hreads rest hrest
  rw [List.append_nil] at hsame
  rw [← hsame] at hread
  exact hread

/-! ## Containers -/

theorem skipSpace_split (s : List Char) :
    ∃ a, (∀ c ∈ a, isJsonSpace c = true) ∧ s = a ++ skipSpace s :=
  ⟨s.takeWhile isJsonSpace, fun _ hc => List.mem_takeWhile_imp hc,
    List.takeWhile_append_dropWhile.symm⟩

/-- What is left of the white space starts with none. -/
theorem skipSpace_left {a : List Char} (ha : a ≠ []) (h : skipSpace s = a ++ r) (t : List Char) :
    skipSpace (a ++ t) = a ++ t := by
  cases a with
  | nil => exact absurd rfl ha
  | cons c a =>
    apply skipSpace_cons
    have hne : s.dropWhile isJsonSpace ≠ [] := fun hnil => by
      have hskip : skipSpace s = [] := hnil
      rw [hskip] at h
      cases h
    have hhead := List.head_dropWhile_not isJsonSpace hne
    have hc : (s.dropWhile isJsonSpace).head hne = c := by
      apply Option.some.inj
      rw [← List.head?_eq_some_head]
      show (skipSpace s).head? = some c
      rw [h]
      rfl
    rw [hc] at hhead
    exact hhead

theorem closes_spaces {a : List Char} (ha : ∀ c ∈ a, isJsonSpace c = true) (hr : Closes r) :
    Closes (a ++ r) := by
  cases a with
  | nil => exact hr
  | cons c a =>
    apply closes_of_head
    have hc := ha c List.mem_cons_self
    simp only [isJsonSpace, Bool.or_eq_true, beq_iff_eq] at hc
    rcases hc with ((rfl | rfl) | rfl) | rfl <;> decide

variable {scan scan' : List Char → Except LoadsError (JsonValue × List Char)} {fuel : Nat}

theorem scanField_carried (hscan : Carries scan scan') {f : List Nat × JsonValue}
    (h : scanField scan s = .ok (f, r)) : ∃ text, text ≠ [] ∧ s = text ++ r ∧
      ∀ rest, Closes rest → scanField scan' (text ++ rest) = .ok (f, rest) := by
  rw [scanField, except_bind_ok] at h
  rcases h with ⟨t, hquote, h⟩
  rw [except_bind_ok] at h
  rcases h with ⟨⟨name, t'⟩, hname, h⟩
  rw [except_bind_ok] at h
  rcases h with ⟨t₂, hcolon, h⟩
  rw [except_bind_ok] at h
  rcases h with ⟨⟨v, t₃⟩, hv, h⟩
  cases h
  rcases scanString_carried hname with ⟨string, rfl, hstring⟩
  rcases skipSpace_split t' with ⟨a, ha, ht'⟩
  rw [expect_ok hcolon] at ht'
  rcases skipSpace_split t₂ with ⟨b, hb, ht₂⟩
  rcases hscan _ _ _ hv with ⟨value, hne, hvalue, hread⟩
  refine ⟨'"' :: (string ++ (a ++ ':' :: (b ++ value))), List.cons_ne_nil _ _, ?_, ?_⟩
  · rw [expect_ok hquote, ht', ht₂, hvalue]
    simp only [List.cons_append, List.append_assoc]
  · intro rest hrest
    simp only [List.cons_append, List.append_assoc]
    rw [scanField, except_bind_ok]
    refine ⟨string ++ (a ++ ':' :: (b ++ (value ++ rest))), rfl, ?_⟩
    rw [except_bind_ok]
    refine ⟨(name, a ++ ':' :: (b ++ (value ++ rest))), hstring _, ?_⟩
    rw [except_bind_ok]
    refine ⟨b ++ (value ++ rest), ?_, ?_⟩
    · rw [skipSpace_append ha, skipSpace_cons (by decide)]
      rfl
    rw [except_bind_ok]
    refine ⟨(v, rest), ?_, rfl⟩
    rw [skipSpace_append hb, skipSpace_left hne hvalue]
    exact hread rest hrest

theorem scanFields_carried (hscan : Carries scan scan') {fs : List (List Nat × JsonValue)}
    (h : scanFields scan fuel s = .ok (fs, r)) : ∃ text, text ≠ [] ∧ s = text ++ '\x7d' :: r ∧
      ∀ rest fuel', text.length < fuel' →
        scanFields scan' fuel' (text ++ '\x7d' :: rest) = .ok (fs, rest) := by
  induction fuel generalizing s fs with
  | zero => cases h
  | succ fuel ih =>
    rw [scanFields, except_bind_ok] at h
    rcases h with ⟨⟨f, t⟩, hf, h⟩
    rcases scanField_carried hscan hf with ⟨field, hne, hs, hread⟩
    rcases skipSpace_split t with ⟨a, ha, ht⟩
    dsimp only at h
    split_ifs at h with hclosed
    · cases h
      have hclose : skipSpace t = '\x7d' :: (skipSpace t).tail := (List.cons_head?_tail hclosed).symm
      refine ⟨field ++ a, List.append_ne_nil_of_left_ne_nil hne a, ?_, ?_⟩
      · rw [List.append_assoc, ← hclose, ← ht]
        exact hs
      · intro rest fuel' hfuel
        cases fuel' with
        | zero => exact absurd hfuel (Nat.not_lt_zero _)
        | succ fuel' =>
          rw [List.append_assoc, scanFields, except_bind_ok]
          refine ⟨(f, a ++ '\x7d' :: rest), hread _ (closes_spaces ha (closes_of_head (by decide))), ?_⟩
          dsimp only
          rw [skipSpace_append ha, skipSpace_cons (by decide)]
          rfl
    · rw [except_bind_ok] at h
      rcases h with ⟨t', hcomma, h⟩
      rw [except_bind_ok] at h
      rcases h with ⟨⟨fs', t₂⟩, hfields, h⟩
      cases h
      rw [expect_ok hcomma] at ht
      rcases skipSpace_split t' with ⟨b, hb, ht'⟩
      rcases ih hfields with ⟨text, hne', hrest, hmore⟩
      refine ⟨field ++ (a ++ ',' :: (b ++ text)), List.append_ne_nil_of_left_ne_nil hne _, ?_, ?_⟩
      · rw [hs, ht, ht', hrest]
        simp only [List.cons_append, List.append_assoc]
      · intro rest fuel' hfuel
        simp only [List.length_append, List.length_cons] at hfuel
        cases fuel' with
        | zero => exact absurd hfuel (Nat.not_lt_zero _)
        | succ fuel' =>
          simp only [List.cons_append, List.append_assoc]
          rw [scanFields, except_bind_ok]
          refine ⟨(f, a ++ ',' :: (b ++ (text ++ '\x7d' :: rest))),
            hread _ (closes_spaces ha (closes_of_head (by decide))), ?_⟩
          dsimp only
          rw [skipSpace_append ha, skipSpace_cons (by decide), if_neg (head_ne (by decide)), except_bind_ok]
          refine ⟨b ++ (text ++ '\x7d' :: rest), rfl, ?_⟩
          rw [except_bind_ok]
          refine ⟨(fs', rest), ?_, rfl⟩
          rw [skipSpace_append hb, skipSpace_left hne' hrest]
          exact hmore rest fuel' (by omega)

theorem scanItems_carried (hscan : Carries scan scan') {vs : List JsonValue}
    (h : scanItems scan fuel s = .ok (vs, r)) : ∃ text, text ≠ [] ∧ s = text ++ ']' :: r ∧
      ∀ rest fuel', text.length < fuel' →
        scanItems scan' fuel' (text ++ ']' :: rest) = .ok (vs, rest) := by
  induction fuel generalizing s vs with
  | zero => cases h
  | succ fuel ih =>
    rw [scanItems, except_bind_ok] at h
    rcases h with ⟨⟨v, t⟩, hv, h⟩
    rcases hscan _ _ _ hv with ⟨value, hne, hs, hread⟩
    rcases skipSpace_split t with ⟨a, ha, ht⟩
    dsimp only at h
    split_ifs at h with hclosed
    · cases h
      have hclose : skipSpace t = ']' :: (skipSpace t).tail := (List.cons_head?_tail hclosed).symm
      refine ⟨value ++ a, List.append_ne_nil_of_left_ne_nil hne a, ?_, ?_⟩
      · rw [List.append_assoc, ← hclose, ← ht]
        exact hs
      · intro rest fuel' hfuel
        cases fuel' with
        | zero => exact absurd hfuel (Nat.not_lt_zero _)
        | succ fuel' =>
          rw [List.append_assoc, scanItems, except_bind_ok]
          refine ⟨(v, a ++ ']' :: rest), hread _ (closes_spaces ha (closes_of_head (by decide))), ?_⟩
          dsimp only
          rw [skipSpace_append ha, skipSpace_cons (by decide)]
          rfl
    · rw [except_bind_ok] at h
      rcases h with ⟨t', hcomma, h⟩
      rw [except_bind_ok] at h
      rcases h with ⟨⟨vs', t₂⟩, hitems, h⟩
      cases h
      rw [expect_ok hcomma] at ht
      rcases skipSpace_split t' with ⟨b, hb, ht'⟩
      rcases ih hitems with ⟨text, hne', hrest, hmore⟩
      refine ⟨value ++ (a ++ ',' :: (b ++ text)), List.append_ne_nil_of_left_ne_nil hne _, ?_, ?_⟩
      · rw [hs, ht, ht', hrest]
        simp only [List.cons_append, List.append_assoc]
      · intro rest fuel' hfuel
        simp only [List.length_append, List.length_cons] at hfuel
        cases fuel' with
        | zero => exact absurd hfuel (Nat.not_lt_zero _)
        | succ fuel' =>
          simp only [List.cons_append, List.append_assoc]
          rw [scanItems, except_bind_ok]
          refine ⟨(v, a ++ ',' :: (b ++ (text ++ ']' :: rest))),
            hread _ (closes_spaces ha (closes_of_head (by decide))), ?_⟩
          dsimp only
          rw [skipSpace_append ha, skipSpace_cons (by decide), if_neg (head_ne (by decide)), except_bind_ok]
          refine ⟨b ++ (text ++ ']' :: rest), rfl, ?_⟩
          rw [except_bind_ok]
          refine ⟨(vs', rest), ?_, rfl⟩
          rw [skipSpace_append hb, skipSpace_left hne' hrest]
          exact hmore rest fuel' (by omega)

theorem scanObject_carried (hscan : Carries scan scan') {v : JsonValue}
    (h : scanObject scan s = .ok (v, r)) : ∃ text, s = text ++ '\x7d' :: r ∧
      ∀ rest, scanObject scan' (text ++ '\x7d' :: rest) = .ok (v, rest) := by
  rcases skipSpace_split s with ⟨a, ha, hs⟩
  unfold scanObject at h
  dsimp only at h
  split_ifs at h with hclosed
  · cases h
    have hclose : skipSpace s = '\x7d' :: (skipSpace s).tail := (List.cons_head?_tail hclosed).symm
    refine ⟨a, ?_, fun rest => ?_⟩
    · rw [← hclose]
      exact hs
    · rw [scanObject, skipSpace_append ha, skipSpace_cons (by decide)]
      rfl
  · rw [except_bind_ok] at h
    rcases h with ⟨⟨fs, t⟩, hfields, h⟩
    cases h
    rcases scanFields_carried hscan hfields with ⟨text, hne, hrest, hread⟩
    refine ⟨a ++ text, ?_, fun rest => ?_⟩
    · rw [List.append_assoc, ← hrest]
      exact hs
    · have hopen : ¬(text ++ '\x7d' :: rest).head? = some '\x7d' := by
        intro hhead
        apply hclosed
        rw [hrest]
        cases text with
        | nil => exact absurd rfl hne
        | cons c text => exact hhead
      rw [List.append_assoc, scanObject, skipSpace_append ha, skipSpace_left hne hrest]
      dsimp only
      rw [if_neg hopen, except_bind_ok]
      refine ⟨(fs, rest), hread rest _ ?_, rfl⟩
      simp only [List.length_append, List.length_cons]
      omega

theorem scanArray_carried (hscan : Carries scan scan') {v : JsonValue}
    (h : scanArray scan s = .ok (v, r)) : ∃ text, s = text ++ ']' :: r ∧
      ∀ rest, scanArray scan' (text ++ ']' :: rest) = .ok (v, rest) := by
  rcases skipSpace_split s with ⟨a, ha, hs⟩
  unfold scanArray at h
  dsimp only at h
  split_ifs at h with hclosed
  · cases h
    have hclose : skipSpace s = ']' :: (skipSpace s).tail := (List.cons_head?_tail hclosed).symm
    refine ⟨a, ?_, fun rest => ?_⟩
    · rw [← hclose]
      exact hs
    · rw [scanArray, skipSpace_append ha, skipSpace_cons (by decide)]
      rfl
  · rw [except_bind_ok] at h
    rcases h with ⟨⟨vs, t⟩, hitems, h⟩
    cases h
    rcases scanItems_carried hscan hitems with ⟨text, hne, hrest, hread⟩
    refine ⟨a ++ text, ?_, fun rest => ?_⟩
    · rw [List.append_assoc, ← hrest]
      exact hs
    · have hopen : ¬(text ++ ']' :: rest).head? = some ']' := by
        intro hhead
        apply hclosed
        rw [hrest]
        cases text with
        | nil => exact absurd rfl hne
        | cons c text => exact hhead
      rw [List.append_assoc, scanArray, skipSpace_append ha, skipSpace_left hne hrest]
      dsimp only
      rw [if_neg hopen, except_bind_ok]
      refine ⟨(vs, rest), hread rest _ ?_, rfl⟩
      simp only [List.length_append, List.length_cons]
      omega

/-! ## Values -/

variable {depth depth' : Nat}

theorem carries_string {v : JsonValue} (h : scanOnce depth ('"' :: s) = .ok (v, r)) :
    ∃ text, text ≠ [] ∧ '"' :: s = text ++ r ∧ ReadsAs (scanOnce depth') text v := by
  rw [scanOnce_string, except_bind_ok] at h
  rcases h with ⟨⟨u, t⟩, hu, h⟩
  cases h
  rcases scanString_carried hu with ⟨text, rfl, hread⟩
  refine ⟨'"' :: text, List.cons_ne_nil _ _, rfl, fun rest _ => ?_⟩
  rw [List.cons_append, scanOnce_string, hread]
  rfl

theorem carries_scalar {v : JsonValue} {c : Char} (hquote : c ≠ '"') (hbrace : c ≠ '\x7b')
    (hbracket : c ≠ '[') (h : scanScalar (c :: s) = .ok (v, r)) :
    ∃ text, text ≠ [] ∧ c :: s = text ++ r ∧ ReadsAs (scanOnce depth') text v := by
  rcases carries_scanScalar _ _ _ h with ⟨text, hne, hs, hread⟩
  refine ⟨text, hne, hs, fun rest hrest => ?_⟩
  cases text with
  | nil => exact absurd rfl hne
  | cons d text =>
    have hd : c = d := (List.cons.inj hs).1
    subst hd
    have hscalar := hread rest hrest
    rw [List.cons_append] at hscalar ⊢
    rw [scanOnce_scalar hquote hbrace hbracket]
    exact hscalar

/-- **Carrying.** What is read off a text is read the same elsewhere, and at any greater depth. -/
theorem carries_scanOnce (hdepth : depth ≤ depth') :
    Carries (scanOnce depth) (scanOnce depth') := by
  induction depth generalizing depth' with
  | zero =>
    intro s v r h
    cases s with
    | nil => cases h
    | cons c cs =>
      by_cases hc : c = '"'
      · subst hc
        exact carries_string h
      · rw [scanOnce, if_neg hc] at h
        split_ifs at h with hopen
        rw [not_or] at hopen
        exact carries_scalar hc hopen.1 hopen.2 h
  | succ depth ih =>
    intro s v r h
    cases s with
    | nil => cases h
    | cons c cs =>
      by_cases hc : c = '"'
      · subst hc
        exact carries_string h
      · rw [scanOnce, if_neg hc] at h
        cases depth' with
        | zero => exact absurd hdepth (Nat.not_succ_le_zero depth)
        | succ depth' =>
          have hinner := ih (Nat.le_of_succ_le_succ hdepth)
          split_ifs at h with hopen hbrace
          · subst hbrace
            rcases scanObject_carried hinner h with ⟨text, rfl, hread⟩
            refine ⟨'\x7b' :: (text ++ ['\x7d']), List.cons_ne_nil _ _, ?_, fun rest _ => ?_⟩
            · rw [List.cons_append, List.append_assoc, List.singleton_append]
            · rw [List.cons_append, List.append_assoc, scanOnce_object]
              exact hread rest
          · have hbracket : c = '[' := hopen.resolve_left hbrace
            subst hbracket
            rcases scanArray_carried hinner h with ⟨text, rfl, hread⟩
            refine ⟨'[' :: (text ++ [']']), List.cons_ne_nil _ _, ?_, fun rest _ => ?_⟩
            · rw [List.cons_append, List.append_assoc, List.singleton_append]
            · rw [List.cons_append, List.append_assoc, scanOnce_array]
              exact hread rest
          · rw [not_or] at hopen
            exact carries_scalar hc hopen.1 hopen.2 h

/-! ## Objects -/

/-- No scalar is an object. -/
theorem scanScalar_ne_obj {d : List (List Nat × JsonValue)} : scanScalar s ≠ .ok (.obj d, r) := by
  intro h
  unfold scanScalar at h
  cases hfind : jsonConstants.find? fun p => p.1.isPrefixOf s with
  | none =>
    rw [hfind] at h
    rcases scanNumber_cases h with ⟨sign, digits, rest, -, -, hafter⟩
    unfold numberAfter at hafter
    dsimp only at hafter
    split_ifs at hafter
    all_goals cases hafter
  | some p =>
    rw [hfind] at h
    have hmem := List.mem_of_find?_eq_some hfind
    have hobj : p.2 = .obj d := (Prod.mk.inj (Except.ok.inj h)).1
    simp only [jsonConstants, List.mem_cons, List.not_mem_nil, or_false] at hmem
    rcases hmem with rfl | rfl | rfl | rfl | rfl | rfl <;> cases hobj

/-- An object is read off braces. -/
theorem scanOnce_obj {d : List (List Nat × JsonValue)}
    (h : scanOnce depth s = .ok (.obj d, r)) : ∃ inner body, depth = inner + 1 ∧
      s = '\x7b' :: (body ++ '\x7d' :: r) ∧ ∀ depth', depth ≤ depth' → ∀ rest,
        scanOnce depth' ('\x7b' :: (body ++ '\x7d' :: rest)) = .ok (.obj d, rest) := by
  cases s with
  | nil =>
    rw [scanOnce] at h
    cases h
  | cons c s =>
    by_cases hquote : c = '"'
    · subst hquote
      rw [scanOnce_string, except_bind_ok] at h
      rcases h with ⟨⟨u, t⟩, -, h⟩
      cases h
    by_cases hbracket : c = '['
    · subst hbracket
      cases depth with
      | zero => cases h
      | succ depth =>
        rw [scanOnce_array, scanArray] at h
        dsimp only at h
        split_ifs at h
        · cases h
        · rw [except_bind_ok] at h
          rcases h with ⟨⟨vs, t⟩, -, h⟩
          cases h
    by_cases hbrace : c = '\x7b'
    · subst hbrace
      cases depth with
      | zero => cases h
      | succ depth =>
        rw [scanOnce_object] at h
        have hcarries (depth' : Nat) (hdepth : depth ≤ depth') := carries_scanOnce hdepth
        rcases scanObject_carried (hcarries depth le_rfl) h with ⟨body, hs, -⟩
        refine ⟨depth, body, rfl, by rw [hs], fun depth' hdepth rest => ?_⟩
        cases depth' with
        | zero => exact absurd hdepth (Nat.not_succ_le_zero depth)
        | succ depth' =>
          rcases scanObject_carried (hcarries depth' (Nat.le_of_succ_le_succ hdepth)) h with
            ⟨body', hs', hread⟩
          have hsame : body' = body := by
            rw [hs] at hs'
            exact (List.append_cancel_right hs').symm
          rw [scanOnce_object, ← hsame]
          exact hread rest
    · rw [scanOnce_scalar hquote hbrace hbracket] at h
      exact absurd h scanScalar_ne_obj

theorem skipSpace_eq_nil (h : skipSpace s = []) : ∀ c ∈ s, isJsonSpace c = true :=
  List.dropWhile_eq_nil_iff.1 h

/-- **The text of an object**, without the white space around it. -/
theorem loads_object {d : List (List Nat × JsonValue)} (h : loads depth s = .ok (.obj d)) :
    ∃ a body b, (∀ c ∈ a, isJsonSpace c = true) ∧ (∀ c ∈ b, isJsonSpace c = true) ∧
      s = a ++ '\x7b' :: (body ++ '\x7d' :: b) ∧ ∀ depth', depth ≤ depth' → ∀ rest,
        scanOnce depth' ('\x7b' :: (body ++ '\x7d' :: rest)) = .ok (.obj d, rest) := by
  unfold loads at h
  split_ifs at h
  rw [except_bind_ok] at h
  rcases h with ⟨⟨v, r⟩, hscan, h⟩
  dsimp only at h
  split_ifs at h with hend
  cases h
  rcases skipSpace_split s with ⟨a, ha, hs⟩
  rcases scanOnce_obj hscan with ⟨-, body, -, hbody, hread⟩
  refine ⟨a, body, r, ha, skipSpace_eq_nil hend, ?_, hread⟩
  rw [← hbody]
  exact hs

theorem loads_braces {d : List (List Nat × JsonValue)} {body : List Char}
    (h : scanOnce depth ('\x7b' :: (body ++ ['\x7d'])) = .ok (.obj d, [])) :
    loads depth ('\x7b' :: (body ++ ['\x7d'])) = .ok (.obj d) := by
  have hmark : ¬('\x7b' :: (body ++ ['\x7d'])).head? = some '\ufeff' := fun hc => nomatch hc
  rw [loads, if_neg hmark, skipSpace_cons (by decide), h]
  rfl

/-- An object that holds the text under a name. -/
def wrapText (k : JsonStyle) (name : String) (text : List Char) : List Char :=
  '\x7b' :: (dumpString k.ensureAscii name ++ k.key ++ text ++ ['\x7d'])

/-- **Nesting.** The text of an object under a name is read as an object with the object under the
name. -/
theorem loads_wrapText {k : JsonStyle} (hk : k.Spaced) (name : String)
    {d : List (List Nat × JsonValue)} (h : loads depth s = .ok (.obj d)) :
    loads (depth + 1) (wrapText k name s) = .ok (.obj [(codePoints name, .obj d)]) := by
  rcases loads_object h with ⟨a, body, b, ha, hb, rfl, hread⟩
  rcases hk.key with ⟨sep, hsep, hspace⟩
  let value := '\x7b' :: (body ++ '\x7d' :: (b ++ ['\x7d']))
  let units := name.toList.flatMap (escapeChar k.ensureAscii)
  have htext : wrapText k name (a ++ '\x7b' :: (body ++ '\x7d' :: b)) =
      '\x7b' :: ('"' :: (units ++ '"' :: ':' :: (sep ++ (a ++ value)))) := by
    rw [wrapText, dumpString, hsep]
    simp only [units, value, List.append_assoc, List.cons_append, List.nil_append]
  have hfield : scanField (scanOnce depth) ('"' :: (units ++ '"' :: ':' :: (sep ++ (a ++ value)))) =
      .ok ((codePoints name, .obj d), b ++ ['\x7d']) := by
    rw [scanField, except_bind_ok]
    refine ⟨units ++ '"' :: ':' :: (sep ++ (a ++ value)), rfl, ?_⟩
    rw [except_bind_ok]
    refine ⟨(codePoints name, ':' :: (sep ++ (a ++ value))), scanString_dumpString, ?_⟩
    rw [except_bind_ok]
    refine ⟨sep ++ (a ++ value), rfl, ?_⟩
    rw [except_bind_ok]
    refine ⟨(.obj d, b ++ ['\x7d']), ?_, rfl⟩
    rw [skipSpace_append hspace, skipSpace_append ha, skipSpace_cons (by decide)]
    exact hread depth le_rfl _
  have hfields (fuel : Nat) : scanFields (scanOnce depth) (fuel + 1)
      ('"' :: (units ++ '"' :: ':' :: (sep ++ (a ++ value)))) =
        .ok ([(codePoints name, .obj d)], []) := by
    rw [scanFields, hfield, ok_bind]
    dsimp only
    rw [skipSpace_append hb]
    rfl
  have hobject : scanObject (scanOnce depth) ('"' :: (units ++ '"' :: ':' :: (sep ++ (a ++ value)))) =
      .ok (.obj [(codePoints name, .obj d)], []) := by
    rw [scanObject, skipSpace_cons (by decide), if_neg (head_ne (by decide)), hfields]
    rfl
  rw [htext, loads, if_neg (head_ne (by decide)), skipSpace_cons (by decide), scanOnce_object,
    hobject]
  rfl

end Carrying

end GoAgent.Foundation
