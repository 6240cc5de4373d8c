import GoAgent.Foundation.Text
import Mathlib.Tactic.Ring

/-!
# ISO 8601 text of a time

A `Timestamp` is a `datetime`: a wall clock and, if it is aware, its offset from UTC. `isoformat`
writes it and `fromisoformat` reads calendar and week dates, times with and without separators, and
offsets.

* `fromisoformat_isoformat` — what is written is read back.
* `length_isoformat`, `mem_isoformat` — what is written is short, and of few characters.
-/

namespace GoAgent.Foundation

/-! ## The calendar -/

def isLeap (year : Nat) : Bool := year % 4 = 0 && (year % 100 != 0 || year % 400 = 0)

def daysInMonth (year month : Nat) : Nat :=
  if month = 2 then (if isLeap year then 29 else 28)
  else if month = 4 ∨ month = 6 ∨ month = 9 ∨ month = 11 then 30
  else 31

/-- The days before the first of January. -/
def daysBeforeYear (year : Nat) : Nat :=
  (year - 1) * 365 + (year - 1) / 4 - (year - 1) / 100 + (year - 1) / 400

/-- The days before the first of a month. -/
def daysBeforeMonth (year month : Nat) : Nat :=
  ((List.range' 1 (month - 1)).map (daysInMonth year)).sum

/-- The month and the day of a day of the year, over the months that are left. -/
def monthAndDay (year : Nat) : List Nat → Nat → Option (Nat × Nat)
  | [], _ => none
  | m :: ms, d =>
    if d ≤ daysInMonth year m then some (m, d) else monthAndDay year ms (d - daysInMonth year m)

/-- `_isoweek_to_gregorian` -/
def isoWeekToGregorian (year week day : Nat) : Option (Nat × Nat × Nat) :=
  let firstDay := daysBeforeYear year + 1
  let firstWeekday := (firstDay + 6) % 7
  let long := firstWeekday = 3 ∨ firstWeekday = 2 ∧ isLeap year = true
  let monday := if 3 < firstWeekday then firstDay - firstWeekday + 7 else firstDay - firstWeekday
  if 1 ≤ year ∧ year ≤ 9999 ∧ 1 ≤ week ∧ (week ≤ 52 ∨ week = 53 ∧ long) ∧ 1 ≤ day ∧ day ≤ 7 then
    let ordinal := monday + (week - 1) * 7 + (day - 1)
    let year :=
      if ordinal ≤ daysBeforeYear year then year - 1
      else if daysBeforeYear (year + 1) < ordinal then year + 1
      else year
    (monthAndDay year (List.range' 1 12) (ordinal - daysBeforeYear year)).map fun md =>
      (year, md.1, md.2)
  else none

def dayMicroseconds : Int := 86400000000

/-- A `datetime`; the offset is in microseconds, and `none` is a naive one. -/
structure Timestamp where
  year : Nat
  month : Nat
  day : Nat
  hour : Nat
  minute : Nat
  second : Nat
  microsecond : Nat
  offset : Option Int
  date : (1 ≤ year ∧ year ≤ 9999) ∧ (1 ≤ month ∧ month ≤ 12) ∧ 1 ≤ day ∧ day ≤ daysInMonth year month
  time : hour < 24 ∧ minute < 60 ∧ second < 60 ∧ microsecond < 1000000
  zone : ∀ o ∈ offset, -dayMicroseconds < o ∧ o < dayMicroseconds
  deriving DecidableEq

/-- The microseconds up to a time, by which aware times compare. -/
def Timestamp.instant (t : Timestamp) : Int :=
  let days := daysBeforeYear t.year + daysBeforeMonth t.year t.month + (t.day - 1)
  let seconds := (t.hour * 60 + t.minute) * 60 + t.second
  days * dayMicroseconds + (seconds * 1000000 + t.microsecond : Nat) - t.offset.getD 0

/-- `datetime(…)`, with a fixed offset -/
def Timestamp.make (date : Nat × Nat × Nat) (time : Nat × Nat × Nat × Nat) (offset : Option Int) :
    Option Timestamp :=
  if hdate : (1 ≤ date.1 ∧ date.1 ≤ 9999) ∧ (1 ≤ date.2.1 ∧ date.2.1 ≤ 12) ∧ 1 ≤ date.2.2 ∧
      date.2.2 ≤ daysInMonth date.1 date.2.1 then
    if htime : time.1 < 24 ∧ time.2.1 < 60 ∧ time.2.2.1 < 60 ∧ time.2.2.2 < 1000000 then
      if hzone : ∀ o ∈ offset, -dayMicroseconds < o ∧ o < dayMicroseconds then
        some
          { year := date.1
            month := date.2.1
            day := date.2.2
            hour := time.1
            minute := time.2.1
            second := time.2.2.1
            microsecond := time.2.2.2
            offset
            date := hdate
            time := htime
            zone := hzone }
      else none
    else none
  else none

/-! ## Writing -/

/-- `%0{w}d` of a number below `10 ^ w` -/
def zeroPad : Nat → Nat → List Char
  | 0, _ => []
  | w + 1, n => Nat.digitChar (n / 10 ^ w % 10) :: zeroPad w n

/-- Microseconds after a point, unless there are none. -/
def microText (us : Nat) : List Char := if us = 0 then [] else '.' :: zeroPad 6 us

def clockText (hour minute second us : Nat) : List Char :=
  zeroPad 2 hour ++ ':' :: (zeroPad 2 minute ++ ':' :: (zeroPad 2 second ++ microText us))

/-- `_format_offset` -/
def offsetText (o : Int) : List Char :=
  let us := o.natAbs
  let hour := us / 3600000000
  let minute := us / 60000000 % 60
  let second := us / 1000000 % 60
  let micro := us % 1000000
  (if o < 0 then '-' else '+') ::
    if second = 0 ∧ micro = 0 then zeroPad 2 hour ++ ':' :: zeroPad 2 minute
    else clockText hour minute second micro

def dateText (year month day : Nat) : List Char :=
  zeroPad 4 year ++ '-' :: (zeroPad 2 month ++ '-' :: zeroPad 2 day)

/-- `datetime.isoformat()` -/
def Timestamp.isoformat (t : Timestamp) : List Char :=
  dateText t.year t.month t.day ++ 'T' :: (clockText t.hour t.minute t.second t.microsecond ++
    (t.offset.map offsetText).getD [])

/-! ## Reading -/

/-- A number of `w` digits. -/
def parseDigits : Nat → Nat → List Char → Option (Nat × List Char)
  | 0, n, s => some (n, s)
  | _ + 1, _, [] => none
  | w + 1, n, c :: cs => if isDigit c then parseDigits w (n * 10 + (c.toNat - 48)) cs else none

/-- `_parse_isoformat_date` -/
def parseIsoformatDate (s : List Char) : Option (Nat × Nat × Nat) := do
  let (year, r) ← parseDigits 4 0 s
  let sep := r.head? = some '-'
  let r := if sep then r.tail else r
  if r.head? = some 'W' then
    let (week, r) ← parseDigits 2 0 r.tail
    if r = [] then isoWeekToGregorian year week 1
    else if (r.head? = some '-') = sep then
      let (day, _) ← parseDigits 1 0 (if sep then r.tail else r)
      isoWeekToGregorian year week day
    else none
  else
    let (month, r) ← parseDigits 2 0 r
    if (r.head? = some '-') = sep then
      let (day, _) ← parseDigits 2 0 (if sep then r.tail else r)
      some (year, month, day)
    else none

/-- The digits after a point: those past the sixth are dropped. -/
def parseFraction (s : List Char) : Option Nat :=
  match s with
  | [] => none
  | p :: ds =>
    if (p = '.' ∨ p = ',') ∧ ds ≠ [] ∧ ds.all isDigit then
      (parseDigits (min 6 ds.length) 0 ds).map fun r => r.1 * 10 ^ (6 - min 6 ds.length)
    else none

/-- `_parse_hh_mm_ss_ff` -/
def parseClock (s : List Char) : Option (Nat × Nat × Nat × Nat) := do
  let (hour, r) ← parseDigits 2 0 s
  if r = [] then some (hour, 0, 0, 0)
  else
    let sep := r.head? = some ':'
    let (minute, r) ← parseDigits 2 0 (if sep then r.tail else r)
    if r = [] then some (hour, minute, 0, 0)
    else if sep ∧ r.head? ≠ some ':' then none
    else
      let (second, r) ← parseDigits 2 0 (if sep then r.tail else r)
      if r = [] then some (hour, minute, second, 0)
      else (parseFraction r).map fun us => (hour, minute, second, us)

def isZoneSign (c : Char) : Bool := c == '+' || c == '-' || c == 'Z'

/-- What follows the clock: nothing, or an offset. -/
def parseZone : List Char → Option (Option Int)
  | [] => some none
  | sign :: s =>
    if sign = 'Z' then (if s = [] then some (some 0) else none)
    else if s.length = 0 ∨ s.length = 1 ∨ s.length = 3 then none
    else (parseClock s).map fun (hour, minute, second, us) =>
      let o : Int := ((hour * 3600 + minute * 60 + second) * 1000000 + us : Nat)
      some (if sign = '-' then -o else o)

/-- `_parse_isoformat_time` -/
def parseIsoformatTime (s : List Char) : Option ((Nat × Nat × Nat × Nat) × Option Int) := do
  let clock ← parseClock (s.takeWhile fun c => !isZoneSign c)
  let zone ← parseZone (s.dropWhile fun c => !isZoneSign c)
  some (clock, zone)

/-- `_find_isoformat_datetime_separator`: how long the date is -/
def separatorLocation (s : List Char) : Option Nat :=
  if s.length = 7 then some 7
  else if s[4]? = some '-' then
    if s[5]? = some 'W' then
      if s.length < 8 then none
      else if s[8]? = some '-' then
        if s.length = 9 then none
        else if 10 < s.length ∧ (s[10]?.any isDigit) = true then some 8
        else some 10
      else some 8
    else some 10
  else if s[4]? = some 'W' then
    let digits := 7 + ((s.drop 7).takeWhile isDigit).length
    if digits < 9 then some digits
    else if digits % 2 = 0 then some 7
    else some 8
  else some 8

/-- `datetime.fromisoformat` of a text; `none` is a `ValueError`. -/
def fromisoformat (s : List Char) : Option Timestamp := do
  if s.length < 7 then none
  else
    let location ← separatorLocation s
    let date ← parseIsoformatDate (s.take location)
    let text := s.drop location
    let (clock, zone) ←
      if text = [] then some ((0, 0, 0, 0), none) else parseIsoformatTime text.tail
    Timestamp.make date clock zone

/-! ## What is written is read back -/

section RoundTrip

variable {w n m : Nat} {rest : List Char}

theorem isDigit_digitChar (n : Nat) : isDigit (Nat.digitChar (n % 10)) = true ∧
    (Nat.digitChar (n % 10)).toNat - 48 = n % 10 := by
  have hall : ∀ d < 10, isDigit (Nat.digitChar d) = true ∧ (Nat.digitChar d).toNat - 48 = d := by
    decide
  exact hall (n % 10) (Nat.mod_lt n (by decide))

theorem parseDigits_zeroPad :
    parseDigits w m (zeroPad w n ++ rest) = some (m * 10 ^ w + n % 10 ^ w, rest) := by
  induction w generalizing m with
  | zero => simp [parseDigits, zeroPad, Nat.mod_one]
  | succ w ih =>
    rcases isDigit_digitChar (n / 10 ^ w) with ⟨hdigit, hvalue⟩
    rw [zeroPad, List.cons_append, parseDigits, if_pos hdigit, hvalue, ih, Nat.mod_pow_succ,
      Nat.pow_succ]
    congr 2
    ring

/-- A number that fits its width is read back. -/
theorem parseDigits_fit (hn : n < 10 ^ w) : parseDigits w 0 (zeroPad w n ++ rest) =
    some (n, rest) := by
  rw [parseDigits_zeroPad, Nat.mod_eq_of_lt hn, Nat.zero_mul, Nat.zero_add]

theorem length_zeroPad : (zeroPad w n).length = w := by
  induction w with
  | zero => rfl
  | succ w ih => rw [zeroPad, List.length_cons, ih]

theorem isDigit_of_mem_zeroPad {c : Char} (hc : c ∈ zeroPad w n) : isDigit c = true := by
  induction w with
  | zero => cases hc
  | succ w ih =>
    rw [zeroPad, List.mem_cons] at hc
    rcases hc with rfl | hc
    · exact (isDigit_digitChar _).1
    · exact ih hc

theorem parseFraction_zeroPad (hn : n < 1000000) : parseFraction ('.' :: zeroPad 6 n) = some n := by
  have hne : zeroPad 6 n ≠ [] := List.cons_ne_nil _ _
  have hdigits : (zeroPad 6 n).all isDigit = true :=
    List.all_eq_true.2 fun c hc => isDigit_of_mem_zeroPad hc
  have hparse : parseDigits 6 0 (zeroPad 6 n) = some (n, []) := by
    have hread : parseDigits 6 0 (zeroPad 6 n ++ []) = some (n, []) := parseDigits_fit hn
    rwa [List.append_nil] at hread
  rw [parseFraction, if_pos ⟨Or.inl rfl, hne, hdigits⟩, length_zeroPad, Nat.min_self, hparse]
  simp

theorem parse_two (hn : n < 100) : parseDigits 2 0 (zeroPad 2 n ++ rest) = some (n, rest) :=
  parseDigits_fit hn

theorem parse_two_last (hn : n < 100) : parseDigits 2 0 (zeroPad 2 n) = some (n, []) := by
  have hread : parseDigits 2 0 (zeroPad 2 n ++ []) = some (n, []) := parse_two hn
  rwa [List.append_nil] at hread

theorem parseClock_clockText {hour minute second us : Nat} (hhour : hour < 100)
    (hminute : minute < 60) (hsecond : second < 60) (hus : us < 1000000) :
    parseClock (clockText hour minute second us) = some (hour, minute, second, us) := by
  have hmicro : microText us = [] ∧ us = 0 ∨
      microText us ≠ [] ∧ parseFraction (microText us) = some us := by
    unfold microText
    by_cases hzero : us = 0
    · exact Or.inl ⟨if_pos hzero, hzero⟩
    · rw [if_neg hzero]
      exact Or.inr ⟨List.cons_ne_nil _ _, parseFraction_zeroPad hus⟩
  simp only [parseClock, clockText, Option.bind_eq_bind, parse_two hhour, Option.bind_some,
    List.cons_ne_nil, if_false, List.head?_cons, if_true, List.tail_cons,
    parse_two (show minute < 100 by omega), parse_two (show second < 100 by omega), ne_eq,
    not_true_eq_false, and_false]
  rcases hmicro with ⟨hnil, rfl⟩ | ⟨hne, hread⟩
  · rw [hnil, if_pos rfl]
  · rw [if_neg hne, hread]
    rfl

/-- An offset of whole minutes is written without its seconds. -/
theorem parseClock_minutes {hour minute : Nat} (hhour : hour < 100) (hminute : minute < 60) :
    parseClock (zeroPad 2 hour ++ ':' :: zeroPad 2 minute) = some (hour, minute, 0, 0) := by
  simp only [parseClock, Option.bind_eq_bind, parse_two hhour, Option.bind_some, List.cons_ne_nil,
    if_false, List.head?_cons, if_true, List.tail_cons, parse_two_last (show minute < 100 by omega)]

theorem length_clockText {hour minute second us : Nat} :
    8 ≤ (clockText hour minute second us).length := by
  simp only [clockText, List.length_append, List.length_cons, length_zeroPad]
  omega

theorem parseZone_offsetText {o : Int} (ho : -dayMicroseconds < o ∧ o < dayMicroseconds) :
    parseZone (offsetText o) = some (some o) := by
  have habs : o.natAbs < 86400000000 := by
    unfold dayMicroseconds at ho
    omega
  have hhour : o.natAbs / 3600000000 < 100 := by omega
  have hminute : o.natAbs / 60000000 % 60 < 60 := Nat.mod_lt _ (by decide)
  have hsecond : o.natAbs / 1000000 % 60 < 60 := Nat.mod_lt _ (by decide)
  have hmicro : o.natAbs % 1000000 < 1000000 := Nat.mod_lt _ (by decide)
  have hsum : (o.natAbs / 3600000000 * 3600 + o.natAbs / 60000000 % 60 * 60 +
      o.natAbs / 1000000 % 60) * 1000000 + o.natAbs % 1000000 = o.natAbs := by omega
  have htext : ∃ text, offsetText o = (if o < 0 then '-' else '+') :: text ∧ 5 ≤ text.length ∧
      parseClock text = some (o.natAbs / 3600000000, o.natAbs / 60000000 % 60,
        o.natAbs / 1000000 % 60, o.natAbs % 1000000) := by
    refine ⟨_, rfl, ?_⟩
    split_ifs with hwhole
    · refine ⟨by simp [length_zeroPad], ?_⟩
      rw [parseClock_minutes hhour hminute, hwhole.1, hwhole.2]
    · exact ⟨Nat.le_trans (by decide) length_clockText,
        parseClock_clockText hhour hminute hsecond hmicro⟩
  rcases htext with ⟨text, heq, hlen, hclock⟩
  have hlength : ¬(text.length = 0 ∨ text.length = 1 ∨ text.length = 3) := by omega
  rw [heq]
  by_cases hneg : o < 0
  · rw [if_pos hneg, parseZone, if_neg (by decide), if_neg hlength, hclock]
    simp only [Option.map_some, if_true, hsum]
    congr 2
    omega
  · rw [if_neg hneg, parseZone, if_neg (by decide), if_neg hlength, hclock]
    simp only [Option.map_some, hsum, if_neg (show ¬('+' = '-') by decide)]
    congr 2
    omega

theorem isZoneSign_of_mem_clockText {hour minute second us : Nat} {c : Char}
    (hc : c ∈ clockText hour minute second us) : (!isZoneSign c) = true := by
  have hdigit {c : Char} (hc : isDigit c = true) : (!isZoneSign c) = true := by
    have hne (d : Char) (hd : isDigit d = false) : (c == d) = false := by
      rw [beq_eq_false_iff_ne]
      rintro rfl
      rw [hd] at hc
      cases hc
    simp [isZoneSign, hne '+' (by decide), hne '-' (by decide), hne 'Z' (by decide)]
  simp only [clockText, List.mem_append, List.mem_cons] at hc
  rcases hc with hc | rfl | hc | rfl | hc | hc
  · exact hdigit (isDigit_of_mem_zeroPad hc)
  · decide
  · exact hdigit (isDigit_of_mem_zeroPad hc)
  · decide
  · exact hdigit (isDigit_of_mem_zeroPad hc)
  · unfold microText at hc
    split_ifs at hc
    · cases hc
    · rcases List.mem_cons.1 hc with rfl | hc
      · decide
      · exact hdigit (isDigit_of_mem_zeroPad hc)

/-- The offset begins at the first sign after the clock. -/
theorem parseIsoformatTime_text {hour minute second us : Nat} {offset : Option Int}
    (htime : hour < 24 ∧ minute < 60 ∧ second < 60 ∧ us < 1000000)
    (hzone : ∀ o ∈ offset, -dayMicroseconds < o ∧ o < dayMicroseconds) :
    parseIsoformatTime (clockText hour minute second us ++ (offset.map offsetText).getD []) =
      some ((hour, minute, second, us), offset) := by
  have hclock := parseClock_clockText (show hour < 100 by omega) htime.2.1 htime.2.2.1 htime.2.2.2
  have hsign : ((offset.map offsetText).getD []).takeWhile (fun c => !isZoneSign c) = [] ∧
      ((offset.map offsetText).getD []).dropWhile (fun c => !isZoneSign c) =
        (offset.map offsetText).getD [] := by
    cases offset with
    | none => exact ⟨rfl, rfl⟩
    | some o =>
      have hhead : (!isZoneSign (if o < 0 then '-' else '+')) = false := by
        split_ifs
        · decide
        · decide
      rw [Option.map_some, Option.getD_some, offsetText]
      simp only [List.takeWhile_cons, List.dropWhile_cons, hhead, Bool.false_eq_true, if_false,
        and_self]
  have htake : (clockText hour minute second us ++ (offset.map offsetText).getD []).takeWhile
      (fun c => !isZoneSign c) = clockText hour minute second us := by
    rw [List.takeWhile_append_of_pos fun c hc => isZoneSign_of_mem_clockText hc, hsign.1,
      List.append_nil]
  have hdrop : (clockText hour minute second us ++ (offset.map offsetText).getD []).dropWhile
      (fun c => !isZoneSign c) = (offset.map offsetText).getD [] := by
    rw [List.dropWhile_append_of_pos fun c hc => isZoneSign_of_mem_clockText hc, hsign.2]
  have hparse : parseZone ((offset.map offsetText).getD []) = some offset := by
    cases offset with
    | none => rfl
    | some o => exact parseZone_offsetText (hzone o rfl)
  simp only [parseIsoformatTime, Option.bind_eq_bind, htake, hdrop, hclock, hparse,
    Option.bind_some]

theorem length_dateText {year month day : Nat} : (dateText year month day).length = 10 := by
  simp only [dateText, List.length_append, List.length_cons, length_zeroPad]

theorem parseIsoformatDate_text {year month day : Nat} (hyear : year < 10000) (hmonth : month < 100)
    (hday : day < 100) : parseIsoformatDate (dateText year month day) = some (year, month, day) := by
  have hdigit {c : Char} (hc : isDigit c = true) : c ≠ 'W' := by
    rintro rfl
    exact absurd hc (by decide)
  have hhead : ((zeroPad 2 month ++ '-' :: zeroPad 2 day).head? = some 'W') = False := by
    rw [eq_iff_iff, iff_false]
    intro h
    have hc : isDigit 'W' = true := by
      have hfirst : (zeroPad 2 month ++ '-' :: zeroPad 2 day).head? =
          some (Nat.digitChar (month / 10 ^ 1 % 10)) := rfl
      rw [hfirst] at h
      rw [← Option.some.inj h]
      exact (isDigit_digitChar _).1
    exact hdigit hc rfl
  simp only [parseIsoformatDate, dateText, Option.bind_eq_bind,
    parseDigits_fit (show year < 10 ^ 4 from hyear), Option.bind_some, List.head?_cons, if_true,
    List.tail_cons, hhead, if_false, parse_two hmonth, parse_two_last hday]

/-- **`fromisoformat` undoes `isoformat`.** -/
theorem fromisoformat_isoformat (t : Timestamp) : fromisoformat t.isoformat = some t := by
  let clock := clockText t.hour t.minute t.second t.microsecond ++
    (t.offset.map offsetText).getD []
  have htext : t.isoformat = dateText t.year t.month t.day ++ 'T' :: clock := rfl
  have hlen : 19 ≤ t.isoformat.length := by
    have hclock : 8 ≤ (clockText t.hour t.minute t.second t.microsecond).length := length_clockText
    simp only [htext, clock, List.length_append, List.length_cons, length_dateText]
    omega
  have hlocation : separatorLocation t.isoformat = some 10 := by
    have hdash : t.isoformat[4]? = some '-' := rfl
    have hmonth : t.isoformat[5]? = some (Nat.digitChar (t.month / 10 ^ 1 % 10)) := rfl
    have hweek : ¬(some (Nat.digitChar (t.month / 10 ^ 1 % 10)) = some 'W') := by
      intro h
      have hc := (isDigit_digitChar (t.month / 10 ^ 1)).1
      rw [Option.some.inj h] at hc
      exact absurd hc (by decide)
    rw [separatorLocation, if_neg (by omega), hdash, if_pos rfl, hmonth, if_neg hweek]
  have htake : t.isoformat.take 10 = dateText t.year t.month t.day := by
    rw [htext, List.take_left' length_dateText]
  have hdrop : t.isoformat.drop 10 = 'T' :: clock := by
    rw [htext, List.drop_left' length_dateText]
  have hdays : t.day < 100 := by
    have hmax : daysInMonth t.year t.month ≤ 31 := by
      unfold daysInMonth
      split_ifs <;> decide
    have hday := t.date.2.2.2
    omega
  have hyear := t.date.1.2
  have hmonth := t.date.2.1.2
  have hdate := parseIsoformatDate_text (show t.year < 10000 by omega)
    (show t.month < 100 by omega) hdays
  have htime : parseIsoformatTime clock = _ := parseIsoformatTime_text t.time t.zone
  simp only [fromisoformat, if_neg (show ¬t.isoformat.length < 7 by omega), Option.bind_eq_bind,
    hlocation, Option.bind_some, htake, hdate, hdrop, List.cons_ne_nil, if_false, List.tail_cons,
    htime, Timestamp.make, dif_pos t.date, dif_pos t.time, dif_pos t.zone]

end RoundTrip

/-! ## What is written -/

section Written

variable {c : Char}

def isIsoChar (c : Char) : Bool :=
  isDigit c || c == '-' || c == ':' || c == '.' || c == 'T' || c == '+'

theorem isIsoChar_of_mem_zeroPad {w n : Nat} (hc : c ∈ zeroPad w n) : isIsoChar c = true := by
  simp [isIsoChar, isDigit_of_mem_zeroPad hc]

theorem mem_clockText {hour minute second us : Nat} (hc : c ∈ clockText hour minute second us) :
    isIsoChar c = true := by
  simp only [clockText, List.mem_append, List.mem_cons] at hc
  rcases hc with hc | rfl | hc | rfl | hc | hc
  · exact isIsoChar_of_mem_zeroPad hc
  · decide
  · exact isIsoChar_of_mem_zeroPad hc
  · decide
  · exact isIsoChar_of_mem_zeroPad hc
  · unfold microText at hc
    split_ifs at hc
    · cases hc
    · rcases List.mem_cons.1 hc with rfl | hc
      · decide
      · exact isIsoChar_of_mem_zeroPad hc

theorem mem_offsetText {o : Int} (hc : c ∈ offsetText o) : isIsoChar c = true := by
  rcases List.mem_cons.1 hc with rfl | hc
  · split_ifs <;> decide
  · split_ifs at hc
    · simp only [List.mem_append, List.mem_cons] at hc
      rcases hc with hc | rfl | hc
      · exact isIsoChar_of_mem_zeroPad hc
      · decide
      · exact isIsoChar_of_mem_zeroPad hc
    · exact mem_clockText hc

theorem mem_isoformat {t : Timestamp} (hc : c ∈ t.isoformat) : isIsoChar c = true := by
  simp only [Timestamp.isoformat, dateText, List.mem_append, List.mem_cons] at hc
  rcases hc with (hc | rfl | hc | rfl | hc) | rfl | hc | hc
  · exact isIsoChar_of_mem_zeroPad hc
  · decide
  · exact isIsoChar_of_mem_zeroPad hc
  · decide
  · exact isIsoChar_of_mem_zeroPad hc
  · decide
  · exact mem_clockText hc
  · cases hoffset : t.offset with
    | none =>
      rw [hoffset] at hc
      cases hc
    | some o =>
      rw [hoffset] at hc
      exact mem_offsetText hc

theorem length_clockText_le {hour minute second us : Nat} :
    (clockText hour minute second us).length ≤ 15 := by
  simp only [clockText, microText, List.length_append, List.length_cons, length_zeroPad]
  split_ifs <;> simp [length_zeroPad]

theorem length_offsetText {o : Int} : (offsetText o).length ≤ 16 := by
  simp only [offsetText, List.length_cons]
  split_ifs
  · simp [length_zeroPad]
  · exact Nat.succ_le_succ length_clockText_le

theorem length_isoformat {t : Timestamp} : t.isoformat.length ≤ 42 := by
  have hclock : (clockText t.hour t.minute t.second t.microsecond).length ≤ 15 :=
    length_clockText_le
  have hoffset : ((t.offset.map offsetText).getD []).length ≤ 16 := by
    cases t.offset with
    | none => simp
    | some o => exact length_offsetText
  simp only [Timestamp.isoformat, List.length_append, List.length_cons, length_dateText]
  omega

end Written

end GoAgent.Foundation
