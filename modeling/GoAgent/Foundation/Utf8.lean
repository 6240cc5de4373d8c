import Mathlib.Data.List.Basic
import Mathlib.Tactic.SplitIfs

/-!
# UTF-8

`utf8Encode` writes a text as bytes and `utf8Feed` reads bytes one at a time, from the state in
which the bytes before them left the reader. A text that arrives in pieces is read piece by piece.

* `utf8Feed_encode` — what is written is read back.
* `utf8Feed_append` — the pieces may be cut anywhere.
* `utf8FeedLossy_prefix` — of a text that breaks off, a beginning is read.
-/

namespace GoAgent.Foundation

/-- `c.encode("utf-8")` -/
def utf8Char (c : Char) : List UInt8 :=
  let n := c.toNat
  if n < 0x80 then [UInt8.ofNat n]
  else if n < 0x800 then [UInt8.ofNat (0xC0 + n / 64), UInt8.ofNat (0x80 + n % 64)]
  else if n < 0x10000 then
    [UInt8.ofNat (0xE0 + n / 4096), UInt8.ofNat (0x80 + n / 64 % 64), UInt8.ofNat (0x80 + n % 64)]
  else
    [UInt8.ofNat (0xF0 + n / 262144), UInt8.ofNat (0x80 + n / 4096 % 64),
      UInt8.ofNat (0x80 + n / 64 % 64), UInt8.ofNat (0x80 + n % 64)]

/-- `s.encode("utf-8")` -/
def utf8Encode (s : List Char) : List UInt8 := s.flatMap utf8Char

/-- A character is being read: the bytes it still needs, what its bytes so far say, and the least
and the greatest byte that may come next. -/
structure Utf8State where
  needed : Nat := 0
  code : Nat := 0
  lower : Nat := 0x80
  upper : Nat := 0xBF
  deriving DecidableEq

/-- One byte; `none` if no text has it there. -/
def utf8Step (q : Utf8State) (byte : UInt8) : Option (Utf8State × List Char) :=
  let b := byte.toNat
  match q.needed with
  | 0 =>
    if b < 0x80 then some ({}, [Char.ofNat b])
    else if 0xC2 ≤ b ∧ b ≤ 0xDF then some ({ needed := 1, code := b - 0xC0 }, [])
    else if 0xE0 ≤ b ∧ b ≤ 0xEF then
      -- no longer than it has to be, and no surrogate
      some ({ needed := 2
              code := b - 0xE0
              lower := if b = 0xE0 then 0xA0 else 0x80
              upper := if b = 0xED then 0x9F else 0xBF }, [])
    else if 0xF0 ≤ b ∧ b ≤ 0xF4 then
      some ({ needed := 3
              code := b - 0xF0
              lower := if b = 0xF0 then 0x90 else 0x80
              upper := if b = 0xF4 then 0x8F else 0xBF }, [])
    else none
  | needed + 1 =>
    if q.lower ≤ b ∧ b ≤ q.upper then
      let code := q.code * 64 + b % 64
      if needed = 0 then some ({}, [Char.ofNat code])
      else some ({ needed := needed, code := code }, [])
    else none

/-- The text of some more bytes. -/
def utf8Feed : Utf8State → List UInt8 → Option (Utf8State × List Char)
  | q, [] => some (q, [])
  | q, b :: bs =>
    (utf8Step q b).bind fun r => (utf8Feed r.1 bs).map fun t => (t.1, r.2 ++ t.2)

/-- `bytes.decode("utf-8")`; `none` is a `UnicodeDecodeError`. -/
def utf8Decode (bytes : List UInt8) : Option (List Char) :=
  (utf8Feed {} bytes).bind fun r => if r.1.needed = 0 then some r.2 else none

/-- It stands where no text has the bytes. -/
def replacementChar : Char := '\ufffd'

/-- One byte, for a reader that goes on after an error. -/
def utf8StepLossy (q : Utf8State) (byte : UInt8) : Utf8State × List Char :=
  match utf8Step q byte with
  | some r => r
  | none =>
    if q.needed = 0 then ({}, [replacementChar])
    else
      -- the byte broke off a character and may be the first of another one
      match utf8Step {} byte with
      | some r => (r.1, replacementChar :: r.2)
      | none => ({}, [replacementChar, replacementChar])

def utf8FeedLossy : Utf8State → List UInt8 → Utf8State × List Char
  | q, [] => (q, [])
  | q, b :: bs =>
    let r := utf8StepLossy q b
    let t := utf8FeedLossy r.1 bs
    (t.1, r.2 ++ t.2)

section Pieces

variable {q : Utf8State} {a b : List UInt8}

/-- **The bytes may arrive in any pieces.** -/
theorem utf8Feed_append : utf8Feed q (a ++ b) =
    (utf8Feed q a).bind fun r => (utf8Feed r.1 b).map fun t => (t.1, r.2 ++ t.2) := by
  induction a generalizing q with
  | nil => simp [utf8Feed]
  | cons c a ih =>
    rw [List.cons_append, utf8Feed, utf8Feed]
    cases hstep : utf8Step q c with
    | none => rfl
    | some r =>
      simp only [Option.bind_some, ih]
      cases hfeed : utf8Feed r.1 a with
      | none => rfl
      | some t =>
        simp only [Option.bind_some, Option.map_some, Option.map_map]
        congr 1
        funext u
        simp

theorem utf8FeedLossy_append : utf8FeedLossy q (a ++ b) =
    ((utf8FeedLossy (utf8FeedLossy q a).1 b).1,
      (utf8FeedLossy q a).2 ++ (utf8FeedLossy (utf8FeedLossy q a).1 b).2) := by
  induction a generalizing q with
  | nil => rfl
  | cons c a ih =>
    rw [List.cons_append, utf8FeedLossy, utf8FeedLossy]
    dsimp only
    rw [ih, List.append_assoc]

/-- Without an error the two readers agree. -/
theorem utf8FeedLossy_of_feed {r : Utf8State × List Char} (h : utf8Feed q a = some r) :
    utf8FeedLossy q a = r := by
  induction a generalizing q r with
  | nil =>
    cases h
    rfl
  | cons c a ih =>
    rw [utf8Feed, Option.bind_eq_some_iff] at h
    rcases h with ⟨t, hstep, h⟩
    rw [Option.map_eq_some_iff] at h
    rcases h with ⟨u, hfeed, rfl⟩
    rw [utf8FeedLossy, utf8StepLossy, hstep]
    dsimp only
    rw [ih hfeed]

end Pieces

section Characters

variable {c : Char} {bytes : List UInt8} {n : Nat}

theorem toNat_ofNat (hn : n < 256) : (UInt8.ofNat n).toNat = n := by
  rw [UInt8.toNat_ofNat']
  omega

/-- A continuation byte in the middle of a character. -/
theorem feed_more {needed code low lower upper : Nat} (hlow : low < 64)
    (hrange : lower ≤ 0x80 + low ∧ 0x80 + low ≤ upper) :
    utf8Feed { needed := needed + 2, code := code, lower := lower, upper := upper }
        (UInt8.ofNat (0x80 + low) :: bytes) =
      utf8Feed { needed := needed + 1, code := code * 64 + low } bytes := by
  have hmod : (0x80 + low) % 64 = low := by omega
  rw [utf8Feed, utf8Step]
  simp only [toNat_ofNat (show 0x80 + low < 256 by omega)]
  rw [if_pos hrange, if_neg (by omega), hmod, Option.bind_some]
  simp

/-- The last byte of a character. -/
theorem feed_last {code low lower upper : Nat} (hlow : low < 64)
    (hrange : lower ≤ 0x80 + low ∧ 0x80 + low ≤ upper) :
    utf8Feed { needed := 1, code := code, lower := lower, upper := upper }
        (UInt8.ofNat (0x80 + low) :: bytes) =
      (utf8Feed {} bytes).map fun t => (t.1, Char.ofNat (code * 64 + low) :: t.2) := by
  have hmod : (0x80 + low) % 64 = low := by omega
  rw [utf8Feed, utf8Step]
  simp only [toNat_ofNat (show 0x80 + low < 256 by omega)]
  rw [if_pos hrange, if_pos trivial, hmod, Option.bind_some]
  rfl

/-- The first byte of a character. -/
theorem feed_first (hn : n < 256) : utf8Feed {} (UInt8.ofNat n :: bytes) =
    if n < 0x80 then (utf8Feed {} bytes).map fun t => (t.1, Char.ofNat n :: t.2)
    else if 0xC2 ≤ n ∧ n ≤ 0xDF then utf8Feed { needed := 1, code := n - 0xC0 } bytes
    else if 0xE0 ≤ n ∧ n ≤ 0xEF then
      utf8Feed { needed := 2
                 code := n - 0xE0
                 lower := if n = 0xE0 then 0xA0 else 0x80
                 upper := if n = 0xED then 0x9F else 0xBF } bytes
    else if 0xF0 ≤ n ∧ n ≤ 0xF4 then
      utf8Feed { needed := 3
                 code := n - 0xF0
                 lower := if n = 0xF0 then 0x90 else 0x80
                 upper := if n = 0xF4 then 0x8F else 0xBF } bytes
    else none := by
  rw [utf8Feed, utf8Step]
  simp only [toNat_ofNat hn]
  split_ifs <;> simp

/-- A character is read back, and the reader is between characters again. -/
theorem utf8Feed_char : utf8Feed {} (utf8Char c ++ bytes) =
    (utf8Feed {} bytes).map fun t => (t.1, c :: t.2) := by
  have hvalid : c.toNat < 0xD800 ∨ 0xDFFF < c.toNat ∧ c.toNat < 0x110000 := c.valid
  have hback : Char.ofNat c.toNat = c := Char.ofNat_toNat c
  rw [utf8Char]
  by_cases hone : c.toNat < 0x80
  · rw [if_pos hone, List.singleton_append, feed_first (by omega), if_pos hone, hback]
  rw [if_neg hone]
  by_cases htwo : c.toNat < 0x800
  · have hcode : (0xC0 + c.toNat / 64 - 0xC0) * 64 + c.toNat % 64 = c.toNat := by omega
    rw [if_pos htwo, List.cons_append, List.singleton_append, feed_first (by omega),
      if_neg (by omega), if_pos (by omega), feed_last (by omega) (by omega), hcode, hback]
  rw [if_neg htwo]
  by_cases hthree : c.toNat < 0x10000
  · have hcode : ((0xE0 + c.toNat / 4096 - 0xE0) * 64 + c.toNat / 64 % 64) * 64 + c.toNat % 64 =
        c.toNat := by omega
    rw [if_pos hthree, List.cons_append, List.cons_append, List.singleton_append,
      feed_first (by omega), if_neg (by omega), if_neg (by omega), if_pos (by omega),
      feed_more (by omega) (by constructor <;> split_ifs <;> omega),
      feed_last (by omega) (by omega), hcode, hback]
  · have hcode : (((0xF0 + c.toNat / 262144 - 0xF0) * 64 + c.toNat / 4096 % 64) * 64 +
        c.toNat / 64 % 64) * 64 + c.toNat % 64 = c.toNat := by omega
    rw [if_neg hthree, List.cons_append, List.cons_append, List.cons_append, List.singleton_append,
      feed_first (by omega), if_neg (by omega), if_neg (by omega), if_neg (by omega),
      if_pos (by omega), feed_more (by omega) (by constructor <;> split_ifs <;> omega),
      feed_more (by omega) (by omega), feed_last (by omega) (by omega), hcode, hback]

/-- What is written is read back. -/
theorem utf8Feed_encode (s : List Char) : utf8Feed {} (utf8Encode s) = some ({}, s) := by
  induction s with
  | nil => rfl
  | cons c s ih => rw [utf8Encode, List.flatMap_cons, utf8Feed_char, ← utf8Encode, ih]; rfl

/-- A text of ASCII has a byte for each character. -/
theorem length_utf8Encode {s : List Char} (hs : ∀ c ∈ s, c.toNat < 0x80) :
    (utf8Encode s).length = s.length := by
  induction s with
  | nil => rfl
  | cons c s ih =>
    have hc : (utf8Char c).length = 1 := by
      rw [utf8Char, if_pos (hs c List.mem_cons_self)]
      rfl
    rw [utf8Encode, List.flatMap_cons, List.length_append, ← utf8Encode,
      ih fun d hd => hs d (List.mem_cons_of_mem c hd), hc, List.length_cons, Nat.add_comm]

/-- Bytes that break off are read as a beginning of the text, by either reader. -/
theorem utf8FeedLossy_prefix {s : List Char} (h : bytes <+: utf8Encode s) :
    (utf8FeedLossy {} bytes).2 <+: s := by
  rcases h with ⟨more, hmore⟩
  have hall := utf8Feed_encode s
  rw [← hmore, utf8Feed_append, Option.bind_eq_some_iff] at hall
  rcases hall with ⟨r, hfeed, hrest⟩
  rw [Option.map_eq_some_iff] at hrest
  rcases hrest with ⟨t, -, ht⟩
  rw [utf8FeedLossy_of_feed hfeed]
  exact ⟨t.2, (Prod.mk.inj ht).2⟩

theorem utf8FeedLossy_encode (s : List Char) : utf8FeedLossy {} (utf8Encode s) = ({}, s) :=
  utf8FeedLossy_of_feed (utf8Feed_encode s)

theorem utf8Decode_encode (s : List Char) : utf8Decode (utf8Encode s) = some s := by
  rw [utf8Decode, utf8Feed_encode]
  rfl

end Characters

end GoAgent.Foundation
