import GoAgent.Foundation.Text

/-!
# URL-safe base64

`urlsafeB64encode` and `urlsafeB64decode` are Python's. The decoder reads both alphabets, drops
what is in neither, and stops at a pad that closes a group of four; it fails at the end of a group
that is not closed.

* `urlsafeB64decode_padded` — an encoding that lost its padding is decoded once it is padded again.
-/

namespace GoAgent.Foundation

/-- The six bits of a character of the alphabet, `-_` read as `+/`. -/
def sextet (c : Char) : Option Nat :=
  if isUpper c then some (c.toNat - 65)
  else if isLower c then some (c.toNat - 71)
  else if isDigit c then some (c.toNat + 4)
  else if c = '+' ∨ c = '-' then some 62
  else if c = '/' ∨ c = '_' then some 63
  else none

/-- The character of six bits. -/
def urlsafeChar (v : Nat) : Char :=
  if v < 26 then Char.ofNat (v + 65)
  else if v < 52 then Char.ofNat (v + 71)
  else if v < 62 then Char.ofNat (v - 4)
  else if v = 62 then '-'
  else '_'

/-- `binascii.a2b_base64` before the next character: the characters read of the group of four, the
bits left over from them, and the pads read after them. -/
structure Quad where
  pos : Nat := 0
  left : Nat := 0
  pads : Nat := 0

def a2bBase64 : Quad → List Char → Option (List UInt8)
  | q, [] => if q.pos = 0 then some [] else none
  | q, c :: cs =>
    if c = '=' then
      if q.pos < 2 then a2bBase64 q cs
      else if 4 ≤ q.pos + (q.pads + 1) then some []
      else a2bBase64 { q with pads := q.pads + 1 } cs
    else
      match sextet c with
      | none => a2bBase64 q cs
      | some v =>
        match q.pos with
        | 0 => a2bBase64 { pos := 1, left := v } cs
        | 1 => (a2bBase64 { pos := 2, left := v % 16 } cs).map
            (UInt8.ofNat (q.left * 4 + v / 16) :: ·)
        | 2 => (a2bBase64 { pos := 3, left := v % 4 } cs).map
            (UInt8.ofNat (q.left * 16 + v / 4) :: ·)
        | _ => (a2bBase64 {} cs).map (UInt8.ofNat (q.left * 64 + v) :: ·)

/-- `base64.urlsafe_b64decode` of a text; `none` is a `ValueError`. -/
def urlsafeB64decode (s : List Char) : Option (List UInt8) :=
  if s.all fun c => c.toNat < 128 then a2bBase64 {} s else none

def urlsafeB64encode : List UInt8 → List Char
  | [] => []
  | [a] => [urlsafeChar (a.toNat / 4), urlsafeChar (a.toNat % 4 * 16), '=', '=']
  | [a, b] =>
    [urlsafeChar (a.toNat / 4), urlsafeChar (a.toNat % 4 * 16 + b.toNat / 16),
      urlsafeChar (b.toNat % 16 * 4), '=']
  | a :: b :: c :: rest =>
    urlsafeChar (a.toNat / 4) :: urlsafeChar (a.toNat % 4 * 16 + b.toNat / 16) ::
      urlsafeChar (b.toNat % 16 * 4 + c.toNat / 64) :: urlsafeChar (c.toNat % 64) ::
        urlsafeB64encode rest

/-- `.rstrip("=")` -/
def unpadded (s : List Char) : List Char := s.rdropWhile (· == '=')

/-- `s + "=" * (-len(s) % 4)` -/
def padded (s : List Char) : List Char := s ++ List.replicate ((4 - s.length % 4) % 4) '='

/-! ## Six bits -/

/-- The characters of the alphabet. -/
def isUrlsafe (c : Char) : Bool := isAlnum c || c == '-' || c == '_'

theorem urlsafeChar_cases {v : Nat} (hv : v < 64) :
    sextet (urlsafeChar v) = some v ∧ isUrlsafe (urlsafeChar v) = true := by
  have hall : ∀ v < 64, sextet (urlsafeChar v) = some v ∧ isUrlsafe (urlsafeChar v) = true := by
    decide
  exact hall v hv

theorem isUrlsafe_ne_pad {c : Char} (h : isUrlsafe c = true) : c ≠ '=' := by
  rintro rfl
  exact absurd h (by decide)

theorem isUrlsafe_ascii {c : Char} (h : isUrlsafe c = true) : c.toNat < 128 := by
  simp only [isUrlsafe, isAlnum, isLower, isUpper, isDigit, Bool.or_eq_true, Bool.and_eq_true,
    decide_eq_true_eq, beq_iff_eq] at h
  rcases h with (h | rfl) | rfl
  · omega
  · decide
  · decide

section Groups

variable {v : Nat} {l p : Nat} {cs : List Char}

theorem a2b_first (hv : v < 64) :
    a2bBase64 {} (urlsafeChar v :: cs) = a2bBase64 { pos := 1, left := v } cs := by
  rcases urlsafeChar_cases hv with ⟨hs, hsafe⟩
  rw [a2bBase64, if_neg (isUrlsafe_ne_pad hsafe), hs]
  rfl

theorem a2b_second (hv : v < 64) : a2bBase64 { pos := 1, left := l } (urlsafeChar v :: cs) =
    (a2bBase64 { pos := 2, left := v % 16 } cs).map (UInt8.ofNat (l * 4 + v / 16) :: ·) := by
  rcases urlsafeChar_cases hv with ⟨hs, hsafe⟩
  rw [a2bBase64, if_neg (isUrlsafe_ne_pad hsafe), hs]
  rfl

theorem a2b_third (hv : v < 64) : a2bBase64 { pos := 2, left := l } (urlsafeChar v :: cs) =
    (a2bBase64 { pos := 3, left := v % 4 } cs).map (UInt8.ofNat (l * 16 + v / 4) :: ·) := by
  rcases urlsafeChar_cases hv with ⟨hs, hsafe⟩
  rw [a2bBase64, if_neg (isUrlsafe_ne_pad hsafe), hs]
  rfl

theorem a2b_fourth (hv : v < 64) : a2bBase64 { pos := 3, left := l } (urlsafeChar v :: cs) =
    (a2bBase64 {} cs).map (UInt8.ofNat (l * 64 + v) :: ·) := by
  rcases urlsafeChar_cases hv with ⟨hs, hsafe⟩
  rw [a2bBase64, if_neg (isUrlsafe_ne_pad hsafe), hs]
  rfl

end Groups

theorem ofNat_eq {a : UInt8} {n : Nat} (h : n = a.toNat) : UInt8.ofNat n = a := by
  rw [h, UInt8.ofNat_toNat]

/-- A group of four characters is three bytes. -/
theorem a2bBase64_encode (bytes : List UInt8) :
    a2bBase64 {} (urlsafeB64encode bytes) = some bytes := by
  induction bytes using urlsafeB64encode.induct with
  | case1 => rfl
  | case2 a =>
    have ha := a.toNat_lt
    rw [urlsafeB64encode, a2b_first (by omega), a2b_second (by omega), ofNat_eq (a := a) (by omega)]
    rfl
  | case3 a b =>
    have ha := a.toNat_lt
    have hb := b.toNat_lt
    rw [urlsafeB64encode, a2b_first (by omega), a2b_second (by omega), a2b_third (by omega),
      ofNat_eq (a := a) (by omega), ofNat_eq (a := b) (by omega)]
    rfl
  | case4 a b c rest ih =>
    have ha := a.toNat_lt
    have hb := b.toNat_lt
    have hc := c.toNat_lt
    rw [urlsafeB64encode, a2b_first (by omega), a2b_second (by omega), a2b_third (by omega),
      a2b_fourth (by omega), ih, ofNat_eq (a := a) (by omega), ofNat_eq (a := b) (by omega),
      ofNat_eq (a := c) (by omega)]
    rfl

/-! ## Padding -/

/-- An encoding is characters of the alphabet and the pads that close the last group. -/
theorem encode_eq (bytes : List UInt8) : ∃ body k, urlsafeB64encode bytes =
    body ++ List.replicate k '=' ∧ (body.length + k) % 4 = 0 ∧ k < 4 ∧
      3 * (body.length + k) ≤ 4 * (bytes.length + 2) ∧ ∀ c ∈ body, isUrlsafe c = true := by
  have hsafe {v : Nat} (hv : v < 64) := (urlsafeChar_cases hv).2
  induction bytes using urlsafeB64encode.induct with
  | case1 => exact ⟨[], 0, rfl, rfl, by decide, by simp, by simp⟩
  | case2 a =>
    have ha := a.toNat_lt
    refine ⟨[urlsafeChar (a.toNat / 4), urlsafeChar (a.toNat % 4 * 16)], 2, rfl, by simp, by decide,
      by simp, ?_⟩
    intro c hc
    simp only [List.mem_cons, List.not_mem_nil, or_false] at hc
    rcases hc with rfl | rfl
    · exact hsafe (by omega)
    · exact hsafe (by omega)
  | case3 a b =>
    have ha := a.toNat_lt
    have hb := b.toNat_lt
    refine ⟨[urlsafeChar (a.toNat / 4), urlsafeChar (a.toNat % 4 * 16 + b.toNat / 16),
      urlsafeChar (b.toNat % 16 * 4)], 1, rfl, by simp, by decide, by simp, ?_⟩
    intro c hc
    simp only [List.mem_cons, List.not_mem_nil, or_false] at hc
    rcases hc with rfl | rfl | rfl
    · exact hsafe (by omega)
    · exact hsafe (by omega)
    · exact hsafe (by omega)
  | case4 a b c rest ih =>
    have ha := a.toNat_lt
    have hb := b.toNat_lt
    have hc := c.toNat_lt
    rcases ih with ⟨body, k, heq, hmod, hk, hlen, hbody⟩
    refine ⟨urlsafeChar (a.toNat / 4) :: urlsafeChar (a.toNat % 4 * 16 + b.toNat / 16) ::
      urlsafeChar (b.toNat % 16 * 4 + c.toNat / 64) :: urlsafeChar (c.toNat % 64) :: body, k, ?_,
      ?_, hk, ?_, ?_⟩
    · rw [urlsafeB64encode, heq]
      rfl
    · simp only [List.length_cons]
      omega
    · simp only [List.length_cons]
      omega
    · intro d hd
      simp only [List.mem_cons] at hd
      rcases hd with rfl | rfl | rfl | rfl | hd
      · exact hsafe (by omega)
      · exact hsafe (by omega)
      · exact hsafe (by omega)
      · exact hsafe (by omega)
      · exact hbody d hd

/-- Without its pads an encoding is characters of the alphabet, and it can be padded again. -/
theorem unpadded_encode (bytes : List UInt8) :
    padded (unpadded (urlsafeB64encode bytes)) = urlsafeB64encode bytes ∧
      3 * (unpadded (urlsafeB64encode bytes)).length ≤ 4 * (bytes.length + 2) ∧
      ∀ c ∈ unpadded (urlsafeB64encode bytes), isUrlsafe c = true := by
  rcases encode_eq bytes with ⟨body, k, heq, hmod, hk, hlen, hbody⟩
  have hunpadded : unpadded (urlsafeB64encode bytes) = body := by
    rw [heq, unpadded, List.rdropWhile, List.reverse_append, List.reverse_replicate,
      List.dropWhile_append_of_pos]
    · rw [dropWhile_eq_self, List.reverse_reverse]
      intro c hc
      simpa using isUrlsafe_ne_pad (hbody c (List.mem_reverse.1 hc))
    · intro c hc
      rw [List.eq_of_mem_replicate hc]
      rfl
  rw [hunpadded]
  refine ⟨?_, by omega, hbody⟩
  rw [heq, padded]
  congr 2
  omega

theorem urlsafeB64decode_padded (bytes : List UInt8) :
    urlsafeB64decode (padded (unpadded (urlsafeB64encode bytes))) = some bytes := by
  rw [(unpadded_encode bytes).1, urlsafeB64decode, if_pos, a2bBase64_encode]
  rcases encode_eq bytes with ⟨body, k, heq, -, -, -, hbody⟩
  rw [heq, List.all_append, Bool.and_eq_true, List.all_eq_true, List.all_eq_true]
  constructor
  · intro c hc
    exact decide_eq_true (isUrlsafe_ascii (hbody c hc))
  · intro c hc
    rw [List.eq_of_mem_replicate hc]
    decide

end GoAgent.Foundation
