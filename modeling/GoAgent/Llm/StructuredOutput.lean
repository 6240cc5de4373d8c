import GoAgent.Foundation.JsonWriting

/-!
# Structured output of a language model

`_parse_json_object` reads the object out of a response: it cuts out a thinking block, unwraps a
code fence and gives the rest to `json.loads`. Both clean-ups look for their markers in the whole
text, so they also find what is in a string.

* `returns_of_untouched` — text that the clean-ups leave alone is read as `json.loads` reads it.
* `textSize_cleaned` — what is cut out of a written object is part of what it needs.
* `returns_iff` — a written object is returned exactly when the clean-ups leave it alone.
-/

namespace GoAgent.Llm.StructuredOutput

open GoAgent.Foundation

abbrev Fields := List (List Nat × JsonValue)

inductive ParseError where
  | type (message : String)
  | value (message : String)
  /-- The `ValueError` of `int`, which is no `JSONDecodeError`. -/
  | digits
  | recursion
  | exhausted
  deriving DecidableEq

/-! ## Text -/

/-- `s.strip()` -/
def stripped (s : List Char) : List Char := (s.dropWhile isSpace).rdropWhile isSpace

/-- `str.lower` of a character, as far as the tags go: the lower case of any other character is one
character, and none of theirs. -/
def lowerChar (c : Char) : List Char :=
  if isUpper c then [Char.ofNat (c.toNat + 32)]
  else if c = '\u0130' then ['i', '\u0307']
  else if c = '\u212a' then ['k']
  else [c]

def lower (s : List Char) : List Char := s.flatMap lowerChar

/-- `s.find(part)` -/
def find (part : List Char) : List Char → Option Nat
  | [] => if part.isEmpty then some 0 else none
  | c :: cs => if part.isPrefixOf (c :: cs) then some 0 else (find part cs).map (· + 1)

/-- `s.find(part, start)` -/
def findFrom (part s : List Char) (start : Nat) : Option Nat :=
  (find part (s.drop start)).map (· + start)

def thinkTag : List Char := "<think>".toList

def endTag : List Char := "</think>".toList

/-- Where the thinking block starts in the lowered text. -/
def thinkStart (content : List Char) : Option Nat := find thinkTag (lower content)

/-- Where its end tag is. -/
def thinkEnd (content : List Char) (start : Nat) : Option Nat :=
  findFrom endTag (lower content) (start + thinkTag.length)

def removeExplicitThinkingBlock (content : List Char) : Except ParseError (List Char) :=
  match thinkStart content with
  | none => .ok content
  | some start =>
    match thinkEnd content start with
    | none => .error (.value "思考标签未闭合")
    | some stop => .ok (content.take start ++ content.drop (stop + endTag.length))

/-- Three backquotes. -/
def fence : List Char := List.replicate 3 '\x60'

/-- `(?:json)?`, in any case -/
def dropJson : List Char → List Char
  | j :: s :: o :: n :: rest =>
    if (j = 'j' ∨ j = 'J') ∧ (s = 's' ∨ s = 'S' ∨ s = '\u017f') ∧ (o = 'o' ∨ o = 'O') ∧
        (n = 'n' ∨ n = 'N') then rest
    else j :: s :: o :: n :: rest
  | s => s

/-- A whole text in a fence is unwrapped; the last fence of the text is the one that closes. -/
def removeJsonCodeFence (content : List Char) : Except ParseError (List Char) :=
  let whole := stripped content
  if fence.isPrefixOf whole ∧ fence.isSuffixOf whole ∧ 6 ≤ whole.length then
    .ok (stripped (dropJson ((whole.drop 3).take (whole.length - 6))))
  else if contains fence content then .error (.value "结构化响应包含无法识别的 Markdown 代码块")
  else .ok content

/-! ## The parser -/

inductive ContentPart where
  | str (s : List Char)
  /-- With what is under "text", when it is a `str`. -/
  | dict (text : Option (List Char))
  | other

inductive Content where
  | dict (fields : Fields)
  | list (parts : List ContentPart)
  | str (s : List Char)
  | other (typeName : String)

def joinTextParts : List ContentPart → Except ParseError (List Char)
  | [] => .ok []
  | .str s :: parts => do
    let rest ← joinTextParts parts
    .ok (s ++ rest)
  | .dict (some s) :: parts => do
    let rest ← joinTextParts parts
    .ok (s ++ rest)
  | _ => .error (.type "结构化响应包含无法识别的内容片段")

/-- `json.loads`, with what `_parse_json_object` makes of its answers -/
def loadObject (depth : Nat) (text : List Char) : Except ParseError Fields :=
  match loads depth text with
  | .ok (.obj fields) => .ok fields
  | .ok _ => .error (.type "结构化响应必须是 JSON object")
  | .error .decode => .error (.value "结构化响应不是合法 JSON object")
  | .error .digits => .error .digits
  | .error .recursion => .error .recursion
  | .error .exhausted => .error .exhausted

def parseText (depth : Nat) (content : List Char) : Except ParseError Fields := do
  let text ← removeExplicitThinkingBlock content
  let text ← removeJsonCodeFence (stripped text)
  loadObject depth text

def parseJsonObject (depth : Nat) : Content → Except ParseError Fields
  | .dict fields => .ok fields
  | .list parts => do
    let text ← joinTextParts parts
    parseText depth text
  | .str s => parseText depth s
  | .other typeName => .error (.type ("结构化响应内容不是 JSON object：" ++ typeName))

/-- What is returned for the text is the object. -/
def Returns (depth : Nat) (text : List Char) (d : Fields) : Prop :=
  ∃ fields, parseJsonObject depth (.str text) = .ok fields ∧
    (JsonValue.obj fields).normal = (JsonValue.obj d).normal

/-- The clean-ups find no fence, and no thinking block or one that is past the end: letters whose
lower case is longer move it there. -/
structure Untouched (text : List Char) : Prop where
  unfenced : contains fence text = false
  unthinking : thinkStart text = none ∨
    ∃ start stop, thinkStart text = some start ∧ thinkEnd text start = some stop ∧
      text.length ≤ start

/-! ## Text in braces -/

section Braces

variable {body s : List Char} {start stop : Nat}

/-- What starts with a brace starts with no white space and no fence. -/
theorem stripped_cons {c : Char} (hc : isSpace c = false) :
    stripped (c :: s) = (c :: s).rdropWhile isSpace := by
  rw [stripped, List.dropWhile_cons, hc, if_neg Bool.false_ne_true]

theorem stripped_braces : stripped ('\x7b' :: (body ++ ['\x7d'])) = '\x7b' :: (body ++ ['\x7d']) := by
  rw [stripped_cons (by decide), ← List.cons_append, List.rdropWhile_concat_neg]
  decide

theorem stripped_brace (h : s.head? = some '\x7b') :
    (stripped s).head? = some '\x7b' ∧ stripped (stripped s) = stripped s := by
  cases s with
  | nil => cases h
  | cons c s =>
    cases h
    have hfirst : stripped ('\x7b' :: s) = ('\x7b' :: s).rdropWhile isSpace :=
      stripped_cons (by decide)
    have hprefix : ('\x7b' :: s).rdropWhile isSpace <+: '\x7b' :: s := List.rdropWhile_prefix _ _
    cases hrest : ('\x7b' :: s).rdropWhile isSpace with
    | nil =>
      have hall := List.rdropWhile_eq_nil_iff.1 hrest '\x7b' List.mem_cons_self
      cases hall
    | cons d rest =>
      rw [hrest] at hprefix
      have hd : d = '\x7b' := (List.cons_prefix_cons.1 hprefix).1
      subst hd
      rw [hfirst, hrest]
      refine ⟨rfl, ?_⟩
      rw [stripped_cons (by decide), ← hrest, List.rdropWhile_idempotent]

theorem textSize_stripped : textSize (stripped s) ≤ textSize s := by
  have hsuffix : s.dropWhile isSpace <:+ s := List.dropWhile_suffix _
  have hprefix : stripped s <+: s.dropWhile isSpace := List.rdropWhile_prefix _ _
  rcases hsuffix with ⟨a, ha⟩
  rcases hprefix with ⟨b, hb⟩
  have hright : textSize (stripped s) ≤ textSize (stripped s ++ b) := textSize_le_append_right
  have hleft : textSize (s.dropWhile isSpace) ≤ textSize (a ++ s.dropWhile isSpace) :=
    textSize_le_append_left
  rw [hb] at hright
  rw [ha] at hleft
  exact hright.trans hleft

theorem mem_stripped {c : Char} (h : c ∈ stripped s) : c ∈ s :=
  (List.dropWhile_sublist _).subset ((List.rdropWhile_prefix _ _).subset h)

theorem removeJsonCodeFence_brace (hhead : s.head? = some '\x7b') (hs : stripped s = s) :
    removeJsonCodeFence s = if contains fence s then
      .error (.value "结构化响应包含无法识别的 Markdown 代码块") else .ok s := by
  have hprefix : fence.isPrefixOf s = false := by
    cases s with
    | nil => cases hhead
    | cons c s =>
      cases hhead
      rfl
  unfold removeJsonCodeFence
  dsimp only
  rw [hs, hprefix, if_neg]
  exact fun h => Bool.false_ne_true h.1

/-- The thinking block of a text in braces does not start at the brace. -/
theorem thinkStart_pos (h : thinkStart ('\x7b' :: s) = some start) : 0 < start := by
  have hlower : lower ('\x7b' :: s) = '\x7b' :: lower s := rfl
  rw [thinkStart, hlower, find] at h
  have hprefix : thinkTag.isPrefixOf ('\x7b' :: lower s) = false := rfl
  rw [ hprefix, if_neg Bool.false_ne_true] at h
  rcases Option.map_eq_some_iff.1 h with ⟨n, -, rfl⟩
  exact Nat.succ_pos n

theorem thinkEnd_ge (h : thinkEnd s start = some stop) : start + 7 ≤ stop := by
  rcases Option.map_eq_some_iff.1 h with ⟨n, -, rfl⟩
  exact Nat.le_add_left _ _

/-- A block that is cut out of a text in braces makes it smaller. -/
theorem textSize_cleaned {text : List Char} (htext : text = '\x7b' :: (body ++ ['\x7d']))
    (hstart : start < text.length) (hstop : start + 7 ≤ stop) :
    textSize (text.take start ++ text.drop (stop + endTag.length)) < textSize text := by
  have hend : endTag.length = 8 := rfl
  have hsplit : text.take start ++ text.drop start = text := List.take_append_drop _ _
  by_cases hlong : stop + endTag.length ≤ text.length
  · -- both tags are cut out
    have hmid : (text.drop start).take (stop + endTag.length - start) ++
        text.drop (stop + endTag.length) = text.drop start := by
      have htake := List.take_append_drop (stop + endTag.length - start) (text.drop start)
      rwa [List.drop_drop, Nat.add_sub_of_le (by omega)] at htake
    have hlen : 5 ≤ ((text.drop start).take (stop + endTag.length - start)).length := by
      rw [List.length_take, List.length_drop]
      omega
    have hcut := textSize_cut (a := text.take start) (r := text.drop (stop + endTag.length)) hlen
    rwa [hmid, hsplit] at hcut
  · -- the cut goes to the end, where the closing brace is
    have hnil : text.drop (stop + endTag.length) = [] :=
      List.drop_eq_nil_of_le (by omega)
    have hlast : text.drop start = ('\x7b' :: body).drop start ++ ['\x7d'] := by
      have hle : start ≤ ('\x7b' :: body).length := by
        rw [htext] at hstart
        simp only [List.length_cons, List.length_append, List.length_nil] at hstart ⊢
        omega
      rw [htext, ← List.cons_append, List.drop_append_of_le_length hle]
    have hcut := textSize_cut_end (a := text.take start) (b := ('\x7b' :: body).drop start)
      (show '\x7d' ≠ ' ' by decide)
    rw [← hlast, hsplit] at hcut
    rwa [hnil, List.append_nil]

end Braces

/-! ## Plain JSON text -/

section Plain

variable {depth : Nat} {d : Fields} {text body : List Char}

theorem loadObject_ok {fields : Fields} (h : loadObject depth text = .ok fields) :
    loads depth text = .ok (.obj fields) := by
  unfold loadObject at h
  split at h
  · rename_i hloads
    cases h
    exact hloads
  all_goals cases h

theorem removed_of_unthinking (h : Untouched text) : removeExplicitThinkingBlock text = .ok text := by
  unfold removeExplicitThinkingBlock
  rcases h.unthinking with hnone | ⟨start, stop, hstart, hstop, hlen⟩
  · rw [hnone]
  · have hge := thinkEnd_ge hstop
    rw [hstart]
    dsimp only
    rw [hstop]
    dsimp only
    rw [List.take_of_length_le hlen, List.drop_eq_nil_of_le (by omega), List.append_nil]

/-- Text that the clean-ups leave alone is read as it stands. -/
theorem returns_of_untouched (htext : text = '\x7b' :: (body ++ ['\x7d']))
    (hplain : loads depth text = .ok (.obj d)) (h : Untouched text) : Returns depth text d := by
  refine ⟨d, ?_, rfl⟩
  have hstripped : stripped text = text := by
    rw [htext]
    exact stripped_braces
  have hhead : text.head? = some '\x7b' := by rw [htext]; rfl
  have hload : loadObject depth text = .ok d := by rw [loadObject, hplain]
  have hfence : removeJsonCodeFence text = .ok text := by
    rw [removeJsonCodeFence_brace hhead hstripped, h.unfenced, if_neg Bool.false_ne_true]
  show parseText depth text = .ok d
  rw [parseText, removed_of_unthinking h, ok_bind, hstripped, hfence, ok_bind, hload]

/-- What `_parse_json_object` returns is what `json.loads` makes of a part of the text, which is the
text itself when the clean-ups leave it alone and is smaller when they do not. -/
theorem loaded_of_returns (htext : text = '\x7b' :: (body ++ ['\x7d'])) {fields : Fields}
    (h : parseJsonObject depth (.str text) = .ok fields) (htouched : ¬Untouched text) :
    ∃ part, loads depth part = .ok (.obj fields) ∧ textSize part < textSize text ∧
      ∀ c ∈ part, c ∈ text := by
  have hparse : parseText depth text = .ok fields := h
  rw [parseText, except_bind_ok] at hparse
  rcases hparse with ⟨cleaned, hcleaned, hparse⟩
  rw [except_bind_ok] at hparse
  rcases hparse with ⟨part, hpart, hparse⟩
  have hload := loadObject_ok hparse
  -- with a brace before it nothing is unwrapped
  have hunwrapped (hhead : cleaned.head? = some '\x7b') :
      contains fence (stripped cleaned) = false ∧ part = stripped cleaned := by
    rcases stripped_brace hhead with ⟨hhead', hidem⟩
    rw [removeJsonCodeFence_brace hhead' hidem] at hpart
    split_ifs at hpart with hfence
    cases hpart
    exact ⟨Bool.eq_false_iff.2 hfence, rfl⟩
  have hhead : text.head? = some '\x7b' := by rw [htext]; rfl
  have hstripped : stripped text = text := by
    rw [htext]
    exact stripped_braces
  unfold removeExplicitThinkingBlock at hcleaned
  cases hstart : thinkStart text with
  | none =>
    rw [hstart] at hcleaned
    cases hcleaned
    rcases hunwrapped hhead with ⟨hfence, -⟩
    rw [hstripped] at hfence
    exact (htouched ⟨hfence, .inl hstart⟩).elim
  | some start =>
    rw [hstart] at hcleaned
    dsimp only at hcleaned
    cases hstop : thinkEnd text start with
    | none =>
      rw [hstop] at hcleaned
      cases hcleaned
    | some stop =>
      rw [hstop] at hcleaned
      cases hcleaned
      have hge := thinkEnd_ge hstop
      by_cases hlen : text.length ≤ start
      · -- the block is past the end
        have hsame : text.take start ++ text.drop (stop + endTag.length) = text := by
          rw [List.take_of_length_le hlen, List.drop_eq_nil_of_le (by omega), List.append_nil]
        rw [hsame] at hunwrapped
        rcases hunwrapped hhead with ⟨hfence, -⟩
        rw [hstripped] at hfence
        exact (htouched ⟨hfence, .inr ⟨start, stop, hstart, hstop, hlen⟩⟩).elim
      · have hpos : 0 < start := by
          rw [htext] at hstart
          exact thinkStart_pos hstart
        have hcut : (text.take start ++ text.drop (stop + endTag.length)).head? = some '\x7b' := by
          rw [htext, ← Nat.succ_pred_eq_of_pos hpos]
          rfl
        rcases hunwrapped hcut with ⟨-, hpart'⟩
        refine ⟨part, hload, ?_, ?_⟩
        · rw [hpart']
          exact lt_of_le_of_lt textSize_stripped
            (textSize_cleaned htext (Nat.not_le.1 hlen) hge)
        · intro c hc
          rw [hpart'] at hc
          rcases List.mem_append.1 (mem_stripped hc) with hc | hc
          · exact List.mem_of_mem_take hc
          · exact List.mem_of_mem_drop hc

variable {k : JsonStyle}

/-- **Plain JSON.** The text a writer writes of an object is read as the object exactly when the
clean-ups leave it alone. -/
theorem returns_iff (hk : k.Tight) (hd : (JsonValue.obj d).WellFormed)
    (hplain : loads depth ((JsonValue.obj d).write k) = .ok (.obj d)) :
    Returns depth ((JsonValue.obj d).write k) d ↔ Untouched ((JsonValue.obj d).write k) := by
  have htext : (JsonValue.obj d).write k = '\x7b' :: (writeFields k d ++ ['\x7d']) := rfl
  constructor
  · rintro ⟨fields, hfields, hequal⟩
    by_contra htouched
    rcases loaded_of_returns htext hfields htouched with ⟨part, hload, hsmaller, hchars⟩
    have hsize := textSize_write_le hk hd hchars hload hequal
    omega
  · intro h
    exact returns_of_untouched htext hplain h

theorem JsonStyle.Tight.spaced (hk : k.Tight) : k.Spaced where
  item := by
    rcases hk.item with h | h
    · exact ⟨[], h, fun _ hc => nomatch hc⟩
    · exact ⟨[' '], h, fun c hc => by rw [List.mem_singleton.1 hc]; rfl⟩
  key := by
    rcases hk.key with h | h
    · exact ⟨[], h, fun _ hc => nomatch hc⟩
    · exact ⟨[' '], h, fun c hc => by rw [List.mem_singleton.1 hc]; rfl⟩

/-- What `json.dumps` writes is plain JSON text. -/
theorem returns_dumps_iff (hk : k.Tight) {fields : List (String × Json)}
    (hfields : (Json.obj fields).Readable depth) (hd : (Json.obj fields).value.WellFormed) :
    Returns depth ((Json.obj fields).dumps k) (fieldValues fields) ↔
      Untouched ((Json.obj fields).dumps k) := by
  have hplain := loads_dumps (JsonStyle.Tight.spaced hk) hfields
  rw [← write_value] at hplain ⊢
  exact returns_iff hk hd hplain

end Plain

/-! ## A tag in a string -/

/-- `json.dumps` as it is called without options. -/
theorem tight_default : ({} : JsonStyle).Tight where
  item := .inr rfl
  key := .inr rfl

def tagged (s : String) : Fields := [(codePoints "a", .str (codePoints s))]

theorem wellFormed_tagged (s : String) : (JsonValue.obj (tagged s)).WellFormed := by
  refine .obj (List.nodup_singleton _) fun f hf => ?_
  rw [List.mem_singleton.1 hf]
  exact .str _

theorem returns_plain : Returns 9 "\x7b\"a\": \"x\"\x7d".toList (tagged "x") :=
  (returns_iff tight_default (wellFormed_tagged "x") rfl).2 ⟨rfl, .inl rfl⟩

/-- `{"a": "<think>x</think>"}` is read as `{"a": ""}`. -/
theorem thinking_in_string_lost : ¬∀ (k : JsonStyle) (depth : Nat) (d : Fields), k.Tight →
    (JsonValue.obj d).WellFormed → loads depth ((JsonValue.obj d).write k) = .ok (.obj d) →
      Returns depth ((JsonValue.obj d).write k) d := by
  intro h
  have hreturns := h {} 9 (tagged "<think>x</think>") tight_default (wellFormed_tagged _) rfl
  rcases hreturns with ⟨fields, hfields, hequal⟩
  have hread : parseJsonObject 9 (.str ((JsonValue.obj (tagged "<think>x</think>")).write {})) =
      .ok (tagged "") := by rfl
  rw [hread] at hfields
  cases hfields
  have hsize := congrArg (JsonValue.leastSize true) hequal
  exact absurd hsize (by decide)

example : parseJsonObject 9 (.str ((JsonValue.obj (tagged "```")).write {})) =
    .error (.value "结构化响应包含无法识别的 Markdown 代码块") := by rfl

end GoAgent.Llm.StructuredOutput
