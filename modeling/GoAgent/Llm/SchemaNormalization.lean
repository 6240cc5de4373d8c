import GoAgent.Foundation.JsonNesting
import GoAgent.Llm.ThinkingBlock

/-!
# Normalising a response to its schema

`SchemaAwareJsonStructuredOutputNormalizer` takes the object of a response, or the one that it holds
under the name of the schema, and has the schema validate it.

* `parseText_marked` — text around a JSON text that brings no mark does not change what is cleaned.
* `unwrap_plain`, `unwrap_wrapped` — what the wrapper heuristics make of an object.
* `normalize_eq` — plain, fenced and wrapped text come to one value.
-/

namespace GoAgent.Llm.StructuredOutput

open GoAgent.Foundation

/-! ## The normaliser -/

/-- A `BaseModel` class: its name, the names of `model_fields`, and `model_validate`. -/
structure OutputSchema (V E : Type) where
  name : String
  modelFields : List String
  modelValidate : Fields → Except E V

inductive NormalizeError (E : Type) where
  | parse (error : ParseError)
  | value (message : String)
  | invalid (error : E)

/-- `re.sub(r"(?<!^)(?=[A-Z])", "_", name)` -/
def underscored : List Char → List Char
  | [] => []
  | c :: cs => c :: cs.flatMap fun d => if isUpper d then ['_', d] else [d]

section Normalizer

variable {V E : Type} (strLower : List Char → List Char) (schema : OutputSchema V E)

/-- `snake_name` -/
def snakeName : String := String.ofList (strLower (underscored schema.name.toList))

def schemaWrapperKeys : List String := [snakeName strLower schema, schema.name]

/-- `key in data` -/
def hasKey (data : Fields) (key : String) : Bool := data.any fun f => f.1 = codePoints key

def isDict : JsonValue → Bool
  | .obj _ => true
  | _ => false

def looksLikeUnknownWrapper (data : Fields) : Bool :=
  if data.isEmpty || schema.modelFields.any (hasKey data) then false
  else (lastFields data).all fun f => isDict f.2

/-- The object that is validated. -/
def unwrap (data : Fields) : Except (NormalizeError E) Fields :=
  match (schemaWrapperKeys strLower schema).filter (hasKey data) with
  | [] =>
    if looksLikeUnknownWrapper schema data then
      .error (.value "响应包含无法依据目标 Schema 确定的包装对象")
    else .ok data
  | [wrapperKey] =>
    if (lastFields data).length ≠ 1 then .error (.value "Schema 包装对象包含额外顶层字段")
    else match JsonValue.field data (codePoints wrapperKey) with
      | some (.obj wrapped) => .ok wrapped
      | _ => .error (.value ("Schema 包装字段不是 JSON object：" ++ wrapperKey))
  | _ => .error (.value "响应包含多个目标 Schema 包装对象")

def normalize (depth : Nat) (content : Content) : Except (NormalizeError E) V := do
  let data ← (parseJsonObject depth content).mapError .parse
  let data ← unwrap strLower schema data
  (schema.modelValidate data).mapError .invalid

end Normalizer

/-! ## Searches -/

section Searches

variable {part s p q : List Char}

theorem find_eq_none_iff (hpart : part ≠ []) : find part s = none ↔ ¬part <:+: s := by
  induction s with
  | nil =>
    rw [find, if_neg (by simpa using hpart)]
    simpa using hpart
  | cons c s ih =>
    rw [find, List.infix_cons_iff]
    by_cases hprefix : part.isPrefixOf (c :: s) = true
    · rw [if_pos hprefix]
      have hin := List.isPrefixOf_iff_prefix.1 hprefix
      exact ⟨fun h => absurd h (Option.some_ne_none 0), fun h => (h (.inl hin)).elim⟩
    · rw [if_neg hprefix, Option.map_eq_none_iff, ih, not_or]
      rw [List.isPrefixOf_iff_prefix] at hprefix
      exact ⟨fun h => ⟨ hprefix, h⟩, fun h => h.2⟩

theorem contains_eq_false_iff : contains part s = false ↔ ¬part <:+: s := by
  rw [contains, List.any_eq_false]
  constructor
  · intro h hin
    rcases hin with ⟨a, b, hab⟩
    apply h (part ++ b)
    · rw [List.mem_tails, ← hab, List.append_assoc]
      exact List.suffix_append a _
    · rw [List.isPrefixOf_iff_prefix]
      exact List.prefix_append part b
  · intro h t ht hprefix
    rw [List.mem_tails] at ht
    rw [List.isPrefixOf_iff_prefix] at hprefix
    exact h ( hprefix.isInfix.trans ht.isInfix)

/-- A marker does not reach into text that has none of its characters. -/
theorem infix_append_right (hpart : part ≠ []) (hq : ∀ c ∈ q, c ∉ part)
    (h : part <:+: s ++ q) : part <:+: s := by
  rcases h with ⟨a, b, hab⟩
  rw [List.append_assoc, List.append_eq_append_iff] at hab
  rcases hab with ⟨t, hs, ht⟩ | ⟨t, ha, ht⟩
  · -- it starts in `s`
    rw [List.append_eq_append_iff] at ht
    rcases ht with ⟨u, ht, hb⟩ | ⟨u, hu, hq'⟩
    · exact ⟨a, u, by rw [hs, ht, List.append_assoc]⟩
    · cases u with
      | nil =>
        rw [List.append_nil] at hu
        exact ⟨a, [], by rw [hs, hu, List.append_nil]⟩
      | cons c u =>
        have hc : c ∈ part := by
          rw [hu]
          exact List.mem_append_right _ List.mem_cons_self
        have hcq : c ∈ q := by
          rw [hq']
          exact List.mem_cons_self
        exact (hq c hcq hc).elim
  · -- it starts behind `s`
    cases part with
    | nil => exact absurd rfl hpart
    | cons c part =>
      have hcq : c ∈ q := by
        rw [ht]
        exact List.mem_append_right _ List.mem_cons_self
      exact (hq c hcq List.mem_cons_self).elim

/-- A marker does not start in text without its first character. -/
theorem infix_append_left {m : Char} {t : List Char} (hp : m ∉ p) (h : m :: t <:+: p ++ s) :
    m :: t <:+: s := by
  rcases h with ⟨a, b, hab⟩
  rw [List.append_assoc, List.append_eq_append_iff] at hab
  rcases hab with ⟨u, hs, hu⟩ | ⟨u, ha, hu⟩
  · cases u with
    | nil => exact ⟨[], b, by rw [List.nil_append, hu, List.nil_append]⟩
    | cons c u =>
      have hc : m = c := (List.cons.inj hu).1
      apply absurd _ hp
      rw [hs, hc]
      exact List.mem_append_right _ List.mem_cons_self
  · exact ⟨u, b, by rw [hu, List.append_assoc]⟩

end Searches

/-! ## Text without marks -/

/-- The clean-ups find nothing in the text. -/
structure Unmarked (text : List Char) : Prop where
  unfenced : contains fence text = false
  unthinking : thinkStart text = none

/-- Text with no character that a mark starts with. -/
def Plain (s : List Char) : Prop := ∀ c ∈ s, c ≠ '<' ∧ c ≠ '\x60'

section Marks

variable {s p q a b body text : List Char} {depth : Nat} {d : Fields}

theorem plain_append (hp : Plain p) (hq : Plain q) : Plain (p ++ q) := by
  intro c hc
  rcases List.mem_append.1 hc with h | h
  · exact hp c h
  · exact hq c h

theorem notMem_lower (hp : '<' ∉ p) : '<' ∉ lower p := by
  intro hmem
  rcases List.mem_flatMap.1 hmem with ⟨c, hc, hlower⟩
  unfold lowerChar at hlower
  split_ifs at hlower with hupper
  · have hrange : 65 ≤ c.toNat ∧ c.toNat ≤ 90 := by simpa [isUpper] using hupper
    have hletters : ∀ n < 26, Char.ofNat (n + 97) ≠ '<' := by decide
    apply hletters (c.toNat - 65) (by omega)
    rw [show c.toNat - 65 + 97 = c.toNat + 32 by omega]
    exact (List.mem_singleton.1 hlower).symm
  · exact absurd hlower (by decide)
  · exact absurd hlower (by decide)
  · rw [← List.mem_singleton.1 hlower] at hc
    exact hp hc

theorem thinkStart_around (hs : thinkStart s = none) (hp : '<' ∉ p)
    (hq : ∀ c ∈ lower q, c ∉ thinkTag) : thinkStart (p ++ (s ++ q)) = none := by
  have htag : thinkTag ≠ [] := by decide
  rw [thinkStart, find_eq_none_iff htag] at hs ⊢
  rw [lower_append, lower_append]
  intro hin
  exact hs (infix_append_right htag hq (infix_append_left (notMem_lower hp) hin))

theorem unfenced_around (hs : contains fence s = false) (hp : '\x60' ∉ p) (hq : '\x60' ∉ q) :
    contains fence (p ++ (s ++ q)) = false := by
  rw [contains_eq_false_iff] at hs ⊢
  intro hin
  have hright : fence <:+: s ++ q := infix_append_left hp hin
  refine hs (infix_append_right (by decide) ?_ hright)
  intro c hc hmem
  rw [List.eq_of_mem_replicate hmem] at hc
  exact hq hc

/-- White space around a text that starts and ends with something else is taken away. -/
theorem stripped_around {c e : Char} (hc : isSpace c = false) (he : isSpace e = false)
    (ha : ∀ x ∈ a, isSpace x = true) (hb : ∀ x ∈ b, isSpace x = true) :
    stripped (a ++ (c :: (body ++ e :: b))) = c :: (body ++ [e]) := by
  have hleft : (a ++ (c :: (body ++ e :: b))).dropWhile isSpace = c :: (body ++ e :: b) := by
    rw [List.dropWhile_append_of_pos ha, List.dropWhile_cons, hc, if_neg Bool.false_ne_true]
  have hreverse : (c :: (body ++ e :: b)).reverse = b.reverse ++ e :: (c :: body).reverse := by
    simp only [List.reverse_cons, List.reverse_append, List.append_assoc, List.cons_append,
      List.nil_append]
  have hdrop : (b.reverse ++ e :: (c :: body).reverse).dropWhile isSpace =
      e :: (c :: body).reverse := by
    rw [List.dropWhile_append_of_pos (fun x hx => hb x (List.mem_reverse.1 hx)),
      List.dropWhile_cons, he, if_neg Bool.false_ne_true]
  rw [stripped, hleft, List.rdropWhile, hreverse, hdrop, List.reverse_cons, List.reverse_reverse,
    List.cons_append]

theorem isSpace_of_isJsonSpace {c : Char} (h : isJsonSpace c = true) : isSpace c = true := by
  simp only [isJsonSpace, Bool.or_eq_true, beq_iff_eq] at h
  rcases h with ((rfl | rfl) | rfl) | rfl <;> rfl

/-- What is left of the text of an object when its white space is taken away. -/
structure Core (depth : Nat) (core : List Char) (d : Fields) : Prop where
  head : core.head? = some '\x7b'
  stripped_eq : stripped core = core
  unfenced : contains fence core = false
  loaded : ∀ depth', depth ≤ depth' → loads depth' core = .ok (.obj d)

theorem core_of_loads (h : Unmarked text) (hload : loads depth text = .ok (.obj d)) :
    ∃ core, Core depth core d ∧ text.head? ≠ some 'j' ∧ text.head? ≠ some 'J' ∧
      ∀ a b, (∀ c ∈ a, isSpace c = true) → (∀ c ∈ b, isSpace c = true) →
        stripped (a ++ (text ++ b)) = core := by
  rcases loads_object hload with ⟨a', body, b', ha', hb', rfl, hread⟩
  have hstripped (a b : List Char) (ha : ∀ c ∈ a, isSpace c = true)
      (hb : ∀ c ∈ b, isSpace c = true) :
      stripped (a ++ (a' ++ '\x7b' :: (body ++ '\x7d' :: b') ++ b)) =
        '\x7b' :: (body ++ ['\x7d']) := by
    have hassoc : a ++ (a' ++ '\x7b' :: (body ++ '\x7d' :: b') ++ b) =
        (a ++ a') ++ '\x7b' :: (body ++ '\x7d' :: (b' ++ b)) := by
      simp only [List.append_assoc, List.cons_append]
    rw [hassoc]
    apply stripped_around (by decide) (by decide)
    · intro c hc
      rcases List.mem_append.1 hc with hc | hc
      · exact ha c hc
      · exact isSpace_of_isJsonSpace (ha' c hc)
    · intro c hc
      rcases List.mem_append.1 hc with hc | hc
      · exact isSpace_of_isJsonSpace (hb' c hc)
      · exact hb c hc
  have hhead (c : Char) (hc : isJsonSpace c = false) (hbrace : c ≠ '\x7b') :
      (a' ++ '\x7b' :: (body ++ '\x7d' :: b')).head? ≠ some c := by
    cases a' with
    | nil =>
      intro hopen
      exact hbrace (Option.some.inj hopen).symm
    | cons x a' =>
      intro hspace
      have hx := ha' x List.mem_cons_self
      rw [Option.some.inj hspace, hc] at hx
      cases hx
  refine ⟨'\x7b' :: (body ++ ['\x7d']), ⟨rfl, stripped_braces, ?_, ?_⟩,
    hhead _ (by decide) (by decide), hhead _ (by decide) (by decide), hstripped⟩
  · have hunfenced := h.unfenced
    rw [contains_eq_false_iff] at hunfenced ⊢
    intro hin
    apply hunfenced
    have hassoc : a' ++ '\x7b' :: (body ++ '\x7d' :: b') =
        a' ++ '\x7b' :: (body ++ ['\x7d']) ++ b' := by
      simp only [List.append_assoc, List.cons_append, List.nil_append]
    rw [hassoc]
    exact hin.trans (List.infix_append a' _ b')
  · intro depth' hdepth
    exact loads_braces (hread depth' hdepth [])

/-- What is left of the text of an object is read as the object. -/
theorem parseText_core {core : List Char} (h : Core depth core d) {depth' : Nat}
    (hdepth : depth ≤ depth') {cleaned : List Char} (htext : thinkStart text = none)
    (hcleaned : removeJsonCodeFence (stripped text) = .ok cleaned) (hcore : cleaned = core) :
    parseText depth' text = .ok d := by
  have hthink : removeExplicitThinkingBlock text = .ok text := by
    rw [removeExplicitThinkingBlock, htext]
  rw [parseText, hthink, ok_bind, hcleaned, ok_bind, hcore, loadObject, h.loaded depth' hdepth]

theorem parseText_unmarked (h : Unmarked text) (hload : loads depth text = .ok (.obj d))
    {depth' : Nat} (hdepth : depth ≤ depth') : parseText depth' text = .ok d := by
  rcases core_of_loads h hload with ⟨core, hcore, -, -, hstripped⟩
  have htext : stripped text = core := by
    have hempty := hstripped [] [] (fun _ hc => nomatch hc) (fun _ hc => nomatch hc)
    rwa [List.nil_append, List.append_nil] at hempty
  apply parseText_core hcore hdepth h.unthinking _ rfl
  rw [htext, removeJsonCodeFence_brace hcore.head hcore.stripped_eq, hcore.unfenced,
    if_neg Bool.false_ne_true]

/-! ## A code fence -/

/-- A text in a code fence; the label is `json` in any case, or none. -/
def fenced (label a text b : List Char) : List Char :=
  fence ++ (label ++ (a ++ (text ++ b))) ++ fence

theorem label_cases {label : List Char} (h : dropJson label = []) :
    label = [] ∨ ∃ j s o n, label = [j, s, o, n] ∧ (j = 'j' ∨ j = 'J') ∧
      (s = 's' ∨ s = 'S' ∨ s = '\u017f') ∧ (o = 'o' ∨ o = 'O') ∧ (n = 'n' ∨ n = 'N') := by
  unfold dropJson at h
  split at h
  · split_ifs at h with hjson
    rw [h]
    exact .inr ⟨_, _, _, _, rfl, hjson⟩
  · exact .inl h

theorem label_opens {label : List Char} (h : dropJson label = []) : '<' ∉ label := by
  rcases label_cases h with rfl | ⟨j, s, o, n, rfl, hj, hs, ho, hn⟩
  · exact fun hc => nomatch hc
  · intro hc
    simp only [List.mem_cons, List.not_mem_nil, or_false] at hc
    rcases hc with rfl | rfl | rfl | rfl
    · rcases hj with h | h <;> cases h
    · rcases hs with h | h | h <;> cases h
    · rcases ho with h | h <;> cases h
    · rcases hn with h | h <;> cases h

/-- The label is dropped, and nothing else. -/
theorem dropJson_label {label : List Char} (h : dropJson label = []) (hj : s.head? ≠ some 'j')
    (hJ : s.head? ≠ some 'J') : dropJson (label ++ s) = s := by
  rcases label_cases h with rfl | ⟨j, t, o, n, rfl, hjson⟩
  · rw [List.nil_append]
    unfold dropJson
    split
    · rw [if_neg]
      rintro ⟨rfl | rfl, -⟩
      · exact hj rfl
      · exact hJ rfl
    · rfl
  · exact if_pos hjson

/-- White space is its own lower case. -/
theorem lower_space (ha : ∀ c ∈ a, isSpace c = true) : lower a = a := by
  induction a with
  | nil => rfl
  | cons c a ih =>
    have hc := ha c List.mem_cons_self
    have hcons : lower (c :: a) = lowerChar c ++ lower a := rfl
    have hchar : lowerChar c = [c] := by
      unfold lowerChar
      split_ifs with hupper hdot hkelvin
      · have hrange : 65 ≤ c.toNat ∧ c.toNat ≤ 90 := by simpa [isUpper] using hupper
        simp only [isSpace, Bool.or_eq_true, Bool.and_eq_true, decide_eq_true_eq, beq_iff_eq] at hc
        omega
      · subst hdot
        cases hc
      · subst hkelvin
        cases hc
      · rfl
    rw [hcons, hchar, ih fun x hx => ha x (List.mem_cons_of_mem _ hx)]
    rfl

theorem thinkStart_fenced (h : thinkStart text = none) {label : List Char}
    (hlabel : dropJson label = []) (ha : ∀ c ∈ a, isSpace c = true)
    (hb : ∀ c ∈ b, isSpace c = true) : thinkStart (fenced label a text b) = none := by
  have hassoc : fenced label a text b = (fence ++ label ++ a) ++ (text ++ (b ++ fence)) := by
    simp only [fenced, List.append_assoc]
  rw [hassoc]
  apply thinkStart_around h
  · intro hc
    rcases List.mem_append.1 hc with hc | hc
    · rcases List.mem_append.1 hc with hc | hc
      · exact absurd hc (by decide)
      · exact label_opens hlabel hc
    · have hspace := ha _ hc
      cases hspace
  · intro c hc htag
    rw [lower_append, lower_space hb] at hc
    rcases List.mem_append.1 hc with hc | hc
    · have hspace := hb c hc
      have hall : thinkTag.all (fun c => !isSpace c) = true := by decide
      have hc' := List.all_eq_true.1 hall c htag
      rw [hspace] at hc'
      cases hc'
    · have hall : (lower fence).all (fun c => !thinkTag.contains c) = true := by decide
      have hc' := List.all_eq_true.1 hall c hc
      rw [List.contains_iff_mem.2 htag] at hc'
      cases hc'

/-- A fence is unwrapped. -/
theorem removeJsonCodeFence_fenced {label core : List Char} (hlabel : dropJson label = [])
    (hj : (a ++ (text ++ b)).head? ≠ some 'j')
    (hJ : (a ++ (text ++ b)).head? ≠ some 'J') (hcore : stripped (a ++ (text ++ b)) = core) :
    removeJsonCodeFence (stripped (fenced label a text b)) = .ok core := by
  let inner := label ++ (a ++ (text ++ b))
  have hinner : fenced label a text b = fence ++ inner ++ fence := rfl
  have hends : fence ++ inner ++ fence =
      [] ++ '\x60' :: (['\x60', '\x60'] ++ inner ++ ['\x60', '\x60'] ++ '\x60' :: []) := by
    simp [fence, List.replicate]
  have hstripped : stripped (fence ++ inner ++ fence) = fence ++ inner ++ fence := by
    have hnil : ∀ c ∈ ([] : List Char), isSpace c = true := fun _ hc => nomatch hc
    rw [hends, stripped_around (by decide) (by decide) hnil hnil]
    rfl
  have hlength : (fence ++ inner ++ fence).length = inner.length + 6 := by
    simp only [fence, List.length_append, List.length_replicate]
    omega
  have hdrop : (fence ++ inner ++ fence).drop 3 = inner ++ fence := by
    rw [List.append_assoc]
    rfl
  rw [hinner, hstripped, removeJsonCodeFence, hstripped, if_pos, hlength, hdrop, Nat.add_sub_cancel, List.take_left,
    dropJson_label hlabel hj hJ, hcore]
  refine ⟨?_, ?_, ?_⟩
  · rw [List.isPrefixOf_iff_prefix, List.append_assoc]
    exact List.prefix_append fence _
  · rw [List.isSuffixOf_iff_suffix]
    exact List.suffix_append _ fence
  · rw [hlength]
    exact Nat.le_add_left 6 _

theorem parseText_fenced (h : Unmarked text) (hload : loads depth text = .ok (.obj d))
    {depth' : Nat} (hdepth : depth ≤ depth') {label : List Char} (hlabel : dropJson label = [])
    (ha : ∀ c ∈ a, isSpace c = true) (hb : ∀ c ∈ b, isSpace c = true) :
    parseText depth' (fenced label a text b) = .ok d := by
  rcases core_of_loads h hload with ⟨core, hcore, hj, hJ, hstripped⟩
  have hhead (c : Char) (hc : isSpace c = false) (htext : text.head? ≠ some c) :
      (a ++ (text ++ b)).head? ≠ some c := by
    cases a with
    | nil =>
      cases text with
      | nil =>
        have hnil := hcore.head
        rw [← hstripped [] [] (fun _ hc => nomatch hc) (fun _ hc => nomatch hc)] at hnil
        cases hnil
      | cons x text => exact htext
    | cons x a =>
      intro hx
      have hspace := ha x List.mem_cons_self
      rw [Option.some.inj hx, hc] at hspace
      cases hspace
  exact parseText_core hcore hdepth (thinkStart_fenced h.unthinking hlabel ha hb)
    (removeJsonCodeFence_fenced hlabel (hhead 'j' (by decide) hj) (hhead 'J' (by decide) hJ)
      (hstripped a b ha hb)) rfl

/-! ## A wrapper -/

theorem plain_escapeChar (ensureAscii : Bool) {c : Char} (hc : c ≠ '<' ∧ c ≠ '\x60') :
    Plain (escapeChar ensureAscii c) := by
  have hhex (n : Nat) : Plain (unicodeEscape n) := by
    intro e he
    have hdigits : ∀ d < 16, hexDigit d ≠ '<' ∧ hexDigit d ≠ '\x60' := by decide
    simp only [unicodeEscape, List.mem_cons, List.not_mem_nil, or_false] at he
    rcases he with rfl | rfl | rfl | rfl | rfl | rfl
    · decide
    · decide
    all_goals exact hdigits _ (Nat.mod_lt _ (by decide))
  have hwritten := written_escapeChar ensureAscii c
  generalize escapeChar ensureAscii c = text at hwritten
  intro e he
  cases hwritten with
  | short h =>
    have hall : ∀ p ∈ shortEscapes, p.2 ≠ '<' ∧ p.2 ≠ '\x60' := by decide
    rcases List.mem_cons.1 he with rfl | he
    · decide
    · rw [List.mem_singleton.1 he]
      exact hall _ h
  | code _ _ _ => exact hhex _ e he
  | pair _ _ => exact plain_append (hhex _) (hhex _) e he
  | plain _ _ _ _ =>
    rw [List.mem_singleton.1 he]
    exact hc

theorem plain_dumpString (ensureAscii : Bool) {name : String} (hname : Plain name.toList) :
    Plain (dumpString ensureAscii name) := by
  have hquote : Plain ['"'] := by
    intro c hc
    rw [List.mem_singleton.1 hc]
    decide
  refine plain_append (plain_append hquote ?_) hquote
  intro c hc
  rcases List.mem_flatMap.1 hc with ⟨x, hx, hc⟩
  exact plain_escapeChar ensureAscii (hname x hx) c hc

/-- A plain name brings no mark. -/
theorem unmarked_wrapText {k : JsonStyle} (hk : k.Spaced) {name : String}
    (hname : Plain name.toList) (h : Unmarked text) : Unmarked (wrapText k name text) := by
  rcases hk.key with ⟨sep, hsep, hspace⟩
  have hkey : Plain k.key := by
    intro c hc
    rw [hsep] at hc
    rcases List.mem_cons.1 hc with rfl | hc
    · decide
    · have hc' := hspace c hc
      constructor
      · rintro rfl
        cases hc'
      · rintro rfl
        cases hc'
  have hopen : Plain ('\x7b' :: (dumpString k.ensureAscii name ++ k.key)) := by
    intro c hc
    rcases List.mem_cons.1 hc with rfl | hc
    · decide
    · exact plain_append (plain_dumpString k.ensureAscii hname) hkey c hc
  have hassoc : wrapText k name text =
      '\x7b' :: (dumpString k.ensureAscii name ++ k.key) ++ (text ++ ['\x7d']) := by
    simp only [wrapText, List.append_assoc, List.cons_append]
  rw [hassoc]
  constructor
  · exact unfenced_around h.unfenced (fun hc => (hopen _ hc).2 rfl) (by decide)
  · refine thinkStart_around h.unthinking (fun hc => (hopen _ hc).1 rfl) ?_
    have hall : (lower ['\x7d']).all (fun c => !thinkTag.contains c) = true := by decide
    intro c hc htag
    have hc' := List.all_eq_true.1 hall c hc
    rw [List.contains_iff_mem.2 htag] at hc'
    cases hc'

end Marks

/-! ## Wrapper heuristics -/

section Wrappers

variable {V E : Type} {strLower : List Char → List Char} {schema : OutputSchema V E} {d : Fields}
  {key : String}

theorem codePoints_injective : Function.Injective codePoints := by
  intro s t h
  have hlist : s.toList = t.toList :=
    List.map_injective_iff.2 (fun c e hce => Char.toNat_inj.1 hce) h
  exact String.toList_inj.1 hlist

theorem unwrap_plain (hfield : schema.modelFields.any (hasKey d) = true)
    (hkeys : ∀ key ∈ schemaWrapperKeys strLower schema, hasKey d key = false) :
    unwrap strLower schema d = .ok d := by
  have hnone : (schemaWrapperKeys strLower schema).filter (hasKey d) = [] := by
    rw [List.filter_eq_nil_iff]
    intro key hkey
    rw [hkeys key hkey]
    exact Bool.false_ne_true
  have hknown : looksLikeUnknownWrapper schema d = false := by
    rw [looksLikeUnknownWrapper, hfield, Bool.or_true, if_pos rfl]
  rw [unwrap, hnone]
  dsimp only
  rw [hknown, if_neg Bool.false_ne_true]

theorem hasKey_wrapped (k : String) :
    hasKey [(codePoints key, .obj d)] k = decide (key = k) := by
  rw [hasKey, List.any_cons, List.any_nil, Bool.or_false, decide_eq_decide]
  exact codePoints_injective.eq_iff

theorem unwrap_wrapped (hname : snakeName strLower schema ≠ schema.name)
    (hkey : key ∈ schemaWrapperKeys strLower schema) :
    unwrap strLower schema [(codePoints key, .obj d)] = .ok d := by
  have hone : (schemaWrapperKeys strLower schema).filter
      (hasKey [(codePoints key, .obj d)]) = [key] := by
    have hcongr : hasKey [(codePoints key, .obj d)] = fun k => decide (key = k) :=
      funext hasKey_wrapped
    rw [hcongr, schemaWrapperKeys]
    rcases List.mem_cons.1 hkey with rfl | hkey
    · rw [List.filter_cons_of_pos (by simp), List.filter_cons_of_neg (by simpa using hname),
        List.filter_nil]
    · rw [List.mem_singleton.1 hkey, List.filter_cons_of_neg (by simpa using hname.symm),
        List.filter_cons_of_pos (by simp), List.filter_nil]
  have hget : JsonValue.field [(codePoints key, .obj d)] (codePoints key) = some (.obj d) := by
    rw [JsonValue.field, List.reverse_singleton, List.find?_cons_of_pos (by simp)]
    rfl
  rw [unwrap, hone]
  dsimp only
  rw [if_neg, hget]
  exact fun h => h rfl

/-! ## One value -/

/-- An object with a JSON text and a schema it is valid for. -/
structure Eligible (strLower : List Char → List Char) (schema : OutputSchema V E) (depth : Nat)
    (text : List Char) (d : Fields) (v : V) : Prop where
  named : snakeName strLower schema ≠ schema.name
  plain : ∀ key ∈ schemaWrapperKeys strLower schema, Plain key.toList
  loaded : loads depth text = .ok (.obj d)
  valid : schema.modelValidate d = .ok v
  declared : schema.modelFields.any (hasKey d) = true
  unwrapped : ∀ key ∈ schemaWrapperKeys strLower schema, hasKey d key = false
  unfenced : contains fence text = false

/-- The plain text, the text in a fence and the text under either name of the schema are normalised
to the value. -/
structure SameValue (strLower : List Char → List Char) (schema : OutputSchema V E) (depth : Nat)
    (text : List Char) (v : V) : Prop where
  plain : normalize strLower schema depth (.str text) = .ok v
  fence : ∀ label a b, dropJson label = [] → (∀ c ∈ a, isSpace c = true) →
    (∀ c ∈ b, isSpace c = true) →
      normalize strLower schema depth (.str (fenced label a text b)) = .ok v
  wrapped : ∀ k : JsonStyle, k.Spaced → ∀ key ∈ schemaWrapperKeys strLower schema,
    normalize strLower schema depth (.str (wrapText k key text)) = .ok v

variable {depth : Nat} {text : List Char} {v : V}

theorem normalize_ok {content : List Char} {data : Fields}
    (hparse : parseText depth content = .ok data) (hunwrap : unwrap strLower schema data = .ok d)
    (hvalid : schema.modelValidate d = .ok v) :
    normalize strLower schema depth (.str content) = .ok v := by
  have hcontent : parseJsonObject depth (.str content) = .ok data := hparse
  rw [normalize, hcontent]
  show (unwrap strLower schema data >>= fun data => (schema.modelValidate data).mapError .invalid) =
    .ok v
  rw [hunwrap, ok_bind, hvalid]
  rfl

/-- **One value.** Plain, fenced and wrapped texts of an object are normalised to the same value,
with one level of nesting to spare for the wrapper. -/
theorem normalize_eq (h : Eligible strLower schema depth text d v)
    (hthink : thinkStart text = none) : SameValue strLower schema (depth + 1) text v := by
  have hunmarked : Unmarked text := ⟨h.unfenced, hthink⟩
  have hplain := unwrap_plain h.declared h.unwrapped
  constructor
  · exact normalize_ok (parseText_unmarked hunmarked h.loaded (Nat.le_succ _)) hplain h.valid
  · intro label a b hlabel ha hb
    exact normalize_ok (parseText_fenced hunmarked h.loaded (Nat.le_succ _) hlabel ha hb) hplain
      h.valid
  · intro k hk key hkey
    have hwrapped := unmarked_wrapText hk (h.plain key hkey) hunmarked
    have hloads := loads_wrapText hk key h.loaded
    exact normalize_ok (parseText_unmarked hwrapped hloads le_rfl) (unwrap_wrapped h.named hkey)
      h.valid

end Wrappers

/-- A schema with one field that takes anything. -/
def planSchema : OutputSchema Nat Unit where
  name := "TenderPlan"
  modelFields := ["a"]
  modelValidate := fun data => .ok data.length

theorem planKeys : schemaWrapperKeys (List.map Char.toLower) planSchema =
    ["tender_plan", "TenderPlan"] := by decide

/-- A text with the one field. -/
theorem eligible_plan {text : List Char} {s : String} (hload : loads 1 text = .ok (.obj (tagged s)))
    (hfence : contains fence text = false) :
    Eligible (List.map Char.toLower) planSchema 1 text (tagged s) 1 where
  named := by decide
  plain := by
    rw [planKeys]
    have hall : ["tender_plan", "TenderPlan"].all (fun key =>
      key.toList.all fun c => c ≠ '<' ∧ c ≠ '\x60') = true := by decide
    intro key hkey c hc
    exact of_decide_eq_true (List.all_eq_true.1 (List.all_eq_true.1 hall key hkey) c hc)
  loaded := hload
  valid := rfl
  declared := by
    rw [planSchema, List.any_cons, hasKey, tagged]
    simp
  unwrapped := by
    rw [planKeys]
    intro key hkey
    rw [hasKey, tagged, List.any_cons, List.any_nil, Bool.or_false, decide_eq_false_iff_not]
    intro heq
    rw [← codePoints_injective heq] at hkey
    exact absurd hkey (by decide)
  unfenced := hfence

/-- `{"a": "x"}` -/
theorem normalize_plan : SameValue (List.map Char.toLower) planSchema 2
    ((JsonValue.obj (tagged "x")).write {}) 1 :=
  normalize_eq (eligible_plan (s := "x") rfl rfl) rfl

/-- The tag is found in any letter case: `{"a": "<THINK>"}` is not read. -/
theorem uppercase_tag_raises : ¬∀ (text : List Char) (d : Fields) (v : Nat),
    Eligible (List.map Char.toLower) planSchema 1 text d v → contains thinkTag text = false →
      SameValue (List.map Char.toLower) planSchema 2 text v := by
  intro h
  have heligible : Eligible (List.map Char.toLower) planSchema 1
      ((JsonValue.obj (tagged "<THINK>")).write {}) (tagged "<THINK>") 1 :=
    eligible_plan (s := "<THINK>") rfl rfl
  have hplain := (h _ _ _ heligible rfl).plain
  have hraised : removeExplicitThinkingBlock ((JsonValue.obj (tagged "<THINK>")).write {}) =
      .error (.value "思考标签未闭合") := by rfl
  have hparse : parseJsonObject 2 (.str ((JsonValue.obj (tagged "<THINK>")).write {})) =
      .error (.value "思考标签未闭合") := by
    show parseText 2 _ = _
    rw [parseText, hraised]
    rfl
  rw [normalize, hparse] at hplain
  cases hplain

end GoAgent.Llm.StructuredOutput
