import GoAgent.Foundation.JsonNesting
import GoAgent.Foundation.Utf8
import Mathlib.Algebra.Group.Nat.Defs

/-!
# The event stream

The server writes each event as a frame, two lines and an empty one; the browser reads the bytes in
the pieces in which they arrive, cuts the text at the empty lines and reads each frame. At the end
of the stream it closes whatever is left with an empty line.

* `Sendable.readable`, `Sendable.numbers` — Python and JavaScript read back what is written.
* `splitFrames_append` — cutting a text and then more of it is cutting the whole.
* `splitFrames_lines` — lines before an empty line are one frame.
-/

namespace GoAgent.Http

open GoAgent.Foundation

/-! ## The server -/

/-- `json.dumps(…, ensure_ascii=False, separators=(",", ":"))` -/
def eventStyle : JsonStyle where
  item := [',']
  key := [':']
  ensureAscii := false

/-- An event: its name and the fields of its payload. -/
structure ServerSentEvent where
  event : List Char
  data : List (List Nat × JsonValue)

def ServerSentEvent.payload (e : ServerSentEvent) : List Char :=
  (JsonValue.obj e.data).write eventStyle

/-- `serialize_sse_event` -/
def serializeSseEvent (e : ServerSentEvent) : List Char :=
  "event: ".toList ++ e.event ++ "\ndata: ".toList ++ e.payload ++ "\n\n".toList

/-! ## The built-in functions of the browser -/

/-- `WhiteSpace` and `LineTerminator` -/
def isTrimmed (c : Char) : Bool :=
  let n := c.toNat
  (9 ≤ n && n ≤ 13) || n == 32 || n == 0xA0 || n == 0x1680 || (0x2000 ≤ n && n ≤ 0x200A) ||
    n == 0x2028 || n == 0x2029 || n == 0x202F || n == 0x205F || n == 0x3000 || n == 0xFEFF

/-- `String.prototype.trim` -/
def trim (s : List Char) : List Char := (s.dropWhile isTrimmed).rdropWhile isTrimmed

/-- A `Number` has the integer as its value. -/
def exactNumber (n : Int) : Bool := n.natAbs < 2 ^ 1024 && n.natAbs % 2 ^ (n.natAbs.log2 - 52) == 0

/-- The text is none of the words for what is no number. -/
def isFinite (text : List Char) : Bool :=
  text != "NaN".toList && text != "Infinity".toList && text != "-Infinity".toList

mutual

/-- What JavaScript makes of the value: a number that is no exact integer is kept as its text, and
`NaN` and the infinities are no JSON. -/
def numbers : JsonValue → Option JsonValue
  | .int n => some (if exactNumber n then .int n else .float (dumpInt n))
  | .float text => if isFinite text then some (.float text) else none
  | .arr items => (numbersItems items).map .arr
  | .obj fields => (numbersFields fields).map .obj
  | v => some v
termination_by structural v => v

def numbersItems : List JsonValue → Option (List JsonValue)
  | [] => some []
  | v :: vs => (numbers v).bind fun w => (numbersItems vs).map (w :: ·)
termination_by structural items => items

def numbersFields : List (List Nat × JsonValue) → Option (List (List Nat × JsonValue))
  | [] => some []
  | f :: fs => (numbersField f).bind fun g => (numbersFields fs).map (g :: ·)
termination_by structural fields => fields

def numbersField : List Nat × JsonValue → Option (List Nat × JsonValue)
  | (name, v) => (numbers v).map fun w => (name, w)
termination_by structural field => field

end

/-- `JSON.parse`, of what is nested at most `depth` deep; `none` is a `SyntaxError`. -/
def jsonParse (depth : Nat) (s : List Char) : Option JsonValue :=
  match loads depth s with
  | .ok v => numbers v
  | .error _ => none

/-- `new TextDecoder()`: what it has read of a character, and whether a mark can still come. -/
structure TextDecoder where
  state : Utf8State := {}
  bomSeen : Bool := false

/-- The first character is dropped if it is a mark. -/
def TextDecoder.skipMark (d : TextDecoder) (text : List Char) : Bool × List Char :=
  match d.bomSeen, text with
  | false, c :: cs => (true, if c = '\ufeff' then cs else c :: cs)
  | seen, text => (seen, text)

/-- `decoder.decode(bytes, { stream: true })` -/
def TextDecoder.decode (d : TextDecoder) (bytes : List UInt8) : TextDecoder × List Char :=
  let r := utf8FeedLossy d.state bytes
  let t := d.skipMark r.2
  ({ state := r.1, bomSeen := t.1 }, t.2)

/-- `decoder.decode()`: a character that broke off is replaced. -/
def TextDecoder.flush (d : TextDecoder) : List Char :=
  (d.skipMark (if d.state.needed = 0 then [] else [replacementChar])).2

/-! ## The client -/

structure StreamingHttpError where
  message : String
  retryable : Bool := true
  deriving DecidableEq

/-- What the client raises: its own error, or that of the connection. -/
inductive ClientError
  | streaming (error : StreamingHttpError)
  | connection
  deriving DecidableEq

/-- The events that were delivered so far. -/
abbrev ClientM := EStateM ClientError (List ServerSentEvent)

/-- One more character at the front of what was cut. -/
def extendFirst (c : Char) : List (List Char) × List Char → List (List Char) × List Char
  | ([], rest) => ([], c :: rest)
  | (frame :: frames, rest) => ((c :: frame) :: frames, rest)

/-- `source.split("\n\n")`: the pieces before the separators, and the last one. -/
def splitFrames : List Char → List (List Char) × List Char
  | [] => ([], [])
  | '\n' :: '\n' :: cs => ([] :: (splitFrames cs).1, (splitFrames cs).2)
  | c :: cs => extendFirst c (splitFrames cs)

section Client

variable (depth : Nat)

def invalidFormat : StreamingHttpError where
  message := "流式响应格式无效。"
  retryable := false

/-- What the lines that start with a field say. -/
def fieldLines (field : List Char) (lines : List (List Char)) : List (List Char) :=
  (lines.filter fun line => field.isPrefixOf line).map fun line => trim (line.drop field.length)

/-- What the lines of a frame stand for. -/
def readLines (lines : List (List Char)) : Except StreamingHttpError (Option ServerSentEvent) :=
  let event := (fieldLines "event:".toList lines).head?.getD []
  let data := ['\n'].intercalate (fieldLines "data:".toList lines)
  if event = [] ∨ data = [] then .ok none
  else
    match jsonParse depth data with
    | some (.obj fields) => .ok (some { event, data := fields })
    | _ => .error invalidFormat

def parseEvent (frame : List Char) : Except StreamingHttpError (Option ServerSentEvent) :=
  readLines depth ((frame.filter fun c => c != '\r').splitOn '\n')

def deliver : List (List Char) → ClientM Unit
  | [] => pure ()
  | frame :: frames =>
    match parseEvent depth frame with
    | .ok none => deliver frames
    | .ok (some event) => do
      modify fun events => events ++ [event]
      deliver frames
    | .error e => throw (.streaming e)

def consumeEvents (source : List Char) : ClientM (List Char) := do
  let (frames, incomplete) := splitFrames source
  deliver depth frames
  pure incomplete

/-- The reads until the stream ends. -/
def readChunks : List (List UInt8) → TextDecoder → List Char → ClientM (TextDecoder × List Char)
  | [], decoder, pending => pure (decoder, pending)
  | chunk :: chunks, decoder, pending => do
    let (decoder, text) := decoder.decode chunk
    let pending ← consumeEvents depth (pending ++ text)
    readChunks chunks decoder pending

/-- How the reads end: the stream is over, or the connection is lost. -/
inductive Ending
  | done
  | lost
  deriving DecidableEq

/-- What `fetch` gives: `detail` is that of a JSON body, and `body` is read in pieces. -/
structure Response where
  ok : Bool
  status : Nat
  detail : Option String
  body : Option (List (List UInt8) × Ending)

def responseMessage (response : Response) : String :=
  response.detail.getD "流式请求失败，请稍后重试。"

def postSse (response : Response) : ClientM Unit :=
  match response.ok, response.body with
  | true, some (chunks, ending) => do
    let (decoder, pending) ← readChunks depth chunks {} []
    match ending with
    | .lost => throw .connection
    | .done =>
      let _ ← consumeEvents depth (pending ++ decoder.flush ++ "\n\n".toList)
      pure ()
  | _, _ =>
    throw (.streaming
      { message := responseMessage response
        retryable := decide (500 ≤ response.status) })

end Client

variable {depth : Nat} {a b s t text : List Char} {c : Char} {frames : List (List Char)}
  {e : ServerSentEvent}

/-! ## What can be sent -/

/-- A payload is nested `depth` deep at most, and JavaScript has its integers. -/
inductive Sendable : Nat → JsonValue → Prop
  | null {depth : Nat} : Sendable depth .null
  | bool {depth : Nat} (b : Bool) : Sendable depth (.bool b)
  | int {depth : Nat} {n : Int} (h : exactNumber n = true) : Sendable depth (.int n)
  | float {depth : Nat} {text : List Char} (h : IsFloat text) : Sendable depth (.float text)
  | str {depth : Nat} (s : String) : Sendable depth (.str (codePoints s))
  | arr {depth : Nat} {items : List JsonValue} (h : ∀ v ∈ items, Sendable depth v) :
      Sendable (depth + 1) (.arr items)
  | obj {depth : Nat} {fields : List (List Nat × JsonValue)}
      (hnames : ∀ f ∈ fields, ∃ name, f.1 = codePoints name)
      (h : ∀ f ∈ fields, Sendable depth f.2) : Sendable (depth + 1) (.obj fields)

/-- What the server may send: the name is one line that starts and ends with no white space. -/
structure Sent (depth : Nat) (e : ServerSentEvent) : Prop where
  named : e.event ≠ []
  line : '\n' ∉ e.event ∧ '\r' ∉ e.event
  trimmed : trim e.event = e.event
  data : Sendable depth (.obj e.data)

section Payload

variable {v : JsonValue}

theorem length_toDigits_le {m k : Nat} (hk : 0 < k) (h : m < 2 ^ k) :
    (Nat.toDigits 10 m).length ≤ k := by
  apply (Nat.length_toDigits_le_iff (by decide) hk).2
  exact Nat.lt_of_lt_of_le h (Nat.pow_le_pow_left (by decide) k)

theorem length_toDigits_exact {n : Int} (h : exactNumber n = true) :
    (Nat.toDigits 10 n.natAbs).length ≤ maxIntDigits := by
  rw [exactNumber, Bool.and_eq_true, decide_eq_true_eq] at h
  exact (length_toDigits_le (by decide) h.1).trans (by decide)

/-- The server writes it so that it is read back. -/
theorem Sendable.readable (h : Sendable depth v) : v.Readable depth := by
  induction h with
  | null => exact .null
  | bool b => exact .bool b
  | int h => exact .int (length_toDigits_exact h)
  | float h => exact .float (floatText h)
  | str s => exact .str s
  | arr _ ih => exact .arr ih
  | obj hnames _ ih => exact .obj hnames ih

theorem isFinite_float (h : IsFloat text) : isFinite text = true := by
  have hchars := floatChars h
  unfold isFinite
  simp only [Bool.and_eq_true, bne_iff_ne]
  refine ⟨⟨?_, ?_⟩, ?_⟩
  all_goals
    rintro rfl
    have hall := List.all_eq_true.2 hchars
    revert hall
    decide

theorem numbersItems_same {items : List JsonValue} (h : ∀ v ∈ items, numbers v = some v) :
    numbersItems items = some items := by
  induction items with
  | nil => rfl
  | cons v items ih =>
    rw [numbersItems, h v List.mem_cons_self, Option.bind_some,
      ih fun w hw => h w (List.mem_cons_of_mem v hw), Option.map_some]

theorem numbersFields_same {fields : List (List Nat × JsonValue)}
    (h : ∀ f ∈ fields, numbers f.2 = some f.2) : numbersFields fields = some fields := by
  induction fields with
  | nil => rfl
  | cons f fields ih =>
    have hfield : numbersField f = some f := by
      rw [numbersField, h f List.mem_cons_self, Option.map_some]
    rw [numbersFields, hfield, Option.bind_some,
      ih fun g hg => h g (List.mem_cons_of_mem f hg), Option.map_some]

/-- JavaScript has the same value. -/
theorem Sendable.numbers (h : Sendable depth v) : numbers v = some v := by
  induction h with
  | null => rfl
  | bool b => rfl
  | int h => rw [GoAgent.Http.numbers, if_pos h]
  | float h => rw [GoAgent.Http.numbers, if_pos (isFinite_float h)]
  | str s => rfl
  | arr _ ih => rw [GoAgent.Http.numbers, numbersItems_same ih, Option.map_some]
  | obj _ _ ih => rw [GoAgent.Http.numbers, numbersFields_same ih, Option.map_some]

/-- No control character is written. -/
def Printable (text : List Char) : Prop := ∀ c ∈ text, 32 ≤ c.toNat

theorem printable_of_all (h : text.all (fun c => 32 ≤ c.toNat) = true) : Printable text :=
  fun c hc => of_decide_eq_true (List.all_eq_true.1 h c hc)

theorem printable_append (ha : Printable a) (hb : Printable b) : Printable (a ++ b) := by
  intro c hc
  rcases List.mem_append.1 hc with hc | hc
  · exact ha c hc
  · exact hb c hc

theorem printable_unicodeEscape (n : Nat) : Printable (unicodeEscape n) := by
  have hdigit : ∀ d < 16, 32 ≤ (hexDigit d).toNat := by decide
  intro c hc
  simp only [unicodeEscape, List.mem_cons, List.not_mem_nil, or_false] at hc
  rcases hc with rfl | rfl | rfl | rfl | rfl | rfl
  · decide
  · decide
  all_goals exact hdigit _ (Nat.mod_lt _ (by decide))

theorem printable_escapeChar (ensureAscii : Bool) (c : Char) :
    Printable (escapeChar ensureAscii c) := by
  have hwritten := written_escapeChar ensureAscii c
  generalize escapeChar ensureAscii c = text at hwritten
  cases hwritten with
  | short h =>
    have hall : ∀ p ∈ shortEscapes, 32 ≤ p.2.toNat := by decide
    intro d hd
    rcases List.mem_cons.1 hd with rfl | hd
    · decide
    · rw [List.mem_singleton.1 hd]
      exact hall _ h
  | code _ _ _ => exact printable_unicodeEscape _
  | pair _ _ => exact printable_append (printable_unicodeEscape _) (printable_unicodeEscape _)
  | plain _ _ h _ =>
    intro d hd
    rw [List.mem_singleton.1 hd]
    exact h

theorem printable_writeString (ensureAscii : Bool) (s : List Nat) :
    Printable (writeString ensureAscii s) := by
  intro c hc
  rcases List.mem_cons.1 hc with rfl | hc
  · decide
  · rcases List.mem_append.1 hc with hc | hc
    · rcases List.mem_flatMap.1 hc with ⟨n, -, hc⟩
      unfold writeUnit at hc
      split_ifs at hc
      · exact printable_unicodeEscape n c hc
      · exact printable_escapeChar ensureAscii _ c hc
    · rw [List.mem_singleton.1 hc]
      decide

theorem printable_digits (n : Nat) : Printable (Nat.toDigits 10 n) := by
  intro c hc
  have hdigit := isDigit_of_mem_toDigits hc
  simp only [isDigit, Bool.and_eq_true, decide_eq_true_eq] at hdigit
  omega

theorem printable_dumpInt (n : Int) : Printable (dumpInt n) := by
  cases n with
  | ofNat n => exact printable_digits n
  | negSucc n =>
    intro c hc
    rcases List.mem_cons.1 hc with rfl | hc
    · decide
    · exact printable_digits (n + 1) c hc

theorem printable_float (h : IsFloat text) : Printable text := by
  intro c hc
  have hchar := floatChars h c hc
  simp only [isFloatChar, isDigit, Bool.or_eq_true, Bool.and_eq_true, decide_eq_true_eq,
    beq_iff_eq] at hchar
  rcases hchar with ((((hdigit | rfl) | rfl) | rfl) | rfl) | rfl
  · omega
  all_goals decide

theorem Sendable.printable (h : Sendable depth v) : Printable (v.write eventStyle) := by
  induction h with
  | null => exact printable_of_all rfl
  | bool b => cases b <;> exact printable_of_all rfl
  | int _ => exact printable_dumpInt _
  | float h => exact printable_float h
  | str s => exact printable_writeString false _
  | arr _ ih =>
    intro c hc
    rcases List.mem_cons.1 hc with rfl | hc
    · decide
    · rcases List.mem_append.1 hc with hc | hc
      · rcases mem_writeItems hc with hc | ⟨v, hv, hc⟩
        · rw [List.mem_singleton.1 hc]
          decide
        · exact ih v hv c hc
      · rw [List.mem_singleton.1 hc]
        decide
  | obj _ _ ih =>
    intro c hc
    rcases List.mem_cons.1 hc with rfl | hc
    · decide
    · rcases List.mem_append.1 hc with hc | hc
      · rcases mem_writeFields hc with hc | ⟨f, hf, hc⟩
        · rw [List.mem_singleton.1 hc]
          decide
        · rcases mem_writeField hc with hc | hc | hc
          · exact printable_writeString false f.1 c hc
          · rw [List.mem_singleton.1 hc]
            decide
          · exact ih f hf c hc
      · rw [List.mem_singleton.1 hc]
        decide

end Payload

/-! ## Cutting -/

section Cutting

theorem splitFrames_cons (h : ¬(c = '\n' ∧ s.head? = some '\n')) :
    splitFrames (c :: s) = extendFirst c (splitFrames s) := by
  rw [splitFrames]
  intro cs hc hs
  exact h ⟨hc, by rw [hs]; rfl⟩

/-- What is not cut is left as it is. -/
theorem splitFrames_uncut (h : (splitFrames a).1 = []) : splitFrames a = ([], a) := by
  induction a using splitFrames.induct with
  | case1 => rfl
  | case2 cs => cases h
  | case3 c cs hpair ih =>
    rw [splitFrames] at h ⊢
    · cases hcs : splitFrames cs with
      | mk frames rest =>
        cases frames with
        | nil =>
          rw [hcs] at ih
          rw [(Prod.mk.inj (ih rfl)).2]
          rfl
        | cons frame frames =>
          rw [hcs] at h
          cases h
    all_goals exact hpair

/-- **Cutting goes on where it stopped.** -/
theorem splitFrames_append (a b : List Char) : splitFrames (a ++ b) =
    ((splitFrames a).1 ++ (splitFrames ((splitFrames a).2 ++ b)).1,
      (splitFrames ((splitFrames a).2 ++ b)).2) := by
  induction a using splitFrames.induct with
  | case1 => rfl
  | case2 cs ih =>
    rw [splitFrames, List.cons_append, List.cons_append, splitFrames, ih]
    rfl
  | case3 c cs hpair ih =>
    have hno : ¬(c = '\n' ∧ cs.head? = some '\n') := by
      rintro ⟨rfl, hhead⟩
      cases cs with
      | nil => cases hhead
      | cons d cs =>
        cases hhead
        exact hpair cs rfl rfl
    rw [splitFrames_cons hno]
    by_cases hnil : cs = []
    · subst hnil
      rfl
    have hno' : ¬(c = '\n' ∧ (cs ++ b).head? = some '\n') := by
      rw [List.head?_append_of_ne_nil _ hnil]
      exact hno
    rw [List.cons_append, splitFrames_cons hno', ih]
    cases hcs : splitFrames cs with
    | mk frames rest =>
      cases frames with
      | nil =>
        have hrest := splitFrames_uncut (a := cs) (by rw [hcs])
        rw [hcs] at hrest
        rw [(Prod.mk.inj hrest).2, extendFirst, List.nil_append, List.cons_append,
          splitFrames_cons hno']
        rfl
      | cons frame frames => rfl

/-- What comes after the last separator holds none. -/
theorem splitFrames_rest (a : List Char) :
    splitFrames (splitFrames a).2 = ([], (splitFrames a).2) := by
  have happend := splitFrames_append a []
  rw [List.append_nil, List.append_nil] at happend
  have hnone := congrArg Prod.fst happend
  apply splitFrames_uncut
  exact List.append_right_eq_self.1 hnone.symm

theorem splitFrames_prefix (h : t <+: s) : (splitFrames t).1 <+: (splitFrames s).1 := by
  rcases h with ⟨r, rfl⟩
  rw [splitFrames_append]
  exact List.prefix_append _ _

variable {l r f rest : List Char} {ls : List (List Char)}

/-- A line belongs to the first frame of what follows it. -/
theorem splitFrames_line (hl : '\n' ∉ l) (h : splitFrames r = (f :: frames, rest)) :
    splitFrames (l ++ r) = ((l ++ f) :: frames, rest) := by
  induction l with
  | nil => exact h
  | cons c l ih =>
    rw [List.mem_cons, not_or] at hl
    rw [List.cons_append, splitFrames_cons fun hpair => hl.1 hpair.1.symm, ih hl.2]
    rfl

/-- Lines before an empty line are one frame. -/
theorem splitFrames_lines (hlines : ∀ x ∈ l :: ls, '\n' ∉ x) (hls : ∀ x ∈ ls, x ≠ [])
    (rest : List Char) :
    splitFrames (['\n'].intercalate (l :: ls) ++ '\n' :: '\n' :: rest) =
      (['\n'].intercalate (l :: ls) :: (splitFrames rest).1, (splitFrames rest).2) := by
  induction ls generalizing l with
  | nil =>
    have hempty : splitFrames ('\n' :: '\n' :: rest) =
        ([] :: (splitFrames rest).1, (splitFrames rest).2) := rfl
    have hend := splitFrames_line (hlines l List.mem_cons_self) hempty
    rw [List.append_nil] at hend
    rw [List.intercalate_singleton]
    exact hend
  | cons l' ls ih =>
    have hrest := ih (fun x hx => hlines x (List.mem_cons_of_mem _ hx))
      (fun x hx => hls x (List.mem_cons_of_mem _ hx))
    have hbreak : splitFrames ('\n' :: (['\n'].intercalate (l' :: ls) ++ '\n' :: '\n' :: rest)) =
        (('\n' :: ['\n'].intercalate (l' :: ls)) :: (splitFrames rest).1,
          (splitFrames rest).2) := by
      rw [splitFrames_cons, hrest, extendFirst]
      rintro ⟨-, hhead⟩
      cases hl' : l' with
      | nil => exact hls l' List.mem_cons_self hl'
      | cons d ds =>
        have hd : '\n' ∉ l' := hlines l' (List.mem_cons_of_mem _ List.mem_cons_self)
        have hfirst : (['\n'].intercalate (l' :: ls) ++ '\n' :: '\n' :: rest).head? = some d := by
          rw [hl']
          cases ls <;> simp
        rw [hfirst] at hhead
        apply hd
        rw [hl', Option.some.inj hhead]
        exact List.mem_cons_self
    have hall := splitFrames_line (hlines l List.mem_cons_self) hbreak
    rw [List.intercalate_cons_cons]
    simpa using hall

end Cutting

end GoAgent.Http
