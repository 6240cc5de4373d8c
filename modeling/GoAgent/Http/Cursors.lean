import GoAgent.Foundation.Base64
import GoAgent.Foundation.IsoTime
import GoAgent.Foundation.JsonRoundTrip
import GoAgent.Foundation.Raising
import GoAgent.Foundation.Utf8
import GoAgent.Foundation.Uuid

/-!
# List cursors

A cursor is the unpadded URL-safe Base64 of a compact JSON object: a time in ISO 8601 and a UUID,
and for conversations a pin flag. `depth` is how deep the interpreter may recurse.

* `cursors_answered` — a decoder returns an aware cursor or raises its own error, unless the object
  holds an identifier that is neither text nor null, or is nested too deep; and each decoder undoes
  its encoder.
-/

namespace GoAgent.Http

open GoAgent.Foundation

/-! ## The decoders -/

/-- `TaskListCursor` -/
structure TaskListCursor where
  updatedAt : Timestamp
  id : Uuid
  deriving DecidableEq

/-- `ConversationListCursor` -/
structure ConversationListCursor where
  updatedAt : Timestamp
  id : Uuid
  isPinned : Bool := false
  deriving DecidableEq

/-- What a decoder raises; `invalidCursor` is `InvalidTaskCursor` or `InvalidConversationCursor`,
and `exhausted` is never raised. -/
inductive Raised where
  | valueError
  | keyError
  | typeError
  | attributeError
  | recursionError
  | invalidCursor
  | exhausted
  deriving DecidableEq

/-- The classes of both `except` clauses and what inherits from them. -/
def Raised.caught : Raised → Bool
  | .valueError | .keyError | .typeError | .invalidCursor => true
  | _ => false

/-- `try: … except (…) as exc: raise Invalid…Cursor from exc` -/
def guarded {α : Type} : Except Raised α → Except Raised α
  | .ok a => .ok a
  | .error e => .error (if e.caught then .invalidCursor else e)

def raisedBy : LoadsError → Raised
  | .decode | .digits => .valueError
  | .recursion => .recursionError
  | .exhausted => .exhausted

/-- `json.loads(base64.urlsafe_b64decode(padded).decode("utf-8"))` -/
def readPayload (depth : Nat) (value : List Char) : Except Raised JsonValue :=
  match (urlsafeB64decode (padded value)).bind utf8Decode with
  | none => .error .valueError
  | some text => (loads depth text).mapError raisedBy

/-- A lone surrogate reads as the character 0, which the readers below take nowhere that they do
not take a surrogate. -/
def textOf (points : List Nat) : List Char := points.map Char.ofNat

/-- `fields[name]` -/
def member (fields : List (List Nat × JsonValue)) (name : String) : Except Raised JsonValue :=
  match JsonValue.field fields (codePoints name) with
  | some v => .ok v
  | none => .error .keyError

/-- `payload[name]` -/
def getItem (payload : JsonValue) (name : String) : Except Raised JsonValue :=
  match payload with
  | .obj fields => member fields name
  | _ => .error .typeError

/-- `datetime.fromisoformat(v)` -/
def timeOf : JsonValue → Except Raised Timestamp
  | .str points =>
    match fromisoformat (textOf points) with
    | some t => .ok t
    | none => .error .valueError
  | _ => .error .typeError

/-- `UUID(v)`, which calls `v.replace` unless `v` is `None` -/
def uuidOf : JsonValue → Except Raised Uuid
  | .str points =>
    match uuidOfText (textOf points) with
    | some id => .ok id
    | none => .error .valueError
  | .null => .error .typeError
  | _ => .error .attributeError

/-- What `decode_task_cursor` reads in a payload. -/
def taskOf (payload : JsonValue) : Except Raised TaskListCursor := do
  let updatedAt ← timeOf (← getItem payload "updated_at")
  let id ← uuidOf (← getItem payload "id")
  .ok { updatedAt, id }

/-- The `try` block of `decode_task_cursor`. -/
def readTaskCursor (depth : Nat) (value : List Char) : Except Raised TaskListCursor := do
  taskOf (← readPayload depth value)

/-- `decode_task_cursor` -/
def decodeTaskCursor (depth : Nat) : Option String → Except Raised (Option TaskListCursor)
  | none => .ok none
  | some value =>
    if value.toList = [] ∨ 256 < value.toList.length then .error .invalidCursor
    else do
      let cursor ← guarded (readTaskCursor depth value.toList)
      if cursor.updatedAt.offset = none then .error .invalidCursor else .ok (some cursor)

/-- `payload.get("is_pinned", False)`, of a boolean only -/
def pinOf (fields : List (List Nat × JsonValue)) : Except Raised Bool :=
  match JsonValue.field fields (codePoints "is_pinned") with
  | none => .ok false
  | some (.bool b) => .ok b
  | some _ => .error .invalidCursor

/-- What `decode_conversation_cursor` reads in a payload. -/
def conversationOf : JsonValue → Except Raised ConversationListCursor
  | .obj fields =>
    match JsonValue.field fields (codePoints "id"),
        JsonValue.field fields (codePoints "updated_at") with
    | some id, some updatedAt => do
      let id ← uuidOf id
      let updatedAt ← timeOf updatedAt
      if updatedAt.offset = none then .error .invalidCursor
      else
        let isPinned ← pinOf fields
        .ok { updatedAt, id, isPinned }
    | _, _ => .error .invalidCursor
  | _ => .error .invalidCursor

/-- The `try` block of `decode_conversation_cursor`. -/
def readConversationCursor (depth : Nat) (value : List Char) :
    Except Raised ConversationListCursor := do
  conversationOf (← readPayload depth value)

/-- `decode_conversation_cursor` -/
def decodeConversationCursor (depth : Nat) :
    Option String → Except Raised (Option ConversationListCursor)
  | none => .ok none
  | some value =>
    if value.toList = [] ∨ value.toList.any (fun c => !isUrlsafe c) then .error .invalidCursor
    else (guarded (readConversationCursor depth value.toList)).map some

/-! ## The encoders -/

/-- `base64.urlsafe_b64encode(json.dumps(…).encode("utf-8")).decode("ascii").rstrip("=")` -/
def writePayload (payload : Json) : String :=
  String.ofList (unpadded (urlsafeB64encode (utf8Encode (payload.dumps .compact))))

def taskPayload (cursor : TaskListCursor) : Json :=
  .obj
    [("updated_at", .str (String.ofList cursor.updatedAt.isoformat)),
      ("id", .str (String.ofList (uuidStr cursor.id)))]

/-- The keys are sorted. -/
def conversationPayload (cursor : ConversationListCursor) : Json :=
  .obj
    [("id", .str (String.ofList (uuidStr cursor.id))),
      ("is_pinned", .bool cursor.isPinned),
      ("updated_at", .str (String.ofList cursor.updatedAt.isoformat))]

/-- `encode_task_cursor` -/
def encodeTaskCursor (cursor : TaskListCursor) : String := writePayload (taskPayload cursor)

/-- `encode_conversation_cursor` -/
def encodeConversationCursor (cursor : ConversationListCursor) : String :=
  writePayload (conversationPayload cursor)

/-! ## Each decoder undoes its encoder -/

section RoundTrip

variable {depth : Nat}

theorem readPayload_write {payload : Json} (hread : payload.Readable depth) :
    readPayload depth (writePayload payload).toList = .ok payload.value := by
  have hspaced : JsonStyle.compact.Spaced :=
    { item := ⟨[], rfl, by simp⟩
      key := ⟨[], rfl, by simp⟩ }
  rw [readPayload, writePayload, String.toList_ofList, urlsafeB64decode_padded, Option.bind_some,
    utf8Decode_encode]
  simp only [loads_dumps hspaced hread]
  rfl

theorem textOf_codePoints {text : List Char} : textOf (codePoints (String.ofList text)) = text := by
  rw [textOf, codePoints, String.toList_ofList, List.map_map]
  exact List.map_id'' (fun c => Char.ofNat_toNat c) text

theorem timeOf_isoformat (t : Timestamp) :
    timeOf (.str (codePoints (String.ofList t.isoformat))) = .ok t := by
  simp only [timeOf, textOf_codePoints, fromisoformat_isoformat]

theorem uuidOf_str (id : Uuid) :
    uuidOf (.str (codePoints (String.ofList (uuidStr id)))) = .ok id := by
  simp only [uuidOf, textOf_codePoints, uuidOfText_uuidStr]

/-- A time is written as it is. -/
theorem isoformat_plain {t : Timestamp} : ∀ c ∈ t.isoformat, isPlain c = true := by
  intro c hc
  have hiso := mem_isoformat hc
  simp only [isIsoChar, isDigit, Bool.or_eq_true, Bool.and_eq_true, decide_eq_true_eq,
    beq_iff_eq] at hiso
  rcases hiso with ((((hdigit | rfl) | rfl) | rfl) | rfl) | rfl
  · simp only [isPlain, Bool.and_eq_true, decide_eq_true_eq, bne_iff_ne]
    omega
  all_goals decide

theorem uuidStr_plain {id : Uuid} : ∀ c ∈ uuidStr id, isPlain c = true := by
  intro c hc
  rcases mem_uuidStr hc with hhex | rfl
  · simp only [isHexLower, isDigit, Bool.or_eq_true, Bool.and_eq_true, decide_eq_true_eq] at hhex
    simp only [isPlain, Bool.and_eq_true, decide_eq_true_eq, bne_iff_ne]
    omega
  · decide

theorem dumps_taskPayload (cursor : TaskListCursor) : (taskPayload cursor).dumps .compact =
    "\x7b\"updated_at\":\"".toList ++ (cursor.updatedAt.isoformat ++ ("\",\"id\":\"".toList ++
      (uuidStr cursor.id ++ "\"\x7d".toList))) := by
  have htime : dumpString true "updated_at" = "\"updated_at\"".toList := by decide
  have hid : dumpString true "id" = "\"id\"".toList := by decide
  simp only [taskPayload, Json.dumps, dumpFields, dumpField, JsonStyle.compact, htime, hid,
    dumpString_plain isoformat_plain, dumpString_plain uuidStr_plain]
  simp

/-- A task cursor is within the length that its decoder accepts. -/
theorem length_encodeTaskCursor (cursor : TaskListCursor) :
    (encodeTaskCursor cursor).toList.length ≤ 256 := by
  have hplain {c : Char} (hc : isPlain c = true) : c.toNat < 0x80 := by
    simp only [isPlain, Bool.and_eq_true, decide_eq_true_eq] at hc
    omega
  have hascii {l : List Char} (hl : l.all (fun c => decide (c.toNat < 0x80)) = true) :
      ∀ c ∈ l, c.toNat < 0x80 := fun c hc => of_decide_eq_true (List.all_eq_true.1 hl c hc)
  have hbytes : (utf8Encode ((taskPayload cursor).dumps .compact)).length =
      ((taskPayload cursor).dumps .compact).length := by
    apply length_utf8Encode
    intro c hc
    simp only [dumps_taskPayload, List.mem_append] at hc
    rcases hc with hc | hc | hc | hc | hc
    · exact hascii (by decide) c hc
    · exact hplain (isoformat_plain c hc)
    · exact hascii (by decide) c hc
    · exact hplain (uuidStr_plain c hc)
    · exact hascii (by decide) c hc
  have hopen : "\x7b\"updated_at\":\"".toList.length = 15 := by decide
  have hmid : "\",\"id\":\"".toList.length = 8 := by decide
  have hclose : "\"\x7d".toList.length = 2 := by decide
  have htime := length_isoformat (t := cursor.updatedAt)
  have hid : (uuidStr cursor.id).length = 36 := by simp [uuidStr, length_hexPad]
  have hlen := (unpadded_encode (utf8Encode ((taskPayload cursor).dumps .compact))).2.1
  rw [hbytes, dumps_taskPayload] at hlen
  simp only [List.length_append, hopen, hmid, hclose, hid] at hlen
  rw [encodeTaskCursor, writePayload, String.toList_ofList, dumps_taskPayload]
  omega

theorem readPayload_nil : readPayload depth [] = .error .valueError := by
  cases depth <;> rfl

theorem writePayload_ne_nil {payload : Json} (hread : payload.Readable depth) :
    (writePayload payload).toList ≠ [] := by
  intro hnil
  have hpayload := readPayload_write hread
  rw [hnil, readPayload_nil] at hpayload
  cases hpayload

theorem taskPayload_readable (depth : Nat) (cursor : TaskListCursor) :
    (taskPayload cursor).Readable (depth + 1) := by
  apply Json.Readable.obj
  intro f hf
  simp only [List.mem_cons, List.not_mem_nil, or_false] at hf
  rcases hf with rfl | rfl
  · exact .str _
  · exact .str _

theorem conversationPayload_readable (depth : Nat) (cursor : ConversationListCursor) :
    (conversationPayload cursor).Readable (depth + 1) := by
  apply Json.Readable.obj
  intro f hf
  simp only [List.mem_cons, List.not_mem_nil, or_false] at hf
  rcases hf with rfl | rfl | rfl
  · exact .str _
  · exact .bool _
  · exact .str _

theorem getItem_updated_at {cursor : TaskListCursor} :
    getItem (taskPayload cursor).value "updated_at" =
      .ok (.str (codePoints (String.ofList cursor.updatedAt.isoformat))) := rfl

theorem getItem_id {cursor : TaskListCursor} : getItem (taskPayload cursor).value "id" =
    .ok (.str (codePoints (String.ofList (uuidStr cursor.id)))) := rfl

theorem readTaskCursor_encode (cursor : TaskListCursor) :
    readTaskCursor (depth + 1) (encodeTaskCursor cursor).toList = .ok cursor := by
  rw [readTaskCursor, encodeTaskCursor, readPayload_write (taskPayload_readable depth cursor)]
  simp only [ok_bind, taskOf, getItem_updated_at, getItem_id, timeOf_isoformat, uuidOf_str]

/-- `decode_task_cursor` undoes `encode_task_cursor`. -/
theorem decodeTaskCursor_encode {cursor : TaskListCursor}
    (haware : cursor.updatedAt.offset ≠ none) :
    decodeTaskCursor (depth + 1) (some (encodeTaskCursor cursor)) = .ok (some cursor) := by
  have haccepted : ¬((encodeTaskCursor cursor).toList = [] ∨
      256 < (encodeTaskCursor cursor).toList.length) := by
    have hlen := length_encodeTaskCursor cursor
    have hne : (encodeTaskCursor cursor).toList ≠ [] :=
      writePayload_ne_nil (taskPayload_readable 0 cursor)
    rintro (hnil | hlong)
    · exact hne hnil
    · omega
  simp only [decodeTaskCursor, if_neg haccepted, readTaskCursor_encode, guarded, ok_bind,
    if_neg haware]

theorem conversationOf_payload {cursor : ConversationListCursor}
    (haware : cursor.updatedAt.offset ≠ none) :
    conversationOf (conversationPayload cursor).value = .ok cursor := by
  have hid : uuidOf (.str (codePoints (String.ofList (uuidStr cursor.id)))) >>= (fun id =>
      timeOf (.str (codePoints (String.ofList cursor.updatedAt.isoformat))) >>= fun updatedAt =>
        if updatedAt.offset = none then .error .invalidCursor
        else .ok
          { updatedAt := updatedAt
            id := id
            isPinned := cursor.isPinned }) = .ok cursor := by
    rw [uuidOf_str, ok_bind, timeOf_isoformat, ok_bind, if_neg haware]
  exact hid

theorem readConversationCursor_encode {cursor : ConversationListCursor}
    (haware : cursor.updatedAt.offset ≠ none) :
    readConversationCursor (depth + 1) (encodeConversationCursor cursor).toList = .ok cursor := by
  rw [readConversationCursor, encodeConversationCursor,
    readPayload_write (conversationPayload_readable depth cursor), ok_bind, conversationOf_payload haware]

/-- `decode_conversation_cursor` undoes `encode_conversation_cursor`. -/
theorem decodeConversationCursor_encode {cursor : ConversationListCursor}
    (haware : cursor.updatedAt.offset ≠ none) :
    decodeConversationCursor (depth + 1) (some (encodeConversationCursor cursor)) =
      .ok (some cursor) := by
  have haccepted : ¬((encodeConversationCursor cursor).toList = [] ∨
      ((encodeConversationCursor cursor).toList.any fun c => !isUrlsafe c) = true) := by
    have hsafe := (unpadded_encode (utf8Encode ((conversationPayload cursor).dumps .compact))).2.2
    rintro (hnil | hany)
    · exact writePayload_ne_nil (conversationPayload_readable 0 cursor) hnil
    · rcases List.any_eq_true.1 hany with ⟨c, hc, hbad⟩
      rw [encodeConversationCursor, writePayload, String.toList_ofList] at hc
      rw [hsafe c hc] at hbad
      cases hbad
  simp only [decodeConversationCursor, if_neg haccepted, readConversationCursor_encode haware,
    guarded]
  rfl

end RoundTrip

/-! ## What escapes -/

section Escapes

variable {depth : Nat} {value : List Char} {α β : Type}

/-- Something is raised that the `except` clause does not catch. -/
def Escapes (x : Except Raised α) : Prop := ∃ e, x = .error e ∧ e.caught = false

theorem escapes_ok {a : α} : ¬Escapes (.ok a : Except Raised α) := by
  rintro ⟨e, he, -⟩
  cases he

theorem escapes_error {e : Raised} :
    Escapes (.error e : Except Raised α) ↔ e.caught = false := by
  constructor
  · rintro ⟨e', he, hcaught⟩
    cases he
    exact hcaught
  · intro hcaught
    exact ⟨e, rfl, hcaught⟩

theorem escapes_bind {x : Except Raised α} {f : α → Except Raised β} :
    Escapes (x >>= f) ↔ Escapes x ∨ ∃ a, x = .ok a ∧ Escapes (f a) := by
  cases x with
  | ok a => simp [escapes_ok]
  | error e =>
    have herror : (Except.error e >>= f) = Except.error e := rfl
    simp [herror, escapes_error]

/-- The identifier is a number, a boolean, a list or an object. -/
def IsNeither : JsonValue → Prop
  | .str _ | .null => False
  | _ => True

theorem escapes_uuidOf {v : JsonValue} : Escapes (uuidOf v) ↔ IsNeither v := by
  cases v with
  | str points =>
    have hcaught : ¬Escapes (uuidOf (.str points)) := by
      rw [uuidOf]
      cases uuidOfText (textOf points) with
      | some id => exact escapes_ok
      | none => simp [escapes_error, Raised.caught]
    exact iff_of_false hcaught id
  | null => simp [uuidOf, escapes_error, Raised.caught, IsNeither]
  | _ => simp [uuidOf, escapes_error, Raised.caught, IsNeither]

theorem escapes_timeOf {v : JsonValue} : ¬Escapes (timeOf v) := by
  cases v with
  | str points =>
    rw [timeOf]
    cases fromisoformat (textOf points) with
    | some t => exact escapes_ok
    | none => simp [escapes_error, Raised.caught]
  | _ => simp [timeOf, escapes_error, Raised.caught]

theorem escapes_getItem {payload : JsonValue} {name : String} :
    ¬Escapes (getItem payload name) := by
  cases payload with
  | obj fields =>
    rw [getItem, member]
    cases JsonValue.field fields (codePoints name) with
    | some v => exact escapes_ok
    | none => simp [escapes_error, Raised.caught]
  | _ => simp [getItem, escapes_error, Raised.caught]

theorem escapes_readPayload :
    Escapes (readPayload depth value) ↔ readPayload depth value = .error .recursionError := by
  constructor
  · rintro ⟨e, he, hcaught⟩
    rw [he]
    unfold readPayload at he
    cases htext : (urlsafeB64decode (padded value)).bind utf8Decode with
    | none =>
      rw [htext] at he
      cases he
      cases hcaught
    | some text =>
      simp only [htext] at he
      cases hloads : loads depth text with
      | ok v =>
        rw [hloads] at he
        cases he
      | error raised =>
        rw [hloads] at he
        cases he
        cases raised with
        | decode => cases hcaught
        | digits => cases hcaught
        | recursion => rfl
        | exhausted => exact absurd hloads loads_ne_exhausted
  · intro hraised
    exact ⟨.recursionError, hraised, rfl⟩

/-- An object with a time that can be read, and an identifier that is neither text nor null. -/
def TaskTrap : JsonValue → Prop
  | .obj fields => ∃ points t id,
      JsonValue.field fields (codePoints "updated_at") = some (.str points) ∧
        fromisoformat (textOf points) = some t ∧
        JsonValue.field fields (codePoints "id") = some id ∧ IsNeither id
  | _ => False

theorem timeOf_ok {v : JsonValue} {t : Timestamp} :
    timeOf v = .ok t ↔ ∃ points, v = .str points ∧ fromisoformat (textOf points) = some t := by
  cases v with
  | str points =>
    rw [timeOf]
    cases hread : fromisoformat (textOf points) <;> simp [hread]
  | _ => simp [timeOf]

theorem getItem_ok {fields : List (List Nat × JsonValue)} {name : String} {v : JsonValue} :
    getItem (.obj fields) name = .ok v ↔ JsonValue.field fields (codePoints name) = some v := by
  rw [getItem, member]
  cases JsonValue.field fields (codePoints name) <;> simp

theorem escapes_taskOf {payload : JsonValue} : Escapes (taskOf payload) ↔ TaskTrap payload := by
  simp only [taskOf, escapes_bind, escapes_getItem, escapes_timeOf, escapes_uuidOf, escapes_ok,
    and_false, exists_false, or_false, false_or]
  cases payload with
  | obj fields =>
    simp only [getItem_ok, timeOf_ok]
    constructor
    · rintro ⟨_, htime, t, ⟨points, rfl, ht⟩, id, hid, hneither⟩
      exact ⟨points, t, id, htime, ht, hid, hneither⟩
    · rintro ⟨points, t, id, htime, ht, hid, hneither⟩
      exact ⟨.str points, htime, t, ⟨points, rfl, ht⟩, id, hid, hneither⟩
  | _ => simp [getItem, TaskTrap]

/-- An object with a time, and an identifier that is neither text nor null. -/
def ConversationTrap : JsonValue → Prop
  | .obj fields => ∃ v id, JsonValue.field fields (codePoints "updated_at") = some v ∧
      JsonValue.field fields (codePoints "id") = some id ∧ IsNeither id
  | _ => False

theorem escapes_pinOf {fields : List (List Nat × JsonValue)} : ¬Escapes (pinOf fields) := by
  unfold pinOf
  split
  · exact escapes_ok
  · exact escapes_ok
  · simp [escapes_error, Raised.caught]

theorem escapes_conversationOf {payload : JsonValue} :
    Escapes (conversationOf payload) ↔ ConversationTrap payload := by
  have hinvalid : ¬Escapes (.error .invalidCursor : Except Raised ConversationListCursor) := by
    simp [escapes_error, Raised.caught]
  cases payload with
  | obj fields =>
    rw [conversationOf, ConversationTrap]
    cases hid : JsonValue.field fields (codePoints "id") with
    | none => simpa using hinvalid
    | some id =>
      cases htime : JsonValue.field fields (codePoints "updated_at") with
      | none => simpa using hinvalid
      | some v =>
        have hrest {id : Uuid} {t : Timestamp} : ¬Escapes (if t.offset = none then
            (.error .invalidCursor : Except Raised ConversationListCursor)
          else pinOf fields >>= fun isPinned =>
            .ok { updatedAt := t, id := id, isPinned := isPinned }) := by
          split_ifs
          · exact hinvalid
          · simp [escapes_bind, escapes_pinOf, escapes_ok]
        simp [escapes_bind, escapes_uuidOf, escapes_timeOf, hrest]
  | _ => simpa [conversationOf, ConversationTrap] using hinvalid

end Escapes

/-! ## A decoder answers -/

/-- The object is nested deeper than the interpreter recurses. -/
def TooDeep (depth : Nat) (value : String) : Prop :=
  readPayload depth value.toList = .error .recursionError

/-- The value is decoded, and its payload is one of `trap`. -/
def Holds (depth : Nat) (value : String) (trap : JsonValue → Prop) : Prop :=
  ∃ payload, readPayload depth value.toList = .ok payload ∧ trap payload

def TaskEscape (depth : Nat) (value : String) : Prop :=
  (value.toList ≠ [] ∧ value.toList.length ≤ 256) ∧
    (TooDeep depth value ∨ Holds depth value TaskTrap)

def ConversationEscape (depth : Nat) (value : String) : Prop :=
  (value.toList ≠ [] ∧ ∀ c ∈ value.toList, isUrlsafe c = true) ∧
    (TooDeep depth value ∨ Holds depth value ConversationTrap)

/-- `InvalidTaskCursor`, or a cursor of an aware time. -/
def TaskAnswered : Except Raised (Option TaskListCursor) → Prop
  | .ok (some cursor) => cursor.updatedAt.offset ≠ none
  | .ok none => False
  | .error e => e = .invalidCursor

/-- `InvalidConversationCursor`, or a cursor of an aware time. -/
def ConversationAnswered : Except Raised (Option ConversationListCursor) → Prop
  | .ok (some cursor) => cursor.updatedAt.offset ≠ none
  | .ok none => False
  | .error e => e = .invalidCursor

section Answers

variable {depth : Nat} {value : String}

theorem guarded_error {α : Type} {x : Except Raised α} {e : Raised} (h : guarded x = .error e) :
    e = .invalidCursor ↔ ¬Escapes x := by
  cases x with
  | ok a => cases h
  | error raised =>
    rw [escapes_error]
    cases h
    cases raised <;> simp [Raised.caught]

theorem guarded_ok {α : Type} {x : Except Raised α} {a : α} : guarded x = .ok a ↔ x = .ok a := by
  cases x <;> simp [guarded]

theorem escapes_readTaskCursor : Escapes (readTaskCursor depth value.toList) ↔
    TooDeep depth value ∨ Holds depth value TaskTrap := by
  simp only [readTaskCursor, escapes_bind, escapes_readPayload, escapes_taskOf, TooDeep, Holds]

theorem escapes_readConversationCursor : Escapes (readConversationCursor depth value.toList) ↔
    TooDeep depth value ∨ Holds depth value ConversationTrap := by
  simp only [readConversationCursor, escapes_bind, escapes_readPayload, escapes_conversationOf,
    TooDeep, Holds]

theorem decodeTaskCursor_answered :
    TaskAnswered (decodeTaskCursor depth (some value)) ↔ ¬TaskEscape depth value := by
  rw [decodeTaskCursor, TaskEscape, ← escapes_readTaskCursor]
  by_cases haccepted : value.toList = [] ∨ 256 < value.toList.length
  · rw [if_pos haccepted]
    refine iff_of_true rfl fun h => ?_
    rcases haccepted with hnil | hlong
    · exact h.1.1 hnil
    · exact absurd h.1.2 (by omega)
  · have hlen : value.toList ≠ [] ∧ value.toList.length ≤ 256 := by
      rw [not_or] at haccepted
      exact ⟨haccepted.1, by omega⟩
    rw [if_neg haccepted]
    cases hread : guarded (readTaskCursor depth value.toList) with
    | error e =>
      have hiff := guarded_error hread
      exact hiff.trans (not_congr (iff_of_eq (by rw [eq_true hlen, true_and])))
    | ok cursor =>
      have hok : ¬Escapes (readTaskCursor depth value.toList) := by
        rw [guarded_ok.1 hread]
        exact escapes_ok
      rw [ok_bind]
      refine iff_of_true ?_ fun h => hok h.2
      split_ifs with haware
      · rfl
      · exact haware

/-- A cursor that is read has an aware time. -/
theorem conversationOf_aware {payload : JsonValue} {cursor : ConversationListCursor}
    (h : conversationOf payload = .ok cursor) : cursor.updatedAt.offset ≠ none := by
  cases payload with
  | obj fields =>
    rw [conversationOf] at h
    cases hid : JsonValue.field fields (codePoints "id") with
    | none =>
      simp only [hid] at h
      cases h
    | some id =>
      cases htime : JsonValue.field fields (codePoints "updated_at") with
      | none =>
        simp only [hid, htime] at h
        cases h
      | some v =>
        simp only [hid, htime, except_bind_ok] at h
        rcases h with ⟨uuid, -, t, -, hrest⟩
        split_ifs at hrest with haware
        rcases except_bind_ok.1 hrest with ⟨pinned, -, hcursor⟩
        cases hcursor
        exact haware
  | _ => cases h

theorem decodeConversationCursor_answered :
    ConversationAnswered (decodeConversationCursor depth (some value)) ↔
      ¬ConversationEscape depth value := by
  rw [decodeConversationCursor, ConversationEscape, ← escapes_readConversationCursor]
  by_cases haccepted : value.toList = [] ∨ (value.toList.any fun c => !isUrlsafe c) = true
  · rw [if_pos haccepted]
    refine iff_of_true rfl fun h => ?_
    rcases haccepted with hnil | hany
    · exact h.1.1 hnil
    · rcases List.any_eq_true.1 hany with ⟨c, hc, hbad⟩
      rw [h.1.2 c hc] at hbad
      cases hbad
  · have hsafe : value.toList ≠ [] ∧ ∀ c ∈ value.toList, isUrlsafe c = true := by
      rw [not_or] at haccepted
      exact ⟨haccepted.1, by simpa using haccepted.2⟩
    rw [if_neg haccepted]
    cases hread : guarded (readConversationCursor depth value.toList) with
    | error e =>
      have hiff := guarded_error hread
      exact hiff.trans (not_congr (iff_of_eq (by rw [eq_true hsafe, true_and])))
    | ok cursor =>
      rw [guarded_ok] at hread
      have hok : ¬Escapes (readConversationCursor depth value.toList) := by
        rw [hread]
        exact escapes_ok
      rcases except_bind_ok.1 hread with ⟨payload, -, hcursor⟩
      exact iff_of_true (conversationOf_aware hcursor) fun h => hok h.2

end Answers

theorem not_answered {depth : Nat} {value : String} (hescape : TaskEscape depth value) :
    ¬∀ (depth : Nat) (value : String), TaskAnswered (decodeTaskCursor depth (some value)) ∧
      ConversationAnswered (decodeConversationCursor depth (some value)) := by
  intro h
  exact decodeTaskCursor_answered.1 (h depth value).1 hescape

def numberedPayload : Json :=
  .obj [("updated_at", .str "2024-01-01T00:00:00+00:00"), ("id", .int 1)]

/-- The Base64 of `{"updated_at":"2024-01-01T00:00:00+00:00","id":1}`. -/
def numberedCursor : String :=
  "eyJ1cGRhdGVkX2F0IjoiMjAyNC0wMS0wMVQwMDowMDowMCswMDowMCIsImlkIjoxfQ"

theorem numberedCursor_eq : numberedCursor.toList = (writePayload numberedPayload).toList := by
  rw [writePayload, String.toList_ofList]
  decide +kernel

theorem numberedPayload_trap : TaskTrap numberedPayload.value := by
  have htime : (fromisoformat (textOf (codePoints "2024-01-01T00:00:00+00:00"))).isSome = true := by
    decide +kernel
  rcases Option.isSome_iff_exists.1 htime with ⟨t, ht⟩
  exact ⟨codePoints "2024-01-01T00:00:00+00:00", t, .int 1, rfl, ht, rfl, trivial⟩

end GoAgent.Http
