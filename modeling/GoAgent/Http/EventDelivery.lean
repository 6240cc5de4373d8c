import GoAgent.Http.EventStream

/-!
# The delivery of events

**A frame that breaks off.** It has no data line, or its data are a beginning of the payload. The
text of an object is no beginning of another one, so a payload that breaks off is refused.

**Names.** The reader trims the name of an event, so a name with white space at its ends is not the
one that was sent.

* `readChunks_eq` — the frames of the whole text are delivered, whatever the pieces.
* `received_cut` — a frame that breaks off is the event that was sent, or none.
* `postSse_delivers` — the events arrive as they were sent, or the first of them.
* `padded_name_altered` — not so with white space around a name.
-/

namespace GoAgent.Http

open GoAgent.Foundation

variable {depth : Nat} {a b s t text : List Char} {c : Char} {frames more : List (List Char)}
  {e : ServerSentEvent} {events sent : List ServerSentEvent} {chunks : List (List UInt8)}

/-! ## What is received -/

/-- What is received when a frame says so, and then the rest. -/
def receive : Except StreamingHttpError (Option ServerSentEvent) → List ServerSentEvent →
    List ServerSentEvent
  | .ok none, later => later
  | .ok (some e), later => e :: later
  | .error _, _ => []

/-- The events of the frames up to the first one that is refused. -/
def received (depth : Nat) : List (List Char) → List ServerSentEvent
  | [] => []
  | frame :: frames => receive (parseEvent depth frame) (received depth frames)

/-! ## The lines of a frame -/

section Lines

variable {z q x : List Char} {lines : List (List Char)} {fields : List (List Nat × JsonValue)}

def nameLine (e : ServerSentEvent) : List Char := "event: ".toList ++ e.event

def dataLine (e : ServerSentEvent) : List Char := "data: ".toList ++ e.payload

theorem serializeSseEvent_lines (e : ServerSentEvent) :
    serializeSseEvent e = ['\n'].intercalate [nameLine e, dataLine e] ++ ['\n', '\n'] := by
  have hdata : "\ndata: ".toList = ['\n'] ++ "data: ".toList := by simp
  have hend : "\n\n".toList = ['\n', '\n'] := by simp
  unfold serializeSseEvent nameLine dataLine
  rw [List.intercalate_cons_cons, List.intercalate_singleton, hdata, hend]
  simp only [List.append_assoc]

theorem trim_space : trim (' ' :: s) = trim s := rfl

/-- Nothing is trimmed off a text that starts and ends with other characters. -/
theorem trim_closed (hhead : ∀ c, a.head? = some c → isTrimmed c = false)
    (hlast : ∀ c, a.getLast? = some c → isTrimmed c = false) : trim a = a := by
  have hstart : a.dropWhile isTrimmed = a := by
    cases a with
    | nil => rfl
    | cons c cs => rw [List.dropWhile_cons, hhead c rfl, if_neg Bool.false_ne_true]
  rw [trim, hstart, List.rdropWhile_eq_self_iff]
  intro hne htrimmed
  rw [hlast _ (List.getLast?_eq_some_getLast hne)] at htrimmed
  cases htrimmed

theorem fieldLines_append (field : List Char) (lines more : List (List Char)) :
    fieldLines field (lines ++ more) = fieldLines field lines ++ fieldLines field more := by
  unfold fieldLines
  rw [List.filter_append, List.map_append]

/-- A line with another field says nothing. -/
theorem fieldLines_other {field : List Char} (hx : ¬field <+: x) : fieldLines field [x] = [] := by
  have hprefix : field.isPrefixOf x = false := by
    rw [Bool.eq_false_iff]
    intro h
    exact hx (List.isPrefixOf_iff_prefix.1 h)
  rw [fieldLines, List.filter_singleton, hprefix, cond_false, List.map_nil]

theorem fieldLines_own (field z : List Char) : fieldLines field [field ++ z] = [trim z] := by
  have hprefix : field.isPrefixOf (field ++ z) = true :=
    List.isPrefixOf_iff_prefix.2 (List.prefix_append _ _)
  rw [fieldLines, List.filter_singleton, hprefix, cond_true, List.map_singleton, List.drop_left]

theorem fieldLines_name (h : trim e.event = e.event) :
    fieldLines "event:".toList [nameLine e] = [e.event] := by
  have hfield : "event: ".toList = "event:".toList ++ [' '] := by simp
  unfold nameLine
  rw [hfield, List.append_assoc, fieldLines_own, List.singleton_append, trim_space, h]

theorem not_prefix_of_head {field : List Char} {d : Char} (hne : c ≠ d) : ¬c :: field <+: d :: x :=
  fun h => hne (List.cons_prefix_cons.1 h).1

theorem name_no_data : fieldLines "data:".toList [nameLine e] = [] := by
  have hname : "event: ".toList = 'e' :: "vent: ".toList := by simp
  have hdata : "data:".toList = 'd' :: "ata:".toList := by simp
  apply fieldLines_other
  unfold nameLine
  rw [hname, hdata]
  exact not_prefix_of_head (by decide)

theorem data_no_name : fieldLines "event:".toList ["data:".toList ++ z] = [] := by
  have hname : "event:".toList = 'e' :: "vent:".toList := by simp
  have hdata : "data:".toList = 'd' :: "ata:".toList := by simp
  apply fieldLines_other
  rw [hname, hdata]
  exact not_prefix_of_head (by decide)

/-- Without a data line there is no event. -/
theorem readLines_noData (h : fieldLines "data:".toList lines = []) :
    readLines depth lines = .ok none := by
  unfold readLines
  rw [h]
  exact if_pos (Or.inr rfl)

theorem readLines_other (hname : ¬"event:".toList <+: x) (hdata : ¬"data:".toList <+: x) :
    readLines depth (lines ++ [x]) = readLines depth lines := by
  unfold readLines
  rw [fieldLines_append, fieldLines_append, fieldLines_other hname, fieldLines_other hdata,
    List.append_nil, List.append_nil]

theorem names_read (htrim : trim e.event = e.event) :
    fieldLines "event:".toList [nameLine e, "data:".toList ++ z] = [e.event] := by
  rw [← List.singleton_append, fieldLines_append, fieldLines_name htrim, data_no_name,
    List.append_nil]

theorem data_read : fieldLines "data:".toList [nameLine e, "data:".toList ++ z] = [trim z] := by
  rw [← List.singleton_append, fieldLines_append, fieldLines_own, name_no_data, List.nil_append]

/-- An event is read if its data are an object. -/
theorem readLines_object (hname : e.event ≠ []) (htrim : trim e.event = e.event)
    (hz : trim z ≠ []) (hparse : jsonParse depth (trim z) = some (.obj fields)) :
    readLines depth [nameLine e, "data:".toList ++ z] =
      .ok (some { event := e.event, data := fields }) := by
  unfold readLines
  rw [names_read htrim, data_read, List.intercalate_singleton]
  dsimp only [List.head?_cons, Option.getD_some]
  rw [if_neg (not_or.2 ⟨hname, hz⟩), hparse]

/-- Nothing else is received if the data are no other object. -/
theorem receive_data (htrim : trim e.event = e.event)
    (hparse : ∀ fields, jsonParse depth (trim z) = some (.obj fields) → fields = e.data) :
    receive (readLines depth [nameLine e, "data:".toList ++ z]) [] <+: [e] := by
  unfold readLines
  rw [names_read htrim, data_read, List.intercalate_singleton]
  dsimp only [List.head?_cons, Option.getD_some]
  split_ifs with hnone
  · exact List.nil_prefix
  · cases hvalue : jsonParse depth (trim z) with
    | none => exact List.nil_prefix
    | some v =>
      cases v with
      | obj fields =>
        rw [hparse fields hvalue]
        exact List.prefix_rfl
      | _ => exact List.nil_prefix

end Lines

/-! ## The payload that is read -/

section Objects

variable {z q x : List Char} {d fields : List (List Nat × JsonValue)}

theorem eventStyle_spaced : eventStyle.Spaced where
  item := ⟨[], rfl, fun _ hc => nomatch hc⟩
  key := ⟨[], rfl, fun _ hc => nomatch hc⟩

theorem payload_braces (e : ServerSentEvent) : ∃ body, e.payload = '\x7b' :: (body ++ ['\x7d']) :=
  ⟨writeFields eventStyle e.data, rfl⟩

theorem jsonParse_payload (h : Sendable depth (.obj e.data)) :
    jsonParse depth e.payload = some (.obj e.data) := by
  rw [jsonParse, ServerSentEvent.payload, loads_write eventStyle_spaced h.readable]
  exact h.numbers

theorem jsonParse_obj (h : jsonParse depth s = some (.obj fields)) :
    ∃ d, loads depth s = .ok (.obj d) ∧ numbersFields d = some fields := by
  unfold jsonParse at h
  cases hload : loads depth s with
  | error err =>
    rw [hload] at h
    cases h
  | ok v =>
    rw [hload] at h
    dsimp only at h
    cases v with
    | obj d =>
      rw [numbers, Option.map_eq_some_iff] at h
      rcases h with ⟨same, hsame, hfields⟩
      cases hfields
      exact ⟨d, rfl, hsame⟩
    | int n =>
      rw [numbers] at h
      split_ifs at h
      all_goals cases h
    | float n =>
      rw [numbers] at h
      split_ifs at h
      cases h
    | arr items =>
      rw [numbers, Option.map_eq_some_iff] at h
      rcases h with ⟨same, -, hfields⟩
      cases hfields
    | _ => cases h

/-- **A beginning of the payload is no other object.** -/
theorem jsonParse_prefix (h : Sendable depth (.obj e.data)) (hq : q <+: e.payload)
    (hparse : jsonParse depth q = some (.obj fields)) : fields = e.data := by
  rcases jsonParse_obj hparse with ⟨d, hload, hfields⟩
  rcases loads_object hload with ⟨a, body, b, ha, -, hbraces, hread⟩
  rcases hq with ⟨r, hr⟩
  have hnil : a = [] := by
    cases a with
    | nil => rfl
    | cons c a =>
      exfalso
      rcases payload_braces e with ⟨inner, hinner⟩
      rw [hbraces, hinner] at hr
      have hc := ha c List.mem_cons_self
      rw [(List.cons.inj hr).1] at hc
      cases hc
  rw [hnil, List.nil_append] at hbraces
  have hpayload : e.payload = '\x7b' :: (body ++ '\x7d' :: (b ++ r)) := by
    rw [← hr, hbraces]
    simp
  have hwrite := (scanOnce_write eventStyle_spaced h.readable).reads [] fun _ hc => nomatch hc
  have hfirst := hread depth le_rfl (b ++ r)
  rw [List.append_nil] at hwrite
  rw [← hpayload] at hfirst
  have hd : d = e.data := by
    have heq := hfirst.symm.trans hwrite
    exact JsonValue.obj.inj (Prod.mk.inj (Except.ok.inj heq)).1
  have hsame := h.numbers
  rw [numbers, ← hd, hfields, Option.map_some] at hsame
  rw [← hd]
  exact JsonValue.obj.inj (Option.some.inj hsame)

/-- What ends with a replaced character is no object. -/
theorem jsonParse_replaced : jsonParse depth (z ++ [replacementChar]) ≠ some (.obj fields) := by
  intro hparse
  rcases jsonParse_obj hparse with ⟨d, hload, -⟩
  rcases loads_object hload with ⟨a, body, b, -, hb, hbraces, -⟩
  have hlast := congrArg List.getLast? hbraces
  rw [List.getLast?_concat] at hlast
  cases hrev : b.reverse with
  | nil =>
    rw [List.reverse_eq_nil_iff.1 hrev] at hlast
    have hend : a ++ '\x7b' :: (body ++ ['\x7d']) = (a ++ '\x7b' :: body) ++ ['\x7d'] := by simp
    rw [hend, List.getLast?_concat] at hlast
    exact absurd (Option.some.inj hlast) (by decide)
  | cons c cs =>
    have hb' : b = cs.reverse ++ [c] := by
      rw [← List.reverse_reverse b, hrev, List.reverse_cons]
    have hend : a ++ '\x7b' :: (body ++ '\x7d' :: (cs.reverse ++ [c])) =
        (a ++ '\x7b' :: (body ++ '\x7d' :: cs.reverse)) ++ [c] := by simp
    rw [hb', hend, List.getLast?_concat] at hlast
    have hc := hb c (by rw [hb']; simp)
    rw [← Option.some.inj hlast] at hc
    cases hc

theorem trim_payload (e : ServerSentEvent) : trim e.payload = e.payload := by
  rcases payload_braces e with ⟨body, hbody⟩
  rw [hbody]
  apply trim_closed
  · intro c hc
    cases hc
    rfl
  · intro c hc
    rw [← List.cons_append, List.getLast?_concat] at hc
    cases hc
    rfl

/-- A part of the payload that is trimmed is a part of it. -/
theorem trim_prefix (hq : q <+: e.payload) : trim q <+: e.payload := by
  have hstart : q.dropWhile isTrimmed = q := by
    cases q with
    | nil => rfl
    | cons c cs =>
      rcases payload_braces e with ⟨body, hbody⟩
      rw [hbody] at hq
      rw [(List.cons_prefix_cons.1 hq).1]
      rfl
  rw [trim, hstart]
  exact (List.rdropWhile_prefix isTrimmed q).trans hq

theorem trim_replaced (hq : q <+: e.payload) :
    trim (q ++ [replacementChar]) = q ++ [replacementChar] := by
  apply trim_closed
  · intro c hc
    cases q with
    | nil =>
      cases hc
      rfl
    | cons d cs =>
      rcases payload_braces e with ⟨body, hbody⟩
      rw [hbody] at hq
      rw [(List.cons_prefix_cons.1 hq).1] at hc
      cases hc
      rfl
  · intro c hc
    rw [List.getLast?_concat] at hc
    cases hc
    rfl

end Objects

/-! ## A frame that breaks off -/

section Cut

variable {w x l rest : List Char} {ls lines : List (List Char)}

/-- No line ends in the text. -/
def Plain (text : List Char) : Prop := ∀ c ∈ text, c ≠ '\n' ∧ c ≠ '\r'

theorem Plain.of_prefix (hb : Plain b) (h : a <+: b) : Plain a :=
  fun c hc => hb c (h.subset hc)

theorem Plain.append (ha : Plain a) (hb : Plain b) : Plain (a ++ b) := by
  intro c hc
  rcases List.mem_append.1 hc with hc | hc
  · exact ha c hc
  · exact hb c hc

theorem plain_of_printable (h : Printable text) : Plain text := by
  intro c hc
  have hcontrol := h c hc
  constructor
  · rintro rfl
    exact absurd hcontrol (by decide)
  · rintro rfl
    exact absurd hcontrol (by decide)

theorem plain_nameLine (h : Sent depth e) : Plain (nameLine e) := by
  apply Plain.append
  · exact plain_of_printable (printable_of_all (by simp))
  · intro c hc
    constructor
    · rintro rfl
      exact h.line.1 hc
    · rintro rfl
      exact h.line.2 hc

theorem plain_dataLine (h : Sent depth e) : Plain (dataLine e) :=
  Plain.append (plain_of_printable (printable_of_all (by simp)))
    (plain_of_printable h.data.printable)

/-- What the end of the stream leaves of a character: nothing, or the sign for it. -/
def Leftover (x : List Char) : Prop := x = [] ∨ x = [replacementChar]

theorem Leftover.plain (hx : Leftover x) : Plain x := by
  rcases hx with rfl | rfl
  · exact fun c hc => nomatch hc
  · exact plain_of_printable (printable_of_all rfl)

/-- A field that ends in another character is not made of what is left. -/
theorem Leftover.prefix {field : List Char} (hx : Leftover x)
    (hlast : field.getLast? ≠ some replacementChar) (h : field <+: w ++ x) : field <+: w := by
  rcases hx with rfl | rfl
  · rw [List.append_nil] at h
    exact h
  · rcases List.prefix_concat_iff.1 h with heq | h
    · rw [heq, List.getLast?_concat] at hlast
      exact absurd rfl hlast
    · exact h

theorem prefix_append_cases (h : t <+: a ++ b) : t <+: a ∨ ∃ u, t = a ++ u ∧ u <+: b := by
  rcases List.prefix_or_prefix_of_prefix h (List.prefix_append a b) with ha | ⟨u, rfl⟩
  · exact Or.inl ha
  · exact Or.inr ⟨u, rfl, (List.prefix_append_right_inj a).1 h⟩

theorem plain_intercalate (h : ∀ x ∈ lines, '\r' ∉ x) : '\r' ∉ ['\n'].intercalate lines := by
  induction lines with
  | nil => exact List.not_mem_nil
  | cons l ls ih =>
    have hl := h l List.mem_cons_self
    have hrest := ih fun x hx => h x (List.mem_cons_of_mem l hx)
    cases ls with
    | nil =>
      rw [List.intercalate_singleton]
      exact hl
    | cons l' ls =>
      rw [List.intercalate_cons_cons, List.mem_append, List.mem_append]
      rintro ((hc | hc) | hc)
      · exact hl hc
      · exact absurd (List.mem_singleton.1 hc) (by decide)
      · exact hrest hc

/-- The lines of a frame are read. -/
theorem parseEvent_lines (hne : lines ≠ []) (hlines : ∀ x ∈ lines, Plain x) :
    parseEvent depth (['\n'].intercalate lines) = readLines depth lines := by
  have hreturn := plain_intercalate fun x hx hc => (hlines x hx _ hc).2 rfl
  have hfilter : (['\n'].intercalate lines).filter (fun c => c != '\r') =
      ['\n'].intercalate lines := by
    apply List.filter_eq_self.2
    intro c hc
    rw [bne_iff_ne]
    rintro rfl
    exact hreturn hc
  rw [parseEvent, hfilter, List.splitOn_intercalate _ (fun x hx hc => (hlines x hx _ hc).1 rfl) hne]

theorem received_lines (hlines : ∀ x ∈ l :: ls, Plain x) (hls : ∀ x ∈ ls, x ≠ [])
    (rest : List Char) :
    received depth (splitFrames (['\n'].intercalate (l :: ls) ++ '\n' :: '\n' :: rest)).1 =
      receive (readLines depth (l :: ls)) (received depth (splitFrames rest).1) := by
  rw [splitFrames_lines (fun x hx hc => (hlines x hx _ hc).1 rfl) hls, received,
    parseEvent_lines (List.cons_ne_nil l ls) hlines]

theorem dataLine_eq (e : ServerSentEvent) : dataLine e = "data:".toList ++ ' ' :: e.payload := by
  have hfield : "data: ".toList = "data:".toList ++ [' '] := by simp
  unfold dataLine
  rw [hfield, List.append_assoc, List.singleton_append]

theorem readLines_event (h : Sent depth e) :
    readLines depth [nameLine e, dataLine e] = .ok (some e) := by
  have htrim : trim (' ' :: e.payload) = e.payload := trim_payload e
  rw [dataLine_eq]
  apply readLines_object h.named h.trimmed
  · rw [htrim]
    rcases payload_braces e with ⟨body, hbody⟩
    rw [hbody]
    exact List.cons_ne_nil _ _
  · rw [htrim]
    exact jsonParse_payload h.data

theorem plain_lines (h : Sent depth e) : ∀ x ∈ [nameLine e, dataLine e], Plain x := by
  intro x hx
  rcases List.mem_cons.1 hx with rfl | hx
  · exact plain_nameLine h
  · rw [List.mem_singleton.1 hx]
    exact plain_dataLine h

theorem dataLine_ne_nil (e : ServerSentEvent) : dataLine e ≠ [] := by
  rw [dataLine_eq]
  exact List.append_ne_nil_of_right_ne_nil _ (List.cons_ne_nil _ _)

/-- A frame is the event that was sent. -/
theorem frame_event (h : Sent depth e) (rest : List Char) :
    ∃ frame, parseEvent depth frame = .ok (some e) ∧
      (splitFrames (serializeSseEvent e ++ rest)).1 = frame :: (splitFrames rest).1 := by
  refine ⟨['\n'].intercalate [nameLine e, dataLine e], ?_, ?_⟩
  · rw [parseEvent_lines (List.cons_ne_nil _ _) (plain_lines h), readLines_event h]
  · have hline : ∀ x ∈ [nameLine e, dataLine e], '\n' ∉ x :=
      fun x hx hc => (plain_lines h x hx _ hc).1 rfl
    have hsplit := splitFrames_lines hline (by simpa using dataLine_ne_nil e) rest
    rw [serializeSseEvent_lines, List.append_assoc]
    exact congrArg Prod.fst hsplit

theorem received_event (h : Sent depth e) (rest : List Char) :
    received depth (splitFrames (serializeSseEvent e ++ rest)).1 =
      e :: received depth (splitFrames rest).1 := by
  rcases frame_event h rest with ⟨frame, hparse, hsplit⟩
  rw [hsplit, received, hparse, receive]

theorem noData_leftover (hx : Leftover x) : ¬"data:".toList <+: x := by
  intro h
  have hnil := @ Leftover.prefix [] x _ hx (by simp [replacementChar]) h
  exact absurd (List.prefix_nil.1 hnil) (by simp)

theorem received_leftover (hx : Leftover x) :
    received depth (splitFrames (x ++ ['\n', '\n'])).1 = [] := by
  have hlines := @received_lines depth x [] (by simpa using hx.plain) (by simp) []
  rw [readLines_noData (fieldLines_other (noData_leftover hx)),
    List.intercalate_singleton] at hlines
  exact hlines

/-- The data of a frame that breaks off are those that were sent, or none. -/
theorem receive_cut (h : Sent depth e) (hx : Leftover x) (hw : w <+: dataLine e) :
    receive (readLines depth [nameLine e, w ++ x]) [] <+: [e] := by
  by_cases hdata : "data:".toList <+: w ++ x
  · rcases hx.prefix (by simp [replacementChar]) hdata with ⟨z, rfl⟩
    rw [dataLine_eq, List.prefix_append_right_inj] at hw
    have hcut : ∃ q, q <+: e.payload ∧ trim (z ++ x) = trim (q ++ x) := by
      rcases List.prefix_cons_iff.1 hw with rfl | ⟨q, rfl, hq⟩
      · exact ⟨[], List.nil_prefix, rfl⟩
      · exact ⟨q, hq, rfl⟩
    rcases hcut with ⟨q, hq, htrim⟩
    rw [List.append_assoc]
    apply receive_data h.trimmed
    intro fields hparse
    rw [htrim] at hparse
    rcases hx with rfl | rfl
    · rw [List.append_nil] at hparse
      exact jsonParse_prefix h.data ( trim_prefix hq) hparse
    · rw [trim_replaced hq] at hparse
      exact absurd hparse jsonParse_replaced
  · have hnone : fieldLines "data:".toList [nameLine e, w ++ x] = [] := by
      rw [← List.singleton_append, fieldLines_append, name_no_data, fieldLines_other hdata,
        List.nil_append]
    rw [readLines_noData hnone]
    exact List.nil_prefix

/-- The name alone is no event. -/
theorem received_name (h : Sent depth e) (hx : Leftover x) (ht : t <+: nameLine e) :
    received depth (splitFrames (t ++ x ++ ['\n', '\n'])).1 = [] := by
  have hplain : Plain (t ++ x) := (Plain.of_prefix (plain_nameLine h) ht).append hx.plain
  have hnone : ¬"data:".toList <+: t ++ x := by
    intro hdata
    have hname := ( hx.prefix (by simp [replacementChar]) hdata).trans ht
    have he : "event: ".toList = 'e' :: "vent: ".toList := by simp
    have hd : "data:".toList = 'd' :: "ata:".toList := by simp
    unfold nameLine at hname
    rw [he, hd] at hname
    exact not_prefix_of_head (by decide) hname
  have hlines := @received_lines depth (t ++ x) [] (by simpa using hplain) (by simp) []
  rw [readLines_noData (fieldLines_other hnone), List.intercalate_singleton] at hlines
  exact hlines

/-- The data break off. -/
theorem received_broken (h : Sent depth e) (hx : Leftover x) (hw : w <+: dataLine e) :
    received depth (splitFrames (nameLine e ++ '\n' :: w ++ x ++ ['\n', '\n'])).1 <+: [e] := by
  by_cases hempty : w ++ x = []
  · -- the line feed after the name and the separator
    have hlines := @received_lines depth (nameLine e) [] (by simpa using plain_nameLine h)
      (by simp) ['\n']
    rw [readLines_noData name_no_data, List.intercalate_singleton] at hlines
    rw [List.append_eq_nil_iff] at hempty
    rw [hempty.1, hempty.2, List.append_nil, List.append_assoc]
    exact hlines ▸ List.nil_prefix
  · have hplain : ∀ y ∈ [nameLine e, w ++ x], Plain y := by
      intro y hy
      rcases List.mem_cons.1 hy with rfl | hy
      · exact plain_nameLine h
      · rw [List.mem_singleton.1 hy]
        exact (Plain.of_prefix (plain_dataLine h) hw).append hx.plain
    have hlines := @received_lines depth _ _ hplain (by simpa using hempty) []
    have htext : nameLine e ++ '\n' :: w ++ x ++ ['\n', '\n'] =
        ['\n'].intercalate [nameLine e, w ++ x] ++ ['\n', '\n'] := by
      rw [List.intercalate_cons_cons, List.intercalate_singleton]
      simp
    rw [htext, hlines]
    exact receive_cut h hx hw

/-- The sign for a character that broke off is a line of its own. -/
theorem received_replaced (h : Sent depth e) :
    received depth (splitFrames (nameLine e ++ '\n' :: (dataLine e ++ ['\n']) ++
      [replacementChar] ++ ['\n', '\n'])).1 = [e] := by
  have hplain : ∀ y ∈ [nameLine e, dataLine e] ++ [[replacementChar]], Plain y := by
    intro y hy
    rcases List.mem_append.1 hy with hy | hy
    · exact plain_lines h y hy
    · rw [List.mem_singleton.1 hy]
      exact Leftover.plain (Or.inr rfl)
  have hlines := @received_lines depth (nameLine e) [dataLine e, [replacementChar]] hplain
    (by simpa using dataLine_ne_nil e) []
  have hread : readLines depth ([nameLine e, dataLine e] ++ [[replacementChar]]) =
      .ok (some e) := by
    rw [readLines_other (by simp [replacementChar]) (noData_leftover (Or.inr rfl))]
    exact readLines_event h
  have htext : nameLine e ++ '\n' :: (dataLine e ++ ['\n']) ++ [replacementChar] ++ ['\n', '\n'] =
      ['\n'].intercalate [nameLine e, dataLine e, [replacementChar]] ++ ['\n', '\n'] := by
    rw [List.intercalate_cons_cons, List.intercalate_cons_cons, List.intercalate_singleton]
    simp
  rw [htext, hlines]
  exact congrArg (fun parsed => receive parsed []) hread

/-- **A frame that breaks off** is the event that was sent, or none. -/
theorem received_cut (h : Sent depth e) (hx : Leftover x) (ht : t <+: serializeSseEvent e) :
    received depth (splitFrames (t ++ x ++ ['\n', '\n'])).1 <+: [e] := by
  have hserialize : serializeSseEvent e = nameLine e ++ '\n' :: (dataLine e ++ ['\n', '\n']) := by
    rw [serializeSseEvent_lines, List.intercalate_cons_cons, List.intercalate_singleton]
    simp
  rw [hserialize] at ht
  rcases prefix_append_cases ht with ht | ⟨u, rfl, hu⟩
  · rw [received_name h hx ht]
    exact List.nil_prefix
  rcases List.prefix_cons_iff.1 hu with rfl | ⟨w, rfl, hw⟩
  · rw [List.append_nil, received_name h hx List.prefix_rfl]
    exact List.nil_prefix
  rcases prefix_append_cases hw with hw | ⟨v, rfl, hv⟩
  · exact received_broken h hx hw
  rcases List.prefix_cons_iff.1 hv with rfl | ⟨v, rfl, hrest⟩
  · rw [List.append_nil]
    exact received_broken h hx List.prefix_rfl
  rcases List.prefix_cons_iff.1 hrest with rfl | ⟨v, rfl, hend⟩
  · -- one of the two line feeds is there
    rcases hx with rfl | rfl
    · have htext : nameLine e ++ '\n' :: (dataLine e ++ ['\n']) ++ [] ++ ['\n', '\n'] =
          serializeSseEvent e ++ ['\n'] := by
        rw [hserialize]
        simp
      rw [htext, received_event h]
      exact List.prefix_rfl
    · rw [received_replaced h]
  · have htext : nameLine e ++ '\n' :: (dataLine e ++ '\n' :: '\n' :: v) ++ x ++ ['\n', '\n'] =
        serializeSseEvent e ++ (x ++ ['\n', '\n']) := by
      rw [hserialize, List.prefix_nil.1 hend]
      simp
    rw [htext, received_event h, received_leftover hx]

/-- **A stream that breaks off** gives the first events. -/
theorem received_prefix (hsent : ∀ e ∈ sent, Sent depth e) (hx : Leftover x)
    (ht : t <+: sent.flatMap serializeSseEvent) :
    received depth (splitFrames (t ++ x ++ ['\n', '\n'])).1 <+: sent := by
  induction sent generalizing t with
  | nil =>
    rw [List.prefix_nil.1 ht, List.nil_append, received_leftover hx]
  | cons e sent ih =>
    have he := hsent e List.mem_cons_self
    rw [List.flatMap_cons] at ht
    rcases prefix_append_cases ht with ht | ⟨u, rfl, hu⟩
    · exact (received_cut he hx ht).trans (List.prefix_append [e] sent)
    · rw [List.append_assoc, List.append_assoc, received_event he, List.prefix_cons_inj,
        ← List.append_assoc]
      exact ih (fun e' he' => hsent e' (List.mem_cons_of_mem e he')) hu

end Cut

/-! ## The client -/

/-- The events that were delivered when the client stopped. -/
def eventsOf {α : Type} : EStateM.Result ClientError (List ServerSentEvent) α → List ServerSentEvent
  | .ok _ events => events
  | .error _ events => events

theorem eventsOf_deliver : eventsOf (deliver depth frames events) =
    events ++ received depth frames := by
  induction frames generalizing events with
  | nil => exact (List.append_nil events).symm
  | cons frame frames ih =>
    rw [deliver, received]
    cases parseEvent depth frame with
    | error e => exact (List.append_nil events).symm
    | ok parsed =>
      cases parsed with
      | none => exact ih
      | some e =>
        have hnext := @ih (events ++ [e])
        rw [List.append_assoc] at hnext
        exact hnext

theorem deliver_append : deliver depth (frames ++ more) = (do
    deliver depth frames
    deliver depth more) := by
  induction frames with
  | nil => rfl
  | cons frame frames ih =>
    rw [List.cons_append, deliver, deliver]
    cases parseEvent depth frame with
    | error e => rfl
    | ok parsed =>
      cases parsed with
      | none => exact ih
      | some e =>
        dsimp only
        rw [ih, bind_assoc]

/-- The text of the pieces, one after the other. -/
def decodeAll : TextDecoder → List (List UInt8) → TextDecoder × List Char
  | d, [] => (d, [])
  | d, chunk :: chunks =>
    let r := d.decode chunk
    let t := decodeAll r.1 chunks
    (t.1, r.2 ++ t.2)

/-- **The pieces do not matter**: the frames of the whole text are delivered. -/
theorem readChunks_eq (decoder : TextDecoder) (pending : List Char)
    (hpending : splitFrames pending = ([], pending)) :
    readChunks depth chunks decoder pending = (do
      deliver depth (splitFrames (pending ++ (decodeAll decoder chunks).2)).1
      pure ((decodeAll decoder chunks).1,
        (splitFrames (pending ++ (decodeAll decoder chunks).2)).2)) := by
  induction chunks generalizing decoder pending with
  | nil =>
    rw [decodeAll, List.append_nil, hpending]
    rfl
  | cons chunk chunks ih =>
    rw [readChunks, decodeAll, ← List.append_assoc, splitFrames_append, deliver_append]
    simp only [consumeEvents, bind_assoc, pure_bind]
    congr 1
    funext _
    exact ih _ _ (splitFrames_rest _)

/-! ## The bytes -/

section Bytes

variable {d : TextDecoder}

/-- No mark is dropped. -/
def Unmarked (d : TextDecoder) (text : List Char) : Prop :=
  d.bomSeen = true ∨ text.head? ≠ some '\ufeff'

theorem skipMark_text (h : Unmarked d text) : (d.skipMark text).2 = text := by
  cases d with
  | mk state seen =>
    cases seen with
    | true => rfl
    | false =>
      cases text with
      | nil => rfl
      | cons c cs =>
        have hc : c ≠ '\ufeff' := by
          rcases h with h | h
          · cases h
          · exact fun hc => h (congrArg some hc)
        exact if_neg hc

theorem skipMark_later {more : List Char} (h : Unmarked d (text ++ more)) :
    (d.skipMark text).1 = true ∨ more.head? ≠ some '\ufeff' := by
  cases d with
  | mk state seen =>
    cases seen with
    | true => exact Or.inl rfl
    | false =>
      cases text with
      | nil => exact h
      | cons c cs => exact Or.inl rfl

/-- A text that starts with no mark is decoded as it is. -/
theorem decodeAll_text (h : Unmarked d (utf8FeedLossy d.state chunks.flatten).2) :
    (decodeAll d chunks).1.state = (utf8FeedLossy d.state chunks.flatten).1 ∧
      (decodeAll d chunks).2 = (utf8FeedLossy d.state chunks.flatten).2 := by
  induction chunks generalizing d with
  | nil => exact ⟨rfl, rfl⟩
  | cons chunk chunks ih =>
    rw [List.flatten_cons, utf8FeedLossy_append] at h ⊢
    dsimp only at h ⊢
    have hfirst : Unmarked d (utf8FeedLossy d.state chunk).2 := by
      rcases h with h | h
      · exact Or.inl h
      · right
        intro hhead
        apply h
        rw [List.head?_append, hhead]
        rfl
    have hlater := @ih (d.decode chunk).1 (skipMark_later h)
    have hrest : (decodeAll (d.decode chunk).1 chunks).2 =
        (utf8FeedLossy (utf8FeedLossy d.state chunk).1 chunks.flatten).2 := hlater.2
    have hnow : (d.decode chunk).2 = (utf8FeedLossy d.state chunk).2 := skipMark_text hfirst
    constructor
    · exact hlater.1
    · rw [decodeAll, hrest, hnow]

theorem flush_leftover : Leftover d.flush := by
  unfold TextDecoder.flush
  rw [skipMark_text]
  · split_ifs
    · exact Or.inl rfl
    · exact Or.inr rfl
  · right
    split_ifs
    · exact fun h => nomatch h
    · decide

theorem flush_done (h : d.state.needed = 0) : d.flush = [] := by
  unfold TextDecoder.flush
  rw [if_pos h, skipMark_text]
  exact Or.inr fun h => nomatch h

end Bytes

/-! ## The whole stream -/

section Stream

variable {response : Response}

def streamBytes (sent : List ServerSentEvent) : List UInt8 :=
  utf8Encode (sent.flatMap serializeSseEvent)

theorem head_serialize (ht : t <+: sent.flatMap serializeSseEvent) :
    t.head? ≠ some '\ufeff' := by
  intro hhead
  cases t with
  | nil => cases hhead
  | cons c t =>
    cases sent with
    | nil =>
      cases List.prefix_nil.1 ht
    | cons e sent =>
      have he : "event: ".toList = 'e' :: "vent: ".toList := by simp
      rw [List.flatMap_cons, serializeSseEvent_lines, List.intercalate_cons_cons] at ht
      unfold nameLine at ht
      rw [he] at ht
      simp only [List.cons_append] at ht
      rw [(List.cons_prefix_cons.1 ht).1] at hhead
      cases hhead

/-- What a response with a body comes to. -/
theorem postSse_done (hok : response.ok = true) (hbody : response.body = some (chunks, .done)) :
    postSse depth response = deliver depth (splitFrames ((decodeAll {} chunks).2 ++
      (decodeAll {} chunks).1.flush ++ ['\n', '\n'])).1 := by
  have hend : "\n\n".toList = ['\n', '\n'] := by simp
  unfold postSse
  rw [hok, hbody, hend]
  dsimp only
  rw [readChunks_eq {} [] rfl, List.nil_append, List.append_assoc, splitFrames_append,
    deliver_append]
  simp only [consumeEvents, bind_assoc, pure_bind, List.append_assoc]
  congr 1
  funext _
  exact bind_pure_unit

theorem postSse_lost (hok : response.ok = true) (hbody : response.body = some (chunks, .lost)) :
    postSse depth response = (do
      deliver depth (splitFrames (decodeAll {} chunks).2).1
      throw .connection) := by
  unfold postSse
  rw [hok, hbody]
  dsimp only
  rw [readChunks_eq {} [] rfl, List.nil_append]
  simp only [bind_assoc, pure_bind]

/-- What comes after the frames delivers nothing. -/
theorem eventsOf_throw {err : ClientError} :
    eventsOf ((do
      deliver depth frames
      throw err : ClientM Unit) events) = events ++ received depth frames := by
  rw [← eventsOf_deliver]
  show eventsOf (EStateM.bind (deliver depth frames) (fun _ => throw err) events) = _
  unfold EStateM.bind
  cases deliver depth frames events with
  | ok _ later => rfl
  | error _ later => rfl

theorem received_mono (h : frames <+: more) : received depth frames <+: received depth more := by
  induction frames generalizing more with
  | nil => exact List.nil_prefix
  | cons frame frames ih =>
    rcases h with ⟨rest, rfl⟩
    have hlater := ih (List.prefix_append frames rest)
    rw [List.cons_append, received, received]
    cases parseEvent depth frame with
    | error err => exact List.prefix_rfl
    | ok parsed =>
      cases parsed with
      | none => exact hlater
      | some e => exact List.cons_prefix_cons.2 ⟨rfl, hlater⟩

/-- All that was sent is delivered. -/
theorem deliver_sent (hsent : ∀ e ∈ sent, Sent depth e) :
    deliver depth (splitFrames (sent.flatMap serializeSseEvent ++ ['\n', '\n'])).1 events =
      .ok () (events ++ sent) := by
  induction sent generalizing events with
  | nil =>
    have hframe : parseEvent depth [] = .ok none := by
      have hlines := @parseEvent_lines depth [[]] (by simp) (by simp [Plain])
      rw [List.intercalate_singleton] at hlines
      rw [hlines]
      exact readLines_noData (fieldLines_other (noData_leftover (Or.inl rfl)))
    have hsplit : splitFrames ([] ++ ['\n', '\n']) = ([[]], []) := rfl
    rw [List.flatMap_nil, hsplit, deliver, hframe, List.append_nil]
    rfl
  | cons e sent ih =>
    rcases frame_event (hsent e List.mem_cons_self)
      (sent.flatMap serializeSseEvent ++ ['\n', '\n']) with ⟨frame, hparse, hsplit⟩
    have hrest := @ih (events ++ [e]) fun e' he' => hsent e' (List.mem_cons_of_mem e he')
    rw [List.append_assoc, List.singleton_append] at hrest
    rw [List.flatMap_cons, List.append_assoc, hsplit, deliver, hparse]
    exact hrest

/-- **The events arrive as they were sent**, in whatever pieces, and the first of them if the stream
breaks off. -/
theorem postSse_delivers (hsent : ∀ e ∈ sent, Sent depth e) :
    (∀ (response : Response) (chunks : List (List UInt8)), response.ok = true →
      response.body = some (chunks, .done) → chunks.flatten = streamBytes sent →
        postSse depth response [] = .ok () sent) ∧
    ∀ (response : Response) (chunks : List (List UInt8)) (ending : Ending), response.ok = true →
      response.body = some (chunks, ending) → chunks.flatten <+: streamBytes sent →
        eventsOf (postSse depth response []) <+: sent := by
  constructor
  · intro response chunks hok hbody hchunks
    have hfeed : utf8FeedLossy {} chunks.flatten = ({}, sent.flatMap serializeSseEvent) := by
      rw [hchunks]
      exact utf8FeedLossy_encode _
    have hunmarked : Unmarked {} (utf8FeedLossy {} chunks.flatten).2 := by
      right
      rw [hfeed]
      exact head_serialize List.prefix_rfl
    have hdecode := decodeAll_text hunmarked
    rw [hfeed] at hdecode
    have hflush : (decodeAll {} chunks).1.flush = [] := by
      apply flush_done
      rw [hdecode.1]
    rw [postSse_done hok hbody, hflush, hdecode.2, List.append_nil]
    exact deliver_sent hsent
  · intro response chunks ending hok hbody hchunks
    have hprefix := utf8FeedLossy_prefix hchunks
    have hunmarked : Unmarked {} (utf8FeedLossy {} chunks.flatten).2 :=
      Or.inr (head_serialize hprefix)
    have htext : (decodeAll {} chunks).2 <+: sent.flatMap serializeSseEvent := by
      rw [(decodeAll_text hunmarked).2]
      exact hprefix
    cases ending with
    | done =>
      rw [postSse_done hok hbody, eventsOf_deliver, List.nil_append]
      exact received_prefix hsent flush_leftover htext
    | lost =>
      rw [postSse_lost hok hbody, eventsOf_throw, List.nil_append]
      have hclosed := received_prefix hsent (Or.inl rfl) htext
      exact (received_mono ( splitFrames_prefix (List.append_assoc _ _ _ ▸
        List.prefix_append _ _))).trans hclosed

/-- A reply whose text holds a separator and a character of four bytes. -/
def delta : ServerSentEvent where
  event := "message.delta".toList
  data := [(codePoints "text", .str (codePoints "a\n\n😀"))]

theorem sent_delta : ∀ e ∈ [delta], Sent 1 e := by
  intro e he
  rw [List.mem_singleton.1 he]
  refine ⟨by decide, by decide, by decide, .obj ?_ ?_⟩
  · exact fun f hf => ⟨"text", by rw [List.mem_singleton.1 hf]⟩
  · intro f hf
    rw [List.mem_singleton.1 hf]
    exact .str "a\n\n😀"

/-- The reply arrives in two pieces, cut inside the last character. -/
theorem postSse_delivers_delta :
    postSse 1
      { ok := true
        status := 200
        detail := none
        body := some ([(streamBytes [delta]).take 43, (streamBytes [delta]).drop 43], .done) } [] =
      .ok () [delta] :=
  (postSse_delivers sent_delta).1 _ _ rfl rfl (by simp)

/-- The reader trims the name. -/
theorem padded_name_altered : ¬∀ (depth : Nat) (sent : List ServerSentEvent),
    (∀ e ∈ sent, e.event.all isSpace = false ∧ '\n' ∉ e.event ∧ '\r' ∉ e.event ∧
      Sendable depth (.obj e.data)) →
    ∀ (response : Response) (chunks : List (List UInt8)), response.ok = true →
      response.body = some (chunks, .done) → chunks.flatten = streamBytes sent →
        eventsOf (postSse depth response []) = sent := by
  intro h
  have hdata : ∀ f ∈ ([] : List (List Nat × JsonValue)), Sendable 0 f.2 := fun f hf => nomatch hf
  have hnames : ∀ f ∈ ([] : List (List Nat × JsonValue)), ∃ name, f.1 = codePoints name :=
    fun f hf => nomatch hf
  have hall := h 1 [{ event := [' ', 'a'], data := [] }] (by
    intro e he
    rw [List.mem_singleton.1 he]
    exact ⟨by decide, by decide, by decide, .obj hnames hdata⟩)
    { ok := true
      status := 200
      detail := none
      body := some ([streamBytes [{ event := [' ', 'a'], data := [] }]], .done) }
    _ rfl rfl (by simp)
  have hnamed := congrArg (List.map ServerSentEvent.event) hall
  revert hnamed
  decide +kernel

end Stream

end GoAgent.Http
