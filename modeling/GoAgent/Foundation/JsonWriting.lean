import Mathlib.Data.List.Lex
import Mathlib.Data.List.Sort
import GoAgent.Foundation.JsonSize

/-!
# The size of written JSON values

The text that `JsonValue.write` writes is of the least size, so a text that stands for an equal value
is no smaller.

* `textSize_write` — the writer writes no more than it has to.
* `leastSize_normal` — a value and its normal form have one size.
* `textSize_write_le` — no text of an equal value is smaller than the one written.
-/

namespace GoAgent.Foundation

/-- A separator is a comma or a colon, with one space after it at most. -/
structure JsonStyle.Tight (k : JsonStyle) : Prop where
  item : k.item = [','] ∨ k.item = [',', ' ']
  key : k.key = [':'] ∨ k.key = [':', ' ']

section Writer

variable {k : JsonStyle} {a : List Char}

theorem JsonStyle.Tight.textSize_item (h : k.Tight) : textSize k.item ≤ 1 := by
  rcases h.item with h | h <;> rw [h] <;> decide

theorem JsonStyle.Tight.textSize_key (h : k.Tight) : textSize k.key ≤ 1 := by
  rcases h.key with h | h <;> rw [h] <;> decide

theorem textSize_le_length : textSize a ≤ a.length := by
  induction a with
  | nil => exact le_refl _
  | cons c a ih =>
    have := textSize_cons_le (s := a) (c := c)
    rw [List.length_cons]
    omega

theorem length_escapeChar (ensureAscii : Bool) (c : Char) :
    (escapeChar ensureAscii c).length ≤ unitSize ensureAscii c.toNat := by
  have hvalid := c.valid
  have hmax : c.toNat < 0xD800 ∨ 0xDFFF < c.toNat ∧ c.toNat < 0x110000 := hvalid
  have hescape (n : Nat) : (unicodeEscape n).length = 6 := rfl
  have hwritten := written_escapeChar ensureAscii c
  generalize escapeChar ensureAscii c = text at hwritten
  cases hwritten with
  | short h =>
    have hall : ∀ p ∈ shortEscapes, 2 ≤ unitSize ensureAscii p.1 := by
      cases ensureAscii <;> decide
    exact hall _ h
  | code hshort hplane h =>
    have hnot : ¬(c.toNat = 34 ∨ c.toNat = 92 ∨ c.toNat = 10 ∨ c.toNat = 13 ∨ c.toNat = 9 ∨
        c.toNat = 8 ∨ c.toNat = 12) := by
      simp only [shortEscapes, List.forall_mem_cons] at hshort
      omega
    rw [hescape, unitSize, if_neg hnot]
    rcases h with h | h
    · rw [if_pos h]
    · rw [if_neg (by omega), if_neg (by omega), if_pos h, if_pos hplane]
  | pair hascii h =>
    rw [List.length_append, hescape, hescape, unitSize, if_neg (by omega), if_neg (by omega),
      if_neg (by omega), if_pos ⟨hascii, by omega⟩, if_neg (by omega)]
  | plain hquote hback h hascii =>
    unfold unitSize
    rw [List.length_singleton]
    split_ifs <;> omega

theorem length_writeUnit (ensureAscii : Bool) (n : Nat) :
    (writeUnit ensureAscii n).length ≤ unitSize ensureAscii n := by
  unfold writeUnit
  split_ifs with hhalf
  · have hsize : unitSize ensureAscii n = 6 := by
      unfold unitSize
      rw [if_neg (by omega), if_neg (by omega), if_pos (.inl hhalf)]
    rw [hsize]
    exact le_refl _
  · have hlen := length_escapeChar ensureAscii (Char.ofNat n)
    by_cases hn : n.isValidChar
    · have hsame : (Char.ofNat n).toNat = n := by
        rw [Char.ofNat, dif_pos hn]
        rfl
      rwa [hsame] at hlen
    · -- what is no code point is written as the character zero
      have hzero : (Char.ofNat n).toNat = 0 := by
        rw [Char.ofNat, dif_neg hn]
        rfl
      have hbig : 0x110000 ≤ n := by
        by_contra hlt
        apply hn
        unfold Nat.isValidChar
        omega
      have hsize : unitSize ensureAscii n = 6 := by
        unfold unitSize
        rw [if_neg (by omega), if_neg (by omega), if_pos (.inr hbig)]
      rw [hsize]
      rw [hzero] at hlen
      exact hlen

theorem writeUnit_separator (ensureAscii : Bool) {n : Nat} (h : n = 44 ∨ n = 58) :
    ∃ c, writeUnit ensureAscii n = [c] ∧ isSeparator c = true := by
  rcases h with rfl | rfl
  · exact ⟨',', by cases ensureAscii <;> rfl, rfl⟩
  · exact ⟨':', by cases ensureAscii <;> rfl, rfl⟩

theorem textSize_writeUnits (ensureAscii : Bool) (s : List Nat) :
    textSize (s.flatMap (writeUnit ensureAscii)) ≤ unitsSize ensureAscii s := by
  induction s with
  | nil => exact le_refl _
  | cons n s ih =>
    rw [List.flatMap_cons, unitsSize]
    split_ifs with hspace
    · rcases writeUnit_separator ensureAscii hspace.1 with ⟨c, hc, hsep⟩
      cases s with
      | nil => cases hspace.2
      | cons m s =>
        have hm : m = 32 := Option.some.inj hspace.2
        subst hm
        have hblank : writeUnit ensureAscii 32 = [' '] := by cases ensureAscii <;> rfl
        rw [List.flatMap_cons, hblank, List.singleton_append] at ih
        rw [hc, List.flatMap_cons, hblank, List.singleton_append, List.singleton_append, textSize,
          if_pos ⟨hsep, rfl⟩]
        omega
    · have happend := textSize_append_le (a := writeUnit ensureAscii n)
        (b := s.flatMap (writeUnit ensureAscii))
      have hlen := textSize_le_length (a := writeUnit ensureAscii n)
      have hunit := length_writeUnit ensureAscii n
      omega

theorem textSize_writeString (ensureAscii : Bool) (s : List Nat) :
    textSize (writeString ensureAscii s) ≤ 2 + unitsSize ensureAscii s := by
  have happend := textSize_append_le (a := s.flatMap (writeUnit ensureAscii)) (b := ['"'])
  rw [textSize_singleton] at happend
  have := textSize_writeUnits ensureAscii s
  rw [writeString, textSize_cons (by decide)]
  omega

mutual

theorem textSize_write (hk : k.Tight) (v : JsonValue) :
    textSize (v.write k) ≤ v.leastSize k.ensureAscii := by
  cases v with
  | null => exact le_refl _
  | bool b => cases b <;> exact le_refl _
  | int n => exact textSize_le_length
  | float text => exact textSize_le_length
  | str s => exact textSize_writeString k.ensureAscii s
  | arr items =>
    have hitems := textSize_writeItems hk items
    have happend := textSize_append_le (a := writeItems k items) (b := [']'])
    rw [textSize_singleton] at happend
    rw [JsonValue.write, textSize_cons (by decide), JsonValue.leastSize]
    omega
  | obj fields =>
    have hfields := textSize_writeFields hk fields
    have happend := textSize_append_le (a := writeFields k fields) (b := ['\x7d'])
    rw [textSize_singleton] at happend
    rw [JsonValue.write, textSize_cons (by decide), JsonValue.leastSize]
    omega
termination_by structural v

theorem textSize_writeItems (hk : k.Tight) (items : List JsonValue) :
    textSize (writeItems k items) + 1 ≤ max 1 (itemsSize k.ensureAscii items) := by
  cases items with
  | nil => exact le_refl _
  | cons v items =>
    have hv := textSize_write hk v
    have hrest := textSize_writeItems hk items
    cases items with
    | nil =>
      rw [writeItems, itemsSize, itemsSize]
      omega
    | cons v' items =>
      have h₁ := textSize_append_le (a := v.write k ++ k.item) (b := writeItems k (v' :: items))
      have h₂ := textSize_append_le (a := v.write k) (b := k.item)
      have hitem := hk.textSize_item
      rw [writeItems, itemsSize]
      have hpos : 1 ≤ itemsSize k.ensureAscii (v' :: items) := by
        rw [itemsSize]
        omega
      omega
termination_by structural items

theorem textSize_writeFields (hk : k.Tight) (fields : List (List Nat × JsonValue)) :
    textSize (writeFields k fields) + 1 ≤ max 1 (fieldsSize k.ensureAscii fields) := by
  cases fields with
  | nil => exact le_refl _
  | cons f fields =>
    have hf := textSize_writeField hk f
    have hrest := textSize_writeFields hk fields
    cases fields with
    | nil =>
      rw [writeFields, fieldsSize, fieldsSize]
      omega
    | cons f' fields =>
      have h₁ := textSize_append_le (a := writeField k f ++ k.item)
        (b := writeFields k (f' :: fields))
      have h₂ := textSize_append_le (a := writeField k f) (b := k.item)
      have hitem := hk.textSize_item
      rw [writeFields, fieldsSize]
      have hpos : 1 ≤ fieldsSize k.ensureAscii (f' :: fields) := by
        rw [fieldsSize]
        omega
      omega
termination_by structural fields

theorem textSize_writeField (hk : k.Tight) (f : List Nat × JsonValue) :
    textSize (writeField k f) ≤ fieldSize k.ensureAscii f := by
  cases f with
  | mk name v =>
    have hv := textSize_write hk v
    have hname := textSize_writeString k.ensureAscii name
    have h₁ := textSize_append_le (a := writeString k.ensureAscii name ++ k.key) (b := v.write k)
    have h₂ := textSize_append_le (a := writeString k.ensureAscii name) (b := k.key)
    have hkey := hk.textSize_key
    rw [writeField, fieldSize]
    omega
termination_by structural f

end

end Writer

/-! ## Values as dictionaries -/

/-- A value as Python has it: the names of a dictionary are distinct, and the text of a float is
ASCII. -/
inductive JsonValue.WellFormed : JsonValue → Prop
  | null : WellFormed .null
  | bool (b : Bool) : WellFormed (.bool b)
  | int (n : Int) : WellFormed (.int n)
  | float {text : List Char} : (∀ c ∈ text, c.toNat ≤ 126) → WellFormed (.float text)
  | str (s : List Nat) : WellFormed (.str s)
  | arr {items : List JsonValue} : (∀ v ∈ items, WellFormed v) → WellFormed (.arr items)
  | obj {fields : List (List Nat × JsonValue)} : (fields.map Prod.fst).Nodup →
      (∀ f ∈ fields, WellFormed f.2) → WellFormed (.obj fields)

/-- Of several fields of one name the last counts. -/
def lastFields : List (List Nat × JsonValue) → List (List Nat × JsonValue)
  | [] => []
  | f :: fs => if f.1 ∈ fs.map Prod.fst then lastFields fs else f :: lastFields fs

mutual

/-- Two texts stand for equal Python values when their values have one normal form. -/
def JsonValue.normal : JsonValue → JsonValue
  | .arr items => .arr (normalItems items)
  | .obj fields =>
    .obj ((lastFields (normalFields fields)).insertionSort fun f g => f.1 ≤ g.1)
  | v => v
termination_by structural v => v

def normalItems : List JsonValue → List JsonValue
  | [] => []
  | v :: vs => v.normal :: normalItems vs
termination_by structural items => items

def normalFields : List (List Nat × JsonValue) → List (List Nat × JsonValue)
  | [] => []
  | f :: fs => normalField f :: normalFields fs
termination_by structural fields => fields

def normalField : List Nat × JsonValue → List Nat × JsonValue
  | (name, v) => (name, v.normal)
termination_by structural field => field

end

section Normal

variable {ensureAscii : Bool}

theorem fieldsSize_perm {fs gs : List (List Nat × JsonValue)} (h : fs.Perm gs) :
    fieldsSize ensureAscii fs = fieldsSize ensureAscii gs := by
  induction h with
  | nil => rfl
  | cons f _ ih => rw [fieldsSize, fieldsSize, ih]
  | swap f g fs =>
    simp only [fieldsSize]
    omega
  | trans _ _ ih₁ ih₂ => rw [ih₁, ih₂]

theorem fieldsSize_lastFields (ensureAscii : Bool) (fs : List (List Nat × JsonValue)) :
    fieldsSize ensureAscii (lastFields fs) ≤ fieldsSize ensureAscii fs := by
  induction fs with
  | nil => exact le_refl _
  | cons f fs ih =>
    rw [lastFields]
    split_ifs <;> simp only [fieldsSize] <;> omega

theorem lastFields_of_nodup {fs : List (List Nat × JsonValue)} (h : (fs.map Prod.fst).Nodup) :
    lastFields fs = fs := by
  induction fs with
  | nil => rfl
  | cons f fs ih =>
    rcases List.nodup_cons.1 h with ⟨hf, hfs⟩
    rw [lastFields, if_neg hf, ih hfs]

theorem names_normalFields (fs : List (List Nat × JsonValue)) :
    (normalFields fs).map Prod.fst = fs.map Prod.fst := by
  induction fs with
  | nil => rfl
  | cons f fs ih =>
    cases f with
    | mk name v => rw [normalFields, List.map_cons, List.map_cons, ih, normalField]

mutual

theorem leastSize_normal_le (v : JsonValue) :
    v.normal.leastSize ensureAscii ≤ v.leastSize ensureAscii := by
  cases v with
  | arr items =>
    have hitems := itemsSize_normal_le items
    rw [JsonValue.normal, JsonValue.leastSize, JsonValue.leastSize]
    omega
  | obj fields =>
    have hfields := fieldsSize_normal_le fields
    have hlast := fieldsSize_lastFields ensureAscii (normalFields fields)
    rw [JsonValue.normal, JsonValue.leastSize, JsonValue.leastSize,
      fieldsSize_perm (List.perm_insertionSort _ _)]
    omega
  | _ => exact le_refl _
termination_by structural v

theorem itemsSize_normal_le (items : List JsonValue) :
    itemsSize ensureAscii (normalItems items) ≤ itemsSize ensureAscii items := by
  cases items with
  | nil => exact le_refl _
  | cons v items =>
    have hv := leastSize_normal_le v
    have hrest := itemsSize_normal_le items
    rw [normalItems, itemsSize, itemsSize]
    omega
termination_by structural items

theorem fieldsSize_normal_le (fields : List (List Nat × JsonValue)) :
    fieldsSize ensureAscii (normalFields fields) ≤ fieldsSize ensureAscii fields := by
  cases fields with
  | nil => exact le_refl _
  | cons f fields =>
    have hf := fieldSize_normal_le f
    have hrest := fieldsSize_normal_le fields
    rw [normalFields, fieldsSize, fieldsSize]
    omega
termination_by structural fields

theorem fieldSize_normal_le (f : List Nat × JsonValue) :
    fieldSize ensureAscii (normalField f) ≤ fieldSize ensureAscii f := by
  cases f with
  | mk name v =>
    have hv := leastSize_normal_le v
    rw [normalField, fieldSize, fieldSize]
    omega
termination_by structural f

end

theorem itemsSize_normal {items : List JsonValue}
    (h : ∀ v ∈ items, v.normal.leastSize ensureAscii = v.leastSize ensureAscii) :
    itemsSize ensureAscii (normalItems items) = itemsSize ensureAscii items := by
  induction items with
  | nil => rfl
  | cons v items ih =>
    rw [normalItems, itemsSize, itemsSize, h v List.mem_cons_self,
      ih fun v hv => h v (List.mem_cons_of_mem _ hv)]

theorem fieldsSize_normal {fields : List (List Nat × JsonValue)}
    (h : ∀ f ∈ fields, f.2.normal.leastSize ensureAscii = f.2.leastSize ensureAscii) :
    fieldsSize ensureAscii (normalFields fields) = fieldsSize ensureAscii fields := by
  induction fields with
  | nil => rfl
  | cons f fields ih =>
    have hf : fieldSize ensureAscii (normalField f) = fieldSize ensureAscii f := by
      have hv := h f List.mem_cons_self
      cases f with
      | mk name v => rw [normalField, fieldSize, fieldSize, hv]
    rw [normalFields, fieldsSize, fieldsSize, hf, ih fun f hf => h f (List.mem_cons_of_mem _ hf)]

/-- A value with distinct names is no smaller in its normal form. -/
theorem leastSize_normal {v : JsonValue} (h : v.WellFormed) :
    v.normal.leastSize ensureAscii = v.leastSize ensureAscii := by
  induction h with
  | arr _ ih =>
    rw [JsonValue.normal, JsonValue.leastSize, JsonValue.leastSize, itemsSize_normal ih]
  | obj hnames _ ih =>
    have hnames' := hnames
    rw [← names_normalFields] at hnames'
    rw [JsonValue.normal, JsonValue.leastSize, JsonValue.leastSize,
      fieldsSize_perm (List.perm_insertionSort _ _), lastFields_of_nodup hnames',
      fieldsSize_normal ih]
  | _ => rfl

end Normal

/-! ## Written text -/

section Written

variable {k : JsonStyle}

theorem ascii_of_all {a : List Char} (h : a.all (fun c => c.toNat ≤ 126) = true) :
    ∀ c ∈ a, c.toNat ≤ 126 := fun c hc => of_decide_eq_true (List.all_eq_true.1 h c hc)

theorem hexDigit_ascii {d : Nat} (hd : d < 16) : (hexDigit d).toNat ≤ 126 := by
  have hall : ∀ d < 16, (hexDigit d).toNat ≤ 126 := by decide
  exact hall d hd

theorem unicodeEscape_ascii (n : Nat) : ∀ c ∈ unicodeEscape n, c.toNat ≤ 126 := by
  intro c hc
  simp only [unicodeEscape, List.mem_cons, List.not_mem_nil, or_false] at hc
  rcases hc with rfl | rfl | rfl | rfl | rfl | rfl
  · decide
  · decide
  all_goals exact hexDigit_ascii (Nat.mod_lt _ (by decide))

theorem escapeChar_ascii (c : Char) : ∀ d ∈ escapeChar true c, d.toNat ≤ 126 := by
  have hwritten := written_escapeChar true c
  generalize escapeChar true c = text at hwritten
  intro d hd
  cases hwritten with
  | short h =>
    have hall : ∀ p ∈ shortEscapes, p.2.toNat ≤ 126 := by decide
    rcases List.mem_cons.1 hd with rfl | hd
    · decide
    · rw [List.mem_singleton.1 hd]
      exact hall _ h
  | code _ _ _ => exact unicodeEscape_ascii _ d hd
  | pair _ _ =>
    rcases List.mem_append.1 hd with hd | hd
    · exact unicodeEscape_ascii _ d hd
    · exact unicodeEscape_ascii _ d hd
  | plain _ _ _ hascii =>
    rw [List.mem_singleton.1 hd]
    exact hascii rfl

theorem writeString_ascii (s : List Nat) : ∀ c ∈ writeString true s, c.toNat ≤ 126 := by
  intro c hc
  rcases List.mem_cons.1 hc with rfl | hc
  · decide
  · rcases List.mem_append.1 hc with hc | hc
    · rcases List.mem_flatMap.1 hc with ⟨n, -, hc⟩
      unfold writeUnit at hc
      split_ifs at hc
      · exact unicodeEscape_ascii n c hc
      · exact escapeChar_ascii _ c hc
    · rw [List.mem_singleton.1 hc]
      decide

theorem dumpInt_ascii (n : Int) : ∀ c ∈ dumpInt n, c.toNat ≤ 126 := by
  have hdigits (n : Nat) : ∀ c ∈ Nat.toDigits 10 n, c.toNat ≤ 126 := by
    intro c hc
    have hdigit := isDigit_of_mem_toDigits hc
    simp only [isDigit, Bool.and_eq_true, decide_eq_true_eq] at hdigit
    omega
  intro c hc
  cases n with
  | ofNat n => exact hdigits n c hc
  | negSucc n =>
    rcases List.mem_cons.1 hc with rfl | hc
    · decide
    · exact hdigits (n + 1) c hc

theorem JsonStyle.Tight.item_ascii (h : k.Tight) : ∀ c ∈ k.item, c.toNat ≤ 126 := by
  rcases h.item with h | h <;> rw [h] <;> exact ascii_of_all rfl

theorem JsonStyle.Tight.key_ascii (h : k.Tight) : ∀ c ∈ k.key, c.toNat ≤ 126 := by
  rcases h.key with h | h <;> rw [h] <;> exact ascii_of_all rfl

/-- A writer that escapes writes ASCII. -/
theorem write_ascii (hk : k.Tight) {v : JsonValue} (hv : v.WellFormed) :
    AsciiFor k.ensureAscii (v.write k) := by
  intro he
  induction hv with
  | null => exact ascii_of_all rfl
  | bool b => cases b <;> exact ascii_of_all rfl
  | int n => exact dumpInt_ascii n
  | float h => exact h
  | str s =>
    rw [JsonValue.write, he]
    exact writeString_ascii s
  | arr _ ih =>
    intro c hc
    rcases List.mem_cons.1 hc with rfl | hc
    · decide
    · rcases List.mem_append.1 hc with hc | hc
      · rcases mem_writeItems hc with hc | ⟨v, hv, hc⟩
        · exact hk.item_ascii c hc
        · exact ih v hv c hc
      · rw [List.mem_singleton.1 hc]
        decide
  | obj _ _ ih =>
    intro c hc
    rcases List.mem_cons.1 hc with rfl | hc
    · decide
    · rcases List.mem_append.1 hc with hc | hc
      · rcases mem_writeFields hc with hc | ⟨f, hf, hc⟩
        · exact hk.item_ascii c hc
        · rcases mem_writeField hc with hc | hc | hc
          · rw [he] at hc
            exact writeString_ascii f.1 c hc
          · exact hk.key_ascii c hc
          · exact ih f hf c hc
      · rw [List.mem_singleton.1 hc]
        decide

/-- **No text of an equal value is smaller.** -/
theorem textSize_write_le (hk : k.Tight) {v w : JsonValue} (hv : v.WellFormed) {s : List Char}
    {depth : Nat} (hs : ∀ c ∈ s, c ∈ v.write k) (hw : loads depth s = .ok w)
    (hequal : w.normal = v.normal) : textSize (v.write k) ≤ textSize s := by
  have hascii : AsciiFor k.ensureAscii s := fun he c hc => write_ascii hk hv he c (hs c hc)
  calc textSize (v.write k)
      ≤ v.leastSize k.ensureAscii := textSize_write hk v
    _ = w.normal.leastSize k.ensureAscii := by rw [hequal, leastSize_normal hv]
    _ ≤ w.leastSize k.ensureAscii := leastSize_normal_le w
    _ ≤ textSize s := leastSize_le hascii hw

end Written

end GoAgent.Foundation
