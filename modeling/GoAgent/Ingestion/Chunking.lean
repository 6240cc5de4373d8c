import GoAgent.Foundation.Raising
import GoAgent.Foundation.Text

/-!
# Splitting a section into windows

`PolicyChunkingPolicy.split_section_text` cuts a long section into windows of `target_chars`
characters that start `target_chars - overlap_chars` apart. The end of a window is moved back to
its last line break, full stop or comma, when that lies in the second half; the start of the next
window is not moved with it.

**Theorem (`covers_iff`).** The windows cover every character of the text that is not white space
exactly when no window loses such a character: between its last break in the second half and the
start of the next window.

* `next_start` — the windows start at the multiples of the step, whatever their ends.
* `windowEnd_mono` — a window never ends before the one that precedes it.
-/

namespace GoAgent.Ingestion

open GoAgent.Foundation

/-! ## Searching a text -/

/-- `text[start:stop]` -/
def slice (text : List Char) (start stop : Nat) : List Char := (text.take stop).drop start

/-- `text.rfind(c)` -/
def rfind (c : Char) : List Char → Int
  | [] => -1
  | d :: text =>
    if 0 ≤ rfind c text then rfind c text + 1
    else if d = c then 0
    else -1

theorem rfind_lt (c : Char) (text : List Char) : rfind c text < text.length := by
  induction text with
  | nil => simp [rfind]
  | cons d text ih =>
    simp only [rfind, List.length_cons]
    split_ifs <;> omega

theorem le_rfind {c : Char} {text : List Char} {i : Nat} (h : text[i]? = some c) :
    (i : Int) ≤ rfind c text := by
  induction text generalizing i with
  | nil => simp at h
  | cons d text ih =>
    cases i with
    | zero =>
      have hd : d = c := by simpa using h
      simp only [rfind, hd]
      split_ifs <;> omega
    | succ i =>
      have hi := ih (by simpa using h)
      simp only [rfind]
      split_ifs <;> omega

theorem getElem?_rfind {c : Char} {text : List Char} (h : 0 ≤ rfind c text) :
    text[(rfind c text).toNat]? = some c := by
  induction text with
  | nil => simp [rfind] at h
  | cons d text ih =>
    simp only [rfind] at h ⊢
    split_ifs at h ⊢ with hpos hd
    · have hsucc : (rfind c text + 1).toNat = (rfind c text).toNat + 1 := by omega
      rw [hsucc, List.getElem?_cons_succ]
      exact ih hpos
    · simp [hd]
    · omega

theorem getElem?_slice {text : List Char} {start stop i : Nat} (h : start + i < stop) :
    (slice text start stop)[i]? = text[start + i]? := by
  rw [slice, List.getElem?_drop, List.getElem?_take_of_lt h]

theorem length_slice {text : List Char} {start stop : Nat} (h : stop ≤ text.length) :
    (slice text start stop).length = stop - start := by
  rw [slice, List.length_drop, List.length_take, Nat.min_eq_left h]

/-! ## The windows -/

structure ChunkSlice where
  start : Nat
  stop : Nat
  text : String
  chunkInSection : Nat
  deriving DecidableEq

structure PolicyChunkingPolicy where
  targetChars : Nat
  overlapChars : Nat
  target_pos : 0 < targetChars
  overlap_lt : overlapChars < targetChars

/-- `split_at`: the last line break, full stop or comma of a window, or -1. -/
def splitAt (candidate : List Char) : Int :=
  max (max (rfind '\n' candidate) (rfind '。' candidate)) (rfind '，' candidate)

namespace PolicyChunkingPolicy

/-- The constructor. -/
def make (targetChars overlapChars : Int) : Except String PolicyChunkingPolicy :=
  if htarget : targetChars ≤ 0 then .error "target_chars 必须大于 0。"
  else if hneg : overlapChars < 0 then .error "overlap_chars 不能小于 0。"
  else if hlt : targetChars ≤ overlapChars then .error "overlap_chars 必须小于 target_chars。"
  else .ok
    { targetChars := targetChars.toNat
      overlapChars := overlapChars.toNat
      target_pos := by omega
      overlap_lt := by omega }

variable (p : PolicyChunkingPolicy)

def step : Nat := p.targetChars - p.overlapChars

theorem step_pos : 0 < p.step := Nat.sub_pos_of_lt p.overlap_lt

/-- The end of the window that begins at `start`. -/
def windowEnd (normalized : List Char) (start : Nat) : Nat :=
  let stop := min normalized.length (start + p.targetChars)
  if stop < normalized.length then
    let candidate := slice normalized start stop
    if (candidate.length / 2 : Nat) ≤ splitAt candidate then
      start + (splitAt candidate).toNat + 1
    else stop
  else stop

/-- The `while` loop. -/
def windows (normalized : List Char) (start chunkInSection : Nat) : List ChunkSlice :=
  if start < normalized.length then
    let stop := p.windowEnd normalized start
    let chunkText := strip (String.ofList (slice normalized start stop))
    let rest := fun chunkInSection =>
      if normalized.length ≤ stop then []
      else windows normalized (max (stop - p.overlapChars) (start + p.step)) chunkInSection
    if chunkText ≠ "" then
      { start, stop, text := chunkText, chunkInSection } :: rest (chunkInSection + 1)
    else rest chunkInSection
  else []
termination_by normalized.length - start
decreasing_by
  have hstep := p.step_pos
  omega

def splitSectionText (text : String) : List ChunkSlice :=
  let normalized := strip text
  if normalized = "" then []
  else if normalized.length ≤ p.targetChars then
    [{ start := 0, stop := normalized.length, text := normalized, chunkInSection := 0 }]
  else p.windows normalized.toList 0 0

variable {p} {normalized : List Char} {start stop chunk i j k : Nat} {c : Char}

/-! ## Where a window ends -/

/-- The characters a window may be cut after. -/
def Breaks (c : Char) : Prop := c = '\n' ∨ c = '。' ∨ c = '，'

theorem le_splitAt {candidate : List Char} (h : candidate[i]? = some c) (hc : Breaks c) :
    (i : Int) ≤ splitAt candidate := by
  have hle := le_rfind h
  unfold splitAt
  rcases hc with rfl | rfl | rfl <;> omega

theorem splitAt_breaks {candidate : List Char} (h : 0 ≤ splitAt candidate) :
    ∃ c, candidate[(splitAt candidate).toNat]? = some c ∧ Breaks c := by
  have hcases : splitAt candidate = rfind '\n' candidate ∨
      splitAt candidate = rfind '。' candidate ∨ splitAt candidate = rfind '，' candidate := by
    unfold splitAt
    omega
  rcases hcases with heq | heq | heq <;> rw [heq] at h ⊢
  · exact ⟨_, getElem?_rfind h, Or.inl rfl⟩
  · exact ⟨_, getElem?_rfind h, Or.inr (Or.inl rfl)⟩
  · exact ⟨_, getElem?_rfind h, Or.inr (Or.inr rfl)⟩

theorem splitAt_lt (candidate : List Char) : splitAt candidate < candidate.length := by
  have h₁ := rfind_lt '\n' candidate
  have h₂ := rfind_lt '。' candidate
  have h₃ := rfind_lt '，' candidate
  unfold splitAt
  omega

/-- The window that begins at `start`, at its full length. -/
def window (p : PolicyChunkingPolicy) (normalized : List Char) (start : Nat) : List Char :=
  slice normalized start (start + p.targetChars)

theorem length_window (h : start + p.targetChars ≤ normalized.length) :
    (p.window normalized start).length = p.targetChars := by
  rw [window, length_slice h, Nat.add_sub_cancel_left]

/-- The last window ends with the text. -/
theorem windowEnd_last (h : normalized.length ≤ start + p.targetChars) :
    p.windowEnd normalized start = normalized.length := by
  simp [windowEnd, Nat.min_eq_left h]

/-- Any other window is cut after its last break in the second half, or has its full length. -/
theorem windowEnd_inner (h : start + p.targetChars < normalized.length) :
    p.windowEnd normalized start =
      if (p.targetChars / 2 : Nat) ≤ splitAt (p.window normalized start) then
        start + (splitAt (p.window normalized start)).toNat + 1
      else start + p.targetChars := by
  have hlen := length_window (p := p) h.le
  simp only [windowEnd, Nat.min_eq_right h.le, h, if_true]
  unfold window at hlen ⊢
  rw [hlen]

theorem windowEnd_le_length : p.windowEnd normalized start ≤ max start normalized.length := by
  by_cases h : start + p.targetChars < normalized.length
  · have hlt := splitAt_lt (p.window normalized start)
    rw [length_window h.le] at hlt
    rw [windowEnd_inner h]
    split_ifs <;> omega
  · rw [windowEnd_last (by omega)]
    omega

theorem windowEnd_le : p.windowEnd normalized start ≤ start + p.targetChars := by
  by_cases h : start + p.targetChars < normalized.length
  · have hlt := splitAt_lt (p.window normalized start)
    rw [length_window h.le] at hlt
    rw [windowEnd_inner h]
    split_ifs <;> omega
  · rw [windowEnd_last (by omega)]
    omega

theorem windowEnd_lt_length (h : start + p.targetChars < normalized.length) :
    p.windowEnd normalized start < normalized.length := windowEnd_le.trans_lt h

/-- **The step.** The next window starts one step after this one, wherever this one was cut. -/
theorem next_start :
    max (p.windowEnd normalized start - p.overlapChars) (start + p.step) = start + p.step := by
  have hle : p.windowEnd normalized start ≤ start + p.targetChars := windowEnd_le
  have hlt := p.overlap_lt
  unfold step
  omega

theorem getElem?_window (h : i < p.targetChars) :
    (p.window normalized start)[i]? = normalized[start + i]? :=
  getElem?_slice (by omega)

/-- A break of the text in the second half of a window is not behind its end. -/
theorem lt_windowEnd (h : start + p.targetChars < normalized.length) (hc : Breaks c)
    (hi : normalized[i]? = some c) (hfrom : start + p.targetChars / 2 ≤ i)
    (hto : i < start + p.targetChars) : i < p.windowEnd normalized start := by
  have hidx : (p.window normalized start)[i - start]? = some c := by
    rw [getElem?_window (by omega), show start + (i - start) = i by omega]
    exact hi
  have hle := le_splitAt hidx hc
  rw [windowEnd_inner h]
  split_ifs <;> omega

/-- A window ends with a break in its second half, or at its full length if there is none. -/
theorem windowEnd_cases (h : start + p.targetChars < normalized.length) :
    (∃ i c, p.windowEnd normalized start = i + 1 ∧ normalized[i]? = some c ∧ Breaks c ∧
      start + p.targetChars / 2 ≤ i ∧ i < start + p.targetChars) ∨
    p.windowEnd normalized start = start + p.targetChars ∧
      ∀ i c, normalized[i]? = some c → Breaks c → start + p.targetChars / 2 ≤ i →
        start + p.targetChars ≤ i := by
  rw [windowEnd_inner h]
  have hlt := splitAt_lt (p.window normalized start)
  rw [length_window h.le] at hlt
  by_cases hhalf : (p.targetChars / 2 : Nat) ≤ splitAt (p.window normalized start)
  · rw [if_pos hhalf]
    obtain ⟨c, hc, hbreak⟩ := splitAt_breaks (by omega : 0 ≤ splitAt (p.window normalized start))
    rw [getElem?_window (by omega)] at hc
    exact Or.inl ⟨_, c, rfl, hc, hbreak, by omega, by omega⟩
  · rw [if_neg hhalf]
    refine Or.inr ⟨rfl, fun i c hc hbreak hfrom => ?_⟩
    by_contra hto
    have hidx : (p.window normalized start)[i - start]? = some c := by
      rw [getElem?_window (by omega), show start + (i - start) = i by omega]
      exact hc
    have hle := le_splitAt hidx hbreak
    omega

/-- A later window does not end before an earlier one. -/
theorem windowEnd_mono (hle : start ≤ stop) :
    p.windowEnd normalized start ≤ p.windowEnd normalized stop := by
  by_cases hlast : normalized.length ≤ stop + p.targetChars
  · rw [windowEnd_last hlast]
    by_cases hfirst : normalized.length ≤ start + p.targetChars
    · rw [windowEnd_last hfirst]
    · exact (windowEnd_lt_length (by omega)).le
  · have hend : p.windowEnd normalized start ≤ start + p.targetChars := windowEnd_le
    have hinner' : stop + p.targetChars < normalized.length := by omega
    rcases windowEnd_cases hinner' with ⟨j, d, hj, hd, hbreak, hfrom, hto⟩ | ⟨hfull, -⟩
    · rw [hj]
      by_contra hlt
      -- the later window ends inside the earlier one, so its last break lies in both
      have hinner : start + p.targetChars < normalized.length := by omega
      rcases windowEnd_cases hinner with ⟨i, c, hi, hc, hbreak', -, hto'⟩ | ⟨hfull, hnone⟩
      · have hin : i < p.windowEnd normalized stop :=
          lt_windowEnd (by omega) hbreak' hc (by omega) (by omega)
        omega
      · have hout := hnone j d hd hbreak (by omega)
        omega
    · omega

/-! ## What the windows cover -/

/-- The place lies inside one of the slices. -/
def Covers (slices : List ChunkSlice) (i : Nat) : Prop := ∃ s ∈ slices, s.start ≤ i ∧ i < s.stop

theorem covers_cons {s : ChunkSlice} {slices : List ChunkSlice} :
    Covers (s :: slices) i ↔ s.start ≤ i ∧ i < s.stop ∨ Covers slices i := by
  simp [Covers]

/-- A character that is not white space is in the text of every window around it. -/
theorem strip_slice_ne_empty (hc : normalized[i]? = some c) (hs : isSpace c = false)
    (hfrom : start ≤ i) (hto : i < stop) : strip (String.ofList (slice normalized start stop)) ≠ "" := by
  intro hempty
  have hidx : (slice normalized start stop)[i - start]? = some c := by
    rw [getElem?_slice (by omega), show start + (i - start) = i by omega]
    exact hc
  have hmem : c ∈ (String.ofList (slice normalized start stop)).toList := by
    rw [String.toList_ofList]
    exact List.mem_of_getElem? hidx
  have hstrip := mem_strip hmem hs
  rw [hempty] at hstrip
  simp at hstrip

/-- The first window, and the rest of the loop. -/
theorem covers_windows_step (chunk : Nat) (hstart : start < normalized.length) (hc : normalized[i]? = some c)
    (hs : isSpace c = false) : ∃ chunk', Covers (p.windows normalized start chunk) i ↔
      (start ≤ i ∧ i < p.windowEnd normalized start) ∨
        (start + p.targetChars < normalized.length ∧
          Covers (p.windows normalized (start + p.step) chunk') i) := by
  have hrest (chunk' : Nat) : Covers (if normalized.length ≤ p.windowEnd normalized start then []
      else p.windows normalized (start + p.step) chunk') i ↔
        start + p.targetChars < normalized.length ∧
          Covers (p.windows normalized (start + p.step) chunk') i := by
    by_cases hlast : normalized.length ≤ start + p.targetChars
    · rw [windowEnd_last hlast, if_pos le_rfl]
      refine iff_of_false (fun ⟨_, hmem, _⟩ => ?_) (by omega)
      cases hmem
    · rw [if_neg (by have := windowEnd_lt_length (p := p) (not_le.1 hlast); omega)]
      exact ⟨fun h => ⟨by omega, h⟩, fun h => h.2⟩
  rw [windows]
  simp only [hstart, if_true, next_start]
  by_cases htext : strip (String.ofList
      (slice normalized start (p.windowEnd normalized start))) = ""
  · refine ⟨chunk, ?_⟩
    rw [if_neg (not_not.2 htext), hrest]
    refine ⟨Or.inr, fun h => h.resolve_left fun hin => ?_⟩
    exact strip_slice_ne_empty hc hs hin.1 hin.2 htext
  · refine ⟨chunk + 1, ?_⟩
    rw [if_pos htext, covers_cons, hrest]

/-- The windows from `start` on, one for each number of steps. -/
theorem covers_windows (hstart : start < normalized.length) (hc : normalized[i]? = some c)
    (hs : isSpace c = false) : Covers (p.windows normalized start chunk) i ↔
      ∃ k, (k = 0 ∨ start + (k - 1) * p.step + p.targetChars < normalized.length) ∧
        start + k * p.step ≤ i ∧ i < p.windowEnd normalized (start + k * p.step) := by
  induction hn : normalized.length - start using Nat.strong_induction_on generalizing start chunk
  case h n ih =>
    subst hn
    obtain ⟨chunk', hstep⟩ := covers_windows_step chunk hstart hc hs
    rw [hstep]
    have hpos := p.step_pos
    have hlt : p.step ≤ p.targetChars := Nat.sub_le _ _
    constructor
    · rintro (h | ⟨hnext, h⟩)
      · exact ⟨0, Or.inl rfl, by simpa using h⟩
      · rw [ih _ (by omega) (by omega) rfl] at h
        obtain ⟨k, hk, hfrom, hto⟩ := h
        have hshift : start + (k + 1) * p.step = start + p.step + k * p.step := by
          rw [Nat.succ_mul]
          omega
        refine ⟨k + 1, Or.inr ?_, hshift ▸ hfrom, hshift ▸ hto⟩
        rw [Nat.add_sub_cancel]
        rcases hk with rfl | hk
        · simpa using hnext
        · cases k with
          | zero => simpa using hnext
          | succ k =>
            rw [Nat.add_sub_cancel] at hk
            rw [Nat.succ_mul]
            omega
    · rintro ⟨k, hk, hfrom, hto⟩
      cases k with
      | zero =>
        rw [Nat.zero_mul, Nat.add_zero] at hfrom hto
        exact Or.inl ⟨hfrom, hto⟩
      | succ k =>
        have hk := hk.resolve_left (Nat.succ_ne_zero k)
        rw [Nat.add_sub_cancel] at hk
        have hmul : 0 ≤ k * p.step := Nat.zero_le _
        have hshift : start + (k + 1) * p.step = start + p.step + k * p.step := by
          rw [Nat.succ_mul]
          omega
        refine Or.inr ⟨by omega, ?_⟩
        rw [ih _ (by omega) (by omega) rfl]
        refine ⟨k, ?_, hshift ▸ hfrom, hshift ▸ hto⟩
        cases k with
        | zero => exact Or.inl rfl
        | succ k =>
          rw [Nat.succ_mul] at hk
          rw [Nat.add_sub_cancel]
          exact Or.inr (by omega)

/-! ## The main theorem -/

/-- Every character of the text that is not white space lies inside a slice. -/
def CoversText (slices : List ChunkSlice) (text : List Char) : Prop :=
  ∀ i c, text[i]? = some c → isSpace c = false → Covers slices i

/-- Every window that ends before the text does, and has its last break in its second half, has
only white space from there to the start of the next window. -/
def NothingLost (p : PolicyChunkingPolicy) (text : List Char) : Prop :=
  ∀ k, k * p.step + p.targetChars < text.length →
    (p.targetChars / 2 : Nat) ≤ splitAt (p.window text (k * p.step)) →
    ∀ (i : Nat) c, text[i]? = some c → k * p.step + splitAt (p.window text (k * p.step)) < i →
      i < (k + 1) * p.step → isSpace c = true

theorem nothingLost_iff : p.NothingLost normalized ↔
    ∀ k, k * p.step + p.targetChars < normalized.length → ∀ i c, normalized[i]? = some c →
      p.windowEnd normalized (k * p.step) ≤ i → i < (k + 1) * p.step → isSpace c = true := by
  have hstep : p.step ≤ p.targetChars := Nat.sub_le _ _
  refine forall_congr' fun k => forall_congr' fun hinner => ?_
  rw [windowEnd_inner hinner]
  by_cases hhalf : (p.targetChars / 2 : Nat) ≤ splitAt (p.window normalized (k * p.step))
  · rw [if_pos hhalf]
    refine ⟨fun h i c hc hfrom hto => h hhalf i c hc (by omega) hto,
      fun h _ i c hc hfrom hto => h i c hc (by omega) hto⟩
  · rw [if_neg hhalf]
    refine ⟨fun _ i c _ hfrom hto => ?_, fun _ h => absurd h hhalf⟩
    rw [Nat.succ_mul] at hto
    omega

/-- The window in which a place is looked for: the one of its step, or the last one. -/
theorem exists_window (hi : i < (j + 1) * p.step) :
    ∃ k, (k = 0 ∨ (k - 1) * p.step + p.targetChars < normalized.length) ∧ k * p.step ≤ i ∧
      (normalized.length ≤ k * p.step + p.targetChars ∨ i < (k + 1) * p.step) := by
  have hfirst : ∀ j, normalized.length ≤ j * p.step + p.targetChars ∨ i < (j + 1) * p.step →
      ∃ k, (k = 0 ∨ (k - 1) * p.step + p.targetChars < normalized.length) ∧ k * p.step ≤ i ∧
        (normalized.length ≤ k * p.step + p.targetChars ∨ i < (k + 1) * p.step) := by
    intro j
    induction j with
    | zero => exact fun h => ⟨0, Or.inl rfl, by omega, h⟩
    | succ j ih =>
      intro h
      by_cases hj : normalized.length ≤ j * p.step + p.targetChars ∨ i < (j + 1) * p.step
      · exact ih hj
      · rw [not_or] at hj
        exact ⟨j + 1, Or.inr (not_le.1 hj.1), not_lt.1 hj.2, h⟩
  exact hfirst j (Or.inr hi)

theorem coversText_iff (hlong : p.targetChars < normalized.length) :
    CoversText (p.windows normalized 0 0) normalized ↔ p.NothingLost normalized := by
  rw [nothingLost_iff]
  have hpos : 0 < normalized.length := by omega
  constructor
  · intro h k hinner i c hc hfrom hto
    by_contra hspace
    have hs : isSpace c = false := by simpa using hspace
    obtain ⟨j, -, hj, hin⟩ := (covers_windows hpos hc hs).1 (h i c hc hs)
    rw [Nat.zero_add] at hj hin
    have hle : j ≤ k := by
      by_contra hlt
      have hmul : (k + 1) * p.step ≤ j * p.step :=
        Nat.mul_le_mul_right p.step (Nat.succ_le_of_lt (not_le.1 hlt))
      omega
    have hmono : p.windowEnd normalized (j * p.step) ≤ p.windowEnd normalized (k * p.step) :=
      windowEnd_mono (Nat.mul_le_mul_right p.step hle)
    omega
  · intro h i c hc hs
    have hi := (List.getElem?_eq_some_iff.1 hc).1
    have hstep : i < (i + 1) * p.step := Nat.lt_of_lt_of_le (Nat.lt_succ_self i)
      (Nat.le_mul_of_pos_right _ p.step_pos)
    obtain ⟨k, hk, hfrom, hlast⟩ : ∃ k,
        (k = 0 ∨ (k - 1) * p.step + p.targetChars < normalized.length) ∧ k * p.step ≤ i ∧
          (normalized.length ≤ k * p.step + p.targetChars ∨ i < (k + 1) * p.step) :=
      exists_window hstep
    refine (covers_windows hpos hc hs).2 ⟨k, by simpa using hk, by simpa using hfrom, ?_⟩
    rw [Nat.zero_add]
    by_cases hinner : normalized.length ≤ k * p.step + p.targetChars
    · rw [windowEnd_last hinner]
      exact hi
    · by_contra hout
      have hspace := h k (not_le.1 hinner) i c hc (not_lt.1 hout) (hlast.resolve_left hinner)
      rw [hs] at hspace
      cases hspace

/-- **Coverage.** No text is lost between the windows exactly when no window loses any. -/
theorem covers_iff (p : PolicyChunkingPolicy) (text : String) :
    CoversText (p.splitSectionText text) (strip text).toList ↔ p.NothingLost (strip text).toList := by
  unfold splitSectionText
  by_cases hempty : strip text = ""
  · rw [if_pos hempty, hempty]
    exact iff_of_true (fun i c hc => by simp at hc) fun k h => by simp at h
  by_cases hshort : (strip text).length ≤ p.targetChars
  · rw [if_neg hempty, if_pos hshort]
    rw [← String.length_toList] at hshort
    refine iff_of_true (fun i c hc _ => ⟨_, List.mem_singleton_self _, Nat.zero_le _, ?_⟩)
      fun k h => by omega
    rw [List.getElem?_eq_some_iff] at hc
    simpa only [String.length_toList] using hc.1
  · rw [if_neg hempty, if_neg hshort]
    have hlong : p.targetChars < (strip text).toList.length := by
      rw [String.length_toList]
      exact not_le.1 hshort
    exact coversText_iff hlong

/-- Windows of four characters that do not overlap. -/
def fours : PolicyChunkingPolicy where
  targetChars := 4
  overlapChars := 0
  target_pos := by decide
  overlap_lt := by decide

theorem comma_loses : ¬∀ (p : PolicyChunkingPolicy) (text : String),
    CoversText (p.splitSectionText text) (strip text).toList := by
  intro h
  have hstrip : (strip "ab，cdefg").toList = ['a', 'b', '，', 'c', 'd', 'e', 'f', 'g'] := by
    decide +kernel
  have hsplit : fours.splitSectionText "ab，cdefg" =
      [⟨0, 3, "ab，", 0⟩, ⟨4, 8, "defg", 1⟩] := by decide +kernel
  have hcover := h fours "ab，cdefg" 3 'c' (by rw [hstrip]; rfl) (by decide)
  rw [hsplit] at hcover
  simp [Covers] at hcover

end PolicyChunkingPolicy

end GoAgent.Ingestion
