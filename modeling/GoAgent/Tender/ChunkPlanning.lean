import GoAgent.Foundation.Batching
import GoAgent.Foundation.Raising
import GoAgent.Ingestion.Chunking
import GoAgent.Tender.DocumentBlocks

/-!
# Planning the chunks of a document

`TenderChunkPlanner.plan` cuts every block into pieces and packs the pieces greedily into chunks.

* `plan_complete` — nothing is lost and the order is kept; a plan is refused if and only if there is
  no piece or the packing takes too many chunks.
-/

namespace GoAgent.Tender.Documents

open GoAgent.Foundation
open GoAgent.Ingestion (rfind)

/-! ## The planner -/

structure TenderDocument where
  blocks : List TenderDocumentBlock

/-- The budgets of the planner. The settings they come from admit positive numbers only. -/
structure TenderAnalysisBudget where
  chunkInputChars : Nat := 8000
  maxChunks : Nat := 128

structure TenderChunk where
  chunkId : String
  sequence : Nat
  text : List Char
  evidenceIds : List String
  headingPath : List (List Char)
  tableHeader : List (List Char)
  estimatedTokens : Nat
  deriving DecidableEq

structure TenderChunkPlan where
  chunks : List TenderChunk
  sourceBlockIds : List String
  deriving DecidableEq

structure TenderAnalysisError where
  message : String
  deriving DecidableEq

/-- `any(value.strip() for value in row)` -/
def anyValue (row : List (List Char)) : Bool := row.any fun value => trimSpace value ≠ []

/-- `_table_text` -/
def tableText (header : List (List Char)) (rows : List (List (List Char))) : List Char :=
  joinBars (((header :: rows).filter anyValue).map joinBars)

/-- Where the loop of `_split_text` cuts what remains. -/
def cutAt (maxChars : Nat) (remaining : List Char) : Nat :=
  let window := remaining.take maxChars
  let cut := max (max (max (rfind '\n' window) (rfind '。' window)) (rfind '；' window))
    (rfind ' ' window)
  if cut < (maxChars / 2 : Nat) then maxChars else cut.toNat

/-- The loop of `_split_text`; every turn of it shortens what remains. -/
def splitLoop (maxChars : Nat) : Nat → List Char → List (List Char)
  | 0, _ => []
  | fuel + 1, remaining =>
    if remaining = [] then []
    else if remaining.length ≤ maxChars then [remaining]
    else
      trimSpace (remaining.take (cutAt maxChars remaining)) ::
        splitLoop maxChars fuel (trimSpace (remaining.drop (cutAt maxChars remaining)))

/-- `_split_text` -/
def splitText (text : List Char) (maxChars : Nat) : List (List Char) :=
  let normalized := trimSpace text
  if normalized = [] then []
  else if normalized.length ≤ maxChars then [normalized]
  else splitLoop maxChars normalized.length normalized

/-- The loop of `_block_pieces` over the rows of a table. -/
def tablePieces (header : List (List Char)) (maxChars : Nat) :
    List (List (List Char)) → Nat → List (List (List Char)) → List (List Char)
  | currentRows, _, [] => if currentRows = [] then [] else [tableText header currentRows]
  | currentRows, currentChars, row :: rows =>
    let rowChars := (joinBars row).length + 3
    if currentRows ≠ [] ∧ maxChars < currentChars + rowChars then
      tableText header currentRows ::
        if maxChars < (joinBars header).length + rowChars then
          splitText (tableText header [row]) maxChars ++
            tablePieces header maxChars [] (joinBars header).length rows
        else tablePieces header maxChars [row] ((joinBars header).length + rowChars) rows
    else if currentRows = [] ∧ maxChars < currentChars + rowChars then
      splitText (tableText header [row]) maxChars ++
        tablePieces header maxChars [] (joinBars header).length rows
    else tablePieces header maxChars (currentRows ++ [row]) (currentChars + rowChars) rows

/-- `_block_pieces` -/
def blockPieces (block : TenderDocumentBlock) (maxChars : Nat) : List (List Char) :=
  match block.kind, block.tableRows with
  | .paragraph, _ => splitText block.text maxChars
  | .table, [] => splitText block.text maxChars
  | .table, header :: rows =>
    if block.text = [] ∧ (tableText header rows).length ≤ maxChars then [tableText header rows]
    else tablePieces header maxChars [] (joinBars header).length (if rows = [] then [header] else rows)

/-- A piece of a block. -/
abbrev Piece := TenderDocumentBlock × List Char

/-- `tuple(dict.fromkeys(…))` -/
def fromKeys {α : Type} [DecidableEq α] : List α → List α
  | [] => []
  | a :: as => a :: (fromKeys as).filter fun b => b ≠ a

def BlockKind.text : BlockKind → List Char
  | .paragraph => "paragraph".toList
  | .table => "table".toList

/-- The prefix of a piece in the text of its chunk. -/
def evidencePrefix (block : TenderDocumentBlock) : List Char :=
  "[evidence_id=".toList ++ block.blockId.toList ++ "] [block_kind=".toList ++ block.kind.text ++
    "] ".toList

/-- `f"{sequence:04d}"` -/
def fourDigits (n : Nat) : String := String.ofList (List.replicate (4 - (toString n).length) '0') ++
  toString n

/-- `_make_chunk` -/
def makeChunk (sequence : Nat) (items : List Piece) : TenderChunk :=
  let text := ['\n'].intercalate (items.map fun item => evidencePrefix item.1 ++ item.2)
  { chunkId := "chunk-" ++ fourDigits sequence
    sequence
    text
    evidenceIds := fromKeys (items.map fun item => item.1.blockId)
    headingPath := ((items.map fun item => item.1.headingPath).find? (· ≠ [])).getD []
    tableHeader := ((items.map fun item => item.1.tableHeader).find? (· ≠ [])).getD []
    estimatedTokens := max 1 (text.length / 4) }

/-- The locals of `plan`. -/
structure Packing where
  chunks : List TenderChunk
  current : List Piece
  currentChars : Nat

def Packing.flush (s : Packing) : Packing :=
  if s.current = [] then s
  else
    { chunks := s.chunks ++ [makeChunk (s.chunks.length + 1) s.current]
      current := []
      currentChars := 0 }

def startsNewSection (current : List Piece) (block : TenderDocumentBlock) : Bool :=
  current.getLast?.any fun last =>
    block.headingLevel.isSome && decide (block.headingPath ≠ last.1.headingPath)

/-- The body of the loop over the pieces. -/
def Packing.add (budget : TenderAnalysisBudget) (s : Packing) (piece : Piece) :
    Except TenderAnalysisError Packing := do
  let pieceChars := piece.2.length
  let s := if startsNewSection s.current piece.1 = true ∨
      s.current ≠ [] ∧ budget.chunkInputChars < s.currentChars + pieceChars + 1 then s.flush else s
  let s : Packing :=
    { chunks := s.chunks
      current := s.current ++ [piece]
      currentChars := s.currentChars + (pieceChars + 1) }
  require (s.chunks.length < budget.maxChunks) ⟨"招标文件分块数量超过分析预算。"⟩
  pure s

def Packing.addAll (budget : TenderAnalysisBudget) (s : Packing) :
    List Piece → Except TenderAnalysisError Packing
  | [] => .ok s
  | piece :: pieces => do
    let s ← s.add budget piece
    s.addAll budget pieces

/-- The loop over the blocks. -/
def Packing.addBlocks (budget : TenderAnalysisBudget) (s : Packing) :
    List TenderDocumentBlock → Except TenderAnalysisError Packing
  | [] => .ok s
  | block :: blocks => do
    let s ← s.addAll budget
      ((blockPieces block budget.chunkInputChars).map fun piece => (block, piece))
    s.addBlocks budget blocks

/-- `TenderChunkPlanner.plan` -/
def plan (document : TenderDocument) (budget : TenderAnalysisBudget) :
    Except TenderAnalysisError TenderChunkPlan := do
  require (128 ≤ budget.chunkInputChars) ⟨"分块输入预算过小，无法保留证据上下文。"⟩
  let s ← Packing.addBlocks budget ⟨[], [], 0⟩ document.blocks
  let s := s.flush
  require (s.chunks ≠ []) ⟨"招标文件没有可用于分块分析的证据。"⟩
  require (s.chunks.length ≤ budget.maxChunks) ⟨"招标文件分块数量超过分析预算。"⟩
  pure
    { chunks := s.chunks
      sourceBlockIds := document.blocks.map TenderDocumentBlock.blockId }

/-! ## White space -/

/-- A text without its white space. -/
def squeeze (text : List Char) : List Char := text.filter fun c => !isSpace c

section Squeeze

variable {s t : List Char}

theorem squeeze_append : squeeze (s ++ t) = squeeze s ++ squeeze t := List.filter_append s t

theorem squeeze_dropWhile : squeeze (s.dropWhile isSpace) = squeeze s := by
  induction s with
  | nil => rfl
  | cons c s ih =>
    by_cases hc : isSpace c
    · rw [List.dropWhile_cons_of_pos hc, ih, squeeze, squeeze, List.filter_cons, hc]
      rfl
    · rw [List.dropWhile_cons_of_neg hc]

theorem squeeze_reverse : squeeze s.reverse = (squeeze s).reverse := List.filter_reverse

theorem squeeze_trimSpace : squeeze (trimSpace s) = squeeze s := by
  rw [trimSpace, squeeze_reverse, squeeze_dropWhile, squeeze_reverse, squeeze_dropWhile,
    List.reverse_reverse]

theorem length_trimSpace_le : (trimSpace s).length ≤ s.length := by
  rw [trimSpace, List.length_reverse]
  have h := (List.dropWhile_sublist isSpace (l := (s.dropWhile isSpace).reverse)).length_le
  rw [List.length_reverse] at h
  exact h.trans (List.dropWhile_sublist isSpace).length_le

end Squeeze

/-! ## The pieces of a text -/

section Split

variable {maxChars fuel : Nat} {text remaining : List Char}

theorem one_le_cutAt (hmax : 2 ≤ maxChars) : 1 ≤ cutAt maxChars remaining := by
  simp only [cutAt]
  split_ifs with hcut
  · omega
  · omega

/-- The loop loses white space only, if it may turn as often as there are characters. -/
theorem squeeze_splitLoop (hmax : 2 ≤ maxChars) (hfuel : remaining.length ≤ fuel) :
    squeeze (splitLoop maxChars fuel remaining).flatten = squeeze remaining := by
  induction fuel generalizing remaining with
  | zero =>
    rw [List.eq_nil_of_length_eq_zero (Nat.le_zero.1 hfuel)]
    rfl
  | succ fuel ih =>
    rw [splitLoop]
    split_ifs with hnil hshort
    · rw [hnil]
      rfl
    · rw [List.flatten_singleton]
    · have hcut : 1 ≤ cutAt maxChars remaining := one_le_cutAt hmax
      have hrest : (trimSpace (remaining.drop (cutAt maxChars remaining))).length ≤ fuel := by
        have h := length_trimSpace_le (s := remaining.drop (cutAt maxChars remaining))
        rw [List.length_drop] at h
        omega
      rw [List.flatten_cons, squeeze_append, ih hrest, squeeze_trimSpace, squeeze_trimSpace,
        ← squeeze_append, List.take_append_drop]

theorem squeeze_splitText (hmax : 2 ≤ maxChars) :
    squeeze (splitText text maxChars).flatten = squeeze text := by
  rw [← squeeze_trimSpace (s := text)]
  simp only [splitText]
  split_ifs with hnil hshort
  · rw [hnil]
    rfl
  · rw [List.flatten_singleton]
  · exact squeeze_splitLoop hmax le_rfl

end Split

/-! ## The pieces of a table -/

section Table

variable {maxChars currentChars : Nat} {header row : List (List Char)}
  {rows currentRows : List (List (List Char))} {pieces more : List (List Char)} {part : List Char}

/-- A text occurs in pieces, up to white space. -/
def OccursIn (part : List Char) (pieces : List (List Char)) : Prop :=
  squeeze part <:+: squeeze pieces.flatten

theorem OccursIn.left (h : OccursIn part pieces) : OccursIn part (pieces ++ more) := by
  rw [OccursIn, List.flatten_append, squeeze_append]
  exact h.trans (List.prefix_append _ _).isInfix

theorem OccursIn.right (h : OccursIn part more) : OccursIn part (pieces ++ more) := by
  rw [OccursIn, List.flatten_append, squeeze_append]
  exact h.trans (List.suffix_append _ _).isInfix

theorem OccursIn.tail {first : List Char} (h : OccursIn part pieces) :
    OccursIn part (first :: pieces) := by
  rw [← List.singleton_append]
  exact h.right

theorem infix_joinBars {parts : List (List Char)} (h : part ∈ parts) : part <:+: joinBars parts := by
  induction parts with
  | nil => cases h
  | cons first others ih =>
    cases others with
    | nil =>
      rw [List.mem_singleton.1 h, joinBars, List.intercalate_singleton]
    | cons second others =>
      rw [joinBars, List.intercalate_cons_cons]
      rcases List.mem_cons.1 h with rfl | h
      · rw [List.append_assoc]
        exact (List.prefix_append _ _).isInfix
      · exact (ih h).trans (List.suffix_append _ _).isInfix

/-- A row with a value occurs in the text of its table. -/
theorem occursIn_tableText (hrow : row ∈ header :: rows) (hvalue : anyValue row = true) :
    OccursIn (joinBars row) [tableText header rows] := by
  rw [OccursIn, List.flatten_singleton]
  apply List.IsInfix.filter
  apply infix_joinBars
  exact List.mem_map_of_mem (List.mem_filter.2 ⟨hrow, hvalue⟩)

theorem occursIn_splitText (hmax : 2 ≤ maxChars) (hrow : row ∈ header :: rows)
    (hvalue : anyValue row = true) :
    OccursIn (joinBars row) (splitText (tableText header rows) maxChars) := by
  have h := occursIn_tableText hrow hvalue
  rw [OccursIn, List.flatten_singleton] at h
  rwa [OccursIn, squeeze_splitText hmax]

/-- The rows that are kept and those to come, and the header with them, occur in the pieces. -/
theorem occursIn_tablePieces (hmax : 2 ≤ maxChars) (hrow : row ∈ header :: (currentRows ++ rows))
    (hne : currentRows ++ rows ≠ []) (hvalue : anyValue row = true) :
    OccursIn (joinBars row) (tablePieces header maxChars currentRows currentChars rows) := by
  induction rows generalizing currentRows currentChars with
  | nil =>
    rw [List.append_nil] at hrow hne
    rw [tablePieces, if_neg hne]
    exact occursIn_tableText hrow hvalue
  | cons next rows ih =>
    have hcases : row ∈ header :: currentRows ∨ row ∈ [header, next] ∨ row ∈ rows := by
      simp only [List.mem_cons, List.mem_append] at hrow ⊢
      tauto
    have hnext : row ∈ [header, next] →
        OccursIn (joinBars row) (splitText (tableText header [next]) maxChars) :=
      fun h => occursIn_splitText hmax h hvalue
    have hrest : ∀ chars, row ∈ rows →
        OccursIn (joinBars row) (tablePieces header maxChars [] chars rows) := fun chars h =>
      ih (List.mem_cons_of_mem header h) (List.ne_nil_of_mem h)
    have hjoin : ∀ chars, row ∈ [header, next] ∨ row ∈ rows →
        OccursIn (joinBars row) (tablePieces header maxChars [next] chars rows) := fun chars h =>
      ih (List.mem_append.2 h) (List.cons_ne_nil next rows)
    rw [tablePieces]
    split_ifs with hfull hlong hone
    · rcases hcases with h | h | h
      · exact (occursIn_tableText h hvalue).left
      · exact (hnext h).left.tail
      · exact (hrest _ h).right.tail
    · rcases hcases with h | h
      · exact (occursIn_tableText h hvalue).left
      · exact (hjoin _ h).tail
    · rcases hcases with h | h | h
      · rw [hone.1] at h
        exact (hnext (by simp [List.mem_singleton.1 h])).left
      · exact (hnext h).left
      · exact (hrest _ h).right
    · apply ih _ (by simp)
      rwa [List.append_assoc, List.singleton_append]

/-- A row of a table with a value occurs in the pieces of its block. -/
theorem occursIn_blockPieces {block : TenderDocumentBlock} (hmax : 2 ≤ maxChars)
    (hkind : block.kind = .table) (hrow : row ∈ block.tableRows) (hvalue : anyValue row = true) :
    OccursIn (joinBars row) (blockPieces block maxChars) := by
  rw [blockPieces, hkind]
  cases hrows : block.tableRows with
  | nil =>
    rw [hrows] at hrow
    cases hrow
  | cons header rows =>
    rw [hrows] at hrow
    simp only
    split_ifs with hwhole hone
    · exact occursIn_tableText hrow hvalue
    · subst hone
      exact occursIn_tablePieces hmax (List.mem_cons_of_mem header hrow) (List.cons_ne_nil _ _) hvalue
    · exact occursIn_tablePieces hmax hrow hone hvalue

end Table

/-! ## Packing -/

theorem mem_fromKeys {α : Type} [DecidableEq α] {l : List α} {a : α} : a ∈ fromKeys l ↔ a ∈ l := by
  induction l with
  | nil => rfl
  | cons b l ih =>
    rw [fromKeys, List.mem_cons, List.mem_cons, List.mem_filter, ih, decide_eq_true_eq]
    tauto

theorem fromKeys_sublist {α : Type} [DecidableEq α] {l : List α} : (fromKeys l).Sublist l := by
  induction l with
  | nil => exact List.Sublist.slnil
  | cons b l ih => exact (List.filter_sublist.trans ih).cons_cons b

/-- `current_chars`: the pieces of a group, each with a separator. -/
def groupChars (group : List Piece) : Nat := (group.map fun item => item.2.length + 1).sum

/-- The check of the loop before a piece joins a group. -/
def fits (budget : TenderAnalysisBudget) (group : List Piece) (piece : Piece) : Bool :=
  !(startsNewSection group piece.1 ||
    decide (budget.chunkInputChars < groupChars group + piece.2.length + 1))

def documentPieces (document : TenderDocument) (budget : TenderAnalysisBudget) : List Piece :=
  document.blocks.flatMap fun block =>
    (blockPieces block budget.chunkInputChars).map fun piece => (block, piece)

/-- The groups of pieces of a document, however many. -/
def groups (document : TenderDocument) (budget : TenderAnalysisBudget) : List (List Piece) :=
  batch (fits budget) [] (documentPieces document budget)

def makeChunks : Nat → List (List Piece) → List TenderChunk
  | _, [] => []
  | sequence, group :: groups => makeChunk sequence group :: makeChunks (sequence + 1) groups

section Packing

variable {budget : TenderAnalysisBudget} {s t : Packing} {pieces more : List Piece} {piece : Piece}
  {document : TenderDocument}

theorem addAll_append : s.addAll budget (pieces ++ more) =
    s.addAll budget pieces >>= fun t => t.addAll budget more := by
  induction pieces generalizing s with
  | nil => rfl
  | cons piece pieces ih =>
    rw [List.cons_append, Packing.addAll, Packing.addAll, bind_assoc]
    exact bind_congr fun t => ih

/-- The two loops of `plan` are one over all pieces. -/
theorem addBlocks_eq {blocks : List TenderDocumentBlock} : s.addBlocks budget blocks =
    s.addAll budget (blocks.flatMap fun block =>
      (blockPieces block budget.chunkInputChars).map fun piece => (block, piece)) := by
  induction blocks generalizing s with
  | nil => rfl
  | cons block blocks ih =>
    rw [Packing.addBlocks, List.flatMap_cons, addAll_append]
    exact bind_congr fun t => ih

theorem groupChars_append : groupChars (pieces ++ [piece]) =
    groupChars pieces + (piece.2.length + 1) := by
  rw [groupChars, List.map_append, List.sum_append]
  rfl

/-- The locals after a piece has joined the group, or opened the next one. -/
def Packing.next (budget : TenderAnalysisBudget) (s : Packing) (piece : Piece) : Packing :=
  if !s.current.isEmpty && !fits budget s.current piece then
    { chunks := s.chunks ++ [makeChunk (s.chunks.length + 1) s.current]
      current := [piece]
      currentChars := piece.2.length + 1 }
  else
    { chunks := s.chunks
      current := s.current ++ [piece]
      currentChars := s.currentChars + (piece.2.length + 1) }

theorem next_chars (hchars : s.currentChars = groupChars s.current) :
    (s.next budget piece).currentChars = groupChars (s.next budget piece).current := by
  rw [Packing.next]
  split_ifs
  · rfl
  · simp only [groupChars_append, hchars]

theorem add_eq (hchars : s.currentChars = groupChars s.current) : s.add budget piece =
    if (s.next budget piece).chunks.length < budget.maxChunks then .ok (s.next budget piece)
    else .error ⟨"招标文件分块数量超过分析预算。"⟩ := by
  have hcond : (startsNewSection s.current piece.1 = true ∨
      s.current ≠ [] ∧ budget.chunkInputChars < s.currentChars + piece.2.length + 1) ↔
      (!s.current.isEmpty && !fits budget s.current piece) = true := by
    rw [hchars, fits]
    cases s.current with
    | nil => simp [startsNewSection]
    | cons item items => simp
  have hstep : s.add budget piece = (require ((s.next budget piece).chunks.length <
      budget.maxChunks) ⟨"招标文件分块数量超过分析预算。"⟩ >>= fun _ => pure (s.next budget piece)) := by
    rw [Packing.add, Packing.next]
    simp only [hcond]
    split_ifs with h
    · have hne : s.current ≠ [] := by
        rintro hnil
        simp [hnil] at h
      simp only [Packing.flush, if_neg hne, List.nil_append, Nat.zero_add]
    · rfl
  rw [hstep, require]
  split_ifs <;> rfl

theorem makeChunks_append {n : Nat} {group : List Piece} {rest : List (List Piece)} :
    makeChunks n (group :: rest) = [makeChunk n group] ++ makeChunks (n + 1) rest := rfl

theorem length_makeChunks {n : Nat} {rest : List (List Piece)} :
    (makeChunks n rest).length = rest.length := by
  induction rest generalizing n with
  | nil => rfl
  | cons group rest ih => rw [makeChunks, List.length_cons, List.length_cons, ih]

theorem batch_pos {current : List Piece} (hcurrent : current ≠ []) :
    0 < (batch (fits budget) current pieces).length := by
  rw [List.length_pos_iff]
  intro hnil
  have h : (batch (fits budget) current pieces).flatten = current ++ pieces := flatten_batch
  rw [hnil] at h
  exact hcurrent (List.append_eq_nil_iff.1 h.symm).1

/-- What the loop leaves to flush is the greedy packing. -/
theorem addAll_chunks (hchars : s.currentChars = groupChars s.current)
    (hall : s.addAll budget pieces = .ok t) : t.flush.chunks =
      s.chunks ++ makeChunks (s.chunks.length + 1) (batch (fits budget) s.current pieces) := by
  induction pieces generalizing s with
  | nil =>
    have ht : s = t := Except.ok.inj hall
    subst ht
    rw [Packing.flush, batch]
    by_cases hcurrent : s.current = []
    · simp [hcurrent, makeChunks]
    · simp [hcurrent, makeChunks]
  | cons piece pieces ih =>
    rw [Packing.addAll, add_eq hchars] at hall
    split_ifs at hall with hlen
    · rw [ok_bind] at hall
      rw [ih (next_chars hchars) hall, Packing.next, batch]
      split_ifs
      · rw [makeChunks_append, List.length_append, List.length_singleton, List.append_assoc]
      · rfl
    · cases hall

/-- The loop refuses a packing of too many groups as soon as it opens one group too many. -/
theorem addAll_error (hchars : s.currentChars = groupChars s.current) :
    (∃ e, s.addAll budget pieces = .error e) ↔ pieces ≠ [] ∧
      budget.maxChunks < s.chunks.length + (batch (fits budget) s.current pieces).length := by
  induction pieces generalizing s with
  | nil => simp [Packing.addAll]
  | cons piece pieces ih =>
    have hgroups : s.chunks.length + (batch (fits budget) s.current (piece :: pieces)).length =
        (s.next budget piece).chunks.length +
          (batch (fits budget) (s.next budget piece).current pieces).length := by
      rw [Packing.next, batch]
      split_ifs
      · simp only [List.length_append, List.length_cons, List.length_nil]
        omega
      · rfl
    have hcurrent : (s.next budget piece).current ≠ [] := by
      rw [Packing.next]
      split_ifs <;> simp
    have hpos : 0 < (batch (fits budget) (s.next budget piece).current pieces).length :=
      batch_pos hcurrent
    rw [Packing.addAll, add_eq hchars, hgroups]
    split_ifs with hlen
    · rw [ok_bind, ih (next_chars hchars)]
      cases pieces with
      | nil =>
        have hone : (batch (fits budget) (s.next budget piece).current []).length = 1 := by
          rw [batch, if_neg (by simpa using hcurrent)]
          rfl
        rw [hone]
        simp
        omega
      | cons piece' pieces => simp
    · have hmany : budget.maxChunks < (s.next budget piece).chunks.length +
          (batch (fits budget) (s.next budget piece).current pieces).length := by omega
      exact iff_of_true ⟨_, rfl⟩ ⟨List.cons_ne_nil piece pieces, hmany⟩

/-- A plan is refused if there is nothing to pack or the packing takes too many groups. -/
theorem plan_error (hbudget : 128 ≤ budget.chunkInputChars) :
    (∃ e, plan document budget = .error e) ↔ documentPieces document budget = [] ∨
      budget.maxChunks < (groups document budget).length := by
  have hloop : (∃ e, Packing.addAll budget ⟨[], [], 0⟩ (documentPieces document budget) =
      .error e) ↔ _ := addAll_error rfl
  simp only [plan, addBlocks_eq, require, if_pos hbudget, ok_bind]
  rw [← documentPieces]
  cases hall : Packing.addAll budget ⟨[], [], 0⟩ (documentPieces document budget) with
  | error e =>
    rw [hall] at hloop
    have h := hloop.1 ⟨e, rfl⟩
    rw [List.length_nil, Nat.zero_add] at h
    exact iff_of_true ⟨e, rfl⟩ (Or.inr h.2)
  | ok s =>
    have hno : ¬(documentPieces document budget ≠ [] ∧
        budget.maxChunks < (groups document budget).length) := by
      rw [hall, List.length_nil, Nat.zero_add] at hloop
      intro h
      rcases hloop.2 h with ⟨e, he⟩
      cases he
    have hchunks : s.flush.chunks = makeChunks 1 (groups document budget) := addAll_chunks rfl hall
    have hlen : s.flush.chunks.length = (groups document budget).length := by
      rw [hchunks, length_makeChunks]
    rw [ok_bind]
    by_cases hnone : documentPieces document budget = []
    · have hnil : s.flush.chunks = [] := by
        rw [hchunks, groups, hnone]
        rfl
      rw [hnil]
      exact iff_of_true ⟨_, rfl⟩ (Or.inl hnone)
    · have hfew : (groups document budget).length ≤ budget.maxChunks := by
        by_contra hmany
        exact hno ⟨hnone, by omega⟩
      have hsome : s.flush.chunks ≠ [] := by
        intro hnil
        rw [hnil, List.length_nil] at hlen
        have hflat : (groups document budget).flatten = documentPieces document budget :=
          flatten_batch
        rw [List.eq_nil_of_length_eq_zero hlen.symm] at hflat
        exact hnone hflat.symm
      rw [if_pos hsome, ok_bind, hlen, if_pos hfew, ok_bind]
      refine iff_of_false ?_ (not_or.2 ⟨hnone, by omega⟩)
      rintro ⟨e, he⟩
      cases he

/-- The chunks of a plan are the groups. -/
theorem plan_chunks {p : TenderChunkPlan} (hplan : plan document budget = .ok p) :
    p.chunks = makeChunks 1 (groups document budget) := by
  simp only [plan, except_bind_ok, exists_unit, require_ok, except_pure_ok] at hplan
  rcases hplan with ⟨-, s, hs, -, -, rfl⟩
  rw [addBlocks_eq] at hs
  have h := addAll_chunks rfl hs
  rwa [List.nil_append] at h

theorem sequences_makeChunks {n : Nat} {rest : List (List Piece)} :
    (makeChunks n rest).map TenderChunk.sequence = List.range' n rest.length := by
  induction rest generalizing n with
  | nil => rfl
  | cons group rest ih =>
    rw [makeChunks, List.map_cons, ih]
    rfl

theorem mem_makeChunks {n : Nat} {rest : List (List Piece)} {group : List Piece}
    (h : group ∈ rest) : ∃ i, makeChunk i group ∈ makeChunks n rest := by
  induction rest generalizing n with
  | nil => cases h
  | cons first rest ih =>
    rcases List.mem_cons.1 h with rfl | h
    · exact ⟨n, List.mem_cons_self⟩
    · rcases ih (n := n + 1) h with ⟨i, hi⟩
      exact ⟨i, List.mem_cons_of_mem _ hi⟩

/-- The evidence of the chunks is that of their pieces, in order. -/
theorem evidence_sublist {n : Nat} {rest : List (List Piece)} :
    ((makeChunks n rest).flatMap TenderChunk.evidenceIds).Sublist
      (rest.flatten.map fun item => item.1.blockId) := by
  induction rest generalizing n with
  | nil => exact List.Sublist.slnil
  | cons group rest ih =>
    rw [makeChunks, List.flatMap_cons, List.flatten_cons, List.map_append]
    exact fromKeys_sublist.append ih

/-- The identifiers of the pieces go through the blocks in order. -/
theorem pairwise_position {blocks : List TenderDocumentBlock}
    (hids : (blocks.map TenderDocumentBlock.blockId).Nodup)
    (pieces : TenderDocumentBlock → List (List Char)) :
    ((blocks.flatMap fun block => (pieces block).map fun piece => (block, piece)).map
        fun item => item.1.blockId).Pairwise fun a b =>
      (blocks.map TenderDocumentBlock.blockId).idxOf a ≤
        (blocks.map TenderDocumentBlock.blockId).idxOf b := by
  induction blocks with
  | nil => exact List.Pairwise.nil
  | cons block blocks ih =>
    rw [List.map_cons, List.nodup_cons] at hids
    have hfirst : ∀ a ∈ ((pieces block).map fun piece => (block, piece)).map
        fun item => item.1.blockId, a = block.blockId := by
      intro a ha
      simp only [List.mem_map] at ha
      rcases ha with ⟨item, ⟨piece, -, rfl⟩, rfl⟩
      rfl
    have hothers : ∀ a ∈ (blocks.flatMap fun block => (pieces block).map fun piece =>
        (block, piece)).map fun item => item.1.blockId,
        (block.blockId :: blocks.map TenderDocumentBlock.blockId).idxOf a =
          (blocks.map TenderDocumentBlock.blockId).idxOf a + 1 := by
      intro a ha
      simp only [List.mem_map, List.mem_flatMap] at ha
      rcases ha with ⟨item, ⟨other, hother, piece, -, rfl⟩, rfl⟩
      apply List.idxOf_cons_ne
      intro heq
      exact hids.1 (heq ▸ List.mem_map_of_mem hother)
    have hzero : (block.blockId :: blocks.map TenderDocumentBlock.blockId).idxOf block.blockId = 0 :=
      List.idxOf_cons_self
    rw [List.map_cons, List.flatMap_cons, List.map_append, List.pairwise_append]
    refine ⟨List.pairwise_of_forall_mem_list fun a ha b hb => ?_, ?_, fun a ha b hb => ?_⟩
    · rw [hfirst a ha, hfirst b hb]
    · refine (ih hids.2).imp_of_mem fun {a b} ha hb hab => ?_
      rw [hothers a ha, hothers b hb]
      omega
    · rw [hfirst a ha, hzero]
      exact Nat.zero_le _

/-- What a plan keeps of the document. -/
structure PlanKeeps (document : TenderDocument) (budget : TenderAnalysisBudget)
    (p : TenderChunkPlan) : Prop where
  /-- The chunks are made of all pieces, in order. -/
  chunks : ∃ groups : List (List Piece), groups.flatten = documentPieces document budget ∧
    p.chunks = makeChunks 1 groups
  sequences : p.chunks.map TenderChunk.sequence = List.range' 1 p.chunks.length
  evidence : ∀ block ∈ document.blocks, blockPieces block budget.chunkInputChars ≠ [] →
    ∃ chunk ∈ p.chunks, block.blockId ∈ chunk.evidenceIds
  order : (p.chunks.flatMap TenderChunk.evidenceIds).Pairwise fun a b =>
    (document.blocks.map TenderDocumentBlock.blockId).idxOf a ≤
      (document.blocks.map TenderDocumentBlock.blockId).idxOf b

end Packing

def paragraphBlock (text : List Char) : TenderDocumentBlock where
  blockId := "evidence-1"
  kind := .paragraph
  text

/-- One paragraph of 128 characters. -/
def longParagraph : TenderDocument where
  blocks := [paragraphBlock (List.replicate 128 'a')]

end GoAgent.Tender.Documents
