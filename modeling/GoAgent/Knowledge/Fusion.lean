import GoAgent.Foundation.Keyed
import Mathlib.Algebra.Order.Field.Rat
import Mathlib.Algebra.Order.Floor.Ring
import Mathlib.Data.List.Sort
import Mathlib.Data.Prod.Lex
import Mathlib.Data.Rat.Floor

/-!
# Fusing the hits of two searches

`HybridHitFusionService.merge_hits` puts the hits of a vector search and of a keyword search into
one dictionary by chunk, fuses the hits of a chunk that both have found, and sorts by a key that
ends with the chunk. `fused_lookup` says what the dictionary holds of a chunk: it depends on the hit of
each search only, not on where it stood. The sorted list is then determined, since no two hits have
one key.

* `lookup_foldl_mergeHit` — the loop over hits of distinct chunks.
* `merge_hits_order` — one hit for each chunk, sorted, whatever the order of the inputs.
-/

namespace GoAgent.Knowledge

open GoAgent.Foundation

/-! ## Hits -/

structure RetrievedPolicyChunk where
  documentId : Int
  versionId : Int
  chunkId : Int
  policyName : String
  policyCategory : String
  responsibleDepartment : Option String
  versionLabel : String
  sectionTitle : Option String
  sectionPath : Option String
  pageNo : Option Int
  chunkText : String
  score : ℚ
  sourcePath : Option String := none
  fileName : Option String := none
  retrievalSource : String := "vector"
  scoreBreakdown : List (String × ℚ) := []
  deriving DecidableEq

/-- `score_breakdown.get(name, 0.0)` -/
def RetrievedPolicyChunk.breakdown (name : String) (hit : RetrievedPolicyChunk) : ℚ :=
  (hit.scoreBreakdown.lookup name).getD 0

/-- To the nearest integer, and to the even one of two. -/
def roundHalfEven (q : ℚ) : ℤ :=
  let below := ⌊q⌋
  let rest := q - below
  if rest < 1 / 2 then below
  else if 1 / 2 < rest then below + 1
  else if below % 2 = 0 then below else below + 1

/-- `round(q, 6)` -/
def round6 (q : ℚ) : ℚ := roundHalfEven (q * 1000000) / 1000000

/-! ## The service -/

/-- `_fuse_score` -/
def fuseScore (vectorScore keywordScore : ℚ) : ℚ :=
  if 0 < vectorScore ∧ 0 < keywordScore then
    round6 (min 1 (max vectorScore keywordScore + min vectorScore keywordScore * (1 / 4)))
  else round6 (max vectorScore keywordScore)

/-- `_resolve_retrieval_source` -/
def resolveRetrievalSource (vectorScore keywordScore : ℚ) : String :=
  if 0 < vectorScore ∧ 0 < keywordScore then "hybrid"
  else if 0 < keywordScore then "keyword"
  else "vector"

/-- Another hit of a chunk that is in the dictionary. -/
def fused (existing hit : RetrievedPolicyChunk) : RetrievedPolicyChunk :=
  let vectorScore := max (existing.breakdown "vector") (hit.breakdown "vector")
  let keywordScore := max (existing.breakdown "keyword") (hit.breakdown "keyword")
  { existing with
    scoreBreakdown := ([("vector", vectorScore), ("keyword", keywordScore)].filter
      fun item => 0 < item.2).map fun item => (item.1, round6 item.2)
    score := fuseScore vectorScore keywordScore
    retrievalSource := resolveRetrievalSource vectorScore keywordScore }

/-- The body of the loop over the hits. -/
def mergeHit (mergedByChunk : List RetrievedPolicyChunk) (hit : RetrievedPolicyChunk) :
    List RetrievedPolicyChunk :=
  match lookup RetrievedPolicyChunk.chunkId hit.chunkId mergedByChunk with
  | none => mergedByChunk ++ [hit]
  | some existing =>
    replace RetrievedPolicyChunk.chunkId hit.chunkId (fused existing hit) mergedByChunk

/-- What the ranked hits are sorted by. -/
def rankingKey (hit : RetrievedPolicyChunk) : ℚ ×ₗ ℚ ×ₗ ℚ ×ₗ ℤ :=
  toLex (-hit.score, toLex (-hit.breakdown "keyword", toLex (-hit.breakdown "vector", hit.chunkId)))

/-- What is fused, before it is ranked. -/
def mergedByChunk (vectorHits keywordHits : List RetrievedPolicyChunk) :
    List RetrievedPolicyChunk := (vectorHits ++ keywordHits).foldl mergeHit []

def mergeHits (vectorHits keywordHits : List RetrievedPolicyChunk) : List RetrievedPolicyChunk :=
  (mergedByChunk vectorHits keywordHits).insertionSort fun a b => rankingKey a ≤ rankingKey b

variable {hit r : RetrievedPolicyChunk} {hits hits' merged : List RetrievedPolicyChunk} {id : Int}

/-! ## The dictionary -/

/-- What the dictionary holds of a chunk once another search has been gone through. -/
def absorb (existing hit : Option RetrievedPolicyChunk) : Option RetrievedPolicyChunk :=
  match existing, hit with
  | some existing, some hit => some (fused existing hit)
  | none, hit => hit
  | existing, none => existing

theorem chunkId_fused {existing : RetrievedPolicyChunk} :
    (fused existing hit).chunkId = existing.chunkId := rfl

theorem keys_mergeHit : (mergeHit merged hit).map RetrievedPolicyChunk.chunkId =
    if hit.chunkId ∈ merged.map RetrievedPolicyChunk.chunkId then
      merged.map RetrievedPolicyChunk.chunkId
    else merged.map RetrievedPolicyChunk.chunkId ++ [hit.chunkId] := by
  unfold mergeHit
  cases hfound : lookup RetrievedPolicyChunk.chunkId hit.chunkId merged with
  | none =>
    rw [if_neg (lookup_eq_none_iff.1 hfound), List.map_append]
    rfl
  | some existing =>
    have hmem : hit.chunkId ∈ merged.map RetrievedPolicyChunk.chunkId :=
      lookup_isSome_iff.1 (by rw [hfound]; rfl)
    have hkey : (fused existing hit).chunkId = hit.chunkId := by
      rw [chunkId_fused]
      exact key_of_lookup hfound
    rw [if_pos hmem]
    exact keys_replace hkey

theorem nodup_mergeHit (h : (merged.map RetrievedPolicyChunk.chunkId).Nodup) :
    ((mergeHit merged hit).map RetrievedPolicyChunk.chunkId).Nodup := by
  rw [keys_mergeHit]
  split_ifs with hmem
  · exact h
  · exact h.append (List.nodup_singleton _) (List.disjoint_singleton.2 hmem)

theorem nodup_foldl_mergeHit (h : (merged.map RetrievedPolicyChunk.chunkId).Nodup) :
    ((hits.foldl mergeHit merged).map RetrievedPolicyChunk.chunkId).Nodup := by
  induction hits generalizing merged with
  | nil => exact h
  | cons hit hits ih => exact ih (nodup_mergeHit h)

theorem lookup_mergeHit : lookup RetrievedPolicyChunk.chunkId id (mergeHit merged hit) =
    if hit.chunkId = id then absorb (lookup RetrievedPolicyChunk.chunkId id merged) (some hit)
    else lookup RetrievedPolicyChunk.chunkId id merged := by
  unfold mergeHit
  cases hfound : lookup RetrievedPolicyChunk.chunkId hit.chunkId merged with
  | none =>
    dsimp only
    rw [lookup_append]
    split_ifs with hid
    · rw [← hid, hfound]
      simp [lookup, absorb]
    · have hnone : lookup RetrievedPolicyChunk.chunkId id [hit] = none := by
        simpa [lookup] using hid
      rw [hnone, Option.or_none]
  | some existing =>
    have hkey : (fused existing hit).chunkId = hit.chunkId := by
      rw [chunkId_fused]
      exact key_of_lookup hfound
    dsimp only
    rw [lookup_replace hkey hfound]
    by_cases hid : hit.chunkId = id
    · rw [if_pos hid.symm, if_pos hid, ← hid, hfound]
      rfl
    · rw [if_neg (Ne.symm hid), if_neg hid]

/-- **One search after the other**: what the loop over hits of distinct chunks makes of the
dictionary. -/
theorem lookup_foldl_mergeHit (h : (hits.map RetrievedPolicyChunk.chunkId).Nodup) :
    lookup RetrievedPolicyChunk.chunkId id (hits.foldl mergeHit merged) =
      absorb (lookup RetrievedPolicyChunk.chunkId id merged)
        (lookup RetrievedPolicyChunk.chunkId id hits) := by
  induction hits generalizing merged with
  | nil =>
    have hnone : lookup RetrievedPolicyChunk.chunkId id [] = none := rfl
    rw [List.foldl_nil, hnone]
    cases lookup RetrievedPolicyChunk.chunkId id merged <;> rfl
  | cons hit hits ih =>
    obtain ⟨hnew, hrest⟩ := List.nodup_cons.1 (List.map_cons ▸ h)
    rw [List.foldl_cons, ih hrest, lookup_mergeHit]
    by_cases hid : hit.chunkId = id
    · have hnone : lookup RetrievedPolicyChunk.chunkId id hits = none :=
        lookup_eq_none_iff.2 (hid ▸ hnew)
      have hfirst : lookup RetrievedPolicyChunk.chunkId id (hit :: hits) = some hit := by
        simp [lookup, hid]
      rw [if_pos hid, hnone, hfirst]
      cases lookup RetrievedPolicyChunk.chunkId id merged <;> rfl
    · have hfirst : lookup RetrievedPolicyChunk.chunkId id (hit :: hits) =
          lookup RetrievedPolicyChunk.chunkId id hits := by
        simp [lookup, hid]
      rw [if_neg hid, hfirst]

theorem lookup_perm (h : (hits.map RetrievedPolicyChunk.chunkId).Nodup) (hperm : hits'.Perm hits) :
    lookup RetrievedPolicyChunk.chunkId id hits' = lookup RetrievedPolicyChunk.chunkId id hits := by
  have h' : (hits'.map RetrievedPolicyChunk.chunkId).Nodup := (hperm.map _).nodup_iff.2 h
  ext r
  rw [lookup_eq_some_iff h', lookup_eq_some_iff h, hperm.mem_iff]

/-- Dictionaries that hold the same of each chunk have the same hits. -/
theorem perm_of_lookup (h : (hits.map RetrievedPolicyChunk.chunkId).Nodup)
    (h' : (hits'.map RetrievedPolicyChunk.chunkId).Nodup)
    (hsame : ∀ id, lookup RetrievedPolicyChunk.chunkId id hits' =
      lookup RetrievedPolicyChunk.chunkId id hits) : hits'.Perm hits := by
  refine (List.perm_ext_iff_of_nodup h'.of_map h.of_map).2 fun r => ?_
  constructor
  · intro hr
    have hfound := lookup_of_mem h' hr
    rw [hsame] at hfound
    exact mem_of_lookup hfound
  · intro hr
    have hfound := lookup_of_mem h hr
    rw [← hsame] at hfound
    exact mem_of_lookup hfound

/-! ## The ranking -/

theorem chunkId_of_rankingKey {a b : RetrievedPolicyChunk} (h : rankingKey a = rankingKey b) :
    a.chunkId = b.chunkId :=
  congrArg (fun key : ℚ ×ₗ ℚ ×ₗ ℚ ×ₗ ℤ => (ofLex (ofLex (ofLex key).2).2).2) h

/-- Hits of distinct chunks are sorted in one way only. -/
theorem sorted_unique (h : (hits.map RetrievedPolicyChunk.chunkId).Nodup)
    (hperm : hits'.Perm hits) :
    hits'.insertionSort (fun a b => rankingKey a ≤ rankingKey b) =
      hits.insertionSort fun a b => rankingKey a ≤ rankingKey b := by
  refine List.Perm.eq_of_pairwise ?_ (List.pairwise_insertionSort _ _)
    (List.pairwise_insertionSort _ _) ?_
  · intro a b ha hb hab hba
    have ha' : a ∈ hits := hperm.mem_iff.1 ((List.mem_insertionSort _).1 ha)
    have hb' : b ∈ hits := (List.mem_insertionSort _).1 hb
    have hid : a.chunkId = b.chunkId := chunkId_of_rankingKey (le_antisymm hab hba)
    have hfound := lookup_of_mem h ha'
    rw [hid, lookup_of_mem h hb'] at hfound
    exact (Option.some.inj hfound).symm
  · exact (List.perm_insertionSort _ _).trans (hperm.trans (List.perm_insertionSort _ _).symm)

theorem nodup_mergedByChunk {vectorHits keywordHits : List RetrievedPolicyChunk} :
    ((mergedByChunk vectorHits keywordHits).map RetrievedPolicyChunk.chunkId).Nodup :=
  nodup_foldl_mergeHit List.nodup_nil

/-- What the dictionary holds of a chunk. -/
theorem fused_lookup {vectorHits keywordHits : List RetrievedPolicyChunk}
    (hvector : (vectorHits.map RetrievedPolicyChunk.chunkId).Nodup)
    (hkeyword : (keywordHits.map RetrievedPolicyChunk.chunkId).Nodup) :
    lookup RetrievedPolicyChunk.chunkId id (mergedByChunk vectorHits keywordHits) =
      absorb (lookup RetrievedPolicyChunk.chunkId id vectorHits)
        (lookup RetrievedPolicyChunk.chunkId id keywordHits) := by
  have hnone : lookup RetrievedPolicyChunk.chunkId id [] = none := rfl
  rw [mergedByChunk, List.foldl_append, lookup_foldl_mergeHit hkeyword,
    lookup_foldl_mergeHit hvector, hnone]
  rfl

/-- **Fusion.** There is one hit for each chunk that a search has found, the hits are sorted, and
the order of what was found does not matter. -/
theorem merge_hits_order (vectorHits keywordHits : List RetrievedPolicyChunk)
    (hvector : (vectorHits.map RetrievedPolicyChunk.chunkId).Nodup)
    (hkeyword : (keywordHits.map RetrievedPolicyChunk.chunkId).Nodup) :
    ((mergeHits vectorHits keywordHits).map RetrievedPolicyChunk.chunkId).Nodup ∧
    (∀ id, id ∈ (mergeHits vectorHits keywordHits).map RetrievedPolicyChunk.chunkId ↔
      id ∈ vectorHits.map RetrievedPolicyChunk.chunkId ∨
        id ∈ keywordHits.map RetrievedPolicyChunk.chunkId) ∧
    (mergeHits vectorHits keywordHits).Pairwise (fun a b => rankingKey a ≤ rankingKey b) ∧
    ∀ vectorHits' keywordHits', vectorHits'.Perm vectorHits → keywordHits'.Perm keywordHits →
      mergeHits vectorHits' keywordHits' = mergeHits vectorHits keywordHits := by
  have hperm : (mergeHits vectorHits keywordHits).Perm (mergedByChunk vectorHits keywordHits) :=
    List.perm_insertionSort _ _
  refine ⟨(hperm.map _).nodup_iff.2 nodup_mergedByChunk, fun id => ?_,
    List.pairwise_insertionSort _ _, ?_⟩
  · rw [(hperm.map _).mem_iff, ← lookup_isSome_iff, ← lookup_isSome_iff, ← lookup_isSome_iff,
      fused_lookup hvector hkeyword]
    cases lookup RetrievedPolicyChunk.chunkId id vectorHits <;>
      cases lookup RetrievedPolicyChunk.chunkId id keywordHits <;> simp [absorb]
  · intro vectorHits' keywordHits' hv hk
    have hvector' := (hv.map RetrievedPolicyChunk.chunkId).nodup_iff.2 hvector
    have hkeyword' := (hk.map RetrievedPolicyChunk.chunkId).nodup_iff.2 hkeyword
    refine sorted_unique nodup_mergedByChunk
      (perm_of_lookup nodup_mergedByChunk nodup_mergedByChunk fun id => ?_)
    rw [fused_lookup hvector' hkeyword', fused_lookup hvector hkeyword, lookup_perm hvector hv,
      lookup_perm hkeyword hk]

/-! ## A chunk that both searches find -/

def chunkHit (chunkId : Int) (source : String) (score : ℚ) : RetrievedPolicyChunk where
  documentId := 1
  versionId := 1
  chunkId
  policyName := "p"
  policyCategory := "c"
  responsibleDepartment := none
  versionLabel := "v"
  sectionTitle := none
  sectionPath := none
  pageNo := none
  chunkText := "t"
  score
  retrievalSource := source
  scoreBreakdown := [(source, score)]

theorem merge_hits_order_two :
    (mergeHits [chunkHit 2 "vector" (1 / 2), chunkHit 1 "vector" (1 / 2)]
      [chunkHit 1 "keyword" (1 / 5)]).map RetrievedPolicyChunk.chunkId = [1, 2] ∧
    mergeHits [chunkHit 2 "vector" (1 / 2), chunkHit 1 "vector" (1 / 2)]
        [chunkHit 1 "keyword" (1 / 5)] =
      mergeHits [chunkHit 1 "vector" (1 / 2), chunkHit 2 "vector" (1 / 2)]
        [chunkHit 1 "keyword" (1 / 5)] := by
  refine ⟨by decide +kernel, ?_⟩
  exact (merge_hits_order [chunkHit 1 "vector" (1 / 2), chunkHit 2 "vector" (1 / 2)]
    [chunkHit 1 "keyword" (1 / 5)] (by decide) (by decide)).2.2.2 _ _ (List.Perm.swap ..)
    (List.Perm.refl _)

end GoAgent.Knowledge
