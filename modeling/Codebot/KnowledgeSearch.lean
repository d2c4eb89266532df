import Codebot.Series
import Codebot.StableSorts
import Codebot.Texts
import Mathlib.Algebra.Field.Rat
import Mathlib.Algebra.Order.Ring.Rat
import Mathlib.Data.List.Lex
import Mathlib.Data.Prod.Lex

/-!
The search of the knowledge index: active chunks of the stage are filtered by the tags of the query, ranked twice and
merged, the chunks of required sources are put first, and an approved candidate is put in, if need be in the last
place. The scores are any functions of the chunks; the caches are those of `RetrievalCaches`.
-/
namespace Codebot.KnowledgeSearch
open Texts Series List OrderDual
set_option linter.unusedSectionVars false

structure Chunk where
  chunkId : Text
  sourceId : Text
  status : Text
  stages : List Text
  marketTags : List Text
  platformTags : List Text
  sourceType : Text
  chunkKind : Text
  chunkIndex : Int
deriving DecidableEq

/-- A chunk with the scores that the stages of a search give it. -/
structure Ranked (Score : Type) extends Chunk where
  lexicalScore : Score
  vectorScore : Score
  rrfScore : Score
  score : Score

/-- The scores for one query: of `_rank_lexical` and `_rank_vector`, `1 / (k + rank)`, the sum of `_rerank`, and the score
    and the threshold of an approved candidate. -/
structure Ranking (Score : Type) where
  lexical : Chunk → Score
  vector : Chunk → Score
  reciprocal : Nat → Score
  reranked : Ranked Score → Score
  included : Ranked Score → Score
  strong : Ranked Score → Bool

/-- The arguments of a search, with the tags of its intent and the sources that it requires. -/
structure Request where
  queryText : Text
  stage : Text
  tags : List Text
  requiredSourceIds : List Text
  limit : Nat
  lexicalLimit : Nat
  vectorLimit : Nat
  prefilterLimit : Nat

variable {Score : Type} [LinearOrder Score] [Zero Score] [One Score] [Add Score]

section
variable (ranking : Ranking Score) (request : Request)

def activeStatuses : List Text := [text "active",text "approved",text "auto_approved"]
def Chunk.isEligible (chunk : Chunk) : Bool :=
  activeStatuses.contains chunk.status &&
    (request.stage.isEmpty || chunk.stages.contains request.stage || chunk.stages.isEmpty)
def Request.marketTags : List Text := request.tags.filter [text "crypto",text "forex"].contains
def Request.platformTags : List Text :=
  (request.tags.filter [text "pine",text "mql5"].contains).map fun tag => if tag = text "pine" then text "pine_v6" else tag
def meets (wanted tags : List Text) : Bool := wanted.any tags.contains
/-- The chunk is not left out for its tags. -/
def admits (wanted tags : List Text) : Bool :=
  wanted.isEmpty || tags.isEmpty || tags.contains (text "general") || meets wanted tags
def prefilterPriority (chunk : Chunk) : Int :=
  (if meets request.marketTags chunk.marketTags then 8 else if chunk.marketTags.contains (text "general") then 2 else 0) +
    (if meets request.platformTags chunk.platformTags then 4
      else if chunk.platformTags.contains (text "general") then 1 else 0) +
    (if [text "internal_curated",text "approved_candidate",text "approved_source_summary"].contains chunk.sourceType then 3
      else 0) -
    if chunk.chunkKind = text "metadata_only" then 4 else 0
def Chunk.isAdmitted (chunk : Chunk) : Bool :=
  admits request.marketTags chunk.marketTags && admits request.platformTags chunk.platformTags
def prefilterChunks (chunks : List Chunk) : List Chunk :=
  let filtered := chunks.filter (·.isAdmitted request)
  if request.prefilterLimit < filtered.length then
    (ordered (fun chunk : Chunk =>
      toDual (toLex (prefilterPriority request chunk,toLex (-chunk.chunkIndex,chunk.chunkId)))) filtered).take request.prefilterLimit
  else filtered
/-- The order by a score, the largest first, and by the ids. -/
def place (key : Ranked Score → Score) (found : Ranked Score) : Scoreᵒᵈ ×ₗ Text := toLex (toDual (key found),found.chunkId)
/-- The chunks that are kept, with their scores and in the order of one. -/
def rankBy (key : Ranked Score → Score) (kept : Chunk → Bool) (scores : Chunk → Score × Score) (chunks : List Chunk) :
    List (Ranked Score) :=
  ordered (place key) ((chunks.filter kept).map fun chunk => ⟨chunk,(scores chunk).1,(scores chunk).2,0,0⟩)
def rankLexical : List Chunk → List (Ranked Score) :=
  rankBy Ranked.lexicalScore (fun chunk => ranking.lexical chunk ≠ 0) fun chunk => (ranking.lexical chunk,0)
def rankVector : List Chunk → List (Ranked Score) :=
  rankBy Ranked.vectorScore (fun chunk => 0 < ranking.vector chunk) fun chunk => (0,ranking.vector chunk)

/-- A round of a loop of `_rrf_merge`, with the chunk and its rank, and the scores that the loop leaves. -/
def credit (lexical vector : Ranked Score → Ranked Score → Score) (merged : List (Ranked Score))
    (entry : Ranked Score × Nat) : List (Ranked Score) :=
  let current := (merged.find? (·.chunkId = entry.1.chunkId)).getD { entry.1 with rrfScore := 0 }
  put (·.chunkId) merged { current with
    lexicalScore := lexical current entry.1
    vectorScore := vector current entry.1
    rrfScore := current.rrfScore + ranking.reciprocal entry.2 }

def rrfMerge (lexicalRanked vectorRanked : List (Ranked Score)) : List (Ranked Score) :=
  let merged := (lexicalRanked.zipIdx 1).foldl (credit ranking
    (fun current found => max current.lexicalScore found.lexicalScore) fun current _ => current.vectorScore) []
  ordered (place Ranked.rrfScore) ((vectorRanked.zipIdx 1).foldl (credit ranking
    (fun current _ => current.lexicalScore) fun current found => max current.vectorScore found.vectorScore) merged)
def rerank (chunks : List (Ranked Score)) : List (Ranked Score) :=
  ordered (place Ranked.score) (chunks.map fun found => { found with score := ranking.reranked found })
/-- The chunk that stands for a source of which none was found. -/
def firstChunk (chunks : List Chunk) (sourceId : Text) : Option Chunk :=
  (ordered (fun chunk : Chunk => toLex (chunk.chunkIndex,chunk.chunkId)) (chunks.filter (·.sourceId = sourceId))).head?

/-- The round of `_ensure_required_chunks` for one source. -/
def ensureRequired (chunks : List Chunk) (sourceId : Text) (output : List (Ranked Score)) : List (Ranked Score) :=
  match output.find? (·.sourceId = sourceId) with
  | some best => { best with score := 1 } :: output.eraseP (·.sourceId = sourceId)
  | none =>
    match firstChunk chunks sourceId with
    | some best => ⟨best,0,0,0,1⟩ :: output
    | none => output

def ensureRequiredChunks (reranked : List (Ranked Score)) (chunks : List Chunk) : List (Ranked Score) :=
  request.requiredSourceIds.foldr (ensureRequired chunks) reranked
def isApproved (chunk : Chunk) : Bool := chunk.sourceType = text "approved_candidate"
def approvedPool (selected : List (Ranked Score)) (chunks : List Chunk) : List Chunk :=
  chunks.filter fun chunk => isApproved chunk && !(selected.map (·.chunkId)).contains chunk.chunkId
/-- The approved candidates that `_ensure_approved_candidate_chunks` looks up where none is behind the limit. -/
def fallback (selected : List (Ranked Score)) (chunks : List Chunk) : List (Ranked Score) :=
  let pool := approvedPool selected chunks
  ((rrfMerge ranking ((rankLexical ranking pool).take 5) ((rankVector ranking pool).take 5)).filter ranking.strong).map
    fun found => { found with score := ranking.included found }
def eligibleCandidates (reranked : List (Ranked Score)) (chunks : List Chunk) : List (Ranked Score) :=
  let eligible := (reranked.drop request.limit).filter fun found => isApproved found.toChunk && ranking.strong found
  if eligible.isEmpty && !request.queryText.isEmpty then fallback ranking (reranked.take request.limit) chunks else eligible

def ensureApprovedCandidateChunks (reranked : List (Ranked Score)) (chunks : List Chunk) : List (Ranked Score) :=
  let selected := reranked.take request.limit
  if request.limit = 0 ∨ selected.any (isApproved ·.toChunk) then selected
  else
    match (ordered (fun found : Ranked Score => toLex (toDual found.lexicalScore,place Ranked.score found))
      (eligibleCandidates ranking request reranked chunks)).head? with
    | none => selected
    | some approved => if selected.length < request.limit then selected ++ [approved] else selected.dropLast ++ [approved]

/-- The `reranked_full` of `search_knowledge`. -/
def rerankedFull (chunks : List Chunk) : List (Ranked Score) :=
  ensureRequiredChunks request (rerank ranking (rrfMerge ranking ((rankLexical ranking chunks).take request.lexicalLimit)
    ((rankVector ranking chunks).take request.vectorLimit))) chunks
def searched (index : List Chunk) : List Chunk := prefilterChunks request (index.filter (·.isEligible request))
/-- `search_knowledge` where no result is cached. -/
def searchKnowledge (index : List Chunk) : List (Ranked Score) :=
  let chunks := searched request index
  ensureApprovedCandidateChunks ranking request (rerankedFull ranking request chunks) chunks

end

variable {ranking : Ranking Score} {request : Request} {chunks others : List Chunk} {found : List (Ranked Score)}
def Distinct (chunks : List Chunk) : Prop := (chunks.map Chunk.chunkId).Nodup
theorem distinct_filter (distinct : Distinct chunks) (p : Chunk → Bool) : Distinct (chunks.filter p) :=
  distinct.sublist (filter_sublist.map _)
/-- What was found are chunks, none of them twice. -/
structure Drawn (chunks : List Chunk) (found : List (Ranked Score)) : Prop where
  among : ∀ one ∈ found, one.toChunk ∈ chunks
  once : (found.map (·.chunkId)).Nodup
theorem Drawn.sublist {part : List (Ranked Score)} (drawn : Drawn chunks found) (isPart : part <+ found) : Drawn chunks part :=
  ⟨fun one member => drawn.among one (isPart.subset member),drawn.once.sublist (isPart.map _)⟩
theorem Drawn.ordered {Key : Type} [LinearOrder Key] (drawn : Drawn chunks found) (key : Ranked Score → Key) :
    Drawn chunks (ordered key found) :=
  ⟨fun one member => drawn.among one (mem_ordered.mp member),((perm_insertionSort _ _).map _).nodup_iff.mpr drawn.once⟩

theorem Drawn.rescored (drawn : Drawn chunks found) (rescore : Ranked Score → Ranked Score)
    (same : ∀ one, (rescore one).toChunk = one.toChunk) : Drawn chunks (found.map rescore) := by
  refine ⟨?_,?_⟩
  · rintro _ member
    obtain ⟨one,isOne,rfl⟩ := mem_map.mp member
    exact same one ▸ drawn.among one isOne
  · have ids : (found.map rescore).map (·.chunkId) = found.map (·.chunkId) := by
      rw [map_map]
      exact map_congr_left fun one _ => congrArg Chunk.chunkId (same one)
    exact ids ▸ drawn.once

variable {key : Ranked Score → Score} {kept : Chunk → Bool} {scores : Chunk → Score × Score}
theorem drawn_rankBy (distinct : Distinct chunks) : Drawn chunks (rankBy key kept scores chunks) := by
  refine Drawn.ordered ⟨?_,?_⟩ _
  · rintro _ member
    obtain ⟨chunk,isChunk,rfl⟩ := mem_map.mp member
    exact (mem_filter.mp isChunk).1
  · rw [map_map]
    exact distinct_filter distinct kept

theorem drawn_credit {lexical vector : Ranked Score → Ranked Score → Score} {entries : List (Ranked Score × Nat)}
    (known : ∀ entry ∈ entries, entry.1.toChunk ∈ chunks) (drawn : Drawn chunks found) :
    Drawn chunks (entries.foldl (credit ranking lexical vector) found) := by
  induction entries generalizing found with
  | nil => exact drawn
  | cons entry rest ih =>
    obtain ⟨here,later⟩ := forall_mem_cons.mp known
    refine ih later ⟨?_,nodup_put drawn.once _⟩
    intro one member
    rcases mem_put_iff.mp member with rfl | ⟨isOld,_⟩
    · cases isCurrent : found.find? (·.chunkId = entry.1.chunkId) with
      | none => exact here
      | some current => exact drawn.among current (mem_of_find?_eq_some isCurrent)
    · exact drawn.among one isOld

variable (ranking) in
theorem drawn_merge {lexicalRanked vectorRanked : List (Ranked Score)} (isLexical : Drawn chunks lexicalRanked)
    (isVector : Drawn chunks vectorRanked) : Drawn chunks (rrfMerge ranking lexicalRanked vectorRanked) := by
  have listed : ∀ {ranked : List (Ranked Score)}, Drawn chunks ranked → ∀ entry ∈ ranked.zipIdx 1, entry.1.toChunk ∈ chunks :=
    fun drawn entry member => drawn.among entry.1 (fst_mem_of_mem_zipIdx member)
  refine (drawn_credit (listed isVector) (drawn_credit (listed isLexical) ⟨?_,?_⟩)).ordered _
  · intro one member
    cases member
  · exact nodup_nil

variable (ranking) in
theorem drawn_rerank (drawn : Drawn chunks found) : Drawn chunks (rerank ranking found) :=
  (drawn.rescored (fun one => { one with score := ranking.reranked one }) fun _ => rfl).ordered _
/-- The first of a list with a property, and the list without it. -/
theorem popped {p : Ranked Score → Bool} {best : Ranked Score} (isFirst : found.find? p = some best) :
    p best = true ∧ ∃ before after, found = before ++ best :: after ∧ found.eraseP p = before ++ after := by
  obtain ⟨holds,before,after,rfl,none⟩ := find?_eq_some_iff_append.mp isFirst
  refine ⟨holds,before,after,rfl,?_⟩
  rw [eraseP_append_right _ fun one member => by simpa using none one member,eraseP_cons_of_pos holds]

variable {sourceId : Text} {best : Chunk}
theorem mem_firstChunk (isBest : firstChunk chunks sourceId = some best) : best ∈ chunks ∧ best.sourceId = sourceId := by
  obtain ⟨isChunk,ofSource⟩ := mem_filter.mp (mem_ordered.mp (mem_of_head? isBest))
  exact ⟨isChunk,of_decide_eq_true ofSource⟩
theorem firstChunk_none (none : firstChunk chunks sourceId = none) (isBest : best ∈ chunks) : best.sourceId ≠ sourceId := by
  intro ofSource
  have listed : best ∈ chunks.filter (·.sourceId = sourceId) := mem_filter.mpr ⟨isBest,decide_eq_true ofSource⟩
  rw [firstChunk,head?_eq_none_iff,eq_nil_iff_forall_not_mem] at none
  exact none best (mem_ordered.mpr listed)

variable (sourceId) in
theorem drawn_required (distinct : Distinct chunks) (drawn : Drawn chunks found) :
    Drawn chunks (ensureRequired chunks sourceId found) := by
  unfold ensureRequired
  split
  · rename_i best isFirst
    obtain ⟨_,before,after,rfl,rest⟩ := popped isFirst
    rw [rest]
    have moved : (best :: (before ++ after)).Perm (before ++ best :: after) := perm_middle.symm
    refine ⟨?_,?_⟩
    · refine forall_mem_cons.mpr ⟨drawn.among best (by simp),fun one member => drawn.among one ?_⟩
      exact moved.mem_iff.mp (mem_cons_of_mem _ member)
    · exact ((moved.map (·.chunkId)).nodup_iff.mpr drawn.once)
  · rename_i missing
    split
    · rename_i best isBest
      obtain ⟨isChunk,ofSource⟩ := mem_firstChunk isBest
      refine ⟨forall_mem_cons.mpr ⟨isChunk,drawn.among⟩,nodup_cons.mpr ⟨fun member => ?_,drawn.once⟩⟩
      obtain ⟨one,isOne,sameId⟩ := mem_map.mp member
      -- No other chunk has the id, and none that was found is of the source.
      have same := inj_on_of_nodup_map distinct (drawn.among one isOne) isChunk sameId
      have differs := find?_eq_none.mp missing one isOne
      rw [same] at differs
      simp [ofSource] at differs
    · exact drawn

variable (request) in
theorem drawn_all_required (distinct : Distinct chunks) (drawn : Drawn chunks found) :
    Drawn chunks (ensureRequiredChunks request found chunks) := by
  unfold ensureRequiredChunks
  induction request.requiredSourceIds with
  | nil => exact drawn
  | cons sourceId rest ih => exact drawn_required sourceId distinct ih
theorem drawn_fallback (distinct : Distinct chunks) {selected : List (Ranked Score)} :
    Drawn (approvedPool selected chunks) (fallback ranking selected chunks) := by
  have apart : Distinct (approvedPool selected chunks) := distinct_filter distinct _
  refine Drawn.rescored (Drawn.sublist ?_ filter_sublist) _ fun _ => rfl
  exact drawn_merge ranking ((drawn_rankBy apart).sublist (take_sublist _ _)) ((drawn_rankBy apart).sublist (take_sublist _ _))

/-- An approved candidate that is put in is a chunk, and not among those that are selected. -/
theorem candidate_fresh (distinct : Distinct chunks) (drawn : Drawn chunks found) {approved : Ranked Score}
    (isEligible : approved ∈ eligibleCandidates ranking request found chunks) :
    isApproved approved.toChunk = true ∧ approved.toChunk ∈ chunks ∧
      approved.chunkId ∉ (found.take request.limit).map (·.chunkId) := by
  simp only [eligibleCandidates] at isEligible
  split at isEligible
  · obtain ⟨isChunk,isApart⟩ := mem_filter.mp ((drawn_fallback distinct).among approved isEligible)
    simp only [Bool.and_eq_true,Bool.not_eq_true',contains_eq_mem,decide_eq_false_iff_not] at isApart
    exact ⟨isApart.1,isChunk,isApart.2⟩
  · obtain ⟨later,isApart⟩ := mem_filter.mp isEligible
    refine ⟨(Bool.and_eq_true_iff.mp isApart).1,drawn.among approved ((drop_sublist _ _).subset later),fun earlier => ?_⟩
    have once := drawn.once
    rw [← take_append_drop request.limit found,map_append] at once
    exact (nodup_append.mp once).2.2 _ earlier _ (mem_map_of_mem later) rfl

variable (ranking request) in
theorem drawn_approved (distinct : Distinct chunks) (drawn : Drawn chunks found) :
    Drawn chunks (ensureApprovedCandidateChunks ranking request found chunks) ∧
      (ensureApprovedCandidateChunks ranking request found chunks).length ≤ request.limit := by
  have selected := drawn.sublist (take_sublist request.limit found)
  have short := length_take_le request.limit found
  simp only [ensureApprovedCandidateChunks]
  split
  · exact ⟨selected,short⟩
  · split
    · exact ⟨selected,short⟩
    · rename_i some approved isBest
      obtain ⟨_,isChunk,fresh⟩ := candidate_fresh distinct drawn (mem_ordered.mp (mem_of_head? isBest))
      have added : ∀ part, part <+ found.take request.limit → Drawn chunks (part ++ [approved]) := by
        intro part isPart
        have drawnPart := selected.sublist isPart
        refine ⟨forall_mem_append.mpr ⟨drawnPart.among,forall_mem_singleton.mpr isChunk⟩,?_⟩
        rw [map_append]
        refine drawnPart.once.append (nodup_singleton _) ?_
        exact disjoint_singleton.mpr fun member => fresh ((isPart.map _).subset member)
      split
      · rename_i room
        refine ⟨added _ (Sublist.refl _),?_⟩
        rw [length_append,length_singleton]
        omega
      · refine ⟨added _ (dropLast_sublist _),?_⟩
        rw [length_append,length_singleton,length_dropLast]
        omega

variable (request) in
theorem prefilter_subperm (chunks : List Chunk) : (prefilterChunks request chunks).Subperm chunks := by
  simp only [prefilterChunks]
  split
  · exact ((take_sublist _ _).subperm.trans (perm_insertionSort _ _).subperm).trans filter_sublist.subperm
  · exact filter_sublist.subperm

variable {index other : List Chunk}
theorem mem_searched (member : best ∈ searched request index) : best ∈ index ∧ best.isEligible request = true :=
  mem_filter.mp ((prefilter_subperm request _).subset member)

variable (request) in
theorem searched_distinct (distinct : Distinct index) : Distinct (searched request index) := by
  obtain ⟨part,same,isPart⟩ := prefilter_subperm request (index.filter (·.isEligible request))
  exact (same.map _).nodup_iff.mp ((distinct_filter distinct _).sublist (isPart.map _))

variable (ranking request) in
theorem drawn_search (distinct : Distinct chunks) : Drawn chunks (rerankedFull ranking request chunks) := by
  refine drawn_all_required request distinct (drawn_rerank ranking (drawn_merge ranking ?_ ?_))
  · exact (drawn_rankBy distinct).sublist (take_sublist _ _)
  · exact (drawn_rankBy distinct).sublist (take_sublist _ _)

/-- A search finds no more chunks than the limit, none twice, and only active ones that the stage admits. -/
theorem search_sound (distinct : Distinct index) :
    (searchKnowledge ranking request index).length ≤ request.limit ∧
      ((searchKnowledge ranking request index).map (·.chunkId)).Nodup ∧
      ∀ one ∈ searchKnowledge ranking request index, one.toChunk ∈ index ∧ one.toChunk.isEligible request = true := by
  have apart := searched_distinct request distinct
  obtain ⟨drawn,short⟩ := drawn_approved ranking request apart (drawn_search ranking request apart)
  exact ⟨short,drawn.once,fun one member => mem_searched (drawn.among one member)⟩

theorem rankBy_perm (distinct : Distinct chunks) (perm : chunks.Perm others) :
    rankBy key kept scores chunks = rankBy key kept scores others := by
  refine ordered_perm (Nodup.of_map (fun at_ => (ofLex at_).2) ?_) ((perm.filter kept).map _)
  rw [map_map,map_map]
  exact distinct_filter distinct kept

theorem ensureRequired_perm (distinct : Distinct chunks) (perm : chunks.Perm others) :
    (ensureRequired chunks : Text → List (Ranked Score) → List (Ranked Score)) = ensureRequired others := by
  funext sourceId output
  have ids : ((chunks.filter (·.sourceId = sourceId)).map fun chunk => toLex (chunk.chunkIndex,chunk.chunkId)).Nodup := by
    refine Nodup.of_map (fun at_ => (ofLex at_).2) ?_
    rw [map_map]
    exact distinct_filter distinct _
  simp only [ensureRequired,firstChunk,ordered_perm ids (perm.filter _)]

theorem fallback_perm (distinct : Distinct chunks) (perm : chunks.Perm others) {selected : List (Ranked Score)} :
    fallback ranking selected chunks = fallback ranking selected others := by
  have apart : Distinct (approvedPool selected chunks) := distinct_filter distinct _
  have pools : (approvedPool selected chunks).Perm (approvedPool selected others) := perm.filter _
  simp only [fallback,rankLexical,rankVector,rankBy_perm apart pools]

variable (request) in
theorem prefilter_perm (distinct : Distinct chunks) (perm : chunks.Perm others) :
    (prefilterChunks request chunks).Perm (prefilterChunks request others) := by
  have filtered := perm.filter (·.isAdmitted request)
  have ids : ((chunks.filter (·.isAdmitted request)).map fun chunk : Chunk =>
      toDual (toLex (prefilterPriority request chunk,toLex (-chunk.chunkIndex,chunk.chunkId)))).Nodup := by
    refine Nodup.of_map (fun at_ => (ofLex (ofLex (ofDual at_)).2).2) ?_
    rw [map_map]
    exact distinct_filter distinct _
  simp only [prefilterChunks,filtered.length_eq,ordered_perm ids filtered]
  split
  · exact Perm.refl _
  · exact filtered

/-- What a search finds does not depend on the order of the index. -/
theorem search_perm (distinct : Distinct index) (perm : index.Perm other) :
    searchKnowledge ranking request index = searchKnowledge ranking request other := by
  have chunks : (searched request index).Perm (searched request other) :=
    prefilter_perm request (distinct_filter distinct _) (perm.filter _)
  have apart := searched_distinct request distinct
  simp only [searchKnowledge,rerankedFull,ensureRequiredChunks,rankLexical,rankVector,rankBy_perm apart chunks,
    ensureRequired_perm apart chunks]
  simp only [ensureApprovedCandidateChunks,eligibleCandidates,fallback_perm apart chunks]

section
variable {id : Text} {lexical vector : Ranked Score → Ranked Score → Score}
def mergedScore (id : Text) (found : List (Ranked Score)) : Option Score := (found.find? (·.chunkId = id)).map (·.rrfScore)
def gain (ranking : Ranking Score) (score : Option Score) (entry : Ranked Score × Nat) : Option Score :=
  some (score.getD 0 + ranking.reciprocal entry.2)
/-- A chunk's entries in the two rankings, with its ranks. -/
def entriesOf (id : Text) (lexicalRanked vectorRanked : List (Ranked Score)) : List (Ranked Score × Nat) :=
  (lexicalRanked.zipIdx 1 ++ vectorRanked.zipIdx 1).filter (·.1.chunkId = id)

theorem mergedScore_credit {entry : Ranked Score × Nat} : mergedScore id (credit ranking lexical vector found entry) =
    if entry.1.chunkId = id then gain ranking (mergedScore id found) entry else mergedScore id found := by
  have kept : ((found.find? (·.chunkId = entry.1.chunkId)).getD { entry.1 with rrfScore := 0 }).chunkId = entry.1.chunkId := by
    cases isCurrent : found.find? (·.chunkId = entry.1.chunkId) with
    | none => rfl
    | some current => simpa using find?_some isCurrent
  simp only [credit,mergedScore]
  split
  · rename_i here
    subst here
    rw [find_put_same fun other => by simp [kept]]
    cases found.find? (·.chunkId = entry.1.chunkId) <;> rfl
  · rename_i apart
    rw [find_put_other]
    intro one isOne same
    exact apart (kept.symm.trans (same.symm.trans (of_decide_eq_true isOne)))

variable (entries : List (Ranked Score × Nat))
theorem mergedScore_credits : mergedScore id (entries.foldl (credit ranking lexical vector) found) =
    (entries.filter (·.1.chunkId = id)).foldl (gain ranking) (mergedScore id found) := by
  induction entries generalizing found with
  | nil => rfl
  | cons entry rest ih =>
    rw [foldl_cons,ih,mergedScore_credit,filter_cons]
    split <;> simp_all
theorem nodup_credits (once : (found.map (·.chunkId)).Nodup) :
    ((entries.foldl (credit ranking lexical vector) found).map (·.chunkId)).Nodup := by
  induction entries generalizing found with
  | nil => exact once
  | cons entry rest ih => exact ih (nodup_put once _)
end

section
variable {Sum : Type} [LinearOrder Sum] [One Sum] [AddMonoid Sum] {ranking : Ranking Sum}
theorem gain_sum {entries : List (Ranked Sum × Nat)} {score : Option Sum} : entries.foldl (gain ranking) score =
    if entries.isEmpty then score else some (score.getD 0 + (entries.map (ranking.reciprocal ·.2)).sum) := by
  induction entries generalizing score with
  | nil => rfl
  | cons entry rest ih =>
    rw [foldl_cons,ih,map_cons,sum_cons,← add_assoc]
    cases rest with
    | nil => simp [gain]
    | cons next later => rfl

/-- What either ranking has is merged, once, and its score is the sum for its ranks. -/
theorem scores_fused (id : Text) (lexicalRanked vectorRanked : List (Ranked Sum)) :
    mergedScore id (rrfMerge ranking lexicalRanked vectorRanked) =
      if (entriesOf id lexicalRanked vectorRanked).isEmpty then none
      else some ((entriesOf id lexicalRanked vectorRanked).map (ranking.reciprocal ·.2)).sum := by
  rw [mergedScore,rrfMerge,ordered,StableSorts.find?_insertionSort]
  · change mergedScore id _ = _
    rw [mergedScore_credits,mergedScore_credits,← foldl_append,← filter_append,gain_sum]
    simp only [mergedScore,find?_nil,Option.map_none,Option.getD_none,zero_add]
    rfl
  · intro one isOne other isOther same also
    have ids : one.chunkId = other.chunkId := (of_decide_eq_true same).trans (of_decide_eq_true also).symm
    rw [inj_on_of_nodup_map (nodup_credits _ (nodup_credits _ (by exact nodup_nil))) isOne isOther ids]
end

theorem mem_take_popped {k : Nat} {one best : Ranked Score} {before after : List (Ranked Score)}
    (member : one ∈ (before ++ best :: after).take k) : one = best ∨ one ∈ (before ++ after).take k := by
  rw [take_append] at member ⊢
  rcases mem_append.mp member with early | late
  · exact .inr (mem_append_left _ early)
  · cases less : k - before.length with
    | zero =>
      rw [less] at late
      cases late
    | succ fewer =>
      rw [less] at late
      rcases mem_cons.mp late with rfl | later
      · exact .inl rfl
      · exact .inr (mem_append_right _ (take_subset_take_left _ (Nat.le_succ fewer) later))

variable (sourceId) in
/-- What stands among the first stays there, one place later at most. -/
theorem ensureRequired_take {k : Nat} {one : Ranked Score} (member : one ∈ found.take k) :
    ∃ other ∈ (ensureRequired chunks sourceId found).take (k + 1), other.sourceId = one.sourceId := by
  unfold ensureRequired
  split
  · rename_i best isFirst
    obtain ⟨_,before,after,rfl,rest⟩ := popped isFirst
    rw [rest,take_succ_cons]
    rcases mem_take_popped member with rfl | stays
    · exact ⟨_,mem_cons_self,rfl⟩
    · exact ⟨one,mem_cons_of_mem _ stays,rfl⟩
  · split
    · exact ⟨one,mem_cons_of_mem _ member,rfl⟩
    · exact ⟨one,take_subset_take_left _ (Nat.le_succ k) member,rfl⟩

theorem ensureRequired_first (there : ∃ chunk ∈ chunks, chunk.sourceId = sourceId) :
    ∃ best rest, ensureRequired chunks sourceId found = best :: rest ∧ best.sourceId = sourceId := by
  unfold ensureRequired
  split
  · rename_i best isFirst
    exact ⟨_,_,rfl,of_decide_eq_true (popped isFirst).1⟩
  · split
    · rename_i best isBest
      exact ⟨_,_,rfl,(mem_firstChunk isBest).2⟩
    · rename_i none
      obtain ⟨chunk,isChunk,ofSource⟩ := there
      exact absurd ofSource (firstChunk_none none isChunk)

/-- The chunks of the required sources come first. -/
theorem required_first {sourceIds : List Text} (isRequired : sourceId ∈ sourceIds)
    (there : ∃ chunk ∈ chunks, chunk.sourceId = sourceId) :
    ∃ one ∈ (sourceIds.foldr (ensureRequired chunks) found).take sourceIds.length, one.sourceId = sourceId := by
  induction sourceIds with
  | nil => cases isRequired
  | cons first rest ih =>
    rcases mem_cons.mp isRequired with rfl | later
    · obtain ⟨best,others,isFirst,ofSource⟩ := @ensureRequired_first Score _ _ _ _ chunks (rest.foldr (ensureRequired chunks) found) sourceId there
      refine ⟨best,?_,ofSource⟩
      rw [foldr_cons,isFirst,length_cons,take_succ_cons]
      exact mem_cons_self
    · obtain ⟨one,isOne,ofSource⟩ := ih later
      obtain ⟨other,isOther,same⟩ := ensureRequired_take first isOne
      exact ⟨other,isOther,same.trans ofSource⟩

/-- Every required source that has a chunk after the prefilter is found, if there is room for one chunk more, or none
    is an approved candidate. -/
theorem required_found (distinct : Distinct index) (isRequired : sourceId ∈ request.requiredSourceIds)
    (there : ∃ chunk ∈ searched request index, chunk.sourceId = sourceId)
    (room : request.requiredSourceIds.length < request.limit ∨
      request.requiredSourceIds.length ≤ request.limit ∧ ∀ chunk ∈ index, isApproved chunk = false) :
    ∃ one ∈ searchKnowledge ranking request index, one.sourceId = sourceId := by
  have apart := searched_distinct request distinct
  have first : ∃ one ∈ (rerankedFull ranking request (searched request index)).take request.requiredSourceIds.length,
      one.sourceId = sourceId := required_first isRequired there
  obtain ⟨one,isFirst,ofSource⟩ := first
  have fits : request.requiredSourceIds.length ≤ request.limit := room.elim Nat.le_of_lt And.left
  have selected := take_subset_take_left _ fits isFirst
  refine ⟨one,?_,ofSource⟩
  simp only [searchKnowledge,ensureApprovedCandidateChunks]
  split
  · exact selected
  · split
    · exact selected
    · rename_i some approved isBest
      have candidate := candidate_fresh apart (drawn_search ranking request apart) (mem_ordered.mp (mem_of_head? isBest))
      split
      · exact mem_append_left _ selected
      · rename_i full
        rcases room with more | ⟨_,noCandidate⟩
        · refine mem_append_left _ ?_
          rw [dropLast_eq_take,take_take,Nat.min_eq_left (Nat.le_trans (Nat.sub_le _ _) (length_take_le _ _))]
          exact take_subset_take_left _ (by omega) isFirst
        · rw [noCandidate _ (mem_searched candidate.2.1).1] at candidate
          cases candidate.1

/-- Where an approved candidate is a strong match, however far behind the limit, one is found. -/
theorem approved_found (distinct : Distinct index) (room : 0 < request.limit)
    (strong : ∃ one ∈ rerankedFull ranking request (searched request index),isApproved one.toChunk ∧ ranking.strong one) :
    ∃ one ∈ searchKnowledge ranking request index,isApproved one.toChunk := by
  have apart := searched_distinct request distinct
  simp only [searchKnowledge,ensureApprovedCandidateChunks]
  split
  · rename_i early
    exact any_eq_true.mp (early.resolve_left room.ne')
  · rename_i later
    split
    · rename_i none
      -- The strong match is behind the limit, and so eligible.
      obtain ⟨one,isOne,approved,isStrong⟩ := strong
      rw [← take_append_drop request.limit (rerankedFull ranking request _)] at isOne
      rcases mem_append.mp isOne with first | behind
      · exact absurd (any_eq_true.mpr ⟨one,first,approved⟩) (not_or.mp later).2
      · have eligible := (mem_filter (p := fun one => isApproved one.toChunk && ranking.strong one)).mpr
          ⟨behind,Bool.and_eq_true_iff.mpr ⟨approved,isStrong⟩⟩
        rw [head?_eq_none_iff,eq_nil_iff_forall_not_mem] at none
        refine absurd (mem_ordered.mpr ?_) (none one)
        simp only [eligibleCandidates,isEmpty_eq_false_iff.mpr (ne_nil_of_mem eligible),Bool.false_and]
        exact eligible
    · rename_i some approved isBest
      have candidate := candidate_fresh apart (drawn_search ranking request apart) (mem_ordered.mp (mem_of_head? isBest))
      split <;> exact ⟨approved,mem_append_right _ mem_cons_self,candidate.1⟩

def sampleChunk (name source type : String) : Chunk := ⟨text name,text source,text "active",[],[],[],text type,[],0⟩
def sampleIndex : List Chunk :=
  [sampleChunk "bots::0" "internal-bots-chat-workflow" "internal_curated",
    sampleChunk "lesson-1::0" "lesson-1" "approved_candidate"]
def sampleRequest : Request := ⟨text "paper bot",[],[],[text "internal-bots-chat-workflow"],2,20,20,200⟩
/-- The lesson has the words of the query. -/
def sampleRanking : Ranking ℚ where
  lexical chunk := if isApproved chunk then 4 else 0
  vector _ := 0
  reciprocal rank := 1 / (60 + rank)
  reranked found := found.rrfScore + min found.lexicalScore 10 / 100
  included found := found.rrfScore + min found.lexicalScore 10 / 100
  strong found := 3 ≤ found.lexicalScore || 1 / 2 ≤ found.vectorScore

theorem sampleIndex_distinct : Distinct sampleIndex := by
  unfold Distinct sampleIndex
  decide +kernel
theorem sample_short : (searchKnowledge sampleRanking sampleRequest sampleIndex).length ≤ 2 :=
  (search_sound sampleIndex_distinct).1
theorem sample_reversed :
    searchKnowledge sampleRanking sampleRequest sampleIndex = searchKnowledge sampleRanking sampleRequest sampleIndex.reverse :=
  search_perm sampleIndex_distinct (reverse_perm _).symm
theorem sample_required : ∃ one ∈ searchKnowledge sampleRanking sampleRequest sampleIndex,
    one.sourceId = text "internal-bots-chat-workflow" :=
  required_found sampleIndex_distinct (by decide +kernel) (by decide +kernel) (.inl (by decide))
theorem sample_approved : ∃ one ∈ searchKnowledge sampleRanking sampleRequest sampleIndex,isApproved one.toChunk :=
  approved_found sampleIndex_distinct (by decide) (by decide +kernel)

end Codebot.KnowledgeSearch
