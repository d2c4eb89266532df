import Codebot.KnowledgeIndex
import Codebot.Runs

/-!
The candidates of the knowledge base and the operations on them: a lesson is proposed, learned from a run, reviewed
for promotion, approved or rejected. An operation that raises is no step. What the operations are given is data; one
writer at a time works on the files.
-/
namespace Codebot.KnowledgeCandidates
open Texts KnowledgeIndex List

/-- `CANDIDATE_STATUSES`. -/
inductive Status
  | proposed
  | needsReview
  | approved
  | autoApproved
  | rejected
  | superseded
deriving DecidableEq

structure Learning where
  evidenceCount : Nat
deriving DecidableEq

structure Candidate where
  candidateId : Text
  status : Status
  type : Text
  lesson : Text
  domainTags : List Text
  marketTags : List Text
  platformTags : List Text
  stages : List Text
  sourceUri : Text
  trustLevel : Text
  dedupeKey : Text
  lessonKind : Text
  confidence : Text
  evidenceRefs : List Text
  learning : Option Learning
deriving DecidableEq

/-- The arguments of `propose_candidate`, with the id that a new candidate gets. A text or a list that is
    not given is empty. -/
structure Proposal where
  newId : Text
  lesson : Text
  evidenceRef : Text
  candidateType : Text
  dedupeKey : Text
  lessonKind : Text
  confidence : Text
  domainTags : List Text
  marketTags : List Text
  platformTags : List Text
  stages : List Text
  sourceUri : Text
  trustLevel : Text
  learning : Option Learning

/-- The index settings, `find_blocked_claims`, and the tags that are inferred from a lesson. -/
structure Settings extends KnowledgeIndex.Settings where
  blockedClaims : Text → Bool
  inferDomainTags : Text → List Text
  inferPlatformTags : Text → List Text
/-- What the judge says of a candidate. -/
structure Judgement where
  unsafeClaims : Bool
  generalizable : Bool
  requiresHumanReview : Bool
/-- What a review finds around it: the paths that exist, the judge, if there is one, and whether a lesson
    is retrieved from an index. -/
structure Surroundings where
  pathExists : Text → Bool
  llmJudge : Option (Candidate → Judgement)
  retrieved : Index → Candidate → Bool
def given (value former : Text) : Text := if value = [] then former else value
def givenAll (values former : List Text) : List Text := if values = [] then former else values
def sameLesson (lesson dedupeKey : Text) (candidate : Candidate) : Bool :=
  (dedupeKey ≠ [] ∧ candidate.dedupeKey = dedupeKey) ∨ candidate.lesson = lesson

/-- The candidate of `_matching_candidate` as `propose_candidate` updates it. -/
def updated (settings : Settings) (proposal : Proposal) (candidate : Candidate) : Candidate :=
  let refs := candidate.evidenceRefs
  { candidate with
    evidenceRefs := if proposal.evidenceRef ∈ refs then refs else refs ++ [proposal.evidenceRef]
    dedupeKey := proposal.dedupeKey
    lessonKind := given proposal.lessonKind candidate.lessonKind
    confidence := given proposal.confidence candidate.confidence
    domainTags := dedupeStrings settings.unicode (givenAll proposal.domainTags candidate.domainTags)
    marketTags := dedupeStrings settings.unicode (givenAll proposal.marketTags candidate.marketTags)
    platformTags := dedupeStrings settings.unicode (givenAll proposal.platformTags candidate.platformTags)
    stages := dedupeStrings settings.unicode (givenAll proposal.stages candidate.stages)
    sourceUri := given proposal.sourceUri candidate.sourceUri
    trustLevel := given proposal.trustLevel candidate.trustLevel
    learning := proposal.learning.or candidate.learning }

/-- A candidate that is new. -/
def created (settings : Settings) (proposal : Proposal) : Candidate where
  candidateId := proposal.newId
  status := if settings.blockedClaims proposal.lesson then .rejected else .needsReview
  type := proposal.candidateType
  lesson := proposal.lesson
  domainTags := dedupeStrings settings.unicode (givenAll proposal.domainTags (settings.inferDomainTags proposal.lesson))
  marketTags := dedupeStrings settings.unicode (givenAll proposal.marketTags [text "general"])
  platformTags := dedupeStrings settings.unicode (givenAll proposal.platformTags (settings.inferPlatformTags proposal.lesson))
  stages := dedupeStrings settings.unicode proposal.stages
  sourceUri := proposal.sourceUri
  trustLevel := given proposal.trustLevel (text "medium")
  dedupeKey := proposal.dedupeKey
  lessonKind := proposal.lessonKind
  confidence := proposal.confidence
  evidenceRefs := [proposal.evidenceRef]
  learning := proposal.learning

/-- The first candidate that meets a condition is replaced. -/
def replaceFirst (condition : Candidate → Bool) (change : Candidate → Candidate) : List Candidate → List Candidate
  | [] => []
  | candidate :: rest =>
    if condition candidate then change candidate :: rest else candidate :: replaceFirst condition change rest
/-- The candidate that `propose_candidate` finds, which it looks for with a key only. -/
def matchingCandidate (proposal : Proposal) (candidates : List Candidate) : Option Candidate :=
  if proposal.dedupeKey = [] then none else candidates.find? (sameLesson proposal.lesson proposal.dedupeKey)

/-- `propose_candidate`: the candidates and the id of the proposed one. A new id is that of no other candidate. -/
def proposeCandidate (settings : Settings) (proposal : Proposal) (candidates : List Candidate) :
    Option (List Candidate × Text) :=
  if proposal.candidateType ∉ knowledgeTypes then none
  else
    match matchingCandidate proposal candidates with
    | some existing =>
      some (replaceFirst (sameLesson proposal.lesson proposal.dedupeKey) (updated settings proposal) candidates,existing.candidateId)
    | none =>
      if proposal.newId ∈ candidates.map (·.candidateId) then none
      else some (candidates ++ [created settings proposal],proposal.newId)

/-- The words of `_learning_safety_rejection`. -/
def unsafeTradingClaims : List String :=
  ["guaranteed profit","cannot lose","live-ready","safe for live trading","investment advice"]
def learningSafetyRejection (settings : Settings) (lesson : Text) : Bool :=
  settings.blockedClaims lesson ||
    (unsafeTradingClaims.any fun claim => contains (text claim) (settings.unicode.lower lesson)) || 1200 < lesson.length
/-- `KNOWLEDGE_REVIEW_TEXT_RISK_TERMS`. -/
def riskTerms : List String :=
  ["profit","profitable","win rate","sharpe","sortino","alpha","edge","market edge","performance","return"]
def autoPromotableLessonKinds : List Text :=
  [text "pine_static_validation",text "backtest_robustness",text "harness_route_health",text "context_contract",
    text "context_budget",text "harness_provider_diagnostics"]
def containsTradingPerformanceClaim (settings : Settings) (lesson : Text) : Bool :=
  riskTerms.any fun term => contains (text term) (settings.unicode.lower lesson)
def evidenceRefExists (around : Surroundings) (ref : Text) : Bool :=
  ref ≠ [] && !(["run:","artifact:","candidate:","seed:"].any fun start => (afterPrefix (text start) ref).isSome) && around.pathExists ref
/-- `promotion_decision` before the retrieval is verified. -/
inductive Decision
  | autoRejected
  | needsReview
  | retrievalPending
deriving DecidableEq

/-- `_guarded_auto_promotion_review` without the verification of the retrieval. -/
def guardedAutoPromotionReview (settings : Settings) (around : Surroundings) (candidate : Candidate) : Decision :=
  if learningSafetyRejection settings candidate.lesson then .autoRejected
  else if containsTradingPerformanceClaim settings candidate.lesson then .needsReview
  else if !(candidate.evidenceRefs.any (evidenceRefExists around)) then .needsReview
  else if candidate.lessonKind ∉ autoPromotableLessonKinds then .needsReview
  else if candidate.learning.isNone ∧ candidate.evidenceRefs.length < 2 then .needsReview
  else
    match around.llmJudge with
    | none => .retrievalPending
    | some judge =>
      let judgement := judge candidate
      if judgement.unsafeClaims then .autoRejected
      else if judgement.generalizable ∧ ¬ judgement.requiresHumanReview then .retrievalPending
      else .needsReview

def itemFromCandidate (settings : Settings) (candidate : Candidate) : Item :=
  normalizeItem settings.unicode
    { id := .lesson candidate.candidateId
      type := candidate.type
      title := text "Approved lesson " ++ candidate.candidateId
      content := candidate.lesson
      domainTags := candidate.domainTags
      marketTags := candidate.marketTags
      platformTags := candidate.platformTags
      sourceType := text "approved_candidate"
      sourceUri := given candidate.sourceUri (text "candidate:" ++ candidate.candidateId)
      trustLevel := given candidate.trustLevel (text "medium")
      status := text "approved"
      stages := candidate.stages }

/-- The candidates and the index, with the ids of the candidates whose items were written to it. -/
structure Store where
  candidates : List Candidate
  index : Option Index
  added : List Text
/-- The items of candidates are written to the index, if there are any. -/
def Store.promote (settings : Settings) (store : Store) (index : Index) (candidates : List Candidate) : Store :=
  { store with
    index := some (writeApprovedItems settings.toSettings index (candidates.map (itemFromCandidate settings)))
    added := store.added ++ candidates.map (·.candidateId) }
/-- The candidates that a review covers: those of the ids, or all, of certain statuses. -/
def selected (ids : List Text) (reviewable : Option (List Status)) (candidate : Candidate) : Bool :=
  (ids = [] || candidate.candidateId ∈ ids) && reviewable.all fun statuses => candidate.status ∈ statuses
/-- The status that a review gives, from the retrieval of the lesson. -/
def reviewedStatus (settings : Settings) (around : Surroundings) (retrieved : Candidate → Bool) (candidate : Candidate) : Status :=
  match guardedAutoPromotionReview settings around candidate with
  | .autoRejected => .rejected
  | .needsReview => .needsReview
  | .retrievalPending => if retrieved candidate then .autoApproved else .needsReview
/-- `_verify_learning_retrieval_dry_run_batch`, on an index with the items of all lessons that are pending. -/
def verifications (settings : Settings) (around : Surroundings) (index : Option Index) (pending : List Candidate) :
    Option (Candidate → Bool) :=
  if pending = [] then some fun _ => false
  else index.map fun index =>
    around.retrieved (writeApprovedItems settings.toSettings index (pending.map (itemFromCandidate settings)))
def pendingCandidates (settings : Settings) (around : Surroundings) (chosen : List Candidate) : List Candidate :=
  chosen.filter fun candidate => guardedAutoPromotionReview settings around candidate = .retrievalPending
/-- The verifications of a review. -/
def reviewVerifications (settings : Settings) (around : Surroundings) (ids : List Text) (reviewable : Option (List Status))
    (store : Store) : Option (Candidate → Bool) :=
  verifications settings around store.index
    (pendingCandidates settings around (store.candidates.filter (selected ids reviewable)))
/-- A candidate after a review. -/
def reviewed (settings : Settings) (around : Surroundings) (ids : List Text) (reviewable : Option (List Status))
    (retrieved : Candidate → Bool) (candidate : Candidate) : Candidate :=
  if selected ids reviewable candidate then { candidate with status := reviewedStatus settings around retrieved candidate }
  else candidate
/-- The candidates that a review promotes. -/
def promotedCandidates (settings : Settings) (around : Surroundings) (ids : List Text) (reviewable : Option (List Status))
    (retrieved : Candidate → Bool) (candidates : List Candidate) : List Candidate :=
  (candidates.filter (selected ids reviewable)).filter fun candidate =>
    reviewedStatus settings around retrieved candidate = .autoApproved

/-- `review_candidates_for_auto_promotion`. -/
def reviewCandidates (settings : Settings) (around : Surroundings) (ids : List Text) (reviewable : Option (List Status))
    (store : Store) : Option Store :=
  if ∃ id ∈ ids, id ∉ store.candidates.map (·.candidateId) then none
  else
    (reviewVerifications settings around ids reviewable store).bind fun retrieved =>
      let promoted := promotedCandidates settings around ids reviewable retrieved store.candidates
      let next := { store with candidates := store.candidates.map (reviewed settings around ids reviewable retrieved) }
      if promoted = [] then some next
      else store.index.map fun index => next.promote settings index promoted

def approveCandidate (settings : Settings) (candidateId : Text) (approvedStatus : Status) (store : Store) : Option Store :=
  match store.candidates.find? (·.candidateId = candidateId) with
  | none => none
  | some candidate =>
    if candidate.status = .rejected then none
    else
      let approved := { store with
        candidates := replaceFirst (·.candidateId = candidateId) (fun candidate => { candidate with status := approvedStatus })
          store.candidates }
      store.index.map fun index => approved.promote settings index [candidate]

def rejectCandidate (candidateId : Text) (store : Store) : Option Store :=
  if candidateId ∈ store.candidates.map (·.candidateId) then
    some { store with
      candidates := replaceFirst (·.candidateId = candidateId) (fun candidate => { candidate with status := .rejected })
        store.candidates }
  else none
/-- A lesson of a run: its first evidence and what it is proposed with, and the other evidence. -/
structure Lesson where
  proposal : Proposal
  laterRefs : List Text
/-- The lesson is proposed once for each evidence, the first time with its record. -/
def proposeLesson (settings : Settings) (lesson : Lesson) (candidates : List Candidate) : Option (List Candidate × Text) :=
  (proposeCandidate settings lesson.proposal candidates).bind fun proposed =>
    lesson.laterRefs.foldlM (fun proposed ref =>
      proposeCandidate settings { lesson.proposal with evidenceRef := ref, learning := none } proposed.1) proposed

/-- The lessons that are safe are proposed in turn: the candidates, and the ids of the proposed ones. -/
def proposeLessons (settings : Settings) : List Lesson → List Candidate → Option (List Candidate × List Text)
  | [], candidates => some (candidates,[])
  | lesson :: rest, candidates =>
    if learningSafetyRejection settings lesson.proposal.lesson then proposeLessons settings rest candidates
    else
      (proposeLesson settings lesson candidates).bind fun proposed =>
        (proposeLessons settings rest proposed.1).map fun later => (later.1,proposed.2 :: later.2)

/-- The store that `learn_from_run` reviews, and the ids of the review. An index that is missing is built. -/
def learned (settings : Settings) (embedding : Embedding) (documents : List (Text × Item)) (lessons : List Lesson) (store : Store) :
    Option (Store × List Text) :=
  (proposeLessons settings lessons store.candidates).map fun proposed =>
    ({ store with
      candidates := proposed.1
      index := some (store.index.getD (buildKnowledgeIndex settings.toSettings embedding documents)) },proposed.2)
/-- `learn_from_run`, with a review in the modes that are guarded. -/
def learnFromRun (settings : Settings) (around : Surroundings) (embedding : Embedding) (documents : List (Text × Item))
    (guarded : Bool) (lessons : List Lesson) (store : Store) : Option Store :=
  (learned settings embedding documents lessons store).bind fun result =>
    if guarded ∧ result.2 ≠ [] then reviewCandidates settings around result.2 none result.1 else some result.1
/-- The operations on the store. -/
inductive Label
  | propose (proposal : Proposal)
  | learn (around : Surroundings) (embedding : Embedding) (documents : List (Text × Item)) (guarded : Bool) (lessons : List Lesson)
  | review (around : Surroundings) (ids : List Text) (reviewable : Option (List Status))
  | approve (candidateId : Text) (approvedStatus : Status)
  | reject (candidateId : Text)

def step (settings : Settings) (store : Store) : Label → Option Store
  | .propose proposal =>
    (proposeCandidate settings proposal store.candidates).map fun proposed => { store with candidates := proposed.1 }
  | .learn around embedding documents guarded lessons =>
    learnFromRun settings around embedding documents guarded lessons store
  | .review around ids reviewable => reviewCandidates settings around ids reviewable store
  | .approve candidateId approvedStatus => approveCandidate settings candidateId approvedStatus store
  | .reject candidateId => rejectCandidate candidateId store

def initial (settings : Settings) (built : Option (Embedding × List (Text × Item))) : Store :=
  ⟨[],built.map fun build => buildKnowledgeIndex settings.toSettings build.1 build.2,[]⟩
def statuses (candidates : List Candidate) : List (Text × Status) :=
  candidates.map fun candidate => (candidate.candidateId,candidate.status)
def ids (candidates : List Candidate) : List Text := candidates.map (·.candidateId)

variable {first second : List Candidate}
theorem ids_of_statuses (same : statuses first = statuses second) : ids first = ids second := by
  have projected := congrArg (List.map Prod.fst) same
  simpa [statuses,ids,Function.comp_def] using projected

theorem statuses_replaceFirst {condition : Candidate → Bool} {change : Candidate → Candidate}
    (keeps : ∀ candidate, (change candidate).candidateId = candidate.candidateId ∧ (change candidate).status = candidate.status)
    (candidates : List Candidate) : statuses (replaceFirst condition change candidates) = statuses candidates := by
  induction candidates with
  | nil => rfl
  | cons candidate rest ih =>
    rw [replaceFirst]
    split_ifs
    · simp [statuses,keeps candidate]
    · simpa [statuses] using ih

variable {candidates : List Candidate} {change : Candidate → Candidate}

theorem ids_replaceFirst {condition : Candidate → Bool}
    (keeps : ∀ candidate, (change candidate).candidateId = candidate.candidateId) :
    ids (replaceFirst condition change candidates) = ids candidates := by
  induction candidates with
  | nil => rfl
  | cons candidate rest ih =>
    rw [replaceFirst]
    split_ifs
    · simp [ids,keeps candidate]
    · simpa [ids] using ih

theorem ids_setStatus (candidateId : Text) (status : Status) (candidates : List Candidate) :
    ids (replaceFirst (·.candidateId = candidateId) (fun candidate => { candidate with status := status }) candidates) =
      ids candidates := ids_replaceFirst (by intro _; rfl)
theorem same_candidate (distinct : (ids candidates).Nodup) {first second : Candidate}
    (isFirst : first ∈ candidates) (isSecond : second ∈ candidates) (same : first.candidateId = second.candidateId) :
    first = second :=
  inj_on_of_nodup_map distinct isFirst isSecond same

theorem replaceFirst_id (distinct : (ids candidates).Nodup) (candidateId : Text) :
    replaceFirst (·.candidateId = candidateId) change candidates =
      candidates.map fun candidate => if candidate.candidateId = candidateId then change candidate else candidate := by
  induction candidates with
  | nil => rfl
  | cons candidate rest ih =>
    obtain ⟨apart,distinct⟩ := nodup_cons.mp distinct
    rw [replaceFirst,map_cons]
    by_cases same : candidate.candidateId = candidateId
    · rw [if_pos (decide_eq_true same),if_pos same]
      congr 1
      have others : ∀ other ∈ rest, (if other.candidateId = candidateId then change other else other) = id other := by
        intro other member
        refine if_neg fun here : other.candidateId = candidateId => ?_
        exact apart (mem_map.mpr ⟨other,member,here.trans same.symm⟩)
      exact ((map_congr_left others).trans (map_id rest)).symm
    · rw [if_neg (by simpa using same),if_neg same,ih distinct]

/-- Proposals keep the statuses and add candidates of new ids that are not approved. -/
structure Extends (before after : List Candidate) : Prop where
  distinct : (ids before).Nodup → (ids after).Nodup
  statuses : ∃ new, statuses after = statuses before ++ new ∧ ∀ entry ∈ new, entry.2 = .needsReview ∨ entry.2 = .rejected
theorem Extends.refl (candidates : List Candidate) : Extends candidates candidates :=
  ⟨id,[],by simp,nofun⟩

theorem Extends.trans {third : List Candidate} (before : Extends first second) (after : Extends second third) :
    Extends first third := by
  obtain ⟨new,same,statuses⟩ := before.statuses
  obtain ⟨more,alsoSame,alsoStatuses⟩ := after.statuses
  refine ⟨after.distinct ∘ before.distinct,new ++ more,by rw [alsoSame,same,append_assoc],?_⟩
  intro entry member
  rcases mem_append.mp member with earlier | later
  · exact statuses entry earlier
  · exact alsoStatuses entry later

variable {settings : Settings}

theorem proposeCandidate_extends {proposal : Proposal}
    {proposed : List Candidate × Text} (done : proposeCandidate settings proposal candidates = some proposed) :
    Extends candidates proposed.1 := by
  unfold proposeCandidate at done
  split at done
  · cases done
  split at done
  · cases done
    have keeps : ∀ candidate, (updated settings proposal candidate).candidateId = candidate.candidateId ∧
        (updated settings proposal candidate).status = candidate.status := fun _ => ⟨rfl,rfl⟩
    have same := @statuses_replaceFirst (sameLesson proposal.lesson proposal.dedupeKey) _ keeps candidates
    refine ⟨?_,[],by rw [append_nil]; exact same,nofun⟩
    rw [ids_of_statuses same]
    exact id
  · split_ifs at done with taken
    cases done
    refine ⟨?_,[(proposal.newId,(created settings proposal).status)],by simp [statuses,created],?_⟩
    · intro distinct
      rw [ids,map_append,nodup_append]
      refine ⟨distinct,nodup_singleton _,?_⟩
      intro other member new isNew same
      cases mem_singleton.mp isNew
      cases same
      exact taken member
    · intro entry member
      cases mem_singleton.mp member
      unfold created
      dsimp only
      split_ifs
      · exact .inr rfl
      · exact .inl rfl

theorem proposeLesson_extends {lesson : Lesson}
    {proposed : List Candidate × Text} (done : proposeLesson settings lesson candidates = some proposed) :
    Extends candidates proposed.1 := by
  obtain ⟨first,isFirst,rest⟩ := Option.bind_eq_some_iff.mp done
  have start := proposeCandidate_extends isFirst
  generalize lesson.laterRefs = refs at rest
  clear isFirst
  induction refs generalizing first with
  | nil =>
    cases rest
    exact start
  | cons ref refs ih =>
    rw [foldlM_cons] at rest
    obtain ⟨next,isNext,rest⟩ := Option.bind_eq_some_iff.mp rest
    exact ih next (start.trans (proposeCandidate_extends isNext)) rest

variable {lessons : List Lesson}

theorem proposeLessons_extends
    {proposed : List Candidate × List Text} (done : proposeLessons settings lessons candidates = some proposed) :
    Extends candidates proposed.1 := by
  induction lessons generalizing candidates proposed with
  | nil =>
    cases done
    exact Extends.refl _
  | cons lesson rest ih =>
    rw [proposeLessons] at done
    split_ifs at done
    · exact ih done
    · obtain ⟨first,isFirst,more⟩ := Option.bind_eq_some_iff.mp done
      obtain ⟨later,isLater,same⟩ := Option.map_eq_some_iff.mp more
      have extended : Extends first.1 later.1 := ih isLater
      rw [← same]
      exact (proposeLesson_extends isFirst).trans extended

def Store.Holds (store : Store) (candidateId : Text) : Prop :=
  ∃ index ∈ store.index, .lesson candidateId ∈ index.items.map (·.id)
/-- The items of candidates are added to the index. -/
structure Promotes (settings : Settings) (promoted : List Candidate) (before after : Store) : Prop where
  added : after.added = before.added ++ promoted.map (·.candidateId)
  holds : ∀ candidateId, after.Holds candidateId ↔ candidateId ∈ promoted.map (·.candidateId) ∨ before.Holds candidateId
  recomputed : ∀ index ∈ after.index, index ∈ before.index ∨ Recomputed settings.toSettings index

theorem ids_items (settings : Settings) (candidates : List Candidate) (candidateId : Text) :
    .lesson candidateId ∈ (candidates.map (itemFromCandidate settings)).map (·.id) ↔ candidateId ∈ ids candidates := by
  rw [map_map]
  constructor
  · intro member
    obtain ⟨candidate,isCandidate,same⟩ := mem_map.mp member
    cases same
    exact mem_map_of_mem isCandidate
  · intro member
    obtain ⟨candidate,isCandidate,rfl⟩ := mem_map.mp member
    exact mem_map.mpr ⟨candidate,isCandidate,rfl⟩

variable {before store : Store}

theorem promote_promotes {index : Index} (here : before.index = some index)
    (same : store.added = before.added) (promoted : List Candidate) :
    Promotes settings promoted before (store.promote settings index promoted) where
  added := by rw [← same]; rfl
  holds candidateId := by
    have written := ids_write settings.toSettings index.embedding index (promoted.map (itemFromCandidate settings)) (.lesson candidateId)
    rw [ids_items] at written
    constructor
    · rintro ⟨_,isIndex,member⟩
      cases isIndex
      exact (written.mp member).imp id fun former => ⟨index,here,former⟩
    · intro member
      refine ⟨_,rfl,written.mpr (member.imp id ?_)⟩
      rintro ⟨_,isIndex,former⟩
      cases here.symm.trans isIndex
      exact former
  recomputed := by
    intro _ isIndex
    cases isIndex
    exact .inr (recomputed_write _ _ _ _)

theorem promotes_none {after : Store} (index : after.index = before.index)
    (added : after.added = before.added) : Promotes settings [] before after where
  added := by rw [added,map_nil,append_nil]
  holds candidateId := by simp [Store.Holds,index]
  recomputed other isIndex := .inl (index ▸ isIndex)

variable {around : Surroundings} {chosen : List Text} {next : Store} {reviewable : Option (List Status)}

theorem reviewCandidates_spec (done : reviewCandidates settings around chosen reviewable store = some next) :
    ∃ retrieved, reviewVerifications settings around chosen reviewable store = some retrieved ∧
      next.candidates = store.candidates.map (reviewed settings around chosen reviewable retrieved) ∧
      Promotes settings (promotedCandidates settings around chosen reviewable retrieved store.candidates) store next := by
  unfold reviewCandidates at done
  split at done
  · cases done
  obtain ⟨retrieved,verified,done⟩ := Option.bind_eq_some_iff.mp done
  refine ⟨retrieved,verified,?_⟩
  dsimp only at done
  split at done
  next empty =>
    cases done
    rw [empty]
    exact ⟨rfl,promotes_none rfl rfl⟩
  next =>
    obtain ⟨index,here,rfl⟩ := Option.map_eq_some_iff.mp done
    exact ⟨rfl,promote_promotes here (by rfl) _⟩

variable {candidateId : Text}

theorem approveCandidate_spec {approvedStatus : Status}
    (done : approveCandidate settings candidateId approvedStatus store = some next) :
    ∃ candidate ∈ store.candidates, candidate.candidateId = candidateId ∧ candidate.status ≠ .rejected ∧
      next.candidates = replaceFirst (·.candidateId = candidateId) (fun candidate => { candidate with status := approvedStatus })
        store.candidates ∧ Promotes settings [candidate] store next := by
  unfold approveCandidate at done
  split at done
  · cases done
  next candidate found =>
    split at done
    · cases done
    next live =>
      obtain ⟨index,here,rfl⟩ := Option.map_eq_some_iff.mp done
      exact ⟨candidate,mem_of_find?_eq_some found,by simpa using find?_some found,live,rfl,promote_promotes here (by rfl) _⟩

theorem rejectCandidate_spec (done : rejectCandidate candidateId store = some next) :
    candidateId ∈ ids store.candidates ∧ next = { store with
      candidates := replaceFirst (·.candidateId = candidateId) (fun candidate => { candidate with status := .rejected })
        store.candidates } := by
  unfold rejectCandidate at done
  split at done
  next here =>
    cases done
    exact ⟨here,rfl⟩
  next => cases done

/-- The store that is reviewed at the end of `learn_from_run` has the candidates that were proposed, and
    an index that was there or was just built. -/
theorem learned_spec {embedding : Embedding} {documents : List (Text × Item)} {result : Store × List Text} (done : learned settings embedding documents lessons store = some result) :
    proposeLessons settings lessons store.candidates = some (result.1.candidates,result.2) ∧
      Promotes settings [] store result.1 := by
  obtain ⟨proposed,isProposed,rfl⟩ := Option.map_eq_some_iff.mp done
  refine ⟨isProposed,by simp,?_,?_⟩
  · intro candidateId
    constructor
    · rintro ⟨index,isIndex,member⟩
      cases here : store.index with
      | none =>
        rw [here] at isIndex
        cases isIndex
        exact absurd member (lesson_not_built _ _ _ _)
      | some former =>
        rw [here] at isIndex
        cases isIndex
        exact .inr ⟨former,here,member⟩
    · rintro (none | ⟨index,isIndex,member⟩)
      · cases none
      · rw [Option.mem_def] at isIndex
        exact ⟨index,by rw [isIndex]; rfl,member⟩
  · intro index isIndex
    cases here : store.index with
    | none =>
      rw [here] at isIndex
      cases isIndex
      exact .inr (recomputed_build _ _ _)
    | some former =>
      rw [here] at isIndex
      exact .inl isIndex

theorem ids_review (done : reviewCandidates settings around chosen reviewable store = some next) :
    ids next.candidates = ids store.candidates := by
  obtain ⟨retrieved,-,same,-⟩ := reviewCandidates_spec done
  rw [same,ids,map_map]
  refine map_congr_left fun candidate _ => ?_
  dsimp only [Function.comp,reviewed]
  split_ifs <;> rfl

theorem distinct_step {s : Store} {label : Label} (distinct : (ids s.candidates).Nodup)
    (stepped : step settings s label = some next) : (ids next.candidates).Nodup := by
  cases label with
  | propose proposal =>
    obtain ⟨proposed,done,rfl⟩ := Option.map_eq_some_iff.mp stepped
    exact (proposeCandidate_extends done).distinct distinct
  | learn around embedding documents guarded lessons =>
    obtain ⟨result,done,more⟩ := Option.bind_eq_some_iff.mp stepped
    have extended := proposeLessons_extends (learned_spec done).1
    split at more
    · rw [ids_review more]
      exact extended.distinct distinct
    · cases more
      exact extended.distinct distinct
  | review around chosen reviewable =>
    rw [ids_review stepped]
    exact distinct
  | approve candidateId approvedStatus =>
    obtain ⟨-,-,-,-,same,-⟩ := approveCandidate_spec stepped
    rw [same,ids_setStatus]
    exact distinct
  | reject candidateId =>
    obtain ⟨-,rfl⟩ := rejectCandidate_spec stepped
    dsimp only
    rw [ids_setStatus]
    exact distinct
end Codebot.KnowledgeCandidates
