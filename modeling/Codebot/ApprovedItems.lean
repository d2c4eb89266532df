import Codebot.KnowledgeCandidates

/-!
The items of the approved candidates. A candidate that is approved has its item in the index and no other candidate
has one, as long as no operation takes the approval back: none removes an item.
-/
namespace Codebot.ApprovedItems
open Runs Texts KnowledgeCandidates List
open KnowledgeIndex (Embedding Item Recomputed recomputed_build lesson_not_built)

def isApproved (status : Status) : Bool := status = .approved || status = .autoApproved
def Matches (store : Store) : Prop :=
  ∀ candidate ∈ store.candidates, store.Holds candidate.candidateId ↔ isApproved candidate.status = true
/-- What every operation keeps. -/
structure Known (settings : Settings) (store : Store) : Prop where
  distinct : (ids store.candidates).Nodup
  listed : ∀ candidateId, store.Holds candidateId → candidateId ∈ ids store.candidates
  recomputed : ∀ index ∈ store.index, Recomputed settings.toSettings index
/-- The gates of a review pass, and the lesson is retrieved. -/
def Passes (settings : Settings) (around : Surroundings) (retrieved : Candidate → Bool) (candidate : Candidate) : Prop :=
  guardedAutoPromotionReview settings around candidate = .retrievalPending ∧ retrieved candidate = true
/-- A review of candidates that exist covers an approved one only if it passes again. -/
def Reapproves (settings : Settings) (around : Surroundings) (chosen : List Text) (reviewable : Option (List Status))
    (store : Store) : Prop :=
  (∀ id ∈ chosen, id ∈ ids store.candidates) → ∀ retrieved ∈ reviewVerifications settings around chosen reviewable store,
    ∀ candidate ∈ store.candidates, selected chosen reviewable candidate = true → isApproved candidate.status = true →
      Passes settings around retrieved candidate

/-- An approval is to an approved status, no approved candidate is rejected, and a review passes every
    approved candidate that it covers. -/
def Consistent (settings : Settings) (store : Store) : Label → Prop
  | .propose _ => True
  | .learn around embedding documents guarded lessons =>
    ∀ result ∈ learned settings embedding documents lessons store, guarded = true ∧ result.2 ≠ [] →
      Reapproves settings around result.2 none result.1
  | .review around chosen reviewable => Reapproves settings around chosen reviewable store
  | .approve candidateId approvedStatus =>
    (∃ candidate ∈ store.candidates, candidate.candidateId = candidateId ∧ candidate.status ≠ .rejected) →
      store.index.isSome = true → isApproved approvedStatus = true
  | .reject candidateId =>
    ∀ candidate ∈ store.candidates, candidate.candidateId = candidateId → isApproved candidate.status = false

variable {around : Surroundings} {candidate : Candidate} {retrieved : Candidate → Bool}

theorem passes_iff {settings : Settings} :
    isApproved (reviewedStatus settings around retrieved candidate) = true ↔ Passes settings around retrieved candidate := by
  unfold reviewedStatus Passes
  split
  next isRejected => simp [isRejected,isApproved]
  next isReview => simp [isReview,isApproved]
  next isPending =>
    split_ifs with found
    · simp [isPending,isApproved,found]
    · simp [isApproved,found]

theorem autoApproved_iff {settings : Settings} :
    reviewedStatus settings around retrieved candidate = .autoApproved ↔ Passes settings around retrieved candidate := by
  rw [← passes_iff]
  unfold reviewedStatus
  split
  · simp [isApproved]
  · simp [isApproved]
  · split_ifs <;> simp [isApproved]

section
variable {settings : Settings}
variable {after before : Store}

theorem Known.promotes {promoted : List Candidate} (known : Known settings before)
    (promotes : Promotes settings promoted before after) (distinct : (ids after.candidates).Nodup)
    (kept : ids before.candidates ⊆ ids after.candidates) (here : ∀ candidate ∈ promoted, candidate ∈ before.candidates) :
    Known settings after where
  distinct := distinct
  listed candidateId held := by
    rcases (promotes.holds candidateId).mp held with new | former
    · obtain ⟨candidate,isPromoted,rfl⟩ := mem_map.mp new
      exact kept (mem_map_of_mem (here candidate isPromoted))
    · exact kept (known.listed candidateId former)
  recomputed index isIndex := (promotes.recomputed index isIndex).elim (known.recomputed index) id

variable {chosen : List Text} {reviewable : Option (List Status)}
variable {around : Surroundings} {candidate : Candidate}
theorem mem_promoted {retrieved : Candidate → Bool} {candidates : List Candidate} :
    candidate ∈ promotedCandidates settings around chosen reviewable retrieved candidates ↔
      candidate ∈ candidates ∧ selected chosen reviewable candidate = true ∧ Passes settings around retrieved candidate := by
  rw [promotedCandidates,mem_filter,mem_filter,decide_eq_true_iff,autoApproved_iff,and_assoc]

variable {next store : Store}
theorem known_review
    (known : Known settings store) (done : reviewCandidates settings around chosen reviewable store = some next) :
    Known settings next := by
  obtain ⟨retrieved,-,-,promotes⟩ := reviewCandidates_spec done
  have same := ids_review done
  exact known.promotes promotes (same ▸ known.distinct) (by rw [same]; exact List.Subset.refl _)
    (fun candidate isPromoted => (mem_promoted.mp isPromoted).1)

theorem ids_extends {before after : List Candidate} (extended : Extends before after) : ids before ⊆ ids after := by
  obtain ⟨new,same,-⟩ := extended.statuses
  intro candidateId member
  obtain ⟨candidate,isCandidate,rfl⟩ := mem_map.mp member
  have entry : (candidate.candidateId,candidate.status) ∈ statuses after := by
    rw [same]
    exact mem_append_left new (mem_map.mpr ⟨candidate,isCandidate,rfl⟩)
  obtain ⟨other,isOther,sameEntry⟩ := mem_map.mp entry
  exact mem_map.mpr ⟨other,isOther,(Prod.mk.inj sameEntry).1⟩

theorem known_extends (known : Known settings before) (extended : Extends before.candidates after.candidates)
    (promotes : Promotes settings [] before after) : Known settings after :=
  known.promotes promotes (extended.distinct known.distinct) (ids_extends extended) nofun

theorem matches_extends (known : Known settings before) (here : Matches before)
    (extended : Extends before.candidates after.candidates) (promotes : Promotes settings [] before after) : Matches after := by
  obtain ⟨new,same,unapproved⟩ := extended.statuses
  intro candidate member
  have held : after.Holds candidate.candidateId ↔ before.Holds candidate.candidateId := by
    simpa using promotes.holds candidate.candidateId
  rw [held]
  have entry : (candidate.candidateId,candidate.status) ∈ statuses before.candidates ++ new :=
    same ▸ mem_map.mpr ⟨candidate,member,rfl⟩
  rcases mem_append.mp entry with former | isNew
  · obtain ⟨other,isOther,sameEntry⟩ := mem_map.mp former
    obtain ⟨sameId,sameStatus⟩ := Prod.mk.inj sameEntry
    rw [← sameId,← sameStatus]
    exact here other isOther
  · have apart : candidate.candidateId ∉ ids before.candidates := by
      intro listed
      have distinct := extended.distinct known.distinct
      have split : ids after.candidates = ids before.candidates ++ new.map Prod.fst := by
        have projected := congrArg (List.map Prod.fst) same
        simpa [statuses,ids,Function.comp_def] using projected
      rw [split,nodup_append] at distinct
      exact distinct.2.2 _ listed _ (mem_map_of_mem isNew) rfl
    have status : isApproved candidate.status = false := by
      rcases unapproved _ isNew with needs | isRejected
      · simp_all [isApproved]
      · simp_all [isApproved]
    simp only [status,Bool.false_eq_true,iff_false]
    exact fun holds => apart (known.listed _ holds)

theorem matches_review_iff (known : Known settings store) (here : Matches store) :
    (∀ next, reviewCandidates settings around chosen reviewable store = some next → Matches next) ↔
      Reapproves settings around chosen reviewable store := by
  constructor
  · intro all exist retrieved verified candidate member covers approved
    -- an approved candidate has its item, so there is an index and the review is done
    obtain ⟨index,isIndex,-⟩ := (here candidate member).mpr approved
    have some : (reviewCandidates settings around chosen reviewable store).isSome = true := by
      have present : ¬ ∃ id ∈ chosen, id ∉ store.candidates.map (·.candidateId) := by simpa [ids] using exist
      rw [Option.mem_def] at isIndex verified
      rw [reviewCandidates,if_neg present,verified,Option.bind_some]
      dsimp only
      split_ifs
      · rfl
      · rw [isIndex]
        rfl
    obtain ⟨next,done⟩ := Option.isSome_iff_exists.mp some
    obtain ⟨sameRetrieved,sameVerified,candidates,promotes⟩ := reviewCandidates_spec done
    cases Option.some.inj (sameVerified.symm.trans verified)
    have after := all next done _ (candidates ▸ mem_map_of_mem member)
    rw [reviewed,if_pos covers] at after
    exact passes_iff.mp (after.mp ((promotes.holds _).mpr (.inr ((here candidate member).mpr approved))))
  · intro reapproves next done
    obtain ⟨retrieved,verified,candidates,promotes⟩ := reviewCandidates_spec done
    have exist : ∀ id ∈ chosen, id ∈ ids store.candidates := by
      unfold reviewCandidates at done
      split_ifs at done with missing
      simpa [ids] using missing
    intro reviewedOne member
    rw [candidates] at member
    obtain ⟨candidate,isCandidate,rfl⟩ := mem_map.mp member
    have sameId : (reviewed settings around chosen reviewable retrieved candidate).candidateId = candidate.candidateId := by
      unfold reviewed
      split_ifs <;> rfl
    have promoted : candidate.candidateId ∈ (promotedCandidates settings around chosen reviewable retrieved store.candidates).map
        (·.candidateId) ↔ selected chosen reviewable candidate = true ∧ Passes settings around retrieved candidate := by
      constructor
      · intro isPromoted
        obtain ⟨other,isOther,same⟩ := mem_map.mp isPromoted
        obtain ⟨alsoHere,rest⟩ := mem_promoted.mp isOther
        cases same_candidate known.distinct alsoHere isCandidate same
        exact rest
      · intro passes
        exact mem_map_of_mem (mem_promoted.mpr ⟨isCandidate,passes⟩)
    rw [sameId,promotes.holds,promoted,here candidate isCandidate]
    unfold reviewed
    split_ifs with covers
    · rw [passes_iff]
      constructor
      · rintro (⟨-,passes⟩ | approved)
        · exact passes
        · exact reapproves exist retrieved verified candidate isCandidate covers approved
      · exact fun passes => .inl ⟨covers,passes⟩
    · simp [covers]

variable {label : Label} {s : Store}

theorem known_step (known : Known settings s) (stepped : step settings s label = some next) :
    Known settings next := by
  have distinct := distinct_step known.distinct stepped
  cases label with
  | propose proposal =>
    obtain ⟨proposed,done,rfl⟩ := Option.map_eq_some_iff.mp stepped
    exact known_extends known (proposeCandidate_extends done) (promotes_none rfl rfl)
  | learn around embedding documents guarded lessons =>
    obtain ⟨result,done,more⟩ := Option.bind_eq_some_iff.mp stepped
    obtain ⟨proposed,promotes⟩ := learned_spec done
    have start := known_extends known (proposeLessons_extends proposed) promotes
    split at more
    · exact known_review start more
    · cases more
      exact start
  | review around chosen reviewable => exact known_review known stepped
  | approve candidateId approvedStatus =>
    obtain ⟨candidate,member,-,-,candidates,promotes⟩ := approveCandidate_spec stepped
    refine known.promotes promotes distinct ?_ ?_
    · rw [candidates,ids_setStatus]
      exact List.Subset.refl _
    · intro other isPromoted
      cases mem_singleton.mp isPromoted
      exact member
  | reject candidateId =>
    obtain ⟨-,rfl⟩ := rejectCandidate_spec stepped
    refine known.promotes (promotes_none rfl rfl) distinct ?_ nofun
    dsimp only
    rw [ids_setStatus]
    exact List.Subset.refl _

variable {candidateId : Text}

theorem matches_setStatus_iff {status : Status} (known : Known settings s) (here : Matches s)
    (candidates : next.candidates = replaceFirst (·.candidateId = candidateId)
      (fun candidate => { candidate with status := status }) s.candidates)
    (holds : ∀ other, other ≠ candidateId → (next.Holds other ↔ s.Holds other)) (listed : candidateId ∈ ids s.candidates) :
    Matches next ↔ (next.Holds candidateId ↔ isApproved status = true) := by
  rw [replaceFirst_id known.distinct] at candidates
  obtain ⟨candidate,member,rfl⟩ := mem_map.mp listed
  constructor
  · intro after
    have this := after _ (candidates ▸ mem_map_of_mem member)
    simpa using this
  · intro after other isOther
    rw [candidates] at isOther
    obtain ⟨former,isFormer,rfl⟩ := mem_map.mp isOther
    split_ifs with same
    · dsimp only
      rw [same]
      exact after
    · rw [holds _ same]
      exact here former isFormer

theorem holds_approved (promotes : Promotes settings [candidate] s next) :
    next.Holds candidate.candidateId ∧ ∀ other, other ≠ candidate.candidateId → (next.Holds other ↔ s.Holds other) := by
  refine ⟨(promotes.holds _).mpr (.inl (by simp)),?_⟩
  intro other apart
  simp [promotes.holds other,apart]

theorem matches_approve_iff {approvedStatus : Status} (known : Known settings s) (here : Matches s) :
    (∀ next, approveCandidate settings candidateId approvedStatus s = some next → Matches next) ↔
      Consistent settings s (.approve candidateId approvedStatus) := by
  constructor
  · rintro all ⟨candidate,member,isId,live⟩ isIndex
    have found : s.candidates.find? (·.candidateId = candidateId) = some candidate := by
      obtain ⟨first,isFirst⟩ := Option.isSome_iff_exists.mp
        (find?_isSome.mpr ⟨candidate,member,decide_eq_true isId⟩ :
          (s.candidates.find? (·.candidateId = candidateId)).isSome = true)
      have same : first.candidateId = candidateId := by simpa using find?_some isFirst
      cases same_candidate known.distinct (mem_of_find?_eq_some isFirst) member (same.trans isId.symm)
      exact isFirst
    obtain ⟨index,here'⟩ := Option.isSome_iff_exists.mp isIndex
    obtain ⟨next,done⟩ : ∃ next, approveCandidate settings candidateId approvedStatus s = some next := by
      rw [approveCandidate,found]
      dsimp only
      rw [if_neg live,here']
      exact ⟨_,rfl⟩
    obtain ⟨promoted,isPromoted,rfl,-,candidates,promotes⟩ := approveCandidate_spec done
    obtain ⟨holds,rest⟩ := holds_approved promotes
    have listed : promoted.candidateId ∈ ids s.candidates := mem_map_of_mem isPromoted
    exact ((matches_setStatus_iff known here candidates rest listed).mp (all next done)).mp holds
  · intro consistent next stepped
    obtain ⟨promoted,isPromoted,rfl,live,candidates,promotes⟩ := approveCandidate_spec stepped
    obtain ⟨holds,rest⟩ := holds_approved promotes
    have listed : promoted.candidateId ∈ ids s.candidates := mem_map_of_mem isPromoted
    have isIndex : s.index.isSome = true := by
      unfold approveCandidate at stepped
      split at stepped
      · cases stepped
      · split_ifs at stepped
        obtain ⟨index,isIndex,-⟩ := Option.map_eq_some_iff.mp stepped
        exact Option.isSome_iff_exists.mpr ⟨index,isIndex⟩
    have approved := consistent ⟨promoted,isPromoted,rfl,live⟩ isIndex
    exact (matches_setStatus_iff known here candidates rest listed).mpr (by simp [holds,approved])

theorem matches_reject_iff (known : Known settings s) (here : Matches s) :
    (∀ next, rejectCandidate candidateId s = some next → Matches next) ↔ Consistent settings s (.reject candidateId) := by
  have iff : ∀ next, rejectCandidate candidateId s = some next → (Matches next ↔ ¬ s.Holds candidateId) := by
    intro next done
    obtain ⟨listed,isNext⟩ := rejectCandidate_spec done
    have holds : ∀ other, next.Holds other ↔ s.Holds other := by
      intro other
      rw [isNext]
      exact Iff.rfl
    rw [matches_setStatus_iff known here (congrArg Store.candidates isNext) (fun other _ => holds other) listed,holds]
    simp [isApproved]
  constructor
  · intro all candidate member same
    obtain ⟨next,done⟩ : ∃ next, rejectCandidate candidateId s = some next := by
      rw [rejectCandidate,if_pos (mem_map.mpr ⟨candidate,member,same⟩)]
      exact ⟨_,rfl⟩
    have unheld := (iff next done).mp (all next done)
    rw [← same,here candidate member] at unheld
    exact Bool.eq_false_of_not_eq_true unheld
  · intro consistent next stepped
    refine (iff next stepped).mpr ?_
    intro held
    obtain ⟨candidate,member,same⟩ := mem_map.mp (known.listed candidateId held)
    have approved := (here candidate member).mp (same ▸ held)
    simp [consistent candidate member same] at approved

theorem matches_step_iff (known : Known settings s) (here : Matches s) :
    (∀ next, step settings s label = some next → Matches next) ↔ Consistent settings s label := by
  cases label with
  | propose proposal =>
    refine ⟨fun _ => trivial,fun _ next stepped => ?_⟩
    obtain ⟨proposed,done,rfl⟩ := Option.map_eq_some_iff.mp stepped
    exact matches_extends known here (proposeCandidate_extends done) (promotes_none rfl rfl)
  | learn around embedding documents guarded lessons =>
    constructor
    · intro all result done reviews
      obtain ⟨proposed,promotes⟩ := learned_spec done
      have extended := proposeLessons_extends proposed
      refine (matches_review_iff (known_extends known extended promotes) (matches_extends known here extended promotes)).mp ?_
      intro next reviewed
      refine all next (Option.bind_eq_some_iff.mpr ⟨result,done,?_⟩)
      rwa [if_pos reviews]
    · intro consistent next stepped
      obtain ⟨result,done,more⟩ := Option.bind_eq_some_iff.mp stepped
      obtain ⟨proposed,promotes⟩ := learned_spec done
      have extended := proposeLessons_extends proposed
      have after := matches_extends known here extended promotes
      split at more
      next reviews =>
        exact (matches_review_iff (known_extends known extended promotes) after).mpr (consistent result done reviews) next more
      next =>
        cases more
        exact after
  | review around chosen reviewable => exact matches_review_iff known here
  | approve candidateId approvedStatus => exact matches_approve_iff known here
  | reject candidateId => exact matches_reject_iff known here
end

theorem known_initial (settings : Settings) (built : Option (Embedding × List (Text × Item))) : Known settings (initial settings built) where
  distinct := nodup_nil
  listed candidateId held := by
    obtain ⟨index,isIndex,member⟩ := held
    cases built with
    | none => cases isIndex
    | some build =>
      cases isIndex
      exact absurd member (lesson_not_built _ _ _ _)
  recomputed index isIndex := by
    cases built with
    | none => cases isIndex
    | some build =>
      cases isIndex
      exact recomputed_build _ _ _

/-- The index always holds exactly the items of the approved candidates if and only if no operation takes an approval
    back. -/
theorem exact_iff (settings : Settings) (built : Option (Embedding × List (Text × Item))) (labels : List Label) :
    (∀ before after t, labels = before ++ after → run (step settings) (initial settings built) before = some t →
        Matches t ∧ ∀ index ∈ t.index, Recomputed settings.toSettings index) ↔
      Meets (step settings) (Consistent settings) (initial settings built) labels := by
  refine @holds_iff _ _ _ _ (fun s => Matches s ∧ ∀ index ∈ s.index, Recomputed settings.toSettings index) (Known settings)
    (fun _ _ _ known stepped => known_step known stepped) ?_ _ _ (known_initial settings built) ⟨nofun,(known_initial settings built).recomputed⟩
  intro s label known here
  rw [← matches_step_iff known here.1]
  constructor
  · intro all next stepped
    exact (all next stepped).1
  · intro all next stepped
    exact ⟨all next stepped,(known_step known stepped).recomputed⟩

def openSettings : Settings where
  unicode := ascii
  chunksForItem _ _ := []
  blockedClaims _ := false
  inferDomainTags _ := [text "general"]
  inferPlatformTags _ := [text "pine_v6"]

def sampleProposal : Proposal where
  newId := text "a"
  lesson := text "x"
  evidenceRef := text "r"
  candidateType := text "procedural"
  dedupeKey := text "x"
  lessonKind := text "context_budget"
  confidence := text "high"
  domainTags := []
  marketTags := []
  platformTags := []
  stages := []
  sourceUri := []
  trustLevel := text "medium"
  learning := none

/-- A candidate that is approved and then rejected keeps its item. -/
theorem item_left : ¬ ∀ (settings : Settings) (built : Option (Embedding × List (Text × Item))) (labels : List Label) (t : Store),
    run (step settings) (initial settings built) labels = some t →
      Matches t ∧ ∀ index ∈ t.index, Recomputed settings.toSettings index := by
  intro all
  let labels := [Label.propose sampleProposal,.approve (text "a") .approved,.reject (text "a")]
  let last := (run (step openSettings) (initial openSettings (some (⟨[],[]⟩,[]))) labels).get (by decide)
  have out := (all openSettings (some (⟨[],[]⟩,[])) labels last (by rw [Option.some_get])).1
  obtain ⟨candidate,member,same,isRejected⟩ : ∃ candidate ∈ last.candidates, candidate.candidateId = text "a" ∧
      isApproved candidate.status = false := by decide
  have held : last.Holds candidate.candidateId := by
    rw [same]
    exact ⟨last.index.get (by decide),(Option.some_get _).symm,by decide⟩
  have approved := (out candidate member).mp held
  simp [isRejected] at approved
end Codebot.ApprovedItems
