import Codebot.ApprovedItems
import Codebot.RejectedCandidates

/-!
The gates of an auto-approval: safety, no claim of performance, evidence that exists, a kind that may be promoted, and
judges that do not object. Confidence is no gate, though the report of a run says that it is, and in a database the
retrieval passes without a search (`approvals_sound_iff`).
-/
namespace Codebot.AutoApprovals
open Texts KnowledgeCandidates
open KnowledgeIndex (writeApprovedItems)
open RejectedCandidates (plainSettings plainSurroundings localEmbedding sampleLesson)

/-- A review of the candidates of a store. -/
structure Review where
  around : Surroundings
  ids : List Text
  reviewable : Option (List Status)
  store : Store

section
variable (settings : Settings)

/-- The review that an operation makes. -/
def reviewOf (store : Store) : Label → Option Review
  | .learn around embedding documents guarded lessons =>
    (learned settings embedding documents lessons store).bind fun result =>
      if guarded ∧ result.2 ≠ [] then some ⟨around,result.2,none,result.1⟩ else none
  | .review around ids reviewable => some ⟨around,ids,reviewable,store⟩
  | .propose _ | .approve _ _ | .reject _ => none
def Review.pending (review : Review) : List Candidate :=
  pendingCandidates settings review.around (review.store.candidates.filter (selected review.ids review.reviewable))
/-- The verifications of a review: in a database, each lesson counts as retrieved. -/
def Review.verified (database : Bool) (review : Review) : Option (Candidate → Bool) :=
  if database then some fun candidate => candidate.candidateId ≠ []
  else verifications settings review.around review.store.index (review.pending settings)
/-- The candidate is auto-approved. -/
def Review.Approves (database : Bool) (review : Review) (candidate : Candidate) : Prop :=
  candidate ∈ review.store.candidates ∧ selected review.ids review.reviewable candidate = true ∧
    ∃ retrieved, review.verified settings database = some retrieved ∧
      reviewedStatus settings review.around retrieved candidate = .autoApproved
/-- A search of the index with the lessons that are pending finds the lesson. -/
def Review.Finds (review : Review) (candidate : Candidate) : Prop :=
  ∃ index ∈ review.store.index, review.around.retrieved
    (writeApprovedItems settings.toSettings index ((review.pending settings).map (itemFromCandidate settings))) candidate = true

/-- What an auto-approved candidate is to be. -/
structure Sound (review : Review) (candidate : Candidate) : Prop where
  safe : learningSafetyRejection settings candidate.lesson = false
  noClaim : containsTradingPerformanceClaim settings candidate.lesson = false
  evidence : ∃ ref ∈ candidate.evidenceRefs, evidenceRefExists review.around ref = true
  kind : candidate.lessonKind ∈ autoPromotableLessonKinds
  confidence : candidate.confidence = text "high"
  judged : ∀ judge ∈ review.around.llmJudge, (judge candidate).unsafeClaims = false ∧ (judge candidate).generalizable = true ∧
    (judge candidate).requiresHumanReview = false
  retrieved : review.Finds settings candidate

/-- Whatever passes the gates has a high confidence and, in a database, would be found. -/
def Confident (database : Bool) (review : Review) : Prop :=
  ∀ candidate ∈ review.pending settings,
    if database then candidate.candidateId ≠ [] → candidate.confidence = text "high" ∧ review.Finds settings candidate
    else review.Finds settings candidate → candidate.confidence = text "high"

end

section
variable {settings : Settings} {around : Surroundings} {database : Bool} {review : Review} {candidate : Candidate}

theorem passed_gates (passed : guardedAutoPromotionReview settings around candidate = .retrievalPending) :
    learningSafetyRejection settings candidate.lesson = false ∧ containsTradingPerformanceClaim settings candidate.lesson = false ∧
      (∃ ref ∈ candidate.evidenceRefs, evidenceRefExists around ref = true) ∧ candidate.lessonKind ∈ autoPromotableLessonKinds ∧
      ∀ judge ∈ around.llmJudge, (judge candidate).unsafeClaims = false ∧ (judge candidate).generalizable = true ∧
        (judge candidate).requiresHumanReview = false := by
  unfold guardedAutoPromotionReview at passed
  split_ifs at passed with isUnsafe claims evidence kind strength
  refine ⟨by simpa using isUnsafe,by simpa using claims,by simpa using evidence,kind,?_⟩
  intro judge configured
  rw [Option.mem_def.mp configured] at passed
  dsimp only at passed
  split_ifs at passed with unsafeClaims approved
  exact ⟨by simpa using unsafeClaims,approved.1,by simpa using approved.2⟩

theorem approves_iff : review.Approves settings database candidate ↔ candidate ∈ review.pending settings ∧
    if database then candidate.candidateId ≠ [] else review.Finds settings candidate := by
  have pending : candidate ∈ review.pending settings ↔ (candidate ∈ review.store.candidates ∧
      selected review.ids review.reviewable candidate = true) ∧
      guardedAutoPromotionReview settings review.around candidate = .retrievalPending := by
    simp only [Review.pending,pendingCandidates,List.mem_filter,decide_eq_true_eq]
  have approves : review.Approves settings database candidate ↔ candidate ∈ review.pending settings ∧
      ∃ retrieved, review.verified settings database = some retrieved ∧ retrieved candidate = true := by
    rw [pending]
    constructor
    · rintro ⟨member,covered,retrieved,verified,approved⟩
      obtain ⟨passed,found⟩ := ApprovedItems.autoApproved_iff.mp approved
      exact ⟨⟨⟨member,covered⟩,passed⟩,retrieved,verified,found⟩
    · rintro ⟨⟨⟨member,covered⟩,passed⟩,retrieved,verified,found⟩
      exact ⟨member,covered,retrieved,verified,ApprovedItems.autoApproved_iff.mpr ⟨passed,found⟩⟩
  rw [approves]
  refine and_congr_right fun member => ?_
  cases database with
  | true => simp [Review.verified]
  | false =>
    have some : review.pending settings ≠ [] := List.ne_nil_of_mem member
    simp only [Review.verified,verifications,if_neg some,Review.Finds]
    cases review.store.index with
    | none => simp
    | some index => simp

theorem review_sound_iff (review : Review) :
    (∀ candidate, review.Approves settings database candidate → Sound settings review candidate) ↔ Confident settings database review := by
  constructor
  · intro sound candidate member
    cases database with
    | true =>
      intro named
      have is := sound candidate (approves_iff.mpr ⟨member,named⟩)
      exact ⟨is.confidence,is.retrieved⟩
    | false => exact fun found => (sound candidate (approves_iff.mpr ⟨member,found⟩)).confidence
  · intro confident candidate approved
    obtain ⟨member,found⟩ := approves_iff.mp approved
    have passed : guardedAutoPromotionReview settings review.around candidate = .retrievalPending :=
      of_decide_eq_true (List.mem_filter.mp member).2
    obtain ⟨safe,noClaim,evidence,kind,judged⟩ := passed_gates passed
    have high : candidate.confidence = text "high" ∧ review.Finds settings candidate := by
      have here := confident candidate member
      cases database with
      | true => exact here found
      | false => exact ⟨here found,found⟩
    exact ⟨safe,noClaim,evidence,kind,high.1,judged,high.2⟩

end

/-- The auto-approvals of an operation are sound exactly if whatever passes the gates of its review has a high
    confidence and, in a database, would be found. -/
theorem approvals_sound_iff (settings : Settings) (database : Bool) (store : Store) (label : Label) :
    (∀ review ∈ reviewOf settings store label, ∀ candidate, review.Approves settings database candidate → Sound settings review candidate) ↔
      ∀ review ∈ reviewOf settings store label, Confident settings database review :=
  forall₂_congr fun review _ => review_sound_iff review
/-- A run that teaches one lesson, with evidence of one case, of this confidence. -/
def learnOnce (confidence : String) : Label :=
  .learn plainSurroundings localEmbedding [] true
    [{ sampleLesson "a" "x" with
      proposal := { (sampleLesson "a" "x").proposal with confidence := text confidence } }]
def onceReviewed (confidence : String) : Option Review :=
  reviewOf plainSettings (initial plainSettings none) (learnOnce confidence)

/-- A lesson of medium confidence is approved. -/
theorem medium_approved : ¬ ∀ (settings : Settings) (database : Bool) (store : Store) (label : Label),
    ∀ review ∈ reviewOf settings store label, ∀ candidate, review.Approves settings database candidate →
      Sound settings review candidate := by
  intro all
  have medium : (onceReviewed "medium").map (fun review => ((review.pending plainSettings).map (·.confidence),
      review.store.index.isSome)) = some ([text "medium"],true) := by decide
  obtain ⟨review,reviews,same⟩ := Option.map_eq_some_iff.mp medium
  injection same with pending indexed
  obtain ⟨candidate,member,confidence⟩ := List.mem_map.mp (pending ▸ List.mem_singleton_self _)
  obtain ⟨index,isIndex⟩ := Option.isSome_iff_exists.mp indexed
  have around : review.around = plainSurroundings := by
    have made := reviews
    rw [onceReviewed,learnOnce,reviewOf] at made
    obtain ⟨result,_,made⟩ := Option.bind_eq_some_iff.mp made
    split_ifs at made
    cases made
    rfl
  have found : review.Finds plainSettings candidate := by
    refine ⟨index,isIndex,?_⟩
    rw [around]
    rfl
  have sound := all _ false _ _ review reviews candidate (approves_iff.mpr ⟨member,found⟩)
  have high := sound.confidence
  rw [confidence] at high
  revert high
  decide
end Codebot.AutoApprovals
