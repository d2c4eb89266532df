import Codebot.KnowledgeCandidates

/-!
Rejected candidates. A person or the policy rejects a candidate, and `approve_candidate` refuses it from then on. A
review does not ask for the status: one of all candidates, and the one at the end of a run that learns the lesson
again, covers the rejected ones too.
-/
namespace Codebot.RejectedCandidates
open Runs Texts KnowledgeCandidates List
open KnowledgeIndex (Embedding Item)

def Rejected (store : Store) (candidateId : Text) : Prop := (candidateId,.rejected) ∈ statuses store.candidates
/-- `propose_candidate` may find the candidate when the lesson is proposed. -/
def Finds (proposal : Proposal) (candidate : Candidate) : Prop :=
  proposal.dedupeKey ≠ [] ∧ sameLesson proposal.lesson proposal.dedupeKey candidate = true

/-- A review covers rejected candidates only where the policy rejects them again, and no lesson of a rejected candidate
    is learned, unless it is unsafe. -/
def Careful (settings : Settings) (store : Store) : Label → Prop
  | .review around chosen reviewable =>
    ∀ candidate ∈ store.candidates, candidate.status = .rejected → selected chosen reviewable candidate = true →
      guardedAutoPromotionReview settings around candidate = .autoRejected
  | .learn _ _ _ guarded lessons =>
    guarded = true → ∀ lesson ∈ lessons, learningSafetyRejection settings lesson.proposal.lesson = false →
      ∀ candidate ∈ store.candidates, candidate.status = .rejected → Finds lesson.proposal candidate →
        learningSafetyRejection settings candidate.lesson = true
  | .propose _ | .approve _ _ | .reject _ => True

instance (store : Store) (candidateId : Text) : Decidable (Rejected store candidateId) := List.instDecidableMemOfLawfulBEq _ _
instance (proposal : Proposal) (candidate : Candidate) : Decidable (Finds proposal candidate) :=
  inferInstanceAs (Decidable (_ ∧ _))

instance decidableCareful (settings : Settings) (store : Store) : ∀ label, Decidable (Careful settings store label)
  | .review around chosen reviewable =>
    inferInstanceAs (Decidable (∀ candidate ∈ store.candidates, candidate.status = .rejected →
      selected chosen reviewable candidate = true → guardedAutoPromotionReview settings around candidate = .autoRejected))
  | .learn _ _ _ guarded lessons =>
    inferInstanceAs (Decidable (guarded = true → ∀ lesson ∈ lessons,
      learningSafetyRejection settings lesson.proposal.lesson = false → ∀ candidate ∈ store.candidates,
        candidate.status = .rejected → Finds lesson.proposal candidate → learningSafetyRejection settings candidate.lesson = true))
  | .propose _ | .approve _ _ | .reject _ => .isTrue trivial

def StaysOut (candidateId : Text) (before after : Store) : Prop :=
  Rejected before candidateId → Rejected after candidateId ∧ after.added.count candidateId = before.added.count candidateId

variable {candidateId : Text}
theorem StaysOut.refl (store : Store) : StaysOut candidateId store store := fun rejected => ⟨rejected,rfl⟩
theorem StaysOut.trans {first second third : Store} (before : StaysOut candidateId first second)
    (after : StaysOut candidateId second third) : StaysOut candidateId first third := by
  intro rejected
  obtain ⟨still,count⟩ := before rejected
  obtain ⟨later,more⟩ := after still
  exact ⟨later,more.trans count⟩
theorem rejected_iff {store : Store} :
    Rejected store candidateId ↔ ∃ candidate ∈ store.candidates, candidate.candidateId = candidateId ∧ candidate.status = .rejected := by
  simp [Rejected,statuses]

theorem count_promoted {settings : Settings} {promoted : List Candidate} {before after : Store}
    (promotes : Promotes settings promoted before after)
    (apart : ∀ candidate ∈ promoted, candidate.candidateId ≠ candidateId) :
    after.added.count candidateId = before.added.count candidateId := by
  rw [promotes.added,count_append]
  have unseen : candidateId ∉ promoted.map (·.candidateId) := by
    intro member
    obtain ⟨candidate,isPromoted,same⟩ := mem_map.mp member
    exact apart candidate isPromoted same
  rw [count_eq_zero_of_not_mem unseen,Nat.add_zero]

/-- A rejected candidate with a safe lesson was there before and is none of the ids. -/
def Spared (settings : Settings) (before after : List Candidate) (found : List Text) : Prop :=
  ∀ candidate ∈ after, candidate.status = .rejected → learningSafetyRejection settings candidate.lesson = false →
    candidate ∈ before ∧ candidate.candidateId ∉ found
/-- A proposal finds no rejected candidate with a safe lesson. -/
def Misses (settings : Settings) (proposal : Proposal) (candidates : List Candidate) : Prop :=
  ∀ candidate ∈ candidates, candidate.status = .rejected → Finds proposal candidate →
    learningSafetyRejection settings candidate.lesson = true

section
variable {settings : Settings}
variable {found : List Text}

theorem Spared.trans {first second third : List Candidate} {more : List Text} (before : Spared settings first second found)
    (after : Spared settings second third more) : Spared settings first third (found ++ more) := by
  intro candidate member rejected safe
  obtain ⟨former,fresh⟩ := after candidate member rejected safe
  obtain ⟨start,apart⟩ := before candidate former rejected safe
  exact ⟨start,by simp [apart,fresh]⟩

variable {proposal : Proposal}

theorem Misses.spared {before after : List Candidate}
    (misses : Misses settings proposal before) (spared : Spared settings before after found) : Misses settings proposal after := by
  intro candidate member rejected finds
  cases safe : learningSafetyRejection settings candidate.lesson with
  | true => rfl
  | false =>
    have unsafeLesson := misses candidate (spared candidate member rejected safe).1 rejected finds
    exact safe.symm.trans unsafeLesson

variable {candidates : List Candidate}

theorem mem_replaceFirst {condition : Candidate → Bool} {change : Candidate → Candidate}
    {existing candidate : Candidate} (found : candidates.find? condition = some existing)
    (member : candidate ∈ replaceFirst condition change candidates) : candidate ∈ candidates ∨ candidate = change existing := by
  induction candidates with
  | nil => cases found
  | cons first rest ih =>
    rw [replaceFirst] at member
    cases meets : condition first with
    | true =>
      rw [find?_cons_of_pos meets] at found
      cases found
      rw [if_pos meets] at member
      rcases mem_cons.mp member with changed | later
      · exact .inr changed
      · exact .inl (mem_cons_of_mem _ later)
    | false =>
      rw [find?_cons_of_neg (by simp [meets])] at found
      rw [if_neg (by simp [meets])] at member
      rcases mem_cons.mp member with same | later
      · exact .inl (same ▸ mem_cons_self)
      · exact (ih found later).imp (mem_cons_of_mem _) id

variable {proposed : List Candidate × Text}

theorem spared_propose (distinct : (ids candidates).Nodup) (misses : Misses settings proposal candidates)
    (done : proposeCandidate settings proposal candidates = some proposed) :
    Spared settings candidates proposed.1 [proposed.2] := by
  intro candidate member rejected safe
  unfold proposeCandidate at done
  split at done
  · cases done
  split at done
  next existing found =>
    unfold matchingCandidate at found
    split_ifs at found with key
    cases done
    have finds : Finds proposal existing := ⟨key,find?_some found⟩
    have here := mem_of_find?_eq_some found
    have apart : existing.status = .rejected → learningSafetyRejection settings existing.lesson ≠ false := by
      intro also
      simp [misses existing here also finds]
    rcases mem_replaceFirst found member with before | rfl
    · refine ⟨before,?_⟩
      intro same
      cases same_candidate distinct before here (mem_singleton.mp same)
      exact apart rejected safe
    · exact absurd safe (apart rejected)
  next =>
    split_ifs at done with taken
    cases done
    rcases mem_append.mp member with before | new
    · refine ⟨before,?_⟩
      intro same
      exact taken (mem_map.mpr ⟨candidate,before,mem_singleton.mp same⟩)
    · cases mem_singleton.mp new
      -- a new candidate is rejected only for a blocked claim
      have blocked : settings.blockedClaims proposal.lesson = true := by
        unfold created at rejected
        dsimp only at rejected
        split_ifs at rejected with blocked
        exact blocked
      simp [created,learningSafetyRejection,blocked] at safe

theorem spared_lesson {lesson : Lesson}
    (distinct : (ids candidates).Nodup) (misses : Misses settings lesson.proposal candidates)
    (done : proposeLesson settings lesson candidates = some proposed) : Spared settings candidates proposed.1 [proposed.2] := by
  obtain ⟨first,isFirst,rest⟩ := Option.bind_eq_some_iff.mp done
  have start := spared_propose distinct misses isFirst
  have apart := (proposeCandidate_extends isFirst).distinct distinct
  generalize lesson.laterRefs = refs at rest
  clear isFirst
  induction refs generalizing first with
  | nil =>
    cases rest
    exact start
  | cons ref refs ih =>
    rw [foldlM_cons] at rest
    obtain ⟨next,isNext,rest⟩ := Option.bind_eq_some_iff.mp rest
    have stillMisses : Misses settings { lesson.proposal with evidenceRef := ref, learning := none } first.1 := misses.spared start
    have again : Spared settings first.1 next.1 [next.2] := spared_propose apart stillMisses isNext
    refine ih next ?_ ((proposeCandidate_extends isNext).distinct apart) rest
    intro candidate member rejected safe
    obtain ⟨former,fresh⟩ := again candidate member rejected safe
    exact ⟨(start candidate former rejected safe).1,fresh⟩

theorem spared_lessons {lessons : List Lesson} {proposed : List Candidate × List Text}
    (distinct : (ids candidates).Nodup)
    (misses : ∀ lesson ∈ lessons, learningSafetyRejection settings lesson.proposal.lesson = false →
      Misses settings lesson.proposal candidates)
    (done : proposeLessons settings lessons candidates = some proposed) : Spared settings candidates proposed.1 proposed.2 := by
  induction lessons generalizing candidates proposed with
  | nil =>
    cases done
    exact fun _ member _ _ => ⟨member,not_mem_nil⟩
  | cons lesson rest ih =>
    rw [proposeLessons] at done
    have later := fun other member => misses other (mem_cons_of_mem lesson member)
    split_ifs at done with isUnsafe
    · exact ih distinct later done
    · obtain ⟨first,isFirst,more⟩ := Option.bind_eq_some_iff.mp done
      obtain ⟨last,isLast,same⟩ := Option.map_eq_some_iff.mp more
      have start := spared_lesson distinct (misses lesson mem_cons_self (by simpa using isUnsafe)) isFirst
      have others : Spared settings first.1 last.1 last.2 :=
        ih ((proposeLesson_extends isFirst).distinct distinct) (fun other member safe => (later other member safe).spared start) isLast
      rw [← same]
      exact start.trans others

variable {next : Store}

theorem staysOut_review {around : Surroundings} {chosen : List Text} {reviewable : Option (List Status)} {store : Store}
    (distinct : (ids store.candidates).Nodup)
    (upheld : ∀ candidate ∈ store.candidates, candidate.status = .rejected → selected chosen reviewable candidate = true →
      guardedAutoPromotionReview settings around candidate = .autoRejected)
    (done : reviewCandidates settings around chosen reviewable store = some next) (candidateId : Text) :
    StaysOut candidateId store next := by
  intro rejected
  obtain ⟨candidate,member,same,isRejected⟩ := rejected_iff.mp rejected
  obtain ⟨retrieved,-,candidates,promotes⟩ := reviewCandidates_spec done
  have status : selected chosen reviewable candidate = true → reviewedStatus settings around retrieved candidate = .rejected := by
    intro chosen
    rw [reviewedStatus,upheld candidate member isRejected chosen]
  constructor
  · refine rejected_iff.mpr ⟨_,candidates ▸ mem_map_of_mem member,?_⟩
    unfold reviewed
    split_ifs with chosen
    · exact ⟨same,status chosen⟩
    · exact ⟨same,isRejected⟩
  · refine count_promoted promotes ?_
    intro other isPromoted sameId
    obtain ⟨isSelected,approved⟩ := mem_filter.mp isPromoted
    obtain ⟨here,chosen⟩ := mem_filter.mp isSelected
    cases same_candidate distinct here member (sameId.trans same.symm)
    simp [status chosen] at approved

theorem staysOut_step (candidateId : Text) {s : Store} {label : Label} (distinct : (ids s.candidates).Nodup)
    (careful : Careful settings s label) (stepped : step settings s label = some next) : StaysOut candidateId s next := by
  have extended : ∀ {after : Store}, Extends s.candidates after.candidates → after.added = s.added → StaysOut candidateId s after := by
    intro after extended added rejected
    obtain ⟨new,same,-⟩ := extended.statuses
    refine ⟨?_,by rw [added]⟩
    rw [Rejected,same]
    exact mem_append_left new rejected
  cases label with
  | propose proposal =>
    obtain ⟨proposed,done,rfl⟩ := Option.map_eq_some_iff.mp stepped
    exact extended (proposeCandidate_extends done) rfl
  | learn around embedding documents guarded lessons =>
    obtain ⟨result,done,more⟩ := Option.bind_eq_some_iff.mp stepped
    obtain ⟨proposed,promotes⟩ := learned_spec done
    have proposals := proposeLessons_extends proposed
    have first : StaysOut candidateId s result.1 := extended proposals (by simpa using promotes.added)
    split at more
    next reviews =>
      have spared := spared_lessons distinct (careful reviews.1) proposed
      refine first.trans (staysOut_review (proposals.distinct distinct) ?_ more candidateId)
      intro candidate member rejected chosen
      cases safe : learningSafetyRejection settings candidate.lesson with
      | true => rw [guardedAutoPromotionReview,if_pos safe]
      | false =>
        have apart := (spared candidate member rejected safe).2
        simp [selected,reviews.2,apart] at chosen
    next =>
      cases more
      exact first
  | review around chosen reviewable => exact staysOut_review distinct careful stepped candidateId
  | approve approvedId approvedStatus =>
    obtain ⟨candidate,member,isId,live,candidates,promotes⟩ := approveCandidate_spec stepped
    intro rejected
    obtain ⟨other,here,same,isRejected⟩ := rejected_iff.mp rejected
    have apart : candidateId ≠ approvedId := by
      rintro rfl
      cases same_candidate distinct member here (isId.trans same.symm)
      exact live isRejected
    constructor
    · rw [replaceFirst_id distinct] at candidates
      refine rejected_iff.mpr ⟨_,candidates ▸ mem_map_of_mem here,?_⟩
      rw [if_neg (same ▸ apart)]
      exact ⟨same,isRejected⟩
    · refine count_promoted promotes ?_
      intro promoted isPromoted sameId
      cases mem_singleton.mp isPromoted
      exact apart (sameId.symm.trans isId)
  | reject rejectedId =>
    obtain ⟨-,rfl⟩ := rejectCandidate_spec stepped
    intro rejected
    obtain ⟨other,here,same,isRejected⟩ := rejected_iff.mp rejected
    refine ⟨rejected_iff.mpr ⟨_,replaceFirst_id distinct rejectedId ▸ mem_map_of_mem here,?_⟩,rfl⟩
    split_ifs
    · exact ⟨same,rfl⟩
    · exact ⟨same,isRejected⟩
end

/-- A rejected candidate is not approved later, and no item is added for it, in a run whose reviews cover none that the
    policy would not reject again. -/
theorem stays_out (settings : Settings) (built : Option (Embedding × List (Text × Item))) {before after : List Label}
    {mid last : Store} {candidateId : Text} (reached : run (step settings) (initial settings built) before = some mid)
    (rejected : Rejected mid candidateId) (careful : Meets (step settings) (Careful settings) mid after)
    (ran : run (step settings) mid after = some last) :
    (∀ candidate ∈ last.candidates, candidate.candidateId = candidateId →
        candidate.status ≠ .approved ∧ candidate.status ≠ .autoApproved) ∧
      last.added.count candidateId = mid.added.count candidateId := by
  have kept : ∀ s label t, (ids s.candidates).Nodup → step settings s label = some t → (ids t.candidates).Nodup :=
    fun _ _ _ distinct stepped => distinct_step distinct stepped
  have start : (ids (initial settings built).candidates).Nodup := nodup_nil
  have distinct : (ids mid.candidates).Nodup := reachable_keeps kept start ⟨before,reached⟩
  have keeps : ∀ s label t, (ids s.candidates).Nodup → Careful settings s label → step settings s label = some t →
      (ids t.candidates).Nodup := fun s label t here _ stepped => kept s label t here stepped
  have related : StaysOut candidateId mid last :=
    run_relates keeps StaysOut.refl StaysOut.trans (fun _ _ _ here isCareful stepped => staysOut_step candidateId here isCareful stepped)
      distinct careful ran
  have stillDistinct := run_keeps keeps distinct careful ran
  obtain ⟨still,count⟩ := related rejected
  refine ⟨?_,count⟩
  intro candidate member same
  obtain ⟨other,here,alsoSame,isRejected⟩ := rejected_iff.mp still
  cases same_candidate stillDistinct member here (same.trans alsoSame.symm)
  simp [isRejected]

def plainSettings : Settings where
  unicode := ascii
  chunksForItem _ _ := []
  blockedClaims _ := false
  inferDomainTags _ := [text "general"]
  inferPlatformTags _ := [text "pine_v6"]
def plainSurroundings : Surroundings := ⟨fun _ => true,none,fun _ _ => true⟩
def localEmbedding : Embedding := ⟨text "m",text "local"⟩

/-- A sample lesson of a run, with an id for a candidate that is new. -/
def sampleLesson (newId lesson : String) : Lesson where
  proposal :=
    { newId := text newId
      lesson := text lesson
      evidenceRef := text "r"
      candidateType := text "procedural"
      dedupeKey := text lesson
      lessonKind := text "context_budget"
      confidence := text "high"
      domainTags := []
      marketTags := []
      platformTags := []
      stages := []
      sourceUri := []
      trustLevel := text "agent_reviewed"
      learning := some ⟨1⟩ }
  laterRefs := []

def learns (guarded : Bool) (lessons : List Lesson) : Label := .learn plainSurroundings localEmbedding [] guarded lessons

theorem stays_out_review : ∃ mid last : Store, (∀ candidate ∈ last.candidates, candidate.candidateId = text "a" →
      candidate.status ≠ .approved ∧ candidate.status ≠ .autoApproved) ∧
    last.added.count (text "a") = mid.added.count (text "a") ∧ last.added = [text "b",text "b"] := by
  let before := [learns false [sampleLesson "a" "x",sampleLesson "b" "y"],.reject (text "a")]
  let after := [.review plainSurroundings [] (some [.needsReview,.proposed]),learns true [sampleLesson "c" "y"]]
  let mid := (run (step plainSettings) (initial plainSettings none) before).get (by decide)
  let last := (run (step plainSettings) mid after).get (by decide)
  have out := @stays_out plainSettings none before after mid last (text "a") (by rw [Option.some_get]) (by decide) (by decide)
    (by rw [Option.some_get])
  exact ⟨mid,last,out.1,out.2,by decide⟩

/-- A person rejects a lesson, a later run learns it again and approves it. -/
theorem learned_again : ¬ ∀ (settings : Settings) (built : Option (Embedding × List (Text × Item))) (before after : List Label)
    (mid last : Store) (candidateId : Text), run (step settings) (initial settings built) before = some mid →
    Rejected mid candidateId → run (step settings) mid after = some last →
      (∀ candidate ∈ last.candidates, candidate.candidateId = candidateId →
        candidate.status ≠ .approved ∧ candidate.status ≠ .autoApproved) ∧
      last.added.count candidateId = mid.added.count candidateId := by
  intro all
  let before := [learns false [sampleLesson "a" "x"],.reject (text "a")]
  let after := [learns true [sampleLesson "b" "x"]]
  let mid := (run (step plainSettings) (initial plainSettings none) before).get (by decide)
  let last := (run (step plainSettings) mid after).get (by decide)
  have out := (all plainSettings none before after mid last (text "a") (by rw [Option.some_get]) (by decide)
    (by rw [Option.some_get])).2
  exact absurd out (by decide)
end Codebot.RejectedCandidates
