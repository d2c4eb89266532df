import Codebot.RejectedCandidates
import Codebot.RunLessons
import Mathlib.Data.List.Find
import Mathlib.Data.List.Induction

/-!
What a run teaches. `learn_from_run` proposes the lesson of a group for each piece of its evidence, and a proposal
updates the first stored candidate of its lesson. The evidence is united, the stages are replaced
(`nothing_lost_iff`).
-/
namespace Codebot.LearnedLessons
open Runs Texts KnowledgeCandidates RunLessons List
open KnowledgeIndex (Embedding Item dedupeStrings knowledgeTypes)

section
variable (settings : LessonSettings)

/-- The operations as the repository calls them: only `learn_from_run` proposes with a key. -/
inductive Label
  | propose (proposal : Proposal)
  | learn (around : Surroundings) (embedding : Embedding) (documents : List (Text × Item)) (guarded : Bool) (fresh : Text → Text)
    (findings : List Finding)
  | review (around : Surroundings) (ids : List Text) (reviewable : Option (List Status))
  | approve (candidateId : Text) (approvedStatus : Status)
  | reject (candidateId : Text)

/-- `learn_from_run` on what the reports find. -/
def learnFromArtifacts (around : Surroundings) (embedding : Embedding) (documents : List (Text × Item)) (guarded : Bool)
    (fresh : Text → Text) (findings : List Finding) (store : Store) : Option Store :=
  learnFromRun settings.candidates around embedding documents guarded (runLessons settings fresh findings) store
def step (store : Store) : Label → Option Store
  | .propose proposal => KnowledgeCandidates.step settings.candidates store (.propose { proposal with dedupeKey := [] })
  | .learn around embedding documents guarded fresh findings =>
    learnFromArtifacts settings around embedding documents guarded fresh findings store
  | .review around ids reviewable => reviewCandidates settings.candidates around ids reviewable store
  | .approve candidateId approvedStatus => approveCandidate settings.candidates candidateId approvedStatus store
  | .reject candidateId => rejectCandidate candidateId store

/-- A stored candidate has what an extracted one has. -/
structure Has (stored : Candidate) (extracted : Extracted) : Prop where
  lesson : stored.lesson = extracted.lesson
  evidence : extracted.evidenceRefs ⊆ stored.evidenceRefs
  stages : extracted.stages ⊆ stored.stages
  domainTags : extracted.domainTags ⊆ stored.domainTags
  marketTags : extracted.marketTags ⊆ stored.marketTags
  platformTags : extracted.platformTags ⊆ stored.platformTags

def traces (candidates : List Candidate) : List (Text × List Text) :=
  candidates.map fun candidate => (candidate.candidateId,candidate.evidenceRefs)
/-- After a run was learned, the store has all that was extracted, and learning the run again adds nothing. -/
structure Learned (findings : List Finding) (store : Store) : Prop where
  kept : ∀ extracted ∈ learningCandidatesFromArtifacts settings findings, ∃ stored ∈ store.candidates, Has stored extracted
  again : ∀ around embedding documents guarded fresh after,
    learnFromArtifacts settings around embedding documents guarded fresh findings store = some after →
      traces after.candidates = traces store.candidates
def ofLesson (lesson : Text) (candidates : List Candidate) : List Candidate := candidates.filter (·.lesson = lesson)
def lastStages (groups : List Extracted) : List Text := groups.foldl (fun stages group => givenAll group.stages stages) []
def groupsOf (findings : List Finding) (lesson : Text) : List Extracted := (groups settings findings).filter (·.lesson = lesson)
/-- The candidates of a lesson that learning it does not update. -/
def untouched (lesson : Text) (candidates : List Candidate) : List Candidate :=
  if learningSafetyRejection settings.candidates lesson then ofLesson lesson candidates else (ofLesson lesson candidates).tail
/-- The lesson is safe and the last group of the lesson has the stages, or a candidate that is not updated
    has everything already. -/
def Kept (findings : List Finding) (store : Store) (extracted : Extracted) : Prop :=
  (learningSafetyRejection settings.candidates extracted.lesson = false ∧
    extracted.stages ⊆ lastStages (groupsOf settings findings extracted.lesson)) ∨
  ∃ stored ∈ untouched settings extracted.lesson store.candidates, Has stored extracted

end

section
variable {settings : LessonSettings}

def KeyOf (settings : LessonSettings) (topic : Topic) (key : Text) : Prop :=
  ∃ payload, key = settings.digest payload ∧ payload.lesson = normalizeLearningText settings.unicode topic.lesson
def Keyed (settings : LessonSettings) (candidates : List Candidate) : Prop :=
  ∀ candidate ∈ candidates, ∀ topic, KeyOf settings topic candidate.dedupeKey → candidate.lesson = topic.lesson

variable {key : Text}
theorem keyOf_injective {one other : Topic} (isOne : KeyOf settings one key) (isOther : KeyOf settings other key) : one = other := by
  obtain ⟨payload,rfl,lesson⟩ := isOne
  obtain ⟨also,same,alsoLesson⟩ := isOther
  cases settings.digest_injective same
  exact lesson_injective (lesson.symm.trans alsoLesson)

variable {topic : Topic}
theorem keyOf_some (isKey : KeyOf settings topic key) : key ≠ [] := by
  obtain ⟨payload,rfl,_⟩ := isKey
  exact settings.digest_some payload

/-- A proposal of a topic. -/
structure Teaches (settings : LessonSettings) (topic : Topic) (proposal : Proposal) : Prop where
  lesson : proposal.lesson = topic.lesson
  key : KeyOf settings topic proposal.dedupeKey
  domainTags : proposal.domainTags = dedupeStrings settings.unicode (givenAll topic.domainTags [text "trading"])
  marketTags : proposal.marketTags = dedupeStrings settings.unicode [text "general"]
  platformTags : proposal.platformTags = dedupeStrings settings.unicode (givenAll topic.platformTags [text "general"])
  stages : ∀ stage ∈ proposal.stages, Stripped settings.unicode stage

variable {proposal : Proposal}
variable {candidates : List Candidate}

theorem sameLesson_iff (teaches : Teaches settings topic proposal)
    (keyed : Keyed settings candidates) : ∀ candidate ∈ candidates,
      (sameLesson proposal.lesson proposal.dedupeKey candidate = true ↔ candidate.lesson = proposal.lesson) := by
  intro candidate member
  simp only [sameLesson,decide_eq_true_eq]
  constructor
  · rintro (⟨_,same⟩ | same)
    · rw [teaches.lesson]
      exact keyed candidate member topic (same ▸ teaches.key)
    · exact same
  · exact .inr

/-- What a proposal makes of the candidates of its lesson: the first one is updated. -/
def receive (settings : Settings) : List Candidate → Proposal → List Candidate
  | [], proposal => [created settings proposal]
  | candidate :: rest, proposal => updated settings proposal candidate :: rest
def Holds (proposal : Proposal) (candidates : List Candidate) : Prop :=
  ∃ candidate ∈ (ofLesson proposal.lesson candidates).head?, proposal.evidenceRef ∈ candidate.evidenceRefs
/-- What proposals make of the candidates. -/
structure Follows (settings : LessonSettings) (proposals : List Proposal) (before after : List Candidate) : Prop where
  keyed : Keyed settings after
  ofLesson : ∀ lesson, ofLesson lesson after =
    (proposals.filter (·.lesson = lesson)).foldl (receive settings.candidates) (ofLesson lesson before)
  traces : (∀ proposal ∈ proposals, Holds proposal before) → traces after = traces before

variable {condition : Candidate → Bool}
variable {lesson : Text}
theorem find_head (same : ∀ candidate ∈ candidates, condition candidate = true ↔ candidate.lesson = lesson) :
    candidates.find? condition = (ofLesson lesson candidates).head? := by
  rw [ofLesson,head?_filter]
  refine find?_congr fun candidate member => ?_
  rw [Bool.eq_iff_iff,decide_eq_true_iff]
  exact same candidate member

variable {change : Candidate → Candidate}

theorem ofLesson_replaceFirst
    (same : ∀ candidate ∈ candidates, condition candidate = true ↔ candidate.lesson = lesson)
    (keeps : ∀ candidate, (change candidate).lesson = candidate.lesson) (other : Text) :
    ofLesson other (replaceFirst condition change candidates) =
      if other = lesson then (match ofLesson lesson candidates with | [] => [] | first :: rest => change first :: rest)
      else ofLesson other candidates := by
  induction candidates with
  | nil => split_ifs <;> rfl
  | cons candidate rest ih =>
    have later := ih fun candidate member => same candidate (mem_cons_of_mem _ member)
    have here := same candidate mem_cons_self
    rw [replaceFirst]
    by_cases isHere : candidate.lesson = lesson
    · rw [if_pos (here.mpr isHere)]
      split_ifs with isLesson
      · simp [ofLesson,isLesson,isHere,keeps]
      · have apart : ¬ candidate.lesson = other := fun same => isLesson (same.symm.trans isHere)
        simp [ofLesson,apart,keeps]
    · rw [if_neg fun found => isHere (here.mp found)]
      split_ifs at later ⊢ with isLesson
      · cases isLesson
        simp only [ofLesson] at later ⊢
        rw [filter_cons_of_neg (by simpa using isHere),later,filter_cons_of_neg (by simpa using isHere)]
      · simp only [ofLesson] at later ⊢
        rw [filter_cons,filter_cons,later]

theorem traces_replaceFirst
    (keeps : ∀ candidate ∈ candidates.find? condition, (change candidate).candidateId = candidate.candidateId ∧
      (change candidate).evidenceRefs = candidate.evidenceRefs) :
    traces (replaceFirst condition change candidates) = traces candidates := by
  induction candidates with
  | nil => rfl
  | cons candidate rest ih =>
    rw [replaceFirst]
    split_ifs with meets
    · obtain ⟨id,evidence⟩ := keeps candidate (find?_cons_of_pos meets)
      simp [traces,id,evidence]
    · have later := ih fun other found => keeps other ((find?_cons_of_neg meets).trans found)
      simpa [traces] using later

variable {proposed : List Candidate × Text}

theorem follows_propose (teaches : Teaches settings topic proposal) (keyed : Keyed settings candidates)
    (done : proposeCandidate settings.candidates proposal candidates = some proposed) :
    Follows settings [proposal] candidates proposed.1 := by
  have same := sameLesson_iff teaches keyed
  have taught : ∀ candidate : Candidate, candidate.lesson = proposal.lesson → candidate.dedupeKey = proposal.dedupeKey →
      ∀ topic, KeyOf settings topic candidate.dedupeKey → candidate.lesson = topic.lesson := by
    intro candidate lesson key other isKey
    rw [key] at isKey
    rw [lesson,teaches.lesson,keyOf_injective teaches.key isKey]
  have one : ∀ lesson start, ([proposal].filter (·.lesson = lesson)).foldl (receive settings.candidates) start =
      if lesson = proposal.lesson then receive settings.candidates start proposal else start := by
    intro lesson start
    split_ifs with isLesson
    · simp [isLesson]
    · have apart : ¬ proposal.lesson = lesson := fun same => isLesson same.symm
      simp [apart]
  have find := find_head same
  unfold proposeCandidate matchingCandidate at done
  rw [if_neg (keyOf_some teaches.key)] at done
  split at done
  · cases done
  split at done
  next existing found =>
    cases done
    refine ⟨?_,fun lesson => ?_,fun holds => ?_⟩
    · intro candidate member
      rcases RejectedCandidates.mem_replaceFirst found member with former | rfl
      · exact keyed candidate former
      · exact taught _ ((same existing (mem_of_find?_eq_some found)).mp (find?_some found)) rfl
    · rw [one]
      refine (ofLesson_replaceFirst same (fun candidate => (rfl : (updated settings.candidates proposal candidate).lesson = _)) lesson).trans ?_
      split_ifs with isLesson
      · subst isLesson
        rw [found] at find
        cases stored : ofLesson proposal.lesson candidates with
        | nil =>
          rw [stored] at find
          cases find
        | cons first rest => rfl
      · rfl
    · refine traces_replaceFirst fun candidate first => ⟨rfl,?_⟩
      obtain ⟨head,isHead,evidence⟩ := holds proposal (mem_singleton_self _)
      rw [find,Option.mem_def.mp isHead] at first
      cases first
      exact if_pos evidence
  next found =>
    rw [found] at find
    have nothing : ofLesson proposal.lesson candidates = [] := head?_eq_none_iff.mp find.symm
    split at done
    · cases done
    cases done
    refine ⟨?_,fun lesson => ?_,fun holds => ?_⟩
    · intro candidate member
      rcases mem_append.mp member with former | new
      · exact keyed candidate former
      · cases mem_singleton.mp new
        exact taught _ rfl rfl
    · rw [one]
      simp only [ofLesson,filter_append] at nothing ⊢
      split_ifs with isLesson
      · subst isLesson
        rw [nothing]
        simp [receive,created]
      · have apart : ¬ proposal.lesson = lesson := fun same => isLesson same.symm
        simp [created,apart]
    · obtain ⟨head,isHead,_⟩ := holds proposal (mem_singleton_self _)
      rw [nothing] at isHead
      cases isHead

theorem receive_head {settings : Settings} {start : List Candidate} {candidate : Candidate} (isHead : candidate ∈ start.head?)
    (proposals : List Proposal) :
    ∃ later ∈ (proposals.foldl (receive settings) start).head?, candidate.evidenceRefs ⊆ later.evidenceRefs := by
  induction proposals generalizing start candidate with
  | nil => exact ⟨candidate,isHead,List.Subset.refl _⟩
  | cons proposal rest ih =>
    cases start with
    | nil => cases isHead
    | cons first others =>
      cases isHead
      obtain ⟨later,isLater,evidence⟩ := ih (head?_cons : _ = some (updated settings proposal candidate))
      refine ⟨later,isLater,fun ref member => evidence ?_⟩
      dsimp only [updated]
      split_ifs
      · exact member
      · exact mem_append_left _ member

theorem follows_nil (keyed : Keyed settings candidates) : Follows settings [] candidates candidates :=
  ⟨keyed,fun _ => rfl,fun _ => rfl⟩

variable {after before : List Candidate}

theorem Follows.trans {early late : List Proposal} {middle : List Candidate} (one : Follows settings early before middle)
    (two : Follows settings late middle after) : Follows settings (early ++ late) before after where
  keyed := two.keyed
  ofLesson lesson := by rw [two.ofLesson,one.ofLesson,filter_append,foldl_append]
  traces holds := by
    have still : ∀ proposal ∈ late, Holds proposal middle := by
      intro proposal member
      obtain ⟨candidate,isHead,evidence⟩ := holds proposal (mem_append_right _ member)
      obtain ⟨later,isLater,kept⟩ := @receive_head settings.candidates _ _ isHead (early.filter (·.lesson = proposal.lesson))
      exact ⟨later,by rw [one.ofLesson]; exact isLater,kept evidence⟩
    exact (two.traces still).trans (one.traces fun proposal member => holds proposal (mem_append_left _ member))

/-- The proposals of a group, one for each piece of its evidence. -/
def proposalsOf (fresh : Text → Text) (group : Extracted) : List Proposal :=
  (lessonOf fresh group).proposal ::
    group.evidenceRefs.tail.map fun ref => { (lessonOf fresh group).proposal with evidenceRef := ref, learning := none }

theorem teaches_group {fresh : Text → Text} {group candidate : Extracted} (drawn : Drawn settings candidate)
    (same : bare group = bare candidate) : ∃ topic : Topic, group.lesson = topic.lesson ∧
      ∀ proposal ∈ proposalsOf fresh group, Teaches settings topic proposal := by
  obtain ⟨topic,ref,caseId,stage,failureClass,check,repaired,_,rfl⟩ := drawn
  have teaches : ∀ {proposal : Proposal}, proposal.lesson = group.lesson → proposal.dedupeKey = group.dedupeKey →
      proposal.domainTags = group.domainTags → proposal.marketTags = group.marketTags → proposal.platformTags = group.platformTags →
      proposal.stages = group.stages → Teaches settings topic proposal := by
    intro proposal lesson key domainTags marketTags platformTags stages
    injection same with _ isLesson isKey _ _ _ _ _ isDomain isMarket isPlatform isStages
    refine ⟨lesson.trans isLesson,⟨_,key.trans isKey,rfl⟩,domainTags.trans isDomain,marketTags.trans isMarket,
      platformTags.trans isPlatform,?_⟩
    rw [stages,isStages]
    exact stripped_dedupe
  refine ⟨topic,congrArg Extracted.lesson same,?_⟩
  intro proposal member
  rcases mem_cons.mp member with rfl | later
  · exact teaches rfl rfl rfl rfl rfl rfl
  · obtain ⟨ref,_,rfl⟩ := mem_map.mp later
    exact teaches rfl rfl rfl rfl rfl rfl

variable {fresh : Text → Text} {group : Extracted}

theorem follows_lesson (teaches : ∀ proposal ∈ proposalsOf fresh group, Teaches settings topic proposal)
    (keyed : Keyed settings candidates) (done : proposeLesson settings.candidates (lessonOf fresh group) candidates = some proposed) :
    Follows settings (proposalsOf fresh group) candidates proposed.1 := by
  obtain ⟨first,isFirst,later⟩ := Option.bind_eq_some_iff.mp done
  obtain ⟨isTaught,areTaught⟩ := forall_mem_cons.mp teaches
  have start := follows_propose isTaught keyed isFirst
  have rest : ∀ (refs : List Text) (mid : List Candidate × Text), Keyed settings mid.1 →
      (∀ proposal ∈ refs.map fun ref => { (lessonOf fresh group).proposal with evidenceRef := ref, learning := none },
        Teaches settings topic proposal) →
      refs.foldlM (fun proposed ref => proposeCandidate settings.candidates
        { (lessonOf fresh group).proposal with evidenceRef := ref, learning := none } proposed.1) mid = some proposed →
      Follows settings (refs.map fun ref => { (lessonOf fresh group).proposal with evidenceRef := ref, learning := none }) mid.1 proposed.1 := by
    intro refs
    induction refs with
    | nil =>
      intro mid keyed _ ran
      cases ran
      exact follows_nil keyed
    | cons ref refs ih =>
      intro mid keyed taught ran
      obtain ⟨next,isNext,ran⟩ := Option.bind_eq_some_iff.mp (foldlM_cons.symm.trans ran)
      obtain ⟨isTaught,areTaught⟩ := forall_mem_cons.mp taught
      have stepped := follows_propose isTaught keyed isNext
      exact stepped.trans (ih next stepped.keyed areTaught ran)
  exact start.trans (rest _ first start.keyed areTaught later)

variable {found : List Extracted}

theorem follows_lessons
    {proposed : List Candidate × List Text} (drawn : ∀ group ∈ found, ∃ candidate, Drawn settings candidate ∧ bare group = bare candidate)
    (keyed : Keyed settings candidates) (done : proposeLessons settings.candidates (found.map (lessonOf fresh)) candidates = some proposed) :
    Follows settings ((found.filter fun group => !learningSafetyRejection settings.candidates group.lesson).flatMap (proposalsOf fresh))
      candidates proposed.1 := by
  induction found generalizing candidates proposed with
  | nil =>
    cases done
    exact follows_nil keyed
  | cons group rest ih =>
    obtain ⟨⟨candidate,isDrawn,same⟩,others⟩ := forall_mem_cons.mp drawn
    rw [map_cons,proposeLessons] at done
    split_ifs at done with isUnsafe
    · rw [filter_cons_of_neg (by simpa [lessonOf] using isUnsafe)]
      exact ih others keyed done
    · obtain ⟨first,isFirst,later⟩ := Option.bind_eq_some_iff.mp done
      obtain ⟨last,isLast,rfl⟩ := Option.map_eq_some_iff.mp later
      obtain ⟨topic,_,teaches⟩ := @teaches_group settings fresh group candidate isDrawn same
      have stepped := follows_lesson teaches keyed isFirst
      rw [filter_cons_of_pos (by simpa [lessonOf] using isUnsafe),flatMap_cons]
      have continued := ih others stepped.keyed isLast
      exact stepped.trans continued

def lastOf (proposals : List Proposal) : List Text := proposals.foldl (fun stages proposal => givenAll proposal.stages stages) []

/-- A candidate has what was proposed of its topic. -/
structure Full (topic : Topic) (proposals : List Proposal) (head : Candidate) : Prop where
  lesson : head.lesson = topic.lesson
  evidence : ∀ proposal ∈ proposals, proposal.evidenceRef ∈ head.evidenceRefs
  domainTags : ∀ proposal ∈ proposals, proposal.domainTags ⊆ head.domainTags
  marketTags : ∀ proposal ∈ proposals, proposal.marketTags ⊆ head.marketTags
  platformTags : ∀ proposal ∈ proposals, proposal.platformTags ⊆ head.platformTags
  stages : lastOf proposals ≠ [] → ∀ stage, stage ∈ head.stages ↔ stage ∈ lastOf proposals

theorem subset_given {unicode : Unicode} (values former : List Text) :
    dedupeStrings unicode values ⊆ dedupeStrings unicode (givenAll (dedupeStrings unicode values) former) := by
  intro t member
  rw [givenAll,if_neg (ne_nil_of_mem member)]
  exact (mem_dedupe_stripped stripped_dedupe).mpr member
theorem lastOf_append (proposals : List Proposal) (proposal : Proposal) :
    lastOf (proposals ++ [proposal]) = givenAll proposal.stages (lastOf proposals) := by
  rw [lastOf,foldl_append]
  rfl

variable {proposals : List Proposal}

theorem lastOf_stripped (teaches : ∀ proposal ∈ proposals, Teaches settings topic proposal) :
    ∀ stage ∈ lastOf proposals, Stripped settings.unicode stage := by
  induction proposals using List.reverseRecOn with
  | nil => exact nofun
  | append_singleton proposals proposal ih =>
    rw [lastOf_append,givenAll]
    split_ifs
    · exact ih fun other member => teaches other (mem_append_left _ member)
    · exact (teaches proposal (mem_append_right _ mem_cons_self)).stages

theorem full_updated {candidate : Candidate}
    (taught : ∀ proposal ∈ proposals, Teaches settings topic proposal) (teaches : Teaches settings topic proposal)
    (full : Full topic proposals candidate) : Full topic (proposals ++ [proposal]) (updated settings.candidates proposal candidate) := by
  have all : ∀ {has : Proposal → Prop}, has proposal → (∀ other, Teaches settings topic other → (has other ↔ has proposal)) →
      ∀ other ∈ proposals ++ [proposal], has other := by
    intro has here same other member
    rcases mem_append.mp member with former | last
    · exact (same other (taught other former)).mpr here
    · exact mem_singleton.mp last ▸ here
  refine ⟨full.lesson,?_,all ?_ ?_,all ?_ ?_,all ?_ ?_,?_⟩
  · intro other member
    dsimp only [updated]
    rcases mem_append.mp member with former | last
    · have kept := full.evidence other former
      split_ifs
      · exact kept
      · exact mem_append_left _ kept
    · rw [mem_singleton.mp last]
      split_ifs with known
      · exact known
      · exact mem_append_right _ (mem_singleton_self _)
  · dsimp only [updated]
    rw [teaches.domainTags]
    exact subset_given _ _
  · intro other also
    rw [also.domainTags,teaches.domainTags]
  · dsimp only [updated]
    rw [teaches.marketTags]
    exact subset_given _ _
  · intro other also
    rw [also.marketTags,teaches.marketTags]
  · dsimp only [updated]
    rw [teaches.platformTags]
    exact subset_given _ _
  · intro other also
    rw [also.platformTags,teaches.platformTags]
  · rw [lastOf_append]
    dsimp only [updated]
    intro some stage
    by_cases none : proposal.stages = []
    · rw [givenAll,if_pos none] at some
      rw [givenAll,if_pos none,givenAll,if_pos none]
      have same := full.stages some
      rw [mem_dedupe_stripped fun other member => lastOf_stripped taught other ((same other).mp member)]
      exact same stage
    · rw [givenAll,if_neg none,givenAll,if_neg none]
      exact mem_dedupe_stripped teaches.stages

theorem full_created (teaches : Teaches settings topic proposal) :
    Full topic [proposal] (created settings.candidates proposal) := by
  refine ⟨teaches.lesson,?_,?_,?_,?_,?_⟩ <;> simp only [forall_mem_singleton,created]
  · exact mem_singleton_self _
  · rw [teaches.domainTags]
    exact subset_given _ _
  · rw [teaches.marketTags]
    exact subset_given _ _
  · rw [teaches.platformTags]
    exact subset_given _ _
  · intro some stage
    have last : lastOf [proposal] = proposal.stages := by
      rw [← nil_append [proposal],lastOf_append,givenAll]
      split_ifs with none
      · exact none.symm
      · rfl
    rw [last]
    exact mem_dedupe_stripped teaches.stages

theorem full_head {start : List Candidate}
    (teaches : ∀ proposal ∈ proposals, Teaches settings topic proposal) (ofTopic : ∀ candidate ∈ start, candidate.lesson = topic.lesson)
    (some : start ≠ [] ∨ proposals ≠ []) :
    ∃ head, proposals.foldl (receive settings.candidates) start = head :: start.tail ∧ Full topic proposals head := by
  induction proposals using List.reverseRecOn with
  | nil =>
    obtain ⟨first,rest,rfl⟩ := exists_cons_of_ne_nil (some.resolve_right (absurd rfl))
    exact ⟨first,rfl,ofTopic first mem_cons_self,nofun,nofun,nofun,nofun,fun none => absurd rfl none⟩
  | append_singleton proposals proposal ih =>
    have taught : ∀ other ∈ proposals, Teaches settings topic other := fun other member => teaches other (mem_append_left _ member)
    have isTaught := teaches proposal (mem_append_right _ mem_cons_self)
    rw [foldl_append]
    by_cases none : start = [] ∧ proposals = []
    · obtain ⟨rfl,rfl⟩ := none
      exact ⟨_,rfl,full_created isTaught⟩
    · obtain ⟨head,isHead,full⟩ := ih taught (not_and_or.mp none)
      rw [isHead]
      exact ⟨_,rfl,full_updated taught isTaught full⟩

theorem proposals_lesson (fresh : Text → Text) (found : List Extracted) (lesson : Text) :
    ((found.filter fun group => !learningSafetyRejection settings.candidates group.lesson).flatMap (proposalsOf fresh)).filter
        (·.lesson = lesson) =
      if learningSafetyRejection settings.candidates lesson then [] else (found.filter (·.lesson = lesson)).flatMap (proposalsOf fresh) := by
  have own : ∀ group : Extracted, ∀ proposal ∈ proposalsOf fresh group, proposal.lesson = group.lesson := by
    intro group
    exact forall_mem_cons.mpr ⟨rfl,fun proposal later => by obtain ⟨ref,_,rfl⟩ := mem_map.mp later; rfl⟩
  induction found with
  | nil => split_ifs <;> rfl
  | cons group rest ih =>
    by_cases same : group.lesson = lesson
    · have all : (proposalsOf fresh group).filter (·.lesson = lesson) = proposalsOf fresh group :=
        filter_eq_self.mpr fun proposal member => decide_eq_true ((own group proposal member).trans same)
      split_ifs at ih ⊢ with isUnsafe <;> simp [same,isUnsafe,ih,all]
    · have none : (proposalsOf fresh group).filter (·.lesson = lesson) = [] :=
        filter_eq_nil_iff.mpr fun proposal member => by simpa [own group proposal member] using same
      rw [filter_cons,filter_cons_of_neg (by simpa using same)]
      refine Eq.trans ?_ ih
      split_ifs
      · rw [flatMap_cons,filter_append,none,nil_append]
      · rfl

theorem lastOf_groups (fresh : Text → Text) (found : List Extracted) : lastOf (found.flatMap (proposalsOf fresh)) = lastStages found := by
  have twice : ∀ stages former : List Text, givenAll stages (givenAll stages former) = givenAll stages former := by
    intro stages former
    unfold givenAll
    split_ifs <;> rfl
  have each : ∀ (group : Extracted) (former : List Text),
      (proposalsOf fresh group).foldl (fun stages proposal => givenAll proposal.stages stages) former = givenAll group.stages former := by
    intro group former
    rw [proposalsOf,foldl_cons]
    change _ = givenAll (lessonOf fresh group).proposal.stages former
    induction group.evidenceRefs.tail with
    | nil => rfl
    | cons ref refs ih =>
      rw [map_cons,foldl_cons]
      dsimp only
      rw [twice]
      exact ih
  rw [lastOf,lastStages,foldl_flatMap]
  simp only [each]

def Restated (before after : List Candidate) : Prop :=
  ∃ status : Candidate → Status, after = before.map fun candidate => { candidate with status := status candidate }
theorem restated_refl (candidates : List Candidate) : Restated candidates candidates := ⟨Candidate.status,(map_id _).symm⟩

variable {around : Surroundings} {next store : Store}
theorem restated_review {chosen : List Text} {reviewable : Option (List Status)}
    (done : reviewCandidates settings.candidates around chosen reviewable store = some next) : Restated store.candidates next.candidates := by
  obtain ⟨retrieved,-,same,-⟩ := reviewCandidates_spec done
  refine ⟨fun candidate => if selected chosen reviewable candidate then reviewedStatus settings.candidates around retrieved candidate
    else candidate.status,same.trans (map_congr_left fun candidate _ => ?_)⟩
  dsimp only [reviewed]
  split_ifs <;> rfl

theorem restated_replaceFirst (condition : Candidate → Bool) (status : Status) (candidates : List Candidate) :
    ∃ others : List Candidate, Restated candidates others ∧
      ∀ candidate ∈ replaceFirst condition (fun candidate => { candidate with status := status }) candidates,
        candidate ∈ candidates ∨ candidate ∈ others := by
  refine ⟨_,⟨fun _ => status,rfl⟩,?_⟩
  intro candidate member
  cases found : candidates.find? condition with
  | none =>
    have unchanged : replaceFirst condition (fun candidate => { candidate with status := status }) candidates = candidates := by
      clear member
      induction candidates with
      | nil => rfl
      | cons first rest ih =>
        obtain ⟨apart,others⟩ := forall_mem_cons.mp (find?_eq_none.mp found)
        rw [replaceFirst,if_neg apart,ih (find?_eq_none.mpr others)]
    exact .inl (unchanged ▸ member)
  | some existing =>
    rcases RejectedCandidates.mem_replaceFirst found member with former | rfl
    · exact .inl former
    · exact .inr (mem_map.mpr ⟨existing,mem_of_find?_eq_some found,rfl⟩)

theorem keyed_restated (keyed : Keyed settings before) (restated : Restated before after) : Keyed settings after := by
  obtain ⟨status,rfl⟩ := restated
  intro candidate member topic isKey
  obtain ⟨former,isFormer,rfl⟩ := mem_map.mp member
  exact keyed former isFormer topic isKey
theorem traces_restated (restated : Restated before after) : traces after = traces before := by
  obtain ⟨status,rfl⟩ := restated
  rw [traces,map_map]
  rfl

theorem has_restated (restated : Restated before after) (extracted : Extracted) :
    (∃ stored ∈ after, Has stored extracted) ↔ ∃ stored ∈ before, Has stored extracted := by
  obtain ⟨status,rfl⟩ := restated
  have same : ∀ candidate : Candidate, Has { candidate with status := status candidate } extracted ↔ Has candidate extracted :=
    fun candidate => ⟨fun has => ⟨has.1,has.2,has.3,has.4,has.5,has.6⟩,fun has => ⟨has.1,has.2,has.3,has.4,has.5,has.6⟩⟩
  constructor
  · rintro ⟨stored,member,has⟩
    obtain ⟨candidate,isCandidate,rfl⟩ := mem_map.mp member
    exact ⟨candidate,isCandidate,(same candidate).mp has⟩
  · rintro ⟨candidate,member,has⟩
    exact ⟨_,mem_map_of_mem member,(same candidate).mpr has⟩

theorem holds_restated (restated : Restated before after) (holds : Holds proposal before) : Holds proposal after := by
  obtain ⟨status,rfl⟩ := restated
  obtain ⟨candidate,isHead,evidence⟩ := holds
  have same : ofLesson proposal.lesson (before.map fun candidate => { candidate with status := status candidate }) =
      (ofLesson proposal.lesson before).map fun candidate => { candidate with status := status candidate } := by
    rw [ofLesson,filter_map]
    rfl
  refine ⟨{ candidate with status := status candidate },?_,evidence⟩
  rw [same,head?_map,Option.mem_def.mp isHead]
  rfl

theorem drawn_groups (findings : List Finding) :
    ∀ group ∈ groups settings findings, ∃ candidate, Drawn settings candidate ∧ bare group = bare candidate := by
  intro group member
  obtain ⟨candidate,isRead,same⟩ := (grouped_artifacts findings).taken group member
  exact ⟨candidate,drawn_artifacts isRead,same⟩

variable {findings : List Finding}

/-- What `learn_from_run` makes of a store. -/
theorem learn_spec {embedding : Embedding} {documents : List (Text × Item)} {guarded : Bool} (keyed : Keyed settings store.candidates)
    (done : learnFromArtifacts settings around embedding documents guarded fresh findings store = some next) :
    ∃ middle, Follows settings (((groups settings findings).filter fun group =>
        !learningSafetyRejection settings.candidates group.lesson).flatMap (proposalsOf fresh)) store.candidates middle ∧
      Restated middle next.candidates := by
  obtain ⟨result,isLearned,more⟩ := Option.bind_eq_some_iff.mp done
  refine ⟨result.1.candidates,follows_lessons (drawn_groups findings) keyed (learned_spec isLearned).1,?_⟩
  split_ifs at more
  · exact restated_review more
  · cases more
    exact restated_refl _

theorem keyed_step (store : Store) (label : Label) (next : Store) (keyed : Keyed settings store.candidates)
    (stepped : step settings store label = some next) : Keyed settings next.candidates := by
  have marked : ∀ condition status, Keyed settings (replaceFirst condition (fun candidate => { candidate with status := status }) store.candidates) := by
    intro condition status candidate member
    obtain ⟨others,restated,among⟩ := restated_replaceFirst condition status store.candidates
    rcases among candidate member with former | other
    · exact keyed candidate former
    · exact keyed_restated keyed restated candidate other
  cases label with
  | propose proposal =>
    obtain ⟨proposed,done,rfl⟩ := Option.map_eq_some_iff.mp stepped
    unfold proposeCandidate matchingCandidate at done
    rw [if_pos rfl] at done
    split_ifs at done
    cases done
    intro candidate member topic isKey
    rcases mem_append.mp member with former | new
    · exact keyed candidate former topic isKey
    · cases mem_singleton.mp new
      exact absurd rfl (keyOf_some isKey)
  | learn around embedding documents guarded fresh findings =>
    obtain ⟨middle,followed,restated⟩ := learn_spec keyed stepped
    exact keyed_restated followed.keyed restated
  | review around ids reviewable => exact keyed_restated keyed (restated_review stepped)
  | approve candidateId approvedStatus =>
    obtain ⟨_,_,_,_,same,_⟩ := approveCandidate_spec stepped
    rw [same]
    exact marked _ _
  | reject candidateId =>
    obtain ⟨_,rfl⟩ := rejectCandidate_spec stepped
    exact marked _ _

theorem evidence_offered {fresh : Text → Text} {group : Extracted} {ref : Text} (member : ref ∈ group.evidenceRefs) :
    ∃ proposal ∈ proposalsOf fresh group, proposal.evidenceRef = ref := by
  cases refs : group.evidenceRefs with
  | nil =>
    rw [refs] at member
    cases member
  | cons first rest =>
    rw [refs] at member
    rcases mem_cons.mp member with rfl | later
    · exact ⟨_,mem_cons_self,by simp [lessonOf,refs]⟩
    · exact ⟨_,mem_cons_of_mem _ (mem_map.mpr ⟨ref,by simpa [refs] using later,rfl⟩),rfl⟩

theorem offered_evidence (offered : proposal ∈ proposalsOf fresh group)
    (some : group.evidenceRefs ≠ []) : proposal.lesson = group.lesson ∧ proposal.evidenceRef ∈ group.evidenceRefs := by
  rcases mem_cons.mp offered with rfl | later
  · exact ⟨rfl,by rw [lessonOf]; exact (headD_eq_head? _ _ ▸ by simp [head?_eq_some_head some])⟩
  · obtain ⟨ref,member,rfl⟩ := mem_map.mp later
    exact ⟨rfl,mem_of_mem_tail member⟩
theorem bare_lesson {one other : Extracted} (same : bare one = bare other) : one.lesson = other.lesson := by
  have lessons : (bare one).lesson = (bare other).lesson := congrArg Extracted.lesson same
  exact lessons

theorem lastStages_none (none : lastStages found = []) : ∀ group ∈ found, group.stages = [] := by
  induction found using List.reverseRecOn with
  | nil => exact nofun
  | append_singleton found last ih =>
    have stages : lastStages (found ++ [last]) = givenAll last.stages (lastStages found) := by
      rw [lastStages,foldl_append]
      rfl
    rw [stages,givenAll] at none
    by_cases isNone : last.stages = []
    · rw [if_pos isNone] at none
      exact forall_mem_append.mpr ⟨ih none,forall_mem_singleton.mpr isNone⟩
    · rw [if_neg isNone] at none
      exact absurd none isNone

variable {extracted : Extracted}

theorem learned_head (followed : Follows settings (((groups settings findings).filter fun group =>
      !learningSafetyRejection settings.candidates group.lesson).flatMap (proposalsOf fresh)) before after)
    (among : extracted ∈ learningCandidatesFromArtifacts settings findings)
    (safe : learningSafetyRejection settings.candidates extracted.lesson = false) :
    ∃ head topic, ofLesson extracted.lesson after = head :: (ofLesson extracted.lesson before).tail ∧
      (∀ proposal ∈ (groupsOf settings findings extracted.lesson).flatMap (proposalsOf fresh), Teaches settings topic proposal) ∧
      Full topic ((groupsOf settings findings extracted.lesson).flatMap (proposalsOf fresh)) head := by
  obtain ⟨topic,isTopic⟩ := (drawn_artifacts among).lesson
  obtain ⟨group,isGroup,same,_⟩ := (grouped_artifacts findings).covers extracted among
  have teaches : ∀ proposal ∈ (groupsOf settings findings extracted.lesson).flatMap (proposalsOf fresh), Teaches settings topic proposal := by
    intro proposal member
    obtain ⟨other,isOther,offered⟩ := mem_flatMap.mp member
    obtain ⟨listed,ofIt⟩ := mem_filter.mp isOther
    obtain ⟨candidate,isDrawn,isBare⟩ := drawn_groups findings other listed
    obtain ⟨also,isAlso,taught⟩ := @teaches_group settings fresh other candidate isDrawn isBare
    have lessons : also.lesson = topic.lesson := (isAlso.symm.trans (of_decide_eq_true ofIt)).trans isTopic
    cases lesson_injective (congrArg (normalizeLearningText settings.unicode) lessons)
    exact taught proposal offered
  have own := bare_lesson same
  have isOf : group ∈ groupsOf settings findings extracted.lesson := mem_filter.mpr ⟨isGroup,decide_eq_true own⟩
  have some : (groupsOf settings findings extracted.lesson).flatMap (proposalsOf fresh) ≠ [] :=
    ne_nil_of_mem (mem_flatMap.mpr ⟨group,isOf,mem_cons_self⟩)
  have ofTopic : ∀ candidate ∈ ofLesson extracted.lesson before, candidate.lesson = topic.lesson :=
    fun candidate member => (of_decide_eq_true (mem_filter.mp member).2).trans isTopic
  obtain ⟨head,isHead,full⟩ := full_head teaches ofTopic (.inr some)
  refine ⟨head,topic,?_,teaches,full⟩
  rw [followed.ofLesson,proposals_lesson,if_neg (by simp [safe])]
  exact isHead

theorem has_head_iff {head : Candidate}
    (among : extracted ∈ learningCandidatesFromArtifacts settings findings) (isHead : head.lesson = extracted.lesson)
    (full : Full topic ((groupsOf settings findings extracted.lesson).flatMap (proposalsOf fresh)) head) :
    Has head extracted ↔ extracted.stages ⊆ lastStages (groupsOf settings findings extracted.lesson) := by
  obtain ⟨group,isGroup,same,evidence⟩ := (grouped_artifacts findings).covers extracted among
  have own := bare_lesson same
  have isOf : group ∈ groupsOf settings findings extracted.lesson := mem_filter.mpr ⟨isGroup,decide_eq_true own⟩
  have first : (lessonOf fresh group).proposal ∈ (groupsOf settings findings extracted.lesson).flatMap (proposalsOf fresh) :=
    mem_flatMap.mpr ⟨group,isOf,mem_cons_self⟩
  have stages : lastOf ((groupsOf settings findings extracted.lesson).flatMap (proposalsOf fresh)) =
      lastStages (groupsOf settings findings extracted.lesson) := lastOf_groups fresh _
  injection same with _ _ _ _ _ _ _ _ isDomain isMarket isPlatform isStages
  have known := full.stages
  rw [stages] at known
  constructor
  · intro has stage member
    have last : lastStages (groupsOf settings findings extracted.lesson) ≠ [] := by
      intro none
      rw [← isStages,lastStages_none none group isOf] at member
      cases member
    exact (known last stage).mp (has.stages member)
  · intro included
    refine ⟨isHead,fun ref member => ?_,fun stage member => ?_,isDomain ▸ full.domainTags _ first,isMarket ▸ full.marketTags _ first,
      isPlatform ▸ full.platformTags _ first⟩
    · obtain ⟨proposal,offered,rfl⟩ := @evidence_offered fresh group ref (evidence member)
      exact full.evidence proposal (mem_flatMap.mpr ⟨group,isOf,offered⟩)
    · exact (known (ne_nil_of_mem (included member)) stage).mpr (included member)

/-- Learning a run keeps each lesson that it extracted, with its evidence, stages and tags, and learning it
    again adds nothing, exactly if each lesson is kept. -/
theorem nothing_lost_iff (settings : LessonSettings) {built : Option (Embedding × List (Text × Item))} {around : Surroundings}
    {embedding : Embedding} {documents : List (Text × Item)} {guarded : Bool} {fresh : Text → Text} {findings : List Finding}
    {store next : Store} (reached : Reachable (step settings) (initial settings.candidates built) store)
    (learned : learnFromArtifacts settings around embedding documents guarded fresh findings store = some next) :
    Learned settings findings next ↔ ∀ extracted ∈ learningCandidatesFromArtifacts settings findings, Kept settings findings store extracted := by
  have none : Keyed settings (initial settings.candidates built).candidates := nofun
  have keyed : Keyed settings store.candidates :=
    @reachable_keeps _ _ _ (fun store : Store => Keyed settings store.candidates) keyed_step _ _ none reached
  obtain ⟨middle,followed,restated⟩ := learn_spec keyed learned
  have nextKeyed : Keyed settings next.candidates := keyed_restated followed.keyed restated
  have here : ∀ extracted ∈ learningCandidatesFromArtifacts settings findings,
      ((∃ stored ∈ next.candidates, Has stored extracted) ↔ Kept settings findings store extracted) := by
    intro extracted among
    have ofIt : (∃ stored ∈ middle, Has stored extracted) ↔ ∃ stored ∈ ofLesson extracted.lesson middle, Has stored extracted := by
      constructor
      · rintro ⟨stored,member,has⟩
        exact ⟨stored,mem_filter.mpr ⟨member,decide_eq_true has.lesson⟩,has⟩
      · rintro ⟨stored,member,has⟩
        exact ⟨stored,(mem_filter.mp member).1,has⟩
    rw [has_restated restated,ofIt,Kept,untouched]
    cases safe : learningSafetyRejection settings.candidates extracted.lesson with
    | true =>
      rw [followed.ofLesson,proposals_lesson,if_pos safe]
      simp
    | false =>
      obtain ⟨head,topic,isHead,_,full⟩ := learned_head followed among safe
      have own : head.lesson = extracted.lesson := by
        have member : head ∈ ofLesson extracted.lesson middle := isHead ▸ mem_cons_self
        exact of_decide_eq_true (mem_filter.mp member).2
      rw [isHead]
      simp [has_head_iff among own full]
  constructor
  · exact fun learned extracted among => (here extracted among).mp (learned.kept extracted among)
  · intro kept
    refine ⟨fun extracted among => (here extracted among).mpr (kept extracted among),?_⟩
    intro around embedding documents guarded other after again
    obtain ⟨last,refollowed,restatedLast⟩ := learn_spec nextKeyed again
    rw [traces_restated restatedLast]
    refine refollowed.traces fun proposal offered => holds_restated restated ?_
    obtain ⟨group,isGroup,isOffered⟩ := mem_flatMap.mp offered
    obtain ⟨listed,isSafe⟩ := mem_filter.mp isGroup
    obtain ⟨candidate,isRead,same⟩ := (grouped_artifacts findings).taken group listed
    have own := bare_lesson same
    have safe : learningSafetyRejection settings.candidates candidate.lesson = false := by simpa [own] using isSafe
    obtain ⟨head,topic,isHead,_,full⟩ := learned_head followed isRead safe
    obtain ⟨isLesson,evidence⟩ := offered_evidence isOffered ((grouped_artifacts findings).evidence group listed).1
    obtain ⟨also,isAlso,sameRef⟩ := @evidence_offered fresh group _ evidence
    refine ⟨head,?_,?_⟩
    · rw [isLesson,own,isHead]
      rfl
    · have isOf : group ∈ groupsOf settings findings candidate.lesson := mem_filter.mpr ⟨listed,decide_eq_true own⟩
      exact sameRef ▸ full.evidence also (mem_flatMap.mpr ⟨group,isOf,isAlso⟩)
end

def spell (texts : List Text) : Text := texts.flatMap fun t => t.length :: t

theorem spell_injective : Function.Injective spell := by
  intro one
  induction one with
  | nil =>
    intro other same
    cases other with
    | nil => rfl
    | cons t rest => cases same
  | cons t rest ih =>
    intro other same
    cases other with
    | nil => cases same
    | cons also others =>
      injection same with length rest'
      obtain ⟨rfl,same⟩ := append_inj rest' length
      rw [ih same]

/-- Sample settings, with a digest that spells the payload. -/
def spellingSettings : LessonSettings where
  candidates := RejectedCandidates.plainSettings
  digest payload := spell ([payload.lessonKind,payload.lesson,payload.stage,payload.failureClass,payload.validatorCheck,
    [payload.marketTags.length]] ++ (payload.marketTags ++ payload.platformTags))
  digest_injective one other same := by
    injection spell_injective same with kind rest
    injection rest with lesson rest
    injection rest with stage rest
    injection rest with failureClass rest
    injection rest with check rest
    injection rest with length tags
    have split : one.marketTags ++ one.platformTags = other.marketTags ++ other.platformTags := tags
    obtain ⟨market,platform⟩ := List.append_inj split (List.cons.inj length).1
    cases one
    cases other
    simp_all
  digest_some payload := List.cons_ne_nil _ _
  lower_ascii _ _ := rfl
  space_ascii _ _ := rfl

theorem report_path : (text "/r/context-report.json").head? = some 47 ∧ (text "/r/context-report.json").getLast? = some 110 := by decide
/-- What the context report of a run finds whose stages miss fields. -/
def missingFields (stages : List String) : List Finding :=
  stages.map fun stage => ⟨.missingContext,text "/r/context-report.json",report_path.1,report_path.2,text "r",text stage,text "missing_context",
    text "required_fields",false⟩
def learnMissing (stages : List String) : Option Store :=
  learnFromArtifacts spellingSettings RejectedCandidates.plainSurroundings RejectedCandidates.localEmbedding [] false (fun key => key)
    (missingFields stages) (initial spellingSettings.candidates none)

/-- The lesson of one stage is kept. -/
theorem one_stage_kept : ∃ next, learnMissing ["alpha"] = some next ∧ Learned spellingSettings (missingFields ["alpha"]) next := by
  have learned : (learnMissing ["alpha"]).isSome := by decide +kernel
  obtain ⟨next,isNext⟩ := Option.isSome_iff_exists.mp learned
  have safe : ∀ extracted ∈ learningCandidatesFromArtifacts spellingSettings (missingFields ["alpha"]),
      learningSafetyRejection spellingSettings.candidates extracted.lesson = false ∧
        extracted.stages ⊆ lastStages (groupsOf spellingSettings (missingFields ["alpha"]) extracted.lesson) := by decide +kernel
  exact ⟨next,isNext,(nothing_lost_iff spellingSettings ⟨[],rfl⟩ isNext).mpr fun extracted among => .inl (safe extracted among)⟩

/-- Of the lesson of two stages, only one stage is stored. -/
theorem stage_lost : ¬ ∀ (settings : LessonSettings) (built : Option (Embedding × List (Text × Item))) (around : Surroundings)
    (embedding : Embedding) (documents : List (Text × Item)) (guarded : Bool) (fresh : Text → Text) (findings : List Finding)
    (store next : Store), Reachable (step settings) (initial settings.candidates built) store →
    learnFromArtifacts settings around embedding documents guarded fresh findings store = some next → Learned settings findings next := by
  intro all
  have stored : (learnMissing ["alpha","beta"]).map (·.candidates.map (·.stages)) = some [[text "alpha"]] := by decide +kernel
  obtain ⟨next,isNext,stages⟩ := Option.map_eq_some_iff.mp stored
  have learned := all spellingSettings none _ _ _ _ _ _ _ next ⟨[],rfl⟩ isNext
  have extracted : ∃ extracted ∈ learningCandidatesFromArtifacts spellingSettings (missingFields ["alpha","beta"]),
      extracted.stages = [text "beta"] := by decide +kernel
  obtain ⟨beta,among,isBeta⟩ := extracted
  obtain ⟨candidate,member,has⟩ := learned.kept beta among
  have alpha : candidate.stages ∈ [[text "alpha"]] := stages ▸ mem_map_of_mem member
  have lost := has.stages
  rw [isBeta,mem_singleton.mp alpha] at lost
  revert lost
  decide

end Codebot.LearnedLessons
