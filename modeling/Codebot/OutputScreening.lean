import Codebot.Redaction
import Codebot.PolicyEngine

/-!
The answer of a chat run that calls no tools. Each delta of the provider is redacted and renamed, and the policy is
checked on what comes out. A blocker ends the run; otherwise the deltas are joined and stored. What happens depends on
where the provider cuts the answer (`chunking_iff`).
-/
namespace Codebot.OutputScreening
open Texts Regexes JsonTexts Redaction PolicyEngine List

/-- `RESPONSE_INTENTS`. -/
inductive ResponseIntent
  | artifactGeneration
  | backtestPreview
  | capabilityHelp
  | docsResearch
  | generalChat
  | marketResearch
  | marketSnapshot
  | pineGeneration
  | strategyBuilding
deriving DecidableEq

inductive Language
  | en
  | vi
deriving DecidableEq
/-- What the handling of an answer reads of its run. The market snapshot is emitted when
    the provider has named sources. -/
structure Context where
  responseIntent : Option ResponseIntent
  language : Language
  marketSnapshotEmitted : Bool
deriving DecidableEq
/-- What the deltas of an answer come to. A run that fails stores a message that says so. -/
inductive Outcome
  | blocked
  | failed
  | silent
  | stored (message : Text)
deriving DecidableEq
/-- What becomes of one delta. -/
inductive Handled
  | raised
  | blocked
  | kept (redacted : Text)
deriving DecidableEq
/-- `_market_snapshot_source_required_message`. -/
def sourceRequiredMessage : Language → Text
  | .en => text "I could not verify a source for the current price, so I did not show a market snapshot. Try again with web search or a specific source."
  | .vi => text "Mình chưa xác minh được nguồn cho giá hiện tại, nên không hiển thị market snapshot. Hãy thử lại với web search hoặc nguồn cụ thể."
def requestWords : Option Pattern :=
  compile true (text "\\b(run|execute|call|use|fetch|open|read|send|submit|request|connect|download|upload|curl|wget|shell|filesystem|network\\s+request)\\b")
def Context.replaced (context : Context) : Bool :=
  context.responseIntent = some .marketSnapshot && !context.marketSnapshotEmitted

section
variable (alphabet : Alphabet) (context : Context)

@[irreducible] def screen (t : Text) : Text := renameText (redactText alphabet t)
/-- `_allow_chat_output_reference_url` on the surface of chat answers. -/
def allowReferenceUrl (finding : PolicyFinding) : Bool :=
  context.responseIntent ∈ [some .docsResearch,some .marketResearch,some .marketSnapshot] &&
    finding.ruleId = "arbitrary_io_request" &&
    (alphabet.lower finding.matchedText = text "http://" || alphabet.lower finding.matchedText = text "https://") &&
    requestWords.all fun words => (search alphabet words finding.sentence).isNone
/-- `_first_policy_finding` on the surface of chat answers. -/
def firstPolicyFinding (t : Text) : Except Failure (Option PolicyFinding) :=
  (evaluateText alphabet t .agentChatOutput .strategyIdea).map fun findings =>
    findings.find? fun finding => finding.severity = .blocker && !allowReferenceUrl alphabet context finding

/-- `_handle_client_event` on a delta. One without text is an event it does not support. -/
def handleDelta (delta : Text) : Handled :=
  if delta = [] then .raised
  else
    match firstPolicyFinding alphabet context (screen alphabet delta) with
    | .error _ => .raised
    | .ok (some _) => .blocked
    | .ok none => .kept (screen alphabet delta)

/-- `stream_response_events`: deltas without text are not passed on. -/
def streamResponseEvents (deltas : List Text) : List Text := deltas.filter fun delta => delta != []
/-- The text to store. What the tools of a run change of it does not concern a run that
    calls none. -/
def finalText (accumulated : Text) : Text :=
  if context.replaced then sourceRequiredMessage context.language else accumulated

/-- The loop of `stream_chat` over the deltas, and what follows it. -/
def handleDeltas (accumulated : List Text) : List Text → Outcome
  | [] => if accumulated = [] then .silent else .stored (finalText context accumulated.flatten)
  | delta :: rest =>
    match handleDelta alphabet context delta with
    | .raised => .failed
    | .blocked => .blocked
    | .kept redacted => handleDeltas (accumulated ++ [redacted]) rest

/-- `stream_chat` on an answer that comes in these deltas. -/
def streamChat (deltas : List Text) : Outcome := handleDeltas alphabet context [] (streamResponseEvents deltas)
def blocks (t : Text) : Bool :=
  match firstPolicyFinding alphabet context t with
  | .ok (some _) => true
  | _ => false

/-- However the answer is cut, it is blocked if the whole has a blocker, and else stored redacted and renamed, without a
    secret. -/
def ChunkingIndependent (t : Text) : Prop :=
  ∀ deltas : List Text, deltas.flatten = t →
    streamChat alphabet context deltas = streamChat alphabet context [t] ∧
      (blocks alphabet context t → streamChat alphabet context deltas = .blocked) ∧
      (¬ blocks alphabet context t → streamChat alphabet context deltas = .stored (screen alphabet t) ∧
        secretFree alphabet (screen alphabet t))

/-- No part of the answer has a blocker, a secret or a renamed word, and an answer that is not shown reads as the
    message in its place. -/
structure CleanThroughout (t : Text) : Prop where
  unblocked : ∀ part, part <:+: t → part ≠ [] → firstPolicyFinding alphabet context (screen alphabet part) = .ok none
  free : secretFree alphabet (screen alphabet t)
  shown : context.replaced = false → ∀ part, part <:+: t → part ≠ [] → screen alphabet part = part
  hidden : context.replaced → ¬ blocks alphabet context t ∧ screen alphabet t = sourceRequiredMessage context.language

end

/-- The text of an answer. A provider that says nothing sends no delta. -/
structure Answer where
  text : Text
  nonempty : text ≠ []

variable {alphabet : Alphabet} {context : Context}
theorem screen_single (c : Nat) : screen alphabet [c] = [c] := by
  rw [screen,redactText_single,renameText_single]

theorem handleDelta_kept {delta redacted : Text} (kept : handleDelta alphabet context delta = .kept redacted) :
    delta ≠ [] ∧ firstPolicyFinding alphabet context (screen alphabet delta) = .ok none ∧
      redacted = screen alphabet delta := by
  unfold handleDelta at kept
  split at kept
  · cases kept
  · rename_i nonempty
    split at kept
    · cases kept
    · cases kept
    · rename_i none
      exact ⟨nonempty,none,(Handled.kept.inj kept).symm⟩

theorem handleDelta_eq {delta : Text} (nonempty : delta ≠ [])
    (unblocked : firstPolicyFinding alphabet context (screen alphabet delta) = .ok none) :
    handleDelta alphabet context delta = .kept (screen alphabet delta) := by
  rw [handleDelta,if_neg nonempty,unblocked]
theorem handleDelta_single (c : Nat) : handleDelta alphabet context [c] = .kept [c] := by
  have unblocked : firstPolicyFinding alphabet context (screen alphabet [c]) = .ok none := by
    rw [screen_single,firstPolicyFinding,evaluateText_single]
    rfl
  rw [handleDelta_eq (cons_ne_nil c []) unblocked,screen_single]

variable {accumulated deltas : List Text} {message : Text}

theorem handleDeltas_stored (stored : handleDeltas alphabet context accumulated deltas = .stored message) :
    (∀ delta ∈ deltas, firstPolicyFinding alphabet context (screen alphabet delta) = .ok none) ∧
      message = finalText context (accumulated ++ deltas.map (screen alphabet)).flatten := by
  induction deltas generalizing accumulated with
  | nil =>
    unfold handleDeltas at stored
    split at stored
    · cases stored
    · rw [map_nil,append_nil]
      exact ⟨fun _ member => absurd member not_mem_nil,(Outcome.stored.inj stored).symm⟩
  | cons delta rest ih =>
    unfold handleDeltas at stored
    split at stored
    · cases stored
    · cases stored
    · rename_i redacted kept
      obtain ⟨-,unblocked,screened⟩ := handleDelta_kept kept
      rw [screened] at stored
      obtain ⟨later,joined⟩ := ih stored
      rw [append_assoc,singleton_append,← map_cons] at joined
      exact ⟨forall_mem_cons.mpr ⟨unblocked,later⟩,joined⟩

theorem handleDeltas_clean (given : accumulated ++ deltas ≠ [])
    (clean : ∀ delta ∈ deltas, handleDelta alphabet context delta = .kept (screen alphabet delta)) :
    handleDeltas alphabet context accumulated deltas =
      .stored (finalText context (accumulated ++ deltas.map (screen alphabet)).flatten) := by
  induction deltas generalizing accumulated with
  | nil =>
    rw [append_nil] at given
    rw [handleDeltas,if_neg given,map_nil,append_nil]
  | cons delta rest ih =>
    obtain ⟨first,later⟩ := forall_mem_cons.mp clean
    rw [handleDeltas,first]
    simp only
    rw [ih (by simp) later,append_assoc,singleton_append,← map_cons]

def characters (t : Text) : List Text := t.map fun c => [c]
theorem flatten_characters (t : Text) : (characters t).flatten = t := by
  induction t with
  | nil => rfl
  | cons c rest ih => simpa [characters] using ih
theorem map_characters (t : Text) : (characters t).map (screen alphabet) = characters t := by
  rw [characters,map_map]
  exact map_congr_left fun c _ => screen_single c
theorem streamResponseEvents_eq (nonempty : ∀ delta ∈ deltas, delta ≠ []) : streamResponseEvents deltas = deltas := by
  rw [streamResponseEvents,filter_eq_self]
  intro delta member
  simpa using nonempty delta member

theorem flatten_streamResponseEvents (deltas : List Text) : (streamResponseEvents deltas).flatten = deltas.flatten := by
  induction deltas with
  | nil => rfl
  | cons delta rest ih =>
    unfold streamResponseEvents at ih ⊢
    by_cases empty : delta = []
    · simpa [empty] using ih
    · simpa [empty] using ih

def around (before part after : Text) : List Text := characters before ++ [part] ++ characters after
theorem flatten_around (before part after : Text) : (around before part after).flatten = before ++ part ++ after := by
  simp only [around,flatten_append,flatten_characters,flatten_singleton]

variable {after before part : Text}

theorem nonempty_around (nonempty : part ≠ []) : ∀ delta ∈ around before part after, delta ≠ [] := by
  intro delta member
  simp only [around,characters,mem_append,mem_map,mem_singleton] at member
  rcases member with (⟨c,-,rfl⟩ | rfl) | ⟨c,-,rfl⟩
  · exact cons_ne_nil c []
  · exact nonempty
  · exact cons_ne_nil c []

theorem stored_around (nonempty : part ≠ [])
    (stored : streamChat alphabet context (around before part after) = .stored message) :
    firstPolicyFinding alphabet context (screen alphabet part) = .ok none ∧
      message = finalText context (before ++ screen alphabet part ++ after) := by
  rw [streamChat,streamResponseEvents_eq (nonempty_around nonempty)] at stored
  obtain ⟨unblocked,joined⟩ := handleDeltas_stored stored
  refine ⟨unblocked part (by simp [around]),?_⟩
  have screened : (around before part after).map (screen alphabet) = around before (screen alphabet part) after := by
    simp only [around,map_append,map_characters,map_cons,map_nil]
  rw [joined,screened,nil_append,flatten_around]

variable {t : Text}

theorem streamChat_characters (nonempty : t ≠ []) :
    streamChat alphabet context (characters t) = .stored (finalText context t) := by
  have full : ∀ delta ∈ characters t, delta ≠ [] := by
    intro delta member
    obtain ⟨c,-,rfl⟩ := mem_map.mp member
    exact cons_ne_nil c []
  have given : characters t ≠ [] := by
    simpa [characters] using nonempty
  rw [streamChat,streamResponseEvents_eq full,handleDeltas_clean given,map_characters,nil_append,flatten_characters]
  intro delta member
  obtain ⟨c,-,rfl⟩ := mem_map.mp member
  rw [handleDelta_single,screen_single]

theorem streamChat_clean (nonempty : t ≠ []) (clean : CleanThroughout alphabet context t)
    (joined : deltas.flatten = t) : streamChat alphabet context deltas = .stored (screen alphabet t) := by
  have together : (streamResponseEvents deltas).flatten = t := (flatten_streamResponseEvents deltas).trans joined
  have part : ∀ delta ∈ streamResponseEvents deltas, delta <:+: t ∧ delta ≠ [] := by
    intro delta member
    refine ⟨together ▸ infix_of_mem_flatten member,?_⟩
    simpa using (mem_filter.mp member).2
  have given : streamResponseEvents deltas ≠ [] := by
    intro empty
    rw [empty] at together
    exact nonempty together.symm
  rw [streamChat,handleDeltas_clean given]
  · rw [nil_append,finalText]
    cases replaced : context.replaced with
    | true =>
      rw [if_pos rfl,(clean.hidden replaced).2]
    | false =>
      have same : (streamResponseEvents deltas).map (screen alphabet) = streamResponseEvents deltas := by
        refine (map_congr_left fun delta member => ?_).trans (map_id _)
        exact clean.shown replaced delta (part delta member).1 (part delta member).2
      rw [same,together,clean.shown replaced t infix_rfl nonempty]
      rfl
  · intro delta member
    exact handleDelta_eq (part delta member).2 (clean.unblocked delta (part delta member).1 (part delta member).2)

theorem CleanThroughout.notBlocks (nonempty : t ≠ []) (clean : CleanThroughout alphabet context t) :
    ¬ blocks alphabet context t := by
  cases replaced : context.replaced with
  | true => exact (clean.hidden replaced).1
  | false =>
    have unblocked := clean.unblocked t infix_rfl nonempty
    rw [clean.shown replaced t infix_rfl nonempty] at unblocked
    simp [blocks,unblocked]

theorem ChunkingIndependent.notBlocks (nonempty : t ≠ []) (independent : ChunkingIndependent alphabet context t) :
    ¬ blocks alphabet context t := by
  intro blocked
  have ends := (independent (characters t) (flatten_characters t)).2.1 blocked
  rw [streamChat_characters nonempty] at ends
  cases ends
theorem ChunkingIndependent.finalText_eq (nonempty : t ≠ [])
    (independent : ChunkingIndependent alphabet context t) : finalText context t = screen alphabet t := by
  have stored := ((independent (characters t) (flatten_characters t)).2.2 (independent.notBlocks nonempty)).1
  rw [streamChat_characters nonempty] at stored
  exact Outcome.stored.inj stored

/-- The cuts of an answer do not matter exactly if the answer is clean throughout. -/
theorem chunking_iff (alphabet : Alphabet) (context : Context) (answer : Answer) :
    ChunkingIndependent alphabet context answer.text ↔ CleanThroughout alphabet context answer.text := by
  obtain ⟨t,nonempty⟩ := answer
  show ChunkingIndependent alphabet context t ↔ CleanThroughout alphabet context t
  constructor
  · intro independent
    have unblocked := independent.notBlocks nonempty
    have same := independent.finalText_eq nonempty
    -- the part in one delta, and the rest character by character
    have parts : ∀ part, part <:+: t → part ≠ [] →
        firstPolicyFinding alphabet context (screen alphabet part) = .ok none ∧
          (context.replaced = false → screen alphabet part = part) := by
      rintro part ⟨before,after,whole⟩ nonvoid
      have cut := (flatten_around before part after).trans whole
      have stored := ((independent (around before part after) cut).2.2 unblocked).1
      obtain ⟨clean,joined⟩ := stored_around nonvoid stored
      refine ⟨clean,fun shown => ?_⟩
      rw [← same,finalText,finalText,shown,if_neg Bool.false_ne_true,if_neg Bool.false_ne_true,← whole] at joined
      exact (append_cancel_left (append_cancel_right joined)).symm
    constructor
    · exact fun part isPart nonvoid => (parts part isPart nonvoid).1
    · exact ((independent [t] flatten_singleton).2.2 unblocked).2
    · exact fun shown part isPart nonvoid => (parts part isPart nonvoid).2 shown
    · intro replaced
      rw [finalText,if_pos replaced] at same
      exact ⟨unblocked,same.symm⟩
  · intro clean deltas joined
    have stored := streamChat_clean nonempty clean joined
    refine ⟨?_,?_,?_⟩
    · rw [stored,streamChat_clean nonempty clean flatten_singleton]
    · exact fun blocked => absurd blocked (clean.notBlocks nonempty)
    · exact fun _ => ⟨stored,clean.free⟩

def keyAnswer : Answer := ⟨text "sk-abcdefghijkl",by decide⟩

/-- A key that comes in single characters is stored as it is. -/
theorem chunking_matters : ¬ ∀ (alphabet : Alphabet) (context : Context) (answer : Answer),
    ChunkingIndependent alphabet context answer.text := by
  intro always
  have same := (always asciiAlphabet ⟨none,.en,false⟩ keyAnswer).finalText_eq keyAnswer.nonempty
  have changed : screen asciiAlphabet keyAnswer.text = REDACTED := by
    unfold keyAnswer screen redactText secretPatterns secretSources renameText renamings REDACTED
    simp only [map_cons,map_nil]
    repeat rw [text_ofList]
    decide +kernel
  rw [changed] at same
  exact absurd same (by decide)

end Codebot.OutputScreening
