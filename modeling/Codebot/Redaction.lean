import Codebot.Regexes

/-!
What is done to a text of the model before a user sees it: the secrets in it are
replaced (`redactText`), and then the names of engines are replaced by the names that
users know (`renameText`). A text of one character passes both as it is.
-/
namespace Codebot.Redaction
open Texts Regexes

def REDACTED : Text := text "[REDACTED]"
/-- The sources of `SECRET_PATTERNS`. -/
def secretSources : List String :=
  ["\\bsk-[A-Za-z0-9_\\-]{12,}\\b",
    "\\bsk-proj-[A-Za-z0-9_\\-]{12,}\\b",
    "(?i)\\bbearer\\s+[A-Za-z0-9._\\-]{12,}",
    "(?i)\\b(api[_-]?key|secret|token)\\s*[:=]\\s*['\"]?[^'\"\\s,\x7d]{8,}",
    "/(?:Users|private|var|tmp|etc)/[^\\s\"']+"]
def secretPatterns : List Pattern := (secretSources.map text).filterMap (compile false)

/-- The replacements of `_sanitize_user_facing_model_text`, in their order. -/
def renamings : List (Text × Text) :=
  [(text "PineForge local Pine preview evidence only",text "Local sandbox preview evidence only"),
    (text "PineForge local Pine preview evidence",text "Local sandbox preview evidence"),
    (text "PineForge (Local Preview)",text "local preview"),
    (text "PineForge Preview",text "Backtest Preview"),
    (text "PineForge local Pine preview",text "local sandbox preview"),
    (text "PineForge output",text "Local sandbox preview output"),
    (text "PineForge compile/backtest",text "local preview"),
    (text "PineForge backtest",text "backtest preview"),
    (text "PineForge",text "local sandbox preview"),
    (text "pineforge-engine",text "local preview"),
    (text "pineforge-runner",text "local preview")]

variable (alphabet : Alphabet)
def redactText (t : Text) : Text := secretPatterns.foldl (fun redacted p => sub alphabet p REDACTED redacted) t
/-- `_sanitize_user_facing_model_text`. -/
def renameText (t : Text) : Text := renamings.foldl (fun value names => replaceText names.1 names.2 value) t
def secretFree (t : Text) : Bool := secretPatterns.all fun p => (search alphabet p t).isNone
theorem secretPatterns_wide : secretPatterns.length = secretSources.length ∧ ∀ p ∈ secretPatterns, 1 < width p.regex := by
  decide +kernel
theorem foldl_fixed {α : Type} {f : Text → α → Text} {steps : List α} {t : Text} (fixed : ∀ step ∈ steps, f t step = t) :
    steps.foldl f t = t := by
  induction steps with
  | nil => rfl
  | cons step rest ih =>
    rw [List.foldl_cons,fixed step List.mem_cons_self]
    exact ih fun other member => fixed other (List.mem_cons_of_mem step member)
theorem redactText_single (c : Nat) : redactText alphabet [c] = [c] :=
  foldl_fixed fun p member => sub_short (secretPatterns_wide.2 p member)
theorem renameText_single (c : Nat) : renameText [c] = [c] := by
  have long : ∀ names ∈ renamings, 1 < names.1.length := by decide
  exact foldl_fixed fun names member => replaceText_short (long names member)

end Codebot.Redaction
