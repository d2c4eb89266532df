import Codebot.Regexes

/-!
The texts of a strategy in the Pine source that is written of it. They stand between quotes, escaped. A line break
ends the line of its literal, and where a literal is cut after 80 characters, the cut can part a backslash from what
it escapes (`contained_iff`).
-/
namespace Codebot.PineStrings
open List hiding replace
open Texts Regexes

inductive Mode
  | code (slash : Bool)
  | comment
  | inside
  | escaped
deriving DecidableEq

/-- What a character of a source is: a part of the code or of a comment, the quote that opens or closes a
    literal, or a part of its value. -/
inductive Sign
  | code (c : Nat)
  | comment (c : Nat)
  | quote
  | value (c : Nat)
deriving DecidableEq

def isBreak (c : Nat) : Bool := c == 10 || c == 13

/-- What a character is, and the mode after it. No literal goes on in the next line. -/
def advance : Mode → Nat → Option (List Sign × Mode)
  | .code slash, c =>
    if c = 34 then some ([.quote],.inside)
    else if slash && c == 47 then some ([.code c],.comment)
    else some ([.code c],.code (c == 47))
  | .comment, c => if isBreak c then some ([.code c],.code false) else some ([.comment c],.comment)
  | .inside, c =>
    if isBreak c then none
    else if c = 34 then some ([.quote],.code false)
    else if c = 92 then some ([],.escaped)
    else some ([.value c],.inside)
  | .escaped, c => if isBreak c then none else some ([.value c],.inside)

def lex : Mode → Text → Option (List Sign × Mode)
  | mode, [] => some ([],mode)
  | mode, c :: t => (advance mode c).bind fun first => (lex first.2 t).map fun rest => (first.1 ++ rest.1,rest.2)
/-- A part of a source: code of the template, or a text of the user that is to be the value of a literal. -/
inductive Part
  | own (t : Text)
  | user (t : Text)
/-- How a source is to be read. -/
def expected : Mode → List Part → Option (List Sign × Mode)
  | mode, [] => some ([],mode)
  | mode, .own t :: rest => (lex mode t).bind fun first => (expected first.2 rest).map fun later => (first.1 ++ later.1,later.2)
  | .inside, .user t :: rest => (expected .inside rest).map fun later => (t.map .value ++ later.1,later.2)
  | _, .user _ :: _ => none
def Contained (parts : List Part) (source : Text) : Prop :=
  ∃ signs, expected (.code false) parts = some (signs,.code false) ∧ lex (.code false) source = some (signs,.code false)
def escape (value : Text) : Text := replace 34 [92,34] (replace 92 [92,92] value)
def Part.write : Part → Text
  | .own t => t
  | .user t => escape t
def separator : Option Pattern := compile false (text "\\s*\\|\\s*")
def operations : Option Pattern :=
  compile true (text "\\b(?:broker|live\\s+trading|live\\s+order|paper\\s+trading|paper\\s+simulation|runtime)\\b")

section
variable (alphabet : Alphabet)

def pineNoteText (value : Text) : Text :=
  let parts := ((separator.elim [value] fun p => split alphabet p value).map (strip alphabet.toUnicode)).filter (· ≠ [])
  let filtered := parts.filter fun part => (operations.bind fun p => search alphabet p part).isNone
  join (text " | ") (if filtered = [] then parts.take 1 else filtered)

/-- What `generate_pine` reads of a specification. -/
structure Spec where
  indicator : Bool
  symbol : Option Text
  market : Text
  timeframe : Text
  entryRules : List Text
  exitRules : List Text
  riskRules : List Text

def Spec.title (spec : Spec) : Text :=
  text "Strategy Codebot " ++ (if spec.symbol.getD [] = [] then spec.market else spec.symbol.getD []) ++ [32] ++ spec.timeframe
def ownLines (lines : List String) : List Part := [.own (lines.flatMap fun line => text line ++ [10])]
def noteLine (name : String) (rules : List Text) : List Part :=
  [.own (text name ++ text " = \""),.user (pineNoteText alphabet (join (text " | ") rules)),.own (text "\"\n")]
def signalLines : List String := ["fast = ta.sma(close, 9)","slow = ta.sma(close, 21)"]
def plotLines : List String :=
  ["plot(fast, color=color.orange, title=\"Fast SMA\")","plot(slow, color=color.blue, title=\"Slow SMA\")"]

/-- The source that `generate_pine` writes, by its parts. -/
def pineParts (spec : Spec) : List Part :=
  let noteLines := noteLine alphabet "entryNote" spec.entryRules ++ noteLine alphabet "exitNote" spec.exitRules ++
    noteLine alphabet "riskNote" spec.riskRules
  if spec.indicator then
    [.own (text "//@version=6\nindicator(\""),.user spec.title,.own (text "\", overlay=true)\n")] ++ noteLines ++
      ownLines (signalLines ++
        ["longSignal = ta.crossover(fast, slow) and barstate.isconfirmed",
          "exitSignal = ta.crossunder(fast, slow) and barstate.isconfirmed"] ++ plotLines ++
        ["plotshape(longSignal, title=\"Long signal\", style=shape.triangleup, location=location.belowbar, color=color.green)",
          "plotshape(exitSignal, title=\"Exit signal\", style=shape.triangledown, location=location.abovebar, color=color.red)"])
  else
    [.own (text "//@version=6\nstrategy(\""),.user spec.title,
        .own (text "\", overlay=true, commission_type=strategy.commission.percent, commission_value=0.1, slippage=1, pyramiding=0)\n")] ++
      noteLines ++
      ownLines (["riskPercent = input.float(1.0, \"Risk percent\", minval=0.1, maxval=10.0)",
          "stopLossPct = input.float(2.0, \"Stop loss percent\", minval=0.1)",
          "takeProfitPct = input.float(4.0, \"Take profit percent\", minval=0.1)"] ++ signalLines ++
        ["longCondition = ta.crossover(fast, slow) and barstate.isconfirmed",
          "flatCondition = ta.crossunder(fast, slow) and barstate.isconfirmed",
          "if longCondition and strategy.position_size == 0",
          "    strategy.entry(\"Long\", strategy.long)",
          "if strategy.position_size > 0",
          "    stopPrice = strategy.position_avg_price * (1 - stopLossPct / 100)",
          "    limitPrice = strategy.position_avg_price * (1 + takeProfitPct / 100)",
          "    strategy.exit(\"Long exit\", \"Long\", stop=stopPrice, limit=limitPrice)",
          "if flatCondition",
          "    strategy.close(\"Long\")"] ++ plotLines)

def generatePine (spec : Spec) : Text := (pineParts alphabet spec).flatMap Part.write
def Spec.texts (spec : Spec) : List Text :=
  spec.title :: [spec.entryRules,spec.exitRules,spec.riskRules].map fun rules => pineNoteText alphabet (join (text " | ") rules)
/-- `re.sub` of the line breaks and tabs in a row by a blank. -/
def squeezeBreaks : Bool → Text → Text
  | _, [] => []
  | after, c :: t =>
    if isBreak c || c == 9 then (if after then squeezeBreaks true t else 32 :: squeezeBreaks true t)
    else c :: squeezeBreaks false t
def sanitized (value : Text) : Text := strip alphabet.toUnicode (squeezeBreaks false value)
def pineStringLiteral (value : Text) : Text :=
  let cut := (escape (sanitized alphabet value)).take 80
  if cut = [] then text "Price Action Liquidity Sweep" else cut
def priceActionHead : List String :=
  ["//@version=6",
    "// Backtest-only research script. Validate manually in TradingView before any live use.",
    "// Market premise: price action liquidity sweep in a range-to-breakout regime during liquid sessions; avoid low-liquidity chop and failed reclaim conditions.",
    "// Invalidation: the swept wick or structure level fails; target uses opposing structure or bounded reward/risk fallback."]

def priceActionTail : List String :=
  ["",
    "lookback = input.int(20, \"Structure lookback\", minval=5, maxval=100)",
    "sweepBufferPct = input.float(0.10, \"Sweep buffer %\", minval=0.0, step=0.01) / 100.0",
    "stopBufferPct = input.float(0.05, \"Stop buffer %\", minval=0.0, step=0.01) / 100.0",
    "riskPct = input.float(1.0, \"Equity risk %\", minval=0.1, maxval=2.0, step=0.1) / 100.0",
    "rrFallback = input.float(1.5, \"Fallback reward/risk\", minval=0.5, step=0.1)",
    "",
    "float priorHigh = na",
    "float priorLow = na",
    "if bar_index > lookback",
    "    priorHigh := high[1]",
    "    priorLow := low[1]",
    "    for i = 2 to lookback",
    "        priorHigh := math.max(priorHigh, high[i])",
    "        priorLow := math.min(priorLow, low[i])",
    "",
    "longSweep = barstate.isconfirmed and strategy.position_size == 0 and not na(priorLow) and low < priorLow * (1.0 - sweepBufferPct) and close > priorLow",
    "shortSweep = barstate.isconfirmed and strategy.position_size == 0 and not na(priorHigh) and high > priorHigh * (1.0 + sweepBufferPct) and close < priorHigh",
    "",
    "if longSweep",
    "    entryPrice = close",
    "    stopPrice = low * (1.0 - stopBufferPct)",
    "    riskPerUnit = entryPrice - stopPrice",
    "    structureTarget = not na(priorHigh) and priorHigh > entryPrice ? priorHigh : na",
    "    riskTarget = entryPrice + riskPerUnit * rrFallback",
    "    targetPrice = not na(structureTarget) ? math.min(structureTarget, riskTarget) : riskTarget",
    "    qty = riskPerUnit > syminfo.mintick ? (strategy.equity * riskPct) / riskPerUnit : na",
    "    if not na(qty) and qty > 0",
    "        strategy.entry(\"Long Sweep\", strategy.long, qty=qty)",
    "        strategy.exit(\"Long Risk Exit\", \"Long Sweep\", stop=stopPrice, limit=targetPrice)",
    "",
    "if shortSweep",
    "    entryPrice = close",
    "    stopPrice = high * (1.0 + stopBufferPct)",
    "    riskPerUnit = stopPrice - entryPrice",
    "    structureTarget = not na(priorLow) and priorLow < entryPrice ? priorLow : na",
    "    riskTarget = entryPrice - riskPerUnit * rrFallback",
    "    targetPrice = not na(structureTarget) ? math.max(structureTarget, riskTarget) : riskTarget",
    "    qty = riskPerUnit > syminfo.mintick ? (strategy.equity * riskPct) / riskPerUnit : na",
    "    if not na(qty) and qty > 0",
    "        strategy.entry(\"Short Sweep\", strategy.short, qty=qty)",
    "        strategy.exit(\"Short Risk Exit\", \"Short Sweep\", stop=stopPrice, limit=targetPrice)",
    "",
    "plot(priorHigh, \"Prior structure high\", color=color.new(color.red, 0), linewidth=1)",
    "plot(priorLow, \"Prior structure low\", color=color.new(color.green, 0), linewidth=1)"]

def nameText (name : Option Text) : Text :=
  if name.getD [] = [] then text "Price Action Liquidity Sweep" else name.getD []
/-- What `_deterministic_price_action_pine` writes before the name. -/
def priceActionBefore : Text := (priceActionHead.flatMap fun line => text line ++ [10]) ++ text "strategy(\""
/-- What it writes after the name. -/
def priceActionAfter : Text :=
  text "\", overlay=true, pyramiding=0, initial_capital=10000, commission_type=strategy.commission.percent, commission_value=0.1, default_qty_type=strategy.fixed, default_qty_value=1)\n" ++
    priceActionTail.flatMap fun line => text line ++ [10]
def deterministicPriceActionPine (name : Option Text) : Text :=
  priceActionBefore ++ pineStringLiteral alphabet (nameText name) ++ priceActionAfter
def fitting : Nat → Text → Text
  | _, [] => []
  | room, c :: t =>
    let size := if c = 92 ∨ c = 34 then 2 else 1
    if size ≤ room then c :: fitting (room - size) t else []
def literalText (value : Text) : Text :=
  if sanitized alphabet value = [] then text "Price Action Liquidity Sweep" else fitting 80 (sanitized alphabet value)
def priceActionParts (name : Option Text) : List Part :=
  [.own priceActionBefore,.user (literalText alphabet (nameText name)),.own priceActionAfter]
def CutsEscape (room : Nat) (t : Text) : Prop :=
  ∃ front c rest, t = front ++ c :: rest ∧ (escape front).length + 1 = room ∧ (c = 92 ∨ c = 34)

end

theorem lex_append (mode : Mode) (t rest : Text) :
    lex mode (t ++ rest) = (lex mode t).bind fun first => (lex first.2 rest).map fun later => (first.1 ++ later.1,later.2) := by
  induction t generalizing mode with
  | nil => cases found : lex mode rest <;> simp [lex,found]
  | cons c t ih =>
    rw [cons_append,lex,lex]
    cases advance mode c with
    | none => rfl
    | some first =>
      simp only [Option.bind_some,ih]
      cases lex first.2 t with
      | none => rfl
      | some middle => cases found : lex middle.2 rest <;> simp [found]

theorem escape_cons (c : Nat) (t : Text) : escape (c :: t) = (if c = 92 ∨ c = 34 then [92,c] else [c]) ++ escape t := by
  unfold escape replace
  by_cases backslash : c = 92
  · simp [backslash]
  · by_cases quote : c = 34
    · simp [quote]
    · simp [backslash,quote]

theorem lex_escape (t rest : Text) : lex .inside (escape t ++ rest) =
    if t.any isBreak then none else (lex .inside rest).map fun later => (t.map .value ++ later.1,later.2) := by
  induction t with
  | nil => cases found : lex .inside rest <;> simp [escape,replace,found]
  | cons c t ih =>
    rw [escape_cons,append_assoc]
    have later : (lex .inside (escape t ++ rest)).map (fun later => (Sign.value c :: later.1,later.2)) =
        if t.any isBreak then none else (lex .inside rest).map fun later => (Sign.value c :: (t.map .value ++ later.1),later.2) := by
      rw [ih]
      split_ifs
      · rfl
      · cases lex .inside rest <;> rfl
    rw [any_cons,map_cons]
    cases breaks : isBreak c with
    | true =>
      have plain : ¬ (c = 92 ∨ c = 34) := by
        rintro (rfl | rfl) <;> revert breaks <;> decide
      rw [if_neg plain,singleton_append,lex,advance,if_pos breaks]
      rfl
    | false =>
      rw [Bool.false_or]
      by_cases special : c = 92 ∨ c = 34
      · have first : advance .inside 92 = some ([],.escaped) := by decide
        have second : advance .escaped c = some ([.value c],.inside) := by rw [advance,if_neg (by simp [breaks])]
        rw [if_pos special,cons_append,lex,first,Option.bind_some,singleton_append,lex,second,Option.bind_some]
        simp only [Option.map_map,Function.comp_def,nil_append,singleton_append]
        exact later
      · have first : advance .inside c = some ([.value c],.inside) := by
          rw [not_or] at special
          rw [advance,if_neg (by simp [breaks]),if_neg special.2,if_neg special.1]
        rw [if_neg special,singleton_append,lex,first,Option.bind_some]
        simp only [singleton_append]
        exact later

def Part.shape : Part → Part
  | .own t => .own t
  | .user _ => .user []

theorem expected_shape (mode : Mode) (parts : List Part) :
    (expected mode (parts.map Part.shape)).map Prod.snd = (expected mode parts).map Prod.snd := by
  induction parts generalizing mode with
  | nil => rfl
  | cons part rest ih =>
    rw [map_cons]
    cases part with
    | own t =>
      simp only [Part.shape,expected]
      cases lex mode t with
      | none => rfl
      | some first =>
        have same := ih first.2
        simpa [Option.map_map,Function.comp_def] using same
    | user t =>
      cases mode with
      | inside =>
        have same := ih .inside
        simpa [Part.shape,expected,Option.map_map,Function.comp_def] using same
      | code _ => rfl
      | comment => rfl
      | escaped => rfl

theorem lex_write {mode last : Mode} {parts : List Part} {signs : List Sign} (reads : expected mode parts = some (signs,last)) :
    lex mode (parts.flatMap Part.write) = some (signs,last) ↔ ∀ t, .user t ∈ parts → t.any isBreak = false := by
  induction parts generalizing mode signs with
  | nil => simp [expected,lex] at reads ⊢
           exact reads
  | cons part rest ih =>
    rw [flatMap_cons]
    cases part with
    | own t =>
      obtain ⟨first,isFirst,reads⟩ := Option.bind_eq_some_iff.mp reads
      obtain ⟨later,isLater,same⟩ := Option.map_eq_some_iff.mp reads
      cases same
      have rest' := ih isLater
      simp only [Part.write,lex_append,isFirst,Option.bind_some,mem_cons,reduceCtorEq,false_or]
      rw [← rest']
      constructor
      · intro whole
        obtain ⟨other,isOther,same⟩ := Option.map_eq_some_iff.mp whole
        injection same with signs last
        rw [isOther,← append_cancel_left signs,← last]
      · intro read
        rw [read]
        rfl
    | user t =>
      cases mode with
      | inside =>
        obtain ⟨later,isLater,same⟩ := Option.map_eq_some_iff.mp reads
        cases same
        have rest' := ih isLater
        rw [Part.write,lex_escape]
        simp only [mem_cons,Part.user.injEq,forall_eq_or_imp]
        rw [← rest']
        cases breaks : t.any isBreak with
        | true => simp
        | false =>
          rw [if_neg Bool.false_ne_true,and_iff_right rfl]
          constructor
          · intro whole
            obtain ⟨other,isOther,same⟩ := Option.map_eq_some_iff.mp whole
            injection same with signs last
            rw [isOther,← append_cancel_left signs,← last]
          · intro read
            rw [read]
            rfl
      | code _ => cases reads
      | comment => cases reads
      | escaped => cases reads

def shapeOf (indicator : Bool) : List Part := (pineParts asciiAlphabet ⟨indicator,none,[],[],[],[],[]⟩).map Part.shape

theorem shape_reads (indicator : Bool) : (expected (.code false) (shapeOf indicator)).map Prod.snd = some (.code false) := by
  cases indicator
  all_goals
    rw [shapeOf]
    simp only [pineParts,noteLine,ownLines,signalLines,plotLines,if_true,Bool.false_eq_true,if_false,map_cons,map_nil,
      Part.shape,flatMap_cons,flatMap_nil,cons_append,nil_append,append_nil]
    repeat rw [text_ofList]
    decide +kernel

theorem pine_reads (alphabet : Alphabet) (spec : Spec) :
    ∃ signs, expected (.code false) (pineParts alphabet spec) = some (signs,.code false) := by
  have shape : (pineParts alphabet spec).map Part.shape = shapeOf spec.indicator := by
    rw [shapeOf]
    unfold pineParts noteLine ownLines
    cases spec.indicator <;> simp only [if_true,Bool.false_eq_true,if_false,map_append,map_cons,map_nil,Part.shape]
  have reads := shape_reads spec.indicator
  rw [← shape,expected_shape] at reads
  obtain ⟨⟨signs,_⟩,isRead,same⟩ := Option.map_eq_some_iff.mp reads
  cases same
  exact ⟨signs,isRead⟩

theorem mem_pineParts (alphabet : Alphabet) (spec : Spec) (t : Text) : .user t ∈ pineParts alphabet spec ↔ t ∈ spec.texts alphabet := by
  unfold pineParts noteLine ownLines Spec.texts
  cases spec.indicator <;> simp

theorem generated_iff (alphabet : Alphabet) (spec : Spec) : Contained (pineParts alphabet spec) (generatePine alphabet spec) ↔
    ∀ t ∈ spec.texts alphabet, t.any isBreak = false := by
  obtain ⟨signs,reads⟩ := pine_reads alphabet spec
  have whole := lex_write reads
  simp only [mem_pineParts] at whole
  rw [← whole]
  constructor
  · rintro ⟨others,alsoReads,isRead⟩
    rw [reads] at alsoReads
    cases alsoReads
    exact isRead
  · exact fun isRead => ⟨signs,reads,isRead⟩

theorem squeeze_unbroken (after : Bool) (t : Text) : ∀ c ∈ squeezeBreaks after t, isBreak c = false := by
  fun_induction squeezeBreaks after t with
  | case1 => exact nofun
  | case2 c t breaks ih => exact ih
  | case3 after c t breaks first ih => exact forall_mem_cons.mpr ⟨rfl,ih⟩
  | case4 after c t plain ih =>
    rw [Bool.or_eq_true,not_or] at plain
    exact forall_mem_cons.mpr ⟨by simpa using plain.1,ih⟩

theorem sanitized_unbroken (alphabet : Alphabet) (value : Text) : ∀ c ∈ sanitized alphabet value, isBreak c = false := by
  intro c member
  have front := (dropWhile_sublist _).subset (mem_reverse.mp member)
  exact squeeze_unbroken false value c ((dropWhile_sublist _).subset (mem_reverse.mp front))
theorem fitting_begins (room : Nat) (t : Text) : fitting room t <+: t := by
  fun_induction fitting room t with
  | case1 => exact nil_prefix
  | case2 room c t size room' ih => exact (prefix_cons_inj c).mpr ih
  | case3 => exact nil_prefix

theorem cutsEscape_cons {room size : Nat} {c : Nat} {t : Text} (isSize : (if c = 92 ∨ c = 34 then 2 else 1) = size) :
    CutsEscape (room + size) (c :: t) ↔ CutsEscape room t := by
  have long : ∀ front, (escape (c :: front)).length = size + (escape front).length := by
    intro front
    rw [escape_cons,length_append,← isSize]
    split_ifs <;> rfl
  constructor
  · rintro ⟨front,d,rest,same,full,special⟩
    cases front with
    | nil =>
      cases same
      rw [if_pos special] at isSize
      have empty : (escape []).length = 0 := rfl
      omega
    | cons first front =>
      injection same with isFirst same
      subst isFirst
      rw [long] at full
      exact ⟨front,d,rest,same,by omega,special⟩
  · rintro ⟨front,d,rest,rfl,full,special⟩
    exact ⟨c :: front,d,rest,rfl,by rw [long]; omega,special⟩

theorem take_escape (room : Nat) (t : Text) :
    CutsEscape room t ∧ (escape t).take room = escape (fitting room t) ++ [92] ∨
      ¬ CutsEscape room t ∧ (escape t).take room = escape (fitting room t) := by
  have none : ∀ t, ¬ CutsEscape 0 t := fun t ⟨_,_,_,_,full,_⟩ => absurd full (Nat.succ_ne_zero _)
  induction t generalizing room with
  | nil =>
    refine .inr ⟨?_,by simp [fitting,escape,replace]⟩
    rintro ⟨front,c,rest,same,_⟩
    exact absurd same.symm (by simp)
  | cons c t ih =>
    rw [escape_cons,fitting]
    by_cases special : c = 92 ∨ c = 34
    · simp only [if_pos special]
      match room with
      | 0 => exact .inr ⟨none _,rfl⟩
      | 1 => exact .inl ⟨⟨[],c,t,rfl,rfl,special⟩,rfl⟩
      | room + 2 =>
        rw [if_pos (Nat.le_add_left 2 room),Nat.add_sub_cancel,cutsEscape_cons (if_pos special),escape_cons,if_pos special]
        rcases ih room with ⟨cut,taken⟩ | ⟨whole,taken⟩
        · exact .inl ⟨cut,by simp [taken]⟩
        · exact .inr ⟨whole,by simp [taken]⟩
    · simp only [if_neg special]
      match room with
      | 0 => exact .inr ⟨none _,rfl⟩
      | room + 1 =>
        rw [if_pos (Nat.le_add_left 1 room),Nat.add_sub_cancel,cutsEscape_cons (if_neg special),escape_cons,if_neg special]
        rcases ih room with ⟨cut,taken⟩ | ⟨whole,taken⟩
        · exact .inl ⟨cut,by simp [taken]⟩
        · exact .inr ⟨whole,by simp [taken]⟩

theorem defaultName_plain : escape (text "Price Action Liquidity Sweep") = text "Price Action Liquidity Sweep" ∧
    (text "Price Action Liquidity Sweep").any isBreak = false := by
  rw [text_ofList]
  decide

theorem literalText_unbroken (alphabet : Alphabet) (value : Text) : (literalText alphabet value).any isBreak = false := by
  unfold literalText
  split_ifs
  · exact defaultName_plain.2
  · rw [any_eq_false]
    intro c member
    rw [sanitized_unbroken alphabet value c ((fitting_begins 80 _).subset member)]
    exact Bool.false_ne_true

theorem pineStringLiteral_eq (alphabet : Alphabet) (value : Text) :
    CutsEscape 80 (sanitized alphabet value) ∧ pineStringLiteral alphabet value = escape (literalText alphabet value) ++ [92] ∨
      ¬ CutsEscape 80 (sanitized alphabet value) ∧ pineStringLiteral alphabet value = escape (literalText alphabet value) := by
  unfold pineStringLiteral literalText
  cases isText : sanitized alphabet value with
  | nil =>
    refine .inr ⟨?_,?_⟩
    · rintro ⟨front,c,rest,same,_⟩
      exact absurd same.symm (by simp)
    · rw [if_pos rfl]
      exact (if_pos rfl).trans defaultName_plain.1.symm
  | cons c t =>
    have filled : (escape (c :: t)).take 80 ≠ [] := by
      rw [escape_cons]
      split_ifs <;> simp
    rw [if_neg (cons_ne_nil c t)]
    simp only [if_neg filled]
    exact take_escape 80 (c :: t)

theorem literal_iff (alphabet : Alphabet) (value : Text) {before rest : Text} {opening closing : List Sign}
    (opens : lex (.code false) before = some (opening,.inside)) (closes : lex .inside (34 :: rest) = some (closing,.code false)) :
    Contained [.own before,.user (literalText alphabet value),.own (34 :: rest)] (before ++ pineStringLiteral alphabet value ++ 34 :: rest) ↔
      ¬ CutsEscape 80 (sanitized alphabet value) := by
  have unbroken := literalText_unbroken alphabet value
  have reads : expected (.code false) [.own before,.user (literalText alphabet value),.own (34 :: rest)] =
      some (opening ++ ((literalText alphabet value).map .value ++ closing),.code false) := by
    simp [expected,opens,closes]
  rcases pineStringLiteral_eq alphabet value with ⟨cut,isLiteral⟩ | ⟨whole,isLiteral⟩
  · refine iff_of_false ?_ (not_not_intro cut)
    rintro ⟨signs,alsoReads,isRead⟩
    rw [reads] at alsoReads
    cases alsoReads
    have quoted : lex .inside (92 :: 34 :: rest) = (lex .inside rest).map fun later => (.value 34 :: later.1,later.2) := by
      simp [lex,advance,isBreak,Option.map_map,Function.comp_def]
    have opened : lex .inside (34 :: rest) = (lex (.code false) rest).map fun later => (.quote :: later.1,later.2) := by
      simp [lex,advance,isBreak]
    rw [opened] at closes
    obtain ⟨⟨later,_⟩,-,isClosing⟩ := Option.map_eq_some_iff.mp closes
    cases isClosing
    rw [isLiteral,append_assoc,append_assoc,lex_append,opens,Option.bind_some,
      lex_escape,if_neg (by rw [unbroken]; exact Bool.false_ne_true),singleton_append,quoted] at isRead
    rw [Option.map_map,Option.map_map] at isRead
    obtain ⟨_,-,same⟩ := Option.map_eq_some_iff.mp isRead
    have first := append_cancel_left (append_cancel_left (congrArg Prod.fst same))
    injection first with first
    cases first
  · refine iff_of_true ⟨_,reads,?_⟩ whole
    rw [isLiteral,append_assoc,lex_append,opens,Option.bind_some,lex_escape,
      if_neg (by rw [unbroken]; exact Bool.false_ne_true),closes]
    rfl

theorem before_reads : (lex (.code false) priceActionBefore).map Prod.snd = some .inside := by
  rw [priceActionBefore]
  simp only [priceActionHead,flatMap_cons,flatMap_nil]
  repeat rw [text_ofList]
  decide +kernel
theorem after_reads : (lex .inside priceActionAfter).map Prod.snd = some (.code false) := by
  rw [priceActionAfter]
  simp only [priceActionTail,flatMap_cons,flatMap_nil]
  repeat rw [text_ofList]
  decide +kernel
theorem after_quote : ∃ rest, priceActionAfter = 34 :: rest := by
  rw [priceActionAfter,text_ofList,map_cons,cons_append]
  exact ⟨_,rfl⟩

theorem priceAction_iff (alphabet : Alphabet) (name : Option Text) :
    Contained (priceActionParts alphabet name) (deterministicPriceActionPine alphabet name) ↔
      ¬ CutsEscape 80 (sanitized alphabet (nameText name)) := by
  obtain ⟨⟨opening,_⟩,opens,same⟩ := Option.map_eq_some_iff.mp before_reads
  cases same
  obtain ⟨⟨closing,_⟩,closes,same⟩ := Option.map_eq_some_iff.mp after_reads
  cases same
  obtain ⟨rest,isAfter⟩ := after_quote
  rw [priceActionParts,deterministicPriceActionPine,isAfter]
  exact literal_iff alphabet (nameText name) opens (isAfter ▸ closes)

/-- The source of a strategy reads as its template, with its texts as the values of literals, exactly if none has a line
    break, and the one with a name exactly if no cut parts an escape. -/
theorem contained_iff (alphabet : Alphabet) (spec : Spec) (name : Option Text) :
    (Contained (pineParts alphabet spec) (generatePine alphabet spec) ↔ ∀ t ∈ spec.texts alphabet, t.any isBreak = false) ∧
      (Contained (priceActionParts alphabet name) (deterministicPriceActionPine alphabet name) ↔
        ¬ CutsEscape 80 (sanitized alphabet (nameText name))) :=
  ⟨generated_iff alphabet spec,priceAction_iff alphabet name⟩
def brokenRule : Spec := ⟨false,none,text "btc",text "1h",[[97,10,98]],[[120]],[[114]]⟩
/-- The second line of the rule is no text of a literal. -/
theorem rule_escapes : ¬ ∀ (alphabet : Alphabet) (spec : Spec), Contained (pineParts alphabet spec) (generatePine alphabet spec) := by
  intro contained
  have unbroken := (generated_iff asciiAlphabet brokenRule).mp (contained asciiAlphabet brokenRule) _
    (mem_cons_of_mem _ mem_cons_self)
  revert unbroken
  decide +kernel

end Codebot.PineStrings
