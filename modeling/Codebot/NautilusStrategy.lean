import Codebot.PythonLiterals

/-!
The Python module that `generate_nautilus_strategy` writes for a strategy spec, and the validator before it. The
symbol, the venue and the timeframe are put between quotes as they are after upper-casing (`spec_in_literals_iff`).
-/
namespace Codebot.NautilusStrategy
open Texts PythonLiterals List

/-- The platforms of the schema. -/
inductive Target
  | pineV6 | mql5 | nautilusPy | both
deriving DecidableEq
inductive ScriptType
  | indicator | strategy | expertAdvisor
deriving DecidableEq

/-- The fields of a strategy spec that the generator and the validator read. -/
structure StrategySpec where
  targetPlatform : Target
  scriptType : ScriptType
  market : Text
  timeframe : Text
  entryRules : List Text
  exitRules : List Text
  symbol : Option Text
  venue : Option Text
  userNotes : Option Text
  runtimeTargets : List Target
deriving DecidableEq

/-- `value or default` of a text. -/
def orElse : Option Text → Text → Text
  | some (c :: t), _ => c :: t
  | _, default => default
inductive AverageType
  | sma | ema
deriving DecidableEq
structure MovingAverageContract where
  averageType : AverageType
  fastPeriod : Nat
  slowPeriod : Nat
deriving DecidableEq
/-- The rest after one of the words `sma`, `ema` and `moving average`. -/
def afterAverage (t : Text) : Option Text :=
  (afterPrefix (text "sma") t).or ((afterPrefix (text "ema") t).or (afterPrefix (text "moving average") t))
/-- The rest after `(?:period\s+)?(?:sma|ema|moving average)`. -/
def afterPeriodWord (unicode : Unicode) (t : Text) : Option Text :=
  match afterPrefix (text "period") t with
  | none => afterAverage t
  | some rest => if rest.head?.any unicode.space then afterAverage (rest.dropWhile unicode.space) else none
/-- `int` of a text of decimal digits. -/
def digitsValue (unicode : Unicode) (t : Text) : Nat :=
  t.foldl (fun value c => 10 * value + (unicode.digit c).getD 0) 0
/-- A match of the average pattern at the beginning of a text: the number and the rest. -/
def periodAt (unicode : Unicode) (t : Text) : Option (Nat × Text) :=
  let digits := t.takeWhile fun c => (unicode.digit c).isSome
  let rest := (t.dropWhile fun c => (unicode.digit c).isSome).dropWhile fun c => c == '-'.toNat || unicode.space c
  if digits.isEmpty then none else (afterPeriodWord unicode rest).map fun rest => (digitsValue unicode digits,rest)

/-- `re.findall` of the pattern: the numbers of the matches from the left. -/
def periods (unicode : Unicode) : Nat → Text → List Nat
  | 0, _ => []
  | _ + 1, [] => []
  | fuel + 1, c :: t =>
    match periodAt unicode (c :: t) with
    | none => periods unicode fuel t
    | some (period,rest) => period :: periods unicode fuel rest

def movingAverageContract (unicode : Unicode) (spec : StrategySpec) : Option MovingAverageContract :=
  let rules := unicode.lower (join (text " ") (spec.entryRules ++ spec.exitRules))
  let averageType := if contains (text "ema") rules || contains (text "exponential") rules then .ema else .sma
  let (fast,slow) :=
    match periods unicode rules.length rules with
    | first :: second :: _ => (first,second)
    | _ => (9,21)
  if fast = 0 || slow = 0 || slow ≤ fast then none
  else if !contains (text "cross") rules then none
  else some ⟨averageType,fast,slow⟩

def unsupportedTerms : List Text :=
  [text "request.security",text "multi-timeframe",text "multiple timeframe",text "intrabar",text "tick-level",
    text "tick level",text "repaint",text "lookahead",text "webhook",text "telegram",text "broker execution",
    text "live trading automation"]
def isBarCloseSubset (unicode : Unicode) (spec : StrategySpec) : Bool :=
  let words := unicode.lower (join (text " ") (spec.entryRules ++ spec.exitRules ++ [spec.userNotes.getD []]))
  !unsupportedTerms.any fun term => contains term words
def requestedTargets (spec : StrategySpec) : List Target :=
  spec.runtimeTargets ++ if spec.targetPlatform = .both then [.pineV6,.mql5] else [spec.targetPlatform]
def wantsTarget (spec : StrategySpec) (target : Target) : Bool := target ∈ requestedTargets spec
inductive CheckStatus
  | pass | fail
deriving DecidableEq
/-- `validation_check`. -/
structure Check where
  name : String
  status : CheckStatus
  details : String
deriving DecidableEq
def validationCheck (name : String) (condition : Bool) (details : String) : Check :=
  ⟨name,if condition then .pass else .fail,details⟩

/-- The checks of `validate_nautilus_spec`. -/
def nautilusChecks (unicode : Unicode) (spec : StrategySpec) : List Check :=
  [validationCheck "target_platform" (wantsTarget spec .nautilusPy) "Spec requests Nautilus target.",
    validationCheck "script_type" (spec.scriptType == .strategy) "Nautilus V1 target supports strategy scripts only.",
    validationCheck "symbol" (spec.symbol.any fun t => !t.isEmpty) "Nautilus V1 requires an explicit symbol.",
    validationCheck "bar_close_subset" (isBarCloseSubset unicode spec) "Spec remains in the bar-close V1 subset.",
    validationCheck "moving_average_cross" (movingAverageContract unicode spec).isSome
      "Spec uses a supported SMA/EMA crossover contract.",
    validationCheck "live_execution_blocked" true
      "Generated Nautilus manifests keep live broker execution disabled by default."]

/-- The status of `validate_nautilus_spec`: `aggregate_status` of the checks. -/
def validateNautilusSpec (unicode : Unicode) (spec : StrategySpec) : CheckStatus :=
  if (nautilusChecks unicode spec).any fun check => check.status == .fail then .fail else .pass
/-- `_symbol`. -/
def symbolText (unicode : Unicode) (spec : StrategySpec) : Text :=
  replace '/'.toNat [] (upper unicode (orElse spec.symbol spec.market))
/-- `_venue`. -/
def venueText (unicode : Unicode) (spec : StrategySpec) : Text :=
  let default := if unicode.lower spec.market = text "crypto" then text "BINANCE" else text "SIM"
  replace ' '.toNat (text "_") (upper unicode (orElse spec.venue default))
/-- The labels of the units of a timeframe. -/
def unitLabel (c : Nat) : Option Text :=
  if c = 'm'.toNat then some (text "MINUTE")
  else if c = 'h'.toNat then some (text "HOUR")
  else if c = 'd'.toNat then some (text "DAY")
  else if c = 'w'.toNat then some (text "WEEK")
  else none

/-- `_bar_type_timeframe`, with the match of `(\d+)([mhdw])` to the whole text. -/
def barTypeTimeframe (unicode : Unicode) (timeframe : Text) : Text :=
  let words := unicode.lower (strip unicode timeframe)
  let amount := words.takeWhile fun c => (unicode.digit c).isSome
  match amount, (words.dropWhile fun c => (unicode.digit c).isSome) with
  | _ :: _, [c] =>
    match unitLabel c with
    | some label => amount ++ text "-" ++ label
    | none => upper unicode timeframe
  | _, _ => upper unicode timeframe

def alphanumeric (c : Nat) : Bool := asciiDigit c || asciiLetter c
/-- `re.sub(r"[^0-9A-Za-z]+", " ", symbol)`; `gap` says that the last character was replaced. -/
def spaced (gap : Bool) : Text → Text
  | [] => []
  | c :: t => if alphanumeric c then c :: spaced false t else if gap then spaced true t else ' '.toNat :: spaced true t
/-- `str.title()` of a text of ASCII letters, digits and spaces. -/
def title (afterLetter : Bool) : Text → Text
  | [] => []
  | c :: t =>
    (if afterLetter && asciiUpper c then c + 32 else if !afterLetter && asciiLower c then c - 32 else c) ::
      title (asciiLetter c) t
def strategyClassName (symbol : Text) : Text :=
  let cleaned := replace ' '.toNat [] (title false (spaced false symbol))
  (if cleaned.head?.all asciiDigit then text "Generated" ++ cleaned else cleaned) ++ text "Strategy"
def instrumentText (unicode : Unicode) (spec : StrategySpec) : Text :=
  symbolText unicode spec ++ text "." ++ venueText unicode spec
/-- The text between the quotes of the bar type. -/
def barTypeText (unicode : Unicode) (spec : StrategySpec) : Text :=
  symbolText unicode spec ++ text "." ++ venueText unicode spec ++ text "-" ++ barTypeTimeframe unicode spec.timeframe ++
    text "-LAST-EXTERNAL"
def indicatorName : AverageType → String
  | .ema => "ExponentialMovingAverage"
  | .sma => "SimpleMovingAverage"

/-- The lines of the module. -/
def strategyLines (contract : MovingAverageContract) (className instrument barType : Text) : List (List Piece) :=
  let configName := className ++ text "Config"
  let indicator := indicatorName contract.averageType
  [[.fixed "from __future__ import annotations"],
    [],
    [.fixed "from decimal import Decimal"],
    [],
    [.fixed "from nautilus_trader.config import StrategyConfig"],
    [.fixed "from nautilus_trader.indicators.averages import ",.fixed indicator],
    [.fixed "from nautilus_trader.model import Bar"],
    [.fixed "from nautilus_trader.model import BarType"],
    [.fixed "from nautilus_trader.model import InstrumentId"],
    [.fixed "from nautilus_trader.model.enums import OrderSide"],
    [.fixed "from nautilus_trader.model.enums import TimeInForce"],
    [.fixed "from nautilus_trader.trading.strategy import Strategy"],
    [],
    [],
    [.fixed "class ",.name configName,.fixed "(StrategyConfig):"],
    [.fixed "    instrument_id: InstrumentId = InstrumentId.from_str(",.literal instrument,.fixed ")"],
    [.fixed "    bar_type: BarType = BarType.from_str(",.literal barType,.fixed ")"],
    [.fixed "    fast_period: int = ",.fixed (toString contract.fastPeriod)],
    [.fixed "    slow_period: int = ",.fixed (toString contract.slowPeriod)],
    [.fixed "    warmup_bars: int = 0"],
    [.fixed "    trade_size: Decimal = Decimal(\"1\")"],
    [.fixed "    order_id_tag: str = \"strategy-codebot-nautilus-v1\""],
    [],
    [],
    [.fixed "class ",.name className,.fixed "(Strategy):"],
    [.fixed "    def __init__(self, config: ",.name configName,.fixed ") -> None:"],
    [.fixed "        super().__init__(config)"],
    [.fixed "        self.instrument = None"],
    [.fixed "        self.fast = ",.fixed indicator,.fixed "(config.fast_period)"],
    [.fixed "        self.slow = ",.fixed indicator,.fixed "(config.slow_period)"],
    [.fixed "        self._last_fast = None"],
    [.fixed "        self._last_slow = None"],
    [.fixed "        self._bars_seen = 0"],
    [],
    [.fixed "    def on_start(self) -> None:"],
    [.fixed "        self.instrument = self.cache.instrument(self.config.instrument_id)"],
    [.fixed "        if self.instrument is None:"],
    [.fixed "            self.log.error(f\"Could not find instrument \x7bself.config.instrument_id\x7d\")"],
    [.fixed "            self.stop()"],
    [.fixed "            return"],
    [.fixed "        self.register_indicator_for_bars(self.config.bar_type, self.fast)"],
    [.fixed "        self.register_indicator_for_bars(self.config.bar_type, self.slow)"],
    [.fixed "        self.subscribe_bars(self.config.bar_type)"],
    [],
    [.fixed "    def on_bar(self, bar: Bar) -> None:"],
    [.fixed "        self._bars_seen += 1"],
    [.fixed "        if not self.fast.initialized or not self.slow.initialized:"],
    [.fixed "            return"],
    [.fixed "        fast = float(self.fast.value)"],
    [.fixed "        slow = float(self.slow.value)"],
    [.fixed "        if self._bars_seen <= self.config.warmup_bars:"],
    [.fixed "            self._last_fast = fast"],
    [.fixed "            self._last_slow = slow"],
    [.fixed "            return"],
    [.fixed "        crossed_up = self._last_fast is not None and self._last_slow is not None and self._last_fast <= self._last_slow and fast > slow"],
    [.fixed "        crossed_down = self._last_fast is not None and self._last_slow is not None and self._last_fast >= self._last_slow and fast < slow"],
    [.fixed "        self._last_fast = fast"],
    [.fixed "        self._last_slow = slow"],
    [.fixed "        has_open_position = self.cache.positions_open_count(instrument_id=self.config.instrument_id) > 0"],
    [.fixed "        if crossed_up and not has_open_position:"],
    [.fixed "            self._submit_market(OrderSide.BUY)"],
    [.fixed "        elif crossed_down and has_open_position:"],
    [.fixed "            self.close_all_positions(self.config.instrument_id)"],
    [],
    [.fixed "    def _submit_market(self, side: OrderSide) -> None:"],
    [.fixed "        if self.instrument is None:"],
    [.fixed "            return"],
    [.fixed "        order = self.order_factory.market("],
    [.fixed "            instrument_id=self.config.instrument_id,"],
    [.fixed "            order_side=side,"],
    [.fixed "            quantity=self.instrument.make_qty(self.config.trade_size),"],
    [.fixed "            time_in_force=TimeInForce.GTC,"],
    [.fixed "            tags=[self.config.order_id_tag],"],
    [.fixed "        )"],
    [.fixed "        self.submit_order(order)"],
    []]

def joinLines : List (List Piece) → List Piece
  | [] => []
  | [line] => line
  | line :: rest => line ++ .fixed "\n" :: joinLines rest
/-- The parts of the module for a spec. -/
def strategyPieces (unicode : Unicode) (spec : StrategySpec) (contract : MovingAverageContract) : List Piece :=
  joinLines (strategyLines contract (strategyClassName (symbolText unicode spec)) (instrumentText unicode spec)
    (barTypeText unicode spec))
/-- `generate_nautilus_strategy`; without a contract it raises. -/
def generateNautilusStrategy (unicode : Unicode) (spec : StrategySpec) : Option Text :=
  (movingAverageContract unicode spec).map fun contract => source (strategyPieces unicode spec contract)
def word (c : Nat) : Bool := alphanumeric c || c == ' '.toNat

theorem spaced_word (gap : Bool) (t : Text) : (spaced gap t).all word := by
  induction t generalizing gap with
  | nil => rfl
  | cons c t ih =>
    simp only [spaced]
    split
    · rename_i kept
      simp only [all_cons,ih,word,kept,Bool.true_or,Bool.true_and]
    · split
      · exact ih true
      · rw [all_cons,ih true]
        rfl

theorem title_word (afterLetter : Bool) {t : Text} (words : t.all word) : (title afterLetter t).all word := by
  induction t generalizing afterLetter with
  | nil => rfl
  | cons c t ih =>
    rw [all_cons,Bool.and_eq_true] at words
    rw [title,all_cons,Bool.and_eq_true]
    refine ⟨?_,ih _ words.2⟩
    have isWord := words.1
    simp only [word,alphanumeric,asciiLetter,asciiDigit,asciiUpper,asciiLower,between,Bool.or_eq_true,Bool.and_eq_true,
      decide_eq_true_eq,beq_iff_eq,Char.reduceToNat] at isWord ⊢
    split
    · omega
    · split
      · omega
      · exact isWord

theorem replace_alphanumeric {t : Text} (words : t.all word) : (replace ' '.toNat [] t).all alphanumeric := by
  rw [all_eq_true] at words ⊢
  intro c member
  obtain ⟨d,isPart,same⟩ := mem_flatMap.mp member
  split at same
  · cases same
  · rename_i notSpace
    rw [mem_singleton] at same
    subst same
    have isWord := words c isPart
    simp only [word,Bool.or_eq_true,beq_iff_eq] at isWord
    exact isWord.resolve_right notSpace

theorem strategyClassName_letters (symbol : Text) :
    (strategyClassName symbol).all alphanumeric ∧ (strategyClassName symbol).head?.any asciiLetter := by
  have cleaned := replace_alphanumeric (title_word false (spaced_word false symbol))
  unfold strategyClassName
  generalize replace ' '.toNat [] (title false (spaced false symbol)) = name at cleaned
  simp only []
  split
  · simp only [all_append,cleaned]
    exact ⟨by decide,rfl⟩
  · rename_i notDigit
    cases name with
    | nil => exact absurd rfl notDigit
    | cons c t =>
      have first : alphanumeric c = true := by
        rw [all_cons,Bool.and_eq_true] at cleaned
        exact cleaned.1
      have suffix : (text "Strategy").all alphanumeric = true := by decide
      have letter : asciiDigit c = false := by simpa using notDigit
      refine ⟨by rw [all_append,cleaned,suffix]; rfl,?_⟩
      simpa [alphanumeric,letter] using first

theorem alphanumeric_namePart {t : Text} (letters : t.all alphanumeric) : t.all namePart := by
  rw [all_eq_true] at letters ⊢
  intro c member
  have isLetter := letters c member
  simp only [alphanumeric,Bool.or_eq_true] at isLetter
  rcases isLetter with digit | letter
  · simp [namePart,digit]
  · simp [namePart,letter]

/-- The module is the template, with the two texts as the values of literals, and a class name of letters and digits. -/
def SpecInLiterals (unicode : Unicode) (named : Text → Option Nat) (spec : StrategySpec) : Prop :=
  ∃ contract module_, movingAverageContract unicode spec = some contract ∧
    generateNautilusStrategy unicode spec = some module_ ∧ reads named (strategyPieces unicode spec contract) module_ ∧
      (strategyClassName (symbolText unicode spec)).all alphanumeric ∧
      (strategyClassName (symbolText unicode spec)).head?.any asciiLetter
theorem strategyPieces_literal (unicode : Unicode) (spec : StrategySpec) (contract : MovingAverageContract) (value : Text) :
    .literal value ∈ strategyPieces unicode spec contract ↔
      value = instrumentText unicode spec ∨ value = barTypeText unicode spec := by
  simp [strategyPieces,strategyLines,joinLines]

theorem good_name {value : Text} {s : String} (letters : value.all alphanumeric)
    (stops : (text s).head?.any namePart = false ∧ text s ≠ []) (rest : List Piece) :
    Piece.good (.fixed s :: rest) (.name value) := by
  obtain ⟨c,t,same⟩ := exists_cons_of_ne_nil stops.2
  have head : (source (.fixed s :: rest)).head? = (text s).head? := by
    rw [source_cons,Piece.render,same]
    rfl
  rw [Piece.good,alphanumeric_namePart letters,head,stops.1]
  rfl

theorem strategyPieces_readable {unicode : Unicode} {spec : StrategySpec} (contract : MovingAverageContract)
    (instrument : plain (instrumentText unicode spec)) (barType : plain (barTypeText unicode spec)) :
    readable (strategyPieces unicode spec contract) := by
  have className := (strategyClassName_letters (symbolText unicode spec)).1
  have suffix : (text "Config").all alphanumeric = true := by decide
  have configName : (strategyClassName (symbolText unicode spec) ++ text "Config").all alphanumeric = true := by
    rw [all_append,className,suffix]
    rfl
  have fixed : ∀ rest s, Piece.good rest (.fixed s) = true := fun _ _ => rfl
  have config : ∀ rest, Piece.good (.fixed "(StrategyConfig):" :: rest) (.name _) = true := good_name configName (by decide)
  have strategy : ∀ rest, Piece.good (.fixed "(Strategy):" :: rest) (.name _) = true := good_name className (by decide)
  have argument : ∀ rest, Piece.good (.fixed ") -> None:" :: rest) (.name _) = true := good_name configName (by decide)
  have literals : ∀ rest value, plain value = true → Piece.good rest (.literal value) = true := fun _ _ isPlain => isPlain
  simp only [strategyPieces,strategyLines,joinLines,cons_append,nil_append,readable,fixed,config,strategy,
    argument,literals _ _ instrument,literals _ _ barType,Bool.and_self]

theorem passes_contract {unicode : Unicode} {spec : StrategySpec} (passes : validateNautilusSpec unicode spec = .pass) :
    (movingAverageContract unicode spec).isSome := by
  cases found : (movingAverageContract unicode spec).isSome with
  | true => rfl
  | false => simp [validateNautilusSpec,nautilusChecks,validationCheck,found] at passes

/-- The generated module is the fixed template, with the texts of the spec in literals and in the class name only,
    exactly if they are plain. -/
theorem spec_in_literals_iff (unicode : Unicode) (named : Text → Option Nat) (spec : StrategySpec)
    (passes : validateNautilusSpec unicode spec = .pass) : SpecInLiterals unicode named spec ↔
      plain (instrumentText unicode spec) ∧ plain (barTypeText unicode spec) := by
  obtain ⟨contract,isContract⟩ := Option.isSome_iff_exists.mp (passes_contract passes)
  have generated : generateNautilusStrategy unicode spec = some (source (strategyPieces unicode spec contract)) := by
    rw [generateNautilusStrategy,isContract]
    rfl
  have literals : (∀ value, .literal value ∈ strategyPieces unicode spec contract → plain value) ↔
      plain (instrumentText unicode spec) ∧ plain (barTypeText unicode spec) := by
    simp only [strategyPieces_literal,forall_eq_or_imp,forall_eq]
  have readBack := @reads_source_iff named (strategyPieces unicode spec contract) ?_ ?_
  · constructor
    · rintro ⟨other,module_,isOther,isModule,isRead,_⟩
      rw [isContract] at isOther
      cases isOther
      rw [generated] at isModule
      cases isModule
      exact literals.mp (readBack.mp isRead)
    · intro plains
      exact ⟨contract,_,isContract,generated,readBack.mpr (literals.mpr plains),
        strategyClassName_letters (symbolText unicode spec)⟩
  · intro value member
    rcases (strategyPieces_literal unicode spec contract value).mp member with rfl | rfl
    · simp [instrumentText,text]
    · simp [barTypeText,text]
  · intro plains
    obtain ⟨instrument,barType⟩ := literals.mp plains
    exact strategyPieces_readable contract instrument barType

/-- A crossover of two averages on a symbol. -/
def sampleSpec (symbol : String) : StrategySpec :=
  { targetPlatform := .nautilusPy, scriptType := .strategy, market := text "crypto", timeframe := text "1h",
    entryRules := [text "9 ema crosses above 21 ema"], exitRules := [text "9 ema crosses below 21 ema"],
    symbol := some (text symbol), venue := none, userNotes := none, runtimeTargets := [] }
theorem spec_in_literals_sample : validateNautilusSpec ascii (sampleSpec "BTC/USDT") = .pass ∧
    SpecInLiterals ascii (fun _ => none) (sampleSpec "BTC/USDT") :=
  ⟨by decide,(spec_in_literals_iff ascii (fun _ => none) (sampleSpec "BTC/USDT") (by decide)).mpr (by decide)⟩

/-- A symbol with a quote ends its literal early. -/
theorem spec_not_in_literals : ¬ ∀ (unicode : Unicode) (named : Text → Option Nat) (spec : StrategySpec),
    validateNautilusSpec unicode spec = .pass → SpecInLiterals unicode named spec := by
  intro always
  obtain ⟨contract,module_,isContract,generated,isRead,_⟩ :=
    always ascii (fun _ => none) (sampleSpec "BTC\"+str(0)+\"") (by decide)
  rw [generateNautilusStrategy,isContract] at generated
  cases generated
  have isPlain := (reads_plain isRead).2 (Nat.le_refl _) _
    ((strategyPieces_literal ascii (sampleSpec "BTC\"+str(0)+\"") contract _).mpr (.inl rfl))
  exact absurd isPlain (by decide)

end Codebot.NautilusStrategy
