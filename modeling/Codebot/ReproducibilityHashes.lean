import Codebot.JsonSuffixes
import Codebot.Stringify
import Mathlib.Data.List.Chain

/-!
The hash of a native run and the hash of the worker's run. The one is of the Pine source, the first
and the last bar, the number of bars and the config, so that feeds that differ between their ends
have the same hash; the other is of the checksum of the whole feed.
-/
namespace Codebot.ReproducibilityHashes
open Texts JsonTexts JsonDumps JsonReadings JsonSuffixes Stringify List

/-- The hexadecimal SHA-256 of a text in UTF-8. -/
structure Digest where
  sha256 : Text → Text
  injective : Function.Injective sha256
  ascii : ∀ t, ∀ c ∈ sha256 t, c < 128

/-- Floats: `float` and `int` with the texts of their errors, `<`, and what `json.dumps` writes. -/
structure Floats (Amount : Type) where
  float : Option Text → Except Text Amount
  int : Amount → Except Text Int
  isfinite : Amount → Bool
  less : Amount → Amount → Bool
  dump : Amount → Text
  dump_injective : Function.Injective dump
  dump_float : ∀ amount, FloatText (dump amount) ∨ dump amount ∈ specials

structure BarC (Amount : Type) where
  «open» : Amount
  high : Amount
  low : Amount
  close : Amount
  volume : Amount
  timestamp : Int
deriving DecidableEq

/-- An OHLCV file: its text, and the header and the rows that the `csv` module reads. -/
structure OhlcvCsv where
  raw : Text
  fieldnames : Option (List Text)
  rows : List (List Text)
structure CsvQuality where
  status : Text
  rows : Nat
  sourceFeedChecksum : Text
deriving DecidableEq
def columns : List Text := ["timestamp","open","high","low","close","volume"].map text

variable {Amount : Type}
/-- `c_int64`. -/
def int64 (n : Int) : Int := Int.bmod n 18446744073709551616
def finiteFloat (floats : Floats Amount) (value : Option Text) (field : String) : Except Text Amount := do
  let parsed ← floats.float value
  if floats.isfinite parsed then .ok parsed else .error (text "Invalid OHLCV CSV: non-finite " ++ text field)

/-- The bar of a row, after the timestamp of the row before it. -/
def readRow (floats : Floats Amount) (previous : Option Int) (row : List Text) : Except Text (BarC Amount × Int) := do
  let timestamp ← floats.int (← floats.float row[0]?)
  let opened ← finiteFloat floats row[1]? "open"
  let high ← finiteFloat floats row[2]? "high"
  let low ← finiteFloat floats row[3]? "low"
  let close ← finiteFloat floats row[4]? "close"
  let volume ← finiteFloat floats row[5]? "volume"
  if previous.any fun previous => timestamp ≤ previous then
    .error (text "Invalid OHLCV CSV: timestamps must be strictly ascending")
  else if floats.less high (if floats.less opened close then close else opened) ||
      floats.less (if floats.less close opened then close else opened) low then
    .error (text "Invalid OHLCV CSV: malformed OHLC at timestamp " ++ dumpInteger timestamp)
  else .ok (⟨opened,high,low,close,volume,int64 timestamp⟩,timestamp)

def readRows (floats : Floats Amount) : Option Int → List (List Text) → Except Text (List (BarC Amount))
  | _, [] => .ok []
  | previous, row :: rest => do
    let (bar,timestamp) ← readRow floats previous row
    let bars ← readRows floats (some timestamp) rest
    .ok (bar :: bars)
/-- `read_bars`; the `csv` module passes over empty rows. -/
def readBars (digest : Digest) (floats : Floats Amount) (csv : OhlcvCsv) : Except Text (List (BarC Amount) × CsvQuality) := do
  if csv.fieldnames ≠ some columns then
    .error (text "Invalid OHLCV CSV header: expected " ++ join (text ",") columns)
  else
    let bars ← readRows floats none (csv.rows.filter fun row => !row.isEmpty)
    .ok (bars,⟨text "pass",bars.length,digest.sha256 csv.raw⟩)
/-- The keys of a config that `validate_request` asks for. -/
def requiredKeys : List Text := ["symbol","timeframe","initial_capital","fee_bps","slippage_bps"].map text

/-- A request that the runner reads, with what its files hold. -/
structure Request (digest : Digest) (floats : Floats Amount) where
  pineCode : Text
  csv : OhlcvCsv
  config : List (Text × Json)
  bars : List (BarC Amount)
  quality : CsvQuality
  read : readBars digest floats csv = .ok (bars,quality)
  writable : Writable (.object config)
  validated : ∀ key ∈ requiredKeys, key ∈ config.map Prod.fst

def barItems (floats : Floats Amount) (bar : BarC Amount) : List Json :=
  [.integer bar.timestamp,.float (floats.dump bar.open),.float (floats.dump bar.high),.float (floats.dump bar.low),
    .float (floats.dump bar.close),.float (floats.dump bar.volume)]
def firstLastBarHashMaterial (floats : Floats Amount) (bars : List (BarC Amount)) : Text :=
  match bars.head?, bars.getLast? with
  | some first, some last =>
    dumps compactSeparators (.array [.array (barItems floats first),.array (barItems floats last),.integer bars.length])
  | _, _ => []

variable {digest : Digest} {floats : Floats Amount}
/-- The `reproducibility_hash` of a report. -/
def reproducibilityHash (request : Request digest floats) : Text :=
  digest.sha256 (request.pineCode ++ firstLastBarHashMaterial floats request.bars ++
    dumps defaultSeparators (sortKeys (.object request.config)))
def SameConfig (one other : Request digest floats) : Prop := sortKeys (.object one.config) = sortKeys (.object other.config)
/-- The inputs of the run are the same. -/
structure Same (one other : Request digest floats) : Prop where
  pineCode : one.pineCode = other.pineCode
  config : SameConfig one other
  bars : one.bars = other.bars
/-- The feeds have as many bars and the same ends. -/
structure SameEnds (bars others : List (BarC Amount)) : Prop where
  length : bars.length = others.length
  first : bars.head? = others.head?
  last : bars.getLast? = others.getLast?
/-- The Pine source of a request without bars ends with what stands for the bars of the other one. -/
structure Glued (one other : Request digest floats) : Prop where
  empty : one.bars = []
  barred : other.bars ≠ []
  pineCode : one.pineCode = other.pineCode ++ firstLastBarHashMaterial floats other.bars
/-- Numbers as `String` writes them: by digits, a sign, a point, an exponent or a word. Negative zero is zero. -/
structure Numbers (Number : Type) where
  string : Number → Text
  injective : Function.Injective string
  plain : ∀ n, 124 ∉ string n ∧ 10 ∉ string n
structure Candle (Number : Type) where
  timestamp : Number
  «open» : Number
  high : Number
  low : Number
  close : Number
  volume : Number

variable {Number : Type}
def candleText (numbers : Numbers Number) (candle : Candle Number) : Text :=
  numbers.string candle.timestamp ++ 124 :: (numbers.string candle.open ++ 124 :: (numbers.string candle.high ++ 124 ::
    (numbers.string candle.low ++ 124 :: (numbers.string candle.close ++ 124 :: (numbers.string candle.volume ++ [10])))))
def checksumCandles (digest : Digest) (numbers : Numbers Number) (candles : List (Candle Number)) : Text :=
  digest.sha256 (candles.flatMap (candleText numbers))

/-- A job that was executed: its config, its Pine source, the exchange that the config is read with, and the feed. -/
structure Execution (Number : Type) where
  backtestConfig : List (Text × Json)
  pineCode : Text
  exchange : Text
  runBase : Text
  candles : List (Candle Number)
  writable : Writable (.object backtestConfig)
  finite : Throughout Finite (.object backtestConfig)
  texts : Separate pineCode ∧ Separate exchange ∧ Separate runBase

def sourceBundle (digest : Digest) (numbers : Numbers Number) (execution : Execution Number) : Json :=
  .object [(text "engine",.text (text "pineforge")),(text "exchange",.text execution.exchange),
    (text "pine_code",.text execution.pineCode),(text "pine_code_path",.text (text "strategy.pine")),
    (text "ohlcv_csv_storage_key",.text (execution.runBase ++ text "/pineforge-input/ohlcv.csv")),
    (text "source_feed_checksum",.text (checksumCandles digest numbers execution.candles))]
/-- What the worker's hash is of. A config without an engine leaves the key out. -/
def hashedRecord (digest : Digest) (numbers : Numbers Number) (execution : Execution Number) : Json :=
  .object (((execution.backtestConfig.lookup (text "engine")).map fun engine => (text "engine",engine)).toList ++
    [(text "config",.object execution.backtestConfig),
      (text "manifest_checksum",.text (checksumCandles digest numbers execution.candles)),
      (text "source_checksum",.text (digest.sha256 (stringify (sourceBundle digest numbers execution))))])
def reproducibilityHashFor (digest : Digest) (numbers : Numbers Number) (execution : Execution Number) : Text :=
  digest.sha256 (stringify (hashedRecord digest numbers execution))

theorem barItems_injective {bar other : BarC Amount}
    (same : (barItems floats bar).map (dumps compactSeparators) = (barItems floats other).map (dumps compactSeparators)) : bar = other := by
  obtain ⟨opened,high,low,close,volume,timestamp⟩ := bar
  obtain ⟨otherOpened,otherHigh,otherLow,otherClose,otherVolume,otherTimestamp⟩ := other
  simp only [barItems,map_cons,map_nil,dumps,List.cons.injEq,and_true] at same
  obtain ⟨timestamps,opens,highs,lows,closes,volumes⟩ := same
  rw [dumpInteger_injective timestamps,floats.dump_injective opens,floats.dump_injective highs,floats.dump_injective lows,
    floats.dump_injective closes,floats.dump_injective volumes]

theorem number_marks {c : Nat} (number : NumberChar c) : c ≠ 44 ∧ c ≠ 93 := by
  rcases number with digit | rfl | rfl | rfl | rfl
  · have bounds := digit_bounds digit
    exact ⟨by omega,by omega⟩
  all_goals exact ⟨by decide,by decide⟩
theorem float_marks {source : Text} (isFloat : FloatText source ∨ source ∈ specials) : ∀ c ∈ source, c ≠ 44 ∧ c ≠ 93 := by
  rcases isFloat with isFloat | special
  · exact fun c member => number_marks (float_chars isFloat c member)
  · have all : ∀ word ∈ specials, ∀ c ∈ word, c ≠ 44 ∧ c ≠ 93 := by decide
    exact all source special
theorem integer_marks (n : Int) : ∀ c ∈ dumpInteger n, c ≠ 44 ∧ c ≠ 93 :=
  fun c member => number_marks (integer_chars n c member)

theorem barItems_marks (floats : Floats Amount) (bar : BarC Amount) : ∀ item ∈ barItems floats bar,
    44 ∉ dumps compactSeparators item ∧ 93 ∉ dumps compactSeparators item := by
  have without : ∀ t : Text, (∀ c ∈ t, c ≠ 44 ∧ c ≠ 93) → 44 ∉ t ∧ 93 ∉ t :=
    fun t apart => ⟨fun member => (apart 44 member).1 rfl,fun member => (apart 93 member).2 rfl⟩
  have number : ∀ amount, 44 ∉ floats.dump amount ∧ 93 ∉ floats.dump amount :=
    fun amount => without _ (float_marks (floats.dump_float amount))
  intro item member
  simp only [barItems,mem_cons,not_mem_nil,or_false] at member
  rcases member with rfl | rfl | rfl | rfl | rfl | rfl
  · exact without _ (integer_marks bar.timestamp)
  all_goals exact number _

def material (floats : Floats Amount) (first last : BarC Amount) (count : Nat) : Json :=
  .array [.array (barItems floats first),.array (barItems floats last),.integer count]

theorem material_injective {first last other otherLast : BarC Amount} {count otherCount : Nat}
    (same : dumps compactSeparators (material floats first last count) = dumps compactSeparators (material floats other otherLast otherCount)) :
    first = other ∧ last = otherLast ∧ count = otherCount := by
  have spelled : ∀ (first last : BarC Amount) (count : Nat), dumps compactSeparators (material floats first last count) =
      91 :: 91 :: (dumpItems compactSeparators (barItems floats first) ++ 93 :: 44 :: 91 ::
        (dumpItems compactSeparators (barItems floats last) ++ 93 :: 44 :: (dumpInteger count ++ 93 :: []))) := by
    intro first last count
    simp only [material,dumps,dumpItems,compactSeparators,append_assoc,cons_append,nil_append]
  have marks : ∀ one two : BarC Amount, ∀ item ∈ barItems floats one ++ barItems floats two,
      44 ∉ dumps compactSeparators item ∧ 93 ∉ dumps compactSeparators item :=
    fun one two => forall_mem_append.mpr ⟨barItems_marks floats one,barItems_marks floats two⟩
  rw [spelled,spelled] at same
  have lengths : ∀ one two : BarC Amount, (barItems floats one).length = (barItems floats two).length := fun _ _ => rfl
  obtain ⟨firsts,behindFirst⟩ := dumpItems_injective (lengths first other) (marks first other) (List.cons.inj (List.cons.inj same).2).2
  obtain ⟨lasts,behindLast⟩ := dumpItems_injective (lengths last otherLast) (marks last otherLast) (List.cons.inj (List.cons.inj behindFirst).2).2
  have noMark : ∀ n : Nat, 93 ∉ dumpInteger n := fun n member => (integer_marks n 93 member).2 rfl
  obtain ⟨counts,_⟩ := before_mark (noMark count) (noMark otherCount) (List.cons.inj behindLast).2
  exact ⟨barItems_injective firsts,barItems_injective lasts,Int.ofNat.inj (dumpInteger_injective counts)⟩

theorem material_enclosed (first last : BarC Amount) (count : Nat) :
    Enclosed (dumps compactSeparators (material floats first last count)) := by
  refine dumps_enclosed (by decide) trivial ?_
  have items : ∀ bar : BarC Amount, Throughout Proper (.array (barItems floats bar)) := fun bar =>
    ⟨trivial,trivial,floats.dump_float bar.open,floats.dump_float bar.high,floats.dump_float bar.low,floats.dump_float bar.close,
      floats.dump_float bar.volume,trivial⟩
  exact ⟨trivial,items first,items last,trivial,trivial⟩
theorem material_bars {bars : List (BarC Amount)} (some : bars ≠ []) : ∃ first last, bars.head? = .some first ∧ bars.getLast? = .some last ∧
    firstLastBarHashMaterial floats bars = dumps compactSeparators (material floats first last bars.length) := by
  refine ⟨bars.head some,bars.getLast some,head?_eq_some_head some,getLast?_eq_some_getLast some,?_⟩
  unfold firstLastBarHashMaterial
  rw [head?_eq_some_head some,getLast?_eq_some_getLast some]
  rfl

theorem material_eq_iff {bars others : List (BarC Amount)} (some : bars ≠ []) (also : others ≠ []) :
    firstLastBarHashMaterial floats bars = firstLastBarHashMaterial floats others ↔ SameEnds bars others := by
  obtain ⟨first,last,isFirst,isLast,isMaterial⟩ := @material_bars _ floats _ some
  obtain ⟨otherFirst,otherLast,isOtherFirst,isOtherLast,isOtherMaterial⟩ := @material_bars _ floats _ also
  rw [isMaterial,isOtherMaterial]
  constructor
  · intro same
    obtain ⟨rfl,rfl,lengths⟩ := material_injective same
    exact ⟨lengths,isFirst.trans isOtherFirst.symm,isLast.trans isOtherLast.symm⟩
  · rintro ⟨lengths,firsts,lasts⟩
    rw [isFirst,isOtherFirst] at firsts
    rw [isLast,isOtherLast] at lasts
    rw [Option.some.inj firsts,Option.some.inj lasts,lengths]

theorem config_enclosed (request : Request digest floats) : Enclosed (dumps defaultSeparators (sortKeys (.object request.config))) := by
  refine dumps_enclosed (by decide) trivial ?_
  have writable := (writable_iff _).mp (sortKeys_writable _ request.writable)
  exact ((throughout_and _).mp writable).1

variable {one other : Request digest floats}
theorem config_injective
    (same : dumps defaultSeparators (sortKeys (.object one.config)) = dumps defaultSeparators (sortKeys (.object other.config))) :
    SameConfig one other :=
  JsonGrammar.dumps_injective (sortKeys_writable _ one.writable) (sortKeys_writable _ other.writable) same
def prelude (request : Request digest floats) : Text := request.pineCode ++ firstLastBarHashMaterial floats request.bars

theorem sameHash_iff :
    reproducibilityHash one = reproducibilityHash other ↔ SameConfig one other ∧ prelude one = prelude other := by
  constructor
  · intro same
    obtain ⟨preludes,configs⟩ := append_enclosed (config_enclosed one) (config_enclosed other) (digest.injective same)
    exact ⟨config_injective configs,preludes⟩
  · rintro ⟨configs,preludes⟩
    rw [prelude,prelude] at preludes
    rw [SameConfig] at configs
    rw [reproducibilityHash,reproducibilityHash,preludes,configs]

theorem samePrelude_iff : prelude one = prelude other ↔
    (one.pineCode = other.pineCode ∧ SameEnds one.bars other.bars) ∨ Glued one other ∨ Glued other one := by
  have none : ∀ request : Request digest floats, request.bars = [] → prelude request = request.pineCode := by
    intro request empty
    rw [prelude,empty]
    exact append_nil _
  by_cases empty : one.bars = []
  · by_cases also : other.bars = []
    · rw [none one empty,none other also]
      refine ⟨fun same => .inl ⟨same,?_⟩,?_⟩
      · rw [empty,also]
        exact ⟨rfl,rfl,rfl⟩
      · rintro (⟨same,_⟩ | glued | glued)
        · exact same
        · exact absurd also glued.barred
        · exact absurd empty glued.barred
    · rw [none one empty]
      refine ⟨fun same => .inr (.inl ⟨empty,also,same⟩),?_⟩
      rintro (⟨_,ends⟩ | glued | glued)
      · rw [empty] at ends
        exact absurd (length_eq_zero_iff.mp ends.length.symm) also
      · exact glued.pineCode
      · exact absurd glued.empty also
  · by_cases also : other.bars = []
    · rw [none other also]
      refine ⟨fun same => .inr (.inr ⟨also,empty,same.symm⟩),?_⟩
      rintro (⟨_,ends⟩ | glued | glued)
      · rw [also] at ends
        exact absurd (length_eq_zero_iff.mp ends.length) empty
      · exact absurd glued.empty empty
      · exact glued.pineCode.symm
    · constructor
      · intro same
        have enclosed : ∀ {bars : List (BarC Amount)}, bars ≠ [] → Enclosed (firstLastBarHashMaterial floats bars) := by
          intro bars some
          obtain ⟨first,last,_,_,isMaterial⟩ := @material_bars _ floats _ some
          exact isMaterial ▸ material_enclosed first last bars.length
        obtain ⟨pines,materials⟩ := append_enclosed (enclosed empty) (enclosed also) same
        exact .inl ⟨pines,(material_eq_iff empty also).mp materials⟩
      · rintro (⟨same,ends⟩ | glued | glued)
        · rw [prelude,prelude,same,(material_eq_iff empty also).mpr ends]
        · exact absurd glued.empty empty
        · exact absurd glued.empty also

/-- The sources and the ends are the same, and the feeds differ between them. -/
structure Between (one other : Request digest floats) : Prop where
  pineCode : one.pineCode = other.pineCode
  ends : SameEnds one.bars other.bars
  differ : one.bars ≠ other.bars

theorem tells_iff : (reproducibilityHash one = reproducibilityHash other → Same one other) ↔
    ¬(SameConfig one other ∧ (Between one other ∨ Glued one other ∨ Glued other one)) := by
  rw [sameHash_iff,samePrelude_iff]
  constructor
  · rintro tells ⟨configs,between | glued | glued⟩
    · exact between.differ (tells ⟨configs,.inl ⟨between.pineCode,between.ends⟩⟩).bars
    · exact glued.barred ((tells ⟨configs,.inr (.inl glued)⟩).bars ▸ glued.empty)
    · exact glued.barred ((tells ⟨configs,.inr (.inr glued)⟩).bars ▸ glued.empty)
  · rintro apart ⟨configs,⟨pines,ends⟩ | glued⟩
    · refine ⟨pines,configs,?_⟩
      by_contra differ
      exact apart ⟨configs,.inl ⟨pines,ends,differ⟩⟩
    · exact absurd ⟨configs,.inr glued⟩ apart

variable {numbers : Numbers Number}

theorem candleText_before {candle other : Candle Number} {rest more : Text}
    (same : candleText numbers candle ++ rest = candleText numbers other ++ more) : candle = other ∧ rest = more := by
  obtain ⟨timestamp,opened,high,low,close,volume⟩ := candle
  obtain ⟨otherTimestamp,otherOpened,otherHigh,otherLow,otherClose,otherVolume⟩ := other
  simp only [candleText,append_assoc,cons_append,nil_append] at same
  have bar : ∀ n, 124 ∉ numbers.string n := fun n => (numbers.plain n).1
  obtain ⟨timestamps,same⟩ := before_mark (bar _) (bar _) same
  obtain ⟨opens,same⟩ := before_mark (bar _) (bar _) same
  obtain ⟨highs,same⟩ := before_mark (bar _) (bar _) same
  obtain ⟨lows,same⟩ := before_mark (bar _) (bar _) same
  obtain ⟨closes,same⟩ := before_mark (bar _) (bar _) same
  obtain ⟨volumes,rests⟩ := before_mark (numbers.plain _).2 (numbers.plain _).2 same
  rw [numbers.injective timestamps,numbers.injective opens,numbers.injective highs,numbers.injective lows,numbers.injective closes,
    numbers.injective volumes]
  exact ⟨rfl,rests⟩

theorem candleText_nonempty (numbers : Numbers Number) (candle : Candle Number) : candleText numbers candle ≠ [] := by
  unfold candleText
  exact append_ne_nil_of_right_ne_nil _ (cons_ne_nil _ _)

variable {candles others : List (Candle Number)}

theorem candleTexts_injective
    (same : candles.flatMap (candleText numbers) = others.flatMap (candleText numbers)) : candles = others := by
  induction candles generalizing others with
  | nil =>
    cases others with
    | nil => rfl
    | cons other others => exact absurd (append_eq_nil_iff.mp same.symm).1 (candleText_nonempty numbers other)
  | cons candle candles ih =>
    cases others with
    | nil => exact absurd (append_eq_nil_iff.mp same).1 (candleText_nonempty numbers candle)
    | cons other others =>
      obtain ⟨rfl,rest⟩ := candleText_before same
      rw [ih rest]

theorem checksumCandles_injective
    (same : checksumCandles digest numbers candles = checksumCandles digest numbers others) : candles = others :=
  candleTexts_injective (digest.injective same)
theorem separate_append {t u : Text} (separate : Separate t) (ascii : ∀ c ∈ u, c < 128) : Separate (t ++ u) := by
  refine ⟨forall_mem_append.mpr ⟨separate.codePoints,(separate_ascii ascii).codePoints⟩,?_⟩
  refine isChain_append.mpr ⟨separate.apart,(separate_ascii ascii).apart,?_⟩
  intro c _ d isFirst _
  exact (not_halves (ascii d (mem_of_mem_head? isFirst))).2

theorem sourceBundle_writable (numbers : Numbers Number) (execution : Execution Number) :
    Writable (sourceBundle digest numbers execution) := by
  have literal : ∀ t ∈ ["engine","pineforge","exchange","pine_code","pine_code_path","strategy.pine","ohlcv_csv_storage_key",
      "source_feed_checksum"].map text, Separate t := by
    intro t member
    have ascii : ∀ t ∈ ["engine","pineforge","exchange","pine_code","pine_code_path","strategy.pine","ohlcv_csv_storage_key",
      "source_feed_checksum"].map text, ∀ c ∈ t, c < 128 := by decide
    exact separate_ascii (ascii t member)
  obtain ⟨pineCode,exchange,runBase⟩ := execution.texts
  have key : Separate (execution.runBase ++ text "/pineforge-input/ohlcv.csv") := separate_append runBase (by decide)
  have checksum : Separate (checksumCandles digest numbers execution.candles) := separate_ascii (digest.ascii _)
  refine ⟨?_,literal _ (by decide),literal _ (by decide),literal _ (by decide),exchange,literal _ (by decide),pineCode,
    literal _ (by decide),literal _ (by decide),literal _ (by decide),key,literal _ (by decide),checksum,trivial⟩
  show (["engine","exchange","pine_code","pine_code_path","ohlcv_csv_storage_key","source_feed_checksum"].map text).Nodup
  decide

theorem sourceBundle_finite (numbers : Numbers Number) (execution : Execution Number) :
    Throughout Finite (sourceBundle digest numbers execution) :=
  ⟨trivial,trivial,trivial,trivial,trivial,trivial,trivial,trivial⟩

theorem hashedRecord_writable (numbers : Numbers Number) (execution : Execution Number) :
    Writable (hashedRecord digest numbers execution) ∧ Throughout Finite (hashedRecord digest numbers execution) := by
  have literal : ∀ t ∈ ["engine","config","manifest_checksum","source_checksum"].map text, Separate t := by
    have ascii : ∀ t ∈ ["engine","config","manifest_checksum","source_checksum"].map text, ∀ c ∈ t, c < 128 := by decide
    exact fun t member => separate_ascii (ascii t member)
  have hexadecimal : ∀ t, Separate (digest.sha256 t) := fun t => separate_ascii (digest.ascii t)
  have writable : WritableEntries [(text "config",.object execution.backtestConfig),
      (text "manifest_checksum",.text (checksumCandles digest numbers execution.candles)),
      (text "source_checksum",.text (digest.sha256 (stringify (sourceBundle digest numbers execution))))] :=
    ⟨literal _ (by decide),execution.writable,literal _ (by decide),hexadecimal _,literal _ (by decide),hexadecimal _,trivial⟩
  unfold hashedRecord
  cases found : execution.backtestConfig.lookup (text "engine") with
  | none =>
    refine ⟨⟨?_,writable⟩,trivial,execution.finite,trivial,trivial,trivial⟩
    show (["config","manifest_checksum","source_checksum"].map text).Nodup
    decide
  | some engine =>
    have member := lookup_entry found
    refine ⟨⟨?_,literal _ (by decide),(writableEntries_iff.mp execution.writable.2 _ member).2,writable⟩,trivial,
      throughoutEntries_iff.mp execution.finite.2 _ member,execution.finite,trivial,trivial,trivial⟩
    show (["engine","config","manifest_checksum","source_checksum"].map text).Nodup
    decide

/-- The inputs of the worker's run are the same. -/
structure SameRun (one other : Execution Number) : Prop where
  pineCode : one.pineCode = other.pineCode
  config : one.backtestConfig = other.backtestConfig
  candles : one.candles = other.candles

theorem runHash_tells {one other : Execution Number}
    (same : reproducibilityHashFor digest numbers one = reproducibilityHashFor digest numbers other) : SameRun one other := by
  obtain ⟨writable,finite⟩ := @hashedRecord_writable digest _ numbers one
  obtain ⟨also,isFinite⟩ := @hashedRecord_writable digest _ numbers other
  have records := stringify_injective writable also finite isFinite (digest.injective same)
  have tails := (append_inj' (Json.object.inj records) rfl).2
  simp only [List.cons.injEq,Prod.mk.injEq,Json.object.injEq,Json.text.injEq,true_and,and_true] at tails
  obtain ⟨configs,checksums,sources⟩ := tails
  have bundles := stringify_injective (sourceBundle_writable numbers one) (sourceBundle_writable numbers other)
    (sourceBundle_finite numbers one) (sourceBundle_finite numbers other) (digest.injective sources)
  simp only [sourceBundle,Json.object.injEq,List.cons.injEq,Prod.mk.injEq,Json.text.injEq,true_and,and_true] at bundles
  exact ⟨bundles.2.1,configs,checksumCandles_injective checksums⟩

/-- Runs with the same hash have the same inputs, unless feeds of native runs differ between their ends or the bars of
    one stand in the source of another. -/
theorem hashesTell_iff (digest : Digest) (floats : Floats Amount) (numbers : Numbers Number) :
    (∀ one other : Request digest floats, (reproducibilityHash one = reproducibilityHash other → Same one other) ↔
      ¬(SameConfig one other ∧ (Between one other ∨ Glued one other ∨ Glued other one))) ∧
    ∀ one other : Execution Number, reproducibilityHashFor digest numbers one = reproducibilityHashFor digest numbers other →
      SameRun one other :=
  ⟨fun _ _ => tells_iff,fun _ _ => runHash_tells⟩

def sampleSha256 (t : Text) : Text := t.flatMap fun c => List.replicate c 48 ++ [49]

theorem sampleSha256_injective : Function.Injective sampleSha256 := by
  have unary : ∀ (n m : Nat) (rest more : Text), List.replicate n 48 ++ 49 :: rest = List.replicate m 48 ++ 49 :: more →
      n = m ∧ rest = more := by
    intro n m rest more same
    have noMark : ∀ k, 49 ∉ List.replicate k 48 := fun k member => absurd (eq_of_mem_replicate member) (by decide)
    obtain ⟨counts,rests⟩ := before_mark (noMark n) (noMark m) same
    have lengths := congrArg List.length counts
    rw [length_replicate,length_replicate] at lengths
    exact ⟨lengths,rests⟩
  intro t u same
  induction t generalizing u with
  | nil =>
    cases u with
    | nil => rfl
    | cons d u => exact absurd (append_eq_nil_iff.mp (append_eq_nil_iff.mp same.symm).1).2 (cons_ne_nil _ _)
  | cons c t ih =>
    cases u with
    | nil => exact absurd (append_eq_nil_iff.mp (append_eq_nil_iff.mp same).1).2 (cons_ne_nil _ _)
    | cons d u =>
      rw [sampleSha256,sampleSha256,flatMap_cons,flatMap_cons,append_assoc,append_assoc] at same
      obtain ⟨rfl,rest⟩ := unary c d _ _ same
      rw [ih rest]

theorem sampleSha256_ascii (t : Text) : ∀ c ∈ sampleSha256 t, c < 128 := by
  intro c member
  obtain ⟨d,_,inUnary⟩ := mem_flatMap.mp member
  rcases mem_append.mp inUnary with zero | one
  · rw [eq_of_mem_replicate zero]
    decide
  · rw [mem_singleton.mp one]
    decide

def sampleDigest : Digest := ⟨sampleSha256,sampleSha256_injective,sampleSha256_ascii⟩
/-- Natural numbers as floats: `1.0` is written of `1`. -/
def sampleDump (n : Nat) : Text := natText n ++ [46,48]
theorem sampleDump_injective : Function.Injective sampleDump := by
  intro n m same
  exact natText_injective (append_cancel_right same)
theorem sampleDump_float (n : Nat) : FloatText (sampleDump n) ∨ sampleDump n ∈ specials := by
  refine .inl ⟨⟨[],natText n,[46,48],[],?_,.inl rfl,natText_whole n,.inr ⟨48,[],rfl,by decide,fun _ member => absurd member not_mem_nil⟩,
    .inl rfl,fun both => absurd both.1 (cons_ne_nil _ _)⟩⟩
  rw [nil_append,append_nil]
  rfl
def sampleFloat : Option Text → Except Text Nat
  | some t => if t ≠ [] ∧ t.all asciiDigit then .ok (decimal t) else .error (text "could not convert string to float")
  | none => .error (text "float() argument must be a string or a real number, not 'NoneType'")

def sampleFloats : Floats Nat where
  float := sampleFloat
  int n := .ok n
  isfinite _ := true
  less n m := n < m
  dump := sampleDump
  dump_injective := sampleDump_injective
  dump_float := sampleDump_float

/-- Three bars, the second one at the price. -/
def sampleCsv (price : String) : OhlcvCsv where
  raw := text "timestamp,open,high,low,close,volume\n1,1,1,1,1,1\n2," ++ join (text ",") (List.replicate 4 (text price)) ++ text ",1\n3,1,1,1,1,1\n"
  fieldnames := some columns
  rows := [List.replicate 6 (text "1"),text "2" :: List.replicate 4 (text price) ++ [text "1"],text "3" :: List.replicate 5 (text "1")]
def sampleBars (price : Nat) : List (BarC Nat) := [⟨1,1,1,1,1,1⟩,⟨price,price,price,price,1,2⟩,⟨1,1,1,1,1,3⟩]
def sampleConfig : List (Text × Json) :=
  [(text "symbol",.text (text "BTC/USDT")),(text "timeframe",.text (text "1h")),(text "initial_capital",.integer 1000),
    (text "fee_bps",.integer 0),(text "slippage_bps",.integer 0)]
theorem sampleConfig_writable : Writable (.object sampleConfig) := by
  have literal : ∀ t ∈ ["symbol","BTC/USDT","timeframe","1h","initial_capital","fee_bps","slippage_bps"].map text, Separate t := by
    have ascii : ∀ t ∈ ["symbol","BTC/USDT","timeframe","1h","initial_capital","fee_bps","slippage_bps"].map text, ∀ c ∈ t, c < 128 := by decide
    exact fun t member => separate_ascii (ascii t member)
  have few : ∀ n ∈ [1000,0], (natText n).length ≤ maxDigits := by decide
  exact ⟨by decide,literal _ (by decide),literal _ (by decide),literal _ (by decide),literal _ (by decide),literal _ (by decide),
    few 1000 (by decide),literal _ (by decide),few 0 (by decide),literal _ (by decide),few 0 (by decide),trivial⟩
theorem sampleConfig_validated : ∀ key ∈ requiredKeys, key ∈ sampleConfig.map Prod.fst := by decide
theorem sample_rows : readRows sampleFloats none (sampleCsv "1").rows = .ok (sampleBars 1) ∧
    readRows sampleFloats none (sampleCsv "2").rows = .ok (sampleBars 2) := by
  decide +kernel
theorem sample_read {price : String} {bars : List (BarC Nat)} (rows : readRows sampleFloats none (sampleCsv price).rows = .ok bars) :
    readBars sampleDigest sampleFloats (sampleCsv price) =
      .ok (bars,⟨text "pass",bars.length,sampleDigest.sha256 (sampleCsv price).raw⟩) := by
  have noneEmpty : ((sampleCsv price).rows.filter fun row => !row.isEmpty) = (sampleCsv price).rows := rfl
  rw [readBars,if_neg fun differs => differs rfl,noneEmpty,rows]
  rfl

/-- The request of a feed whose second bar is at the price. -/
def sampleRequest {price : String} {bars : List (BarC Nat)} (rows : readRows sampleFloats none (sampleCsv price).rows = .ok bars) :
    Request sampleDigest sampleFloats where
  pineCode := text "plot(close)"
  csv := sampleCsv price
  config := sampleConfig
  bars := bars
  quality := ⟨text "pass",bars.length,sampleDigest.sha256 (sampleCsv price).raw⟩
  read := sample_read rows
  writable := sampleConfig_writable
  validated := sampleConfig_validated

/-- Feeds of three bars that differ in the second one have the same hash. -/
theorem middle_bar_unhashed : ¬(reproducibilityHash (sampleRequest sample_rows.1) = reproducibilityHash (sampleRequest sample_rows.2) →
    Same (sampleRequest sample_rows.1) (sampleRequest sample_rows.2)) := by
  intro tells
  have hashes : reproducibilityHash (sampleRequest sample_rows.1) = reproducibilityHash (sampleRequest sample_rows.2) := by
    have ends : SameEnds (sampleBars 1) (sampleBars 2) := ⟨rfl,rfl,rfl⟩
    exact sameHash_iff.mpr ⟨rfl,samePrelude_iff.mpr (.inl ⟨rfl,ends⟩)⟩
  have bars : sampleBars 1 = sampleBars 2 := (tells hashes).bars
  exact absurd bars (by decide)

end Codebot.ReproducibilityHashes
