import Codebot.Encodings
import Codebot.IsoTimes
import Codebot.JsonGrammar
import Codebot.KeysetPages
import Mathlib.Data.List.Lex
import Mathlib.Data.Prod.Lex

/-!
Pages of artifacts, the newest first. The cursor of a page is the time and the id of its last artifact, as JSON in
Base64. In memory a page is a slice of the artifacts; in SQL it is a query with a key set (`pages_complete`).
-/
namespace Codebot.ArtifactPages
open Texts JsonTexts JsonDumps Dates IsoTimes KeysetPages List
open Series (Ascending ordered)
open JsonGrammar (loads_dumps)

structure Auth where
  userId : Nat
  workspaceId : Nat
deriving DecidableEq

structure Artifact where
  id : Text
  conversationId : Option Nat
  ownerUserId : Nat
  workspaceId : Nat
  kind : Text
  createdAt : Aware
deriving DecidableEq

inductive Visibility
  | user | all
deriving DecidableEq
def internalArtifactKinds : List Text :=
  [text "agent_run",text "harness_evidence_summary",text "knowledge_context",text "live_error",text "live_metadata",
    text "live_workflow_trace",text "quality_report",text "runtime_trace_summary",text "backtest_equity_curve",
    text "backtest_plan",text "backtest_run_metadata",text "backtest_source_bundle",text "backtest_strategy_adapter_source",
    text "backtest_trades",text "backtest_ohlcv_metadata",text "candle_cache_manifest",text "market_data_cache_manifest",
    text "market_data_ohlcv_metadata",text "pineforge_compile_report",text "pineforge_runner_manifest",
    text "pineforge_validation_report",text "validation_report"]
def isUserVisibleArtifactKind (kind : Text) : Bool := !internalArtifactKinds.contains kind
/-- The artifacts of the caller, of a conversation or of all, that a filter shows. -/
def shown (auth : Auth) (conversationId : Option Nat) (visibility : Visibility) (artifact : Artifact) : Bool :=
  (conversationId.isNone || artifact.conversationId == conversationId) && artifact.ownerUserId == auth.userId &&
    artifact.workspaceId == auth.workspaceId && (visibility == .all || isUserVisibleArtifactKind artifact.kind)
/-- `CONVERSATION_ARTIFACT_STATE_LIMIT` and `CONVERSATION_ARTIFACT_PAGE_MAX_LIMIT`. -/
def stateLimit : Nat := 50
def pageMaxLimit : Nat := 100
def boundedArtifactPageLimit : Option Int → Nat
  | none => stateLimit
  | some limit => min pageMaxLimit (max 1 limit).toNat
/-- What the processes bring along: `str` of a value that is no text, and how the session of the
    database reads a naive time. -/
structure Platform where
  unicode : StableUnicode
  str : Json → Text
  str_text : ∀ t, str (.text t) = t
  naive : Int → Int
inductive Failure
  /-- `ValueError("invalid artifact cursor")`. -/
  | invalidCursor
  /-- The comparison of a naive time with an aware one. -/
  | typeError
deriving DecidableEq
def encodeArtifactPageCursor (artifact : Artifact) : Text :=
  Encodings.stripPadding (Encodings.encode (dumps compactSeparators
    (.object [(text "created_at",.text artifact.createdAt.isoformat),(text "id",.text artifact.id)])))

/-- The time and the id that a cursor holds. -/
def decodePosition (platform : Platform) (cursor : Text) : Option (Datetime × Text) :=
  if cursor.all fun c => c < 128 then do
    let raw ← Encodings.decode (cursor ++ Encodings.padding cursor)
    let source ← Encodings.utf8 raw
    match loads source with
    | .ok (.object payload) => do
      let createdAt ← payload.lookup (text "created_at")
      let createdAt ← fromisoformat (platform.str createdAt)
      let id ← payload.lookup (text "id")
      if platform.str id = [] then none else some (createdAt,platform.str id)
    | _ => none
  else none

def decodeArtifactPageCursor (platform : Platform) : Option Text → Except Failure (Option (Datetime × Text))
  | none => .ok none
  | some cursor =>
    if strip platform.unicode.toUnicode cursor = [] then .ok none
    else
      match decodePosition platform cursor with
      | none => .error .invalidCursor
      | some position => .ok (some position)

def instant (time : Aware) : Int := time.datetime.seconds * 1000000 + time.clock.microsecond - time.utcoffset
structure ArtifactPage where
  items : List Artifact
  nextCursor : Option Text
deriving DecidableEq
def pageOf (limit : Nat) (found : List Artifact) : ArtifactPage :=
  ⟨(cut limit found).1,(cut limit found).2.map encodeArtifactPageCursor⟩
/-- `(created_at, id)`, the largest first. -/
def position (artifact : Artifact) : (Int ×ₗ Text)ᵒᵈ := OrderDual.toDual (toLex (instant artifact.createdAt,artifact.id))

/-- `_list_artifact_page` in memory. -/
def listInMemory (platform : Platform) (artifacts : List Artifact) (auth : Auth) (conversationId : Option Nat) (limit : Option Int)
    (visibility : Visibility) (cursor : Option Text) : Except Failure ArtifactPage :=
  match decodeArtifactPageCursor platform cursor with
  | .error failure => .error failure
  | .ok none => .ok (pageOf (boundedArtifactPageLimit limit) (ordered position (artifacts.filter (shown auth conversationId visibility))))
  | .ok (some (createdAt,id)) =>
    let candidates := artifacts.filter (shown auth conversationId visibility)
    match createdAt.offset with
    | none => if candidates = [] then .ok (pageOf (boundedArtifactPageLimit limit) []) else .error .typeError
    | some offset =>
      let cursorValue : Int ×ₗ Text := toLex (createdAt.seconds * 1000000 + createdAt.clock.microsecond - offset,id)
      .ok (pageOf (boundedArtifactPageLimit limit) (ordered position
        (candidates.filter fun artifact => toLex (instant artifact.createdAt,artifact.id) < cursorValue)))

/-- How the database orders texts: ids as their code points. -/
structure Collation where
  Key : Type
  order : LinearOrder Key
  key : Text → Key
instance (collation : Collation) : LinearOrder collation.Key := collation.order
def Drawn (id : Text) : Prop := ∃ hex, id = opaqueId (text "art") hex ∧ hex.length = 32 ∧ ∀ c ∈ hex, asciiDigit c ∨ between 'a' 'f' c
/-- A collation orders ids by their digits, before their letters. -/
structure Collation.Orders (collation : Collation) : Prop where
  ids : ∀ id other, Drawn id → Drawn other → (collation.key id < collation.key other ↔ id < other)
/-- `ORDER BY created_at DESC, id DESC`. -/
def rank (collation : Collation) (artifact : Artifact) : (Int ×ₗ collation.Key)ᵒᵈ :=
  OrderDual.toDual (toLex (instant artifact.createdAt,collation.key artifact.id))

/-- `_list_artifact_page` in SQL. -/
def listInSql (platform : Platform) (collation : Collation) (rows : List Artifact) (auth : Auth) (conversationId : Option Nat)
    (limit : Option Int) (visibility : Visibility) (cursor : Option Text) : Except Failure ArtifactPage :=
  match decodeArtifactPageCursor platform cursor with
  | .error failure => .error failure
  | .ok cursorValue =>
    let after (row : Artifact) : Bool :=
      match cursorValue with
      | none => true
      | some (cursorCreatedAt,cursorId) =>
        let local' := cursorCreatedAt.seconds * 1000000 + cursorCreatedAt.clock.microsecond
        let bound := match cursorCreatedAt.offset with | none => platform.naive local' | some offset => local' - offset
        instant row.createdAt < bound || (instant row.createdAt == bound && collation.key row.id < collation.key cursorId)
    .ok (pageOf (boundedArtifactPageLimit limit)
      (ordered (rank collation) (rows.filter fun row => shown auth conversationId visibility row && after row)))

def listed (page : Except Failure ArtifactPage) : Option (List Artifact × Option Text) :=
  match page with
  | .ok page => some (page.items,page.nextCursor)
  | .error _ => none

theorem Drawn.ascii {id : Text} (drawn : Drawn id) : id ≠ [] ∧ ∀ c ∈ id, c < 128 := by
  obtain ⟨hex,rfl,_,digits⟩ := drawn
  refine ⟨cons_ne_nil _ _,?_⟩
  have literal : ∀ c ∈ text "art" ++ text "_", c < 128 := by decide
  refine forall_mem_append.mpr ⟨literal,?_⟩
  intro c member
  rcases digits c member with digit | letter
  · have bounds := Dates.digit_bounds.mp digit
    omega
  · simp [between] at letter
    omega

theorem dumpText_ascii {t : Text} (ascii : ∀ c ∈ t, c < 128) : ∀ c ∈ dumpText t, c < 128 := by
  have each : ∀ c < 128, ∀ d ∈ escapeChar c, d < 128 := by decide
  refine forall_mem_append.mpr ⟨forall_mem_cons.mpr ⟨by decide,fun d escaped => ?_⟩,by decide⟩
  obtain ⟨c,member,inside⟩ := mem_flatMap.mp escaped
  exact each c (ascii c member) d inside

theorem decode_encode (platform : Platform) {artifact : Artifact} (drawn : Drawn artifact.id) :
    decodeArtifactPageCursor platform (some (encodeArtifactPageCursor artifact)) =
      .ok (some (artifact.createdAt.datetime,artifact.id)) := by
  obtain ⟨written,plainId⟩ := drawn.ascii
  have timeAscii := isoformat_ascii artifact.createdAt
  generalize isPayload : [(text "created_at",Json.text artifact.createdAt.isoformat),(text "id",Json.text artifact.id)] = payload
  have keys : (∀ c ∈ text "created_at", c < 128) ∧ (∀ c ∈ text "id", c < 128) ∧ text "created_at" ≠ text "id" := by decide
  have writable : Writable (.object payload) := by
    subst isPayload
    refine ⟨?_,separate_ascii keys.1,separate_ascii timeAscii,separate_ascii keys.2.1,separate_ascii plainId,trivial⟩
    exact nodup_cons.mpr ⟨fun member => keys.2.2 (mem_singleton.mp member),nodup_singleton _⟩
  have isAscii : ∀ c ∈ dumps compactSeparators (.object payload), c < 128 := by
    subst isPayload
    have createdAt : ∀ c ∈ dumpText (text "created_at") ++ [58] ++ dumpText artifact.createdAt.isoformat, c < 128 :=
      forall_mem_append.mpr ⟨forall_mem_append.mpr ⟨dumpText_ascii keys.1,by decide⟩,dumpText_ascii timeAscii⟩
    have id : ∀ c ∈ dumpText (text "id") ++ [58] ++ dumpText artifact.id, c < 128 :=
      forall_mem_append.mpr ⟨forall_mem_append.mpr ⟨dumpText_ascii keys.2.1,by decide⟩,dumpText_ascii plainId⟩
    refine forall_mem_cons.mpr ⟨by decide,?_⟩
    exact forall_mem_append.mpr ⟨forall_mem_append.mpr ⟨forall_mem_append.mpr ⟨createdAt,by decide⟩,id⟩,by decide⟩
  have isBytes : ∀ c ∈ dumps compactSeparators (.object payload), c < 256 := fun c member => (isAscii c member).trans (by decide)
  have visible := Encodings.encode_visible isBytes
  have whole := Encodings.decode_encode isBytes
  have isCursor : encodeArtifactPageCursor artifact =
      Encodings.stripPadding (Encodings.encode (dumps compactSeparators (.object payload))) := by
    rw [← isPayload]
    rfl
  have isSome := Encodings.encode_some isBytes (by rw [dumps]; exact cons_ne_nil _ _)
  rw [isCursor]
  generalize Encodings.stripPadding (Encodings.encode (dumps compactSeparators (.object payload))) = cursor at *
  have notSpace : ∀ c ∈ cursor, platform.unicode.space c = false := by
    intro c member
    obtain ⟨large,small⟩ := visible c member
    rw [platform.unicode.space_ascii c small]
    simp only [ascii,Bool.or_eq_false_iff,Bool.and_eq_false_iff,beq_eq_false_iff_ne,decide_eq_false_iff_not]
    omega
  have notBlank : strip platform.unicode.toUnicode cursor ≠ [] := by
    rw [strip_trimmed ⟨fun c head => notSpace c (mem_of_mem_head? head),fun c last => notSpace c (mem_of_mem_getLast? last)⟩]
    exact isSome
  have position : decodePosition platform cursor = some (artifact.createdAt.datetime,artifact.id) := by
    have plain : (cursor.all fun c => c < 128) = true := by
      rw [all_eq_true]
      exact fun c member => decide_eq_true (visible c member).2
    rw [decodePosition,if_pos plain,whole]
    simp only [Option.bind_eq_bind,Option.bind_some,Encodings.utf8_ascii isAscii,loads_dumps compactSeparators writable]
    subst isPayload
    have other : (text "id" == text "created_at") = false := by decide
    simp [lookup_cons,platform.str_text,fromisoformat_isoformat,written,other]
  rw [decodeArtifactPageCursor,if_neg notBlank,position]

variable {platform : Platform} {collation : Collation} {artifacts rows : List Artifact}
theorem position_injective {artifact other : Artifact} (same : position artifact = position other) : artifact.id = other.id :=
  congrArg Prod.snd (toLex.injective (OrderDual.toDual.injective same))
theorem positions_distinct (distinct : (artifacts.map (·.id)).Nodup) : (artifacts.map position).Nodup :=
  List.Nodup.map_on (fun _ isA _ isB same => inj_on_of_nodup_map distinct isA isB (position_injective same)) distinct.of_map
theorem Collation.Orders.rank_lt (orders : collation.Orders) {artifact other : Artifact} (drawn : Drawn artifact.id)
    (also : Drawn other.id) : rank collation artifact < rank collation other ↔ position artifact < position other := by
  simp only [rank,position,OrderDual.toDual_lt_toDual,Prod.Lex.toLex_lt_toLex,orders.ids other.id artifact.id also drawn]

theorem Collation.Orders.distinct (orders : collation.Orders) (drawn : ∀ artifact ∈ artifacts, Drawn artifact.id)
    (distinct : (artifacts.map (·.id)).Nodup) : (artifacts.map (rank collation)).Nodup := by
  refine List.Nodup.map_on ?_ distinct.of_map
  intro a isA b isB same
  apply inj_on_of_nodup_map distinct isA isB
  apply position_injective
  have before := (orders.rank_lt (drawn a isA) (drawn b isB)).not.mp (not_lt.mpr same.ge)
  have after := (orders.rank_lt (drawn b isB) (drawn a isA)).not.mp (not_lt.mpr same.le)
  exact le_antisymm (not_lt.mp after) (not_lt.mp before)

theorem ordered_rank (orders : collation.Orders) (perm : rows.Perm artifacts) (drawn : ∀ artifact ∈ artifacts, Drawn artifact.id)
    (distinct : (artifacts.map (·.id)).Nodup) : ordered (rank collation) rows = ordered position artifacts := by
  have rowsDrawn : ∀ row ∈ rows, Drawn row.id := fun row member => drawn row (perm.mem_iff.mp member)
  have rowsDistinct : (rows.map (·.id)).Nodup := (perm.map _).nodup_iff.mpr distinct
  have ascending : Ascending position (ordered (rank collation) rows) := by
    refine List.Pairwise.imp_of_mem ?_ (Series.ordered_ascending (orders.distinct rowsDrawn rowsDistinct))
    intro a b isA isB earlier
    exact (orders.rank_lt (rowsDrawn a (Series.mem_ordered.mp isA)) (rowsDrawn b (Series.mem_ordered.mp isB))).mp earlier
  refine ascending.ext (Series.ordered_ascending (positions_distinct distinct)) fun artifact => ?_
  rw [Series.mem_ordered,Series.mem_ordered,perm.mem_iff]

variable {auth : Auth} {conversationId : Option Nat} {limit : Option Int} {visibility : Visibility}
/-- The artifacts after one, in order. -/
def later (shown : Artifact → Bool) (after : Option Artifact) (artifacts : List Artifact) : List Artifact :=
  (artifacts.filter shown).filter fun artifact => (after.map position).all fun bound => bound < position artifact
theorem later_none (shown : Artifact → Bool) (artifacts : List Artifact) : later shown none artifacts = artifacts.filter shown :=
  filter_eq_self.mpr fun _ _ => rfl

theorem listInMemory_eq (after : Option Artifact) (drawn : ∀ artifact ∈ after, Drawn artifact.id) :
    listInMemory platform artifacts auth conversationId limit visibility (after.map encodeArtifactPageCursor) =
      .ok (pageOf (boundedArtifactPageLimit limit) (ordered position (later (shown auth conversationId visibility) after artifacts))) := by
  cases after with
  | none =>
    rw [later_none]
    rfl
  | some artifact =>
    rw [Option.map_some,listInMemory,decode_encode platform (drawn artifact rfl)]
    rfl

theorem listInSql_eq (orders : collation.Orders) (perm : rows.Perm artifacts) (distinct : (artifacts.map (·.id)).Nodup)
    (drawn : ∀ artifact ∈ artifacts, Drawn artifact.id) (after : Option Artifact) (isDrawn : ∀ artifact ∈ after, Drawn artifact.id) :
    listInSql platform collation rows auth conversationId limit visibility (after.map encodeArtifactPageCursor) =
      .ok (pageOf (boundedArtifactPageLimit limit) (ordered position (later (shown auth conversationId visibility) after artifacts))) := by
  have sub : ∀ artifact ∈ later (shown auth conversationId visibility) after artifacts, artifact ∈ artifacts :=
    fun artifact member => mem_of_mem_filter (mem_of_mem_filter member)
  have found : ordered (rank collation) (later (shown auth conversationId visibility) after rows) =
      ordered position (later (shown auth conversationId visibility) after artifacts) := by
    refine ordered_rank orders ((perm.filter _).filter _) (fun artifact member => drawn artifact (sub artifact member)) ?_
    exact distinct.sublist ((filter_sublist.trans filter_sublist).map _)
  rw [← found]
  cases after with
  | none =>
    rw [later_none]
    simp [listInSql,decodeArtifactPageCursor]
  | some artifact =>
    have filtered : later (shown auth conversationId visibility) (some artifact) rows = rows.filter fun row =>
        shown auth conversationId visibility row && (instant row.createdAt < instant artifact.createdAt ||
          (instant row.createdAt == instant artifact.createdAt && collation.key row.id < collation.key artifact.id)) := by
      rw [later,filter_filter]
      apply filter_congr
      intro row member
      rw [Bool.eq_iff_iff]
      have byId := orders.ids row.id artifact.id (drawn row (perm.mem_iff.mp member)) (isDrawn artifact rfl)
      simp [position,Prod.Lex.toLex_lt_toLex,byId,and_comm]
    rw [Option.map_some,listInSql,decode_encode platform (isDrawn artifact rfl),filtered]
    rfl

theorem limit_pos (limit : Option Int) : 0 < boundedArtifactPageLimit limit := by
  cases limit with
  | none => decide
  | some limit =>
    rw [boundedArtifactPageLimit,pageMaxLimit]
    omega

/-- A cursor gives its position back, the repositories list the same pages, and the pages from the first on end and hold
    what is shown, each once and in order. -/
theorem pages_complete (platform : Platform) (orders : collation.Orders) (perm : rows.Perm artifacts)
    (distinct : (artifacts.map (·.id)).Nodup) (drawn : ∀ artifact ∈ artifacts, Drawn artifact.id) (auth : Auth)
    (conversationId : Option Nat) (limit : Option Int) (visibility : Visibility) :
    (∀ artifact, Drawn artifact.id → decodeArtifactPageCursor platform (some (encodeArtifactPageCursor artifact)) =
        .ok (some (artifact.createdAt.datetime,artifact.id))) ∧
      (∀ after : Option Artifact, (∀ artifact ∈ after, Drawn artifact.id) →
        listInSql platform collation rows auth conversationId limit visibility (after.map encodeArtifactPageCursor) =
          listInMemory platform artifacts auth conversationId limit visibility (after.map encodeArtifactPageCursor)) ∧
      ∃ pages, (follow (fun cursor => listed (listInMemory platform artifacts auth conversationId limit visibility cursor))
            (artifacts.length + 1) none = some pages ∧
          follow (fun cursor => listed (listInSql platform collation rows auth conversationId limit visibility cursor))
            (artifacts.length + 1) none = some pages) ∧
        Ascending position pages.flatten ∧
        (∀ artifact, artifact ∈ pages.flatten ↔ artifact ∈ artifacts ∧ shown auth conversationId visibility artifact) ∧
        ∀ page ∈ pages, page.length ≤ boundedArtifactPageLimit limit := by
  have agree : ∀ after : Option Artifact, (∀ artifact ∈ after, Drawn artifact.id) →
      listInSql platform collation rows auth conversationId limit visibility (after.map encodeArtifactPageCursor) =
        listInMemory platform artifacts auth conversationId limit visibility (after.map encodeArtifactPageCursor) := by
    intro after isDrawn
    rw [listInSql_eq orders perm distinct drawn after isDrawn,listInMemory_eq after isDrawn]
  refine ⟨fun artifact isDrawn => decode_encode platform isDrawn,agree,?_⟩
  generalize isVisible : artifacts.filter (shown auth conversationId visibility) = visible
  have visibleDistinct : (visible.map position).Nodup := by
    rw [← isVisible]
    exact (positions_distinct distinct).sublist (filter_sublist.map _)
  have few : (ordered position visible).length < artifacts.length + 1 := by
    rw [ordered,length_insertionSort,← isVisible]
    exact Nat.lt_succ_of_le (length_filter_le _ _)
  have members : ∀ before rest, ordered position visible = before ++ rest → ∀ artifact ∈ before.getLast?, Drawn artifact.id := by
    intro before rest split artifact isLast
    have isVisibleArtifact : artifact ∈ visible := by
      rw [← @Series.mem_ordered _ _ _ position,split]
      exact mem_append_left _ (mem_of_mem_getLast? isLast)
    rw [← isVisible] at isVisibleArtifact
    exact drawn artifact (mem_of_mem_filter isVisibleArtifact)
  have listsMemory : Lists encodeArtifactPageCursor (boundedArtifactPageLimit limit) (ordered position visible)
      fun cursor => listed (listInMemory platform artifacts auth conversationId limit visibility cursor) := by
    intro before rest split
    dsimp only
    rw [listInMemory_eq before.getLast? (members before rest split),later,isVisible]
    have isPage := page_eq visibleDistinct split (boundedArtifactPageLimit limit)
    rw [page] at isPage
    rw [listed,pageOf,isPage]
  have listsSql : Lists encodeArtifactPageCursor (boundedArtifactPageLimit limit) (ordered position visible)
      fun cursor => listed (listInSql platform collation rows auth conversationId limit visibility cursor) := by
    intro before rest split
    dsimp only
    rw [agree before.getLast? (members before rest split)]
    exact listsMemory before rest split
  have starts := (nil_append (ordered position visible)).symm
  obtain ⟨pages,followed,whole,short⟩ := @follow_whole _ _ encodeArtifactPageCursor _ (limit_pos limit) _ _ _ _ starts few
  refine ⟨pages,⟨followed _ listsMemory,followed _ listsSql⟩,?_,?_,short⟩
  · rw [whole]
    exact Series.ordered_ascending visibleDistinct
  · intro artifact
    rw [whole,Series.mem_ordered,← isVisible,mem_filter]

/-- `str`, of texts only. -/
def textOf : Json → Text
  | .text t => t
  | _ => []
def plainPlatform : Platform := ⟨stableAscii,textOf,fun _ => rfl,id⟩
def binary : Collation := ⟨Text,inferInstance,id⟩
theorem newYear_legal : (date 2024 1 1).isSome ∧ Legal ⟨0,0,0,0⟩ := by decide
def newYear : Aware := ⟨2024,1,1,⟨0,0,0,0⟩,false,⟨0,0,0,0⟩,newYear_legal.1,newYear_legal.2,newYear_legal.2⟩
def report (digit : Nat) : Artifact := ⟨opaqueId (text "art") (List.replicate 32 digit),some 5,1,2,text "backtest_report",newYear⟩

/-- With pages of one artifact, both of them are listed, from either repository. -/
theorem twoReports_listed :
    ∃ pages, follow (fun cursor => listed (listInMemory plainPlatform [report 49,report 97] ⟨1,2⟩ (some 5) (some 1) .user cursor)) 3 none =
        some pages ∧
      follow (fun cursor => listed (listInSql plainPlatform binary [report 97,report 49] ⟨1,2⟩ (some 5) (some 1) .user cursor)) 3 none =
        some pages ∧ ∀ artifact, artifact ∈ pages.flatten ↔
          artifact ∈ [report 49,report 97] ∧ shown ⟨1,2⟩ (some 5) .user artifact := by
  have orders : binary.Orders := ⟨fun _ _ _ _ => Iff.rfl⟩
  have drawn : ∀ artifact ∈ [report 49,report 97], Drawn artifact.id := by
    intro artifact member
    rcases mem_cons.mp member with rfl | other
    · exact ⟨_,rfl,rfl,by decide⟩
    · rw [mem_singleton.mp other]
      exact ⟨_,rfl,rfl,by decide⟩
  obtain ⟨_,_,pages,⟨memory,sql⟩,_,members,_⟩ := pages_complete plainPlatform orders (List.Perm.swap (report 49) (report 97) [])
    (by decide) drawn ⟨1,2⟩ (some 5) (some 1) .user
  exact ⟨pages,memory,sql,members⟩

end Codebot.ArtifactPages
