import Codebot.KnowledgeIndex
import Codebot.Runs

/-!
Searches of the knowledge index through its two caches, of results and of query embeddings. What writes approved items
drops the results, a build drops both caches, and `ingest_knowledge_source` drops neither: a search after it finds the
result of before.

The ranking and the embedder are functions, and the hash of a key is the key itself.
-/
namespace Codebot.RetrievalCaches
open Runs Texts KnowledgeIndex

structure RetrievalOptions where
  limit : Nat
  lexicalLimit : Nat
  vectorLimit : Nat
  maxCharsPerChunk : Nat
  embeddingModel : Text
  embeddingProvider : Text
  prefilterLimit : Nat
deriving DecidableEq

/-- The arguments of `search_knowledge`, where a stage that is not given is empty. -/
structure Request where
  query : Text
  stage : Text
  options : RetrievalOptions
deriving DecidableEq
/-- The index settings, `_embed`, and the ranking of `search_knowledge` from the chunks that are active to
    the ones that it returns. -/
structure Settings (Numbers Retrieved : Type) extends KnowledgeIndex.Settings where
  embed : Embedding → Text → Numbers
  rank : Embedding → List Chunk → Request → Numbers → List Retrieved
/-- What `_retrieval_result_cache_key` hashes. -/
structure ResultKey where
  normalizedQuery : Text
  stage : Text
  registryRef : Text
  options : RetrievalOptions
deriving DecidableEq
/-- What `_query_embedding_cache_key` hashes. -/
structure EmbeddingKey where
  normalizedQuery : Text
  stage : Text
  embedding : Embedding
deriving DecidableEq
/-- The file of the index with its caches, if it was built. -/
structure Store (Numbers Retrieved : Type) where
  index : Index
  sourceRegistryRef : Text
  retrievalResultCache : ResultKey → Option (List Retrieved)
  queryEmbeddingCache : EmbeddingKey → Option Numbers

def priceActionAliases : List (String × List String) :=
  [("break of structure",["BOS","market structure break","swing break"]),
    ("bos",["break of structure","market structure break","swing high","swing low"]),
    ("choch",["change of character","market structure shift"]),
    ("liquidity sweep",["stop hunt","sweep and reclaim","false break"]),
    ("rejection candle",["wick rejection","pin bar","engulfing confirmation"]),
    ("support resistance",["range high","range low","supply demand"]),
    ("fvg",["fair value gap","imbalance"])]

def expandQueryTerms (unicode : Unicode) (query : Text) : List Text :=
  let lowered := unicode.lower query
  let aliases := priceActionAliases.flatMap fun entry => if contains (text entry.1) lowered then entry.2 else []
  let lookahead := if contains (text "lookahead_on") lowered then ["repaint","barmerge.lookahead_off","request.security"] else []
  let claims :=
    if ["cannot lose","guaranteed","guarantee","profit","live-ready","live ready","certified"].any (fun term => contains (text term) lowered)
    then ["risk policy","prohibited claim","must not claim","live trading approval"] else []
  dedupeStrings unicode ((aliases ++ lookahead ++ claims).map text)

def queryText (unicode : Unicode) (request : Request) : Text :=
  join (text " ") (request.query :: expandQueryTerms unicode request.query)
def normalizeQuery (unicode : Unicode) (query : Text) : Text :=
  join (text " ") (((unicode.lower query).splitOnP unicode.space).filter (· ≠ []))
def activeStatuses : List Text := [text "active",text "approved",text "auto_approved"]
def activeChunks (index : Index) (stage : Text) : List Chunk :=
  (index.chunks.filter (·.status ∈ activeStatuses)).filter fun chunk => stage = [] ∨ stage ∈ chunk.stages ∨ chunk.stages = []

section
variable {Numbers Retrieved : Type} (settings : Settings Numbers Retrieved)

def retrievalResultCacheKey (registryRef : Text) (request : Request) : ResultKey :=
  ⟨normalizeQuery settings.unicode (queryText settings.unicode request),request.stage,registryRef,request.options⟩
def queryEmbeddingCacheKey (embedding : Embedding) (request : Request) : EmbeddingKey :=
  ⟨normalizeQuery settings.unicode (queryText settings.unicode request),request.stage,embedding⟩
def ranked (index : Index) (request : Request) (numbers : Numbers) : List Retrieved :=
  settings.rank index.embedding (activeChunks index request.stage) request numbers

/-- `_local_query_embedding`: the embedding, and the cache with it. -/
def localQueryEmbedding (store : Store Numbers Retrieved) (request : Request) : Numbers × (EmbeddingKey → Option Numbers) :=
  let key := queryEmbeddingCacheKey settings store.index.embedding request
  match store.queryEmbeddingCache key with
  | some numbers => (numbers,store.queryEmbeddingCache)
  | none =>
    let numbers := settings.embed store.index.embedding (queryText settings.unicode request)
    (numbers,Function.update store.queryEmbeddingCache key (some numbers))

/-- `search_knowledge`: the chunks, and the store after it. -/
def searchKnowledge (store : Store Numbers Retrieved) (request : Request) : List Retrieved × Store Numbers Retrieved :=
  let key := retrievalResultCacheKey settings store.sourceRegistryRef request
  match store.retrievalResultCache key with
  | some result => (result,store)
  | none =>
    let embedded := localQueryEmbedding settings store request
    let result := ranked settings store.index request embedded.1
    (result,{ store with
      retrievalResultCache := Function.update store.retrievalResultCache key (some result)
      queryEmbeddingCache := embedded.2 })

/-- What changes an index or searches it. An approval is one of a candidate or of a source summary, or
    the auto-promotions of a review. -/
inductive Label
  | build (embedding : Embedding) (registryRef : Text) (documents : List (Text × Item))
  | ingest (embedding : Embedding) (document : Text × Item)
  | approve (items : List Item)
  | search (request : Request)

def step (state : Option (Store Numbers Retrieved)) : Label → Option (Option (Store Numbers Retrieved))
  | .build embedding registryRef documents =>
    some (some
      { index := buildKnowledgeIndex settings.toSettings embedding documents
        sourceRegistryRef := registryRef
        retrievalResultCache := fun _ => none
        queryEmbeddingCache := fun _ => none })
  | .ingest embedding document =>
    state.map fun store => some { store with index := ingestKnowledgeSource settings.toSettings embedding store.index document }
  | .approve items =>
    state.map fun store => some { store with
      index := writeApprovedItems settings.toSettings store.index items
      retrievalResultCache := fun _ => none }
  | .search request => state.map fun store => some (searchKnowledge settings store request).2

def retrieve (index : Index) (request : Request) : List Retrieved :=
  ranked settings index request (settings.embed index.embedding (queryText settings.unicode request))
/-- The keys of two searches agree on the query and the stage. -/
def SameQuery (request other : Request) : Prop :=
  normalizeQuery settings.unicode (queryText settings.unicode request) =
    normalizeQuery settings.unicode (queryText settings.unicode other) ∧ request.stage = other.stage

/-- Before the results are dropped, no later search has the key of this one after a source was ingested,
    nor has its key and gives other chunks. -/
def Undisturbed (request : Request) (ingested : Bool) : List Label → Prop
  | [] | .build _ _ _ :: _ | .approve _ :: _ => True
  | .ingest _ _ :: rest => Undisturbed request true rest
  | .search other :: rest =>
    (SameQuery settings other request → other.options = request.options →
        ingested = false ∧ ∀ index, retrieve settings index other = retrieve settings index request) ∧
      Undisturbed request ingested rest

/-- Before the next build, no later search has the key of this one and a text that embeds otherwise. -/
def Recognized (request : Request) : List Label → Prop
  | [] | .build _ _ _ :: _ => True
  | .ingest _ _ :: rest | .approve _ :: rest => Recognized request rest
  | .search other :: rest =>
    (SameQuery settings other request → ∀ embedding, settings.embed embedding (queryText settings.unicode other) =
      settings.embed embedding (queryText settings.unicode request)) ∧ Recognized request rest
/-- No search is followed by one that finds what it cached and should not. -/
def Steady : List Label → Prop
  | [] => True
  | .search request :: rest => Undisturbed settings request false rest ∧ Recognized settings request rest ∧ Steady rest
  | .build _ _ _ :: rest | .ingest _ _ :: rest | .approve _ :: rest => Steady rest

/-- What is cached comes from searches, and is right for what follows as long as these are undisturbed. -/
structure Known (store : Store Numbers Retrieved) (rest : List Label) : Prop where
  results : ∀ key result, store.retrievalResultCache key = some result →
    ∃ request ingested, key = retrievalResultCacheKey settings store.sourceRegistryRef request ∧
      Undisturbed settings request ingested rest ∧ (ingested = false → result = retrieve settings store.index request)
  embeddings : ∀ key numbers, store.queryEmbeddingCache key = some numbers →
    ∃ embedding request, key = queryEmbeddingCacheKey settings embedding request ∧ Recognized settings request rest ∧
      numbers = settings.embed embedding (queryText settings.unicode request)

variable {settings}
variable {request : Request} {rest : List Label} {store : Store Numbers Retrieved}

theorem localQueryEmbedding_eq (known : Known settings store (.search request :: rest)) :
    (localQueryEmbedding settings store request).1 = settings.embed store.index.embedding (queryText settings.unicode request) := by
  unfold localQueryEmbedding
  dsimp only
  split
  next numbers cached =>
    obtain ⟨embedding,other,same,recognized,rfl⟩ := known.embeddings _ _ cached
    obtain ⟨sameQuery,sameStage,sameEmbedding⟩ := EmbeddingKey.mk.inj same
    rw [sameEmbedding]
    exact (recognized.1 ⟨sameQuery,sameStage⟩ embedding).symm
  next => rfl

theorem searchKnowledge_eq (known : Known settings store (.search request :: rest)) :
    (searchKnowledge settings store request).1 = retrieve settings store.index request := by
  unfold searchKnowledge
  dsimp only
  split
  next result cached =>
    obtain ⟨other,ingested,same,undisturbed,right⟩ := known.results _ _ cached
    obtain ⟨sameQuery,sameStage,-,sameOptions⟩ := ResultKey.mk.inj same
    obtain ⟨fresh,alike⟩ := undisturbed.1 ⟨sameQuery,sameStage⟩ sameOptions
    exact (right fresh).trans (alike store.index).symm
  next =>
    dsimp only
    rw [localQueryEmbedding_eq known]
    rfl

theorem known_search
    (known : Known settings store (.search request :: rest)) (undisturbed : Undisturbed settings request false rest)
    (recognized : Recognized settings request rest) : Known settings (searchKnowledge settings store request).2 rest := by
  have results : ∀ key result, store.retrievalResultCache key = some result →
      ∃ request ingested, key = retrievalResultCacheKey settings store.sourceRegistryRef request ∧
        Undisturbed settings request ingested rest ∧ (ingested = false → result = retrieve settings store.index request) := by
    intro key result cached
    obtain ⟨other,ingested,same,later,right⟩ := known.results key result cached
    exact ⟨other,ingested,same,later.2,right⟩
  have embeddings : ∀ key numbers, store.queryEmbeddingCache key = some numbers →
      ∃ embedding request, key = queryEmbeddingCacheKey settings embedding request ∧ Recognized settings request rest ∧
        numbers = settings.embed embedding (queryText settings.unicode request) := by
    intro key numbers cached
    obtain ⟨embedding,other,same,later,right⟩ := known.embeddings key numbers cached
    exact ⟨embedding,other,same,later.2,right⟩
  have answer := searchKnowledge_eq known
  unfold searchKnowledge at answer ⊢
  dsimp only at answer ⊢
  split at answer
  next result cached =>
    exact ⟨results,embeddings⟩
  next =>
    refine ⟨?_,?_⟩
    · intro key result cached
      dsimp only at cached
      by_cases here : key = retrievalResultCacheKey settings store.sourceRegistryRef request
      · rw [here,Function.update_self] at cached
        cases cached
        exact ⟨request,false,here,undisturbed,fun _ => answer⟩
      · rw [Function.update_of_ne here] at cached
        exact results key result cached
    · intro key numbers cached
      dsimp only [localQueryEmbedding] at cached
      split at cached
      · exact embeddings key numbers cached
      · dsimp only at cached
        by_cases here : key = queryEmbeddingCacheKey settings store.index.embedding request
        · rw [here,Function.update_self] at cached
          cases cached
          exact ⟨store.index.embedding,request,here,recognized,rfl⟩
        · rw [Function.update_of_ne here] at cached
          exact embeddings key numbers cached

variable {label : Label} {state : Option (Store Numbers Retrieved)}

theorem known_step {next : Option (Store Numbers Retrieved)}
    (known : ∀ store ∈ state, Known settings store (label :: rest)) (steady : Steady settings (label :: rest))
    (stepped : step settings state label = some next) : ∀ store ∈ next, Known settings store rest := by
  cases label with
  | build embedding registryRef documents =>
    cases stepped
    rintro _ ⟨⟩
    exact ⟨nofun,nofun⟩
  | ingest embedding document =>
    obtain ⟨store,isStore,rfl⟩ := Option.map_eq_some_iff.mp stepped
    rintro _ ⟨⟩
    have before := known store isStore
    refine ⟨?_,before.embeddings⟩
    intro key result cached
    obtain ⟨request,ingested,same,undisturbed,-⟩ := before.results key result cached
    exact ⟨request,true,same,undisturbed,nofun⟩
  | approve items =>
    obtain ⟨store,isStore,rfl⟩ := Option.map_eq_some_iff.mp stepped
    rintro _ ⟨⟩
    exact ⟨nofun,(known store isStore).embeddings⟩
  | search request =>
    obtain ⟨store,isStore,rfl⟩ := Option.map_eq_some_iff.mp stepped
    rintro _ ⟨⟩
    exact known_search (known store isStore) steady.1 steady.2.1

theorem Steady.tail (steady : Steady settings (label :: rest)) : Steady settings rest := by
  cases label with
  | search request => exact steady.2.2
  | build _ _ _ | ingest _ _ | approve _ => exact steady

theorem known_run {last : Option (Store Numbers Retrieved)} {before : List Label}
    (known : ∀ store ∈ state, Known settings store (before ++ rest)) (steady : Steady settings (before ++ rest))
    (ran : run (step settings) state before = some last) : ∀ store ∈ last, Known settings store rest := by
  induction before generalizing state with
  | nil =>
    cases ran
    exact known
  | cons label labels ih =>
    obtain ⟨next,stepped,continued⟩ := run_cons_some.mp ran
    exact ih (known_step known steady stepped) steady.tail continued

end

/-- Sample settings: an item is one chunk, and a search gives the texts that contain its query. -/
def wholeTexts : Settings Unit Text where
  unicode := ascii
  chunksForItem _ item := [⟨text "c",item.id,item.content,item.domainTags,item.marketTags,item.platformTags,item.status,item.stages,[]⟩]
  embed _ _ := ()
  rank _ chunks request _ := ((chunks.filter fun chunk => contains request.query chunk.content).map (·.content)).take request.options.limit
def sampleDocument (name : String) : Text × Item :=
  (text name,⟨.source [],text "semantic",text name,text "sizing",[],[],[],text "internal_doc",text name,text "high",text "active",[]⟩)
def sampleRequest : Request := ⟨text "sizing",[],⟨6,20,20,900,text "m",text "local",200⟩⟩
end Codebot.RetrievalCaches
