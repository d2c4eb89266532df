import Codebot.JsonDumps

/-!
The index of the knowledge base as one JSON file. Whatever writes items replaces those of the same ids and computes
the chunks, the retrieval index and the statistics anew from all of them (`Recomputed`).

The chunks of one item, with their embeddings, are a parameter.
-/
namespace Codebot.KnowledgeIndex
open Texts List
open JsonDumps (atMost)

scoped instance decidableMemText (t : Text) (texts : List Text) : Decidable (t ∈ texts) :=
  decidable_of_iff (texts.elem t = true) List.elem_iff

inductive ItemId
  | lesson (candidateId : Text)
  | source (id : Text)
deriving DecidableEq
/-- `embedding_model` and `embedding_provider`. -/
structure Embedding where
  model : Text
  provider : Text
deriving DecidableEq

structure Item where
  id : ItemId
  type : Text
  title : Text
  content : Text
  domainTags : List Text
  marketTags : List Text
  platformTags : List Text
  sourceType : Text
  sourceUri : Text
  trustLevel : Text
  status : Text
  stages : List Text
deriving DecidableEq

structure Chunk where
  chunkId : Text
  sourceId : ItemId
  content : Text
  domainTags : List Text
  marketTags : List Text
  platformTags : List Text
  status : Text
  stages : List Text
  searchTerms : List Text
deriving DecidableEq

structure Source where
  id : ItemId
  type : Text
  trustLevel : Text
  uri : Text
deriving DecidableEq
/-- The tables of the retrieval index: how many chunks have a token, and the chunks of a source and of a tag. -/
structure RetrievalIndex where
  tokenDocumentFrequency : Text → Nat
  sourceMap : ItemId → List Text
  tagMap : Text → List Text
structure IndexStats where
  itemCount : Nat
  chunkCount : Nat
  sourceCount : Nat
  typeCounts : Text → Nat
structure Index where
  embedding : Embedding
  items : List Item
  sources : List Source
  chunks : List Chunk
  retrievalIndex : RetrievalIndex
  stats : IndexStats
/-- The tables of Unicode, and the chunks of an item. -/
structure Settings where
  unicode : Unicode
  chunksForItem : Embedding → Item → List Chunk
def dedupeStrings (unicode : Unicode) (values : List Text) : List Text :=
  values.foldl (fun output value =>
    let normalized := strip unicode value
    if normalized = [] ∨ normalized ∈ output then output else output ++ [normalized]) []
def knowledgeTypes : List Text :=
  [text "semantic",text "procedural",text "episodic",text "strategy_pattern",text "source_ref"]
def trustLevels : List Text := [text "low",text "medium",text "high",text "agent_reviewed"]

/-- `_item`. -/
def normalizeItem (unicode : Unicode) (item : Item) : Item :=
  let general := fun tags : List Text => if tags = [] then [text "general"] else tags
  { item with
    type := if item.type ∈ knowledgeTypes then item.type else text "semantic"
    domainTags := dedupeStrings unicode item.domainTags
    marketTags := dedupeStrings unicode (general item.marketTags)
    platformTags := dedupeStrings unicode (general item.platformTags)
    trustLevel := if item.trustLevel ∈ trustLevels then item.trustLevel else text "medium"
    stages := dedupeStrings unicode item.stages }

def sourceFromItem (item : Item) : Source := ⟨item.id,item.sourceType,item.trustLevel,item.sourceUri⟩
def chunksForItems (settings : Settings) (embedding : Embedding) (items : List Item) : List Chunk :=
  items.flatMap (settings.chunksForItem embedding)
def insertSorted (value : Text) : List Text → List Text
  | [] => [value]
  | other :: rest => if atMost value other then value :: other :: rest else other :: insertSorted value rest
def sorted (values : List Text) : List Text := values.foldr insertSorted []
def Chunk.tags (chunk : Chunk) : List Text := chunk.domainTags ++ chunk.marketTags ++ chunk.platformTags
def retrievalIndexPayload (chunks : List Chunk) : RetrievalIndex where
  tokenDocumentFrequency token := chunks.countP fun chunk => token ∈ chunk.searchTerms
  sourceMap source := sorted ((chunks.filter (·.sourceId = source)).map (·.chunkId))
  tagMap tag := sorted ((chunks.filter (tag ∈ ·.tags)).map (·.chunkId)).eraseDups
def indexStats (items : List Item) (chunks : List Chunk) (sources : List Source) : IndexStats where
  itemCount := items.length
  chunkCount := chunks.length
  sourceCount := sources.length
  typeCounts type := items.countP (·.type = type)

def indexPayload (settings : Settings) (embedding : Embedding) (items : List Item) (sources : List Source) : Index :=
  let chunks := chunksForItems settings embedding items
  { embedding := embedding
    items := items
    sources := sources
    chunks := chunks
    retrievalIndex := retrievalIndexPayload chunks
    stats := indexStats items chunks sources }

def documentItem (unicode : Unicode) (document : Text × Item) : Item :=
  normalizeItem unicode { document.2 with id := .source document.1 }
/-- `build_knowledge_index` of the documents and the seeds. -/
def buildKnowledgeIndex (settings : Settings) (embedding : Embedding) (documents : List (Text × Item)) : Index :=
  let items := documents.map (documentItem settings.unicode)
  indexPayload settings embedding items (items.map sourceFromItem)
/-- Items that replace those of their ids, as every operation writes them. -/
def writeItems (settings : Settings) (embedding : Embedding) (index : Index) (items : List Item) : Index :=
  let others := fun id => id ∉ items.map (·.id)
  indexPayload settings embedding (index.items.filter (fun item => others item.id) ++ items)
    (index.sources.filter (fun source => others source.id) ++ items.map sourceFromItem)
/-- `_write_approved_items_to_index`, and the end of `approve_candidate` and of `approve_source_summary`. -/
def writeApprovedItems (settings : Settings) (index : Index) (items : List Item) : Index :=
  writeItems settings index.embedding index items
/-- `ingest_knowledge_source`, which changes the embedding of the index to its own. -/
def ingestKnowledgeSource (settings : Settings) (embedding : Embedding) (index : Index) (document : Text × Item) : Index :=
  writeItems settings embedding index [documentItem settings.unicode document]
/-- The chunks, the retrieval index and the statistics are those of the items. -/
structure Recomputed (settings : Settings) (index : Index) : Prop where
  chunks : index.chunks = chunksForItems settings index.embedding index.items
  retrievalIndex : index.retrievalIndex = retrievalIndexPayload index.chunks
  stats : index.stats = indexStats index.items index.chunks index.sources
theorem recomputed_payload (settings : Settings) (embedding : Embedding) (items : List Item) (sources : List Source) :
    Recomputed settings (indexPayload settings embedding items sources) := ⟨rfl,rfl,rfl⟩
theorem recomputed_build (settings : Settings) (embedding : Embedding) (documents : List (Text × Item)) :
    Recomputed settings (buildKnowledgeIndex settings embedding documents) := recomputed_payload _ _ _ _
theorem lesson_not_built (settings : Settings) (embedding : Embedding) (documents : List (Text × Item)) (candidateId : Text) :
    .lesson candidateId ∉ (buildKnowledgeIndex settings embedding documents).items.map (·.id) := by
  intro member
  obtain ⟨item,isItem,same⟩ := mem_map.mp member
  obtain ⟨document,-,rfl⟩ := mem_map.mp isItem
  cases same
theorem recomputed_write (settings : Settings) (embedding : Embedding) (index : Index) (items : List Item) :
    Recomputed settings (writeItems settings embedding index items) := recomputed_payload _ _ _ _

theorem ids_write (settings : Settings) (embedding : Embedding) (index : Index) (items : List Item) (id : ItemId) :
    id ∈ (writeItems settings embedding index items).items.map (·.id) ↔
      id ∈ items.map (·.id) ∨ id ∈ index.items.map (·.id) := by
  show id ∈ (index.items.filter (fun item => item.id ∉ items.map (·.id)) ++ items).map (·.id) ↔ _
  rw [map_append,mem_append]
  constructor
  · rintro (kept | written)
    · obtain ⟨item,member,rfl⟩ := mem_map.mp kept
      exact .inr (mem_map_of_mem (mem_of_mem_filter member))
    · exact .inl written
  · rintro (written | before)
    · exact .inr written
    · by_cases replaced : id ∈ items.map (·.id)
      · exact .inr replaced
      · obtain ⟨item,member,rfl⟩ := mem_map.mp before
        exact .inl (mem_map_of_mem (mem_filter.mpr ⟨member,decide_eq_true replaced⟩))
end Codebot.KnowledgeIndex
