import Codebot.JsonTexts

/-!
The strict schema that is asked of a model, in which optional properties are nullable and required, and the nulls that
are pruned from its answers (`strict_exact`). An enum of objects knows no null properties.
-/
namespace Codebot.StrictSchemas
open Texts JsonTexts List

inductive TypeName
  | string
  | number
  | integer
  | boolean
  | object
  | array
  | null
deriving DecidableEq

/-- The keyword `type`. -/
inductive TypeField
  | one (name : TypeName)
  | several (names : List TypeName)
def TypeField.names : TypeField → List TypeName
  | .one name => [name]
  | .several names => names

/-- The keywords of a schema. -/
structure Schema where
  type : Option TypeField
  enum : Option (List Json)
  properties : Option (List (Text × Schema))
  required : List Text
  items : Option Schema
  additionalProperties : Bool
  default : Option Json

def isNull : Json → Bool
  | .null => true
  | _ => false
def nullableSchema (node : Schema) : Schema :=
  { node with
    type := node.type.map fun field =>
      match field with
      | .one name => .several [name,.null]
      | .several names => if .null ∈ names then .several names else .several (names ++ [.null])
    enum := node.enum.map fun members => if members.any isNull then members else members ++ [.null] }

mutual

def strictSchemaNode (optional : Bool) : Schema → Schema
  | ⟨type,enum,properties,required,items,additionalProperties,_⟩ =>
    let node : Schema :=
      match type, properties, items with
      | some (.one .object), some properties, items =>
        ⟨type,enum,some (strictProperties required properties),properties.map Prod.fst,items,false,none⟩
      | some (.one .array), properties, some items =>
        ⟨type,enum,properties,required,some (strictSchemaNode false items),additionalProperties,none⟩
      | type, properties, items => ⟨type,enum,properties,required,items,additionalProperties,none⟩
    if optional then nullableSchema node else node

def strictProperties (required : List Text) : List (Text × Schema) → List (Text × Schema)
  | [] => []
  | (key,value) :: rest => (key,strictSchemaNode (!required.contains key) value) :: strictProperties required rest

end

def strictResponseSchema (schema : Schema) : Schema := strictSchemaNode false schema

mutual

def pruneNulls : Json → Json
  | .object entries => .object (pruneEntries entries)
  | .array items => .array (pruneItems items)
  | value => value
def pruneEntries : List (Text × Json) → List (Text × Json)
  | [] => []
  | (key,item) :: rest => if isNull item then pruneEntries rest else (key,pruneNulls item) :: pruneEntries rest
def pruneItems : List Json → List Json
  | [] => []
  | item :: rest => pruneNulls item :: pruneItems rest

end

def Scalar : Json → Prop
  | .array _ => False
  | .object _ => False
  | _ => True
/-- What the validator of JSON schemas decides itself: which floats are integers, and when a value is a member of an enum. -/
structure Validator where
  whole : Text → Bool
  same : Json → Json → Prop
  null_same : same .null .null
  same_null : ∀ {value member}, same value member → (value = .null ↔ member = .null)
  same_scalar : ∀ {value member}, same value member → Scalar member → Scalar value

def Validator.HasType (validator : Validator) : TypeName → Json → Prop
  | .string, .text _ => True
  | .number, .integer _ => True
  | .number, .float _ => True
  | .integer, .integer _ => True
  | .integer, .float source => validator.whole source = true
  | .boolean, .bool _ => True
  | .object, .object _ => True
  | .array, .array _ => True
  | .null, .null => True
  | _, _ => False

def keys {Value : Type} (entries : List (Text × Value)) : List Text := entries.map Prod.fst

section
variable (validator : Validator)

/-- A value is valid under a schema. -/
inductive Valid : Schema → Json → Prop
  | intro {schema value}
      (typed : ∀ field, schema.type = some field → ∃ name ∈ field.names, validator.HasType name value)
      (listed : ∀ members, schema.enum = some members → ∃ member ∈ members, validator.same value member)
      (fields : ∀ entries, value = .object entries → ∀ key child, (key,child) ∈ schema.properties.getD [] →
        ∀ item, (key,item) ∈ entries → Valid child item)
      (required : ∀ entries, value = .object entries → ∀ key ∈ schema.required, key ∈ keys entries)
      (closed : ∀ entries, value = .object entries → schema.additionalProperties = false →
        ∀ key ∈ keys entries, key ∈ keys (schema.properties.getD []))
      (items : ∀ values, value = .array values → ∀ child, schema.items = some child → ∀ item ∈ values, Valid child item) :
      Valid schema value

/-- The schemas of one type name, an enum of such members, properties of which no required one admits null, and items. -/
inductive Built (allowed : Json → Prop) : Schema → Prop
  | intro {schema} (single : ∃ name, schema.type = some (.one name))
      (members : ∀ members, schema.enum = some members → ∀ member ∈ members, allowed member)
      (distinct : (keys (schema.properties.getD [])).Nodup)
      (properties : ∀ key child, (key,child) ∈ schema.properties.getD [] → Built allowed child)
      (required : ∀ key ∈ schema.required, ∃ child, (key,child) ∈ schema.properties.getD [] ∧ ¬ Valid validator child .null)
      (items : ∀ child, schema.items = some child → Built allowed child) : Built allowed schema

end

/-- The value has only declared properties. -/
inductive Declared : Schema → Json → Prop
  | intro {schema value}
      (closed : ∀ entries, value = .object entries → ∀ properties, schema.properties = some properties →
        ∀ key ∈ keys entries, key ∈ keys properties)
      (fields : ∀ entries, value = .object entries → ∀ key child, (key,child) ∈ schema.properties.getD [] →
        ∀ item, (key,item) ∈ entries → Declared child item)
      (items : ∀ values, value = .array values → ∀ child, schema.items = some child → ∀ item ∈ values, Declared child item) :
      Declared schema value

def property (properties : List (Text × Schema)) (key : Text) : Option Schema := (properties.find? (·.1 = key)).map Prod.snd
def absent (schema : Schema) (entries : List (Text × Json)) : List (Text × Json) :=
  ((schema.properties.getD []).filter fun declared =>
    !schema.required.contains declared.1 && !(keys entries).contains declared.1).map fun declared => (declared.1,.null)

mutual

/-- The value with its absent optional properties set to null. -/
def withNulls (schema : Schema) : Json → Json
  | .object entries => .object (nulledEntries (schema.properties.getD []) entries ++ absent schema entries)
  | .array items => .array (nulledItems schema.items items)
  | value => value
def nulledEntries (properties : List (Text × Schema)) : List (Text × Json) → List (Text × Json)
  | [] => []
  | (key,item) :: rest =>
    (key,match property properties key with
      | some child => withNulls child item
      | none => item) :: nulledEntries properties rest
def nulledItems (items : Option Schema) : List Json → List Json
  | [] => []
  | item :: rest =>
    (match items with
      | some child => withNulls child item
      | none => item) :: nulledItems items rest

end

inductive Step
  | key (key : Text)
  | index (index : Nat)
/-- What stands at a place: a scalar, an object, or an array of a length. -/
inductive Shape
  | scalar (value : Json)
  | object
  | array (length : Nat)
def shape : Json → Shape
  | .object _ => .object
  | .array items => .array items.length
  | value => .scalar value
inductive Has : Json → List Step → Shape → Prop
  | here {value} : Has value [] (shape value)
  | key {entries key item path found} (member : (key,item) ∈ entries) (inner : Has item path found) :
      Has (.object entries) (.key key :: path) found
  | index {items index item path found} (isItem : items[index]? = some item) (inner : Has item path found) :
      Has (.array items) (.index index :: path) found
theorem isNull_iff {value : Json} : isNull value = true ↔ value = .null := by
  cases value <;> simp [isNull]

theorem pruneEntries_eq (entries : List (Text × Json)) :
    pruneEntries entries = (entries.filter fun entry => !isNull entry.2).map fun entry => (entry.1,pruneNulls entry.2) := by
  induction entries with
  | nil => rfl
  | cons entry rest ih =>
    obtain ⟨key,item⟩ := entry
    rw [pruneEntries,ih]
    cases null : isNull item <;> simp [null]

theorem pruneItems_eq (items : List Json) : pruneItems items = items.map pruneNulls := by
  induction items with
  | nil => rfl
  | cons item rest ih => rw [pruneItems,ih,map_cons]

theorem mem_pruneEntries {entries : List (Text × Json)} {key : Text} {pruned : Json} :
    (key,pruned) ∈ pruneEntries entries ↔ ∃ item, (key,item) ∈ entries ∧ item ≠ .null ∧ pruned = pruneNulls item := by
  rw [pruneEntries_eq,mem_map]
  constructor
  · rintro ⟨⟨_,item⟩,member,same⟩
    cases same
    obtain ⟨listed,some⟩ := mem_filter.mp member
    refine ⟨item,listed,fun null => ?_,rfl⟩
    rw [null] at some
    cases some
  · rintro ⟨item,listed,some,rfl⟩
    refine ⟨(key,item),mem_filter.mpr ⟨listed,?_⟩,rfl⟩
    rw [Bool.not_eq_true',← Bool.not_eq_true,isNull_iff]
    exact some

variable {found : Shape}
theorem has_here {value : Json} : Has value [] found ↔ found = shape value := by
  constructor
  · intro has
    cases has
    rfl
  · rintro rfl
    exact .here

/-- Pruning keeps what is no null. -/
theorem content_kept {value : Json} {path : List Step} (some : found ≠ .scalar .null) :
    Has (pruneNulls value) path found ↔ Has value path found := by
  induction path generalizing value with
  | nil =>
    have same : shape (pruneNulls value) = shape value := by
      cases value with
      | array items => simp [pruneNulls,shape,pruneItems_eq]
      | _ => rfl
    rw [has_here,has_here,same]
  | cons step path ih =>
    constructor
    · intro has
      cases value with
      | object entries =>
        cases has with
        | key member inner =>
          obtain ⟨item,listed,_,rfl⟩ := mem_pruneEntries.mp member
          exact .key listed (ih.mp inner)
      | array items =>
        cases has with
        | index isItem inner =>
          rw [pruneItems_eq,getElem?_map] at isItem
          obtain ⟨item,original,rfl⟩ := Option.map_eq_some_iff.mp isItem
          exact .index original (ih.mp inner)
      | _ => nomatch has
    · intro has
      cases has with
      | @key entries key item _ _ listed inner =>
        refine .key (mem_pruneEntries.mpr ⟨item,listed,?_,rfl⟩) (ih.mpr inner)
        rintro rfl
        cases inner
        exact some rfl
      | index isItem inner =>
        refine .index ?_ (ih.mpr inner)
        rw [pruneItems_eq,getElem?_map,isItem]
        rfl

theorem mem_strictProperties {required : List Text} {properties : List (Text × Schema)} {key : Text} {strict : Schema} :
    (key,strict) ∈ strictProperties required properties ↔
      ∃ child, (key,child) ∈ properties ∧ strict = strictSchemaNode (!required.contains key) child := by
  induction properties with
  | nil => simp [strictProperties]
  | cons declared rest ih =>
    obtain ⟨name,value⟩ := declared
    rw [strictProperties,mem_cons,ih]
    constructor
    · rintro (same | ⟨child,listed,rfl⟩)
      · cases same
        exact ⟨value,mem_cons_self,rfl⟩
      · exact ⟨child,mem_cons_of_mem _ listed,rfl⟩
    · rintro ⟨child,listed,rfl⟩
      rcases mem_cons.mp listed with same | listed
      · cases same
        exact .inl rfl
      · exact .inr ⟨child,listed,rfl⟩

theorem keys_strictProperties (required : List Text) (properties : List (Text × Schema)) :
    keys (strictProperties required properties) = keys properties := by
  induction properties with
  | nil => rfl
  | cons declared rest ih =>
    obtain ⟨name,value⟩ := declared
    exact congrArg (name :: ·) ih

/-- The keywords of a strict schema. -/
structure Strict (optional : Bool) (schema strict : Schema) (name : TypeName) : Prop where
  type : strict.type = some (if optional then .several [name,.null] else .one name)
  enum : strict.enum = if optional then schema.enum.map fun members => if members.any isNull then members else members ++ [.null]
    else schema.enum
  object : name = .object → ∀ properties, schema.properties = some properties →
    strict.properties = some (strictProperties schema.required properties) ∧ strict.required = keys properties ∧
      strict.additionalProperties = false
  free : name = .object → schema.properties = none → strict.properties = none ∧ strict.required = schema.required ∧
    strict.additionalProperties = schema.additionalProperties
  array : name = .array → strict.items = schema.items.map (strictSchemaNode false)

theorem strict_node (optional : Bool) {schema : Schema} {name : TypeName} (single : schema.type = some (.one name)) :
    Strict optional schema (strictSchemaNode optional schema) name := by
  obtain ⟨_,enum,properties,required,items,additionalProperties,_⟩ := schema
  cases single
  constructor
  all_goals
    cases optional <;> cases name <;> cases properties <;> cases items <;> simp [strictSchemaNode,nullableSchema,keys]

section
variable {validator : Validator} {allowed : Json → Prop}

theorem scalar_kept {value : Json} (isScalar : Scalar value) (schema : Schema) :
    withNulls schema value = value ∧ pruneNulls value = value := by
  cases value with
  | array _ => exact isScalar.elim
  | object _ => exact isScalar.elim
  | _ => exact ⟨rfl,rfl⟩
theorem typed_kept {name : TypeName} {value : Json} (schema : Schema) :
    (validator.HasType name (withNulls schema value) ↔ validator.HasType name value) ∧
      (validator.HasType name (pruneNulls value) ↔ validator.HasType name value) := by
  cases value <;> cases name <;> exact ⟨Iff.rfl,Iff.rfl⟩

variable {entries : List (Text × Json)}
theorem type_of_object {name : TypeName} (typed : validator.HasType name (.object entries)) : name = .object := by
  cases name <;> first | rfl | cases typed
theorem type_of_array {name : TypeName} {values : List Json} (typed : validator.HasType name (.array values)) : name = .array := by
  cases name <;> first | rfl | cases typed

variable {schema : Schema}

/-- A nullable schema admits null. -/
theorem null_valid (built : Built validator allowed schema) : Valid validator (strictSchemaNode true schema) .null := by
  obtain ⟨⟨name,single⟩,_⟩ := built
  have strict := strict_node true single
  refine .intro ?_ ?_ nofun nofun nofun nofun
  · intro field isField
    cases isField.symm.trans strict.type
    exact ⟨.null,by simp [TypeField.names],trivial⟩
  · intro members isMembers
    obtain ⟨originals,_,rfl⟩ := Option.map_eq_some_iff.mp (strict.enum.symm.trans isMembers)
    refine ⟨.null,?_,validator.null_same⟩
    split
    · rename_i has
      obtain ⟨member,listed,null⟩ := any_eq_true.mp has
      rwa [← isNull_iff.mp null]
    · exact mem_append_right _ (mem_singleton_self _)

variable {child : Schema} {properties : List (Text × Schema)}

theorem property_of_mem (distinct : (keys properties).Nodup) {key : Text}
    (listed : (key,child) ∈ properties) : property properties key = some child := by
  induction properties with
  | nil => cases listed
  | cons declared rest ih =>
    obtain ⟨fresh,distinct⟩ := nodup_cons.mp distinct
    rcases mem_cons.mp listed with rfl | listed
    · simp [property]
    · have differs : declared.1 ≠ key := fun same => fresh (same ▸ mem_map_of_mem listed)
      rw [property,find?_cons_of_neg (by simpa using differs)]
      exact ih distinct listed

theorem mem_nulledEntries {key : Text}
    (isChild : property properties key = some child) {nulled : Json} (listed : (key,nulled) ∈ nulledEntries properties entries) :
    ∃ item, (key,item) ∈ entries ∧ nulled = withNulls child item := by
  induction entries with
  | nil => cases listed
  | cons entry rest ih =>
    obtain ⟨name,item⟩ := entry
    rw [nulledEntries] at listed
    rcases mem_cons.mp listed with same | listed
    · cases same
      rw [isChild]
      exact ⟨item,mem_cons_self,rfl⟩
    · obtain ⟨item,listed,same⟩ := ih listed
      exact ⟨item,mem_cons_of_mem _ listed,same⟩

theorem keys_nulledEntries (properties : List (Text × Schema)) (entries : List (Text × Json)) :
    keys (nulledEntries properties entries) = keys entries := by
  induction entries with
  | nil => rfl
  | cons entry rest ih =>
    obtain ⟨name,item⟩ := entry
    exact congrArg (name :: ·) ih
theorem nulledItems_eq (child : Schema) (items : List Json) : nulledItems (some child) items = items.map (withNulls child) := by
  induction items with
  | nil => rfl
  | cons item rest ih => rw [nulledItems,ih,map_cons]

theorem mem_absent {key : Text} {item : Json} :
    (key,item) ∈ absent schema entries ↔
      key ∈ keys (schema.properties.getD []) ∧ key ∉ schema.required ∧ key ∉ keys entries ∧ item = .null := by
  unfold absent keys
  simp only [mem_map,mem_filter,Bool.and_eq_true,Bool.not_eq_true',contains_eq_mem,decide_eq_false_iff_not,Prod.mk.injEq]
  constructor
  · rintro ⟨declared,⟨listed,optional,missing⟩,rfl,rfl⟩
    exact ⟨⟨declared,listed,rfl⟩,optional,missing,rfl⟩
  · rintro ⟨⟨declared,listed,rfl⟩,optional,missing,rfl⟩
    exact ⟨declared,⟨listed,optional,missing⟩,rfl,rfl⟩

theorem mem_keys {Value : Type} {entries : List (Text × Value)} {key : Text} : key ∈ keys entries ↔ ∃ value, (key,value) ∈ entries := by
  simp [keys]
theorem withNulls_object {value : Json} {nulled : List (Text × Json)} (isObject : withNulls schema value = .object nulled) :
    ∃ entries, value = .object entries ∧ nulled = nulledEntries (schema.properties.getD []) entries ++ absent schema entries := by
  cases value with
  | object entries =>
    cases isObject
    exact ⟨entries,rfl,rfl⟩
  | _ => cases isObject
theorem withNulls_array {value : Json} {nulled : List Json} (isArray : withNulls schema value = .array nulled) :
    ∃ values, value = .array values ∧ nulled = nulledItems schema.items values := by
  cases value with
  | array values =>
    cases isArray
    exact ⟨values,rfl,rfl⟩
  | _ => cases isArray
theorem pruneNulls_object {value : Json} {pruned : List (Text × Json)} (isObject : pruneNulls value = .object pruned) :
    ∃ entries, value = .object entries ∧ pruned = pruneEntries entries := by
  cases value with
  | object entries =>
    cases isObject
    exact ⟨entries,rfl,rfl⟩
  | _ => cases isObject
theorem pruneNulls_array {value : Json} {pruned : List Json} (isArray : pruneNulls value = .array pruned) :
    ∃ values, value = .array values ∧ pruned = values.map pruneNulls := by
  cases value with
  | array values =>
    cases isArray
    exact ⟨values,rfl,pruneItems_eq values⟩
  | _ => cases isArray

variable {optional : Bool} {strict : Schema}

/-- The strict schema of a property, or there are none. -/
theorem strict_property (isStrict : Strict optional schema strict .object) :
    (∀ key strictChild, (key,strictChild) ∈ strict.properties.getD [] ↔
      ∃ child, (key,child) ∈ schema.properties.getD [] ∧ strictChild = strictSchemaNode (!schema.required.contains key) child) ∧
    keys (strict.properties.getD []) = keys (schema.properties.getD []) := by
  cases isProperties : schema.properties with
  | none =>
    rw [(isStrict.free rfl isProperties).1]
    simp
  | some properties =>
    rw [(isStrict.object rfl properties isProperties).1]
    exact ⟨fun key strictChild => mem_strictProperties,keys_strictProperties _ _⟩

theorem strict_required (isStrict : Strict optional schema strict .object) {key : Text}
    (isRequired : key ∈ strict.required) : key ∈ schema.required ∨ key ∈ keys (schema.properties.getD []) := by
  cases isProperties : schema.properties with
  | none => exact .inl ((isStrict.free rfl isProperties).2.1 ▸ isRequired)
  | some properties => exact .inr ((isStrict.object rfl properties isProperties).2.1 ▸ isRequired)

/-- What is valid is valid under the strict schema once its absent optional properties are null. -/
theorem nulled_valid (built : Built validator Scalar schema) : ∀ {optional value}, Valid validator schema value →
    Declared schema value → Valid validator (strictSchemaNode optional schema) (withNulls schema value) := by
  induction built with
  | @intro schema single members distinct properties required items ofProperties ofItems =>
    intro optional value valid declared
    obtain ⟨name,single⟩ := single
    obtain ⟨typed,listed,fields,present,additional,elements⟩ := valid
    obtain ⟨closed,declaredFields,declaredItems⟩ := declared
    have strict := strict_node optional single
    have isTyped : validator.HasType name value := by
      obtain ⟨_,isName,has⟩ := typed _ single
      rwa [mem_singleton.mp isName] at has
    refine .intro ?_ ?_ ?_ ?_ ?_ ?_
    · intro field isField
      cases isField.symm.trans strict.type
      exact ⟨name,by cases optional <;> simp [TypeField.names],(typed_kept schema).1.mpr isTyped⟩
    · intro others isOthers
      have grown : ∃ originals, schema.enum = some originals ∧ ∀ member ∈ originals, member ∈ others := by
        have isEnum := strict.enum.symm.trans isOthers
        cases optional with
        | false => exact ⟨others,isEnum,fun _ member => member⟩
        | true =>
          obtain ⟨originals,isOriginal,rfl⟩ := Option.map_eq_some_iff.mp isEnum
          refine ⟨originals,isOriginal,fun member isMember => ?_⟩
          split
          · exact isMember
          · exact mem_append_left _ isMember
      obtain ⟨originals,isOriginal,within⟩ := grown
      obtain ⟨member,isMember,same⟩ := listed originals isOriginal
      have isScalar := validator.same_scalar same (members originals isOriginal member isMember)
      rw [(scalar_kept isScalar schema).1]
      exact ⟨member,within member isMember,same⟩
    · intro nulled isObject key strictChild isStrictChild item isItem
      obtain ⟨entries,rfl,rfl⟩ := withNulls_object isObject
      obtain rfl := type_of_object isTyped
      obtain ⟨child,isChild,rfl⟩ := ((strict_property strict).1 key strictChild).mp isStrictChild
      rcases mem_append.mp isItem with kept | missing
      · obtain ⟨original,isOriginal,rfl⟩ := mem_nulledEntries (property_of_mem distinct isChild) kept
        exact ofProperties key child isChild (fields entries rfl key child isChild original isOriginal)
          (declaredFields entries rfl key child isChild original isOriginal)
      · obtain ⟨_,isOptional,_,rfl⟩ := mem_absent.mp missing
        have open_ : (!schema.required.contains key) = true := by simpa using isOptional
        rw [open_]
        exact null_valid (properties key child isChild)
    · intro nulled isObject key isRequired
      obtain ⟨entries,rfl,rfl⟩ := withNulls_object isObject
      obtain rfl := type_of_object isTyped
      rw [keys,map_append]
      by_cases there : key ∈ keys entries
      · refine mem_append_left _ ?_
        rwa [← keys,keys_nulledEntries]
      · have optionally : key ∉ schema.required := fun originally => there (present entries rfl key originally)
        have isDeclared := (strict_required strict isRequired).resolve_left optionally
        exact mem_append_right _ (mem_keys.mpr ⟨.null,mem_absent.mpr ⟨isDeclared,optionally,there,rfl⟩⟩)
    · intro nulled isObject isClosed key isKey
      obtain ⟨entries,rfl,rfl⟩ := withNulls_object isObject
      obtain rfl := type_of_object isTyped
      rw [(strict_property strict).2]
      rw [keys,map_append] at isKey
      rcases mem_append.mp isKey with kept | missing
      · rw [← keys,keys_nulledEntries] at kept
        cases isProperties : schema.properties with
        | none =>
          exact (isProperties ▸ additional entries rfl ((strict.free rfl isProperties).2.2.symm.trans isClosed) key kept)
        | some declared => exact closed entries rfl declared isProperties key kept
      · obtain ⟨_,isAbsent⟩ := mem_keys.mp missing
        exact (mem_absent.mp isAbsent).1
    · intro nulled isArray strictChild isStrictChild item isItem
      obtain ⟨values,rfl,rfl⟩ := withNulls_array isArray
      obtain rfl := type_of_array isTyped
      obtain ⟨child,isChild,rfl⟩ := Option.map_eq_some_iff.mp ((strict.array rfl).symm.trans isStrictChild)
      rw [isChild,nulledItems_eq] at isItem
      obtain ⟨original,isOriginal,rfl⟩ := mem_map.mp isItem
      exact ofItems child isChild (elements values rfl child isChild original isOriginal)
        (declaredItems values rfl child isChild original isOriginal)

/-- What is valid under the strict schema is valid once it is pruned. -/
theorem pruned_valid (built : Built validator Scalar schema) : ∀ {optional value},
    Valid validator (strictSchemaNode optional schema) value → value ≠ .null ∨ optional = false →
      Valid validator schema (pruneNulls value) := by
  induction built with
  | @intro schema single members distinct properties required items ofProperties ofItems =>
    intro optional value valid some
    obtain ⟨name,single⟩ := single
    have strict := strict_node optional single
    obtain ⟨typed,listed,fields,present,closed,elements⟩ := valid
    have isTyped : validator.HasType name value := by
      obtain ⟨other,isName,has⟩ := typed _ strict.type
      cases optional with
      | false => rwa [mem_singleton.mp isName] at has
      | true =>
        rcases mem_cons.mp isName with rfl | isNull
        · exact has
        · rw [mem_singleton.mp isNull] at has
          cases value with
          | null => exact absurd rfl (some.resolve_right nofun)
          | _ => cases has
    refine .intro ?_ ?_ ?_ ?_ ?_ ?_
    · intro field isField
      cases isField.symm.trans single
      exact ⟨name,mem_singleton_self _,(typed_kept schema).2.mpr isTyped⟩
    · intro originals isOriginal
      have found : ∃ member ∈ originals, validator.same value member := by
        have isEnum := strict.enum
        rw [isOriginal] at isEnum
        cases optional with
        | false => exact listed originals isEnum
        | true =>
          obtain ⟨member,isMember,same⟩ := listed _ isEnum
          dsimp only at isMember
          by_cases has : originals.any isNull = true
          · rw [if_pos has] at isMember
            exact ⟨member,isMember,same⟩
          · rw [if_neg has] at isMember
            rcases mem_append.mp isMember with isMember | isNull
            · exact ⟨member,isMember,same⟩
            · exact absurd ((validator.same_null same).mpr (mem_singleton.mp isNull)) (some.resolve_right nofun)
      obtain ⟨member,isMember,same⟩ := found
      rw [(scalar_kept (validator.same_scalar same (members originals isOriginal member isMember)) schema).2]
      exact ⟨member,isMember,same⟩
    · intro pruned isObject key child isChild item isItem
      obtain ⟨entries,rfl,rfl⟩ := pruneNulls_object isObject
      obtain rfl := type_of_object isTyped
      obtain ⟨original,isOriginal,isSome,rfl⟩ := mem_pruneEntries.mp isItem
      have isStrict := ((strict_property strict).1 key _).mpr ⟨child,isChild,rfl⟩
      exact ofProperties key child isChild (fields entries rfl key _ isStrict original isOriginal) (.inl isSome)
    · intro pruned isObject key isRequired
      obtain ⟨entries,rfl,rfl⟩ := pruneNulls_object isObject
      obtain rfl := type_of_object isTyped
      obtain ⟨child,isChild,never⟩ := required key isRequired
      have isPresent : key ∈ keys entries := by
        cases isProperties : schema.properties with
        | none =>
          rw [isProperties] at isChild
          cases isChild
        | some declared =>
          refine present entries rfl key ?_
          rw [(strict.object rfl declared isProperties).2.1]
          rw [isProperties] at isChild
          exact mem_keys.mpr ⟨child,isChild⟩
      obtain ⟨item,isItem⟩ := mem_keys.mp isPresent
      have isStrict := ((strict_property strict).1 key _).mpr ⟨child,isChild,rfl⟩
      have contained : (!schema.required.contains key) = false := by simpa using isRequired
      rw [contained] at isStrict
      have valid := fields entries rfl key _ isStrict item isItem
      refine mem_keys.mpr ⟨_,mem_pruneEntries.mpr ⟨item,isItem,?_,rfl⟩⟩
      rintro rfl
      exact never (ofProperties key child isChild valid (.inr rfl))
    · intro pruned isObject isClosed key isKey
      obtain ⟨entries,rfl,rfl⟩ := pruneNulls_object isObject
      obtain rfl := type_of_object isTyped
      obtain ⟨_,isPruned⟩ := mem_keys.mp isKey
      obtain ⟨item,isItem,_⟩ := mem_pruneEntries.mp isPruned
      rw [← (strict_property strict).2]
      refine closed entries rfl ?_ key (mem_keys.mpr ⟨item,isItem⟩)
      cases isProperties : schema.properties with
      | none => exact (strict.free rfl isProperties).2.2.trans isClosed
      | some declared => exact (strict.object rfl declared isProperties).2.2
    · intro pruned isArray child isChild item isItem
      obtain ⟨values,rfl,rfl⟩ := pruneNulls_array isArray
      obtain rfl := type_of_array isTyped
      obtain ⟨original,isOriginal,rfl⟩ := mem_map.mp isItem
      have isStrict := (strict.array rfl).trans (congrArg (Option.map _) isChild)
      exact ofItems child isChild (elements values rfl _ isStrict original isOriginal) (.inr rfl)

end

/-- The strict schema and the pruning of nulls, of schemas whose enums list scalars only. -/
theorem strict_exact {validator : Validator} {schema : Schema} (built : Built validator Scalar schema) (value : Json) :
    (Valid validator schema value → Declared schema value → Valid validator (strictResponseSchema schema) (withNulls schema value)) ∧
      (Valid validator (strictResponseSchema schema) value → Valid validator schema (pruneNulls value)) ∧
        ∀ path found, found ≠ .scalar .null → (Has (pruneNulls value) path found ↔ Has value path found) :=
  ⟨fun valid declared => nulled_valid built valid declared,fun valid => pruned_valid built valid (.inr rfl),
    fun _ _ some => content_kept some⟩

/-- Values are the same as they are written, and no float is an integer. -/
def literalValidator : Validator where
  whole _ := false
  same := Eq
  null_same := rfl
  same_null := by
    rintro _ _ rfl
    exact Iff.rfl
  same_scalar := by
    rintro _ _ rfl isScalar
    exact isScalar

def noteSchema (enum : Option (List Json)) : Schema :=
  ⟨some (.one .object),enum,some [(text "a",⟨some (.one .string),none,none,[],none,true,none⟩)],[],none,true,none⟩
theorem note_built {allowed : Json → Prop} {enum : Option (List Json)} (members : ∀ list, enum = some list → ∀ member ∈ list, allowed member) :
    Built literalValidator allowed (noteSchema enum) := by
  refine .intro ⟨.object,rfl⟩ members (pairwise_singleton _ _) ?_ (forall_mem_nil _) nofun
  intro key child isChild
  cases mem_singleton.mp isChild
  exact .intro ⟨.string,rfl⟩ nofun List.Pairwise.nil nofun (forall_mem_nil _) nofun

theorem empty_valid {enum : Option (List Json)} (members : ∀ list, enum = some list → .object [] ∈ list) :
    Valid literalValidator (noteSchema enum) (.object []) ∧ Declared (noteSchema enum) (.object []) := by
  refine ⟨.intro ?_ ?_ ?_ (fun _ _ => forall_mem_nil _) (fun _ _ => nofun) nofun,.intro ?_ ?_ nofun⟩
  · intro field isField
    cases isField
    exact ⟨.object,mem_singleton_self _,trivial⟩
  · exact fun list isList => ⟨.object [],members list isList,rfl⟩
  all_goals
    intro entries same
    cases same
    nofun

theorem empty_note_strict : Valid literalValidator (strictResponseSchema (noteSchema none)) (withNulls (noteSchema none) (.object [])) := by
  have valid := @empty_valid none (fun _ same => nomatch same)
  exact (strict_exact (@note_built Scalar none fun _ same => nomatch same) (.object [])).1 valid.1 valid.2

/-- The only member of the enum has no null property. -/
theorem enum_unfilled : ¬ ∀ (validator : Validator) (schema : Schema), Built validator (fun _ => True) schema → ∀ value,
    Valid validator schema value → Declared schema value → Valid validator (strictResponseSchema schema) (withNulls schema value) := by
  intro strict
  have members : ∀ list, some [Json.object []] = some list → Json.object [] ∈ list := by
    rintro _ ⟨⟩
    exact mem_singleton_self _
  have valid := strict literalValidator (noteSchema (some [.object []])) (note_built fun _ _ _ _ => trivial) _
    (empty_valid members).1 (empty_valid members).2
  obtain ⟨_,listed,_⟩ := valid
  obtain ⟨member,isMember,same⟩ := listed _ rfl
  rw [mem_singleton.mp isMember] at same
  cases same

end Codebot.StrictSchemas
