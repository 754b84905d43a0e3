import FlatLiquid.Proofs.Json.Scanning
import FlatLiquid.Proofs.Json.Structures
import Mathlib.Data.List.Nodup

/-!
Contract: what is read again from the form that a value of a type is written in.

Owns:
- JSON that its text is read back as, inside so many brackets;
- codecs that restore a value: what they write is read again as a value related to it;
- the restoring of single values, lists, ordered maps and structures.

The relation is left open, since a value need not come back as itself: a double may be written as a
whole number, which has no negative zero.
-/

namespace FlatLiquid.Json

variable {σ α : Type}

/-! ## JSON that is read back -/

/-- The text of a number is read as the number. -/
def Number.ReadsBack (number : Number) : Prop :=
  parse (printNumber number) = .ok (.number number)

theorem NumbersReadBack.of_number {number : Number} (readsBack : number.ReadsBack) :
    (Json.number number).NumbersReadBack := by
  intro other member
  obtain rfl := Json.number.inj (List.mem_singleton.mp member)
  exact readsBack

/-- Inside so many brackets the text of the value is read as the value: its numbers are read as they
were, its objects name no key twice, and its brackets nest within the limit. -/
structure IsRestorable (depth : Nat) (value : Json) : Prop where
  numbers : value.NumbersReadBack
  distinct : value.HasDistinctKeys
  within : depth + value.nesting < depthLimit

namespace IsRestorable

variable {depth : Nat}

theorem string (within : depth < depthLimit) (text : String) :
    (Json.string text).IsRestorable depth where
  numbers := .of_no_number rfl
  distinct := hasDistinctKeys_of_single rfl fun _ => Json.noConfusion
  within := within

theorem number (within : depth < depthLimit) {number : Number}
    (readsBack : number.ReadsBack) :
    (Json.number number).IsRestorable depth where
  numbers := .of_number readsBack
  distinct := hasDistinctKeys_of_single rfl fun _ => Json.noConfusion
  within := within

theorem array (within : depth + 1 < depthLimit) {items : List Json}
    (each : ∀ item ∈ items, item.IsRestorable (depth + 1)) :
    (Json.array items).IsRestorable depth where
  numbers := by
    intro number member
    rw [parts, List.mem_cons, mem_partsOfItems] at member
    rcases member with same | ⟨item, inItems, inside⟩
    · contradiction
    · exact (each item inItems).numbers number inside
  distinct := hasDistinctKeys_array fun item member => (each item member).distinct
  within := by
    have inside := nestingOfItems_lt within fun item member => (each item member).within
    rw [nesting]
    omega

theorem object (within : depth + 1 < depthLimit) {fields : List (String × Json)}
    (keys : (fields.map Prod.fst).Nodup)
    (each : ∀ field ∈ fields, field.2.IsRestorable (depth + 1)) :
    (Json.object fields).IsRestorable depth where
  numbers := by
    intro number member
    rw [parts, List.mem_cons, mem_partsOfFields] at member
    rcases member with same | ⟨field, inFields, inside⟩
    · contradiction
    · exact (each field inFields).numbers number inside
  distinct := hasDistinctKeys_object keys fun field member => (each field member).distinct
  within := by
    have inside := nestingOfFields_lt within fun field member => (each field member).within
    rw [nesting]
    omega

end IsRestorable

/-! ## Codecs -/

/-- What the codec writes for a value is read again as another one. -/
structure Codec.Restores (codec : Codec α) (depth : Nat) (before after : α) : Prop where
  restorable : (codec.write before).IsRestorable depth
  decodes : codec.Decodes (codec.write before) after

/-- What the codec writes for a value is read again as one that is related to it. -/
def Codec.RestoresUpTo (codec : Codec α) (same : α → α → Prop) (depth : Nat) (value : α) : Prop :=
  ∃ again, same again value ∧ codec.Restores depth value again

/-- A written value is read from the text of what is written, whatever its blanks are. -/
theorem Codec.Restores.parse_print {codec : Codec α} {before after : α} {layout : Layout}
    (restores : codec.Restores 0 before after) (blank : layout.IsBlank) :
    codec.parse (layout.print 0 (codec.write before)) = .ok after := by
  obtain ⟨node, spells, linked, reads⟩ := exists_node_of_print blank restores.restorable.numbers
  rw [Codec.parse, reads, restores.decodes 0 node spells linked restores.restorable.within]
  rfl

section Single

variable {depth : Nat}

theorem Codec.text_restores (within : depth < depthLimit) (text : String) :
    Codec.text.Restores depth text text where
  restorable := .string within text
  decodes := Codec.text_decodes text

theorem Codec.natural_restores (within : depth < depthLimit) {bits natural : Nat}
    (small : natural < Nat.pow 2 bits) (readsBack : (Number.whole natural).ReadsBack)
    (expected : String) : (Codec.natural bits expected).Restores depth natural natural where
  restorable := .number within readsBack
  decodes := Codec.natural_decodes small expected

theorem Codec.real_restores (within : depth < depthLimit) {x : Float}
    (readsBack : (Number.real x).ReadsBack) : Codec.real.Restores depth x x where
  restorable := .number within readsBack
  decodes := Codec.real_decodes (.real x)

end Single

/-! ## Lists and maps -/

/-- Values that are found one by one make up a list. -/
theorem exists_forall₂ {β : Type} {same : β → α → Prop} {related : α → β → Prop} {list : List α}
    (each : ∀ a ∈ list, ∃ b, same b a ∧ related a b) :
    ∃ others, List.Forall₂ same others list ∧ List.Forall₂ related list others := by
  induction list with
  | nil => exact ⟨[], .nil, .nil⟩
  | cons a rest inductionHypothesis =>
    obtain ⟨b, sameFirst, relatedFirst⟩ := each a List.mem_cons_self
    obtain ⟨others, sameRest, relatedRest⟩ :=
      inductionHypothesis fun a member => each a (List.mem_cons_of_mem _ member)
    exact ⟨b :: others, .cons sameFirst sameRest, .cons relatedFirst relatedRest⟩

section Collections

variable {codec : Codec α} {depth : Nat}

theorem Codec.Restores.list (within : depth + 1 < depthLimit) {before after : List α}
    (each : List.Forall₂ (codec.Restores (depth + 1)) before after) :
    codec.list.Restores depth before after where
  restorable := by
    exact .array within (List.forall_mem_map.mpr (forall_of_forall₂ each
      fun _ _ restores => restores.restorable))
  decodes := Codec.Decodes.list (List.forall₂_map_left_iff.mpr
    (each.imp fun _ _ restores => restores.decodes))

theorem Codec.RestoresUpTo.list {same : α → α → Prop} (within : depth + 1 < depthLimit)
    {list : List α} (each : ∀ a ∈ list, codec.RestoresUpTo same (depth + 1) a) :
    codec.list.RestoresUpTo (List.Forall₂ same) depth list := by
  obtain ⟨again, sameAgain, restores⟩ := exists_forall₂ each
  exact ⟨again, sameAgain, .list within restores⟩

/-- The entries have the same key, and their values are related. -/
def SameEntry {β : Type} (related : α → β → Prop) (left : String × α) (right : String × β) : Prop :=
  left.1 = right.1 ∧ related left.2 right.2

theorem keys_eq_of_sameEntry {β : Type} {related : α → β → Prop} {left : List (String × α)}
    {right : List (String × β)} (same : List.Forall₂ (SameEntry related) left right) :
    left.map Prod.fst = right.map Prod.fst := by
  induction same with
  | nil => rfl
  | cons first _ inductionHypothesis =>
    rw [List.map_cons, List.map_cons, first.1, inductionHypothesis]

theorem Codec.Restores.map (within : depth + 1 < depthLimit) {before after : OrderedMap α}
    (each : List.Forall₂ (SameEntry (codec.Restores (depth + 1))) before.entries after.entries) :
    codec.map.Restores depth before after where
  restorable := by
    refine .object within ?_ (List.forall_mem_map.mpr (forall_of_forall₂ each
      fun _ _ restores => restores.2.restorable))
    rw [List.map_map]
    exact before.distinct
  decodes := Codec.Decodes.map (List.forall₂_map_left_iff.mpr
    (each.imp fun _ _ restores => ⟨restores.1, restores.2.decodes⟩))

theorem Codec.RestoresUpTo.map {same : α → α → Prop} (within : depth + 1 < depthLimit)
    {map : OrderedMap α}
    (each : ∀ entry ∈ map.entries, codec.RestoresUpTo same (depth + 1) entry.2) :
    codec.map.RestoresUpTo
      (fun again map => List.Forall₂ (SameEntry same) again.entries map.entries) depth map := by
  have found : ∀ entry ∈ map.entries, ∃ other : String × α,
      SameEntry same other entry ∧ SameEntry (codec.Restores (depth + 1)) entry other := by
    intro entry member
    obtain ⟨again, sameAgain, restores⟩ := each entry member
    exact ⟨(entry.1, again), ⟨rfl, sameAgain⟩, rfl, restores⟩
  obtain ⟨others, sameOthers, restores⟩ := exists_forall₂ found
  have distinct : (others.map Prod.fst).Nodup := by
    rw [keys_eq_of_sameEntry sameOthers]
    exact map.distinct
  exact ⟨⟨others, distinct⟩, sameOthers, .map within restores⟩

/-- What is written for an optional value, if there is one, is read again, and is not null. -/
def Codec.RestoresOption (codec : Codec α) (depth : Nat) : Option α → Option α → Prop :=
  Option.Rel fun before after => codec.Restores depth before after ∧ codec.write before ≠ .null

theorem Codec.exists_restoresOption {same : α → α → Prop} {value : Option α}
    (restores : ∀ a ∈ value, codec.RestoresUpTo same depth a ∧ codec.write a ≠ .null) :
    ∃ again, Option.Rel same again value ∧ codec.RestoresOption depth value again := by
  cases value with
  | none => exact ⟨none, .none, .none⟩
  | some a =>
    obtain ⟨⟨again, sameAgain, restoresAgain⟩, other⟩ := restores a rfl
    exact ⟨some again, .some sameAgain, .some ⟨restoresAgain, other⟩⟩

theorem Codec.restoresOption_self {value : Option α}
    (restores : ∀ a ∈ value, codec.Restores depth a a ∧ codec.write a ≠ .null) :
    codec.RestoresOption depth value value := by
  cases value with
  | none => exact .none
  | some a => exact .some (restores a rfl)

end Collections

/-! ## Structures -/

/-- Reading what the fields of a value are written as takes one structure to another. -/
inductive RestoresFields (depth : Nat) (value : σ) : List (Field σ) → σ → σ → Prop
  | nil (blank : σ) : RestoresFields depth value [] blank blank
  | written {field : Field σ} {fields : List (Field σ)} {before after : σ} {json : Json}
      {update : σ → σ} (isWritten : field.write value = some json)
      (restorable : json.IsRestorable depth) (decodes : field.Decodes json update)
      (rest : RestoresFields depth value fields (update before) after) :
      RestoresFields depth value (field :: fields) before after
  | unwritten {field : Field σ} {fields : List (Field σ)} {before after : σ}
      (isUnwritten : field.write value = none) (free : field.required = false)
      (rest : RestoresFields depth value fields before after) :
      RestoresFields depth value (field :: fields) before after

namespace RestoresFields

variable {depth : Nat} {value before after : σ} {fields : List (Field σ)} {name : String}
  {codec : Codec α}

theorem plain {get : σ → α} {set : σ → α → σ} {again : α}
    (restores : codec.Restores depth (get value) again)
    (rest : RestoresFields depth value fields (set before again) after) :
    RestoresFields depth value (.plain name codec get set :: fields) before after :=
  .written rfl restores.restorable (Field.plain_decodes name get set restores.decodes) rest

theorem needed {get : σ → α} {set : σ → α → σ} {again : α}
    (restores : codec.Restores depth (get value) again)
    (rest : RestoresFields depth value fields (set before again) after) :
    RestoresFields depth value (.needed name codec get set :: fields) before after :=
  .written rfl restores.restorable (Field.plain_decodes name get set restores.decodes) rest

theorem optional {get : σ → Option α} {set : σ → Option α → σ} {again : Option α}
    (restores : codec.RestoresOption depth (get value) again) (unset : set before none = before)
    (rest : RestoresFields depth value fields (set before again) after) :
    RestoresFields depth value (.optional name codec get set :: fields) before after := by
  cases present : get value with
  | none =>
    rw [present] at restores
    cases restores
    rw [unset] at rest
    exact .unwritten (congrArg (Option.map codec.write) present) rfl rest
  | some a =>
    rw [present] at restores
    cases restores with
    | some both =>
      exact .written (congrArg (Option.map codec.write) present) both.1.restorable
        (Field.optional_decodes name get set both.2 both.1.decodes) rest

theorem items {get : σ → List α} {set : σ → List α → σ}
    (restores : codec.list.Restores depth (get value) (get value)) (unset : set before [] = before)
    (rest : RestoresFields depth value fields (set before (get value)) after) :
    RestoresFields depth value (.items name codec get set :: fields) before after := by
  cases empty : (get value).isEmpty with
  | true =>
    rw [List.isEmpty_iff.mp empty, unset] at rest
    exact .unwritten (if_pos empty) rfl rest
  | false =>
    exact .written (if_neg (Bool.eq_false_iff.mp empty)) restores.restorable
      (Field.plain_decodes name get set restores.decodes) rest

end RestoresFields

namespace Shape

variable {shape : Shape σ} {depth : Nat} {value before after : σ} {fields : List (Field σ)}

/-- The fields of a structure under their names, as far as they are written. -/
def writtenFields (value : σ) (fields : List (Field σ)) : List (String × Json) :=
  fields.filterMap fun field => (field.write value).map fun json => (field.name, json)

theorem writtenFields_cons_some {field : Field σ} {json : Json}
    (isWritten : field.write value = some json) (fields : List (Field σ)) :
    writtenFields value (field :: fields) = (field.name, json) :: writtenFields value fields := by
  rw [writtenFields, List.filterMap_cons, isWritten]
  rfl

theorem writtenFields_cons_none {field : Field σ} (isUnwritten : field.write value = none)
    (fields : List (Field σ)) :
    writtenFields value (field :: fields) = writtenFields value fields := by
  rw [writtenFields, List.filterMap_cons, isUnwritten]
  rfl

theorem keys_writtenFields_sublist (value : σ) (fields : List (Field σ)) :
    ((writtenFields value fields).map Prod.fst).Sublist (fields.map Field.name) := by
  induction fields with
  | nil => exact List.Sublist.slnil
  | cons field rest inductionHypothesis =>
    cases isWritten : field.write value with
    | none =>
      rw [writtenFields_cons_none isWritten]
      exact inductionHypothesis.cons _
    | some json =>
      rw [writtenFields_cons_some isWritten]
      exact inductionHypothesis.cons_cons _

theorem field?_of_mem (distinct : (shape.fields.map Field.name).Nodup) {field : Field σ}
    (member : field ∈ shape.fields) : shape.field? field.name = some field := by
  cases found : shape.field? field.name with
  | none => exact absurd rfl (name_ne_of_field?_none found member)
  | some other =>
    have same := List.inj_on_of_nodup_map distinct (mem_of_field? found) member
      (name_of_field? found)
    rw [same]

theorem follows_of_restoresFields (distinct : (shape.fields.map Field.name).Nodup)
    (known : ∀ field ∈ fields, field ∈ shape.fields)
    (restores : RestoresFields depth value fields before after) :
    shape.Follows Field.Decodes before (writtenFields value fields) after := by
  induction restores with
  | nil blank => rfl
  | written isWritten _ decodes _ inductionHypothesis =>
    rw [List.forall_mem_cons] at known
    rw [writtenFields_cons_some isWritten,
      follows_cons_some (field?_of_mem distinct known.1)]
    exact ⟨_, decodes, inductionHypothesis known.2⟩
  | unwritten isUnwritten _ _ inductionHypothesis =>
    rw [List.forall_mem_cons] at known
    rw [writtenFields_cons_none isUnwritten]
    exact inductionHypothesis known.2

theorem isRestorable_of_restoresFields (restores : RestoresFields depth value fields before after) :
    ∀ entry ∈ writtenFields value fields, entry.2.IsRestorable depth := by
  induction restores with
  | nil blank => exact List.forall_mem_nil _
  | written isWritten restorable _ _ inductionHypothesis =>
    rw [writtenFields_cons_some isWritten, List.forall_mem_cons]
    exact ⟨restorable, inductionHypothesis⟩
  | unwritten isUnwritten _ _ inductionHypothesis =>
    rw [writtenFields_cons_none isUnwritten]
    exact inductionHypothesis

theorem mem_keys_of_restoresFields (restores : RestoresFields depth value fields before after) :
    ∀ field ∈ fields, field.required = true →
      field.name ∈ (writtenFields value fields).map Prod.fst := by
  induction restores with
  | nil blank => exact List.forall_mem_nil _
  | written isWritten _ _ _ inductionHypothesis =>
    rw [writtenFields_cons_some isWritten, List.map_cons, List.forall_mem_cons]
    exact ⟨fun _ => List.mem_cons_self,
      fun field member required => List.mem_cons_of_mem _ (inductionHypothesis field member required)⟩
  | unwritten isUnwritten free _ inductionHypothesis =>
    rw [writtenFields_cons_none isUnwritten, List.forall_mem_cons]
    refine ⟨fun required => ?_, inductionHypothesis⟩
    rw [free] at required
    contradiction

/-- A structure is restored through its fields, one by one from the blank structure on. -/
theorem restores_of_fields (distinct : (shape.fields.map Field.name).Nodup)
    (within : depth + 1 < depthLimit)
    (restores : RestoresFields (depth + 1) value shape.fields shape.blank after) :
    shape.codec.Restores depth value after where
  restorable := .object within ((keys_writtenFields_sublist value shape.fields).nodup distinct)
    (isRestorable_of_restoresFields restores)
  decodes := decodes_of_follows ((keys_writtenFields_sublist value shape.fields).nodup distinct)
    (mem_keys_of_restoresFields restores)
    (follows_of_restoresFields distinct (fun _ member => member) restores)

end Shape

end FlatLiquid.Json
