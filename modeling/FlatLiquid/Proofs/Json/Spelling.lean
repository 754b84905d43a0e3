import FlatLiquid.Json.Reading
import FlatLiquid.Proofs.OrderedMap

/-!
Contract: the nodes that spell a JSON value.

Owns:
- the values inside a value, and how deep its brackets nest;
- the relation of a node to the value that it spells, whatever the places in the text;
- the reading and the skipping of such a node, which cannot fail;
- what is read from a node, part by part; its objects name no key twice.
-/

namespace FlatLiquid

/-- What is bound together succeeds if each part does. -/
theorem exists_of_bind_eq_ok {ε α β : Type} {first : Except ε α} {next : α → Except ε β} {b : β}
    (succeeds : (first >>= next) = .ok b) : ∃ a, first = .ok a ∧ next a = .ok b := by
  cases first with
  | error fault => contradiction
  | ok a => exact ⟨a, rfl, succeeds⟩

theorem exists_of_map_eq_ok {ε α β : Type} {first : Except ε α} {next : α → β} {b : β}
    (succeeds : first.map next = .ok b) : ∃ a, first = .ok a ∧ next a = b := by
  cases first with
  | error fault => contradiction
  | ok a => exact ⟨a, rfl, Except.ok.inj succeeds⟩

theorem exists_of_isOk {ε α : Type} {result : Except ε α} (ok : result.isOk = true) :
    ∃ a, result = .ok a := by
  cases result with
  | error fault => contradiction
  | ok a => exact ⟨a, rfl⟩

theorem eq_ok_of_mapError_eq_ok {ε δ α : Type} {first : Except ε α} {wording : ε → δ} {a : α}
    (succeeds : first.mapError wording = .ok a) : first = .ok a := by
  cases first with
  | error fault => contradiction
  | ok b => exact congrArg Except.ok (Except.ok.inj succeeds)

theorem exists_of_mapError_eq_error {ε δ α : Type} {first : Except ε α} {wording : ε → δ} {d : δ}
    (fails : first.mapError wording = .error d) : ∃ e, first = .error e ∧ wording e = d := by
  cases first with
  | error e => exact ⟨e, rfl, Except.error.inj fails⟩
  | ok b => contradiction

namespace Json

/-! ## The values inside a value -/

mutual

/-- A value and all values inside it. -/
def parts : Json → List Json
  | .array items => .array items :: partsOfItems items
  | .object fields => .object fields :: partsOfFields fields
  | value => [value]

/-- The values inside items. -/
def partsOfItems : List Json → List Json
  | [] => []
  | item :: rest => item.parts ++ partsOfItems rest

/-- The values inside fields. -/
def partsOfFields : List (String × Json) → List Json
  | [] => []
  | (_, value) :: rest => value.parts ++ partsOfFields rest

end

mutual

/-- How many brackets stand around the innermost value. -/
def nesting : Json → Nat
  | .array items => nestingOfItems items + 1
  | .object fields => nestingOfFields fields + 1
  | _ => 0

/-- The deepest nesting of items. -/
def nestingOfItems : List Json → Nat
  | [] => 0
  | item :: rest => max item.nesting (nestingOfItems rest)

/-- The deepest nesting of fields. -/
def nestingOfFields : List (String × Json) → Nat
  | [] => 0
  | (_, value) :: rest => max value.nesting (nestingOfFields rest)

end

/-- No object inside the value names a key twice. -/
def HasDistinctKeys (value : Json) : Prop :=
  ∀ fields, .object fields ∈ value.parts → (fields.map Prod.fst).Nodup

/-- The keys of an object. -/
def keys : Json → List String
  | .object fields => fields.map Prod.fst
  | _ => []

theorem hasDistinctKeys_iff (value : Json) :
    (∀ part ∈ value.parts, part.keys.Nodup) ↔ value.HasDistinctKeys := by
  constructor
  · intro distinct fields member
    exact distinct _ member
  · intro distinct part member
    cases part with
    | object fields => exact distinct fields member
    | _ => exact List.nodup_nil

instance (value : Json) : Decidable value.HasDistinctKeys :=
  decidable_of_decidable_of_iff (hasDistinctKeys_iff value)

theorem mem_parts (value : Json) : value ∈ value.parts := by
  cases value <;> simp [parts]

theorem mem_partsOfItems {part : Json} {items : List Json} :
    part ∈ partsOfItems items ↔ ∃ item ∈ items, part ∈ item.parts := by
  induction items with
  | nil => simp [partsOfItems]
  | cons item rest inductionHypothesis => simp [partsOfItems, inductionHypothesis]

theorem mem_partsOfFields {part : Json} {fields : List (String × Json)} :
    part ∈ partsOfFields fields ↔ ∃ field ∈ fields, part ∈ field.2.parts := by
  induction fields with
  | nil => simp [partsOfFields]
  | cons field rest inductionHypothesis => simp [partsOfFields, inductionHypothesis]

theorem mem_parts_of_mem_items {part item : Json} {items : List Json} (member : item ∈ items)
    (inside : part ∈ item.parts) : part ∈ (Json.array items).parts := by
  rw [parts, List.mem_cons, mem_partsOfItems]
  exact Or.inr ⟨item, member, inside⟩

theorem mem_parts_of_mem_fields {part : Json} {field : String × Json}
    {fields : List (String × Json)} (member : field ∈ fields) (inside : part ∈ field.2.parts) :
    part ∈ (Json.object fields).parts := by
  rw [parts, List.mem_cons, mem_partsOfFields]
  exact Or.inr ⟨field, member, inside⟩

theorem nesting_le_of_mem_items {item : Json} {items : List Json} (member : item ∈ items) :
    item.nesting ≤ nestingOfItems items := by
  induction items with
  | nil => exact absurd member List.not_mem_nil
  | cons first rest inductionHypothesis =>
    rw [nestingOfItems]
    rcases List.mem_cons.mp member with rfl | later
    · exact Nat.le_max_left _ _
    · exact Nat.le_trans (inductionHypothesis later) (Nat.le_max_right _ _)

theorem nesting_le_of_mem_fields {field : String × Json} {fields : List (String × Json)}
    (member : field ∈ fields) : field.2.nesting ≤ nestingOfFields fields := by
  induction fields with
  | nil => exact absurd member List.not_mem_nil
  | cons first rest inductionHypothesis =>
    rw [nestingOfFields]
    rcases List.mem_cons.mp member with rfl | later
    · exact Nat.le_max_left _ _
    · exact Nat.le_trans (inductionHypothesis later) (Nat.le_max_right _ _)

theorem nestingOfItems_lt {depth limit : Nat} {items : List Json} (within : depth < limit)
    (each : ∀ item ∈ items, depth + item.nesting < limit) :
    depth + nestingOfItems items < limit := by
  induction items with
  | nil => exact within
  | cons first rest inductionHypothesis =>
    rw [List.forall_mem_cons] at each
    have ofRest := inductionHypothesis each.2
    have ofFirst := each.1
    rw [nestingOfItems]
    omega

theorem nestingOfFields_lt {depth limit : Nat} {fields : List (String × Json)}
    (within : depth < limit) (each : ∀ field ∈ fields, depth + field.2.nesting < limit) :
    depth + nestingOfFields fields < limit := by
  induction fields with
  | nil => exact within
  | cons first rest inductionHypothesis =>
    rw [List.forall_mem_cons] at each
    have ofRest := inductionHypothesis each.2
    have ofFirst := each.1
    rw [nestingOfFields]
    omega

/-! ## The nodes that spell a value -/

mutual

/-- A node spells a value. Nothing is said about the places in the text. -/
inductive Node.Spells : Node → Json → Prop where
  | null (after : Cursor) : Node.Spells (.null after) .null
  | bool (value : Bool) (after : Cursor) : Node.Spells (.bool value after) (.bool value)
  | number {numeral : Numeral} {after : Cursor} {number : Number}
      (value : numeral.value after.offset = .ok number) :
      Node.Spells (.number numeral after) (.number number)
  | string (text : List Char) (after : Cursor) :
      Node.Spells (.string (.ok text) after) (.string (String.ofList text))
  | array {items : List Node} {values : List Json} (start after : Cursor)
      (spelled : SpellsItems items values) :
      Node.Spells (.array start items (.closed after)) (.array values)
  | object {fields : List (Key × Node)} {values : List (String × Json)} (start after : Cursor)
      (spelled : SpellsFields fields values) :
      Node.Spells (.object start fields (.closed after)) (.object values)

/-- Nodes spell items, one by one. -/
inductive SpellsItems : List Node → List Json → Prop where
  | nil : SpellsItems [] []
  | cons {item : Node} {value : Json} {items : List Node} {values : List Json}
      (first : item.Spells value) (more : SpellsItems items values) :
      SpellsItems (item :: items) (value :: values)

/-- Keys and nodes spell fields, one by one. -/
inductive SpellsFields : List (Key × Node) → List (String × Json) → Prop where
  | nil : SpellsFields [] []
  | cons {node : Node} {value : Json} {fields : List (Key × Node)} {values : List (String × Json)}
      (text : List Char) (after : Cursor) (first : node.Spells value)
      (more : SpellsFields fields values) :
      SpellsFields ((⟨.ok text, after⟩, node) :: fields) ((String.ofList text, value) :: values)

end

theorem Node.Spells.exists_finish {node : Node} {value : Json} (spells : node.Spells value) :
    ∃ after, node.finish = .ok after := by
  cases spells <;> exact ⟨_, rfl⟩

mutual

/-- A node that spells a value can be passed over. -/
theorem Node.Spells.skip {node : Node} {value : Json} (spells : node.Spells value) :
    node.skip = .ok () := by
  cases spells with
  | array start after spelled =>
    rw [Node.skip, spelled.skip]
    rfl
  | object start after spelled =>
    rw [Node.skip, spelled.skip]
    rfl
  | _ => rfl

theorem SpellsItems.skip {items : List Node} {values : List Json}
    (spelled : SpellsItems items values) : skipItems items = .ok () := by
  cases spelled with
  | nil => rfl
  | cons first more =>
    rw [skipItems, first.skip]
    exact more.skip

theorem SpellsFields.skip {fields : List (Key × Node)} {values : List (String × Json)}
    (spelled : SpellsFields fields values) : skipFields fields = .ok () := by
  cases spelled with
  | nil => rfl
  | cons text after first more =>
    rw [skipFields, first.skip]
    exact more.skip

end

/-! ## Keys that occur once -/

theorem HasDistinctKeys.of_mem_items {item : Json} {items : List Json}
    (distinct : (Json.array items).HasDistinctKeys) (member : item ∈ items) :
    item.HasDistinctKeys := by
  intro fields inside
  exact distinct fields (mem_parts_of_mem_items member inside)

theorem HasDistinctKeys.of_mem_fields {field : String × Json} {fields : List (String × Json)}
    (distinct : (Json.object fields).HasDistinctKeys) (member : field ∈ fields) :
    field.2.HasDistinctKeys := by
  intro others inside
  exact distinct others (mem_parts_of_mem_fields member inside)

/-- A value that is no object and holds none has no keys. -/
theorem hasDistinctKeys_of_single {value : Json} (alone : value.parts = [value])
    (noObject : ∀ fields, value ≠ .object fields) : value.HasDistinctKeys := by
  intro fields member
  rw [alone, List.mem_singleton] at member
  exact absurd member.symm (noObject fields)

theorem hasDistinctKeys_array {items : List Json}
    (distinct : ∀ item ∈ items, item.HasDistinctKeys) : (Json.array items).HasDistinctKeys := by
  intro fields member
  rw [parts, List.mem_cons, mem_partsOfItems] at member
  rcases member with same | ⟨item, inItems, inItem⟩
  · contradiction
  · exact distinct item inItems fields inItem

theorem hasDistinctKeys_object {fields : List (String × Json)}
    (keys : (fields.map Prod.fst).Nodup) (distinct : ∀ field ∈ fields, field.2.HasDistinctKeys) :
    (Json.object fields).HasDistinctKeys := by
  intro others member
  rw [parts, List.mem_cons, mem_partsOfFields] at member
  rcases member with same | ⟨field, inFields, inField⟩
  · rw [Json.object.inj same]
    exact keys
  · exact distinct field inFields others inField

mutual

/-- A node that spells a value is read as this value. -/
theorem Node.Spells.read {node : Node} {value : Json} (spells : node.Spells value) {depth : Nat}
    (distinct : value.HasDistinctKeys) (within : depth + value.nesting < depthLimit) :
    node.read depth = .ok value := by
  cases spells with
  | null after => rfl
  | bool value after => rfl
  | number value =>
    rw [Node.read, value]
    rfl
  | string text after => rfl
  | @array items values start after spelled =>
    rw [nesting] at within
    have entered : enter depth start = .ok (depth + 1) := if_pos (by omega)
    have inner := spelled.read (fun value member => distinct.of_mem_items member)
      (show depth + 1 + nestingOfItems values < depthLimit by omega)
    rw [Node.read, entered]
    simp only [bind, Except.bind, inner, Ending.read]
    rfl
  | @object fields values start after spelled =>
    rw [nesting] at within
    have entered : enter depth start = .ok (depth + 1) := if_pos (by omega)
    have inner := spelled.read (fun field member => distinct.of_mem_fields member)
      (show depth + 1 + nestingOfFields values < depthLimit by omega)
    have merged := foldl_putEntry_of_nodup [] values (distinct values (mem_parts _))
    rw [List.nil_append] at merged
    rw [Node.read, entered]
    simp only [bind, Except.bind, inner, Ending.read, merged]
    rfl

theorem SpellsItems.read {items : List Node} {values : List Json} (spelled : SpellsItems items values)
    {depth : Nat} (distinct : ∀ value ∈ values, value.HasDistinctKeys)
    (within : depth + nestingOfItems values < depthLimit) : readItems depth items = .ok values := by
  cases spelled with
  | nil => rfl
  | cons first more =>
    rw [nestingOfItems] at within
    have head := first.read (distinct _ List.mem_cons_self)
      (show depth + _ < depthLimit by omega)
    have tail := more.read (fun value member => distinct value (List.mem_cons_of_mem _ member))
      (show depth + _ < depthLimit by omega)
    rw [readItems, head, tail]
    rfl

theorem SpellsFields.read {fields : List (Key × Node)} {values : List (String × Json)}
    (spelled : SpellsFields fields values) {depth : Nat}
    (distinct : ∀ field ∈ values, field.2.HasDistinctKeys)
    (within : depth + nestingOfFields values < depthLimit) :
    readFields depth fields = .ok values := by
  cases spelled with
  | nil => rfl
  | cons text after first more =>
    rw [nestingOfFields] at within
    have head := first.read (distinct _ List.mem_cons_self)
      (show depth + _ < depthLimit by omega)
    have tail := more.read (fun field member => distinct field (List.mem_cons_of_mem _ member))
      (show depth + _ < depthLimit by omega)
    rw [readFields, head, tail]
    rfl

end

/-! ## Nodes that are read -/

theorem enter_eq_ok {depth inner : Nat} {start : Cursor} (entered : enter depth start = .ok inner) :
    inner = depth + 1 := by
  rw [enter] at entered
  split at entered
  · exact (Except.ok.inj entered).symm
  · contradiction

theorem lt_of_enter {depth inner : Nat} {start : Cursor} (entered : enter depth start = .ok inner) :
    depth + 1 < depthLimit := by
  rw [enter] at entered
  split at entered
  · assumption
  · contradiction

theorem enter_of_lt {depth : Nat} (within : depth + 1 < depthLimit) (start : Cursor) :
    enter depth start = .ok (depth + 1) :=
  if_pos within

theorem Ending.exists_closed {ending : Ending} (read : ending.read = .ok ()) :
    ∃ after, ending = .closed after := by
  cases ending with
  | closed after => exact ⟨after, rfl⟩
  | broken stop => contradiction

theorem exists_of_read_array {depth : Nat} {start : Cursor} {items : List Node} {ending : Ending}
    {value : Json} (read : (Node.array start items ending).read depth = .ok value) :
    ∃ values after, value = .array values ∧ ending = .closed after ∧
      readItems (depth + 1) items = .ok values := by
  rw [Node.read] at read
  obtain ⟨inner, entered, read⟩ := exists_of_bind_eq_ok read
  obtain ⟨values, found, read⟩ := exists_of_bind_eq_ok read
  obtain ⟨_, closed, read⟩ := exists_of_bind_eq_ok read
  obtain ⟨after, rfl⟩ := Ending.exists_closed closed
  rw [enter_eq_ok entered] at found
  exact ⟨values, after, (Except.ok.inj read).symm, rfl, found⟩

theorem lt_of_read_array {depth : Nat} {start : Cursor} {items : List Node} {ending : Ending}
    {value : Json} (read : (Node.array start items ending).read depth = .ok value) :
    depth + 1 < depthLimit := by
  rw [Node.read] at read
  obtain ⟨inner, entered, _⟩ := exists_of_bind_eq_ok read
  exact lt_of_enter entered

/-- Fields under their keys: a repeated key keeps its place and takes the last value. -/
def mergeFields {α : Type} (entries : List (String × α)) : List (String × α) :=
  entries.foldl (fun known entry => putEntry known entry.1 entry.2) []

theorem nodup_mergeFields {α : Type} (entries : List (String × α)) :
    ((mergeFields entries).map Prod.fst).Nodup :=
  (foldl_putEntry_invariant (fun _ => True) [] entries List.nodup_nil (fun _ _ => trivial)
    fun _ _ => trivial).1

theorem forall_mem_mergeFields {α : Type} (holds : α → Prop) {entries : List (String × α)}
    (each : ∀ entry ∈ entries, holds entry.2) : ∀ entry ∈ mergeFields entries, holds entry.2 :=
  (foldl_putEntry_invariant holds [] entries List.nodup_nil (List.forall_mem_nil _) each).2

theorem exists_of_read_object {depth : Nat} {start : Cursor} {fields : List (Key × Node)}
    {ending : Ending} {value : Json}
    (read : (Node.object start fields ending).read depth = .ok value) :
    ∃ entries after, value = .object (mergeFields entries) ∧ ending = .closed after ∧
      readFields (depth + 1) fields = .ok entries := by
  rw [Node.read] at read
  obtain ⟨inner, entered, read⟩ := exists_of_bind_eq_ok read
  obtain ⟨entries, found, read⟩ := exists_of_bind_eq_ok read
  obtain ⟨_, closed, read⟩ := exists_of_bind_eq_ok read
  obtain ⟨after, rfl⟩ := Ending.exists_closed closed
  rw [enter_eq_ok entered] at found
  exact ⟨entries, after, (Except.ok.inj read).symm, rfl, found⟩

theorem lt_of_read_object {depth : Nat} {start : Cursor} {fields : List (Key × Node)}
    {ending : Ending} {value : Json}
    (read : (Node.object start fields ending).read depth = .ok value) : depth + 1 < depthLimit := by
  rw [Node.read] at read
  obtain ⟨inner, entered, _⟩ := exists_of_bind_eq_ok read
  exact lt_of_enter entered

theorem exists_of_readItems_cons {depth : Nat} {item : Node} {rest : List Node} {values : List Json}
    (read : readItems depth (item :: rest) = .ok values) :
    ∃ value others, values = value :: others ∧ item.read depth = .ok value ∧
      readItems depth rest = .ok others := by
  rw [readItems] at read
  obtain ⟨value, readFirst, read⟩ := exists_of_bind_eq_ok read
  obtain ⟨others, readOthers, read⟩ := exists_of_bind_eq_ok read
  exact ⟨value, others, (Except.ok.inj read).symm, readFirst, readOthers⟩

theorem exists_of_readFields_cons {depth : Nat} {key : Key} {node : Node}
    {rest : List (Key × Node)} {entries : List (String × Json)}
    (read : readFields depth ((key, node) :: rest) = .ok entries) :
    ∃ name value others, entries = (String.ofList name, value) :: others ∧ key.text = .ok name ∧
      node.read depth = .ok value ∧ readFields depth rest = .ok others := by
  rw [readFields] at read
  obtain ⟨name, named, read⟩ := exists_of_bind_eq_ok read
  obtain ⟨value, readFirst, read⟩ := exists_of_bind_eq_ok read
  obtain ⟨others, readOthers, read⟩ := exists_of_bind_eq_ok read
  exact ⟨name, value, others, (Except.ok.inj read).symm, named, readFirst, readOthers⟩

mutual

/-- What is read from a node names no key twice. -/
theorem Node.hasDistinctKeys_of_read {depth : Nat} {value : Json} :
    (node : Node) → node.read depth = .ok value → value.HasDistinctKeys
  | .null _, found => by
    cases Except.ok.inj found
    simp [HasDistinctKeys, parts]
  | .bool _ _, found => by
    cases Except.ok.inj found
    simp [HasDistinctKeys, parts]
  | .number numeral after, found => by
    obtain ⟨number, _, rfl⟩ := exists_of_map_eq_ok found
    simp [HasDistinctKeys, parts]
  | .string text after, found => by
    obtain ⟨read, _, rfl⟩ := exists_of_map_eq_ok found
    simp [HasDistinctKeys, parts]
  | .array start items ending, found => by
    obtain ⟨values, _, rfl, _, read⟩ := exists_of_read_array found
    exact hasDistinctKeys_array (hasDistinctKeys_of_readItems items read)
  | .object start fields ending, found => by
    obtain ⟨values, _, rfl, _, read⟩ := exists_of_read_object found
    exact hasDistinctKeys_object (nodup_mergeFields values)
      (forall_mem_mergeFields HasDistinctKeys (hasDistinctKeys_of_readFields fields read))
  | .broken stop, found => by contradiction

theorem hasDistinctKeys_of_readItems {depth : Nat} {values : List Json} :
    (items : List Node) → readItems depth items = .ok values →
      ∀ value ∈ values, value.HasDistinctKeys
  | [], found => by
    cases Except.ok.inj found
    intro value member
    exact absurd member List.not_mem_nil
  | item :: rest, found => by
    obtain ⟨first, others, rfl, readFirst, readOthers⟩ := exists_of_readItems_cons found
    intro value member
    rcases List.mem_cons.mp member with rfl | later
    · exact Node.hasDistinctKeys_of_read item readFirst
    · exact hasDistinctKeys_of_readItems rest readOthers value later

theorem hasDistinctKeys_of_readFields {depth : Nat} {values : List (String × Json)} :
    (fields : List (Key × Node)) → readFields depth fields = .ok values →
      ∀ field ∈ values, field.2.HasDistinctKeys
  | [], found => by
    cases Except.ok.inj found
    intro value member
    exact absurd member List.not_mem_nil
  | (key, node) :: rest, found => by
    obtain ⟨_, first, others, rfl, _, readFirst, readOthers⟩ := exists_of_readFields_cons found
    intro value member
    rcases List.mem_cons.mp member with rfl | later
    · exact Node.hasDistinctKeys_of_read node readFirst
    · exact hasDistinctKeys_of_readFields rest readOthers value later

end

/-- What is read from a whole text is read from its node, with nothing but blanks after it. -/
theorem read_of_readText {α : Type} {reader : Node → Except Fault α} {text : List Char} {a : α}
    (read : readText reader text = .ok a) :
    reader (Node.ofText text) = .ok a ∧
      ∃ after, (Node.ofText text).finish = .ok after ∧ after.skipBlanks.rest = [] := by
  obtain ⟨found, readNode, closed⟩ := exists_of_bind_eq_ok read
  split at closed
  · contradiction
  · next after finished =>
    simp only at closed
    split at closed
    · next ended =>
      rw [readNode, ← Except.ok.inj closed]
      exact ⟨rfl, after, finished, List.isEmpty_iff.mp ended⟩
    · contradiction

end Json

end FlatLiquid
