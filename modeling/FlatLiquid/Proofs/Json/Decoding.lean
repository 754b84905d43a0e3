import FlatLiquid.Json.Codec
import FlatLiquid.Proofs.Json.Links
import Mathlib.Data.List.Forall2

/-!
Contract: what a codec reads depends on the value that a node spells.

Owns:
- the two readings of one node, as a value of a type and as JSON;
- stable codecs, which read the same from every node that spells the same value;
- the stability of the codecs of single values, lists and ordered maps.

A codec reads nodes and the editor of a schema changes JSON. A stable codec joins the two: what has
been read from a node once is read again from any text of the same value.
-/

namespace FlatLiquid.Json

variable {α : Type}

/-- The codec reads a value of its type from a node that is read as this JSON. -/
def Codec.Reads (codec : Codec α) (value : Json) (a : α) : Prop :=
  ∃ depth node, Node.Linked node ∧ node.read depth = .ok value ∧ codec.read depth node = .ok a

/-- The codec reads a value of its type from every node that spells this JSON. -/
def Codec.Decodes (codec : Codec α) (value : Json) (a : α) : Prop :=
  ∀ depth node, Node.Spells node value → node.Linked → depth + value.nesting < depthLimit →
    codec.read depth node = .ok a

/-- What the codec reads depends on the JSON only. -/
def Codec.Stable (codec : Codec α) : Prop :=
  ∀ value a, codec.Reads value a → codec.Decodes value a

/-! ## Nodes of each kind -/

theorem exists_of_spells_null {node : Node} (spells : node.Spells .null) :
    ∃ after, node = .null after := by
  cases spells
  exact ⟨_, rfl⟩

theorem exists_of_spells_number {node : Node} {number : Number}
    (spells : node.Spells (.number number)) :
    ∃ numeral after, node = .number numeral after ∧ numeral.value after.offset = .ok number := by
  cases spells with
  | number found => exact ⟨_, _, rfl, found⟩

theorem exists_of_spells_string {node : Node} {text : String}
    (spells : node.Spells (.string text)) :
    ∃ letters after, node = .string (.ok letters) after ∧ String.ofList letters = text := by
  cases spells
  exact ⟨_, _, rfl, rfl⟩

theorem exists_of_spells_array {node : Node} {values : List Json}
    (spells : node.Spells (.array values)) :
    ∃ start items after, node = .array start items (.closed after) ∧ SpellsItems items values := by
  cases spells with
  | array start after spelled => exact ⟨_, _, _, rfl, spelled⟩

theorem exists_of_spells_object {node : Node} {fields : List (String × Json)}
    (spells : node.Spells (.object fields)) :
    ∃ start entries after, node = .object start entries (.closed after) ∧
      SpellsFields entries fields := by
  cases spells with
  | object start after spelled => exact ⟨_, _, _, rfl, spelled⟩

theorem exists_of_read_null {node : Node} {depth : Nat} (read : node.read depth = .ok .null) :
    ∃ after, node = .null after := by
  cases node with
  | null after => exact ⟨after, rfl⟩
  | number numeral after =>
    obtain ⟨_, _, same⟩ := exists_of_map_eq_ok read
    contradiction
  | string text after =>
    obtain ⟨_, _, same⟩ := exists_of_map_eq_ok read
    contradiction
  | array start items ending =>
    obtain ⟨_, _, same, _⟩ := exists_of_read_array read
    contradiction
  | object start fields ending =>
    obtain ⟨_, _, same, _⟩ := exists_of_read_object read
    contradiction
  | bool value after => exact nomatch Except.ok.inj read
  | broken stop => contradiction

/-! ## Single values -/

theorem Codec.eq_string_of_reads {value : Json} {text : String}
    (reads : Codec.text.Reads value text) : value = .string text := by
  obtain ⟨depth, node, _, asJson, asText⟩ := reads
  cases node with
  | string letters after =>
    obtain ⟨found, rfl, rfl⟩ := exists_of_map_eq_ok asText
    exact (Except.ok.inj asJson).symm
  | _ => contradiction

theorem Codec.text_decodes (text : String) : Codec.text.Decodes (.string text) text := by
  intro depth node spells _ _
  obtain ⟨letters, after, rfl, same⟩ := exists_of_spells_string spells
  exact congrArg Except.ok same

theorem Codec.text_stable : Codec.text.Stable := by
  intro value text reads
  rw [Codec.eq_string_of_reads reads]
  exact Codec.text_decodes text

/-- A natural number is read from a whole number that has so many bits. -/
theorem Codec.exists_of_read_natural {bits depth natural : Nat} {expected : String} {node : Node}
    (read : (Codec.natural bits expected).read depth node = .ok natural) :
    ∃ numeral after, node = .number numeral after ∧
      numeral.value after.offset = .ok (.whole natural) ∧ natural < Nat.pow 2 bits := by
  cases node with
  | number numeral after =>
    simp only [Codec.natural] at read
    obtain ⟨number, found, read⟩ := exists_of_bind_eq_ok read
    cases number with
    | real x => contradiction
    | whole whole =>
      simp only at read
      split at read
      · next fits =>
        rw [Bool.and_eq_true, decide_eq_true_eq, decide_eq_true_eq] at fits
        obtain ⟨count, rfl⟩ := Int.eq_ofNat_of_zero_le fits.1
        obtain rfl : count = natural := Except.ok.inj read
        exact ⟨numeral, after, rfl, found, Int.ofNat_lt.mp fits.2⟩
      · contradiction
  | _ => contradiction

theorem Codec.natural_decodes {bits natural : Nat} (small : natural < Nat.pow 2 bits)
    (expected : String) :
    (Codec.natural bits expected).Decodes (.number (.whole natural)) natural := by
  intro depth node spells _ _
  obtain ⟨numeral, after, rfl, found⟩ := exists_of_spells_number spells
  have fits : (decide ((0 : Int) ≤ natural) && decide ((natural : Int) < Nat.pow 2 bits)) = true := by
    rw [Bool.and_eq_true, decide_eq_true_eq, decide_eq_true_eq]
    exact ⟨Int.natCast_nonneg natural, Int.ofNat_lt.mpr small⟩
  simp only [Codec.natural, found, bind, Except.bind, fits, if_true]
  rfl

theorem Codec.natural_stable (bits : Nat) (expected : String) :
    (Codec.natural bits expected).Stable := by
  rintro value natural ⟨depth, node, _, asJson, asNatural⟩
  obtain ⟨numeral, after, rfl, found, small⟩ := Codec.exists_of_read_natural asNatural
  obtain ⟨number, again, rfl⟩ := exists_of_map_eq_ok asJson
  obtain rfl := Except.ok.inj (found.symm.trans again)
  exact Codec.natural_decodes small expected

theorem Codec.real_decodes (number : Number) :
    Codec.real.Decodes (.number number) number.toFloat := by
  intro depth node spells _ _
  obtain ⟨numeral, after, rfl, found⟩ := exists_of_spells_number spells
  simp only [Codec.real, found]
  rfl

theorem Codec.real_stable : Codec.real.Stable := by
  rintro value x ⟨depth, node, _, asJson, asReal⟩
  cases node with
  | number numeral after =>
    obtain ⟨number, found, rfl⟩ := exists_of_map_eq_ok asJson
    simp only [Codec.real, found] at asReal
    obtain rfl : number.toFloat = x := Except.ok.inj asReal
    exact Codec.real_decodes number
  | _ => contradiction

/-! ## Lists -/

theorem forall_of_forall₂ {β : Type} {related : α → β → Prop} {holds : α → Prop} {list : List α}
    {others : List β} (each : List.Forall₂ related list others)
    (implies : ∀ a b, related a b → holds a) : ∀ a ∈ list, holds a := by
  have both : List.Forall₂ (fun a b => holds a ∧ related a b) list others :=
    each.imp fun a b areRelated => ⟨implies a b areRelated, areRelated⟩
  exact ((List.forall₂_and_left list others).mp both).1

theorem mapM_eq_ok_iff {ε β γ : Type} {f : β → Except ε γ} {xs : List β} {ys : List γ} :
    xs.mapM f = .ok ys ↔ List.Forall₂ (fun x y => f x = .ok y) xs ys := by
  induction xs generalizing ys with
  | nil =>
    rw [List.mapM_nil, List.forall₂_nil_left_iff]
    constructor
    · intro same
      exact (Except.ok.inj same).symm
    · rintro rfl
      rfl
  | cons x xs inductionHypothesis =>
    rw [List.mapM_cons, List.forall₂_cons_left_iff]
    constructor
    · intro mapped
      obtain ⟨y, first, mapped⟩ := exists_of_bind_eq_ok mapped
      obtain ⟨rest, others, mapped⟩ := exists_of_bind_eq_ok mapped
      obtain rfl := Except.ok.inj mapped
      exact ⟨y, rest, first, inductionHypothesis.mp others, rfl⟩
    · rintro ⟨y, rest, first, others, rfl⟩
      rw [first, inductionHypothesis.mpr others]
      rfl

/-- The codec reads items one by one. -/
theorem forall₂_reads {codec : Codec α} {depth : Nat} {ending : Ending} {items : List Node}
    {values : List Json} {list : List α} (linked : LinkedItems ending items)
    (found : readItems depth items = .ok values)
    (read : List.Forall₂ (fun item a => codec.read depth item = .ok a) items list) :
    List.Forall₂ codec.Reads values list := by
  induction read generalizing values with
  | nil =>
    obtain rfl := Except.ok.inj found
    exact .nil
  | cons first rest inductionHypothesis =>
    obtain ⟨value, restValues, rfl, firstFound, restFound⟩ := exists_of_readItems_cons found
    obtain ⟨firstLinked, _, restLinked⟩ := linked
    exact .cons ⟨_, _, firstLinked, firstFound, first⟩
      (inductionHypothesis restLinked restFound)

theorem forall₂_of_decodes {codec : Codec α} {depth : Nat} {ending : Ending} {items : List Node}
    {values : List Json} {list : List α} (decodes : List.Forall₂ codec.Decodes values list)
    (spelled : SpellsItems items values) (linked : LinkedItems ending items)
    (within : ∀ value ∈ values, depth + value.nesting < depthLimit) :
    List.Forall₂ (fun item a => codec.read depth item = .ok a) items list := by
  induction decodes generalizing items with
  | nil =>
    cases spelled
    exact .nil
  | cons first rest inductionHypothesis =>
    cases spelled with
    | cons firstSpelled restSpelled =>
      obtain ⟨firstLinked, _, restLinked⟩ := linked
      exact .cons (first _ _ firstSpelled firstLinked (within _ List.mem_cons_self))
        (inductionHypothesis restSpelled restLinked
          fun value member => within value (List.mem_cons_of_mem _ member))

/-- A list is read from an array, item by item. -/
theorem Codec.exists_of_read_list {codec : Codec α} {depth : Nat} {node : Node} {list : List α}
    (read : codec.list.read depth node = .ok list) :
    ∃ start items ending, node = .array start items ending ∧
      List.Forall₂ (fun item a => codec.read (depth + 1) item = .ok a) items list := by
  cases node with
  | array start items ending =>
    simp only [Codec.list] at read
    obtain ⟨inner, entered, read⟩ := exists_of_bind_eq_ok read
    obtain ⟨values, mapped, read⟩ := exists_of_bind_eq_ok read
    obtain ⟨_, _, read⟩ := exists_of_bind_eq_ok read
    obtain rfl : values = list := Except.ok.inj read
    rw [enter_eq_ok entered, mapM_eq_ok_iff] at mapped
    exact ⟨start, items, ending, rfl, mapped⟩
  | _ => contradiction

/-- A list that is read as JSON too is an array of items that are read in both ways. -/
theorem Codec.Reads.exists_array {codec : Codec α} {value : Json} {list : List α}
    (reads : codec.list.Reads value list) :
    ∃ values, value = .array values ∧ List.Forall₂ codec.Reads values list := by
  obtain ⟨depth, node, linked, asJson, asList⟩ := reads
  obtain ⟨start, items, ending, rfl, each⟩ := Codec.exists_of_read_list asList
  obtain ⟨values, after, rfl, rfl, found⟩ := exists_of_read_array asJson
  exact ⟨values, rfl, forall₂_reads linked found each⟩

theorem Codec.Decodes.list {codec : Codec α} {values : List Json} {list : List α}
    (decodes : List.Forall₂ codec.Decodes values list) :
    codec.list.Decodes (.array values) list := by
  intro depth node spells linked within
  obtain ⟨start, items, after, rfl, spelled⟩ := exists_of_spells_array spells
  rw [nesting] at within
  have inside : ∀ value ∈ values, depth + 1 + value.nesting < depthLimit := by
    intro value member
    have bound := nesting_le_of_mem_items member
    omega
  have mapped := mapM_eq_ok_iff.mpr (forall₂_of_decodes decodes spelled linked inside)
  simp only [Codec.list, enter_of_lt (show depth + 1 < depthLimit by omega) start, bind,
    Except.bind, mapped]
  rfl

theorem Codec.Stable.list {codec : Codec α} (stable : codec.Stable) : codec.list.Stable := by
  intro value list reads
  obtain ⟨values, rfl, each⟩ := reads.exists_array
  exact Codec.Decodes.list (each.imp stable)

/-! ## Ordered maps -/

/-- Two lists of entries have the same keys, and their values are related one by one. -/
def SameKeys {β : Type} (related : Json → β → Prop) :
    List (String × Json) → List (String × β) → Prop :=
  List.Forall₂ fun field entry => field.1 = entry.1 ∧ related field.2 entry.2

variable {β : Type} {related : Json → β → Prop}

theorem SameKeys.putEntry {fields : List (String × Json)} {entries : List (String × β)}
    (same : SameKeys related fields entries) (key : String) {value : Json} {b : β}
    (holds : related value b) :
    SameKeys related (putEntry fields key value) (putEntry entries key b) := by
  induction same with
  | nil => exact .cons ⟨rfl, holds⟩ .nil
  | @cons field entry fields entries first rest inductionHypothesis =>
    rw [FlatLiquid.putEntry, FlatLiquid.putEntry, first.1]
    split
    · exact .cons ⟨rfl, holds⟩ rest
    · exact .cons first inductionHypothesis

theorem SameKeys.mergeFields {fields : List (String × Json)} {entries : List (String × β)}
    (same : SameKeys related fields entries) :
    SameKeys related (mergeFields fields) (mergeFields entries) := by
  have folded : ∀ known knownEntries, SameKeys related known knownEntries →
      SameKeys related
        (fields.foldl (fun known entry => FlatLiquid.putEntry known entry.1 entry.2) known)
        (entries.foldl (fun known entry => FlatLiquid.putEntry known entry.1 entry.2)
          knownEntries) := by
    induction same with
    | nil => exact fun _ _ known => known
    | cons first rest inductionHypothesis =>
      intro known knownEntries sameKnown
      rw [List.foldl_cons, List.foldl_cons, first.1]
      exact inductionHypothesis _ _ (sameKnown.putEntry _ first.2)
  exact folded [] [] .nil

/-- The codec reads the value of a field. -/
def Codec.ReadsField (codec : Codec α) (depth : Nat) (field : Key × Node) (entry : String × α) :
    Prop :=
  (∃ name, field.1.text = .ok name ∧ String.ofList name = entry.1) ∧
    codec.read depth field.2 = .ok entry.2

theorem readFields_eq_ok_iff {codec : Codec α} {depth : Nat} {fields : List (Key × Node)}
    {entries : List (String × α)} :
    codec.readFields depth fields = .ok entries ↔
      List.Forall₂ (codec.ReadsField depth) fields entries := by
  rw [Codec.readFields, mapM_eq_ok_iff]
  have one (field : Key × Node) (entry : String × α) :
      (do
        let name ← field.1.text
        let value ← codec.read depth field.2
        pure (String.ofList name, value)) = Except.ok entry ↔ codec.ReadsField depth field entry := by
    constructor
    · intro read
      obtain ⟨name, named, read⟩ := exists_of_bind_eq_ok read
      obtain ⟨a, decoded, read⟩ := exists_of_bind_eq_ok read
      obtain rfl := Except.ok.inj read
      exact ⟨⟨name, named, rfl⟩, decoded⟩
    · rintro ⟨⟨name, named, same⟩, decoded⟩
      rw [named, decoded]
      exact congrArg (fun text => Except.ok (text, entry.2)) same
  constructor
  · exact fun each => each.imp fun field entry => (one field entry).mp
  · exact fun each => each.imp fun field entry => (one field entry).mpr

theorem sameKeys_reads {codec : Codec α} {depth : Nat} {fields : List (Key × Node)}
    {values : List (String × Json)} {entries : List (String × α)} (linked : LinkedFields fields)
    (found : Json.readFields depth fields = .ok values)
    (read : List.Forall₂ (codec.ReadsField depth) fields entries) :
    SameKeys codec.Reads values entries := by
  induction read generalizing values with
  | nil =>
    obtain rfl := Except.ok.inj found
    exact .nil
  | @cons field entry _ _ first rest inductionHypothesis =>
    obtain ⟨⟨name, named, sameName⟩, decoded⟩ := first
    obtain ⟨foundName, value, restValues, rfl, foundNamed, firstFound, restFound⟩ :=
      exists_of_readFields_cons found
    obtain rfl := Except.ok.inj (named.symm.trans foundNamed)
    obtain ⟨firstLinked, restLinked⟩ := linked
    exact .cons ⟨sameName, _, _, firstLinked, firstFound, decoded⟩
      (inductionHypothesis restLinked restFound)

theorem forall₂_of_sameKeys {codec : Codec α} {depth : Nat} {fields : List (Key × Node)}
    {values : List (String × Json)} {entries : List (String × α)}
    (decodes : SameKeys codec.Decodes values entries) (spelled : SpellsFields fields values)
    (linked : LinkedFields fields)
    (within : ∀ field ∈ values, depth + field.2.nesting < depthLimit) :
    List.Forall₂ (codec.ReadsField depth) fields entries := by
  induction decodes generalizing fields with
  | nil =>
    cases spelled
    exact .nil
  | cons first rest inductionHypothesis =>
    cases spelled with
    | cons text place firstSpelled restSpelled =>
      obtain ⟨firstLinked, restLinked⟩ := linked
      have decoded := first.2 _ _ firstSpelled firstLinked (within _ List.mem_cons_self)
      exact .cons ⟨⟨text, rfl, first.1⟩, decoded⟩
        (inductionHypothesis restSpelled restLinked
          fun field member => within field (List.mem_cons_of_mem _ member))

/-- A map is read from an object, field by field. -/
theorem Codec.exists_of_read_map {codec : Codec α} {depth : Nat} {node : Node}
    {map : OrderedMap α} (read : codec.map.read depth node = .ok map) :
    ∃ start fields ending entries, node = .object start fields ending ∧
      List.Forall₂ (codec.ReadsField (depth + 1)) fields entries ∧
        map.entries = mergeFields entries := by
  cases node with
  | object start fields ending =>
    simp only [Codec.map] at read
    obtain ⟨inner, entered, read⟩ := exists_of_bind_eq_ok read
    obtain ⟨entries, mapped, read⟩ := exists_of_bind_eq_ok read
    obtain ⟨_, _, read⟩ := exists_of_bind_eq_ok read
    obtain rfl : OrderedMap.ofList entries = map := Except.ok.inj read
    rw [enter_eq_ok entered, readFields_eq_ok_iff] at mapped
    exact ⟨start, fields, ending, entries, rfl, mapped,
      OrderedMap.entries_insertAll .empty entries⟩
  | _ => contradiction

/-- A map that is read as JSON too is an object whose values are read in both ways. -/
theorem Codec.Reads.exists_object {codec : Codec α} {value : Json} {map : OrderedMap α}
    (reads : codec.map.Reads value map) :
    ∃ fields, value = .object fields ∧ SameKeys codec.Reads fields map.entries := by
  obtain ⟨depth, node, linked, asJson, asMap⟩ := reads
  obtain ⟨start, fields, ending, entries, rfl, each, merged⟩ := Codec.exists_of_read_map asMap
  obtain ⟨values, after, rfl, rfl, found⟩ := exists_of_read_object asJson
  refine ⟨_, rfl, ?_⟩
  rw [merged]
  exact (sameKeys_reads linked found each).mergeFields

theorem Codec.Decodes.map {codec : Codec α} {fields : List (String × Json)} {map : OrderedMap α}
    (decodes : SameKeys codec.Decodes fields map.entries) :
    codec.map.Decodes (.object fields) map := by
  intro depth node spells linked within
  obtain ⟨start, entries, after, rfl, spelled⟩ := exists_of_spells_object spells
  rw [nesting] at within
  have inside : ∀ field ∈ fields, depth + 1 + field.2.nesting < depthLimit := by
    intro field member
    have bound := nesting_le_of_mem_fields member
    omega
  have read := readFields_eq_ok_iff.mpr (forall₂_of_sameKeys decodes spelled linked inside)
  simp only [Codec.map, enter_of_lt (show depth + 1 < depthLimit by omega) start, bind,
    Except.bind, read, Ending.read]
  exact congrArg Except.ok (OrderedMap.ofList_entries map)

theorem Codec.Stable.map {codec : Codec α} (stable : codec.Stable) : codec.map.Stable := by
  intro value map reads
  obtain ⟨fields, rfl, each⟩ := reads.exists_object
  exact Codec.Decodes.map (each.imp fun _ _ both => ⟨both.1, stable _ _ both.2⟩)

end FlatLiquid.Json
