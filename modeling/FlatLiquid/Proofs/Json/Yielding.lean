import FlatLiquid.Proofs.Json.Structures

/-!
Contract: what holds of every value that is read.

Owns:
- how deep brackets nest in JSON that is read inside so many brackets;
- properties of whatever a codec reads: a number, a list, an ordered map, a structure;
- properties of a structure that the reading of a field preserves.

A structure is read field by field from its blank value on, from an object as well as from an array.
What holds of the blank value and is preserved by each field holds of every structure that is read.
-/

namespace FlatLiquid.Json

variable {σ α : Type}

/-! ## Nesting -/

mutual

/-- What is read inside so many brackets nests less deep than the limit, these brackets counted. -/
theorem Node.nesting_lt_of_read {depth : Nat} {value : Json} :
    (node : Node) → depth < depthLimit → node.read depth = .ok value →
      depth + value.nesting < depthLimit
  | .null _, within, read => by
    obtain rfl := Except.ok.inj read
    exact within
  | .bool _ _, within, read => by
    obtain rfl := Except.ok.inj read
    exact within
  | .number _ _, within, read => by
    obtain ⟨_, _, rfl⟩ := exists_of_map_eq_ok read
    exact within
  | .string _ _, within, read => by
    obtain ⟨_, _, rfl⟩ := exists_of_map_eq_ok read
    exact within
  | .array start items ending, _, read => by
    have entered := lt_of_read_array read
    obtain ⟨values, _, rfl, _, found⟩ := exists_of_read_array read
    have inside := nestingOfItems_lt entered (nesting_lt_of_readItems items entered found)
    rw [nesting]
    omega
  | .object start fields ending, _, read => by
    have entered := lt_of_read_object read
    obtain ⟨values, _, rfl, _, found⟩ := exists_of_read_object read
    have merged := forall_mem_mergeFields (fun value => depth + 1 + nesting value < depthLimit)
      (nesting_lt_of_readFields fields entered found)
    have inside := nestingOfFields_lt entered merged
    rw [nesting]
    omega
  | .broken _, _, read => by contradiction

theorem nesting_lt_of_readItems {depth : Nat} {values : List Json} :
    (items : List Node) → depth < depthLimit → readItems depth items = .ok values →
      ∀ value ∈ values, depth + value.nesting < depthLimit
  | [], _, read => by
    obtain rfl := Except.ok.inj read
    exact List.forall_mem_nil _
  | item :: rest, within, read => by
    obtain ⟨first, others, rfl, readFirst, readOthers⟩ := exists_of_readItems_cons read
    rw [List.forall_mem_cons]
    exact ⟨Node.nesting_lt_of_read item within readFirst,
      nesting_lt_of_readItems rest within readOthers⟩

theorem nesting_lt_of_readFields {depth : Nat} {values : List (String × Json)} :
    (fields : List (Key × Node)) → depth < depthLimit → readFields depth fields = .ok values →
      ∀ field ∈ values, depth + field.2.nesting < depthLimit
  | [], _, read => by
    obtain rfl := Except.ok.inj read
    exact List.forall_mem_nil _
  | (key, node) :: rest, within, read => by
    obtain ⟨_, first, others, rfl, _, readFirst, readOthers⟩ := exists_of_readFields_cons read
    rw [List.forall_mem_cons]
    exact ⟨Node.nesting_lt_of_read node within readFirst,
      nesting_lt_of_readFields rest within readOthers⟩

end

/-! ## Codecs -/

/-- Whatever the codec reads inside so many brackets has the property. -/
def Codec.Yields (codec : Codec α) (depth : Nat) (holds : α → Prop) : Prop :=
  ∀ node a, codec.read depth node = .ok a → holds a

variable {codec : Codec α} {depth : Nat}

theorem Codec.natural_yields (bits : Nat) (expected : String) :
    (Codec.natural bits expected).Yields depth (· < Nat.pow 2 bits) := by
  intro node natural read
  obtain ⟨_, _, _, _, small⟩ := Codec.exists_of_read_natural read
  exact small

theorem Codec.Yields.list {holds : α → Prop} (yields : codec.Yields (depth + 1) holds) :
    codec.list.Yields depth fun list => ∀ a ∈ list, holds a := by
  intro node list read
  obtain ⟨start, items, ending, rfl, each⟩ := Codec.exists_of_read_list read
  exact forall_of_forall₂ each.flip fun a item => yields item a

theorem Codec.Yields.map {holds : α → Prop} (yields : codec.Yields (depth + 1) holds) :
    codec.map.Yields depth fun map => ∀ entry ∈ map.entries, holds entry.2 := by
  intro node map read
  obtain ⟨start, fields, ending, entries, rfl, each, same⟩ := Codec.exists_of_read_map read
  have held : ∀ entry ∈ entries, holds entry.2 :=
    forall_of_forall₂ each.flip fun entry field decoded => yields field.2 entry.2 decoded.2
  rw [same]
  exact forall_mem_mergeFields holds held

/-! ## Fields -/

/-- The reading of the field preserves the property. -/
def Field.Preserves (field : Field σ) (depth : Nat) (holds : σ → Prop) : Prop :=
  ∀ node before after, holds before → field.read depth node before = .ok after → holds after

variable {holds : σ → Prop}

/-- A field preserves what does not depend on it. -/
theorem Field.Stores.preserves {field : Field σ} {set : σ → α → σ} (stores : field.Stores set)
    (kept : ∀ s a, holds s → holds (set s a)) : field.Preserves depth holds := by
  intro node before after held read
  obtain ⟨a, rfl, _⟩ := stores depth node before after read
  exact kept before a held

theorem Field.plain_preserves (name : String) {yielded : α → Prop}
    (yields : codec.Yields depth yielded) (get : σ → α) {set : σ → α → σ}
    (stored : ∀ s a, yielded a → holds s → holds (set s a)) :
    (Field.plain name codec get set).Preserves depth holds := by
  intro node before after held read
  obtain ⟨a, decoded, rfl⟩ := exists_of_map_eq_ok read
  exact stored before a (yields node a decoded) held

theorem Field.needed_preserves (name : String) {yielded : α → Prop}
    (yields : codec.Yields depth yielded) (get : σ → α) {set : σ → α → σ}
    (stored : ∀ s a, yielded a → holds s → holds (set s a)) :
    (Field.needed name codec get set).Preserves depth holds :=
  Field.plain_preserves name yields get stored

/-- A field that may be null stores nothing or what its codec reads from something else. -/
theorem Field.optional_preserves (name : String) {yielded : α → Prop}
    (yields : ∀ node a, (∀ after, node ≠ .null after) → codec.read depth node = .ok a → yielded a)
    (get : σ → Option α) {set : σ → Option α → σ}
    (stored : ∀ s option, (∀ a ∈ option, yielded a) → holds s → holds (set s option)) :
    (Field.optional name codec get set).Preserves depth holds := by
  intro node before after held read
  by_cases null : ∃ place, node = .null place
  · obtain ⟨place, rfl⟩ := null
    obtain rfl := Except.ok.inj read
    exact stored before none (fun _ member => nomatch member) held
  · have other : ∀ place, node ≠ .null place := fun place same => null ⟨place, same⟩
    rw [Field.optional_of_not_null name codec get set depth other] at read
    obtain ⟨a, decoded, rfl⟩ := exists_of_map_eq_ok read
    refine stored before (some a) ?_ held
    intro b member
    obtain rfl := Option.some.inj member
    exact yields node a other decoded

/-! ## Structures -/

namespace Shape

variable {shape : Shape σ} {before after : σ} {ending : Ending}

theorem holds_of_readObject (preserves : ∀ field ∈ shape.fields, field.Preserves depth holds)
    {seen : List String} {entries : List (Key × Node)} (held : holds before)
    (read : shape.readObject depth ending seen before entries = .ok after) : holds after := by
  induction entries generalizing seen before with
  | nil =>
    obtain ⟨rfl, _⟩ := complete_of_readObject_nil read
    exact held
  | cons entry rest inductionHypothesis =>
    obtain ⟨text, _, cases⟩ := readObject_cons_cases read
    rcases cases with ⟨_, read⟩ | ⟨field, middle, found, _, fieldRead, read⟩
    · exact inductionHypothesis held read
    · have kept := preserves field (mem_of_field? found) _ _ _ held fieldRead
      exact inductionHypothesis kept read

theorem holds_of_readArray {fields : List (Field σ)}
    (preserves : ∀ field ∈ fields, field.Preserves depth holds) {count : Nat} {last : Cursor}
    {items : List Node} (held : holds before)
    (read : shape.readArray depth ending count last before fields items = .ok after) :
    holds after := by
  induction fields generalizing items before last count with
  | nil =>
    rw [readArray] at read
    obtain ⟨_, _, read⟩ := exists_of_bind_eq_ok read
    obtain rfl := Except.ok.inj read
    exact held
  | cons field fields inductionHypothesis =>
    rw [List.forall_mem_cons] at preserves
    cases items with
    | nil =>
      cases ending with
      | broken stop =>
        rw [readArray] at read
        · contradiction
        · exact List.cons_ne_nil _ _
      | closed place =>
        rw [readArray] at read
        · split at read
          · contradiction
          · obtain rfl := Except.ok.inj read
            exact held
        · exact List.cons_ne_nil _ _
    | cons item rest =>
      rw [readArray] at read
      obtain ⟨middle, changed, read⟩ := exists_of_bind_eq_ok read
      have kept := preserves.1 _ _ _ held (eq_ok_of_mapError_eq_ok changed)
      exact inductionHypothesis preserves.2 kept read

/-- What the blank structure has and each field preserves is had by every structure that is read. -/
theorem codec_yields (blank : holds shape.blank)
    (preserves : ∀ field ∈ shape.fields, field.Preserves (depth + 1) holds) :
    shape.codec.Yields depth holds := by
  intro node a read
  cases node with
  | object start fields ending =>
    simp only [codec, readFields] at read
    obtain ⟨inner, entered, read⟩ := exists_of_bind_eq_ok read
    rw [enter_eq_ok entered] at read
    exact holds_of_readObject preserves blank read
  | array start items ending =>
    simp only [codec] at read
    obtain ⟨inner, entered, read⟩ := exists_of_bind_eq_ok read
    rw [enter_eq_ok entered] at read
    exact holds_of_readArray preserves blank read
  | _ => contradiction

end Shape

end FlatLiquid.Json
