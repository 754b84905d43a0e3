import FlatLiquid.Proofs.Json.Decoding

/-!
Contract: structures and the JSON that they are read from.

Owns:
- fields whose reading depends on the JSON only, of each kind of field;
- how a structure follows from the fields of an object, one by one;
- what becomes of a structure when one field of its object is exchanged;
- the stability of the codec of a structure.

The fields of an object are taken in the order of the object, after repeated keys have been merged. A
key that the structure does not know may be repeated, one that it knows may not.
-/

namespace FlatLiquid.Json

variable {σ α γ : Type}

/-! ## Fields -/

/-- The field is read from a node that is read as this JSON, and changes a structure in this way. -/
def Field.Reads (field : Field σ) (value : Json) (update : σ → σ) : Prop :=
  ∃ depth node, Node.Linked node ∧ node.read depth = .ok value ∧
    ∀ before, field.read depth node before = .ok (update before)

/-- The field is read from every node that spells this JSON, and changes a structure in this way. -/
def Field.Decodes (field : Field σ) (value : Json) (update : σ → σ) : Prop :=
  ∀ depth node, Node.Spells node value → node.Linked → depth + value.nesting < depthLimit →
    ∀ before, field.read depth node before = .ok (update before)

/-- The field has been read in this way once and is so again. -/
def Field.Settles (field : Field σ) (value : Json) (update : σ → σ) : Prop :=
  field.Reads value update ∧ field.Decodes value update

/-- What the field does to a structure depends on the JSON only. -/
def Field.Stable (field : Field σ) : Prop :=
  ∀ depth node value before after, Node.Linked node → node.read depth = .ok value →
    field.read depth node before = .ok after →
      ∃ update, after = update before ∧ field.Settles value update

/-- All that the field does to a structure is to store a value in it. -/
def Field.Stores (field : Field σ) (set : σ → α → σ) : Prop :=
  ∀ depth node before after, field.read depth node before = .ok after →
    ∃ a, after = set before a ∧ ∀ other, field.read depth node other = .ok (set other a)

namespace Field

variable (name : String) {codec : Codec α} (get : σ → α) (set : σ → α → σ)

theorem plain_decodes {value : Json} {a : α} (decodes : codec.Decodes value a) :
    (plain name codec get set).Decodes value fun before => set before a := by
  intro depth node spells linked within before
  rw [plain]
  simp only [decodes depth node spells linked within]
  rfl

theorem plain_stable (stable : codec.Stable) : (plain name codec get set).Stable := by
  intro depth node value before after linked asJson read
  obtain ⟨a, decoded, rfl⟩ := exists_of_map_eq_ok read
  refine ⟨fun s => set s a, rfl, ⟨depth, node, linked, asJson, ?_⟩,
    plain_decodes name get set (stable value a ⟨depth, node, linked, asJson, decoded⟩)⟩
  intro other
  rw [plain]
  simp only [decoded]
  rfl

theorem needed_stable (stable : codec.Stable) : (needed name codec get set).Stable :=
  plain_stable name get set stable

theorem items_stable (stable : codec.Stable) (get : σ → List α) (set : σ → List α → σ) :
    (items name codec get set).Stable :=
  plain_stable name get set stable.list

theorem optional_of_not_null (codec : Codec α) (get : σ → Option α) (set : σ → Option α → σ)
    (depth : Nat) {node : Node} (other : ∀ after, node ≠ .null after) (before : σ) :
    (optional name codec get set).read depth node before =
      (codec.read depth node).map fun a => set before (some a) := by
  cases node with
  | null after => exact absurd rfl (other after)
  | _ => rfl

theorem optional_decodes (get : σ → Option α) (set : σ → Option α → σ) {value : Json} {a : α}
    (other : value ≠ .null) (decodes : codec.Decodes value a) :
    (optional name codec get set).Decodes value fun before => set before (some a) := by
  intro depth node spells linked within before
  have notNull : ∀ place, node ≠ .null place := by
    rintro place rfl
    cases spells
    exact other rfl
  rw [optional_of_not_null name codec get set depth notNull,
    decodes depth node spells linked within]
  rfl

theorem optional_stable (stable : codec.Stable) (get : σ → Option α) (set : σ → Option α → σ) :
    (optional name codec get set).Stable := by
  intro depth node value before after linked asJson read
  by_cases null : ∃ place, node = .null place
  · obtain ⟨place, rfl⟩ := null
    obtain rfl := Except.ok.inj asJson
    obtain rfl := Except.ok.inj read
    refine ⟨fun s => set s none, rfl, ⟨depth, _, linked, asJson, fun _ => rfl⟩, ?_⟩
    intro inner other spells _ _ s
    obtain ⟨last, rfl⟩ := exists_of_spells_null spells
    rfl
  · have other : ∀ place, node ≠ .null place := fun place same => null ⟨place, same⟩
    rw [optional_of_not_null name codec get set depth other] at read
    obtain ⟨a, decoded, rfl⟩ := exists_of_map_eq_ok read
    have notNull : value ≠ .null := by
      rintro rfl
      exact null (exists_of_read_null asJson)
    refine ⟨fun s => set s (some a), rfl, ⟨depth, node, linked, asJson, ?_⟩,
      optional_decodes name get set notNull (stable value a ⟨depth, node, linked, asJson, decoded⟩)⟩
    intro s
    rw [optional_of_not_null name codec get set depth other, decoded]
    rfl

theorem plain_stores (codec : Codec α) : (plain name codec get set).Stores set := by
  intro depth node before after read
  obtain ⟨a, decoded, rfl⟩ := exists_of_map_eq_ok read
  refine ⟨a, rfl, fun other => ?_⟩
  rw [plain]
  simp only [decoded]
  rfl

theorem needed_stores (codec : Codec α) : (needed name codec get set).Stores set :=
  plain_stores name get set codec

theorem items_stores (codec : Codec α) (get : σ → List α) (set : σ → List α → σ) :
    (items name codec get set).Stores set :=
  plain_stores name get set codec.list

theorem optional_stores (codec : Codec α) (get : σ → Option α) (set : σ → Option α → σ) :
    (optional name codec get set).Stores set := by
  intro depth node before after read
  by_cases null : ∃ place, node = .null place
  · obtain ⟨place, rfl⟩ := null
    obtain rfl := Except.ok.inj read
    exact ⟨none, rfl, fun _ => rfl⟩
  · have other : ∀ place, node ≠ .null place := fun place same => null ⟨place, same⟩
    rw [optional_of_not_null name codec get set depth other] at read
    obtain ⟨a, decoded, rfl⟩ := exists_of_map_eq_ok read
    refine ⟨some a, rfl, fun s => ?_⟩
    rw [optional_of_not_null name codec get set depth other, decoded]
    rfl

variable {set} {field : Field σ}

/-- A field goes on as before when something else in the structure has been changed. -/
theorem Stores.moves {change : σ → σ} (stores : field.Stores set)
    (commutes : ∀ s a, change (set s a) = set (change s) a) (depth : Nat) (node : Node)
    (before after : σ) (read : field.read depth node before = .ok after) :
    field.read depth node (change before) = .ok (change after) := by
  obtain ⟨a, rfl, again⟩ := stores depth node before after read
  rw [again, commutes]

theorem Stores.keeps {get : σ → γ} (stores : field.Stores set)
    (kept : ∀ s a, get (set s a) = get s) (depth : Nat) (node : Node) (before after : σ)
    (read : field.read depth node before = .ok after) : get after = get before := by
  obtain ⟨a, rfl, _⟩ := stores depth node before after read
  exact kept before a

end Field

/-! ## Structures from the fields of an object -/

namespace Shape

/-- The field of a name. -/
def field? (shape : Shape σ) (name : String) : Option (Field σ) :=
  shape.fields.find? fun field => field.name == name

/-- A structure becomes another one through the fields of an object, each of which changes it in a
way that is related to its value. Fields with other names change nothing. -/
def Follows (shape : Shape σ) (related : Field σ → Json → (σ → σ) → Prop) :
    σ → List (String × Json) → σ → Prop
  | before, [], after => after = before
  | before, (name, value) :: rest, after =>
    match shape.field? name with
    | none => shape.Follows related before rest after
    | some field =>
      ∃ update, related field value update ∧ shape.Follows related (update before) rest after

variable {shape : Shape σ} {related : Field σ → Json → (σ → σ) → Prop} {name : String}
  {field : Field σ} {before after : σ} {fields : List (String × Json)}

theorem find?_eq_field? (shape : Shape σ) (text : List Char) :
    (shape.fields.find? fun field => field.name.toList == text) =
      shape.field? (String.ofList text) := by
  have same : (fun field : Field σ => field.name.toList == text) =
      fun field => field.name == String.ofList text := by
    funext field
    rw [Bool.eq_iff_iff, beq_iff_eq, beq_iff_eq]
    constructor
    · rintro rfl
      exact String.ofList_toList.symm
    · intro named
      rw [named, String.toList_ofList]
  rw [field?, same]

theorem name_of_field? (found : shape.field? name = some field) : field.name = name := by
  have fits := List.find?_some found
  exact beq_iff_eq.mp fits

theorem mem_of_field? (found : shape.field? name = some field) : field ∈ shape.fields :=
  List.mem_of_find?_eq_some found

theorem name_ne_of_field?_none (unknown : shape.field? name = none) (member : field ∈ shape.fields) :
    field.name ≠ name := by
  intro same
  have unfit := List.find?_eq_none.mp unknown field member
  rw [same, beq_self_eq_true] at unfit
  exact unfit rfl

theorem follows_cons_none (unknown : shape.field? name = none) (value : Json)
    (rest : List (String × Json)) :
    shape.Follows related before ((name, value) :: rest) after ↔
      shape.Follows related before rest after := by
  rw [Follows, unknown]

theorem follows_cons_some (found : shape.field? name = some field) (value : Json)
    (rest : List (String × Json)) :
    shape.Follows related before ((name, value) :: rest) after ↔
      ∃ update, related field value update ∧
        shape.Follows related (update before) rest after := by
  rw [Follows, found]

theorem follows_append {middle : σ} (fields more : List (String × Json))
    (first : shape.Follows related before fields middle)
    (second : shape.Follows related middle more after) :
    shape.Follows related before (fields ++ more) after := by
  induction fields generalizing before with
  | nil =>
    obtain rfl : middle = before := first
    exact second
  | cons entry rest inductionHypothesis =>
    obtain ⟨name, value⟩ := entry
    cases found : shape.field? name with
    | none =>
      rw [follows_cons_none found] at first
      rw [List.cons_append, follows_cons_none found]
      exact inductionHypothesis first
    | some field =>
      obtain ⟨update, holds, first⟩ := (follows_cons_some found value rest).mp first
      rw [List.cons_append, follows_cons_some found]
      exact ⟨update, holds, inductionHypothesis first⟩

theorem follows_mono {weaker : Field σ → Json → (σ → σ) → Prop}
    (weakens : ∀ field value update, related field value update → weaker field value update)
    (follows : shape.Follows related before fields after) :
    shape.Follows weaker before fields after := by
  induction fields generalizing before with
  | nil => exact follows
  | cons entry rest inductionHypothesis =>
    obtain ⟨name, value⟩ := entry
    cases found : shape.field? name with
    | none =>
      rw [follows_cons_none found] at follows ⊢
      exact inductionHypothesis follows
    | some field =>
      obtain ⟨update, holds, follows⟩ := (follows_cons_some found value rest).mp follows
      exact (follows_cons_some found value rest).mpr
        ⟨update, weakens field value update holds, inductionHypothesis follows⟩

/-- The value of a field with another name does not matter. -/
theorem follows_putEntry_none (unknown : shape.field? name = none) (value : Json)
    (follows : shape.Follows related before fields after) :
    shape.Follows related before (putEntry fields name value) after := by
  induction fields generalizing before with
  | nil =>
    rw [putEntry, follows_cons_none unknown]
    exact follows
  | cons entry rest inductionHypothesis =>
    obtain ⟨other, old⟩ := entry
    rw [putEntry]
    split
    · next same =>
      have unknownOther : shape.field? other = none := by
        rw [show other = name from same]
        exact unknown
      rw [follows_cons_none unknownOther] at follows ⊢
      exact follows
    · cases found : shape.field? other with
      | none =>
        rw [follows_cons_none found] at follows ⊢
        exact inductionHypothesis follows
      | some field =>
        rw [follows_cons_some found] at follows ⊢
        obtain ⟨update, holds, follows⟩ := follows
        exact ⟨update, holds, inductionHypothesis follows⟩

/-- Every field that must be there is among these names. -/
def Complete (shape : Shape σ) (names : List String) : Prop :=
  ∀ field ∈ shape.fields, field.required = true → field.name ∈ names

/-- A name that no field has can be left out. -/
theorem Complete.of_cons_unknown {seen names : List String}
    (complete : shape.Complete (seen ++ name :: names)) (unknown : shape.field? name = none) :
    shape.Complete (seen ++ names) := by
  intro field member required
  have there := complete field member required
  rw [List.mem_append, List.mem_cons] at there
  rw [List.mem_append]
  rcases there with old | same | new
  · exact Or.inl old
  · exact absurd same (name_ne_of_field?_none unknown member)
  · exact Or.inr new

theorem Complete.of_cons_seen {seen names : List String}
    (complete : shape.Complete (seen ++ name :: names)) : shape.Complete ((name :: seen) ++ names) :=
  fun field member required => List.perm_middle.mem_iff.mp (complete field member required)

/-! ## Reading an object -/

variable {depth : Nat} {seen : List String} {place : Cursor}

/-- An object with all fields that must be there can end. -/
theorem readObject_nil_of_complete (complete : shape.Complete seen) :
    shape.readObject depth (.closed place) seen before [] = .ok before := by
  rw [readObject]
  have noneMissing :
      shape.fields.find? (fun field => field.required && !seen.contains field.name) = none := by
    rw [List.find?_eq_none]
    intro field member missing
    rw [Bool.and_eq_true, Bool.not_eq_true'] at missing
    rw [List.contains_iff_mem.mpr (complete field member missing.1)] at missing
    exact absurd missing.2 (by decide)
  simp only [noneMissing]

/-- A structure is read again from any object that it follows from. -/
theorem readObject_of_follows {entries : List (Key × Node)}
    (spelled : SpellsFields entries fields) (linked : LinkedFields entries)
    (within : ∀ field ∈ fields, depth + field.2.nesting < depthLimit)
    (distinct : (fields.map Prod.fst).Nodup) (fresh : ∀ name ∈ fields.map Prod.fst, name ∉ seen)
    (complete : shape.Complete (seen ++ fields.map Prod.fst))
    (follows : shape.Follows Field.Decodes before fields after) :
    shape.readObject depth (.closed place) seen before entries = .ok after := by
  induction fields generalizing entries seen before with
  | nil =>
    obtain rfl : after = before := follows
    cases spelled
    rw [List.map_nil, List.append_nil] at complete
    exact readObject_nil_of_complete complete
  | cons entry rest inductionHypothesis =>
    obtain ⟨name, value⟩ := entry
    cases spelled with
    | @cons node _ others _ text keyPlace first more =>
      obtain ⟨firstLinked, restLinked⟩ := linked
      rw [List.map_cons, List.nodup_cons] at distinct
      rw [List.map_cons] at complete
      have restWithin : ∀ field ∈ rest, depth + field.2.nesting < depthLimit :=
        fun field member => within field (List.mem_cons_of_mem _ member)
      have restFresh : ∀ name ∈ rest.map Prod.fst, name ∉ seen :=
        fun name member => fresh name (List.mem_cons_of_mem _ member)
      rw [readObject]
      simp only [bind, Except.bind, find?_eq_field?]
      cases found : shape.field? (String.ofList text) with
      | none =>
        rw [follows_cons_none found] at follows
        simp only [first.skip]
        exact inductionHypothesis more restLinked restWithin distinct.2 restFresh
          (complete.of_cons_unknown found) follows
      | some field =>
        obtain ⟨update, decodes, follows⟩ := (follows_cons_some found value rest).mp follows
        have named := name_of_field? found
        have unseen : seen.contains (String.ofList text) = false := by
          rw [Bool.eq_false_iff]
          intro there
          exact fresh _ List.mem_cons_self (List.contains_iff_mem.mp there)
        have read := decodes depth node first firstLinked (within _ List.mem_cons_self) before
        have stillFresh : ∀ name ∈ rest.map Prod.fst, name ∉ String.ofList text :: seen := by
          intro other member there
          rcases List.mem_cons.mp there with rfl | old
          · exact distinct.1 member
          · exact restFresh other member old
        simp only [named, unseen, read]
        exact inductionHypothesis more restLinked restWithin distinct.2 stillFresh
          complete.of_cons_seen follows

/-- An object that has been read up to its end has all fields that must be there. -/
theorem complete_of_readObject_nil {ending : Ending}
    (read : shape.readObject depth ending seen before [] = .ok after) :
    after = before ∧ shape.Complete seen := by
  cases ending with
  | broken stop =>
    rw [readObject] at read
    contradiction
  | closed place =>
    rw [readObject] at read
    split at read
    · contradiction
    · next none =>
      refine ⟨(Except.ok.inj read).symm, ?_⟩
      intro field member required
      have unfit := List.find?_eq_none.mp none field member
      rw [required, Bool.true_and, Bool.not_eq_true', Bool.not_eq_false,
        List.contains_iff_mem] at unfit
      exact unfit

/-- The first field of an object that is read is passed over, or it is the first of its name and
changes the structure. -/
theorem readObject_cons_cases {ending : Ending} {key : Key} {node : Node}
    {rest : List (Key × Node)}
    (read : shape.readObject depth ending seen before ((key, node) :: rest) = .ok after) :
    ∃ text, key.text = .ok text ∧
      ((shape.field? (String.ofList text) = none ∧
          shape.readObject depth ending seen before rest = .ok after) ∨
        ∃ field middle, shape.field? (String.ofList text) = some field ∧ field.name ∉ seen ∧
          field.read depth node before = .ok middle ∧
          shape.readObject depth ending (field.name :: seen) middle rest = .ok after) := by
  rw [readObject] at read
  obtain ⟨text, named, read⟩ := exists_of_bind_eq_ok read
  simp only [find?_eq_field?] at read
  refine ⟨text, named, ?_⟩
  cases found : shape.field? (String.ofList text) with
  | none =>
    rw [found] at read
    obtain ⟨_, _, read⟩ := exists_of_bind_eq_ok read
    exact .inl ⟨rfl, read⟩
  | some field =>
    rw [found] at read
    simp only at read
    split at read
    · contradiction
    · next unseen =>
      obtain ⟨middle, changed, read⟩ := exists_of_bind_eq_ok read
      exact .inr ⟨field, middle, rfl, fun there => unseen (List.contains_iff_mem.mpr there),
        eq_ok_of_mapError_eq_ok changed, read⟩

/-- A structure that is read from an object follows from the object's fields after repeated keys
have been merged. What has been read so far follows from the fields in `known`. -/
theorem follows_of_readObject {ending : Ending} {entries : List (Key × Node)} {first : σ}
    {values known : List (String × Json)} (stable : ∀ field ∈ shape.fields, field.Stable)
    (linked : LinkedFields entries) (asJson : Json.readFields depth entries = .ok values)
    (read : shape.readObject depth ending seen before entries = .ok after)
    (follows : shape.Follows Field.Settles first known before)
    (seenIff : ∀ field ∈ shape.fields, field.name ∈ seen ↔ field.name ∈ known.map Prod.fst) :
    let merged := values.foldl (fun known entry => putEntry known entry.1 entry.2) known
    shape.Follows Field.Settles first merged after ∧ shape.Complete (merged.map Prod.fst) := by
  induction entries generalizing values known seen before with
  | nil =>
    obtain rfl := Except.ok.inj asJson
    obtain ⟨rfl, complete⟩ := complete_of_readObject_nil read
    exact ⟨follows, fun field member required =>
      (seenIff field member).mp (complete field member required)⟩
  | cons entry rest inductionHypothesis =>
    obtain ⟨key, node⟩ := entry
    obtain ⟨firstLinked, restLinked⟩ := linked
    obtain ⟨name, value, others, rfl, sameName, nodeRead, othersRead⟩ :=
      exists_of_readFields_cons asJson
    obtain ⟨text, named, cases⟩ := readObject_cons_cases read
    obtain rfl := Except.ok.inj (named.symm.trans sameName)
    rw [List.foldl_cons]
    rcases cases with ⟨unknown, read⟩ | ⟨field, middle, found, unseen, fieldRead, read⟩
    · refine inductionHypothesis restLinked othersRead read
        (follows_putEntry_none unknown value follows) ?_
      intro field member
      rw [seenIff field member, mem_keys_putEntry]
      constructor
      · exact Or.inr
      · rintro (same | old)
        · exact absurd same (name_ne_of_field?_none unknown member)
        · exact old
    · obtain ⟨update, rfl, settles⟩ := stable field (mem_of_field? found) depth node value before
        middle firstLinked nodeRead fieldRead
      have fieldName := name_of_field? found
      have absent : String.ofList text ∉ known.map Prod.fst := by
        intro there
        rw [← fieldName, ← seenIff field (mem_of_field? found)] at there
        exact unseen there
      have alone : shape.Follows Field.Settles before [(String.ofList text, value)]
          (update before) :=
        (follows_cons_some found value []).mpr ⟨update, settles, rfl⟩
      refine inductionHypothesis restLinked othersRead read ?_ ?_
      · rw [putEntry_of_not_mem value absent]
        exact follows_append _ _ follows alone
      · intro other member
        rw [List.mem_cons, mem_keys_putEntry, seenIff other member, fieldName]

/-! ## One field exchanged -/

/-- No field of another name touches what is changed. -/
def Apart (shape : Shape σ) (name : String) (change : σ → σ) : Prop :=
  ∀ field ∈ shape.fields, field.name ≠ name → ∀ depth node before after,
    field.read depth node before = .ok after →
      field.read depth node (change before) = .ok (change after)

theorem follows_apart {change : σ → σ} (apart : shape.Apart name change)
    (absent : name ∉ fields.map Prod.fst)
    (follows : shape.Follows Field.Settles before fields after) :
    shape.Follows Field.Decodes (change before) fields (change after) := by
  induction fields generalizing before with
  | nil => exact congrArg change follows
  | cons entry rest inductionHypothesis =>
    obtain ⟨other, value⟩ := entry
    rw [List.map_cons, List.mem_cons, not_or] at absent
    cases found : shape.field? other with
    | none =>
      rw [follows_cons_none found] at follows ⊢
      exact inductionHypothesis absent.2 follows
    | some field =>
      obtain ⟨update, ⟨reads, decodes⟩, follows⟩ := (follows_cons_some found value rest).mp follows
      obtain ⟨depth, node, _, _, read⟩ := reads
      have otherName : field.name ≠ name := by
        rw [name_of_field? found]
        exact Ne.symm absent.1
      have moved := apart field (mem_of_field? found) otherName depth node _ _ (read before)
      have commutes : update (change before) = change (update before) :=
        Except.ok.inj ((read (change before)).symm.trans moved)
      refine (follows_cons_some found value rest).mpr ⟨update, decodes, ?_⟩
      rw [commutes]
      exact inductionHypothesis absent.2 follows

/-- A structure that follows from an object follows with one field exchanged from the object with
this field exchanged. -/
theorem follows_putEntry {change : σ → σ} {value : Json} (found : shape.field? name = some field)
    (decodes : field.Decodes value change)
    (overrides : ∀ depth node before after, field.read depth node before = .ok after →
      change after = change before)
    (apart : shape.Apart name change) (distinct : (fields.map Prod.fst).Nodup)
    (follows : shape.Follows Field.Settles before fields after) :
    shape.Follows Field.Decodes before (putEntry fields name value) (change after) := by
  induction fields generalizing before with
  | nil =>
    obtain rfl : after = before := follows
    rw [putEntry, follows_cons_some found]
    exact ⟨change, decodes, rfl⟩
  | cons entry rest inductionHypothesis =>
    obtain ⟨other, old⟩ := entry
    rw [List.map_cons, List.nodup_cons] at distinct
    rw [putEntry]
    split
    · next same =>
      obtain rfl : other = name := same
      obtain ⟨update, ⟨reads, _⟩, follows⟩ := (follows_cons_some found old rest).mp follows
      obtain ⟨depth, node, _, _, read⟩ := reads
      have moved := follows_apart apart distinct.1 follows
      rw [overrides depth node before _ (read before)] at moved
      exact (follows_cons_some found value rest).mpr ⟨change, decodes, moved⟩
    · cases known : shape.field? other with
      | none =>
        rw [follows_cons_none known] at follows ⊢
        exact inductionHypothesis distinct.2 follows
      | some field =>
        obtain ⟨update, settles, follows⟩ := (follows_cons_some known old rest).mp follows
        exact (follows_cons_some known old _).mpr
          ⟨update, settles.2, inductionHypothesis distinct.2 follows⟩

/-- No field of another name touches what is got. -/
def Keeps (shape : Shape σ) (name : String) (get : σ → γ) : Prop :=
  ∀ field ∈ shape.fields, field.name ≠ name → ∀ depth node before after,
    field.read depth node before = .ok after → get after = get before

/-- What a structure holds under a name comes from the object's field of this name, or has been there
before. -/
theorem follows_lookup {get : σ → γ} (found : shape.field? name = some field)
    (keeps : shape.Keeps name get) (distinct : (fields.map Prod.fst).Nodup)
    (follows : shape.Follows Field.Settles before fields after) :
    (fields.lookup name = none ∧ get after = get before) ∨
      ∃ value update middle, fields.lookup name = some value ∧ field.Reads value update ∧
        get after = get (update middle) := by
  induction fields generalizing before with
  | nil =>
    obtain rfl : after = before := follows
    exact Or.inl ⟨rfl, rfl⟩
  | cons entry rest inductionHypothesis =>
    obtain ⟨other, value⟩ := entry
    rw [List.map_cons, List.nodup_cons] at distinct
    by_cases same : name = other
    · subst same
      obtain ⟨update, ⟨reads, _⟩, follows⟩ := (follows_cons_some found value rest).mp follows
      have absent : rest.lookup name = none := by
        rw [List.lookup_eq_none_iff]
        intro entry member
        rw [bne_iff_ne]
        rintro rfl
        exact distinct.1 (List.mem_map.mpr ⟨entry, member, rfl⟩)
      refine Or.inr ⟨value, update, before, by rw [List.lookup_cons_self], reads, ?_⟩
      rcases inductionHypothesis distinct.2 follows with ⟨_, kept⟩ | ⟨_, _, _, there, _⟩
      · exact kept
      · rw [absent] at there
        contradiction
    · have skipped : ((other, value) :: rest).lookup name = rest.lookup name := by
        rw [List.lookup_cons, beq_eq_false_iff_ne.mpr same]
      rw [skipped]
      cases known : shape.field? other with
      | none =>
        rw [follows_cons_none known] at follows
        exact inductionHypothesis distinct.2 follows
      | some otherField =>
        obtain ⟨update, ⟨reads, _⟩, follows⟩ := (follows_cons_some known value rest).mp follows
        obtain ⟨depth, node, _, _, read⟩ := reads
        have otherName : otherField.name ≠ name := by
          rw [name_of_field? known]
          exact Ne.symm same
        have kept := keeps otherField (mem_of_field? known) otherName depth node _ _ (read before)
        rw [← kept]
        exact inductionHypothesis distinct.2 follows

end Shape

/-! ## Reading an array -/

theorem exists_finish_of_read {node : Node} {depth : Nat} {value : Json}
    (read : node.read depth = .ok value) : ∃ after, node.finish = .ok after := by
  cases node with
  | array start items ending =>
    obtain ⟨_, after, _, rfl, _⟩ := exists_of_read_array read
    exact ⟨after, rfl⟩
  | object start fields ending =>
    obtain ⟨_, after, _, rfl, _⟩ := exists_of_read_object read
    exact ⟨after, rfl⟩
  | broken stop => contradiction
  | _ => exact ⟨_, rfl⟩

theorem closeArray_eq_ok_iff (after : Cursor) :
    closeArray after = .ok () ↔ after.skipBlanks.rest.head? = some ']' := by
  rw [closeArray]
  simp only
  split
  · next shape => simp [shape]
  · next shape => simp [shape]
  · next shape =>
    rw [shape]
    split <;> simp
  · next notBracket notComma =>
    constructor
    · intro closed
      contradiction
    · intro bracket
      cases rest : after.skipBlanks.rest with
      | nil =>
        rw [rest] at bracket
        contradiction
      | cons c more =>
        rw [rest] at bracket
        obtain rfl : c = ']' := Option.some.inj bracket
        exact absurd rest (notBracket more)

namespace Shape

variable {shape : Shape σ} {before after : σ} {depth inner count : Nat}

/-- An array that ends before the last field can end there wherever the last item ended. -/
theorem readArray_nil_again {fields : List (Field σ)} {ending : Ending}
    {last otherLast place : Cursor} (more : fields ≠ [])
    (read : shape.readArray depth ending count last before fields [] = .ok after) :
    shape.readArray inner (.closed place) count otherLast before fields [] = .ok after := by
  cases ending with
  | broken stop =>
    rw [readArray] at read
    · contradiction
    · exact more
  | closed last =>
    rw [readArray] at read ⊢
    · split at read
      · contradiction
      · exact read
    · exact more
    · exact more

/-- A structure that is read from an array is read again from any array with the same items. Both
arrays are linked, so the one ends after the last field exactly if the other does. -/
theorem readArray_again {fields : List (Field σ)} {ending : Ending} {items others : List Node}
    {values : List Json} {last otherLast place : Cursor}
    (stable : ∀ field ∈ fields, field.Stable) (linked : LinkedItems ending items)
    (asJson : readItems depth items = .ok values)
    (read : shape.readArray depth ending count last before fields items = .ok after)
    (spelled : SpellsItems others values) (othersLinked : LinkedItems (.closed place) others)
    (within : ∀ value ∈ values, inner + value.nesting < depthLimit)
    (followed : fields = [] →
      FollowedBy ending items last ∧ FollowedBy (.closed place) others otherLast) :
    shape.readArray inner (.closed place) count otherLast before fields others = .ok after := by
  induction fields generalizing items others values before last otherLast count with
  | nil =>
    obtain ⟨here, there⟩ := followed rfl
    rw [readArray] at read ⊢
    obtain ⟨_, closed, read⟩ := exists_of_bind_eq_ok read
    cases items with
    | cons item rest =>
      have comma : last.skipBlanks.rest.head? = some ',' := here
      rw [(closeArray_eq_ok_iff last).mp closed] at comma
      exact absurd comma (by decide)
    | nil =>
      obtain rfl := Except.ok.inj asJson
      cases spelled
      have otherClosed := (closeArray_eq_ok_iff otherLast).mpr there
      rw [otherClosed]
      exact read
  | cons field fields inductionHypothesis =>
    cases items with
    | nil =>
      obtain rfl := Except.ok.inj asJson
      cases spelled
      exact readArray_nil_again (List.cons_ne_nil _ _) read
    | cons item rest =>
      obtain ⟨itemLinked, itemFollowed, restLinked⟩ := linked
      obtain ⟨value, restValues, rfl, itemRead, restRead⟩ := exists_of_readItems_cons asJson
      obtain ⟨itemEnd, itemFinished⟩ := exists_finish_of_read itemRead
      rw [readArray, itemFinished] at read
      obtain ⟨middle, changed, read⟩ := exists_of_bind_eq_ok read
      have fieldRead := eq_ok_of_mapError_eq_ok changed
      obtain ⟨update, rfl, settles⟩ := stable field List.mem_cons_self depth item value before middle
        itemLinked itemRead fieldRead
      cases spelled with
      | @cons other _ restOthers _ first more =>
        obtain ⟨otherLinked, otherFollowed, restOthersLinked⟩ := othersLinked
        obtain ⟨otherEnd, otherFinished⟩ := first.exists_finish
        have otherRead := settles.2 inner other first otherLinked (within _ List.mem_cons_self)
          before
        rw [readArray, otherRead, otherFinished]
        exact inductionHypothesis (fun field member => stable field (List.mem_cons_of_mem _ member))
          restLinked restRead read more restOthersLinked
          (fun value member => within value (List.mem_cons_of_mem _ member))
          fun _ => ⟨itemFollowed itemEnd itemFinished, otherFollowed otherEnd otherFinished⟩

/-! ## Codecs of structures -/

/-- A structure that follows from an object is read from every node that spells the object. -/
theorem decodes_of_follows {fields : List (String × Json)} (distinct : (fields.map Prod.fst).Nodup)
    (complete : shape.Complete (fields.map Prod.fst))
    (follows : shape.Follows Field.Decodes shape.blank fields after) :
    shape.codec.Decodes (.object fields) after := by
  intro depth node spells linked within
  obtain ⟨start, entries, place, rfl, spelled⟩ := exists_of_spells_object spells
  rw [nesting] at within
  have inside : ∀ field ∈ fields, depth + 1 + field.2.nesting < depthLimit := by
    intro field member
    have bound := nesting_le_of_mem_fields member
    omega
  have read : shape.readObject (depth + 1) (.closed place) [] shape.blank entries = .ok after :=
    readObject_of_follows spelled linked inside distinct (fun _ _ => List.not_mem_nil) complete
      follows
  simp only [codec, readFields, enter_of_lt (show depth + 1 < depthLimit by omega) start, bind,
    Except.bind]
  exact read

/-- A structure that is read from an object follows from the object. -/
theorem follows_of_reads {fields : List (String × Json)}
    (stable : ∀ field ∈ shape.fields, field.Stable)
    (reads : shape.codec.Reads (.object fields) after) :
    shape.Follows Field.Settles shape.blank fields after ∧
      (fields.map Prod.fst).Nodup ∧ shape.Complete (fields.map Prod.fst) := by
  obtain ⟨depth, node, linked, asJson, read⟩ := reads
  cases node with
  | object start entries ending =>
    obtain ⟨values, place, same, rfl, found⟩ := exists_of_read_object asJson
    obtain rfl := Json.object.inj same
    simp only [codec, readFields] at read
    obtain ⟨inner, entered, read⟩ := exists_of_bind_eq_ok read
    rw [enter_eq_ok entered] at read
    have both := follows_of_readObject stable linked found read
      (show shape.Follows Field.Settles shape.blank [] shape.blank from rfl)
      (fun field _ => Iff.rfl)
    exact ⟨both.1, nodup_mergeFields values, both.2⟩
  | array start items ending =>
    obtain ⟨values, _, same, _⟩ := exists_of_read_array asJson
    contradiction
  | _ => contradiction

theorem codec_stable (nonempty : shape.fields ≠ []) (stable : ∀ field ∈ shape.fields, field.Stable) :
    shape.codec.Stable := by
  intro value a reads
  cases value with
  | object fields =>
    obtain ⟨follows, distinct, complete⟩ := follows_of_reads stable reads
    exact decodes_of_follows distinct complete (follows_mono (fun _ _ _ => And.right) follows)
  | array values =>
    obtain ⟨depth, node, linked, asJson, read⟩ := reads
    intro inner other spells otherLinked within
    obtain ⟨otherStart, others, otherEnd, rfl, spelled⟩ := exists_of_spells_array spells
    rw [nesting] at within
    have inside : ∀ value ∈ values, inner + 1 + value.nesting < depthLimit := by
      intro value member
      have bound := nesting_le_of_mem_items member
      omega
    cases node with
    | array start items ending =>
      obtain ⟨found, after, same, rfl, itemsRead⟩ := exists_of_read_array asJson
      obtain rfl := Json.array.inj same
      simp only [codec] at read
      obtain ⟨entered, enters, read⟩ := exists_of_bind_eq_ok read
      rw [enter_eq_ok enters] at read
      simp only [codec, enter_of_lt (show inner + 1 < depthLimit by omega) otherStart, bind,
        Except.bind]
      exact readArray_again stable linked itemsRead read spelled otherLinked inside
        fun none => absurd none nonempty
    | object start entries ending =>
      obtain ⟨_, _, same, _⟩ := exists_of_read_object asJson
      contradiction
    | _ => contradiction
  | _ =>
    obtain ⟨depth, node, linked, asJson, read⟩ := reads
    cases node with
    | array start items ending =>
      obtain ⟨_, _, same, _⟩ := exists_of_read_array asJson
      contradiction
    | object start entries ending =>
      obtain ⟨_, _, same, _⟩ := exists_of_read_object asJson
      contradiction
    | _ => contradiction

end Shape

end FlatLiquid.Json
