/-!
Contract: maps from strings that remember the order in which their keys came.

Owns:
- putting an entry into a list of entries: a known key keeps its place and takes the new value, a
  new key goes to the end;
- ordered maps, whose keys are pairwise distinct, and their operations.
-/

namespace FlatLiquid

/-- Puts a value under a key. A key that is there keeps its place. -/
def putEntry {κ α : Type} [DecidableEq κ] : List (κ × α) → κ → α → List (κ × α)
  | [], key, value => [(key, value)]
  | entry :: rest, key, value =>
    if entry.1 = key then (entry.1, value) :: rest else entry :: putEntry rest key value

/-- A put changes the keys only by adding a new one at the end. -/
theorem keys_putEntry {α : Type} (entries : List (String × α)) (key : String) (value : α) :
    (putEntry entries key value).map Prod.fst =
      if key ∈ entries.map Prod.fst then entries.map Prod.fst
      else entries.map Prod.fst ++ [key] := by
  induction entries with
  | nil => simp [putEntry]
  | cons entry rest inductionHypothesis =>
    unfold putEntry
    by_cases found : entry.1 = key
    · simp [found]
    · have other : ¬ key = entry.1 := fun same => found same.symm
      simp only [found, if_false, List.map_cons, inductionHypothesis, List.mem_cons, other,
        false_or]
      split <;> simp

/-- What is found after a put: the new value under its key, and all else as before. -/
theorem lookup_putEntry {κ α : Type} [DecidableEq κ] [BEq κ] [LawfulBEq κ] (entries : List (κ × α))
    (key other : κ) (value : α) :
    (putEntry entries key value).lookup other =
      if other = key then some value else entries.lookup other := by
  induction entries with
  | nil =>
    by_cases same : other = key
    · simp [putEntry, same]
    · have unequal : (other == key) = false := by simp [same]
      simp [putEntry, List.lookup_cons, same, unequal]
  | cons entry rest inductionHypothesis =>
    obtain ⟨name, old⟩ := entry
    unfold putEntry
    by_cases found : name = key
    · subst found
      by_cases same : other = name
      · simp [same]
      · have unequal : (other == name) = false := by simp [same]
        simp [List.lookup_cons, same, unequal]
    · simp only [found, if_false, List.lookup_cons]
      by_cases here : other = name
      · subst here
        simp [found]
      · have unequal : (other == name) = false := by simp [here]
        simp only [unequal, inductionHypothesis]

/-- A map whose entries stand in the order in which their keys were first put. -/
structure OrderedMap (α : Type) where
  entries : List (String × α)
  distinct : (entries.map Prod.fst).Nodup

namespace OrderedMap

variable {α : Type}

def empty : OrderedMap α where
  entries := []
  distinct := List.nodup_nil

instance : Inhabited (OrderedMap α) := ⟨empty⟩

def get? (map : OrderedMap α) (key : String) : Option α :=
  map.entries.lookup key

/-- The map with this value under this key. -/
def insert (map : OrderedMap α) (key : String) (value : α) : OrderedMap α where
  entries := putEntry map.entries key value
  distinct := by
    rw [keys_putEntry]
    split
    · exact map.distinct
    · next absent =>
      refine List.nodup_append.mpr ⟨map.distinct, by simp, ?_⟩
      intro known member last lastMember
      simp only [List.mem_singleton] at lastMember
      rintro rfl
      exact absent (lastMember ▸ member)

/-- The map after these entries, in their order, on top of a map. -/
def insertAll (map : OrderedMap α) (entries : List (String × α)) : OrderedMap α :=
  entries.foldl (fun map entry => map.insert entry.1 entry.2) map

/-- The map that a list of entries builds up. -/
def ofList (entries : List (String × α)) : OrderedMap α :=
  empty.insertAll entries

def keys (map : OrderedMap α) : List String :=
  map.entries.map Prod.fst

def values (map : OrderedMap α) : List α :=
  map.entries.map Prod.snd

def size (map : OrderedMap α) : Nat :=
  map.entries.length

theorem get?_insert (map : OrderedMap α) (key other : String) (value : α) :
    (map.insert key value).get? other = if other = key then some value else map.get? other :=
  lookup_putEntry map.entries key other value

/-- Of several entries under one key the last one counts. -/
theorem get?_insertAll (map : OrderedMap α) (entries : List (String × α)) (key : String) :
    (map.insertAll entries).get? key =
      ((entries.filter fun entry => entry.1 == key).getLast?.map Prod.snd).or (map.get? key) := by
  induction entries generalizing map with
  | nil => rfl
  | cons entry rest inductionHypothesis =>
    have step : map.insertAll (entry :: rest) = (map.insert entry.1 entry.2).insertAll rest := rfl
    rw [step, inductionHypothesis, get?_insert]
    by_cases same : entry.1 = key
    · rw [if_pos same.symm, List.filter_cons_of_pos (by simpa using same), List.getLast?_cons]
      cases (rest.filter fun entry => entry.1 == key).getLast? <;> rfl
    · rw [if_neg (Ne.symm same), List.filter_cons_of_neg (by simpa using same)]

end OrderedMap

end FlatLiquid
