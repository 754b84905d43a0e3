import FlatLiquid.Proofs.Statement.Scopes
import FlatLiquid.Proofs.Template.Passes

/-!
Contract: what the passes over a body insert.

Owns:
- the words that the passes and the unroller look for in a template;
- inserted texts, none of which is the beginning of such a word;
- the members that have a value, all of which are such words.
-/

namespace FlatLiquid

open Text (isWordChar)

/-- The words that the passes look for behind or in front of a dot, and the names of the tags that the
passes and the unroller tell apart. -/
def templateWords : List (List Char) :=
  ["forloop", "type", "id", "index0", "index", "first", "length", "last", "if", "elsif", "unless",
    "for", "tablerow", "paginate", "break", "continue", "raw", "endraw", "comment",
    "endcomment"].map String.toList

/-- A word, or the beginning of a word, that no word of templates begins with. -/
structure IsForeign (text : List Char) : Prop where
  nonempty : text ≠ []
  inside : ∀ c ∈ text, isWordChar c = true
  apart : ∀ word ∈ templateWords, ¬ text <+: word

theorem IsForeign.append {front more : List Char} (foreign : IsForeign front)
    (inside : ∀ c ∈ more, isWordChar c = true) : IsForeign (front ++ more) where
  nonempty := List.append_ne_nil_of_left_ne_nil foreign.nonempty more
  inside := fun c member => (List.mem_append.mp member).elim (foreign.inside c) (inside c)
  apart := fun word known begins =>
    foreign.apart word known ((List.prefix_append front more).trans begins)

theorem isWordChar_of_mem_toDigits {c : Char} {value : Nat} (member : c ∈ Nat.toDigits 10 value) :
    isWordChar c = true := by
  have digit := Nat.isDigit_of_mem_toDigits (by decide) (by decide) member
  apply Text.isWordChar_of_isAlphanum
  simp [Char.isAlphanum, digit]

theorem isWordChar_of_mem_blockScope (index : Nat) : ∀ c ∈ blockScope index, isWordChar c = true := by
  intro c member
  rcases List.mem_append.mp member with letter | digit
  · exact List.all_eq_true.mp (by decide) c letter
  · exact isWordChar_of_mem_toDigits digit

/-- A name in a space of names is a word. -/
theorem isWordChar_of_mem_scopedName {scope name : List Char}
    (word : ∀ c ∈ scope, isWordChar c = true) (inside : ∀ c ∈ name, isWordChar c = true) :
    ∀ c ∈ scopedName scope name, isWordChar c = true := by
  intro c member
  rcases List.mem_append.mp member with inScope | inName
  · exact word c inScope
  · rcases List.mem_cons.mp inName with rfl | inName
    · decide
    · exact inside c inName

theorem isForeign_blockName (index : Nat) {name : List Char}
    (inside : ∀ c ∈ name, isWordChar c = true) :
    IsForeign (scopedName (blockScope index) name) := by
  have letters : IsForeign ['b', 'l', 'o', 'c', 'k', '_'] :=
    ⟨by decide, List.all_eq_true.mp (by decide), by decide⟩
  rw [scopedName_blockScope]
  apply letters.append
  exact isWordChar_of_mem_scopedName (fun c digit => isWordChar_of_mem_toDigits digit) inside

theorem isForeign_resource (resource : Resource) : IsForeign resource.name.toList := by
  cases resource <;> exact ⟨by decide, List.all_eq_true.mp (by decide), by decide⟩

/-- The variable that stands for a setting of a block. -/
theorem isForeign_flatName? {pickers : Pickers} {index : Nat} {key variableName : List Char}
    (stands : pickers.flatName? (blockScope index) key = some variableName) :
    IsForeign variableName := by
  unfold Pickers.flatName? at stands
  split at stands
  · next resource _ =>
    obtain rfl := Option.some.inj stands
    exact isForeign_resource resource
  · obtain ⟨name, made, rfl⟩ := Option.map_eq_some_iff.mp stands
    exact isForeign_blockName index fun c member =>
      isWordChar_of_isIdentifierChar (isIdentifierChar_of_mem made member)

theorem mem_templateWords_of_fieldVariable? {scope name value : List Char}
    (isValue : fieldVariable? scope name = some value) :
    name ∈ templateWords ∧ value = scopedName scope name := by
  unfold fieldVariable? at isValue
  split at isValue
  · next isField =>
    obtain rfl := Option.some.inj isValue
    refine ⟨?_, rfl⟩
    rcases isField with rfl | rfl <;> decide
  · contradiction

theorem isForeign_fieldVariable? {index : Nat} {name value : List Char}
    (word : ∀ c ∈ name, isWordChar c = true)
    (isValue : fieldVariable? (blockScope index) name = some value) : IsForeign value := by
  obtain ⟨-, rfl⟩ := mem_templateWords_of_fieldVariable? isValue
  exact isForeign_blockName index word

theorem isForeign_toDigits (value : Nat) : IsForeign (Nat.toDigits 10 value) where
  nonempty := Nat.toDigits_ne_nil
  inside := fun c member => isWordChar_of_mem_toDigits member
  apart := by
    have undigited : ∀ word ∈ templateWords, ¬ word.head?.any Char.isDigit = true := by decide
    intro word known begins
    obtain ⟨first, rest, shape⟩ := List.exists_cons_of_ne_nil (@Nat.toDigits_ne_nil value 10)
    have member : first ∈ Nat.toDigits 10 value := by
      rw [shape]
      exact List.mem_cons_self
    have digit := Nat.isDigit_of_mem_toDigits (by decide) (by decide) member
    obtain ⟨more, rfl⟩ := begins
    apply undigited _ known
    rw [shape]
    exact digit

theorem isForeign_loopProperty? {index : Nat} {name value : List Char}
    (isValue : loopProperty? index name = some value) : name ∈ templateWords ∧ IsForeign value := by
  unfold loopProperty? at isValue
  split at isValue
  · next same =>
    obtain rfl := Option.some.inj isValue
    exact ⟨by rw [same]; decide, isForeign_toDigits index⟩
  · split at isValue
    · next same =>
      obtain rfl := Option.some.inj isValue
      exact ⟨by rw [same]; decide, isForeign_toDigits (index + 1)⟩
    · split at isValue
      · next same =>
        obtain rfl := Option.some.inj isValue
        refine ⟨by rw [same]; decide, ?_⟩
        split <;> exact ⟨by decide, List.all_eq_true.mp (by decide), by decide⟩
      · split at isValue
        · next same =>
          obtain rfl := Option.some.inj isValue
          exact ⟨by rw [same]; decide, ⟨by decide, List.all_eq_true.mp (by decide), by decide⟩⟩
        · contradiction

theorem mem_templateWords_of_lastTest? {index : Nat} {name value : List Char}
    (isValue : lastTest? index name = some value) : name ∈ templateWords := by
  unfold lastTest? at isValue
  split at isValue
  · next same => exact same ▸ (by decide)
  · contradiction

end FlatLiquid
