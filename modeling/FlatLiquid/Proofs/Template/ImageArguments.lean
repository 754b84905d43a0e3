import FlatLiquid.Proofs.Text.Finding
import FlatLiquid.Proofs.Text.Fragments
import FlatLiquid.Proofs.Text.Trimming
import FlatLiquid.Statement.Basic
import FlatLiquid.Template.ImageFilter

/-!
Contract: the literal arguments that are found in a filter.

Owns:
- the texts that are read as a quoted value, and as an argument with one;
- where the values that an image element carries come from.
-/

namespace FlatLiquid

open Text (afterPrefix? skipBlanks startsWord isBlank findAll)

/-! ## Quoted values -/

/-- A quoted value reaches from a quote to the next one of its kind. -/
theorem quotedValue?_eq_some_iff {text value after : List Char} :
    quotedValue? text = some (value, after) ↔
      ∃ quote : Quote, quote.char ∉ value ∧ text = quote.char :: (value ++ quote.char :: after) := by
  constructor
  · intro read
    unfold quotedValue? at read
    split at read
    · next mark rest =>
      split at read
      · next isQuote =>
        obtain ⟨quote, rfl⟩ : ∃ quote : Quote, quote.char = mark := by
          rw [Bool.or_eq_true, beq_iff_eq, beq_iff_eq] at isQuote
          rcases isQuote with rfl | rfl
          · exact ⟨.single, rfl⟩
          · exact ⟨.double, rfl⟩
        split at read
        · next d behind stops =>
          obtain ⟨rfl, rfl⟩ := Prod.mk.inj (Option.some.inj read)
          have isEnd := List.head?_dropWhile_not (· != quote.char) rest
          rw [stops] at isEnd
          obtain rfl : d = quote.char := by simpa using isEnd
          refine ⟨quote, fun member => ?_, ?_⟩
          · have other := List.all_eq_true.mp List.all_takeWhile _ member
            simp at other
          · rw [← stops, List.takeWhile_append_dropWhile]
        · contradiction
      · contradiction
    · contradiction
  · rintro ⟨quote, unquoted, rfl⟩
    have isQuote : (quote.char == '\'' || quote.char == '"') = true := by cases quote <;> decide
    have others : ∀ c ∈ value, (c != quote.char) = true := by
      intro c member
      rw [bne_iff_ne]
      rintro rfl
      exact unquoted member
    have stops : List.dropWhile (· != quote.char) (quote.char :: after) = quote.char :: after := by
      simp
    have taken : List.takeWhile (· != quote.char) (quote.char :: after) = [] := by simp
    rw [quotedValue?, if_pos isQuote, List.dropWhile_append_of_pos others, stops,
      List.takeWhile_append_of_pos others, taken, List.append_nil]

/-! ## Arguments -/

/-- The literal behind the name of an argument. -/
def literalBehind? (text : List Char) : Option (List Char × List Char) :=
  (afterPrefix? [':'] (skipBlanks text)).bind fun rest => quotedValue? (skipBlanks rest)

theorem imageArgument?_eq {before : Option Char} (starts : startsWord before = true)
    (text : List Char) :
    imageArgument? before text =
      (afterPrefix? "class".toList text).elim
        ((afterPrefix? "alt".toList text).bind fun rest =>
          (literalBehind? rest).map fun found => (.alt found.1, found.2))
        fun rest => (literalBehind? rest).map fun found => (.className found.1, found.2) := by
  have behind (kind : List Char → ImageArgument) (rest : List Char) :
      ((afterPrefix? [':'] (skipBlanks rest)).bind fun rest =>
        (quotedValue? (skipBlanks rest)).bind fun found => some (kind found.1, found.2)) =
        (literalBehind? rest).map fun found => (kind found.1, found.2) := by
    rw [literalBehind?]
    cases afterPrefix? [':'] (skipBlanks rest) with
    | none => rfl
    | some value =>
      simp only [Option.bind_some]
      cases quotedValue? (skipBlanks value) <;> rfl
  unfold imageArgument?
  rw [if_pos starts]
  cases afterPrefix? "class".toList text with
  | some rest => exact behind _ rest
  | none =>
    cases afterPrefix? "alt".toList text with
    | some rest => exact behind _ rest
    | none => rfl

/-- A colon among blanks, and a value between quotes. -/
def literalText (left right : List Char) (quote : Quote) (value : List Char) : List Char :=
  left ++ ':' :: (right ++ quote.char :: (value ++ [quote.char]))

theorem literalBehind?_eq_some_iff {text value after : List Char} :
    literalBehind? text = some (value, after) ↔
      ∃ left right quote, left.all isBlank = true ∧ right.all isBlank = true ∧
        quote.char ∉ value ∧ text = literalText left right quote value ++ after := by
  constructor
  · intro read
    obtain ⟨rest, colon, quoted⟩ := Option.bind_eq_some_iff.mp read
    obtain ⟨left, leftBlank, leftSplit⟩ := Text.exists_blanks text
    obtain ⟨right, rightBlank, rightSplit⟩ := Text.exists_blanks rest
    obtain ⟨quote, unquoted, value⟩ := quotedValue?_eq_some_iff.mp quoted
    refine ⟨left, right, quote, leftBlank, rightBlank, unquoted, ?_⟩
    rw [leftSplit, Text.eq_append_of_afterPrefix? colon, rightSplit, value]
    simp [literalText]
  · rintro ⟨left, right, quote, leftBlank, rightBlank, unquoted, rfl⟩
    have solid : isBlank quote.char = false := by cases quote <;> decide
    have parts : literalText left right quote value ++ after =
        left ++ ':' :: (right ++ quote.char :: (value ++ quote.char :: after)) := by
      simp [literalText]
    have toColon : skipBlanks (left ++ ':' :: (right ++ quote.char :: (value ++ quote.char :: after))) =
        ':' :: (right ++ quote.char :: (value ++ quote.char :: after)) := by
      refine Text.skipBlanks_append leftBlank fun c first => ?_
      obtain rfl := Option.some.inj first
      decide
    have toQuote : skipBlanks (right ++ quote.char :: (value ++ quote.char :: after)) =
        quote.char :: (value ++ quote.char :: after) := by
      refine Text.skipBlanks_append rightBlank fun c first => ?_
      obtain rfl := Option.some.inj first
      exact solid
    rw [parts, literalBehind?, toColon]
    change quotedValue? (skipBlanks _) = _
    rw [toQuote]
    exact quotedValue?_eq_some_iff.mpr ⟨quote, unquoted, rfl⟩

/-- The word that names the argument. -/
def ImageArgument.name : ImageArgument → List Char
  | .className _ => "class".toList
  | .alt _ => "alt".toList

def ImageArgument.value : ImageArgument → List Char
  | .className value => value
  | .alt value => value

/-- An argument is read exactly where its name and its value are written, at the start of a word. -/
theorem imageArgument?_eq_some_iff {before : Option Char} {text after : List Char}
    {argument : ImageArgument} :
    imageArgument? before text = some (argument, after) ↔
      startsWord before = true ∧
        ∃ rest, text = argument.name ++ rest ∧ literalBehind? rest = some (argument.value, after) := by
  constructor
  · intro read
    have starts : startsWord before = true := by
      unfold imageArgument? at read
      split at read
      · assumption
      · contradiction
    rw [imageArgument?_eq starts] at read
    refine ⟨starts, ?_⟩
    cases named : afterPrefix? "class".toList text with
    | some rest =>
      rw [named] at read
      obtain ⟨⟨value, tail⟩, behind, same⟩ := Option.map_eq_some_iff.mp read
      obtain ⟨rfl, rfl⟩ := Prod.mk.inj same
      exact ⟨rest, Text.eq_append_of_afterPrefix? named, behind⟩
    | none =>
      rw [named] at read
      obtain ⟨rest, named, read⟩ := Option.bind_eq_some_iff.mp read
      obtain ⟨⟨value, tail⟩, behind, same⟩ := Option.map_eq_some_iff.mp read
      obtain ⟨rfl, rfl⟩ := Prod.mk.inj same
      exact ⟨rest, Text.eq_append_of_afterPrefix? named, behind⟩
  · rintro ⟨starts, rest, rfl, behind⟩
    rw [imageArgument?_eq starts]
    cases argument with
    | className value =>
      rw [ImageArgument.name, Text.afterPrefix?_append]
      simp only [Option.elim_some, behind]
      rfl
    | alt value =>
      have otherName : afterPrefix? "class".toList ("alt".toList ++ rest) = none := rfl
      rw [ImageArgument.name, otherName, Text.afterPrefix?_append]
      simp only [Option.elim_none, Option.bind_some, behind]
      rfl

theorem value_infix_of_mem {filter : List Char} {argument : ImageArgument}
    (member : argument ∈ findAll imageArgument? filter) : argument.value <:+: filter := by
  obtain ⟨before, suffix, after, within, read⟩ := Text.exists_fit_of_mem member
  obtain ⟨-, rest, rfl, behind⟩ := imageArgument?_eq_some_iff.mp read
  obtain ⟨left, right, quote, -, -, -, rfl⟩ := literalBehind?_eq_some_iff.mp behind
  refine List.IsInfix.trans ?_ within.isInfix
  exact ⟨argument.name ++ (left ++ ':' :: (right ++ [quote.char])), quote.char :: after,
    by simp [literalText]⟩

/-! ## Carried values -/

/-- The alternative text that an element carries. -/
def carriedAlt (filter : List Char) : List Char :=
  (((findAll imageArgument? filter).filterMap ImageArgument.alt?).getLast?).getD []

/-- The class that an element carries. -/
def carriedClass? (filter : List Char) : Option (List Char) :=
  ((findAll imageArgument? filter).filterMap ImageArgument.className?).getLast?

/-! ## Texts of an element -/

def imageOpening : List Char := "<img src=\"".toList

def altOpening : List Char := "\" alt=\"".toList

def classOpening : List Char := " class=\"".toList

/-- The attribute of a class, if there is one. -/
def classText : Option (List Char) → List Char
  | some value => classOpening ++ value ++ ['"']
  | none => []

/-- What an element is written with behind its reference. -/
def attributesText (alt : List Char) (className : Option (List Char)) : List Char :=
  altOpening ++ (alt ++ '"' :: (classText className ++ ['>']))

theorem imageElement_eq (reference filter : List Char) :
    imageElement reference filter =
      imageOpening ++ (reference ++ attributesText (carriedAlt filter) (carriedClass? filter)) := by
  have joined (source alt value className : List Char) :
      source ++ reference ++ alt ++ value ++ '"' :: className ++ ['>'] =
        source ++ (reference ++ (alt ++ (value ++ '"' :: (className ++ ['>'])))) := by
    simp
  exact joined _ _ _ _

theorem isInfix_carriedAlt (filter : List Char) : carriedAlt filter <:+: filter := by
  rw [carriedAlt]
  cases isLast : ((findAll imageArgument? filter).filterMap ImageArgument.alt?).getLast? with
  | none => exact List.nil_infix
  | some value =>
    obtain ⟨argument, found, isAlt⟩ := List.mem_filterMap.mp (List.mem_of_getLast? isLast)
    cases argument with
    | alt _ =>
      obtain rfl := Option.some.inj isAlt
      exact value_infix_of_mem found
    | className _ => contradiction

theorem isInfix_carriedClass? {filter value : List Char} (carried : carriedClass? filter = some value) :
    value <:+: filter := by
  obtain ⟨argument, found, isClass⟩ := List.mem_filterMap.mp (List.mem_of_getLast? carried)
  cases argument with
  | className _ =>
    obtain rfl := Option.some.inj isClass
    exact value_infix_of_mem found
  | alt _ => contradiction

end FlatLiquid
