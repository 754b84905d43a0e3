import FlatLiquid.Proofs.Template.ImageFilters
import FlatLiquid.Proofs.Text.Classes

/-!
Contract: the attributes of the image elements that take the place of filter chains.

Owns:
- the reader of the attributes of an element, each value up to the next double quote;
- the arguments of an image tag as they are written, and which of them an element carries;
- the attributes of the element: the reference, and the literals as they are written, unless one of
  them holds a double quote.

An element puts every literal between double quotes as it is. A literal between single quotes may hold
a double quote, and then its attribute ends there.
-/

namespace FlatLiquid

open Text (skipBlanks startsWord isBlank isWordChar findFrom findAll IsTrimmed)

/-! ## Attributes -/

/-- Names of attributes have no blanks, quotes, slashes and signs of a tag. -/
def isAttributeChar (c : Char) : Bool :=
  !isBlank c && ['=', '"', '\'', '/', '<', '>'].all (· != c)

/-- The name and the value of an attribute, with the text after it. The value stands between double
quotes and ends at the next one. -/
def readAttribute? (text : List Char) : Option ((List Char × List Char) × List Char) :=
  let name := (skipBlanks text).takeWhile isAttributeChar
  match (skipBlanks text).dropWhile isAttributeChar with
  | '=' :: '"' :: rest =>
    if name.isEmpty then none
    else (quotedValue? ('"' :: rest)).map fun (value, after) => ((name, value), after)
  | _ => none

/-- The attributes of a tag, from the text after its name on. -/
inductive HasAttributes : List Char → List (List Char × List Char) → Prop
  | close : HasAttributes ['>'] []
  | next {text rest : List Char} {first : List Char × List Char}
      {others : List (List Char × List Char)} (read : readAttribute? text = some (first, rest))
      (more : HasAttributes rest others) : HasAttributes text (first :: others)

def elementStart : List Char := "<img".toList

/-- The text is one image element with exactly these attributes. -/
def IsImageElement (element : List Char) (attributes : List (List Char × List Char)) : Prop :=
  ∃ rest, element = elementStart ++ rest ∧ HasAttributes rest attributes

/-- A text has its attributes in one way only. -/
theorem HasAttributes.unique {text : List Char} {attributes others : List (List Char × List Char)}
    (has : HasAttributes text attributes) (also : HasAttributes text others) :
    attributes = others := by
  induction has generalizing others with
  | close =>
    cases also with
    | close => rfl
    | next read _ => contradiction
  | next read _ inductionHypothesis =>
    cases also with
    | close => contradiction
    | next otherRead more =>
      rw [read] at otherRead
      obtain ⟨rfl, rfl⟩ := Prod.mk.inj (Option.some.inj otherRead)
      rw [inductionHypothesis more]

theorem not_mem_of_readAttribute? {text rest : List Char} {found : List Char × List Char}
    (read : readAttribute? text = some (found, rest)) : '"' ∉ found.2 := by
  unfold readAttribute? at read
  simp only at read
  split at read
  · split at read
    · contradiction
    · obtain ⟨⟨value, after⟩, quoted, same⟩ := Option.map_eq_some_iff.mp read
      obtain ⟨rfl, rfl⟩ := Prod.mk.inj same
      obtain ⟨quote, unquoted, written⟩ := quotedValue?_eq_some_iff.mp quoted
      obtain ⟨isDouble, -⟩ := List.cons.inj written
      rw [isDouble]
      exact unquoted
  · contradiction

/-- No attribute has a double quote in its value. -/
theorem HasAttributes.unquoted {text : List Char} {attributes : List (List Char × List Char)}
    (has : HasAttributes text attributes) : ∀ found ∈ attributes, '"' ∉ found.2 := by
  induction has with
  | close => exact fun _ member => absurd member List.not_mem_nil
  | next read _ inductionHypothesis =>
    intro found member
    rcases List.mem_cons.mp member with rfl | later
    · exact not_mem_of_readAttribute? read
    · exact inductionHypothesis found later

/-- How an attribute is written behind a space. -/
def attributeText (name value : List Char) : List Char :=
  ' ' :: (name ++ '=' :: '"' :: (value ++ ['"']))

theorem readAttribute?_attributeText {name value : List Char} (nonempty : name ≠ [])
    (inside : ∀ c ∈ name, isAttributeChar c = true) (unquoted : '"' ∉ value) (rest : List Char) :
    readAttribute? (attributeText name value ++ rest) = some ((name, value), rest) := by
  have parts : attributeText name value ++ rest =
      [' '] ++ (name ++ '=' :: '"' :: (value ++ '"' :: rest)) := by
    simp [attributeText]
  have blank : [' '].all isBlank = true := by decide
  have toName : skipBlanks ([' '] ++ (name ++ '=' :: '"' :: (value ++ '"' :: rest))) =
      name ++ '=' :: '"' :: (value ++ '"' :: rest) := by
    refine Text.skipBlanks_append blank fun c first => ?_
    obtain ⟨d, more, rfl⟩ := List.exists_cons_of_ne_nil nonempty
    obtain rfl := Option.some.inj first
    have isName := inside d List.mem_cons_self
    rw [isAttributeChar, Bool.and_eq_true, Bool.not_eq_true'] at isName
    exact isName.1
  have ends : isAttributeChar '=' = false := by decide
  have quoted : quotedValue? ('"' :: (value ++ '"' :: rest)) = some (value, rest) :=
    quotedValue?_eq_some_iff.mpr ⟨.double, unquoted, rfl⟩
  have named : name.isEmpty = false := by simpa using nonempty
  rw [parts, readAttribute?, toName, List.takeWhile_append_of_pos inside,
    List.dropWhile_append_of_pos inside, List.takeWhile_cons, List.dropWhile_cons, ends]
  simp [named, quoted]

/-! ## Arguments -/

/-- The text names an argument: the name stands at the start of a word, with a colon behind it. -/
def NamesArgument (name text : List Char) : Prop :=
  ∃ front gap rest, text = front ++ (name ++ (gap ++ ':' :: rest)) ∧
    startsWord front.getLast? = true ∧ gap.all isBlank = true

/-- An argument of a filter as it is written: an alternative text or a class as a literal among
blanks, or anything else. -/
inductive FilterArgument where
  | literal (gap : List Char) (argument : ImageArgument) (left right : List Char) (quote : Quote)
      (behind : List Char)
  | other (text : List Char)

def FilterArgument.text : FilterArgument → List Char
  | .literal gap argument left right quote behind =>
    gap ++ (argument.name ++ (literalText left right quote argument.value ++ behind))
  | .other text => text

/-- A literal is written between quotes that it does not hold, and no other argument names an
alternative text or a class. -/
def FilterArgument.IsWritten : FilterArgument → Prop
  | .literal gap argument left right quote behind =>
    (∀ blanks ∈ [gap, left, right, behind], blanks.all isBlank = true) ∧
      quote.char ∉ argument.value
  | .other text => ¬ NamesArgument "alt".toList text ∧ ¬ NamesArgument "class".toList text

def FilterArgument.literal? : FilterArgument → Option ImageArgument
  | .literal _ argument _ _ _ _ => some argument
  | .other _ => none

/-- The arguments behind a filter's name: a colon before the first one, and commas between them. -/
def argumentsText (separator : Char) : List FilterArgument → List Char
  | [] => []
  | argument :: rest => separator :: (argument.text ++ argumentsText ',' rest)

def imageTagName : List Char := "image_tag".toList

/-- How an image tag is written. -/
def imageTagText (gap : List Char) (arguments : List FilterArgument) : List Char :=
  imageTagName ++ (gap ++ argumentsText ':' arguments)

/-! ## Finding the literals -/

theorem imageArgument?_of_head {c : Char} (other : c ≠ 'a' ∧ c ≠ 'c') (before : Option Char)
    (rest : List Char) : imageArgument? before (c :: rest) = none := by
  rw [Option.eq_none_iff_forall_not_mem]
  rintro ⟨argument, after⟩ read
  obtain ⟨-, behind, written, -⟩ := imageArgument?_eq_some_iff.mp read
  cases argument with
  | alt _ => exact other.1 (List.cons.inj written).1
  | className _ => exact other.2 (List.cons.inj written).1

/-- A text in which no argument can start is passed over. -/
theorem findFrom_of_other {plain : List Char} (other : ∀ c ∈ plain, c ≠ 'a' ∧ c ≠ 'c')
    (before : Option Char) (rest : List Char) :
    findFrom imageArgument? before 0 (plain ++ rest) =
      findFrom imageArgument? (plain.getLast?.or before) 0 rest := by
  refine Text.findFrom_of_unfit before rest fun front c back split => ?_
  refine imageArgument?_of_head (other c ?_) _ _
  rw [split]
  simp

theorem other_of_isBlank {blanks : List Char} (blank : blanks.all isBlank = true) :
    ∀ c ∈ blanks, c ≠ 'a' ∧ c ≠ 'c' := by
  intro c member
  have isBlank := List.all_eq_true.mp blank c member
  constructor
  · rintro rfl
    exact absurd isBlank (by decide)
  · rintro rfl
    exact absurd isBlank (by decide)

/-- In a text that names no argument none is found, whatever follows behind a comma. -/
theorem imageArgument?_of_unnamed {front back tail : List Char} {c : Char} {before : Option Char}
    (unnamed : ¬ NamesArgument "alt".toList (front ++ c :: back) ∧
      ¬ NamesArgument "class".toList (front ++ c :: back))
    (starts : startsWord before = true → startsWord front.getLast? = true)
    (behind : tail = [] ∨ ∃ more, tail = ',' :: more) :
    imageArgument? before (c :: (back ++ tail)) = none := by
  rw [Option.eq_none_iff_forall_not_mem]
  rintro ⟨argument, after⟩ read
  obtain ⟨isStart, rest, named, literal⟩ := imageArgument?_eq_some_iff.mp read
  obtain ⟨left, right, quote, blank, -, -, rfl⟩ := literalBehind?_eq_some_iff.mp literal
  -- the name and its colon do not reach across the comma
  have within : argument.name ++ (left ++ [':']) <+: c :: back := by
    have begins : argument.name ++ (left ++ [':']) <+: (c :: back) ++ tail := by
      rw [List.cons_append, named]
      exact ⟨right ++ quote.char :: (argument.value ++ quote.char :: after), by simp [literalText]⟩
    rcases behind with rfl | ⟨more, rfl⟩
    · rwa [List.append_nil] at begins
    · refine Text.prefix_of_prefix_around ?_ begins
      have notBlank : ',' ∉ left := fun member =>
        absurd (List.all_eq_true.mp blank _ member) (by decide)
      have notNamed : ',' ∉ argument.name := by
        cases argument with
        | alt _ => exact show ',' ∉ "alt".toList by decide
        | className _ => exact show ',' ∉ "class".toList by decide
      simp [notBlank, notNamed]
  obtain ⟨more, split⟩ := within
  have names : NamesArgument argument.name (front ++ c :: back) :=
    ⟨front, left, more, by rw [← split]; simp, starts isStart, blank⟩
  cases argument with
  | alt _ => exact unnamed.1 names
  | className _ => exact unnamed.2 names

theorem argumentsText_cases (arguments : List FilterArgument) :
    argumentsText ',' arguments = [] ∨ ∃ more, argumentsText ',' arguments = ',' :: more := by
  cases arguments with
  | nil => exact .inl rfl
  | cons first rest => exact .inr ⟨_, rfl⟩

/-- Behind a separator and blanks a word starts. -/
theorem startsWord_of_separated {separator : Char} {gap : List Char}
    (isSeparator : separator = ':' ∨ separator = ',') (blank : gap.all isBlank = true)
    (before : Option Char) : startsWord ((separator :: gap).getLast?.or before) = true := by
  have noWord : ∀ c ∈ separator :: gap, isWordChar c = false := by
    intro c member
    rcases List.mem_cons.mp member with rfl | inGap
    · rcases isSeparator with rfl | rfl <;> decide
    · exact Text.not_isWordChar_of_isBlank (List.all_eq_true.mp blank c inGap)
  have isLast := List.getLast?_eq_some_getLast (List.cons_ne_nil separator gap)
  rw [isLast]
  simp [startsWord, noWord _ (List.getLast_mem (List.cons_ne_nil separator gap))]

theorem not_head_of_separator {separator : Char} (isSeparator : separator = ':' ∨ separator = ',') :
    separator ≠ 'a' ∧ separator ≠ 'c' := by
  rcases isSeparator with rfl | rfl <;> decide

/-- An argument that names neither an alternative text nor a class is passed over. -/
theorem findFrom_other {separator : Char} {text tail : List Char}
    (isSeparator : separator = ':' ∨ separator = ',') (written : (FilterArgument.other text).IsWritten)
    (behind : tail = [] ∨ ∃ more, tail = ',' :: more) (before : Option Char) :
    findFrom imageArgument? before 0 ((separator :: text) ++ tail) =
      findFrom imageArgument? ((separator :: text).getLast?.or before) 0 tail := by
  refine Text.findFrom_of_unfit before tail fun front c back split => ?_
  cases front with
  | nil =>
    obtain ⟨rfl, -⟩ := List.cons.inj split
    exact imageArgument?_of_head (not_head_of_separator isSeparator) _ _
  | cons d more =>
    obtain ⟨rfl, rfl⟩ := List.cons.inj split
    refine imageArgument?_of_unnamed written (fun starts => ?_) behind
    rw [Text.getLast?_cons_or] at starts
    cases isLast : more.getLast? with
    | none => rfl
    | some e =>
      rw [isLast] at starts
      exact starts

/-- A literal is found where it is written. -/
theorem findFrom_literal {separator : Char} {gap left right behind : List Char}
    {argument : ImageArgument} {quote : Quote} (isSeparator : separator = ':' ∨ separator = ',')
    (written : (FilterArgument.literal gap argument left right quote behind).IsWritten)
    (before : Option Char) (tail : List Char) :
    ∃ last, findFrom imageArgument? before 0 (separator ::
        ((FilterArgument.literal gap argument left right quote behind).text ++ tail)) =
      argument :: findFrom imageArgument? last 0 tail := by
  obtain ⟨blank, unquoted⟩ := written
  have fits : imageArgument? ((separator :: gap).getLast?.or before)
      (argument.name ++ literalText left right quote argument.value ++ (behind ++ tail)) =
      some (argument, behind ++ tail) := by
    refine imageArgument?_eq_some_iff.mpr ⟨?_, ?_⟩
    · exact startsWord_of_separated isSeparator (blank gap (by simp)) before
    · refine ⟨_, List.append_assoc _ _ _, literalBehind?_eq_some_iff.mpr ?_⟩
      exact ⟨left, right, quote, blank left (by simp), blank right (by simp), unquoted, rfl⟩
  have parts : separator ::
      ((FilterArgument.literal gap argument left right quote behind).text ++ tail) =
        (separator :: gap) ++ (argument.name ++ literalText left right quote argument.value ++
          (behind ++ tail)) := by
    simp [FilterArgument.text]
  have leading : ∀ c ∈ separator :: gap, c ≠ 'a' ∧ c ≠ 'c' := by
    intro c member
    rcases List.mem_cons.mp member with rfl | inGap
    · exact not_head_of_separator isSeparator
    · exact other_of_isBlank (blank gap (by simp)) c inGap
  have nonempty : argument.name ++ literalText left right quote argument.value ≠ [] := by
    simp [literalText]
  rw [parts, findFrom_of_other leading, Text.findFrom_of_fit nonempty fits,
    findFrom_of_other (other_of_isBlank (blank behind (by simp)))]
  exact ⟨_, rfl⟩

/-- Of the arguments, exactly the literals are found. -/
theorem findFrom_argumentsText {separator : Char} {arguments : List FilterArgument}
    (isSeparator : separator = ':' ∨ separator = ',')
    (written : ∀ argument ∈ arguments, argument.IsWritten) (before : Option Char) :
    findFrom imageArgument? before 0 (argumentsText separator arguments) =
      arguments.filterMap FilterArgument.literal? := by
  induction arguments generalizing separator before with
  | nil => rfl
  | cons argument rest inductionHypothesis =>
    have later := inductionHypothesis (.inr rfl) fun other member =>
      written other (List.mem_cons_of_mem argument member)
    have isWritten := written argument List.mem_cons_self
    cases argument with
    | other text =>
      have passed := findFrom_other isSeparator isWritten (argumentsText_cases rest) before
      exact passed.trans (later _)
    | literal gap argument left right quote behind =>
      obtain ⟨last, found⟩ := findFrom_literal isSeparator isWritten before (argumentsText ',' rest)
      rw [argumentsText, found, later]
      rfl

/-- The name of an image tag names no argument. -/
theorem findAll_imageTagText {gap : List Char} {arguments : List FilterArgument}
    (blank : gap.all isBlank = true) (written : ∀ argument ∈ arguments, argument.IsWritten) :
    findAll imageArgument? (imageTagText gap arguments) =
      arguments.filterMap FilterArgument.literal? := by
  have inName : ∀ c ∈ imageTagName, isWordChar c = true := List.all_eq_true.mp (by decide)
  rw [imageTagText, findAll, Text.findFrom_of_unfit none,
    findFrom_of_other (other_of_isBlank blank), findFrom_argumentsText (.inl rfl) written]
  -- inside the name no word starts, and at its front no argument does
  intro front c back split
  cases isLast : front.getLast? with
  | none =>
    obtain rfl := List.getLast?_eq_none_iff.mp isLast
    obtain ⟨rfl, -⟩ := List.cons.inj split
    exact imageArgument?_of_head (by decide) _ _
  | some d =>
    have isWord : isWordChar d = true := by
      apply inName
      rw [split]
      exact List.mem_append_left _ (List.mem_of_getLast? isLast)
    have noStart : ¬ startsWord (some d) = true := by simp [startsWord, isWord]
    rw [Option.some_or, imageArgument?, if_neg noStart]

/-! ## Elements -/

/-- The value of the alternative text. Of several the last one counts. -/
def altOf (arguments : List FilterArgument) : Option (List Char) :=
  ((arguments.filterMap FilterArgument.literal?).filterMap ImageArgument.alt?).getLast?

/-- The value of the class. Of several the last one counts. -/
def classOf (arguments : List FilterArgument) : Option (List Char) :=
  ((arguments.filterMap FilterArgument.literal?).filterMap ImageArgument.className?).getLast?

def sourceName : List Char := "src".toList

def altName : List Char := "alt".toList

def className : List Char := "class".toList

/-- The attributes of an element: its source, its alternative text and its class, if it has one. -/
def imageAttributes (source alt : List Char) (class? : Option (List Char)) :
    List (List Char × List Char) :=
  (sourceName, source) :: (altName, alt) :: (class?.map fun value => (className, value)).toList

theorem classText_append (class? : Option (List Char)) (rest : List Char) :
    classText class? ++ rest =
      (class?.map fun value => attributeText className value ++ rest).getD rest := by
  have opening : classOpening = ' ' :: (className ++ ['=', '"']) := rfl
  cases class? with
  | none => rfl
  | some value =>
    rw [classText, opening, Option.map_some, Option.getD_some, attributeText]
    simp only [List.append_assoc, List.cons_append, List.nil_append]

theorem imageElement_eq_attributes (reference filter : List Char) :
    imageElement reference filter =
      elementStart ++ (attributeText sourceName reference ++
        (attributeText altName (carriedAlt filter) ++ (classText (carriedClass? filter) ++ ['>']))) := by
  have opening : imageOpening = elementStart ++ ' ' :: (sourceName ++ ['=', '"']) := rfl
  have next : altOpening = '"' :: ' ' :: (altName ++ ['=', '"']) := rfl
  rw [imageElement_eq, attributesText, opening, next, attributeText, attributeText]
  simp only [List.append_assoc, List.cons_append, List.nil_append]

/-- An element has its reference and the values that it carries as its attributes exactly if none of
the values holds a double quote. -/
theorem isImageElement_imageElement_iff {reference filter : List Char}
    (unquoted : '"' ∉ reference) :
    IsImageElement (imageElement reference filter)
        (imageAttributes reference (carriedAlt filter) (carriedClass? filter)) ↔
      '"' ∉ carriedAlt filter ∧ ∀ value ∈ carriedClass? filter, '"' ∉ value := by
  constructor
  · rintro ⟨rest, -, has⟩
    have altMember : (altName, carriedAlt filter) ∈
        imageAttributes reference (carriedAlt filter) (carriedClass? filter) :=
      List.mem_cons_of_mem _ List.mem_cons_self
    refine ⟨has.unquoted _ altMember, fun value carried => ?_⟩
    have classMember : (className, value) ∈
        imageAttributes reference (carriedAlt filter) (carriedClass? filter) := by
      rw [imageAttributes, Option.mem_def.mp carried]
      exact List.mem_cons_of_mem _ (List.mem_cons_of_mem _ List.mem_cons_self)
    exact has.unquoted _ classMember
  · rintro ⟨altUnquoted, classUnquoted⟩
    have read {name value : List Char} (isName : name ≠ [] ∧ name.all isAttributeChar = true)
        (free : '"' ∉ value) (rest : List Char) :=
      readAttribute?_attributeText isName.1 (List.all_eq_true.mp isName.2) free rest
    refine ⟨_, imageElement_eq_attributes reference filter, ?_⟩
    refine .next (read (by decide) unquoted _) (.next (read (by decide) altUnquoted _) ?_)
    rw [classText_append]
    cases carried : carriedClass? filter with
    | none => exact .close
    | some value => exact .next (read (by decide) (classUnquoted value carried) _) .close

theorem isIdentifierChar_of_isFlatVariable {text : List Char} (flat : isFlatVariable text = true) :
    ∀ c ∈ text, isIdentifierChar c = true := by
  have ofText {name : List Char} (isText : isIdentifierText name = true) :
      name.all isIdentifierChar = true := by
    rw [isIdentifierText, Bool.and_eq_true] at isText
    exact isText.2
  rw [← List.all_eq_true]
  unfold isFlatVariable at flat
  split at flat
  · next name found =>
    have start : ("settings_".toList).all isIdentifierChar = true := by decide
    rw [Text.eq_append_of_afterPrefix? found, List.all_append, start, ofText flat]
    rfl
  · split at flat
    · contradiction
    · next rest found =>
      obtain ⟨-, flat⟩ := Bool.and_eq_true _ _ |>.mp flat
      split at flat
      · next name behind =>
        have start : ("block_".toList).all isIdentifierChar = true := by decide
        have digits : (rest.takeWhile Char.isDigit).all isIdentifierChar = true := by
          rw [List.all_eq_true]
          intro c member
          have isDigit := List.all_eq_true.mp List.all_takeWhile c member
          simp [isIdentifierChar, Char.isAlphanum, isDigit]
        have parts : rest = rest.takeWhile Char.isDigit ++ '_' :: name := by
          rw [← behind, List.takeWhile_append_dropWhile]
        have underscore : isIdentifierChar '_' = true := by decide
        rw [Text.eq_append_of_afterPrefix? found, parts, List.all_append, List.all_append, start,
          digits, List.all_cons, underscore, ofText flat]
        rfl
      · contradiction

/-- The reference of an element holds no quote. -/
theorem not_mem_around {tag : OutputTag} (flat : isFlatVariable tag.subject = true) :
    '"' ∉ tag.around tag.subject := by
  have inSubject : '"' ∉ tag.subject := fun member =>
    absurd (isIdentifierChar_of_isFlatVariable flat _ member) (by decide)
  cases opened : tag.openDash <;> cases closed : tag.closeDash <;>
    simp [OutputTag.around, dashText, opened, closed, inSubject]

theorem isImageTag_imageTagText {gap : List Char} (blank : gap.all isBlank = true)
    (arguments : List FilterArgument) : isImageTag (imageTagText gap arguments) = true := by
  have noColon : ∀ c ∈ imageTagName ++ gap, (c != ':') = true := by
    intro c member
    rcases List.mem_append.mp member with inName | inGap
    · exact List.all_eq_true.mp (show imageTagName.all (· != ':') = true by decide) c inName
    · rw [bne_iff_ne]
      rintro rfl
      exact absurd (List.all_eq_true.mp blank _ inGap) (by decide)
  have stops : (argumentsText ':' arguments).takeWhile (· != ':') = [] := by
    cases arguments <;> rfl
  have trimmed : IsTrimmed imageTagName := by
    constructor
    · intro c first
      obtain rfl := Option.some.inj first
      decide
    · intro c last
      obtain rfl := Option.some.inj last
      decide
  have named : filterName (imageTagText gap arguments) = imageTagName := by
    rw [filterName, imageTagText, ← List.append_assoc, List.takeWhile_append_of_pos noColon, stops,
      List.append_nil]
    have nothing : ([] : List Char).all isBlank = true := rfl
    exact trimmed.trim_surrounded nothing blank
  rw [isImageTag, named]
  rfl

/-- A template that is one tag becomes what takes the place of the tag. -/
theorem stripImageFilters_of_read {template : List Char} {tag : OutputTag}
    (read : outputTag? none template = some (tag, [])) :
    stripImageFilters template = tag.replacement := by
  have replaces := replacesTags_stripImageFilters template
  generalize stripImageFilters template = output at replaces
  cases replaces with
  | nil => contradiction
  | kept unread _ =>
    rw [unread] at read
    contradiction
  | replaced found isReplacement more =>
    rw [found] at read
    obtain ⟨rfl, rfl⟩ := Prod.mk.inj (Option.some.inj read)
    cases more with
    | nil => rw [isReplacement, List.append_nil]
    | replaced read _ _ => contradiction

/-- The element that takes the place of a chain has the reference to the variable and the literals as
its attributes exactly if neither literal holds a double quote. -/
theorem isImageElement_stripImageFilters_iff {template gap alt : List Char}
    {class? : Option (List Char)} {tag : OutputTag} {arguments : List FilterArgument}
    (read : outputTag? none template = some (tag, []))
    (flat : isFlatVariable tag.subject = true) (filtered : tag.filters.any isImageFilter = true)
    (last : tag.filters.getLast? = some (imageTagText gap arguments))
    (blank : gap.all isBlank = true) (written : ∀ argument ∈ arguments, argument.IsWritten)
    (isAlt : altOf arguments = some alt) (isClass : classOf arguments = class?) :
    IsImageElement (stripImageFilters template)
        (imageAttributes (tag.around tag.subject) alt class?) ↔
      '"' ∉ alt ∧ ∀ value ∈ class?, '"' ∉ value := by
  have applies : tag.appliesImageFilter = true := by
    rw [OutputTag.appliesImageFilter, flat, filtered]
    rfl
  have found := findAll_imageTagText blank written
  have carriesAlt : carriedAlt (imageTagText gap arguments) = alt := by
    rw [carriedAlt, found, ← altOf, isAlt]
    rfl
  have carriesClass : carriedClass? (imageTagText gap arguments) = class? := by
    rw [carriedClass?, found, ← isClass, classOf]
  rw [stripImageFilters_of_read read,
    OutputTag.replacement_of_element applies last (isImageTag_imageTagText blank arguments),
    ← carriesAlt, ← carriesClass]
  exact isImageElement_imageElement_iff (not_mem_around flat)

theorem infix_of_namesArgument {name text : List Char} (names : NamesArgument name text) :
    name <:+: text := by
  obtain ⟨front, gap, rest, rfl, -, -⟩ := names
  exact ⟨front, gap ++ ':' :: rest, by simp⟩

/-- A literal may hold a bar, the other quote, and what looks like another argument. -/
theorem isImageElement_stripImageFilters_of_apostrophe :
    let inner :=
      " settings_a | img_url | image_tag: w: 9, alt: \"it's | class: 'x'\", class: 'y' ".toList
    let template := "\x7b\x7b".toList ++ inner ++ "\x7d\x7d".toList
    let tag : OutputTag := ⟨false, inner, false⟩
    let arguments : List FilterArgument :=
      [.other " w: 9".toList,
        .literal [' '] (.alt "it's | class: 'x'".toList) [] [' '] .double [],
        .literal [' '] (.className ['y']) [] [' '] .single []]
    tag.chain = ["settings_a".toList, "img_url".toList, imageTagText [] arguments] ∧
      (∀ argument ∈ arguments, argument.IsWritten) ∧
      IsImageElement (stripImageFilters template)
        (imageAttributes (tag.around tag.subject) "it's | class: 'x'".toList (some ['y'])) := by
  intro inner template tag arguments
  -- the characters of the literal, which the kernel need not decode then
  have spelled : inner = _ := String.toList_ofList
  have read : outputTag? none template = some (tag, []) := by
    change outputTag? none (_ ++ inner ++ _) = some (⟨false, inner, false⟩, [])
    rw [spelled]
    rfl
  have chain : tag.chain = ["settings_a".toList, "img_url".toList, imageTagText [] arguments] := by
    change OutputTag.chain ⟨false, inner, false⟩ = _
    rw [spelled]
    decide +kernel
  have flat : isFlatVariable tag.subject = true := by
    rw [OutputTag.subject, chain]
    decide +kernel
  have filtered : tag.filters.any isImageFilter = true := by
    rw [OutputTag.filters, chain]
    decide +kernel
  have last : tag.filters.getLast? = some (imageTagText [] arguments) := by
    rw [OutputTag.filters, chain]
    rfl
  have written : ∀ argument ∈ arguments, argument.IsWritten := by
    intro argument member
    simp only [arguments, List.mem_cons, List.not_mem_nil, or_false] at member
    rcases member with rfl | rfl | rfl
    · refine ⟨fun names => ?_, fun names => ?_⟩
      · exact absurd (infix_of_namesArgument names) (by decide +kernel)
      · exact absurd (infix_of_namesArgument names) (by decide +kernel)
    · exact ⟨by decide, by decide +kernel⟩
    · exact ⟨by decide, by decide +kernel⟩
  have isAlt : altOf arguments = some "it's | class: 'x'".toList := rfl
  have isClass : classOf arguments = some ['y'] := rfl
  have element :=
    isImageElement_stripImageFilters_iff read flat filtered last rfl written isAlt isClass
  exact ⟨chain, written, element.mpr (by decide +kernel)⟩

/-- A literal between single quotes that holds a double quote is cut off there. -/
theorem not_isImageElement_of_inches :
    let inner := " settings_a | img_url | image_tag: alt: '5\" disc' ".toList
    let template := "\x7b\x7b".toList ++ inner ++ "\x7d\x7d".toList
    let tag : OutputTag := ⟨false, inner, false⟩
    let argument : FilterArgument := .literal [' '] (.alt "5\" disc".toList) [] [' '] .single []
    (outputTag? none template = some (tag, []) ∧
        tag.chain = ["settings_a".toList, "img_url".toList, imageTagText [] [argument]]) ∧
      stripImageFilters template =
        "<img src=\"\x7b\x7b settings_a \x7d\x7d\" alt=\"5\" disc\">".toList ∧
      ¬ IsImageElement (stripImageFilters template)
        (imageAttributes (tag.around "settings_a".toList) "5\" disc".toList none) := by
  intro inner template tag argument
  have spelled : inner = _ := String.toList_ofList
  have read : outputTag? none template = some (tag, []) := by
    change outputTag? none (_ ++ inner ++ _) = some (⟨false, inner, false⟩, [])
    rw [spelled]
    rfl
  have chain : tag.chain = ["settings_a".toList, "img_url".toList, imageTagText [] [argument]] := by
    change OutputTag.chain ⟨false, inner, false⟩ = _
    rw [spelled]
    decide +kernel
  have element : stripImageFilters template =
      "<img src=\"\x7b\x7b settings_a \x7d\x7d\" alt=\"5\" disc\">".toList := by
    change stripImageFilters (_ ++ inner ++ _) = _
    rw [spelled, String.toList_ofList]
    decide +kernel
  refine ⟨⟨read, chain⟩, element, ?_⟩
  rintro ⟨rest, -, has⟩
  have member : (altName, "5\" disc".toList) ∈
      imageAttributes (tag.around "settings_a".toList) "5\" disc".toList none :=
    List.mem_cons_of_mem _ List.mem_cons_self
  exact absurd (has.unquoted _ member) (by decide +kernel)

/-- What another argument says is taken for an alternative text as well. -/
example : stripImageFilters
    "\x7b\x7b settings_a | img_url | image_tag: alt: 'A', title: \"alt: 'B'\" \x7d\x7d".toList =
      "<img src=\"\x7b\x7b settings_a \x7d\x7d\" alt=\"B\">".toList := by
  rw [String.toList_ofList, String.toList_ofList]
  decide +kernel

end FlatLiquid
