import FlatLiquid.Template.Accessor

/-!
Contract: image filters of flat variables.

Owns:
- output tags and the chains of filters in them;
- the image elements and shorter chains that take the place of chains with image filters.

A flat variable holds the address of an image already, so the filters that make one of an image have
nothing to do.
-/

namespace FlatLiquid

open Text (Rule afterPrefix? skipBlanks startsWord replaceAll findAll trim)

/-! ## Output tags -/

/-- An output tag: the dash after its opening braces, what it holds, and the dash before its closing
braces. -/
structure OutputTag where
  openDash : Bool
  inner : List Char
  closeDash : Bool

/-- The dash of a tag. -/
def dashText (dash : Bool) : List Char :=
  if dash then ['-'] else []

/-- The text up to the first closing braces and whether a dash stands before them, with the text
after them. -/
def closeOutput? : List Char → Option (List Char × Bool × List Char)
  | '-' :: '\x7d' :: '\x7d' :: rest => some ([], true, rest)
  | '\x7d' :: '\x7d' :: rest => some ([], false, rest)
  | c :: rest => (closeOutput? rest).map fun (inner, close) => (c :: inner, close)
  | [] => none

/-- Recognizes an output tag. -/
def outputTag? : Rule OutputTag
  | _, '\x7b' :: '\x7b' :: rest =>
    let (openDash, rest) := match rest with
      | '-' :: rest => (true, rest)
      | rest => (false, rest)
    (closeOutput? rest).map fun (inner, closeDash, after) => (⟨openDash, inner, closeDash⟩, after)
  | _, _ => none

/-- An output tag around a variable and filters. -/
def OutputTag.around (tag : OutputTag) (inner : List Char) : List Char :=
  '\x7b' :: '\x7b' :: dashText tag.openDash ++ ' ' :: inner ++ ' ' :: dashText tag.closeDash ++
    ['\x7d', '\x7d']

/-! ## Filters -/

/-- The parts of an expression between bars. A bar inside quotes is no separator; `quote` is the
quote that is open, if one is. -/
def splitFiltersFrom (quote : Option Char) : List Char → List (List Char)
  | [] => [[]]
  | c :: rest =>
    let inside (next : Option Char) : List (List Char) :=
      match splitFiltersFrom next rest with
      | [] => [[c]]
      | part :: others => (c :: part) :: others
    match quote with
    | some q => inside (if c = q then none else some q)
    | none =>
      if c = '\'' ∨ c = '"' then inside (some c)
      else if c = '|' then [] :: splitFiltersFrom none rest
      else inside none

/-- The parts of an expression between bars outside quotes. -/
def splitFilters (expression : List Char) : List (List Char) :=
  splitFiltersFrom none expression

/-- The name of a filter, which stands before its arguments. -/
def filterName (filter : List Char) : List Char :=
  trim (filter.takeWhile (· != ':'))

/-- The filter makes an address of an image. -/
def isImageFilter (filter : List Char) : Bool :=
  filterName filter == "image_url".toList || filterName filter == "img_url".toList

/-- The filter makes an element of an address. -/
def isImageTag (filter : List Char) : Bool :=
  filterName filter == "image_tag".toList

/-- The text is an identifier's characters only, at least one. -/
def isIdentifierText (text : List Char) : Bool :=
  !text.isEmpty && text.all isIdentifierChar

/-- The variable is one that stands for a setting of the section or of a block. -/
def isFlatVariable (text : List Char) : Bool :=
  match afterPrefix? "settings_".toList text with
  | some name => isIdentifierText name
  | none =>
    match afterPrefix? "block_".toList text with
    | none => false
    | some rest =>
      !(rest.takeWhile Char.isDigit).isEmpty &&
        match rest.dropWhile Char.isDigit with
        | '_' :: name => isIdentifierText name
        | _ => false

/-! ## Elements -/

/-- An argument of a filter whose value is a literal. -/
inductive ImageArgument where
  | className (value : List Char)
  | alt (value : List Char)

/-- The text between quotes, and the text after them. -/
def quotedValue? : List Char → Option (List Char × List Char)
  | quote :: rest =>
    if quote == '\'' || quote == '"' then
      match rest.dropWhile (· != quote) with
      | _ :: after => some (rest.takeWhile (· != quote), after)
      | [] => none
    else none
  | [] => none

/-- Recognizes an argument with a literal value. -/
def imageArgument? : Rule ImageArgument := fun before text =>
  if startsWord before then do
    let (kind, rest) ← match afterPrefix? "class".toList text with
      | some rest => some (ImageArgument.className, rest)
      | none => (afterPrefix? "alt".toList text).map fun rest => (ImageArgument.alt, rest)
    let rest ← afterPrefix? [':'] (skipBlanks rest)
    let (value, after) ← quotedValue? (skipBlanks rest)
    some (kind value, after)
  else none

/-- The value of an argument that gives the alternative text. -/
def ImageArgument.alt? : ImageArgument → Option (List Char)
  | .alt value => some value
  | .className _ => none

/-- The value of an argument that gives the class. -/
def ImageArgument.className? : ImageArgument → Option (List Char)
  | .className value => some value
  | .alt _ => none

/-- The image element for a chain that ends in this filter. Of repeated arguments the last one
counts. -/
def imageElement (reference filter : List Char) : List Char :=
  let arguments := findAll imageArgument? filter
  let alt := ((arguments.filterMap ImageArgument.alt?).getLast?).getD []
  let className := match (arguments.filterMap ImageArgument.className?).getLast? with
    | some value => " class=\"".toList ++ value ++ ['"']
    | none => []
  "<img src=\"".toList ++ reference ++ "\" alt=\"".toList ++ alt ++ '"' :: className ++ ['>']

/-- What takes the place of an output tag, if it applies an image filter to a flat variable: an
image element if the chain ends in one, or else the chain without its image filters. -/
def OutputTag.withoutImageFilters? (tag : OutputTag) : Option (List Char) :=
  match (splitFilters tag.inner).map trim with
  | [] => none
  | subject :: filters =>
    if isFlatVariable subject && filters.any isImageFilter then
      match filters.getLast? with
      | some last =>
        if isImageTag last then some (imageElement (tag.around subject) last)
        else
          let kept := filters.filter fun filter => !isImageFilter filter
          some (tag.around (List.intercalate " | ".toList (subject :: kept)))
      | none => none
    else none

/-- Recognizes output tags and drops their image filters. A tag without any stays as it is. -/
def imageFilterRule : Rule (List Char) := fun before text =>
  (outputTag? before text).map fun (tag, after) =>
    (tag.withoutImageFilters?.getD (recognized text after), after)

/-- The template without image filters of flat variables. -/
def stripImageFilters (template : List Char) : List Char :=
  replaceAll imageFilterRule template

end FlatLiquid
