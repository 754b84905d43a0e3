import FlatLiquid.CommandLine.Surroundings
import FlatLiquid.OrderedMap
import FlatLiquid.Text.Blank
import FlatLiquid.Toml.Reading

/-!
Contract: the files of a system as a value.

Owns:
- the contents of all files, inside the directory that a run works in and outside of it;
- the way that a path leads, through directories and links;
- reading and writing a file under its path, and the host that these make up.
-/

namespace FlatLiquid.CommandLine

/-- How a file is addressed: by the names from the directory that a run works in, if it is in there,
and otherwise by an empty name and the names from the root. -/
abbrev Address := List String

def Surroundings.address (around : Surroundings) (place : Place) : Address :=
  if around.home.isPrefixOf place then place.drop around.home.length else "" :: place

def Surroundings.place (around : Surroundings) : Address → Place
  | "" :: names => names
  | names => around.home ++ names

/-- The contents of the files of a system. A directory is there as long as a file is in it. -/
structure Directory (around : Surroundings := .sample) where
  contents : List (Address × String)

/-- What is at a place. -/
inductive Node where
  | file (content : String)
  /-- A directory, and why no file can be made in it, if none can. -/
  | directory (refusal : Option FileFault)
  | device (device : Device)

/-! ## Paths -/

/-- The names of a path, and the place at which they start. A path from the root starts there, any
other at the base. -/
def route (base : Place) (path : String) : Place × List String :=
  match (Text.split '/' path.toList).map String.ofList with
  | "" :: names => ([], names)
  | names => (base, names)

/-- The name means the place that it is looked up in. -/
def isStay (name : String) : Bool :=
  name == "" || name == "."

namespace Directory

variable {around : Surroundings}

def file? (directory : Directory around) (address : Address) : Option String :=
  directory.contents.lookup address

/-- The way to the directory that a run works in, or to a file, leads through the place. -/
def isOnWay (directory : Directory around) (place : Place) : Bool :=
  place.isPrefixOf around.home || directory.contents.any fun entry =>
    let other := around.place entry.1
    place.length < other.length && place.isPrefixOf other

def node? (directory : Directory around) (place : Place) : Option Node :=
  match directory.file? (around.address place), around.fixtures.lookup place with
  | some content, _ => some (.file content)
  | none, some (.directory refusal) => some (.directory refusal)
  | none, some (.device device) => some (.device device)
  | none, _ => if directory.isOnWay place then some (.directory none) else none

/-- Follows names from a place on. `jump` follows a link, with the place that it is in and the names
behind it. -/
def walk (directory : Directory around)
    (jump : String → Place → List String → Except FileFault Place) :
    Place → List String → Except FileFault Place
  | place, [] => .ok place
  | place, name :: rest =>
    match directory.node? place with
    | none => .error .missing
    | some (.file _) => .error .notDirectory
    | some (.device _) => .error .notDirectory
    | some (.directory _) =>
      if isStay name then directory.walk jump place rest
      else if name == ".." then directory.walk jump place.dropLast rest
      else if nameLimit < name.utf8ByteSize then .error .nameTooLong
      else
        match around.link? (place ++ [name]) with
        | some path => jump path place rest
        | none => directory.walk jump (place ++ [name]) rest

/-- Follows names from a place on, through so many links at most. -/
def follow (directory : Directory around) :
    Nat → Place → List String → Except FileFault Place
  | 0 => directory.walk fun _ _ _ => .error .tooManyLinks
  | links + 1 => directory.walk fun path place rest =>
    let (start, names) := route place path
    directory.follow links start (names ++ rest)

/-- Where a path that can be looked up starts, and its names. -/
def checkedRoute (around : Surroundings) (path : String) : Except FileFault (Place × List String) :=
  if path.isEmpty then .error .missing
  else if pathLimit < path.utf8ByteSize then .error .nameTooLong
  else .ok (route around.home path)

/-- The place that a path leads to. -/
def resolve (directory : Directory around) (path : String) : Except FileFault Place := do
  let (start, names) ← checkedRoute around path
  directory.follow linkLimit start names

/-- The place of a file that is to be written. A path that ends in a slash means a directory. -/
def resolveTarget (directory : Directory around) (path : String) : Except FileFault Place := do
  let (start, names) ← checkedRoute around path
  if names.getLast? == some "" then
    let _ ← directory.follow linkLimit start (names.reverse.dropWhile (· == "")).tail.reverse
    throw .isDirectory
  else directory.follow linkLimit start names

/-! ## Files -/

def isThere (directory : Directory around) (path : String) : Bool :=
  match directory.resolve path with
  | .ok place => (directory.node? place).isSome
  | .error _ => false

def read (directory : Directory around) (path : String) : Except FileFault String := do
  match directory.node? (← directory.resolve path) with
  | some (.file content) => pure content
  | some (.device device) => device.content
  | some (.directory _) => throw .isDirectory
  | none => throw .missing

/-- What a write comes to: the files after it, and the stream that the path stands for, if it stands
for one. -/
structure Written (around : Surroundings) where
  directory : Directory around
  outlet : Option Outlet

/-- Writes a file at a place, which need not be there yet. -/
def writeAt (directory : Directory around) (place : Place) (content : String) :
    Except FileFault (Written around) :=
  let stored := ⟨⟨putEntry directory.contents (around.address place) content⟩, none⟩
  match directory.node? place with
  | some (.file _) => .ok stored
  | some (.directory _) => .error .isDirectory
  | some (.device device) =>
    match device.refusal content with
    | some fault => .error fault
    | none => .ok ⟨directory, device.outlet⟩
  | none =>
    match directory.node? place.dropLast with
    | some (.directory (some fault)) => .error fault
    | _ => .ok stored

def write (directory : Directory around) (path content : String) :
    Except FileFault (Written around) := do
  directory.writeAt (← directory.resolveTarget path) content

/-- The host whose files these are. A write that fails leaves them as they are. -/
def access : Host (StateM (Directory around)) where
  isThere := fun path => do return (← get).isThere path
  read := fun path => do return (← get).read path
  write := fun path content => do
    match (← get).write path content with
    | .ok written =>
      set written.directory
      return .ok written.outlet
    | .error fault => return .error fault
  readDocument := Toml.readDocument

end Directory

end FlatLiquid.CommandLine
