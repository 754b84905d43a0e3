import FlatLiquid.CommandLine.Host

/-!
Contract: what a system holds apart from ordinary files.

Owns:
- places, which are told from the root;
- directories, links and devices at their places;
- the surroundings of a run: these, and the place of the directory that it works in;
- a sample of such surroundings.
-/

namespace FlatLiquid.CommandLine

def nameLimit : Nat := 255

def pathLimit : Nat := 4095

/-- The number of links that may be followed on one path. -/
def linkLimit : Nat := 40

/-- The names on the way from the root. -/
abbrev Place := List String

/-- A file that keeps nothing of what is written to it. -/
structure Device where
  /-- What comes from it. -/
  content : Except FileFault String
  /-- The stream of the run that it is, if it is one. -/
  outlet : Option Outlet
  /-- Why it does not take a text. -/
  refusal : String → Option FileFault

/-- What is there apart from ordinary files. -/
inductive Fixture where
  /-- A directory, and why no file can be made in it, if none can. -/
  | directory (refusal : Option FileFault)
  /-- A link to the path. -/
  | link (path : String)
  | device (device : Device)

structure Surroundings where
  /-- The place of the directory that a run works in. -/
  home : Place
  fixtures : List (Place × Fixture)

/-- The path that a link at the place leads to. -/
def Surroundings.link? (around : Surroundings) (place : Place) : Option String :=
  match around.fixtures.lookup place with
  | some (.link path) => some path
  | _ => none

/-! ## A sample -/

namespace Surroundings

/-- Nothing comes from the device, and all that is written to it is lost. -/
def nothing : Device := ⟨.ok "", none, fun _ => none⟩

/-- What comes from the device has no end. -/
def endless : Device := ⟨.error .outOfMemory, none, fun _ => none⟩

/-- Nothing fits into the device. -/
def full : Device :=
  ⟨.error .outOfMemory, none, fun text => if text.isEmpty then none else some .noSpace⟩

/-- The terminal, of a run that has none. -/
def terminal : Device := ⟨.error .noTerminal, none, fun _ => some .noTerminal⟩

/-- A stream of the run, from which nothing comes. -/
def stream (outlet : Outlet) : Device := ⟨.ok "", some outlet, fun _ => none⟩

/-- Directories in which files can be made. -/
def openDirectories : List Place :=
  [["bin"], ["boot"], ["dev"], ["etc"], ["home"], ["lib"], ["media"], ["mnt"], ["opt"], ["root"],
    ["run"], ["sbin"], ["srv"], ["sys"], ["usr"], ["var"], ["dev", "pts"], ["dev", "shm"],
    ["usr", "bin"], ["usr", "lib"], ["usr", "local"], ["usr", "sbin"], ["usr", "share"],
    ["var", "cache"], ["var", "lib"], ["var", "log"], ["var", "spool"], ["var", "tmp"]]

/-- Directories of processes, in which no file can be made. -/
def processDirectories : List Place :=
  [["proc"], ["proc", "self"], ["proc", "self", "fd"]]

def sampleDevices : List (Place × Device) :=
  [(["dev", "null"], nothing), (["dev", "zero"], endless), (["dev", "random"], endless),
    (["dev", "urandom"], endless), (["dev", "full"], full), (["dev", "tty"], terminal),
    (["dev", "stdin"], nothing), (["dev", "stdout"], stream .output),
    (["dev", "stderr"], stream .errors), (["proc", "self", "fd", "0"], nothing),
    (["proc", "self", "fd", "1"], stream .output), (["proc", "self", "fd", "2"], stream .errors)]

/-- A system without ordinary files, for a run without input in a directory of its own. -/
def sample : Surroundings where
  home := ["tmp", "work"]
  fixtures :=
    openDirectories.map (fun place => (place, .directory none))
      ++ processDirectories.map (fun place => (place, .directory (some .missing)))
      ++ sampleDevices.map (fun (place, device) => (place, .device device))
      ++ [(["dev", "fd"], .link "/proc/self/fd"), (["proc", "self", "cwd"], .link "/tmp/work"),
        (["proc", "self", "root"], .link "/")]

end Surroundings

end FlatLiquid.CommandLine
