import FlatLiquid.CommandLine.Run
import FlatLiquid.CommandLine.Surroundings
import FlatLiquid.Toml.Reading

/-!
Contract: the program.

Owns the host of a run in the system that the program is started in, and the printing of what a run
leaves.
-/

namespace FlatLiquid.CommandLine

/-- The number of a failure. The system may give it with the opposite sign. -/
def failureNumber (code : UInt32) : UInt32 :=
  min code (0 - code)

/-- What a failure of the system is for a run. -/
def systemFault : IO.Error → FileFault
  | .noFileOrDirectory .. => .missing
  | .inappropriateType _ code details =>
    match failureNumber code with
    | 20 => .notDirectory
    | 21 => .isDirectory
    | number => .other s!"{details} (os error {number})"
  | .invalidArgument _ code details =>
    match failureNumber code with
    | 36 => .nameTooLong
    | 40 => .tooManyLinks
    | number => .other s!"{details} (os error {number})"
  | .permissionDenied _ code details =>
    match failureNumber code with
    | 13 => .permissionDenied
    | number => .other s!"{details} (os error {number})"
  | failure => .other (toString failure)

/-- The answer of an action, or the fault that its failure comes to. -/
def attempt {α : Type} (action : IO α) : IO (Except FileFault α) := do
  match ← action.toBaseIO with
  | .ok value => return .ok value
  | .error failure => return .error (systemFault failure)

/-- The stream of the run that a path from the root stands for. -/
def outlet? (path : String) : Option Outlet :=
  match path.splitOn "/" with
  | "" :: place => (Surroundings.sampleDevices.lookup place).bind Device.outlet
  | _ => none

/-- Something can be found under the path, though it may not be readable. -/
def isThere (path : String) : IO Bool := do
  match ← attempt (IO.FS.Handle.mk path .read) with
  | .error .missing => return false
  | .error .notDirectory => return false
  | .error .nameTooLong => return false
  | .error .tooManyLinks => return false
  | _ => return true

/-- The system as the host of a run. -/
def system : Host IO where
  isThere := isThere
  read := fun path => attempt (IO.FS.readFile path)
  write := fun path content =>
    match outlet? path with
    | some outlet => return .ok (some outlet)
    | none => attempt do
      IO.FS.writeFile path content
      return none
  readDocument := Toml.readDocument

end FlatLiquid.CommandLine

def main (arguments : List String) : IO UInt32 := do
  let outcome ← FlatLiquid.CommandLine.run FlatLiquid.CommandLine.system arguments
  (← IO.getStdout).putStr outcome.output
  (← IO.getStderr).putStr outcome.errors
  return outcome.code.toUInt32
