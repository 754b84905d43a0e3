import FlatLiquid.Toml.Basic

/-!
Contract: what a run relies on outside the program.

Owns:
- access to files under their paths, whatever they are kept in, and how it fails;
- the streams that a path may stand for;
- the reader of TOML documents, which belongs to a library.
-/

namespace FlatLiquid.CommandLine

inductive FileFault where
  | missing
  | noTerminal
  | outOfMemory
  | permissionDenied
  | notDirectory
  | isDirectory
  | noSpace
  | nameTooLong
  | tooManyLinks
  /-- A failure in the words of the system. -/
  | other (message : String)
deriving DecidableEq, Repr

def FileFault.text : FileFault → String
  | .missing => "No such file or directory (os error 2)"
  | .noTerminal => "No such device or address (os error 6)"
  | .outOfMemory => "out of memory"
  | .permissionDenied => "Permission denied (os error 13)"
  | .notDirectory => "Not a directory (os error 20)"
  | .isDirectory => "Is a directory (os error 21)"
  | .noSpace => "No space left on device (os error 28)"
  | .nameTooLong => "File name too long (os error 36)"
  | .tooManyLinks => "Too many levels of symbolic links (os error 40)"
  | .other message => message

/-- A stream that a run writes to. -/
inductive Outlet where
  | output
  | errors
deriving DecidableEq, Repr

/-- What hosts a run. -/
structure Host (m : Type → Type) where
  /-- Something can be found under the path. -/
  isThere : String → m Bool
  read : String → m (Except FileFault String)
  /-- Writes a file. If the path stands for a stream of the run, the answer is the stream, and the
  run has yet to write to it. -/
  write : String → String → m (Except FileFault (Option Outlet))
  /-- The entries of a TOML document, or what is wrong with it. -/
  readDocument : List Char → Except String Toml.Entries

end FlatLiquid.CommandLine
