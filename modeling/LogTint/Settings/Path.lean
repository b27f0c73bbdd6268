import LogTint.Text.Bytes

/-!
# The extension of a path

A file system knows a file by bytes, which need not be a text.  Components of a
path are separated by slashes; empty components and components that are a single
dot do not count.  The extension is what follows the last dot of the last
component.  Two dots name no file, and a dot that begins a name begins no
extension.
-/

namespace LogTint

/-- A path is given by its bytes. -/
structure Path where
  bytes : List UInt8
deriving DecidableEq

namespace Path

/-- The path that a text writes. -/
def ofText (text : Text) : Path := ⟨text.bytes⟩

def slash : UInt8 := 0x2f

def dot : UInt8 := 0x2e

/-- The components of a path that name something. -/
def components (path : Path) : List (List UInt8) :=
  (path.bytes.splitOn slash).filter fun component =>
    component ≠ [] && component ≠ [dot]

/-- The last component, unless it leads to the parent directory. -/
def fileName? (path : Path) : Option (List UInt8) :=
  path.components.getLast?.filter (· ≠ [dot, dot])

/-- The parts of a name before and after its last dot. -/
def splitAtLastDot? (name : List UInt8) : Option (List UInt8 × List UInt8) :=
  match name.reverse.dropWhile (· ≠ dot) with
  | [] => none
  | _ :: stem =>
      some (stem.reverse, (name.reverse.takeWhile (· ≠ dot)).reverse)

def extension? (path : Path) : Option (List UInt8) :=
  path.fileName?.bind fun name =>
    (splitAtLastDot? name).bind fun (stem, extension) =>
      if stem.isEmpty then none else some extension

end Path

end LogTint
