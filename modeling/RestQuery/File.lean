/-!
# Files

What is found at the place of a file: bytes, or the reason why there are none.
-/

namespace RestQuery

/-- Why a file cannot be read. -/
inductive FileFault where
  /-- There is nothing at its place. -/
  | missing
  /-- A directory stands at its place. -/
  | directory
  /-- Its place is inside something that is no directory. -/
  | notDirectory
  /-- It may not be read. -/
  | denied
  /-- It is not UTF-8. -/
  | notUtf8
  deriving DecidableEq, Repr, Inhabited

/-- The wording of a cause. -/
def FileFault.message : FileFault → String
  | .missing => "No such file or directory (os error 2)"
  | .directory => "Is a directory (os error 21)"
  | .notDirectory => "Not a directory (os error 20)"
  | .denied => "Permission denied (os error 13)"
  | .notUtf8 => "stream did not contain valid UTF-8"

/-- What is found at the place of a file. -/
abbrev File := Except FileFault (List UInt8)

/-- Whether something stands at the place of a file, whether it can be read or not. -/
def File.exists : File → Bool
  | .error .missing | .error .notDirectory => false
  | _ => true

end RestQuery
