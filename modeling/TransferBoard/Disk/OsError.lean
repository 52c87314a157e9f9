/-!
# Refusals of the system

What a file operation or the terminal can answer instead of doing its work.

## Main definitions

* `OsError` — the reasons.
* `OsError.message` — their wording.
-/

namespace TransferBoard

/-- Why a file or terminal operation failed. -/
inductive OsError where
  /-- There is nothing at the path. -/
  | notFound
  /-- There is something at the path already. -/
  | alreadyExists
  /-- The path leads through something that is no directory. -/
  | notDirectory
  /-- A directory was found where a file is needed. -/
  | isDirectory
  /-- A name in the path, or the whole path, is too long. -/
  | nameTooLong
  /-- There is no terminal. -/
  | noDevice
  /-- The path contains the character with code zero. -/
  | nulInName
  /-- The text in a file is not well-formed. -/
  | notText
  /-- No part of the path can be made. -/
  | noTree
  /-- A failure with a wording of its own. -/
  | other (message : String)
  deriving DecidableEq, Repr

/-- The wording of a refusal; those that have a number show it. -/
def OsError.message : OsError → String
  | notFound => "No such file or directory (os error 2)"
  | alreadyExists => "File exists (os error 17)"
  | notDirectory => "Not a directory (os error 20)"
  | isDirectory => "Is a directory (os error 21)"
  | nameTooLong => "File name too long (os error 36)"
  | noDevice => "No such device or address (os error 6)"
  | nulInName => "file name contained an unexpected NUL byte"
  | notText => "stream did not contain valid UTF-8"
  | noTree => "failed to create whole tree"
  | other message => message

end TransferBoard
