/-!
# Refusals of the operating system

Why a file could not be reached or read, or a program not be started.
-/

namespace ExtensionPlan

/-- Why the operating system, or the reading of what it gave, refused. -/
inductive SystemError where
  | notFound
  | permissionDenied
  | notDirectory
  | isDirectory
  | nameTooLong
  | tooManyLinks
  | argumentTooLong
  /-- The file is executable but no program. -/
  | notProgram
  /-- The file's bytes are not text. -/
  | notText
  /-- A file name holds the character that ends names. -/
  | nulInPath
  /-- An argument holds the character that ends arguments. -/
  | nulInArgument
  /-- The empty path has no absolute form. -/
  | emptyPath
  /-- Any other cause, in its own words. -/
  | other (reason : String)
  deriving DecidableEq, Repr

/-- The wording of a refusal. -/
def SystemError.message : SystemError → String
  | .notFound => "No such file or directory (os error 2)"
  | .permissionDenied => "Permission denied (os error 13)"
  | .notDirectory => "Not a directory (os error 20)"
  | .isDirectory => "Is a directory (os error 21)"
  | .nameTooLong => "File name too long (os error 36)"
  | .tooManyLinks => "Too many levels of symbolic links (os error 40)"
  | .argumentTooLong => "Argument list too long (os error 7)"
  | .notProgram => "Exec format error (os error 8)"
  | .notText => "stream did not contain valid UTF-8"
  | .nulInPath => "file name contained an unexpected NUL byte"
  | .nulInArgument => "nul byte found in provided data"
  | .emptyPath => "cannot make an empty path absolute"
  | .other reason => reason

end ExtensionPlan
