import SourceRecovery.Path
import SourceRecovery.Text.Quoted

/-!
Reasons for which the file system refuses a request.
-/
namespace SourceRecovery.Disk

inductive Cause where
  | noEntry
  | exists
  | notDirectory
  | isDirectory
  | nameTooLong
  | tooManyLinks
  deriving DecidableEq, Repr

def Cause.number : Cause → Nat
  | .noEntry => 2
  | .exists => 17
  | .notDirectory => 20
  | .isDirectory => 21
  | .nameTooLong => 36
  | .tooManyLinks => 40

def Cause.text : Cause → String
  | .noEntry => "No such file or directory"
  | .exists => "File exists"
  | .notDirectory => "Not a directory"
  | .isDirectory => "Is a directory"
  | .nameTooLong => "File name too long"
  | .tooManyLinks => "Too many levels of symbolic links"

/-- A path with a zero character is refused before the file system sees it. -/
inductive Error where
  | zeroInPath
  | refused (cause : Cause) (path : Path)
  deriving DecidableEq, Repr

def Error.message : Error → String
  | .zeroInPath => "embedded null byte"
  | .refused cause path =>
    s!"[Errno {cause.number}] {cause.text}: " ++ Quoted.render path.render

def Error.isAbsence : Error → Bool
  | .zeroInPath => true
  | .refused cause _ => cause = .noEntry ∨ cause = .notDirectory ∨ cause = .tooManyLinks

end SourceRecovery.Disk
