/-!
The refusals of the host's file system and their wording.
-/

namespace Undelete

inductive HostError where
  | notFound
  | alreadyExists
  | noDevice
  | notFolder
  | isFolder
  | nameTooLong
  deriving Repr, DecidableEq

def HostError.text : HostError → String
  | notFound => "No such file or directory (os error 2)"
  | alreadyExists => "File exists (os error 17)"
  | noDevice => "No such device (os error 19)"
  | notFolder => "Not a directory (os error 20)"
  | isFolder => "Is a directory (os error 21)"
  | nameTooLong => "File name too long (os error 36)"

end Undelete
