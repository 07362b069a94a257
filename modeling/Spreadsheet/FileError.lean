/-!
Failures of reading and writing files.
-/
namespace Spreadsheet

inductive FileError where
  | notFound
  | notDirectory
  | isDirectory
  | alreadyExists
  | nameTooLong
  | permissionDenied
  | invalidText
  | notRegularFile
  | missingDirectory (path : String)
  | other (message : String)
deriving DecidableEq, Inhabited

namespace FileError

def message : FileError → String
  | .notFound => "No such file or directory (os error 2)"
  | .notDirectory => "Not a directory (os error 20)"
  | .isDirectory => "Is a directory (os error 21)"
  | .alreadyExists => "File exists (os error 17)"
  | .nameTooLong => "File name too long (os error 36)"
  | .permissionDenied => "Permission denied (os error 13)"
  | .invalidText => "stream did not contain valid UTF-8"
  | .notRegularFile =>
    "the source path is neither a regular file nor a symlink to a regular file"
  | .missingDirectory path => "directory " ++ path ++ " does not exist"
  | .other message => message

end FileError
end Spreadsheet
