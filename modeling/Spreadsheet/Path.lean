import Spreadsheet.Text.Lines

/-!
Names of files. A name is split at slashes; empty components and components `.` mean nothing,
except for a slash or a `.` at the very start.
-/
namespace Spreadsheet.Path

/-- The leading slash or `.`, which is no ordinary component, and the text behind it. -/
def splitRoot (path : List Char) : List Char × List Char :=
  match path with
  | '/' :: rest => (['/'], rest)
  | ['.'] => (['.'], [])
  | '.' :: '/' :: rest => (['.'], '/' :: rest)
  | _ => ([], path)

/-- Whether a component means nothing. -/
def isIdle (component : List Char) : Bool :=
  component = [] || component = ['.']

/-- The components of a name behind its root, last one first, without idle ones at the end. -/
def components (body : List Char) : List (List Char) :=
  (Text.splitAt '/' body).reverse.dropWhile isIdle

/-- The text of components given last one first. -/
def join (reversed : List (List Char)) : List Char :=
  ['/'].intercalate reversed.reverse

/-- The last component that means something, unless it is `..`. -/
def fileName? (path : List Char) : Option (List Char) :=
  match components (splitRoot path).2 with
  | name :: _ => if name = ['.', '.'] then none else some name
  | [] => none

/-- The directory in which a file lies; the empty name is the current one. A root lies in no
directory. -/
def parent? (path : List Char) : Option (List Char) :=
  let (root, body) := splitRoot path
  match components body with
  | _ :: before => some (root ++ join (before.dropWhile isIdle))
  | [] => if root = ['.'] then some [] else none

/-- The names of all places from the one with the given components, last one first, up to its
root. -/
def placesUp (root : List Char) : List (List Char) → List (List Char)
  | [] => if root = [] then [] else [root]
  | component :: before =>
    if isIdle component then placesUp root before
    else (root ++ join (component :: before)) :: placesUp root before

/-- A name and the names of the directories above it, the nearest first. -/
def ancestors (path : List Char) : List (List Char) :=
  let (root, body) := splitRoot path
  placesUp root (components body)

/-- Splits the last dot off a file name. A name without a dot, or with no other dot than a leading
one, has no extension. -/
def splitExtension (name : List Char) : List Char × Option (List Char) :=
  match (Text.splitAt '.' name).reverse with
  | extension :: before =>
    let stem := ['.'].intercalate before.reverse
    if stem = [] then (name, none) else (stem, some extension)
  | [] => (name, none)

/-- The name without its extension. -/
def stem (path : List Char) : List Char :=
  match fileName? path with
  | some name => (splitExtension name).1
  | none => []

def extension? (path : List Char) : Option (List Char) :=
  (fileName? path).bind fun name => (splitExtension name).2

/-- A name inside a directory. -/
def append (directory name : List Char) : List Char :=
  if directory = [] ∨ directory.getLast? = some '/' then directory ++ name
  else directory ++ '/' :: name

/-- The path with another file name; one without a file name gets it appended. -/
def withFileName (path name : List Char) : List Char :=
  match fileName? path, parent? path with
  | some _, some directory => append directory name
  | _, _ => append path name

/-- A file name with another extension; an empty one is left out with its dot. -/
def withExtension (name extension : List Char) : List Char :=
  let stem := (splitExtension name).1
  if extension = [] then stem else stem ++ '.' :: extension

end Spreadsheet.Path
