import Spreadsheet.Dictionary
import Spreadsheet.FileError
import Spreadsheet.Path
import Spreadsheet.Text.Bytes

/-!
File systems: what the command needs of one, and a tree of files held in memory.
-/
namespace Spreadsheet.Command

/-- The operations on files that the command uses. -/
structure FileSystem (m : Type → Type) where
  /-- Whether there is a file or a directory of the given name. -/
  isPresent : String → m Bool
  isDirectory : String → m Bool
  readBytes : String → m (Except FileError ByteArray)
  /-- Makes a file or replaces it. -/
  writeBytes : String → ByteArray → m (Except FileError Unit)
  /-- Makes a directory in one that is there. -/
  makeDirectory : String → m (Except FileError Unit)
  /-- Copies a regular file. -/
  copy : (source target : String) → m (Except FileError Unit)

namespace FileSystem

variable {m : Type → Type} [Monad m] (files : FileSystem m)

/-- Makes a directory unless it is already there. -/
def ensureDirectory (path : String) : m (Except FileError Unit) := do
  match ← files.makeDirectory path with
  | .ok () => return .ok ()
  | .error e => if ← files.isDirectory path then return .ok () else return .error e

/-- Makes the first of the directories. The others lead to it, the nearest first, and are made only
as far as they are missing. -/
def ensureNearest : List String → m (Except FileError Unit)
  | [] => return .ok ()
  | path :: above => do
    match ← files.ensureDirectory path with
    | .error .notFound =>
      match ← ensureNearest above with
      | .error e => return .error e
      | .ok () => files.ensureDirectory path
    | result => return result

/-- Makes a directory and all that are missing on the way to it. -/
def createDirectories (path : String) : m (Except FileError Unit) :=
  files.ensureNearest ((Path.ancestors path.toList).map String.ofList)

end FileSystem

/-- Files and directories under one directory. Their names have slashes between the components and
no idle components. -/
structure FileTree where
  files : Dictionary ByteArray := .empty
  directories : Dictionary Unit := .empty
deriving Inhabited

namespace FileTree

/-- The greatest number of bytes in a component. -/
def componentLimit : Nat :=
  255

/-- The greatest number of bytes in a whole name. -/
def pathLimit : Nat :=
  4095

/-- What a name leads to. A directory of the tree is given by its components, last one first; of
the directories outside nothing is known. -/
inductive Node where
  | file (content : ByteArray)
  | directory (place : List (List Char))
  | outside
deriving Inhabited

/-- The name of the place with the given components, last one first. -/
def key (place : List (List Char)) : String :=
  String.ofList (Path.join place)

def nodeAt? (t : FileTree) (place : List (List Char)) : Option Node :=
  match t.files.get? (key place) with
  | some content => some (.file content)
  | none =>
    if place = [] ∨ t.directories.contains (key place) then some (.directory place) else none

/-- Looks for a component that is neither idle nor `..`; only the length of its name can make this
fail. -/
def lookup (t : FileTree) (node : Node) (name : List Char) : Except FileError (Option Node) :=
  if componentLimit < Text.byteLength name then .error .nameTooLong
  else
    match node with
    | .directory place => .ok (t.nodeAt? (name :: place))
    | _ => .ok none

/-- The directory above. -/
def above : Node → Node
  | .directory (_ :: place) => .directory place
  | _ => .outside

def isParentName (component : List Char) : Bool :=
  component = ['.', '.']

/-- Follows components. Only a directory can be left along one, an idle one included. -/
def follow (t : FileTree) : Node → List (List Char) → Except FileError Node
  | node, [] => .ok node
  | .file _, _ :: _ => .error .notDirectory
  | node, component :: rest =>
    if Path.isIdle component then t.follow node rest
    else if isParentName component then t.follow (above node) rest
    else
      match t.lookup node component with
      | .error e => .error e
      | .ok none => .error .notFound
      | .ok (some node) => t.follow node rest

/-- Where a name starts: at the top of the tree, unless it has a leading slash. -/
def start (path : List Char) : Except FileError Node :=
  if path = [] then .error .notFound
  else if pathLimit < Text.byteLength path then .error .nameTooLong
  else .ok (if path.head? = some '/' then .outside else .directory [])

/-- Finds what a name leads to. -/
def find (t : FileTree) (path : List Char) : Except FileError Node :=
  match start path with
  | .error e => .error e
  | .ok node => t.follow node (Text.splitAt '/' path)

/-- Finds the directory in which the last component of a name lies, and gives that component.
Slashes alone name the directory at the very top. -/
def findLast (t : FileTree) (path : List Char) : Except FileError (Node × List Char) :=
  match start path with
  | .error e => .error e
  | .ok node =>
    match (Text.splitAt '/' path).reverse.dropWhile (· == []) with
    | [] => .ok (node, ['.'])
    | name :: before =>
      match t.follow node before.reverse with
      | .error e => .error e
      | .ok (.file _) => .error .notDirectory
      | .ok node => .ok (node, name)

def readBytes (t : FileTree) (path : List Char) : Except FileError ByteArray :=
  match t.find path with
  | .ok (.file content) => .ok content
  | .ok _ => .error .isDirectory
  | .error e => .error e

/-- Makes a file or replaces it. A slash at the end could only stand behind a directory, whatever
the name leads to. Nothing is made outside the tree. -/
def writeBytes (t : FileTree) (path : List Char) (content : ByteArray) :
    Except FileError FileTree :=
  match t.findLast path with
  | .error e => .error e
  | .ok (node, name) =>
    if Path.isIdle name || isParentName name || path.getLast? == some '/' then
      .error .isDirectory
    else
      match t.lookup node name, node with
      | .error e, _ => .error e
      | .ok (some (.directory _)), _ => .error .isDirectory
      | .ok _, .directory place =>
        .ok { t with files := t.files.insert (key (name :: place)) content }
      | .ok _, _ => .error .notFound

/-- Makes a directory. Nothing is made outside the tree. -/
def makeDirectory (t : FileTree) (path : List Char) : Except FileError FileTree :=
  match t.findLast path with
  | .error e => .error e
  | .ok (node, name) =>
    if Path.isIdle name || isParentName name then .error .alreadyExists
    else
      match t.lookup node name, node with
      | .error e, _ => .error e
      | .ok (some _), _ => .error .alreadyExists
      | .ok none, .directory place =>
        .ok { t with directories := t.directories.insert (key (name :: place)) () }
      | .ok none, _ => .error .notFound

def isDirectory (t : FileTree) (path : List Char) : Bool :=
  match t.find path with
  | .ok (.file _) => false
  | .ok _ => true
  | .error _ => false

def copy (t : FileTree) (source target : List Char) : Except FileError FileTree :=
  match t.find source with
  | .ok (.file content) => t.writeBytes target content
  | .ok _ => .error .notRegularFile
  | .error e => .error e

/-- Keeps the new tree, if there is one. -/
def update (result : Except FileError FileTree) : StateM FileTree (Except FileError Unit) :=
  match result with
  | .ok t => do
    set t
    return .ok ()
  | .error e => return .error e

/-- A tree of files as a file system. -/
def system : FileSystem (StateM FileTree) where
  isPresent path := return ((← get).find path.toList).isOk
  isDirectory path := return (← get).isDirectory path.toList
  readBytes path := return (← get).readBytes path.toList
  writeBytes path content := do update ((← get).writeBytes path.toList content)
  makeDirectory path := do update ((← get).makeDirectory path.toList)
  copy source target := do update ((← get).copy source.toList target.toList)

/-- The tree with a file added, and with the directories on the way to it. -/
def add (t : FileTree) (path : List Char) (content : ByteArray) : Except FileError FileTree :=
  let directory := String.ofList ((Path.parent? path).getD [])
  match (system.createDirectories directory).run t with
  | (.ok (), t) => t.writeBytes path content
  | (.error e, _) => .error e

end FileTree
end Spreadsheet.Command
