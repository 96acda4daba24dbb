import ProviderRegistry.Path
import ProviderRegistry.Table
import ProviderRegistry.Text.Encoding

/-!
# File trees

The files and directories that a program sees, as a value. A location is the
list of components from the top of the tree; the working directory, `home`,
and the directories above it always exist. Every operation that can fail says
which path it failed on and why, and one that fails leaves the tree as it was,
except that directories made on the way to a directory stay.
-/

namespace ProviderRegistry

/-- Components from the top of a tree, with no double dots. -/
abbrev Location := List String

/-- What stands at a location. -/
inductive Node where
  | file (content : List UInt8)
  | directory
  deriving DecidableEq, Repr

/-- The files and directories below the top. A location is listed once, and the
directory that holds it is listed too. -/
structure FileTree where
  /-- The working directory, which relative paths start from. -/
  home : Location
  nodes : Table Location Node
  deriving DecidableEq, Repr

/-- Why an operation on a path failed. -/
inductive FileError.Cause where
  | notFound
  | alreadyExists
  | notDirectory
  | isDirectory
  | nameTooLong
  /-- A path with a null character, which no system accepts. -/
  | nullCharacter
  deriving DecidableEq, Repr

/-- A failed operation: the cause and the path it was tried on. -/
structure FileError where
  cause : FileError.Cause
  path : Path
  deriving DecidableEq, Repr

namespace FileError

/-- The number and the wording of a cause that the system gives. -/
def Cause.system? : Cause → Option (Nat × String)
  | notFound => some (2, "No such file or directory")
  | alreadyExists => some (17, "File exists")
  | notDirectory => some (20, "Not a directory")
  | isDirectory => some (21, "Is a directory")
  | nameTooLong => some (36, "File name too long")
  | nullCharacter => none

/-- Whether the system was asked and refused. -/
def isSystem (e : FileError) : Bool := e.cause.system?.isSome

/-- The message of a failed operation. -/
def message (e : FileError) : String :=
  match e.cause.system? with
  | some (number, wording) =>
    "[Errno " ++ toString number ++ "] " ++ wording ++ ": " ++ Text.quote e.path.text
  | none => "embedded null byte"

end FileError

namespace FileTree

/-- The tree with nothing in its working directory. -/
def empty (home : Location) : FileTree := ⟨home, []⟩

/-- What stands at a location. -/
def node? (tree : FileTree) (l : Location) : Option Node :=
  if l.isPrefixOf tree.home then some .directory else tree.nodes.lookup l

/-- The longest name that a file may have, in bytes. -/
def nameLimit : Nat := 255

/-- The location that one component leads to from another. -/
def enter (here : Location) (part : String) : Location :=
  if part = ".." then here.dropLast else here ++ [part]

/-- Follows the components of a path from a directory. What the last component
names need not exist; what the others name must be directories. -/
def follow (tree : FileTree) (here : Location) : List String → Except FileError.Cause Location
  | [] => .ok here
  | part :: rest =>
    if nameLimit < part.utf8ByteSize then .error .nameTooLong
    else
      let there := enter here part
      match rest with
      | [] => .ok there
      | _ => match tree.node? there with
        | some .directory => follow tree there rest
        | some (.file _) => .error .notDirectory
        | none => .error .notFound

/-- Where a path starts from: the top of the tree, or the working directory. -/
def start (tree : FileTree) (p : Path) : Location := if p.isAbsolute then [] else tree.home

/-- The location that a path leads to. -/
def locate (tree : FileTree) (p : Path) : Except FileError.Cause Location :=
  if p.hasNull then .error .nullCharacter else follow tree (tree.start p) p.parts

/-- What stands at a path. -/
def find? (tree : FileTree) (p : Path) : Except FileError.Cause (Option Node) :=
  match tree.locate p with
  | .error e => .error e
  | .ok l => .ok (tree.node? l)

/-- Whether a path leads to a directory. A name that is too long is an error;
nothing else is. -/
def isDirectory (tree : FileTree) (p : Path) : Except FileError Bool :=
  match tree.find? p with
  | .error .nameTooLong => .error ⟨.nameTooLong, p⟩
  | .ok (some .directory) => .ok true
  | _ => .ok false

/-- Whether a path leads to a file. A name that is too long is an error; nothing
else is. -/
def isFile (tree : FileTree) (p : Path) : Except FileError Bool :=
  match tree.find? p with
  | .error .nameTooLong => .error ⟨.nameTooLong, p⟩
  | .ok (some (.file _)) => .ok true
  | _ => .ok false

/-- The content of the file at a path. -/
def read (tree : FileTree) (p : Path) : Except FileError (List UInt8) :=
  match tree.find? p with
  | .error e => .error ⟨e, p⟩
  | .ok none => .error ⟨.notFound, p⟩
  | .ok (some .directory) => .error ⟨.isDirectory, p⟩
  | .ok (some (.file content)) => .ok content

/-- The tree with `node` at `l`. -/
def set (tree : FileTree) (l : Location) (node : Node) : FileTree :=
  { tree with nodes := Table.set l node tree.nodes }

/-- Replaces the content of the file at a path, which is created if its directory
exists. -/
def write (tree : FileTree) (p : Path) (content : List UInt8) : Except FileError FileTree :=
  match tree.locate p with
  | .error e => .error ⟨e, p⟩
  | .ok l =>
    match tree.node? l, tree.node? l.dropLast with
    | some .directory, _ => .error ⟨.isDirectory, p⟩
    | some (.file _), _ => .ok (tree.set l (.file content))
    | none, some .directory => .ok (tree.set l (.file content))
    | none, some (.file _) => .error ⟨.notDirectory, p⟩
    | none, none => .error ⟨.notFound, p⟩

/-- Makes one directory, whose own directory must exist. -/
def makeDirectory (tree : FileTree) (p : Path) : Except FileError FileTree :=
  match tree.locate p with
  | .error e => .error ⟨e, p⟩
  | .ok l =>
    match tree.node? l, tree.node? l.dropLast with
    | some _, _ => .error ⟨.alreadyExists, p⟩
    | none, some .directory => .ok (tree.set l .directory)
    | none, some (.file _) => .error ⟨.notDirectory, p⟩
    | none, none => .error ⟨.notFound, p⟩

/-- Makes one directory, unless it is there already. -/
def ensureDirectory (tree : FileTree) (p : Path) : Except FileError FileTree :=
  match tree.makeDirectory p with
  | .error ⟨.alreadyExists, q⟩ =>
    if tree.isDirectory p matches .ok true then .ok tree else .error ⟨.alreadyExists, q⟩
  | result => result

/-- What an operation leaves: the new tree, or the tree as it was if it failed. -/
def orUnchanged (tree : FileTree) : Except FileError FileTree → FileTree × Except FileError Unit
  | .ok changed => (changed, .ok ())
  | .error e => (tree, .error e)

/-- Makes a directory and those above it that are missing, from the outside in.
Those that were made stay when a further one cannot be. The `levels` bound the
number of directories above; a path has one fewer than it has components. -/
def makeDirectoriesUpTo (tree : FileTree) : (levels : Nat) → Path → FileTree × Except FileError Unit
  | 0, p => tree.orUnchanged (tree.ensureDirectory p)
  | levels + 1, p =>
    match tree.ensureDirectory p with
    | .error ⟨.notFound, _⟩ =>
      match makeDirectoriesUpTo tree levels p.parent with
      | (tree, .error e) => (tree, .error e)
      | (tree, .ok ()) => tree.orUnchanged (tree.ensureDirectory p)
    | result => tree.orUnchanged result

/-- Makes a directory and those above it that are missing. -/
def makeDirectories (tree : FileTree) (p : Path) : FileTree × Except FileError Unit :=
  makeDirectoriesUpTo tree p.parts.length p

/-- Opens a file for writing: the directories above it that are missing are made,
and the file is emptied, or created if it is not there. -/
def openForWriting (tree : FileTree) (p : Path) : FileTree × Except FileError Unit :=
  match tree.makeDirectories p.parent with
  | (tree, .error e) => (tree, .error e)
  | (tree, .ok ()) => tree.orUnchanged (tree.write p [])

/-- Removes what stands at a path, and all below it. -/
def remove (tree : FileTree) (p : Path) : FileTree :=
  match tree.locate p with
  | .error _ => tree
  | .ok l => { tree with nodes := tree.nodes.filter fun entry => !l.isPrefixOf entry.1 }

/-- Puts a node at a location, with the directories that lead to it. -/
def place (tree : FileTree) (l : Location) (node : Node) : FileTree :=
  let above := (List.range (l.length - 1)).map fun i => l.take (i + 1)
  let tree := above.foldl
    (fun tree d => if (tree.node? d).isNone then tree.set d .directory else tree) tree
  tree.set l node

/-- Puts a node at a path from the working directory, with the directories that lead
to it. -/
def placeAt (tree : FileTree) (p : Path) (node : Node) : FileTree :=
  tree.place (tree.start p ++ p.parts) node

/-- The location that a path spells, whether it leads there or not. -/
def reach (tree : FileTree) (p : Path) : Location :=
  p.parts.foldl enter (tree.start p)

/-- What a directory holds: names and nodes. -/
def entries (tree : FileTree) (l : Location) : List (String × Node) :=
  tree.nodes.filterMap fun (m, node) =>
    if m ≠ [] && m.dropLast = l then some (m.getLastD "", node) else none

/-- The files below the working directory, by their relative path. -/
def homeFiles (tree : FileTree) : List (String × List UInt8) :=
  tree.nodes.filterMap fun (l, node) =>
    match node with
    | .directory => none
    | .file content =>
      if tree.home.isPrefixOf l then
        some ("/".intercalate (l.drop tree.home.length), content)
      else none

/-- The files of the working directory that `later` has and the tree has not or
not with that content, and then those that `later` lacks, each part sorted. -/
def changes (tree later : FileTree) : List (String × Option (List UInt8)) :=
  let before := tree.homeFiles
  let after := later.homeFiles
  let sort (files : List (String × Option (List UInt8))) :=
    files.mergeSort fun a b => decide (a.1 ≤ b.1)
  sort ((after.filter fun (p, content) => before.lookup p != some content).map fun (p, c) =>
      (p, some c)) ++
    sort ((before.filter fun (p, _) => (after.lookup p).isNone).map fun (p, _) => (p, none))

/-- What stands in `later` and not, or not so, in the tree. -/
def updates (tree later : FileTree) : List (Location × Node) :=
  later.nodes.filter fun (l, node) => tree.nodes.lookup l != some node

end FileTree

/-- Why a text file could not be read or written. -/
inductive TextFileError where
  | file (error : FileError)
  | decode (error : Text.DecodeError)
  | encode (error : Text.EncodeError)
  | unknownEncoding (name : String)
  deriving Repr

/-- Whether the system was asked for the file and refused. -/
def TextFileError.isSystem : TextFileError → Bool
  | file e => e.isSystem
  | _ => false

/-- Whether the fault lies with the file that was read: the system refused it, or
its bytes are not a text. -/
def TextFileError.isUnreadable : TextFileError → Bool
  | file e => e.isSystem
  | decode _ => true
  | _ => false

/-- The message of a failed read or write. -/
def TextFileError.message : TextFileError → String
  | file e => e.message
  | decode e => e.message
  | encode e => e.message
  | unknownEncoding name => "unknown encoding: " ++ name

namespace FileTree

/-- The text of a file, decoded by `decoder`, with its line ends made newlines. -/
def readTextWith (tree : FileTree) (p : Path) (encoding : String)
    (decoder : Text.Encoding → List UInt8 → Except Text.DecodeError (List Char)) :
    Except TextFileError (List Char) :=
  match tree.read p with
  | .error e => .error (.file e)
  | .ok bytes =>
    match Text.Encoding.ofName? encoding with
    | none => .error (.unknownEncoding encoding)
    | some encoding =>
      match decoder encoding bytes with
      | .error e => .error (.decode e)
      | .ok text => .ok (Text.normalizeNewlines text)

/-- The text of a file that is decoded whole. -/
def readText (tree : FileTree) (p : Path) (encoding : String) : Except TextFileError (List Char) :=
  tree.readTextWith p encoding Text.decode

/-- The text of a file that is decoded as it is read. -/
def readTextStream (tree : FileTree) (p : Path) (encoding : String) :
    Except TextFileError (List Char) :=
  tree.readTextWith p encoding Text.decodeStream

end FileTree

end ProviderRegistry
