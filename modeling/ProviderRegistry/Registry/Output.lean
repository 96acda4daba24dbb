import ProviderRegistry.FileTree
import ProviderRegistry.Settings

/-!
# Outputs

Where registry files and generated modules go. Registry files stand below one
root and may be written again and again; generated modules stand below
another, and an output creates each only once. A module counts as created once
its file could be opened, whether or not the text could then be encoded.
-/

namespace ProviderRegistry.Registry

/-- The two roots, and the modules created so far. -/
structure Output where
  classOutput : Path
  sourceOutput : Path
  servicesDir : String
  encoding : String
  /-- The full names of the modules created, in the order of their creation. -/
  created : List String := []
  deriving Repr

/-- Why an output did not write. -/
inductive OutputError where
  /-- The module has been created before. -/
  | recreated (module : String)
  | text (error : TextFileError)
  deriving Repr

namespace OutputError

/-- The message of a refusal. -/
def message : OutputError → String
  | recreated module => "Attempt to recreate a file for module " ++ module
  | text e => e.message

end OutputError

namespace Output

/-- An output with its settings, which an empty text leaves at their defaults. -/
def new (settings : Settings) (classOutput sourceOutput : Path)
    (servicesDir encoding : Option String := none) : Output where
  classOutput
  sourceOutput
  servicesDir := Settings.orDefault servicesDir settings.servicesDir
  encoding := Settings.orDefault encoding settings.encoding

/-- The registry file of a contract, relative to the class output. -/
def registryFile (output : Output) (contractName : String) : String :=
  Naming.registryFile contractName output.servicesDir

/-- The path of a resource. -/
def resourcePath (output : Output) (name : String) : Path := output.classOutput.child name

/-- The path of a module: every component of its package is a directory. -/
def modulePath (output : Output) (package module : String) : Path :=
  let directory := if package.isEmpty then output.sourceOutput
    else (dottedParts package).foldl Path.child output.sourceOutput
  directory.child (module ++ ".py")

/-- The text of a resource. -/
def readResource (output : Output) (tree : FileTree) (name : String) :
    Except TextFileError (List Char) :=
  tree.readTextStream (output.resourcePath name) output.encoding

/-- Opens a file for writing, which empties it, and then writes a text to it,
which fails if the encoding lacks one of its characters. The first outcome is
whether the file could be opened. -/
def openAndWrite (tree : FileTree) (path : Path) (encoding : String) (text : List Char) :
    Bool × FileTree × Except TextFileError Unit :=
  match tree.openForWriting path with
  | (tree, .error e) => (false, tree, .error (.file e))
  | (opened, .ok ()) =>
    match Text.Encoding.ofName? encoding with
    | none => (false, opened, .error (.unknownEncoding encoding))
    | some encoding =>
      match Text.encode encoding text with
      | .error e => (true, opened, .error (.encode e))
      | .ok bytes =>
        match opened.write path bytes with
        | .error e => (true, opened, .error (.file e))
        | .ok written => (true, written, .ok ())

/-- Writes a resource in place of its previous content. -/
def writeResource (output : Output) (tree : FileTree) (name : String) (text : List Char) :
    FileTree × Except TextFileError Unit :=
  (openAndWrite tree (output.resourcePath name) output.encoding text).2

/-- Writes a module that this output has not created before. -/
def writeModule (output : Output) (tree : FileTree) (package module : String)
    (text : List Char) : Output × FileTree × Except OutputError Unit :=
  let name := qualify package module
  if output.created.contains name then (output, tree, .error (.recreated name))
  else
    match openAndWrite tree (output.modulePath package module) output.encoding text with
    | (opened, tree, result) =>
      (if opened then { output with created := output.created ++ [name] } else output, tree,
        result.mapError .text)

end Output

end ProviderRegistry.Registry
