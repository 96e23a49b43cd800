import SpirvInspector.Host.Path
import SpirvInspector.Host.Status

/-!
# File trees

The files that a program can see, as a value: relative names with contents. The directories in a
name exist with it. A path that leaves the tree leads to no file, not even back into the tree.
-/

set_option autoImplicit false

namespace SpirvInspector

namespace Host

/-- What a path leads to. -/
inductive Node
  | file (contents : Bytes)
  | directory
  /-- A regular file that cannot be opened. -/
  | locked (number : ErrorNumber)
  | absent (number : ErrorNumber)
deriving DecidableEq

namespace Node

/-- Only regular files count as files. -/
def isFile : Node → Bool
  | file _ => true
  | locked _ => true
  | _ => false

/-- The contents of a file, or the status of opening it. -/
def read (node : Node) (path : Bytes) : Except Status Bytes :=
  let refused (number : ErrorNumber) : Status := ⟨path, some ⟨ascii "open", number⟩, none⟩
  match node with
  | file contents => .ok contents
  | directory => .ok []
  | locked number => .error (refused number)
  | absent number => .error (refused number)

end Node

structure FileTree where
  /-- The contents of each file, under the names on the path to it. -/
  files : List (List Bytes × Bytes)

namespace FileTree

def ofPaths (files : List (Bytes × Bytes)) : FileTree :=
  ⟨files.map fun (path, contents) =>
    ((splitPath path).filter fun name => !staysHere name, contents)⟩

/-- The contents of the file with these names on its path. -/
def file? (tree : FileTree) (names : List Bytes) : Option Bytes :=
  tree.files.lookup names

/-- Whether a file lies below these names. -/
def isDirectory (tree : FileTree) (names : List Bytes) : Bool :=
  names.isEmpty ||
    tree.files.any fun (path, _) =>
      decide (names.length < path.length) && names.isPrefixOf path

/-- Goes on above the tree, where there are directories on the way up and nothing known by name. -/
def walkAbove : List Bytes → Node
  | [] => .directory
  | name :: later =>
    if staysHere name ∨ name = ascii ".." then walkAbove later
    else .absent ErrorNumber.noEntry

/-- Goes on from a directory, given by the names on the way to it, in reverse. -/
def walk (tree : FileTree) (reached : List Bytes) : List Bytes → Node
  | [] => .directory
  | name :: later =>
    if staysHere name then tree.walk reached later
    else if name = ascii ".." then
      match reached with
      | [] => walkAbove later
      | _ :: outer => tree.walk outer later
    else
      let names := (name :: reached).reverse
      match tree.file? names with
      | some contents =>
        if later.isEmpty then .file contents else .absent ErrorNumber.notDirectory
      | none =>
        if tree.isDirectory names then tree.walk (name :: reached) later
        else .absent ErrorNumber.noEntry

/-- What a relative path leads to. -/
def look (tree : FileTree) (path : Bytes) : Node :=
  if path.isEmpty then .absent ErrorNumber.noEntry else tree.walk [] (splitPath path)

end FileTree

end Host

end SpirvInspector
