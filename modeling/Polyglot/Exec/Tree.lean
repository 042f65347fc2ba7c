import Polyglot.Shell.Octets

/-!
# File trees

Commands run over a tree of directories, files and programs.  A path is known by
its components, so that two spellings of one place are the same path.
-/

namespace Polyglot

open Shell

/-- A place in a tree: the names on the way to it. -/
abbrev Path := List Octets

/-- What stands at a place. -/
inductive Node where
  | directory
  | file (content : Octets)
  /-- A program that can be run, by its name. -/
  | program (name : String)
  /-- The file that is always empty. -/
  | sink
  deriving Repr, DecidableEq

/-- A tree: what stands at each place, each place once. -/
abbrev Tree := List (Path × Node)

namespace Path

/-- One step of following a path. -/
def step (path : Path) (name : Octets) : Path :=
  if name = [] || name = ['.'] then path
  else if name = ['.', '.'] then path.dropLast
  else if path = [] && ["bin", "sbin", "lib"].any (·.toList = name) then ["usr".toList, name]
  else path ++ [name]

/-- The place that a text names, seen from a directory.  At the root, `bin`, `sbin` and
`lib` are other names of directories in `usr`. -/
def follow (directory : Path) (text : Octets) : Path :=
  let start := if text.head? = some '/' then [] else directory
  (Octets.splitAt '/' text).foldl step start

/-- The text that names a place from the root. -/
def toOctets (path : Path) : Octets :=
  if path.isEmpty then ['/'] else path.flatMap ('/' :: ·)

end Path

namespace Tree

/-- What stands at a place. -/
def node? (tree : Tree) (path : Path) : Option Node :=
  if path.isEmpty then some .directory else (tree.find? (·.1 = path)).map (·.2)

/-- Whether a place is a directory. -/
def isDirectory (tree : Tree) (path : Path) : Bool := tree.node? path = some .directory

/-- Puts something at a place. -/
def put (tree : Tree) (path : Path) (node : Node) : Tree :=
  tree.filter (·.1 ≠ path) ++ [(path, node)]

/-- Removes a place and what is below it. -/
def remove (tree : Tree) (path : Path) : Tree :=
  tree.filter fun (other, _) => !path.isPrefixOf other

/-- The content of a file. -/
def read? (tree : Tree) (path : Path) : Option Octets :=
  match tree.node? path with
  | some (.file content) => some content
  | some .sink => some []
  | _ => none

/-- Writes a file.  None when there is no directory for it or when a directory is in
the way. -/
def write? (tree : Tree) (path : Path) (content : Octets) : Option Tree :=
  match tree.node? path with
  | some .sink => some tree
  | some .directory => none
  | _ => if tree.isDirectory path.dropLast then some (tree.put path (.file content)) else none

/-- The names in a directory, in order. -/
def names (tree : Tree) (path : Path) : List Octets :=
  let below := tree.filterMap fun (other, _) =>
    if other.length = path.length + 1 && path.isPrefixOf other then other.getLast? else none
  below.mergeSort Octets.le

end Tree

/-- The programs that can be run. -/
def programNames : List String :=
  ["sh", "cp", "cat", "true", "printf", "sed", "grep", "tr", "head", "seq", "tail", "ls",
    "basename", "cksum"]

/-- The name of the shell's own file, of which `sh` is another name. -/
def shellFile : String := "dash"

/-- The directory of the programs. -/
def programDirectory : Path := ["usr".toList, "bin".toList]

/-- The tree that there always is. -/
def systemTree : Tree :=
  [(["usr".toList], .directory), (programDirectory, .directory),
    (["usr".toList, "lib".toList], .directory), (["usr".toList, "sbin".toList], .directory),
    (["usr".toList, "local".toList], .directory), (["usr".toList, "share".toList], .directory),
    (["dev".toList], .directory), (["etc".toList], .directory), (["home".toList], .directory),
    (["opt".toList], .directory), (["proc".toList], .directory), (["root".toList], .directory),
    (["run".toList], .directory), (["sys".toList], .directory), (["tmp".toList], .directory),
    (["var".toList], .directory), (["var".toList, "tmp".toList], .directory),
    (["etc".toList, "passwd".toList], .file []), (["dev".toList, "null".toList], .sink),
    (programDirectory ++ [shellFile.toList], .program "sh")]
    ++ programNames.map fun name => (programDirectory ++ [name.toList], .program name)

end Polyglot
