import Polyglot.Exec.Basic
import Polyglot.Toolchain.Executor

/-!
# Toolchains that are commands

One command makes an artifact of a source file and another runs it.  Both run in a
scratch directory that is made for one run and removed after it.
-/

namespace Polyglot.Toolchain

open Shell Text

/-- What a toolchain has found. -/
structure Found where
  /-- The programs with the files that they are. -/
  programs : List (String × String)
  libraries : List String
  deriving Repr, DecidableEq

/-- The commands of a toolchain. -/
structure CommandPair where
  compile : CompileSection
  run : RunSection
  /-- The directory in which scratch directories are made. -/
  workDir : Option String := none
  /-- What was found, once everything was. -/
  found : Option Found := none
  deriving Repr

namespace CommandPair

/-- What the commands need: their programs, unless these are placeholders, and the
libraries. -/
def artifacts (pair : CommandPair) : Artifacts :=
  let programs := [pair.compile.command, pair.run.command].filterMap List.head?
  { programs := (programs.filter fun program => !program.toList.contains '\x7b').eraseDups
    libraries := pair.compile.libraries }

/-- Looks for programs. -/
def findPrograms (programs : List String) : Except ToolchainError (List (String × String)) :=
  programs.mapM fun program =>
    match Exec.resolveCommand [program] with
    | .ok (file :: _) => .ok (program, file)
    | _ => .error (.missingProgram program)

/-- Looks for libraries. -/
def findLibraries (site : Exec.Site) (libraries : List String) :
    Except ToolchainError (List String) :=
  libraries.mapM fun library =>
    let path := Path.follow site.directory (octets library)
    if !library.isEmpty && (site.tree.node? path).isSome then
      .ok (Octets.toText (Exec.canonical path).toOctets)
    else .error (.missingLibrary library)

/-- Looks for what is needed, unless it was found before. -/
def prepare (site : Exec.Site) (pair : CommandPair) (artifacts : Artifacts) :
    CommandPair × Except ToolchainError Unit :=
  if pair.found.isSome then (pair, .ok ())
  else
    match findPrograms artifacts.programs, findLibraries site artifacts.libraries with
    | .error cause, _ | .ok _, .error cause => (pair, .error cause)
    | .ok programs, .ok libraries => ({ pair with found := some { programs, libraries } }, .ok ())

/-! ## Scratch directories -/

/-- The name of something in a directory; a name from the root stays as it is. -/
def joinName (directory name : String) : String :=
  if name.startsWith "/" then name
  else if directory.endsWith "/" then directory ++ name
  else directory ++ "/" ++ name

/-- Makes a directory and those on the way to it. -/
def makeDirectories (tree : Tree) (path : Path) : Option Tree :=
  (List.range (path.length + 1)).foldlM
    (fun (tree : Tree) length =>
      let path := path.take length
      match tree.node? path with
      | some .directory => some tree
      | some _ => none
      | none => some (tree.put path .directory))
    tree

/-- A scratch directory with the source file in it. -/
structure Scratch where
  /-- The text that names the directory. -/
  directory : String
  source : String
  output : String
  tree : Tree

/-- Makes a scratch directory and writes the source file. -/
def makeScratch (site : Exec.Site) (pair : CommandPair) (source : String) :
    Except ToolchainError Scratch := do
  let here := Octets.toText (Path.toOctets site.directory)
  let parent := joinName here (pair.workDir.getD systemScratch)
  let directory := joinName parent "runnr-scratch"
  let some tree := makeDirectories site.tree (Path.follow [] (octets directory))
    | .error (.io "Not a directory (os error 20)")
  let sourceFile := joinName directory pair.compile.sourceName
  let path := Path.follow [] (octets sourceFile)
  if tree.isDirectory path then .error (.io "Is a directory (os error 21)")
  match tree.write? path (octets source) with
  | none => .error (.io "No such file or directory (os error 2)")
  | some tree =>
    return { directory, source := sourceFile
             output := joinName directory pair.compile.outputName, tree }
where
  /-- The directory that the system has for scratch directories. -/
  systemScratch : String := "/tmp"

/-- What stands for placeholders in both commands. -/
def placeholders (scratch : Scratch) (libraries : List String) : List Placeholder :=
  [("\x7bsource\x7d", scratch.source), ("\x7boutput\x7d", scratch.output),
    ("\x7bbinary\x7d", scratch.output), ("\x7bdir\x7d", scratch.directory),
    ("\x7blibs\x7d", ":".intercalate ("." :: libraries))]

/-! ## Runs -/

/-- Runs a command in the scratch directory, without any input. -/
def runIn (found : Found) (directory : String) (tree : Tree) (command : List String)
    (env : Environment) : Except ToolchainError Exec.Trace :=
  match command with
  | [] => .error (.missingProgram "")
  | program :: arguments =>
    let name := ((found.programs.find? (·.1 = program)).map (·.2)).getD program
    let site : Exec.Site := { tree, directory := Path.follow [] (octets directory) }
    match Exec.start site name arguments env with
    | .error reason => .error (.io reason)
    | .ok job => .ok (job.trace [] true)

/-- Whether a text tells of a missing entry point. -/
def tellsOfEntry (pair : CommandPair) (text : String) : Bool :=
  pair.run.missingEntryMarkers.any fun marker =>
    Octets.contains (octets marker) (octets text)

/-- What a compiler that failed has said. -/
def complaint (trace : Exec.Trace) : String :=
  let stdout := trim (Octets.toText trace.out)
  let stderr := trim (Octets.toText trace.err)
  let said := [stdout, stderr].filter (!·.isEmpty)
  if said.isEmpty then s!"compiler exited with {trace.ending.toText}" else "\n".intercalate said

/-- What comes of a program that has ended. -/
def outputOf (pair : CommandPair) (trace : Exec.Trace) : Except ToolchainError Output :=
  let stderr := Octets.toText trace.err
  if !trace.ending.success && pair.tellsOfEntry stderr then
    .error (.missingEntryPoint (trim stderr))
  else
    .ok { stdout := Octets.toText trace.out, stderr, exitCode := trace.ending.code? }

/-- Compiles source text and runs the artifact; none when one of the two never ends. -/
def compileAndRun (site : Exec.Site) (pair : CommandPair) (source : String) :
    Except ToolchainError (Option Output) := do
  let some found := pair.found | .error .notInitialized
  let scratch ← pair.makeScratch site source
  if found.libraries.any (·.toList.contains ':') then
    .error (.io "path segment contains separator \x60:\x60")
  let placeholders := placeholders scratch found.libraries
  let compiled ← runIn found scratch.directory scratch.tree
    (expandCommand placeholders pair.compile.command) pair.compile.env
  if compiled.ending = .waiting then return none
  if !compiled.ending.success then
    let details := complaint compiled
    .error (if pair.tellsOfEntry details then .missingEntryPoint details else .compile details)
  if (compiled.tree.node? (Path.follow [] (octets scratch.output))).isNone then
    .error (.compile s!"compiler produced no {pair.compile.outputName}")
  let ran ← runIn found scratch.directory compiled.tree
    (expandCommand placeholders pair.run.command) pair.run.env
  if ran.ending = .waiting then return none
  return some (← pair.outputOf ran)

end CommandPair

end Polyglot.Toolchain
