import Polyglot.Tool.Basic

/-!
# Programs on files

Copying, listing and naming files, and passing on what they hold or a part of it.
-/

namespace Polyglot.Tool

open Shell

/-- Passes its input on as it comes, or the contents of files. -/
def cat (call : Call) : Effect :=
  let files := (options [] call.arguments).2
  let (contents, complaints) := call.readAll id files
  { out := contents.flatMap (·.2)
    err := complaints
    status :=
      if Call.readsInput files && !call.ended then none
      else some (if complaints.isEmpty then 0 else 1)
    readsInput := Call.readsInput files
    tree := call.tree }

/-- The last component of a text that names a place. -/
def lastComponent (text : Octets) : Octets :=
  match ((Octets.splitAt '/' text).filter (· ≠ [])).getLast? with
  | some name => name
  | none => if text.isEmpty then [] else ['/']

/-- Copies a file to a place or into a directory. -/
def copyFile (call : Call) (source target : Octets) : Except Octets Tree :=
  let quote (text : Octets) : Octets := '\'' :: text ++ ['\'']
  let place := call.path target
  let place := if call.tree.isDirectory place then place ++ [lastComponent source] else place
  match call.tree.node? (call.path source) with
  | none => .error ("cannot stat ".toList ++ quote source ++ ": No such file or directory".toList)
  | some .directory =>
    .error ("-r not specified; omitting directory ".toList ++ quote source)
  | some node =>
    let node := if node = .sink then .file [] else node
    if call.tree.node? place = some .sink then .ok call.tree
    else if place = call.path source then
      .error (quote source ++ " and ".toList ++ quote target ++ " are the same file".toList)
    else if call.tree.isDirectory place.dropLast then .ok (call.tree.put place node)
    else
      .error ("cannot create regular file ".toList ++ quote target
        ++ ": No such file or directory".toList)

/-- Copies files. -/
def cp (call : Call) : Effect :=
  match (options [] call.arguments).2 with
  | [] => call.misuse 1 "missing file operand".toList
  | [source] =>
    call.misuse 1 ("missing destination file operand after '".toList ++ source ++ ['\''])
  | files =>
    let target := files.getLast?.getD []
    files.dropLast.foldl
      (fun effect source =>
        let call := { call with tree := effect.tree }
        match copyFile call source target with
        | .ok tree => { effect with tree }
        | .error complaint =>
          let failed := call.fail 1 complaint
          { effect with err := effect.err ++ failed.err, status := some 1 })
      call.done

/-- Writes the last component of a name, without a suffix if one is given. -/
def basename (call : Call) : Effect :=
  let (found, names) := options ['s'] call.arguments
  let strip (suffix name : Octets) : Octets :=
    let base := lastComponent name
    if suffix ≠ base && suffix.isSuffixOf base then base.take (base.length - suffix.length)
    else base
  match names with
  | [] => call.misuse 1 "missing operand".toList
  | name :: rest =>
    if hasOption found 'a' || hasOption found 's' then
      call.write (Octets.unlines (names.map (strip ((option? found 's').getD []))))
    else call.write (Octets.unlines [strip ((rest.head?).getD []) name])

/-- Lists files and what is in directories, one name to a line. -/
def ls (call : Call) : Effect :=
  let (found, arguments) := options [] call.arguments
  let arguments := if arguments.isEmpty then [['.']] else arguments
  let sorted := arguments.mergeSort Octets.le
  let isDirectory (argument : Octets) : Bool :=
    call.tree.isDirectory (call.path argument) && !hasOption found 'd'
  let exists? (argument : Octets) : Bool := (call.tree.node? (call.path argument)).isSome
  let names (argument : Octets) : List Octets :=
    let names := call.tree.names (call.path argument)
    if hasOption found 'a' then [['.'], ['.', '.']] ++ names
    else if hasOption found 'A' then names
    else names.filter (·.head? ≠ some '.')
  let missing := sorted.filter (!exists? ·)
  let files := sorted.filter fun argument => exists? argument && !isDirectory argument
  let directories := sorted.filter isDirectory
  let listing (argument : Octets) : Octets :=
    if arguments.length ≤ 1 then Octets.unlines (names argument)
    else argument ++ ":\n".toList ++ Octets.unlines (names argument)
  let blocks := directories.map listing
  let blocks := if files.isEmpty then blocks else Octets.unlines files :: blocks
  { out := List.intercalate ['\n'] blocks
    err := missing.flatMap fun argument =>
      (call.fail 2 ("cannot access '".toList ++ argument
        ++ "': No such file or directory".toList)).err
    status := some (if missing.isEmpty then 0 else 2)
    tree := call.tree }

/-- The first or the last part of something, as an option of the programs for them
says it. -/
structure Extent where
  /-- Whether bytes are counted and not lines. -/
  bytes : Bool := false
  /-- Whether the number is that of the first one, or of those to leave out. -/
  signed : Option Char := none
  count : Nat := 10
  deriving Repr, DecidableEq

/-- The extent that options say; the first one may be of the old form. -/
def extentOf (arguments : List Octets) : Extent × List Octets × Bool :=
  let modern :=
    match arguments with
    | ('-' :: digits) :: rest =>
      if (Octets.toNat? digits).isSome then ('-' :: 'n' :: digits) :: rest else arguments
    | _ => arguments
  let (found, files) := options ['n', 'c'] modern
  let read (bytes : Bool) (value : Octets) : Extent :=
    match value with
    | '+' :: digits => ⟨bytes, some '+', (Octets.toNat? digits).getD 0⟩
    | '-' :: digits => ⟨bytes, some '-', (Octets.toNat? digits).getD 0⟩
    | digits => ⟨bytes, none, (Octets.toNat? digits).getD 0⟩
  let extent :=
    match option? found 'c', option? found 'n' with
    | some value, _ => read true value
    | none, some value => read false value
    | none, none => {}
  (extent, files, hasOption found 'q')

/-- The items that an extent counts. -/
def Extent.items (extent : Extent) (content : Octets) : List Octets :=
  if extent.bytes then content.map ([·])
  else
    let (lines, last) := content.foldl
      (fun (lines, line) character =>
        if character = '\n' then (('\n' :: line).reverse :: lines, [])
        else (lines, character :: line))
      (([] : List Octets), ([] : Octets))
    (if last.isEmpty then lines else last.reverse :: lines).reverse

/-- The contents of several files, each under its name. -/
def withHeaders (quiet : Bool) (part : Octets → Octets) (contents : List (Octets × Octets)) :
    Octets :=
  match contents with
  | [(_, content)] => part content
  | _ =>
    if quiet then contents.flatMap fun (_, content) => part content
    else List.intercalate ['\n'] (contents.map fun (file, content) =>
      "==> ".toList ++ file ++ " <==\n".toList ++ part content)

/-- How a file that cannot be opened is spoken of. -/
def cannotOpen (file : Octets) : Octets :=
  "cannot open '".toList ++ file ++ "' for reading".toList

/-- Passes the first part of its input on.  It does not wait for more than that. -/
def head (call : Call) : Effect :=
  let (extent, files, quiet) := extentOf call.arguments
  let part (content : Octets) : Octets :=
    let items := extent.items content
    (if extent.signed = some '-' then items.take (items.length - extent.count)
      else items.take extent.count).flatten
  let complete := extent.signed ≠ some '-' && extent.count ≤ (extent.items call.input).length
  let call := if complete then { call with ended := true } else call
  call.filter cannotOpen files fun contents => (withHeaders quiet part contents, 0)

/-- Passes the last part of its input on. -/
def tail (call : Call) : Effect :=
  let (extent, files, quiet) := extentOf call.arguments
  let part (content : Octets) : Octets :=
    let items := extent.items content
    (if extent.signed = some '+' then items.drop (extent.count - 1)
      else items.drop (items.length - extent.count)).flatten
  call.filter cannotOpen files fun contents => (withHeaders quiet part contents, 0)

/-- One step of a cyclic redundancy check with the polynomial 04C11DB7. -/
def checkByte (check : UInt32) (byte : UInt8) : UInt32 :=
  (List.range 8).foldl
    (fun check _ =>
      if check &&& 0x80000000 = 0 then check <<< 1 else (check <<< 1) ^^^ 0x04C11DB7)
    (check ^^^ (byte.toUInt32 <<< 24))

/-- The bytes of a number, the lowest first, without zeros at the end; at most
`most` of them. -/
def lowBytes : (most : Nat) → Nat → List UInt8
  | 0, _ => []
  | most + 1, value =>
    if value = 0 then [] else UInt8.ofNat value :: lowBytes most (value / 256)

/-- The check sum of bytes, into which their number enters. -/
def checkSum (bytes : Text.Bytes) : UInt32 :=
  ~~~((bytes ++ lowBytes 8 bytes.length).foldl checkByte 0)

/-- Writes check sums and sizes. -/
def cksum (call : Call) : Effect :=
  let files := (options [] call.arguments).2
  call.filter id files fun contents =>
    (Octets.unlines (contents.map fun (file, content) =>
      let sum := s!"{checkSum (Octets.toBytes content)} {content.length}".toList
      if files.isEmpty then sum else sum ++ ' ' :: file), 0)

end Polyglot.Tool
