import Polyglot.Shell.Pattern
import Polyglot.Tool.Format

/-!
# Programs on text

Replacing characters, counting, and looking for lines.
-/

namespace Polyglot.Tool

open Shell

/-! ## Replacing characters -/

/-- The characters from one to another. -/
def charactersFrom (first last : Char) : Octets :=
  (List.range (last.toNat + 1 - first.toNat)).map fun offset => Char.ofNat (first.toNat + offset)

/-- The characters of a set, in order, for at most so many pieces of it. -/
def setMembers : (most : Nat) → Octets → Octets
  | 0, _ => []
  | most + 1, octets =>
    let member (octets : Octets) : Option (Char × Octets) :=
      match octets with
      | '\\' :: rest =>
        match readEscape {} rest with
        | (.character '\\', after) =>
          if after = rest then rest.head?.map fun character => (character, rest.drop 1)
          else some ('\\', after)
        | (.character character, after) => some (character, after)
        | (.finish, after) => some ('c', after)
      | character :: rest => some (character, rest)
      | [] => none
    match octets with
    | '[' :: ':' :: rest =>
      let name := rest.takeWhile (· ≠ ':')
      (classRanges (String.ofList name)).flatMap (fun (first, last) => charactersFrom first last)
        ++ setMembers most (rest.drop (name.length + 2))
    | octets =>
      match member octets with
      | none => []
      | some (first, '-' :: rest) =>
        match member rest with
        | some (last, rest) => charactersFrom first last ++ setMembers most rest
        | none => [first, '-']
      | some (first, rest) => first :: setMembers most rest

/-- Leaves one of several equal characters in a row, if it is in a set. -/
def squeeze (set : Octets) : Octets → Octets
  | first :: second :: rest =>
    if first = second && set.any (· = first) then squeeze set (second :: rest)
    else first :: squeeze set (second :: rest)
  | octets => octets

/-- Replaces, removes or squeezes characters. -/
def tr (call : Call) : Effect :=
  let (found, sets) := options [] call.arguments
  let members (set : Octets) : Octets := setMembers (set.length + 1) set
  let first := members (sets.head?.getD [])
  let second := members ((sets.drop 1).head?.getD [])
  let complement := hasOption found 'c' || hasOption found 'C'
  let inFirst (character : Char) : Bool := first.any (· = character) != complement
  let replace (character : Char) : Char :=
    if complement then
      if inFirst character then second.getLast?.getD character else character
    else
      match first.reverse.findIdx? (· = character) with
      | some fromEnd =>
        (second[first.length - 1 - fromEnd]?).getD (second.getLast?.getD character)
      | none => character
  let squeezes := hasOption found 's'
  let change (content : Octets) : Octets :=
    if hasOption found 'd' then
      let kept := content.filter (!inFirst ·)
      if squeezes then squeeze second kept else kept
    else if sets.length < 2 then
      if complement then squeeze (content.filter inFirst) content else squeeze first content
    else
      let replaced := content.map replace
      if squeezes then squeeze second replaced else replaced
  if sets.isEmpty then call.misuse 1 "missing operand".toList
  else call.filter id [] fun contents => (change (contents.flatMap (·.2)), 0)

/-! ## Counting -/

/-- The numbers from one to another by steps, at most so many of them. -/
def countFrom : (most : Nat) → (value step last : Int) → List Int
  | 0, _, _, _ => []
  | most + 1, value, step, last =>
    if (0 < step && last < value) || (step < 0 && value < last) || step = 0 then []
    else value :: countFrom most (value + step) step last

/-- Writes numbers, one to a line. -/
def seq (call : Call) : Effect :=
  let (separator, arguments) :=
    match call.arguments with
    | ['-', 's'] :: separator :: rest => (separator, rest)
    | ('-' :: 's' :: separator) :: rest => (separator, rest)
    | arguments => (['\n'], arguments)
  let (wide, arguments) :=
    match arguments with
    | ['-', 'w'] :: rest => (true, rest)
    | arguments => (false, arguments)
  match arguments.mapM Octets.toInt? with
  | none => call.fail 1 "invalid floating point argument".toList
  | some numbers =>
    let bounds : Option (Int × Int × Int) :=
      match numbers with
      | [last] => some (1, 1, last)
      | [first, last] => some (first, 1, last)
      | [first, step, last] => some (first, step, last)
      | _ => none
    match bounds with
    | none => call.misuse 1 "missing operand".toList
    | some (first, step, last) =>
      let values := countFrom ((last - first).natAbs + 1) first step last
      let texts := values.map Octets.ofInt
      let width := if wide then (texts.map List.length).foldl max 0 else 0
      let texts := texts.map fun text => List.replicate (width - text.length) '0' ++ text
      call.write (if texts.isEmpty then [] else List.intercalate separator texts ++ ['\n'])

/-! ## Looking for lines -/

/-- Looks for lines in which an expression matches. -/
def grep (call : Call) : Effect :=
  let (found, arguments) := options ['e', 'm'] call.arguments
  let given := (found.filter (·.1 = 'e')).map (·.2)
  let (given, files) :=
    if given.isEmpty then (arguments.take 1, arguments.drop 1) else (given, arguments)
  let patterns := given.flatMap (Octets.splitAt '\n')
  let style : RegexStyle :=
    { extended := hasOption found 'E', ignoreCase := hasOption found 'i' }
  let fold (line : Octets) : Octets :=
    if style.ignoreCase then line.map Char.toLower else line
  let matchesOne (pattern line : Octets) : Bool :=
    if hasOption found 'F' then
      if hasOption found 'x' then fold pattern = fold line
      else Octets.contains (fold pattern) (fold line)
    else
      let regex := parseRegex style pattern
      if hasOption found 'x' then
        (Regex.after .start (.after (.group 0 regex) .finish)).isIn line
      else if hasOption found 'w' then regex.isWordIn line
      else regex.isIn line
  let selects (line : Octets) : Bool :=
    patterns.any (matchesOne · line) != hasOption found 'v'
  let several := (files.length > 1 || hasOption found 'H') && !hasOption found 'h'
  let report (file : Octets) (lines : List Octets) : Octets :=
    let name := if file = ['-'] then "(standard input)".toList else file
    let lead : Octets := if several then name ++ [':'] else []
    let selected := (lines.zipIdx 1).filter fun (line, _) => selects line
    let selected := (option? found 'm').elim selected fun most =>
      selected.take ((Octets.toNat? most).getD 0)
    if hasOption found 'q' then []
    else if hasOption found 'l' then
      if selected.isEmpty then [] else Octets.unlines [name]
    else if hasOption found 'c' then
      Octets.unlines [lead ++ Octets.ofInt selected.length]
    else
      let lead (number : Nat) : Octets :=
        if hasOption found 'n' then lead ++ Octets.ofInt number ++ [':'] else lead
      let shown (line : Octets) : List Octets :=
        if hasOption found 'o' then
          patterns.flatMap fun pattern =>
            (parseRegex style pattern).matchesIn (line.length + 1) [] line
        else [line]
      Octets.unlines (selected.flatMap fun (line, number) =>
        (shown line).map (lead number ++ ·))
  let early :=
    match hasOption found 'q', option? found 'm' with
    | true, _ => (Octets.lines call.input).any selects
    | false, some most =>
      (Octets.toNat? most).getD 0 ≤ ((Octets.lines call.input).filter selects).length
    | false, none => false
  let call := if early then { call with ended := true } else call
  if patterns.isEmpty then
    { err := ("Usage: grep [OPTION]... PATTERNS [FILE]...\n" ++
        "Try 'grep --help' for more information.\n").toList
      status := some 2
      tree := call.tree }
  else
    let effect := call.filter id files fun contents =>
      let lines := contents.map fun (file, content) => (file, Octets.lines content)
      (lines.flatMap fun (file, lines) => report file lines,
        if lines.any fun (_, lines) => lines.any selects then 0 else 1)
    if effect.err.isEmpty then effect else { effect with status := some 2 }

end Polyglot.Tool
