import Polyglot.Shell.Pattern
import Polyglot.Tool.Basic

/-!
# Editing lines

A script of editing commands is run on every line.  An address restricts a command
to some lines.
-/

namespace Polyglot.Tool

open Shell

/-- A line or lines of a text. -/
inductive Address where
  | line (number : Nat)
  | last
  | pattern (regex : Regex)
  deriving Repr, DecidableEq

/-- A piece of what a match is replaced by. -/
inductive Substitute where
  | text (character : Char)
  /-- What a group has matched; group 0 is the whole match. -/
  | group (number : Nat)
  deriving Repr, DecidableEq

/-- What an editing command does. -/
inductive Edit where
  /-- Replaces the match with a number, and those after it if `all` is set.  `shows`
  says whether a changed line is written at once. -/
  | substitute (regex : Regex) (replacement : List Substitute) (wanted : Nat) (all shows : Bool)
  | print
  | delete
  | quit
  | number
  | translate (source target : Octets)
  | append (text : Octets)
  | insert (text : Octets)
  | change (text : Octets)
  deriving Repr, DecidableEq

/-- An editing command with its addresses. -/
structure Rule where
  first : Option Address
  final : Option Address
  negated : Bool
  edit : Edit
  deriving Repr, DecidableEq

/-! ## Reading scripts -/

/-- Reads up to a delimiter; an escaped delimiter stands for itself. -/
def untilDelimiter (delimiter : Char) (done : Octets) : Octets → Option (Octets × Octets)
  | [] => none
  | '\\' :: character :: rest =>
    if character = delimiter then untilDelimiter delimiter (character :: done) rest
    else untilDelimiter delimiter (character :: '\\' :: done) rest
  | character :: rest =>
    if character = delimiter then some (done.reverse, rest)
    else untilDelimiter delimiter (character :: done) rest

/-- The pieces of a replacement. -/
def substitutes : Octets → List Substitute
  | [] => []
  | '\\' :: 'n' :: rest => .text '\n' :: substitutes rest
  | '\\' :: 't' :: rest => .text '\t' :: substitutes rest
  | '\\' :: character :: rest =>
    if character.isDigit then .group (character.toNat - '0'.toNat) :: substitutes rest
    else .text character :: substitutes rest
  | '&' :: rest => .group 0 :: substitutes rest
  | character :: rest => .text character :: substitutes rest

/-- Passes over blanks. -/
def skipBlanks (octets : Octets) : Octets :=
  octets.dropWhile fun character => character = ' ' || character = '\t'

/-- Reads an address. -/
def readAddress (style : RegexStyle) (octets : Octets) : Option (Address × Octets) :=
  match octets with
  | '$' :: rest => some (.last, rest)
  | '/' :: rest => do
    let (pattern, rest) ← untilDelimiter '/' [] rest
    return (.pattern (parseRegex style pattern), rest)
  | _ =>
    let digits := octets.takeWhile Char.isDigit
    (Octets.toNat? digits).map fun number => (.line number, octets.drop digits.length)

/-- Reads a substitution after its letter. -/
def readSubstitution (style : RegexStyle) (octets : Octets) : Option (Edit × Octets) := do
  let delimiter :: rest := octets | none
  let (pattern, rest) ← untilDelimiter delimiter [] rest
  let (replacement, rest) ← untilDelimiter delimiter [] rest
  let flags := rest.takeWhile fun character =>
    character.isDigit || ['g', 'p', 'i', 'I'].contains character
  let ignoreCase := flags.any fun flag => flag = 'i' || flag = 'I'
  let number := (Octets.toNat? (flags.filter Char.isDigit)).getD 1
  let regex := parseRegex { style with ignoreCase } pattern
  return (.substitute regex (substitutes replacement) number
    (flags.any (· = 'g')) (flags.any (· = 'p')), rest.drop flags.length)

/-- Reads a replacement of characters after its letter. -/
def readTranslation (octets : Octets) : Option (Edit × Octets) := do
  let delimiter :: rest := octets | none
  let (source, rest) ← untilDelimiter delimiter [] rest
  let (target, rest) ← untilDelimiter delimiter [] rest
  return (.translate source target, rest)

/-- Reads the text of a line that is put in, after the letter. -/
def readText (edit : Octets → Edit) (octets : Octets) : Edit × Octets :=
  let octets := skipBlanks octets
  let octets :=
    match octets with
    | '\\' :: '\n' :: rest => rest
    | '\\' :: rest => skipBlanks rest
    | octets => octets
  let text := octets.takeWhile (· ≠ '\n')
  (edit text, octets.drop text.length)

/-- Reads what a command does. -/
def readEdit (style : RegexStyle) (octets : Octets) : Option (Edit × Octets) :=
  match octets with
  | 's' :: rest => readSubstitution style rest
  | 'y' :: rest => readTranslation rest
  | 'p' :: rest => some (.print, rest)
  | 'd' :: rest => some (.delete, rest)
  | 'q' :: rest => some (.quit, rest)
  | '=' :: rest => some (.number, rest)
  | 'a' :: rest => some (readText .append rest)
  | 'i' :: rest => some (readText .insert rest)
  | 'c' :: rest => some (readText .change rest)
  | _ => none

/-- Reads a script of at most so many commands; none when it is not well formed. -/
def readRules (style : RegexStyle) : (most : Nat) → Octets → Option (List Rule)
  | 0, _ => none
  | most + 1, octets =>
    match octets with
    | [] => some []
    | ' ' :: rest | '\t' :: rest | ';' :: rest | '\n' :: rest => readRules style most rest
    | octets => do
      let (first, rest) :=
        match readAddress style octets with
        | some (address, rest) => (some address, skipBlanks rest)
        | none => (none, octets)
      let (final, rest) :=
        match first, rest with
        | some _, ',' :: after =>
          match readAddress style (skipBlanks after) with
          | some (address, rest) => (some address, skipBlanks rest)
          | none => (none, rest)
        | _, _ => (none, rest)
      let (negated, rest) :=
        match rest with
        | '!' :: rest => (true, skipBlanks rest)
        | rest => (false, rest)
      let (edit, rest) ← readEdit style rest
      let rest := skipBlanks rest
      if rest.isEmpty || rest.head? = some ';' || rest.head? = some '\n' then
        return ⟨first, final, negated, edit⟩ :: (← readRules style most rest)
      else none

/-! ## Running scripts -/

/-- What a replacement puts in the place of a match. -/
def fill (found : Match) (replacement : List Substitute) : Octets :=
  replacement.flatMap fun
    | .text character => [character]
    | .group 0 => found.matched
    | .group number => ((found.groups.find? (·.1 = number)).map (·.2)).getD []

/-- Replaces matches: the one with the number `wanted` and, if `all` is set, those
after it.  `count` is the number of the next match, `atEnd` says whether the last
match ended here, and `most` bounds the number of matches. -/
def substituteMatches (regex : Regex) (replacement : List Substitute) (wanted : Nat) (all : Bool) :
    (most : Nat) → (count : Nat) → (atEnd : Bool) → (passed rest : Octets) → Octets × Bool
  | 0, _, _, _, rest => (rest, false)
  | most + 1, count, atEnd, passed, rest =>
    match regex.find passed rest with
    | none => (rest, false)
    | some found =>
      let empty := found.matched.isEmpty
      if empty && found.before.isEmpty && atEnd then
        match rest with
        | [] => ([], false)
        | character :: after =>
          let (text, changed) :=
            substituteMatches regex replacement wanted all most count false
              (character :: passed) after
          (character :: text, changed)
      else
        let chosen := count = wanted || (all && wanted ≤ count)
        let text := if chosen then fill found replacement else found.matched
        let head := found.before ++ text
        let passed := (found.before ++ found.matched).reverse ++ passed
        if chosen && !all then (head ++ found.after, true)
        else if empty then
          match found.after with
          | [] => (head, chosen)
          | character :: after =>
            let (text, changed) := substituteMatches regex replacement wanted all most (count + 1)
              false (character :: passed) after
            (head ++ character :: text, chosen || changed)
        else
          let (text, changed) :=
            substituteMatches regex replacement wanted all most (count + 1) true passed found.after
          (head ++ text, chosen || changed)

/-- Where the editing of a text stands. -/
structure Editing where
  /-- What was written, the last piece first. -/
  written : List Octets := []
  /-- For each command whether it is inside its range. -/
  ranges : List Bool
  finished : Bool := false

/-- A line that is being edited. -/
structure EditedLine where
  text : Octets
  number : Nat
  isLast : Bool
  /-- What is written before the line, after it, and whether it is written itself. -/
  before : Octets := []
  after : Octets := []
  kept : Bool := true
  quits : Bool := false

/-- Whether an address means a line. -/
def Address.means (address : Address) (line : EditedLine) : Bool :=
  match address with
  | .line number => line.number = number
  | .last => line.isLast
  | .pattern regex => regex.isIn line.text

/-- Whether a command applies to a line, and whether its range goes on after it. -/
def Rule.applies (rule : Rule) (active : Bool) (line : EditedLine) : Bool × Bool :=
  match rule.first, rule.final with
  | none, _ => (true, false)
  | some first, none => (first.means line, false)
  | some first, some final =>
    if !active && !first.means line then (false, false)
    else
      match final with
      | .line number => (true, line.number < number)
      | _ => (true, !active || !final.means line)

/-- Does what a command says to a line. -/
def Edit.apply (edit : Edit) (line : EditedLine) : EditedLine :=
  match edit with
  | .substitute regex replacement wanted all shows =>
    let (text, changed) :=
      substituteMatches regex replacement wanted all (2 * line.text.length + 2) 1 false [] line.text
    if !changed then line
    else if shows then { line with text, before := line.before ++ text ++ ['\n'] }
    else { line with text }
  | .print => { line with before := line.before ++ line.text ++ ['\n'] }
  | .delete => { line with kept := false }
  | .quit => { line with quits := true }
  | .number => { line with before := line.before ++ Octets.ofInt line.number ++ ['\n'] }
  | .translate source target =>
    { line with
      text := line.text.map fun character =>
        ((source.findIdx? (· = character)).bind (target[·]?)).getD character }
  | .append text => { line with after := line.after ++ text ++ ['\n'] }
  | .insert text => { line with before := line.before ++ text ++ ['\n'] }
  | .change text => { line with before := line.before ++ text ++ ['\n'], kept := false }

/-- Runs the commands of a script on a line.  What follows a command that deletes the
line or quits is not run. -/
def applyRules : List Rule → List Bool → EditedLine → EditedLine × List Bool
  | rule :: rules, ranges, line =>
    let active := ranges.head?.getD false
    let (applies, goesOn) := rule.applies active line
    let line := if applies != rule.negated then rule.edit.apply line else line
    if !line.kept || line.quits then (line, goesOn :: ranges.drop 1)
    else
      let (line, rest) := applyRules rules (ranges.drop 1) line
      (line, goesOn :: rest)
  | [], ranges, line => (line, ranges)

/-- Runs a script on a text, of which more may come unless it has ended.  A last line
without a line feed stays without one.  The word says whether the script quit. -/
def editText (rules : List Rule) (quiet ended : Bool) (content : Octets) : Octets × Bool :=
  let lines := Octets.lines content
  let complete := content.getLast? = some '\n'
  let lines := if ended || complete then lines else lines.dropLast
  let final := (lines.zipIdx 1).foldl
    (fun editing (text, number) =>
      if editing.finished then editing
      else
        let isLast := ended && number = lines.length
        let (line, ranges) := applyRules rules editing.ranges { text, number, isLast }
        let ending : Octets := if isLast && !complete && line.after.isEmpty then [] else ['\n']
        let body := if line.kept && !quiet then line.text ++ ending else []
        let before :=
          if ending.isEmpty && body.isEmpty then line.before.dropLast else line.before
        { written := (before ++ body ++ line.after) :: editing.written
          ranges
          finished := line.quits })
    ({ ranges := rules.map fun _ => false } : Editing)
  (final.written.reverse.flatten, final.finished)

/-- Edits lines. -/
def sed (call : Call) : Effect :=
  let (found, arguments) := options ['e'] call.arguments
  let given := (found.filter (·.1 = 'e')).map (·.2)
  let (given, files) :=
    if given.isEmpty then (arguments.take 1, arguments.drop 1) else (given, arguments)
  let style : RegexStyle := { extended := hasOption found 'E' || hasOption found 'r' }
  let script := List.intercalate ['\n'] given
  match readRules style (script.length + 1) script with
  | none => call.fail 1 "unknown command".toList
  | some rules =>
    let quiet := hasOption found 'n'
    let quits := !call.ended && (editText rules quiet false call.input).2
    let missing (file : Octets) : Octets := "can't read ".toList ++ file
    let call := { call with ended := call.ended || quits }
    let effect := call.filter missing files fun contents =>
      ((editText rules quiet (!quits) (contents.flatMap (·.2))).1, 0)
    if effect.err.isEmpty then effect else { effect with status := some 2 }

end Polyglot.Tool
