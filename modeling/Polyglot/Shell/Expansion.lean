import Polyglot.Shell.Formula.Parser
import Polyglot.Shell.Machine
import Polyglot.Shell.Pattern

/-!
# Expansion of words

When a word is used, parameters, commands and sums in it are replaced by their
values.  What was not quoted is then cut into fields, and fields that are patterns
are replaced by the names of files that match.
-/

namespace Polyglot.Shell

open Polyglot.Shell.Action

/-- Characters, each with whether it was quoted. -/
abbrev Field := List (Char × Bool)

/-- A piece of an expanded word. -/
inductive Fragment where
  /-- Text that stays together. -/
  | text (text : Field)
  /-- A value that is cut at separators. -/
  | value (value : Octets)
  /-- The end of a field. -/
  | cut
  deriving Repr, DecidableEq

/-- Marks characters as quoted or not. -/
def mark (quoted : Bool) (octets : Octets) : Field :=
  octets.map fun character => (character, quoted)

/-- The characters of a field. -/
def Field.toOctets (field : Field) : Octets := field.map (·.1)

/-- A value in its place. -/
def Fragment.ofValue (quoted : Bool) (value : Octets) : Fragment :=
  if quoted then .text (mark true value) else .value value

/-- All of the text of fragments as one field. -/
def joinFragments (fragments : List Fragment) : Field :=
  fragments.flatMap fun
    | .text text => text
    | .value value => mark false value
    | .cut => [(' ', true)]

/-- Cuts fragments into fields. -/
def splitFragments (separators : Octets) (fragments : List Fragment) : List Field :=
  let isBlank (character : Char) : Bool := [' ', '\t', '\n'].contains character
  let finish (state : List Field × Option Field) : List Field × Option Field :=
    (state.2.elim state.1 fun field => state.1 ++ [field], none)
  let step (state : List Field × Option Field) : Fragment → List Field × Option Field
    | .text text => (state.1, some (state.2.getD [] ++ text))
    | .cut => finish state
    | .value value => value.foldl
        (fun state character =>
          if separators.any (· = character) then
            if isBlank character then finish state else (state.1 ++ [state.2.getD []], none)
          else (state.1, some (state.2.getD [] ++ [(character, false)])))
        state
  (finish (fragments.foldl step ([], none))).1

/-! ## Parameters -/

/-- The word that a text is, blanks and operators included, in at most so many pieces. -/
def wordOf (quoted : Bool) : (most : Nat) → Octets → Word
  | 0, _ => []
  | most + 1, octets =>
    if quoted then
      ((readQuoted (octets.length + 2) [] (octets ++ ['"'])).map (·.1.reverse)).getD []
    else
      match readWord (octets.length + 1) [] octets with
      | none => [.plain octets false]
      | some (word, []) => word
      | some (word, character :: rest) =>
        word ++ .plain [character] false :: wordOf quoted most rest

/-- The shortest or the longest beginning of a text that a pattern matches, by its
length. -/
def matchingLength? (pattern : List Piece) (longest : Bool) (part : Nat → Octets) (length : Nat) :
    Option Nat :=
  let lengths := List.range (length + 1)
  (if longest then lengths.reverse else lengths).find? fun length =>
    globMatches pattern (part length)

/-- A value without the part at its beginning or its end that a pattern matches. -/
def trimValue (operator : Octets) (pattern : List Piece) (value : Octets) : Octets :=
  let longest := operator.length = 2
  if operator.head? = some '#' then
    (matchingLength? pattern longest value.take value.length).elim value value.drop
  else
    (matchingLength? pattern longest (fun length => value.drop (value.length - length))
      value.length).elim value fun length => value.take (value.length - length)

/-- The operator that the rest of a parameter begins with, and what follows it. -/
def parameterOperator (rest : Octets) : Octets × Octets :=
  let operators := [":-", ":=", ":+", ":?", "-", "=", "+", "?", "##", "#", "%%", "%"].map
    (·.toList)
  match operators.find? (·.isPrefixOf rest) with
  | some operator => (operator, rest.drop operator.length)
  | none => ([], rest)

/-! ## Words -/

/-- How the parts of words are replaced, given how a script is run. -/
structure Expander where
  run : Command → Action Unit

namespace Expander

/-- The output of a script without the line feeds at its end. -/
def commandOutput (expander : Expander) (script : Octets) : Action Octets := do
  let some command := parseScript? script | reject "Syntax error"
  let (out, result) ← capture (isolate (expander.run command))
  conclude result
  return ((out.filter (· ≠ '\x00')).reverse.dropWhile (· = '\n')).reverse

/-- The fragments of a parameter without an operator. -/
def plainParameter (name : Octets) (quoted : Bool) : Action (List Fragment) := do
  let machine ← get
  match name with
  | ['@'] => return (machine.arguments.map (Fragment.ofValue quoted)).intersperse .cut
  | ['*'] =>
    if quoted then
      let separator := (machine.separators.take 1)
      return [.text (mark true (List.intercalate separator machine.arguments))]
    else return (machine.arguments.map .value).intersperse .cut
  | '#' :: measured =>
    if measured.isEmpty then
      return [.ofValue quoted (Octets.ofInt machine.arguments.length)]
    else
      let value := (machine.parameter? measured).getD []
      return [.ofValue quoted (Octets.ofInt value.length)]
  | name =>
    match machine.parameter? name with
    | some value => return [.ofValue quoted value]
    | none =>
      if machine.options.contains 'u' then reject s!"{Octets.toText name}: parameter not set"
      else return [.ofValue quoted []]

/-- The value of a formula; the variables get the values that it assigns to them. -/
def computeFormula (text : Octets) : Action Int := do
  let machine ← get
  let scope : Formula.Scope := { text := fun name => (machine.lookup? name).getD [] }
  match do (← Formula.parse text).evaluate scope with
  | .error fault => reject (fault.message text)
  | .ok (result, scope) =>
    modify fun machine =>
      scope.assigned.foldr (fun (name, value) machine =>
        machine.assign name (Octets.ofInt value.toInt)) machine
    return result.toInt

/-- The fragments of a word with at most so many words in one another. -/
def fragments (expander : Expander) : (depth : Nat) → Word → Action (List Fragment)
  | 0, _ => throw .endless
  | depth + 1, word =>
    match word with
    | [.plain [] true, .parameter ['@'] [] true] => plainParameter ['@'] true
    | word => do
      let pieces ← word.mapM fun part =>
        match part with
        | .plain text quoted => return [.text (mark quoted text)]
        | .command script quoted =>
          return [.ofValue quoted (← expander.commandOutput script)]
        | .arithmetic expression quoted => do
          let expression := joinFragments (← fragments expander depth (wordOf true 1 expression))
          return [.ofValue quoted (Octets.ofInt (← computeFormula expression.toOctets))]
        | .parameter name [] quoted => plainParameter name quoted
        | .parameter name rest quoted => do
          let (operator, text) := parameterOperator rest
          let isPattern := operator.head?.any ['%', '#'].contains
          let word := wordOf (quoted && !isPattern) (text.length + 1) text
          let machine ← get
          let value := machine.parameter? name
          let isSet :=
            if operator.head? = some ':' then value.any (!·.isEmpty) else value.isSome
          match operator.getLast? with
          | some '-' =>
            if isSet then plainParameter name quoted else fragments expander depth word
          | some '+' => if isSet then fragments expander depth word else return []
          | some '=' =>
            if isSet then plainParameter name quoted
            else
              let assigned := (joinFragments (← fragments expander depth word)).toOctets
              modify fun machine => machine.assign name assigned
              return [.ofValue quoted assigned]
          | some '?' =>
            if isSet then plainParameter name quoted
            else
              let reason := (joinFragments (← fragments expander depth word)).toOctets
              let reason := if reason.isEmpty then "parameter not set" else Octets.toText reason
              reject s!"{Octets.toText name}: {reason}"
          | some _ =>
            let pattern := joinFragments (← fragments expander depth word)
            return [.ofValue quoted
              (trimValue operator (pieces (pattern.length + 1) pattern) (value.getD []))]
          | none => reject "Bad substitution"
      return pieces.flatten

/-- How many words may stand in one another. -/
def wordDepth : Nat := 50

/-- The names of files that match a field, if it is a pattern and there are any. -/
def fileNames (machine : Machine) (field : Field) : List Octets :=
  let isPattern := field.any fun (character, quoted) =>
    !quoted && ['*', '?', '['].contains character
  if !isPattern then [field.toOctets]
  else
    let components := splitField field
    let found := components.zipIdx.foldl
      (fun (starts : List Octets) (component, index) =>
        starts.flatMap fun start =>
          let isLast := index + 1 = components.length
          let separator : Octets := if isLast then [] else ['/']
          if component.isEmpty then [start ++ separator]
          else
            let pattern := pieces (component.length + 1) component
            let hidden := (component.head?.map (·.1)) = some '.'
            let directory := Path.follow machine.directory start
            let names := (machine.tree.names directory).filter fun name =>
              globMatches pattern name && (hidden || name.head? ≠ some '.')
            let names := names.filter fun name =>
              isLast || machine.tree.isDirectory (directory ++ [name])
            names.map fun name => start ++ name ++ separator)
      [[]]
    if found.isEmpty then [field.toOctets] else found
where
  /-- The components of a field that names a place. -/
  splitField (field : Field) : List Field :=
    let (components, last) := field.foldl
      (fun (components, component) item =>
        if item.1 = '/' then (components ++ [component], [])
        else (components, component ++ [item]))
      (([] : List Field), ([] : Field))
    components ++ [last]

/-- The fields of words. -/
def fields (expander : Expander) (words : List Word) : Action (List Octets) := do
  let expanded ← words.mapM (expander.fragments wordDepth)
  let machine ← get
  return expanded.flatMap fun fragments =>
    (splitFragments machine.separators fragments).flatMap (fileNames machine)

/-- A word as one field that is not cut. -/
def field (expander : Expander) (word : Word) : Action Field := do
  return joinFragments (← expander.fragments wordDepth word)

end Expander

end Polyglot.Shell
