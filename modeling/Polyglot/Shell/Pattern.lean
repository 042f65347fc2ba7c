import Polyglot.Shell.Octets

/-!
# Patterns

Two kinds of patterns: those that scripts match whole texts and file names with,
and regular expressions, which are looked for inside of lines.
-/

namespace Polyglot.Shell

/-- A set of characters: ranges, or everything outside of them. -/
structure CharacterSet where
  negated : Bool
  ranges : List (Char × Char)
  deriving Repr, DecidableEq

/-- Whether a set has a character. -/
def CharacterSet.has (set : CharacterSet) (character : Char) : Bool :=
  set.ranges.any (fun (first, last) => first ≤ character && character ≤ last) != set.negated

/-- The ranges of the classes of characters. -/
def classRanges : String → List (Char × Char)
  | "upper" => [('A', 'Z')]
  | "lower" => [('a', 'z')]
  | "alpha" => [('A', 'Z'), ('a', 'z')]
  | "digit" => [('0', '9')]
  | "alnum" => [('A', 'Z'), ('a', 'z'), ('0', '9')]
  | "space" => [('\t', '\r'), (' ', ' ')]
  | "blank" => [('\t', '\t'), (' ', ' ')]
  | "punct" => [('!', '/'), (':', '@'), ('[', '\x60'), ('\x7b', '~')]
  | "xdigit" => [('0', '9'), ('A', 'F'), ('a', 'f')]
  | _ => []

/-- Reads the members of a set up to its end; `first` says whether a closing
bracket would be a member. -/
def readMembers : (first : Bool) → List (Char × Char) → Octets →
    Option (List (Char × Char) × Octets)
  | _, _, [] => none
  | _, done, '[' :: ':' :: rest =>
    let name := rest.takeWhile (· ≠ ':')
    match rest.drop name.length with
    | ':' :: ']' :: after =>
      if after.length < rest.length then
        readMembers false (done ++ classRanges (String.ofList name)) after
      else none
    | _ => none
  | first, done, character :: '-' :: last :: rest =>
    if character = ']' && !first then some (done, '-' :: last :: rest)
    else if last = ']' then some (done ++ [(character, character), ('-', '-')], rest)
    else readMembers false (done ++ [(character, last)]) rest
  | first, done, character :: rest =>
    if character = ']' && !first then some (done, rest)
    else readMembers false (done ++ [(character, character)]) rest
termination_by _ _ octets => octets.length

/-- Reads a set after its opening bracket. -/
def readSet (octets : Octets) : Option (CharacterSet × Octets) :=
  let (negated, octets) :=
    match octets with
    | '^' :: rest | '!' :: rest => (true, rest)
    | _ => (false, octets)
  (readMembers true [] octets).map fun (ranges, rest) => (⟨negated, ranges⟩, rest)

/-! ## Patterns of scripts -/

/-- A piece of a pattern. -/
inductive Piece where
  | literal (character : Char)
  /-- Any one character. -/
  | any
  /-- Any characters. -/
  | anyRun
  | set (set : CharacterSet)
  deriving Repr, DecidableEq

/-- The pieces of a pattern; what is quoted stands for itself. -/
def pieces : (most : Nat) → List (Char × Bool) → List Piece
  | 0, _ => []
  | _, [] => []
  | most + 1, (character, quoted) :: rest =>
    if quoted then .literal character :: pieces most rest
    else
      match character with
      | '*' => .anyRun :: pieces most rest
      | '?' => .any :: pieces most rest
      | '[' =>
        match readSet (rest.map (·.1)) with
        | some (set, after) => .set set :: pieces most (rest.drop (rest.length - after.length))
        | none => .literal '[' :: pieces most rest
      | _ => .literal character :: pieces most rest

/-- Whether a pattern matches a whole text. -/
def globMatches : List Piece → Octets → Bool
  | [], text => text.isEmpty
  | .anyRun :: rest, [] => globMatches rest []
  | .anyRun :: rest, character :: text =>
    globMatches rest (character :: text) || globMatches (.anyRun :: rest) text
  | .literal expected :: rest, character :: text => character = expected && globMatches rest text
  | .any :: rest, _ :: text => globMatches rest text
  | .set set :: rest, character :: text => set.has character && globMatches rest text
  | _ :: _, [] => false
termination_by pieces text => (pieces.length + text.length)

/-! ## Regular expressions -/

/-- A regular expression. -/
inductive Regex where
  | empty
  | literal (character : Char)
  | any
  | set (set : CharacterSet)
  /-- The beginning of a line. -/
  | start
  /-- The end of a line. -/
  | finish
  | group (number : Nat) (body : Regex)
  /-- What a group has matched. -/
  | again (number : Nat)
  | after (first second : Regex)
  | either (left right : Regex)
  /-- At least `least` times, and at most `most` times if that is limited. -/
  | times (body : Regex) (least : Nat) (most : Option Nat)
  deriving Repr, DecidableEq

/-- How regular expressions are written. -/
structure RegexStyle where
  /-- Whether the signs of the extended form stand without a backslash. -/
  extended : Bool := false
  ignoreCase : Bool := false
  deriving Repr, DecidableEq

/-- A sign of a regular expression: one that means something, or a character that
stands for itself. -/
inductive Sign where
  | opening
  | closing
  | bar
  | plus
  | question
  | star
  | brace
  | dot
  | caret
  | dollar
  | bracket
  | again (number : Nat)
  | character (character : Char)
  deriving Repr, DecidableEq

/-- The sign that a text begins with. -/
def sign? (style : RegexStyle) : Octets → Option (Sign × Octets)
  | [] => none
  | '\\' :: character :: rest =>
    let sign : Sign :=
      match character with
      | 'n' => .character '\n'
      | 't' => .character '\t'
      | '(' => if style.extended then .character '(' else .opening
      | ')' => if style.extended then .character ')' else .closing
      | '|' => if style.extended then .character '|' else .bar
      | '+' => if style.extended then .character '+' else .plus
      | '?' => if style.extended then .character '?' else .question
      | '\x7b' => if style.extended then .character '\x7b' else .brace
      | _ =>
        if character.isDigit && character ≠ '0' then .again (character.toNat - '0'.toNat)
        else .character character
    some (sign, rest)
  | character :: rest =>
    let sign : Sign :=
      match character with
      | '*' => .star
      | '.' => .dot
      | '^' => .caret
      | '$' => .dollar
      | '[' => .bracket
      | '(' => if style.extended then .opening else .character '('
      | ')' => if style.extended then .closing else .character ')'
      | '|' => if style.extended then .bar else .character '|'
      | '+' => if style.extended then .plus else .character '+'
      | '?' => if style.extended then .question else .character '?'
      | '\x7b' => if style.extended then .brace else .character '\x7b'
      | _ => .character character
    some (sign, rest)

/-- The expression that a character stands for. -/
def literal (style : RegexStyle) (character : Char) : Regex :=
  if style.ignoreCase && character.isAlpha then
    let (lower, upper) := (character.toLower, character.toUpper)
    .set ⟨false, [(lower, lower), (upper, upper)]⟩
  else .literal character

/-- Reads how often an expression is repeated, after the opening brace. -/
def readBounds (style : RegexStyle) (octets : Octets) : Option ((Nat × Option Nat) × Octets) := do
  let least := octets.takeWhile Char.isDigit
  let rest := octets.drop least.length
  let (most, rest) :=
    match rest with
    | ',' :: rest =>
      let digits := rest.takeWhile Char.isDigit
      (Octets.toNat? digits, rest.drop digits.length)
    | _ => (Octets.toNat? least, rest)
  let rest ←
    match style.extended, rest with
    | true, '\x7d' :: rest | false, '\\' :: '\x7d' :: rest => some rest
    | _, _ => none
  return (((Octets.toNat? least).getD 0, most), rest)

/-- Repeats the last part of an expression as the signs after it say. -/
def repeated (style : RegexStyle) : (most : Nat) → Regex → Octets → Regex × Octets
  | 0, body, octets => (body, octets)
  | most + 1, body, octets =>
    match sign? style octets with
    | some (.star, rest) => repeated style most (.times body 0 none) rest
    | some (.plus, rest) => repeated style most (.times body 1 none) rest
    | some (.question, rest) => repeated style most (.times body 0 (some 1)) rest
    | some (.brace, rest) =>
      match readBounds style rest with
      | some ((least, limit), rest) => repeated style most (.times body least limit) rest
      | none => (body, octets)
    | _ => (body, octets)

/-- Reads an expression, at most so many signs of it: `whole` is what was read of
all choices, `done` of the present one, and `groups` the number of groups that
were opened. -/
def readRegex (style : RegexStyle) : (most : Nat) → (groups : Nat) → (whole : Option Regex) →
    (done : Regex) → Octets → Regex × Nat × Octets
  | 0, groups, whole, done, octets => (whole.elim done (.either · done), groups, octets)
  | most + 1, groups, whole, done, octets =>
    let close : Regex := whole.elim done (.either · done)
    let add (groups : Nat) (part : Regex) (octets : Octets) : Regex × Nat × Octets :=
      let (part, octets) := repeated style octets.length part octets
      readRegex style most groups whole (if done = .empty then part else .after done part) octets
    match sign? style octets with
    | none => (close, groups, octets)
    | some (.closing, rest) => (close, groups, rest)
    | some (.bar, rest) => readRegex style most groups (some close) .empty rest
    | some (.opening, rest) =>
      let number := groups + 1
      let (body, groups, rest) := readRegex style most number none .empty rest
      add groups (.group number body) rest
    | some (.dot, rest) => add groups .any rest
    | some (.caret, rest) =>
      if style.extended || done = .empty then
        let started := if done = .empty then .start else .after done .start
        readRegex style most groups whole started rest
      else add groups (.literal '^') rest
    | some (.dollar, rest) =>
      let ends := rest.isEmpty
        || (match sign? style rest with
            | some (.closing, _) | some (.bar, _) => true
            | _ => false)
      if style.extended || ends then add groups .finish rest else add groups (.literal '$') rest
    | some (.bracket, rest) =>
      match readSet rest with
      | some (set, rest) => add groups (.set set) rest
      | none => add groups (.literal '[') rest
    | some (.again number, rest) => add groups (.again number) rest
    | some (.character character, rest) => add groups (literal style character) rest
    | some (.star, rest) => add groups (.literal '*') rest
    | some (.plus, rest) => add groups (.literal '+') rest
    | some (.question, rest) => add groups (.literal '?') rest
    | some (.brace, rest) => add groups (.literal '\x7b') rest

/-- The regular expression that a text is. -/
def parseRegex (style : RegexStyle) (octets : Octets) : Regex :=
  (readRegex style (octets.length + 1) 0 none .empty octets).1

/-- A place in a line, and what the groups have matched before it. -/
structure Spot where
  /-- What was passed, the last character first. -/
  passed : Octets
  rest : Octets
  groups : List (Nat × Octets) := []
  deriving Repr, DecidableEq

/-- Passes one character that meets a condition. -/
def Spot.pass (spot : Spot) (accept : Char → Bool) : Option Spot :=
  match spot.rest with
  | character :: rest =>
    if accept character then some { spot with passed := character :: spot.passed, rest } else none
  | [] => none

/-- What has been passed between two spots. -/
def Spot.between (first last : Spot) : Octets :=
  (last.passed.take (last.passed.length - first.passed.length)).reverse

/-- Looks for a way in which an expression matches at a spot such that what follows
matches too, taking as much as possible, with at most so many steps in one
another. -/
def matchRegex : (steps : Nat) → Regex → Spot → (Spot → Option Spot) → Option Spot
  | 0, _, _, _ => none
  | steps + 1, regex, spot, next =>
    match regex with
    | .empty => next spot
    | .literal expected => (spot.pass (· = expected)).bind next
    | .any => (spot.pass fun _ => true).bind next
    | .set set => (spot.pass set.has).bind next
    | .start => if spot.passed.isEmpty then next spot else none
    | .finish => if spot.rest.isEmpty then next spot else none
    | .group number body =>
      matchRegex steps body spot fun after =>
        next { after with groups := (number, spot.between after) :: after.groups }
    | .again number =>
      let text := ((spot.groups.find? (·.1 = number)).map (·.2)).getD []
      if text.isPrefixOf spot.rest then
        next { spot with
          passed := text.reverse ++ spot.passed, rest := spot.rest.drop text.length }
      else none
    | .after first second =>
      matchRegex steps first spot fun middle => matchRegex steps second middle next
    | .either left right => matchRegex steps left spot next <|> matchRegex steps right spot next
    | .times body least most =>
      let more : Option Spot :=
        if most = some 0 then none
        else
          matchRegex steps body spot fun after =>
            if after.rest.length < spot.rest.length || 0 < least then
              matchRegex steps (.times body (least - 1) (most.map (· - 1))) after next
            else none
      more <|> (if least = 0 then next spot else none)

/-- A place where an expression matches: what stands before it, what it matches and
what stands after it. -/
structure Match where
  before : Octets
  matched : Octets
  after : Octets
  groups : List (Nat × Octets)
  deriving Repr, DecidableEq

/-- The first place of a line, from a spot on, where an expression matches; `most`
is the number of places to look at. -/
def findFrom (regex : Regex) (start : Spot) : (most : Nat) → Spot → Option Match
  | 0, _ => none
  | most + 1, spot =>
    match matchRegex (4 * spot.rest.length + 1000) regex spot some with
    | some last => some ⟨start.between spot, spot.between last, last.rest, last.groups⟩
    | none =>
      match spot.pass fun _ => true with
      | some spot => findFrom regex start most spot
      | none => none

/-- The first place of a line where an expression matches; `passed` is what of the
line is behind already, the last character first. -/
def Regex.find (regex : Regex) (passed rest : Octets) : Option Match :=
  findFrom regex ⟨passed, rest, []⟩ (rest.length + 1) ⟨passed, rest, []⟩

/-- Whether an expression matches a whole word somewhere in a line, from a spot on;
`most` is the number of places to look at. -/
def wordFrom (regex : Regex) : (most : Nat) → Spot → Bool
  | 0, _ => false
  | most + 1, spot =>
    let isPart (character : Char) : Bool := character.isAlphanum || character = '_'
    let atEnd (last : Spot) : Option Spot :=
      if last.rest.head?.any isPart || last.rest.length = spot.rest.length then none else some last
    let here := !spot.passed.head?.any isPart
      && (matchRegex (4 * spot.rest.length + 1000) regex spot atEnd).isSome
    here ||
      match spot.pass fun _ => true with
      | some spot => wordFrom regex most spot
      | none => false

/-- Whether an expression matches a whole word somewhere in a line. -/
def Regex.isWordIn (regex : Regex) (line : Octets) : Bool :=
  wordFrom regex (line.length + 1) ⟨[], line, []⟩

/-- The parts of a line that an expression matches, at most so many; none of them is
empty. -/
def Regex.matchesIn (regex : Regex) : (most : Nat) → (passed rest : Octets) → List Octets
  | 0, _, _ => []
  | most + 1, passed, rest =>
    match regex.find passed rest with
    | none => []
    | some found =>
      if found.matched.isEmpty then
        match found.after with
        | [] => []
        | character :: others =>
          regex.matchesIn most (character :: (found.before.reverse ++ passed)) others
      else
        found.matched
          :: regex.matchesIn most ((found.before ++ found.matched).reverse ++ passed) found.after

/-- Whether an expression matches somewhere in a line. -/
def Regex.isIn (regex : Regex) (line : Octets) : Bool := (regex.find [] line).isSome

end Polyglot.Shell
