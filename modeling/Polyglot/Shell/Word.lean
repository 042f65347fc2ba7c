import Polyglot.Shell.Octets

/-!
# Words of a script

A script is cut into words and operators.  A word keeps its parts apart: plain
text, and what is to be put in place of a parameter, a command or a formula when the
word is used.
-/

namespace Polyglot.Shell

/-- A part of a word; `quoted` says whether it stands in quotes. -/
inductive Part where
  | plain (text : Octets) (quoted : Bool)
  /-- The value of a parameter.  `rest` is what follows the name inside braces. -/
  | parameter (name : Octets) (rest : Octets) (quoted : Bool)
  /-- The output of a script. -/
  | command (script : Octets) (quoted : Bool)
  /-- The value of a formula. -/
  | arithmetic (expression : Octets) (quoted : Bool)
  deriving Repr, DecidableEq

/-- A word of a script. -/
abbrev Word := List Part

/-- A piece of a script. -/
inductive Token where
  | word (word : Word)
  | operator (text : Octets)
  deriving Repr, DecidableEq

/-- Whether a character can begin a name. -/
def isNameStart (character : Char) : Bool := character.isAlpha || character = '_'

/-- Whether a character can stand in a name. -/
def isNameCharacter (character : Char) : Bool := character.isAlphanum || character = '_'

/-- Whether a character alone is the name of a parameter. -/
def isSpecialParameter (character : Char) : Bool :=
  character.isDigit || ['@', '*', '#', '?', '$', '!', '-'].contains character

/-- Splits at the bracket that closes what has been opened `depth` times; brackets
in quotes do not count. -/
def untilClosed (opening closing : Char) : (depth : Nat) → (done : Octets) → Octets →
    Option (Octets × Octets)
  | _, _, [] => none
  | depth, done, '\\' :: character :: rest =>
    untilClosed opening closing depth (character :: '\\' :: done) rest
  | depth, done, '\'' :: rest =>
    untilQuote opening closing depth ('\'' :: done) '\'' rest
  | depth, done, '"' :: rest =>
    untilQuote opening closing depth ('"' :: done) '"' rest
  | depth, done, character :: rest =>
    if character = closing then
      match depth with
      | 0 => some (done.reverse, rest)
      | depth + 1 => untilClosed opening closing depth (character :: done) rest
    else if character = opening then
      untilClosed opening closing (depth + 1) (character :: done) rest
    else untilClosed opening closing depth (character :: done) rest
termination_by _ _ rest => rest.length
where
  /-- Passes over a quotation. -/
  untilQuote (opening closing : Char) (depth : Nat) (done : Octets) (quote : Char) :
      Octets → Option (Octets × Octets)
    | [] => none
    | '\\' :: character :: rest =>
      if quote = '"' then untilQuote opening closing depth (character :: '\\' :: done) quote rest
      else untilQuote opening closing depth ('\\' :: done) quote (character :: rest)
    | character :: rest =>
      if character = quote then untilClosed opening closing depth (character :: done) rest
      else untilQuote opening closing depth (character :: done) quote rest
  termination_by rest => rest.length

/-- Splits a command at the sign that ends it; behind a backslash such a sign belongs to
the command. -/
def untilBackquote (done : Octets) : Octets → Octets × Octets
  | [] => (done.reverse, [])
  | '\x60' :: rest => (done.reverse, rest)
  | '\\' :: character :: rest =>
    if ['$', '\x60', '\\'].contains character then untilBackquote (character :: done) rest
    else untilBackquote (character :: '\\' :: done) rest
  | character :: rest => untilBackquote (character :: done) rest

/-- What a dollar sign introduces, seen from the character after it; alone it stands
for itself. -/
def substitution (quoted : Bool) (octets : Octets) : Option (Part × Octets) :=
  match octets with
  | '(' :: rest => do
    let (inner, rest) ← untilClosed '(' ')' 0 [] rest
    match inner, inner.getLast? with
    | '(' :: formula, some ')' => return (.arithmetic formula.dropLast quoted, rest)
    | _, _ => return (.command inner quoted, rest)
  | '\x7b' :: rest => do
    let (inner, rest) ← untilClosed '\x7b' '\x7d' 0 [] rest
    let name :=
      match inner with
      | character :: _ =>
        if isNameStart character then inner.takeWhile isNameCharacter
        else if character.isDigit then inner.takeWhile Char.isDigit
        else if character = '#' && inner.length > 1 then
          '#' :: (inner.drop 1).takeWhile isNameCharacter
        else [character]
      | [] => []
    return (.parameter name (inner.drop name.length) quoted, rest)
  | character :: rest =>
    if isNameStart character then
      some (.parameter (octets.takeWhile isNameCharacter) [] quoted,
        octets.dropWhile isNameCharacter)
    else if isSpecialParameter character then some (.parameter [character] [] quoted, rest)
    else some (.plain ['$'] quoted, octets)
  | [] => some (.plain ['$'] quoted, [])

/-- Puts plain text after the parts of a word, which stand in reverse order. -/
def addPlain (parts : List Part) (text : Octets) (quoted : Bool) : List Part :=
  match parts with
  | .plain before quotedBefore :: rest =>
    if quotedBefore = quoted then .plain (before ++ text) quoted :: rest
    else .plain text quoted :: parts
  | _ => .plain text quoted :: parts

/-- Reads what stands in double quotes, at most so many pieces of it. -/
def readQuoted : (pieces : Nat) → List Part → Octets → Option (List Part × Octets)
  | 0, _, _ => none
  | pieces + 1, parts, octets =>
    match octets with
    | [] => none
    | '"' :: rest => some (parts, rest)
    | '\\' :: '\n' :: rest => readQuoted pieces parts rest
    | '\\' :: character :: rest =>
      if ['$', '\x60', '"', '\\'].contains character then
        readQuoted pieces (addPlain parts [character] true) rest
      else readQuoted pieces (addPlain parts ['\\', character] true) rest
    | '$' :: rest => do
      let (part, rest) ← substitution true rest
      readQuoted pieces (part :: parts) rest
    | '\x60' :: rest =>
      let (script, rest) := untilBackquote [] rest
      readQuoted pieces (.command script true :: parts) rest
    | character :: rest => readQuoted pieces (addPlain parts [character] true) rest

/-- Whether a character ends a word. -/
def endsWord (character : Char) : Bool :=
  [' ', '\t', '\n', ';', '&', '|', '<', '>', '(', ')'].contains character

/-- Reads a word, at most so many pieces of it. -/
def readWord : (pieces : Nat) → List Part → Octets → Option (Word × Octets)
  | 0, _, _ => none
  | pieces + 1, parts, octets =>
    match octets with
    | [] => some (parts.reverse, [])
    | '\'' :: rest =>
      let text := rest.takeWhile (· ≠ '\'')
      match rest.drop text.length with
      | [] => none
      | _ :: rest => readWord pieces (.plain text true :: parts) rest
    | '"' :: rest => do
      let (parts, rest) ← readQuoted (rest.length + 1) (.plain [] true :: parts) rest
      readWord pieces parts rest
    | '\\' :: '\n' :: rest => readWord pieces parts rest
    | '\\' :: character :: rest => readWord pieces (.plain [character] true :: parts) rest
    | '$' :: rest => do
      let (part, rest) ← substitution false rest
      readWord pieces (part :: parts) rest
    | '\x60' :: rest =>
      let (script, rest) := untilBackquote [] rest
      readWord pieces (.command script false :: parts) rest
    | character :: rest =>
      if endsWord character then some (parts.reverse, octets)
      else readWord pieces (addPlain parts [character] false) rest

/-- The operators, the longer ones first. -/
def operators : List Octets :=
  ["<<-", "<<", ">>", ">&", "<&", ">|", "&&", "||", ";;",
    ";", "&", "|", "<", ">", "(", ")", "\n"].map
    (·.toList)

/-- The operator that a text begins with, and the rest.  The number of a channel
belongs to the operator after it. -/
def operator? (octets : Octets) : Option (Octets × Octets) :=
  let digits := octets.takeWhile Char.isDigit
  let rest := octets.drop digits.length
  match rest.head? with
  | some character =>
    if digits.isEmpty || character = '<' || character = '>' then
      (operators.find? (·.isPrefixOf rest)).map fun operator =>
        (digits ++ operator, rest.drop operator.length)
    else none
  | none => none

/-! ## Documents in a script -/

/-- The text of a document such that it can be read as if it stood in double quotes. -/
def protectQuotes : Octets → Octets
  | [] => []
  | '\\' :: '"' :: rest => '\\' :: '\\' :: '\\' :: '"' :: protectQuotes rest
  | '\\' :: character :: rest => '\\' :: character :: protectQuotes rest
  | '"' :: rest => '\\' :: '"' :: protectQuotes rest
  | character :: rest => character :: protectQuotes rest

/-- The lines up to a delimiter and the lines after it. -/
def untilLine (delimiter : Octets) (strip : Octets → Octets) :
    List Octets → List Octets × List Octets
  | [] => ([], [])
  | line :: lines =>
    if strip line = delimiter then ([], lines)
    else
      let (body, rest) := untilLine delimiter strip lines
      (strip line :: body, rest)

/-- Takes a document out of the text after the operator and the delimiter that announce
it: it begins on the next line. -/
def readDocument (operator : Octets) (delimiter : Word) (octets : Octets) : Word × Octets :=
  let quoted := delimiter.any fun
    | .plain _ quoted => quoted
    | _ => false
  let name := delimiter.flatMap fun
    | .plain text _ => text
    | _ => []
  let strip (line : Octets) : Octets :=
    if operator.getLast? = some '-' then line.dropWhile (· = '\t') else line
  let line := octets.takeWhile (· ≠ '\n')
  let (body, rest) := untilLine name strip (Octets.splitAt '\n' (octets.drop (line.length + 1)))
  let text := Octets.unlines body
  let word :=
    if quoted then some [.plain text true]
    else
      let text := protectQuotes text
      (readQuoted (text.length + 2) [] (text ++ ['"'])).map fun (parts, _) => parts.reverse
  (word.getD [], line ++ '\n' :: List.intercalate ['\n'] rest)

/-- Cuts a script into at most so many words and operators; none when a quotation
is not closed. -/
def tokens? : (pieces : Nat) → List Token → Octets → Option (List Token)
  | 0, _, _ => none
  | pieces + 1, done, octets =>
    match octets with
    | [] => some done.reverse
    | ' ' :: rest | '\t' :: rest | '\\' :: '\n' :: rest => tokens? pieces done rest
    | '#' :: rest => tokens? pieces done (rest.dropWhile (· ≠ '\n'))
    | _ =>
      match operator? octets with
      | some (operator, rest) =>
        if (operator.dropWhile Char.isDigit).take 2 = ['<', '<'] then do
          let blank (character : Char) : Bool := character = ' ' || character = '\t'
          let (delimiter, rest) ← readWord (octets.length + 1) [] (rest.dropWhile blank)
          let (document, rest) := readDocument operator delimiter rest
          tokens? pieces (.word document :: .operator operator :: done) rest
        else tokens? pieces (.operator operator :: done) rest
      | none => do
        let (word, rest) ← readWord (octets.length + 1) [] octets
        tokens? pieces (.word word :: done) rest

end Polyglot.Shell
