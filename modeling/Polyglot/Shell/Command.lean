import Polyglot.Shell.Word

/-!
# Commands of a script

A script is a list of commands, made of simple ones by pipes, conditions, loops
and choices.
-/

namespace Polyglot.Shell

/-- Where a redirection leads. -/
structure Redirect where
  /-- The operator, without the number of the channel. -/
  operator : Octets
  /-- The number of the channel, if it is written. -/
  channel : Option Nat
  target : Word
  deriving Repr, DecidableEq

/-- A command. -/
inductive Command where
  | simple (assignments : List (Octets × Word)) (words : List Word)
  | redirected (body : Command) (redirects : List Redirect)
  /-- Commands of which each reads what the one before it writes. -/
  | pipeline (parts : List Command)
  | negated (body : Command)
  /-- The second is run if the first succeeds. -/
  | both (first second : Command)
  /-- The second is run if the first fails. -/
  | either (first second : Command)
  | sequence (commands : List Command)
  | subshell (body : Command)
  /-- Runs the body without waiting for it. -/
  | background (body : Command)
  | branch (condition body otherwise : Command)
  /-- Runs the body as long as the condition succeeds, or until it does. -/
  | loop (untilSuccess : Bool) (condition body : Command)
  /-- Runs the body for each of the words, or for each argument. -/
  | each (name : Octets) (words : Option (List Word)) (body : Command)
  | choose (word : Word) (cases : List (List Word × Command))
  | define (name : Octets) (body : Command)
  deriving Inhabited

/-- The text of a word that stands without quotes and without parameters. -/
def Word.bare? : Word → Option Octets
  | [.plain text false] => some text
  | _ => none

/-- The reserved word that tokens begin with. -/
def reserved? (tokens : List Token) : Option String :=
  match tokens with
  | .word word :: _ => (Word.bare? word).map String.ofList
  | _ => none

/-- Whether tokens begin with an operator. -/
def beginsWith (operator : String) (tokens : List Token) : Bool :=
  tokens.head? = some (.operator operator.toList)

/-- Passes over the ends of lines. -/
def skipLines : List Token → List Token
  | .operator ['\n'] :: rest => skipLines rest
  | tokens => tokens

/-- Takes a reserved word. -/
def expect (word : String) (tokens : List Token) : Option (List Token) :=
  if reserved? (skipLines tokens) = some word then some ((skipLines tokens).drop 1) else none

/-- Takes an operator. -/
def expectOperator (operator : String) (tokens : List Token) : Option (List Token) :=
  if beginsWith operator tokens then some (tokens.drop 1) else none

/-- The words that end a list of commands. -/
def closingWords : List String := ["then", "else", "elif", "fi", "do", "done", "esac", "\x7d"]

/-- Whether a list of commands ends here. -/
def isClosed (tokens : List Token) : Bool :=
  tokens.isEmpty || beginsWith ")" tokens || beginsWith ";;" tokens
    || (reserved? tokens).any closingWords.contains

/-- The redirection that tokens begin with. -/
def redirect? : List Token → Option (Redirect × List Token)
  | .operator operator :: .word target :: rest =>
    let digits := operator.takeWhile Char.isDigit
    let operator := operator.drop digits.length
    if operator.head? = some '<' || operator.head? = some '>' then
      some (⟨operator, Octets.toNat? digits, target⟩, rest)
    else none
  | _ => none

/-- All the redirections that tokens begin with. -/
def redirects : (most : Nat) → List Token → List Redirect × List Token
  | 0, tokens => ([], tokens)
  | most + 1, tokens =>
    match redirect? tokens with
    | none => ([], tokens)
    | some (redirect, rest) =>
      let (more, rest) := redirects most rest
      (redirect :: more, rest)

/-- The assignment that a word is: a name before the first equality sign, without
quotes. -/
def assignment? : Word → Option (Octets × Word)
  | .plain text false :: rest =>
    let name := text.takeWhile (· ≠ '=')
    if name.head?.any isNameStart && name.all isNameCharacter && name.length < text.length then
      let value := text.drop (name.length + 1)
      some (name, if value.isEmpty then rest else .plain value false :: rest)
    else none
  | _ => none

/-- Reads the words and redirections of a simple command. -/
def readSimple :
    (most : Nat) → List (Octets × Word) → List Word → List Redirect → List Token →
      (List (Octets × Word) × List Word × List Redirect) × List Token
  | 0, assignments, words, found, tokens => ((assignments, words, found), tokens)
  | most + 1, assignments, words, found, tokens =>
    match redirect? tokens with
    | some (redirect, rest) => readSimple most assignments words (found ++ [redirect]) rest
    | none =>
      match tokens with
      | .word word :: rest =>
        match words, assignment? word with
        | [], some assignment => readSimple most (assignments ++ [assignment]) [] found rest
        | _, _ => readSimple most assignments (words ++ [word]) found rest
      | _ => ((assignments, words, found), tokens)

/-- The words up to the end of a line. -/
def wordsOfLine : List Token → List Word × List Token
  | .word word :: rest =>
    let (words, rest) := wordsOfLine rest
    (word :: words, rest)
  | tokens => ([], tokens)

/-- The patterns of a case. -/
def patterns : (most : Nat) → List Token → Option (List Word × List Token)
  | 0, _ => none
  | most + 1, tokens =>
    match tokens with
    | .word word :: .operator ['|'] :: rest => do
      let (more, rest) ← patterns most rest
      return (word :: more, rest)
    | .word word :: .operator [')'] :: rest => some ([word], rest)
    | _ => none

/-- A command with its redirections, if it has any. -/
def withRedirects (body : Command) (found : List Redirect) : Command :=
  if found.isEmpty then body else .redirected body found

/-- What can be read with a given reader of lists of commands. -/
structure Reader where
  list : List Token → Option (Command × List Token)
  command : List Token → Option (Command × List Token)
  cases : List Token → Option (List (List Word × Command) × List Token)
  otherwise : List Token → Option (Command × List Token)
  pipes : List Token → Option (List Command × List Token)
  chain : Command → List Token → Option (Command × List Token)
  commands : List Token → Option (List Command × List Token)

namespace Reader

/-- A reader that reads nothing. -/
def empty : Reader where
  list _ := none
  command _ := none
  cases _ := none
  otherwise _ := none
  pipes _ := none
  chain _ _ := none
  commands _ := none

/-- Reads a loop after its first word. -/
def readLoop (reader : Reader) (untilSuccess : Bool) (tokens : List Token) :
    Option (Command × List Token) := do
  let (condition, tokens) ← reader.list tokens
  let (body, tokens) ← expect "do" tokens >>= reader.list
  return (.loop untilSuccess condition body, ← expect "done" tokens)

/-- Reads a loop over words after its first word. -/
def readEach (reader : Reader) (tokens : List Token) : Option (Command × List Token) := do
  let .word word :: tokens := tokens | none
  let name ← Word.bare? word
  let (words, tokens) :=
    match expect "in" tokens with
    | some tokens =>
      let (words, tokens) := wordsOfLine tokens
      (some words, tokens)
    | none => (none, tokens)
  let tokens := (expectOperator ";" tokens).getD tokens
  let (body, tokens) ← expect "do" tokens >>= reader.list
  return (.each name words body, ← expect "done" tokens)

/-- Reads a compound command or a simple one, with its redirections. -/
def readCommand (reader : Reader) (tokens : List Token) : Option (Command × List Token) :=
  let compound (result : Option (Command × List Token)) : Option (Command × List Token) := do
    let (body, tokens) ← result
    let (found, tokens) := redirects tokens.length tokens
    return (withRedirects body found, tokens)
  match tokens with
  | .operator ['('] :: rest => compound do
    let (body, rest) ← reader.list rest
    return (.subshell body, ← expectOperator ")" (skipLines rest))
  | .word name :: .operator ['('] :: .operator [')'] :: rest => do
    let name ← Word.bare? name
    let (body, rest) ← reader.command (skipLines rest)
    return (.define name body, rest)
  | _ =>
    match reserved? tokens with
    | some "\x7b" => compound do
      let (body, rest) ← reader.list (tokens.drop 1)
      return (body, ← expect "\x7d" rest)
    | some "if" => compound do
      let (condition, rest) ← reader.list (tokens.drop 1)
      let (body, rest) ← expect "then" rest >>= reader.list
      let (otherwise, rest) ← reader.otherwise (skipLines rest)
      return (.branch condition body otherwise, rest)
    | some "while" => compound (reader.readLoop false (tokens.drop 1))
    | some "until" => compound (reader.readLoop true (tokens.drop 1))
    | some "for" => compound (reader.readEach (tokens.drop 1))
    | some "case" => compound do
      let .word word :: rest := tokens.drop 1 | none
      let (cases, rest) ← expect "in" rest >>= (reader.cases ∘ skipLines)
      return (.choose word cases, rest)
    | some "!" => do
      let (body, rest) ← reader.command (tokens.drop 1)
      return (.negated body, rest)
    | word =>
      if word.any closingWords.contains then none
      else
        let ((assignments, words, found), rest) := readSimple tokens.length [] [] [] tokens
        if assignments.isEmpty && words.isEmpty && found.isEmpty then none
        else some (withRedirects (.simple assignments words) found, rest)

/-- Reads the cases of a choice up to its end. -/
def readCases (reader : Reader) (tokens : List Token) :
    Option (List (List Word × Command) × List Token) :=
  match expect "esac" tokens with
  | some rest => some ([], rest)
  | none => do
    let tokens := skipLines tokens
    let tokens := (expectOperator "(" tokens).getD tokens
    let (found, rest) ← patterns tokens.length tokens
    let (body, rest) ← reader.list rest
    let rest := skipLines ((expectOperator ";;" (skipLines rest)).getD rest)
    let (more, rest) ← reader.cases rest
    return ((found, body) :: more, rest)

/-- Reads the rest of a condition after the first body. -/
def readOtherwise (reader : Reader) (tokens : List Token) : Option (Command × List Token) :=
  match reserved? tokens with
  | some "fi" => some (.sequence [], tokens.drop 1)
  | some "else" => do
    let (body, rest) ← reader.list (tokens.drop 1)
    return (body, ← expect "fi" rest)
  | some "elif" => do
    let (condition, rest) ← reader.list (tokens.drop 1)
    let (body, rest) ← expect "then" rest >>= reader.list
    let (otherwise, rest) ← reader.otherwise (skipLines rest)
    return (.branch condition body otherwise, rest)
  | _ => none

/-- Reads commands that are joined by pipes. -/
def readPipes (reader : Reader) (tokens : List Token) : Option (List Command × List Token) := do
  let (command, rest) ← reader.command tokens
  match expectOperator "|" rest with
  | none => return ([command], rest)
  | some rest =>
    let (more, rest) ← reader.pipes (skipLines rest)
    return (command :: more, rest)

/-- The command that joined commands make. -/
def joined : List Command → Command
  | [command] => command
  | commands => .pipeline commands

/-- Reads what follows a command on the same line and depends on it. -/
def readChain (reader : Reader) (first : Command) (tokens : List Token) :
    Option (Command × List Token) :=
  match expectOperator "&&" tokens, expectOperator "||" tokens with
  | some rest, _ => do
    let (commands, rest) ← reader.pipes (skipLines rest)
    reader.chain (.both first (joined commands)) rest
  | none, some rest => do
    let (commands, rest) ← reader.pipes (skipLines rest)
    reader.chain (.either first (joined commands)) rest
  | none, none => some (first, tokens)

/-- Reads commands up to the end of a list. -/
def readCommands (reader : Reader) (tokens : List Token) : Option (List Command × List Token) :=
  let tokens := skipLines tokens
  if isClosed tokens then some ([], tokens)
  else do
    let (commands, rest) ← reader.pipes tokens
    let (command, rest) ← reader.chain (joined commands) rest
    match rest with
    | .operator [';'] :: rest | .operator ['\n'] :: rest =>
      let (more, rest) ← reader.commands rest
      return (command :: more, rest)
    | .operator ['&'] :: rest =>
      let (more, rest) ← reader.commands rest
      return (.background command :: more, rest)
    | _ => return ([command], rest)

/-- The reader that looks so many commands deep. -/
def ofDepth : Nat → Reader
  | 0 => empty
  | depth + 1 =>
    let inner := ofDepth depth
    { list := fun tokens => (inner.commands tokens).map fun (commands, rest) =>
        (.sequence commands, rest)
      command := inner.readCommand
      cases := inner.readCases
      otherwise := inner.readOtherwise
      pipes := inner.readPipes
      chain := inner.readChain
      commands := inner.readCommands }

end Reader

/-- The command that a script is; none when it is not well formed. -/
def parseScript? (script : Octets) : Option Command := do
  let tokens ← tokens? (script.length + 1) [] script
  let (commands, rest) ← (Reader.ofDepth (4 * tokens.length + 8)).commands tokens
  if rest.isEmpty then some (.sequence commands) else none

end Polyglot.Shell
