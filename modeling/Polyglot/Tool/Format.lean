import Polyglot.Tool.Basic

/-!
# Formatted output

A format is text with directives in it.  Each directive takes the next argument,
and a format with directives is used again as long as there are arguments.
-/

namespace Polyglot.Tool

open Shell

/-! ## Escapes -/

/-- Which escapes are understood besides those of letters and of octal numbers. -/
structure EscapeStyle where
  /-- Whether a zero in front of an octal number does not count as a digit. -/
  leadingZero : Bool := false
  /-- Whether hexadecimal numbers and an escaped quote are understood. -/
  extended : Bool := false
  deriving Repr, DecidableEq

/-- The character that a letter stands for after a backslash. -/
def escaped? : Char → Option Char
  | 'a' => some '\x07'
  | 'b' => some '\x08'
  | 'f' => some '\x0c'
  | 'n' => some '\n'
  | 'r' => some '\r'
  | 't' => some '\t'
  | 'v' => some '\x0b'
  | 'e' => some '\x1b'
  | '\\' => some '\\'
  | _ => none

/-- The value of a digit of any base up to sixteen. -/
def digitValue? (character : Char) : Option Nat :=
  if character.isDigit then some (character.toNat - '0'.toNat)
  else if 'a' ≤ character && character ≤ 'f' then some (character.toNat - 'a'.toNat + 10)
  else if 'A' ≤ character && character ≤ 'F' then some (character.toNat - 'A'.toNat + 10)
  else none

/-- Whether a character is a digit of a base. -/
def isDigitOf (base : Nat) (character : Char) : Bool :=
  (digitValue? character).any (· < base)

/-- The number that digits of a base write. -/
def valueOf (base : Nat) (digits : Octets) : Nat :=
  digits.foldl (fun value digit => value * base + (digitValue? digit).getD 0) 0

/-- The byte of a number, as a character. -/
def byteOf (value : Nat) : Char := Char.ofNat (value % 256)

/-- What an escape means. -/
inductive Escape where
  | character (character : Char)
  /-- Nothing more is to be written. -/
  | finish
  deriving Repr, DecidableEq

/-- Reads an escape after its backslash; one that is not understood leaves the
backslash as it is. -/
def readEscape (style : EscapeStyle) (octets : Octets) : Escape × Octets :=
  match octets with
  | [] => (.character '\\', [])
  | character :: rest =>
    if isDigitOf 8 character then
      let digits :=
        if style.leadingZero && character = '0' then rest.take 3 else octets.take 3
      let digits := digits.takeWhile (isDigitOf 8)
      let skipped := if style.leadingZero && character = '0' then 1 else 0
      (.character (byteOf (valueOf 8 digits)), octets.drop (skipped + digits.length))
    else if character = 'c' && (style.leadingZero || style.extended) then (.finish, rest)
    else if style.extended && character = 'x' && rest.head?.any (isDigitOf 16) then
      let digits := (rest.take 2).takeWhile (isDigitOf 16)
      (.character (byteOf (valueOf 16 digits)), rest.drop digits.length)
    else if style.extended && character = '"' then (.character '"', rest)
    else
      match escaped? character with
      | some meant => (.character meant, rest)
      | none => (.character '\\', octets)

/-- A text with its escapes replaced, for at most so many characters, and whether
nothing more is to be written. -/
def unescape (style : EscapeStyle) : (most : Nat) → Octets → Octets × Bool
  | 0, _ => ([], false)
  | most + 1, octets =>
    match octets with
    | [] => ([], false)
    | '\\' :: rest =>
      match readEscape style rest with
      | (.finish, _) => ([], true)
      | (.character character, rest) =>
        let (text, stopped) := unescape style most rest
        (character :: text, stopped)
    | character :: rest =>
      let (text, stopped) := unescape style most rest
      (character :: text, stopped)

/-! ## Directives -/

/-- How an argument is written. -/
structure Directive where
  flags : List Char := []
  width : Nat := 0
  precision : Option Nat := none
  conversion : Char
  deriving Repr, DecidableEq

/-- A piece of a format. -/
inductive FormatPiece where
  | text (character : Char)
  | argument (directive : Directive)
  /-- Nothing more is to be written. -/
  | finish
  deriving Repr, DecidableEq

/-- Reads a directive after its percent sign. -/
def readDirective (octets : Octets) : Option (Directive × Octets) :=
  let flags := octets.takeWhile ['-', '+', ' ', '#', '0'].contains
  let octets := octets.drop flags.length
  let width := octets.takeWhile Char.isDigit
  let octets := octets.drop width.length
  let (precision, octets) :=
    match octets with
    | '.' :: rest =>
      let digits := rest.takeWhile Char.isDigit
      (some (valueOf 10 digits), rest.drop digits.length)
    | _ => (none, octets)
  match octets with
  | conversion :: rest => some (⟨flags, valueOf 10 width, precision, conversion⟩, rest)
  | [] => none

/-- The pieces of a format, for at most so many characters. -/
def formatPieces (style : EscapeStyle) : (most : Nat) → Octets → List FormatPiece
  | 0, _ => []
  | most + 1, octets =>
    match octets with
    | [] => []
    | '%' :: '%' :: rest => .text '%' :: formatPieces style most rest
    | '%' :: rest =>
      match readDirective rest with
      | some (directive, rest) => .argument directive :: formatPieces style most rest
      | none => [.text '%']
    | '\\' :: rest =>
      match readEscape style rest with
      | (.finish, _) => [.finish]
      | (.character character, rest) => .text character :: formatPieces style most rest
    | character :: rest => .text character :: formatPieces style most rest

/-- Fills a text up to the width of a directive. -/
def Directive.pad (directive : Directive) (sign text : Octets) : Octets :=
  let missing := directive.width - (sign.length + text.length)
  if directive.flags.contains '-' then sign ++ text ++ List.replicate missing ' '
  else if directive.flags.contains '0' && directive.conversion ≠ 's' then
    sign ++ List.replicate missing '0' ++ text
  else List.replicate missing ' ' ++ sign ++ text

/-- The integer that an argument writes; none when it writes none.  A quote in front
of a character means its number. -/
def integer? (argument : Octets) : Option Int :=
  match argument with
  | [] => some 0
  | '\'' :: character :: _ | '"' :: character :: _ => some character.toNat
  | _ =>
    let (negative, digits) :=
      match argument with
      | '-' :: digits => (true, digits)
      | '+' :: digits => (false, digits)
      | digits => (false, digits)
    let magnitude : Option Nat :=
      match digits with
      | '0' :: 'x' :: hexadecimal | '0' :: 'X' :: hexadecimal =>
        if !hexadecimal.isEmpty && hexadecimal.all (isDigitOf 16) then
          some (valueOf 16 hexadecimal)
        else none
      | '0' :: octal => if octal.all (isDigitOf 8) then some (valueOf 8 octal) else none
      | decimal => Octets.toNat? decimal
    magnitude.map fun value => if negative then -(value : Int) else value

/-- The digits of a number in a base. -/
def digitsIn (base value : Nat) : Octets := Nat.toDigits base value

/-- An integer as a directive writes it. -/
def Directive.integer (directive : Directive) (value : Int) : Octets :=
  let unsigned := directive.conversion ≠ 'd' && directive.conversion ≠ 'i'
  let magnitude := if unsigned && value < 0 then (value + UInt64.size).toNat else value.natAbs
  let digits :=
    match directive.conversion with
    | 'o' => digitsIn 8 magnitude
    | 'x' => digitsIn 16 magnitude
    | 'X' => (digitsIn 16 magnitude).map Char.toUpper
    | _ => digitsIn 10 magnitude
  let digits :=
    match directive.precision with
    | some least => List.replicate (least - digits.length) '0' ++ digits
    | none => digits
  let sign : Octets :=
    if unsigned then
      match directive.flags.contains '#', directive.conversion with
      | true, 'x' => ['0', 'x']
      | true, 'X' => ['0', 'X']
      | true, 'o' => ['0']
      | _, _ => []
    else if value < 0 then ['-']
    else if directive.flags.contains '+' then ['+']
    else if directive.flags.contains ' ' then [' ']
    else []
  directive.pad sign digits

/-- An argument as a directive writes it, whether nothing more is to be written, and
whether the argument was wrong. -/
def Directive.write (directive : Directive) (argument : Octets) : Octets × Bool × Bool :=
  let cut (text : Octets) : Octets := directive.precision.elim text text.take
  match directive.conversion with
  | 's' => (directive.pad [] (cut argument), false, false)
  | 'b' =>
    let (text, stopped) := unescape { leadingZero := true } (argument.length + 1) argument
    (directive.pad [] (cut text), stopped, false)
  | 'c' => (directive.pad [] (argument.take 1), false, false)
  | _ =>
    match integer? argument with
    | some value => (directive.integer value, false, false)
    | none => (directive.integer 0, false, true)

/-- What a format has written so far. -/
structure Written where
  out : Octets := []
  arguments : List Octets
  /-- The arguments that were wrong. -/
  wrong : List Octets := []
  stopped : Bool := false

/-- Uses a format once. -/
def formatOnce (pieces : List FormatPiece) (written : Written) : Written :=
  pieces.foldl
    (fun written piece =>
      if written.stopped then written
      else
        match piece with
        | .text character => { written with out := written.out ++ [character] }
        | .finish => { written with stopped := true }
        | .argument directive =>
          let argument := written.arguments.head?.getD []
          let (text, stopped, bad) := directive.write argument
          { out := written.out ++ text
            arguments := written.arguments.drop 1
            wrong := if bad then written.wrong ++ [argument] else written.wrong
            stopped })
    written

/-- Uses a format again as long as there are arguments. -/
def formatAll (pieces : List FormatPiece) : (most : Nat) → Written → Written
  | 0, written => written
  | most + 1, written =>
    let after := formatOnce pieces written
    if after.stopped || after.arguments.isEmpty
        || after.arguments.length = written.arguments.length then after
    else formatAll pieces most after

/-- Writes arguments in a format. -/
def printf (style : EscapeStyle) (call : Call) : Effect :=
  let arguments :=
    match call.arguments with
    | ['-', '-'] :: rest => rest
    | arguments => arguments
  match arguments with
  | [] => call.misuse 1 "missing operand".toList
  | format :: arguments =>
    let pieces := formatPieces style (format.length + 1) format
    let written := formatAll pieces (arguments.length + 1) { arguments }
    { out := written.out
      err := written.wrong.flatMap fun argument =>
        (call.fail 1 (argument ++ ": expected numeric value".toList)).err
      status := some (if written.wrong.isEmpty then 0 else 1)
      tree := call.tree }

end Polyglot.Tool
