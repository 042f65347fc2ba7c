import Polyglot.Text.Bytes

/-!
# Octets

Commands read and write bytes.  A byte is written as the character that has its
number, so that bytes can be looked at like characters.
-/

namespace Polyglot.Shell

open Text

/-- Bytes, each as the character that has its number. -/
abbrev Octets := List Char

namespace Octets

/-- The bytes of a list, each as a character. -/
def ofBytes (bytes : Bytes) : Octets := bytes.map fun byte => Char.ofNat byte.toNat

/-- The bytes. -/
def toBytes (octets : Octets) : Bytes :=
  octets.map fun character => UInt8.ofNat character.toNat

/-- The text that the bytes stand for. -/
def toText (octets : Octets) : String := decode octets.toBytes

/-- The text that the bytes stand for, if they are the bytes of a text. -/
def toText? (octets : Octets) : Option String := decode? octets.toBytes

/-- The number that decimal digits write; none for anything else. -/
def toNat? (octets : Octets) : Option Nat :=
  if octets.isEmpty || !octets.all Char.isDigit then none
  else some (octets.foldl (fun value digit => value * 10 + (digit.toNat - '0'.toNat)) 0)

/-- The integer that decimal digits write, with or without a sign. -/
def toInt? (octets : Octets) : Option Int :=
  match octets with
  | '-' :: digits => (toNat? digits).map fun value => -(value : Int)
  | '+' :: digits => (toNat? digits).map fun value => (value : Int)
  | digits => (toNat? digits).map fun value => (value : Int)

/-- An integer in decimal digits. -/
def ofInt (value : Int) : Octets := (toString value).toList

/-- The lines, each without the line feed that ends it. -/
def lines (octets : Octets) : List Octets :=
  let (lines, last) := octets.foldl
    (fun (lines, line) character =>
      if character = '\n' then (line.reverse :: lines, []) else (lines, character :: line))
    (([] : List Octets), ([] : Octets))
  (if last.isEmpty then lines else last.reverse :: lines).reverse

/-- The lines, each with a line feed that ends it. -/
def unlines (lines : List Octets) : Octets := lines.flatMap (· ++ ['\n'])

/-- The pieces between the places where a character stands. -/
def splitAt (separator : Char) (octets : Octets) : List Octets :=
  let (pieces, last) := octets.foldl
    (fun (pieces, piece) character =>
      if character = separator then (piece.reverse :: pieces, []) else (pieces, character :: piece))
    (([] : List Octets), ([] : Octets))
  (last.reverse :: pieces).reverse

/-- Whether one sequence stands before another, or is equal to it, in the order of
their bytes. -/
def le : Octets → Octets → Bool
  | [], _ => true
  | _ :: _, [] => false
  | left :: lefts, right :: rights =>
    left.toNat < right.toNat || (left = right && le lefts rights)

/-- Whether one sequence stands inside another. -/
def contains (part : Octets) : Octets → Bool
  | [] => part.isEmpty
  | character :: rest => part.isPrefixOf (character :: rest) || contains part rest

end Octets

/-- The bytes of a text. -/
def octets (text : String) : Octets := .ofBytes (encode text)

end Polyglot.Shell
