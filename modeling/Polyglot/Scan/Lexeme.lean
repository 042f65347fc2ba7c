import Polyglot.Text.Bytes

/-!
# Literals and comments

The lexical structure that matters to the scans: string literals and comments,
in the two flavours of source text.  Every scan works on what is left of the
text, as bytes; only ASCII bytes mean anything to it, so bytes of longer
characters are passed over one by one.
-/

namespace Polyglot.Scan

open Text

/-- The lexical flavour of a source text. -/
inductive Flavour where
  /-- Strings in `'`, `"` and back-ticks, comments `//` and `/* */`. -/
  | javaScript
  /-- Strings in `'` and `"`, also tripled, and comments `#`. -/
  | python
  deriving Repr, DecidableEq

/-- The line feed. -/
def lineFeed : UInt8 := 0x0A

/-- The byte that makes the next one an ordinary one. -/
def backslash : UInt8 := 0x5C

/-- The quote of literals that may hold line feeds. -/
def backTick : UInt8 := 0x60

/-- Whether a byte opens a string literal. -/
def Flavour.isQuote (flavour : Flavour) (byte : UInt8) : Bool :=
  byte = ascii '\'' || byte = ascii '"' || (flavour = .javaScript && byte = backTick)

/-- ASCII letters, digits and the underscore. -/
def isIdentifierByte (byte : UInt8) : Bool :=
  (0x30 ≤ byte && byte ≤ 0x39) || (0x41 ≤ byte && byte ≤ 0x5A)
    || (0x61 ≤ byte && byte ≤ 0x7A) || byte = ascii '_'

/-- The bytes of words: those of identifiers and of all characters beyond
ASCII. -/
def Flavour.isWordByte (flavour : Flavour) (byte : UInt8) : Bool :=
  isIdentifierByte byte || 0x80 ≤ byte || (flavour = .javaScript && byte = ascii '$')

/-- The end of a scan for the end of a literal. -/
structure LiteralEnd where
  /-- What follows the literal. -/
  rest : Bytes
  /-- Whether the closing quote was found. -/
  terminated : Bool
  deriving Repr, DecidableEq

/-- Scans the inside of a literal between single `quote`s.  The literal ends
unterminated before a line feed, unless its quote is the back-tick. -/
def scanShort (quote : UInt8) : (escaped : Bool) → Bytes → LiteralEnd
  | _, [] => ⟨[], false⟩
  | true, _ :: rest => scanShort quote false rest
  | false, byte :: rest =>
    if byte = backslash then scanShort quote true rest
    else if byte = lineFeed && quote ≠ backTick then ⟨byte :: rest, false⟩
    else if byte = quote then ⟨rest, true⟩
    else scanShort quote false rest

/-- Scans the inside of a literal between tripled `quote`s. -/
def scanTriple (quote : UInt8) : (escaped : Bool) → Bytes → LiteralEnd
  | _, [] => ⟨[], false⟩
  | true, _ :: rest => scanTriple quote false rest
  | false, byte :: rest =>
    if byte = backslash then scanTriple quote true rest
    else if [quote, quote, quote].isPrefixOf (byte :: rest) then ⟨rest.drop 2, true⟩
    else scanTriple quote false rest

/-- Whether two more of `quote` follow, so that a tripled quote opens. -/
def opensTriple (flavour : Flavour) (quote : UInt8) (rest : Bytes) : Bool :=
  flavour = .python && [quote, quote].isPrefixOf rest

/-- Scans a literal whose first byte is `quote`. -/
def scanLiteral (flavour : Flavour) (quote : UInt8) (rest : Bytes) : LiteralEnd :=
  if opensTriple flavour quote rest then scanTriple quote false (rest.drop 2)
  else scanShort quote false rest

/-- What is left of a text from its next line feed on. -/
def fromLineFeed (bytes : Bytes) : Bytes :=
  bytes.dropWhile (· ≠ lineFeed)

/-- What follows the end of a block comment, from inside it. -/
def afterBlockComment : Bytes → Bytes
  | [] => []
  | byte :: rest =>
    if [ascii '*', ascii '/'].isPrefixOf (byte :: rest) then rest.drop 1
    else afterBlockComment rest

/-- If a string literal or comment begins with `byte`, what follows it. -/
def skip? (flavour : Flavour) (byte : UInt8) (rest : Bytes) : Option Bytes :=
  if flavour.isQuote byte then some (scanLiteral flavour byte rest).rest
  else
    match flavour with
    | .javaScript =>
      if byte = ascii '/' then
        match rest with
        | [] => none
        | next :: inside =>
          if next = ascii '/' then some (fromLineFeed inside)
          else if next = ascii '*' then some (afterBlockComment inside)
          else none
      else none
    | .python => if byte = ascii '#' then some (fromLineFeed rest) else none

theorem length_scanShort_le (quote : UInt8) (escaped : Bool) (bytes : Bytes) :
    (scanShort quote escaped bytes).rest.length ≤ bytes.length := by
  fun_induction scanShort quote escaped bytes <;> simp_all <;> omega

theorem length_scanTriple_le (quote : UInt8) (escaped : Bool) (bytes : Bytes) :
    (scanTriple quote escaped bytes).rest.length ≤ bytes.length := by
  fun_induction scanTriple quote escaped bytes <;> simp_all <;> omega

theorem length_scanLiteral_le (flavour : Flavour) (quote : UInt8) (rest : Bytes) :
    (scanLiteral flavour quote rest).rest.length ≤ rest.length := by
  rw [scanLiteral]
  split
  · exact Nat.le_trans (length_scanTriple_le ..) (by simp)
  · exact length_scanShort_le ..

theorem length_fromLineFeed_le (bytes : Bytes) :
    (fromLineFeed bytes).length ≤ bytes.length :=
  (List.dropWhile_sublist _).length_le

theorem length_afterBlockComment_le (bytes : Bytes) :
    (afterBlockComment bytes).length ≤ bytes.length := by
  fun_induction afterBlockComment bytes <;> simp_all <;> omega

/-- A literal or comment has at least one byte. -/
theorem length_skip?_le {flavour : Flavour} {byte : UInt8} {rest after : Bytes}
    (skipped : skip? flavour byte rest = some after) : after.length ≤ rest.length := by
  unfold skip? at skipped
  split at skipped
  · cases skipped; exact length_scanLiteral_le ..
  · split at skipped
    · split at skipped
      · split at skipped
        · simp at skipped
        · split at skipped
          · cases skipped
            exact Nat.le_succ_of_le (length_fromLineFeed_le _)
          · split at skipped
            · cases skipped
              exact Nat.le_succ_of_le (length_afterBlockComment_le _)
            · simp at skipped
      · simp at skipped
    · split at skipped
      · cases skipped; exact length_fromLineFeed_le _
      · simp at skipped

end Polyglot.Scan
