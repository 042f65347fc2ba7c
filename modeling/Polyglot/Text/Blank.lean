/-!
# Blank characters and trimming

A character is blank when Unicode gives it the property `White_Space`.  Trimming
removes blank characters from the two ends of a text and touches nothing between
them.
-/

namespace Polyglot.Text

/-- The first and last code points of every range of the Unicode property
`White_Space`. -/
def blankRanges : List (Nat × Nat) :=
  [(0x09, 0x0D), (0x20, 0x20), (0x85, 0x85), (0xA0, 0xA0), (0x1680, 0x1680),
    (0x2000, 0x200A), (0x2028, 0x2029), (0x202F, 0x202F), (0x205F, 0x205F),
    (0x3000, 0x3000)]

/-- Membership in the Unicode property `White_Space`. -/
def isBlank (character : Char) : Bool :=
  blankRanges.any fun (first, last) => first ≤ character.toNat && character.toNat ≤ last

/-- Every character that the standard library calls whitespace is blank. -/
theorem isBlank_of_isWhitespace {character : Char} (white : character.isWhitespace) :
    isBlank character := by
  simp only [Char.isWhitespace, Bool.or_eq_true, decide_eq_true_eq] at white
  rcases white with ((rfl | rfl) | rfl) | rfl <;> decide

/-- A list of characters without the blank characters at its start. -/
def dropLeadingBlank (characters : List Char) : List Char :=
  characters.dropWhile isBlank

/-- A list of characters without the blank characters at its end. -/
def dropTrailingBlank (characters : List Char) : List Char :=
  (characters.reverse.dropWhile isBlank).reverse

/-- A list of characters without the blank characters at its two ends. -/
def trimList (characters : List Char) : List Char :=
  dropTrailingBlank (dropLeadingBlank characters)

/-- A text without the blank characters at its two ends. -/
def trim (text : String) : String :=
  String.ofList (trimList text.toList)

/-- Whether a text has no character that is not blank. -/
def isBlankText (text : String) : Bool :=
  text.toList.all isBlank

/-- The words of a text: its longest runs of characters that are not blank. -/
def words (text : String) : List String :=
  go [] text.toList
where
  /-- Collects a word, last character first, and closes it at a blank. -/
  go : List Char → List Char → List String
    | word, [] => close word
    | word, character :: rest =>
      if isBlank character then close word ++ go [] rest else go (character :: word) rest
  /-- A word that has no characters is none. -/
  close (word : List Char) : List String :=
    if word.isEmpty then [] else [String.ofList word.reverse]

end Polyglot.Text
