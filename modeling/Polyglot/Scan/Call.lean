import Polyglot.Scan.Lexeme
import Polyglot.Text.Blank

/-!
# Call sites

A *bare call* of a name is that name as a whole word, spaces or tabs, and an
opening parenthesis, where the name is neither a member of something, nor being
declared, nor already awaited.
-/

namespace Polyglot.Scan

open Text

/-- The ASCII bytes that may stand between a word and what is before it. -/
def isAsciiBlank (byte : UInt8) : Bool :=
  byte = 0x20 || byte = 0x09 || byte = 0x0A || byte = 0x0C || byte = 0x0D

/-- The spaces and tabs that may stand between a name and its parenthesis. -/
def isGap (byte : UInt8) : Bool :=
  byte = 0x20 || byte = 0x09

/-- The words after which a name and a parenthesis are no plain call. -/
def blockingWords : List Bytes :=
  ["def", "function", "await"].map encode

/-- Whether what stands before a name, last byte first, keeps it from being
called plainly: a point, or a blocking word. -/
def isBlocked (flavour : Flavour) (before : Bytes) : Bool :=
  let before := before.dropWhile isAsciiBlank
  before.head? = some (ascii '.')
    || blockingWords.contains (before.takeWhile flavour.isWordByte).reverse

/-- A name with the gap that follows it. -/
structure Callee where
  /-- The name and the gap up to the opening parenthesis. -/
  name : Bytes
  /-- What follows the opening parenthesis. -/
  inside : Bytes
  deriving Repr, DecidableEq

/-- The bare call of `name` that begins here, after the bytes `before`, last
byte first. -/
def callSite? (flavour : Flavour) (name before here : Bytes) : Option Callee :=
  if name.isPrefixOf here && !(before.head?.any flavour.isWordByte) then
    let after := here.drop name.length
    let gap := after.takeWhile isGap
    if after.head?.any flavour.isWordByte then none
    else
      match after.dropWhile isGap with
      | [] => none
      | byte :: inside =>
        if byte = ascii '(' && !isBlocked flavour before then some ⟨name ++ gap, inside⟩
        else none
  else none

/-- What is left of a text from the parenthesis on that closes the innermost of
`depth + 1` open ones, passing over literals and comments. -/
def closing? (flavour : Flavour) (depth : Nat) (bytes : Bytes) : Option Bytes :=
  match bytes with
  | [] => none
  | byte :: rest =>
    match _skipped : skip? flavour byte rest with
    | some after => closing? flavour depth after
    | none =>
      if byte = ascii '(' then closing? flavour (depth + 1) rest
      else if byte = ascii ')' then
        match depth with
        | 0 => some (byte :: rest)
        | depth + 1 => closing? flavour depth rest
      else closing? flavour depth rest
termination_by bytes.length
decreasing_by
  · exact Nat.lt_succ_of_le (length_skip?_le _skipped)
  · simp
  · simp
  · simp

theorem length_closing?_le {flavour : Flavour} {depth : Nat} {bytes closed : Bytes}
    (found : closing? flavour depth bytes = some closed) : closed.length ≤ bytes.length := by
  fun_induction closing? flavour depth bytes with
  | case1 => simp at found
  | case2 depth byte rest after skipped ih =>
    have := length_skip?_le skipped
    have := ih found
    simp; omega
  | case3 => rename_i ih; have := ih found; simp; omega
  | case4 => cases found; simp
  | case5 => rename_i ih; have := ih found; simp; omega
  | case6 => rename_i ih; have := ih found; simp; omega

/-- The arguments of a call. -/
structure Arguments where
  /-- What stands between the two parentheses. -/
  inside : Bytes
  /-- What follows the closing parenthesis. -/
  after : Bytes
  deriving Repr, DecidableEq

/-- The arguments whose text begins here, if their parenthesis is closed. -/
def arguments? (flavour : Flavour) (here : Bytes) : Option Arguments :=
  (closing? flavour 0 here).map fun closed =>
    ⟨here.take (here.length - closed.length), closed.drop 1⟩

theorem length_arguments?_le {flavour : Flavour} {here : Bytes} {found : Arguments}
    (closed : arguments? flavour here = some found) :
    found.inside.length ≤ here.length ∧ found.after.length ≤ here.length := by
  obtain ⟨end_, ended, rfl⟩ := Option.map_eq_some_iff.1 closed
  have := length_closing?_le ended
  simp only [List.length_take, List.length_drop]
  omega

/-- Whether an argument text is one terminated literal with nothing but blank
characters around it. -/
def isSingleLiteral (flavour : Flavour) (inside : Bytes) : Bool :=
  match encode (trim (decode inside)) with
  | [] => false
  | byte :: rest => flavour.isQuote byte && scanLiteral flavour byte rest = ⟨[], true⟩

theorem length_callSite?_le {flavour : Flavour} {name before here : Bytes} {found : Callee}
    (called : callSite? flavour name before here = some found) :
    found.inside.length < here.length := by
  unfold callSite? at called
  split at called
  · dsimp only at called
    split at called
    · simp at called
    · split at called
      · simp at called
      · next byte inside blanks =>
        split at called
        · cases called
          have shorter := (List.dropWhile_sublist isGap (l := here.drop name.length)).length_le
          rw [blanks] at shorter
          simp at shorter ⊢
          omega
        · simp at called
  · simp at called

end Polyglot.Scan
