/-!
# Texts as bytes

A text is written as its UTF-8 bytes.  Reading bytes back never fails: a
sequence that is no character becomes one replacement character for each
longest start of a character that it holds, as the Unicode standard recommends.
-/

namespace Polyglot.Text

/-- A sequence of bytes. -/
abbrev Bytes := List UInt8

/-- The byte of an ASCII character. -/
abbrev ascii (character : Char) : UInt8 := character.toUInt8

/-- The UTF-8 bytes of a text. -/
def encode (text : String) : Bytes :=
  text.toUTF8.data.toList

/-- The character that stands for bytes that are no character. -/
def replacement : Char := '\uFFFD'

/-- A character of which some bytes have been read. -/
structure OpenCharacter where
  /-- The number of bytes still to come. -/
  missing : Nat
  /-- The bits read so far. -/
  value : Nat
  /-- The least byte that may come next. -/
  low : UInt8
  /-- The greatest byte that may come next. -/
  high : UInt8
  deriving Repr, DecidableEq

/-- What the first byte of a character says: a whole character, the start of a
longer one, or nothing valid. -/
def leadByte (byte : UInt8) : List Char × Option OpenCharacter :=
  if byte < 0x80 then ([Char.ofNat byte.toNat], none)
  else if 0xC2 ≤ byte && byte ≤ 0xDF then ([], some ⟨1, byte.toNat - 0xC0, 0x80, 0xBF⟩)
  else if byte = 0xE0 then ([], some ⟨2, 0, 0xA0, 0xBF⟩)
  else if byte = 0xED then ([], some ⟨2, 0xD, 0x80, 0x9F⟩)
  else if 0xE1 ≤ byte && byte ≤ 0xEF then ([], some ⟨2, byte.toNat - 0xE0, 0x80, 0xBF⟩)
  else if byte = 0xF0 then ([], some ⟨3, 0, 0x90, 0xBF⟩)
  else if byte = 0xF4 then ([], some ⟨3, 4, 0x80, 0x8F⟩)
  else if 0xF1 ≤ byte && byte ≤ 0xF3 then ([], some ⟨3, byte.toNat - 0xF0, 0x80, 0xBF⟩)
  else ([replacement], none)

/-- Reads one byte after the bytes of `state`: the characters that are now
complete and the character that is now open. -/
def decodeByte (state : Option OpenCharacter) (byte : UInt8) : List Char × Option OpenCharacter :=
  match state with
  | none => leadByte byte
  | some started =>
    if started.low ≤ byte && byte ≤ started.high then
      let value := started.value * 64 + (byte.toNat - 0x80)
      if started.missing ≤ 1 then ([Char.ofNat value], none)
      else ([], some ⟨started.missing - 1, value, 0x80, 0xBF⟩)
    else
      let (characters, next) := leadByte byte
      (replacement :: characters, next)

/-- The characters that bytes stand for, after the bytes of `state`. -/
def decodeFrom (state : Option OpenCharacter) : Bytes → List Char
  | [] => if state.isSome then [replacement] else []
  | byte :: rest =>
    let (characters, next) := decodeByte state byte
    characters ++ decodeFrom next rest

/-- The text that bytes stand for, with a replacement character for what is no
character. -/
def decode (bytes : Bytes) : String :=
  String.ofList (decodeFrom none bytes)

/-- The text that bytes stand for, if they are the bytes of a text. -/
def decode? (bytes : Bytes) : Option String :=
  let text := decode bytes
  if encode text = bytes then some text else none

end Polyglot.Text
