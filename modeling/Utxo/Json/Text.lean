/-
**Strings of JSON, as they are written.**

An escape `\u` names a unit of UTF-16, and two of them may stand for one character; a lone half of
such a pair stands for none. So a string is kept as characters and escaped units, and what it says
is looked up afterwards.

* `Json.Text`: a string; `Text.ofString`, and `Text.toString?`, which has no answer for a lone half.
* `Json.scanText?`: a string from the text behind its opening quote.
* `Json.Text.render`: the string between quotes.
-/

import Utxo.Text.Hex

namespace Utxo.Json

/-- A character of a string, or a unit of UTF-16 that was written as an escape. -/
inductive Piece
  | char (c : Char)
  | unit (value : Nat)
deriving DecidableEq, Repr

/-- A string, piece by piece. -/
abbrev Text := List Piece

namespace Text

/-- The string of these characters. -/
def ofString (s : String) : Text := s.toList.map .char

/-- Whether a unit is the first half of a pair. -/
def isHighHalf (unit : Nat) : Bool := 0xd800 ≤ unit && unit < 0xdc00

/-- Whether a unit is the second half of a pair. -/
def isLowHalf (unit : Nat) : Bool := 0xdc00 ≤ unit && unit < 0xe000

/-- The characters of a string. -/
def chars? : Text → Option (List Char)
  | [] => some []
  | .char c :: rest => (c :: ·) <$> chars? rest
  | .unit high :: .unit low :: rest =>
    if isHighHalf high then
      if isLowHalf low then
        (Char.ofNat (0x10000 + (high - 0xd800) * 0x400 + (low - 0xdc00)) :: ·) <$> chars? rest
      else none
    else if isLowHalf high then none
    else (Char.ofNat high :: ·) <$> chars? (.unit low :: rest)
  | .unit unit :: rest =>
    if isHighHalf unit || isLowHalf unit then none else (Char.ofNat unit :: ·) <$> chars? rest

/-- What the string says, if each of its halves has a partner. -/
def toString? (text : Text) : Option String := String.ofList <$> chars? text

/-- Characters that are not escaped say themselves. -/
theorem chars?_map_char (chars : List Char) : chars? (chars.map .char) = some chars := by
  induction chars with
  | nil => rfl
  | cons c rest ih => simp [chars?, ih]

/-- The string of a text says that text. -/
theorem toString?_ofString (s : String) : (ofString s).toString? = some s := by
  simp [toString?, ofString, chars?_map_char]

end Text

/-- The character of an escape of one letter. -/
def escaped? : Char → Option Char
  | '"' => some '"'
  | '\\' => some '\\'
  | '/' => some '/'
  | 'b' => some '\x08'
  | 'f' => some '\x0c'
  | 'n' => some '\n'
  | 'r' => some '\r'
  | 't' => some '\t'
  | _ => none

/-- The number of four hexadecimal digits. -/
def unit? (first second third fourth : Char) : Option Nat := do
  return 4096 * (← Hex.digit? first) + 256 * (← Hex.digit? second) + 16 * (← Hex.digit? third) +
    (← Hex.digit? fourth)

/-- The string behind an opening quote, and what follows its closing one; `done` holds the pieces
that were read, latest first. Control characters have to be escaped. -/
def scanText? (done : Text) : List Char → Option (Text × List Char)
  | [] => none
  | '"' :: rest => some (done.reverse, rest)
  | '\\' :: 'u' :: first :: second :: third :: fourth :: rest =>
    match unit? first second third fourth with
    | some unit => scanText? (.unit unit :: done) rest
    | none => none
  | '\\' :: letter :: rest =>
    match escaped? letter with
    | some c => scanText? (.char c :: done) rest
    | none => none
  | c :: rest => if c < ' ' then none else scanText? (.char c :: done) rest

/-- A string takes at least its closing quote. -/
theorem length_lt_of_scanText? {done text : Text} {source rest : List Char}
    (scanned : scanText? done source = some (text, rest)) : rest.length < source.length := by
  fun_induction scanText? done source with
  | case1 => cases scanned
  | case2 =>
    cases scanned
    simp
  | case3 _ _ _ _ _ _ _ _ ih | case5 _ _ _ _ _ _ ih | case8 _ _ _ _ _ _ _ ih =>
    have shorter := ih scanned
    simp only [List.length_cons]
    omega
  | case4 | case6 | case7 => cases scanned

/-- Four hexadecimal digits. -/
def fourDigits (number : Nat) : List Char :=
  [Hex.digit (number / 4096 % 16), Hex.digit (number / 256 % 16), Hex.digit (number / 16 % 16),
    Hex.digit (number % 16)]

/-- A piece, escaped where it has to be. -/
def Piece.render : Piece → List Char
  | .char '"' => ['\\', '"']
  | .char '\\' => ['\\', '\\']
  | .char c => if c < ' ' then '\\' :: 'u' :: fourDigits c.toNat else [c]
  | .unit value => '\\' :: 'u' :: fourDigits value

/-- A string between quotes. -/
def Text.render (text : Text) : List Char := '"' :: text.flatMap Piece.render ++ ['"']

end Utxo.Json
