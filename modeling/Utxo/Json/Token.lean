/-
**The words of JSON.**

* `Json.Token`: brackets, marks, and the values that are not made of others.
* `Json.tokens`: the words of a text, blanks left out. Where the text stops being made of words,
  `Token.unreadable` stands and ends the list.
-/

import Utxo.Json.Number
import Utxo.Json.Text

namespace Utxo.Json

/-- A word. -/
inductive Token
  | openArray
  | closeArray
  | openObject
  | closeObject
  | comma
  | colon
  | null
  | bool (value : Bool)
  | number (value : Number)
  | string (value : Text)
  | unreadable
deriving DecidableEq, Repr

/-- Space, tab, line feed and carriage return. -/
def isBlank (c : Char) : Bool := c == ' ' || c == '\t' || c == '\n' || c == '\r'

/-- The word at the front of a text, and what follows it. -/
def scanToken? : List Char → Option (Token × List Char)
  | '[' :: rest => some (.openArray, rest)
  | ']' :: rest => some (.closeArray, rest)
  | '{' :: rest => some (.openObject, rest)
  | '}' :: rest => some (.closeObject, rest)
  | ',' :: rest => some (.comma, rest)
  | ':' :: rest => some (.colon, rest)
  | '"' :: rest => (fun (value, rest) => (.string value, rest)) <$> scanText? [] rest
  | 'n' :: 'u' :: 'l' :: 'l' :: rest => some (.null, rest)
  | 't' :: 'r' :: 'u' :: 'e' :: rest => some (.bool true, rest)
  | 'f' :: 'a' :: 'l' :: 's' :: 'e' :: rest => some (.bool false, rest)
  | source => (fun (value, rest) => (.number value, rest)) <$> scanNumber? source

/-- A word takes at least one character. -/
theorem length_lt_of_scanToken? {source rest : List Char} {token : Token}
    (scanned : scanToken? source = some (token, rest)) : rest.length < source.length := by
  unfold scanToken? at scanned
  split at scanned
  case h_7 source =>
    obtain ⟨⟨text, after⟩, found, same⟩ := Option.map_eq_some_iff.mp scanned
    cases same
    have shorter := length_lt_of_scanText? found
    simp only [List.length_cons]
    omega
  case h_11 =>
    obtain ⟨⟨number, after⟩, found, same⟩ := Option.map_eq_some_iff.mp scanned
    cases same
    exact length_lt_of_scanNumber? found
  all_goals
    cases scanned
    simp only [List.length_cons]
    omega

/-- The words of a text. -/
def tokens (source : List Char) : List Token :=
  match source with
  | [] => []
  | c :: rest =>
    if isBlank c then tokens rest
    else match _scanned : scanToken? (c :: rest) with
      | some (token, after) => token :: tokens after
      | none => [.unreadable]
termination_by source.length
decreasing_by
  · simp
  · exact length_lt_of_scanToken? _scanned

end Utxo.Json
