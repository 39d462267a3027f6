/-
**Texts as JSON values.**

The words of a text are read from the left; the containers that are open lie on a stack of frames.
A text that stops being JSON still yields what was read before that point, with `Json.broken` at it.

* `Json.Document`: the value that a text starts with, and whether the text holds nothing else.
* `Json.build`: the reading of words.
* `Document.ofString`: the reading of a text.
-/

import Utxo.Json.Basic
import Utxo.Json.Token

namespace Utxo.Json

/-- A container that is not closed yet, with the elements or members before the one that is being
read, latest first. -/
inductive Frame
  | array (before : List Json)
  | object (before : List (Text × Json)) (key : Text)

/-- What was read last, or what may come next. -/
inductive Expectation
  | value
  | firstElement
  | firstKey
  | key (before : List (Text × Json))
  | colon (before : List (Text × Json)) (key : Text)
  | afterValue (value : Json)

/-- The value that a text starts with, and whether nothing follows it. -/
structure Document where
  value : Json
  isWhole : Bool

/-- The value of the outermost frame if `value` is the last thing in the innermost. -/
def wrap (value : Json) : List Frame → Json
  | [] => value
  | .array before :: outer => wrap (.array (value :: before).reverse) outer
  | .object before key :: outer => wrap (.object ((key, value) :: before).reverse) outer

/-- What was read of a text that breaks off. A member whose key was not read has an empty one. -/
def abandon (frames : List Frame) : Expectation → Document
  | .value => ⟨wrap .broken frames, false⟩
  | .firstElement => ⟨wrap .broken (.array [] :: frames), false⟩
  | .firstKey => ⟨wrap .broken (.object [] [] :: frames), false⟩
  | .key before => ⟨wrap .broken (.object before [] :: frames), false⟩
  | .colon before key => ⟨wrap .broken (.object before key :: frames), false⟩
  | .afterValue value =>
    match frames with
    | [] => ⟨value, false⟩
    | .array before :: outer => ⟨wrap .broken (.array (value :: before) :: outer), false⟩
    | .object before key :: outer =>
      ⟨wrap .broken (.object ((key, value) :: before) [] :: outer), false⟩

/-- The value that a single word is. -/
def scalar? : Token → Option Json
  | .null => some .null
  | .bool value => some (.bool value)
  | .number value => some (.number value)
  | .string value => some (.string value)
  | _ => none

/-- The next expectation and the open frames behind the word that a value starts with. -/
def startValue? (frames : List Frame) : Token → Option (Expectation × List Frame)
  | .openArray => some (.firstElement, frames)
  | .openObject => some (.firstKey, frames)
  | token => (fun value => (.afterValue value, frames)) <$> scalar? token

/-- The next expectation and the open frames behind a word; none for a word that cannot stand
there. -/
def next? (frames : List Frame) (expectation : Expectation) (token : Token) :
    Option (Expectation × List Frame) :=
  match expectation, token with
  | .value, token => startValue? frames token
  | .firstElement, .closeArray => some (.afterValue (.array []), frames)
  | .firstElement, token => startValue? (.array [] :: frames) token
  | .firstKey, .closeObject => some (.afterValue (.object []), frames)
  | .firstKey, .string key => some (.colon [] key, frames)
  | .key before, .string key => some (.colon before key, frames)
  | .colon before key, .colon => some (.value, .object before key :: frames)
  | .afterValue value, .comma =>
    match frames with
    | .array before :: outer => some (.value, .array (value :: before) :: outer)
    | .object before key :: outer => some (.key ((key, value) :: before), outer)
    | [] => none
  | .afterValue value, .closeArray =>
    match frames with
    | .array before :: outer => some (.afterValue (.array (value :: before).reverse), outer)
    | _ => none
  | .afterValue value, .closeObject =>
    match frames with
    | .object before key :: outer =>
      some (.afterValue (.object ((key, value) :: before).reverse), outer)
    | _ => none
  | _, _ => none

/-- Reads words up to the end, or up to one that cannot stand where it does. -/
def build (frames : List Frame) (expectation : Expectation) : List Token → Document
  | [] =>
    match frames, expectation with
    | [], .afterValue value => ⟨value, true⟩
    | _, _ => abandon frames expectation
  | token :: rest =>
    match next? frames expectation token with
    | some (expectation, frames) => build frames expectation rest
    | none => abandon frames expectation

/-- Reads a text. -/
def Document.ofString (text : String) : Document := build [] .value (tokens text.toList)

end Utxo.Json
