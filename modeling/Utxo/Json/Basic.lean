/-
**JSON values, and texts that break off.**

* `Json`: a value; `broken` stands where a text stopped being JSON, with all that was read before it
  still in place.
* `Json.isIntact`: nothing in the value is broken.
* `Json.compact` and `Json.pretty`: the value as text, without blanks or on indented lines.
-/

import Utxo.Json.Number
import Utxo.Json.Text

namespace Utxo

/-- A JSON value; an object keeps its members in the order of the text. -/
inductive Json
  | null
  | bool (value : Bool)
  | number (value : Json.Number)
  | string (value : Json.Text)
  | array (elements : List Json)
  | object (members : List (Json.Text × Json))
  | broken

namespace Json

mutual

/-- Whether the text did not break off anywhere in the value. -/
def isIntact : Json → Bool
  | .null => true
  | .bool _ => true
  | .number _ => true
  | .string _ => true
  | .array elements => areIntact elements
  | .object members => membersAreIntact members
  | .broken => false

/-- Whether all elements are intact. -/
def areIntact : List Json → Bool
  | [] => true
  | element :: rest => element.isIntact && areIntact rest

/-- Whether the values of all members are intact. -/
def membersAreIntact : List (Text × Json) → Bool
  | [] => true
  | member :: rest => memberIsIntact member && membersAreIntact rest

/-- Whether the value of a member is intact. -/
def memberIsIntact : Text × Json → Bool
  | (_, value) => value.isIntact

end

mutual

/-- The value as text without blanks. -/
def compact : Json → List Char
  | .null => ['n', 'u', 'l', 'l']
  | .bool true => ['t', 'r', 'u', 'e']
  | .bool false => ['f', 'a', 'l', 's', 'e']
  | .number value => value.render
  | .string value => value.render
  | .array elements => '[' :: compactElements elements ++ [']']
  | .object members => '{' :: compactMembers members ++ ['}']
  | .broken => []

/-- Elements with commas between them. -/
def compactElements : List Json → List Char
  | [] => []
  | [element] => element.compact
  | element :: rest => element.compact ++ ',' :: compactElements rest

/-- Members with commas between them. -/
def compactMembers : List (Text × Json) → List Char
  | [] => []
  | [member] => compactMember member
  | member :: rest => compactMember member ++ ',' :: compactMembers rest

/-- A key and its value. -/
def compactMember : Text × Json → List Char
  | (key, value) => key.render ++ ':' :: value.compact

end

/-- A new line at an indentation of so many levels, two blanks each. -/
def newLine (level : Nat) : List Char := '\n' :: List.replicate (2 * level) ' '

mutual

/-- The value as text, each element and member on a line of its own. -/
def pretty (level : Nat) : Json → List Char
  | .array [] => ['[', ']']
  | .array elements =>
    '[' :: prettyElements (level + 1) elements ++ newLine level ++ [']']
  | .object [] => ['{', '}']
  | .object members =>
    '{' :: prettyMembers (level + 1) members ++ newLine level ++ ['}']
  | .null => ['n', 'u', 'l', 'l']
  | .bool true => ['t', 'r', 'u', 'e']
  | .bool false => ['f', 'a', 'l', 's', 'e']
  | .number value => value.render
  | .string value => value.render
  | .broken => []

/-- Elements on lines of their own. -/
def prettyElements (level : Nat) : List Json → List Char
  | [] => []
  | [element] => newLine level ++ element.pretty level
  | element :: rest =>
    newLine level ++ element.pretty level ++ ',' :: prettyElements level rest

/-- Members on lines of their own. -/
def prettyMembers (level : Nat) : List (Text × Json) → List Char
  | [] => []
  | [member] => newLine level ++ prettyMember level member
  | member :: rest =>
    newLine level ++ prettyMember level member ++ ',' :: prettyMembers level rest

/-- A key and its value. -/
def prettyMember (level : Nat) : Text × Json → List Char
  | (key, value) => key.render ++ ':' :: ' ' :: value.pretty level

end

end Json

end Utxo
