/-
**A value is read back from its own compact text.**

* `Json.isPlain`: nothing is broken, numbers are whole and strings need no units; `Json.words`: the words
  of a value.
* `Json.tokens_compact`: the text of a plain value is made of these words, by induction on the value.
* `Json.build_words`: they are read as this value, in any open container, by induction on the value.
* `Document.ofString_compact`: so the text of a plain value holds this value and nothing else.
-/

import Utxo.Json.Document
import Utxo.Proofs.Json.Scanning

namespace Utxo.Json

/-! ### Words of a text -/

variable {source behind : List Char} {token : Token} {c : Char}

theorem tokens_nil : tokens [] = [] := by
  rw [tokens]

theorem tokens_of_scanned (visible : isBlank c = false)
    (scanned : scanToken? (c :: source) = some (token, behind)) :
    tokens (c :: source) = token :: tokens behind := by
  rw [tokens, if_neg (by rw [visible]; decide)]
  split
  next other after found =>
    rw [scanned] at found
    cases found
    rfl
  next none =>
    rw [scanned] at none
    cases none

/-- The first character of a numeral. -/
def BeginsNumeral (c : Char) : Prop := c = '-' ∨ Decimal.isDigit c = true

theorem isBlank_of_beginsNumeral (numeral : BeginsNumeral c) : isBlank c = false := by
  rcases numeral with rfl | digit
  · rfl
  · cases blank : isBlank c with
    | false => rfl
    | true =>
      simp only [isBlank, Bool.or_eq_true, beq_iff_eq] at blank
      rcases blank with ((rfl | rfl) | rfl) | rfl <;> cases digit

theorem scanToken?_of_beginsNumeral (numeral : BeginsNumeral c) :
    scanToken? (c :: source) =
      (fun (value, rest) => (.number value, rest)) <$> scanNumber? (c :: source) := by
  rcases numeral with rfl | digit
  · rfl
  · unfold scanToken?
    split
    case h_11 => rfl
    all_goals
      rename_i same
      cases same
      cases digit

theorem exists_render_eq_cons (number : Number) :
    ∃ first rest, number.render = first :: rest ∧ BeginsNumeral first := by
  have signed : ∃ back, number.render =
      (if number.negative then ['-'] else []) ++ (Decimal.render number.whole ++ back) :=
    ⟨_, by rw [Number.render, List.append_assoc, List.append_assoc]⟩
  obtain ⟨back, signed⟩ := signed
  obtain ⟨first, more, same, -⟩ := Decimal.exists_render_eq_cons number.whole
  cases sign : number.negative with
  | true =>
    rw [sign] at signed
    exact ⟨'-', _, signed, Or.inl rfl⟩
  | false =>
    rw [sign, same] at signed
    have member : first ∈ Decimal.render number.whole := by
      rw [same]
      exact List.mem_cons_self
    exact ⟨first, _, signed, Or.inr (Decimal.isDigit_of_mem_render member)⟩

theorem tokens_number {number : Number} (plain : number.isPlain) (follows : Follows behind) :
    tokens (number.render ++ behind) = .number number :: tokens behind := by
  obtain ⟨first, rest, same, numeral⟩ := exists_render_eq_cons number
  have scanned := scanNumber?_render plain follows
  rw [same, List.cons_append] at scanned ⊢
  refine tokens_of_scanned (isBlank_of_beginsNumeral numeral) ?_
  rw [scanToken?_of_beginsNumeral numeral, scanned]
  rfl

theorem tokens_string {text : Text} (plain : text.isPlain) (behind : List Char) :
    tokens (text.render ++ behind) = .string text :: tokens behind := by
  have scanned := scanText?_render plain [] behind
  have same : text.render ++ behind = '"' :: (text.flatMap Piece.render ++ '"' :: behind) := by
    simp [Text.render]
  rw [same]
  refine tokens_of_scanned rfl ?_
  rw [scanToken?, scanned]
  rfl

/-! ### Words of a value -/

mutual

/-- Whether the text of the value says all of it: nothing is broken, numbers are whole, and strings need no
units. -/
def isPlain : Json → Bool
  | .null => true
  | .bool _ => true
  | .number value => value.isPlain
  | .string value => value.isPlain
  | .array elements => arePlain elements
  | .object members => membersArePlain members
  | .broken => false

/-- Whether all elements are plain. -/
def arePlain : List Json → Bool
  | [] => true
  | element :: rest => element.isPlain && arePlain rest

/-- Whether all members are plain. -/
def membersArePlain : List (Text × Json) → Bool
  | [] => true
  | member :: rest => memberIsPlain member && membersArePlain rest

/-- Whether key and value of a member are plain. -/
def memberIsPlain : Text × Json → Bool
  | (key, value) => key.isPlain && value.isPlain

end

mutual

/-- The words of a value. -/
def words : Json → List Token
  | .null => [.null]
  | .bool value => [.bool value]
  | .number value => [.number value]
  | .string value => [.string value]
  | .array elements => .openArray :: elementWords elements ++ [.closeArray]
  | .object members => .openObject :: membersWords members ++ [.closeObject]
  | .broken => [.unreadable]

/-- The words of elements, with commas between them. -/
def elementWords : List Json → List Token
  | [] => []
  | [element] => element.words
  | element :: rest => element.words ++ .comma :: elementWords rest

/-- The words of members, with commas between them. -/
def membersWords : List (Text × Json) → List Token
  | [] => []
  | [member] => memberWords member
  | member :: rest => memberWords member ++ .comma :: membersWords rest

/-- The words of a key and its value. -/
def memberWords : Text × Json → List Token
  | (key, value) => .string key :: .colon :: value.words

end

/-! ### The text of a value is made of its words -/

theorem follows_comma (behind : List Char) : Follows (',' :: behind) :=
  follows_cons rfl (by decide) (by decide) (by decide)

theorem follows_closeArray (behind : List Char) : Follows (']' :: behind) :=
  follows_cons rfl (by decide) (by decide) (by decide)

theorem follows_closeObject (behind : List Char) : Follows ('}' :: behind) :=
  follows_cons rfl (by decide) (by decide) (by decide)

theorem tokens_comma (behind : List Char) : tokens (',' :: behind) = .comma :: tokens behind :=
  tokens_of_scanned rfl rfl

theorem tokens_colon (behind : List Char) : tokens (':' :: behind) = .colon :: tokens behind :=
  tokens_of_scanned rfl rfl

/-- What stands between brackets is read behind the opening one and before the closing one. -/
theorem tokens_brackets {opening closing : Char} {openToken closeToken : Token} {inner : List Char}
    {innerWords : List Token} {behind : List Char}
    (opens : ∀ rest, tokens (opening :: rest) = openToken :: tokens rest)
    (closes : ∀ rest, tokens (closing :: rest) = closeToken :: tokens rest)
    (read : tokens (inner ++ closing :: behind) = innerWords ++ tokens (closing :: behind)) :
    tokens ((opening :: inner ++ [closing]) ++ behind) =
      (openToken :: innerWords ++ [closeToken]) ++ tokens behind := by
  have text : (opening :: inner ++ [closing]) ++ behind = opening :: (inner ++ closing :: behind) := by
    simp
  rw [text, opens, read, closes]
  simp

mutual

/-- **The text of a plain value is made of its words.** -/
theorem tokens_compact (json : Json) (plain : json.isPlain) {behind : List Char}
    (follows : Follows behind) : tokens (json.compact ++ behind) = json.words ++ tokens behind := by
  match json with
  | .null => exact tokens_of_scanned rfl rfl
  | .bool true => exact tokens_of_scanned rfl rfl
  | .bool false => exact tokens_of_scanned rfl rfl
  | .number value => exact tokens_number plain follows
  | .string value => exact tokens_string plain behind
  | .array elements =>
    have inner := tokens_compactElements elements plain (follows_closeArray behind)
    exact tokens_brackets (fun _ => tokens_of_scanned rfl rfl) (fun _ => tokens_of_scanned rfl rfl) inner
  | .object members =>
    have inner := tokens_compactMembers members plain (follows_closeObject behind)
    exact tokens_brackets (fun _ => tokens_of_scanned rfl rfl) (fun _ => tokens_of_scanned rfl rfl) inner

theorem tokens_compactElements (elements : List Json) (plain : arePlain elements) {behind : List Char}
    (follows : Follows behind) :
    tokens (compactElements elements ++ behind) = elementWords elements ++ tokens behind := by
  match elements with
  | [] => rfl
  | [element] =>
    obtain ⟨here, -⟩ := Bool.and_eq_true_iff.mp plain
    exact tokens_compact element here follows
  | element :: next :: rest =>
    obtain ⟨here, there⟩ := Bool.and_eq_true_iff.mp plain
    show tokens ((element.compact ++ ',' :: compactElements (next :: rest)) ++ behind) =
      (element.words ++ .comma :: elementWords (next :: rest)) ++ tokens behind
    rw [List.append_assoc, List.cons_append, tokens_compact element here (follows_comma _),
      tokens_comma, tokens_compactElements (next :: rest) there follows, List.append_assoc,
      List.cons_append]

theorem tokens_compactMembers (members : List (Text × Json)) (plain : membersArePlain members)
    {behind : List Char} (follows : Follows behind) :
    tokens (compactMembers members ++ behind) = membersWords members ++ tokens behind := by
  match members with
  | [] => rfl
  | [member] =>
    obtain ⟨here, -⟩ := Bool.and_eq_true_iff.mp plain
    exact tokens_compactMember member here follows
  | member :: next :: rest =>
    obtain ⟨here, there⟩ := Bool.and_eq_true_iff.mp plain
    show tokens ((compactMember member ++ ',' :: compactMembers (next :: rest)) ++ behind) =
      (memberWords member ++ .comma :: membersWords (next :: rest)) ++ tokens behind
    rw [List.append_assoc, List.cons_append, tokens_compactMember member here (follows_comma _),
      tokens_comma, tokens_compactMembers (next :: rest) there follows, List.append_assoc,
      List.cons_append]

theorem tokens_compactMember (member : Text × Json) (plain : memberIsPlain member)
    {behind : List Char} (follows : Follows behind) :
    tokens (compactMember member ++ behind) = memberWords member ++ tokens behind := by
  match member with
  | (key, value) =>
    obtain ⟨keyPlain, valuePlain⟩ := Bool.and_eq_true_iff.mp plain
    rw [compactMember, memberWords, List.append_assoc, List.cons_append, tokens_string keyPlain,
      tokens_colon, tokens_compact value valuePlain follows]
    rfl

end

/-! ### The words of a value are read as this value -/

/-- The first element is read as every other one, into an array without elements. -/
theorem build_firstElement {element : Json} (plain : element.isPlain) (rest : List Json)
    (frames : List Frame) (behind : List Token) :
    build frames .firstElement (elementWords (element :: rest) ++ behind) =
      build (.array [] :: frames) .value (elementWords (element :: rest) ++ behind) := by
  have front : ∀ more, build frames .firstElement (element.words ++ more) =
      build (.array [] :: frames) .value (element.words ++ more) := by
    intro more
    -- no value begins with the bracket that would close the array
    cases element with
    | broken => cases plain
    | _ => rfl
  cases rest with
  | nil => exact front behind
  | cons next rest =>
    show build frames .firstElement ((element.words ++ .comma :: elementWords (next :: rest)) ++ behind) =
      build _ .value ((element.words ++ .comma :: elementWords (next :: rest)) ++ behind)
    rw [List.append_assoc, front]

/-- The first member is read as every other one, into an object without members. -/
theorem build_firstKey (member : Text × Json) (rest : List (Text × Json)) (frames : List Frame)
    (behind : List Token) :
    build frames .firstKey (membersWords (member :: rest) ++ behind) =
      build frames (.key []) (membersWords (member :: rest) ++ behind) := by
  obtain ⟨key, value⟩ := member
  cases rest <;> rfl

mutual

/-- **The words of a plain value are read as this value**, in any open container. -/
theorem build_words (json : Json) (plain : json.isPlain) (frames : List Frame) (behind : List Token) :
    build frames .value (json.words ++ behind) = build frames (.afterValue json) behind := by
  match json with
  | .null => rfl
  | .bool _ => rfl
  | .number _ => rfl
  | .string _ => rfl
  | .array [] => rfl
  | .object [] => rfl
  | .array (element :: rest) =>
    obtain ⟨here, -⟩ := Bool.and_eq_true_iff.mp plain
    show build frames .firstElement ((elementWords (element :: rest) ++ [.closeArray]) ++ behind) = _
    rw [List.append_assoc, build_firstElement here]
    exact build_elementWords (element :: rest) (List.cons_ne_nil _ _) plain [] frames behind
  | .object (member :: rest) =>
    show build frames .firstKey ((membersWords (member :: rest) ++ [.closeObject]) ++ behind) = _
    rw [List.append_assoc, build_firstKey]
    exact build_membersWords (member :: rest) (List.cons_ne_nil _ _) plain [] frames behind

/-- Elements are read into the array that is open. -/
theorem build_elementWords (elements : List Json) (nonempty : elements ≠ []) (plain : arePlain elements)
    (before : List Json) (frames : List Frame) (behind : List Token) :
    build (.array before :: frames) .value (elementWords elements ++ .closeArray :: behind) =
      build frames (.afterValue (.array (before.reverse ++ elements))) behind := by
  match elements with
  | [] => exact absurd rfl nonempty
  | [element] =>
    obtain ⟨here, -⟩ := Bool.and_eq_true_iff.mp plain
    show build _ .value (element.words ++ .closeArray :: behind) = _
    rw [build_words element here, ← List.reverse_cons]
    rfl
  | element :: next :: rest =>
    obtain ⟨here, there⟩ := Bool.and_eq_true_iff.mp plain
    show build _ .value
      ((element.words ++ .comma :: elementWords (next :: rest)) ++ .closeArray :: behind) = _
    rw [List.append_assoc, build_words element here]
    -- behind the comma the array is open with one more element in it
    show build (.array (element :: before) :: frames) .value
      (elementWords (next :: rest) ++ .closeArray :: behind) = _
    rw [build_elementWords (next :: rest) (List.cons_ne_nil _ _) there, List.reverse_cons,
      List.append_assoc]
    rfl

/-- Members are read into the object that is open. -/
theorem build_membersWords (members : List (Text × Json)) (nonempty : members ≠ [])
    (plain : membersArePlain members) (before : List (Text × Json)) (frames : List Frame)
    (behind : List Token) :
    build frames (.key before) (membersWords members ++ .closeObject :: behind) =
      build frames (.afterValue (.object (before.reverse ++ members))) behind := by
  match members with
  | [] => exact absurd rfl nonempty
  | [member] =>
    obtain ⟨here, -⟩ := Bool.and_eq_true_iff.mp plain
    show build _ (.key before) (memberWords member ++ .closeObject :: behind) = _
    rw [build_memberWords member here, ← List.reverse_cons]
    rfl
  | member :: next :: rest =>
    obtain ⟨here, there⟩ := Bool.and_eq_true_iff.mp plain
    show build _ (.key before)
      ((memberWords member ++ .comma :: membersWords (next :: rest)) ++ .closeObject :: behind) = _
    rw [List.append_assoc, build_memberWords member here]
    show build frames (.key (member :: before))
      (membersWords (next :: rest) ++ .closeObject :: behind) = _
    rw [build_membersWords (next :: rest) (List.cons_ne_nil _ _) there, List.reverse_cons,
      List.append_assoc]
    rfl

/-- A member is read as the value behind its key. -/
theorem build_memberWords (member : Text × Json) (plain : memberIsPlain member)
    (before : List (Text × Json)) (frames : List Frame) (behind : List Token) :
    build frames (.key before) (memberWords member ++ behind) =
      build (.object before member.1 :: frames) (.afterValue member.2) behind := by
  match member with
  | (key, value) =>
    obtain ⟨-, valuePlain⟩ := Bool.and_eq_true_iff.mp plain
    exact build_words value valuePlain (.object before key :: frames) behind

end

/-- **The compact text of a plain value holds this value and nothing else.** -/
theorem Document.ofString_compact {json : Json} (plain : json.isPlain) :
    Document.ofString (String.ofList json.compact) = ⟨json, true⟩ := by
  have scanned := tokens_compact json plain follows_nil
  rw [List.append_nil, tokens_nil] at scanned
  rw [Document.ofString, String.toList_ofList, scanned, build_words json plain]
  rfl

end Utxo.Json
