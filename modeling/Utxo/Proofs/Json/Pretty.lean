/-
**A value is read back from its own indented text.**

Between words the blanks of an indentation say nothing (`Json.tokens_newLine`). So the indented text of a
plain value has the words of its compact one (`Json.tokens_pretty`, by induction on the value), and these
are read as that value: `Document.ofString_pretty`, and `JsonForm.Lawful.ofString_toPrettyString` for what
has a lawful form.
-/

import Utxo.Proofs.Json.Form

namespace Utxo

namespace Json

/-! ### Blanks between words -/

variable {behind : List Char}

theorem tokens_of_blank {c : Char} (blank : isBlank c = true) (behind : List Char) :
    tokens (c :: behind) = tokens behind := by
  rw [tokens, if_pos blank]

theorem tokens_blanks {blanks : List Char} (all : ∀ c ∈ blanks, isBlank c = true)
    (behind : List Char) : tokens (blanks ++ behind) = tokens behind := by
  induction blanks with
  | nil => rfl
  | cons c rest ih =>
    rw [List.forall_mem_cons] at all
    rw [List.cons_append, tokens_of_blank all.1, ih all.2]

/-- An indentation holds no words. -/
theorem tokens_newLine (level : Nat) (behind : List Char) :
    tokens (newLine level ++ behind) = tokens behind := by
  refine tokens_blanks ?_ behind
  intro c member
  rcases List.mem_cons.mp member with rfl | blank
  · rfl
  · rw [List.eq_of_mem_replicate blank]
    rfl

theorem follows_newLine (level : Nat) (behind : List Char) : Follows (newLine level ++ behind) :=
  follows_cons rfl (by decide) (by decide) (by decide)

/-- Lines between brackets, the closing one on a line of its own. -/
theorem tokens_lines {opening closing : Char} {openToken closeToken : Token} {lines : List Char}
    {lineWords : List Token} {level : Nat}
    (opens : ∀ rest, tokens (opening :: rest) = openToken :: tokens rest)
    (closes : ∀ rest, tokens (closing :: rest) = closeToken :: tokens rest)
    (read : tokens (lines ++ (newLine level ++ closing :: behind)) =
      lineWords ++ tokens (newLine level ++ closing :: behind)) :
    tokens ((opening :: lines ++ newLine level ++ [closing]) ++ behind) =
      (openToken :: lineWords ++ [closeToken]) ++ tokens behind := by
  rw [tokens_newLine, ← List.append_assoc] at read
  exact tokens_brackets opens closes read

/-! ### The indented text of a value is made of its words -/

mutual

/-- **The indented text of a plain value is made of its words**, at every level. -/
theorem tokens_pretty (json : Json) (plain : json.isPlain) (level : Nat) {behind : List Char}
    (follows : Follows behind) :
    tokens (json.pretty level ++ behind) = json.words ++ tokens behind := by
  match json with
  -- a value without lines inside is written as in the compact text
  | .null => exact tokens_compact .null plain follows
  | .bool true => exact tokens_compact (.bool true) plain follows
  | .bool false => exact tokens_compact (.bool false) plain follows
  | .number value => exact tokens_number plain follows
  | .string value => exact tokens_string plain behind
  | .array [] => exact tokens_compact (.array []) plain follows
  | .object [] => exact tokens_compact (.object []) plain follows
  | .array (element :: rest) =>
    have lines := tokens_prettyElements (element :: rest) plain (level + 1)
      (follows_newLine level (']' :: behind))
    exact tokens_lines (fun _ => tokens_of_scanned rfl rfl) (fun _ => tokens_of_scanned rfl rfl) lines
  | .object (member :: rest) =>
    have lines := tokens_prettyMembers (member :: rest) plain (level + 1)
      (follows_newLine level ('}' :: behind))
    exact tokens_lines (fun _ => tokens_of_scanned rfl rfl) (fun _ => tokens_of_scanned rfl rfl) lines

theorem tokens_prettyElements (elements : List Json) (plain : arePlain elements) (level : Nat)
    {behind : List Char} (follows : Follows behind) :
    tokens (prettyElements level elements ++ behind) = elementWords elements ++ tokens behind := by
  match elements with
  | [] => rfl
  | [element] =>
    obtain ⟨here, -⟩ := Bool.and_eq_true_iff.mp plain
    rw [prettyElements, List.append_assoc, tokens_newLine, tokens_pretty element here level follows]
    rfl
  | element :: next :: rest =>
    obtain ⟨here, there⟩ := Bool.and_eq_true_iff.mp plain
    show tokens ((newLine level ++ element.pretty level ++ ',' :: prettyElements level (next :: rest)) ++
      behind) = (element.words ++ .comma :: elementWords (next :: rest)) ++ tokens behind
    simp only [List.append_assoc, List.cons_append]
    rw [tokens_newLine, tokens_pretty element here level (follows_comma _), tokens_comma,
      tokens_prettyElements (next :: rest) there level follows]

theorem tokens_prettyMembers (members : List (Text × Json)) (plain : membersArePlain members)
    (level : Nat) {behind : List Char} (follows : Follows behind) :
    tokens (prettyMembers level members ++ behind) = membersWords members ++ tokens behind := by
  match members with
  | [] => rfl
  | [member] =>
    obtain ⟨here, -⟩ := Bool.and_eq_true_iff.mp plain
    rw [prettyMembers, List.append_assoc, tokens_newLine,
      tokens_prettyMember member here level follows]
    rfl
  | member :: next :: rest =>
    obtain ⟨here, there⟩ := Bool.and_eq_true_iff.mp plain
    show tokens ((newLine level ++ prettyMember level member ++
      ',' :: prettyMembers level (next :: rest)) ++ behind) =
      (memberWords member ++ .comma :: membersWords (next :: rest)) ++ tokens behind
    simp only [List.append_assoc, List.cons_append]
    rw [tokens_newLine, tokens_prettyMember member here level (follows_comma _), tokens_comma,
      tokens_prettyMembers (next :: rest) there level follows]

theorem tokens_prettyMember (member : Text × Json) (plain : memberIsPlain member) (level : Nat)
    {behind : List Char} (follows : Follows behind) :
    tokens (prettyMember level member ++ behind) = memberWords member ++ tokens behind := by
  match member with
  | (key, value) =>
    obtain ⟨keyPlain, valuePlain⟩ := Bool.and_eq_true_iff.mp plain
    rw [prettyMember, memberWords, List.append_assoc, List.cons_append, List.cons_append,
      tokens_string keyPlain, tokens_colon, tokens_of_blank rfl,
      tokens_pretty value valuePlain level follows]
    rfl

end

/-- **The indented text of a plain value holds this value and nothing else.** -/
theorem Document.ofString_pretty {json : Json} (plain : json.isPlain) (level : Nat) :
    Document.ofString (String.ofList (json.pretty level)) = ⟨json, true⟩ := by
  have scanned := tokens_pretty json plain level follows_nil
  rw [List.append_nil, tokens_nil] at scanned
  rw [Document.ofString, String.toList_ofList, scanned, build_words json plain]
  rfl

end Json

/-- **A value is read from its own indented text.** -/
theorem JsonForm.Lawful.ofString_toPrettyString {α : Type} [JsonForm α] (lawful : Lawful α)
    (value : α) : ofString (toPrettyString value) = .ok value := by
  rw [ofString, toPrettyString, Json.Document.ofString_pretty (lawful.plain value), ofDocument,
    lawful.back]
  rfl

end Utxo
