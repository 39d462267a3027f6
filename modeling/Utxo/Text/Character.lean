/-
**Characters in messages and in byte offsets.**

* `Character.leadingByte`: the first byte of a character's UTF-8 form.
* `Character.quoted`: a character between apostrophes, the way that messages show it; controls,
  the apostrophe and the backslash are escaped.
-/

namespace Utxo.Character

/-- The first byte of the UTF-8 form of `c`. -/
def leadingByte (c : Char) : UInt8 := (String.utf8EncodeChar c).headD 0

/-- The hexadecimal digits of a number, lowercase, without leading zeros. -/
def hexadecimal (number : Nat) : String := String.ofList (Nat.toDigits 16 number)

/-- Whether a Latin-1 character has no shape of its own: the controls, the no-break space and the
soft hyphen. -/
def isUnprintable (c : Char) : Bool :=
  c.toNat < 0x20 || (0x7f ≤ c.toNat && c.toNat ≤ 0xa0) || c.toNat == 0xad

/-- A Latin-1 character between apostrophes. -/
def quoted (c : Char) : String :=
  let shape :=
    if c == '\'' then "\\'"
    else if c == '\\' then "\\\\"
    else if c == '\t' then "\\t"
    else if c == '\n' then "\\n"
    else if c == '\r' then "\\r"
    else if c == '\x00' then "\\0"
    else if isUnprintable c then "\\u\x7b" ++ hexadecimal c.toNat ++ "\x7d"
    else c.toString
  "'" ++ shape ++ "'"

end Utxo.Character
