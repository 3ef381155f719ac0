import Tollgate.Text.Hidden

/-! # Quoted text

Messages quote the text they speak about between double quotes, with backslash
escapes, so that its exact characters can be read off.

* `escapeChar` — how one character is shown inside the quotes;
* `quoted` — the whole quoted text.
-/

namespace Tollgate

/-- The lower-case hexadecimal digits of a number, without leading zeros. -/
def hexText (n : Nat) : String := String.ofList (Nat.toDigits 16 n)

/-- How a character is shown inside double quotes. -/
def escapeChar (c : Char) : String :=
  if c = '\x00' then "\\0"
  else if c = '\t' then "\\t"
  else if c = '\r' then "\\r"
  else if c = '\n' then "\\n"
  else if c = '\\' then "\\\\"
  else if c = '"' then "\\\""
  else if isHidden c then "\\u\x7b" ++ hexText c.toNat ++ "\x7d"
  else c.toString

/-- A text between double quotes with every special character escaped. -/
def quoted (s : String) : String :=
  "\"" ++ String.join (s.toList.map escapeChar) ++ "\""

end Tollgate
