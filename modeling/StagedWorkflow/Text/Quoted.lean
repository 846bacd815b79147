import StagedWorkflow.Text.Unprintable
/-!
# Text — quoted texts

A quoted text stands between double quotes. Quotes and backslashes in it
are escaped, the common control characters have short names, and any other
character that is not printed as it is stands as its code point in braces.
-/

namespace StagedWorkflow

namespace Text

/-- The code point of a character between braces, in hexadecimal without
leading zeros. -/
def byCodePoint (c : Char) : List Char :=
  ['\\', 'u', '\x7b'] ++ Nat.toDigits 16 c.toNat ++ ['\x7d']

/-- How a character is written inside quotes. -/
def escape (c : Char) : List Char :=
  if c = '\x00' then ['\\', '0']
  else if c = '\t' then ['\\', 't']
  else if c = '\r' then ['\\', 'r']
  else if c = '\n' then ['\\', 'n']
  else if c = '"' then ['\\', '"']
  else if c = '\\' then ['\\', '\\']
  else if isUnprintable c then byCodePoint c
  else [c]

/-- The text between quotes. -/
def quote (text : String) : String :=
  String.ofList ('"' :: text.toList.flatMap escape ++ ['"'])

end Text

end StagedWorkflow
