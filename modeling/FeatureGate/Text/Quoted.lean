import FeatureGate.Text.Escaped

/-!
# Quoted texts in messages

A text between double quotes, with short escapes for a few characters and numbered ones for those
that cannot be seen.
-/

namespace FeatureGate

/-- A character between quotes. -/
def quotedMessageChar (c : Char) : List Char :=
  if c = '"' then ['\\', '"']
  else if c = '\\' then ['\\', '\\']
  else if c = '\t' then ['\\', 't']
  else if c = '\n' then ['\\', 'n']
  else if c = '\r' then ['\\', 'r']
  else if c = '\x00' then ['\\', '0']
  else if isEscaped c then '\\' :: 'u' :: '\x7b' :: Nat.toDigits 16 c.toNat ++ ['\x7d']
  else [c]

/-- A text as it is quoted in messages. -/
def quoteForMessage (s : String) : String :=
  String.ofList ('"' :: s.toList.flatMap quotedMessageChar ++ ['"'])

end FeatureGate
