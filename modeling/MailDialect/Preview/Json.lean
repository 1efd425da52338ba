import MailDialect.Preview

/-!
# Previews as JSON

A preview is written as a JSON object with one entry on a line, indented by two blanks.
-/

namespace MailDialect.Preview

/-- A character of a JSON string: quotes, backslashes and control characters are escaped. -/
def jsonChar (c : Char) : Text :=
  if c == '"' then ['\\', '"']
  else if c == '\\' then ['\\', '\\']
  else if c == '\n' then ['\\', 'n']
  else if c == '\r' then ['\\', 'r']
  else if c == '\t' then ['\\', 't']
  else if c == '\x08' then ['\\', 'b']
  else if c == '\x0c' then ['\\', 'f']
  else if c.toNat < 0x20 then
    ['\\', 'u', '0', '0', Nat.digitChar (c.toNat / 16), Nat.digitChar (c.toNat % 16)]
  else [c]

def jsonString (text : Text) : Text :=
  '"' :: text.flatMap jsonChar ++ ['"']

def Value.json : Value → Text
  | text value => jsonString value
  | noItems => ['[', ']']

/-- An entry on a line of its own. -/
def jsonEntry (entry : Text × Value) : Text :=
  ['\n', ' ', ' '] ++ jsonString entry.1 ++ [':', ' '] ++ entry.2.json

def json (preview : Preview) : Text :=
  if preview.isEmpty then ['{', '}']
  else '{' :: List.intercalate [','] (preview.map jsonEntry) ++ ['\n', '}']

end MailDialect.Preview
