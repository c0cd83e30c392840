import DateReviver.Text.Hex
import DateReviver.Text.Printable

/-!
# Quoted text in log lines

Double quotes around a text in which quotes, backslashes and characters that would not show are
escaped, so that a field of a log line has one reading.
-/

namespace DateReviver.Text

def quotedChar (c : Char) : List Char :=
  if c = '\x00' then ['\\', '0']
  else if c = '\t' then ['\\', 't']
  else if c = '\r' then ['\\', 'r']
  else if c = '\n' then ['\\', 'n']
  else if c = '\\' ∨ c = '"' then ['\\', c]
  else if isPrintable c then [c]
  else ['\\', 'u', '\x7b'] ++ hexDigits c.toNat ++ ['\x7d']

def quoted (s : String) : String :=
  "\"" ++ String.ofList (s.toList.flatMap quotedChar) ++ "\""

end DateReviver.Text
