import AttestationService.Text.Unseen

/-!
Text in double quotes, as it is shown in logs and in error texts. What has no form of its own is
spelled `\u{…}` by its code, in lower-case hexadecimal.
-/

namespace AttestationService.Text

def quotedChar (c : Char) : List Char :=
  if c = '"' then ['\\', '"']
  else if c = '\\' then ['\\', '\\']
  else if c = '\n' then ['\\', 'n']
  else if c = '\r' then ['\\', 'r']
  else if c = '\t' then ['\\', 't']
  else if c = '\x00' then ['\\', '0']
  else if c.toNat < 0x20 ∨ 0x7F ≤ c.toNat ∧ isUnseen c then
    ['\\', 'u', '\x7b'] ++ Nat.toDigits 16 c.toNat ++ ['\x7d']
  else [c]

def quoted (text : List Char) : List Char :=
  '"' :: text.flatMap quotedChar ++ ['"']

def quotedString (text : String) : String :=
  String.ofList (quoted text.toList)

end AttestationService.Text
