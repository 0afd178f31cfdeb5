import WorkerLink.Text.Utf8
import WorkerLink.Text.Unprintable
import WorkerLink.Text.Extending

/-!
# Quoted text for messages

A message that quotes a text shows it between double quotes with every character visible: quotes,
backslashes and common controls as two-character escapes, anything that a reader could not see by
itself as `\u{…}` with its code point. Byte strings that are no text show the bytes of each
ill-formed part as `\xNN`.
-/

namespace WorkerLink.Text

/-- How a character stands between quotes. -/
def quotedChar (c : Char) : List Char :=
  if c = '"' then ['\\', '"']
  else if c = '\\' then ['\\', '\\']
  else if c = '\n' then ['\\', 'n']
  else if c = '\r' then ['\\', 'r']
  else if c = '\t' then ['\\', 't']
  else if c = Char.ofNat 0 then ['\\', '0']
  else if isUnprintable c || isExtending c then
    ['\\', 'u', '\x7b'] ++ Nat.toDigits 16 c.toNat ++ ['\x7d']
  else [c]

/-- A text between double quotes. -/
def quoted (s : String) : String :=
  String.ofList ('"' :: s.toList.flatMap quotedChar ++ ['"'])

/-- A byte of an ill-formed part between quotes. -/
def quotedByte (b : UInt8) : List Char :=
  ['\\', 'x', (hexDigit (b.toNat / 16)).toUpper, (hexDigit (b.toNat % 16)).toUpper]

/-- A byte string between double quotes: its characters as in a text, ill-formed parts as bytes. -/
def quotedBytes (b : Bytes) : String :=
  let inner := (Utf8.pieces b).flatMap fun
    | .char c => quotedChar c
    | .broken bytes => bytes.flatMap quotedByte
  String.ofList ('"' :: inner ++ ['"'])

end WorkerLink.Text
