import WorkerLink.Binary64.Decimal
import WorkerLink.Text.Utf8

/-!
# JSON values and their compact text

Commands, events and descriptors travel as JSON. `text` writes a value without any blank: members
in the order they stand, in strings only quotes, backslashes and controls below the space as
escapes, and every number that is no integer in the shortest notation that reads back.
-/

namespace WorkerLink

/-- A JSON value. Members keep their order; a value that was read has them sorted by name. -/
inductive Json where
  | null
  | bool (b : Bool)
  | int (n : Int)
  | float (x : Binary64)
  | str (s : String)
  | arr (elems : List Json)
  | obj (members : List (String × Json))
  deriving Inhabited

namespace Json

/-- Sets a member among members sorted by name; a member of that name is replaced. -/
def insertMember (name : String) (v : Json) : List (String × Json) → List (String × Json)
  | [] => [(name, v)]
  | (n, w) :: rest =>
    if name < n then (name, v) :: (n, w) :: rest
    else if name = n then (name, v) :: rest
    else (n, w) :: insertMember name v rest

/-- The last member of a name. -/
def member? (name : String) (members : List (String × Json)) : Option Json :=
  (members.reverse.find? (·.1 = name)).map (·.2)

/-! ## Text -/

/-- How a character stands in a string. -/
def stringChar (c : Char) : List Char :=
  if c = '"' then ['\\', '"']
  else if c = '\\' then ['\\', '\\']
  else if c.toNat = 0x8 then ['\\', 'b']
  else if c.toNat = 0x9 then ['\\', 't']
  else if c.toNat = 0xA then ['\\', 'n']
  else if c.toNat = 0xC then ['\\', 'f']
  else if c.toNat = 0xD then ['\\', 'r']
  else if c.toNat < 0x20 then
    ['\\', 'u', '0', '0', hexDigit (c.toNat / 16), hexDigit (c.toNat % 16)]
  else [c]

/-- A number is written without an exponent from 0.00001 up to, but not including, `10 ^ 16`. -/
def floatLayout : Binary64.Layout := ⟨-5, 16⟩

/-- The text of a number that is no integer; the zeros are `0.0` and `-0.0`. -/
def floatText (x : Binary64) : List Char :=
  let magnitude := if x.isZero then ['0', '.', '0'] else floatLayout.write x.shortest
  if x.negative then '-' :: magnitude else magnitude

/-- The text of an integer. -/
def intText (n : Int) : List Char :=
  if n < 0 then '-' :: Nat.toDigits 10 n.natAbs else Nat.toDigits 10 n.natAbs

/-- Puts a string in front of a text that runs backwards. -/
def putString (s : String) (acc : List Char) : List Char :=
  '"' :: s.toList.foldl (fun acc c => (stringChar c).reverse ++ acc) ('"' :: acc)

mutual

/-- Puts a value in front of a text that runs backwards. -/
def put : Json → List Char → List Char
  | .null, acc => "null".toList.reverse ++ acc
  | .bool true, acc => "true".toList.reverse ++ acc
  | .bool false, acc => "false".toList.reverse ++ acc
  | .int n, acc => (intText n).reverse ++ acc
  | .float x, acc => (floatText x).reverse ++ acc
  | .str s, acc => putString s acc
  | .arr [], acc => ']' :: '[' :: acc
  | .arr (v :: vs), acc => ']' :: putElems vs (put v ('[' :: acc))
  | .obj [], acc => '\x7d' :: '\x7b' :: acc
  | .obj ((name, v) :: ms), acc =>
    '\x7d' :: putMembers ms (put v (':' :: putString name ('\x7b' :: acc)))

/-- Puts the elements after the first. -/
def putElems : List Json → List Char → List Char
  | [], acc => acc
  | v :: vs, acc => putElems vs (put v (',' :: acc))

/-- Puts the members after the first. -/
def putMembers : List (String × Json) → List Char → List Char
  | [], acc => acc
  | (name, v) :: ms, acc => putMembers ms (put v (':' :: putString name (',' :: acc)))

end

/-- The compact text of a value, as characters. -/
def chars (v : Json) : List Char := (put v []).reverse

/-- The compact text of a value, as bytes. -/
def bytes (v : Json) : Bytes := Utf8.encode v.chars

/-- The compact text of a value. -/
def text (v : Json) : String := String.ofList v.chars

end Json

end WorkerLink
