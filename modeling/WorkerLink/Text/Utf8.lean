import WorkerLink.Bytes

/-!
# UTF-8

Texts are written with the encoder of the standard library. Reading goes byte by byte through a
machine that says where it stands inside a character; from the pieces it finds, `decode?` refuses
a byte string with any ill-formed part and `lossy` puts U+FFFD for each maximal ill-formed part.
-/

namespace WorkerLink.Utf8

/-- The bytes of a sequence of characters. -/
def encode (cs : List Char) : Bytes := cs.flatMap String.utf8EncodeChar

/-- The bytes of a text. -/
def ofString (s : String) : Bytes := encode s.toList

@[simp] theorem encode_nil : encode [] = [] := rfl

@[simp] theorem encode_append (a b : List Char) : encode (a ++ b) = encode a ++ encode b :=
  List.flatMap_append

/-- A piece of a byte string read as text. -/
inductive Piece where
  /-- A complete character. -/
  | char (c : Char)
  /-- A maximal ill-formed part. -/
  | broken (bytes : Bytes)
  deriving DecidableEq, Repr

/-- The character of a piece, if it is one. -/
def Piece.char? : Piece → Option Char
  | .char c => some c
  | .broken _ => none

/-- Where a reader stands between two bytes. -/
inductive State where
  /-- Between characters. -/
  | start
  /-- Inside a character: `due` more bytes are due, the next of them between `low` and `high`; the
  bits read so far are `value`, the bytes `seen`, last byte first. -/
  | within (due : Nat) (low high : UInt8) (value : Nat) (seen : Bytes)
  deriving DecidableEq, Repr

/-- The first byte of a character: what it completes and where the reader stands after it. -/
def first (b : UInt8) : List Piece × State :=
  if b ≤ 0x7F then ([.char (Char.ofNat b.toNat)], .start)
  else if 0xC2 ≤ b ∧ b ≤ 0xDF then ([], .within 1 0x80 0xBF (b.toNat % 0x20) [b])
  else if b = 0xE0 then ([], .within 2 0xA0 0xBF 0 [b])
  else if b = 0xED then ([], .within 2 0x80 0x9F 0xD [b])
  else if 0xE1 ≤ b ∧ b ≤ 0xEF then ([], .within 2 0x80 0xBF (b.toNat % 0x10) [b])
  else if b = 0xF0 then ([], .within 3 0x90 0xBF 0 [b])
  else if b = 0xF4 then ([], .within 3 0x80 0x8F 4 [b])
  else if 0xF1 ≤ b ∧ b ≤ 0xF3 then ([], .within 3 0x80 0xBF (b.toNat % 8) [b])
  else ([.broken [b]], .start)

/-- One byte. A byte that cannot continue the current character ends it as an ill-formed part and
is read again as a first byte. -/
def step : State → UInt8 → List Piece × State
  | .start, b => first b
  | .within due low high value seen, b =>
    if low ≤ b ∧ b ≤ high then
      let value := value * 64 + b.toNat % 64
      if due ≤ 1 then ([.char (Char.ofNat value)], .start)
      else ([], .within (due - 1) 0x80 0xBF value (b :: seen))
    else
      let (pieces, next) := first b
      (.broken seen.reverse :: pieces, next)

/-- What the end of input adds: an unfinished character is ill-formed. -/
def atEnd : State → List Piece
  | .start => []
  | .within _ _ _ _ seen => [.broken seen.reverse]

/-- The characters and ill-formed parts of a byte string, in order. -/
def pieces (b : Bytes) : List Piece :=
  let (found, last) := b.foldl (fun (acc : List Piece × State) x =>
    let (new, next) := step acc.2 x
    (new.reverse ++ acc.1, next)) ([], .start)
  (atEnd last ++ found).reverse

/-- The characters of a well-formed byte string. -/
def decode? (b : Bytes) : Option (List Char) := (pieces b).mapM Piece.char?

/-- The characters of a byte string with U+FFFD for each maximal ill-formed part. -/
def lossy (b : Bytes) : List Char := (pieces b).map (·.char?.getD '\uFFFD')

/-- The text of a well-formed byte string. -/
def toString? (b : Bytes) : Option String := (decode? b).map String.ofList

end WorkerLink.Utf8
