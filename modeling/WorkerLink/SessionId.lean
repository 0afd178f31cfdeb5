import WorkerLink.Descriptor.Error

/-!
# Session ids

The token with which a worker proves that it is the one that was started. It is sent without any
delimiter and stands in the query of a descriptor, so it is never empty and holds only printable
ASCII characters other than the space, `&` and `#`.
-/

namespace WorkerLink

/-- Whether a character may stand in a session id. -/
def isTokenChar (c : Char) : Bool := '!' ≤ c && c ≤ '~' && c != '&' && c != '#'

/-- A session id. -/
structure SessionId where
  chars : List Char
  nonempty : chars ≠ []
  printable : ∀ c ∈ chars, isTokenChar c = true
  deriving DecidableEq

namespace SessionId

def text (id : SessionId) : String := String.ofList id.chars

/-- The bytes that a worker sends. -/
def bytes (id : SessionId) : Bytes := Utf8.encode id.chars

/-- The number of bytes that a worker sends. -/
def length (id : SessionId) : Nat := id.bytes.length

/-- The session id of given characters. -/
def ofChars (cs : List Char) : Except DescriptorError SessionId :=
  if h : cs = [] then .error .emptySession
  else if p : cs.all isTokenChar = true then .ok ⟨cs, h, List.all_eq_true.1 p⟩
  else .error (.invalidSession (String.ofList cs))

/-- The session id of a given text. -/
def parse (s : String) : Except DescriptorError SessionId := ofChars s.toList

/-! ## Random ids -/

/-- The two digits of a byte. -/
def byteChars (b : UInt8) : List Char := [hexDigit (b.toNat / 16), hexDigit (b.toNat % 16)]

/-- The text of a random universally unique identifier (version 4) made of sixteen bytes: version
and variant take the place of six bits, and hyphens stand after the bytes 4, 6, 8 and 10. -/
def randomChars (b : Fin 16 → UInt8) : List Char :=
  let byte (i : Fin 16) : UInt8 :=
    if i = 6 then 0x40 ||| (b i &&& 0x0F) else if i = 8 then 0x80 ||| (b i &&& 0x3F) else b i
  (List.finRange 16).flatMap fun i =>
    (if i = 4 ∨ i = 6 ∨ i = 8 ∨ i = 10 then ['-'] else []) ++ byteChars (byte i)

theorem isTokenChar_hexDigit {n : Nat} (h : n < 16) : isTokenChar (hexDigit n) = true := by
  have all : ∀ n : Fin 16, isTokenChar (hexDigit n) = true := by decide
  exact all ⟨n, h⟩

theorem isTokenChar_byteChars {b : UInt8} {c : Char} (h : c ∈ byteChars b) :
    isTokenChar c = true := by
  have hb := b.toNat_lt
  simp only [byteChars, List.mem_cons, List.not_mem_nil, or_false] at h
  rcases h with rfl | rfl <;> exact isTokenChar_hexDigit (by omega)

theorem isTokenChar_randomChars {b : Fin 16 → UInt8} {c : Char} (h : c ∈ randomChars b) :
    isTokenChar c = true := by
  simp only [randomChars, List.mem_flatMap, List.mem_append] at h
  obtain ⟨i, -, h | h⟩ := h
  · split at h
    · rw [List.mem_singleton.1 h]; decide
    · cases h
  · exact isTokenChar_byteChars h

theorem randomChars_ne_nil (b : Fin 16 → UInt8) : randomChars b ≠ [] := by
  simp [randomChars, List.finRange, byteChars]

/-- The session id made of sixteen random bytes. -/
def ofRandom (b : Fin 16 → UInt8) : SessionId :=
  ⟨randomChars b, randomChars_ne_nil b, fun _ h => isTokenChar_randomChars h⟩

end SessionId

end WorkerLink
