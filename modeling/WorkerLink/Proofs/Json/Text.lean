import WorkerLink.Json.Basic
import WorkerLink.Proofs.Text.Utf8

/-!
# The parts of a compact text

`put` builds a text backwards. Here the text of a value is put together forwards from those of its
parts.
-/

namespace WorkerLink.Json

/-- A string as it stands in a text. -/
def stringChars (s : String) : List Char := '"' :: (s.toList.flatMap stringChar ++ ['"'])

theorem foldl_stringChar (cs acc : List Char) :
    cs.foldl (fun acc c => (stringChar c).reverse ++ acc) acc =
      (cs.flatMap stringChar).reverse ++ acc := by
  induction cs generalizing acc with
  | nil => rfl
  | cons c cs ih => rw [List.foldl_cons, ih]; simp

theorem putString_eq (s : String) (acc : List Char) :
    putString s acc = (stringChars s).reverse ++ acc := by
  rw [putString, foldl_stringChar]
  simp [stringChars]

mutual

theorem put_append : ∀ (v : Json) (acc : List Char), put v acc = put v [] ++ acc
  | .null, _ | .bool true, _ | .bool false, _ | .int _, _ | .float _, _ | .arr [], _ | .obj [], _ =>
    by simp [put]
  | .str s, acc => by simp [put, putString_eq]
  | .arr (v :: vs), acc => by
    rw [put, put, putElems_append vs (put v ('[' :: acc)), putElems_append vs (put v ['[']),
      put_append v ('[' :: acc), put_append v ['[']]
    simp
  | .obj ((name, v) :: ms), acc => by
    rw [put, put, putMembers_append ms (put v (':' :: putString name ('\x7b' :: acc))),
      putMembers_append ms (put v (':' :: putString name ['\x7b'])),
      put_append v (':' :: putString name ('\x7b' :: acc)),
      put_append v (':' :: putString name ['\x7b'])]
    simp [putString_eq]

theorem putElems_append : ∀ (vs : List Json) (acc : List Char),
    putElems vs acc = putElems vs [] ++ acc
  | [], _ => rfl
  | v :: vs, acc => by
    rw [putElems, putElems, putElems_append vs (put v (',' :: acc)),
      putElems_append vs (put v [',']), put_append v (',' :: acc), put_append v [',']]
    simp

theorem putMembers_append : ∀ (ms : List (String × Json)) (acc : List Char),
    putMembers ms acc = putMembers ms [] ++ acc
  | [], _ => rfl
  | (name, v) :: ms, acc => by
    rw [putMembers, putMembers, putMembers_append ms (put v (':' :: putString name (',' :: acc))),
      putMembers_append ms (put v (':' :: putString name [','])),
      put_append v (':' :: putString name (',' :: acc)), put_append v (':' :: putString name [','])]
    simp [putString_eq]

end

theorem put_eq (v : Json) (acc : List Char) : put v acc = v.chars.reverse ++ acc := by
  rw [put_append, chars, List.reverse_reverse]

theorem putElems_eq (vs : List Json) (acc : List Char) :
    putElems vs acc = (vs.flatMap fun v => ',' :: v.chars).reverse ++ acc := by
  induction vs generalizing acc with
  | nil => rfl
  | cons v vs ih => rw [putElems, ih, put_eq]; simp

theorem putMembers_eq (ms : List (String × Json)) (acc : List Char) :
    putMembers ms acc =
      (ms.flatMap fun m => ',' :: (stringChars m.1 ++ ':' :: m.2.chars)).reverse ++ acc := by
  induction ms generalizing acc with
  | nil => rfl
  | cons m ms ih => obtain ⟨name, v⟩ := m; rw [putMembers, ih, put_eq, putString_eq]; simp

/-! ## Bytes -/

/-- A string as it stands in a text, as bytes. -/
def stringText (s : String) : Bytes := Utf8.encode (stringChars s)

/-- The elements after the first. -/
def elemsText (vs : List Json) : Bytes := vs.flatMap fun v => ascii ',' :: v.bytes

/-- The name of a member, its colon and its value. -/
def memberText (m : String × Json) : Bytes := stringText m.1 ++ ascii ':' :: m.2.bytes

/-- The members after the first. -/
def membersText (ms : List (String × Json)) : Bytes := ms.flatMap fun m => ascii ',' :: memberText m

theorem encode_cons (c : Char) (cs : List Char) :
    Utf8.encode (c :: cs) = String.utf8EncodeChar c ++ Utf8.encode cs :=
  List.flatMap_cons

theorem encode_ascii {c : Char} (hc : c.toNat < 0x80) (cs : List Char) :
    Utf8.encode (c :: cs) = ascii c :: Utf8.encode cs := by
  rw [encode_cons, Utf8.encodeChar_ascii hc]
  rfl

theorem encode_flatMap {α : Type} (l : List α) (f : α → List Char) :
    Utf8.encode (l.flatMap f) = l.flatMap fun x => Utf8.encode (f x) :=
  List.flatMap_assoc

theorem bytes_str (s : String) : (str s).bytes = stringText s := by
  rw [bytes, chars, put, putString_eq]
  simp [stringText]

theorem bytes_arr_nil : (arr []).bytes = [ascii '[', ascii ']'] := by rfl

theorem bytes_arr_cons (v : Json) (vs : List Json) :
    (arr (v :: vs)).bytes = ascii '[' :: (v.bytes ++ (elemsText vs ++ [ascii ']'])) := by
  have hc : (arr (v :: vs)).chars =
      '[' :: (v.chars ++ ((vs.flatMap fun v => ',' :: v.chars) ++ [']'])) := by
    rw [chars, put, putElems_eq, put_eq]
    simp
  have hcomma (w : Json) : Utf8.encode (',' :: w.chars) = ascii ',' :: w.bytes :=
    encode_ascii (by decide) _
  rw [bytes, hc, encode_ascii (by decide), Utf8.encode_append, Utf8.encode_append, encode_flatMap,
    encode_ascii (by decide)]
  simp only [hcomma]
  rfl

theorem bytes_obj_nil : (obj []).bytes = [ascii '\x7b', ascii '\x7d'] := by rfl

theorem bytes_obj_cons (m : String × Json) (ms : List (String × Json)) :
    (obj (m :: ms)).bytes =
      ascii '\x7b' :: (memberText m ++ (membersText ms ++ [ascii '\x7d'])) := by
  obtain ⟨name, v⟩ := m
  have hc : (obj ((name, v) :: ms)).chars = '\x7b' :: ((stringChars name ++ ':' :: v.chars) ++
      ((ms.flatMap fun m => ',' :: (stringChars m.1 ++ ':' :: m.2.chars)) ++ ['\x7d'])) := by
    rw [chars, put, putMembers_eq, put_eq, putString_eq]
    simp
  have hmember (name : String) (v : Json) :
      Utf8.encode (stringChars name ++ ':' :: v.chars) = memberText (name, v) := by
    rw [Utf8.encode_append, encode_ascii (by decide)]
    rfl
  have hcomma (m : String × Json) : Utf8.encode (',' :: (stringChars m.1 ++ ':' :: m.2.chars)) =
      ascii ',' :: memberText m := by
    rw [encode_ascii (by decide), hmember]
  rw [bytes, hc, encode_ascii (by decide), Utf8.encode_append, hmember, Utf8.encode_append,
    encode_flatMap, encode_ascii (by decide)]
  simp only [hcomma]
  rfl

end WorkerLink.Json
