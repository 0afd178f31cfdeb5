import WorkerLink.Json.Reader

/-!
# Reading values of a given shape

A frame is read as what the stream carries: any value, a text, a 32-bit number, a list of integers
with gaps, or one of several tagged records. A value of the wrong shape is refused as soon as its
head is read; a scalar is read to its end first.
-/

namespace WorkerLink.Json

/-- A record told from others by its tag: the member `type` holds the tag, and every field holds
a text. -/
structure Variant where
  tag : String
  fields : List String

/-- What a stream carries. -/
inductive Shape where
  | any
  | text
  | word
  | integers
  | tagged (variants : List Variant)

/-- The member that holds the tag of a record. -/
def tagName : String := "type"

/-- A value of another kind than expected. -/
def Head.misfit {α : Type} (h : Head) (expected : String) : Except Fault α :=
  .error (.misfit (.kind h.found expected))

/-- An integer within bounds. -/
def Head.integer (h : Head) (low high : Int) (expected : String) : Except Fault Json :=
  match h with
  | .scalar (.int n) =>
    if low ≤ n ∧ n ≤ high then .ok (.int n) else .error (.misfit (.range (.int n) expected))
  | h => h.misfit expected

/-- Reads an element of a list of integers with gaps. -/
def readGapInteger (s : Bytes) : Except Fault (Json × Bytes) := do
  match ← readHead s with
  | (.scalar .null, s) => .ok (.null, s)
  | (h, s) => .ok (← h.integer (-0x8000000000000000) 0x7FFFFFFFFFFFFFFF "i64", s)

/-! ## Tagged records -/

/-- Reads the tag of a record. -/
def readTag (variants : List Variant) (s : Bytes) : Except Fault (Variant × Bytes) := do
  match ← readHead s with
  | (.scalar (.str tag), s) =>
    match variants.find? (·.tag = tag) with
    | some v => .ok (v, s)
    | none => .error (.misfit (.variant tag))
  | (h, _) => h.misfit "variant identifier"

/-- What has been read of a record: its variant, and its other members, last first. -/
structure Record where
  variant : Option Variant := none
  members : List (String × Json) := []

/-- Reads a member of a record. A second tag is refused before its value is looked at. -/
def Record.readMember (fuel : Nat) (variants : List Variant) (r : Record) (name : String)
    (s : Bytes) : Except Fault (Record × Bytes) := do
  if name = tagName then
    if r.variant.isSome then .error (.misfit (.duplicate tagName))
    else
      let (v, s) ← readTag variants (← readColon s)
      .ok ({ r with variant := some v }, s)
  else
    let (v, s) ← readValue fuel (depthLimit - 1) (← readColon s)
    .ok ({ r with members := (name, v) :: r.members }, s)

/-- The text of a field. -/
def fieldText : Json → Except Fault Json
  | .str s => .ok (.str s)
  | v => (Head.scalar v).misfit "a string"

/-- The value of a field among members: it must be there once, and be a text. -/
def fieldAmong (members : List (String × Json)) (field : String) : Except Fault Json :=
  match members.filter (·.1 = field) with
  | [] => .error (.misfit (.missing field))
  | [(_, v)] => fieldText v
  | _ => .error (.misfit (.duplicate field))

/-- A record with its tag first and its fields in order. -/
def Variant.record (v : Variant) (values : List Json) : Json :=
  .obj ((tagName, .str v.tag) :: v.fields.zip values)

/-- The record that members stand for; members it does not know are passed over. -/
def Record.close (r : Record) : Except Fault Json :=
  match r.variant with
  | none => .error (.misfit (.missing tagName))
  | some v => do .ok (v.record (← v.fields.mapM (fieldAmong r.members.reverse)))

/-- What has been read of a record in a row: its variant, and the elements after it, last first. -/
structure Row where
  variant : Option Variant := none
  elems : List Json := []

/-- Reads an element of a row: the tag first. -/
def Row.readElem (fuel : Nat) (variants : List Variant) (r : Row) (s : Bytes) :
    Except Fault (Row × Bytes) := do
  match r.variant with
  | none =>
    let (v, s) ← readTag variants s
    .ok ({ r with variant := some v }, s)
  | some _ =>
    let (v, s) ← readValue fuel (depthLimit - 1) s
    .ok ({ r with elems := v :: r.elems }, s)

/-- The record that a row stands for: the tag and then each field in order. -/
def Row.close (r : Row) : Except Fault Json :=
  match r.variant with
  | none => .error (.misfit (.missing tagName))
  | some v => do
    let values ← (r.elems.reverse.take v.fields.length).mapM fieldText
    if r.elems.length = v.fields.length then .ok (v.record values)
    else .error (.misfit (.length r.elems.length s!"variant {v.tag}"))

/-! ## Shapes -/

/-- Reads a value of a shape. -/
def Shape.readValue (fuel : Nat) (shape : Shape) (s : Bytes) : Except Fault (Json × Bytes) := do
  match shape with
  | .any => Json.readValue fuel depthLimit s
  | .text =>
    match ← readHead s with
    | (.scalar (.str t), s) => .ok (.str t, s)
    | (h, _) => h.misfit "a string"
  | .word =>
    let (h, s) ← readHead s
    .ok (← h.integer 0 0xFFFFFFFF "u32", s)
  | .integers =>
    match ← readHead s with
    | (.openArr, s) =>
      let (elems, s) ← readElems (fun (acc : List Json) s => do
        let (v, s) ← readGapInteger s
        .ok (v :: acc, s)) fuel [] s
      .ok (.arr elems.reverse, s)
    | (h, _) => h.misfit "a sequence"
  | .tagged variants =>
    match ← readHead s with
    | (.openObj, s) =>
      let (r, s) ← readMembers (Record.readMember fuel variants) fuel {} s
      .ok (← r.close, s)
    | (.openArr, s) =>
      let (r, s) ← readElems (Row.readElem fuel variants) fuel {} s
      .ok (← r.close, s)
    | (h, _) => h.misfit "internally tagged enum"

/-- Reads an input that holds one value of a shape. -/
def Shape.read (shape : Shape) (s : Bytes) : Except Fault Json := do
  let (v, s) ← shape.readValue s.length s
  readEnd s
  .ok v

end WorkerLink.Json
