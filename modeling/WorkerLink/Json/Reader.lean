import WorkerLink.Json.Token

/-!
# Reading any JSON value

Arrays and objects are read by folding over their elements and members, whatever is read for each.
`Json.read` takes a whole input: one value nested at most 127 deep with nothing but blanks behind.
-/

namespace WorkerLink.Json

/-- How deep arrays and objects may be nested. -/
def depthLimit : Nat := 127

/-- What follows an element of an array or a member of an object. -/
inductive Next where
  /-- The end; `rest` is the input behind it. -/
  | finished (rest : Bytes)
  /-- Another one, at the front of `rest`. -/
  | item (rest : Bytes)

/-- Reads the bracket `close` or a comma with something behind it. -/
def readNext (close : UInt8) (s : Bytes) : Except Fault Next :=
  match skipBlanks s with
  | [] => .error .truncated
  | b :: s =>
    if b = close then .ok (.finished s)
    else if b = ascii ',' then
      match skipBlanks s with
      | [] => .error .truncated
      | b :: s => if b = close then .error .malformed else .ok (.item (b :: s))
    else .error .malformed

/-- Folds over the elements that follow the first one. -/
def foldElems {σ : Type} (step : σ → Bytes → Except Fault (σ × Bytes)) :
    Nat → σ → Bytes → Except Fault (σ × Bytes)
  | 0, _, _ => .error .truncated
  | fuel + 1, st, s => do
    match ← readNext (ascii ']') s with
    | .finished s => .ok (st, s)
    | .item s =>
      let (st, s) ← step st s
      foldElems step fuel st s

/-- Folds over the elements of an array after its opening bracket. -/
def readElems {σ : Type} (step : σ → Bytes → Except Fault (σ × Bytes)) (fuel : Nat) (st : σ)
    (s : Bytes) : Except Fault (σ × Bytes) :=
  match skipBlanks s with
  | [] => .error .truncated
  | b :: s =>
    if b = ascii ']' then .ok (st, s)
    else do
      let (st, s) ← step st (b :: s)
      foldElems step fuel st s

/-- Reads the name of a member. -/
def readName : Bytes → Except Fault (String × Bytes)
  | [] => .error .truncated
  | b :: s => if b = ascii '"' then readString s else .error .malformed

/-- Reads the colon behind the name of a member. -/
def readColon (s : Bytes) : Except Fault Bytes :=
  match skipBlanks s with
  | [] => .error .truncated
  | b :: s => if b = ascii ':' then .ok s else .error .malformed

/-- Folds over the members that follow the first one. A step is given the name of a member and the
input behind it, colon and all. -/
def foldMembers {σ : Type} (step : σ → String → Bytes → Except Fault (σ × Bytes)) :
    Nat → σ → Bytes → Except Fault (σ × Bytes)
  | 0, _, _ => .error .truncated
  | fuel + 1, st, s => do
    match ← readNext (ascii '\x7d') s with
    | .finished s => .ok (st, s)
    | .item s =>
      let (name, s) ← readName s
      let (st, s) ← step st name s
      foldMembers step fuel st s

/-- Folds over the members of an object after its opening brace. -/
def readMembers {σ : Type} (step : σ → String → Bytes → Except Fault (σ × Bytes)) (fuel : Nat)
    (st : σ) (s : Bytes) : Except Fault (σ × Bytes) :=
  match skipBlanks s with
  | [] => .error .truncated
  | b :: s =>
    if b = ascii '\x7d' then .ok (st, s)
    else do
      let (name, s) ← readName (b :: s)
      let (st, s) ← step st name s
      foldMembers step fuel st s

/-- Reads a value nested at most `depth` deep; `fuel` bounds the length of arrays and objects. -/
def readValue (fuel : Nat) : Nat → Bytes → Except Fault (Json × Bytes)
  | 0, s => do
    match ← readHead s with
    | (.scalar v, s) => .ok (v, s)
    | _ => .error .malformed
  | depth + 1, s => do
    match ← readHead s with
    | (.scalar v, s) => .ok (v, s)
    | (.openArr, s) =>
      let (elems, s) ← readElems (fun (acc : List Json) s => do
        let (v, s) ← readValue fuel depth s
        .ok (v :: acc, s)) fuel [] s
      .ok (.arr elems.reverse, s)
    | (.openObj, s) =>
      let (members, s) ← readMembers (fun (acc : List (String × Json)) name s => do
        let (v, s) ← readValue fuel depth (← readColon s)
        .ok (insertMember name v acc, s)) fuel [] s
      .ok (.obj members, s)

/-- Nothing but blanks may follow a value. -/
def readEnd (s : Bytes) : Except Fault Unit :=
  if (skipBlanks s).isEmpty then .ok () else .error .malformed

/-- Reads an input that holds one value. -/
def read (s : Bytes) : Except Fault Json := do
  let (v, s) ← readValue s.length depthLimit s
  readEnd s
  .ok v

end WorkerLink.Json
