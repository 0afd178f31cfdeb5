import WorkerLink.Json.Shape
import WorkerLink.Proofs.Json.Scalars

/-!
# Values read back

A value without floating point numbers reads back from its compact text as it was if it is not
nested too deep, and is refused as malformed if it is (`readValue_bytes`, `read_bytes`). Arrays and
objects are folds over their elements and members, which stop at the first one that is refused, so
the proof goes by the depth, as the reader does.
-/

namespace WorkerLink.Json

variable {b : UInt8} {s rest : Bytes} {v : Json} {vs : List Json} {m : String × Json}
  {ms : List (String × Json)} {fuel : Nat}

/-! ## Which values, and how deep -/

mutual

/-- Whether a value holds no floating point number, integers of 64 bits with or without sign only,
and the members of its objects sorted by name, each name once. -/
def isPlain : Json → Bool
  | .null | .bool _ | .str _ => true
  | .int n => decide (-0x8000000000000000 ≤ n ∧ n ≤ 0xFFFFFFFFFFFFFFFF)
  | .float _ => false
  | .arr vs => plainElems vs
  | .obj ms => decide ((ms.map Prod.fst).Pairwise (· < ·)) && plainMembers ms

def plainElems : List Json → Bool
  | [] => true
  | v :: vs => v.isPlain && plainElems vs

def plainMembers : List (String × Json) → Bool
  | [] => true
  | (_, v) :: ms => v.isPlain && plainMembers ms

end

mutual

/-- How deep arrays and objects are nested. -/
def depth : Json → Nat
  | .arr vs => elemsDepth vs + 1
  | .obj ms => membersDepth ms + 1
  | _ => 0

def elemsDepth : List Json → Nat
  | [] => 0
  | v :: vs => max v.depth (elemsDepth vs)

def membersDepth : List (String × Json) → Nat
  | [] => 0
  | (_, v) :: ms => max v.depth (membersDepth ms)

end

/-- What a value reads back as where `limit` arrays and objects may be nested. -/
def readBack (limit : Nat) (v : Json) : Except Fault Json :=
  if v.depth ≤ limit then .ok v else .error .malformed

theorem readBack_scalar {limit : Nat} (h : v.depth = 0) : v.readBack limit = .ok v :=
  if_pos (h ▸ Nat.zero_le _)

theorem plainElems_iff : plainElems vs = true ↔ ∀ v ∈ vs, v.isPlain = true := by
  induction vs with
  | nil => simp [plainElems]
  | cons v vs ih => simp [plainElems, ih]

theorem plainMembers_iff : plainMembers ms = true ↔ ∀ m ∈ ms, m.2.isPlain = true := by
  induction ms with
  | nil => simp [plainMembers]
  | cons m ms ih => obtain ⟨name, v⟩ := m; simp [plainMembers, ih]

/-! ## The front of a value -/

theorem bytes_leads (h : v.isPlain = true) : ∃ b t, v.bytes = b :: t ∧ Leads b := by
  cases v with
  | null => exact ⟨_, _, rfl, by unfold Leads; decide⟩
  | bool x => cases x <;> exact ⟨_, _, rfl, by unfold Leads; decide⟩
  | float => cases h
  | int n =>
    rw [bytes_int]
    split
    · exact ⟨_, _, rfl, by unfold Leads; decide⟩
    · obtain ⟨d, ds, hd⟩ := digitsText_cons n.natAbs
      exact ⟨d, ds, hd, leads_of_isDigit (isDigit_of_mem_digitsText (hd ▸ List.mem_cons_self))⟩
  | str t =>
    obtain ⟨inner, ht, -⟩ := @readString_stringText [] t
    exact ⟨_, inner, (bytes_str t).trans ht, by unfold Leads; decide⟩
  | arr vs =>
    cases vs with
    | nil => exact ⟨_, _, bytes_arr_nil, by unfold Leads; decide⟩
    | cons => exact ⟨_, _, bytes_arr_cons .., by unfold Leads; decide⟩
  | obj ms =>
    cases ms with
    | nil => exact ⟨_, _, bytes_obj_nil, by unfold Leads; decide⟩
    | cons => exact ⟨_, _, bytes_obj_cons .., by unfold Leads; decide⟩

/-- Behind an element or a member comes a comma and another one, or the end. -/
theorem readNext_close {close : UInt8} (h : isBlank close = false) :
    readNext close (close :: s) = .ok (.finished s) := by
  rw [readNext, skipBlanks_cons h]
  simp

theorem readNext_comma {close : UInt8} (hc : close ≠ ascii ',') (hb : isBlank b = false)
    (hne : b ≠ close) : readNext close (ascii ',' :: b :: s) = .ok (.item (b :: s)) := by
  rw [readNext, skipBlanks_cons (by decide)]
  simp only
  rw [if_neg hc.symm, if_pos trivial, skipBlanks_cons hb]
  simp only
  rw [if_neg hne]

/-! ## Arrays -/

variable {σ : Type} {f : σ → Json → Except Fault σ} {g : σ → String × Json → Except Fault σ}
  {st : σ}

theorem elemsText_cons (v : Json) (vs : List Json) (rest : Bytes) :
    elemsText (v :: vs) ++ rest = ascii ',' :: (v.bytes ++ (elemsText vs ++ rest)) := by
  simp [elemsText]

theorem delimited_elemsText (vs : List Json) (rest : Bytes) :
    Delimited (elemsText vs ++ ascii ']' :: rest) := by
  cases vs with
  | nil => exact .cons (.inr (.inl rfl))
  | cons v vs =>
    rw [elemsText_cons]
    exact .cons (.inl rfl)

/-- Folding over the elements that follow the first one, whatever is read or refused for each. -/
theorem foldElems_elemsText {step : σ → Bytes → Except Fault (σ × Bytes)}
    (hp : ∀ v ∈ vs, v.isPlain = true)
    (hstep : ∀ v ∈ vs, ∀ st rest, Delimited rest →
      step st (v.bytes ++ rest) = (f st v).map (·, rest))
    (hf : vs.length < fuel) :
    foldElems step fuel st (elemsText vs ++ ascii ']' :: rest) =
      (vs.foldlM f st).map (·, rest) := by
  induction vs generalizing st fuel with
  | nil =>
    obtain ⟨fuel, rfl⟩ := Nat.exists_eq_add_of_lt hf
    simp only [elemsText, List.flatMap_nil, List.nil_append, foldElems,
      readNext_close (show isBlank (ascii ']') = false by decide), bind, Except.bind,
      List.foldlM_nil, pure, Except.pure, Except.map]
  | cons v vs ih =>
    obtain ⟨fuel, rfl⟩ : ∃ n, fuel = n + 1 := ⟨fuel - 1, by omega⟩
    obtain ⟨b, t, hb, hblank, hclose, -⟩ := bytes_leads (hp v List.mem_cons_self)
    have hnext : readNext (ascii ']') (elemsText (v :: vs) ++ ascii ']' :: rest) =
        .ok (.item (v.bytes ++ (elemsText vs ++ ascii ']' :: rest))) := by
      rw [elemsText_cons, hb]
      exact readNext_comma (by decide) hblank hclose
    have hv := hstep v List.mem_cons_self st _ (delimited_elemsText vs rest)
    have hrest (st : σ) := @ih fuel st (fun w hw => hp w (List.mem_cons_of_mem _ hw))
      (fun w hw => hstep w (List.mem_cons_of_mem _ hw)) (Nat.lt_of_succ_lt_succ hf)
    simp only [foldElems, hnext, hv, bind, Except.bind, List.foldlM_cons]
    cases f st v with
    | error => rfl
    | ok st => exact hrest st

/-- Folding over the elements of an array behind its opening bracket. -/
theorem readElems_bytes (hp : ∀ v ∈ vs, v.isPlain = true) (hf : vs.length ≤ fuel) :
    ∃ inner, (arr vs).bytes = ascii '[' :: inner ∧
      ∀ step : σ → Bytes → Except Fault (σ × Bytes),
        (∀ v ∈ vs, ∀ st rest, Delimited rest →
          step st (v.bytes ++ rest) = (f st v).map (·, rest)) →
        readElems step fuel st (inner ++ rest) = (vs.foldlM f st).map (·, rest) := by
  cases vs with
  | nil => exact ⟨_, bytes_arr_nil, fun _ _ => rfl⟩
  | cons v vs =>
    obtain ⟨b, t, hb, hblank, hclose, -⟩ := bytes_leads (hp v List.mem_cons_self)
    refine ⟨_, bytes_arr_cons v vs, ?_⟩
    intro step hstep
    have hv := hstep v List.mem_cons_self st _ (delimited_elemsText vs rest)
    have hrest (st : σ) := @foldElems_elemsText rest vs fuel σ f st step
      (fun w hw => hp w (List.mem_cons_of_mem _ hw))
      (fun w hw => hstep w (List.mem_cons_of_mem _ hw)) hf
    simp only [List.append_assoc, List.cons_append, List.nil_append, hb] at hv ⊢
    simp only [readElems, skipBlanks_cons hblank, if_neg hclose, hv, bind, Except.bind,
      List.foldlM_cons]
    cases f st v with
    | error => rfl
    | ok st => exact hrest st

/-! ## Objects -/

theorem membersText_cons (m : String × Json) (ms : List (String × Json)) (rest : Bytes) :
    membersText (m :: ms) ++ rest = ascii ',' :: (memberText m ++ (membersText ms ++ rest)) := by
  simp [membersText]

theorem delimited_membersText (ms : List (String × Json)) (rest : Bytes) :
    Delimited (membersText ms ++ ascii '\x7d' :: rest) := by
  cases ms with
  | nil => exact .cons (.inr (.inr rfl))
  | cons m ms =>
    rw [membersText_cons]
    exact .cons (.inl rfl)

/-- The name of a member reads back in front of its colon. -/
theorem readName_memberText (m : String × Json) (rest : Bytes) :
    ∃ t, memberText m ++ rest = ascii '"' :: t ∧
      readName (ascii '"' :: t) = .ok (m.1, ascii ':' :: (m.2.bytes ++ rest)) := by
  obtain ⟨inner, ht, hr⟩ := @readString_stringText (ascii ':' :: (m.2.bytes ++ rest)) m.1
  refine ⟨inner ++ ascii ':' :: (m.2.bytes ++ rest), ?_, ?_⟩
  · rw [memberText, ht]
    simp
  · rw [readName, if_pos rfl, hr]

/-- Folding over the members that follow the first one, whatever is read or refused for each. -/
theorem foldMembers_membersText {step : σ → String → Bytes → Except Fault (σ × Bytes)}
    (hstep : ∀ m ∈ ms, ∀ st rest, Delimited rest →
      step st m.1 (ascii ':' :: (m.2.bytes ++ rest)) = (g st m).map (·, rest))
    (hf : ms.length < fuel) :
    foldMembers step fuel st (membersText ms ++ ascii '\x7d' :: rest) =
      (ms.foldlM g st).map (·, rest) := by
  induction ms generalizing st fuel with
  | nil =>
    obtain ⟨fuel, rfl⟩ := Nat.exists_eq_add_of_lt hf
    simp only [membersText, List.flatMap_nil, List.nil_append, foldMembers,
      readNext_close (show isBlank (ascii '\x7d') = false by decide), bind, Except.bind,
      List.foldlM_nil, pure, Except.pure, Except.map]
  | cons m ms ih =>
    obtain ⟨fuel, rfl⟩ : ∃ n, fuel = n + 1 := ⟨fuel - 1, by omega⟩
    obtain ⟨t, ht, hname⟩ := readName_memberText m (membersText ms ++ ascii '\x7d' :: rest)
    have hnext : readNext (ascii '\x7d') (membersText (m :: ms) ++ ascii '\x7d' :: rest) =
        .ok (.item (ascii '"' :: t)) := by
      rw [membersText_cons, ht]
      exact readNext_comma (by decide) (by decide) (by decide)
    have hm := hstep m List.mem_cons_self st _ (delimited_membersText ms rest)
    have hrest (st : σ) := @ih fuel st (fun n hn => hstep n (List.mem_cons_of_mem _ hn))
      (Nat.lt_of_succ_lt_succ hf)
    simp only [foldMembers, hnext, hname, hm, bind, Except.bind, List.foldlM_cons]
    cases g st m with
    | error => rfl
    | ok st => exact hrest st

/-- Folding over the members of an object behind its opening brace. -/
theorem readMembers_bytes (hf : ms.length ≤ fuel) :
    ∃ inner, (obj ms).bytes = ascii '\x7b' :: inner ∧
      ∀ step : σ → String → Bytes → Except Fault (σ × Bytes),
        (∀ m ∈ ms, ∀ st rest, Delimited rest →
          step st m.1 (ascii ':' :: (m.2.bytes ++ rest)) = (g st m).map (·, rest)) →
        readMembers step fuel st (inner ++ rest) = (ms.foldlM g st).map (·, rest) := by
  cases ms with
  | nil => exact ⟨_, bytes_obj_nil, fun _ _ => rfl⟩
  | cons m ms =>
    refine ⟨_, bytes_obj_cons m ms, ?_⟩
    intro step hstep
    obtain ⟨t, ht, hname⟩ := readName_memberText m (membersText ms ++ ascii '\x7d' :: rest)
    have hm := hstep m List.mem_cons_self st _ (delimited_membersText ms rest)
    have hrest (st : σ) := @foldMembers_membersText rest ms fuel σ g st step
      (fun n hn => hstep n (List.mem_cons_of_mem _ hn)) hf
    simp only [List.append_assoc, List.cons_append, List.nil_append, ht]
    simp only [readMembers, skipBlanks_cons (show isBlank (ascii '"') = false by decide),
      if_neg (show ¬ascii '"' = ascii '\x7d' by decide), hname, hm, bind, Except.bind,
      List.foldlM_cons]
    cases g st m with
    | error => rfl
    | ok st => exact hrest st

/-- Members that come sorted are put behind each other. -/
theorem insertMember_last {acc : List (String × Json)} (h : ∀ n ∈ acc, n.1 < m.1) :
    insertMember m.1 m.2 acc = acc ++ [m] := by
  induction acc with
  | nil => rfl
  | cons n acc ih =>
    obtain ⟨hn, hacc⟩ := List.forall_mem_cons.1 h
    rw [insertMember, if_neg (String.lt_asymm hn), if_neg (fun he => String.ne_of_lt hn he.symm),
      ih hacc]
    rfl

/-! ## The first that is nested too deep -/

theorem foldlM_readBack_elems {limit : Nat} {acc : List Json} :
    vs.foldlM (fun acc v => (v.readBack limit).map (· :: acc)) acc =
      if elemsDepth vs ≤ limit then .ok (vs.reverse ++ acc) else .error .malformed := by
  induction vs generalizing acc with
  | nil => exact (if_pos (Nat.zero_le _)).symm
  | cons v vs ih =>
    rw [List.foldlM_cons, elemsDepth, readBack]
    by_cases hv : v.depth ≤ limit
    · rw [if_pos hv]
      refine ih.trans ?_
      simp only [Nat.max_le, hv, true_and, List.reverse_cons, List.append_assoc,
        List.singleton_append]
    · rw [if_neg hv, if_neg fun h => hv (Nat.le_trans (Nat.le_max_left ..) h)]
      rfl

theorem foldlM_readBack_members {limit : Nat} {acc : List (String × Json)}
    (h : ((acc ++ ms).map Prod.fst).Pairwise (· < ·)) :
    ms.foldlM (fun acc m => (m.2.readBack limit).map (insertMember m.1 · acc)) acc =
      if membersDepth ms ≤ limit then .ok (acc ++ ms) else .error .malformed := by
  induction ms generalizing acc with
  | nil => simp [membersDepth, pure, Except.pure]
  | cons m ms ih =>
    obtain ⟨name, v⟩ := m
    have hm : ∀ n ∈ acc, n.1 < name := by
      intro n hn
      rw [List.map_append, List.pairwise_append] at h
      exact h.2.2 n.1 (List.mem_map_of_mem hn) name (by simp)
    rw [List.foldlM_cons, membersDepth, readBack]
    by_cases hv : v.depth ≤ limit
    · have hsplit : acc ++ (name, v) :: ms = acc ++ [(name, v)] ++ ms := by simp
      rw [hsplit] at h ⊢
      rw [if_pos hv]
      simp only [Except.map, bind, Except.bind, insertMember_last (m := (name, v)) hm]
      refine (ih h).trans ?_
      simp only [Nat.max_le, hv, true_and]
    · rw [if_neg hv, if_neg fun h => hv (Nat.le_trans (Nat.le_max_left ..) h)]
      rfl

/-! ## Values -/

theorem length_le_flatMap {α : Type} {item : α → Bytes} {l : List α} :
    l.length ≤ (l.flatMap fun x => ascii ',' :: item x).length ∧
      ∀ x ∈ l, (item x).length ≤ (l.flatMap fun x => ascii ',' :: item x).length := by
  induction l with
  | nil => simp
  | cons x l ih =>
    obtain ⟨hl, hx⟩ := ih
    simp only [List.flatMap_cons, List.length_append, List.length_cons, List.forall_mem_cons]
    refine ⟨by omega, by omega, fun y hy => ?_⟩
    have := hx y hy
    omega

/-- The text of an array is at least as long as the array and as each element. -/
theorem length_arr (vs : List Json) :
    vs.length ≤ (arr vs).bytes.length ∧ ∀ v ∈ vs, v.bytes.length ≤ (arr vs).bytes.length := by
  cases vs with
  | nil => exact ⟨Nat.zero_le _, nofun⟩
  | cons v vs =>
    obtain ⟨hl, hv⟩ := @length_le_flatMap Json bytes vs
    rw [bytes_arr_cons]
    simp only [List.length_cons, List.length_append, List.length_nil, List.forall_mem_cons,
      elemsText]
    refine ⟨by omega, by omega, fun w hw => ?_⟩
    have := hv w hw
    omega

/-- The text of an object is at least as long as the object and as the value of each member. -/
theorem length_obj (ms : List (String × Json)) :
    ms.length ≤ (obj ms).bytes.length ∧ ∀ m ∈ ms, m.2.bytes.length ≤ (obj ms).bytes.length := by
  have hmember (m : String × Json) : m.2.bytes.length ≤ (memberText m).length := by
    simp only [memberText, List.length_append, List.length_cons]
    omega
  cases ms with
  | nil => exact ⟨Nat.zero_le _, nofun⟩
  | cons m ms =>
    obtain ⟨hl, hm⟩ := @length_le_flatMap (String × Json) memberText ms
    have hfirst := hmember m
    rw [bytes_obj_cons]
    simp only [List.length_cons, List.length_append, List.length_nil, List.forall_mem_cons,
      membersText]
    refine ⟨by omega, by omega, fun n hn => ?_⟩
    have := hm n hn
    have := hmember n
    omega

theorem bytes_arr (vs : List Json) : ∃ inner, (arr vs).bytes = ascii '[' :: inner := by
  cases vs with
  | nil => exact ⟨_, bytes_arr_nil⟩
  | cons v vs => exact ⟨_, bytes_arr_cons v vs⟩

theorem bytes_obj (ms : List (String × Json)) :
    ∃ inner, (obj ms).bytes = ascii '\x7b' :: inner := by
  cases ms with
  | nil => exact ⟨_, bytes_obj_nil⟩
  | cons m ms => exact ⟨_, bytes_obj_cons m ms⟩

theorem readHead_arr (h : (arr vs).bytes = ascii '[' :: s) :
    readHead ((arr vs).bytes ++ rest) = .ok (.openArr, s ++ rest) := by
  rw [h]
  rfl

theorem readHead_obj (h : (obj ms).bytes = ascii '\x7b' :: s) :
    readHead ((obj ms).bytes ++ rest) = .ok (.openObj, s ++ rest) := by
  rw [h]
  rfl

theorem readHead_bytes (hp : v.isPlain = true) (hr : Delimited rest) :
    (∃ vs, v = .arr vs) ∨ (∃ ms, v = .obj ms) ∨
      v.depth = 0 ∧ readHead (v.bytes ++ rest) = .ok (.scalar v, rest) := by
  cases v with
  | null => exact .inr (.inr ⟨rfl, readHead_null⟩)
  | bool x => exact .inr (.inr ⟨rfl, readHead_bool x⟩)
  | int n =>
    simp only [isPlain, decide_eq_true_eq] at hp
    exact .inr (.inr ⟨rfl, readHead_int hp.1 hp.2 hr⟩)
  | float => cases hp
  | str t => exact .inr (.inr ⟨rfl, bytes_str t ▸ readHead_str t⟩)
  | arr vs => exact .inl ⟨vs, rfl⟩
  | obj ms => exact .inr (.inl ⟨ms, rfl⟩)

theorem readValue_of_scalar {limit : Nat} (hd : v.depth = 0)
    (h : readHead s = .ok (.scalar v, rest)) :
    readValue fuel limit s = (v.readBack limit).map (·, rest) := by
  rw [readBack_scalar hd]
  cases limit <;> simp only [readValue, h, bind, Except.bind, Except.map]

/-- A value reads back from its text, whatever stands behind it in an array or object, unless it is
nested too deep. -/
theorem readValue_bytes {limit : Nat} (hp : v.isPlain = true) (hf : v.bytes.length ≤ fuel)
    (hr : Delimited rest) :
    readValue fuel limit (v.bytes ++ rest) = (v.readBack limit).map (·, rest) := by
  induction limit generalizing v rest with
  | zero =>
    rcases readHead_bytes hp hr with ⟨vs, rfl⟩ | ⟨ms, rfl⟩ | ⟨hd, h⟩
    · obtain ⟨inner, hbytes⟩ := bytes_arr vs
      simp only [readValue, readHead_arr hbytes, bind, Except.bind]
      rfl
    · obtain ⟨inner, hbytes⟩ := bytes_obj ms
      simp only [readValue, readHead_obj hbytes, bind, Except.bind]
      rfl
    · exact readValue_of_scalar hd h
  | succ limit ih =>
    rcases readHead_bytes hp hr with ⟨vs, rfl⟩ | ⟨ms, rfl⟩ | ⟨hd, h⟩
    · -- the elements
      rw [isPlain, plainElems_iff] at hp
      obtain ⟨hlen, hitem⟩ := length_arr vs
      obtain ⟨inner, hbytes, helems⟩ := @readElems_bytes rest vs fuel _
        (fun acc v => (v.readBack limit).map (· :: acc)) [] hp (Nat.le_trans hlen hf)
      simp only [readValue, readHead_arr hbytes, bind, Except.bind]
      rw [helems, foldlM_readBack_elems]
      · simp only [readBack, depth, Nat.add_le_add_iff_right]
        by_cases hd : elemsDepth vs ≤ limit <;> simp [hd, Except.map]
      · intro v hm acc rest hr
        rw [ih (hp v hm) (Nat.le_trans (hitem v hm) hf) hr]
        cases v.readBack limit <;> rfl
    · -- the members
      rw [isPlain, Bool.and_eq_true, decide_eq_true_eq, plainMembers_iff] at hp
      obtain ⟨hlen, hitem⟩ := length_obj ms
      have hcolon (s : Bytes) : readColon (ascii ':' :: s) = .ok s := by rfl
      obtain ⟨inner, hbytes, hmembers⟩ := @readMembers_bytes rest ms fuel _
        (fun acc m => (m.2.readBack limit).map (insertMember m.1 · acc)) [] (Nat.le_trans hlen hf)
      simp only [readValue, readHead_obj hbytes, bind, Except.bind]
      rw [hmembers, foldlM_readBack_members (by simpa using hp.1)]
      · simp only [readBack, depth, Nat.add_le_add_iff_right]
        by_cases hd : membersDepth ms ≤ limit <;> simp [hd, Except.map]
      · intro m hm acc rest hr
        simp only [hcolon, ih (hp.2 m hm) (Nat.le_trans (hitem m hm) hf) hr]
        cases m.2.readBack limit <;> rfl
    · exact readValue_of_scalar hd h

/-- A value reads back from its text, unless it is nested too deep. -/
theorem read_bytes (hp : v.isPlain = true) :
    Shape.any.read v.bytes = v.readBack depthLimit := by
  have h := @readValue_bytes [] v _ depthLimit hp (Nat.le_refl _) .nil
  rw [List.append_nil] at h
  simp only [Shape.read, Shape.readValue, h, bind, Except.bind]
  cases v.readBack depthLimit <;> rfl

end WorkerLink.Json
