import WorkerLink.Descriptor.Json
import WorkerLink.Proofs.Descriptor.RoundTrip
import WorkerLink.Proofs.Json.RoundTrip
import WorkerLink.Proofs.Json.Skip

/-!
# Descriptors and session ids as JSON

A descriptor reads back from its JSON text. Conversely, whatever input a descriptor is read from
holds the text of its address and its token, each once (`Spells`): as members of an object in any
order and among others, or as the two elements of an array. What these values are is found by
passing over every member and element, so it does not depend on what the reader of descriptors looks
at.
-/

namespace WorkerLink

open Json (readHead readColon readElems readMembers readEnd skipValue skipBlanks bind_eq_ok_iff)

variable {s v rest : Bytes} {a t name name' : String} {id : SessionId} {addr : SocketAddress}
  {d : Descriptor}

/-! ## Values of an input -/

/-- The value at the front of an input is a text. -/
def IsText (s : Bytes) (t : String) : Prop := ∃ rest, readHead s = .ok (.scalar (.str t), rest)

/-- The members of an object behind its opening brace, each with the input at its value. -/
def memberList (s : Bytes) : Except Json.Fault (List (String × Bytes) × Bytes) :=
  readMembers (fun ms name s => do
    let s ← readColon s
    .ok (ms ++ [(name, s)], ← skipValue s)) s.length [] s

/-- The elements of an array behind its opening bracket, each as the input at its front. -/
def elemList (s : Bytes) : Except Json.Fault (List Bytes × Bytes) :=
  readElems (fun vs s => do .ok (vs ++ [s], ← skipValue s)) s.length [] s

/-- A name stands once among members, with a text as its value. -/
def HasText (ms : List (String × Bytes)) (name t : String) : Prop :=
  ∃ v, ms.filter (·.1 = name) = [(name, v)] ∧ IsText v t

/-- An input is the JSON text of an address text and a token, as an object or as an array. -/
inductive Spells (s : Bytes) (a t : String) : Prop where
  | object {inner rest : Bytes} {ms : List (String × Bytes)}
      (head : readHead s = .ok (.openObj, inner)) (list : memberList inner = .ok (ms, rest))
      (addr : HasText ms "addr" a) (session : HasText ms "session_id" t)
      (tail : readEnd rest = .ok ())
  | array {inner rest v w : Bytes}
      (head : readHead s = .ok (.openArr, inner)) (list : elemList inner = .ok ([v, w], rest))
      (addr : IsText v a) (session : IsText w t) (tail : readEnd rest = .ok ())

/-! ## Reading single values -/

theorem SessionId.readJsonValue_eq_ok_iff :
    readJsonValue s = .ok (id, rest) ↔
      ∃ t, readHead s = .ok (.scalar (.str t), rest) ∧ parse t = .ok id := by
  constructor
  · intro h
    obtain ⟨⟨head, s'⟩, hhead, h⟩ := bind_eq_ok_iff.1 h
    split at h
    · next t s₁ he =>
      cases he
      split at h
      · next id' hid =>
        cases h
        exact ⟨t, hhead, hid⟩
      · cases h
    · cases h
  · rintro ⟨t, hhead, hid⟩
    simp only [readJsonValue, hhead, hid, bind, Except.bind]

theorem SocketAddress.readJsonValue_eq_ok_iff :
    readJsonValue s = .ok (addr, rest) ↔
      ∃ t, readHead s = .ok (.scalar (.str t), rest) ∧ parse? t = some addr := by
  constructor
  · intro h
    obtain ⟨⟨head, s'⟩, hhead, h⟩ := bind_eq_ok_iff.1 h
    split at h
    · next t s₁ he =>
      cases he
      split at h
      · next addr' haddr =>
        cases h
        exact ⟨t, hhead, haddr⟩
      · cases h
    · cases h
  · rintro ⟨t, hhead, haddr⟩
    simp only [readJsonValue, hhead, haddr, bind, Except.bind]

/-- A value that is a text is all of its head. -/
theorem Json.readValue_eq_str_iff {fuel limit : Nat} :
    Json.readValue fuel limit s = .ok (.str t, rest) ↔
      readHead s = .ok (.scalar (.str t), rest) := by
  constructor
  · intro h
    cases limit with
    | zero =>
      obtain ⟨⟨head, s'⟩, hhead, h⟩ := bind_eq_ok_iff.1 h
      split at h
      · next he =>
        cases he
        cases h
        exact hhead
      · cases h
    | succ limit =>
      obtain ⟨⟨head, s'⟩, hhead, h⟩ := bind_eq_ok_iff.1 h
      split at h
      · next he =>
        cases he
        cases h
        exact hhead
      · obtain ⟨_, -, h⟩ := bind_eq_ok_iff.1 h
        cases h
      · obtain ⟨_, -, h⟩ := bind_eq_ok_iff.1 h
        cases h
  · intro h
    cases limit <;> simp only [Json.readValue, h, bind, Except.bind]

/-- An input reads as a session id just when it is the JSON text of a string that reads as one. -/
theorem SessionId.readJson_eq_ok_iff :
    readJson s = .ok id ↔ ∃ t, Json.read s = .ok (.str t) ∧ parse t = .ok id := by
  constructor
  · intro h
    obtain ⟨⟨id', rest⟩, hvalue, h⟩ := bind_eq_ok_iff.1 h
    obtain ⟨_, hend, h⟩ := bind_eq_ok_iff.1 h
    cases h
    obtain ⟨t, hhead, hid⟩ := readJsonValue_eq_ok_iff.1 hvalue
    refine ⟨t, ?_, hid⟩
    simp only [Json.read, Json.readValue_eq_str_iff.2 hhead, hend, bind, Except.bind]
  · rintro ⟨t, h, hid⟩
    obtain ⟨⟨value, rest⟩, hvalue, h⟩ := bind_eq_ok_iff.1 h
    obtain ⟨_, hend, h⟩ := bind_eq_ok_iff.1 h
    cases h
    have hread := readJsonValue_eq_ok_iff.2 ⟨t, Json.readValue_eq_str_iff.1 hvalue, hid⟩
    simp only [readJson, hread, hend, bind, Except.bind]

/-! ## Members of an object -/

/-- What has been read for a member: nothing as long as its name has not been there, and then what
its text reads as. -/
def Reads {α : Type} (ms : List (String × Bytes)) (name : String) (reads : String → α → Prop) :
    Option α → Prop
  | none => ms.filter (·.1 = name) = []
  | some x => ∃ t, HasText ms name t ∧ reads t x

/-- What has been read for both members, among all that were listed. -/
structure Listed (m : Descriptor.Members) (ms : List (String × Bytes)) : Prop where
  addr : Reads ms "addr" (fun t addr => SocketAddress.parse? t = some addr) m.addr
  session : Reads ms "session_id" (fun t id => SessionId.parse t = .ok id) m.session

section

variable {α : Type} {ms : List (String × Bytes)} {reads : String → α → Prop} {o : Option α} {x : α}

theorem Reads.pass (h : Reads ms name reads o) (hn : name' ≠ name) :
    Reads (ms ++ [(name', v)]) name reads o := by
  have hfilter : (ms ++ [(name', v)]).filter (·.1 = name) = ms.filter (·.1 = name) := by
    rw [List.filter_append, List.filter_cons_of_neg (by simpa using hn), List.filter_nil,
      List.append_nil]
  cases o with
  | none => exact hfilter.trans h
  | some x =>
    obtain ⟨t, ⟨w, hw, htext⟩, hx⟩ := h
    exact ⟨t, ⟨w, hfilter.trans hw, htext⟩, hx⟩

theorem Reads.take (h : Reads ms name reads none) (hv : IsText v t) (hx : reads t x) :
    Reads (ms ++ [(name, v)]) name reads (some x) := by
  have hnone : ms.filter (·.1 = name) = [] := h
  refine ⟨t, ⟨v, ?_, hv⟩, hx⟩
  rw [List.filter_append, hnone, List.filter_cons_of_pos (by simp)]
  rfl

end

theorem SocketAddress.parse?_text (addr : SocketAddress) : parse? addr.text = some addr := by
  rw [parse?, text, String.toList_ofList, parseChars?_chars]

theorem SessionId.parse_text (id : SessionId) : parse id.text = .ok id := by
  rw [parse, text, String.toList_ofList, ofChars_chars]

namespace Descriptor

/-- Reading a member goes as far as passing over it. -/
theorem Members.read_listed {m m' : Members} {ms : List (String × Bytes)} (hm : Listed m ms)
    (h : m.read name s = .ok (m', rest)) :
    ∃ v, readColon s = .ok v ∧ skipValue v = .ok rest ∧ Listed m' (ms ++ [(name, v)]) := by
  rw [Members.read] at h
  split at h
  · next hname =>
    subst hname
    split at h
    · cases h
    · next hnew =>
      obtain ⟨v, hcolon, h⟩ := bind_eq_ok_iff.1 h
      obtain ⟨⟨addr, rest'⟩, hread, h⟩ := bind_eq_ok_iff.1 h
      cases h
      obtain ⟨t, hhead, haddr⟩ := SocketAddress.readJsonValue_eq_ok_iff.1 hread
      have hnone : m.addr = none := by simpa using hnew
      refine ⟨v, hcolon, Json.skipValue_of_readHead hhead, ?_, hm.session.pass (by decide)⟩
      exact (hnone ▸ hm.addr).take ⟨_, hhead⟩ haddr
  · next hother =>
    split at h
    · next hname =>
      subst hname
      split at h
      · cases h
      · next hnew =>
        obtain ⟨v, hcolon, h⟩ := bind_eq_ok_iff.1 h
        obtain ⟨⟨id, rest'⟩, hread, h⟩ := bind_eq_ok_iff.1 h
        cases h
        obtain ⟨t, hhead, hid⟩ := SessionId.readJsonValue_eq_ok_iff.1 hread
        have hnone : m.session = none := by simpa using hnew
        refine ⟨v, hcolon, Json.skipValue_of_readHead hhead, hm.addr.pass (by decide), ?_⟩
        exact (hnone ▸ hm.session).take ⟨_, hhead⟩ hid
    · next hother' =>
      obtain ⟨v, hcolon, h⟩ := bind_eq_ok_iff.1 h
      obtain ⟨rest', hskip, h⟩ := bind_eq_ok_iff.1 h
      cases h
      exact ⟨v, hcolon, hskip, hm.addr.pass hother, hm.session.pass hother'⟩

theorem members_listed {m : Members} (h : readMembers Members.read s.length {} s = .ok (m, rest)) :
    ∃ ms, memberList s = .ok (ms, rest) ∧ Listed m ms := by
  refine Json.readMembers_sim ?_ (⟨rfl, rfl⟩ : Listed {} []) h
  intro m ms name s m' rest hm hread
  obtain ⟨v, hcolon, hskip, hm'⟩ := Members.read_listed hm hread
  refine ⟨_, ?_, hm'⟩
  simp only [hcolon, hskip, bind, Except.bind]

theorem Members.close_eq_ok_iff {m : Members} :
    m.close = .ok d ↔ m.addr = some d.addr ∧ m.session = some d.session := by
  obtain ⟨addr, session⟩ := m
  obtain ⟨addr', session'⟩ := d
  cases addr <;> cases session <;> simp [close]

/-! ## Elements of an array -/

theorem length_skipBlanks_le (s : Bytes) : (skipBlanks s).length ≤ s.length :=
  (List.dropWhile_sublist Json.isBlank).length_le

theorem two_le_length (h : IsText s t) : 2 ≤ s.length := by
  obtain ⟨rest, h⟩ := h
  obtain ⟨s', hs, hread⟩ := Json.readString_of_readHead h
  have hle := length_skipBlanks_le s
  rw [hs] at hle
  cases s' with
  | nil => cases hread
  | cons b s' => exact Nat.le_trans (Nat.le_add_left ..) hle

theorem elems_listed (h : readPair s = .ok (d, rest)) :
    ∃ v w a t, elemList s = .ok ([v, w], rest) ∧ IsText v a ∧ IsText w t ∧
      SocketAddress.parse? a = some d.addr ∧ SessionId.parse t = .ok d.session := by
  rw [readPair] at h
  split at h
  · cases h
  · next b s' hs =>
    split at h
    · cases h
    · next hb =>
      obtain ⟨⟨addr, s₁⟩, haddr, h⟩ := bind_eq_ok_iff.1 h
      obtain ⟨next, hnext, h⟩ := bind_eq_ok_iff.1 h
      cases next with
      | finished => cases h
      | item s₂ =>
        obtain ⟨⟨session, s₃⟩, hsession, h⟩ := bind_eq_ok_iff.1 h
        obtain ⟨a, hheada, haddr⟩ := SocketAddress.readJsonValue_eq_ok_iff.1 haddr
        obtain ⟨t, hheadt, hsession⟩ := SessionId.readJsonValue_eq_ok_iff.1 hsession
        have hclose : Json.readNext (ascii ']') s₃ = .ok (.finished rest) ∧
            d = ⟨addr, session⟩ := by
          dsimp only at h
          split at h
          · cases h
          · next b' s' hs₃ =>
            split at h
            · next hb' =>
              cases h
              exact ⟨by simp only [Json.readNext, hs₃, if_pos hb'], rfl⟩
            · cases h
        obtain ⟨hlast, rfl⟩ := hclose
        have htext : IsText (b :: s') a := ⟨_, hheada⟩
        have hle := length_skipBlanks_le s
        rw [hs] at hle
        obtain ⟨fuel, hfuel⟩ := Nat.exists_eq_add_of_le' (Nat.le_trans (two_le_length htext) hle)
        refine ⟨b :: s', s₂, a, t, ?_, htext, ⟨_, hheadt⟩, haddr, hsession⟩
        simp only [elemList, readElems, hs, if_neg hb, hfuel, Json.foldElems, hnext, hlast,
          Json.skipValue_of_readHead hheada, Json.skipValue_of_readHead hheadt, bind, Except.bind]
        rfl

/-! ## Whole inputs -/

/-- A descriptor is read from the texts that its input holds. -/
theorem spells_of_readJson (h : readJson s = .ok d) :
    ∃ a t, Spells s a t ∧ SocketAddress.parse? a = some d.addr ∧
      SessionId.parse t = .ok d.session := by
  obtain ⟨⟨d', rest⟩, hvalue, h⟩ := bind_eq_ok_iff.1 h
  obtain ⟨_, hend, h⟩ := bind_eq_ok_iff.1 h
  cases h
  obtain ⟨⟨head, inner⟩, hhead, h⟩ := bind_eq_ok_iff.1 hvalue
  split at h
  · next he =>
    cases he
    obtain ⟨⟨m, rest'⟩, hmembers, h⟩ := bind_eq_ok_iff.1 h
    obtain ⟨d', hclose, h⟩ := bind_eq_ok_iff.1 h
    cases h
    obtain ⟨ms, hlist, hm⟩ := members_listed hmembers
    obtain ⟨haddr, hsession⟩ := Members.close_eq_ok_iff.1 hclose
    obtain ⟨a, ha, hparse⟩ : Reads ms "addr" _ (some d.addr) := haddr ▸ hm.addr
    obtain ⟨t, ht, hid⟩ : Reads ms "session_id" _ (some d.session) := hsession ▸ hm.session
    exact ⟨a, t, .object hhead hlist ha ht hend, hparse, hid⟩
  · next he =>
    cases he
    obtain ⟨v, w, a, t, hlist, ha, ht, hparse, hid⟩ := elems_listed h
    exact ⟨a, t, .array hhead hlist ha ht hend, hparse, hid⟩
  · cases h

/-- What reading a member of the JSON text of a descriptor does. -/
def Members.put (d : Descriptor) (m : Members) (member : String × Json) :
    Except Json.Fault Members :=
  if member.1 = "addr" then
    if m.addr.isSome then .error (.misfit (.duplicate "addr")) else .ok { m with addr := d.addr }
  else if m.session.isSome then .error (.misfit (.duplicate "session_id"))
  else .ok { m with session := d.session }

theorem Members.read_bytes (d : Descriptor) {member : String × Json}
    (hmem : member ∈ [("addr", .str d.addr.text), ("session_id", d.session.toJson)])
    (m : Members) (rest : Bytes) :
    m.read member.1 (ascii ':' :: (member.2.bytes ++ rest)) =
      (Members.put d m member).map (·, rest) := by
  have hcolon (s : Bytes) : readColon (ascii ':' :: s) = .ok s := rfl
  simp only [List.mem_cons, List.not_mem_nil, or_false] at hmem
  rcases hmem with rfl | rfl
  · have haddr := SocketAddress.readJsonValue_eq_ok_iff.2
      ⟨_, Json.readHead_str (s := rest) d.addr.text, SocketAddress.parse?_text d.addr⟩
    simp only [Members.read, Members.put, if_true, hcolon, Json.bytes_str, haddr, bind, Except.bind]
    split <;> rfl
  · have hsession := SessionId.readJsonValue_eq_ok_iff.2
      ⟨_, Json.readHead_str (s := rest) d.session.text, SessionId.parse_text d.session⟩
    have hne : "session_id" ≠ "addr" := by decide
    simp only [Members.read, Members.put, if_neg hne, if_true, hcolon, SessionId.toJson,
      Json.bytes_str, hsession, bind, Except.bind]
    split <;> rfl

/-- What stands behind the opening brace of an object is at least as long as the object. -/
theorem length_le_inner {ms : List (String × Json)} {inner : Bytes}
    (h : (Json.obj ms).bytes = ascii '\x7b' :: inner) : ms.length ≤ inner.length := by
  cases ms with
  | nil => exact Nat.zero_le _
  | cons m ms =>
    have hlen := (@Json.length_le_flatMap (String × Json) Json.memberText ms).1
    rw [Json.bytes_obj_cons] at h
    rw [← (List.cons.inj h).2]
    simp only [Json.memberText, Json.membersText, List.length_append, List.length_cons] at hlen ⊢
    omega

/-- A descriptor reads back from its JSON text. -/
theorem readJson_bytes (d : Descriptor) : readJson d.toJson.bytes = .ok d := by
  obtain ⟨inner, hbytes⟩ :=
    Json.bytes_obj [("addr", .str d.addr.text), ("session_id", d.session.toJson)]
  obtain ⟨inner', hbytes', hmembers⟩ :=
    @Json.readMembers_bytes [] _ _ _ (Members.put d) {} (length_le_inner hbytes)
  obtain rfl : inner = inner' := (List.cons.inj (hbytes.symm.trans hbytes')).2
  have hread := hmembers Members.read fun member hmem m rest _ => Members.read_bytes d hmem m rest
  have hhead := @Json.readHead_obj inner [] _ hbytes
  simp only [List.append_nil] at hread hhead
  have hput : [("addr", Json.str d.addr.text), ("session_id", d.session.toJson)].foldlM
      (Members.put d) {} = .ok ⟨some d.addr, some d.session⟩ := rfl
  rw [hput] at hread
  have hvalue : readJsonValue d.toJson.bytes = .ok (d, []) := by
    simp only [readJsonValue, toJson, hhead, hread, bind, Except.bind, Except.map, Members.close]
  simp only [readJson, hvalue, bind, Except.bind]
  rfl

/-- A descriptor reads back from its JSON text, whatever its token holds. Whatever input a
descriptor or a session id is read from holds the texts it was made of, and the token among them is
never empty and has no character that a session id may not have; so has every session id, wherever
it comes from, and it takes as many bytes as it has characters. A descriptor that was read also
reads back from its own text. -/
theorem json_faithful :
    (∀ d : Descriptor, readJson d.toJson.bytes = .ok d) ∧
    (∀ s d, readJson s = .ok d → parse d.text = .ok d ∧
      ∃ a t, Spells s a t ∧ IsToken t.toList ∧ SocketAddress.parse? a = some d.addr ∧
        d.session.text = t) ∧
    (∀ s id, SessionId.readJson s = .ok id →
      ∃ t, Json.read s = .ok (.str t) ∧ IsToken t.toList ∧ id.text = t) ∧
    (∀ t id, SessionId.parse t = .ok id → IsToken t.toList ∧ id.text = t) ∧
    (∀ b, IsToken (SessionId.randomChars b) ∧
      (SessionId.ofRandom b).chars = SessionId.randomChars b) ∧
    ∀ id : SessionId, IsToken id.text.toList ∧ id.length = id.text.length ∧ 1 ≤ id.length := by
  refine ⟨readJson_bytes, fun s d h => ⟨parse_text d, ?_⟩, fun s id h => ?_, fun t id h => ?_,
    fun b => ⟨(SessionId.ofRandom b).isToken, rfl⟩, fun id => ?_⟩
  · obtain ⟨a, t, hspells, haddr, hid⟩ := spells_of_readJson h
    obtain ⟨htoken, htext⟩ := SessionId.parse_eq_ok_iff.1 hid
    exact ⟨a, t, hspells, htoken, haddr, htext⟩
  · obtain ⟨t, hread, hid⟩ := SessionId.readJson_eq_ok_iff.1 h
    exact ⟨t, hread, SessionId.parse_eq_ok_iff.1 hid⟩
  · exact SessionId.parse_eq_ok_iff.1 h
  · rw [SessionId.text, String.toList_ofList, String.length_ofList]
    exact ⟨id.isToken, id.length_eq, id.length_pos⟩

/-- The members of this text stand the other way round, behind one that nobody knows, and the token
holds a quote and a backslash, both escaped. -/
theorem json_faithful_reordered :
    let s := asciiBytes "\x7b\"x\":[1],\"session_id\":\"\\u0061\\\"\\\\\",\"addr\":\"[::1]:80\"\x7d"
    ∃ d, readJson s = .ok d ∧ d.session.text = "a\"\\" ∧ d.session.length = 3 ∧
      parse d.text = .ok d ∧ readJson d.toJson.bytes = .ok d ∧
      ∃ a t, Spells s a t ∧ d.session.text = t := by
  intro s
  let d : Descriptor :=
    ⟨.v6 ⟨[0, 0, 0, 0, 0, 0, 0, 1], rfl⟩ 0 80,
      ⟨['a', '"', '\\'], nofun, List.all_eq_true.1 (by decide)⟩⟩
  have hread : readJson s = .ok d := by rfl
  obtain ⟨htext, a, t, hspells, -, -, ht⟩ := json_faithful.2.1 s d hread
  exact ⟨d, hread, rfl, rfl, htext, json_faithful.1 d, a, t, hspells, ht⟩

end Descriptor

end WorkerLink
