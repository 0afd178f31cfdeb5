import WorkerLink.Proofs.Descriptor.RoundTrip

/-!
# The grammar of descriptors

A descriptor is the scheme, the text of an address, `?sessionId=` and a token (`Parts`). The token
may hold `?sessionId=` as well, yet there is no other way to take a descriptor apart, since no text
of an address holds a question mark. A text that is no descriptor has one fault, the first that
applies in the order of `Fault`.
-/

namespace WorkerLink

namespace Descriptor

/-! ## Separators -/

/-- A text is `before`, the separator and `after`, and the separator begins nowhere earlier. -/
structure SplitsFirst (sep cs before after : List Char) : Prop where
  eq : cs = before ++ (sep ++ after)
  first : ∀ b a, cs = b ++ (sep ++ a) → before.length ≤ b.length

variable {sep cs before after before' after' acc : List Char} {c : Char}

theorem SplitsFirst.unique (h : SplitsFirst sep cs before after)
    (h' : SplitsFirst sep cs before' after') : before = before' ∧ after = after' := by
  have hlen : before.length = before'.length :=
    Nat.le_antisymm (h.first _ _ h'.eq) (h'.first _ _ h.eq)
  obtain ⟨hb, hs⟩ := List.append_inj (h.eq.symm.trans h'.eq) hlen
  exact ⟨hb, List.append_cancel_left hs⟩

theorem SplitsFirst.cons (h : SplitsFirst sep cs before after)
    (hc : ∀ a, c :: cs ≠ sep ++ a) : SplitsFirst sep (c :: cs) (c :: before) after := by
  refine ⟨by rw [h.eq, List.cons_append], fun b a he => ?_⟩
  cases b with
  | nil => exact (hc a he).elim
  | cons x b => exact Nat.succ_le_succ (h.first b a (List.cons.inj he).2)

theorem isPrefixOf?_eq_some_iff : sep.isPrefixOf? cs = some after ↔ cs = sep ++ after := by
  refine ⟨fun h => ?_, fun h => h ▸ isPrefixOf?_append sep after⟩
  induction sep generalizing cs with
  | nil => exact Option.some.inj h
  | cons x sep ih =>
    cases cs with
    | nil => cases h
    | cons y cs =>
      have hcons : (x :: sep).isPrefixOf? (y :: cs) =
          if x == y then sep.isPrefixOf? cs else none := rfl
      rw [hcons] at h
      split at h
      · next hxy => rw [ih h, ← eq_of_beq hxy, List.cons_append]
      · cases h

theorem isPrefixOf?_eq_none_iff : sep.isPrefixOf? cs = none ↔ ∀ a, cs ≠ sep ++ a := by
  rw [Option.eq_none_iff_forall_ne_some]
  exact forall_congr' fun a => not_congr isPrefixOf?_eq_some_iff

/-- Either the separator is found where it begins first, or it is nowhere in the text. -/
theorem splitAtFirst_cases (sep acc cs : List Char) :
    (∃ before after, splitAtFirst sep acc cs = some (acc.reverse ++ before, after) ∧
      SplitsFirst sep cs before after) ∨
    (splitAtFirst sep acc cs = none ∧ ∀ b a, cs ≠ b ++ (sep ++ a)) := by
  induction cs generalizing acc with
  | nil =>
    rw [splitAtFirst]
    split
    · next hsep =>
      refine .inl ⟨[], [], by rw [List.append_nil], by rw [hsep]; rfl, fun b a _ => Nat.zero_le _⟩
    · next hsep =>
      refine .inr ⟨rfl, fun b a he => hsep ?_⟩
      exact (List.append_eq_nil_iff.1 (List.append_eq_nil_iff.1 he.symm).2).1
  | cons c cs ih =>
    rw [splitAtFirst]
    split
    · next rest hp =>
      have heq : c :: cs = sep ++ rest := isPrefixOf?_eq_some_iff.1 hp
      exact .inl ⟨[], rest, by rw [List.append_nil], heq, fun b a _ => Nat.zero_le _⟩
    · next hp =>
      have hc := isPrefixOf?_eq_none_iff.1 hp
      rcases ih (c :: acc) with ⟨before, after, h, hs⟩ | ⟨h, hs⟩
      · refine .inl ⟨c :: before, after, ?_, hs.cons hc⟩
        rw [h, List.reverse_cons, List.append_assoc, List.singleton_append]
      · refine .inr ⟨h, fun b a he => ?_⟩
        cases b with
        | nil => exact hc a he
        | cons x b => exact hs b a (List.cons.inj he).2

theorem splitAtFirst_eq_some_iff :
    splitAtFirst sep [] cs = some (before, after) ↔ SplitsFirst sep cs before after := by
  rcases splitAtFirst_cases sep [] cs with ⟨b, a, h, hs⟩ | ⟨h, hs⟩
  · rw [h]
    constructor
    · intro he
      obtain ⟨rfl, rfl⟩ := Prod.mk.inj (Option.some.inj he)
      exact hs
    · intro hs'
      obtain ⟨rfl, rfl⟩ := hs.unique hs'
      rfl
  · rw [h]
    exact ⟨nofun, fun hs' => (hs _ _ hs'.eq).elim⟩

theorem splitAtFirst_eq_none_iff :
    splitAtFirst sep [] cs = none ↔ ∀ b a, cs ≠ b ++ (sep ++ a) := by
  rcases splitAtFirst_cases sep [] cs with ⟨b, a, h, hs⟩ | ⟨h, hs⟩
  · rw [h]
    exact ⟨nofun, fun hs' => (hs' _ _ hs.eq).elim⟩
  · exact ⟨fun _ => hs, fun _ => h⟩

/-! ## Descriptors and faults -/

/-- A text is the scheme, the text of an address, `?sessionId=` and a token. -/
structure Parts (s a t : String) : Prop where
  eq : s = "tcp://" ++ a ++ "?sessionId=" ++ t
  address : ∃ addr, SocketAddress.parse? a = some addr
  token : IsToken t.toList

/-- What stands before and after the first `?sessionId=`. -/
structure FirstQuery (rest a t : String) : Prop where
  eq : rest = a ++ "?sessionId=" ++ t
  first : ∀ a' t', rest = a' ++ "?sessionId=" ++ t' → a.length ≤ a'.length

/-- What is wrong with a text. -/
inductive Fault (s : String) : DescriptorError → Prop where
  | scheme (h : ∀ rest, s ≠ "tcp://" ++ rest) : Fault s (.scheme s)
  | missingSession {rest : String} (hs : s = "tcp://" ++ rest)
      (h : ∀ a t, rest ≠ a ++ "?sessionId=" ++ t) : Fault s (.missingSession s)
  | address {rest a t : String} (hs : s = "tcp://" ++ rest) (h : FirstQuery rest a t)
      (ha : SocketAddress.parse? a = none) : Fault s (.address a)
  | emptySession {rest a : String} {addr : SocketAddress} (hs : s = "tcp://" ++ rest)
      (h : FirstQuery rest a "") (ha : SocketAddress.parse? a = some addr) : Fault s .emptySession
  | invalidSession {rest a t : String} {addr : SocketAddress} (hs : s = "tcp://" ++ rest)
      (h : FirstQuery rest a t) (ha : SocketAddress.parse? a = some addr) (hn : t ≠ "")
      (ht : ¬IsToken t.toList) : Fault s (.invalidSession t)

variable {s rest a t : String} {addr : SocketAddress} {d : Descriptor} {e : DescriptorError}

theorem eq_scheme_iff : s = "tcp://" ++ rest ↔ s.toList = scheme ++ rest.toList := by
  rw [← String.toList_inj, String.toList_append]
  rfl

theorem eq_query_iff :
    rest = a ++ "?sessionId=" ++ t ↔ rest.toList = a.toList ++ (query ++ t.toList) := by
  rw [← String.toList_inj, String.toList_append, String.toList_append, List.append_assoc]
  rfl

theorem splitsFirst_iff :
    SplitsFirst query rest.toList a.toList t.toList ↔ FirstQuery rest a t := by
  constructor
  · intro h
    refine ⟨eq_query_iff.2 h.eq, fun a' t' he => ?_⟩
    rw [← String.length_toList, ← String.length_toList]
    exact h.first _ _ (eq_query_iff.1 he)
  · intro h
    refine ⟨eq_query_iff.1 h.eq, fun b u he => ?_⟩
    have := h.first (String.ofList b) (String.ofList u)
    rw [eq_query_iff, String.toList_ofList, String.toList_ofList, String.length_ofList,
      ← String.length_toList] at this
    exact this he

theorem isPrefixOf?_scheme (h : s = "tcp://" ++ rest) :
    scheme.isPrefixOf? s.toList = some rest.toList :=
  isPrefixOf?_eq_some_iff.2 (eq_scheme_iff.1 h)

/-- Every text with a scheme and a first `?sessionId=` is read by its parts. -/
theorem parse_of_firstQuery (hs : s = "tcp://" ++ rest) (h : FirstQuery rest a t) :
    parse s = match SocketAddress.parse? a with
      | none => .error (.address a)
      | some addr => (SessionId.parse t).map (⟨addr, ·⟩) := by
  have hsplit := splitAtFirst_eq_some_iff.2 (splitsFirst_iff.2 h)
  simp only [parse, isPrefixOf?_scheme hs, hsplit, String.ofList_toList]
  rfl

/-- An address text ends at the first `?sessionId=`, since it holds no question mark. -/
theorem firstQuery_of_address (h : rest = a ++ "?sessionId=" ++ t)
    (ha : SocketAddress.parse? a = some addr) : FirstQuery rest a t := by
  have hnot := SocketAddress.query_notMem_of_parseChars? ha
  have hsplit : splitAtFirst query [] (a.toList ++ (query ++ t.toList)) =
      some (a.toList, t.toList) := splitAtFirst_append hnot
  rw [← eq_query_iff.1 h] at hsplit
  exact splitsFirst_iff.1 (splitAtFirst_eq_some_iff.1 hsplit)

theorem FirstQuery.unique {a' t' : String} (h : FirstQuery rest a t)
    (h' : FirstQuery rest a' t') : a = a' ∧ t = t' := by
  obtain ⟨ha, ht⟩ := (splitsFirst_iff.2 h).unique (splitsFirst_iff.2 h')
  exact ⟨String.toList_inj.1 ha, String.toList_inj.1 ht⟩

/-! ## Reading -/

theorem parse_of_parts (h : Parts s a t) :
    ∃ d, parse s = .ok d ∧ SocketAddress.parse? a = some d.addr ∧ d.session.text = t := by
  obtain ⟨addr, ha⟩ := h.address
  obtain ⟨id, hid, hchars⟩ := SessionId.exists_ofChars h.token
  have hfirst : FirstQuery (a ++ "?sessionId=" ++ t) a t := firstQuery_of_address rfl ha
  have hs : s = "tcp://" ++ (a ++ "?sessionId=" ++ t) := by
    rw [h.eq]
    simp only [String.append_assoc]
  refine ⟨⟨addr, id⟩, ?_, ha, by rw [SessionId.text, hchars, String.ofList_toList]⟩
  rw [parse_of_firstQuery hs hfirst, ha, SessionId.parse, hid]
  rfl

theorem parse_of_fault (h : Fault s e) : parse s = .error e := by
  cases h with
  | scheme h =>
    have hp : scheme.isPrefixOf? s.toList = none := by
      rw [isPrefixOf?_eq_none_iff]
      intro cs hcs
      exact h (String.ofList cs) (eq_scheme_iff.2 (by rw [hcs, String.toList_ofList]))
    simp only [parse, hp]
  | @missingSession rest hs h =>
    have hsplit : splitAtFirst query [] rest.toList = none := by
      rw [splitAtFirst_eq_none_iff]
      intro before after he
      refine h (String.ofList before) (String.ofList after) (eq_query_iff.2 ?_)
      rw [he, String.toList_ofList, String.toList_ofList]
    simp only [parse, isPrefixOf?_scheme hs, hsplit]
  | address hs h ha => rw [parse_of_firstQuery hs h, ha]
  | emptySession hs h ha =>
    rw [parse_of_firstQuery hs h, ha]
    rfl
  | @invalidSession _ _ t _ hs h ha hn ht =>
    have hne : t.toList ≠ [] := fun he => hn (String.toList_inj.1 he)
    rw [parse_of_firstQuery hs h, ha, SessionId.parse, SessionId.ofChars_of_not_isToken hne ht,
      String.ofList_toList]
    rfl

/-- Every text can be taken apart or has a fault. -/
theorem parts_or_fault (s : String) : (∃ a t, Parts s a t) ∨ ∃ e, Fault s e := by
  by_cases hs : ∃ rest, s = "tcp://" ++ rest
  · obtain ⟨rest, hs⟩ := hs
    rcases splitAtFirst_cases query [] rest.toList with ⟨before, after, -, hfirst⟩ | ⟨-, hnone⟩
    · obtain ⟨a, rfl⟩ : ∃ a : String, a.toList = before := ⟨_, String.toList_ofList⟩
      obtain ⟨t, rfl⟩ : ∃ t : String, t.toList = after := ⟨_, String.toList_ofList⟩
      have hq := splitsFirst_iff.1 hfirst
      cases ha : SocketAddress.parse? a with
      | none => exact .inr ⟨_, .address hs hq ha⟩
      | some addr =>
        by_cases ht : IsToken t.toList
        · have heq : s = "tcp://" ++ a ++ "?sessionId=" ++ t := by
            rw [hs, hq.eq]
            simp only [String.append_assoc]
          exact .inl ⟨a, t, heq, ⟨addr, ha⟩, ht⟩
        · by_cases hn : t = ""
          · exact .inr ⟨_, .emptySession hs (hn ▸ hq) ha⟩
          · exact .inr ⟨_, .invalidSession hs hq ha hn ht⟩
    · exact .inr ⟨_, .missingSession hs fun a t he => hnone _ _ (eq_query_iff.1 he)⟩
  · exact .inr ⟨_, .scheme fun rest he => hs ⟨rest, he⟩⟩

/-- Reading a text gives a descriptor just when it is a scheme, the text of an address,
`?sessionId=` and a token. Then address and token of the descriptor are these parts, and no other
occurrence of `?sessionId=` has the text of an address before it. Otherwise reading gives the fault
of the text. -/
theorem grammar (s : String) :
    ((∃ d, parse s = .ok d) ↔ ∃ a t, Parts s a t) ∧
    (∀ a t, Parts s a t →
      (∃ d, parse s = .ok d ∧ SocketAddress.parse? a = some d.addr ∧ d.session.text = t) ∧
      ∀ a' t' addr, s = "tcp://" ++ a' ++ "?sessionId=" ++ t' →
        SocketAddress.parse? a' = some addr → a' = a ∧ t' = t) ∧
    ∀ e, parse s = .error e ↔ Fault s e := by
  refine ⟨⟨?_, ?_⟩, fun a t h => ⟨parse_of_parts h, ?_⟩, fun e => ⟨?_, parse_of_fault⟩⟩
  · rintro ⟨d, hd⟩
    refine (parts_or_fault s).resolve_right ?_
    rintro ⟨e, he⟩
    rw [parse_of_fault he] at hd
    cases hd
  · rintro ⟨a, t, h⟩
    obtain ⟨d, hd, -⟩ := parse_of_parts h
    exact ⟨d, hd⟩
  · intro a' t' addr hs ha'
    obtain ⟨addr', ha⟩ := h.address
    have hrest : a' ++ "?sessionId=" ++ t' = a ++ "?sessionId=" ++ t := by
      have := hs.symm.trans h.eq
      rw [String.append_assoc, String.append_assoc, String.append_assoc,
        String.append_assoc] at this
      simpa only [String.append_assoc, String.append_right_inj] using this
    exact (firstQuery_of_address rfl ha').unique (firstQuery_of_address hrest ha)
  · intro he
    rcases parts_or_fault s with ⟨a, t, h⟩ | ⟨e', h⟩
    · obtain ⟨d, hd, -⟩ := parse_of_parts h
      rw [hd] at he
      cases he
    · rw [parse_of_fault h] at he
      cases he
      exact h

/-- The parts of a text whose token holds `?sessionId=` are not those at its last occurrence. -/
theorem grammar_query_in_token :
    Parts "tcp://[::1]:80?sessionId=a?sessionId=b" "[::1]:80" "a?sessionId=b" ∧
      ∀ a t addr, "tcp://[::1]:80?sessionId=a?sessionId=b" = "tcp://" ++ a ++ "?sessionId=" ++ t →
        SocketAddress.parse? a = some addr → a = "[::1]:80" ∧ t = "a?sessionId=b" := by
  have h : Parts "tcp://[::1]:80?sessionId=a?sessionId=b" "[::1]:80" "a?sessionId=b" :=
    ⟨rfl, ⟨.v6 ⟨[0, 0, 0, 0, 0, 0, 0, 1], rfl⟩ 0 80, by rfl⟩, isToken_iff.2 (by decide)⟩
  exact ⟨h, ((grammar _).2.1 _ _ h).2⟩

end Descriptor

end WorkerLink
