import WorkerLink.Descriptor.Basic
import WorkerLink.Proofs.Address.Sockets
import WorkerLink.Proofs.Descriptor.SessionIds

/-!
# Descriptors read back

The first `?sessionId=` of a descriptor's text is the one that was written, since no address holds a
question mark; the token may hold another one.
-/

namespace WorkerLink

namespace Descriptor

theorem isPrefixOf?_append (a b : List Char) : a.isPrefixOf? (a ++ b) = some b := by
  induction a with
  | nil => rfl
  | cons x a ih =>
    have hcons : (x :: a).isPrefixOf? (x :: a ++ b) =
        if x == x then a.isPrefixOf? (a ++ b) else none := rfl
    rw [hcons, beq_self_eq_true, if_pos rfl, ih]

/-- A separator is found where it was put, if its first character does not come before. -/
theorem splitAtFirst_append {c : Char} {sep acc before after : List Char} (h : c ∉ before) :
    splitAtFirst (c :: sep) acc (before ++ (c :: sep ++ after)) =
      some (acc.reverse ++ before, after) := by
  induction before generalizing acc with
  | nil =>
    have hp := isPrefixOf?_append (c :: sep) after
    rw [List.cons_append] at hp
    simp only [List.nil_append, List.cons_append, splitAtFirst, hp, List.append_nil]
  | cons x before ih =>
    rw [List.mem_cons, not_or] at h
    have hp : (c :: sep).isPrefixOf? (x :: (before ++ (c :: sep ++ after))) = none :=
      if_neg (by simp [h.1])
    simp only [List.cons_append] at hp ih ⊢
    rw [splitAtFirst, hp]
    simp only [ih h.2, List.reverse_cons, List.append_assoc, List.singleton_append]

/-- A descriptor reads back from its text. -/
theorem parse_text (d : Descriptor) : parse d.text = .ok d := by
  have hscheme : scheme.isPrefixOf? d.text.toList =
      some (d.addr.chars ++ (query ++ d.session.chars)) := by
    rw [text, String.toList_ofList, chars, List.append_assoc, List.append_assoc]
    exact isPrefixOf?_append ..
  have hsplit : splitAtFirst query [] (d.addr.chars ++ (query ++ d.session.chars)) =
      some (d.addr.chars, d.session.chars) :=
    splitAtFirst_append d.addr.query_notMem_chars
  simp only [parse, hscheme, hsplit, d.addr.parseChars?_chars, SessionId.ofChars_chars]
  rfl

/-- Every descriptor reads back from its text, whichever form its address is written in and whatever
its token holds. So no two descriptors have the same text, and writing what was read of a text and
reading it again changes nothing. -/
theorem text_faithful :
    (∀ d : Descriptor, parse d.text = .ok d) ∧ Function.Injective text ∧
      ∀ s, (do parse (← parse s).text) = parse s := by
  refine ⟨parse_text, fun d e h => ?_, fun s => ?_⟩
  · have hd := parse_text d
    rw [h, parse_text e] at hd
    exact (Except.ok.inj hd).symm
  · cases parse s with
    | error e => rfl
    | ok d => exact parse_text d

-- The longer run of zero groups is left out, and the token holds another query.
example :
    (SessionId.parse "?sessionId=x").map
        (fun id => text ⟨.v6 ⟨[1, 0, 0, 2, 0, 0, 0, 3], rfl⟩ 7 80, id⟩) =
      .ok "tcp://[1:0:0:2::3%7]:80?sessionId=?sessionId=x" := by
  rfl

end Descriptor

end WorkerLink
