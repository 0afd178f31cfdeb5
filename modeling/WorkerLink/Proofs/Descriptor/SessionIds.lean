import WorkerLink.SessionId
import WorkerLink.Proofs.Text.Lossy

/-!
# Session ids and their characters

Which characters make a session id (`IsToken`), and what reading a text as one gives in every case.
All of them are ASCII, so a session id takes as many bytes as it has characters.
-/

namespace WorkerLink

variable {cs : List Char} {c : Char} {id : SessionId} {s : String}

theorem isTokenChar_iff :
    isTokenChar c = true ↔ 0x20 < c.toNat ∧ c.toNat < 0x7F ∧ c ≠ '&' ∧ c ≠ '#' := by
  have low : '!' ≤ c ↔ 0x20 < c.toNat := Iff.rfl
  have high : c ≤ '~' ↔ c.toNat < 0x7F := Nat.lt_succ_iff.symm
  simp only [isTokenChar, Bool.and_eq_true, decide_eq_true_eq, bne_iff_ne, low, high, and_assoc]

/-- Characters that make a session id: at least one, and all of them printable ASCII other than the
space, `&` and `#`. -/
structure IsToken (cs : List Char) : Prop where
  nonempty : cs ≠ []
  graphic : ∀ c ∈ cs, 0x20 < c.toNat ∧ c.toNat < 0x7F ∧ c ≠ '&' ∧ c ≠ '#'

theorem isToken_iff : IsToken cs ↔ cs ≠ [] ∧ cs.all isTokenChar = true := by
  constructor
  · intro h
    exact ⟨h.nonempty, List.all_eq_true.2 fun c hc => isTokenChar_iff.2 (h.graphic c hc)⟩
  · rintro ⟨hn, hall⟩
    exact ⟨hn, fun c hc => isTokenChar_iff.1 (List.all_eq_true.1 hall c hc)⟩

namespace SessionId

/-- A session id is never empty and holds no character that it may not hold. -/
theorem isToken (id : SessionId) : IsToken id.chars :=
  ⟨id.nonempty, fun c hc => isTokenChar_iff.1 (id.printable c hc)⟩

/-! ## Reading one -/

theorem ofChars_chars (id : SessionId) : ofChars id.chars = .ok id := by
  rw [ofChars, dif_neg id.nonempty, dif_pos (List.all_eq_true.2 id.printable)]

theorem ofChars_of_not_isToken (hn : cs ≠ []) (h : ¬IsToken cs) :
    ofChars cs = .error (.invalidSession (String.ofList cs)) := by
  rw [ofChars, dif_neg hn, dif_neg fun hall => h (isToken_iff.2 ⟨hn, hall⟩)]

theorem ofChars_eq_ok_iff : ofChars cs = .ok id ↔ IsToken cs ∧ id.chars = cs := by
  constructor
  · intro h
    rw [ofChars] at h
    split at h
    · cases h
    · next hn =>
      split at h
      · next hall =>
        cases h
        exact ⟨isToken_iff.2 ⟨hn, hall⟩, rfl⟩
      · cases h
  · rintro ⟨-, rfl⟩
    exact ofChars_chars id

theorem exists_ofChars (h : IsToken cs) : ∃ id, ofChars cs = .ok id ∧ id.chars = cs := by
  obtain ⟨hn, hall⟩ := isToken_iff.1 h
  exact ⟨⟨cs, hn, List.all_eq_true.1 hall⟩, ofChars_eq_ok_iff.2 ⟨h, rfl⟩, rfl⟩

/-- A text reads as a session id just when its characters make one, and then it is its text. -/
theorem parse_eq_ok_iff : parse s = .ok id ↔ IsToken s.toList ∧ id.text = s := by
  have htext : id.chars = s.toList ↔ id.text = s := by
    rw [text, ← String.toList_inj, String.toList_ofList]
  rw [parse, ofChars_eq_ok_iff, htext]

/-! ## Its bytes -/

theorem bytes_eq (id : SessionId) : id.bytes = id.chars.map ascii :=
  Utf8.encode_of_ascii fun c hc => Nat.lt_trans (id.isToken.graphic c hc).2.1 (by decide)

/-- A session id takes as many bytes as it has characters. -/
theorem length_eq (id : SessionId) : id.length = id.chars.length := by
  rw [length, bytes_eq, List.length_map]

theorem length_pos (id : SessionId) : 0 < id.length := by
  rw [length_eq]
  exact List.length_pos_iff.2 id.nonempty

/-- Bytes that look like the text of a session id are its bytes. -/
theorem eq_bytes_of_lossy {b : Bytes} (h : String.ofList (Utf8.lossy b) = id.text) :
    b = id.bytes := by
  have hchars : Utf8.lossy b = id.chars := by
    rw [text, String.ofList_inj] at h
    exact h
  rw [bytes_eq, ← hchars]
  refine Utf8.eq_of_lossy_ascii fun c hc => ?_
  rw [hchars] at hc
  exact Nat.lt_trans (id.isToken.graphic c hc).2.1 (by decide)

end SessionId

end WorkerLink
