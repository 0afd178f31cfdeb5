import WorkerLink.Json.Reader
import WorkerLink.Json.Skip

/-!
# Passing over what could be read

Where a string can be read, passing over it ends at the same place (`skipValue_of_readHead`).
Readers of members that go equally far for each member go equally far for the object
(`readMembers_sim`), so one that passes over every value finds the members where one that reads some
of them finds them.
-/

namespace WorkerLink.Json

variable {α β ε : Type} {s s' rest acc bytes : Bytes} {b : UInt8} {t : String}

/-- A computation succeeds when its parts do. -/
theorem bind_eq_ok_iff {x : Except ε α} {f : α → Except ε β} {y : β} :
    x >>= f = .ok y ↔ ∃ a, x = .ok a ∧ f a = .ok y := by
  cases x with
  | error e => exact ⟨nofun, nofun⟩
  | ok a => exact ⟨fun h => ⟨a, rfl, h⟩, fun ⟨_, ha, h⟩ => Except.ok.inj ha ▸ h⟩

/-! ## Strings -/

/-- Whether a byte is a hexadecimal digit. -/
def isHex (b : UInt8) : Bool := (hexValue? (Char.ofNat b.toNat)).isSome

theorem all_isHex_of_hexWord? {n : Nat} (h : hexWord? bytes = some n) : bytes.all isHex = true := by
  rw [hexWord?] at h
  generalize 0 = m at h
  induction bytes generalizing m with
  | nil => rfl
  | cons b bytes ih =>
    rw [List.foldlM_cons] at h
    obtain ⟨m', hm, h⟩ := Option.bind_eq_some_iff.1 h
    obtain ⟨v, hv, -⟩ := Option.map_eq_some_iff.1 hm
    rw [List.all_cons, ih m' h, isHex, hv]
    rfl

theorem all_isHex_of_readDigits {high : Option Nat} {x : Sum Char Nat}
    (h : readDigits high bytes = .ok x) : bytes.all isHex = true := by
  unfold readDigits at h
  split at h
  · cases h
  · next hw => exact all_isHex_of_hexWord? hw
  · next hw => exact all_isHex_of_hexWord? hw

/-- Where a reader that passes over a string stands when another one stands inside it. The two
halves of a surrogate pair are characters of their own to it. -/
def Place.skip : Place → SkipPlace
  | .plain | .pair _ => .plain
  | .escape | .pairEscape _ => .escape
  | .digits _ got => .digits (3 - got.length) (got.all isHex)

/-- Passing over the rest of a string ends where reading it does. -/
theorem skipString_of_stringBytes {p : Place}
    (hp : ∀ high got, p = .digits high got → got.length ≤ 3)
    (h : stringBytes p acc s = .ok (bytes, rest)) : skipString p.skip s = .ok rest := by
  induction s generalizing p acc with
  | nil => cases p <;> cases h
  | cons b s ih =>
    cases p with
    | plain =>
      rw [stringBytes] at h
      rw [Place.skip, skipString]
      split at h
      · next hq =>
        cases h
        rw [if_pos hq]
      · next hq =>
        rw [if_neg hq]
        split at h
        · next hb =>
          rw [if_pos hb]
          exact ih (p := .escape) nofun h
        · next hb =>
          rw [if_neg hb]
          split at h
          · cases h
          · next hc =>
            rw [if_neg hc]
            exact ih (p := .plain) nofun h
    | escape =>
      rw [stringBytes] at h
      rw [Place.skip, skipString]
      split at h
      · next hu =>
        rw [if_pos hu]
        exact ih (p := .digits none []) (fun _ _ he => by cases he; exact Nat.zero_le _) h
      · next hu =>
        rw [if_neg hu]
        cases hx : shortEscape? b with
        | none =>
          rw [hx] at h
          cases h
        | some x =>
          rw [hx] at h
          exact ih (p := .plain) nofun h
    | digits high got =>
      have hlen := hp high got rfl
      rw [stringBytes] at h
      rw [Place.skip]
      split at h
      · next hlt =>
        have hdue : 3 - got.length = (3 - (b :: got).length) + 1 := by
          rw [List.length_cons]
          omega
        have := ih (p := .digits high (b :: got)) (fun _ _ he => by cases he; exact hlt) h
        rw [Place.skip, List.all_cons, Bool.and_comm] at this
        rw [hdue, skipString]
        exact this
      · next hge =>
        have hdue : 3 - got.length = 0 := by omega
        have hwell {x : Sum Char Nat} (hx : readDigits high (b :: got).reverse = .ok x) :
            (got.all isHex && isHex b) = true := by
          have := all_isHex_of_readDigits hx
          rwa [List.all_reverse, List.all_cons, Bool.and_comm] at this
        rw [hdue, skipString]
        split at h
        · next hx => exact (if_pos (hwell hx)).trans (ih (p := .plain) nofun h)
        · next hx => exact (if_pos (hwell hx)).trans (ih (p := .pair _) nofun h)
        · cases h
    | pair high =>
      rw [stringBytes] at h
      rw [Place.skip, skipString]
      split at h
      · next hb =>
        rw [if_neg (by rw [hb]; decide), if_pos hb]
        exact ih (p := .pairEscape high) nofun h
      · cases h
    | pairEscape high =>
      rw [stringBytes] at h
      rw [Place.skip, skipString]
      split at h
      · next hu =>
        rw [if_pos hu]
        exact ih (p := .digits (some high) []) (fun _ _ he => by cases he; exact Nat.zero_le _) h
      · cases h

/-! ## Heads -/

theorem not_str_of_readNumber {negative : Bool} :
    readNumber negative s ≠ .ok (.scalar (.str t), rest) := by
  intro h
  obtain ⟨⟨n, s'⟩, -, h⟩ := bind_eq_ok_iff.1 h
  obtain ⟨v, hv, h⟩ := bind_eq_ok_iff.1 h
  cases h
  simp only [Numeral.value] at hv
  split at hv
  · cases hv
  · split at hv
    · cases hv
    · split at hv <;> cases hv

/-- A head that is a text begins with a quote. -/
theorem readString_of_readHead (h : readHead s = .ok (.scalar (.str t), rest)) :
    ∃ s', skipBlanks s = ascii '"' :: s' ∧ readString s' = .ok (t, rest) := by
  rw [readHead] at h
  split at h
  · cases h
  · next b s' hs =>
    split at h
    · next hb =>
      obtain ⟨⟨t', rest'⟩, hread, h⟩ := bind_eq_ok_iff.1 h
      cases h
      exact ⟨s', by rw [hs, hb], hread⟩
    · have word {v : Json} (hv : ∀ t, v ≠ .str t) {x : Except Fault Bytes}
          (h : (do .ok (.scalar v, ← x) : Except Fault (Head × Bytes)) =
            .ok (.scalar (.str t), rest)) :
          False := by
        obtain ⟨_, -, h⟩ := bind_eq_ok_iff.1 h
        cases h
        exact hv t rfl
      repeat' split at h
      · cases h
      · cases h
      · exact (not_str_of_readNumber h).elim
      · exact (not_str_of_readNumber h).elim
      · exact (word (fun _ => Json.noConfusion) h).elim
      · exact (word (fun _ => Json.noConfusion) h).elim
      · exact (word (fun _ => Json.noConfusion) h).elim
      · cases h

/-- Passing over a text ends where reading it does. -/
theorem skipValue_of_readHead (h : readHead s = .ok (.scalar (.str t), rest)) :
    skipValue s = .ok rest := by
  obtain ⟨s', hs, hread⟩ := readString_of_readHead h
  obtain ⟨⟨bytes, rest'⟩, hbytes, h⟩ := bind_eq_ok_iff.1 hread
  have hskip : skipString .plain s' = .ok rest' :=
    skipString_of_stringBytes (p := .plain) nofun hbytes
  have hrest : rest' = rest := by
    simp only at h
    split at h
    · cases h
      rfl
    · cases h
  subst hrest
  have hhead : skipHead s = .ok (.scalar .null, rest') := by
    rw [skipHead, hs]
    simp only [if_pos, hskip]
    rfl
  rw [skipValue, skipWithin, hhead]
  rfl

/-! ## Folds -/

variable {σ τ : Type} {R : σ → τ → Prop} {st st' : σ} {fuel : Nat} {u : τ}

section Members

variable {f : σ → String → Bytes → Except Fault (σ × Bytes)}
  {g : τ → String → Bytes → Except Fault (τ × Bytes)}

theorem foldMembers_sim
    (hstep : ∀ st u name s st' rest, R st u → f st name s = .ok (st', rest) →
      ∃ u', g u name s = .ok (u', rest) ∧ R st' u')
    (hR : R st u) (h : foldMembers f fuel st s = .ok (st', rest)) :
    ∃ u', foldMembers g fuel u s = .ok (u', rest) ∧ R st' u' := by
  induction fuel generalizing st u s with
  | zero => cases h
  | succ fuel ih =>
    rw [foldMembers] at h ⊢
    obtain ⟨next, hnext, h⟩ := bind_eq_ok_iff.1 h
    rw [hnext]
    cases next with
    | finished s' =>
      cases h
      exact ⟨u, rfl, hR⟩
    | item s' =>
      obtain ⟨⟨name, s₁⟩, hname, h⟩ := bind_eq_ok_iff.1 h
      obtain ⟨⟨st₁, s₂⟩, hf, h⟩ := bind_eq_ok_iff.1 h
      obtain ⟨u₁, hg, hR₁⟩ := hstep _ _ _ _ _ _ hR hf
      obtain ⟨u', hu', hR'⟩ := ih hR₁ h
      refine ⟨u', ?_, hR'⟩
      simp only [bind, Except.bind, hname, hg]
      exact hu'

/-- Two readers of members that go equally far for each member go equally far for all of them. -/
theorem readMembers_sim
    (hstep : ∀ st u name s st' rest, R st u → f st name s = .ok (st', rest) →
      ∃ u', g u name s = .ok (u', rest) ∧ R st' u')
    (hR : R st u) (h : readMembers f fuel st s = .ok (st', rest)) :
    ∃ u', readMembers g fuel u s = .ok (u', rest) ∧ R st' u' := by
  rw [readMembers] at h ⊢
  split at h
  · cases h
  · next b s' hs =>
    split at h
    · next hb =>
      cases h
      rw [if_pos hb]
      exact ⟨u, rfl, hR⟩
    · next hb =>
      rw [if_neg hb]
      obtain ⟨⟨name, s₁⟩, hname, h⟩ := bind_eq_ok_iff.1 h
      obtain ⟨⟨st₁, s₂⟩, hf, h⟩ := bind_eq_ok_iff.1 h
      obtain ⟨u₁, hg, hR₁⟩ := hstep _ _ _ _ _ _ hR hf
      obtain ⟨u', hu', hR'⟩ := foldMembers_sim hstep hR₁ h
      refine ⟨u', ?_, hR'⟩
      simp only [bind, Except.bind, hname, hg]
      exact hu'

end Members

end WorkerLink.Json
