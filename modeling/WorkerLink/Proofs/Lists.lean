/-!
# Lists with one entry replaced or added
-/

namespace WorkerLink

variable {α β : Type} {l : List α} {i : Nat} {a : α}

/-- What stands at an index behind which an entry was added. -/
theorem getElem?_concat_cases {b : α} (h : (l ++ [a])[i]? = some b) :
    l[i]? = some b ∨ i = l.length ∧ b = a := by
  rcases Nat.lt_trichotomy i l.length with hlt | rfl | hgt
  · rw [List.getElem?_append_left hlt] at h
    exact .inl h
  · rw [List.getElem?_concat_length] at h
    exact .inr ⟨rfl, (Option.some.inj h).symm⟩
  · rw [List.getElem?_eq_none (by simp; omega)] at h
    cases h

/-- What stands at an index when an entry was replaced. -/
theorem getElem?_set_cases {j : Nat} {b c : α} (h : (l.set i b)[j]? = some c) :
    i = j ∧ c = b ∨ i ≠ j ∧ l[j]? = some c := by
  rw [List.getElem?_set] at h
  split at h
  · rename_i he
    split at h
    · exact .inl ⟨he, (Option.some.inj h).symm⟩
    · cases h
  · rename_i hne
    exact .inr ⟨hne, h⟩

theorem countP_set_add (p : α → Bool) (h : l[i]? = some a) (b : α) :
    (l.set i b).countP p + (p a).toNat = l.countP p + (p b).toNat := by
  obtain ⟨hi, rfl⟩ := List.getElem?_eq_some_iff.1 h
  have pos : p l[i] = true → 0 < l.countP p := fun hp =>
    List.countP_pos_iff.2 ⟨_, List.getElem_mem hi, hp⟩
  rw [List.countP_set hi]
  cases hp : p l[i] with
  | false => cases p b <;> rfl
  | true =>
    have hpos := pos hp
    cases p b <;>
      simp only [Bool.toNat_true, Bool.toNat_false, if_true, Bool.false_eq_true, if_false] <;> omega

theorem countP_pos (p : α → Bool) (h : l[i]? = some a) (ha : p a = true) : 0 < l.countP p :=
  List.countP_pos_iff.2 ⟨a, List.mem_of_getElem? h, ha⟩

theorem countP_singleton_toNat (p : α → Bool) (a : α) : [a].countP p = (p a).toNat := by
  rw [List.countP_singleton]
  cases p a <;> rfl

/-- Where in a filtered list the image of an entry stands, whatever it is replaced by. -/
theorem filterMap_set_split (f : α → Option β) (h : l[i]? = some a) :
    ∃ before after, l.filterMap f = before ++ (f a).toList ++ after ∧
      ∀ b, (l.set i b).filterMap f = before ++ (f b).toList ++ after := by
  obtain ⟨hi, rfl⟩ := List.getElem?_eq_some_iff.1 h
  have mid (b : α) (after : List α) : (b :: after).filterMap f =
      (f b).toList ++ after.filterMap f := by
    cases hb : f b <;> simp [hb]
  refine ⟨(l.take i).filterMap f, (l.drop (i + 1)).filterMap f, ?_, fun b => ?_⟩
  · conv => lhs; rw [← List.take_append_drop i l, List.drop_eq_getElem_cons hi]
    rw [List.filterMap_append, mid, List.append_assoc]
  · rw [List.set_eq_take_append_cons_drop, if_pos hi, List.filterMap_append, mid,
      List.append_assoc]

/-! ## One entry taken out -/

/-- Where an entry stands after the one at index `i` was taken out. -/
def indexWithout (i j : Nat) : Nat := if i < j then j - 1 else j

/-- The index that an entry has once another one is put in at `i`. -/
def indexBeyond (i j : Nat) : Nat := if j < i then j else j + 1

theorem indexBeyond_ne (i j : Nat) : indexBeyond i j ≠ i := by
  unfold indexBeyond
  split <;> omega

theorem indexWithout_indexBeyond (i j : Nat) : indexWithout i (indexBeyond i j) = j := by
  unfold indexWithout indexBeyond
  split <;> split <;> omega

theorem getElem?_eraseIdx_indexWithout {j : Nat} (h : j ≠ i) :
    (l.eraseIdx i)[indexWithout i j]? = l[j]? := by
  rw [List.getElem?_eraseIdx, indexWithout]
  split
  · rw [if_neg (by omega), Nat.sub_add_cancel (by omega)]
  · rw [if_pos (by omega)]

theorem eraseIdx_set_indexWithout {j : Nat} (h : j ≠ i) (b : α) :
    (l.set j b).eraseIdx i = (l.eraseIdx i).set (indexWithout i j) b := by
  rw [indexWithout]
  split
  · exact List.eraseIdx_set_lt (by omega)
  · exact List.eraseIdx_set_gt (by omega)

theorem getD_modify (l : List α) (i k : Nat) (f : α → α) (d : α) :
    (l.modify i f).getD k d = if i = k ∧ k < l.length then f (l.getD k d) else l.getD k d := by
  simp only [List.getD_eq_getElem?_getD, List.getElem?_modify]
  by_cases hk : k < l.length
  · by_cases hi : i = k <;> simp [hk, hi]
  · simp [hk]

/-- Adding the default does not show. -/
theorem getD_append_default (l : List α) (k : Nat) (d : α) : (l ++ [d]).getD k d = l.getD k d := by
  rcases Nat.lt_or_ge k l.length with h | h
  · simp [List.getElem?_append_left h]
  · have single : [d][k - l.length]?.getD d = d := by
      cases k - l.length <;> rfl
    simp [List.getElem?_append_right h, List.getElem?_eq_none h, single]

/-- A front of elements of a kind, if the next element is of another kind. -/
theorem takeWhile_append_of_head {p : α → Bool} {xs ys : List α}
    (hx : ∀ x ∈ xs, p x = true) (hy : ∀ y ∈ ys.head?, p y = false) :
    (xs ++ ys).takeWhile p = xs ∧ (xs ++ ys).dropWhile p = ys := by
  induction xs with
  | nil => cases ys <;> simp_all
  | cons x xs ih => simp_all

/-- What stands behind the elements of a kind is in the first list or at the front of the second. -/
theorem head?_dropWhile_append {p : α → Bool} {q : α → Prop} {xs ys : List α}
    (hx : ∀ x ∈ xs, q x) (hy : ∀ y ∈ ys.head?, p y = false ∧ q y) :
    ∀ z ∈ ((xs ++ ys).dropWhile p).head?, q z := by
  induction xs with
  | nil =>
    cases ys with
    | nil => nofun
    | cons y ys =>
      obtain ⟨hp, hq⟩ := hy y rfl
      simp [hp, hq]
  | cons x xs ih =>
    rw [List.forall_mem_cons] at hx
    rw [List.cons_append, List.dropWhile_cons]
    split
    · exact ih hx.2
    · rintro z hz
      cases hz
      exact hx.1

end WorkerLink
