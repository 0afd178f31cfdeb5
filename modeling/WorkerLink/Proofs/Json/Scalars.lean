import WorkerLink.Json.Token
import WorkerLink.Proofs.Json.Text
import WorkerLink.Proofs.Lists
import WorkerLink.Proofs.Text.Digits

/-!
# Words, strings and integers read back
-/

namespace WorkerLink.Json

variable {b x : UInt8} {s acc : Bytes} {c : Char}

theorem skipBlanks_cons (h : isBlank b = false) : skipBlanks (b :: s) = b :: s := by
  rw [skipBlanks, List.dropWhile_cons_of_neg (by rw [h]; nofun)]

/-! ## Strings -/

theorem stringBytes_plain {bs : Bytes}
    (h : ∀ b ∈ bs, b ≠ ascii '"' ∧ b ≠ ascii '\\' ∧ ¬ b < 0x20) :
    stringBytes .plain acc (bs ++ s) = stringBytes .plain (bs.reverse ++ acc) s := by
  induction bs generalizing acc with
  | nil => rfl
  | cons b bs ih =>
    obtain ⟨hq, hb, hc⟩ := h b List.mem_cons_self
    rw [List.cons_append, stringBytes, if_neg hq, if_neg hb, if_neg hc,
      ih fun x hx => h x (List.mem_cons_of_mem _ hx)]
    simp

theorem stringBytes_short (h : shortEscape? b = some x) :
    stringBytes .plain acc (ascii '\\' :: b :: s) = stringBytes .plain (x :: acc) s := by
  have hu : b ≠ ascii 'u' := by
    rintro rfl
    have hn : shortEscape? (ascii 'u') = none := by decide
    rw [hn] at h
    cases h
  rw [stringBytes, if_neg (by decide), if_pos rfl, stringBytes, if_neg hu, h]

/-- A control is written with the four digits of its code. -/
theorem stringBytes_control {n : Nat} (hn : n < 0x20) :
    stringBytes .plain acc ([ascii '\\', ascii 'u', ascii '0', ascii '0',
      ascii (hexDigit (n / 16)), ascii (hexDigit (n % 16))] ++ s) =
      stringBytes .plain ((String.utf8EncodeChar (Char.ofNat n)).reverse ++ acc) s := by
  have all : ∀ k : Fin 0x20, hexWord? [ascii '0', ascii '0', ascii (hexDigit (k.val / 16)),
      ascii (hexDigit (k.val % 16))] = some k.val := by decide
  have hword := all ⟨n, hn⟩
  simp only at hword
  have hdigits : readDigits none [ascii '0', ascii '0', ascii (hexDigit (n / 16)),
      ascii (hexDigit (n % 16))] = .ok (.inl (Char.ofNat n)) := by
    simp only [readDigits, hword]
    rw [if_neg (by omega), if_neg (by omega)]
  simp only [List.cons_append, List.nil_append]
  rw [stringBytes, if_neg (by decide), if_pos rfl, stringBytes, if_pos rfl]
  simp only [stringBytes, List.length_nil, List.length_cons, Nat.reduceAdd, Nat.reduceLT, if_true,
    Nat.lt_irrefl, if_false, List.reverse_cons, List.reverse_nil, List.nil_append, List.cons_append,
    hdigits, Utf8.encode, List.flatMap_cons, List.flatMap_nil, List.append_nil]

/-- Other characters are written as they are. -/
theorem plain_of_mem_encodeChar (hq : c ≠ '"') (hb : c ≠ '\\') (hc : ¬c.toNat < 0x20)
    (hm : b ∈ String.utf8EncodeChar c) : b ≠ ascii '"' ∧ b ≠ ascii '\\' ∧ ¬b < 0x20 := by
  rcases Nat.lt_or_ge c.toNat 0x80 with hlt | hge
  · rw [Utf8.encodeChar_ascii hlt, List.mem_singleton] at hm
    subst hm
    have hne {d : Char} (hd : d.toNat < 0x80) (h : c ≠ d) : ascii c ≠ ascii d := by
      intro he
      rw [← UInt8.toNat_inj, toNat_ascii hlt, toNat_ascii hd] at he
      exact h (Char.toNat_inj.1 he)
    refine ⟨hne (by decide) hq, hne (by decide) hb, ?_⟩
    rw [UInt8.lt_iff_toNat_lt, toNat_ascii hlt]
    exact hc
  · have hbig := UInt8.le_iff_toNat_le.1 (Utf8.le_of_mem_encodeChar hge hm)
    have hne {x : UInt8} (hx : x.toNat < 0x80) : b ≠ x := by
      rintro rfl
      exact Nat.not_le.2 hx hbig
    refine ⟨hne (by decide), hne (by decide), ?_⟩
    rw [UInt8.lt_iff_toNat_lt]
    exact Nat.not_lt.2 (Nat.le_trans (by decide) hbig)

theorem hexDigit_ascii {n : Nat} (hn : n < 16) : (hexDigit n).toNat < 0x80 := by
  have all : ∀ k : Fin 16, (hexDigit k.val).toNat < 0x80 := by decide
  exact all ⟨n, hn⟩

theorem stringBytes_char (c : Char) :
    stringBytes .plain acc (Utf8.encode (stringChar c) ++ s) =
      stringBytes .plain ((String.utf8EncodeChar c).reverse ++ acc) s := by
  have of (n : Nat) (h : c.toNat = n) : c = Char.ofNat n := by
    rw [← h, Char.ofNat_toNat]
  unfold stringChar
  split
  · rename_i h
    subst h
    exact stringBytes_short rfl
  split
  · rename_i h
    subst h
    exact stringBytes_short rfl
  split
  · rename_i h
    rw [of _ h]
    exact stringBytes_short rfl
  split
  · rename_i h
    rw [of _ h]
    exact stringBytes_short rfl
  split
  · rename_i h
    rw [of _ h]
    exact stringBytes_short rfl
  split
  · rename_i h
    rw [of _ h]
    exact stringBytes_short rfl
  split
  · rename_i h
    rw [of _ h]
    exact stringBytes_short rfl
  split
  · rename_i h
    have hc := @stringBytes_control s acc c.toNat h
    rw [Char.ofNat_toNat] at hc
    rw [← hc, encode_ascii (by decide), encode_ascii (by decide), encode_ascii (by decide),
      encode_ascii (by decide), encode_ascii (hexDigit_ascii (by omega)),
      encode_ascii (hexDigit_ascii (by omega))]
    rfl
  · rename_i hq hb _ _ _ _ _ hc
    have henc : Utf8.encode [c] = String.utf8EncodeChar c := by simp [Utf8.encode]
    rw [henc]
    exact stringBytes_plain fun b hm => plain_of_mem_encodeChar hq hb hc hm

theorem stringBytes_chars (cs : List Char) :
    stringBytes .plain acc (Utf8.encode (cs.flatMap stringChar) ++ ascii '"' :: s) =
      .ok (acc.reverse ++ Utf8.encode cs, s) := by
  induction cs generalizing acc with
  | nil =>
    rw [List.flatMap_nil, Utf8.encode_nil, List.nil_append, stringBytes, if_pos rfl,
      List.append_nil]
  | cons c cs ih =>
    rw [List.flatMap_cons, Utf8.encode_append, List.append_assoc, stringBytes_char, ih, encode_cons]
    simp

/-- A string reads back behind its opening quote. -/
theorem readString_stringText (t : String) :
    ∃ inner, stringText t = ascii '"' :: inner ∧ readString (inner ++ s) = .ok (t, s) := by
  refine ⟨Utf8.encode (t.toList.flatMap stringChar) ++ [ascii '"'], ?_, ?_⟩
  · rw [stringText, stringChars, encode_ascii (by decide), Utf8.encode_append,
      encode_ascii (by decide)]
    rfl
  · simp only [readString, List.append_assoc, List.cons_append, List.nil_append, stringBytes_chars,
      List.reverse_nil, bind, Except.bind, Utf8.toString?_encode]

/-! ## Integers -/

/-- What ends a value: nothing, or what stands behind a value in an array or object. -/
def Delimited (s : Bytes) : Prop :=
  ∀ b ∈ s.head?, b = ascii ',' ∨ b = ascii ']' ∨ b = ascii '\x7d'

theorem isDigit_ascii (h : c.isDigit = true) : isDigit (ascii c) = true := by
  obtain ⟨hl, hh⟩ := toNat_of_isDigit h
  have hn := @toNat_ascii c (by omega)
  simp only [isDigit, Bool.and_eq_true, decide_eq_true_eq, UInt8.le_iff_toNat_le, hn]
  exact ⟨hl, hh⟩

/-- The digits of a number as they stand in a text. -/
def digitsText (n : Nat) : Bytes := (Nat.toDigits 10 n).map ascii

theorem encode_toDigits (n : Nat) : Utf8.encode (Nat.toDigits 10 n) = digitsText n :=
  Utf8.encode_of_ascii fun _ hc =>
    Nat.lt_of_le_of_lt (toNat_of_isDigit (isDigit_of_mem_toDigits hc)).2 (by decide)

theorem isDigit_of_mem_digitsText {n : Nat} (h : b ∈ digitsText n) : isDigit b = true := by
  obtain ⟨c, hc, rfl⟩ := List.mem_map.1 h
  exact isDigit_ascii (isDigit_of_mem_toDigits hc)

theorem spanDigits_digitsText (n : Nat) (hs : ∀ b ∈ s.head?, isDigit b = false) :
    spanDigits (digitsText n ++ s) = (digitsText n, s) := by
  obtain ⟨ht, hd⟩ := takeWhile_append_of_head (fun _ => isDigit_of_mem_digitsText) hs
  rw [spanDigits, ht, hd]

theorem le_ofDigitChars (cs : List Char) (n : Nat) : n ≤ Nat.ofDigitChars 10 cs n := by
  induction cs generalizing n with
  | nil => exact Nat.le_refl n
  | cons c cs ih =>
    rw [Nat.ofDigitChars_cons]
    exact Nat.le_trans (by omega) (ih _)

/-- A number that fits the significand is taken as a whole. -/
theorem absorb_digits {cs : List Char} {n : Nat} (h : ∀ c ∈ cs, c.isDigit = true)
    (hn : Nat.ofDigitChars 10 cs n ≤ significandMax) :
    absorb n (cs.map ascii) = (Nat.ofDigitChars 10 cs n, []) := by
  induction cs generalizing n with
  | nil => rfl
  | cons c cs ih =>
    have hc := toNat_of_isDigit (h c List.mem_cons_self)
    have hnext : n * 10 + ((ascii c).toNat - 0x30) = 10 * n + (c.toNat - '0'.toNat) := by
      rw [toNat_ascii (by omega), Nat.mul_comm]
      rfl
    rw [Nat.ofDigitChars_cons] at hn ⊢
    rw [List.map_cons, absorb, hnext, if_pos (Nat.le_trans (le_ofDigitChars cs _) hn)]
    exact ih (fun x hx => h x (List.mem_cons_of_mem _ hx)) hn

theorem absorb_digitsText {n : Nat} (hn : n ≤ significandMax) :
    absorb 0 (digitsText n) = (n, []) := by
  have h := @absorb_digits (Nat.toDigits 10 n) 0 (fun _ => isDigit_of_mem_toDigits)
    (by rwa [Nat.ofDigitChars_ten_toDigits])
  rwa [Nat.ofDigitChars_ten_toDigits] at h

namespace Delimited

theorem nil : Delimited [] := nofun

theorem cons (h : b = ascii ',' ∨ b = ascii ']' ∨ b = ascii '\x7d') : Delimited (b :: s) := by
  intro x hx
  cases hx
  exact h

/-- What ends a value continues no numeral. -/
theorem ne (h : Delimited (b :: s)) (hx : x ≠ ascii ',' ∧ x ≠ ascii ']' ∧ x ≠ ascii '\x7d') :
    b ≠ x := by
  rintro rfl
  obtain ⟨h1, h2, h3⟩ := hx
  rcases h b rfl with he | he | he
  · exact h1 he
  · exact h2 he
  · exact h3 he

theorem head_not_digit (h : Delimited s) : ∀ b ∈ s.head?, isDigit b = false := by
  intro b hb
  rcases h b hb with rfl | rfl | rfl <;> rfl

theorem readFraction_eq (h : Delimited s) : readFraction s = .ok (none, s) := by
  cases s with
  | nil => rfl
  | cons b s => rw [readFraction, if_neg (h.ne (by decide))]

theorem readExponent_eq (h : Delimited s) : readExponent s = .ok (none, s) := by
  cases s with
  | nil => rfl
  | cons b s =>
    have he : b ≠ ascii 'e' := h.ne (by decide)
    have hE : b ≠ ascii 'E' := h.ne (by decide)
    simp only [readExponent, he, hE, or_self, if_false]

end Delimited

theorem ascii_inj {d : Char} (hc : c.toNat < 0x80) (hd : d.toNat < 0x80) (h : ascii c = ascii d) :
    c = d := by
  rw [← UInt8.toNat_inj, toNat_ascii hc, toNat_ascii hd] at h
  exact Char.toNat_inj.1 h

theorem digitsText_cons (n : Nat) : ∃ d ds, digitsText n = d :: ds := by
  have hne : digitsText n ≠ [] := by
    rw [digitsText, ne_eq, List.map_eq_nil_iff]
    exact Nat.toDigits_ne_nil
  exact List.exists_cons_of_ne_nil hne

theorem readWhole_digitsText (n : Nat) (hs : Delimited s) :
    readWhole (digitsText n ++ s) = .ok (digitsText n, s) := by
  have hsome : readDigitsSome (digitsText n ++ s) = .ok (digitsText n, s) := by
    obtain ⟨d, ds, hd⟩ := digitsText_cons n
    rw [readDigitsSome, spanDigits_digitsText n hs.head_not_digit, hd]
  have hzero : ¬((digitsText n).head? = some (ascii '0') ∧ (digitsText n).length ≠ 1) := by
    rw [digitsText, List.head?_map, List.length_map]
    rintro ⟨hh, hl⟩
    obtain ⟨c, hc, he⟩ := Option.map_eq_some_iff.1 hh
    have hdigit := toNat_of_isDigit (isDigit_of_mem_toDigits (List.mem_of_mem_head? hc))
    rw [ascii_inj (by omega) (by decide) he] at hc
    exact zero_alone n ⟨hc, hl⟩
  simp only [readWhole, hsome, bind, Except.bind, if_neg hzero]

/-- An integer reads back behind its sign. -/
theorem readNumeral_digitsText (negative : Bool) (n : Nat) (hs : Delimited s) :
    readNumeral negative (digitsText n ++ s) = .ok (⟨negative, digitsText n, none, none⟩, s) := by
  simp only [readNumeral, readWhole_digitsText n hs, hs.readFraction_eq, hs.readExponent_eq, bind,
    Except.bind]

theorem scaled_digitsText {n : Nat} (hn : n ≤ significandMax) (negative : Bool) :
    Numeral.scaled ⟨negative, digitsText n, none, none⟩ = (n, 0) := by
  simp [Numeral.scaled, absorb_digitsText hn, absorb]

theorem value_digitsText {n : Nat} (hn : n ≤ significandMax) :
    Numeral.value ⟨false, digitsText n, none, none⟩ = .ok (.int n) := by
  simp [Numeral.value, scaled_digitsText hn]

theorem value_digitsText_neg {n : Nat} (hpos : 0 < n) (hn : n ≤ 0x8000000000000000) :
    Numeral.value ⟨true, digitsText n, none, none⟩ = .ok (.int (-n)) := by
  have hmax : n ≤ significandMax := Nat.le_trans hn (by decide)
  have hle : (n : Int) ≤ 0x8000000000000000 := by omega
  have hne : n ≠ 0 := by omega
  simp [Numeral.value, scaled_digitsText hmax, hle, hne]

theorem bytes_int (n : Int) :
    (int n).bytes =
      if n < 0 then ascii '-' :: digitsText n.natAbs else digitsText n.natAbs := by
  rw [bytes, chars, put, List.append_nil, List.reverse_reverse, intText]
  split
  · rw [encode_ascii (by decide), encode_toDigits]
  · exact encode_toDigits _

/-! ## Heads -/

theorem isDigit_ne (h : isDigit b = true) (hx : isDigit x = false) : b ≠ x := by
  rintro rfl
  rw [h] at hx
  cases hx

/-- The first byte of a value is no blank and closes nothing. -/
def Leads (b : UInt8) : Prop :=
  isBlank b = false ∧ b ≠ ascii ']' ∧ b ≠ ascii '\x7d'

theorem leads_of_isDigit (h : isDigit b = true) : Leads b := by
  refine ⟨?_, isDigit_ne h (by decide), isDigit_ne h (by decide)⟩
  have h1 : b ≠ 0x20 := isDigit_ne h (by decide)
  have h2 : b ≠ 0xA := isDigit_ne h (by decide)
  have h3 : b ≠ 0x9 := isDigit_ne h (by decide)
  have h4 : b ≠ 0xD := isDigit_ne h (by decide)
  simp [isBlank, h1, h2, h3, h4]

theorem readHead_str (t : String) : readHead (stringText t ++ s) = .ok (.scalar (.str t), s) := by
  obtain ⟨inner, ht, hr⟩ := @readString_stringText s t
  rw [ht, List.cons_append]
  simp only [readHead, skipBlanks_cons (show isBlank (ascii '"') = false by decide), if_true, hr,
    bind, Except.bind]

theorem readHead_digits (n : Nat) :
    readHead (digitsText n ++ s) = readNumber false (digitsText n ++ s) := by
  obtain ⟨d, ds, hd⟩ := digitsText_cons n
  have hdigit : isDigit d = true := isDigit_of_mem_digitsText (hd ▸ List.mem_cons_self)
  rw [hd, List.cons_append]
  have h1 : d ≠ ascii '"' := isDigit_ne hdigit (by decide)
  have h2 : d ≠ ascii '[' := isDigit_ne hdigit (by decide)
  have h3 : d ≠ ascii '\x7b' := isDigit_ne hdigit (by decide)
  have h4 : d ≠ ascii '-' := isDigit_ne hdigit (by decide)
  simp only [readHead, skipBlanks_cons (leads_of_isDigit hdigit).1, h1, h2, h3, h4, if_false,
    hdigit, if_true]

theorem readHead_int {n : Int} (hl : -0x8000000000000000 ≤ n) (hh : n ≤ 0xFFFFFFFFFFFFFFFF)
    (hs : Delimited s) : readHead ((int n).bytes ++ s) = .ok (.scalar (.int n), s) := by
  rw [bytes_int]
  split
  · rename_i hneg
    have hn : n = -(n.natAbs : Int) := by omega
    have hv := @value_digitsText_neg n.natAbs (by omega) (by omega)
    rw [← hn] at hv
    simp only [List.cons_append, readHead,
      skipBlanks_cons (show isBlank (ascii '-') = false by decide)]
    rw [if_neg (by decide), if_neg (by decide), if_neg (by decide), if_pos trivial]
    simp only [readNumber, readNumeral_digitsText true _ hs, hv, bind, Except.bind]
  · rename_i hneg
    have hn : n = (n.natAbs : Int) := by omega
    have hv := @value_digitsText n.natAbs (by simp only [significandMax]; omega)
    rw [← hn] at hv
    rw [readHead_digits]
    simp only [readNumber, readNumeral_digitsText false _ hs, hv, bind, Except.bind]

theorem readHead_null : readHead (Json.null.bytes ++ s) = .ok (.scalar .null, s) := by rfl

theorem readHead_bool (x : Bool) :
    readHead ((Json.bool x).bytes ++ s) = .ok (.scalar (.bool x), s) := by
  cases x <;> rfl

end WorkerLink.Json
