import WorkerLink.Address.Ipv6
import WorkerLink.Proofs.Address.Ipv4

/-!
# Version 6 addresses read back

A row of groups is taken as it was written, as long as what follows neither goes on with its last
group nor adds another one (`readGroups_rowChars`). What `::` stands for is the run of zero groups
that was left out (`longestZeros_split`), so all three forms of an address read back
(`Ipv6.read_chars`).
-/

namespace WorkerLink

open Nat (toDigits)

namespace Address

variable {rest cs : List Char} {g : UInt16} {limit : Nat}

/-! ## Single groups -/

/-- Whether what stands at the front of a text neither goes on with a group nor makes it the first
octet of a version 4 address. -/
def EndsGroup (rest : List Char) : Prop :=
  ∀ c ∈ rest.head?, (hexValue? c).isSome = false ∧ c ≠ '.'

theorem endsGroup_colon (cs : List Char) : EndsGroup (':' :: cs) := by
  intro c hc
  cases hc
  decide

theorem EndsGroup.endsNumber (h : EndsGroup rest) : EndsNumber rest := by
  intro c hc
  cases hd : c.isDigit with
  | false => rfl
  | true =>
    have hs := isSome_hexValue?_of_isDigit hd
    rw [(h c hc).1] at hs
    cases hs

theorem EndsGroup.span_toDigits (hr : EndsGroup rest) (n : Nat) :
    ((toDigits 16 n ++ rest).takeWhile fun c => (hexValue? c).isSome) = toDigits 16 n ∧
      ((toDigits 16 n ++ rest).dropWhile fun c => (hexValue? c).isSome) = rest :=
  takeWhile_append_of_head (fun _ => isSome_hexValue?_of_mem_toDigits) fun c hc => (hr c hc).1

theorem readGroup_toDigits (g : UInt16) (hr : EndsGroup rest) :
    readGroup (toDigits 16 g.toNat ++ rest) = some (g, rest) := by
  have hg := g.toNat_lt
  have hlen : (toDigits 16 g.toNat).length ≤ 4 :=
    (Nat.length_toDigits_le_iff (by omega) (by omega)).2 (by omega)
  obtain ⟨ht, hd⟩ := hr.span_toDigits g.toNat
  simp only [readGroup, ht, hd, foldl_toDigits, UInt16.ofNat_toNat]
  rw [if_neg]
  rintro (he | hlt)
  · exact Nat.toDigits_ne_nil he
  · omega

/-- A group is not taken for the first octet of a version 4 address. -/
theorem ipv4_read_toDigits (g : UInt16) (hr : EndsGroup rest) :
    Ipv4.read (toDigits 16 g.toNat ++ rest) = none := by
  refine Ipv4.read_eq_none (head?_dropWhile_append (fun c hc => ?_) fun c hc => ?_)
  · rintro rfl
    exact absurd (isSome_hexValue?_of_mem_toDigits hc) (by decide)
  · exact ⟨hr.endsNumber c hc, (hr c hc).2⟩

/-! ## Rows of groups -/

/-- Whether what stands at the front of a text does not go on with an address. -/
structure EndsAddress (rest : List Char) : Prop where
  group : EndsGroup rest
  colon : ∀ c ∈ rest.head?, c ≠ ':'

theorem endsAddress_cons {c : Char} (hx : (hexValue? c).isSome = false) (hp : c ≠ '.')
    (hc : c ≠ ':') (cs : List Char) : EndsAddress (c :: cs) := by
  constructor
  · intro x h
    cases h
    exact ⟨hx, hp⟩
  · intro x h
    cases h
    exact hc

/-- Whether a row of groups ends where a text begins. -/
def EndsRow (rest : List Char) : Prop :=
  ∀ first, (readColon first rest >>= Ipv4.read) = none ∧ (readColon first rest >>= readGroup) = none

theorem endsRow_gap (cs : List Char) : EndsRow (':' :: ':' :: cs) := by
  rintro (_ | _) <;> exact ⟨rfl, rfl⟩

theorem EndsAddress.endsRow (h : EndsAddress rest) : EndsRow rest := by
  have hg : readGroup rest = none := by
    cases rest with
    | nil => rfl
    | cons c cs =>
      have hx := (h.group c rfl).1
      simp [readGroup, hx]
  have h4 : Ipv4.read rest = none := by
    refine Ipv4.read_eq_none (@head?_dropWhile_append _ _ _ [] rest nofun fun c hc => ?_)
    exact ⟨h.group.endsNumber c hc, (h.group c hc).2⟩
  rintro (_ | _)
  · rw [readColon, if_neg Bool.false_ne_true, readChar_eq_none h.colon]
    exact ⟨rfl, rfl⟩
  · exact ⟨h4, hg⟩

theorem readGroups_of_endsRow (h : EndsRow rest) (limit : Nat) (first : Bool) :
    readGroups limit first rest = ⟨[], false, rest⟩ := by
  cases limit with
  | zero => rfl
  | succ limit =>
    obtain ⟨h4, hg⟩ := h first
    rw [readGroups, h4, ite_self, hg]

theorem readGroups_group {first : Bool}
    (hc : readColon first cs = some (toDigits 16 g.toNat ++ rest)) (hr : EndsGroup rest) :
    readGroups (limit + 1) first cs =
      { readGroups limit false rest with groups := g :: (readGroups limit false rest).groups } := by
  have h4 : (readColon first cs >>= Ipv4.read) = none := by
    rw [hc]
    exact ipv4_read_toDigits g hr
  have hg : (readColon first cs >>= readGroup) = some (g, rest) := by
    rw [hc]
    exact readGroup_toDigits g hr
  rw [readGroups, h4, ite_self, hg]

/-- Groups with a colon before each of them. -/
def tailChars (gs : List UInt16) : List Char := gs.flatMap fun g => ':' :: toDigits 16 g.toNat

theorem rowChars_cons (g : UInt16) (gs : List UInt16) :
    Ipv6.rowChars (g :: gs) = toDigits 16 g.toNat ++ tailChars gs := by
  induction gs generalizing g with
  | nil => exact (List.append_nil _).symm
  | cons h gs ih =>
    have hrow : Ipv6.rowChars (g :: h :: gs) =
        toDigits 16 g.toNat ++ ':' :: Ipv6.rowChars (h :: gs) := rfl
    rw [hrow, ih, tailChars, tailChars, List.flatMap_cons, List.cons_append]

theorem EndsGroup.tailChars_append (h : EndsGroup rest) (gs : List UInt16) :
    EndsGroup (tailChars gs ++ rest) := by
  cases gs with
  | nil => exact h
  | cons g gs => exact endsGroup_colon _

theorem readGroups_tailChars {gs : List UInt16} (hl : gs.length ≤ limit) (hg : EndsGroup rest)
    (hr : gs.length = limit ∨ EndsRow rest) :
    readGroups limit false (tailChars gs ++ rest) = ⟨gs, false, rest⟩ := by
  induction gs generalizing limit with
  | nil =>
    rcases hr with rfl | hr
    · rfl
    · exact readGroups_of_endsRow hr limit false
  | cons g gs ih =>
    cases limit with
    | zero => cases hl
    | succ limit =>
      simp only [List.length_cons, Nat.add_right_cancel_iff, Nat.add_le_add_iff_right] at hl hr
      have hcolon : readColon false (tailChars (g :: gs) ++ rest) =
          some (toDigits 16 g.toNat ++ (tailChars gs ++ rest)) := by
        simp [readColon, tailChars, readChar]
      rw [readGroups_group hcolon (hg.tailChars_append gs), ih hl hr]

/-- A row of groups is taken as it was written, if it ends there or no more groups are due. -/
theorem readGroups_rowChars {gs : List UInt16} (hl : gs.length ≤ limit) (hg : EndsGroup rest)
    (hr : gs.length = limit ∨ EndsRow rest) :
    readGroups limit true (Ipv6.rowChars gs ++ rest) = ⟨gs, false, rest⟩ := by
  cases gs with
  | nil =>
    rcases hr with rfl | hr
    · rfl
    · exact readGroups_of_endsRow hr limit true
  | cons g gs =>
    cases limit with
    | zero => cases hl
    | succ limit =>
      simp only [List.length_cons, Nat.add_right_cancel_iff, Nat.add_le_add_iff_right] at hl hr
      rw [rowChars_cons, List.append_assoc, readGroups_group rfl (hg.tailChars_append gs),
        readGroups_tailChars hl hg hr]

end Address

namespace Ipv6

open Address

variable {rest : List Char} {gs : List UInt16}

/-! ## The run that is left out -/

/-- No more groups are left out than there are zero groups. -/
theorem longestZeros_le (gs : List UInt16) :
    (longestZeros gs).2 ≤ zerosAt gs (longestZeros gs).1 := by
  refine List.foldlRecOn (motive := fun best : Nat × Nat => best.2 ≤ zerosAt gs best.1)
    (List.range 8) _ (Nat.zero_le _) fun best h i _ => ?_
  split
  · exact Nat.le_refl _
  · exact h

/-- Zero groups stand where the first longest run of them is. -/
theorem longestZeros_split (gs : List UInt16) :
    gs.take (longestZeros gs).1 ++ List.replicate (longestZeros gs).2 0 ++
      gs.drop ((longestZeros gs).1 + (longestZeros gs).2) = gs := by
  have hle := longestZeros_le gs
  generalize longestZeros gs = run at hle ⊢
  obtain ⟨start, len⟩ := run
  have hzeros : (gs.drop start).take len = List.replicate len 0 := by
    obtain ⟨more, hmore⟩ := List.takeWhile_prefix (fun g : UInt16 => g = 0) (l := gs.drop start)
    rw [← hmore, List.take_append_of_le_length hle, List.eq_replicate_iff]
    refine ⟨by rw [List.length_take]; exact Nat.min_eq_left hle, fun g hg => ?_⟩
    have hall := List.all_eq_true.1 List.all_takeWhile g (List.mem_of_mem_take hg)
    exact of_decide_eq_true hall
  rw [← hzeros, ← List.drop_drop, List.append_assoc, List.take_append_drop, List.take_append_drop]

/-! ## Addresses -/

theorem ofGroups?_groups (ip : Ipv6) : ofGroups? ip.groups = some ip := by
  rw [ofGroups?, dif_pos ip.length_eq]

theorem read_row (ip : Ipv6) (hr : EndsGroup rest) :
    read (rowChars ip.groups ++ rest) = some (ip, rest) := by
  have hlen := ip.length_eq
  have hrow := readGroups_rowChars (Nat.le_of_eq hlen) hr (.inl hlen)
  simp only [read, hrow, hlen, if_true, ofGroups?_groups, bind, Option.bind]

/-- Groups on both sides of `::` stand for the address that has zero groups between them. -/
theorem read_gap (ip : Ipv6) {front back : List UInt16} {len : Nat} (hpos : 0 < len)
    (hgs : front ++ List.replicate len 0 ++ back = ip.groups) (hr : EndsAddress rest) :
    read (rowChars front ++ (':' :: ':' :: (rowChars back ++ rest))) = some (ip, rest) := by
  have hlen : front.length + len + back.length = 8 := by
    rw [← ip.length_eq, ← hgs, List.length_append, List.length_append, List.length_replicate]
  have hfront := readGroups_rowChars (show front.length ≤ 8 by omega) (endsGroup_colon _)
    (.inr (endsRow_gap (rowChars back ++ rest)))
  have hback := readGroups_rowChars (show back.length ≤ 7 - front.length by omega) hr.group
    (.inr hr.endsRow)
  have hzeros : 8 - front.length - back.length = len := by omega
  simp only [read, hfront, readChar, if_true, bind, Option.bind, hback, hzeros, hgs,
    ofGroups?_groups]
  rw [if_neg (by omega : front.length ≠ 8), if_neg Bool.false_ne_true]

/-- A version 4 address stands for the last two of the groups that are due. -/
theorem readGroups_ipv4 (v4 : Ipv4) (limit : Nat) (hr : EndsNumber rest) :
    readGroups (limit + 2) false (':' :: (v4.chars ++ rest)) =
      ⟨[UInt16.ofNat (v4.a.toNat * 256 + v4.b.toNat),
        UInt16.ofNat (v4.c.toNat * 256 + v4.d.toNat)], true, rest⟩ := by
  have hcolon : readColon false (':' :: (v4.chars ++ rest)) = some (v4.chars ++ rest) := rfl
  have hread : (readColon false (':' :: (v4.chars ++ rest)) >>= Ipv4.read) = some (v4, rest) := by
    rw [hcolon]
    exact v4.read_chars hr
  rw [readGroups, if_neg (Nat.succ_ne_zero limit), hread]

/-- A group is put together from the octets it is taken apart into. -/
theorem ofNat_octets (g : UInt16) :
    UInt16.ofNat ((UInt8.ofNat (g.toNat / 256)).toNat * 256 + (UInt8.ofNat g.toNat).toNat) = g := by
  have hg := g.toNat_lt
  have hn : g.toNat / 256 % 256 * 256 + g.toNat % 256 = g.toNat := by omega
  simp only [UInt8.toNat_ofNat', hn, UInt16.ofNat_toNat]

theorem read_embedded (ip : Ipv6) {v4 : Ipv4} (h : ip.embedded? = some v4) (hr : EndsNumber rest) :
    read ("::ffff:".toList ++ (v4.chars ++ rest)) = some (ip, rest) := by
  obtain ⟨groups, hlen⟩ := ip
  simp only [embedded?] at h
  split at h
  · rename_i g k
    have hv := Option.some.inj h
    have hg : UInt16.ofNat (v4.a.toNat * 256 + v4.b.toNat) = g := by rw [← hv, ofNat_octets]
    have hk : UInt16.ofNat (v4.c.toNat * 256 + v4.d.toNat) = k := by rw [← hv, ofNat_octets]
    have hfront := readGroups_of_endsRow
      (endsRow_gap ("ffff:".toList ++ (v4.chars ++ rest))) 8 true
    -- The group `ffff` is the first behind the gap, so six more are due where the address stands.
    have hback : readGroups 7 true ("ffff:".toList ++ (v4.chars ++ rest)) =
        ⟨[0xFFFF, g, k], true, rest⟩ := by
      have hmark : readColon true ("ffff:".toList ++ (v4.chars ++ rest)) =
          some (toDigits 16 (0xFFFF : UInt16).toNat ++ (':' :: (v4.chars ++ rest))) := rfl
      rw [readGroups_group hmark (endsGroup_colon _), readGroups_ipv4 v4 4 hr, hg, hk]
    have hchars : "::ffff:".toList ++ (v4.chars ++ rest) =
        ':' :: ':' :: ("ffff:".toList ++ (v4.chars ++ rest)) := rfl
    rw [hchars, read, hfront]
    simp only [readChar, if_true, bind, Option.bind, List.length_nil, Nat.sub_zero, hback]
    rfl
  · cases h

/-- An address reads back. -/
theorem read_chars (ip : Ipv6) (hr : EndsAddress rest) :
    read (ip.chars ++ rest) = some (ip, rest) := by
  rw [chars]
  split
  · rename_i v4 h
    rw [List.append_assoc]
    exact ip.read_embedded h hr.group.endsNumber
  · simp only
    split
    · rename_i h
      simp only [List.append_assoc, List.cons_append]
      exact ip.read_gap (Nat.lt_of_succ_lt h) (longestZeros_split ip.groups) hr
    · exact ip.read_row hr.group

end Ipv6

end WorkerLink
