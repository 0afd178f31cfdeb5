import Mathlib.Data.List.TakeWhile
import WorkerLink.Address.Socket
import WorkerLink.Proofs.Text.Digits

/-!
# What an address is made of

A reader of addresses takes characters from the front of a text, and whatever it takes are digits,
in either notation, and the marks between and around them (`Takes`). So a text that holds a socket
address and nothing else is made of these characters, and no question mark stands in it.
-/

namespace WorkerLink

namespace Address

variable {cs cs' cs'' rest : List Char} {c : Char}

/-- Whether a character can stand in an address. -/
def isAddressChar (c : Char) : Bool := (hexValue? c).isSome || [':', '.', '[', ']', '%'].contains c

/-- A text is read up to `rest`, over nothing but characters of addresses. -/
def Takes (cs rest : List Char) : Prop :=
  ∃ used, cs = used ++ rest ∧ ∀ c ∈ used, isAddressChar c = true

theorem Takes.refl (cs : List Char) : Takes cs cs := ⟨[], rfl, nofun⟩

theorem Takes.trans (h : Takes cs cs') (h' : Takes cs' cs'') : Takes cs cs'' := by
  obtain ⟨used, rfl, hused⟩ := h
  obtain ⟨used', rfl, hused'⟩ := h'
  refine ⟨used ++ used', (List.append_assoc ..).symm, fun c hc => ?_⟩
  exact (List.mem_append.1 hc).elim (hused c) (hused' c)

/-- A text read to its end is made of characters of addresses. -/
theorem Takes.all (h : Takes cs []) : ∀ c ∈ cs, isAddressChar c = true := by
  obtain ⟨used, rfl, hused⟩ := h
  rwa [List.append_nil]

theorem takes_dropWhile {p : Char → Bool} (hp : ∀ c, p c = true → isAddressChar c = true)
    (cs : List Char) : Takes cs (cs.dropWhile p) :=
  ⟨cs.takeWhile p, List.takeWhile_append_dropWhile.symm,
    fun c hc => hp c (List.mem_takeWhile_imp hc)⟩

/-! ## Each reader -/

theorem takes_readChar (hc : isAddressChar c = true) (h : readChar c cs = some rest) :
    Takes cs rest := by
  cases cs with
  | nil => cases h
  | cons x cs =>
    rw [readChar] at h
    split at h
    · next hx =>
      obtain rfl := Option.some.inj h
      exact ⟨[x], rfl, fun y hy => by rw [List.mem_singleton.1 hy, hx, hc]⟩
    · cases h

theorem isAddressChar_of_isDigit (h : c.isDigit = true) : isAddressChar c = true := by
  rw [isAddressChar, isSome_hexValue?_of_isDigit h, Bool.true_or]

theorem takes_readDecimal {max n : Nat} (h : readDecimal max cs = some (n, rest)) :
    Takes cs rest := by
  simp only [readDecimal] at h
  split at h
  · cases h
  · cases h
    exact takes_dropWhile (fun _ => isAddressChar_of_isDigit) cs

theorem takes_readOctet {b : UInt8} (h : readOctet cs = some (b, rest)) : Takes cs rest := by
  simp only [readOctet] at h
  split at h
  · cases h
  · obtain ⟨⟨n, rest'⟩, hn, he⟩ := Option.map_eq_some_iff.1 h
    cases he
    exact takes_readDecimal hn

theorem takes_readGroup {g : UInt16} (h : readGroup cs = some (g, rest)) : Takes cs rest := by
  simp only [readGroup] at h
  split at h
  · cases h
  · cases h
    exact takes_dropWhile (fun c hc => by rw [isAddressChar, hc, Bool.true_or]) cs

theorem takes_readColon {first : Bool} (h : readColon first cs = some rest) : Takes cs rest := by
  cases first with
  | true => exact Option.some.inj h ▸ Takes.refl cs
  | false => exact takes_readChar (by decide) h

end Address

open Address

variable {cs rest : List Char}

theorem Ipv4.takes_read {ip : Ipv4} (h : read cs = some (ip, rest)) : Takes cs rest := by
  simp only [read, Option.bind_eq_bind, Option.bind_eq_some_iff] at h
  obtain ⟨⟨a, cs₁⟩, ha, cs₂, hp, ⟨b, cs₃⟩, hb, cs₄, hq, ⟨c, cs₅⟩, hc, cs₆, hr, ⟨d, cs₇⟩, hd, he⟩ :=
    h
  cases he
  have dot {cs rest : List Char} (h : readChar '.' cs = some rest) : Takes cs rest :=
    takes_readChar (by decide) h
  have first := (takes_readOctet ha).trans (dot hp)
  have second := (takes_readOctet hb).trans (dot hq)
  have third := (takes_readOctet hc).trans (dot hr)
  exact first.trans (second.trans (third.trans (takes_readOctet hd)))

/-- A row of groups ends behind the last group that was read, and a colon without one stays. -/
theorem Address.takes_readGroups (limit : Nat) (first : Bool) (cs : List Char) :
    Takes cs (readGroups limit first cs).rest := by
  induction limit generalizing first cs with
  | zero => exact Takes.refl cs
  | succ limit ih =>
    rw [readGroups]
    split
    · next ip rest h =>
      split at h
      · cases h
      · obtain ⟨cs', hcolon, hip⟩ := Option.bind_eq_some_iff.1 h
        exact (takes_readColon hcolon).trans (Ipv4.takes_read hip)
    · split
      · next g rest h =>
        obtain ⟨cs', hcolon, hg⟩ := Option.bind_eq_some_iff.1 h
        exact (takes_readColon hcolon).trans ((takes_readGroup hg).trans (ih false rest))
      · exact Takes.refl cs

theorem Ipv6.takes_read {ip : Ipv6} (h : read cs = some (ip, rest)) : Takes cs rest := by
  have front := takes_readGroups 8 true cs
  simp only [read] at h
  split at h
  · obtain ⟨ip', -, he⟩ := Option.bind_eq_some_iff.1 h
    cases he
    exact front
  · split at h
    · cases h
    · simp only [Option.bind_eq_bind, Option.bind_eq_some_iff] at h
      obtain ⟨cs₁, h₁, cs₂, h₂, ip', -, he⟩ := h
      cases he
      have colons := (takes_readChar (by decide) h₁).trans (takes_readChar (by decide) h₂)
      exact front.trans (colons.trans (takes_readGroups ..))

namespace SocketAddress

variable {a : SocketAddress}

theorem takes_readPort {port : UInt16} (h : readPort cs = some (port, rest)) : Takes cs rest := by
  simp only [readPort, Option.bind_eq_bind, Option.bind_eq_some_iff] at h
  obtain ⟨cs', hcolon, ⟨n, rest'⟩, hn, he⟩ := h
  cases he
  exact (takes_readChar (by decide) hcolon).trans (takes_readDecimal hn)

theorem takes_readScope (cs : List Char) : Takes cs (readScope cs).2 := by
  rw [readScope]
  split
  · next n rest h =>
    obtain ⟨cs', hpercent, hn⟩ := Option.bind_eq_some_iff.1 h
    exact (takes_readChar (by decide) hpercent).trans (takes_readDecimal hn)
  · exact Takes.refl cs

theorem takes_readV4 (h : readV4 cs = some (a, rest)) : Takes cs rest := by
  simp only [readV4, Option.bind_eq_bind, Option.bind_eq_some_iff] at h
  obtain ⟨⟨ip, cs'⟩, hip, ⟨port, rest'⟩, hport, he⟩ := h
  cases he
  exact (Ipv4.takes_read hip).trans (takes_readPort hport)

theorem takes_readV6 (h : readV6 cs = some (a, rest)) : Takes cs rest := by
  simp only [readV6, Option.bind_eq_bind, Option.bind_eq_some_iff] at h
  obtain ⟨cs₁, hopen, ⟨ip, cs₂⟩, hip, cs₃, hclose, ⟨port, rest'⟩, hport, he⟩ := h
  cases he
  have host := (takes_readChar (by decide) hopen).trans (Ipv6.takes_read hip)
  have scope := (takes_readScope cs₂).trans (takes_readChar (by decide) hclose)
  exact host.trans (scope.trans (takes_readPort hport))

/-- A text that holds a socket address is made of characters of addresses. -/
theorem isAddressChar_of_parseChars? (h : parseChars? cs = some a) :
    ∀ c ∈ cs, isAddressChar c = true := by
  rw [parseChars?] at h
  split at h
  · next a' hread =>
    obtain hread | ⟨-, hread⟩ := Option.or_eq_some_iff.1 hread
    · exact (takes_readV4 hread).all
    · exact (takes_readV6 hread).all
  · cases h

/-- No text of a socket address holds a question mark. -/
theorem query_notMem_of_parseChars? (h : parseChars? cs = some a) : '?' ∉ cs := by
  intro hq
  have := isAddressChar_of_parseChars? h '?' hq
  revert this
  decide

end SocketAddress

end WorkerLink
