import WorkerLink.Proofs.Channel.Facts
import WorkerLink.Proofs.Channel.Mirroring
import WorkerLink.Proofs.Channel.TurnedAway

/-!
# Clients that come too late

Two runs that differ only in clients behind the first one show the same of the worker
(`view_eq_of_essentials`): either stays beside the run that only the first client takes part in, and
this run is the same for both (`essentials`). The other clients are turned away, each of them once.
-/

namespace WorkerLink.Channel

variable {ch X Y : Channel} {a : Action} {as : List Action}

/-- What a run comes to with the first client alone. -/
def essentials (ch : Channel) : List Action → List Action
  | [] => []
  | a :: as => (if ch.isAside a then [] else [a.plain]) ++ (ch.step a).essentials as

/-- What is seen of a channel by its owner, by those who wait for its worker, and by the worker. -/
structure View where
  observed : Observed
  worker : Option LinkId
  accepted : Option (Except ChannelError LinkId)
  complete : Option (Except ChannelError Authentication)

def view (ch : Channel) : View := ⟨ch.observed, ch.slot, ch.accepted?, ch.complete?⟩

/-! ## Every run -/

theorem Quits.step (h : ch.Quits) (hx : ch.Excludes) (a : Action) : (ch.step a).Quits := by
  rcases ch.step_cases a with hs | m
  · rwa [hs]
  · exact h.keeps hx m

/-- A run stays beside the run of the first client alone. -/
structure Follows (ch X : Channel) : Prop where
  mirrors : Mirrors ch X
  quits : ch.Quits
  first : ch.Tracks
  other : X.Tracks

namespace Follows

theorem of_create {m : Machine} {faults : Faults} {config : Config} {fresh : SessionId}
    {port : UInt16} {shape : Json.Shape}
    (h : create m faults config fresh port shape = .ok ch) : Follows ch ch := by
  have ht := Tracks.of_create h
  obtain ⟨descriptor, codec, rfl⟩ := create_eq h
  exact ⟨.initial rfl rfl rfl rfl, nofun, ht, ht⟩

theorem aside (h : Follows ch X) (hd : X.canOpen = true) (ha : X.isAside a = true) :
    Follows ch (X.step a) where
  mirrors := h.mirrors.aside h.first.closes.inv.accepts h.other.closes.inv.accepts h.quits hd ha
  quits := h.quits
  first := h.first
  other := h.other.run [a]

theorem together (h : Follows ch X) (hd : X.canOpen = true) (ha : X.isAside a = false) :
    Follows (ch.step a.plain) (X.step a) where
  mirrors := h.mirrors.together h.first.closes.inv.accepts h.other.closes.inv.accepts hd ha
  quits := h.quits.step h.first.closes.excludes _
  first := h.first.run [a.plain]
  other := h.other.run [a]

theorem run (h : Follows ch X) (as : List Action) (hd : X.Unbounded as) :
    Follows (ch.run (X.essentials as)) (X.run as) := by
  induction as generalizing ch X with
  | nil => exact h
  | cons a as ih =>
    rw [essentials]
    cases ha : X.isAside a with
    | true => exact ih (h.aside hd.1 ha) hd.2
    | false => exact ih (h.together hd.1 ha) hd.2

/-- What has to do with the first client does not depend on the others. -/
theorem isAside_eq (h : Follows ch X) (a : Action) : X.isAside a = ch.isAside a := by
  cases a with
  | task t => cases t <;> simp [isAside, h.mirrors.verifier_eq]
  | join =>
    have hp := h.mirrors.present
    rw [← List.isEmpty_iff, ← List.isEmpty_iff, ← Bool.eq_iff_iff] at hp
    simp [isAside, hp]
  | _ => rfl

theorem essentials_eq (h : Follows ch X) (h' : Follows ch Y) (as : List Action)
    (hd : X.Unbounded as) (hd' : Y.Unbounded as) : X.essentials as = Y.essentials as := by
  induction as generalizing ch X Y with
  | nil => rfl
  | cons a as ih =>
    have ha : X.isAside a = Y.isAside a := (h.isAside_eq a).trans (h'.isAside_eq a).symm
    rw [essentials, essentials, ha]
    cases hy : Y.isAside a with
    | true => rw [ih (h.aside hd.1 (ha.trans hy)) (h'.aside hd'.1 hy) hd.2 hd'.2]
    | false => rw [ih (h.together hd.1 (ha.trans hy)) (h'.together hd'.1 hy) hd.2 hd'.2]

/-- The outcome of accepting is the same. -/
theorem accepted_eq (h : Follows ch X) : X.accepted? = ch.accepted? := by
  have hacc : X.accepted = ch.accepted := by rw [h.mirrors.eq]; rfl
  by_cases hv : ch.verifier = .absent
  · rw [accepted?, accepted?, hacc, (h.mirrors.accepting hv).1]
  · -- once the worker is being verified, whom the channel accepted has been published
    obtain ⟨hfree, -, hu⟩ := h.first.closes.inv.accepts.claim.of_started hv
    have hanswer := h.first.answers
    unfold Answers at hanswer
    rw [hu] at hanswer
    obtain ⟨l, -, ho⟩ := hanswer.of_verified hfree
    rw [accepted?, accepted?, hacc, ho]

theorem view_eq (h : Follows ch X) : X.view = ch.view := by
  have haccepted := h.accepted_eq
  have hmay : X.mayVerify = ch.mayVerify := by
    rw [mayVerify, mayVerify, h.mirrors.verifier_eq]
    split
    · rename_i hv
      rw [(h.mirrors.accepting hv).1]
    · rfl
    · rfl
  have hwritten := h.mirrors.written
  obtain ⟨r, rfl⟩ := h.mirrors.exists_beside
  simp only [view, observed, complete?, haccepted, hmay, hwritten]
  rfl

end Follows

/-! ## Two runs -/

/-- Two runs of a channel that differ only in clients behind the first one, and in how far these
have been turned away, show the same of the worker, as long as descriptors can be opened. The worker
is the first client in both. No other client receives anything. A warning is given for each of them
that is turned away, and for none of them twice. Once all is settled with a worker in the slot, each
of them is shut down, and unless the channel was closed all of them were turned away, in the order
in which they came. -/
theorem view_eq_of_essentials {m : Machine} {faults : Faults} {config : Config}
    {fresh : SessionId} {port : UInt16} {shape : Json.Shape} {start : Channel}
    (hstart : create m faults config fresh port shape = .ok start) {as bs : List Action}
    (has : start.Unbounded as) (hbs : start.Unbounded bs)
    (he : start.essentials as = start.essentials bs) :
    let ch := start.run bs
    (start.run as).view = ch.view ∧
    (∀ l, ch.slot = some l → l = 0) ∧
    (∀ l, ch.slot ≠ some l → (ch.link l).outbound.written = []) ∧
    ch.warnings = (start.turnedAway bs).length ∧ (start.turnedAway bs).Nodup ∧
    (ch.isSettled = true → ∀ k, ch.slot = some k →
      (∀ l < ch.links.length, l ≠ k → (ch.link l).IsShut) ∧
      (ch.closed = false → k :: start.turnedAway bs = List.range ch.links.length)) := by
  intro ch
  have hi := Inv.of_create hstart
  have hx := (Follows.of_create hstart).run as has
  have hy := (Follows.of_create hstart).run bs hbs
  rw [he] at hx
  have hslot : ch.slot = (start.run (start.essentials bs)).slot := by
    rw [show ch = _ from hy.mirrors.eq]
    rfl
  have hwarned : ch.warnings = (start.turnedAway bs).length := by
    have hw := start.warnings_run bs
    have hz : start.warnings = 0 := by
      obtain ⟨descriptor, codec, rfl⟩ := create_eq hstart
      rfl
    rw [hw, hz, Nat.zero_add]
  refine ⟨hx.view_eq.trans hy.view_eq.symm, fun l hl => ?_, fun l hl => ?_, hwarned, ?_,
    fun hset k hk => ⟨fun l hl hne => ?_, fun hc => ?_⟩⟩
  · exact hy.mirrors.eq_zero hy.first.closes.inv.accepts (hslot ▸ hl)
  · exact (hi.run bs).unwritten l (.inl hl)
  · have hnodup := ((Once.initial hi.accepts).run hi bs).nodup
    exact (List.nodup_append.1 hnodup).1
  · exact ((Sheds.of_create hstart).run hi bs).of_isSettled (hi.run bs).accepts hset hk hl hne
  · exact ((Turns.of_create hstart).run hi bs hbs hc).of_isSettled (hi.run bs).accepts hset hk

/-! ## Adding clients to a run -/

theorem essentials_append (ch : Channel) (as bs : List Action) :
    ch.essentials (as ++ bs) = ch.essentials as ++ (ch.run as).essentials bs := by
  induction as generalizing ch with
  | nil => rfl
  | cons a as ih =>
    rw [List.cons_append, essentials, essentials, ih, List.append_assoc]
    rfl

theorem unbounded_append {as bs : List Action} :
    ch.Unbounded (as ++ bs) ↔ ch.Unbounded as ∧ (ch.run as).Unbounded bs := by
  induction as generalizing ch with
  | nil => exact (and_iff_right trivial).symm
  | cons a as ih =>
    rw [List.cons_append, Unbounded, Unbounded, ih, and_assoc]
    rfl

/-- Wherever clients behind the first one are added to a run, it comes to the same without them. -/
theorem essentials_insert {m : Machine} {faults : Faults} {config : Config} {fresh : SessionId}
    {port : UInt16} {shape : Json.Shape} {start : Channel}
    (hstart : create m faults config fresh port shape = .ok start) {as late bs : List Action}
    (hd : start.Unbounded (as ++ bs)) (hd' : start.Unbounded (as ++ late ++ bs))
    (hl : (start.run as).essentials late = []) :
    start.essentials (as ++ late ++ bs) = start.essentials (as ++ bs) := by
  obtain ⟨has, hbs⟩ := unbounded_append.1 hd
  obtain ⟨hlate, hbs'⟩ := unbounded_append.1 hd'
  have h := (Follows.of_create hstart).run as has
  have h' := (Follows.of_create hstart).run (as ++ late) hlate
  rw [essentials_append, hl, List.append_nil] at h'
  rw [essentials_append, essentials_append, essentials_append, hl, List.append_nil,
    h'.essentials_eq h bs hbs' hbs]

/-- A run that goes on as `exampleRun`. Before the worker is accepted two more clients come; one of
them sends something, and the other one leaves. -/
def exampleVisit : List Action :=
  exampleRun.take 18 ++ [.join, .send 1 [0], .join, .leave 2] ++ exampleRun.drop 18

theorem view_eq_of_exampleVisit :
    (exampleStart.run exampleRun).view = (exampleStart.run exampleVisit).view ∧
      (exampleStart.run exampleVisit).slot = some 0 ∧
      exampleStart.turnedAway exampleVisit = [1, 2] ∧
      (exampleStart.run exampleVisit).warnings = 2 := by
  have hrun : exampleRun.take 18 ++ exampleRun.drop 18 = exampleRun :=
    List.take_append_drop 18 exampleRun
  have hd : exampleStart.Unbounded exampleRun := by decide +kernel
  have hd' : exampleStart.Unbounded exampleVisit := by decide +kernel
  have hlate : (exampleStart.run (exampleRun.take 18)).essentials
      [.join, .send 1 [0], .join, .leave 2] = [] := List.isEmpty_iff.1 (by decide +kernel)
  have he := essentials_insert create_exampleStart (hrun.symm ▸ hd) hd' hlate
  rw [hrun] at he
  obtain ⟨hview, -, -, hwarned, -, hsettled⟩ :=
    view_eq_of_essentials create_exampleStart hd hd' he.symm
  have hslot : (exampleStart.run exampleVisit).slot = some 0 := by decide +kernel
  obtain ⟨-, hturned⟩ := hsettled (by decide +kernel) 0 hslot
  have hlinks : (exampleStart.run exampleVisit).links.length = 3 := by decide +kernel
  have hall := hturned (by decide +kernel)
  rw [hlinks] at hall
  have htail : exampleStart.turnedAway exampleVisit = [1, 2] := (List.cons.inj hall).2
  exact ⟨hview, hslot, htail, hwarned.trans (congrArg List.length htail)⟩

end WorkerLink.Channel
