import WorkerLink.Proofs.Channel.Shutdown

/-!
# Clients that are turned away

The first client that is accepted is the worker. As long as descriptors can be opened and the
channel is not closed, the others are turned away one after the other, in the order in which they
came (`Turns`). In any run, nobody is turned away twice (`Once`), and whoever is neither the worker
nor still to be accepted has been shut down (`Sheds`).
-/

namespace WorkerLink

/-- What is said of a client that is turned away. -/
def turnedAwayWarning : LogRecord := .warn "Another TCP client attempts to connect"

/-- Whether accepting has not come to an end. -/
def Acceptor.isAlive : Acceptor → Bool
  | .failing _ | .reporting _ | .stopped => false
  | _ => true

namespace Channel

variable {ch ch' : Channel} {a : Action} {k l : LinkId} {turned : List LinkId}

/-- The number of clients of which was said that they are turned away. -/
def warnings (ch : Channel) : Nat := ch.log.count turnedAwayWarning

/-- The client that an action turns away. -/
def turnsAway? (ch : Channel) : Action → Option LinkId
  | .task .acceptor => if ch.slot.isSome then ch.acceptor.taken? else none
  | _ => none

/-- The clients that are turned away in a run, in order. -/
def turnedAway (ch : Channel) : List Action → List LinkId
  | [] => []
  | a :: as => (ch.turnsAway? a).toList ++ (ch.step a).turnedAway as

/-- Whether another descriptor can be opened whenever something happens in a run. -/
def Unbounded (ch : Channel) : List Action → Prop
  | [] => True
  | a :: as => ch.canOpen = true ∧ (ch.step a).Unbounded as

instance decidableUnbounded : (ch : Channel) → (as : List Action) → Decidable (ch.Unbounded as)
  | _, [] => isTrue trivial
  | ch, a :: as =>
    have := decidableUnbounded (ch.step a) as
    inferInstanceAs (Decidable (_ ∧ _))

/-! ## Warnings -/

theorem count_append_other {r : LogRecord} (log : List LogRecord) (h : r ≠ turnedAwayWarning) :
    (log ++ [r]).count turnedAwayWarning = log.count turnedAwayWarning := by
  rw [List.count_append, List.count_singleton, beq_eq_false_iff_ne.2 h]
  rfl

theorem WiringMove.warnings_eq {w w' : Wiring} (m : WiringMove ch w ch' w') :
    ch'.warnings = ch.warnings := by
  cases m with
  | unverified | incomplete | unconnected => exact count_append_other _ (by decide)
  | _ => rfl

/-- A warning is given for each client that is turned away, and for no other reason. -/
theorem Move.warnings_eq (m : Move ch a ch') :
    ch'.warnings = ch.warnings + (ch.turnsAway? a).isSome.toNat := by
  cases m with
  | acceptor m =>
    have untouched (h : ch.slot = none ∨ ch.acceptor.taken? = none) :
        ch.turnsAway? (.task .acceptor) = none := by
      rcases h with h | h <;> simp [turnsAway?, h]
    cases m with
    | turnAway ha hs =>
      simp [turnsAway?, ha, hs, Acceptor.taken?, warnings, turnedAwayWarning]
    | refuse ha | giveUp ha =>
      rw [untouched (.inr (by rw [ha]; rfl))]
      exact count_append_other _ (by decide)
    | claim ha hs =>
      rw [untouched (.inl hs)]
      rfl
    | abort ha | wake ha | wait ha | take ha | accept ha | skip ha | announce ha | verify ha
    | verifyBlind ha | fail ha | report ha =>
      rw [untouched (.inr (by rw [ha]; rfl))]
      rfl
  | verifier m =>
    cases m with
    | blind | surplus | broke => exact count_append_other _ (by decide)
    | @publish o => cases ho : o.isVerified with
      | true =>
        simp only [warnings, if_true]
        rfl
      | false =>
        simp only [warnings, Bool.false_eq_true, if_false]
        exact count_append_other _ (by decide)
    | wire _ m | wired _ m => exact m.warnings_eq
    | _ => rfl
  | consumer m =>
    cases m with
    | failed => exact count_append_other _ (by decide)
    | _ => rfl
  | producer m =>
    cases m with
    | refused | unwritable => exact count_append_other _ (by decide)
    | _ => rfl
  | relay m =>
    cases m with
    | read => rfl
    | stop _ _ hm =>
      rcases hm with rfl | rfl
      · simp [warnings, turnsAway?]
      · exact count_append_other _ (by decide)
  | call _ m =>
    cases m with
    | surplus => exact count_append_other _ (by decide)
    | giveBack =>
      dsimp only [warnings]
      split
      · exact count_append_other _ (by decide)
      · rfl
    | wire m | wired m => exact m.warnings_eq
    | _ => rfl
  | client ha => cases a <;> first | rfl | cases ha
  | _ => rfl

theorem turnsAway_eq_some :
    ch.turnsAway? a = some l ↔
      a = .task .acceptor ∧ ch.slot.isSome = true ∧ ch.acceptor = .taken l := by
  constructor
  · intro h
    unfold turnsAway? at h
    split at h
    · split at h
      · rename_i hs
        refine ⟨rfl, hs, ?_⟩
        cases ha : ch.acceptor with
        | taken k =>
          rw [ha] at h
          exact congrArg _ (Option.some.inj h)
        | _ =>
          rw [ha] at h
          cases h
      · cases h
    · cases h
  · rintro ⟨rfl, hs, ha⟩
    rw [turnsAway?, if_pos hs, ha]
    rfl

/-- An action that turns a client away is possible. -/
theorem turnsAway_cases (ch : Channel) (a : Action) :
    ch.turnsAway? a = none ∧ ch.step a = ch ∨ Move ch a (ch.step a) := by
  rcases ch.step_cases a with hs | m
  · cases h : ch.turnsAway? a with
    | none => exact .inl ⟨rfl, hs⟩
    | some l =>
      obtain ⟨rfl, hslot, ha⟩ := turnsAway_eq_some.1 h
      rw [step, taskStep, acceptorStep] at hs
      simp only [ha, hslot, if_true, Option.getD_some] at hs
      rw [← hs] at ha
      cases ha
  · exact .inr m

/-- What is known of a channel and of those whom it has turned away, behind one more step. -/
theorem step_turned {P : Channel → List LinkId → Prop} (h : P ch turned)
    (keeps : Move ch a (ch.step a) → P (ch.step a) (turned ++ (ch.turnsAway? a).toList)) :
    P (ch.step a) (turned ++ (ch.turnsAway? a).toList) := by
  rcases ch.turnsAway_cases a with ⟨hn, hs⟩ | m
  · rwa [hn, hs, Option.toList_none, List.append_nil]
  · exact keeps m

/-- What every move keeps of a channel and of those whom it has turned away, every run keeps. -/
theorem run_turned {P : Channel → List LinkId → Prop}
    (keeps : ∀ {ch ch' : Channel} {a : Action} {turned : List LinkId},
      P ch turned → Move ch a ch' → P ch' (turned ++ (ch.turnsAway? a).toList))
    (h : P ch turned) (as : List Action) : P (ch.run as) (turned ++ ch.turnedAway as) := by
  induction as generalizing ch turned with
  | nil => rwa [turnedAway, List.append_nil]
  | cons a as ih =>
    rw [turnedAway, ← List.append_assoc]
    exact ih (step_turned h (keeps h))

/-- In every run a warning is given for each client that is turned away, and for no other reason. -/
theorem warnings_run (ch : Channel) (as : List Action) :
    (ch.run as).warnings = ch.warnings + (ch.turnedAway as).length := by
  have keeps {x x' : Channel} {a : Action} {turned : List LinkId}
      (h : x.warnings = ch.warnings + turned.length) (m : Move x a x') :
      x'.warnings = ch.warnings + (turned ++ (x.turnsAway? a).toList).length := by
    rw [m.warnings_eq, h, List.length_append, Nat.add_assoc]
    cases x.turnsAway? a <;> rfl
  have start : ch.warnings = ch.warnings + ([] : List LinkId).length := rfl
  exact run_turned (P := fun x turned => x.warnings = ch.warnings + turned.length) keeps start as

/-! ## The order in which clients are turned away -/

/-- Where the clients of a channel are that is not closed: the first one in the worker slot, then
those that were turned away, the one that was accepted last, and those that nobody accepted yet. -/
structure Turns (ch : Channel) (turned : List LinkId) : Prop where
  alive : ch.acceptor.isAlive = true
  order : ch.slot.toList ++ turned ++ ch.acceptor.taken?.toList ++ ch.backlog =
    List.range ch.links.length
  early : ch.slot = none → turned = []

/-- A channel that is not closed after a run was not closed before. -/
theorem closed_of_run (as : List Action) (h : (ch.run as).closed = false) : ch.closed = false := by
  induction as generalizing ch with
  | nil => exact h
  | cons a as ih => exact closed_of_step (ih h)

namespace Turns

theorem of_eq (h : ch.Turns turned) (ha : ch'.acceptor = ch.acceptor) (hs : ch'.slot = ch.slot)
    (hb : ch'.backlog = ch.backlog) (hl : ch'.links.length = ch.links.length) :
    ch'.Turns turned where
  alive := ha ▸ h.alive
  order := by rw [ha, hs, hb, hl, h.order]
  early := hs ▸ h.early

theorem acceptor (h : ch.Turns turned) (m : AcceptorMove ch ch') (ho : ch.Open)
    (hd : ch.canOpen = true) :
    ch'.Turns (turned ++ (ch.turnsAway? (.task .acceptor)).toList) := by
  have halive := h.alive
  have horder := h.order
  have hslot : (ch.turnsAway? (.task .acceptor)).toList =
      if ch.slot.isSome then ch.acceptor.taken?.toList else [] := by
    rw [turnsAway?]
    split <;> rfl
  cases m with
  | abort _ hab =>
    rw [ho.acceptor] at hab
    cases hab
  | refuse _ hn | giveUp _ hn =>
    rw [hd] at hn
    cases hn
  | fail ha | report ha =>
    rw [ha] at halive
    cases halive
  | turnAway ha hs =>
    simp only [hslot, hs, ha, Acceptor.taken?, Option.isSome_some, if_true] at horder ⊢
    exact ⟨rfl, by simpa [Acceptor.taken?, hs] using horder, by simp⟩
  | claim ha hs =>
    rw [ha, hs, h.early hs] at horder
    simp only [hslot, hs, Option.isSome_none, Bool.false_eq_true, if_false, h.early hs]
    exact ⟨rfl, horder, fun hn => by cases hn⟩
  | take ha hb =>
    rw [ha, hb] at horder
    refine ⟨rfl, ?_, fun hs => ?_⟩
    · simpa [hslot, ha, Acceptor.taken?, openDescriptor] using horder
    · simp [hslot, ha, Acceptor.taken?, h.early hs]
  | wake ha | wait ha | accept ha | skip ha | announce ha | verify ha | verifyBlind ha =>
    rw [ha] at horder
    simp only [hslot, ha, Acceptor.taken?, Option.toList_none, ite_self, List.append_nil]
    exact ⟨rfl, by simpa [Acceptor.taken?, openDescriptor, advance] using horder, h.early⟩

/-- Whatever else happens in a channel that is not closed turns nobody away. -/
theorem bystander (h : ch.Turns turned) (m : Move ch a ch') (ha : a ≠ .task .acceptor)
    (hc : ch.Accepts) (ho : ch.Open) : ch'.Turns turned := by
  cases m with
  | acceptor => exact (ha rfl).elim
  | verifier m =>
    obtain ⟨ha, hs, -, hb, hl⟩ := m.accepting
    exact h.of_eq ha hs hb hl
  | consumer m =>
    cases m with
    | halt => exact h.of_eq rfl rfl rfl rfl
    | _ => exact h.of_eq rfl rfl rfl (length_onLink ..)
  | producer m =>
    cases m with
    | sent => exact h.of_eq rfl rfl rfl (length_onLink ..)
    | _ => exact h.of_eq rfl rfl rfl rfl
  | relay m => cases m <;> exact h.of_eq rfl rfl rfl rfl
  | reclaimer hd =>
    rw [ho.dropped] at hd
    cases hd
  | call hi m =>
    cases m with
    | spawnAcceptor =>
      have horder := h.order
      rw [acceptor_absent hi rfl hc.hands] at horder
      exact ⟨rfl, horder, h.early⟩
    | shutWorker => exact h.of_eq rfl rfl rfl (length_onLink ..)
    | releaseListener => cases ho.calls _ (List.mem_of_getElem? hi)
    | wire m | wired m =>
      obtain ⟨ha, -, -, hs, -, hb, hl, -⟩ := m.accepting
      exact h.of_eq ha hs hb (congrArg List.length hl)
    | _ => exact h.of_eq rfl rfl rfl rfl
  | join =>
    refine ⟨h.alive, ?_, h.early⟩
    rw [List.length_append, List.length_singleton, List.range_succ, ← h.order]
    simp
  | client => exact h.of_eq rfl rfl rfl (length_onLink ..)
  | _ => exact h.of_eq rfl rfl rfl rfl

theorem keeps (h : ch.Turns turned) (m : Move ch a ch') (hc : ch.Accepts) (ho : ch.Open)
    (hd : ch.canOpen = true) : ch'.Turns (turned ++ (ch.turnsAway? a).toList) := by
  by_cases ha : a = .task .acceptor
  · subst ha
    cases m with
    | acceptor m => exact h.acceptor m ho hd
    | client hcl => cases hcl
  · have hn : ch.turnsAway? a = none := by
      unfold turnsAway?
      split
      · exact (ha rfl).elim
      · rfl
    rw [hn, Option.toList_none, List.append_nil]
    exact h.bystander m ha hc ho

/-- As long as the channel is not closed, clients are turned away in the order in which they
came. -/
theorem run (h : ch.Turns turned) (hi : ch.Inv) (as : List Action) (hd : ch.Unbounded as)
    (hc : (ch.run as).closed = false) : (ch.run as).Turns (turned ++ ch.turnedAway as) := by
  induction as generalizing ch turned with
  | nil => rwa [turnedAway, List.append_nil]
  | cons a as ih =>
    rw [turnedAway, ← List.append_assoc]
    have ho := hi.open_of (closed_of_run (a :: as) hc)
    exact ih (step_turned h fun m => h.keeps m hi.accepts ho hd.1) (hi.run [a]) hd.2 hc

theorem of_create {m : Machine} {faults : Faults} {config : Config} {fresh : SessionId}
    {port : UInt16} {shape : Json.Shape}
    (h : create m faults config fresh port shape = .ok ch) : ch.Turns [] := by
  obtain ⟨descriptor, codec, rfl⟩ := create_eq h
  exact ⟨rfl, rfl, fun _ => rfl⟩

/-- Once all is settled, each client but the worker was turned away, and just once. -/
theorem of_isSettled (h : ch.Turns turned) (hc : ch.Accepts) (hset : ch.isSettled = true)
    (hs : ch.slot = some l) : l :: turned = List.range ch.links.length := by
  have horder := h.order
  have halive := h.alive
  rcases acceptor_of_isSettled hset with ha | ha | ⟨ha, -, hb⟩
  · have hclaim := hc.claim
    rw [ha] at hclaim
    rw [hclaim.absent.1] at hs
    cases hs
  · rw [ha] at halive
    cases halive
  · simpa [ha, hs, hb, Acceptor.taken?] using horder

end Turns

/-! ## Nobody is turned away twice -/

/-- Whoever was turned away was so once, and is not accepted any more. -/
structure Once (ch : Channel) (turned : List LinkId) : Prop where
  nodup : (turned ++ ch.arrivals).Nodup
  known : ∀ l ∈ turned, l < ch.links.length

namespace Once

theorem turnAway (h : ch.Once turned) (hc : ch.Accepts) (m : AcceptorMove ch ch')
    (ha : ch.acceptor = .taken l) (hs : ch.slot.isSome = true) : ch'.Once (turned ++ [l]) := by
  have hl : l < ch.links.length := hc.known l (by simp [arrivals, ha, Acceptor.taken?])
  have hnodup := h.nodup
  cases m with
  | @turnAway k x ha' =>
    obtain rfl : l = k := Acceptor.taken.inj (ha.symm.trans ha')
    constructor
    · rw [arrivals, ha, Acceptor.taken?] at hnodup
      rw [List.append_assoc]
      refine (List.Perm.append_left turned ?_).nodup_iff.1 hnodup
      simp [arrivals, Acceptor.taken?]
    · intro k hk
      refine Nat.lt_of_lt_of_eq ?_ (length_onLink ch l Link.release).symm
      rcases List.mem_append.1 hk with hk | hk
      · exact h.known k hk
      · rwa [List.mem_singleton.1 hk]
  | claim _ hn =>
    rw [hn] at hs
    cases hs
  | abort ha' | wake ha' | wait ha' | take ha' | refuse ha' | giveUp ha' | accept ha' | skip ha'
  | announce ha' | verify ha' | verifyBlind ha' | fail ha' | report ha' =>
    rw [ha] at ha'
    cases ha'

theorem keeps (h : ch.Once turned) (m : Move ch a ch') (hc : ch.Accepts) :
    ch'.Once (turned ++ (ch.turnsAway? a).toList) := by
  cases ht : ch.turnsAway? a with
  | some l =>
    obtain ⟨rfl, hs, ha⟩ := turnsAway_eq_some.1 ht
    cases m with
    | acceptor m => exact h.turnAway hc m ha hs
    | client hcl => cases hcl
  | none =>
    rw [Option.toList_none, List.append_nil]
    rcases (m.accepting hc).2 with ⟨hs, hlen⟩ | ⟨harr, hlen, -⟩
    · exact ⟨h.nodup.sublist (hs.append_left turned), fun l hl => hlen ▸ h.known l hl⟩
    · have hlt : ∀ l ∈ turned ++ ch.arrivals, l < ch.links.length := fun l hl =>
        (List.mem_append.1 hl).elim (h.known l) (hc.known l)
      constructor
      · rw [harr, ← List.append_assoc, List.nodup_append]
        refine ⟨h.nodup, by simp, fun l hl k hk => ?_⟩
        rw [List.mem_singleton.1 hk]
        exact Nat.ne_of_lt (hlt l hl)
      · intro l hl
        rw [hlen]
        exact Nat.lt_succ_of_lt (h.known l hl)

theorem run (h : ch.Once turned) (hi : ch.Inv) (as : List Action) :
    (ch.run as).Once (turned ++ ch.turnedAway as) :=
  (run_turned (P := fun ch turned => ch.Once turned ∧ ch.Inv)
    (fun h m => ⟨h.1.keeps m h.2.accepts, h.2.keeps m⟩) ⟨h, hi⟩ as).1

theorem initial (hc : ch.Accepts) : ch.Once [] := ⟨hc.nodup, fun _ hl => by cases hl⟩

end Once

/-! ## Clients that are shut down -/

/-- Whoever is neither the worker nor still to be accepted is shut down, and nobody is left to be
accepted where nobody listens. -/
structure Sheds (ch : Channel) : Prop where
  shut : ∀ l < ch.links.length, l ∈ ch.arrivals ∨ (ch.link l).IsShut
  deaf : ch.listener = .nobody → ch.backlog = []
  stopped : ch.acceptor = .stopped → ch.listener = .nobody

theorem isShut_released (hc : ch.Accepts) (hl : l ∈ ch.backlog)
    (h : ch'.links = released ch.links ch.backlog) : (ch'.link l).IsShut := by
  have hn := hc.nodup
  simp only [arrivals, List.nodup_append] at hn
  have hlt : l < ch.links.length := hc.known l (by simp [arrivals, hl])
  rw [link, h, getD_released_of_mem hn.2.1 hl hlt]
  exact ⟨rfl, Stream.ended_finish _⟩

/-- A client that is no longer to be accepted is shut down, unless it is the worker. -/
theorem AcceptorMove.leaves (m : AcceptorMove ch ch') (hc : ch.Accepts) (hl : l ∈ ch.arrivals) :
    l ∈ ch'.arrivals ∨ (ch'.link l).IsShut := by
  have of_released (ht : ch.acceptor.taken? = none) (hs : ch'.slot = ch.slot)
      (h : ch'.links = released ch.links ch.backlog) : l ∈ ch'.arrivals ∨ (ch'.link l).IsShut := by
    simp only [Channel.arrivals, ht, Option.toList_none, List.append_nil, List.mem_append] at hl
    rcases hl with hl | hl
    · exact .inl (by simp [Channel.arrivals, hs, Option.mem_toList.1 hl])
    · exact .inr (isShut_released hc hl h)
  cases m with
  | abort ha | giveUp ha | report ha => exact of_released (by rw [ha]; rfl) rfl rfl
  | turnAway ha hs =>
    rename_i k x
    by_cases hk : l = k
    · subst hk
      right
      change ((ch.onLink l Link.release).link l).IsShut
      rw [link_onLink_self (hc.known l hl)]
      exact ⟨rfl, Stream.ended_finish _⟩
    · left
      simpa [Channel.arrivals, ha, hs, Acceptor.taken?, hk] using hl
  | take ha hb =>
    left
    simpa [Channel.arrivals, ha, hb, Acceptor.taken?, openDescriptor] using hl
  | claim ha hs => exact .inl (by simpa [Channel.arrivals, ha, hs, Acceptor.taken?] using hl)
  | accept ha | announce ha | verify ha | verifyBlind ha | skip ha | wake ha | wait ha | refuse ha
  | fail ha =>
    left
    simpa [Channel.arrivals, ha, Acceptor.taken?, openDescriptor, advance, error] using hl

theorem Move.leaves (m : Move ch a ch') (hc : ch.Accepts) (hl : l ∈ ch.arrivals) :
    l ∈ ch'.arrivals ∨ (ch'.link l).IsShut := by
  cases m with
  | acceptor m => exact m.leaves hc hl
  | verifier m =>
    obtain ⟨ha, hs, -, hb, -⟩ := m.accepting
    rw [Channel.arrivals, ha, hs, hb]
    exact .inl hl
  | consumer m => cases m <;> exact .inl hl
  | producer m => cases m <;> exact .inl hl
  | relay m => cases m <;> exact .inl hl
  | call hi m =>
    cases m with
    | spawnAcceptor =>
      rw [Channel.arrivals, acceptor_absent hi rfl hc.hands] at hl
      exact .inl hl
    | releaseListener =>
      rw [Channel.arrivals, List.mem_append] at hl
      rcases hl with hl | hl
      · exact .inl (by simpa [Channel.arrivals] using hl)
      · exact .inr (isShut_released hc hl rfl)
    | wire m | wired m =>
      obtain ⟨ha, -, -, hs, -, hb, -⟩ := m.accepting
      left
      simpa only [Channel.arrivals, ha, hs, hb] using hl
    | _ => exact .inl hl
  | join =>
    left
    simp only [Channel.arrivals, List.mem_append] at hl ⊢
    tauto
  | _ => exact .inl hl

/-- Whoever stops to listen leaves nobody behind, and nobody accepts without listening. -/
theorem Move.listening (m : Move ch a ch') (hd : ch.listener = .nobody → ch.backlog = [])
    (hs : ch.acceptor = .stopped → ch.listener = .nobody) :
    (ch'.listener = .nobody → ch'.backlog = []) ∧
      (ch'.acceptor = .stopped → ch'.listener = .nobody) := by
  cases m with
  | acceptor m =>
    cases m with
    | abort | giveUp | report => exact ⟨fun _ => rfl, fun _ => rfl⟩
    | take _ hb => exact ⟨fun hn => (nomatch hb.symm.trans (hd hn)), nofun⟩
    | _ => exact ⟨hd, nofun⟩
  | verifier m =>
    cases m with
    | wire _ m | wired _ m =>
      obtain ⟨ha, hl, -, -, -, hb, -⟩ := m.accepting
      exact ⟨by simpa only [hl, hb] using hd, by simpa only [ha, hl] using hs⟩
    | _ => exact ⟨hd, hs⟩
  | consumer m => cases m <;> exact ⟨hd, hs⟩
  | producer m => cases m <;> exact ⟨hd, hs⟩
  | relay m => cases m <;> exact ⟨hd, hs⟩
  | call _ m =>
    cases m with
    | takeListener hl => exact ⟨nofun, fun ha => (nomatch hl.symm.trans (hs ha))⟩
    | spawnAcceptor => exact ⟨hd, nofun⟩
    | releaseListener => exact ⟨fun _ => rfl, fun _ => rfl⟩
    | wire m | wired m =>
      obtain ⟨ha, hl, -, -, -, hb, -⟩ := m.accepting
      exact ⟨by simpa only [hl, hb] using hd, by simpa only [ha, hl] using hs⟩
    | _ => exact ⟨hd, hs⟩
  | join hl => exact ⟨fun hn => (hl hn).elim, hs⟩
  | _ => exact ⟨hd, hs⟩

namespace Sheds

theorem keeps (h : ch.Sheds) (m : Move ch a ch') (hc : ch.Accepts) : ch'.Sheds where
  shut l hl := by
    rcases (m.accepting hc).2 with ⟨-, hlen⟩ | ⟨harr, hlen, -⟩
    · rcases h.shut l (hlen ▸ hl) with hm | hs
      · exact m.leaves hc hm
      · exact .inr ((m.link hc l).isShut hs)
    · rw [hlen, Nat.lt_succ_iff_lt_or_eq] at hl
      rcases hl with hl | rfl
      · rcases h.shut l hl with hm | hs
        · exact m.leaves hc hm
        · exact .inr ((m.link hc l).isShut hs)
      · exact .inl (by simp [harr])
  deaf := (m.listening h.deaf h.stopped).1
  stopped := (m.listening h.deaf h.stopped).2

theorem run (h : ch.Sheds) (hi : ch.Inv) (as : List Action) : (ch.run as).Sheds :=
  (run_keeps (P := fun ch => ch.Sheds ∧ ch.Inv)
    (fun h m => ⟨h.1.keeps m h.2.accepts, h.2.keeps m⟩) ⟨h, hi⟩ as).1

theorem of_create {m : Machine} {faults : Faults} {config : Config} {fresh : SessionId}
    {port : UInt16} {shape : Json.Shape}
    (h : create m faults config fresh port shape = .ok ch) : ch.Sheds := by
  obtain ⟨descriptor, codec, rfl⟩ := create_eq h
  exact ⟨nofun, nofun, nofun⟩

/-- Once all is settled, each client but the worker is shut down. -/
theorem of_isSettled (h : ch.Sheds) (hc : ch.Accepts) (hset : ch.isSettled = true)
    (hs : ch.slot = some k) (hl : l < ch.links.length) (hk : l ≠ k) : (ch.link l).IsShut := by
  refine (h.shut l hl).resolve_left fun hm => ?_
  have hb : ch.backlog = [] ∧ ch.acceptor.taken? = none := by
    rcases acceptor_of_isSettled hset with ha | ha | ⟨ha, -, hb⟩
    · have hclaim := hc.claim
      rw [ha] at hclaim
      rw [hclaim.absent.1] at hs
      cases hs
    · exact ⟨h.deaf (h.stopped ha), by rw [ha]; rfl⟩
    · exact ⟨hb, by rw [ha]; rfl⟩
  simp only [arrivals, hs, hb.1, hb.2, Option.toList_some, Option.toList_none, List.append_nil,
    List.mem_singleton] at hm
  exact hk hm

end Sheds

end Channel

end WorkerLink
