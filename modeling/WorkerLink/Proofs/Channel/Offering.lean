import WorkerLink.Proofs.Channel.Reception

/-!
# Any results of accepting

A loop that accepts connections is offered any results, in any order with everything else that can
happen in the channel (`Reception.run`). However that goes, whenever it rests the worker slot holds
the first connection that could be taken over before the first error, one outcome was published that
says so or gives the error, and verification was started once for the worker and never without one
(`Received`). Every sequence of results can be offered, and it is taken up to the first error
(`Reception.run_serve`); what the loop takes in a run of the channel are results like these
(`Reception.exists_offers`).
-/

namespace WorkerLink

/-- What happens to a channel while results are offered to the loop that accepts connections. -/
inductive Offer where
  | result (r : AcceptResult)
  | action (a : Action)

/-- A channel with the results that its loop has taken, and what came of them. -/
structure Reception where
  channel : Channel
  results : List AcceptResult := []
  /-- The published outcomes of accepting, in order. -/
  published : List AcceptOutcome := []
  /-- How often verification was started. -/
  verifications : Nat := 0
  /-- How often its outcome was handed on. -/
  handovers : Nat := 0

namespace Reception

open Channel

/-- An action in the channel. The loop that asks for a result waits until one is offered. -/
def act (x : Reception) : Action → Reception
  | .task .acceptor =>
    if x.channel.acceptor = .polling then
      { x with channel := { x.channel with acceptor := .waiting } }
    else { x with
      channel := x.channel.step (.task .acceptor)
      published := x.published ++ x.channel.publishes?.toList
      verifications := x.verifications + x.channel.startsVerification.toNat }
  | .task .verifier => { x with
      channel := x.channel.step (.task .verifier)
      handovers := x.handovers + x.channel.handsOutcomeOn.toNat }
  | a => { x with channel := x.channel.step a }

def step (x : Reception) : Offer → Reception
  | .result r =>
    if x.channel.canReceive r then
      { x with channel := x.channel.receive r, results := x.results ++ [r] }
    else x
  | .action a => x.act a

def run (x : Reception) (os : List Offer) : Reception := os.foldl step x

variable {x : Reception} {ch ch' : Channel} {a : Action} {r : AcceptResult}

theorem act_of_ne (x : Reception) (ha : a ≠ .task .acceptor) (hv : a ≠ .task .verifier) :
    x.act a = { x with channel := x.channel.step a } := by
  unfold act
  split
  · exact (ha rfl).elim
  · exact (hv rfl).elim
  · rfl

/-! ## What every step keeps -/

/-- What is known of a channel whose loop is offered results. -/
structure Receives (x : Reception) : Prop where
  accepts : x.channel.Accepts
  sheds : x.channel.Sheds
  stage : Stage (firstUsable x.results) (firstCause x.results)
    x.channel.acceptor x.channel.slot x.channel.accepted x.verifications
  published : x.published = x.channel.accepted.toList
  handovers : x.handovers = x.channel.verifier.isRecorded.toNat
  /-- What was taken does not wait any more. -/
  gone : ∀ r ∈ x.results, ∀ l, r.link? = some l →
    l < x.channel.links.length ∧ l ∉ x.channel.backlog
  failed : x.channel.announced? = some .failed → x.channel.state.isTerminal = true

namespace Receives

theorem receive (h : x.Receives) (hr : x.channel.canReceive r = true) :
    Receives { x with channel := x.channel.receive r, results := x.results ++ [r] } := by
  obtain ⟨hask, m⟩ := receive_move hr
  obtain ⟨hstage, haccepted⟩ := m.stage hask h.accepts h.stage
  obtain ⟨hold, hnew⟩ := m.backlog h.accepts
  obtain ⟨hverifier, hstate, hlen⟩ := m.frame
  exact {
    accepts := m.accepts hask h.accepts
    sheds := m.sheds hask h.accepts h.sheds
    stage := hstage
    published := haccepted ▸ h.published
    handovers := hverifier ▸ h.handovers
    gone := fun y hy l hl => by
      rw [hlen]
      rcases List.mem_append.1 hy with hy | hy
      · obtain ⟨hlt, hb⟩ := h.gone y hy l hl
        exact ⟨hlt, mt (hold l) hb⟩
      · rw [List.mem_singleton.1 hy] at hl
        exact hnew l hl
    failed := fun hf => hstate ▸ h.failed (m.announced hask ▸ hf) }

/-- Waiting for a result changes nothing. -/
theorem pause (h : x.Receives) (ha : x.channel.acceptor = .polling) :
    Receives { x with channel := { x.channel with acceptor := .waiting } } := by
  have hstage := h.stage
  rw [ha] at hstage
  have harr : arrivals { x.channel with acceptor := .waiting } = x.channel.arrivals := by
    simp [arrivals, ha, Acceptor.taken?]
  have hhands : hands { x.channel with acceptor := .waiting } = x.channel.hands := by
    simp [hands, ha]
  exact {
    accepts :=
      { hands := hhands ▸ h.accepts.hands
        claim := h.accepts.claim.move (by rw [ha]; rfl) rfl rfl
        order := harr ▸ h.accepts.order
        known := fun l hl => h.accepts.known l (harr ▸ hl) }
    sheds :=
      { shut := fun l hl => (h.sheds.shut l hl).imp_left fun hm => harr ▸ hm
        deaf := h.sheds.deaf
        stopped := fun hs => by cases hs }
    stage := hstage.idle_move rfl rfl
    published := h.published
    handovers := h.handovers
    gone := h.gone
    failed := fun hf => h.failed (by rw [announced?, ha]; exact hf) }

theorem go (h : x.Receives) (m : AcceptorMove x.channel ch')
    (hp : x.channel.acceptor ≠ .polling) :
    Receives { x with
      channel := ch'
      published := x.published ++ x.channel.publishes?.toList
      verifications := x.verifications + x.channel.startsVerification.toNat } := by
  obtain ⟨hstage, hpublished⟩ := m.stage hp h.accepts h.stage
  obtain ⟨hold, hlen⟩ := m.backlog
  have hm := Move.acceptor m
  exact {
    accepts := h.accepts.keeps hm
    sheds := h.sheds.keeps hm h.accepts
    stage := hstage
    published := by rw [hpublished, h.published]
    handovers := by rw [hm.recorded h.accepts nofun, h.handovers]
    gone := fun y hy l hl => by
      obtain ⟨hlt, hb⟩ := h.gone y hy l hl
      exact ⟨hlen ▸ hlt, mt (hold l) hb⟩
    failed := fun hf => by
      rcases m.announces hp h.accepts h.stage with ⟨ho, hs⟩ | ⟨-, o, -, ho, hs⟩
      · exact hs ▸ h.failed (ho ▸ hf)
      · rw [hs, Option.some.inj (ho.symm.trans hf)]
        exact isTerminal_advance_failed _ }

/-- What goes on beside the loop may record the outcome of verification. -/
theorem bystand {n : Nat} (h : x.Receives) (m : Move x.channel a ch')
    (ha : a ≠ .task .acceptor) (hn : n = ch'.verifier.isRecorded.toNat) :
    Receives { x with channel := ch', handovers := n } := by
  have hb := m.bystands h.accepts ha
  have hlen : x.channel.links.length ≤ ch'.links.length := by
    rcases (m.accepting h.accepts).2 with ⟨-, hl⟩ | ⟨-, hl, -⟩
    · exact Nat.le_of_eq hl.symm
    · exact hl ▸ Nat.le_succ _
  exact {
    accepts := h.accepts.keeps m
    sheds := h.sheds.keeps m h.accepts
    stage := hb.stage h.stage
    published := by rw [hb.accepted, h.published]
    handovers := hn
    gone := fun y hy l hl => by
      obtain ⟨hlt, hnot⟩ := h.gone y hy l hl
      refine ⟨Nat.lt_of_lt_of_le hlt hlen, fun hm => ?_⟩
      rcases hb.backlog l hm with hm | hm
      · exact hnot hm
      · exact Nat.ne_of_lt hlt hm
    failed := fun hf => m.isTerminal (h.failed (hb.announced ▸ hf)) }

theorem act (h : x.Receives) (a : Action) : (x.act a).Receives := by
  by_cases ha : a = .task .acceptor
  · subst ha
    rw [Reception.act]
    split
    · exact h.pause ‹_›
    · rename_i hp
      rw [Channel.step, Channel.taskStep]
      cases hs : x.channel.acceptorStep with
      | some ch' => exact h.go (acceptorStep_move hs) hp
      | none =>
        obtain ⟨hpub, hver⟩ := idle_of_acceptorStep hs
        rw [hpub, hver, Option.toList_none, List.append_nil]
        exact h
  · by_cases hv : a = .task .verifier
    · subst hv
      rw [Reception.act, Channel.step, Channel.taskStep]
      cases hs : x.channel.verifierStep with
      | some ch' =>
        have m := verifierStep_move hs
        exact h.bystand (.verifier m) ha (by rw [h.handovers]; exact m.recorded.symm)
      | none =>
        rw [idle_of_verifierStep hs]
        exact h
    · rw [act_of_ne x ha hv]
      rcases x.channel.step_cases a with hs | m
      · rw [hs]
        exact h
      · exact h.bystand m ha (by rw [h.handovers, m.recorded h.accepts hv])

theorem step (h : x.Receives) (o : Offer) : (x.step o).Receives := by
  cases o with
  | action a => exact h.act a
  | result r =>
    rw [Reception.step]
    split
    · exact h.receive ‹_›
    · exact h

theorem run (h : x.Receives) (os : List Offer) : (x.run os).Receives := by
  induction os generalizing x with
  | nil => exact h
  | cons o os ih => exact ih (h.step o)

theorem of_create {m : Machine} {faults : Faults} {config : Config} {fresh : SessionId}
    {port : UInt16} {shape : Json.Shape}
    (h : Channel.create m faults config fresh port shape = .ok ch) :
    Receives { channel := ch } := by
  have hi := Channel.Inv.of_create h
  have hs := Channel.Sheds.of_create h
  obtain ⟨descriptor, codec, rfl⟩ := Channel.create_eq h
  exact ⟨hi.accepts, hs, .idle rfl, rfl, rfl, nofun, nofun⟩

end Receives

/-! ## What the results come to -/

/-- What the results of accepting come to once all of them are dealt with. -/
structure Resolved (x : Reception) : Prop where
  slot : x.channel.slot = firstUsable x.results
  accepted : x.channel.accepted = outcomeOf (firstUsable x.results) (firstCause x.results)
  published :
    x.published = (outcomeOf (firstUsable x.results) (firstCause x.results)).toList
  verifications : x.verifications = (firstUsable x.results).isSome.toNat
  /-- Whoever is not the worker is let go. -/
  shut : ∀ r ∈ x.results, ∀ l, r.link? = some l → firstUsable x.results ≠ some l →
    (x.channel.link l).IsShut ∧ l ∉ x.channel.arrivals
  stopped : firstCause x.results ≠ none → x.channel.acceptor = .stopped
  failed : firstUsable x.results = none → firstCause x.results ≠ none →
    x.channel.state.isTerminal = true

/-- What is known at any time of a loop that is offered results. -/
structure Received (x : Reception) : Prop where
  resolved : x.channel.acceptor.isResting = true → x.Resolved
  /-- Who has claimed the worker slot finds it taken, and verification to be started. -/
  claimed : ∀ l, x.channel.acceptor = .claimed l →
    x.channel.unverified = true ∧ x.channel.slot = some l
  /-- Verification goes on where it was started, and only there its outcome is handed on. -/
  started : x.channel.verifier = .absent ∧ x.verifications = 0 ∨
    x.channel.verifier ≠ .absent ∧ x.verifications = 1
  handovers : x.handovers ≤ x.verifications
  /-- A turn of the loop moves the state on to the outcome that is to come, if at all. -/
  turn : (x.act (.task .acceptor)).channel.state = x.channel.state ∨
    ∃ o, outcomeOf (firstUsable x.results) (firstCause x.results) = some o ∧
      (x.act (.task .acceptor)).channel.state = x.channel.state.advance o.state
  result : ∀ r, (x.step (.result r)).channel.state = x.channel.state

namespace Receives

theorem resolved (h : x.Receives) (ha : x.channel.acceptor.isResting = true) : x.Resolved := by
  obtain ⟨hslot, haccepted, hn, hstopped⟩ := h.stage.resting ha
  have htaken : x.channel.acceptor.taken? = none := by
    cases hacc : x.channel.acceptor <;> rw [hacc] at ha <;> first | rfl | cases ha
  refine ⟨hslot, haccepted, haccepted ▸ h.published, hn, fun r hr l hl hw => ?_, hstopped,
    fun hw he => ?_⟩
  · obtain ⟨hlt, hb⟩ := h.gone r hr l hl
    have harr : l ∉ x.channel.arrivals := by
      simpa [arrivals, htaken, hslot, hb] using hw
    exact ⟨(h.sheds.shut l hlt).resolve_left harr, harr⟩
  · obtain ⟨cause, hc⟩ := Option.ne_none_iff_exists'.1 he
    rw [hw, hc] at haccepted
    refine h.failed ?_
    rw [announced_of_isResting ha, haccepted]
    rfl

theorem announces (h : x.Receives) :
    let ch' := (x.act (.task .acceptor)).channel
    ch'.announced? = x.channel.announced? ∧ ch'.state = x.channel.state ∨
      x.channel.announced? = none ∧
        ∃ o, outcomeOf (firstUsable x.results) (firstCause x.results) = some o ∧
          ch'.announced? = some o.state ∧ ch'.state = x.channel.state.advance o.state := by
  rw [Reception.act]
  split
  · rename_i hp
    exact .inl ⟨by rw [announced?, announced?, hp], rfl⟩
  · rename_i hp
    rw [Channel.step, Channel.taskStep]
    cases hs : x.channel.acceptorStep with
    | none => exact .inl ⟨rfl, rfl⟩
    | some ch' => exact (acceptorStep_move hs).announces hp h.accepts h.stage

theorem received (h : x.Receives) : x.Received where
  resolved := h.resolved
  claimed l hl := by
    have hclaim := h.accepts.claim
    rw [hl] at hclaim
    exact ⟨hclaim.accept.2.1, hclaim.accept.1⟩
  started := h.stage.started_cases h.accepts.claim
  handovers := by
    rw [h.handovers]
    rcases h.stage.started_cases h.accepts.claim with ⟨hv, hn⟩ | ⟨-, hn⟩ <;> rw [hn]
    · rw [hv]
      rfl
    · exact Bool.toNat_le _
  turn := h.announces.imp (fun hs => hs.2) fun ⟨_, o, hw, _, hs⟩ => ⟨o, hw, hs⟩
  result r := by
    rw [Reception.step]
    split
    · exact (receive_move ‹_›).2.frame.2.1
    · rfl

end Receives

/-! ## What happens in a channel -/

/-- The result that the loop finds in a channel can be offered to it. -/
theorem canReceive_of_acceptResult (ha : ch.acceptor = .polling)
    (hr : ch.acceptResult? = some r) : ch.canReceive r = true := by
  have hask : ch.isAsking = true := by rw [isAsking, ha]
  rw [canReceive, hask, Bool.true_and]
  unfold acceptResult? at hr
  split at hr
  · cases hr
    rfl
  · obtain ⟨l, hl, rfl⟩ := Option.map_eq_some_iff.1 hr
    exact decide_eq_true hl

/-- What happens in a channel happens to a loop that is offered what it would find there. -/
theorem exists_offer (x : Reception) (a : Action) : ∃ o, (x.step o).channel = x.channel.step a := by
  by_cases ha : a = .task .acceptor
  · subst ha
    by_cases hp : x.channel.acceptor = .polling
    · rw [Channel.step, taskStep, acceptorStep, hp]
      cases hr : x.channel.acceptResult? with
      | none => exact ⟨.action (.task .acceptor), by rw [Reception.step, act, if_pos hp]; rfl⟩
      | some r =>
        refine ⟨.result r, ?_⟩
        rw [Reception.step, if_pos (canReceive_of_acceptResult hp hr)]
        rfl
    · exact ⟨.action (.task .acceptor), by rw [Reception.step, act, if_neg hp]⟩
  · refine ⟨.action a, ?_⟩
    by_cases hv : a = .task .verifier
    · subst hv
      rfl
    · rw [Reception.step, act_of_ne x ha hv]

theorem exists_offers (x : Reception) (as : List Action) :
    ∃ os, (x.run os).channel = x.channel.run as := by
  induction as generalizing x with
  | nil => exact ⟨[], rfl⟩
  | cons a as ih =>
    obtain ⟨o, ho⟩ := x.exists_offer a
    obtain ⟨os, hos⟩ := ih (x.step o)
    exact ⟨o :: os, hos.trans (by rw [ho]; rfl)⟩

end Reception

end WorkerLink
