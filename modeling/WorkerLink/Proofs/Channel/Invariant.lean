import WorkerLink.Channel.Waits
import WorkerLink.Proofs.Channel.Listening

/-!
# What holds in every run of a channel

`Inv` puts the invariants together. It holds of a channel that was just opened
(`Inv.of_create`), and every move keeps it (`Inv.keeps`), so it holds after every run (`Inv.run`).
-/

namespace WorkerLink.Channel

variable {ch ch' : Channel} {a : Action} {k l : LinkId}

/-- What holds of a channel whenever it is looked at. -/
structure Inv (ch : Channel) : Prop where
  accepts : ch.Accepts
  open_of : ch.closed = false → ch.Open
  gathers : ch.Gathers
  listens : ch.Listens
  unwritten : ∀ k, ch.slot ≠ some k ∨ ch.producer.phase = .absent →
    (ch.link k).outbound.written = []

/-! ## The start -/

theorem create_eq {m : Machine} {faults : Faults} {config : Config} {fresh : SessionId}
    {port : UInt16} {shape : Json.Shape}
    (h : create m faults config fresh port shape = .ok ch) :
    ∃ descriptor codec, ch = { forkId := config.forkId, descriptor, codec } := by
  unfold create at h
  split at h
  · cases h
  · split at h
    · cases h
    · cases h
      exact ⟨_, _, rfl⟩

theorem link_of_no_links (h : ch.links = []) (k : LinkId) : ch.link k = {} :=
  link_of_length_le (by simp [h])

theorem Inv.initial (forkId : UInt32) (descriptor : Descriptor) (codec : Codec) :
    Inv { forkId, descriptor, codec } where
  accepts :=
    { hands := Nat.le_refl 1, claim := .unclaimed rfl, order := .nil, known := nofun }
  open_of _ :=
    { state := nofun, acceptor := rfl, consumer := rfl, producer := rfl, relay := rfl
      dropped := rfl, hands := rfl, verifier := nofun, calls := nofun, outbound := nofun }
  gathers := { shows := .pending rfl, signals := rfl, wired := .waiting (Nat.succ_pos 2) rfl }
  listens :=
    { sound := fun k => by rw [link_of_no_links rfl]; nofun
      idle := fun _ => ⟨rfl, rfl⟩
      silent := fun k _ => by rw [link_of_no_links rfl]
      hears := nofun }
  unwritten k _ := by
    rw [link_of_no_links rfl]
    rfl

theorem Inv.of_create {m : Machine} {faults : Faults} {config : Config} {fresh : SessionId}
    {port : UInt16} {shape : Json.Shape}
    (h : create m faults config fresh port shape = .ok ch) : ch.Inv := by
  obtain ⟨descriptor, codec, rfl⟩ := create_eq h
  exact .initial ..

/-! ## Every move -/

theorem WiringMove.producer_started {w w' : Wiring} (m : WiringMove ch w ch' w')
    (h : ch.producer.phase ≠ .absent) : ch'.producer.phase ≠ .absent := by
  cases m with
  | spawnProducer => nofun
  | _ => exact h

/-- The command producer starts once. -/
theorem Move.producer_started (m : Move ch a ch') (h : ch.producer.phase ≠ .absent) :
    ch'.producer.phase ≠ .absent := by
  cases m with
  | acceptor m => cases m <;> exact h
  | verifier m =>
    cases m with
    | wire _ m | wired _ m => exact m.producer_started h
    | _ => exact h
  | consumer m => cases m <;> exact h
  | producer m =>
    cases m with
    | sent => exact h
    | _ => nofun
  | relay m => cases m <;> exact h
  | call _ m =>
    cases m with
    | wire m | wired m => exact m.producer_started h
    | _ => exact h
  | _ => exact h

theorem ProducerMove.running (m : ProducerMove ch ch') : ch.producer.phase = .running := by
  cases m with
  | halt hr | exhausted hr | refused hr | unwritable hr | sent hr => exact hr

theorem Move.unwritten (m : Move ch a ch') (hc : ch.Accepts)
    (h : ∀ k, ch.slot ≠ some k ∨ ch.producer.phase = .absent → (ch.link k).outbound.written = [])
    (hk : ch'.slot ≠ some k ∨ ch'.producer.phase = .absent) :
    (ch'.link k).outbound.written = [] := by
  have before : ch.slot ≠ some k ∨ ch.producer.phase = .absent := by
    refine hk.imp (fun hs he => hs (m.slot_eq he)) fun hp => ?_
    cases hph : ch.producer.phase with
    | absent => rfl
    | _ => exact (m.producer_started (by rw [hph]; nofun) hp).elim
  by_cases hs : ch.slot = some k
  · have hp : a ≠ .task .producer := by
      intro ha
      subst ha
      cases m with
      | producer m =>
        have hr := m.running
        rw [before.resolve_left fun hn => hn hs] at hr
        cases hr
      | client ha => cases ha
    rw [m.written_eq hc hp, h k before]
  · rw [(m.silent hc hs).2, h k before]

theorem Inv.keeps (h : ch.Inv) (m : Move ch a ch') : ch'.Inv where
  accepts := h.accepts.keeps m
  open_of hc := (h.open_of (m.open_of_open hc)).keeps h.accepts m hc
  gathers := h.gathers.keeps h.accepts m
  listens := h.listens.keeps h.accepts h.gathers h.open_of m
  unwritten _ := m.unwritten h.accepts h.unwritten

theorem Inv.run (h : ch.Inv) (actions : List Action) : (ch.run actions).Inv :=
  run_keeps Inv.keeps h actions

end WorkerLink.Channel
