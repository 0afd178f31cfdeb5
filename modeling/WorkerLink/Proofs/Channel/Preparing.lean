import WorkerLink.Proofs.Channel.Calm
import WorkerLink.Proofs.Channel.Permits
import WorkerLink.Proofs.Channel.Queues

/-!
# The calls that prepare a channel

A channel is prepared by three calls: one that starts accepting, one that registers a command source
and one that registers an event handler. As long as each of them is begun at most once none of them
fails, and each is either still to take effect or has taken it (`preparations`).
-/

namespace WorkerLink

/-- What a call can prepare. -/
inductive Preparation where
  | connect
  | commands
  | events

def Request.prepares : Preparation → Request → Bool
  | .connect, .connect | .commands, .bindCommands _ | .events, .bindEvents _ => true
  | _, _ => false

def Action.prepares (k : Preparation) : Action → Bool
  | .begin r => r.prepares k
  | _ => false

/-- Whether a call is still to take effect. -/
def Call.prepares : Preparation → Call → Bool
  | .connect, .connect | .connect, .connectListener => true
  | .commands, .bindCommands _ | .commands, .setCommands _ => true
  | .events, .bindEvents _ | .events, .setEvents _ => true
  | _, _ => false

/-- Whether a call registers an event handler, and starts the console relay behind that. -/
def Call.relays : Call → Bool
  | .bindEvents true | .setEvents true | .reserve true | .relayOutput => true
  | _ => false

namespace Channel

variable {ch ch' : Channel} {a : Action} {k : Preparation} {w w' : Wiring}

/-- Whether a call of a kind has taken effect. -/
def prepared (ch : Channel) : Preparation → Bool
  | .connect => decide (ch.listener ≠ .owner)
  | .commands => ch.commands.isSome
  | .events => ch.handler

/-- The number of calls of a kind that are still to take effect or have taken it. -/
def preparations (ch : Channel) (k : Preparation) : Nat :=
  ch.calls.countP (Call.prepares k) + (ch.prepared k).toNat

theorem not_prepared (h : ch.preparations k ≤ 1) {i : Nat} {c : Call} (hi : ch.calls[i]? = some c)
    (hc : c.prepares k = true) : ch.prepared k = false := by
  have hp := countP_pos (Call.prepares k) hi hc
  unfold preparations at h
  rw [← Bool.toNat_eq_zero]
  omega

theorem WiringMove.prepared_eq (m : WiringMove ch w ch' w') : ch'.prepared k = ch.prepared k := by
  obtain ⟨-, -, hc, hh⟩ := m.outcome_eq
  cases k with
  | connect => simp only [Channel.prepared, m.accepting.2.1]
  | commands => simp only [Channel.prepared, hc]
  | events => simp only [Channel.prepared, hh]

/-- A call that was begun once takes effect. -/
theorem CallMove.prepares {i : Nat} {c c' : Call} (m : CallMove ch c ch' c')
    (hi : ch.calls[i]? = some c) (h : ch.Calm) (hone : ∀ k, ch.preparations k ≤ 1) :
    (c'.prepares k).toNat + (ch'.prepared k).toNat =
      (c.prepares k).toNat + (ch.prepared k).toNat := by
  have hcalm := h.calls c (List.mem_of_getElem? hi)
  cases m with
  | connectClosed hc | bindCommandsClosed hc | bindEventsClosed hc =>
    rw [h.closed] at hc
    cases hc
  | alreadyAccepting hl =>
    have hn := not_prepared (hone .connect) hi rfl
    simp [Channel.prepared, hl] at hn
  | commandsBound hc =>
    have hn := not_prepared (hone .commands) hi rfl
    simp only [Channel.prepared, hc] at hn
    cases hn
  | eventsBound hh =>
    have hn := not_prepared (hone .events) hi rfl
    simp only [Channel.prepared, hh] at hn
    cases hn
  | takeListener hl => cases k <;> simp [Call.prepares, Channel.prepared, hl]
  | setCommands hn => cases k <;> simp [Call.prepares, Channel.prepared, hn]
  | setEvents hn => cases k <;> simp [Call.prepares, Channel.prepared, hn]
  | wire m | wired m =>
    rw [m.prepared_eq]
    cases k <;> rfl
  | disable | disableUnbound | cancel | close | announceClosed | shutNobody | shutWorker
  | shutFailed | releaseListener | abortAcceptor | abortStreams | abortConsole | alreadyClosed
  | giveBack => cases hcalm
  | _ => cases k <;> rfl

theorem AcceptorMove.listener_eq (m : AcceptorMove ch ch') (h : ch.Calm) (ho : ch.Open) :
    ch'.listener = ch.listener := by
  have hopen := h.canOpen
  cases m with
  | abort _ ha =>
    rw [ho.acceptor] at ha
    cases ha
  | giveUp _ hn =>
    rw [hopen] at hn
    cases hn
  | report ha =>
    have hw := h.acceptor
    rw [ha] at hw
    cases hw
  | _ => rfl

theorem preparations_of_eq (hc : ch'.calls = ch.calls) (hl : ch'.listener = ch.listener)
    (hq : ch'.commands = ch.commands) (hh : ch'.handler = ch.handler) :
    ch'.preparations k = ch.preparations k := by
  cases k <;> simp [preparations, prepared, hc, hl, hq, hh]

/-- Only beginning a call adds to the calls of its kind. -/
theorem Move.preparations (m : Move ch a ch') (h : ch.Calm) (hi : ch.Inv)
    (hone : ∀ k, ch.preparations k ≤ 1) :
    ch'.preparations k = ch.preparations k + (a.prepares k).toNat := by
  have ho := hi.open_of h.closed
  cases m with
  | acceptor m =>
    refine preparations_of_eq m.ne_absent.2.2.1 (m.listener_eq h ho) ?_ ?_ <;> cases m <;> rfl
  | verifier m =>
    cases m with
    | wire _ m | wired _ m =>
      exact preparations_of_eq m.accepting.2.2.1 m.accepting.2.1 m.outcome_eq.2.2.1
        m.outcome_eq.2.2.2
    | _ => exact preparations_of_eq rfl rfl rfl rfl
  | consumer m => cases m <;> exact preparations_of_eq rfl rfl rfl rfl
  | producer m => cases m <;> exact preparations_of_eq rfl rfl rfl rfl
  | relay m => cases m <;> exact preparations_of_eq rfl rfl rfl rfl
  | @begin r =>
    have hr : (r.call.prepares k).toNat = (r.prepares k).toNat := by
      cases k <;> cases r <;> rfl
    have hcount : (ch.calls ++ [r.call]).countP (Call.prepares k) =
        ch.calls.countP (Call.prepares k) + (r.prepares k).toNat := by
      rw [List.countP_append, countP_singleton_toNat, hr]
    have hp : Channel.prepared { ch with calls := ch.calls ++ [r.call] } k = ch.prepared k := by
      cases k <;> rfl
    simp only [Channel.preparations, hp, hcount, Action.prepares]
    omega
  | @call i c c' ch' hcall m =>
    have hm := m.prepares hcall h hone (k := k)
    have hn := countP_set_add (Call.prepares k) hcall c'
    have hp (cs : List Call) : Channel.prepared { ch' with calls := cs } k = ch'.prepared k := by
      cases k <;> rfl
    simp only [Channel.preparations, hp, m.calls_eq, Action.prepares, Bool.toNat_false]
    omega
  | client ha =>
    have hn : a.prepares k = false := by cases a <;> first | rfl | cases ha
    rw [hn]
    exact preparations_of_eq rfl rfl rfl rfl
  | _ => exact preparations_of_eq rfl rfl rfl rfl

/-- Every call that is there is of one of the kinds, once all that was begun is. -/
theorem Move.length_calls (m : Move ch a ch') (h : ch.Calm) (hi : ch.Inv) (ha : a.isCalm = true)
    (hone : ∀ k, ch.preparations k ≤ 1)
    (hl : ch.calls.length =
      ch.preparations .connect + ch.preparations .commands + ch.preparations .events) :
    ch'.calls.length =
      ch'.preparations .connect + ch'.preparations .commands + ch'.preparations .events := by
  have hn (k : Preparation) := m.preparations h hi hone (k := k)
  rw [hn .connect, hn .commands, hn .events]
  cases m with
  | acceptor m =>
    rw [m.ne_absent.2.2.1]
    exact hl
  | verifier m =>
    rw [m.calls_eq]
    exact hl
  | consumer m => cases m <;> exact hl
  | producer m => cases m <;> exact hl
  | relay m => cases m <;> exact hl
  | @begin r =>
    have hr : (Action.prepares .connect (.begin r)).toNat +
        (Action.prepares .commands (.begin r)).toNat +
        (Action.prepares .events (.begin r)).toNat = 1 := by
      cases r <;> first | rfl | cases ha
    rw [List.length_append, List.length_singleton, hl]
    omega
  | call hi m =>
    simp only [m.calls_eq, List.length_set]
    exact hl
  | client hx => cases a <;> first | exact hl | cases hx
  | _ => exact hl

/-! ## The console relay -/

/-- A call that registers an event handler with output starts the console relay. -/
theorem CallMove.relays {i : Nat} {c c' : Call} (m : CallMove ch c ch' c')
    (hi : ch.calls[i]? = some c) (h : ch.Calm) (hp : ch.Permits)
    (hone : ∀ k, ch.preparations k ≤ 1) :
    c'.relays.toNat + ch'.relay.isRunning.toNat = c.relays.toNat + ch.relay.isRunning.toNat := by
  have hcalm := h.calls c (List.mem_of_getElem? hi)
  cases m with
  | bindEventsClosed hc =>
    rw [h.closed] at hc
    cases hc
  | eventsBound hh =>
    have hn := not_prepared (hone .events) hi rfl
    simp only [Channel.prepared, hh] at hn
    cases hn
  | @bindEvents output | @setEvents output => cases output <;> rfl
  | relayOutput =>
    have hpos := countP_pos Call.isRelaying hi rfl
    have hle := hp.relay
    have hh := ch.handler.toNat_le
    have hs := Task.isRunning_le_isStarted ch.relay
    have hr : ch.relay.isRunning.toNat = 0 := by omega
    rw [hr]
    rfl
  | wire m | wired m =>
    rw [m.relay_eq]
    rfl
  | disable | disableUnbound | cancel | close | announceClosed | shutNobody | shutWorker
  | shutFailed | releaseListener | abortAcceptor | abortStreams | abortConsole | alreadyClosed
  | giveBack => cases hcalm
  | _ => rfl

/-- As long as nothing comes out of the worker the console relay goes on. -/
theorem RelayMove.nonempty (m : RelayMove ch ch') (ho : ch.Open) : ch.output ≠ {} := by
  intro he
  cases m with
  | read _ _ hb =>
    rw [he] at hb
    cases hb
  | stop _ h =>
    rw [ho.relay, he] at h
    rcases h with h | h
    · cases h
    · exact h rfl

/-- The calls that register an event handler with output, and the console relay that they start. -/
theorem Move.relays (m : Move ch a ch') (h : ch.Calm) (hi : ch.Inv) (hp : ch.Permits)
    (hone : ∀ k, ch.preparations k ≤ 1) (hout : ch.output = {}) :
    ch'.calls.countP Call.relays + ch'.relay.isRunning.toNat =
      ch.calls.countP Call.relays + ch.relay.isRunning.toNat +
        (match a with | .begin r => r.call.relays | _ => false).toNat := by
  have ho := hi.open_of h.closed
  cases m with
  | acceptor m =>
    rw [(m.open ho).2.2.2.2.1, (m.open ho).2.2.2.2.2.2]
    rfl
  | verifier m =>
    rw [m.calls_eq]
    cases m with
    | wire _ m | wired _ m => simp only [m.relay_eq, Bool.toNat_false, Nat.add_zero]
    | _ => rfl
  | consumer m => cases m <;> rfl
  | producer m => cases m <;> rfl
  | relay m => exact (m.nonempty ho hout).elim
  | @begin r =>
    simp only [List.countP_append, countP_singleton_toNat]
    omega
  | @call i c c' ch' hcall m =>
    have hn := countP_set_add Call.relays hcall c'
    have hm := m.relays hcall h hp hone
    simp only [m.calls_eq, Bool.toNat_false]
    omega
  | client hx => cases a <;> first | rfl | cases hx
  | _ => rfl

end Channel

end WorkerLink
