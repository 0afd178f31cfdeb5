import WorkerLink.Proofs.Channel.Binding

/-!
# Runs without closing, disabling and faults

As long as nobody disables or closes the channel, no client gives up and the operating system does
what it is asked to, nothing that fails for one of these reasons happens (`Calm`).
-/

namespace WorkerLink

/-- Whether an action neither disables nor closes the channel nor brings a fault about. -/
def Action.isCalm : Action → Bool
  | .begin .disable | .begin .close | .begin .drop | .leave _ | .reset _ | .setFaults _ => false
  | _ => true

def Call.isCalm : Call → Bool
  | .disable | .cancel | .close .. => false
  | _ => true

/-- Whether accepting has not failed or been given up. -/
def Acceptor.isWell : Acceptor → Bool
  | .failing _ | .reporting _ | .stopped => false
  | _ => true

/-- Whether a record does not say that the worker's connection could not be opened once more. -/
def LogRecord.isCalm (r : LogRecord) : Prop :=
  r ≠ .error "Failed to open worker socket for verification" ∧
    r ≠ .error "Failed to open worker socket for streams"

namespace Channel

variable {ch ch' : Channel} {a : Action} {w w' : Wiring}

/-- How a channel looks that was not closed or disabled and has met no fault. -/
structure Calm (ch : Channel) : Prop where
  closed : ch.closed = false
  disabled : ch.disabled = false
  faults : ch.faults = {}
  acceptor : ch.acceptor.isWell = true
  listener : ch.listener ≠ .nobody
  verifier : ch.verifier ≠ .spawned false
  calls : ∀ c ∈ ch.calls, c.isCalm = true
  log : ∀ r ∈ ch.log, r.isCalm

theorem faults_openDescriptor (h : ch.faults = {}) : ch.openDescriptor.faults = {} := by
  simp [openDescriptor, h]

theorem faults_closeDescriptor (h : ch.faults = {}) : ch.closeDescriptor.faults = {} := by
  simp [closeDescriptor, h]

theorem faults_faultsAfter (h : ch.faults = {}) (t : Task) : ch.faultsAfter t = {} := by
  unfold faultsAfter
  split
  · exact faults_closeDescriptor h
  · exact h

theorem Calm.canOpen (h : ch.Calm) : ch.canOpen = true := by
  simp [Channel.canOpen, h.faults]

theorem calm_concat {log : List LogRecord} {r : LogRecord} (h : ∀ r ∈ log, r.isCalm)
    (hr : r.isCalm) : ∀ x ∈ log ++ [r], x.isCalm := by
  intro x hx
  rcases List.mem_append.1 hx with hx | hx
  · exact h x hx
  · rw [List.mem_singleton.1 hx]
    exact hr

theorem calm_warn (message : String) : (LogRecord.warn message).isCalm := by
  simp [LogRecord.isCalm, LogRecord.warn, LogRecord.error]

theorem AcceptorMove.calm (m : AcceptorMove ch ch') (h : ch.Calm) (ho : ch.Open) : ch'.Calm := by
  have hopen := h.canOpen
  cases m with
  | abort _ ha =>
    rw [ho.acceptor] at ha
    cases ha
  | refuse _ hn | giveUp _ hn | verifyBlind _ hn =>
    rw [hopen] at hn
    cases hn
  | fail ha | report ha =>
    have hw := h.acceptor
    rw [ha] at hw
    cases hw
  | take =>
    exact ⟨h.closed, h.disabled, faults_openDescriptor h.faults, rfl, h.listener, h.verifier,
      h.calls, h.log⟩
  | verify =>
    exact ⟨h.closed, h.disabled, faults_openDescriptor h.faults, rfl, h.listener, nofun, h.calls,
      h.log⟩
  | turnAway =>
    exact ⟨h.closed, h.disabled, faults_closeDescriptor h.faults, rfl, h.listener, h.verifier,
      h.calls, calm_concat h.log (calm_warn _)⟩
  | _ => exact { h with acceptor := rfl }

theorem WiringMove.calm (m : WiringMove ch w ch' w') (h : ch.Calm) {v : Verifier}
    {cs : List Call} (hv : v ≠ .spawned false) (hcs : ∀ c ∈ cs, c.isCalm = true) :
    Calm { ch' with verifier := v, calls := cs } := by
  have hopen := h.canOpen
  cases m with
  | connected =>
    exact ⟨h.closed, h.disabled, faults_openDescriptor h.faults, h.acceptor, h.listener, hv, hcs,
      h.log⟩
  | unconnected hn =>
    rw [hopen] at hn
    cases hn
  | unverified =>
    exact ⟨h.closed, h.disabled, h.faults, h.acceptor, h.listener, hv, hcs,
      calm_concat h.log (calm_warn _)⟩
  | incomplete =>
    refine ⟨h.closed, h.disabled, h.faults, h.acceptor, h.listener, hv, hcs,
      calm_concat h.log ?_⟩
    simp [LogRecord.isCalm, LogRecord.error]
  | _ => exact ⟨h.closed, h.disabled, h.faults, h.acceptor, h.listener, hv, hcs, h.log⟩

theorem VerifierMove.calm (m : VerifierMove ch ch') (h : ch.Calm) : ch'.Calm := by
  cases m with
  | blind hv => exact (h.verifier hv).elim
  | wire _ m => exact m.calm h nofun (m.accepting.2.2.1 ▸ h.calls)
  | wired _ m => exact m.calm h nofun (m.accepting.2.2.1 ▸ h.calls)
  | complete | ended =>
    exact ⟨h.closed, h.disabled, faults_closeDescriptor h.faults, h.acceptor, h.listener, nofun,
      h.calls, h.log⟩
  | broke =>
    exact ⟨h.closed, h.disabled, faults_closeDescriptor h.faults, h.acceptor, h.listener, nofun,
      h.calls, calm_concat h.log (calm_warn _)⟩
  | surplus =>
    exact ⟨h.closed, h.disabled, h.faults, h.acceptor, h.listener, nofun, h.calls,
      calm_concat h.log (calm_warn _)⟩
  | publish =>
    refine ⟨h.closed, h.disabled, h.faults, h.acceptor, h.listener, nofun, h.calls, ?_⟩
    dsimp only
    split
    · exact h.log
    · exact calm_concat h.log (calm_warn _)
  | _ => exact ⟨h.closed, h.disabled, h.faults, h.acceptor, h.listener, nofun, h.calls, h.log⟩

theorem ConsumerMove.calm (m : ConsumerMove ch ch') (h : ch.Calm) : ch'.Calm := by
  have hf := faults_faultsAfter h.faults ch.producer
  cases m with
  | halt | ended => exact { h with faults := hf }
  | arrived | item => exact { h with }
  | failed =>
    refine { h with faults := hf, log := calm_concat h.log ?_ }
    simp [LogRecord.isCalm, LogRecord.error]

theorem ProducerMove.calm (m : ProducerMove ch ch') (h : ch.Calm) : ch'.Calm := by
  have hf := faults_faultsAfter h.faults ch.consumer
  cases m with
  | halt | exhausted => exact { h with faults := hf }
  | refused | unwritable =>
    refine { h with faults := hf, log := calm_concat h.log ?_ }
    simp [LogRecord.isCalm, LogRecord.error]
  | sent => exact { h with }

theorem RelayMove.calm (m : RelayMove ch ch') (h : ch.Calm) : ch'.Calm := by
  cases m with
  | read => exact { h with }
  | stop _ _ hm =>
    refine { h with log := fun r hr => ?_ }
    rcases hm with rfl | rfl
    · exact h.log r (by simpa using hr)
    · exact calm_concat h.log (calm_warn _) r hr

theorem CallMove.calm {i : Nat} {c c' : Call} (m : CallMove ch c ch' c')
    (hi : ch.calls[i]? = some c) (h : ch.Calm) :
    Calm { ch' with calls := ch'.calls.set i c' } := by
  have hcalm := h.calls c (List.mem_of_getElem? hi)
  have set {d : Call} (hc : d.isCalm = true) : ∀ x ∈ ch.calls.set i d, x.isCalm = true := by
    intro x hx
    rcases List.mem_or_eq_of_mem_set hx with hx | rfl
    · exact h.calls x hx
    · exact hc
  cases m with
  | wire m =>
    rename_i w w' _
    obtain ⟨-, -, hcs, -, -, -, -, hv⟩ := m.accepting
    have hm := m.calm h h.verifier (set (d := .wire w') rfl)
    rw [← hv, ← hcs] at hm
    exact hm
  | wired m =>
    obtain ⟨-, -, hcs, -, -, -, -, hv⟩ := m.accepting
    have hm := m.calm h h.verifier (set (d := .returned (.ok ())) rfl)
    rw [← hv, ← hcs] at hm
    exact hm
  | takeListener => exact { h with listener := nofun, calls := set rfl }
  | spawnAcceptor => exact { h with acceptor := rfl, calls := set rfl }
  | surplus => exact { h with log := calm_concat h.log (calm_warn _), calls := set rfl }
  | disable | disableUnbound | cancel | close | announceClosed | shutNobody | shutWorker
  | shutFailed | releaseListener | abortAcceptor | abortStreams | abortConsole | alreadyClosed
  | giveBack => cases hcalm
  | _ => exact { h with calls := set rfl }

theorem Calm.keeps (h : ch.Calm) (hi : ch.Inv) (m : Move ch a ch') (ha : a.isCalm = true) :
    ch'.Calm := by
  have hopen := hi.open_of h.closed
  cases m with
  | acceptor m => exact m.calm h hopen
  | verifier m => exact m.calm h
  | consumer m => exact m.calm h
  | producer m => exact m.calm h
  | relay m => exact m.calm h
  | reclaimer hd =>
    rw [hopen.dropped] at hd
    cases hd
  | @begin r =>
    refine { h with calls := fun c hc => ?_ }
    rcases List.mem_append.1 hc with hc | hc
    · exact h.calls c hc
    · rw [List.mem_singleton.1 hc]
      cases r <;> first | rfl | cases ha
  | call hc m => exact m.calm hc h
  | setFaults => cases ha
  | _ => exact { h with }

theorem Calm.initial (forkId : UInt32) (descriptor : Descriptor) (codec : Codec) :
    Calm { forkId, descriptor, codec } :=
  ⟨rfl, rfl, rfl, rfl, nofun, nofun, nofun, nofun⟩

end Channel

end WorkerLink
