import Mathlib.Data.List.TakeWhile
import WorkerLink.Proofs.Channel.Forward
import WorkerLink.Proofs.Channel.TurnedAway

/-!
# What comes of the results of accepting

Accepting takes one result after the other: connections, those that cannot be taken over among them,
and errors. In a `Reception` it is offered any results in any order, while everything else goes on
in the channel. The point that accepting has reached, and the results that it has taken, fix the
worker slot, what was published and whether verification was started (`Stage`).
-/

namespace WorkerLink

namespace AcceptResult

/-- The connection that a result brings. -/
def link? : AcceptResult → Option LinkId
  | .connection l | .unusable l => some l
  | .error _ => none

/-- The connection, if it can be taken over. -/
def usable? : AcceptResult → Option LinkId
  | .connection l => some l
  | .unusable _ | .error _ => none

def cause? : AcceptResult → Option IoError
  | .error cause => some cause
  | .connection _ | .unusable _ => none

end AcceptResult

/-- What accepting moves the state on to before it publishes an outcome. -/
def AcceptOutcome.state : AcceptOutcome → Lifecycle
  | .accepted _ => .accepted
  | .failed _ => .failed

/-! ## Results -/

variable {rs : List AcceptResult} {r : AcceptResult}

/-- The first connection that can be taken over, of those before the first error. -/
def firstUsable (rs : List AcceptResult) : Option LinkId :=
  (rs.takeWhile (·.cause?.isNone)).findSome? AcceptResult.usable?

/-- The first error. -/
def firstCause (rs : List AcceptResult) : Option IoError := rs.findSome? AcceptResult.cause?

/-- How accepting comes out, given the worker and the first error. -/
def outcomeOf (worker : Option LinkId) (cause : Option IoError) : Option AcceptOutcome :=
  match worker with
  | some l => some (.accepted l)
  | none => cause.map fun e => .failed e.message

theorem firstCause_concat (h : firstCause rs = none) : firstCause (rs ++ [r]) = r.cause? := by
  unfold firstCause at h ⊢
  rw [List.findSome?_append, h, Option.none_or]
  cases hr : r.cause? <;> simp [hr]

/-- As long as there was no error, the next result counts. -/
theorem firstUsable_concat (h : firstCause rs = none) :
    firstUsable (rs ++ [r]) = (firstUsable rs).or r.usable? := by
  have hall : ∀ x ∈ rs, x.cause?.isNone = true := fun x hx =>
    Option.isNone_iff_eq_none.2 (List.findSome?_eq_none_iff.1 h x hx)
  have htake : [r].takeWhile (·.cause?.isNone) = if r.cause?.isNone then [r] else [] := by
    cases hr : r.cause?.isNone <;> simp [hr]
  rw [firstUsable, List.takeWhile_append_of_pos hall, List.findSome?_append, htake, firstUsable,
    List.takeWhile_eq_self_iff.2 hall]
  cases r <;> rfl

/-! ## The points of accepting -/

/-- Whether nothing that was taken is still to be dealt with, and more may come. -/
def Acceptor.isIdle : Acceptor → Bool
  | .absent | .waiting | .polling => true
  | _ => false

/-- Whether nothing that was taken is still to be dealt with. -/
def Acceptor.isResting : Acceptor → Bool
  | .absent | .waiting | .polling | .stopped => true
  | _ => false

/-- What the point that accepting has reached says about the worker slot, the published outcome and
how often verification was started, given the first usable connection and the first error of the
results it has taken. -/
inductive Stage : Option LinkId → Option IoError →
    Acceptor → Option LinkId → Option AcceptOutcome → Nat → Prop where
  | idle {w : Option LinkId} {a : Acceptor} (ha : a.isIdle = true) :
    Stage w none a w (w.map .accepted) w.isSome.toNat
  | taken {s : Option LinkId} {l : LinkId} :
    Stage (s.or (some l)) none (.taken l) s (s.map .accepted) s.isSome.toNat
  | claimed {l : LinkId} : Stage (some l) none (.claimed l) (some l) none 0
  | announcing {l : LinkId} : Stage (some l) none (.announcing l) (some l) none 0
  | verifying {l : LinkId} : Stage (some l) none (.verifying l) (some l) (some (.accepted l)) 0
  | failing {cause : IoError} : Stage none (some cause) (.failing cause.message) none none 0
  | reporting {cause : IoError} : Stage none (some cause) (.reporting cause.message) none none 0
  | stopped {w : Option LinkId} {e : Option IoError} :
    Stage w e .stopped w (outcomeOf w e) w.isSome.toNat

namespace Stage

variable {w s : Option LinkId} {e : Option IoError} {a b : Acceptor} {o : Option AcceptOutcome}
  {n : Nat} {l k : LinkId} {reason : String}

theorem idle_move (h : Stage w e a s o n) (ha : a.isIdle = true) (hb : b.isIdle = true) :
    Stage w e b s o n := by
  cases h with
  | idle => exact .idle hb
  | _ => cases ha

theorem idle_stop (h : Stage w e a s o n) (ha : a.isIdle = true) : Stage w e .stopped s o n := by
  cases h with
  | idle =>
    have ho : w.map .accepted = outcomeOf w none := by cases w <;> rfl
    rw [ho]
    exact .stopped
  | _ => cases ha

theorem turnAway (h : Stage w e (.taken l) (some k) o n) : Stage w e .polling (some k) o n := by
  cases h with
  | taken => exact .idle rfl
  | idle ha => cases ha

theorem claim (h : Stage w e (.taken l) none o n) : Stage w e (.claimed l) (some l) o n := by
  cases h with
  | taken => exact .claimed
  | idle ha => cases ha

theorem accept (h : Stage w e (.claimed l) s o n) :
    o = none ∧ outcomeOf w e = some (.accepted l) ∧ Stage w e (.announcing l) s o n := by
  cases h with
  | claimed => exact ⟨rfl, rfl, .announcing⟩
  | idle ha => cases ha

theorem announce (h : Stage w e (.announcing l) s o n) :
    o = none ∧ Stage w e (.verifying l) s (some (.accepted l)) n := by
  cases h with
  | announcing => exact ⟨rfl, .verifying⟩
  | idle ha => cases ha

theorem verify (h : Stage w e (.verifying l) s o n) :
    o = some (.accepted l) ∧ Stage w e .polling s o (n + 1) := by
  cases h with
  | verifying => exact ⟨rfl, .idle rfl⟩
  | idle ha => cases ha

theorem fail (h : Stage w e (.failing reason) s o n) :
    o = none ∧ outcomeOf w e = some (.failed reason) ∧ Stage w e (.reporting reason) s o n := by
  cases h with
  | failing => exact ⟨rfl, rfl, .reporting⟩
  | idle ha => cases ha

theorem report (h : Stage w e (.reporting reason) s o n) :
    o = none ∧ Stage w e .stopped s (some (.failed reason)) n := by
  cases h with
  | reporting => exact ⟨rfl, .stopped⟩
  | idle ha => cases ha

/-- Where more may come there was no error. -/
theorem of_idle (h : Stage w e a s o n) (ha : a.isIdle = true) :
    e = none ∧ s = w ∧ o = w.map .accepted ∧ n = w.isSome.toNat := by
  cases h with
  | idle => exact ⟨rfl, rfl, rfl, rfl⟩
  | _ => cases ha

/-- Once all that was taken is dealt with, everything follows from the results. -/
theorem resting (h : Stage w e a s o n) (ha : a.isResting = true) :
    s = w ∧ o = outcomeOf w e ∧ n = w.isSome.toNat ∧ (e ≠ none → a = .stopped) := by
  cases h with
  | idle =>
    refine ⟨rfl, ?_, rfl, fun he => (he rfl).elim⟩
    cases w <;> rfl
  | stopped => exact ⟨rfl, rfl, rfl, fun _ => rfl⟩
  | _ => cases ha

theorem started_cases {u : Bool} {v : Verifier} (h : Stage w e a s o n) (hc : Claim a s u v) :
    v = .absent ∧ n = 0 ∨ v ≠ .absent ∧ n = 1 := by
  cases hc with
  | unclaimed => exact .inl ⟨rfl, by cases h <;> rfl⟩
  | claimed | announcing | verifying =>
    refine .inl ⟨rfl, ?_⟩
    cases h with
    | idle ha => cases ha
    | _ => rfl
  | started hfree _ hv =>
    refine .inr ⟨hv, ?_⟩
    cases h with
    | idle | taken | stopped => rfl
    | claimed | announcing | verifying => cases hfree

end Stage

namespace Claim

variable {a : Acceptor} {s : Option LinkId} {v : Verifier}

/-- Who can still start verification has no worker yet. -/
theorem none_of_unverified (h : Claim a s true v) (ha : a.isFree = true) : s = none := by
  cases h with
  | unclaimed => rfl
  | claimed => cases ha

theorem isSome_of_verified (h : Claim a s false v) : ∃ l, s = some l := by
  cases h with
  | announcing | verifying | started => exact ⟨_, rfl⟩

end Claim

namespace Channel

variable {ch ch' : Channel} {a : Action} {w : Option LinkId} {e : Option IoError} {n : Nat}

/-! ## Taking a result -/

/-- What accepting has moved the state on to. -/
def announced? (ch : Channel) : Option Lifecycle :=
  match ch.acceptor with
  | .announcing _ | .verifying _ => some .accepted
  | .reporting _ => some .failed
  | _ => ch.accepted.map AcceptOutcome.state

theorem announced_of_isResting (h : ch.acceptor.isResting = true) :
    ch.announced? = ch.accepted.map AcceptOutcome.state := by
  unfold announced?
  cases ha : ch.acceptor <;> rw [ha] at h <;> first | rfl | cases h

/-- Whether accepting asks for a result. -/
def isAsking (ch : Channel) : Bool :=
  match ch.acceptor with
  | .polling => true
  | .waiting => !ch.acceptorAborted
  | _ => false

/-- Whether a result can come: a connection is the one that has waited longest. -/
def canReceive (ch : Channel) (r : AcceptResult) : Bool :=
  ch.isAsking && match r.link? with
    | some l => decide (ch.backlog.head? = some l)
    | none => true

/-- What a result can do. -/
inductive ReceiveMove (ch : Channel) : AcceptResult → Channel → Prop where
  | take {l : LinkId} {rest : List LinkId} (hb : ch.backlog = l :: rest) :
    ReceiveMove ch (.connection l) { ch.openDescriptor with backlog := rest, acceptor := .taken l }
  | drop {l : LinkId} {rest : List LinkId} (hb : ch.backlog = l :: rest) :
    ReceiveMove ch (.unusable l) { ch with
      links := ch.links.modify l Link.release, backlog := rest
      log := ch.log ++ [.error "Failed to take ownership of accepted socket"]
      acceptor := .polling }
  | refuse {cause : IoError} (hu : ch.unverified = true) :
    ReceiveMove ch (.error cause) { ch.error "Failed to accept worker connection" with
      acceptor := .failing cause.message }
  | giveUp {cause : IoError} (hu : ch.unverified = false) :
    ReceiveMove ch (.error cause) { ch with
      log := ch.log ++ [.warn "Accept failed after worker connected, no longer listening"]
      faults := ch.closeDescriptor.faults
      links := released ch.links ch.backlog, listener := .nobody, backlog := []
      acceptor := .stopped }

theorem receive_move (h : ch.canReceive r = true) :
    ch.isAsking = true ∧ ReceiveMove ch r (ch.receive r) := by
  obtain ⟨hask, hlink⟩ := Bool.and_eq_true_iff.1 h
  refine ⟨hask, ?_⟩
  cases r with
  | connection l =>
    obtain ⟨rest, hb⟩ := List.head?_eq_some_iff.1 (of_decide_eq_true hlink)
    have he : ch.backlog.erase l = rest := by rw [hb, List.erase_cons_head]
    rw [receive, he]
    exact .take hb
  | unusable l =>
    obtain ⟨rest, hb⟩ := List.head?_eq_some_iff.1 (of_decide_eq_true hlink)
    have he : ch.backlog.erase l = rest := by rw [hb, List.erase_cons_head]
    rw [receive, he]
    exact .drop hb
  | error cause =>
    rw [receive]
    cases hu : ch.unverified with
    | true => exact .refuse hu
    | false =>
      rw [if_neg (by simp), stopListening_eq]
      exact .giveUp hu

theorem isAsking_cases (h : ch.isAsking = true) :
    ch.acceptor = .polling ∨ ch.acceptor = .waiting ∧ ch.acceptorAborted = false := by
  unfold isAsking at h
  split at h
  · exact .inl ‹_›
  · exact .inr ⟨‹_›, by simpa using h⟩
  · cases h

theorem acceptor_of_isAsking (h : ch.isAsking = true) :
    ch.acceptor.isIdle = true ∧ ch.acceptor.isFree = true ∧ ch.acceptor ≠ .absent ∧
      ch.acceptor.taken? = none := by
  rcases isAsking_cases h with ha | ⟨ha, -⟩ <;> rw [ha] <;> exact ⟨rfl, rfl, nofun, rfl⟩

namespace ReceiveMove

theorem started (m : ReceiveMove ch r ch') : ch'.acceptor ≠ .absent := by
  cases m <;> nofun

/-- Taking a result leaves the listening socket where it is, or closes it. -/
theorem hands (m : ReceiveMove ch r ch') (ha : ch.isAsking = true) (h : ch.Accepts) :
    ch'.hands ≤ 1 := by
  have hcalls : ch'.calls = ch.calls := by cases m <;> rfl
  have hlistener : ch'.listener = ch.listener ∨ ch'.listener = .nobody := by
    cases m with
    | giveUp => exact .inr rfl
    | _ => exact .inl rfl
  refine Nat.le_trans ?_ h.hands
  rcases hlistener with hl | hl <;>
    simp [Channel.hands, hcalls, hl, m.started, (acceptor_of_isAsking ha).2.2.1]

theorem accepts (m : ReceiveMove ch r ch') (ha : ch.isAsking = true) (h : ch.Accepts) :
    ch'.Accepts := by
  obtain ⟨-, hfree, -, -⟩ := acceptor_of_isAsking ha
  have of_sublist (hcl : Claim ch'.acceptor ch'.slot ch'.unverified ch'.verifier)
      (harr : ch'.arrivals.Sublist ch.arrivals) (hlen : ch'.links.length = ch.links.length) :
      ch'.Accepts :=
    ⟨m.hands ha h, hcl, h.order.sublist harr, fun l hl => hlen ▸ h.known l (harr.subset hl)⟩
  cases m with
  | take hb =>
    refine of_sublist (h.claim.move hfree rfl rfl) ?_ rfl
    simp [arrivals, hb, Acceptor.taken?, openDescriptor]
  | drop hb =>
    refine of_sublist (h.claim.move hfree rfl rfl) ?_ (length_onLink ..)
    simp [arrivals, hb, Acceptor.taken?]
  | refuse hu =>
    refine of_sublist (h.claim.fail hfree hu rfl) ?_ rfl
    simp [arrivals, Acceptor.taken?, error]
  | giveUp hu =>
    refine of_sublist (h.claim.move hfree rfl rfl) ?_ (length_released ..)
    simp [arrivals, Acceptor.taken?]

theorem sheds (m : ReceiveMove ch r ch') (ha : ch.isAsking = true) (hc : ch.Accepts)
    (h : ch.Sheds) : ch'.Sheds := by
  have harr : ch.arrivals = ch.slot.toList ++ ch.backlog := by
    rw [arrivals, (acceptor_of_isAsking ha).2.2.2, Option.toList_none, List.append_nil]
  have shut := h.shut
  rw [harr] at shut
  have listening {l : LinkId} {rest : List LinkId} (hb : ch.backlog = l :: rest) :
      ch.listener ≠ .nobody := fun hn => by
    rw [h.deaf hn] at hb
    cases hb
  cases m with
  | take hb =>
    refine ⟨fun l hl => (shut l hl).imp_left fun hm => ?_, fun hn => (listening hb hn).elim,
      fun hs => by cases hs⟩
    simpa [arrivals, hb, Acceptor.taken?, openDescriptor] using hm
  | @drop k rest hb =>
    refine ⟨fun l hl => ?_, fun hn => (listening hb hn).elim, fun hs => by cases hs⟩
    have hlen : l < ch.links.length := by simpa using hl
    change _ ∨ ((ch.onLink k Link.release).link l).IsShut
    rw [link_onLink]
    by_cases hk : k = l
    · rw [if_pos ⟨hk, hlen⟩]
      exact .inr ⟨rfl, Stream.ended_finish _⟩
    · rw [if_neg fun hn => hk hn.1]
      refine (shut l hlen).imp_left fun hm => ?_
      simpa [arrivals, hb, Acceptor.taken?, Ne.symm hk] using hm
  | refuse =>
    refine ⟨fun l hl => (shut l hl).imp_left fun hm => ?_, h.deaf, fun hs => by cases hs⟩
    simpa [arrivals, Acceptor.taken?, error] using hm
  | giveUp =>
    refine ⟨fun l hl => ?_, fun _ => rfl, fun _ => rfl⟩
    by_cases hb : l ∈ ch.backlog
    · exact .inr (isShut_released hc hb rfl)
    · have hlen : l < ch.links.length := by simpa using hl
      change _ ∨ ((released ch.links ch.backlog).getD l {}).IsShut
      rw [getD_released_of_notMem hb]
      refine (shut l hlen).imp_left fun hm => ?_
      simpa [arrivals, hb, Acceptor.taken?] using hm

theorem stage (m : ReceiveMove ch r ch') (ha : ch.isAsking = true) (hc : ch.Accepts)
    (h : Stage (firstUsable rs) (firstCause rs) ch.acceptor ch.slot ch.accepted n) :
    Stage (firstUsable (rs ++ [r])) (firstCause (rs ++ [r]))
        ch'.acceptor ch'.slot ch'.accepted n ∧ ch'.accepted = ch.accepted := by
  obtain ⟨hidle, hfree, -, -⟩ := acceptor_of_isAsking ha
  obtain ⟨he, hs, ho, rfl⟩ := h.of_idle hidle
  have hclaim := hc.claim
  rw [firstUsable_concat he, firstCause_concat he, ← hs]
  rw [← hs] at ho
  cases m with
  | take => exact ⟨ho ▸ .taken, rfl⟩
  | drop =>
    rw [AcceptResult.usable?, AcceptResult.cause?, Option.or_none]
    exact ⟨ho ▸ .idle rfl, rfl⟩
  | refuse hu =>
    rw [hu] at hclaim
    have hslot := hclaim.none_of_unverified hfree
    rw [hslot] at ho ⊢
    refine ⟨?_, rfl⟩
    simp only [error, hslot, ho]
    exact .failing
  | giveUp hu =>
    rw [hu] at hclaim
    obtain ⟨l, hslot⟩ := hclaim.isSome_of_verified
    rw [hslot] at ho ⊢
    refine ⟨?_, rfl⟩
    simp only [ho]
    exact .stopped

/-- A connection that was taken waits no longer. -/
theorem backlog (m : ReceiveMove ch r ch') (hc : ch.Accepts) :
    (∀ l ∈ ch'.backlog, l ∈ ch.backlog) ∧
      ∀ l, r.link? = some l → l < ch.links.length ∧ l ∉ ch'.backlog := by
  have head {l : LinkId} {rest : List LinkId} (hb : ch.backlog = l :: rest) :
      l < ch.links.length ∧ l ∉ rest := by
    have hn := hc.nodup.sublist (List.sublist_append_right _ ch.backlog)
    rw [hb] at hn
    exact ⟨hc.known l (by simp [arrivals, hb]), (List.nodup_cons.1 hn).1⟩
  cases m with
  | take hb | drop hb =>
    refine ⟨fun l hl => hb ▸ List.mem_cons_of_mem _ hl, fun l hl => ?_⟩
    cases hl
    exact head hb
  | refuse => exact ⟨fun _ => id, fun l hl => by cases hl⟩
  | giveUp => exact ⟨fun l hl => (List.not_mem_nil hl).elim, fun l hl => by cases hl⟩

/-- Taking a result does no more. -/
theorem frame (m : ReceiveMove ch r ch') :
    ch'.verifier = ch.verifier ∧ ch'.state = ch.state ∧ ch'.links.length = ch.links.length := by
  cases m with
  | take | refuse => exact ⟨rfl, rfl, rfl⟩
  | drop => exact ⟨rfl, rfl, length_onLink ..⟩
  | giveUp => exact ⟨rfl, rfl, length_released ..⟩

theorem announced (m : ReceiveMove ch r ch') (ha : ch.isAsking = true) :
    ch'.announced? = ch.announced? := by
  have hidle : ch.announced? = ch.accepted.map AcceptOutcome.state := by
    rcases isAsking_cases ha with ha | ⟨ha, -⟩ <;> rw [announced?, ha]
  rw [hidle]
  cases m <;> rfl

end ReceiveMove

/-! ## A turn of accepting -/

/-- The outcome that accepting publishes with its next step. -/
def publishes? (ch : Channel) : Option AcceptOutcome :=
  match ch.acceptor with
  | .announcing l => some (.accepted l)
  | .reporting reason => some (.failed reason)
  | _ => none

/-- Whether accepting starts verification with its next step. -/
def startsVerification (ch : Channel) : Bool :=
  match ch.acceptor with
  | .verifying _ => true
  | _ => false

/-- Whether verification hands its outcome on with its next step. -/
def handsOutcomeOn (ch : Channel) : Bool :=
  match ch.verifier with
  | .recording _ => true
  | _ => false

/-- A turn of accepting goes on to the next point, and publishes an outcome where none was. -/
theorem AcceptorMove.stage (m : AcceptorMove ch ch') (hp : ch.acceptor ≠ .polling)
    (hc : ch.Accepts) (h : Stage w e ch.acceptor ch.slot ch.accepted n) :
    Stage w e ch'.acceptor ch'.slot ch'.accepted (n + ch.startsVerification.toNat) ∧
      ch'.accepted.toList = ch.accepted.toList ++ ch.publishes?.toList := by
  have hclaim := hc.claim
  unfold startsVerification publishes?
  cases m with
  | wait ha | take ha | refuse ha | giveUp ha => exact (hp ha).elim
  | abort ha =>
    rw [ha] at h ⊢
    exact ⟨h.idle_stop rfl, (List.append_nil _).symm⟩
  | wake ha =>
    rw [ha] at h ⊢
    exact ⟨h.idle_move rfl rfl, (List.append_nil _).symm⟩
  | turnAway ha hs =>
    rw [ha, hs] at h
    rw [ha, hs]
    exact ⟨h.turnAway, (List.append_nil _).symm⟩
  | claim ha hs =>
    rw [ha, hs] at h
    rw [ha]
    exact ⟨h.claim, (List.append_nil _).symm⟩
  | accept ha =>
    rw [ha] at h ⊢
    exact ⟨h.accept.2.2, (List.append_nil _).symm⟩
  | skip ha hu =>
    rw [ha] at hclaim
    cases hclaim.accept.2.1.symm.trans hu
  | announce ha =>
    rw [ha] at h ⊢
    obtain ⟨ho, h⟩ := h.announce
    exact ⟨h, by rw [ho]; rfl⟩
  | verify ha | verifyBlind ha =>
    rw [ha] at h ⊢
    exact ⟨h.verify.2, (List.append_nil _).symm⟩
  | fail ha =>
    rw [ha] at h ⊢
    exact ⟨h.fail.2.2, (List.append_nil _).symm⟩
  | report ha =>
    rw [ha] at h ⊢
    obtain ⟨ho, h⟩ := h.report
    exact ⟨h, by rw [ho]; rfl⟩

/-- Where accepting has nothing to do, it does nothing. -/
theorem idle_of_acceptorStep (h : ch.acceptorStep = none) :
    ch.publishes? = none ∧ ch.startsVerification = false := by
  unfold acceptorStep at h
  unfold publishes? startsVerification
  cases ha : ch.acceptor <;> simp_all

theorem AcceptorMove.backlog (m : AcceptorMove ch ch') :
    (∀ l ∈ ch'.backlog, l ∈ ch.backlog) ∧ ch'.links.length = ch.links.length := by
  refine ⟨fun l hl => ?_, m.arrivals.2⟩
  cases m with
  | abort | giveUp | report => cases hl
  | take _ hb => exact hb ▸ List.mem_cons_of_mem _ hl
  | _ => exact hl

theorem isTerminal_advance_failed (s : Lifecycle) : (s.advance .failed).isTerminal = true := by
  cases s <;> rfl

/-- A turn of accepting that moves the state on moves it to the outcome that is to come. -/
theorem AcceptorMove.announces (m : AcceptorMove ch ch') (hp : ch.acceptor ≠ .polling)
    (hc : ch.Accepts) (h : Stage w e ch.acceptor ch.slot ch.accepted n) :
    ch'.announced? = ch.announced? ∧ ch'.state = ch.state ∨
      ch.announced? = none ∧ ∃ o, outcomeOf w e = some o ∧ ch'.announced? = some o.state ∧
        ch'.state = ch.state.advance o.state := by
  have hclaim := hc.claim
  cases m with
  | wait ha | take ha | refuse ha | giveUp ha => exact (hp ha).elim
  | abort ha | wake ha | turnAway ha | claim ha | announce ha =>
    exact .inl ⟨by rw [announced?, announced?, ha], rfl⟩
  | report ha => exact .inl ⟨by rw [announced?, announced?, ha]; rfl, rfl⟩
  | skip ha hu =>
    rw [ha] at hclaim
    cases hclaim.accept.2.1.symm.trans hu
  | accept ha =>
    rw [ha] at h
    obtain ⟨ho, hw, -⟩ := h.accept
    exact .inr ⟨by rw [announced?, ha, ho]; rfl, _, hw, rfl, rfl⟩
  | verify ha | verifyBlind ha =>
    rw [ha] at h
    have ho := h.verify.1
    refine .inl ⟨?_, rfl⟩
    rw [announced?, announced?, ha]
    exact congrArg (Option.map AcceptOutcome.state) ho
  | fail ha =>
    rw [ha] at h
    obtain ⟨ho, hw, -⟩ := h.fail
    exact .inr ⟨by rw [announced?, ha, ho]; rfl, _, hw, rfl, rfl⟩

/-! ## Everything else -/

/-- What goes on beside accepting leaves it alone, but for the call that starts it. -/
structure Bystands (ch ch' : Channel) : Prop where
  slot : ch'.slot = ch.slot
  accepted : ch'.accepted = ch.accepted
  acceptor : ch'.acceptor = ch.acceptor ∨ ch.acceptor = .absent ∧ ch'.acceptor = .waiting
  backlog : ∀ l ∈ ch'.backlog, l ∈ ch.backlog ∨ l = ch.links.length

theorem WiringMove.bystands {v v' : Wiring} (m : WiringMove ch v ch' v') : Bystands ch ch' := by
  cases m <;> exact ⟨rfl, rfl, .inl rfl, fun _ => .inl⟩

theorem Move.bystands (m : Move ch a ch') (hc : ch.Accepts) (ha : a ≠ .task .acceptor) :
    Bystands ch ch' := by
  cases m with
  | acceptor => exact (ha rfl).elim
  | verifier m =>
    cases m with
    | wire _ m | wired _ m => exact ⟨m.bystands.slot, m.bystands.accepted, m.bystands.acceptor,
        m.bystands.backlog⟩
    | _ => exact ⟨rfl, rfl, .inl rfl, fun _ => .inl⟩
  | consumer m => cases m <;> exact ⟨rfl, rfl, .inl rfl, fun _ => .inl⟩
  | producer m => cases m <;> exact ⟨rfl, rfl, .inl rfl, fun _ => .inl⟩
  | relay m => cases m <;> exact ⟨rfl, rfl, .inl rfl, fun _ => .inl⟩
  | call hi m =>
    cases m with
    | spawnAcceptor =>
      exact ⟨rfl, rfl, .inr ⟨Channel.acceptor_absent hi rfl hc.hands, rfl⟩, fun _ => .inl⟩
    | releaseListener => exact ⟨rfl, rfl, .inl rfl, nofun⟩
    | wire m | wired m => exact ⟨m.bystands.slot, m.bystands.accepted, m.bystands.acceptor,
        m.bystands.backlog⟩
    | _ => exact ⟨rfl, rfl, .inl rfl, fun _ => .inl⟩
  | join =>
    refine ⟨rfl, rfl, .inl rfl, fun l hl => ?_⟩
    simpa using hl
  | _ => exact ⟨rfl, rfl, .inl rfl, fun _ => .inl⟩

theorem Bystands.stage (b : Bystands ch ch')
    (h : Stage w e ch.acceptor ch.slot ch.accepted n) :
    Stage w e ch'.acceptor ch'.slot ch'.accepted n := by
  rw [b.slot, b.accepted]
  rcases b.acceptor with ha | ⟨ha, ha'⟩
  · rwa [ha]
  · rw [ha] at h
    rw [ha']
    exact h.idle_move rfl rfl

theorem Bystands.announced (b : Bystands ch ch') : ch'.announced? = ch.announced? := by
  rw [announced?, announced?, b.accepted]
  rcases b.acceptor with ha | ⟨ha, ha'⟩
  · rw [ha]
  · rw [ha, ha']

/-- The state is only ever moved on. -/
theorem WiringMove.advances {v v' : Wiring} (m : WiringMove ch v ch' v') :
    ch'.state = ch.state ∨ ∃ next, ch'.state = ch.state.advance next := by
  cases m with
  | fail | announce => exact .inr ⟨_, rfl⟩
  | _ => exact .inl rfl

theorem Move.advances (m : Move ch a ch') :
    ch'.state = ch.state ∨ ∃ next, ch'.state = ch.state.advance next := by
  cases m with
  | acceptor m =>
    cases m with
    | accept | fail => exact .inr ⟨_, rfl⟩
    | _ => exact .inl rfl
  | verifier m =>
    cases m with
    | begin | judge => exact .inr ⟨_, rfl⟩
    | wire _ m | wired _ m => exact m.advances
    | _ => exact .inl rfl
  | consumer m => cases m <;> exact .inl rfl
  | producer m => cases m <;> exact .inl rfl
  | relay m => cases m <;> exact .inl rfl
  | call _ m =>
    cases m with
    | announceAccepting | announceClosed => exact .inr ⟨_, rfl⟩
    | wire m | wired m => exact m.advances
    | _ => exact .inl rfl
  | _ => exact .inl rfl

theorem Move.isTerminal (m : Move ch a ch') (h : ch.state.isTerminal = true) :
    ch'.state.isTerminal = true := by
  rcases m.advances with hs | ⟨next, hs⟩
  · rwa [hs]
  · rw [hs]
    exact (Lifecycle.Precedes.advance_of_isTerminal h next).2

/-! ## Verification -/

theorem VerifierMove.recorded (m : VerifierMove ch ch') :
    ch'.verifier.isRecorded.toNat =
      ch.verifier.isRecorded.toNat + ch.handsOutcomeOn.toNat := by
  unfold handsOutcomeOn
  cases m with
  | begin hv | blind hv | read hv | complete hv | ended hv | broke hv | judge hv | publish hv
  | record hv | opens hv | arrives hv | surplus hv | wire hv | wired hv => rw [hv]; rfl

theorem idle_of_verifierStep (h : ch.verifierStep = none) : ch.handsOutcomeOn = false := by
  unfold verifierStep at h
  unfold handsOutcomeOn
  cases hv : ch.verifier <;> simp_all

/-- Nothing but verification itself records its outcome. -/
theorem Move.recorded (m : Move ch a ch') (hc : ch.Accepts) (ha : a ≠ .task .verifier) :
    ch'.verifier.isRecorded = ch.verifier.isRecorded := by
  cases m with
  | acceptor m =>
    cases m with
    | verify hv | verifyBlind hv =>
      have hclaim := hc.claim
      rw [hv] at hclaim
      rw [hclaim.verify.2.2]
      rfl
    | _ => rfl
  | verifier => exact (ha rfl).elim
  | consumer m => cases m <;> rfl
  | producer m => cases m <;> rfl
  | relay m => cases m <;> rfl
  | call _ m => exact congrArg Verifier.isRecorded m.outcome_eq.1
  | _ => rfl

end Channel

end WorkerLink
