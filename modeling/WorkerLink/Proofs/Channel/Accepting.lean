import WorkerLink.Proofs.Channel.Moves
import WorkerLink.Proofs.Lists

/-!
# Who accepts connections, and which

Accepting is started at most once, since the right to it is in one place at a time
(`Accepts.hands`). Connections are kept in the order in which they came: the one in the worker slot,
then the one that was taken from the backlog, then the backlog (`Accepts.order`). How far accepting
has come fixes whether the slot is claimed and whether verification was started (`Claim`).
-/

namespace WorkerLink

/-- Whether a call holds the listening socket to start accepting. -/
def Call.isConnecting : Call → Bool
  | .connectAnnounce | .connectSpawn => true
  | _ => false

/-- Whether a call is at a point that it reaches only in a channel that was closed. -/
def Call.isClosing : Call → Bool
  | .close _ .start => false
  | .close .. | .wire .abort => true
  | _ => false

/-- The connection that was accepted and is not in the worker slot yet. -/
def Acceptor.taken? : Acceptor → Option LinkId
  | .taken l => some l
  | _ => none

/-- Whether no connection is on its way from the worker slot to verification. -/
def Acceptor.isFree : Acceptor → Bool
  | .claimed _ | .announcing _ | .verifying _ => false
  | _ => true

/-- Whether accepting has not come to a failure. -/
def Acceptor.isSound : Acceptor → Bool
  | .absent | .failing _ | .reporting _ => false
  | _ => true

/-- What the point that accepting has reached says about the worker slot, whether verification can
still be started, and verification. -/
inductive Claim : Acceptor → Option LinkId → Bool → Verifier → Prop where
  | unclaimed {a : Acceptor} (ha : a.isFree = true) : Claim a none true .absent
  | claimed {l : LinkId} : Claim (.claimed l) (some l) true .absent
  | announcing {l : LinkId} : Claim (.announcing l) (some l) false .absent
  | verifying {l : LinkId} : Claim (.verifying l) (some l) false .absent
  | started {a : Acceptor} {l : LinkId} {v : Verifier} (ha : a.isFree = true)
      (hs : a.isSound = true) (hv : v ≠ .absent) : Claim a (some l) false v

namespace Claim

variable {a b : Acceptor} {s : Option LinkId} {u : Bool} {v w : Verifier} {l : LinkId}

theorem move (h : Claim a s u v) (ha : a.isFree = true) (hb : b.isFree = true)
    (hs : b.isSound = true) : Claim b s u v := by
  cases h with
  | unclaimed => exact .unclaimed hb
  | started _ _ hv => exact .started hb hs hv
  | claimed | announcing | verifying => cases ha

theorem fail (h : Claim a s u v) (ha : a.isFree = true) (hu : u = true) (hb : b.isFree = true) :
    Claim b s u v := by
  subst hu
  cases h with
  | unclaimed => exact .unclaimed hb
  | claimed => cases ha

theorem still_failed (h : Claim a s u v) (ha : a.isFree = true) (hs : a.isSound = false)
    (hb : b.isFree = true) : Claim b s u v := by
  cases h with
  | unclaimed => exact .unclaimed hb
  | started _ hs' => rw [hs] at hs'; cases hs'
  | claimed | announcing | verifying => cases ha

theorem unclaimed_of_failed (h : Claim a s u v) (ha : a.isFree = true) (hs : a.isSound = false) :
    u = true ∧ v = .absent := by
  cases h with
  | unclaimed => exact ⟨rfl, rfl⟩
  | started _ hs' => rw [hs] at hs'; cases hs'
  | claimed | announcing | verifying => cases ha

theorem unclaimed_of_absent (h : Claim a s u .absent) (ha : a.isFree = true) :
    s = none ∧ u = true := by
  cases h with
  | unclaimed => exact ⟨rfl, rfl⟩
  | started _ _ hv => exact (hv rfl).elim
  | claimed | announcing | verifying => cases ha

theorem of_started (h : Claim a s u v) (hv : v ≠ .absent) :
    a.isFree = true ∧ a.isSound = true ∧ u = false := by
  cases h with
  | started ha hs => exact ⟨ha, hs, rfl⟩
  | unclaimed | claimed | announcing | verifying => exact (hv rfl).elim

theorem claim (h : Claim a none u v) : Claim (.claimed l) (some l) u v := by
  cases h with
  | unclaimed => exact .claimed

theorem accept (h : Claim (.claimed l) s u v) : s = some l ∧ u = true ∧ v = .absent := by
  cases h with
  | unclaimed ha | started ha => cases ha
  | claimed => exact ⟨rfl, rfl, rfl⟩

theorem announce (h : Claim (.announcing l) s u v) : s = some l ∧ u = false ∧ v = .absent := by
  cases h with
  | unclaimed ha | started ha => cases ha
  | announcing => exact ⟨rfl, rfl, rfl⟩

theorem verify (h : Claim (.verifying l) s u v) : s = some l ∧ u = false ∧ v = .absent := by
  cases h with
  | unclaimed ha | started ha => cases ha
  | verifying => exact ⟨rfl, rfl, rfl⟩

theorem verifier (h : Claim a s u v) (hv : v ≠ .absent) (hw : w ≠ .absent) : Claim a s u w := by
  cases h with
  | started ha hs => exact .started ha hs hw
  | unclaimed | claimed | announcing | verifying => exact (hv rfl).elim

theorem isSome (h : Claim a s u v) (hv : v ≠ .absent) : ∃ l, s = some l := by
  cases h with
  | started => exact ⟨_, rfl⟩
  | unclaimed | claimed | announcing | verifying => exact (hv rfl).elim

theorem of_none (h : Claim a none u v) : v = .absent := by
  cases h with
  | unclaimed => rfl

theorem absent (h : Claim .absent s u v) : s = none ∧ u = true ∧ v = .absent := by
  cases h with
  | unclaimed => exact ⟨rfl, rfl, rfl⟩
  | started _ hs => cases hs

end Claim

namespace Channel

variable {ch ch' : Channel} {a : Action}

/-- In how many places the right to accept connections is. -/
def hands (ch : Channel) : Nat :=
  ch.calls.countP Call.isConnecting + (decide (ch.listener = .owner)).toNat +
    (decide (ch.acceptor ≠ .absent)).toNat

/-- The connections that were not turned away, in the order in which they are accepted. -/
def arrivals (ch : Channel) : List LinkId :=
  ch.slot.toList ++ ch.acceptor.taken?.toList ++ ch.backlog

/-- What holds of accepting connections whenever it is looked at. -/
structure Accepts (ch : Channel) : Prop where
  hands : ch.hands ≤ 1
  claim : Claim ch.acceptor ch.slot ch.unverified ch.verifier
  order : ch.arrivals.Pairwise (· < ·)
  known : ∀ l ∈ ch.arrivals, l < ch.links.length

/-- Whoever accepts connections has the listening socket from the owner. -/
theorem Accepts.listener_ne_owner (h : ch.Accepts) (ha : ch.acceptor ≠ .absent) :
    ch.listener ≠ .owner := by
  intro ho
  have hh := h.hands
  simp [Channel.hands, ha, ho] at hh

/-! ## The right to accept -/

theorem AcceptorMove.ne_absent (m : AcceptorMove ch ch') :
    ch.acceptor ≠ .absent ∧ ch'.acceptor ≠ .absent ∧ ch'.calls = ch.calls ∧
      (ch'.listener = ch.listener ∨ ch'.listener = .nobody) := by
  cases m <;> simp_all [openDescriptor, advance, error]

theorem WiringMove.accepting {w w' : Wiring} (m : WiringMove ch w ch' w') :
    ch'.acceptor = ch.acceptor ∧ ch'.listener = ch.listener ∧ ch'.calls = ch.calls ∧
      ch'.slot = ch.slot ∧ ch'.unverified = ch.unverified ∧ ch'.backlog = ch.backlog ∧
      ch'.links = ch.links ∧ ch'.verifier = ch.verifier := by
  cases m <;> exact ⟨rfl, rfl, rfl, rfl, rfl, rfl, rfl, rfl⟩

/-- A call that is about to start accepting finds that nobody accepts. -/
theorem acceptor_absent {i : Nat} {c : Call} (hi : ch.calls[i]? = some c)
    (hc : c.isConnecting = true) (h : ch.hands ≤ 1) : ch.acceptor = .absent := by
  have hp : 0 < ch.calls.countP Call.isConnecting := countP_pos _ hi hc
  by_cases ha : ch.acceptor = .absent
  · exact ha
  · simp only [Channel.hands, ne_eq, ha, not_false_eq_true, decide_true, Bool.toNat_true] at h
    omega

/-- A call hands the right to accept on, unless it gives it up by closing the channel. -/
theorem CallMove.hands_cases {i : Nat} {c c' : Call} (m : CallMove ch c ch' c')
    (hi : ch.calls[i]? = some c) (h : ch.hands ≤ 1) :
    c'.isConnecting.toNat + (decide (ch'.listener = .owner)).toNat +
        (decide (ch'.acceptor ≠ .absent)).toNat =
      c.isConnecting.toNat + (decide (ch.listener = .owner)).toNat +
        (decide (ch.acceptor ≠ .absent)).toNat ∨
    c.isClosing = true ∧ ch'.listener = .nobody ∧ ch'.acceptor = ch.acceptor ∧
      c'.isConnecting = false := by
  cases m with
  | takeListener hl => simp [Call.isConnecting, hl]
  | spawnAcceptor =>
    simp [Call.isConnecting, acceptor_absent hi rfl h]
    omega
  | releaseListener hl => exact .inr ⟨rfl, rfl, rfl, rfl⟩
  | wire m | wired m =>
    obtain ⟨ha, hl, -⟩ := m.accepting
    simp [ha, hl, Call.isConnecting]
  | _ => exact .inl rfl

theorem CallMove.calls_eq {c c' : Call} (m : CallMove ch c ch' c') : ch'.calls = ch.calls := by
  cases m with
  | wire m | wired m => exact m.accepting.2.2.1
  | _ => rfl

theorem CallMove.slot_eq {c c' : Call} (m : CallMove ch c ch' c') : ch'.slot = ch.slot := by
  cases m with
  | wire m | wired m => exact m.accepting.2.2.2.1
  | _ => rfl

/-- Nothing that happens multiplies the right to accept, and only closing the channel takes it
away. -/
theorem Move.hands_cases (m : Move ch a ch') (h : ch.hands ≤ 1) :
    ch'.hands = ch.hands ∨ (∃ c ∈ ch.calls, c.isClosing = true) ∧ ch'.listener = .nobody ∧
      ch'.hands ≤ ch.hands := by
  cases m with
  | acceptor m =>
    obtain ⟨ha, ha', hc, hl⟩ := m.ne_absent
    have owner : ch.listener ≠ .owner := by
      intro ho
      simp [Channel.hands, ha, ho] at h
    have owner' : ch'.listener ≠ .owner := by
      rcases hl with hl | hl <;> simp [hl, owner]
    simp [Channel.hands, ha, ha', hc, owner, owner']
  | verifier m =>
    cases m with
    | wire _ m | wired _ m =>
      obtain ⟨ha, hl, hc, -⟩ := m.accepting
      simp [Channel.hands, ha, hl, hc]
    | _ => exact .inl rfl
  | consumer m => cases m <;> exact .inl rfl
  | producer m => cases m <;> exact .inl rfl
  | relay m => cases m <;> exact .inl rfl
  | begin =>
    rename_i r _
    have hr : r.call.isConnecting = false := by cases r <;> rfl
    simp [Channel.hands, hr]
  | call hi m =>
    rename_i i c c' ch'
    have hs := countP_set_add Call.isConnecting hi c'
    rcases m.hands_cases hi h with hm | ⟨hc, hl, ha, hc'⟩
    · left
      simp only [Channel.hands, m.calls_eq] at hm ⊢
      omega
    · refine .inr ⟨⟨c, List.mem_of_getElem? hi, hc⟩, hl, ?_⟩
      rw [hc'] at hs
      simp only [Channel.hands, m.calls_eq, hl, ha, Bool.toNat_false] at hs ⊢
      simp
      omega
  | _ => exact .inl rfl

/-! ## Claiming the worker slot -/

theorem AcceptorMove.keeps_claim (m : AcceptorMove ch ch')
    (h : Claim ch.acceptor ch.slot ch.unverified ch.verifier) :
    Claim ch'.acceptor ch'.slot ch'.unverified ch'.verifier := by
  cases m with
  | abort ha | wake ha | wait ha | take ha | giveUp ha | turnAway ha =>
    exact h.move (by rw [ha]; rfl) rfl rfl
  | refuse ha _ hu => exact h.fail (by rw [ha]; rfl) hu rfl
  | claim ha hs =>
    rw [hs] at h
    exact h.claim
  | accept ha | skip ha =>
    rw [ha] at h
    obtain ⟨hs, hu, hv⟩ := h.accept
    simp_all [advance, Claim.announcing]
  | announce ha =>
    rw [ha] at h
    obtain ⟨hs, hu, hv⟩ := h.announce
    simp_all [Claim.verifying]
  | verify ha | verifyBlind ha =>
    rw [ha] at h
    obtain ⟨hs, hu, hv⟩ := h.verify
    simp only [openDescriptor, hs, hu]
    exact .started rfl rfl nofun
  | fail ha => exact h.still_failed (by rw [ha]; rfl) (by rw [ha]; rfl) rfl
  | report ha => exact h.still_failed (by rw [ha]; rfl) (by rw [ha]; rfl) rfl

theorem VerifierMove.ne_absent (m : VerifierMove ch ch') :
    ch.verifier ≠ .absent ∧ ch'.verifier ≠ .absent := by
  cases m <;> simp_all

theorem VerifierMove.accepting (m : VerifierMove ch ch') :
    ch'.acceptor = ch.acceptor ∧ ch'.slot = ch.slot ∧ ch'.unverified = ch.unverified ∧
      ch'.backlog = ch.backlog ∧ ch'.links.length = ch.links.length := by
  cases m with
  | wire _ m | wired _ m =>
    obtain ⟨ha, -, -, hs, hu, hb, hl, -⟩ := m.accepting
    exact ⟨ha, hs, hu, hb, by rw [← hl]⟩
  | read | complete | ended | broke => exact ⟨rfl, rfl, rfl, rfl, length_onLink ..⟩
  | _ => exact ⟨rfl, rfl, rfl, rfl, rfl⟩

theorem VerifierMove.keeps_claim (m : VerifierMove ch ch')
    (h : Claim ch.acceptor ch.slot ch.unverified ch.verifier) :
    Claim ch'.acceptor ch'.slot ch'.unverified ch'.verifier := by
  obtain ⟨ha, hs, hu, -⟩ := m.accepting
  rw [ha, hs, hu]
  exact h.verifier m.ne_absent.1 m.ne_absent.2

/-! ## The order of connections -/

/-- Accepting takes connections from the front, and may turn some of them away. -/
theorem AcceptorMove.arrivals (m : AcceptorMove ch ch') :
    ch'.arrivals.Sublist ch.arrivals ∧ ch'.links.length = ch.links.length := by
  cases m with
  | abort ha | giveUp ha | report ha =>
    refine ⟨?_, length_released ..⟩
    simp [Channel.arrivals, ha, Acceptor.taken?]
  | turnAway ha =>
    refine ⟨?_, length_onLink ..⟩
    simp [Channel.arrivals, ha, Acceptor.taken?]
  | take ha hb => exact ⟨by simp [Channel.arrivals, ha, hb, Acceptor.taken?, openDescriptor], rfl⟩
  | claim ha hs => exact ⟨by simp [Channel.arrivals, ha, hs, Acceptor.taken?], rfl⟩
  | accept ha | announce ha | verify ha | verifyBlind ha | skip ha | wake ha | wait ha | refuse ha
  | fail ha =>
    exact ⟨by simp [Channel.arrivals, ha, Acceptor.taken?, openDescriptor, advance, error], rfl⟩

theorem CallMove.accepting {i : Nat} {c c' : Call} (m : CallMove ch c ch' c')
    (hi : ch.calls[i]? = some c) (h : ch.Accepts) :
    Claim ch'.acceptor ch'.slot ch'.unverified ch'.verifier ∧ ch'.arrivals.Sublist ch.arrivals ∧
      ch'.links.length = ch.links.length := by
  cases m with
  | spawnAcceptor =>
    have ha := acceptor_absent hi rfl h.hands
    exact ⟨h.claim.move (by rw [ha]; rfl) rfl rfl, by simp [Channel.arrivals, ha, Acceptor.taken?],
      rfl⟩
  | shutWorker => exact ⟨h.claim, .refl _, length_onLink ..⟩
  | releaseListener =>
    exact ⟨h.claim, by simp [Channel.arrivals], length_released ..⟩
  | wire m | wired m =>
    obtain ⟨ha, -, -, hs, hu, hb, hl, hv⟩ := m.accepting
    refine ⟨by rw [ha, hs, hu, hv]; exact h.claim, ?_, by rw [hl]⟩
    rw [Channel.arrivals, ha, hs, hb]
    exact .refl _
  | _ => exact ⟨h.claim, .refl _, rfl⟩

/-- Nothing but a client that connects adds a connection. -/
theorem Move.accepting (m : Move ch a ch') (h : ch.Accepts) :
    Claim ch'.acceptor ch'.slot ch'.unverified ch'.verifier ∧
      ((ch'.arrivals.Sublist ch.arrivals ∧ ch'.links.length = ch.links.length) ∨
        (ch'.arrivals = ch.arrivals ++ [ch.links.length] ∧
          ch'.links.length = ch.links.length + 1 ∧ ch.listener ≠ .nobody)) := by
  cases m with
  | acceptor m => exact ⟨m.keeps_claim h.claim, .inl m.arrivals⟩
  | verifier m =>
    obtain ⟨ha, hs, -, hb, hl⟩ := m.accepting
    refine ⟨m.keeps_claim h.claim, .inl ⟨?_, hl⟩⟩
    rw [Channel.arrivals, ha, hs, hb]
    exact .refl _
  | consumer m =>
    cases m with
    | halt => exact ⟨h.claim, .inl ⟨.refl _, rfl⟩⟩
    | _ => exact ⟨h.claim, .inl ⟨.refl _, length_onLink ..⟩⟩
  | producer m =>
    cases m with
    | sent => exact ⟨h.claim, .inl ⟨.refl _, length_onLink ..⟩⟩
    | _ => exact ⟨h.claim, .inl ⟨.refl _, rfl⟩⟩
  | relay m => cases m <;> exact ⟨h.claim, .inl ⟨.refl _, rfl⟩⟩
  | reclaimer => exact ⟨h.claim, .inl ⟨.refl _, by cases ch.slot <;> simp⟩⟩
  | call hi m => exact ⟨(m.accepting hi h).1, .inl (m.accepting hi h).2⟩
  | join hl => exact ⟨h.claim, .inr ⟨by simp [Channel.arrivals], by simp, hl⟩⟩
  | client => exact ⟨h.claim, .inl ⟨.refl _, length_onLink ..⟩⟩
  | _ => exact ⟨h.claim, .inl ⟨.refl _, rfl⟩⟩

namespace Accepts

theorem keeps (h : ch.Accepts) (m : Move ch a ch') : ch'.Accepts := by
  obtain ⟨hc, ha⟩ := m.accepting h
  have hh : ch'.hands ≤ ch.hands := (m.hands_cases h.hands).elim Nat.le_of_eq fun h => h.2.2
  refine ⟨Nat.le_trans hh h.hands, hc, ?_, ?_⟩
  · rcases ha with ⟨ha, -⟩ | ⟨ha, -⟩
    · exact h.order.sublist ha
    · rw [ha, List.pairwise_append]
      exact ⟨h.order, List.pairwise_singleton .., by simpa using h.known⟩
  · intro l hm
    rcases ha with ⟨ha, hl⟩ | ⟨ha, hl, -⟩
    · exact hl ▸ h.known l (ha.subset hm)
    · rw [ha, List.mem_append, List.mem_singleton] at hm
      rw [hl]
      rcases hm with hm | rfl
      · exact Nat.lt_succ_of_lt (h.known l hm)
      · exact Nat.lt_succ_self _

theorem nodup (h : ch.Accepts) : ch.arrivals.Nodup := h.order.imp (fun hlt => Nat.ne_of_lt hlt)

theorem slot_lt (h : ch.Accepts) {l : LinkId} (hs : ch.slot = some l) : l < ch.links.length :=
  h.known l (by simp [arrivals, hs])

end Accepts

end Channel

end WorkerLink
