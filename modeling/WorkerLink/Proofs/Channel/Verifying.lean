import WorkerLink.Proofs.Channel.Opening
import WorkerLink.Proofs.Channel.Outcome
import WorkerLink.Proofs.Channel.Shutdown

/-!
# What verification comes to

Verification of a connection that could be opened for it comes to what the first bytes of the client
and the end of its stream amount to (`ComesTo`), however the client has cut its bytes into chunks. A
token that looks like the right one is the right one. What stands behind the token is left for the
event consumer.
-/

namespace WorkerLink

/-- The record about a connection that could not be opened for verification. -/
def blindRecord : LogRecord := .error "Failed to open worker socket for verification"

/-- What verification comes to that is sent the bytes `b`, by whether the stream has come to an end
behind them. -/
structure ComesTo (id : SessionId) (b : Bytes) (ended : Prop) (o : Option Authentication) :
    Prop where
  verified : o = some .verified ↔ id.length ≤ b.length ∧ b.take id.length = id.bytes
  mismatch : ∀ expected actual, o = some (.mismatch expected actual) ↔
    (id.length ≤ b.length ∧ b.take id.length ≠ id.bytes) ∧
      expected = id.text ∧ actual = String.ofList (Utf8.lossy (b.take id.length))
  differs : ∀ expected actual, o = some (.mismatch expected actual) → expected ≠ actual
  closedEarly : o = some .closedEarly ↔ b.length < id.length ∧ ended
  pending : o = none ↔ b.length < id.length ∧ ¬ended

/-- A token that is not the right one never looks like it. -/
theorem Authentication.ofToken_cases (id : SessionId) (b : Bytes) :
    (b = id.bytes ∧ ofToken id b = .verified) ∨
    (b ≠ id.bytes ∧ ofToken id b = .mismatch id.text (String.ofList (Utf8.lossy b)) ∧
      id.text ≠ String.ofList (Utf8.lossy b)) := by
  rw [ofToken]
  split
  · next h => exact .inl ⟨h, rfl⟩
  · next h => exact .inr ⟨h, rfl, fun he => h (SessionId.eq_bytes_of_lossy he.symm)⟩

theorem comesTo_ofStream (id : SessionId) (b : Bytes) (ended : Bool) :
    ComesTo id b (ended = true) (Authentication.ofStream id b ended) := by
  unfold Authentication.ofStream
  by_cases hn : id.length ≤ b.length
  · rw [if_pos hn]
    have hlt : ¬b.length < id.length := Nat.not_lt.2 hn
    rcases Authentication.ofToken_cases id (b.take id.length) with ⟨hb, ho⟩ | ⟨hb, ho, hne⟩
    · rw [ho]
      exact ⟨⟨fun _ => ⟨hn, hb⟩, fun _ => rfl⟩, fun _ _ => ⟨nofun, fun h => (h.1.2 hb).elim⟩, nofun,
        ⟨nofun, fun h => (hlt h.1).elim⟩, ⟨nofun, fun h => (hlt h.1).elim⟩⟩
    · rw [ho]
      refine ⟨⟨nofun, fun h => (hb h.2).elim⟩, fun expected actual => ⟨fun h => ?_, ?_⟩,
        fun expected actual h => ?_, ⟨nofun, fun h => (hlt h.1).elim⟩,
        ⟨nofun, fun h => (hlt h.1).elim⟩⟩
      · cases h
        exact ⟨⟨hn, hb⟩, rfl, rfl⟩
      · rintro ⟨-, rfl, rfl⟩
        rfl
      · cases h
        exact hne
  · rw [if_neg hn]
    have hlt : b.length < id.length := Nat.lt_of_not_le hn
    cases ended with
    | true =>
      exact ⟨⟨nofun, fun h => (hn h.1).elim⟩, fun _ _ => ⟨nofun, fun h => (hn h.1.1).elim⟩, nofun,
        ⟨fun _ => ⟨hlt, rfl⟩, fun _ => rfl⟩, ⟨nofun, fun h => (h.2 rfl).elim⟩⟩
    | false =>
      exact ⟨⟨nofun, fun h => (hn h.1).elim⟩, fun _ _ => ⟨nofun, fun h => (hn h.1.1).elim⟩, nofun,
        ⟨nofun, fun h => nomatch h.2⟩, ⟨fun _ => ⟨hlt, nofun⟩, fun _ => rfl⟩⟩

namespace Channel

variable {ch ch' : Channel} {a : Action} {k l : LinkId} {w w' : Wiring} {o : Authentication}

/-! ## What a client gets through -/

/-- The bytes that an action adds to what a client has sent. -/
def delivered (ch : Channel) (l : LinkId) : Action → Bytes
  | .send k b =>
    if k = l ∧ l < ch.links.length ∧ (ch.link l).inbound.isWritable = true then b else []
  | _ => []

/-- All bytes that a client gets through in a run, whatever chunks it sends them in. -/
def gotThrough (ch : Channel) (l : LinkId) : List Action → Bytes
  | [] => []
  | a :: as => ch.delivered l a ++ (ch.step a).gotThrough l as

theorem written_clientSend (x : Link) (b : Bytes) :
    (clientSend x b).inbound.written =
      x.inbound.written ++ if x.inbound.isWritable = true then b else [] := by
  unfold clientSend
  split
  · next s hs =>
    rw [if_pos (Stream.write_inv hs).1]
    exact Stream.written_write hs
  · next e hs => rw [Stream.write_error_inv hs, if_neg nofun, List.append_nil]

theorem LinkMove.written_eq (m : LinkMove ch a ch' k) (ha : ∀ b, a ≠ .send k b) :
    (ch'.link k).inbound.written = (ch.link k).inbound.written := by
  cases m with
  | same he => rw [he]
  | client hf he =>
    rw [he]
    cases a with
    | send l b =>
      cases hf
      exact (ha b rfl).elim
    | finish | leave | reset =>
      cases hf
      exact Stream.written_finish _
    | fetch =>
      cases hf
      rfl
    | _ => cases hf
  | turnedAway _ he | reclaimed _ _ he | shutDown _ _ _ he =>
    rw [he]
    rfl
  | read _ _ hr he =>
    rw [he]
    rcases hr with rfl | ⟨limit, rfl⟩
    · rfl
    · exact Stream.written_receive ..
  | written _ _ _ he => rw [he]

theorem Accepts.step_written (h : ch.Accepts) (a : Action) (l : LinkId) :
    ((ch.step a).link l).inbound.written =
      (ch.link l).inbound.written ++ ch.delivered l a := by
  by_cases ha : ∃ b, a = .send l b
  · obtain ⟨b, rfl⟩ := ha
    change ((ch.onLink l (clientSend · b)).link l).inbound.written = _
    rw [link_onLink, delivered]
    by_cases hl : l < ch.links.length
    · simp only [hl, and_self, true_and, if_true]
      exact written_clientSend ..
    · simp only [hl, and_false, false_and, if_false, List.append_nil]
  · have hdel : ch.delivered l a = [] := by
      cases a with
      | send k b => exact if_neg fun hk => ha ⟨b, by rw [hk.1]⟩
      | _ => rfl
    rw [hdel, List.append_nil]
    rcases ch.step_cases a with he | m
    · rw [he]
    · exact (m.link h l).written_eq fun b hb => ha ⟨b, hb⟩

theorem Inv.run_written (h : ch.Inv) (as : List Action) (l : LinkId) :
    ((ch.run as).link l).inbound.written = (ch.link l).inbound.written ++ ch.gotThrough l as := by
  induction as generalizing ch with
  | nil => exact (List.append_nil _).symm
  | cons a as ih =>
    have hrun : ch.run (a :: as) = (ch.step a).run as := rfl
    have h' : (ch.step a).Inv := h.run [a]
    rw [hrun, ih h', h.accepts.step_written, gotThrough, List.append_assoc]

/-! ## Verification alone moves itself -/

theorem Move.verifierMove (m : Move ch a ch') (ha : a.isVerifying = true) :
    VerifierMove ch ch' := by
  obtain rfl : a = .task .verifier := by
    cases a with
    | task x => cases x <;> first | rfl | cases ha
    | _ => cases ha
  cases m with
  | verifier m => exact m
  | client hc => cases hc

/-- Once verification was started, nobody but itself changes how far it has come. -/
theorem Move.verifier_of_started (m : Move ch a ch') (h : ch.Accepts) (hv : ch.verifier ≠ .absent)
    (ha : a.isVerifying = false) : ch'.verifier = ch.verifier := by
  refine m.verifier_eq (fun l hx => ?_) ha
  have hclaim := h.claim
  rw [hx] at hclaim
  exact hv hclaim.verify.2.2

theorem Move.started (m : Move ch a ch') (h : ch.Accepts) (hv : ch.verifier ≠ .absent) :
    ch'.verifier ≠ .absent := by
  cases ha : a.isVerifying with
  | true => exact (m.verifierMove ha).ne_absent.2
  | false => rwa [m.verifier_of_started h hv ha]

/-- The worker stays in the slot, and verification stays started. -/
theorem Inv.run_started (h : ch.Inv) (hs : ch.slot = some l) (hv : ch.verifier ≠ .absent)
    (as : List Action) : (ch.run as).slot = some l ∧ (ch.run as).verifier ≠ .absent :=
  (run_keeps (P := fun ch => ch.Inv ∧ ch.slot = some l ∧ ch.verifier ≠ .absent)
    (fun h m => ⟨h.1.keeps m, m.slot_eq h.2.1, m.started h.1.accepts h.2.2⟩) ⟨h, hs, hv⟩ as).2

/-! ## A connection that could not be opened -/

theorem WiringMove.blind_of_log (m : WiringMove ch w ch' w') (h : blindRecord ∈ ch'.log) :
    blindRecord ∈ ch.log := by
  cases m with
  | unverified | incomplete | unconnected =>
    exact (mem_concat_cases h).resolve_right (by decide)
  | _ => exact h

/-- Only verification that starts without a handle records that it could not open the connection. -/
theorem Move.blind_cases (m : Move ch a ch') (h : blindRecord ∈ ch'.log) :
    blindRecord ∈ ch.log ∨ ch'.verifier = .judged .closedEarly := by
  have old {r : LogRecord} (hr : blindRecord ≠ r) (h : blindRecord ∈ ch.log ++ [r]) :
      blindRecord ∈ ch.log ∨ ch'.verifier = .judged .closedEarly :=
    .inl ((mem_concat_cases h).resolve_right hr)
  cases m with
  | acceptor m =>
    cases m with
    | refuse | giveUp | turnAway => exact old (by decide) h
    | _ => exact .inl h
  | verifier m =>
    cases m with
    | blind => exact .inr rfl
    | broke | surplus => exact old (by decide) h
    | publish =>
      dsimp only at h
      split at h
      · exact .inl h
      · exact old (by decide) h
    | wire _ m | wired _ m => exact .inl (m.blind_of_log h)
    | _ => exact .inl h
  | consumer m =>
    cases m with
    | failed => exact old (by decide) h
    | _ => exact .inl h
  | producer m =>
    cases m with
    | refused | unwritable => exact old (by decide) h
    | _ => exact .inl h
  | relay m =>
    cases m with
    | read => exact .inl h
    | stop _ _ hm =>
      rcases hm with rfl | rfl
      · exact .inl (by rwa [List.append_nil] at h)
      · exact old (by decide) h
  | call _ m =>
    cases m with
    | surplus => exact old (by decide) h
    | wire m | wired m => exact .inl (m.blind_of_log h)
    | giveBack =>
      dsimp only at h
      split at h
      · exact old (by decide) h
      · exact .inl h
    | _ => exact .inl h
  | _ => exact .inl h

/-- A connection that could not be opened counts as one that is closed. -/
def Blinded (ch : Channel) : Prop :=
  blindRecord ∈ ch.log →
    ch.verifier = .judged .closedEarly ∨ ch.verifier = .publishing .closedEarly ∨
      ch.verified = some .closedEarly

theorem Blinded.keeps (h : ch.Blinded) (hi : ch.Inv) (m : Move ch a ch') : ch'.Blinded := by
  intro hr
  rcases m.blind_cases hr with hr | hv
  · rcases h hr with hv | hv | ho
    · cases ha : a.isVerifying with
      | false => exact .inl ((m.verifier_of_started hi.accepts (by simp [hv]) ha).trans hv)
      | true =>
        cases m.verifierMove ha with
        | judge hj =>
          rw [hv] at hj
          cases hj
          exact .inr (.inl rfl)
        | _ => simp_all
    · cases ha : a.isVerifying with
      | false => exact .inr (.inl ((m.verifier_of_started hi.accepts (by simp [hv]) ha).trans hv))
      | true =>
        cases m.verifierMove ha with
        | publish hp =>
          rw [hv] at hp
          cases hp
          exact .inr (.inr rfl)
        | _ => simp_all
    · exact .inr (.inr (m.verified_eq hi ho))
  · exact .inl hv

/-! ## The outcome -/

theorem Inv.verdict (h : ch.Inv) (hs : ch.slot = some l) (ho : ch.verified = some o) :
    Verdict ch.session ch.log (ch.link l).inbound o := by
  have ht := (h.listens.hears l hs).token
  have hshows := h.gathers.shows
  rw [ho] at hshows
  generalize ch.verifier = v at ht hshows
  generalize ch.authentication = recorded at ht hshows
  cases hshows with
  | recording => exact ht
  | recorded hr => exact ht.verdict hr rfl

/-- Verification that nobody knows the outcome of goes on, unless it reads. -/
theorem Inv.reading_of_pending (h : ch.Inv) (hv : ch.verifier ≠ .absent) (ho : ch.verified = none)
    (hstep : ch.verifierStep = none) : ∃ got, ch.verifier = .reading got := by
  have hshows := h.gathers.shows
  rw [ho] at hshows
  unfold verifierStep at hstep
  generalize ch.verifier = v at hv hshows hstep ⊢
  generalize ch.authentication = recorded at hshows
  cases hshows with
  | pending hp =>
    cases v with
    | absent => exact (hv rfl).elim
    | spawned handle => cases handle <;> cases hstep
    | reading got => exact ⟨got, rfl⟩
    | judged | publishing => cases hstep
    | _ => cases hp

/-- Verification has shown its outcome, or has nothing to do for now. -/
def HasVerified (ch : Channel) : Prop := ch.verified.isSome = true ∨ ch.verifierStep = none

theorem HasVerified.verified_eq (h : ch.HasVerified) (hi : ch.Inv) (hs : ch.slot = some l)
    (hv : ch.verifier ≠ .absent) (hb : blindRecord ∉ ch.log) :
    ch.verified = Authentication.ofStream ch.session (ch.link l).inbound.written
      (!(ch.link l).inbound.isWritable) := by
  cases ho : ch.verified with
  | some o => exact ((hi.verdict hs ho).ofStream_eq hb).symm
  | none =>
    have hstep : ch.verifierStep = none := h.resolve_left (by simp [ho])
    obtain ⟨got, hg⟩ := hi.reading_of_pending hv ho hstep
    exact (hi.ofStream_of_reading hs hg hstep).symm

theorem HasVerified.closedEarly (h : ch.HasVerified) (hi : ch.Inv) (hbl : ch.Blinded)
    (hb : blindRecord ∈ ch.log) : ch.verified = some .closedEarly := by
  have shown (hv : ch.verifier = .judged .closedEarly ∨ ch.verifier = .publishing .closedEarly) :
      ch.verified = some .closedEarly := by
    have hshows := hi.gathers.shows
    rcases h with ho | hstep
    · obtain ⟨o, ho⟩ := Option.isSome_iff_exists.1 ho
      rw [ho] at hshows
      have hp := hshows.not_pending
      rcases hv with hv | hv <;> rw [hv] at hp <;> cases hp
    · rcases hv with hv | hv <;> simp [verifierStep, hv] at hstep
  rcases hbl hb with hv | hv | ho
  · exact shown (.inl hv)
  · exact shown (.inr hv)
  · exact ho

/-! ## Verification comes to an end -/

theorem run_verifier_of_none (h : ch.verifierStep = none) (n : Nat) :
    ch.run (List.replicate n (.task .verifier)) = ch := by
  have hstep : ch.step (.task .verifier) = ch := by simp [step, taskStep, h]
  induction n with
  | zero => rfl
  | succ n ih =>
    have hrun : ch.run (List.replicate (n + 1) (.task .verifier)) =
        (ch.step (.task .verifier)).run (List.replicate n (.task .verifier)) := rfl
    rw [hrun, hstep, ih]

/-- Verification that takes its steps comes to its outcome, unless it has to wait for more bytes. -/
theorem Inv.hasVerified (h : ch.Inv) (hv : ch.verifier ≠ .absent) {n : Nat}
    (hn : ch.verifier.steps ch.session.length ≤ n) :
    (ch.run (List.replicate n (.task .verifier))).HasVerified := by
  induction n generalizing ch with
  | zero => exact .inl (h.verified_of_steps hv (Nat.le_zero.1 hn))
  | succ n ih =>
    cases hstep : ch.verifierStep with
    | none =>
      rw [run_verifier_of_none hstep]
      exact .inr hstep
    | some ch' =>
      have m := verifierStep_move hstep
      have hsession : ch'.session = ch.session :=
        congrArg Descriptor.session (Move.verifier m).fixed.2
      have hsteps := m.steps h
      have hrun : ch.run (List.replicate (n + 1) (.task .verifier)) =
          (ch.step (.task .verifier)).run (List.replicate n (.task .verifier)) := rfl
      have hnext : ch.step (.task .verifier) = ch' := by simp [step, taskStep, hstep]
      rw [hrun, hnext]
      exact ih (h.keeps (.verifier m)) m.ne_absent.2 (by rw [hsession]; omega)

/-! ## What verification leaves behind the token -/

/-- What was read of a connection over which the bytes `b` have come. -/
structure LeavesRest (ch : Channel) (l : LinkId) (b : Bytes) : Prop where
  bytes : (ch.link l).inbound.taken ++ (ch.link l).inbound.unread = b
  /-- Before the event consumer starts no more than the token is taken. -/
  token : ch.consumer.phase = .absent → (ch.link l).inbound.taken.length ≤ ch.session.length
  /-- Once it has started verification takes nothing. -/
  finished : ch.consumer.phase ≠ .absent → (ch.step (.task .verifier)).links = ch.links
  verified : ch.consumer.phase = .absent → ch.verified = some .verified →
    (ch.link l).inbound.taken = ch.session.bytes ∧
      (ch.link l).inbound.unread = b.drop ch.session.length
  events : ch.handled <+: (Decoder.ofBytes (b.drop ch.session.length)).items ch.codec
  allEvents : ch.isSettled = true → ch.closed = false → ch.disabled = false →
    ch.consumer.phase ≠ .absent →
    (Decoder.ofBytes (b.drop ch.session.length)).items ch.codec = ch.handled

/-- Verification that takes bytes does so before the event consumer starts. -/
theorem VerifierMove.links_eq (m : VerifierMove ch ch') (h : ch.Inv)
    (hp : ch.consumer.phase ≠ .absent) : ch'.links = ch.links := by
  cases m with
  | read hv hs | complete hv hs | ended hv hs | broke hv hs =>
    exact (hp (h.listens.reading h.gathers h.accepts hv hs).1).elim
  | wire _ m | wired _ m => exact m.accepting.2.2.2.2.2.2.1
  | _ => rfl

theorem Inv.leavesRest (h : ch.Inv) (hs : ch.slot = some l) :
    ch.LeavesRest l (ch.link l).inbound.written where
  bytes := rfl
  token hp := (events_absent hp).1 (h.listens.hears l hs).events
  finished hp := by
    cases hstep : ch.verifierStep with
    | none => simp [step, taskStep, hstep]
    | some ch' => simpa [step, taskStep, hstep] using (verifierStep_move hstep).links_eq h hp
  verified hp ho := by
    have hle := (events_absent hp).1 (h.listens.hears l hs).events
    obtain ⟨hge, htake⟩ := (h.verdict hs ho).verified
    rw [List.take_of_length_le hle] at htake
    exact ⟨htake, (List.drop_left' (Nat.le_antisymm hle hge)).symm⟩
  events := h.handled_isPrefix hs
  allEvents hset hc hd hp := h.handled_eq hset hc hd hp hs

/-! ## Every run -/

/-- After a run the connection in the worker slot was opened for verification, which has shown its
outcome or has nothing to do for now. -/
structure Verifies (start : Channel) (l : LinkId) (as : List Action) : Prop where
  slot : (start.run as).slot = some l
  started : (start.run as).verifier ≠ .absent
  opened : blindRecord ∉ (start.run as).log
  through : (start.run as).HasVerified

/-- In every run, verification that can read the connection of the worker comes to what the bytes
and the end of the stream amount to, whatever chunks the bytes come in: the right token verifies
the worker, one that differs is shown and never looks like the right one, a stream that ends before
is closed early, and otherwise verification waits. As many steps of its own as the token has
bytes, and three more, bring it that far; a connection that it cannot open counts as closed early.
What has come behind the token is left for the events. -/
theorem verification_comes_to {m : Machine} {faults : Faults} {config : Config} {fresh : SessionId}
    {port : UInt16} {shape : Json.Shape} {start : Channel}
    (hstart : create m faults config fresh port shape = .ok start) :
    (∀ l as, start.Verifies l as →
      ComesTo start.session (start.gotThrough l as)
        (((start.run as).link l).inbound.isWritable = false) (start.run as).verified) ∧
    (∀ l as k bs, start.Verifies l as → start.Verifies k bs →
      start.gotThrough l as = start.gotThrough k bs →
      ((start.run as).link l).inbound.isWritable = ((start.run bs).link k).inbound.isWritable →
      (start.run as).verified = (start.run bs).verified) ∧
    (∀ l as n, (start.run as).slot = some l → (start.run as).verifier ≠ .absent →
      start.session.length + 3 ≤ n →
      let bs := as ++ List.replicate n (.task .verifier)
      start.Verifies l bs ∨
        blindRecord ∈ (start.run bs).log ∧ (start.run bs).verified = some .closedEarly) ∧
    ∀ l as, (start.run as).slot = some l → (start.run as).LeavesRest l (start.gotThrough l as) := by
  have hi := Inv.of_create hstart
  have session (as : List Action) : (start.run as).session = start.session :=
    congrArg Descriptor.session (start.run_fixed as).2
  obtain ⟨hlinks, hlog⟩ : start.links = [] ∧ start.log = [] := by
    obtain ⟨descriptor, codec, rfl⟩ := create_eq hstart
    exact ⟨rfl, rfl⟩
  have written (l : LinkId) (as : List Action) :
      ((start.run as).link l).inbound.written = start.gotThrough l as := by
    rw [hi.run_written as l, link_of_no_links hlinks]
    rfl
  have blinded (as : List Action) : (start.run as).Blinded :=
    (run_keeps (P := fun ch => ch.Inv ∧ ch.Blinded)
      (fun h m => ⟨h.1.keeps m, h.2.keeps h.1 m⟩) ⟨hi, fun hr => by simp [hlog] at hr⟩ as).2
  have outcome {l : LinkId} {as : List Action} (h : start.Verifies l as) :
      (start.run as).verified = Authentication.ofStream start.session (start.gotThrough l as)
        (!((start.run as).link l).inbound.isWritable) := by
    rw [h.through.verified_eq (hi.run as) h.slot h.started h.opened, session, written]
  refine ⟨fun l as h => ?_, fun l as k bs h h' hb hw => ?_, fun l as n hs hv hn => ?_,
    fun l as hs => ?_⟩
  · rw [outcome h]
    simpa only [Bool.not_eq_true'] using
      comesTo_ofStream start.session (start.gotThrough l as)
        (!((start.run as).link l).inbound.isWritable)
  · rw [outcome h, outcome h', hb, hw]
  · intro bs
    have hrun : start.run bs = (start.run as).run (List.replicate n (.task .verifier)) := by
      simp [bs, run]
    have hsteps : (start.run as).verifier.steps (start.run as).session.length ≤ n := by
      refine Nat.le_trans (Verifier.steps_le _ _) ?_
      rwa [session]
    obtain ⟨hslot, hstarted⟩ :=
      (hi.run as).run_started hs hv (List.replicate n (.task .verifier))
    have hthrough := (hi.run as).hasVerified hv hsteps
    rw [← hrun] at hslot hstarted hthrough
    by_cases hb : blindRecord ∈ (start.run bs).log
    · exact .inr ⟨hb, hthrough.closedEarly (hi.run bs) (blinded bs) hb⟩
    · exact .inl ⟨hslot, hstarted, hb, hthrough⟩
  · rw [← written]
    exact (hi.run as).leavesRest hs

/-- A token of two characters, and a channel that expects it. -/
def exampleTwoToken : SessionId := ⟨['k', '1'], by decide, List.all_eq_true.1 (by decide)⟩

def exampleTwoStart : Channel :=
  { descriptor := ⟨.ofIp .localhost 4000, exampleTwoToken⟩, codec := { limit := 100 } }

/-- A worker that sends a wrong token in two chunks, and a byte behind it. -/
def exampleWrong : List Action :=
  exampleArrival ++ [.send 0 [107]] ++ List.replicate 7 (.task .acceptor) ++
    List.replicate 2 (.task .verifier) ++ [.send 0 [255, 0]]

theorem verification_comes_to_of_exampleWrong :
    let ch := exampleTwoStart.run (exampleWrong ++ List.replicate 5 (.task .verifier))
    ch.verified = some (.mismatch "k1" "k\uFFFD") ∧ (ch.link 0).inbound.unread = [0] := by
  intro ch
  obtain ⟨comes, -, through, rest⟩ := @verification_comes_to ⟨true⟩ {} { frameLimit := 100 }
    exampleTwoToken 4000 .any exampleTwoStart rfl
  have h := (through 0 exampleWrong 5 (by decide +kernel) (by decide +kernel)
    (by decide +kernel)).resolve_right fun hb => absurd hb.1 (by decide +kernel)
  have hb : exampleTwoStart.gotThrough 0 (exampleWrong ++ List.replicate 5 (.task .verifier)) =
      [107, 255, 0] := by decide +kernel
  have hcomes := comes 0 _ h
  have hrest := (rest 0 _ h.slot).bytes
  rw [hb] at hcomes hrest
  refine ⟨(hcomes.mismatch _ _).2 ⟨by decide +kernel, by decide +kernel, by decide +kernel⟩, ?_⟩
  have htaken : (ch.link 0).inbound.taken = [107, 255] := by decide +kernel
  rw [htaken] at hrest
  exact List.append_cancel_left hrest

end Channel

end WorkerLink
