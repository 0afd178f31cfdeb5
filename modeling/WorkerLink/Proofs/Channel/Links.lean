import WorkerLink.Channel.Run
import WorkerLink.Proofs.Lists
import WorkerLink.Proofs.Network.Streams

/-!
# The connections of a channel

`Link.ByClient` says what a client can do to its connection. The rest is about `Channel.onLink`, and
about a listening socket that is closed, which releases the connections that nobody accepted.
-/

namespace WorkerLink

/-! ## Clients -/

/-- What a client can do to a connection: bytes arrive or one of the streams ends, and what the
channel wrote is not touched. -/
structure Link.ByClient (l l' : Link) : Prop where
  inbound : l.inbound.Grows l'.inbound
  written : l'.outbound.written = l.outbound.written
  ended : l'.outbound.ended = l.outbound.ended
  abandoned : l.outbound.abandoned = true → l'.outbound.abandoned = true

namespace Link.ByClient

theorem refl (l : Link) : l.ByClient l := ⟨.refl _, rfl, rfl, id⟩

theorem send (l : Link) (b : Bytes) : l.ByClient (Channel.clientSend l b) := by
  unfold Channel.clientSend
  split
  · rename_i s hs
    exact ⟨Stream.grows_write hs, rfl, rfl, id⟩
  · exact refl l

theorem finish (l : Link) : l.ByClient l.clientFinish :=
  ⟨l.inbound.grows_finish .finished, rfl, rfl, id⟩

theorem leave (l : Link) : l.ByClient l.clientLeave :=
  ⟨l.inbound.grows_finish _, rfl, rfl, fun _ => rfl⟩

theorem reset (l : Link) : l.ByClient l.clientReset :=
  ⟨l.inbound.grows_finish .reset, rfl, rfl, fun _ => rfl⟩

theorem fetch (l : Link) : l.ByClient (Channel.clientFetch l) := by
  obtain ⟨b, rest, broken, -, -, hr⟩ := l.outbound.receive_frame l.outbound.unread.length
  refine ⟨.refl _, l.outbound.written_receive _, ?_, fun h => ?_⟩
  · simp [Channel.clientFetch, Stream.receiveAll, hr]
  · simpa [Channel.clientFetch, Stream.receiveAll, hr] using h

end Link.ByClient

/-- The connection that a client acts on, and what becomes of it. -/
def Action.client? : Action → Option (LinkId × (Link → Link))
  | .send l b => some (l, (Channel.clientSend · b))
  | .finish l => some (l, Link.clientFinish)
  | .leave l => some (l, Link.clientLeave)
  | .reset l => some (l, Link.clientReset)
  | .fetch l => some (l, Channel.clientFetch)
  | _ => none

theorem Action.byClient {a : Action} {l : LinkId} {f : Link → Link} (h : a.client? = some (l, f))
    (x : Link) : x.ByClient (f x) := by
  cases a with
  | send l b => cases h; exact .send x b
  | finish l => cases h; exact .finish x
  | leave l => cases h; exact .leave x
  | reset l => cases h; exact .reset x
  | fetch l => cases h; exact .fetch x
  | _ => simp [Action.client?] at h

/-- No client decides whether the channel goes on reading its stream. -/
theorem Action.inbound_abandoned {a : Action} {l : LinkId} {f : Link → Link}
    (h : a.client? = some (l, f)) (x : Link) :
    (f x).inbound.abandoned = x.inbound.abandoned := by
  cases a with
  | send l b =>
    cases h
    change (Channel.clientSend x b).inbound.abandoned = x.inbound.abandoned
    unfold Channel.clientSend
    split
    · rename_i s hs
      obtain ⟨-, rfl⟩ := Stream.write_inv hs
      rfl
    · rfl
  | finish l | leave l | reset l =>
    cases h
    exact Stream.abandoned_finish _
  | fetch l =>
    cases h
    rfl
  | _ => cases h

namespace Channel

variable {ch : Channel} {l k : LinkId} {f : Link → Link}

/-! ## Connections -/

theorem link_onLink (ch : Channel) (l k : LinkId) (f : Link → Link) :
    (ch.onLink l f).link k =
      if l = k ∧ k < ch.links.length then f (ch.link k) else ch.link k :=
  getD_modify ..

theorem link_onLink_self (h : l < ch.links.length) : (ch.onLink l f).link l = f (ch.link l) := by
  rw [link_onLink, if_pos ⟨rfl, h⟩]

@[simp] theorem length_onLink (ch : Channel) (l : LinkId) (f : Link → Link) :
    (ch.onLink l f).links.length = ch.links.length := by
  simp [onLink]

theorem link_of_length_le (h : ch.links.length ≤ l) : ch.link l = {} := by
  simp [link, h]

/-- The connections after some of them were released. -/
def released (links : List Link) (ls : List LinkId) : List Link :=
  ls.foldl (fun links l => links.modify l Link.release) links

theorem foldl_onLink (ls : List LinkId) (ch : Channel) :
    ls.foldl (fun ch l => ch.onLink l Link.release) ch =
      { ch with links := released ch.links ls } := by
  induction ls generalizing ch with
  | nil => rfl
  | cons l ls ih => rw [List.foldl_cons, ih]; rfl

@[simp] theorem length_released (links : List Link) (ls : List LinkId) :
    (released links ls).length = links.length := by
  induction ls generalizing links with
  | nil => rfl
  | cons l ls ih => rw [released, List.foldl_cons, ← released, ih, List.length_modify]

theorem getD_released_of_notMem {links : List Link} {ls : List LinkId} (h : k ∉ ls) :
    (released links ls).getD k {} = links.getD k {} := by
  induction ls generalizing links with
  | nil => rfl
  | cons l ls ih =>
    rw [List.mem_cons, not_or] at h
    rw [released, List.foldl_cons, ← released, ih h.2]
    simp [Ne.symm h.1]

theorem stopListening_eq (ch : Channel) :
    ch.stopListening = { ch.closeDescriptor with
      links := released ch.links ch.backlog, listener := .nobody, backlog := [] } := by
  simp only [stopListening, foldl_onLink]
  rfl

end Channel

end WorkerLink
