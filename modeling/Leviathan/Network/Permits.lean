import Leviathan.Network.Capacity
import Leviathan.Network.Retries

/-!
# Permits that nobody takes

A permit to download is the answer to a message, and whoever has asked may be gone by then. When capacity is released
the scheduler looks for a waiter that takes the permit. Where it answers a request at once, it counts the download and
takes a parameter out of the queue before it answers, and does not look at whether the answer was taken (`StillThere`).
-/

namespace Leviathan
open List

/-- The permits among some answers. -/
def permits (replies : List Reply) : List Reply := replies.filter fun r => r.grant.isSome

/-- How many permits are left of some when one of them may be given back. -/
def SchedulerInput.released : SchedulerInput → Nat → Nat
  | .message _ _ .releaseCapacity, held => held - 1
  | _, held => held

/-- Whether somebody asks that the retry of a hash be removed or replaced. -/
def SchedulerInput.Names (hash : Bytes32) : SchedulerInput → Prop
  | .message _ _ (.removeRetry h) => h = hash
  | .message _ _ (.queueFailedDownload ticket _ _) => ticket.hash = hash
  | _ => False

namespace Scheduler

/-- How many permits have come to somebody who was still there, and have not been given back. -/
def held : Record → Nat
  | [] => 0
  | ev :: tr => ev.input.released (held tr) + (permits ev.output).countP (·.id ∉ ev.before.gone)

/-- Whoever asks is still there, if the answer is a download that may start: when there is capacity, and if it is to try a
parameter again, when one is due. -/
def StillThere (s : Scheduler) : SchedulerInput → Prop
  | .message _ _ .waitForCapacity => s.actor.activeDownloads < s.actor.maxConcurrent → s.taken ∉ s.gone
  | .message now _ .startParameterRetry => s.actor.activeDownloads < s.actor.maxConcurrent →
    (∃ e ∈ s.actor.retryEntries.entries, DownloadSchedulerActor.parameterDue now e.2) → s.taken ∉ s.gone
  | _ => True

instance (s : Scheduler) : DecidablePred (StillThere s)
  | .message _ _ .waitForCapacity => inferInstanceAs (Decidable (_ → _))
  | .message _ _ .startParameterRetry => inferInstanceAs (Decidable (_ → _ → _))
  | .message _ _ .releaseCapacity | .message _ _ (.queueFailedDownload ..) | .message _ _ (.removeRetry _)
  | .message _ _ .getDueConfigRetries | .message _ _ .getDueDistroRetries | .hangUp _ => .isTrue trivial

/-- A parameter that is to be tried again stays in the queue, unless somebody has got it, removed or replaced it. -/
def Kept (ev : Event Scheduler SchedulerInput (List Reply)) : Prop :=
  ∀ hash entry name, ev.before.actor.retryEntries.lookup hash = some entry →
    entry.downloadType = .modelSharing (.parameter name) →
    ev.after.actor.retryEntries.lookup hash = some entry
      ∨ (∃ r ∈ ev.output, r.id ∉ ev.before.gone ∧ r.answer = .parameterRetry (some (entry.intoReadyRetry hash)))
      ∨ ev.input.Names hash

section Steps
variable {a : DownloadSchedulerActor} {d : Delivery} {message : SchedulerMessage} {s : Scheduler}
  {i : SchedulerInput} {hash : Bytes32} {entry : RetryEntry}

lemma next_activeDownloads (s : Scheduler) (i : SchedulerInput) : (s.next i).1.actor.activeDownloads
    = i.released s.actor.activeDownloads + (permits (s.next i).2).length := by
  cases i with
  | hangUp id => rfl
  | message now order message =>
    cases message with
    | waitForCapacity =>
      dsimp only [next, DownloadSchedulerActor.handleMessage, DownloadSchedulerActor.waitForCapacity]
      split <;> rfl
    | releaseCapacity =>
      dsimp only [next, DownloadSchedulerActor.handleMessage, DownloadSchedulerActor.releaseCapacity,
        DownloadSchedulerActor.notifyNextWaiter]
      split <;> rfl
    | queueFailedDownload ticket tag downloadType =>
      dsimp only [next, DownloadSchedulerActor.handleMessage, DownloadSchedulerActor.queueFailedDownload]
      split
      · rfl
      · split <;> rfl
    | removeRetry hash => rfl
    | startParameterRetry =>
      dsimp only [next, DownloadSchedulerActor.handleMessage, DownloadSchedulerActor.startParameterRetry]
      split
      · rfl
      · split <;> rfl
    | getDueConfigRetries => rfl
    | getDueDistroRetries => rfl

lemma lookup_drainRetries {order : List Bytes32} {predicate : RetryEntry → Bool}
    (h : a.retryEntries.lookup hash = some entry) (hp : predicate entry = false) :
    (a.drainRetries order predicate).1.retryEntries.lookup hash = some entry := by
  obtain ⟨hsame, _⟩ | ⟨e, he, hdue, _⟩ := a.drainRetries_spec order predicate (h := hash)
  · exact hsame.trans h
  · cases h.symm.trans he
    rw [hp] at hdue
    cases hdue

lemma startParameterRetry_cases (a : DownloadSchedulerActor) (d : Delivery) :
    (a.startParameterRetry d).1.retryEntries = a.retryEntries
      ∨ ∃ hash entry, a.retryEntries.lookup hash = some entry
        ∧ (a.startParameterRetry d).1.retryEntries = a.retryEntries.erase hash
        ∧ (a.startParameterRetry d).2 = [d.reply (.parameterRetry (some (entry.intoReadyRetry hash)))] := by
  rw [DownloadSchedulerActor.startParameterRetry]
  split
  · exact .inl rfl
  · split
    · rename_i hash entry hfind
      exact .inr ⟨hash, entry, DownloadSchedulerActor.mem_iterate.mp (mem_of_find?_eq_some hfind), rfl, rfl⟩
    · exact .inl rfl

lemma lookup_next {name : String} (h : s.actor.retryEntries.lookup hash = some entry)
    (htype : entry.downloadType = .modelSharing (.parameter name)) :
    (s.next i).1.actor.retryEntries.lookup hash = some entry
      ∨ (∃ delivered, (s.next i).2 = [⟨s.taken, .parameterRetry (some (entry.intoReadyRetry hash)), delivered⟩])
      ∨ i.Names hash := by
  cases i with
  | hangUp id => exact .inl h
  | message now order message =>
    cases message with
    | waitForCapacity =>
      left
      dsimp only [next, DownloadSchedulerActor.handleMessage, DownloadSchedulerActor.waitForCapacity]
      split <;> exact h
    | releaseCapacity =>
      left
      dsimp only [next, DownloadSchedulerActor.handleMessage, DownloadSchedulerActor.releaseCapacity,
        DownloadSchedulerActor.notifyNextWaiter]
      split <;> exact h
    | queueFailedDownload ticket tag downloadType =>
      by_cases hh : ticket.hash = hash
      · exact .inr (.inr hh)
      · left
        dsimp only [next, DownloadSchedulerActor.handleMessage, DownloadSchedulerActor.queueFailedDownload]
        split
        · exact (AList.lookup_insert_ne (Ne.symm hh)).trans h
        · split
          · exact (AList.lookup_erase_ne (Ne.symm hh)).trans h
          · exact (AList.lookup_insert_ne (Ne.symm hh)).trans h
    | removeRetry removed =>
      by_cases hh : removed = hash
      · exact .inr (.inr hh)
      · exact .inl ((AList.lookup_erase_ne (Ne.symm hh)).trans h)
    | startParameterRetry =>
      obtain hsame | ⟨hash', entry', hentry', herase, hreply⟩ :=
        startParameterRetry_cases s.actor ⟨s.taken, now, order, s.gone⟩
      · exact .inl ((congrArg (AList.lookup hash) hsame).trans h)
      · by_cases hh : hash = hash'
        · subst hh
          cases h.symm.trans hentry'
          exact .inr (.inl ⟨_, hreply⟩)
        · exact .inl ((congrArg (AList.lookup hash) herase).trans ((AList.lookup_erase_ne hh).trans h))
    | getDueConfigRetries =>
      refine .inl (lookup_drainRetries h ?_)
      rw [DownloadSchedulerActor.configDue, htype]
      rfl
    | getDueDistroRetries =>
      refine .inl (lookup_drainRetries h ?_)
      rw [DownloadSchedulerActor.distroDue, htype]

/-- The loop of `notify_next_waiter` passes over those that are gone. -/
lemma nextWaiter_there {gone l rest : List Nat} {waiter : Nat}
    (h : DownloadSchedulerActor.nextWaiter gone l = (some waiter, rest)) : waiter ∉ gone := by
  induction l with
  | nil => cases h
  | cons x l ih =>
    rw [DownloadSchedulerActor.nextWaiter] at h
    split at h
    · exact ih h
    · rename_i hx
      cases h
      exact hx

/-- A parameter is found if and only if one is due, in whatever order the map is gone through. -/
lemma find?_iterate_eq_none {order : List Bytes32} {now : Nat} :
    (DownloadSchedulerActor.iterate a.retryEntries order).find? (fun e => DownloadSchedulerActor.parameterDue now e.2) = none
      ↔ ¬ ∃ e ∈ a.retryEntries.entries, DownloadSchedulerActor.parameterDue now e.2 := by
  rw [find?_eq_none]
  constructor
  · rintro h ⟨⟨hash, entry⟩, he, hdue⟩
    exact h (hash, entry) (DownloadSchedulerActor.mem_iterate.mpr (AList.mem_lookup_iff.mpr he)) hdue
  · intro h e he hdue
    exact h ⟨⟨e.1, e.2⟩, AList.mem_lookup_iff.mp (DownloadSchedulerActor.mem_iterate.mp he), hdue⟩

/-- The permits of a step come to somebody who is there if and only if whoever asks is there when one is given at once. A permit
that has been released never goes to somebody who is gone. -/
lemma permits_reach_iff (s : Scheduler) (i : SchedulerInput) :
    (∀ r ∈ permits (s.next i).2, r.id ∉ s.gone) ↔ StillThere s i := by
  cases i with
  | hangUp id => exact iff_of_true (by rintro _ ⟨⟩) trivial
  | message now order message =>
    cases message with
    | waitForCapacity =>
      dsimp only [next, DownloadSchedulerActor.handleMessage, DownloadSchedulerActor.waitForCapacity, StillThere]
      split
      · rename_i hlt
        rw [forall_prop_of_true hlt]
        exact forall_mem_singleton
      · rename_i hlt
        exact iff_of_true (by rintro _ ⟨⟩) fun h => absurd h hlt
    | releaseCapacity =>
      refine iff_of_true ?_ trivial
      dsimp only [next, DownloadSchedulerActor.handleMessage, DownloadSchedulerActor.releaseCapacity,
        DownloadSchedulerActor.notifyNextWaiter]
      split
      · rename_i hnext
        exact forall_mem_singleton.mpr (nextWaiter_there hnext)
      · rintro _ ⟨⟩
    | queueFailedDownload ticket tag downloadType =>
      refine iff_of_true ?_ trivial
      dsimp only [next, DownloadSchedulerActor.handleMessage, DownloadSchedulerActor.queueFailedDownload]
      split
      · rintro _ ⟨⟩
      · split <;> rintro _ ⟨⟩
    | startParameterRetry =>
      dsimp only [next, DownloadSchedulerActor.handleMessage, DownloadSchedulerActor.startParameterRetry, StillThere]
      split
      · rename_i hle
        exact iff_of_true (by rintro _ ⟨⟩) fun h => absurd h (Nat.not_lt.mpr hle)
      · rename_i hlt
        rw [forall_prop_of_true (Nat.not_le.mp hlt)]
        split
        · rename_i hfind
          have hdue := mt find?_iterate_eq_none.mpr (hfind.trans_ne (Option.some_ne_none _))
          rw [forall_prop_of_true (not_not.mp hdue)]
          exact forall_mem_singleton
        · rename_i hfind
          exact iff_of_true (by rintro _ ⟨⟩) fun h => absurd h (find?_iterate_eq_none.mp hfind)
    | removeRetry hash | getDueConfigRetries | getDueDistroRetries => exact iff_of_true (by rintro _ ⟨⟩) trivial

lemma kept_of_stillThere (h : StillThere s i) : Kept ⟨s, i, (s.next i).2, (s.next i).1⟩ := by
  intro hash entry name hentry htype
  refine (lookup_next hentry htype).imp_right (Or.imp_left ?_)
  rintro ⟨delivered, hreply⟩
  have hmem : ⟨s.taken, .parameterRetry (some (entry.intoReadyRetry hash)), delivered⟩ ∈ (s.next i).2 := by
    rw [hreply]
    exact mem_singleton_self _
  exact ⟨_, hmem, (permits_reach_iff s i).mpr h _ (mem_filter.mpr ⟨hmem, rfl⟩), rfl⟩

end Steps

section Runs
variable {maxConcurrent : Nat} {retryConfig : RetryConfig} {tr : Record} {s : Scheduler}
  {ev : Event Scheduler SchedulerInput (List Reply)}

/-- At every moment the count is that of the permits that are held. -/
def Balanced (tr : Record) : Prop := Machine.Always (fun tr s => s.actor.activeDownloads = held tr) tr

lemma event_eq (h : (machine maxConcurrent retryConfig).step ev.before ev.input = .ok (ev.after, ev.output)) :
    ev = ⟨ev.before, ev.input, (ev.before.next ev.input).2, (ev.before.next ev.input).1⟩ := by
  have hnext : ev.before.next ev.input = (ev.after, ev.output) := Except.ok.inj h
  rw [hnext]

/-- A step keeps the count if and only if its permits come to somebody. -/
lemma balanced_iff_stillThere
    (st : (machine maxConcurrent retryConfig).step ev.before ev.input = .ok (ev.after, ev.output))
    (h : ev.before.actor.activeDownloads = held tr) :
    ev.after.actor.activeDownloads = held (ev :: tr) ↔ StillThere ev.before ev.input := by
  have hactive := next_activeDownloads ev.before ev.input
  have hreach := permits_reach_iff ev.before ev.input
  have hnext : ev.before.next ev.input = (ev.after, ev.output) := Except.ok.inj st
  rw [hnext, h] at hactive
  rw [hnext] at hreach
  rw [hactive, held, Nat.add_left_cancel_iff, eq_comm, countP_eq_length, ← hreach]
  simp only [decide_eq_true_eq]

/-- A cancelled request costs nothing in just those runs in which nobody is gone who asks when a download may start at once: the
number of active downloads is always that of the permits that have come to somebody and have not been given back, and no
parameter leaves the queue without somebody getting it. -/
theorem cancelled_costs_nothing_iff (r : (machine maxConcurrent retryConfig).Run tr s) :
    Balanced tr ∧ (∀ ev ∈ tr, Kept ev) ↔ ∀ ev ∈ tr, StillThere ev.before ev.input := by
  have hinit : ∀ s, (machine maxConcurrent retryConfig).init s → s.actor.activeDownloads = held [] := by
    rintro s rfl
    rfl
  have hbalanced : Balanced tr ↔ ∀ ev ∈ tr, StillThere ev.before ev.input :=
    r.always_iff_forall_mem hinit fun _ _ _ hbefore st => balanced_iff_stillThere st hbefore
  rw [hbalanced]
  refine ⟨And.left, fun h => ⟨h, ?_⟩⟩
  intro ev hev
  obtain ⟨_, _, st⟩ := r.mem hev
  have hthere := h ev hev
  rw [event_eq st] at hthere ⊢
  exact kept_of_stillThere hthere

end Runs

section Cancelled

def parameterTicket : BlobTicket := ⟨5⟩

/-- There is room for two downloads. Somebody asks for one and is gone before the answer, a parameter is queued and the same
happens to it. Then somebody asks and stays. -/
def cancelledInputs : List SchedulerInput :=
  [.hangUp 0, .message 0 [] .waitForCapacity,
    .message 1 [] (.queueFailedDownload parameterTicket [] (.modelSharing (.parameter "embed"))),
    .hangUp 2, .message 2 [] .startParameterRetry, .message 3 [] .waitForCapacity]

def cancelled : Record × Scheduler :=
  (machine 2 ⟨fun _ => 0, 3⟩).play [] ⟨.new 2 ⟨fun _ => 0, 3⟩, 0, []⟩ cancelledInputs

/-- Nobody holds a permit, and still there is no room: the last one waits, and nothing will be released. The parameter has left
the queue, and nobody has it. -/
theorem cancelled_costs_capacity : (machine 2 ⟨fun _ => 0, 3⟩).Run cancelled.1 cancelled.2
    ∧ held cancelled.1 = 0 ∧ cancelled.2.actor.activeDownloads = 2 ∧ cancelled.2.actor.waitingForCapacity = [3]
    ∧ cancelled.2.actor.retryEntries.lookup parameterTicket.hash = none
    ∧ ¬ Balanced cancelled.1 ∧ ¬ ∀ ev ∈ cancelled.1, Kept ev := by
  have hinit : (machine 2 ⟨fun _ => 0, 3⟩).Run [] ⟨.new 2 ⟨fun _ => 0, 3⟩, 0, []⟩ := .init rfl
  refine ⟨hinit.play cancelledInputs, by decide +kernel, by decide +kernel, by decide +kernel, by decide +kernel, ?_, ?_⟩
  · intro hb
    exact absurd (hb [] _ _ rfl) (by decide +kernel)
  · intro hk
    obtain h | ⟨_, h, hthere, _⟩ | h := hk _ (mem_cons_of_mem _ mem_cons_self) parameterTicket.hash _ "embed" rfl rfl
    · exact absurd h (by decide +kernel)
    · cases mem_singleton.mp h
      exact absurd hthere (by decide +kernel)
    · exact h

/-- Three ask for the only room. The second one goes away while it waits, and the first one gives the room back to the third. -/
def inTurn : Record × Scheduler :=
  (machine 1 ⟨fun _ => 0, 3⟩).play [] ⟨.new 1 ⟨fun _ => 0, 3⟩, 0, []⟩
    [.message 0 [] .waitForCapacity, .message 0 [] .waitForCapacity, .message 0 [] .waitForCapacity, .hangUp 1,
      .message 9 [] .releaseCapacity]

/-- The room goes from the first download to the third, as the second has been cancelled. -/
theorem cancelled_costs_nothing_inTurn : inTurn.2.gone = [1] ∧ inTurn.2.actor.activeDownloads = 1 ∧ held inTurn.1 = 1
    ∧ Balanced inTurn.1 ∧ ∀ ev ∈ inTurn.1, Kept ev := by
  have hinit : (machine 1 ⟨fun _ => 0, 3⟩).Run [] ⟨.new 1 ⟨fun _ => 0, 3⟩, 0, []⟩ := .init rfl
  have hthere : ∀ ev ∈ inTurn.1, StillThere ev.before ev.input := by decide +kernel
  exact ⟨by decide +kernel, by decide +kernel, by decide +kernel, (cancelled_costs_nothing_iff (hinit.play _)).mpr hthere⟩

end Cancelled

end Scheduler
end Leviathan
