import Leviathan.Network.Scheduler

/-!
# The capacity for downloads

Capacity is given out in three places: at once to whoever asks while there is some, to the first waiter that is still
there when some is released, and to a parameter that is tried again. `CapacityStep` is what a message does to the capacity
and to the waiters. Since nobody waits while there is capacity (`Queued`), the first and the third pass nobody by.
-/

namespace Leviathan
open List

/-- Whom an answer gives capacity. -/
def Reply.grant (r : Reply) : Option Nat :=
  match r.answer with
  | .capacity => some r.id
  | .parameterRetry (some _) => some r.id
  | _ => none

namespace DownloadSchedulerActor

/-- What a message does to the capacity and the waiters, and to whom it gives capacity. -/
inductive CapacityStep (a : DownloadSchedulerActor) (d : Delivery) :
    SchedulerMessage → DownloadSchedulerActor → List Nat → Prop where
  | grant {message retryEntries} :
    a.activeDownloads < a.maxConcurrent →
    CapacityStep a d message { a with activeDownloads := a.activeDownloads + 1, retryEntries } [d.id]
  | wait :
    a.maxConcurrent ≤ a.activeDownloads →
    CapacityStep a d .waitForCapacity { a with waitingForCapacity := a.waitingForCapacity ++ [d.id] } []
  | handOver {dead waiter waitingForCapacity} :
    a.waitingForCapacity = dead ++ waiter :: waitingForCapacity →
    (∀ w ∈ dead, w ∈ d.gone) →
    CapacityStep a d .releaseCapacity { a with activeDownloads := a.activeDownloads - 1 + 1, waitingForCapacity } [waiter]
  | release :
    (∀ w ∈ a.waitingForCapacity, w ∈ d.gone) →
    CapacityStep a d .releaseCapacity { a with
      activeDownloads := a.activeDownloads - 1
      waitingForCapacity := [] } []
  | other {message retryEntries} :
    message ≠ .waitForCapacity →
    CapacityStep a d message { a with retryEntries } []

section Inversion
variable {a : DownloadSchedulerActor} {d : Delivery} {gone l rest : List Nat}

lemma nextWaiter_some {waiter : Nat} (h : nextWaiter gone l = (some waiter, rest)) :
    ∃ dead, l = dead ++ waiter :: rest ∧ ∀ w ∈ dead, w ∈ gone := by
  induction l with
  | nil => cases h
  | cons x l ih =>
    rw [nextWaiter] at h
    split at h
    · rename_i hx
      obtain ⟨dead, rfl, hdead⟩ := ih h
      exact ⟨x :: dead, rfl, forall_mem_cons.mpr ⟨hx, hdead⟩⟩
    · cases h
      exact ⟨[], rfl, by rintro _ ⟨⟩⟩

lemma nextWaiter_none (h : nextWaiter gone l = (none, rest)) : rest = [] ∧ ∀ w ∈ l, w ∈ gone := by
  induction l with
  | nil =>
    cases h
    exact ⟨rfl, by rintro _ ⟨⟩⟩
  | cons x l ih =>
    rw [nextWaiter] at h
    split at h
    · rename_i hx
      obtain ⟨hrest, hl⟩ := ih h
      exact ⟨hrest, forall_mem_cons.mpr ⟨hx, hl⟩⟩
    · cases h

lemma handleMessage_capacity (a : DownloadSchedulerActor) (d : Delivery) (message : SchedulerMessage) :
    CapacityStep a d message (a.handleMessage d message).1 ((a.handleMessage d message).2.filterMap Reply.grant) := by
  cases message with
  | waitForCapacity =>
    dsimp only [handleMessage, waitForCapacity]
    split
    · rename_i hlt
      exact .grant hlt
    · rename_i hle
      exact .wait (Nat.not_lt.mp hle)
  | releaseCapacity =>
    dsimp only [handleMessage, releaseCapacity, notifyNextWaiter]
    split
    · rename_i waiter rest hnext
      obtain ⟨dead, hl, hdead⟩ := nextWaiter_some hnext
      exact .handOver hl hdead
    · rename_i rest hnext
      obtain ⟨rfl, hl⟩ := nextWaiter_none hnext
      exact .release hl
  | queueFailedDownload ticket tag downloadType =>
    cases downloadType with
    | modelSharing request => exact .other (by rintro ⟨⟩)
    | distroResult peers =>
      dsimp only [handleMessage, queueFailedDownload]
      split
      · exact .other (by rintro ⟨⟩)
      · exact .other (by rintro ⟨⟩)
  | removeRetry hash | getDueConfigRetries | getDueDistroRetries => exact .other (by rintro ⟨⟩)
  | startParameterRetry =>
    dsimp only [handleMessage, startParameterRetry]
    split
    · exact .other (by rintro ⟨⟩)
    · rename_i hlt
      split
      · exact .grant (Nat.not_le.mp hlt)
      · exact .other (by rintro ⟨⟩)

end Inversion
end DownloadSchedulerActor

namespace Scheduler

/-- The number of a message by which somebody asks for capacity and is willing to wait for it. -/
def request (ev : Event Scheduler SchedulerInput (List Reply)) : Option Nat :=
  match ev.input with
  | .message _ _ .waitForCapacity => some ev.before.taken
  | _ => none

/-- Those that have asked for capacity. -/
def requested (tr : Record) : List Nat := tr.filterMap request

/-- Those that have been given capacity, also if they were not there to take it. -/
def granted (tr : Record) : List Nat := tr.flatMap fun ev => ev.output.filterMap Reply.grant

/-- Nobody waits while there is capacity, and those that wait do so in the order in which they have come. Whoever has asked
waits, has been given capacity or has gone away. -/
structure Queued (maxConcurrent : Nat) (tr : Record) (s : Scheduler) : Prop where
  max : s.actor.maxConcurrent = maxConcurrent
  bounded : s.actor.activeDownloads ≤ maxConcurrent
  full : s.actor.waitingForCapacity ≠ [] → s.actor.activeDownloads = maxConcurrent
  numbered : ∀ w ∈ s.actor.waitingForCapacity, w < s.taken
  sorted : s.actor.waitingForCapacity.Pairwise (· < ·)
  pending : ∀ w ∈ requested tr, w ∈ s.actor.waitingForCapacity ∨ w ∈ granted tr ∨ w ∈ s.gone

section Runs
variable {maxConcurrent : Nat} {retryConfig : RetryConfig} {tr : Record} {s s' : Scheduler} {now : Nat}
  {order : List Bytes32} {message : SchedulerMessage} {replies : List Reply} {a : DownloadSchedulerActor}
  {grants : List Nat}

lemma granted_cons (ev : Event Scheduler SchedulerInput (List Reply)) :
    granted (ev :: tr) = ev.output.filterMap Reply.grant ++ granted tr :=
  flatMap_cons

lemma mem_requested_cons {w : Nat} (h : w ∈ requested (⟨s, .message now order message, replies, s'⟩ :: tr)) :
    w = s.taken ∧ message = .waitForCapacity ∨ w ∈ requested tr := by
  rw [requested, filterMap_cons] at h
  split at h
  · exact .inr h
  · rename_i n hn
    obtain rfl | h := mem_cons.mp h
    · cases message with
      | waitForCapacity => exact .inl ⟨(Option.some.inj hn).symm, rfl⟩
      | _ => cases hn
    · exact .inr h

lemma step_message (h : (machine maxConcurrent retryConfig).step s (.message now order message) = .ok (s', replies)) :
    ∃ a, s.actor.CapacityStep ⟨s.taken, now, order, s.gone⟩ message a (replies.filterMap Reply.grant)
      ∧ s' = ⟨a, s.taken + 1, s.gone⟩ := by
  cases h
  exact ⟨_, DownloadSchedulerActor.handleMessage_capacity _ _ _, rfl⟩

namespace Queued

lemma nobody_waits (hq : Queued maxConcurrent tr s) (hfree : s.actor.activeDownloads < s.actor.maxConcurrent) :
    s.actor.waitingForCapacity = [] := by
  by_contra hc
  rw [hq.max, hq.full hc] at hfree
  exact Nat.lt_irrefl _ hfree

lemma served (hq : Queued maxConcurrent tr s)
    (st : s.actor.CapacityStep ⟨s.taken, now, order, s.gone⟩ message a grants) {g w : Nat} (hg : g ∈ grants)
    (hw : w ∈ requested tr) (hlt : w < g) : w ∈ granted tr ∨ w ∈ s.gone := by
  obtain hwait | hdone := hq.pending w hw
  · cases st with
    | grant hfree =>
      rw [hq.nobody_waits hfree] at hwait
      cases hwait
    | @handOver dead waiter rest hl hdead =>
      obtain rfl := mem_singleton.mp hg
      have hsorted := hq.sorted
      rw [hl] at hwait hsorted
      obtain hwait | hwait := mem_append.mp hwait
      · exact .inr (hdead w hwait)
      · obtain rfl | hwait := mem_cons.mp hwait
        · exact absurd hlt (Nat.lt_irrefl _)
        · have hlater := (pairwise_cons.mp (pairwise_append.mp hsorted).2.1).1 w hwait
          exact absurd hlt (Nat.lt_asymm hlater)
    | wait => cases hg
    | release => cases hg
    | other => cases hg
  · exact hdone

lemma pending_message (hq : Queued maxConcurrent tr s)
    (hnew : message = .waitForCapacity → s.taken ∈ a.waitingForCapacity ∨ s.taken ∈ replies.filterMap Reply.grant)
    (hold : ∀ w ∈ s.actor.waitingForCapacity,
      w ∈ a.waitingForCapacity ∨ w ∈ replies.filterMap Reply.grant ∨ w ∈ s.gone) :
    ∀ w ∈ requested (⟨s, .message now order message, replies, s'⟩ :: tr), w ∈ a.waitingForCapacity
      ∨ w ∈ granted (⟨s, .message now order message, replies, s'⟩ :: tr) ∨ w ∈ s.gone := by
  intro w hw
  rw [granted_cons, mem_append]
  obtain ⟨rfl, hm⟩ | hw := mem_requested_cons hw
  · obtain h | h := hnew hm
    · exact .inl h
    · exact .inr (.inl (.inl h))
  · obtain h | h | h := hq.pending w hw
    · obtain h | h | h := hold w h
      · exact .inl h
      · exact .inr (.inl (.inl h))
      · exact .inr (.inr h)
    · exact .inr (.inl (.inr h))
    · exact .inr (.inr h)

lemma step_message (hmax : 1 ≤ maxConcurrent) (hq : Queued maxConcurrent tr s)
    (st : s.actor.CapacityStep ⟨s.taken, now, order, s.gone⟩ message a (replies.filterMap Reply.grant)) :
    Queued maxConcurrent (⟨s, .message now order message, replies, ⟨a, s.taken + 1, s.gone⟩⟩ :: tr)
      ⟨a, s.taken + 1, s.gone⟩ := by
  have hbounded := hq.bounded
  have hnumbered : ∀ w ∈ s.actor.waitingForCapacity, w < s.taken + 1 := by
    intro w hw
    exact (hq.numbered w hw).trans (Nat.lt_succ_self _)
  generalize hg : replies.filterMap Reply.grant = grants at st
  cases st with
  | grant hfree =>
    have hnone := hq.nobody_waits hfree
    rw [hq.max] at hfree
    refine ⟨hq.max, hfree, fun hc => absurd hnone hc, hnumbered, hq.sorted, hq.pending_message ?_ ?_⟩
    · intro _
      rw [hg]
      exact .inr (mem_singleton_self _)
    · exact fun w hw => .inl hw
  | wait hfull =>
    rw [hq.max] at hfull
    refine ⟨hq.max, hbounded, fun _ => Nat.le_antisymm hbounded hfull, ?_, ?_, hq.pending_message ?_ ?_⟩
    · intro w hw
      obtain hw | hw := mem_append.mp hw
      · exact hnumbered w hw
      · rw [mem_singleton.mp hw]
        exact Nat.lt_succ_self _
    · refine pairwise_append.mpr ⟨hq.sorted, pairwise_singleton _ _, ?_⟩
      intro x hx y hy
      rw [mem_singleton.mp hy]
      exact hq.numbered x hx
    · exact fun _ => .inl (mem_append_right _ (mem_singleton_self _))
    · exact fun w hw => .inl (mem_append_left _ hw)
  | @handOver dead waiter rest hl hdead =>
    have hfull := hq.full (by rw [hl]; exact append_ne_nil_of_right_ne_nil _ (cons_ne_nil _ _))
    have hsorted := hq.sorted
    rw [hl] at hsorted hnumbered
    have hsame : s.actor.activeDownloads - 1 + 1 = maxConcurrent := by omega
    refine ⟨hq.max, hsame.le, fun _ => hsame, ?_, ?_, hq.pending_message ?_ ?_⟩
    · exact fun w hw => hnumbered w (mem_append_right _ (mem_cons_of_mem _ hw))
    · exact (pairwise_cons.mp (pairwise_append.mp hsorted).2.1).2
    · rintro ⟨⟩
    · intro w hw
      rw [hl] at hw
      rw [hg]
      obtain hw | hw := mem_append.mp hw
      · exact .inr (.inr (hdead w hw))
      · obtain rfl | hw := mem_cons.mp hw
        · exact .inr (.inl (mem_singleton_self _))
        · exact .inl hw
  | release hl =>
    refine ⟨hq.max, (Nat.sub_le _ _).trans hbounded, fun hc => absurd rfl hc, ?_, .nil, hq.pending_message ?_ ?_⟩
    · rintro _ ⟨⟩
    · rintro ⟨⟩
    · exact fun w hw => .inr (.inr (hl w hw))
  | other hne =>
    refine ⟨hq.max, hbounded, hq.full, hnumbered, hq.sorted, hq.pending_message ?_ ?_⟩
    · exact fun h => absurd h hne
    · exact fun w hw => .inl hw

lemma step_hangUp {id : Nat} (hq : Queued maxConcurrent tr s) :
    Queued maxConcurrent (⟨s, .hangUp id, [], { s with gone := id :: s.gone }⟩ :: tr) { s with gone := id :: s.gone } := by
  refine ⟨hq.max, hq.bounded, hq.full, hq.numbered, hq.sorted, ?_⟩
  intro w hw
  obtain h | h | h := hq.pending w hw
  · exact .inl h
  · exact .inr (.inl h)
  · exact .inr (.inr (mem_cons_of_mem _ h))

lemma of_run (hmax : 1 ≤ maxConcurrent) (r : (machine maxConcurrent retryConfig).Run tr s) :
    Queued maxConcurrent tr s := by
  refine r.history (P := Queued maxConcurrent) ?_ ?_
  · rintro s rfl
    refine ⟨rfl, Nat.zero_le _, fun h => absurd rfl h, ?_, .nil, ?_⟩
    · rintro _ ⟨⟩
    · rintro _ ⟨⟩
  · intro tr s i s' o _ hq st
    cases i with
    | message now order message =>
      obtain ⟨a, hstep, rfl⟩ := Scheduler.step_message st
      exact hq.step_message hmax hstep
    | hangUp id =>
      cases st
      exact hq.step_hangUp

end Queued

/-- Capacity is bounded and given out fairly. Whatever messages come in and whoever goes away: there are never more
downloads than the maximum, nobody waits unless there are as many, and when somebody is given capacity, all that came
earlier and were willing to wait have been given it or have gone away. -/
theorem capacity_bounded_and_fair (hmax : 1 ≤ maxConcurrent) (r : (machine maxConcurrent retryConfig).Run tr s) :
    s.actor.activeDownloads ≤ maxConcurrent
      ∧ (s.actor.waitingForCapacity ≠ [] → s.actor.activeDownloads = maxConcurrent)
      ∧ ∀ later ev earlier, tr = later ++ ev :: earlier → ∀ g ∈ granted [ev], ∀ w ∈ requested earlier,
        w < g → w ∈ granted earlier ∨ w ∈ ev.before.gone := by
  have hq := Queued.of_run hmax r
  refine ⟨hq.bounded, hq.full, ?_⟩
  rintro later ⟨before, input, output, after⟩ earlier rfl g hg w hw hlt
  obtain ⟨rbefore, st⟩ := r.split
  rw [granted_cons, mem_append] at hg
  obtain hg | hg := hg
  · cases input with
    | message now order message =>
      obtain ⟨a, hstep, _⟩ := Scheduler.step_message st
      exact (Queued.of_run hmax rbefore).served hstep hg hw hlt
    | hangUp id =>
      have hnone : [] = output := (Prod.mk.inj (Except.ok.inj st)).2
      subst hnone
      cases hg
  · cases hg

end Runs

/-- There is room for one download. Three ask for it, the second goes away, and then the first one is done. -/
def oneAtATime : List SchedulerInput :=
  [.message 0 [] .waitForCapacity, .message 0 [] .waitForCapacity, .message 0 [] .waitForCapacity, .hangUp 1,
    .message 0 [] .releaseCapacity]

def thirdServed : Record × Scheduler :=
  (machine 1 ⟨fun _ => 0, 3⟩).play [] ⟨.new 1 ⟨fun _ => 0, 3⟩, 0, []⟩ oneAtATime

/-- The third is served as soon as there is room, since the second has gone. -/
theorem capacity_bounded_and_fair_oneAtATime :
    granted thirdServed.1 = [2, 0] ∧ thirdServed.2.actor.activeDownloads ≤ 1
      ∧ ∃ ev earlier, thirdServed.1 = ev :: earlier ∧ granted [ev] = [2] ∧ requested earlier = [2, 1, 0]
        ∧ (1 ∈ granted earlier ∨ 1 ∈ ev.before.gone) := by
  have hinit : (machine 1 ⟨fun _ => 0, 3⟩).Run [] ⟨.new 1 ⟨fun _ => 0, 3⟩, 0, []⟩ := .init rfl
  obtain ⟨hbounded, _, hfair⟩ := capacity_bounded_and_fair (Nat.le_refl 1) (hinit.play oneAtATime)
  refine ⟨by decide, hbounded, _, _, rfl, by decide, by decide, ?_⟩
  exact hfair [] _ _ rfl 2 (by decide) 1 (by decide) (by decide)

end Scheduler

end Leviathan
