import Leviathan.Network.Scheduler
import Mathlib.Data.List.Dedup

/-!
# Downloads that are tried again

The part of a client's loop that downloads results (`shared/client/src/client.rs`). A download that fails is queued with
the scheduler; on a timer the client takes out of the queue what is due and asks for it again; what has been downloaded
is taken out as well. `Downloads` is the scheduler with the requests that have not been started and the downloads that
are going on. Messages that are not about results may come at any time (`sharing`).

The number of retries is kept in the queue, and goes with the entry when it is taken out. So a download that fails again
starts over, and `max_distro_retries` bounds nothing but failures of a download that is still in the queue.
-/

namespace Leviathan
open List

def RetryConfig.default : RetryConfig := ⟨fun n => 2 * 2 ^ n, 3⟩

namespace Scheduler

def queueFailedDownload (s : Scheduler) (now : Nat) (ticket : BlobTicket) (tag : Bytes) (downloadType : DownloadType) :
    Scheduler × RetryQueueResult :=
  let (s, replies) := s.next (.message now [] (.queueFailedDownload ticket tag downloadType))
  match replies with
  | [⟨_, .retryQueue result, _⟩] => (s, result)
  | _ => (s, .maxRetriesExceeded)

/-- How often the download of a hash has failed while it was in the queue. -/
def prevRetries (s : Scheduler) (hash : Bytes32) : Nat :=
  ((s.actor.retryEntries.lookup hash).map RetryEntry.retries).getD 0

lemma queueFailedDownload_distro (s : Scheduler) (now : Nat) (ticket : BlobTicket) (tag : Bytes)
    (peers : List Bytes32) :
    (s.actor.retryConfig.maxDistroRetries < s.prevRetries ticket.hash + 1
      ∧ s.queueFailedDownload now ticket tag (.distroResult peers)
        = (⟨{ s.actor with retryEntries := s.actor.retryEntries.erase ticket.hash }, s.taken + 1, s.gone⟩,
          .maxRetriesExceeded))
    ∨ (s.prevRetries ticket.hash + 1 ≤ s.actor.retryConfig.maxDistroRetries
      ∧ ∃ retryTime, s.queueFailedDownload now ticket tag (.distroResult peers)
        = (⟨{ s.actor with
              retryEntries := s.actor.retryEntries.insert ticket.hash
                ⟨s.prevRetries ticket.hash + 1, retryTime, ticket, tag, .distroResult peers⟩ }, s.taken + 1, s.gone⟩,
          .queued)) := by
  by_cases hmax : s.actor.retryConfig.maxDistroRetries < s.prevRetries ticket.hash + 1
  · refine .inl ⟨hmax, ?_⟩
    unfold prevRetries at hmax
    simp [queueFailedDownload, next, DownloadSchedulerActor.handleMessage, DownloadSchedulerActor.queueFailedDownload,
      Delivery.reply, hmax]
  · refine .inr ⟨Nat.le_of_not_lt hmax, some (now + s.actor.retryConfig.backoff (s.prevRetries ticket.hash)), ?_⟩
    unfold prevRetries at hmax ⊢
    simp [queueFailedDownload, next, DownloadSchedulerActor.handleMessage, DownloadSchedulerActor.queueFailedDownload,
      Delivery.reply, hmax]

def getDueDistroRetries (s : Scheduler) (now : Nat) (order : List Bytes32) : Scheduler × List ReadyRetry :=
  let (s, replies) := s.next (.message now order .getDueDistroRetries)
  match replies with
  | [⟨_, .retries retries, _⟩] => (s, retries)
  | _ => (s, [])

end Scheduler

namespace DownloadSchedulerActor
variable {entries : Accounts Bytes32 RetryEntry} {h : Bytes32}

lemma lookup_takeRetries (hashes : List Bytes32) :
    (takeRetries hashes entries).2.lookup h = if h ∈ hashes then none else entries.lookup h := by
  induction hashes generalizing entries with
  | nil => rfl
  | cons hash hashes ih =>
    rw [takeRetries]
    split
    · rw [ih]
      by_cases hh : h = hash
      · subst hh
        simp
      · simp [hh, AList.lookup_erase_ne hh]
    · rename_i hnone
      rw [ih]
      by_cases hh : h = hash
      · subst hh
        simp [hnone]
      · simp [hh]

lemma countP_takeRetries (hashes : List Bytes32) : (takeRetries hashes entries).1.countP (·.hash = h)
    = if h ∈ hashes ∧ (entries.lookup h).isSome then 1 else 0 := by
  induction hashes generalizing entries with
  | nil => simp [takeRetries]
  | cons hash hashes ih =>
    rw [takeRetries]
    split
    · rename_i e he
      rw [countP_cons, ih]
      by_cases hh : h = hash
      · subst hh
        simp [RetryEntry.intoReadyRetry, he]
      · simp [hh, Ne.symm hh, AList.lookup_erase_ne hh, RetryEntry.intoReadyRetry]
    · rename_i hnone
      rw [ih]
      by_cases hh : h = hash
      · subst hh
        simp [hnone]
      · simp [hh]

lemma mem_iterate {order : List Bytes32} {e : RetryEntry} :
    (h, e) ∈ iterate entries order ↔ entries.lookup h = some e := by
  simp only [iterate, mem_filterMap, Option.map_eq_some_iff, Prod.mk.injEq]
  constructor
  · rintro ⟨hash, _, e', he, rfl, rfl⟩
    exact he
  · intro he
    refine ⟨h, ?_, e, he, rfl, rfl⟩
    have hkey : h ∈ entries.keys := by
      rw [← AList.mem_keys, ← AList.lookup_isSome, he]
      rfl
    by_cases ho : h ∈ order
    · exact mem_append_left _ (mem_dedup.mpr ho)
    · exact mem_append_right _ (mem_filter.mpr ⟨hkey, by simpa using ho⟩)

/-- A retry is taken out and handed over once, or stays. -/
lemma drainRetries_spec (a : DownloadSchedulerActor) (order : List Bytes32) (predicate : RetryEntry → Bool) :
    (((a.drainRetries order predicate).1.retryEntries.lookup h = a.retryEntries.lookup h
        ∧ (a.drainRetries order predicate).2.countP (·.hash = h) = 0)
      ∨ ∃ e, a.retryEntries.lookup h = some e ∧ predicate e = true
        ∧ (a.drainRetries order predicate).1.retryEntries.lookup h = none
        ∧ (a.drainRetries order predicate).2.countP (·.hash = h) = 1) := by
  have hdue : h ∈ ((iterate a.retryEntries order).filter fun e => predicate e.2).map Prod.fst
      ↔ ∃ e, a.retryEntries.lookup h = some e ∧ predicate e = true := by
    simp only [mem_map, mem_filter, Prod.exists, exists_and_right, exists_eq_right, mem_iterate]
  by_cases hh : ∃ e, a.retryEntries.lookup h = some e ∧ predicate e = true
  · obtain ⟨e, he, hp⟩ := hh
    have hmem := hdue.mpr ⟨e, he, hp⟩
    refine .inr ⟨e, he, hp, ?_, ?_⟩
    · exact (lookup_takeRetries _).trans (if_pos hmem)
    · exact (countP_takeRetries _).trans (if_pos ⟨hmem, by rw [he]; rfl⟩)
  · have hmem := mt hdue.mp hh
    exact .inl ⟨(lookup_takeRetries _).trans (if_neg hmem),
      (countP_takeRetries _).trans (if_neg fun h => hmem h.1)⟩

lemma handleMessage_retryConfig (a : DownloadSchedulerActor) (d : Delivery) (message : SchedulerMessage) :
    (a.handleMessage d message).1.retryConfig = a.retryConfig := by
  cases message with
  | waitForCapacity =>
    dsimp only [handleMessage, waitForCapacity]
    split <;> rfl
  | releaseCapacity =>
    dsimp only [handleMessage, releaseCapacity, notifyNextWaiter]
    split <;> rfl
  | queueFailedDownload ticket tag downloadType =>
    dsimp only [handleMessage, queueFailedDownload]
    split
    · rfl
    · split <;> rfl
  | startParameterRetry =>
    dsimp only [handleMessage, startParameterRetry]
    split
    · rfl
    · split <;> rfl
  | removeRetry _ => rfl
  | getDueConfigRetries => rfl
  | getDueDistroRetries => rfl

end DownloadSchedulerActor

/-- A result that is being downloaded (in Rust `Download` and `ReadingFinishedDownload`). -/
structure ResultDownload where
  ticket : BlobTicket
  tag : Bytes
  peers : List Bytes32
deriving DecidableEq, Repr

/-- The scheduler, the requests for results (Rust `rx_request_download`), and the downloads that are going on. -/
structure Downloads where
  scheduler : Scheduler
  requests : List (BlobTicket × Bytes)
  started : List ResultDownload

/-- A result is announced, the oldest request is started, a download is done or fails, the timer for retries goes off, or
the scheduler is asked something for the model. -/
inductive DownloadInput where
  | request (ticket : BlobTicket) (tag : Bytes)
  | start (peers : List Bytes32)
  | complete (download : ResultDownload)
  | fail (download : ResultDownload) (now : Nat)
  | retryTick (now : Nat) (order : List Bytes32)
  | sharing (now : Nat) (order : List Bytes32) (message : SchedulerMessage)

/-- What comes of it: how a failed download was queued, or what is tried again. -/
inductive DownloadOutput where
  | quiet
  | queue (result : RetryQueueResult)
  | retried (retries : List ReadyRetry)
deriving DecidableEq

def SchedulerMessage.isSharing : SchedulerMessage → Bool
  | .queueFailedDownload _ _ (.distroResult _) => false
  | .getDueDistroRetries => false
  | _ => true

namespace DownloadSchedulerActor

lemma lookup_sharing {a : DownloadSchedulerActor} {d : Delivery} {message : SchedulerMessage} (h : Bytes32)
    (hm : message.isSharing = true) :
    (a.handleMessage d message).1.retryEntries.lookup h = a.retryEntries.lookup h
      ∨ (a.handleMessage d message).1.retryEntries.lookup h = none
      ∨ ∃ e request, (a.handleMessage d message).1.retryEntries.lookup h = some e
        ∧ e.downloadType = .modelSharing request := by
  have herase : ∀ hash, (a.retryEntries.erase hash).lookup h = a.retryEntries.lookup h
      ∨ (a.retryEntries.erase hash).lookup h = none := by
    intro hash
    by_cases hh : h = hash
    · subst hh
      exact .inr (AList.lookup_erase _ _)
    · exact .inl (AList.lookup_erase_ne hh)
  cases message with
  | waitForCapacity =>
    dsimp only [handleMessage, waitForCapacity]
    split <;> exact .inl rfl
  | releaseCapacity =>
    dsimp only [handleMessage, releaseCapacity, notifyNextWaiter]
    split <;> exact .inl rfl
  | queueFailedDownload ticket tag downloadType =>
    cases downloadType with
    | distroResult peers => cases hm
    | modelSharing request =>
      by_cases hh : h = ticket.hash
      · subst hh
        exact .inr (.inr ⟨_, request, AList.lookup_insert _, rfl⟩)
      · exact .inl (AList.lookup_insert_ne hh)
  | removeRetry hash => exact (herase hash).imp_right .inl
  | startParameterRetry =>
    dsimp only [handleMessage, startParameterRetry]
    split
    · exact .inl rfl
    · split
      · exact (herase _).imp_right .inl
      · exact .inl rfl
  | getDueConfigRetries =>
    obtain ⟨hsame, _⟩ | ⟨_, _, _, hnone, _⟩ := drainRetries_spec (h := h) a d.order configDue
    · exact .inl hsame
    · exact .inr (.inl hnone)
  | getDueDistroRetries => cases hm

end DownloadSchedulerActor

namespace Downloads

/-- One step. The client refuses nothing, but only what has been requested can be started, and only what is going on can be
done or fail. -/
def next (s : Downloads) : DownloadInput → Except Unit (Downloads × DownloadOutput)
  | .request ticket tag => .ok ({ s with requests := s.requests ++ [(ticket, tag)] }, .quiet)
  | .start peers =>
    match s.requests with
    | [] => .error ()
    | (ticket, tag) :: requests =>
      .ok ({ s with requests, started := s.started ++ [⟨ticket, tag, peers⟩] }, .quiet)
  | .complete download =>
    if download ∈ s.started then
      let (scheduler, _) := s.scheduler.next (.message 0 [] (.removeRetry download.ticket.hash))
      .ok ({ s with scheduler, started := s.started.erase download }, .quiet)
    else
      .error ()
  | .fail download now =>
    if download ∈ s.started then
      let (scheduler, result) :=
        s.scheduler.queueFailedDownload now download.ticket download.tag (.distroResult download.peers)
      .ok ({ s with scheduler, started := s.started.erase download }, .queue result)
    else
      .error ()
  | .retryTick now order =>
    let (scheduler, retries) := s.scheduler.getDueDistroRetries now order
    .ok ({ s with scheduler, requests := s.requests ++ retries.map fun retry => (retry.ticket, retry.tag) },
      .retried retries)
  | .sharing now order message =>
    if message.isSharing then
      let (scheduler, _) := s.scheduler.next (.message now order message)
      .ok ({ s with scheduler }, .quiet)
    else
      .error ()

def machine (maxConcurrent : Nat) (retryConfig : RetryConfig) : Machine Downloads DownloadInput DownloadOutput Unit where
  init s := s = ⟨⟨.new maxConcurrent retryConfig, 0, []⟩, [], []⟩
  step := next

abbrev Record := List (Event Downloads DownloadInput DownloadOutput)

/-- The entry of a hash in the queue. -/
def entry (s : Downloads) (hash : Bytes32) : Option RetryEntry := s.scheduler.actor.retryEntries.lookup hash

lemma prevRetries_eq {s : Downloads} {hash : Bytes32} {o : Option RetryEntry} (h : s.entry hash = o) :
    s.scheduler.prevRetries hash = (o.map RetryEntry.retries).getD 0 := by
  subst h
  rfl

/-- How often a result has been handed out for retry since it was last downloaded. -/
def handed (hash : Bytes32) : Record → Nat
  | [] => 0
  | ev :: tr =>
    match ev.input, ev.output with
    | .complete download, _ => if download.ticket.hash = hash then 0 else handed hash tr
    | .retryTick _ _, .retried retries => handed hash tr + retries.countP (·.hash = hash)
    | _, _ => handed hash tr

/-- The download of a result fails. -/
def Fails (hash : Bytes32) (ev : Event Downloads DownloadInput DownloadOutput) : Prop :=
  match ev.input with
  | .fail download _ => download.ticket.hash = hash
  | _ => False

instance (hash : Bytes32) (ev : Event Downloads DownloadInput DownloadOutput) : Decidable (Fails hash ev) := by
  unfold Fails
  split <;> infer_instance

/-- A result is handed out for retry at most `max` times before it has been downloaded, and given up when it fails
after that. -/
def Bounded (max : Nat) (hash : Bytes32) : Record → Prop
  | [] => True
  | ev :: tr =>
    Bounded max hash tr ∧ handed hash (ev :: tr) ≤ max
      ∧ (Fails hash ev → handed hash tr = max → ev.output = .queue .maxRetriesExceeded)

instance decidableBounded (max : Nat) (hash : Bytes32) : ∀ tr, Decidable (Bounded max hash tr)
  | [] => .isTrue trivial
  | _ :: tr =>
    have := decidableBounded max hash tr
    by unfold Bounded; infer_instance

/-- A hash is queued for a part of the model that has failed as often as a result may. -/
def QueuedForModel (max : Nat) (hash : Bytes32) (s : Downloads) : Prop :=
  ∃ e request, s.entry hash = some e ∧ e.downloadType = .modelSharing request ∧ max ≤ e.retries

/-- A result that has been handed out `max` times does not fail again before it has been downloaded, unless no retries are
allowed or its hash is queued for the model. -/
def Spared (max : Nat) (hash : Bytes32) : Record → Prop
  | [] => True
  | ev :: tr =>
    Spared max hash tr ∧ (Fails hash ev → max = 0 ∨ handed hash tr < max ∨ QueuedForModel max hash ev.before)

section Steps
variable {maxConcurrent now : Nat} {retryConfig : RetryConfig} {hash : Bytes32} {s s' : Downloads}
  {o : DownloadOutput} {download : ResultDownload} {i : DownloadInput}

lemma next_retryConfig (st : s.next i = .ok (s', o)) :
    s'.scheduler.actor.retryConfig = s.scheduler.actor.retryConfig := by
  cases i with
  | request ticket tag | retryTick now order =>
    cases st
    rfl
  | start peers =>
    dsimp only [next] at st
    split at st
    · cases st
    · cases st
      rfl
  | complete download =>
    dsimp only [next] at st
    split at st
    · cases st
      rfl
    · cases st
  | fail download now =>
    dsimp only [next] at st
    split at st
    · cases st
      obtain ⟨_, hq⟩ | ⟨_, _, hq⟩ := s.scheduler.queueFailedDownload_distro now download.ticket download.tag
        download.peers <;> rw [hq]
    · cases st
  | sharing now order message =>
    dsimp only [next] at st
    split at st
    · cases st
      exact DownloadSchedulerActor.handleMessage_retryConfig _ _ _
    · cases st

/-- What has been handed out as often as allowed is not in the queue. -/
structure Counted (max : Nat) (hash : Bytes32) (tr : Record) (s : Downloads) : Prop where
  bounded : handed hash tr ≤ max
  queued : ∀ e peers, s.entry hash = some e → e.downloadType = .distroResult peers → handed hash tr < max

variable {max : Nat} {tr tr' : Record}

lemma Counted.of_entry (hc : Counted max hash tr s) (hh : handed hash tr' = handed hash tr)
    (he : s'.entry hash = s.entry hash ∨ s'.entry hash = none
      ∨ ∃ e request, s'.entry hash = some e ∧ e.downloadType = .modelSharing request) : Counted max hash tr' s' := by
  refine ⟨hh ▸ hc.bounded, fun e peers hentry htype => ?_⟩
  rw [hh]
  obtain he | he | ⟨e', request, he, htype'⟩ := he
  · exact hc.queued e peers (he ▸ hentry) htype
  · rw [he] at hentry
    cases hentry
  · rw [he] at hentry
    cases hentry
    rw [htype] at htype'
    cases htype'

lemma Counted.complete (hc : Counted max hash tr s) (st : s.next (.complete download) = .ok (s', o)) :
    Counted max hash (⟨s, .complete download, o, s'⟩ :: tr) s' := by
  dsimp only [next] at st
  split at st
  · cases st
    by_cases hh : hash = download.ticket.hash
    · subst hh
      have hzero : ∀ s', handed download.ticket.hash (⟨s, .complete download, .quiet, s'⟩ :: tr) = 0 :=
        fun _ => if_pos rfl
      refine ⟨by rw [hzero]; exact Nat.zero_le _, fun e peers hentry _ => ?_⟩
      cases (AList.lookup_erase download.ticket.hash s.scheduler.actor.retryEntries).symm.trans hentry
    · exact hc.of_entry (if_neg (Ne.symm hh)) (.inl (AList.lookup_erase_ne hh))
  · cases st

lemma Counted.retryTick {order : List Bytes32} (hc : Counted max hash tr s)
    (st : s.next (.retryTick now order) = .ok (s', o)) :
    Counted max hash (⟨s, .retryTick now order, o, s'⟩ :: tr) s' := by
  obtain ⟨drained, hdrained⟩ : ∃ drained, drained
      = s.scheduler.actor.drainRetries order (DownloadSchedulerActor.distroDue now) := ⟨_, rfl⟩
  have hnext : s.next (.retryTick now order)
      = .ok ({ s with
        scheduler := ⟨drained.1, s.scheduler.taken + 1, s.scheduler.gone⟩
        requests := s.requests ++ drained.2.map fun retry => (retry.ticket, retry.tag) }, .retried drained.2) := by
    rw [hdrained]
    rfl
  rw [hnext] at st
  cases st
  have hspec := DownloadSchedulerActor.drainRetries_spec (h := hash) s.scheduler.actor order
    (DownloadSchedulerActor.distroDue now)
  rw [← hdrained] at hspec
  obtain ⟨hsame, hcount⟩ | ⟨e, he, hdue, hnone, hcount⟩ := hspec
  · refine hc.of_entry ?_ (.inl hsame)
    show handed hash tr + drained.2.countP (·.hash = hash) = handed hash tr
    rw [hcount, Nat.add_zero]
  · have hlt : handed hash tr < max := by
      unfold DownloadSchedulerActor.distroDue at hdue
      split at hdue
      · rename_i peers htype
        exact hc.queued e peers he htype
      · cases hdue
    refine ⟨?_, fun e' peers hentry _ => ?_⟩
    · show handed hash tr + drained.2.countP (·.hash = hash) ≤ max
      rw [hcount]
      exact hlt
    · cases hnone.symm.trans hentry

lemma Counted.fail (hc : Counted max hash tr s) (hmax : s.scheduler.actor.retryConfig.maxDistroRetries = max)
    (st : s.next (.fail download now) = .ok (s', o))
    (hspared : download.ticket.hash = hash → max = 0 ∨ handed hash tr < max ∨ QueuedForModel max hash s) :
    Counted max hash (⟨s, .fail download now, o, s'⟩ :: tr) s'
      ∧ (download.ticket.hash = hash → handed hash tr = max → o = .queue .maxRetriesExceeded) := by
  have hhanded : ∀ o s', handed hash (⟨s, .fail download now, o, s'⟩ :: tr) = handed hash tr := fun _ _ => rfl
  dsimp only [next] at st
  split at st
  · cases st
    obtain ⟨_, hq⟩ | ⟨hle, retryTime, hq⟩ := s.scheduler.queueFailedDownload_distro now download.ticket download.tag
      download.peers
    · rw [hq]
      refine ⟨hc.of_entry (hhanded _ _) ?_, fun _ _ => rfl⟩
      by_cases hh : hash = download.ticket.hash
      · subst hh
        exact .inr (.inl (AList.lookup_erase _ _))
      · exact .inl (AList.lookup_erase_ne hh)
    · rw [hq]
      by_cases hh : hash = download.ticket.hash
      · subst hh
        -- it was queued, so that the other reasons to be spared do not apply
        have hlt : handed download.ticket.hash tr < max := by
          obtain hzero | hlt | ⟨e, _, he, _, hretries⟩ := hspared rfl
          · omega
          · exact hlt
          · have hprev : s.scheduler.prevRetries download.ticket.hash = e.retries := prevRetries_eq he
            omega
        exact ⟨⟨hlt.le, fun _ _ _ _ => hlt⟩, fun _ he => absurd he hlt.ne⟩
      · exact ⟨hc.of_entry (hhanded _ _) (.inl (AList.lookup_insert_ne hh)), fun he => absurd he.symm hh⟩
  · cases st

lemma Counted.spared (hc : Counted max hash tr s) (hmax : s.scheduler.actor.retryConfig.maxDistroRetries = max)
    (st : s.next (.fail download now) = .ok (s', o))
    (hgiven : download.ticket.hash = hash → handed hash tr = max → o = .queue .maxRetriesExceeded)
    (hh : download.ticket.hash = hash) : max = 0 ∨ handed hash tr < max ∨ QueuedForModel max hash s := by
  obtain hlt | heq := hc.bounded.lt_or_eq
  · exact .inr (.inl hlt)
  · have ho := hgiven hh heq
    subst hh ho
    dsimp only [next] at st
    split at st
    · obtain ⟨hlt, _⟩ | ⟨_, retryTime, hq⟩ := s.scheduler.queueFailedDownload_distro now download.ticket download.tag
        download.peers
      · -- the entry that has failed often enough is not one of a result
        cases he : s.entry download.ticket.hash with
        | none =>
          have hprev : s.scheduler.prevRetries download.ticket.hash = 0 := prevRetries_eq he
          exact .inl (by omega)
        | some e =>
          have hprev : s.scheduler.prevRetries download.ticket.hash = e.retries := prevRetries_eq he
          cases htype : e.downloadType with
          | distroResult peers => exact absurd heq (hc.queued e peers he htype).ne
          | modelSharing request => exact .inr (.inr ⟨e, request, he, htype, by omega⟩)
      · rw [hq] at st
        cases st
    · cases st

/-- A spared failure is queued only while retries are left. -/
lemma Counted.step (hc : Counted max hash tr s) (hmax : s.scheduler.actor.retryConfig.maxDistroRetries = max)
    (st : s.next i = .ok (s', o))
    (hspared : Fails hash ⟨s, i, o, s'⟩ → max = 0 ∨ handed hash tr < max ∨ QueuedForModel max hash s) :
    Counted max hash (⟨s, i, o, s'⟩ :: tr) s'
      ∧ (Fails hash ⟨s, i, o, s'⟩ → handed hash tr = max → o = .queue .maxRetriesExceeded) := by
  cases i with
  | request ticket tag =>
    cases st
    exact ⟨hc.of_entry rfl (.inl rfl), by rintro ⟨⟩⟩
  | start peers =>
    dsimp only [next] at st
    split at st
    · cases st
    · cases st
      exact ⟨hc.of_entry rfl (.inl rfl), by rintro ⟨⟩⟩
  | complete download => exact ⟨hc.complete st, by rintro ⟨⟩⟩
  | fail download now => exact hc.fail hmax st hspared
  | retryTick now order => exact ⟨hc.retryTick st, by rintro ⟨⟩⟩
  | sharing now order message =>
    dsimp only [next] at st
    split at st
    · rename_i hm
      cases st
      exact ⟨hc.of_entry rfl (DownloadSchedulerActor.lookup_sharing hash hm), by rintro ⟨⟩⟩
    · cases st

lemma retryConfig_of_run (r : (machine maxConcurrent retryConfig).Run tr s) :
    s.scheduler.actor.retryConfig = retryConfig := by
  refine r.invariant (I := fun s => s.scheduler.actor.retryConfig = retryConfig) ?_ ?_
  · rintro s rfl
    rfl
  · intro s i s' o h st
    exact (next_retryConfig st).trans h

lemma counted_of_spared (r : (machine maxConcurrent retryConfig).Run tr s)
    (hspared : Spared retryConfig.maxDistroRetries hash tr) : Counted retryConfig.maxDistroRetries hash tr s := by
  refine r.history (P := fun tr s => Spared retryConfig.maxDistroRetries hash tr →
    Counted retryConfig.maxDistroRetries hash tr s) ?_ ?_ hspared
  · rintro s rfl _
    exact ⟨Nat.zero_le _, by rintro _ _ ⟨⟩⟩
  · intro tr s i s' o r ih st hspared
    exact ((ih hspared.1).step (by rw [retryConfig_of_run r]) st hspared.2).1

/-- The number of retries is bounded in just those runs that do not put the bound to the test: a result is handed out for
retry at most `max_distro_retries` times until it has been downloaded, and given up when it fails after that, if and only if
no result that has been handed out that often fails again. -/
theorem retries_bounded_iff (r : (machine maxConcurrent retryConfig).Run tr s) (hash : Bytes32) :
    Bounded retryConfig.maxDistroRetries hash tr ↔ Spared retryConfig.maxDistroRetries hash tr := by
  induction tr generalizing s with
  | nil => exact Iff.rfl
  | cons ev tr ih =>
    obtain ⟨before, st, _⟩ := r.cons_inv
    have hmax : ev.before.scheduler.actor.retryConfig.maxDistroRetries = retryConfig.maxDistroRetries := by
      rw [retryConfig_of_run before]
    constructor
    · rintro ⟨hbounded, _, hgiven⟩
      have hspared := (ih before).mp hbounded
      refine ⟨hspared, fun hfails => ?_⟩
      have hc := counted_of_spared before hspared
      obtain ⟨s, i, o, s'⟩ := ev
      cases i with
      | fail download now => exact hc.spared hmax st hgiven hfails
      | _ => cases hfails
    · rintro ⟨hspared, hev⟩
      obtain ⟨hc, hgiven⟩ := (counted_of_spared before hspared).step hmax st hev
      exact ⟨(ih before).mpr hspared, hc.bounded, hgiven⟩

end Steps

section Endless

/-- A result that is announced once. -/
def endlessTicket : BlobTicket := ⟨7⟩

/-- The result is started and fails, and an hour later it is due. -/
def endlessRound (now : Nat) : List DownloadInput :=
  [.start [], .fail ⟨endlessTicket, [], []⟩ now, .retryTick (now + 3600) []]

/-- It is announced and fails four times, without ever being downloaded. -/
def endlessInputs : List DownloadInput :=
  .request endlessTicket [] :: (endlessRound 0 ++ endlessRound 4000 ++ endlessRound 8000 ++ endlessRound 12000)

def endless : Record × Downloads :=
  (machine 4 .default).play [] ⟨⟨.new 4 .default, 0, []⟩, [], []⟩ endlessInputs

/-- How the failures of a record were answered, newest first. -/
def failures (tr : Record) : List RetryQueueResult :=
  tr.filterMap fun ev =>
    match ev.output with
    | .queue result => some result
    | _ => none

/-- With three retries allowed, a result that is never downloaded is handed out a fourth time, and its fourth failure is
queued like the others. -/
theorem retried_without_end : (machine 4 .default).Run endless.1 endless.2
    ∧ RetryConfig.default.maxDistroRetries = 3 ∧ handed endlessTicket.hash endless.1 = 4
    ∧ failures endless.1 = [.queued, .queued, .queued, .queued] ∧ ¬ Bounded 3 endlessTicket.hash endless.1 := by
  have hinit : (machine 4 .default).Run [] ⟨⟨.new 4 .default, 0, []⟩, [], []⟩ := .init rfl
  exact ⟨hinit.play endlessInputs, rfl, by decide +kernel⟩

/-- The same result, downloaded at the first retry. -/
def retriedOnce : Record × Downloads :=
  (machine 4 .default).play [] ⟨⟨.new 4 .default, 0, []⟩, [], []⟩
    (.request endlessTicket [] :: endlessRound 0 ++ [.start [], .complete ⟨endlessTicket, [], []⟩])

/-- A download that fails once is retried once. -/
theorem retries_bounded_iff_retriedOnce : retriedOnce.1.length = 6 ∧ Bounded 3 endlessTicket.hash retriedOnce.1
    ∧ Spared 3 endlessTicket.hash retriedOnce.1 := by
  have hinit : (machine 4 .default).Run [] ⟨⟨.new 4 .default, 0, []⟩, [], []⟩ := .init rfl
  have hbounded : retriedOnce.1.length = 6 ∧ Bounded 3 endlessTicket.hash retriedOnce.1 := by decide +kernel
  exact ⟨hbounded.1, hbounded.2, (retries_bounded_iff (hinit.play _) _).mp hbounded.2⟩

end Endless

end Downloads
end Leviathan
