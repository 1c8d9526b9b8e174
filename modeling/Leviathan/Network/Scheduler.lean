import Leviathan.Lib.Accounts
import Leviathan.Lib.Run
import Leviathan.Network.Payload

/-!
# The download scheduler

The actor that decides when a download may start and when one that has failed is tried again
(`shared/network/src/download/scheduler.rs`). It takes one message at a time, and answers on a channel that comes with
the message.

`Scheduler` is the actor with those that wait for its answers. Messages are numbered in the order in which the actor
takes them, and the number stands for the channel of the message. Whoever has sent one may go away at any time
(`hangUp`), and then an answer cannot be delivered; `Reply` says which could. The clock and the order in which a Rust
`HashMap` is gone through come with each message. Left out: logging, and the conversion of the backoff from floating
point.
-/

namespace Leviathan

/-- What is asked of a peer that shares the model. -/
inductive ModelRequestType where
  | config
  | parameter (name : String)
deriving DecidableEq, Repr

/-- What is downloaded; for a result, with the peers that may be asked for it. -/
inductive DownloadType where
  | distroResult (peers : List Bytes32)
  | modelSharing (request : ModelRequestType)
deriving DecidableEq, Repr

/-- Rust `RetryConfig`. The backoff is that after a number of retries, in Rust `backoff_base.mul_f32(2_f32.powi(..))`. -/
structure RetryConfig where
  backoff : Nat → Nat
  maxDistroRetries : Nat

/-- A download that has failed. -/
structure RetryEntry where
  retries : Nat
  retryTime : Option Nat
  ticket : BlobTicket
  tag : Bytes
  downloadType : DownloadType
deriving DecidableEq, Repr

/-- A download that is to be tried again. -/
structure ReadyRetry where
  hash : Bytes32
  ticket : BlobTicket
  tag : Bytes
  downloadType : DownloadType
  retries : Nat
deriving DecidableEq, Repr

def RetryEntry.intoReadyRetry (entry : RetryEntry) (hash : Bytes32) : ReadyRetry :=
  ⟨hash, entry.ticket, entry.tag, entry.downloadType, entry.retries⟩

inductive RetryQueueResult where
  | queued
  | maxRetriesExceeded
deriving DecidableEq, Repr

/-- What the actor is asked. -/
inductive SchedulerMessage where
  | waitForCapacity
  | releaseCapacity
  | queueFailedDownload (ticket : BlobTicket) (tag : Bytes) (downloadType : DownloadType)
  | removeRetry (hash : Bytes32)
  | startParameterRetry
  | getDueConfigRetries
  | getDueDistroRetries
deriving DecidableEq, Repr

inductive Answer where
  | capacity
  | retryQueue (result : RetryQueueResult)
  | removed (removed : Bool)
  | parameterRetry (retry : Option ReadyRetry)
  | retries (retries : List ReadyRetry)
deriving DecidableEq, Repr

/-- An answer to the message with a number, and whether there was somebody to take it. -/
structure Reply where
  id : Nat
  answer : Answer
  delivered : Bool
deriving DecidableEq, Repr

/-- What the actor finds when it takes a message: its number, the time, an order of the retries, and the messages whose
answers nobody waits for. -/
structure Delivery where
  id : Nat
  now : Nat
  order : List Bytes32
  gone : List Nat

/-- Answer the message that has been taken. -/
def Delivery.reply (d : Delivery) (answer : Answer) : Reply := ⟨d.id, answer, decide (d.id ∉ d.gone)⟩

/-- Rust `DownloadSchedulerActor`. Who waits for capacity is given by the numbers of their messages. -/
structure DownloadSchedulerActor where
  activeDownloads : Nat
  maxConcurrent : Nat
  waitingForCapacity : List Nat
  retryEntries : Accounts Bytes32 RetryEntry
  retryConfig : RetryConfig

namespace DownloadSchedulerActor

def new (maxConcurrent : Nat) (retryConfig : RetryConfig) : DownloadSchedulerActor :=
  ⟨0, maxConcurrent, [], ∅, retryConfig⟩

/-- The entries of a map one after the other, first those that an order names, in that order. -/
def iterate (entries : Accounts Bytes32 RetryEntry) (order : List Bytes32) : List (Bytes32 × RetryEntry) :=
  (order.dedup ++ entries.keys.filter (· ∉ order)).filterMap fun hash => (entries.lookup hash).map fun e => (hash, e)

/-- Remove entries, and return those that were there (in Rust `drain_retries`). -/
def takeRetries : List Bytes32 → Accounts Bytes32 RetryEntry → List ReadyRetry × Accounts Bytes32 RetryEntry
  | [], entries => ([], entries)
  | hash :: hashes, entries =>
    match entries.lookup hash with
    | some entry =>
      let (retries, entries) := takeRetries hashes (entries.erase hash)
      (entry.intoReadyRetry hash :: retries, entries)
    | none => takeRetries hashes entries

def drainRetries (a : DownloadSchedulerActor) (order : List Bytes32) (predicate : RetryEntry → Bool) :
    DownloadSchedulerActor × List ReadyRetry :=
  let dueHashes := ((iterate a.retryEntries order).filter fun e => predicate e.2).map Prod.fst
  let (retries, retryEntries) := takeRetries dueHashes a.retryEntries
  ({ a with retryEntries }, retries)

/-- The first waiter that is still there, and those behind it (the loop of `notify_next_waiter`). -/
def nextWaiter (gone : List Nat) : List Nat → Option Nat × List Nat
  | [] => (none, [])
  | waiter :: waiters => if waiter ∈ gone then nextWaiter gone waiters else (some waiter, waiters)

def notifyNextWaiter (a : DownloadSchedulerActor) (gone : List Nat) : DownloadSchedulerActor × List Reply :=
  match nextWaiter gone a.waitingForCapacity with
  | (some waiter, waitingForCapacity) =>
    ({ a with activeDownloads := a.activeDownloads + 1, waitingForCapacity }, [⟨waiter, .capacity, true⟩])
  | (none, waitingForCapacity) => ({ a with waitingForCapacity }, [])

/-- The branch of `handle_message` for `WaitForCapacity`. -/
def waitForCapacity (a : DownloadSchedulerActor) (d : Delivery) : DownloadSchedulerActor × List Reply :=
  if a.activeDownloads < a.maxConcurrent then
    ({ a with activeDownloads := a.activeDownloads + 1 }, [d.reply .capacity])
  else
    ({ a with waitingForCapacity := a.waitingForCapacity ++ [d.id] }, [])

/-- The branch of `handle_message` for `ReleaseCapacity`. -/
def releaseCapacity (a : DownloadSchedulerActor) (d : Delivery) : DownloadSchedulerActor × List Reply :=
  { a with activeDownloads := a.activeDownloads - 1 }.notifyNextWaiter d.gone

/-- The branch of `handle_message` for `QueueFailedDownload`. -/
def queueFailedDownload (a : DownloadSchedulerActor) (d : Delivery) (ticket : BlobTicket) (tag : Bytes)
    (downloadType : DownloadType) : DownloadSchedulerActor × List Reply :=
  let prevRetries := ((a.retryEntries.lookup ticket.hash).map RetryEntry.retries).getD 0
  match downloadType with
  | .modelSharing _ =>
    ({ a with
        retryEntries := a.retryEntries.insert ticket.hash ⟨prevRetries + 1, none, ticket, tag, downloadType⟩ },
      [d.reply (.retryQueue .queued)])
  | .distroResult _ =>
    if a.retryConfig.maxDistroRetries < prevRetries + 1 then
      ({ a with retryEntries := a.retryEntries.erase ticket.hash }, [d.reply (.retryQueue .maxRetriesExceeded)])
    else
      ({ a with
          retryEntries := a.retryEntries.insert ticket.hash
            ⟨prevRetries + 1, some (d.now + a.retryConfig.backoff prevRetries), ticket, tag, downloadType⟩ },
        [d.reply (.retryQueue .queued)])

/-- The branch of `handle_message` for `RemoveRetry`. -/
def removeRetry (a : DownloadSchedulerActor) (d : Delivery) (hash : Bytes32) : DownloadSchedulerActor × List Reply :=
  ({ a with retryEntries := a.retryEntries.erase hash }, [d.reply (.removed (a.retryEntries.lookup hash).isSome)])

/-- Whether an entry is a parameter that may be asked for again. -/
def parameterDue (now : Nat) (entry : RetryEntry) : Bool :=
  match entry.downloadType with
  | .modelSharing (.parameter _) => (entry.retryTime.map fun t => decide (t ≤ now)).getD true
  | _ => false

/-- The branch of `handle_message` for `StartParameterRetry`. -/
def startParameterRetry (a : DownloadSchedulerActor) (d : Delivery) : DownloadSchedulerActor × List Reply :=
  if a.maxConcurrent ≤ a.activeDownloads then
    (a, [d.reply (.parameterRetry none)])
  else
    match (iterate a.retryEntries d.order).find? fun e => parameterDue d.now e.2 with
    | some (hash, entry) =>
      ({ a with activeDownloads := a.activeDownloads + 1, retryEntries := a.retryEntries.erase hash },
        [d.reply (.parameterRetry (some (entry.intoReadyRetry hash)))])
    | none => (a, [d.reply (.parameterRetry none)])

def configDue (entry : RetryEntry) : Bool := entry.downloadType = .modelSharing .config

/-- Whether an entry is a result that may be asked for again. -/
def distroDue (now : Nat) (entry : RetryEntry) : Bool :=
  match entry.downloadType with
  | .distroResult _ => (entry.retryTime.map fun t => decide (t ≤ now)).getD false
  | _ => false

/-- The branches of `handle_message` for `GetDueConfigRetries` and `GetDueDistroRetries`. -/
def getDueRetries (a : DownloadSchedulerActor) (d : Delivery) (predicate : RetryEntry → Bool) :
    DownloadSchedulerActor × List Reply :=
  let (a, retries) := a.drainRetries d.order predicate
  (a, [d.reply (.retries retries)])

def handleMessage (a : DownloadSchedulerActor) (d : Delivery) : SchedulerMessage → DownloadSchedulerActor × List Reply
  | .waitForCapacity => a.waitForCapacity d
  | .releaseCapacity => a.releaseCapacity d
  | .queueFailedDownload ticket tag downloadType => a.queueFailedDownload d ticket tag downloadType
  | .removeRetry hash => a.removeRetry d hash
  | .startParameterRetry => a.startParameterRetry d
  | .getDueConfigRetries => a.getDueRetries d configDue
  | .getDueDistroRetries => a.getDueRetries d (distroDue d.now)

end DownloadSchedulerActor

/-- The actor, the number of messages it has taken, and the messages whose answers nobody waits for. -/
structure Scheduler where
  actor : DownloadSchedulerActor
  taken : Nat
  gone : List Nat

/-- What can happen: the actor takes a message, or somebody no longer waits for an answer. -/
inductive SchedulerInput where
  | message (now : Nat) (order : List Bytes32) (message : SchedulerMessage)
  | hangUp (id : Nat)

namespace Scheduler

def next (s : Scheduler) : SchedulerInput → Scheduler × List Reply
  | .message now order message =>
    let (actor, replies) := s.actor.handleMessage ⟨s.taken, now, order, s.gone⟩ message
    ({ s with actor, taken := s.taken + 1 }, replies)
  | .hangUp id => ({ s with gone := id :: s.gone }, [])

/-- The scheduler. It refuses nothing. -/
def machine (maxConcurrent : Nat) (retryConfig : RetryConfig) :
    Machine Scheduler SchedulerInput (List Reply) Empty where
  init s := s = ⟨.new maxConcurrent retryConfig, 0, []⟩
  step s i := .ok (s.next i)

abbrev Record := List (Event Scheduler SchedulerInput (List Reply))

end Scheduler
end Leviathan
