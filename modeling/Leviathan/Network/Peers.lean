import Leviathan.Lib.Accounts
import Leviathan.Lib.Run
import Leviathan.Network.Payload

/-!
# The peers that share the model

The actor that says which peer is asked next for a part of the model (`shared/network/src/p2p_model_sharing.rs`). A peer
is handed out and is not available until a request to it has succeeded or failed. A peer that fails too often is no
longer made available.

What is known of the speed of the peers comes with each request for one; of its floating point numbers only comparisons
are used (`Speeds`). The errors of a peer are an eight bit number. What happens if it overflows depends on how the
program was compiled, and is a parameter. Left out: logging, and that a sort may abort over comparisons with NaN.
-/

namespace Leviathan
open List

/-- What is known of the speed of a peer. -/
inductive PeerBandwidth (φ : Type) where
  | notMeasured
  | measured (bandwidth : φ)
deriving DecidableEq, Repr

/-- What the actor asks of floating point numbers: whether one is positive, and Rust `partial_cmp`. -/
structure Speeds (φ : Type) where
  positive : φ → Bool
  partialCmp : φ → φ → Option Ordering

/-- What the actor sees of Rust `ConnectionMonitor`. -/
structure ConnectionMonitor (φ : Type) where
  getBandwidth : Bytes32 → Option (PeerBandwidth φ)
  getLatency : Bytes32 → Option Nat

/-- What is sent to the actor, with what is known of the peers at that time. -/
inductive PeerCommand (φ : Type) where
  | setPeers (peers : List Bytes32)
  | getPeer (monitor : ConnectionMonitor φ)
  | reportSuccess (peerId : Bytes32)
  | reportModelDownloadError (blobTicket : Option BlobTicket) (peerId : Bytes32)

/-- What comes of a command: a peer that may be asked, if there is one, or that the process is to end. -/
inductive PeerOutput where
  | quiet
  | peer (peer : Option Bytes32)
  | cancelled
deriving DecidableEq, Repr

/-- Why the actor aborts: the errors of a peer overflow. -/
inductive PeerPanic where
  | overflow
deriving DecidableEq, Repr

/-- Rust `Duration::MAX`, in nanoseconds. -/
def durationMax : Nat := (2 ^ 64 - 1) * 10 ^ 9 + 999999999

/-- Rust `PeerManagerActor`, without the connection monitor. -/
structure PeerManagerActor where
  availablePeers : List Bytes32
  errorsPerPeers : Accounts Bytes32 (BitVec 8)
  maxErrorsPerPeer : BitVec 8

namespace PeerManagerActor
variable {φ : Type}

def new (maxErrorsPerPeer : BitVec 8) : PeerManagerActor := ⟨[], ∅, maxErrorsPerPeer⟩

def bandwidthTier (S : Speeds φ) : PeerBandwidth φ → Nat
  | .measured v => if S.positive v then 0 else 2
  | .notMeasured => 1

def compareBandwidth (S : Speeds φ) : PeerBandwidth φ → PeerBandwidth φ → Ordering
  | .measured a, .measured b => (S.partialCmp b a).getD .eq
  | _, _ => .eq

/-- The order in which peers are handed out (in Rust `sort_peers_by_quality`). -/
def compareQuality (S : Speeds φ) (a b : Bytes32 × PeerBandwidth φ × Nat) : Ordering :=
  ((compare (bandwidthTier S a.2.1) (bandwidthTier S b.2.1)).then (compareBandwidth S a.2.1 b.2.1)).then
    (compare a.2.2 b.2.2)

def sortPeersByQuality (S : Speeds φ) (peers : List (Bytes32 × PeerBandwidth φ × Nat)) :
    List (Bytes32 × PeerBandwidth φ × Nat) :=
  peers.mergeSort fun a b => (compareQuality S a b).isLE

def withPriority (monitor : ConnectionMonitor φ) (peer : Bytes32) : Bytes32 × PeerBandwidth φ × Nat :=
  (peer, (monitor.getBandwidth peer).getD .notMeasured, (monitor.getLatency peer).getD durationMax)

/-- The branch of `handle_message` for `GetPeer`. -/
def getPeer (S : Speeds φ) (a : PeerManagerActor) (monitor : ConnectionMonitor φ) : PeerManagerActor × Option Bytes32 :=
  match (sortPeersByQuality S (a.availablePeers.map (withPriority monitor))).map Prod.fst with
  | [] => ({ a with availablePeers := [] }, none)
  | peer :: availablePeers => ({ a with availablePeers }, some peer)

/-- The branch of `handle_message` for `SetPeers`. -/
def setPeers (a : PeerManagerActor) (peers : List Bytes32) : PeerManagerActor :=
  { a with
    availablePeers := peers
    errorsPerPeers := peers.foldl (fun errors peer => errors.insert peer 0) ∅ }

/-- Make a peer available, unless it is. -/
def pushBack (a : PeerManagerActor) (peerId : Bytes32) : PeerManagerActor :=
  if peerId ∈ a.availablePeers then a else { a with availablePeers := a.availablePeers ++ [peerId] }

/-- Rust `+= 1` of an eight bit number, with or without overflow checks. -/
def incrementU8 (overflowChecks : Bool) (n : BitVec 8) : Exec Empty PeerPanic (BitVec 8) :=
  if overflowChecks = true ∧ n = 255 then Exec.abort .overflow else .ok (n + 1)

/-- How often a peer has failed. -/
def errors (a : PeerManagerActor) (peerId : Bytes32) : BitVec 8 := (a.errorsPerPeers.lookup peerId).getD 0

/-- The branch of `handle_message` for `ReportModelDownloadError`. -/
def reportModelDownloadError (overflowChecks : Bool) (a : PeerManagerActor) (peerId : Bytes32) :
    Exec Empty PeerPanic (PeerManagerActor × PeerOutput) := do
  let errorCount ← incrementU8 overflowChecks (a.errors peerId)
  let a := { a with errorsPerPeers := a.errorsPerPeers.insert peerId errorCount }
  if a.maxErrorsPerPeer ≤ errorCount then
    let a := { a with availablePeers := a.availablePeers.filter (· ≠ peerId) }
    if a.availablePeers.isEmpty && a.errorsPerPeers.entries.all fun e => a.maxErrorsPerPeer ≤ e.2 then .ok (a, .cancelled)
    else .ok (a, .quiet)
  else .ok (a.pushBack peerId, .quiet)

def handleMessage (S : Speeds φ) (overflowChecks : Bool) (a : PeerManagerActor) :
    PeerCommand φ → Exec Empty PeerPanic (PeerManagerActor × PeerOutput)
  | .setPeers peers => .ok (a.setPeers peers, .quiet)
  | .getPeer monitor => .ok ((a.getPeer S monitor).1, .peer (a.getPeer S monitor).2)
  | .reportSuccess peerId => .ok (a.pushBack peerId, .quiet)
  | .reportModelDownloadError _ peerId => a.reportModelDownloadError overflowChecks peerId

/-- The peers that are handed out if one is asked for again and again. -/
def offered (S : Speeds φ) (a : PeerManagerActor) : List (ConnectionMonitor φ) → List Bytes32
  | [] => []
  | monitor :: monitors => (a.getPeer S monitor).2.toList ++ (a.getPeer S monitor).1.offered S monitors

section Offers
variable {S : Speeds φ} {a : PeerManagerActor} {monitor : ConnectionMonitor φ} {peer : Bytes32}

lemma getPeer_perm (S : Speeds φ) (a : PeerManagerActor) (monitor : ConnectionMonitor φ) :
    ((a.getPeer S monitor).2.toList ++ (a.getPeer S monitor).1.availablePeers).Perm a.availablePeers := by
  have hperm : ((sortPeersByQuality S (a.availablePeers.map (withPriority monitor))).map Prod.fst).Perm a.availablePeers := by
    have hsort : (sortPeersByQuality S (a.availablePeers.map (withPriority monitor))).Perm _ := mergeSort_perm _ _
    refine (hsort.map Prod.fst).trans (.of_eq ?_)
    rw [map_map]
    exact map_id _
  rw [getPeer]
  split
  · rename_i hnil
    rwa [hnil] at hperm
  · rename_i peer rest hcons
    rwa [hcons] at hperm

lemma getPeer_none (h : (a.getPeer S monitor).2 = none) : a.availablePeers = [] := by
  have hperm := getPeer_perm S a monitor
  have hrest : (a.getPeer S monitor).1.availablePeers = [] := by
    rw [getPeer] at h ⊢
    split at h
    · rfl
    · cases h
  rw [h, hrest] at hperm
  exact hperm.symm.eq_nil

lemma mem_offered (S : Speeds φ) (monitor : ConnectionMonitor φ) (h : peer ∈ a.availablePeers) :
    peer ∈ a.offered S (List.replicate a.availablePeers.length monitor) := by
  generalize hn : a.availablePeers.length = n
  induction n generalizing a with
  | zero =>
    rw [length_eq_zero_iff.mp hn] at h
    cases h
  | succ n ih =>
    have hperm := getPeer_perm S a monitor
    have hlen := hperm.length_eq
    rw [replicate_succ, offered, mem_append]
    obtain hp | hp := mem_append.mp (hperm.mem_iff.mpr h)
    · exact .inl hp
    · refine .inr (ih hp ?_)
      cases hpeer : (a.getPeer S monitor).2 with
      | none =>
        rw [getPeer_none hpeer] at hn
        cases hn
      | some first =>
        rw [hpeer, hn] at hlen
        exact Nat.succ.inj (by simpa [Nat.add_comm] using hlen)

lemma offered_iff : (∃ monitors, peer ∈ a.offered S monitors) ↔ peer ∈ a.availablePeers := by
  constructor
  · rintro ⟨monitors, h⟩
    induction monitors generalizing a with
    | nil => cases h
    | cons monitor monitors ih =>
      refine (getPeer_perm S a monitor).mem_iff.mp (mem_append.mpr ?_)
      obtain h | h := mem_append.mp h
      · exact .inl h
      · exact .inr (ih h)
  · exact fun h => ⟨_, mem_offered S ⟨fun _ => none, fun _ => none⟩ h⟩

end Offers

section Reports
variable {a : PeerManagerActor} {peerId peer : Bytes32}

@[simp] lemma errors_setPeers (a : PeerManagerActor) (peers : List Bytes32) (peer : Bytes32) :
    (a.setPeers peers).errors peer = 0 := by
  have hfold : ∀ errors : Accounts Bytes32 (BitVec 8), (errors.lookup peer).getD 0 = 0 →
      ((peers.foldl (fun errors peer => errors.insert peer 0) errors).lookup peer).getD 0 = 0 := by
    induction peers with
    | nil => exact fun _ h => h
    | cons p peers ih =>
      intro errors h
      refine ih _ ?_
      by_cases hp : peer = p
      · subst hp
        rw [AList.lookup_insert, Option.getD_some]
      · rwa [AList.lookup_insert_ne hp]
  exact hfold ∅ rfl

@[simp] lemma mem_pushBack : peer ∈ (a.pushBack peerId).availablePeers ↔ peer ∈ a.availablePeers ∨ peer = peerId := by
  rw [pushBack]
  split
  · rename_i hmem
    exact ⟨.inl, fun h => h.elim id fun h => h ▸ hmem⟩
  · exact mem_append.trans (or_congr_right mem_singleton)

@[simp] lemma errors_pushBack (a : PeerManagerActor) (peerId peer : Bytes32) :
    (a.pushBack peerId).errors peer = a.errors peer := by
  rw [pushBack]
  split <;> rfl

@[simp] lemma maxErrorsPerPeer_pushBack (a : PeerManagerActor) (peerId : Bytes32) :
    (a.pushBack peerId).maxErrorsPerPeer = a.maxErrorsPerPeer := by
  rw [pushBack]
  split <;> rfl

lemma errors_insert (peer : Bytes32) {n : BitVec 8} : ((a.errorsPerPeers.insert peerId n).lookup peer).getD 0
    = if peerId = peer then n else a.errors peer := by
  by_cases hp : peerId = peer
  · subst hp
    rw [AList.lookup_insert, Option.getD_some, if_pos rfl]
  · rw [AList.lookup_insert_ne (Ne.symm hp), if_neg hp]
    rfl

lemma reportModelDownloadError_of_fits (overflowChecks : Bool) (h : (a.errors peerId).toNat + 1 < 2 ^ 8) :
    ∃ a' o, a.reportModelDownloadError overflowChecks peerId = .ok (a', o)
      ∧ a'.maxErrorsPerPeer = a.maxErrorsPerPeer
      ∧ (∀ peer, (a'.errors peer).toNat = (a.errors peer).toNat + if peerId = peer then 1 else 0)
      ∧ ∀ peer, a.maxErrorsPerPeer.toNat ≤ (a'.errors peer).toNat →
        (peer ∈ a'.availablePeers ↔ peerId ≠ peer ∧ peer ∈ a.availablePeers) := by
  have hcheck : ¬ (overflowChecks = true ∧ a.errors peerId = 255) := by
    rintro ⟨_, he⟩
    rw [he] at h
    exact absurd h (by decide)
  have htoNat : (a.errors peerId + 1).toNat = (a.errors peerId).toNat + 1 := by
    rw [BitVec.toNat_add]
    exact Nat.mod_eq_of_lt h
  have herrors : ∀ peer, (((a.errorsPerPeers.insert peerId (a.errors peerId + 1)).lookup peer).getD 0).toNat
      = (a.errors peer).toNat + if peerId = peer then 1 else 0 := by
    intro peer
    rw [errors_insert]
    by_cases hp : peerId = peer
    · subst hp
      rw [if_pos rfl, if_pos rfl, htoNat]
    · rw [if_neg hp, if_neg hp, Nat.add_zero]
  simp only [reportModelDownloadError, incrementU8, if_neg hcheck, Exec.ok_bind]
  by_cases hmax : a.maxErrorsPerPeer ≤ a.errors peerId + 1
  · have hremoved : ∀ peer, peer ∈ a.availablePeers.filter (· ≠ peerId) ↔ peerId ≠ peer ∧ peer ∈ a.availablePeers := by
      intro peer
      rw [mem_filter, decide_eq_true_eq, and_comm, ne_comm]
    rw [if_pos hmax]
    split
    · exact ⟨_, _, rfl, rfl, herrors, fun peer _ => hremoved peer⟩
    · exact ⟨_, _, rfl, rfl, herrors, fun peer _ => hremoved peer⟩
  · rw [if_neg hmax]
    have herrors' : ∀ peer, ((pushBack { a with
        errorsPerPeers := a.errorsPerPeers.insert peerId (a.errors peerId + 1) } peerId).errors peer).toNat
          = (a.errors peer).toNat + if peerId = peer then 1 else 0 := by
      intro peer
      rw [errors_pushBack]
      exact herrors peer
    refine ⟨_, _, rfl, maxErrorsPerPeer_pushBack _ _, herrors', ?_⟩
    intro peer hle
    rw [herrors'] at hle
    have hp : peerId ≠ peer := by
      rintro rfl
      rw [if_pos rfl, ← htoNat] at hle
      exact hmax hle
    rw [mem_pushBack, or_iff_left (Ne.symm hp)]
    exact (and_iff_right hp).symm

end Reports

end PeerManagerActor

/-- Whether a command makes a peer available whatever its errors. -/
def PeerCommand.Admits {φ : Type} (peer : Bytes32) : PeerCommand φ → Prop
  | .setPeers peers => peer ∈ peers
  | .reportSuccess peerId => peerId = peer
  | _ => False

/-- The actor, as long as it has not aborted. -/
inductive PeerManager where
  | running (actor : PeerManagerActor)
  | aborted

namespace PeerManager
variable {φ : Type}

/-- One command. Whoever asks for a peer when the actor has aborted is told that there is none (Rust `get_next_peer`). -/
def next (S : Speeds φ) (overflowChecks : Bool) : PeerManager → PeerCommand φ → PeerManager × PeerOutput
  | .running a, command =>
    match a.handleMessage S overflowChecks command with
    | .ok (a, o) => (.running a, o)
    | .error _ => (.aborted, .quiet)
  | .aborted, .getPeer _ => (.aborted, .peer none)
  | .aborted, _ => (.aborted, .quiet)

/-- The actor takes every command. -/
def machine (S : Speeds φ) (overflowChecks : Bool) (maxErrorsPerPeer : BitVec 8) :
    Machine PeerManager (PeerCommand φ) PeerOutput Empty where
  init s := s = .running (.new maxErrorsPerPeer)
  step s command := .ok (s.next S overflowChecks command)

abbrev Record (φ : Type) := List (Event PeerManager (PeerCommand φ) PeerOutput)

/-- How many errors of a peer have been reported since the peers were set. -/
def reported (peer : Bytes32) : Record φ → Nat
  | [] => 0
  | ev :: tr =>
    match ev.input with
    | .setPeers _ => 0
    | .reportModelDownloadError _ peerId => reported peer tr + if peerId = peer then 1 else 0
    | _ => reported peer tr

/-- The actor runs and has counted the errors, and will not hand out a peer that has failed too often. -/
def Sound (S : Speeds φ) (maxErrorsPerPeer : BitVec 8) (tr : Record φ) (s : PeerManager) : Prop :=
  ∃ a, s = .running a ∧ a.maxErrorsPerPeer = maxErrorsPerPeer ∧ (∀ peer, (a.errors peer).toNat = reported peer tr)
    ∧ ∀ peer, maxErrorsPerPeer.toNat ≤ reported peer tr → ¬ ∃ monitors, peer ∈ a.offered S monitors

/-- The errors of every peer fit into eight bits, and no peer that has failed too often is made available. -/
def Admissible (maxErrorsPerPeer : BitVec 8) (ev : Event PeerManager (PeerCommand φ) PeerOutput) (tr : Record φ) : Prop :=
  ∀ peer, reported peer (ev :: tr) < 2 ^ 8
    ∧ (ev.input.Admits peer → reported peer (ev :: tr) < maxErrorsPerPeer.toNat)

section Runs
variable {S : Speeds φ} {overflowChecks : Bool} {maxErrorsPerPeer : BitVec 8} {tr : Record φ} {s : PeerManager}
  {a : PeerManagerActor} {o : PeerOutput} {ev : Event PeerManager (PeerCommand φ) PeerOutput}

lemma sound_running : Sound S maxErrorsPerPeer tr (.running a) ↔ a.maxErrorsPerPeer = maxErrorsPerPeer
    ∧ (∀ peer, (a.errors peer).toNat = reported peer tr)
    ∧ ∀ peer, maxErrorsPerPeer.toNat ≤ reported peer tr → peer ∉ a.availablePeers := by
  simp only [Sound, PeerManager.running.injEq, exists_eq_left', PeerManagerActor.offered_iff]

/-- A step that counts the errors is sound just if it is admissible, if those that have failed too often and are available
afterwards are those that it makes so. -/
lemma sound_iff_admissible (hafter : ev.after = .running a) (hmax : a.maxErrorsPerPeer = maxErrorsPerPeer)
    (herrors : ∀ peer, (a.errors peer).toNat = reported peer (ev :: tr))
    (havailable : ∀ peer, maxErrorsPerPeer.toNat ≤ reported peer (ev :: tr) →
      (peer ∈ a.availablePeers ↔ ev.input.Admits peer)) :
    Sound S maxErrorsPerPeer (ev :: tr) ev.after ↔ Admissible maxErrorsPerPeer ev tr := by
  rw [hafter, sound_running]
  constructor
  · rintro ⟨_, _, hbanned⟩ peer
    refine ⟨herrors peer ▸ (a.errors peer).isLt, fun hadmits => ?_⟩
    by_contra hle
    have hle := Nat.le_of_not_lt hle
    exact hbanned peer hle ((havailable peer hle).mpr hadmits)
  · intro hadm
    refine ⟨hmax, herrors, fun peer hle hmem => ?_⟩
    exact Nat.not_lt.mpr hle ((hadm peer).2 ((havailable peer hle).mp hmem))

lemma not_sound_of_overflow (peer : Bytes32) (h : 2 ^ 8 ≤ reported peer (ev :: tr)) :
    Sound S maxErrorsPerPeer (ev :: tr) ev.after ↔ Admissible maxErrorsPerPeer ev tr := by
  constructor
  · rintro ⟨a, _, _, herrors, _⟩
    rw [← herrors peer] at h
    exact absurd (a.errors peer).isLt (Nat.not_lt.mpr h)
  · exact fun hadm => absurd (hadm peer).1 (Nat.not_lt.mpr h)

lemma sound_step (h : Sound S maxErrorsPerPeer tr ev.before)
    (st : (machine S overflowChecks maxErrorsPerPeer).step ev.before ev.input = .ok (ev.after, ev.output)) :
    Sound S maxErrorsPerPeer (ev :: tr) ev.after ↔ Admissible maxErrorsPerPeer ev tr := by
  obtain ⟨a, ha, _⟩ := id h
  rw [ha] at h
  obtain ⟨hmax, herrors, hbanned⟩ := sound_running.mp h
  obtain ⟨before, input, output, after⟩ := ev
  subst ha
  have hnext : next S overflowChecks (.running a) input = (after, output) := Except.ok.inj st
  cases input with
  | setPeers peers =>
    cases hnext
    refine sound_iff_admissible rfl hmax ?_ fun peer _ => Iff.rfl
    intro peer
    rw [PeerManagerActor.errors_setPeers]
    rfl
  | getPeer monitor =>
    cases hnext
    have hperm := PeerManagerActor.getPeer_perm S a monitor
    have hsame : (a.getPeer S monitor).1.errorsPerPeers = a.errorsPerPeers
        ∧ (a.getPeer S monitor).1.maxErrorsPerPeer = a.maxErrorsPerPeer := by
      rw [PeerManagerActor.getPeer]
      split <;> exact ⟨rfl, rfl⟩
    refine sound_iff_admissible rfl (hsame.2.trans hmax) ?_ ?_
    · intro peer
      rw [PeerManagerActor.errors, hsame.1]
      exact herrors peer
    · intro peer hle
      refine ⟨fun hmem => hbanned peer hle (hperm.mem_iff.mp (mem_append_right _ hmem)), False.elim⟩
  | reportSuccess peerId =>
    cases hnext
    refine sound_iff_admissible rfl ((PeerManagerActor.maxErrorsPerPeer_pushBack a peerId).trans hmax) ?_ ?_
    · intro peer
      rw [PeerManagerActor.errors_pushBack]
      exact herrors peer
    · intro peer hle
      rw [PeerManagerActor.mem_pushBack, or_iff_right (hbanned peer hle)]
      exact eq_comm
  | reportModelDownloadError blobTicket peerId =>
    have hreported : ∀ peer, reported peer (⟨.running a, .reportModelDownloadError blobTicket peerId, output, after⟩ :: tr)
        = (a.errors peer).toNat + if peerId = peer then 1 else 0 := by
      intro peer
      rw [herrors]
      rfl
    by_cases hfits : (a.errors peerId).toNat + 1 < 2 ^ 8
    · obtain ⟨a', o, hr, hmax', herrors', havailable⟩ :=
        PeerManagerActor.reportModelDownloadError_of_fits overflowChecks hfits
      rw [next, PeerManagerActor.handleMessage, hr] at hnext
      cases hnext
      have hcounted := fun peer => (herrors' peer).trans (hreported peer).symm
      refine sound_iff_admissible rfl (hmax'.trans hmax) hcounted ?_
      intro peer hle
      rw [havailable peer (by rw [hcounted, hmax]; exact hle)]
      refine ⟨?_, False.elim⟩
      rintro ⟨hp, hmem⟩
      rw [hreported, if_neg hp, Nat.add_zero, herrors] at hle
      exact hbanned peer hle hmem
    · refine not_sound_of_overflow peerId ?_
      rw [hreported, if_pos rfl]
      exact Nat.le_of_not_lt hfits

/-- A banned peer stays banned in just those runs in which no success of one is reported, and no peer has more errors than
fit into eight bits: the actor runs, counts the errors reported since the peers were set, and never hands out a peer with as
many errors as are allowed, with or without overflow checks. -/
theorem banned_stays_banned_iff (r : (machine S overflowChecks maxErrorsPerPeer).Run tr s) :
    Machine.Always (Sound S maxErrorsPerPeer) tr
      ↔ ∀ later ev earlier, tr = later ++ ev :: earlier → Admissible maxErrorsPerPeer ev earlier := by
  refine r.always_iff ?_ fun tr ev _ h st => sound_step h st
  rintro s rfl
  refine sound_running.mpr ⟨rfl, fun _ => rfl, ?_⟩
  rintro peer _ ⟨⟩

end Runs

section Overlapping

/-- Rust `MAX_ERRORS_PER_PEER` (`shared/client/src/client.rs`). -/
def maxErrors : BitVec 8 := 5

def wholeSpeeds : Speeds Nat := ⟨fun v => decide (0 < v), fun a b => some (compare a b)⟩

def newMonitor : ConnectionMonitor Nat := ⟨fun _ => none, fun _ => none⟩

/-- The only peer is asked, and the downloads of what it has announced before fail five times; then the request succeeds, and a
peer is asked for. -/
def overlapping : List (PeerCommand Nat) :=
  [.setPeers [7], .getPeer newMonitor] ++ List.replicate 5 (.reportModelDownloadError none 7)
    ++ [.reportSuccess 7, .getPeer newMonitor]

/-- The downloads fail 256 times. -/
def overflowing : List (PeerCommand Nat) := .setPeers [7] :: List.replicate 256 (.reportModelDownloadError none 7)

def after (overflowChecks : Bool) (commands : List (PeerCommand Nat)) : Record Nat × PeerManager :=
  (machine wholeSpeeds overflowChecks maxErrors).play [] (.running (.new maxErrors)) commands

def actor? : PeerManager → Option PeerManagerActor
  | .running a => some a
  | .aborted => none

/-- A peer that has failed five times is handed out. A peer that has failed 256 times aborts the actor; without overflow checks,
it is counted as one that has never failed and is available. -/
theorem banned_is_handed_out :
    (machine wholeSpeeds true maxErrors).Run (after true overlapping).1 (after true overlapping).2
    ∧ (∃ ev tr, (after true overlapping).1 = ev :: tr ∧ ev.output = .peer (some 7) ∧ reported 7 tr = maxErrors.toNat)
    ∧ (after true overflowing).2.actor?.isNone = true ∧ reported 7 (after false overflowing).1 = 256
    ∧ (after false overflowing).2.actor?.map (fun a => (a.errors 7, a.availablePeers)) = some (0, [7]) := by
  have hinit : (machine wholeSpeeds true maxErrors).Run [] (.running (.new maxErrors)) := .init rfl
  refine ⟨hinit.play overlapping, ⟨_, _, rfl, ?_, ?_⟩, ?_, ?_, ?_⟩ <;> decide +kernel

lemma reported_le_length (peer : Bytes32) (tr : Record φ) : reported peer tr ≤ tr.length := by
  induction tr with
  | nil => exact Nat.le_refl 0
  | cons ev tr ih =>
    rw [reported, length_cons]
    split
    · exact Nat.zero_le _
    · split <;> omega
    · omega

/-- The first of two peers fails until it is banned, and a peer is asked for. -/
def banning : List (PeerCommand Nat) :=
  .setPeers [7, 8] :: (List.replicate 5 (.reportModelDownloadError none 7) ++ [.getPeer newMonitor])

/-- A peer that has failed too often is passed over for the other one. -/
theorem banned_stays_banned_once :
    Machine.Always (Sound wholeSpeeds maxErrors) (after true banning).1
    ∧ ∃ ev tr, (after true banning).1 = ev :: tr ∧ ev.output = .peer (some 8) ∧ reported 7 tr = maxErrors.toNat := by
  have hinit : (machine wholeSpeeds true maxErrors).Run [] (.running (.new maxErrors)) := .init rfl
  refine ⟨(banned_stays_banned_iff (hinit.play banning)).mpr ?_, _, _, rfl, by decide +kernel, by decide +kernel⟩
  intro later ev earlier he peer
  have hlength : (later ++ ev :: earlier).length = 7 := he ▸ (by decide +kernel : (after true banning).1.length = 7)
  have hle := reported_le_length peer (ev :: earlier)
  rw [length_append] at hlength
  refine ⟨by omega, fun hadmits => ?_⟩
  -- of all that happens only setting the peers makes one available
  have hmem : ev.input ∈ banning :=
    (Machine.input_of_mem_play (he ▸ mem_append_right later mem_cons_self)).resolve_left not_mem_nil
  cases hi : ev.input with
  | setPeers peers =>
    have hzero : reported peer (ev :: earlier) = 0 := by rw [reported, hi]
    rw [hzero]
    decide
  | reportSuccess peerId =>
    rw [hi] at hmem
    simp [banning] at hmem
  | getPeer _ | reportModelDownloadError _ _ =>
    rw [hi] at hadmits
    exact hadmits.elim

end Overlapping

end PeerManager
end Leviathan
