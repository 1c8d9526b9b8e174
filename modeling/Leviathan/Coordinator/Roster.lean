import Leviathan.Coordinator.Inversion
import Leviathan.Coordinator.Machine

/-!
# The epoch roster

Every client admitted at the start of an epoch is, until the next epoch starts, either in `clients` or in
`exited_clients` (`shared/coordinator/src/coordinator.rs`). `RosterInv roster c` says so, with what the state machine
needs to go on: exited entries are not healthy, a running round knows how many clients it started with, and every
earlier round was closed with a witness. So the aborts a broken roster would cause never happen (`RosterPanic`).
-/

namespace Leviathan
open Exec List
variable {height : Nat} {e e' : CoordinatorEpochState} {β : Type}

/-- The wallet key of a client. -/
abbrev Client.signer (x : Client) : Pubkey := x.id.signer

/-- A client's key and whether it is marked for slashing. -/
def Client.mark (x : Client) : Pubkey × Bool := (x.signer, x.state == .ejected)

namespace CoordinatorEpochState
variable {e e' : CoordinatorEpochState}

/-- Every client of the epoch: the present ones, then those that have exited. -/
def entries (e : CoordinatorEpochState) : List Client := e.clients.toList ++ e.exitedClients.toList

def marks (e : CoordinatorEpochState) : List (Pubkey × Bool) := e.entries.map Client.mark

/-- The keys of all clients of the epoch. -/
def signers (e : CoordinatorEpochState) : List Pubkey := e.entries.map Client.signer

lemma map_fst_marks (e : CoordinatorEpochState) : e.marks.map Prod.fst = e.signers := by
  simp [marks, signers, Client.mark, Function.comp_def]

lemma signers_perm (h : e'.marks.Perm e.marks) : e'.signers.Perm e.signers := by
  simpa only [map_fst_marks] using h.map Prod.fst

lemma marks_congr (hc : e'.clients.toList.map Client.mark = e.clients.toList.map Client.mark)
    (he : e'.exitedClients = e.exitedClients) : e'.marks = e.marks := by
  simp only [marks, entries, map_append, hc, he]

end CoordinatorEpochState

open CoordinatorEpochState

lemma Compacted.marks_perm (h : Compacted height e e') : e'.marks.Perm e.marks := by
  have hsplit := (filter_append_perm (fun x : Client => x.state == .healthy) e.clients.toList).map
    Client.mark
  have hheight : ∀ l : List Client, (l.map fun x => { x with exitedHeight := height }).map Client.mark
      = l.map Client.mark := by
    intro l
    rw [map_map]
    rfl
  simp only [CoordinatorEpochState.marks, entries, h.clients, h.exited, map_append, hheight]
  rw [map_append] at hsplit
  refine (List.Perm.append_left _ perm_append_comm).trans ?_
  rw [← append_assoc]
  exact hsplit.append_right _

lemma Compacted.healthy (h : Compacted height e e') : ∀ x ∈ e'.clients.toList, x.state = .healthy := by
  intro x hx
  rw [h.clients, mem_filter] at hx
  simpa using hx.2

lemma Compacted.not_healthy (h : Compacted height e e') (he : ∀ x ∈ e.exitedClients.toList, x.state ≠ .healthy) :
    ∀ x ∈ e'.exitedClients.toList, x.state ≠ .healthy := by
  intro x hx
  rw [h.exited, mem_append, mem_map] at hx
  obtain hx | ⟨y, hy, rfl⟩ := hx
  · exact he x hx
  · rw [mem_filter] at hy
    simpa using hy.2

lemma mark_withdrawn (x : Client) : x.withdrawn.mark = x.mark := by
  unfold Client.withdrawn
  split
  · rename_i hh
    simp [Client.mark, Client.signer, hh]
  · rfl

lemma MayDrop.mark {x y : Client} (h : Coordinator.MayDrop x y) : y.mark = x.mark := by
  obtain rfl | ⟨hh, rfl⟩ := h
  · rfl
  · simp [Client.mark, Client.signer, hh]

lemma map_eq_of_mayDrop {f : Client → β} (hf : ∀ x y, Coordinator.MayDrop x y → f y = f x) {l l' : List Client}
    (h : List.Forall₂ Coordinator.MayDrop l l') : l'.map f = l.map f := by
  induction h with
  | nil => rfl
  | cons hxy _ ih => rw [map_cons, map_cons, ih, hf _ _ hxy]

lemma map_modify_eq {α : Type} {f : α → β} {g : α → α} {l : List α} {i : Nat}
    (h : ∀ x, l[i]? = some x → f (g x) = f x) : (l.modify i g).map f = l.map f := by
  apply ext_getElem?
  intro n
  simp only [getElem?_map, getElem?_modify]
  by_cases hn : i = n
  · subst hn
    cases hx : l[i]? with
    | none => rfl
    | some x => simp [h x hx]
  · simp [hn]

namespace Coordinator

/-- The keys admitted at the start of an epoch. -/
def admitted (ids : List NodeIdentity) : List Pubkey := (ids.take solanaMaxNumClients).map NodeIdentity.signer

/-- The clients of an epoch state are those of `roster`. -/
structure RosterCore (roster : List Pubkey) (e : CoordinatorEpochState) : Prop where
  perm : e.signers.Perm roster
  nodup : roster.Nodup
  bound : roster.length ≤ solanaMaxNumClients
  exited : ∀ x ∈ e.exitedClients.toList, x.state ≠ .healthy

/-- The clients of the epoch are those of `roster`, and the state machine can go on with them. -/
structure RosterInv (roster : List Pubkey) (c : Coordinator) : Prop where
  core : RosterCore roster c.epochState
  clientsLen : c.runState = .roundTrain ∨ c.runState = .roundWitness →
    c.epochState.clients.len = c.currentRound.clientsLen
  warmup : c.runState = .warmup → c.epochState.firstRound = true
  witnessed : c.currentRound.height ≠ 0 → c.previousSlot.witnesses.len ≠ 0

namespace RosterCore
variable {roster : List Pubkey} {e e' : CoordinatorEpochState} {height : Nat}

lemma length (h : RosterCore roster e) :
    e.exitedClients.toList.length + e.clients.toList.length ≤ solanaMaxNumClients := by
  have hl := h.perm.length_eq
  simp only [signers, entries, length_map, length_append] at hl
  have := h.bound
  omega

lemma restate (h : RosterCore roster e)
    (hc : e'.clients.toList.map Client.signer = e.clients.toList.map Client.signer)
    (he : e'.exitedClients = e.exitedClients) : RosterCore roster e' where
  perm := by
    have heq : e'.signers = e.signers := by simp only [signers, entries, map_append, hc, he]
    rw [heq]
    exact h.perm
  nodup := h.nodup
  bound := h.bound
  exited := by
    rw [he]
    exact h.exited

lemma compact (h : RosterCore roster e) (hc : Compacted height e e') :
    RosterCore roster e' where
  perm := (signers_perm hc.marks_perm).trans h.perm
  nodup := h.nodup
  bound := h.bound
  exited := hc.not_healthy h.exited

lemma closeRound (h : RosterCore roster e) (hc : Compacted height { e with firstRound := false } e') :
    RosterCore roster e' :=
  have h' : RosterCore roster { e with firstRound := false } := h.restate rfl rfl
  h'.compact hc

lemma withdrawn (h : RosterCore roster e) (hc : e'.clients = e.clients.map Client.withdrawn)
    (he : e'.exitedClients = e.exitedClients) : RosterCore roster e' := by
  have hsig : ∀ x : Client, x.withdrawn.signer = x.signer := fun x => congrArg Prod.fst (mark_withdrawn x)
  refine h.restate ?_ he
  simp [hc, hsig]

end RosterCore

section Preservation
variable {P : Platform} {c c' : Coordinator} {roster : List Pubkey} {from_ : NodeIdentity} {w : Witness}
  {now seed : Nat}

lemma rounds_congr (c c' : Coordinator) (hr : c'.epochState.rounds = c.epochState.rounds)
    (hh : c'.epochState.roundsHead = c.epochState.roundsHead) :
    c'.currentRound = c.currentRound ∧ c'.previousSlot = c.previousSlot := by
  unfold currentRound previousSlot
  simp only [hr, hh, and_self]

lemma betweenEpochs_cases (c : Coordinator) :
    c.betweenEpochs = .waitingForMembers ∨ c.betweenEpochs = .finished := by
  unfold betweenEpochs
  split
  · exact .inl rfl
  · exact .inr rfl

lemma RosterInv.outside (h : RosterCore roster c.epochState)
    (hs : c.runState ≠ .warmup ∧ c.runState ≠ .roundTrain ∧ c.runState ≠ .roundWitness)
    (hw : c.currentRound.height ≠ 0 → c.previousSlot.witnesses.len ≠ 0) : RosterInv roster c where
  core := h
  clientsLen := fun hr => (hr.elim hs.2.1 hs.2.2).elim
  warmup := fun hu => (hs.1 hu).elim
  witnessed := hw

lemma betweenEpochs_ne (c : Coordinator) :
    c.betweenEpochs ≠ .warmup ∧ c.betweenEpochs ≠ .roundTrain ∧ c.betweenEpochs ≠ .roundWitness := by
  obtain h | h := betweenEpochs_cases c <;> simp [h]

lemma RosterInv.restate (h : RosterInv roster c)
    (hc : c'.epochState.clients.toList.map Client.signer = c.epochState.clients.toList.map Client.signer)
    (he : c'.epochState.exitedClients = c.epochState.exitedClients)
    (hs : c'.runState = c.runState) (hf : c'.epochState.firstRound = c.epochState.firstRound)
    (hr : c'.currentRound.clientsLen = c.currentRound.clientsLen
      ∧ c'.currentRound.height = c.currentRound.height ∧ c'.previousSlot = c.previousSlot) :
    RosterInv roster c' where
  core := h.core.restate hc he
  clientsLen := by
    have hlen := congrArg List.length hc
    simp only [length_map] at hlen
    rw [hs, hr.1, FixedVec.len, hlen]
    exact h.clientsLen
  warmup := by
    rw [hs, hf]
    exact h.warmup
  witnessed := by
    rw [hr.2.1, hr.2.2]
    exact h.witnessed

lemma RosterInv.setClientState (h : RosterInv roster c) (index : Nat) (st : ClientState) :
    RosterInv roster (c.setClientState index st) :=
  h.restate (map_modify_eq fun _ _ => rfl) rfl rfl rfl ⟨rfl, rfl, rfl⟩

lemma RosterInv.healthCheck {checks : List (NodeIdentity × CommitteeProof)} {n : Nat}
    (h : RosterInv roster c) (st : c.healthCheck P checks = .ok (c', n)) : RosterInv roster c' := by
  obtain ⟨_, _, _, clients, hcl, rfl⟩ := healthCheck_inv st
  refine h.restate ?_ rfl rfl rfl ⟨rfl, rfl, rfl⟩
  exact map_eq_of_mayDrop (fun _ _ hxy => congrArg Prod.fst (MayDrop.mark hxy)) hcl

lemma RosterInv.witnessStored (h : RosterInv roster c) (st : c.WitnessStored from_ w c') : RosterInv roster c' := by
  obtain ⟨_, ws, _, rfl⟩ := st
  refine h.restate rfl rfl rfl rfl ⟨?_, ?_, ?_⟩ <;> simp

lemma RosterInv.roundStarted (st : c.RoundStarted P now seed c') (h : RosterCore roster c.epochState)
    (hw : c.epochState.firstRound = false → c.currentRound.witnesses.len ≠ 0) : RosterInv roster c' := by
  obtain ⟨hcl, _, _⟩ := st.frame
  have hlen := st.currentRound.1
  have hrun : c'.runState = .roundTrain ∧ c'.epochState.exitedClients = c.epochState.exitedClients := by
    obtain ⟨_, _, _, _, _, rfl⟩ := st
    exact ⟨rfl, rfl⟩
  refine ⟨h.restate (by rw [hcl]) hrun.2, ?_, ?_, ?_⟩
  · intro _
    rw [hcl, hlen]
  · intro hs
    rw [hrun.1] at hs
    cases hs
  · intro hh
    cases hf : c.epochState.firstRound with
    | true => exact absurd (st.first hf) hh
    | false =>
      rw [(st.later hf).1]
      exact hw hf

lemma RosterInv.epochBegun {ids : List NodeIdentity} (st : c.EpochBegun ids now c')
    (hn : (ids.map NodeIdentity.signer).Nodup) : RosterInv (admitted ids) c' := by
  have hcl := st.clients
  have hrun : c'.runState = .warmup := by rw [st.eq]
  have hex : c'.epochState.exitedClients = .new := by rw [st.eq]; rfl
  have hround : c'.currentRound = .zeroed := by rw [st.eq]; rfl
  refine ⟨⟨?_, hn.sublist ((take_sublist _ _).map _), ?_, ?_⟩, ?_, ?_, ?_⟩
  · simp [signers, entries, hcl, hex, admitted, Client.new, Client.signer, Function.comp_def]
  · simp [admitted]
  · simp [hex]
  · intro hs
    simp [hrun] at hs
  · intro _
    rw [st.eq]
  · intro hh
    rw [hround] at hh
    exact absurd rfl hh

lemma RosterInv.warmupWitness (h : RosterInv roster c) (st : c.warmupWitness P from_ w now seed = .ok c') :
    RosterInv roster c' := by
  obtain ⟨_, rfl⟩ | ⟨hs, _, c1, hst, rfl | ⟨_, hr⟩⟩ := warmupWitness_inv st
  · exact h
  · exact h.witnessStored hst
  · have h1 := h.witnessStored hst
    have hs1 : c1.runState = .warmup := by
      obtain ⟨_, _, _, rfl⟩ := hst
      exact hs
    refine .roundStarted hr h1.core fun hf => ?_
    rw [h1.warmup hs1] at hf
    cases hf

lemma RosterInv.witness (h : RosterInv roster c) (st : c.witness P from_ w now = .ok c') : RosterInv roster c' := by
  obtain ⟨_, c1, hs, _, _, _, hst, rfl⟩ := witness_inv st
  have h1 := h.witnessStored hst
  split
  case isTrue hc =>
    have hs1 : c1.runState = .roundTrain := hst.runState.trans (hs.resolve_left hc.2)
    exact ⟨h1.core, fun _ => h1.clientsLen (.inl hs1), by rintro ⟨⟩, h1.witnessed⟩
  case isFalse => exact h1

lemma RosterInv.checkpoint {index : Nat} {repo : Checkpoint} (h : RosterInv roster c)
    (st : c.checkpoint from_ index repo = .ok c') : RosterInv roster c' := by
  rw [checkpoint_inv st]
  exact h.restate rfl rfl rfl rfl ⟨rfl, rfl, rfl⟩

lemma RosterInv.pause (h : RosterInv roster c) (st : c.pause now = .ok c') : RosterInv roster c' := by
  obtain ⟨_, rfl⟩ | ⟨_, rfl⟩ := pause_inv st
  · exact h.restate rfl rfl rfl rfl ⟨rfl, rfl, rfl⟩
  · exact .outside (h.core.withdrawn rfl rfl) ⟨by rintro ⟨⟩, by rintro ⟨⟩, by rintro ⟨⟩⟩ h.witnessed

lemma RosterInv.cooled (h : RosterCore roster c.epochState)
    (hw : c.currentRound.height ≠ 0 → c.previousSlot.witnesses.len ≠ 0) : RosterInv roster (c.cooled now) := by
  refine RosterInv.outside (h.restate rfl rfl) ⟨?_, ?_, ?_⟩ ?_
  · rintro ⟨⟩
  · rintro ⟨⟩
  · rintro ⟨⟩
  · change (c.setCurrentRound { c.currentRound with witnesses := .new }).currentRound.height ≠ 0 →
      (c.setCurrentRound { c.currentRound with witnesses := .new }).previousSlot.witnesses.len ≠ 0
    simpa using hw

/-- A tick keeps the roster of the epoch, or admits a new one. -/
lemma RosterInv.tick {pending : Option (List NodeIdentity)} {r : TickResult} (h : RosterInv roster c)
    (hn : ∀ ids, pending = some ids → (ids.map NodeIdentity.signer).Nodup)
    (st : TickStep P c pending now seed c' r) :
    (¬ (c.runState = .waitingForMembers ∧ c'.runState = .warmup) ∧ RosterInv roster c')
      ∨ ∃ ids, pending = some ids ∧ (c.runState = .waitingForMembers ∧ c'.runState = .warmup)
        ∧ RosterInv (admitted ids) c' := by
  cases st with
  | idle hs =>
    refine .inl ⟨?_, h⟩
    rintro ⟨hw, hu⟩
    rw [hw] at hu
    cases hu
  | beginEpoch hs hp _ _ hb =>
    subst hp
    have hrun : c'.runState = .warmup := by rw [hb.eq]
    exact .inr ⟨_, rfl, ⟨hs, hrun⟩, .epochBegun hb (hn _ rfl)⟩
  | @warm e hs hc _ =>
    refine .inl ⟨by simp [hs], ?_⟩
    obtain ⟨hcur, hprev⟩ := rounds_congr c (c.setEpochState e) hc.rounds hc.roundsHead
    refine ⟨h.core.compact hc, ?_, ?_, ?_⟩
    · intro hr
      simp [setEpochState, hs] at hr
    · intro hu
      exact hc.firstRound.trans (h.warmup hs)
    · rw [hcur, hprev]
      exact h.witnessed
  | @warmAbort e hs hc _ =>
    refine .inl ⟨by simp [hs], ?_⟩
    obtain ⟨hcur, hprev⟩ := rounds_congr c
      ((c.setEpochState e).entered now c.betweenEpochs) hc.rounds hc.roundsHead
    refine .outside (h.core.compact hc) (betweenEpochs_ne c) ?_
    rw [hcur, hprev]
    exact h.witnessed
  | train hs _ hr _ =>
    refine .inl ⟨by simp [hs], ?_⟩
    refine .roundStarted hr h.core fun hf => ?_
    rw [h.warmup hs] at hf
    cases hf
  | trainAbort hs _ hr _ =>
    refine .inl ⟨by simp [hs], ?_⟩
    have h1 : RosterInv roster _ := .roundStarted hr h.core fun hf => by
      rw [h.warmup hs] at hf
      cases hf
    exact .outside h1.core (betweenEpochs_ne c) h1.witnessed
  | witness hs _ =>
    refine .inl ⟨by simp [hs], ?_⟩
    exact ⟨h.core, fun _ => h.clientsLen (.inl hs), by rintro ⟨⟩, h.witnessed⟩
  | @coolEmpty e hs _ hc _ =>
    refine .inl ⟨by simp [hs], ?_⟩
    obtain ⟨hcur, hprev⟩ := rounds_congr c
      (c.roundClosed e e.lastStep).withdrawn hc.rounds hc.roundsHead
    refine .cooled ?_ ?_
    · exact (h.core.closeRound hc).withdrawn rfl rfl
    · rw [hcur, hprev]
      exact h.witnessed
  | @cool e lastStep hs _ hc _ _ _ =>
    refine .inl ⟨by simp [hs], ?_⟩
    obtain ⟨hcur, hprev⟩ := rounds_congr c (c.roundClosed e lastStep) hc.rounds hc.roundsHead
    refine .cooled ?_ ?_
    · exact (h.core.closeRound hc).restate rfl rfl
    · rw [hcur, hprev]
      exact h.witnessed
  | @nextRound e lastStep _ hs _ hc hw _ _ hr =>
    refine .inl ⟨by simp [hs], ?_⟩
    obtain ⟨hcur, _⟩ := rounds_congr c (c.roundClosed e lastStep) hc.rounds hc.roundsHead
    refine .roundStarted hr ?_ fun _ => ?_
    · exact (h.core.closeRound hc).restate rfl rfl
    · rw [hcur]
      exact hw
  | @endEpoch e dataIndex hs _ hc _ =>
    refine .inl ⟨by simp [hs], ?_⟩
    obtain ⟨hcur, hprev⟩ := rounds_congr c
      ((c.epochClosed { e with coldStartEpoch := false } dataIndex).entered now c.betweenEpochs)
      hc.rounds hc.roundsHead
    refine .outside ((h.core.compact hc).restate rfl rfl) (betweenEpochs_ne c) ?_
    rw [hcur, hprev]
    exact h.witnessed
  | @endEpochPaused e dataIndex hs _ hc _ =>
    refine .inl ⟨by simp [hs], ?_⟩
    obtain ⟨hcur, hprev⟩ := rounds_congr c
      ({ c.epochClosed { e with clients := e.clients.map Client.withdrawn, coldStartEpoch := true }
        dataIndex with pendingPause := false }.entered now .paused) hc.rounds hc.roundsHead
    refine .outside ((h.core.compact hc).withdrawn rfl rfl) ⟨by rintro ⟨⟩, by rintro ⟨⟩, by rintro ⟨⟩⟩ ?_
    rw [hcur, hprev]
    exact h.witnessed

end Preservation

/-- What reports of clients leave to the account: the configuration, how many clients there are and which of them are
marked. The phase may go one step forward. -/
structure Attended (c c' : Coordinator) : Prop where
  config : c'.config = c.config
  len : c'.epochState.clients.len = c.epochState.clients.len
  marks : c'.epochState.marks = c.epochState.marks
  phase : c'.runState = c.runState ∨ (c.runState = .warmup ∧ c'.runState = .roundTrain)
    ∨ (c.runState = .roundTrain ∧ c'.runState = .roundWitness)

section Attended
variable {P : Platform} {c c' : Coordinator} {from_ : NodeIdentity} {w : Witness} {now : Nat}

lemma attended_witness (st : c.witness P from_ w now = .ok c') : Attended c c' := by
  obtain ⟨_, _, hs, _, _, _, ⟨_, ws, _, rfl⟩, rfl⟩ := witness_inv st
  split
  case isTrue hc => exact ⟨rfl, rfl, rfl, .inr (.inr ⟨hs.resolve_left hc.2, rfl⟩)⟩
  case isFalse => exact ⟨rfl, rfl, rfl, .inl rfl⟩

lemma attended_warmupWitness {seed : Nat} (st : c.warmupWitness P from_ w now seed = .ok c') : Attended c c' := by
  obtain ⟨_, rfl⟩ | ⟨hs, _, c1, ⟨_, ws, _, rfl⟩, rfl | ⟨_, _, _, _, _, _, rfl⟩⟩ := warmupWitness_inv st
  · exact ⟨rfl, rfl, rfl, .inl rfl⟩
  · exact ⟨rfl, rfl, rfl, .inl rfl⟩
  · exact ⟨rfl, rfl, rfl, .inr (.inl ⟨hs, rfl⟩)⟩

lemma attended_healthCheck {checks : List (NodeIdentity × CommitteeProof)} {n : Nat}
    (st : c.healthCheck P checks = .ok (c', n)) : Attended c c' := by
  obtain ⟨_, _, _, clients, hcl, rfl⟩ := healthCheck_inv st
  exact ⟨rfl, hcl.length_eq.symm, marks_congr (map_eq_of_mayDrop (fun _ _ => MayDrop.mark) hcl) rfl, .inl rfl⟩

lemma attended_checkpoint {index : Nat} {repo : Checkpoint} (st : c.checkpoint from_ index repo = .ok c') :
    Attended c c' := by
  rw [checkpoint_inv st]
  exact ⟨rfl, rfl, rfl, .inl rfl⟩

end Attended

/-- The aborts a broken roster would cause. -/
def RosterPanic : Panic → Prop
  | .exitedClientsFull | .clientsFull | .sameState | .noWitnesses => True
  | _ => False

/-- The sums and products of a tick fit their types. -/
structure TickFits (P : Platform) (c : Coordinator) : Prop where
  timeout : ∀ d ∈ c.config.durations, d + c.runStateStartUnixTimestamp < 2 ^ 64
  epochTimeout : c.epochState.startTimestamp + c.config.epochTime < 2 ^ 64
  step : c.progress.step + 3 < 2 ^ 32
  epoch : c.progress.epoch + 1 < 2 ^ 16
  height : c.currentRound.height + 1 < 2 ^ 32
  data : c.InRange P

section Safety
variable {P : Platform} {c : Coordinator} {roster : List Pubkey} {now seed : Nat} {bad : Panic → Prop}

lemma overflow_harmless : ¬ RosterPanic .overflow := id

lemma checkTimeout_safe {duration : Nat} (h : bad .overflow → duration + c.runStateStartUnixTimestamp < 2 ^ 64) :
    Exec.Safe bad (c.checkTimeout now duration : Exec CoordinatorError Panic Bool) := by
  unfold checkTimeout
  split
  · exact .ok _
  · exact .bind (addU_safe_of h) fun _ _ => .ok _

lemma changeState_safe {st : RunState} (h : c.runState ≠ st) : Exec.Safe bad (c.changeState now st) :=
  .bind (.ensure fun hn => absurd h hn) fun _ _ => .ok _

lemma startWaitingForMembers_safe (h : c.runState ≠ .waitingForMembers ∧ c.runState ≠ .finished) :
    Exec.Safe bad (c.startWaitingForMembers now) := by
  refine changeState_safe ?_
  obtain hb | hb := betweenEpochs_cases c
  · rw [hb]
    exact h.1
  · rw [hb]
    exact h.2

lemma nextRound_safe (h : bad .overflow → c.currentRound.height + 1 < 2 ^ 32 ∧ c.InRange P) :
    Exec.Safe bad (c.nextRound P) := by
  unfold nextRound
  split
  · exact .ok _
  · refine .bind (mulU_safe_of fun hb => (h hb).2.1) fun _ htokens => ?_
    obtain ⟨_, rfl⟩ := mulU_eq_ok.mp htokens
    refine .bind (addU_safe_of fun hb => (h hb).1) fun _ _ => ?_
    exact .bind (addU_safe_of fun hb => (h hb).2.2) fun _ _ => .ok _

lemma startRoundTrain_safe {tb : Nat} (hs : c.runState ≠ .roundTrain)
    (h : bad .overflow → c.currentRound.height + 1 < 2 ^ 32 ∧ c.InRange P) :
    Exec.Safe bad (c.startRoundTrain P now seed tb) :=
  .bind (nextRound_safe h) fun _ _ => changeState_safe hs

lemma moveClientsToExited_safe (h : RosterCore roster e) : Exec.Safe bad (e.moveClientsToExited height) := by
  intro p hp
  have hlt := moveClientsToExited_error hp
  have hle := h.length
  omega

lemma witnessQuorum_safe {n : Nat} (h : n ≠ 0) : Exec.Safe bad (c.witnessQuorum n) := by
  unfold witnessQuorum
  split
  · rename_i h0
    split at h0
    · exact absurd h0 h
    · rename_i hw
      exact absurd h0 hw
  all_goals exact .ok _

lemma beginEpoch_safe {ids : List NodeIdentity} (h : RosterCore roster c.epochState)
    (hs : c.runState = .waitingForMembers) : Exec.Safe bad (c.beginEpoch ids now) := by
  refine .bind (moveClientsToExited_safe h) fun e _ => ?_
  refine .bind (.unwrap ?_) fun clients _ => changeState_safe ?_
  · intro hnone
    have hlen : ((ids.take solanaMaxNumClients).map Client.new).length ≤ solanaMaxNumClients := by simp
    have hsome := (FixedVec.extend_eq_some (v := .new) (w := ⟨_, hlen⟩)).mpr ⟨by simp, rfl⟩
    rw [hnone] at hsome
    cases hsome
  · change c.runState ≠ .warmup
    rw [hs]
    decide

lemma setLastStep_safe (h : bad .overflow → c.epochState.startTimestamp + c.config.epochTime < 2 ^ 64
    ∧ c.progress.step + 2 < 2 ^ 32) : Exec.Safe bad (c.setLastStep now) := by
  refine .bind ?_ fun timeout _ => ?_
  · unfold checkEpochTimeout
    split
    · exact .ok _
    · exact .bind (addU_safe_of fun hb => (h hb).1) fun _ _ => .ok _
  · split
    · exact .bind (addU_safe_of fun hb => (h hb).2) fun _ _ => .ok _
    · exact .ok _

lemma cannotContinue_safe {n : Nat} (h : n ≠ 0) : Exec.Safe bad (c.cannotContinue n) := by
  unfold cannotContinue
  split
  · exact .ok _
  · exact .bind (witnessQuorum_safe h) fun _ _ => .ok _

lemma tickRoundWitness_safe (h : RosterInv roster c) (hfits : bad .overflow → c.TickFits P)
    (hs : c.runState = .roundWitness) : Exec.Safe bad (c.tickRoundWitness P now seed) := by
  refine .bind (checkTimeout_safe fun hb => (hfits hb).timeout _ (by simp [CoordinatorConfig.durations])) fun timeout _ => ?_
  split
  · refine .bind (addU_safe_of fun hb => (Nat.add_lt_add_left (by decide) _).trans (hfits hb).step) fun step hstep => ?_
    obtain ⟨_, rfl⟩ := addU_eq_ok.mp hstep
    refine .bind (moveClientsToExited_safe (h.core.restate rfl rfl)) fun e he => ?_
    have he := moveClientsToExited_inv he
    split
    · refine .bind (changeState_safe ?_) fun _ _ => .ok _
      rw [withdrawAll_eq]
      simp [setCurrentRound, setEpochState, Coordinator.withdrawn, hs]
    · rename_i hw
      refine .bind (setLastStep_safe fun hb => ⟨?_, (hfits hb).step⟩) fun c2 hl => ?_
      · exact he.startTimestamp ▸ (hfits hb).epochTimeout
      obtain ⟨lastStep, rfl⟩ := setLastStep_inv hl
      split
      · refine .bind (changeState_safe ?_) fun _ _ => .ok _
        simp [setCurrentRound, setEpochState, hs]
      · refine .bind (cannotContinue_safe hw) fun stop _ => ?_
        split
        · refine .bind (changeState_safe ?_) fun _ _ => .ok _
          simp [setCurrentRound, setEpochState, hs]
        · refine .bind (startRoundTrain_safe ?_ fun hb => ?_) fun _ _ => .ok _
          · simp [setEpochState, hs]
          · have hround : e.rounds[e.roundsHead] = c.currentRound := by
              simp only [he.rounds, he.roundsHead]
              rfl
            obtain ⟨_, _, _, _, hheight, hdata⟩ := hfits hb
            rw [← hround] at hheight
            rw [InRange, ← hround] at hdata
            exact ⟨hheight, hdata⟩
  · exact .ok _

lemma tickCooldown_safe (h : RosterInv roster c) (hfits : bad .overflow → c.TickFits P) (hs : c.runState = .cooldown) :
    Exec.Safe bad (c.tickCooldown P now) := by
  refine .bind (checkTimeout_safe fun hb => (hfits hb).timeout _ (by simp [CoordinatorConfig.durations])) fun timeout _ => ?_
  split
  · refine .bind (.bind (mulU_safe_of fun hb => (hfits hb).data.1) fun _ _ => .ok _) fun _ hbatch => ?_
    simp only [getTargetGlobalBatchSize, totalTokensProcessed, bind_eq_ok, mulU_eq_ok, Except.ok.injEq] at hbatch
    obtain ⟨_, ⟨_, rfl⟩, rfl⟩ := hbatch
    refine .bind (addU_safe_of fun hb => (hfits hb).data.2) fun _ _ => ?_
    refine .bind (addU_safe_of fun hb => (hfits hb).epoch) fun _ _ => ?_
    refine .bind (moveClientsToExited_safe h.core) fun e _ => ?_
    dsimp only
    split
    · refine .bind (changeState_safe ?_) fun _ _ => .ok _
      rw [withdrawAll_eq]
      simp [setEpochState, Coordinator.withdrawn, hs]
    · refine .bind (startWaitingForMembers_safe ?_) fun _ _ => .ok _
      simp [hs]
  · exact .ok _

lemma tickWarmup_safe (h : RosterInv roster c) (hfits : bad .overflow → c.TickFits P) (hs : c.runState = .warmup) :
    Exec.Safe bad (c.tickWarmup P now seed) := by
  refine .bind ?_ fun c1 h1 => ?_
  · refine .bind (checkTimeout_safe fun hb => (hfits hb).timeout _ (by simp [CoordinatorConfig.durations])) fun timeout _ => ?_
    split
    · refine startRoundTrain_safe ?_ fun hb => ⟨(hfits hb).height, (hfits hb).data⟩
      simp [hs]
    · exact .bind (moveClientsToExited_safe h.core) fun _ _ => .ok _
  · split
    · refine .bind (startWaitingForMembers_safe ?_) fun _ _ => .ok _
      -- the phase is warmup, or the first round when warmup was over
      obtain ⟨timeout, _, h1⟩ := bind_eq_ok.mp h1
      split at h1
      · obtain ⟨_, _, _, _, _, rfl⟩ := startRoundTrain_inv h1
        simp [entered]
      · simp only [bind_eq_ok, Except.ok.injEq] at h1
        obtain ⟨_, _, rfl⟩ := h1
        simp [setEpochState, hs]
    · exact .ok _

/-- With a sound roster a tick does not abort, unless it counts as a fault that a sum does not fit. -/
lemma tick_safe (h : RosterInv roster c) (hfits : bad .overflow → c.TickFits P) (pending : Option (List NodeIdentity))
    (now seed : Nat) : Exec.Safe bad (c.tick P pending now seed) := by
  have htimeout : ∀ d ∈ c.config.durations, bad .overflow → d + c.runStateStartUnixTimestamp < 2 ^ 64 :=
    fun d hd hb => (hfits hb).timeout d hd
  unfold Coordinator.tick
  split
  · exact .fail _
  · exact .fail _
  · exact .fail _
  · rename_i hs
    unfold tickWaitingForMembers
    split
    · exact .ok _
    · split
      · exact .ok _
      · refine .bind (checkTimeout_safe (htimeout _ (by simp [CoordinatorConfig.durations]))) fun _ _ => ?_
        split
        · exact .bind (beginEpoch_safe h.core hs) fun _ _ => .ok _
        · exact .ok _
  · exact tickWarmup_safe h hfits ‹_›
  · rename_i hs
    refine .bind (checkTimeout_safe (htimeout _ (by simp [CoordinatorConfig.durations]))) fun _ _ => ?_
    split
    · refine .bind (changeState_safe ?_) fun _ _ => .ok _
      simp [hs]
    · exact .ok _
  · exact tickRoundWitness_safe h hfits ‹_›
  · exact tickCooldown_safe h hfits ‹_›

lemma computeShuffledIndex_safe (s : CommitteeSelection) (index : Nat) (salt : Bytes) :
    Exec.Safe RosterPanic (s.computeShuffledIndex P index salt : Exec CoordinatorError Panic Nat) := by
  refine .bind (.ensure fun _ => id) fun _ _ => .foldlM (fun current round => ?_) _ _
  refine .bind (addU_safe overflow_harmless _ _ _) fun _ _ => ?_
  exact .bind (subU_safe overflow_harmless _ _) fun _ _ => .ok _

lemma fromCoordinator_safe (offset : Int) :
    Exec.Safe RosterPanic (CommitteeSelection.fromCoordinator P c offset) := by
  refine .bind (.okOr _ _) fun _ _ => ?_
  refine .bind (.require _ _) fun _ _ => .bind (.require _ _) fun _ _ => ?_
  refine .bind (.require _ _) fun _ _ => .bind (.require _ _) fun _ _ => ?_
  exact .bind (mulU_safe overflow_harmless _ _ _) fun _ _ => .ok _

lemma hasWitnessed_safe (clients : List Client) (from_ : NodeIdentity) (ws : List Witness) :
    Exec.Safe RosterPanic (hasWitnessed clients from_ ws) := by
  induction ws with
  | nil => exact .ok _
  | cons w ws ih =>
    unfold hasWitnessed
    split
    · exact .abort id
    · split
      · exact .ok _
      · exact ih

lemma witness_safe (from_ : NodeIdentity) (w : Witness) (now : Nat) :
    Exec.Safe RosterPanic (c.witness P from_ w now) := by
  refine .bind (.require _ _) fun _ _ => .bind (.require _ _) fun _ _ => ?_
  refine .bind (fromCoordinator_safe 0) fun sel _ => .bind ?_ fun _ _ => ?_
  · unfold CommitteeSelection.verifyWitnessForClient
    split
    · exact .bind (computeShuffledIndex_safe _ _ _) fun _ _ => .ok _
    · exact .ok _
  · refine .bind (.require _ _) fun _ _ => .bind ?_ fun c1 _ => ?_
    · refine .bind (hasWitnessed_safe _ _ _) fun _ _ => .bind (.require _ _) fun _ _ => ?_
      exact .bind (.okOr _ _) fun _ _ => .ok _
    · split
      · rename_i hne
        exact changeState_safe hne.2
      · exact .ok _

lemma healthy_safe (h : RosterInv roster c) (hh : 2 ≤ c.currentRound.height) (id : NodeIdentity)
    (proof : CommitteeProof) : Exec.Safe RosterPanic (c.healthy P id proof) := by
  refine .bind (.okOr _ _) fun round _ => .bind (.require _ _) fun _ _ => ?_
  refine .bind (.okOr _ _) fun client _ => .bind (fromCoordinator_safe (-1)) fun sel _ => ?_
  refine .bind (.require _ _) fun _ _ => .bind ?_ fun _ _ => ?_
  · unfold CommitteeSelection.verifyCommitteeForClient
    split
    · exact .bind (computeShuffledIndex_safe _ _ _) fun _ _ => .ok _
    · exact .ok _
  · refine .bind (.require _ _) fun _ _ => ?_
    split
    · exact .ok _
    · exact .ok _
    · refine .bind (.okOr _ _) fun prev hprev => .bind (witnessQuorum_safe ?_) fun _ _ => .ok _
      rw [FixedVec.asU16_len_witnesses, previousRound_eq_some (okOr_eq_ok.mp hprev)]
      exact h.witnessed (by omega)

lemma checkUnhealthy_safe (h : RosterInv roster c) (hh : 2 ≤ c.currentRound.height)
    (checks : List (NodeIdentity × CommitteeProof)) : Exec.Safe RosterPanic (c.checkUnhealthy P checks) := by
  induction checks with
  | nil => exact .ok _
  | cons check checks ih =>
    obtain ⟨id, proof⟩ := check
    refine .bind (healthy_safe h hh id proof) fun _ _ => ?_
    exact .bind (.require _ _) fun _ _ => ih

lemma healthCheck_safe (h : RosterInv roster c) (checks : List (NodeIdentity × CommitteeProof)) :
    Exec.Safe RosterPanic (c.healthCheck P checks) := by
  refine .bind (.require _ _) fun _ _ => .bind (.require _ _) fun _ hh => ?_
  have hh := require_eq_ok.mp hh
  refine .bind (checkUnhealthy_safe h hh checks) fun _ _ => .foldlM (fun acc proof => ?_) _ _
  unfold dropClient
  split
  · exact .abort id
  · split
    · exact .ok _
    · exact .ok _

end Safety

section Runs
variable {P : Platform} {c : Coordinator} {tr : List (Event Coordinator Operation Unit)}

/-- The keys admitted when the current epoch of a run began. -/
def rosterOf : List (Event Coordinator Operation Unit) → List Pubkey
  | [] => []
  | ev :: tr =>
    match ev.input with
    | .tick (some pending) _ _ =>
      if ev.before.runState = .waitingForMembers ∧ ev.after.runState = .warmup then admitted pending.ids
      else rosterOf tr
    | _ => rosterOf tr

lemma RosterInv.fresh (h : Fresh c) : RosterInv [] c := by
  obtain ⟨hc, he, hh, hs⟩ := h
  have hs' : c.runState ≠ .warmup ∧ c.runState ≠ .roundTrain ∧ c.runState ≠ .roundWitness := by
    unfold halted at hs
    cases hr : c.runState <;> simp_all
  refine .outside ⟨?_, nodup_nil, Nat.zero_le _, ?_⟩ hs' fun h0 => absurd hh h0
  · simp [signers, entries, hc, he]
  · simp [he]

lemma RosterInv.perform {c' : Coordinator} {op : Operation} (h : RosterInv (rosterOf tr) c)
    (st : c.perform P op = .ok c') : RosterInv (rosterOf (⟨c, op, (), c'⟩ :: tr)) c' := by
  cases op with
  | tick pending now seed =>
    simp only [Coordinator.perform, bind_eq_ok, Except.ok.injEq] at st
    obtain ⟨⟨_, r⟩, ht, rfl⟩ := st
    cases pending with
    | none =>
      obtain ⟨_, hk⟩ | ⟨ids, hids, _⟩ := h.tick (fun ids e => by cases e) (tick_inv ht)
      · exact hk
      · cases hids
    | some p =>
      obtain ⟨hnb, hk⟩ | ⟨ids, hids, hb, hk⟩ := h.tick (fun ids e => by cases e; exact p.nodup) (tick_inv ht)
      · simpa only [rosterOf, if_neg hnb] using hk
      · cases hids
        simpa only [rosterOf, if_pos hb] using hk
  | warmupWitness from_ w now seed => exact h.warmupWitness st
  | witness from_ w now => exact h.witness st
  | healthCheck checks =>
    simp only [Coordinator.perform, bind_eq_ok, Except.ok.injEq] at st
    obtain ⟨⟨_, n⟩, hc, rfl⟩ := st
    exact h.healthCheck hc
  | checkpoint from_ index repo => exact h.checkpoint st
  | withdraw index =>
    obtain ⟨_, _, _, rfl⟩ := withdraw_eq_ok.mp st
    exact h.setClientState index _
  | eject index =>
    obtain ⟨_, _, _, rfl⟩ := eject_eq_ok.mp st
    exact h.setClientState index _
  | pause now => exact h.pause st
  | resume now =>
    obtain ⟨_, rfl⟩ := resume_inv st
    exact .outside h.core (betweenEpochs_ne c) h.witnessed
  | update config model progress =>
    simp only [Coordinator.perform, bind_eq_ok, require_eq_ok, Except.ok.injEq] at st
    obtain ⟨_, _, rfl⟩ := st
    exact h.restate rfl rfl rfl rfl ⟨rfl, rfl, rfl⟩

/-- In every run the roster is that of the last admission. -/
lemma RosterInv.of_run (r : (machine P).Run tr c) : RosterInv (rosterOf tr) c := by
  refine r.history (P := fun tr c => RosterInv (rosterOf tr) c) (fun _ => .fresh) ?_
  intro tr c op c' o _ h st
  simp only [machine, bind_eq_ok, ok_pair] at st
  obtain ⟨_, hp, rfl, _⟩ := st
  exact h.perform hp

/-- In every state of every run the present and the exited clients are, up to order, the distinct and at most 256 clients
admitted when the epoch began; exited clients are not healthy; a running round has as many clients as it started with. Hence
no tick, witness or health check aborts for a broken roster. -/
theorem roster_invariant {tr : List (Event Coordinator Operation Unit)} {c : Coordinator}
    (r : (machine P).Run tr c) :
    (c.epochState.signers.Perm (rosterOf tr) ∧ (rosterOf tr).Nodup
      ∧ (rosterOf tr).length ≤ solanaMaxNumClients)
    ∧ (∀ x ∈ c.epochState.exitedClients.toList, x.state ≠ .healthy)
    ∧ (c.runState = .roundTrain ∨ c.runState = .roundWitness →
      c.epochState.clients.len = c.currentRound.clientsLen)
    ∧ (∀ pending now seed, Exec.Safe RosterPanic (c.tick P pending now seed))
    ∧ (∀ from_ w now, Exec.Safe RosterPanic (c.witness P from_ w now))
    ∧ (∀ checks, Exec.Safe RosterPanic (c.healthCheck P checks)) := by
  have h := RosterInv.of_run r
  exact ⟨⟨h.core.perm, h.core.nodup, h.core.bound⟩, h.core.exited, h.clientsLen,
    tick_safe h fun hb => absurd hb overflow_harmless, witness_safe, healthCheck_safe h⟩

/-- A run in which two clients are admitted and one of them leaves during warmup. -/
def warmupExit : List (Event Coordinator Operation Unit) × Coordinator :=
  (machine .zero).play [] .small
    [.tick (some .two) 5 0, .withdraw 0, .tick none 6 0]

/-- The warmup is given up, and the client that has left is still listed, after the one that stays. -/
theorem roster_invariant_warmupExit :
    warmupExit.2.runState = .waitingForMembers ∧ warmupExit.2.epochState.signers = [2, 1]
      ∧ warmupExit.2.epochState.signers.Perm (rosterOf warmupExit.1) := by
  have hfresh : (machine .zero).init .small := ⟨rfl, rfl, rfl, .inl rfl⟩
  exact ⟨by decide +kernel, by decide +kernel, (roster_invariant ((Machine.Run.init hfresh).play _)).1.1⟩

end Runs
end Coordinator
end Leviathan
