import Leviathan.Coordinator.Rounds

/-!
# What a call does to the rounds

Every accepted call of the coordinator is one of the steps of `RoundStep` (`roundStep_of_perform`), which keep apart all
that stored rounds, stored witnesses and the two client lists depend on. Most calls are `Quiet`: they change the
standing of clients, the model or the wish to pause, and neither the course of the run (`SameCourse`) nor anything that
rounds are made of. Runs are gone through step by step (`history_of_steps`).

For the stored rounds less is enough: an epoch begins, a round begins, or all rounds stay as they are (`Course`).
-/

namespace Leviathan
open Exec

def Operation.reports : Operation → Bool
  | .warmupWitness _ _ _ _ | .witness _ _ _ => true
  | _ => false

namespace Coordinator
variable {P : Platform} {c c' : Coordinator} {from_ : NodeIdentity}

/-- The course of the run is the same: its phase, its counters, the round in progress up to reports on it, and the pause that
may be pending. A round may be asked to be the last one. -/
structure SameCourse (c c' : Coordinator) : Prop where
  config : c'.config = c.config
  runState : c'.runState = c.runState
  since : c'.runStateStartUnixTimestamp = c.runStateStartUnixTimestamp
  progress : c'.progress = c.progress
  sequence : c'.getSequenceLength = c.getSequenceLength
  pendingPause : c'.pendingPause = c.pendingPause ∨ (c.active = true ∧ c'.pendingPause = true)
  firstRound : c'.epochState.firstRound = c.epochState.firstRound
  coldStart : c'.epochState.coldStartEpoch = c.epochState.coldStartEpoch
  head : c'.epochState.roundsHead = c.epochState.roundsHead
  round : c'.currentRound = { c.currentRound with witnesses := c'.currentRound.witnesses }
  len : c'.epochState.clients.len = c.epochState.clients.len

lemma SameCourse.refl (c : Coordinator) : SameCourse c c := ⟨rfl, rfl, rfl, rfl, rfl, .inl rfl, rfl, rfl, rfl, rfl, rfl⟩

lemma SameCourse.setClients (clients : FixedVec Client solanaMaxNumClients) (h : clients.len = c.epochState.clients.len) :
    SameCourse c (c.setEpochState { c.epochState with clients }) :=
  ⟨rfl, rfl, rfl, rfl, rfl, .inl rfl, rfl, rfl, rfl, rfl, h⟩

/-- Nothing that rounds are made of is changed either. -/
structure Quiet (c c' : Coordinator) : Prop extends SameCourse c c' where
  stays : Stays c c'
  roster : c'.roster = c.roster
  currentRound : c'.currentRound = c.currentRound
  lastStep : c'.epochState.lastStep = c.epochState.lastStep

lemma SameCourse.quiet (h : SameCourse c c') (he : c'.epochState = c.epochState) : Quiet c c' := by
  refine ⟨h, .of_epochState h.config he, ?_, (rounds_congr c c' (by rw [he]) (by rw [he])).1, by rw [he]⟩
  rw [Coordinator.roster, he]
  rfl

lemma Quiet.setClientState (index : Nat) {st : ClientState} (hst : st ≠ .healthy) :
    Quiet c (c.setClientState index st) :=
  ⟨.setClients _ (by simp [FixedVec.len]), .setClientState hst, map_modify_eq fun _ _ => rfl, rfl, rfl⟩

lemma Quiet.healthCheck {checks : List (NodeIdentity × CommitteeProof)} {n : Nat}
    (h : c.healthCheck P checks = .ok (c', n)) : Quiet c c' := by
  have hs := Stays.healthCheck h
  obtain ⟨_, _, _, clients, hcl, rfl⟩ := healthCheck_inv h
  have hroster := map_eq_of_mayDrop (fun _ _ hxy => congrArg Prod.fst (MayDrop.mark hxy)) hcl
  exact ⟨.setClients clients hcl.length_eq.symm, hs, hroster, rfl, rfl⟩

/-- What an accepted call has done. -/
inductive RoundStep (P : Platform) (c : Coordinator) : Operation → Coordinator → Prop where
  | quiet {op c'} :
    op.reports = false →
    Quiet c c' →
    RoundStep P c op c'
  | ignored {from_ w now seed} :
    c.runState = .roundTrain →
    RoundStep P c (.warmupWitness from_ w now seed) c
  | ticked {pending now seed c' r} :
    TickStep P c (pending.map PendingClients.ids) now seed c' r →
    RoundStep P c (.tick pending now seed) c'
  | warmed {from_ w now seed c'} :
    c.runState = .warmup →
    CommitteeSelection.verifyClient from_ w.proof.index c.epochState.clients.toList = true →
    c.WitnessStored from_ w c' →
    RoundStep P c (.warmupWitness from_ w now seed) c'
  | warmedUp {from_ w now seed c1 c'} :
    c.runState = .warmup →
    CommitteeSelection.verifyClient from_ w.proof.index c.epochState.clients.toList = true →
    c.WitnessStored from_ w c1 →
    c1.currentRound.witnesses.len = c.witnessTarget →
    c1.RoundStarted P now seed c' →
    RoundStep P c (.warmupWitness from_ w now seed) c'
  | witnessed {from_ w now c1 selection} :
    (c.runState = .roundWitness ∨ c.runState = .roundTrain) →
    CommitteeSelection.fromCoordinator P c 0 = .ok selection →
    (selection.verifyWitnessForClient P from_ w.proof c.epochState.clients.toList
      : Exec CoordinatorError Panic Bool) = .ok true →
    w.proof.witness = true →
    c.WitnessStored from_ w c1 →
    RoundStep P c (.witness from_ w now)
      (if c1.currentRound.witnesses.len = c.witnessTarget ∧ c.runState ≠ .roundWitness then
        c1.entered now .roundWitness else c1)
  | paused {now} :
    (c.runState = .waitingForMembers ∨ c.runState = .warmup) →
    RoundStep P c (.pause now)
      ((c.withdrawn.setEpochState { c.withdrawn.epochState with coldStartEpoch := true }).entered now .paused)
  | resumed {now} :
    c.runState = .paused →
    RoundStep P c (.resume now) (c.entered now c.betweenEpochs)
  | updated {config model progress} :
    c.halted = true →
    RoundStep P c (.update config model progress) { c with config, model, progress }

/-- Every accepted operation is a step of the round. -/
lemma roundStep_of_perform {op : Operation} (h : c.perform P op = .ok c') : RoundStep P c op c' := by
  cases op with
  | tick pending now seed =>
    simp only [Coordinator.perform, bind_eq_ok, Except.ok.injEq] at h
    obtain ⟨⟨_, r⟩, ht, rfl⟩ := h
    exact .ticked (tick_inv ht)
  | warmupWitness from_ w now seed =>
    obtain ⟨hs, rfl⟩ | ⟨hs, hv, c1, hst, rfl | ⟨hlen, hr⟩⟩ := warmupWitness_inv h
    · exact .ignored hs
    · exact .warmed hs hv hst
    · exact .warmedUp hs hv hst hlen hr
  | witness from_ w now =>
    obtain ⟨selection, c1, hs, hsel, hv, hw, hst, rfl⟩ := witness_inv h
    exact .witnessed hs hsel hv hw hst
  | healthCheck checks =>
    simp only [Coordinator.perform, bind_eq_ok, Except.ok.injEq] at h
    obtain ⟨⟨_, n⟩, hc, rfl⟩ := h
    exact .quiet rfl (.healthCheck hc)
  | checkpoint from_ index repo =>
    rw [checkpoint_inv h]
    exact .quiet rfl (SameCourse.quiet ⟨rfl, rfl, rfl, rfl, rfl, .inl rfl, rfl, rfl, rfl, rfl, rfl⟩ rfl)
  | withdraw index =>
    obtain ⟨_, _, _, rfl⟩ := withdraw_eq_ok.mp h
    exact .quiet rfl (.setClientState index (by rintro ⟨⟩))
  | eject index =>
    obtain ⟨_, _, _, rfl⟩ := eject_eq_ok.mp h
    exact .quiet rfl (.setClientState index (by rintro ⟨⟩))
  | pause now =>
    obtain ⟨ha, rfl⟩ | ⟨hs, rfl⟩ := pause_inv h
    · exact .quiet rfl (SameCourse.quiet ⟨rfl, rfl, rfl, rfl, rfl, .inr ⟨ha, rfl⟩, rfl, rfl, rfl, rfl, rfl⟩ rfl)
    · exact .paused hs
  | resume now =>
    obtain ⟨hs, rfl⟩ := resume_inv h
    exact .resumed hs
  | update config model progress =>
    simp only [Coordinator.perform, bind_eq_ok, require_eq_ok, Except.ok.injEq] at h
    obtain ⟨_, hh, rfl⟩ := h
    exact .updated hh

lemma roundStep_of_machine {op : Operation} {o : Unit} (h : (machine P).step c op = .ok (c', o)) : RoundStep P c op c' := by
  simp only [machine, bind_eq_ok, ok_pair] at h
  obtain ⟨_, hp, rfl, _⟩ := h
  exact roundStep_of_perform hp

lemma history_of_steps {I : Record → Coordinator → Prop} (h0 : ∀ c, Fresh c → I [] c)
    (hs : ∀ tr c op c', (machine P).Run tr c → I tr c → RoundStep P c op c' → I (⟨c, op, (), c'⟩ :: tr) c')
    {tr : Record} (r : (machine P).Run tr c) : I tr c := by
  refine r.history h0 ?_
  intro tr c op c' o r h st
  exact hs tr c op c' r h (roundStep_of_machine st)

lemma RoundStarted.runState {now seed : Nat} (hr : c.RoundStarted P now seed c') : c'.runState = .roundTrain := by
  obtain ⟨_, _, _, _, _, rfl⟩ := hr
  rfl

section Lasts
variable {c1 : Coordinator} {now : Nat}

def Idle (c : Coordinator) : Prop := c.runState = .paused ∨ c.runState = .uninitialized

/-- No epoch and no round begins: the phase is the same, or it gives way to one in which they end. -/
def Lasts (c c' : Coordinator) : Prop :=
  c'.runState = c.runState
    ∨ (c'.runState ≠ .warmup ∧ c'.runState ≠ .roundTrain ∧ c.runState ≠ .finished
      ∧ (c'.active = true → c.active = true) ∧ (c'.Idle → c'.NoneHealthy))

lemma Lasts.between (hs : c.runState ≠ .finished) : Lasts c (c1.entered now c.betweenEpochs) := by
  have hne := betweenEpochs_ne c
  refine .inr ⟨hne.1, hne.2.1, hs, fun ha => ?_, fun hi => ?_⟩
  · rw [active_betweenEpochs] at ha
    cases ha
  · obtain hb | hb := betweenEpochs_cases c <;> simp [Idle, entered, hb] at hi

lemma Lasts.paused (hs : c.runState ≠ .finished) (hn : c1.NoneHealthy) : Lasts c (c1.entered now .paused) :=
  .inr ⟨by rintro ⟨⟩, by rintro ⟨⟩, hs, by rintro ⟨⟩, fun _ => hn⟩

lemma Lasts.active_of (ha : c.active = true) (hs : c'.runState = .roundWitness ∨ c'.runState = .cooldown) :
    Lasts c c' := by
  refine .inr ⟨?_, ?_, fun hf => ?_, fun _ => ha, fun hi => ?_⟩
  · obtain hs | hs := hs <;> simp [hs]
  · obtain hs | hs := hs <;> simp [hs]
  · simp [Coordinator.active, hf] at ha
  · obtain hs | hs := hs <;> simp [Idle, hs] at hi

section
variable (h : Lasts c c')
include h

lemma Lasts.warmup (hs : c'.runState = .warmup) : c.runState = .warmup := by
  obtain he | ⟨hn, _⟩ := h
  · exact he.symm.trans hs
  · exact absurd hs hn

lemma Lasts.roundTrain (hs : c'.runState = .roundTrain) : c.runState = .roundTrain := by
  obtain he | ⟨_, hn, _⟩ := h
  · exact he.symm.trans hs
  · exact absurd hs hn

lemma Lasts.finished (hs : c.runState = .finished) : c'.runState = .finished := by
  obtain he | ⟨_, _, hn, _⟩ := h
  · exact he.trans hs
  · exact absurd hs hn

lemma Lasts.active (ha : c'.active = true) : c.active = true := by
  obtain he | ⟨_, _, _, hn, _⟩ := h
  · rw [Coordinator.active, he] at ha
    exact ha
  · exact hn ha

lemma Lasts.idle (hk : Stays c c') (hc : c.Idle → c.NoneHealthy) (hi : c'.Idle) : c'.NoneHealthy := by
  obtain he | ⟨_, _, _, _, hn⟩ := h
  · rw [Idle, he] at hi
    exact hk.healthy (hc hi)
  · exact hn hi

end
end Lasts

/-- What a step does to the rounds of an epoch. -/
inductive Course (P : Platform) (c c' : Coordinator) : Prop where
  | begins :
    c.runState = .waitingForMembers →
    c'.runState = .warmup →
    c'.epochState.roundsHead = 0 →
    c'.currentRound = .zeroed →
    Course P c c'
  | stays :
    Lasts c c' →
    Stays c c' →
    Course P c c'
  | updates :
    c.halted = true →
    c'.runState = c.runState →
    c'.epochState = c.epochState →
    Course P c c'
  | aborts {c1 : Coordinator} {now seed} :
    c.runState = .warmup →
    (c'.runState = .waitingForMembers ∨ c'.runState = .finished) →
    c.RoundStarted P now seed c1 →
    c'.epochState = c1.epochState →
    Course P c c'
  | first {c1 : Coordinator} {now seed} :
    c.runState = .warmup →
    c1.epochState.firstRound = c.epochState.firstRound →
    c1.RoundStarted P now seed c' →
    Course P c c'
  | next {c1 : Coordinator} {now seed} :
    c.runState = .roundWitness →
    Stays c c1 →
    c1.runState ≠ .finished →
    c1.currentRound = c.currentRound →
    c1.epochState.firstRound = false →
    c1.RoundStarted P now seed c' →
    Course P c c'

/-- What a tick does to the course of the epoch. -/
lemma TickStep.course {pending : Option (List NodeIdentity)} {r : TickResult} {now seed : Nat}
    (st : TickStep P c pending now seed c' r) : Course P c c' := by
  cases st with
  | idle => exact .stays (.inl rfl) (.refl c)
  | beginEpoch hs _ _ _ hb =>
    refine .begins hs (by rw [hb.eq]) ?_ ?_
    all_goals
      rw [hb.eq]
      rfl
  | warm _ hc => exact .stays (.inl rfl) (.compacted hc rfl rfl rfl rfl rfl)
  | warmAbort hs hc | endEpoch hs _ hc =>
    exact .stays (.between (by simp [hs])) (.compacted hc rfl rfl rfl rfl rfl)
  | trainAbort hs _ hr => exact .aborts hs (betweenEpochs_cases c) hr rfl
  | train hs _ hr => exact .first hs rfl hr
  | witness hs => exact .stays (.active_of (by simp [active, hs]) (.inl rfl)) (.of_epochState rfl rfl)
  | coolEmpty hs _ hc =>
    exact .stays (.active_of (by simp [active, hs]) (.inr rfl))
      ((Stays.roundClosed _ hc).trans (Stays.withdrawn.trans .cooled))
  | cool hs _ hc =>
    exact .stays (.active_of (by simp [active, hs]) (.inr rfl)) ((Stays.roundClosed _ hc).trans .cooled)
  | @nextRound e lastStep _ hs _ hc _ _ _ hr =>
    have hcur : (c.roundClosed e lastStep).currentRound = c.currentRound :=
      (rounds_congr c _ hc.rounds hc.roundsHead).1
    exact .next hs (.roundClosed lastStep hc) (by simp [Coordinator.roundClosed, hs]) hcur hc.firstRound hr
  | @endEpochPaused e _ hs _ hc =>
    have hcomp : Stays c (c.setEpochState e) := .compacted hc rfl rfl rfl rfl rfl
    have hn := noneHealthy_withdrawn (c.setEpochState e)
    refine .stays (.paused (by simp [hs]) hn) (hcomp.trans (Stays.withdrawn.trans ?_))
    exact .of_frame rfl rfl rfl rfl rfl id

/-- What any operation does to it. -/
lemma RoundStep.course {op : Operation} (st : RoundStep P c op c') : Course P c c' := by
  cases st with
  | quiet _ hq => exact .stays (.inl hq.runState) hq.stays
  | ignored => exact .stays (.inl rfl) (.refl c)
  | ticked ht => exact ht.course
  | warmed _ _ hst => exact .stays (.inl hst.runState) (.witnessStored hst)
  | warmedUp hs _ hst _ hr =>
    refine .first hs ?_ hr
    obtain ⟨_, _, _, rfl⟩ := hst
    rfl
  | witnessed hs _ _ _ hst =>
    have ha : c.active = true := by obtain hs | hs := hs <;> simp [active, hs]
    split
    · exact .stays (.active_of ha (.inl rfl)) ((Stays.witnessStored hst).trans (.of_epochState rfl rfl))
    · exact .stays (.inl hst.runState) (.witnessStored hst)
  | paused hs =>
    refine .stays (.paused ?_ (noneHealthy_withdrawn c)) (Stays.withdrawn.trans (.of_frame rfl rfl rfl rfl rfl id))
    obtain hs | hs := hs <;> simp [hs]
  | resumed hs => exact .stays (.between (by simp [hs])) (.of_epochState rfl rfl)
  | updated hh => exact .updates hh rfl rfl

end Coordinator
end Leviathan
