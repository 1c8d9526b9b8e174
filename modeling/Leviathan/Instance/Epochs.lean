import Leviathan.Instance.BeforeTick
import Leviathan.Instance.Rewards

/-!
# Epochs of an account

What an account (`solana-coordinator/src/instance_state.rs`) notes about an epoch when it starts: the rates it
pays, once it is in warmup, and the joins that were current, once it trains. Two flags guard the notes; they are
set while members are awaited. `notes` reads off what the tick of an instruction noted, and `EpochMove` lists what one
instruction can do to an epoch (`process_epochMove`).
-/

namespace Leviathan
open Exec List

/-- What an account notes when an epoch starts (in Rust `tick`). -/
inductive StartNote where
  | rates (rates : ClientsEpochRates)
  | active
deriving DecidableEq, Repr

namespace InstanceState
open Coordinator

def startNote (s : InstanceState) : Option StartNote :=
  if s.coordinator.isWarmupJustStarting && s.isWarmupFirstTick then
    some (.rates s.clientsState.futureEpochRates)
  else if s.coordinator.isTrainingJustStarting && s.isTrainingFirstTick then
    some .active
  else
    none

/-- What a tick notes (in Rust `tick`). -/
def tickNotes (P : Platform) (s : InstanceState) (clock : Clock) : List StartNote :=
  match s.coordinator.tick P s.pendingIds clock.now (getRandomSeed P clock) with
  | .ok (c, .ticked) => (s.ticking c).startNote.toList
  | _ => []

def notesOf (P : Platform) (s : InstanceState) (clock : Clock) (ix : Instruction) : List StartNote :=
  match s.tickedIn P clock ix with
  | some s1 => s1.tickNotes P clock
  | none => []

/-- What the instructions of a run note, newest first. -/
def notes (P : Platform) (tr : Record) : List StartNote :=
  tr.flatMap fun ev => ev.before.notesOf P ev.input.1 ev.input.2

section Noted
variable {P : Platform} {s s' s1 : InstanceState} {clock : Clock} {fx : List InstanceEffect} {c : Coordinator}
  {ix : Instruction}

/-- The state after `noteStart`. -/
def noted (s : InstanceState) : InstanceState :=
  match s.startNote with
  | some (.rates rates) =>
    { s with clientsState := { s.clientsState with currentEpochRates := rates }, isWarmupFirstTick := false }
  | some .active =>
    { s with
      clientsState := { s.clientsState with nextActive := s.clientsState.nextActive + 1 }
      isTrainingFirstTick := false }
  | none => s

lemma noteStart_eq_noted (h : s.noteStart = .ok s') : s' = s.noted := by
  unfold noteStart at h
  unfold noted startNote
  split at h
  · rename_i hw
    cases h
    rw [if_pos hw]
  · rename_i hw
    rw [if_neg hw]
    split at h
    · rename_i ht
      simp only [ClientsState.bumpNextActive, bind_eq_ok, addU_eq_ok, Except.ok.injEq] at h
      obtain ⟨_, ⟨_, ⟨_, rfl⟩, rfl⟩, rfl⟩ := h
      rw [if_pos ht]
    · rename_i ht
      cases h
      rw [if_neg ht]

lemma tick_inv_notes (h : s.tick P clock = .ok (s', fx)) :
    (∃ c, s.coordinator.TickStep P s.pendingIds clock.now (getRandomSeed P clock) c .ticked
        ∧ s' = (s.ticking c).noted ∧ fx = [] ∧ s.tickNotes P clock = (s.ticking c).startNote.toList)
      ∨ (∃ c success, s.coordinator.TickStep P s.pendingIds clock.now (getRandomSeed P clock) c (.epochEnd success)
        ∧ s' = (s.ticking c).settled ∧ fx = [.settled ((s.ticking c).settlement success)]
        ∧ s.tickNotes P clock = []) := by
  simp only [tick, bind_eq_ok, mapErr_eq_ok] at h
  obtain ⟨⟨c, r⟩, ht, h⟩ := h
  cases r with
  | ticked =>
    simp only [bind_eq_ok, ok_pair] at h
    obtain ⟨_, hn, rfl, rfl⟩ := h
    exact .inl ⟨c, Coordinator.tick_inv ht, noteStart_eq_noted hn, rfl, by simp only [tickNotes, ht]⟩
  | epochEnd success =>
    obtain ⟨rfl, rfl⟩ := settle_inv h
    exact .inr ⟨c, success, Coordinator.tick_inv ht, rfl, rfl, by simp only [tickNotes, ht]⟩

/-- The phases a tick that ends no epoch can go through. A round that has started at this moment goes on, and
a later round is not the first. -/
lemma tickStep_phases {c' : Coordinator} {pending : Option (List NodeIdentity)} {now seed : Nat}
    (st : c.TickStep P pending now seed c' .ticked) :
    (c.runState = .waitingForMembers ∧ c' = c)
      ∨ (c.runState = .waitingForMembers ∧ c.runStateStartUnixTimestamp ≠ now ∧ c'.runState = .warmup
        ∧ c'.epochState.firstRound = true)
      ∨ (c.runState = .warmup ∧ (c'.runState = .warmup ∨ c'.runState = .roundTrain)
        ∧ c'.epochState.firstRound = c.epochState.firstRound)
      ∨ (c.active = true ∧ c'.active = true
        ∧ (c.runState = .roundTrain → c.runStateStartUnixTimestamp = now → c' = c)) := by
  cases st with
  | idle hs =>
    obtain hs | hs := hs
    · exact .inl ⟨hs, rfl⟩
    · have ha : c.active = true := by
        obtain hs | hs | hs := hs <;> simp [Coordinator.active, hs]
      exact .inr (.inr (.inr ⟨ha, ha, fun _ _ => rfl⟩))
  | beginEpoch hs _ _ ht hb =>
    refine .inr (.inl ⟨hs, ht.1, ?_, ?_⟩) <;> rw [hb.eq]
  | warm hs hc => exact .inr (.inr (.inl ⟨hs, .inl hs, by rw [hc.eq]; rfl⟩))
  | train hs _ hr =>
    obtain ⟨_, _, _, _, _, rfl⟩ := hr
    exact .inr (.inr (.inl ⟨hs, .inr rfl, rfl⟩))
  | witness hs ht =>
    exact .inr (.inr (.inr ⟨by simp [Coordinator.active, hs], rfl, fun _ e => absurd e ht.1⟩))
  | coolEmpty hs | cool hs => exact .inr (.inr (.inr ⟨by simp [Coordinator.active, hs], rfl, by simp [hs]⟩))
  | nextRound hs _ _ _ _ _ hr =>
    exact .inr (.inr (.inr ⟨by simp [Coordinator.active, hs], hr.active, by simp [hs]⟩))

/-- The flags of an account agree with its phase. -/
structure Noted (s : InstanceState) : Prop where
  rates : EpochOpen s.coordinator → s.isWarmupFirstTick = false
  warmup : s.coordinator.runState = .warmup →
    s.coordinator.epochState.firstRound = true ∧ s.isTrainingFirstTick = true
  active : s.coordinator.active = true → s.isTrainingFirstTick = false

/-- The flags of an account that is about to tick. A first round that has not been noted has just started. -/
structure Ready (now : Nat) (s : InstanceState) : Prop where
  rates : EpochOpen s.coordinator → s.isWarmupFirstTick = false
  warmup : s.coordinator.runState = .warmup →
    s.coordinator.epochState.firstRound = true ∧ s.isTrainingFirstTick = true
  active : s.coordinator.active = true → s.isTrainingFirstTick = true →
    s.coordinator.runState = .roundTrain ∧ s.coordinator.epochState.firstRound = true
      ∧ s.coordinator.runStateStartUnixTimestamp = now

lemma epochOpen_iff : EpochOpen c ↔ c.runState = .warmup ∨ c.active = true := by
  unfold EpochOpen RunState.InEpoch Coordinator.active
  cases c.runState <;> simp

lemma Noted.ready (h : Noted s) (hp : Prepared ix clock.now true s s1) : Ready clock.now s1 := by
  refine ⟨?_, ?_, ?_⟩
  · intro ho
    rw [hp.warmupFlag]
    refine h.rates (epochOpen_iff.mpr ?_)
    cases hp.phase with
    | kept hs _ => simpa only [EpochOpen, hs, epochOpen_iff, Coordinator.active] using ho
    | started hs => exact .inl hs
    | witnessed hs => exact .inr (by simp [Coordinator.active, hs])
    | resumed _ hs => obtain hs | hs := hs <;> simp [RunState.InEpoch, hs] at ho
  · intro hw
    rw [hp.trainingFlag]
    cases hp.phase with
    | kept hs hf =>
      rw [hf]
      exact h.warmup (hs ▸ hw)
    | started _ hs => simp [hs] at hw
    | witnessed _ hs => simp [hs] at hw
    | resumed _ hs => simp [hw] at hs
  · intro ha hflag
    rw [hp.trainingFlag] at hflag
    cases hp.phase with
    | kept hs hf =>
      have := h.active (by simpa only [Coordinator.active, hs] using ha)
      simp [hflag] at this
    | started hs hs' hf hn => exact ⟨hs', hf ▸ (h.warmup hs).1, hn⟩
    | witnessed hs =>
      have := h.active (by simp [Coordinator.active, hs])
      simp [hflag] at this
    | resumed _ hs => obtain hs | hs := hs <;> simp [Coordinator.active, hs] at ha

/-- What one instruction, or one tick, does to an epoch and notes about it. -/
inductive EpochMove (s : InstanceState) (notes : List StartNote) (fx : List InstanceEffect) (s' : InstanceState) :
    Prop where
  | outside :
    ¬ EpochOpen s.coordinator →
    ¬ EpochOpen s'.coordinator →
    notes = [] →
    (∀ st, .settled st ∉ fx) →
    EpochMove s notes fx s'
  | opens :
    ¬ EpochOpen s.coordinator →
    s'.coordinator.runState = .warmup →
    notes = [.rates s.clientsState.futureEpochRates] →
    s'.clientsState.currentEpochRates = s.clientsState.futureEpochRates →
    s'.clientsState.nextActive = s.clientsState.nextActive →
    (∀ st, .settled st ∉ fx) →
    EpochMove s notes fx s'
  | trains :
    s.coordinator.runState = .warmup ∨ (s.coordinator.runState = .roundTrain ∧ s.isTrainingFirstTick = true) →
    s'.coordinator.runState = .roundTrain →
    notes = [.active] →
    s'.clientsState.currentEpochRates = s.clientsState.currentEpochRates →
    s'.clientsState.nextActive = s.clientsState.nextActive + 1 →
    (∀ st, .settled st ∉ fx) →
    EpochMove s notes fx s'
  | stays :
    EpochOpen s.coordinator →
    EpochOpen s'.coordinator →
    (s'.coordinator.runState = .warmup ↔ s.coordinator.runState = .warmup) →
    s.coordinator.runState = .warmup ∨ s.isTrainingFirstTick = false →
    notes = [] →
    s'.clientsState.currentEpochRates = s.clientsState.currentEpochRates →
    s'.clientsState.nextActive = s.clientsState.nextActive →
    (∀ st, .settled st ∉ fx) →
    EpochMove s notes fx s'
  | closes :
    EpochOpen s.coordinator →
    ¬ EpochOpen s'.coordinator →
    notes = [] →
    s'.clientsState.currentEpochRates = s.clientsState.currentEpochRates →
    s'.clientsState.nextActive = s.clientsState.nextActive →
    (∀ st, .settled st ∈ fx →
      st.slashingRate = s.clientsState.currentEpochRates.slashingRatePerClient
        ∧ st.earnedShare = earnedShare s'.coordinator s.clientsState.currentEpochRates) →
    EpochMove s notes fx s'

lemma ticking_flags_waiting (c : Coordinator) (h : s.coordinator.runState = .waitingForMembers) :
    (s.ticking c).isWarmupFirstTick = true ∧ (s.ticking c).isTrainingFirstTick = true := by
  simp [ticking, resetFlags, h]

lemma ticking_flags_open (c : Coordinator) (h : EpochOpen s.coordinator) :
    (s.ticking c).isWarmupFirstTick = s.isWarmupFirstTick
      ∧ (s.ticking c).isTrainingFirstTick = s.isTrainingFirstTick := by
  have hw : s.coordinator.runState ≠ .waitingForMembers := by
    intro hw
    simp [RunState.InEpoch, hw] at h
  simp [ticking, resetFlags, hw]

lemma startNote_eq_none (hw : s.coordinator.runState = .warmup → s.isWarmupFirstTick = false)
    (ht : s.coordinator.runState = .roundTrain → s.isTrainingFirstTick = false) : s.startNote = none := by
  have hw' : ¬ ((s.coordinator.isWarmupJustStarting && s.isWarmupFirstTick) = true) := by
    intro h
    simp only [isWarmupJustStarting, Bool.and_eq_true, beq_iff_eq] at h
    simp [hw h.1.2] at h
  have ht' : ¬ ((s.coordinator.isTrainingJustStarting && s.isTrainingFirstTick) = true) := by
    intro h
    simp only [isTrainingJustStarting, Bool.and_eq_true, beq_iff_eq] at h
    simp [ht h.1.2] at h
  rw [startNote, if_neg hw', if_neg ht']

lemma startNote_eq_active (hs : s.coordinator.runState = .roundTrain)
    (hf : s.coordinator.epochState.firstRound = true) (ht : s.isTrainingFirstTick = true) :
    s.startNote = some .active := by
  simp [startNote, isWarmupJustStarting, isTrainingJustStarting, hs, hf, ht]

lemma Noted.of_not_open (h : ¬ EpochOpen s.coordinator) : Noted s :=
  ⟨fun ho => absurd ho h, fun hw => absurd (.inl hw) h, fun ha => absurd (epochOpen_iff.mpr (.inr ha)) h⟩

lemma Ready.trains (h : Ready clock.now s) (ho : EpochOpen s.coordinator)
    (hs : s.coordinator.runState = .warmup
      ∨ (s.coordinator.runState = .roundTrain ∧ s.isTrainingFirstTick = true))
    (hflag : s.isTrainingFirstTick = true) (hc : c.runState = .roundTrain) (hf : c.epochState.firstRound = true) :
    EpochMove s (s.ticking c).startNote.toList [] (s.ticking c).noted ∧ Noted (s.ticking c).noted := by
  obtain ⟨hw, ht⟩ := ticking_flags_open c ho
  have hn : (s.ticking c).startNote = some .active := startNote_eq_active hc hf (ht.trans hflag)
  have hnoted : (s.ticking c).noted = { s.ticking c with
      clientsState := { (s.ticking c).clientsState with nextActive := (s.ticking c).clientsState.nextActive + 1 }
      isTrainingFirstTick := false } := by
    simp only [noted, hn]
  rw [hnoted, hn]
  refine ⟨.trains hs hc rfl ?_ ?_ (by simp), ⟨fun _ => hw.trans (h.rates ho), ?_, fun _ => rfl⟩⟩
  · rw [clientsState_ticking]
  · rw [clientsState_ticking]
  · intro hw'
    cases hc.symm.trans hw'

lemma Ready.stays (h : Ready clock.now s) (ho : EpochOpen s.coordinator) (ho' : EpochOpen c)
    (hw : c.runState = .warmup ↔ s.coordinator.runState = .warmup)
    (hflag : s.coordinator.runState = .warmup ∨ s.isTrainingFirstTick = false)
    (hf : c.runState = .warmup → c.epochState.firstRound = s.coordinator.epochState.firstRound) :
    EpochMove s (s.ticking c).startNote.toList [] (s.ticking c).noted ∧ Noted (s.ticking c).noted := by
  obtain ⟨hwf, htf⟩ := ticking_flags_open c ho
  have hn : (s.ticking c).startNote = none := by
    refine startNote_eq_none (fun _ => hwf.trans (h.rates ho)) fun ht => htf.trans ?_
    refine hflag.resolve_left fun hs => ?_
    cases ht.symm.trans (hw.mpr hs)
  have hnoted : (s.ticking c).noted = s.ticking c := by
    simp only [noted, hn]
  rw [hnoted, hn]
  refine ⟨.stays ho ho' hw hflag rfl (by rw [clientsState_ticking]) (by rw [clientsState_ticking]) (by simp), ?_⟩
  refine ⟨fun _ => hwf.trans (h.rates ho), fun hs => ?_, fun ha => htf.trans ?_⟩
  · have := h.warmup (hw.mp hs)
    exact ⟨(hf hs).trans this.1, htf.trans this.2⟩
  · refine hflag.resolve_left fun hs => ?_
    have ha' : c.active = true := ha
    simp [Coordinator.active, hw.mpr hs] at ha'

lemma Ready.epochMove (h : Ready clock.now s) (ht : s.tick P clock = .ok (s', fx)) :
    EpochMove s (s.tickNotes P clock) fx s' ∧ Noted s' := by
  obtain ⟨c, st, rfl, rfl, hnotes⟩ | ⟨c, success, st, rfl, rfl, hnotes⟩ := tick_inv_notes ht
  · rw [hnotes]
    obtain ⟨hs, hc⟩ | ⟨hs, hne, hw, hf⟩ | ⟨hs, hw | hw, hf⟩ | ⟨ha, ha', hkeep⟩ := tickStep_phases st
    · -- members are still awaited
      have hno : ¬ EpochOpen s.coordinator := by simp [RunState.InEpoch, hs]
      have hno' : ¬ EpochOpen c := hc ▸ hno
      have hn : (s.ticking c).startNote = none := by
        refine startNote_eq_none (fun hw => ?_) fun hw => ?_
        · exact absurd (.inl hw) hno'
        · exact absurd (.inr (.inl hw)) hno'
      have hnoted : (s.ticking c).noted = s.ticking c := by
        simp only [noted, hn]
      rw [hnoted, hn]
      exact ⟨.outside hno hno' rfl (by simp), .of_not_open hno'⟩
    · -- the epoch opens, with both flags set
      obtain ⟨hwf, htf⟩ := ticking_flags_waiting c hs
      have hn : (s.ticking c).startNote = some (.rates s.clientsState.futureEpochRates) := by
        rw [← clientsState_ticking (s := s) (c := c)]
        have hj : (s.ticking c).coordinator.isWarmupJustStarting = true := by
          simp [isWarmupJustStarting, ticking, hw, hf]
        rw [startNote, hj, hwf]
        rfl
      have hnoted : (s.ticking c).noted = { s.ticking c with
          clientsState := { (s.ticking c).clientsState with currentEpochRates := s.clientsState.futureEpochRates }
          isWarmupFirstTick := false } := by
        simp only [noted, hn]
      rw [hnoted, hn]
      refine ⟨.opens (by simp [RunState.InEpoch, hs]) hw rfl rfl (by rw [clientsState_ticking]) (by simp), ?_⟩
      refine ⟨fun _ => rfl, fun _ => ⟨hf, htf⟩, fun ha => ?_⟩
      have ha' : c.active = true := ha
      simp [Coordinator.active, hw] at ha'
    · exact h.stays (.inl hs) (.inl hw) (by simp [hs, hw]) (.inl hs) fun _ => hf
    · exact h.trains (.inl hs) (.inl hs) (h.warmup hs).2 hw (hf.trans (h.warmup hs).1)
    · have ho := epochOpen_iff.mpr (.inr ha)
      cases hflag : s.isTrainingFirstTick with
      | true =>
        obtain ⟨hs, hf, hnow⟩ := h.active ha hflag
        have hc := hkeep hs hnow
        exact h.trains ho (.inr ⟨hs, hflag⟩) hflag (hc ▸ hs) (hc ▸ hf)
      | false =>
        have hne : ∀ {c : Coordinator}, c.active = true → c.runState ≠ .warmup := by
          intro c ha hw
          simp [Coordinator.active, hw] at ha
        exact h.stays ho (epochOpen_iff.mpr (.inr ha')) (iff_of_false (hne ha') (hne ha)) (.inr hflag)
          fun hw => absurd hw (hne ha')
  · rw [hnotes]
    obtain ⟨ho, hno⟩ := tickStep_epochEnd st
    refine ⟨.closes ho hno rfl ?_ ?_ ?_, .of_not_open hno⟩
    · rw [← clientsState_ticking (s := s) (c := c)]
      rfl
    · rw [← clientsState_ticking (s := s) (c := c)]
      rfl
    · intro st hst
      obtain rfl : st = _ := by simpa using hst
      rw [← clientsState_ticking (s := s) (c := c)]
      exact ⟨rfl, rfl⟩

lemma tick_phase (ht : s.tick P clock = .ok (s', fx)) :
    EpochOpen s.coordinator ∨ (s.coordinator.runState = .waitingForMembers
      ∧ (s.coordinator.runStateStartUnixTimestamp = clock.now → s'.coordinator.runState ≠ .warmup)) := by
  obtain ⟨c, st, rfl, rfl, hnotes⟩ | ⟨c, success, st, rfl, rfl, hnotes⟩ := tick_inv_notes ht
  · have hc : (s.ticking c).noted.coordinator = c := by
      unfold noted
      split <;> rfl
    rw [hc]
    obtain ⟨hs, rfl⟩ | ⟨hs, hne, _, _⟩ | ⟨hs, _⟩ | ⟨ha, _⟩ := tickStep_phases st
    · exact .inr ⟨hs, fun _ => by simp [hs]⟩
    · exact .inr ⟨hs, fun e => absurd e hne⟩
    · exact .inl (.inl hs)
    · exact .inl (epochOpen_iff.mpr (.inr ha))
  · exact .inl (tickStep_epochEnd st).1

lemma EpochMove.compose {notes : List StartNote} (hp : Prepared ix clock.now true s s1)
    (hh : s.coordinator.halted = false) (ho : EpochOpen s1.coordinator ↔ EpochOpen s.coordinator)
    (htrain : s1.coordinator.runState = .warmup
        ∨ (s1.coordinator.runState = .roundTrain ∧ s1.isTrainingFirstTick = true) →
      s.coordinator.runState = .warmup ∨ (s.coordinator.runState = .roundTrain ∧ s.isTrainingFirstTick = true))
    (hstay : s1.coordinator.runState = .warmup ∨ s1.isTrainingFirstTick = false →
      (s1.coordinator.runState = .warmup ↔ s.coordinator.runState = .warmup)
        ∧ (s.coordinator.runState = .warmup ∨ s.isTrainingFirstTick = false))
    (hm : EpochMove s1 notes fx s') : EpochMove s notes fx s' := by
  have hna := hp.nextActive hh
  cases hm with
  | outside hno hno' hn hfx => exact .outside (mt ho.mpr hno) hno' hn hfx
  | opens hno hw hn hcur hnext hfx =>
    exact .opens (mt ho.mpr hno) hw (hp.future rfl ▸ hn) (hp.future rfl ▸ hcur) (hnext.trans hna) hfx
  | trains hw hw' hn hcur hnext hfx =>
    exact .trains (htrain hw) hw' hn (hcur.trans hp.current) (hna ▸ hnext) hfx
  | stays ho1 ho' hw hflag hn hcur hnext hfx =>
    obtain ⟨hw1, hflag1⟩ := hstay hflag
    exact .stays (ho.mp ho1) ho' (hw.trans hw1) hflag1 hn (hcur.trans hp.current) (hnext.trans hna) hfx
  | closes ho1 hno hn hcur hnext hfx =>
    exact .closes (ho.mp ho1) hno hn (hcur.trans hp.current) (hnext.trans hna) (hp.current ▸ hfx)

/-- Every instruction is a move of the epoch. -/
lemma process_epochMove (h : Noted s) (hix : s.process P clock ix = .ok (s', fx)) :
    EpochMove s (s.notesOf P clock ix) fx s' ∧ Noted s' := by
  obtain ⟨s1, fx1, hb, ht, hin⟩ | ⟨hb, hin⟩ := process_inv_tick hix
  · have hp := (beforeTick_spec hb).prepared
    obtain ⟨hm, hnoted⟩ := (h.ready hp).epochMove ht
    have hnotes : s.notesOf P clock ix = s1.tickNotes P clock := by simp only [notesOf, hin]
    rw [hnotes]
    refine ⟨?_, hnoted⟩
    cases hp.phase with
    | kept hs hf =>
      have hh : s.coordinator.halted = false := by
        have : s1.coordinator.halted = false := by
          obtain (hs | hs | hs | hs) | ⟨hs, _⟩ := tick_phase ht <;> simp [Coordinator.halted, hs]
        simpa only [Coordinator.halted, hs] using this
      refine hm.compose hp hh (by simp only [EpochOpen, hs]) ?_ ?_
      · rw [hs, hp.trainingFlag]
        exact id
      · rw [hs, hp.trainingFlag]
        exact fun hflag => ⟨Iff.rfl, hflag⟩
    | started hs hs' hf hn =>
      refine hm.compose hp (by simp [Coordinator.halted, hs]) (iff_of_true (.inr (.inl hs')) (.inl hs))
        (fun _ => .inl hs) ?_
      -- a first round that has just started has not been noted yet
      rw [hs', hp.trainingFlag, (h.warmup hs).2]
      simp
    | witnessed hs hs' =>
      refine hm.compose hp (by simp [Coordinator.halted, hs])
        (iff_of_true (.inr (.inr (.inl hs'))) (.inr (.inl hs))) ?_ ?_
      · rw [hs']
        simp
      · rw [hs', hs, hp.trainingFlag]
        simp
    | resumed hh hs hn =>
      have hno : ¬ EpochOpen s.coordinator := by
        obtain hh | hh := hh <;> simp [RunState.InEpoch, hh]
      have hno1 : ¬ EpochOpen s1.coordinator := by
        obtain hs | hs := hs <;> simp [RunState.InEpoch, hs]
      cases hm with
      | outside _ hno' hn hfx => exact .outside hno hno' hn hfx
      | opens _ hw => exact absurd hw (((tick_phase ht).resolve_left hno1).2 hn)
      | trains hw =>
        obtain hw | ⟨hw, _⟩ := hw
        · exact absurd (.inl hw) hno1
        · exact absurd (.inr (.inl hw)) hno1
      | stays ho | closes ho => exact absurd ho hno1
  · have hp := (beforeTick_spec hb).prepared
    have hfx := (beforeTick_spec hb).unsettled
    have hnotes : s.notesOf P clock ix = [] := by simp only [notesOf, hin]
    rw [hnotes]
    cases hp.phase with
    | kept hs hf =>
      have ho : EpochOpen s'.coordinator ↔ EpochOpen s.coordinator := by simp only [EpochOpen, hs]
      have ha : s'.coordinator.active = s.coordinator.active := by simp only [Coordinator.active, hs]
      refine ⟨?_, ?_⟩
      · by_cases hopen : EpochOpen s.coordinator
        · have hh : s.coordinator.halted = false := by
            obtain hs | hs | hs | hs := hopen <;> simp [Coordinator.halted, hs]
          refine .stays hopen (ho.mpr hopen) (by rw [hs]) ?_ rfl hp.current (hp.nextActive hh) hfx
          exact (epochOpen_iff.mp hopen).imp_right h.active
        · exact .outside hopen (mt ho.mp hopen) rfl hfx
      · refine ⟨fun hopen => ?_, fun hw => ?_, fun hact => ?_⟩
        · rw [hp.warmupFlag]
          exact h.rates (ho.mp hopen)
        · rw [hf, hp.trainingFlag]
          exact h.warmup (hs ▸ hw)
        · rw [hp.trainingFlag]
          exact h.active (ha ▸ hact)
    | paused hs hs' =>
      have hno' : ¬ EpochOpen s'.coordinator := by simp [RunState.InEpoch, hs']
      have hh : s.coordinator.halted = false := by
        obtain hs | hs := hs <;> simp [Coordinator.halted, hs]
      refine ⟨?_, .of_not_open hno'⟩
      obtain hs | hs := hs
      · exact .outside (by simp [RunState.InEpoch, hs]) hno' rfl hfx
      · exact .closes (.inl hs) hno' rfl hp.current (hp.nextActive hh) fun st hst => absurd hst (hfx st)

end Noted

section Epochs
variable {P : Platform} {s s' : InstanceState} {tr tr1 tr2 : Record}
  {ev : Event InstanceState (Clock × Instruction) (List InstanceEffect)} {fx : List InstanceEffect} {clock : Clock}
  {ix : Instruction}

/-- Whether one of the instructions left the account in `RoundTrain`. -/
def trained (tr : Record) : Bool := tr.any fun ev => ev.after.coordinator.runState == .roundTrain

lemma notes_cons (ev : Event InstanceState (Clock × Instruction) (List InstanceEffect)) (tr : Record) :
    notes P (ev :: tr) = ev.before.notesOf P ev.input.1 ev.input.2 ++ notes P tr := rfl

lemma noted_of_run (r : (machine P).Run tr s) : Noted s := by
  refine r.invariant ?_ fun s i s' fx h st => (process_epochMove h st).2
  rintro s ⟨v, rfl⟩
  exact .of_not_open (by rintro (h | h | h | h) <;> cases h)

/-- What an epoch that `ev` opened has noted and settled in the instructions `tr` that followed. -/
structure EpochNoted (P : Platform) (ev : Event InstanceState (Clock × Instruction) (List InstanceEffect))
    (tr : Record) (s : InstanceState) : Prop where
  notes : notes P (tr ++ [ev])
    = (if trained tr then [.active] else []) ++ [.rates ev.before.clientsState.futureEpochRates]
  current : s.clientsState.currentEpochRates = ev.before.clientsState.futureEpochRates
  nextActive : s.clientsState.nextActive = ev.before.clientsState.nextActive + if trained tr then 1 else 0
  phase : EpochOpen s.coordinator → (trained tr = false ↔ s.coordinator.runState = .warmup)
  settled : ∀ ev' ∈ tr, ∀ st, .settled st ∈ ev'.output →
    st.slashingRate = ev.before.clientsState.futureEpochRates.slashingRatePerClient
      ∧ st.earnedShare = earnedShare ev'.after.coordinator ev.before.clientsState.futureEpochRates

lemma EpochMove.opened (hm : EpochMove s (s.notesOf P clock ix) fx s') (hno : ¬ EpochOpen s.coordinator)
    (ho : EpochOpen s'.coordinator) : EpochNoted P ⟨s, (clock, ix), fx, s'⟩ [] s' := by
  cases hm with
  | outside _ hno' => exact absurd ho hno'
  | opens _ hw hn hcur hna _ =>
    exact ⟨by simp [InstanceState.notes, hn, trained], hcur, by simpa [trained] using hna,
      fun _ => by simp [trained, hw], by simp⟩
  | trains hw =>
    obtain hw | ⟨hw, _⟩ := hw
    · exact absurd (.inl hw) hno
    · exact absurd (.inr (.inl hw)) hno
  | stays ho | closes ho => exact absurd ho hno

/-- Every further instruction in the epoch notes the first round if it gets there, and settles by the rates that
were noted. -/
lemma EpochNoted.step (h : EpochNoted P ev tr s) (hs : Noted s) (ho : EpochOpen s.coordinator)
    (hm : EpochMove s (s.notesOf P clock ix) fx s') : EpochNoted P ev (⟨s, (clock, ix), fx, s'⟩ :: tr) s' := by
  have hsettled : (∀ st, .settled st ∈ fx →
        st.slashingRate = s.clientsState.currentEpochRates.slashingRatePerClient
          ∧ st.earnedShare = earnedShare s'.coordinator s.clientsState.currentEpochRates) →
      ∀ ev' ∈ (⟨s, (clock, ix), fx, s'⟩ :: tr : Record), ∀ st, .settled st ∈ ev'.output →
        st.slashingRate = ev.before.clientsState.futureEpochRates.slashingRatePerClient
          ∧ st.earnedShare = earnedShare ev'.after.coordinator ev.before.clientsState.futureEpochRates := by
    intro hst ev' hev
    rw [h.current] at hst
    obtain rfl | hev := mem_cons.mp hev
    · exact hst
    · exact h.settled ev' hev
  -- an instruction that leaves the account in no new `RoundTrain` notes nothing and changes neither value
  have hquiet : s.notesOf P clock ix = [] →
      (s'.coordinator.runState = .roundTrain → trained tr = true) →
      s'.clientsState.currentEpochRates = s.clientsState.currentEpochRates →
      s'.clientsState.nextActive = s.clientsState.nextActive →
      (EpochOpen s'.coordinator → (s'.coordinator.runState = .warmup ↔ s.coordinator.runState = .warmup)) →
      (∀ st, .settled st ∈ fx →
        st.slashingRate = s.clientsState.currentEpochRates.slashingRatePerClient
          ∧ st.earnedShare = earnedShare s'.coordinator s.clientsState.currentEpochRates) →
      EpochNoted P ev (⟨s, (clock, ix), fx, s'⟩ :: tr) s' := by
    intro hn htr hcur hna hw hst
    have htr' : trained (⟨s, (clock, ix), fx, s'⟩ :: tr) = trained tr := by
      simp only [trained, any_cons, Bool.or_eq_right_iff_imp, beq_iff_eq]
      exact htr
    refine ⟨?_, hcur.trans h.current, ?_, fun ho' => ?_, hsettled hst⟩
    · rw [cons_append, notes_cons, hn, htr', h.notes]
      rfl
    · rw [hna, htr', h.nextActive]
    · rw [htr', h.phase ho, hw ho']
  cases hm with
  | outside hno | opens hno => exact absurd ho hno
  | trains hw hw' hn hcur hna hfx =>
    have hwarm : s.coordinator.runState = .warmup := by
      refine hw.resolve_right ?_
      rintro ⟨hs', hflag⟩
      have := hs.active (by simp [Coordinator.active, hs'])
      simp [hflag] at this
    have hfalse : trained tr = false := (h.phase ho).mpr hwarm
    have htrue : trained (⟨s, (clock, ix), fx, s'⟩ :: tr) = true := by
      simp [trained, hw']
    refine ⟨?_, hcur.trans h.current, ?_, fun _ => by simp [htrue, hw'], hsettled fun st hst => absurd hst (hfx st)⟩
    · rw [cons_append, notes_cons, hn, htrue, h.notes, hfalse]
      rfl
    · rw [hna, htrue, h.nextActive, hfalse]
      rfl
  | stays _ ho' hw hflag hn hcur hna hfx =>
    refine hquiet hn (fun ht => ?_) hcur hna (fun _ => hw) fun st hst => absurd hst (hfx st)
    by_contra htr
    have := hw.mpr ((h.phase ho).mp (by simpa using htr))
    cases ht.symm.trans this
  | closes _ hno hn hcur hna hfx =>
    exact hquiet hn (fun ht => absurd (.inr (.inl ht)) hno) hcur hna (fun ho' => absurd ho' hno) hfx

lemma epochNoted (r : (machine P).Run (tr1 ++ ev :: tr2) s)
    (hev : ¬ EpochOpen ev.before.coordinator ∧ EpochOpen ev.after.coordinator)
    (hopen : ∀ ev' ∈ tr1, EpochOpen ev'.before.coordinator) : EpochNoted P ev tr1 s := by
  induction tr1 generalizing s with
  | nil =>
    obtain ⟨r', st, rfl⟩ := r.cons_inv
    exact (process_epochMove (noted_of_run r') st).1.opened hev.1 hev.2
  | cons ev' tr1 ih =>
    obtain ⟨r', st, rfl⟩ := r.cons_inv
    have h := ih r' fun e he => hopen e (mem_cons_of_mem _ he)
    have hs := noted_of_run r'
    exact h.step hs (hopen ev' mem_cons_self) (process_epochMove hs st).1

/-- In every run, an epoch that an instruction has opened notes its rates once, those in force before that instruction, and
the records are paid and charged by them. It notes its joins once if one of its instructions left the account in
`RoundTrain`, and not at all otherwise. -/
theorem epoch_noted_once (r : (machine P).Run (tr1 ++ ev :: tr2) s)
    (hev : ¬ EpochOpen ev.before.coordinator ∧ EpochOpen ev.after.coordinator)
    (hopen : ∀ ev' ∈ tr1, EpochOpen ev'.before.coordinator) :
    notes P (tr1 ++ [ev])
        = (if trained tr1 then [.active] else []) ++ [.rates ev.before.clientsState.futureEpochRates]
      ∧ s.clientsState.currentEpochRates = ev.before.clientsState.futureEpochRates
      ∧ s.clientsState.nextActive = ev.before.clientsState.nextActive + (if trained tr1 then 1 else 0)
      ∧ (∀ ev' ∈ tr1, ∀ st, .settled st ∈ ev'.output →
        st.slashingRate = ev.before.clientsState.futureEpochRates.slashingRatePerClient
          ∧ st.earnedShare = earnedShare ev'.after.coordinator ev.before.clientsState.futureEpochRates)
      ∧ ∀ ev' ∈ tr1, ∀ p,
        ev'.after.earnedOf p = ev'.before.earnedOf p + tally (InstanceEffect.payment p) ev'.output
          ∧ ev'.after.slashedOf p = ev'.before.slashedOf p + tally (InstanceEffect.charge p) ev'.output := by
  have h := epochNoted r hev hopen
  refine ⟨h.notes, h.current, h.nextActive, h.settled, fun ev' hev' p => ?_⟩
  obtain ⟨_, _, st⟩ := r.mem (mem_append_left _ hev')
  exact ⟨earnedOf_chain (process_chain st), slashedOf_chain (process_chain st)⟩

/-- An epoch of two clients whose rates are changed for the next one while it is in warmup. -/
def ratesChanged : Record := (runOf (opening ++
  [(⟨5, 1⟩, .joinRun 1 ⟨1, 0⟩), (⟨5, 1⟩, .joinRun 2 ⟨2, 0⟩), (⟨6, 1⟩, .setFutureEpochRates (some 7) (some 9)),
    (⟨15, 1⟩, .tick), (⟨16, 1⟩, .witness 1 ⟨⟨0, 0, true⟩, .empty, .empty, 0⟩), (⟨16, 1⟩, .slash 1),
    (⟨25, 1⟩, .tick), (⟨35, 1⟩, .tick), (⟨45, 1⟩, .tick)])).1

lemma ratesChanged_length : 7 < ratesChanged.length := by decide +kernel

/-- The epoch is settled with the rates it began with, although others have been set in warmup. -/
theorem epoch_noted_once_ratesChanged : ∃ tr1 ev tr2, ratesChanged = tr1 ++ ev :: tr2
    ∧ notes .zero (tr1 ++ [ev]) = [.active, .rates ⟨100, 30⟩]
    ∧ ∃ ev' ∈ tr1, ev'.output = [.settled ⟨true, 100, 100, 30, [1], [2]⟩] := by
  have hsplit : ratesChanged
      = ratesChanged.take 7 ++ ratesChanged.get ⟨7, ratesChanged_length⟩ :: ratesChanged.drop 8 := by
    rw [get_eq_getElem, ← drop_eq_getElem_cons, take_append_drop]
  refine ⟨_, _, _, hsplit, ?_, by decide +kernel⟩
  have hrun : (machine .zero).Run ratesChanged _ := runOf_run _
  rw [hsplit] at hrun
  rw [(epoch_noted_once hrun (by decide +kernel) (by decide +kernel)).1]
  decide +kernel

end Epochs
end InstanceState
end Leviathan
