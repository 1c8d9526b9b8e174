import Leviathan.Instance.Records

/-!
# Convictions

A slash only marks a client `Ejected` (Rust `eject`); the charge is made when the epoch ends (in Rust
`CoordinatorInstanceState::tick`). Between the two, the mark is all there is of a conviction.

The abstract view of an account is its `Docket`: the phase of the run and the set of marked keys. It moves in six ways
(`Docket.Step`), and every step of the instance is one of them (`InstanceStep.docket`): client lists, compactions,
withdrawals and timeouts do not matter any more.
-/

namespace Leviathan
open List

/-- The phases from which an epoch may yet begin. -/
def RunState.Awaiting (st : RunState) : Prop :=
  st = .uninitialized ∨ st = .waitingForMembers ∨ st = .paused

instance : DecidablePred RunState.Awaiting := fun _ => inferInstanceAs (Decidable (_ ∨ _))

lemma RunState.cases (st : RunState) : st.Awaiting ∨ st.InEpoch ∨ st = .finished := by
  cases st <;> simp [RunState.Awaiting, RunState.InEpoch]

lemma RunState.InEpoch.not_awaiting {st : RunState} (h : st.InEpoch) : ¬ st.Awaiting := by
  obtain rfl | rfl | rfl | rfl := h <;> simp [RunState.Awaiting]

/-- What matters of an account as far as convictions are concerned. -/
@[ext] structure Docket where
  phase : RunState
  marked : Set Pubkey

inductive Docket.Step : Docket → List InstanceEffect → Docket → Prop where
  | move {d st} :
    (d.phase.InEpoch ↔ st.InEpoch) →
    (d.phase = .finished → st = .finished) →
    Step d [] ⟨st, d.marked⟩
  | begin {d} :
    d.phase.Awaiting →
    Step d [] ⟨.warmup, ∅⟩
  | settle {d st settlement} :
    d.phase.InEpoch →
    ¬ st.InEpoch →
    settlement.charged.Nodup →
    (∀ p, p ∈ settlement.charged ↔ p ∈ d.marked) →
    Step d [.settled settlement] ⟨st, d.marked⟩
  | eject {d p} :
    p ∉ d.marked →
    Step d [.ejected p] ⟨d.phase, insert p d.marked⟩
  | suspend {d} :
    d.phase = .warmup →
    Step d [] ⟨.paused, d.marked⟩

def Instruction.isSlash : Instruction → Bool
  | .slash _ => true
  | _ => false

def Instruction.isPause : Instruction → Bool
  | .setPaused true => true
  | _ => false

/-- Whether a key has been ejected and not charged since, by a log. -/
def owed (p : Pubkey) : List InstanceEffect → Bool
  | [] => false
  | .ejected q :: log => q == p || owed p log
  | .settled st :: log => !st.charged.contains p && owed p log

/-- How often a key has been ejected. -/
def ejections (p : Pubkey) (log : List InstanceEffect) : Nat := log.count (.ejected p)

def InstanceEffect.chargesKey (p : Pubkey) : InstanceEffect → Bool
  | .ejected _ => false
  | .settled st => st.charged.contains p

/-- How often a key has been charged. -/
def chargeCount (p : Pubkey) (log : List InstanceEffect) : Nat := log.countP (InstanceEffect.chargesKey p)

namespace Docket
variable {d d' : Docket} {fx log : List InstanceEffect}

/-- Every conviction that has not been charged is marked, and none is open where an epoch may begin. -/
structure Kept (log : List InstanceEffect) (d : Docket) : Prop where
  marked : ∀ p, owed p log = true → p ∈ d.marked
  awaiting : d.phase.Awaiting → ∀ p, owed p log = false

/-- What a step must not do for a conviction to be kept. -/
structure Prompt (d : Docket) (fx : List InstanceEffect) (d' : Docket) : Prop where
  ejected : ∀ e ∈ fx, e.isEjection = true → ¬ d.phase.Awaiting
  paused : d.phase = .warmup → d'.phase = .paused → d.marked = ∅

/-- A prompt step keeps every open conviction marked. -/
lemma Step.kept (st : Step d fx d') (hp : Prompt d fx d') (h : Kept log d) : Kept (fx.reverse ++ log) d' := by
  cases st with
  | @move st hin hfin =>
    refine ⟨h.marked, fun ha => h.awaiting ?_⟩
    obtain hs | hs | hs := d.phase.cases
    · exact hs
    · exact absurd ha (hin.mp hs).not_awaiting
    · have : st = .finished := hfin hs
      subst this
      simp [RunState.Awaiting] at ha
  | begin ha =>
    have h0 := h.awaiting ha
    exact ⟨fun p hp => by simp [h0 p] at hp, fun _ => h0⟩
  | @settle st settlement _ _ _ hc =>
    have h0 : ∀ p, owed p (.settled settlement :: log) = false := by
      intro p
      by_contra hne
      simp only [owed, Bool.not_eq_false, Bool.and_eq_true, Bool.not_eq_true', contains_eq_mem,
        decide_eq_false_iff_not] at hne
      exact hne.1 ((hc p).mpr (h.marked p hne.2))
    exact ⟨fun p hp => absurd (h0 p) (by simpa using hp), fun _ => h0⟩
  | @eject p _ =>
    refine ⟨fun q hq => ?_, fun ha => absurd ha (hp.ejected (.ejected p) (by simp) rfl)⟩
    simp only [reverse_cons, reverse_nil, nil_append, singleton_append, owed, Bool.or_eq_true, beq_iff_eq] at hq
    obtain rfl | hq := hq
    · exact Set.mem_insert _ _
    · exact Set.mem_insert_of_mem _ (h.marked q hq)
  | suspend hw =>
    have h0 : ∀ p, owed p log = false := by
      intro p
      by_contra hne
      have hm := h.marked p (by simpa using hne)
      rw [hp.paused hw rfl] at hm
      exact hm
    exact ⟨fun p hp => absurd (h0 p) (by simpa using hp), fun _ => h0⟩

/-- The charges so far, and the one a running epoch still has to make, are covered by ejections. -/
structure Covered (log : List InstanceEffect) (d : Docket) : Prop where
  le : ∀ p, chargeCount p log ≤ ejections p log
  lt : d.phase.InEpoch → ∀ p ∈ d.marked, chargeCount p log < ejections p log

lemma Step.covered (st : Step d fx d') (h : Covered log d) : Covered (fx.reverse ++ log) d' := by
  cases st with
  | move hin _ => exact ⟨h.le, fun hs => h.lt (hin.mpr hs)⟩
  | begin _ => exact ⟨h.le, fun _ _ hp => hp.elim⟩
  | @settle st settlement hin hout _ hc =>
    refine ⟨fun p => ?_, fun hs => absurd hs hout⟩
    have h0 : ejections p (.settled settlement :: log) = ejections p log := by simp [ejections]
    have h1 : chargeCount p (.settled settlement :: log)
        = chargeCount p log + if p ∈ settlement.charged then 1 else 0 := by
      simp [chargeCount, countP_cons, InstanceEffect.chargesKey]
    change chargeCount p (.settled settlement :: log) ≤ ejections p (.settled settlement :: log)
    rw [h0, h1]
    split
    · exact h.lt hin p ((hc p).mp ‹_›)
    · exact h.le p
  | @eject q _ =>
    have h1 : ∀ p, chargeCount p (.ejected q :: log) = chargeCount p log := fun p => by
      simp [chargeCount, InstanceEffect.chargesKey]
    have h0 : ∀ p, ejections p log ≤ ejections p (.ejected q :: log) := fun p => count_le_count_cons
    refine ⟨fun p => ?_, fun hs p hp => ?_⟩
    · exact (h1 p).trans_le ((h.le p).trans (h0 p))
    · refine (h1 p).trans_lt ?_
      obtain rfl | hp := hp
      · have hq : ejections p (.ejected p :: log) = ejections p log + 1 := by simp [ejections]
        have hle := h.le p
        change _ < ejections p (.ejected p :: log)
        omega
      · exact (h.lt hs p hp).trans_le (h0 p)
  | suspend _ => exact ⟨h.le, fun hs => by simp [RunState.InEpoch] at hs⟩

/-- Every settlement in a log charges a key at most once. -/
def ChargedOnce (log : List InstanceEffect) : Prop := ∀ st, .settled st ∈ log → st.charged.Nodup

lemma Step.chargedOnce (st : Step d fx d') (h : ChargedOnce log) : ChargedOnce (fx.reverse ++ log) := by
  intro settlement hm
  cases st with
  | settle _ _ hn _ =>
    obtain rfl | hm : settlement = _ ∨ _ := by simpa using hm
    · exact hn
    · exact h _ hm
  | _ => exact h _ (by simpa using hm)

end Docket

namespace InstanceState
open CoordinatorEpochState Coordinator

def docketOf (c : Coordinator) : Docket := ⟨c.runState, {p | (p, true) ∈ c.epochState.marks}⟩

def docket (s : InstanceState) : Docket := docketOf s.coordinator

section Simulation
variable {P : Platform} {s s' : InstanceState} {fx : List InstanceEffect} {c c' : Coordinator} {now seed : Nat}
  {pending : Option (List NodeIdentity)} {success : Bool}

lemma docketOf_eq (h : c'.epochState.marks.Perm c.epochState.marks) :
    docketOf c' = ⟨c'.runState, (docketOf c).marked⟩ := by
  ext1
  · rfl
  · ext p
    exact h.mem_iff

lemma marks_withdrawn {e e' : CoordinatorEpochState} (hc : e'.clients = e.clients.map Client.withdrawn)
    (he : e'.exitedClients = e.exitedClients) : e'.marks = e.marks :=
  marks_congr (by simp [hc, mark_withdrawn]) he

lemma docketOf_epochBegun {ids : List NodeIdentity} (hb : c.EpochBegun ids now c') : docketOf c' = ⟨.warmup, ∅⟩ := by
  have hex : c'.epochState.exitedClients = .new := by rw [hb.eq]; rfl
  have hrun : c'.runState = .warmup := by rw [hb.eq]
  have hnew : ∀ x ∈ c'.epochState.clients.toList, x.state ≠ .ejected := by
    intro x hx
    rw [hb.clients] at hx
    obtain ⟨id, _, rfl⟩ := mem_map.mp hx
    rintro ⟨⟩
  ext1
  · exact hrun
  · ext p
    simpa [docketOf, marks, entries, hex, Client.mark] using fun x hx _ => hnew x hx

lemma tickStep_marks {r : TickResult} (st : c.TickStep P pending now seed c' r) :
    c'.epochState.marks.Perm c.epochState.marks
      ∨ (c.runState = .waitingForMembers ∧ docketOf c' = ⟨.warmup, ∅⟩) := by
  have hround : ∀ {c c' : Coordinator}, c.RoundStarted P now seed c' →
      c'.epochState.marks = c.epochState.marks := by
    rintro c c' ⟨_, _, _, _, _, rfl⟩
    rfl
  cases st with
  | idle _ | witness _ _ => exact .inl (.refl _)
  | beginEpoch hs _ _ _ hb =>
    exact .inr ⟨hs, docketOf_epochBegun hb⟩
  | warm _ hc _ | warmAbort _ hc _ | cool _ _ hc _ _ _ | endEpoch _ _ hc _ => exact .inl hc.marks_perm
  | train _ _ hr _ => exact .inl (.of_eq (hround hr))
  | @trainAbort c1 _ _ hr _ =>
    have hm : c1.epochState.marks = c.epochState.marks := hround hr
    exact .inl (.of_eq hm)
  | @coolEmpty e _ _ hc _ =>
    have hm : ((c.roundClosed e e.lastStep).withdrawn.cooled now).epochState.marks = e.marks :=
      marks_withdrawn rfl rfl
    exact .inl ((List.Perm.of_eq hm).trans hc.marks_perm)
  | nextRound _ _ hc _ _ _ hr => exact .inl ((List.Perm.of_eq (hround hr)).trans hc.marks_perm)
  | @endEpochPaused e dataIndex _ _ hc _ =>
    have hm : CoordinatorEpochState.marks
        { e with clients := e.clients.map Client.withdrawn, coldStartEpoch := true } = e.marks :=
      marks_withdrawn rfl rfl
    exact .inl ((List.Perm.of_eq hm).trans hc.marks_perm)

lemma marked_exited (h : Sound s) (st : s.coordinator.TickStep P pending now seed c (.epochEnd success)) :
    ∀ x ∈ c.epochState.clients.toList, x.state ≠ .ejected := by
  obtain ⟨_, e, hc, _, ⟨_, _, hcl, _⟩ | ⟨_, _, _, hcl⟩⟩ := epochEnd_inv h.warm st
  · intro x hx
    rw [hcl] at hx
    simp [hc.healthy x hx]
  · intro x hx
    rw [hcl] at hx
    split at hx
    · simp only [FixedVec.map_toList, mem_map] at hx
      obtain ⟨y, hy, rfl⟩ := hx
      simp [Client.withdrawn, hc.healthy y hy]
    · simp [hc.healthy x hx]

lemma settlement_charged (h : Sound s)
    (st : s.coordinator.TickStep P s.pendingIds now seed c (.epochEnd success)) :
    ((s.ticking c).settlement success).charged.Nodup
      ∧ ∀ p, p ∈ ((s.ticking c).settlement success).charged ↔ p ∈ s.docket.marked := by
  have hperm := (tickStep_marks st).resolve_right fun hb => by
    have := (tickStep_epochEnd st).1
    simp [RunState.InEpoch, hb.1] at this
  refine ⟨?_, fun p => ?_⟩
  · refine List.Nodup.sublist ?_ h.records
    simp only [settlement, recordKeys, clientsState_ticking]
    exact filter_sublist.map _
  · change _ ↔ (p, true) ∈ s.coordinator.epochState.marks
    rw [← hperm.mem_iff]
    simp only [settlement, clientsState_ticking, mem_map, mem_filter, charged_iff, marks, entries, mem_append]
    constructor
    · rintro ⟨r, ⟨_, x, hx, hsig, hst⟩, rfl⟩
      exact ⟨x, .inr hx, by simp [Client.mark, hsig, hst]⟩
    · rintro ⟨x, hx, hm⟩
      simp only [Client.mark, Prod.mk.injEq, beq_iff_eq] at hm
      obtain ⟨rfl, hst⟩ := hm
      have hx' := hx.resolve_left fun hx => marked_exited h st x hx hst
      obtain ⟨r, hr, hrx⟩ := mem_map.mp (h.entry_mem_tick st (mem_append.mpr hx))
      exact ⟨r, ⟨hr, x, hx', hrx.symm, hst⟩, hrx⟩

lemma docketOf_pause (h : c.pause now = .ok c') : docketOf c' = ⟨c'.runState, (docketOf c).marked⟩ := by
  obtain ⟨_, rfl⟩ | ⟨_, rfl⟩ := pause_inv h
  · rfl
  · exact docketOf_eq (.of_eq (marks_withdrawn rfl rfl))

lemma docketOf_eject {index : Nat} {x : Client} (hn : c.epochState.signers.Nodup)
    (hx : c.epochState.clients.get? index = some x) (he : c.eject index = .ok c') :
    x.signer ∉ (docketOf c).marked ∧ docketOf c' = ⟨c.runState, insert x.signer (docketOf c).marked⟩ := by
  obtain ⟨y, hy, hst, rfl⟩ := eject_eq_ok.mp he
  cases hx.symm.trans hy
  -- the present clients are those before `x`, `x`, and those after it
  obtain ⟨before, after, hl, hl'⟩ : ∃ before after, c.epochState.clients.toList = before ++ x :: after
      ∧ (c.setClientState index .ejected).epochState.clients.toList
        = before ++ { x with state := .ejected } :: after := by
    obtain ⟨hlt, hget⟩ := List.getElem?_eq_some_iff.mp hx
    refine ⟨c.epochState.clients.toList.take index, c.epochState.clients.toList.drop (index + 1), ?_, ?_⟩
    · rw [← hget, List.cons_getElem_drop_succ, List.take_append_drop]
    · simp only [setClientState, setEpochState, FixedVec.modify_toList]
      rw [List.modify_eq_take_cons_drop hlt, hget]
  have hmark : x.mark = (x.signer, false) := by
    obtain h | h := hst <;> simp [Client.mark, h]
  constructor
  · intro (hm : (x.signer, true) ∈ c.epochState.marks)
    have hx' : (x.signer, false) ∈ c.epochState.marks :=
      hmark ▸ List.mem_map_of_mem (List.mem_append_left _ (List.mem_of_getElem? hx))
    rw [← map_fst_marks] at hn
    cases List.inj_on_of_nodup_map hn hm hx' rfl
  · ext1
    · rfl
    · ext p
      change (p, true) ∈ (c.setClientState index .ejected).epochState.marks
        ↔ p = x.signer ∨ (p, true) ∈ c.epochState.marks
      have hex : (c.setClientState index .ejected).epochState.exitedClients = c.epochState.exitedClients := rfl
      simp only [marks, entries, hl, hl', hex, List.map_append, List.map_cons, List.mem_append, List.mem_cons,
        hmark, Prod.mk.injEq, Bool.true_eq_false, and_false, false_or]
      simp only [Client.mark, beq_self_eq_true, Prod.mk.injEq, and_true]
      tauto

/-- What each step does to the marks and charges. -/
lemma InstanceStep.docket (h : Sound s) (st : InstanceStep P s fx s') :
    Docket.Step s.docket fx s'.docket := by
  have hsame : ∀ {c : Coordinator}, Attended s.coordinator c → Docket.Step s.docket [] (docketOf c) := by
    intro c ha
    rw [docketOf_eq (.of_eq ha.marks)]
    obtain hp | ⟨hp, hp'⟩ | ⟨hp, hp'⟩ := ha.phase
    · exact .move (by rw [hp]; rfl) fun hf => hp.trans hf
    · refine .move (by simp [InstanceState.docket, docketOf, RunState.InEpoch, hp, hp']) fun hf => ?_
      cases hp.symm.trans hf
    · refine .move (by simp [InstanceState.docket, docketOf, RunState.InEpoch, hp, hp']) fun hf => ?_
      cases hp.symm.trans hf
  cases st with
  | @ticked clock c _ ht hn =>
    have hc : s'.docket = docketOf c := congrArg docketOf (coordinator_of_noteStart hn)
    rw [hc]
    obtain ⟨ho, ho'⟩ | ⟨_, rfl⟩ | ⟨hw, _, _, hb⟩ := tickStep_ticked ht
    · obtain hm | ⟨hw, _⟩ := tickStep_marks ht
      · rw [docketOf_eq hm]
        refine .move (iff_of_true ho ho') fun hf => ?_
        change s.coordinator.runState = _ at hf
        simp [RunState.InEpoch, hf] at ho
      · simp [RunState.InEpoch, hw] at ho
    · exact .move Iff.rfl id
    · rw [docketOf_epochBegun hb]
      exact .begin (.inr (.inl hw))
  | @settle clock c success ht =>
    obtain ⟨ho, hc⟩ := tickStep_epochEnd ht
    obtain ⟨hn, hm⟩ := settlement_charged h ht
    change Docket.Step s.docket _ (docketOf c)
    rw [docketOf_eq ((tickStep_marks ht).resolve_right fun hw => by simp [RunState.InEpoch, hw.1] at ho)]
    exact .settle ho hc hn hm
  | witness hc => exact hsame (attended_witness hc)
  | warmupWitness hc => exact hsame (attended_warmupWitness hc)
  | healthCheck hc => exact hsame (attended_healthCheck hc)
  | checkpoint hc => exact hsame (attended_checkpoint hc)
  | @eject index x c hx hc =>
    obtain ⟨hnew, hd⟩ := docketOf_eject h.signers_nodup hx hc
    change Docket.Step s.docket _ (docketOf c)
    rw [hd]
    exact .eject hnew
  | @pause now c hc =>
    change Docket.Step s.docket _ (docketOf c)
    rw [docketOf_pause hc]
    obtain ⟨_, rfl⟩ | ⟨hs | hs, rfl⟩ := pause_inv hc
    · exact .move Iff.rfl id
    · refine .move ?_ fun hf => ?_
      · simp [InstanceState.docket, docketOf, RunState.InEpoch, hs, entered]
      · cases hs.symm.trans hf
    · exact .suspend hs
  | @unpause now c nextActive hc =>
    obtain ⟨_, hs, step, rfl⟩ := unpause_inv hc
    refine .move (iff_of_false ?_ (not_epochOpen_between _ _ _)) fun hf => ?_
    · obtain hs | hs := hs <;> simp [InstanceState.docket, docketOf, RunState.InEpoch, hs]
    · obtain hs | hs := hs <;> cases hs.symm.trans hf
  | update hu =>
    obtain ⟨_, _, _, rfl⟩ := update_inv hu
    exact .move Iff.rfl id
  | register _ | rates | version => exact .move Iff.rfl id

end Simulation

section Runs
variable {P : Platform} {s s' : InstanceState} {tr : Record} {fx : List InstanceEffect} {ix : Instruction}

lemma process_chain {clock : Clock} (h : s.process P clock ix = .ok (s', fx)) : Chain (InstanceStep P) s fx s' := by
  obtain st | st := process_inv h
  · exact .single st.step
  · exact st.mono fun _ _ _ h => h.step

/-- A state that steps of instructions lead to, also in the middle of an instruction. -/
def Reachable (P : Platform) (s : InstanceState) : Prop := ∃ v fx, Chain (InstanceStep P) (created v) fx s

lemma Reachable.sound (h : Reachable P s) : Sound s := by
  obtain ⟨v, fx, hc⟩ := h
  exact hc.invariant (fun _ _ _ h st => st.sound h) (.created v)

/-- The states of runs are among those that are reached in the middle of an instruction. -/
lemma reachable_of_run (r : (machine P).Run tr s) : Reachable P s := by
  refine r.invariant (I := Reachable P) ?_ ?_
  · rintro _ ⟨v, rfl⟩
    exact ⟨v, [], .nil⟩
  · rintro s i s' fx ⟨v, fx0, hc⟩ st
    exact ⟨v, _, hc.append (process_chain st)⟩

lemma run_history {Q : List InstanceEffect → InstanceState → Prop} (r : (machine P).Run tr s)
    (h0 : ∀ v, Q [] (created v))
    (hs : ∀ log s fx s', Sound s → Q log s → InstanceStep P s fx s' → Q (fx.reverse ++ log) s') :
    Sound s ∧ Q (log tr) s := by
  refine r.log_history (P := fun log s => Sound s ∧ Q log s) (fun _ _ _ _ => process_chain) ?_ ?_
  · rintro _ ⟨v, rfl⟩
    exact ⟨.created v, h0 v⟩
  · rintro log s fx s' ⟨h, hq⟩ st
    exact ⟨st.sound h, hs log s fx s' h hq st⟩

/-- A key is charged at most as often as it was ejected, at most once whenever an epoch ends, and what it has
been slashed is what these charges add up to. -/
theorem charges_le_ejections (r : (machine P).Run tr s) (p : Pubkey) :
    chargeCount p (log tr) ≤ ejections p (log tr) ∧ (∀ st, .settled st ∈ log tr → st.charged.count p ≤ 1)
      ∧ s.slashedOf p = tally (InstanceEffect.charge p) (log tr) := by
  have h := run_history
    (Q := fun log s => Docket.Covered log s.docket ∧ Docket.ChargedOnce log ∧ ∀ p, s.slashedOf p = tally (InstanceEffect.charge p) log) r
    (fun _ => ⟨⟨fun _ => Nat.zero_le _, by rintro _ _ ⟨⟩⟩, by rintro _ ⟨⟩, fun _ => rfl⟩) ?_
  · exact ⟨h.2.1.le p, fun st hst => nodup_iff_count_le_one.mp (h.2.2.1 st hst) p, h.2.2.2 p⟩
  rintro log s fx s' h ⟨hc, ho, hl⟩ st
  have hd := st.docket h
  refine ⟨hd.covered hc, hd.chargedOnce ho, fun p => ?_⟩
  rw [st.slashedOf, hl, tally_append, tally_reverse, Nat.add_comm]

/-- Two clients join, and the first is slashed during warmup. -/
def slashedInWarmup : List (Clock × Instruction) :=
  opening ++ [(⟨5, 1⟩, .joinRun 1 ⟨1, 0⟩), (⟨5, 1⟩, .joinRun 2 ⟨2, 0⟩), (⟨5, 1⟩, .slash 0)]

/-- The warmup is aborted, since one client is not enough. -/
def chargedInWarmup : List (Clock × Instruction) :=
  slashedInWarmup ++ [(⟨6, 1⟩, .tick)]

/-- The client that is slashed in warmup is charged 30, once. -/
theorem charges_le_ejections_warmup :
    chargeCount 1 (log (runOf chargedInWarmup).1) = 1 ∧ (runOf chargedInWarmup).2.slashedOf 1 = 30
      ∧ 1 ≤ ejections 1 (log (runOf chargedInWarmup).1) := by
  have hc : chargeCount 1 (log (runOf chargedInWarmup).1) = 1 := by decide +kernel
  exact ⟨hc, by decide +kernel, hc ▸ (charges_le_ejections (runOf_run chargedInWarmup) 1).1⟩

/-- An instruction that slashes nobody while an epoch has yet to begin, and does not pause a warmup with a
marked client in it. -/
structure Prompt (ix : Instruction) (s : InstanceState) : Prop where
  slashed : ix.isSlash = true → ¬ s.coordinator.runState.Awaiting
  paused : ix.isPause = true → s.coordinator.runState = .warmup →
    ∀ x ∈ s.coordinator.epochState.entries, x.state ≠ .ejected

instance (ix : Instruction) (s : InstanceState) : Decidable (Prompt ix s) :=
  decidable_of_iff (_ ∧ _) ⟨fun h => ⟨h.1, h.2⟩, fun h => ⟨h.1, h.2⟩⟩

/-- So does a prompt instruction that is one step. -/
lemma SingleStep.kept {log : List InstanceEffect} (st : SingleStep P ix s fx s') (hp : Prompt ix s)
    (h : Sound s) (hk : Docket.Kept log s.docket) : Docket.Kept (fx.reverse ++ log) s'.docket := by
  refine (st.step.docket h).kept ⟨fun e he hej => ?_, fun hw hps => ?_⟩ hk
  · obtain ⟨index, rfl⟩ | hne := st.ejects
    · exact hp.slashed rfl
    · cases e with
      | ejected q => exact absurd he (hne q)
      | settled _ => cases hej
  · obtain rfl | hne := st.pauses
    · refine Set.eq_empty_iff_forall_notMem.mpr fun q hq => ?_
      obtain ⟨x, hx, hm⟩ := mem_map.mp hq
      simp only [Client.mark, Prod.mk.injEq, beq_iff_eq] at hm
      exact hp.paused rfl hw x hx hm.2
    · exact absurd ⟨hw, hps⟩ hne

/-- In every run of prompt instructions, a client that has been ejected and not been charged since has its
entry in the epoch state, marked. -/
theorem no_conviction_lost (r : (machine P).Run tr s) (hp : ∀ ev ∈ tr, Prompt ev.input.2 ev.before) (p : Pubkey)
    (ho : owed p (log tr) = true) :
    ∃ x ∈ s.coordinator.epochState.entries, x.signer = p ∧ x.state = .ejected := by
  have h := r.history (P := fun tr s => (∀ ev ∈ tr, Prompt ev.input.2 ev.before) →
    Sound s ∧ Docket.Kept (log tr) s.docket) ?_ ?_ hp
  · obtain ⟨x, hx, hm⟩ := mem_map.mp (h.2.marked p ho)
    simp only [Client.mark, Prod.mk.injEq, beq_iff_eq] at hm
    exact ⟨x, hx, hm⟩
  · rintro _ ⟨v, rfl⟩ _
    exact ⟨.created v, by rintro _ ⟨⟩, fun _ _ => rfl⟩
  · intro tr s i s' fx _ ih st hp
    have hk := ih fun ev hev => hp ev (mem_cons_of_mem _ hev)
    obtain st | st := process_inv st
    · exact ⟨st.step.sound hk.1, st.kept (hp ⟨s, i, fx, s'⟩ mem_cons_self) hk.1 hk.2⟩
    · refine Chain.history (P := fun log s => Sound s ∧ Docket.Kept log s.docket) ?_ hk st
      rintro log s fx s' ⟨h, hk⟩ st
      have hs : SingleStep P .tick s fx s' := st.single
      -- a quiet step is that of an instruction that neither slashes nor pauses, such as a tick
      exact ⟨st.step.sound h, hs.kept ⟨by rintro ⟨⟩, by rintro ⟨⟩⟩ h hk⟩

/-- The client that owes a charge is marked as ejected. -/
theorem no_conviction_lost_warmup :
    owed 1 (log (runOf slashedInWarmup).1) = true
      ∧ ∃ x ∈ (runOf slashedInWarmup).2.coordinator.epochState.entries, x.signer = 1 ∧ x.state = .ejected :=
  ⟨by decide +kernel, no_conviction_lost (runOf_run _) (by decide +kernel) 1 (by decide +kernel)⟩

/-- The second client is slashed before the next epoch begins. -/
def slashedWhileWaiting : List (Clock × Instruction) :=
  chargedInWarmup ++ [(⟨6, 1⟩, .slash 0), (⟨7, 1⟩, .tick)]

/-- The second client has been ejected and not been charged since, and its entry is back to healthy. -/
theorem conviction_lost :
    (machine .zero).Run (runOf slashedWhileWaiting).1 (runOf slashedWhileWaiting).2
      ∧ ((runOf slashedWhileWaiting).1.map fun ev => ev.input.1.unixTimestamp).Pairwise (· ≥ ·)
      ∧ owed 2 (log (runOf slashedWhileWaiting).1) = true
      ∧ (runOf slashedWhileWaiting).2.coordinator.epochState.entries.map (fun x => (x.signer, x.state))
        = [(1, .healthy), (2, .healthy)] :=
  ⟨runOf_run _, by decide +kernel, by decide +kernel, by decide +kernel⟩

end Runs
end InstanceState
end Leviathan
