import Leviathan.Treasurer.LifeCycle

/-!
# One committee for one verdict

The votes on a verdict are counted together, so they should come from one committee. An account knows the committee only
by the epoch and the height of its round, while the draw depends on the seed of the round, on the clients that are
present and on the sizes of the committees.

`Pinned` is what has to hold of a verdict that is open for votes: it is of an earlier epoch or round, or its votes come
from the current draw as long as nobody has left the round. Everything the coordinator does keeps this
(`pinned_of_moved`), as the epoch is counted when the last round is left, and heights grow within an epoch.
-/

namespace Leviathan
open Exec List

def Instruction.progress : Instruction → Option CoordinatorProgress
  | .update _ _ _ progress => progress
  | _ => none

namespace InstanceState
open Coordinator (Moved)

section Moved
variable {P : Platform} {s s' : InstanceState} {fx : List InstanceEffect} {clock : Clock}

lemma InstanceStep.moved (st : InstanceStep P s fx s')
    (hf : s.coordinator.progress.epoch ≤ s'.coordinator.progress.epoch) :
    s.coordinator.Moved s'.coordinator := by
  have hsame : ∀ c : Coordinator, c.Moved c :=
    fun c => .of_stays rfl rfl (.refl c)
  cases st with
  | ticked ht hn =>
    rw [coordinator_of_noteStart hn]
    exact ht.moved
  | settle ht => exact ht.moved
  | witness h => exact Coordinator.moved_witness h
  | warmupWitness h => exact Coordinator.moved_warmupWitness h
  | healthCheck h => exact Coordinator.moved_healthCheck h
  | checkpoint h => exact Coordinator.moved_checkpoint h
  | eject _ h => exact Coordinator.moved_eject h
  | pause h => exact Coordinator.moved_pause h
  | unpause h => exact moved_unpause h
  | register _ => exact hsame _
  | update h =>
    obtain ⟨_, hh | ⟨rfl, rfl, rfl⟩, _, rfl⟩ := update_inv h
    · have ha : s.coordinator.active = false := by
        unfold Coordinator.halted at hh
        unfold Coordinator.active
        cases hs : s.coordinator.runState <;> simp_all
      exact .outside ha ha hf
    · exact hsame _
  | rates => exact hsame _
  | version => exact hsame _

lemma process_moved {ix : Instruction}
    (hf : ∀ p ∈ ix.progress, s.coordinator.progress.epoch ≤ p.epoch)
    (h : s.process P clock ix = .ok (s', fx)) :
    Relation.ReflTransGen Moved s.coordinator s'.coordinator := by
  obtain hs | hc := process_inv h
  · refine .single (hs.step.moved ?_)
    obtain ⟨metadata, config, model, rfl⟩ | hle := hs.forward
    · exact hf _ rfl
    · exact hle
  · clear h
    induction hc with
    | nil => exact .refl
    | snoc _ st ih => exact ih.tail (st.step.moved st.forward)

end Moved
end InstanceState

lemma idxOf_of_findIdx? {l : List Client} {key : Pubkey} {i : Nat}
    (h : (l.findIdx? fun x => x.signer == key) = some i) :
    key ∈ l.map Client.signer ∧ (l.map Client.signer).idxOf key = i := by
  obtain ⟨hlt, hi⟩ := findIdx?_eq_some_iff_findIdx_eq.mp h
  have hidx : (l.map Client.signer).idxOf key = i := by
    rw [List.idxOf, findIdx_map]
    exact hi
  refine ⟨?_, hidx⟩
  rw [← idxOf_lt_length_iff, hidx, length_map]
  exact hlt

namespace Bench
variable {P : Platform} {bench : Bench} {key key' : Pubkey}

def selection (P : Platform) (bench : Bench) : CommitteeSelection :=
  ⟨bench.tieBreakerNodes, 0, bench.totalNodes, 0, P.sha256 (leBytes 8 bench.seed)⟩

def position (P : Platform) (bench : Bench) (key : Pubkey) : Nat :=
  (bench.selection P).position P committeeSalt (bench.roster.idxOf key)

/-- The lottery gives a client a place. -/
def Placed (bench : Bench) (key : Pubkey) : Prop := key ∈ bench.roster ∧ bench.roster.idxOf key < bench.totalNodes

lemma position_inj (h : bench.Placed key) (h' : bench.Placed key')
    (e : bench.position P key = bench.position P key') : key = key' :=
  (idxOf_inj h.1).mp (CommitteeSelection.position_inj h.2 h'.2 e)

end Bench

namespace Draw

/-- The draw of the current round with a number of tie-breakers. -/
def of (c : Coordinator) (tieBreakerNodes : Nat) : Draw where
  seed := c.currentRound.randomSeed
  roster := c.roster
  tieBreakerNodes := tieBreakerNodes
  totalNodes := c.currentRound.clientsLen
  verifierNodes := (c.currentRound.clientsLen - tieBreakerNodes) * c.config.verificationPercent / 100

def selection (P : Platform) (draw : Draw) : CommitteeSelection :=
  { draw.toBench.selection P with verifierNodes := draw.verifierNodes }

/-- A client has a verifier seat in a draw. -/
def Seats (P : Platform) (draw : Draw) (key : Pubkey) : Prop :=
  draw.Placed key ∧ (draw.selection P).getCommitteeFromPosition (draw.position P key) = .verifier

end Draw

section Pinned
open Coordinator (Moved)
variable {c c' : Coordinator} {size : Nat} {v : AuditVerdict} {draw : Draw}

/-- Nobody joins a round. -/
def Full (c : Coordinator) : Prop := c.active = true → c.epochState.clients.len ≤ c.currentRound.clientsLen

/-- A verdict is of an earlier epoch or round, or of the current one, and then of its draw if nobody has left. -/
def Pinned (c : Coordinator) (size : Nat) (v : AuditVerdict) (draw : Draw) : Prop :=
  v.epoch < c.progress.epoch
    ∨ (c.active = true ∧ v.epoch = c.progress.epoch
      ∧ (v.roundHeight < c.currentRound.height
        ∨ (v.roundHeight = c.currentRound.height
          ∧ (c.epochState.clients.len = c.currentRound.clientsLen → draw = .of c size))))

lemma full_of_moved (h : Moved c c') (hc : Full c) : Full c' := by
  intro ha'
  cases h with
  | within ha _ _ hs =>
    have hlen := hs.roster.length_le
    simp only [Coordinator.roster, length_map] at hlen
    rw [hs.clientsLen]
    exact hlen.trans (hc ha)
  | next _ _ _ _ hl => exact hl.le
  | enter _ _ _ hl => exact hl.le
  | leave _ hn _ | outside _ hn _ => rw [hn] at ha'; cases ha'

lemma draw_of_stays (size : Nat) (h : c.Stays c') (hc : c.epochState.clients.len ≤ c.currentRound.clientsLen)
    (hl : c'.epochState.clients.len = c'.currentRound.clientsLen) :
    c.epochState.clients.len = c.currentRound.clientsLen ∧ Draw.of c' size = Draw.of c size := by
  have hle : c'.epochState.clients.len ≤ c.epochState.clients.len := by
    simpa [Coordinator.roster, FixedVec.len] using h.roster.length_le
  have hlen : c.epochState.clients.len = c.currentRound.clientsLen := by
    have := h.clientsLen
    omega
  have hroster : c'.roster = c.roster := by
    refine h.roster.eq_of_length ?_
    rw [Coordinator.roster, Coordinator.roster, length_map, length_map]
    exact hl.trans (h.clientsLen.trans hlen.symm)
  refine ⟨hlen, ?_⟩
  have hseed : c'.currentRound.randomSeed = c.currentRound.randomSeed := (congrArg Round.randomSeed h.currentRound :)
  rw [Draw.of, Draw.of, hseed, hroster, h.clientsLen, h.config]

lemma pinned_of_moved (h : Moved c c') (hc : Full c) (hp : Pinned c size v draw) : Pinned c' size v draw := by
  obtain hlt | ⟨ha, he, hh⟩ := hp
  · exact .inl (hlt.trans_le h.epoch_le)
  · cases h with
    | within _ ha' he' hs =>
      refine .inr ⟨ha', he.trans he'.symm, ?_⟩
      rw [hs.height]
      refine hh.imp_right fun hh => ⟨hh.1, fun hl => ?_⟩
      obtain ⟨hl, hdraw⟩ := draw_of_stays size hs (hc ha) hl
      rw [hdraw]
      exact hh.2 hl
    | next _ ha' he' hlt _ =>
      refine .inr ⟨ha', he.trans he'.symm, .inl ?_⟩
      obtain hh | ⟨hh, _⟩ := hh <;> omega
    | enter hn _ _ _ | outside hn _ _ => rw [hn] at ha; cases ha
    | leave _ _ hlt => exact .inl (he.trans_lt hlt)

lemma pinned_of_moves (size : Nat) (h : Relation.ReflTransGen Moved c c') (hc : Full c) :
    Full c' ∧ ∀ v draw, Pinned c size v draw → Pinned c' size v draw := by
  induction h with
  | refl => exact ⟨hc, fun _ _ hp => hp⟩
  | tail _ hm ih => exact ⟨full_of_moved hm ih.1, fun v draw hp => pinned_of_moved hm ih.1 (ih.2 v draw hp)⟩

end Pinned

namespace Deployment
open Coordinator (Moved)

section Draws
variable {P : Platform} {ix : TreasurerInstruction} {d d' : Deployment} {clock : Clock}
  {fx log : List TreasurerEffect} {selection : CommitteeSelection} {target key : Pubkey} {v : AuditVerdict}
  {committee : Committee}

def currentDraw (d : Deployment) : Draw := .of d.account.coordinator d.run.tieBreakerCommitteeSize

/-- Nobody has left the round. -/
def Complete (d : Deployment) : Prop := d.account.coordinator.active = true
  ∧ d.account.coordinator.epochState.clients.len = d.account.coordinator.currentRound.clientsLen

instance (d : Deployment) : Decidable (Complete d) := inferInstanceAs (Decidable (_ ∧ _))

lemma selection_eq
    (h : CommitteeSelection.fromCoordinatorWithTieBreakers P d.account.coordinator 0 d.run.tieBreakerCommitteeSize
      = .ok selection) :
    selection = ⟨d.currentDraw.tieBreakerNodes, d.currentDraw.verifierNodes, d.account.coordinator.currentRound.clientsLen,
      d.account.coordinator.config.witnessNodes, P.sha256 (leBytes 8 d.currentDraw.seed)⟩ := by
  simp only [CommitteeSelection.fromCoordinatorWithTieBreakers, CommitteeSelection.roundAt, bind_eq_ok,
    okOr_eq_ok] at h
  obtain ⟨round, hround, hnew⟩ := h
  cases hround
  exact (CommitteeSelection.new_eq_ok hnew).2.2

lemma Seated.draw (h : Seated P d key committee selection) : d.draw selection = d.currentDraw := by
  rw [selection_eq h.1]
  rfl

lemma Seated.place (h : Seated P d key committee selection) :
    key ∈ d.account.coordinator.roster
      ∧ ∃ position, (selection.computeShuffledIndex P (d.account.coordinator.roster.idxOf key) committeeSalt
          : Exec TreasurerError Panic Nat) = .ok position
        ∧ selection.getCommitteeFromPosition position = committee := by
  obtain ⟨_, index, position, hi, hseat⟩ := h
  simp only [CommitteeSelection.getCommittee, bind_eq_ok, Except.ok.injEq, CommitteeProof.mk.injEq] at hseat
  obtain ⟨_, hpos, hcom, rfl, _⟩ := hseat
  obtain ⟨hmem, rfl⟩ := idxOf_of_findIdx? hi
  exact ⟨hmem, _, hpos, hcom⟩

lemma Seated.seats (h : Seated P d key .verifier selection) (hc : Complete d) : d.currentDraw.Seats P key := by
  obtain ⟨hmem, position, hpos, hcom⟩ := h.place
  obtain rfl := selection_eq h.1
  have hlt := CommitteeSelection.index_lt_of_computeShuffledIndex hpos
  have hbound : d.account.coordinator.currentRound.clientsLen ≤ 2 ^ 63 := by
    rw [← hc.2]
    exact (FixedVec.bound _).trans (by decide)
  rw [CommitteeSelection.computeShuffledIndex_eq committeeSalt hbound hlt, Except.ok.injEq] at hpos
  refine ⟨⟨hmem, hlt⟩, ?_⟩
  rw [← hcom, ← hpos]
  rfl

lemma progress_of_mem_tail {ix' : Instruction} (h : ix' ∈ ix.calls.tail) :
    ix'.progress = none := by
  cases ix with
  | coordinator _ => cases h
  | runUpdate _ params =>
    have hrest : ∀ {b : Bool} {earning slashing paused version}, ix' ∈ (if b then
        [Instruction.setFutureEpochRates earning slashing] else []) ++ ((Option.map Instruction.setPaused paused).toList
        ++ (Option.map Instruction.updateClientVersion version).toList) → ix'.progress = none := by
      intro b earning slashing paused version h
      simp only [mem_append, Option.mem_toList, Option.map_eq_some_iff] at h
      obtain h | ⟨_, _, rfl⟩ | ⟨_, _, rfl⟩ := h
      · split at h
        · rw [mem_singleton.mp h]
          rfl
        · cases h
      · rfl
      · rfl
    simp only [TreasurerInstruction.calls, RunUpdateParams.instructions, append_assoc] at h
    split at h
    · exact hrest h
    · exact hrest (mem_of_mem_tail h)
  | _ => cases h

lemma callCoordinator_moved {calls : List Instruction} (h : d.callCoordinator P clock calls = .ok (d', fx))
    (hf : ∀ ix ∈ calls, ∀ p ∈ ix.progress, d.account.coordinator.progress.epoch ≤ p.epoch)
    (ht : ∀ ix ∈ calls.tail, ix.progress = none) :
    Relation.ReflTransGen Moved d.account.coordinator d'.account.coordinator := by
  induction calls generalizing d fx with
  | nil =>
    cases h
    exact .refl
  | cons ix ixs ih =>
    simp only [callCoordinator, bind_eq_ok, mapErr_eq_ok, ok_pair] at h
    obtain ⟨⟨account, fx1⟩, h1, ⟨d2, fx2⟩, hrest, rfl, rfl⟩ := h
    have hm := InstanceState.process_moved (hf ix mem_cons_self) h1
    refine hm.trans (ih hrest (fun ix' h' p hp => ?_) fun ix' h' => ht ix' (mem_of_mem_tail h'))
    rw [ht ix' h'] at hp
    cases hp

def isVote : TreasurerInstruction → Bool
  | .runSubmitAuditVerdict .. => true
  | _ => false

/-- The votes on every verdict come from one draw, and a verdict that is open for votes is pinned to it. -/
structure Drawn (P : Platform) (log : List TreasurerEffect) (d : Deployment) : Prop where
  full : Full d.account.coordinator
  pinned : ∀ target v, d.verdicts.lookup target = some v → ∃ draw : Draw,
    (∀ voter draw', .voted voter draw' ∈ Dispute.since (marks target log) → draw' = draw ∧ draw.Seats P voter)
      ∧ (v.status = .voting → Pinned d.account.coordinator d.run.tieBreakerCommitteeSize v draw)

lemma voted_mem_since {ms ms' : List Dispute.Mark} {voter : Pubkey} {draw : Draw} (ho : .opened ∉ ms) :
    .voted voter draw ∈ Dispute.since (ms.reverse ++ ms')
      ↔ .voted voter draw ∈ ms ∨ .voted voter draw ∈ Dispute.since ms' := by
  rw [Dispute.since_append ho, mem_append, mem_reverse]

lemma Ballot.drawn {verifier : Pubkey} {evidence : Evidence} {opened : List TreasurerEffect} {v' : AuditVerdict}
    (hb : Ballot P d verifier target evidence selection opened v v') (hc : Complete d) (h : Drawn P log d) :
    (∀ voter draw, .voted voter draw ∈ Dispute.since
        ((marks target (ballotEffects d verifier target selection opened)).reverse ++ marks target log) →
        draw = d.currentDraw ∧ d.currentDraw.Seats P voter)
      ∧ Pinned d.account.coordinator d.run.tieBreakerCommitteeSize v' d.currentDraw := by
  have hseat := hb.seated.seats hc
  obtain ⟨hs, _, _, _, rfl⟩ := castVote_inv hb.votes
  rw [ballotEffects, hb.seated.draw]
  obtain ⟨rfl, ⟨key, rfl⟩, _⟩ | ⟨rfl, hl, hepoch, hheight⟩ := openVerdict_inv hb.opens
  · refine ⟨fun voter draw hmem => ?_, .inr ⟨hc.1, rfl, .inr ⟨rfl, fun _ => rfl⟩⟩⟩
    have hmem : voter = verifier ∧ draw = d.currentDraw := by
      simpa [marks, TreasurerEffect.mark, Dispute.since] using hmem
    rw [hmem.1, hmem.2]
    exact ⟨rfl, hseat⟩
  · obtain ⟨draw, hvotes, hpin⟩ := h.pinned target v hl
    -- the verdict is of the current round, which nobody has left, so that its draw is the current one
    have hdraw : draw = d.currentDraw := by
      obtain hlt | ⟨_, _, hlt | ⟨_, hd⟩⟩ := hpin hs
      · omega
      · omega
      · exact hd hc.2
    subst hdraw
    refine ⟨fun voter draw hmem => ?_, .inr ⟨hc.1, hepoch, .inr ⟨hheight, fun _ => rfl⟩⟩⟩
    have ho : Dispute.Mark.opened ∉ marks target ([] ++ [.voted target verifier d.currentDraw]) := by
      simp [marks, TreasurerEffect.mark]
    obtain hmem | hmem := (voted_mem_since ho).mp hmem
    · have hmem : voter = verifier ∧ draw = d.currentDraw := by simpa [marks, TreasurerEffect.mark] using hmem
      rw [hmem.1, hmem.2]
      exact ⟨rfl, hseat⟩
    · exact hvotes voter draw hmem

lemma Moves.drawn {key : Option Pubkey} (hm : Moves P d target ix fx v key) (hc : isVote ix = true → Complete d)
    (h : Drawn P log d) : ∃ draw : Draw,
    (∀ voter draw', .voted voter draw' ∈ Dispute.since ((marks target fx).reverse ++ marks target log) →
        draw' = draw ∧ draw.Seats P voter)
      ∧ (v.status = .voting → Pinned d.account.coordinator d.run.tieBreakerCommitteeSize v draw) := by
  -- steps without a vote that leave a verdict on which nobody can vote any more
  have hquiet : ∀ {ms : List Dispute.Mark} {v v' : AuditVerdict}, d.verdicts.lookup target = some v →
      .opened ∉ ms → (∀ voter draw, .voted voter draw ∉ ms) → v'.status ≠ .voting → ∃ draw : Draw,
      (∀ voter draw', .voted voter draw' ∈ Dispute.since (ms.reverse ++ marks target log) →
          draw' = draw ∧ draw.Seats P voter)
        ∧ (v'.status = .voting → Pinned d.account.coordinator d.run.tieBreakerCommitteeSize v' draw) := by
    intro ms v v' hl ho hv hs
    obtain ⟨draw, hvotes, _⟩ := h.pinned target v hl
    refine ⟨draw, fun voter draw' hmem => ?_, fun hs' => absurd hs' hs⟩
    obtain hmem | hmem := (voted_mem_since ho).mp hmem
    · exact absurd hmem (hv voter draw')
    · exact hvotes voter draw' hmem
  cases hm with
  | vote hb =>
    obtain ⟨hvotes, hpin⟩ := hb.drawn (hc rfl) h
    exact ⟨d.currentDraw, hvotes, fun _ => hpin⟩
  | pend hb _ =>
    obtain ⟨hvotes, _⟩ := hb.drawn (hc rfl) h
    exact ⟨d.currentDraw, hvotes, by rintro ⟨⟩⟩
  | convict hb _ =>
    obtain ⟨hvotes, _⟩ := hb.drawn (hc rfl) h
    refine ⟨d.currentDraw, fun voter draw' hm => hvotes voter draw' ?_, by rintro ⟨⟩⟩
    simpa [marks_append, marks, TreasurerEffect.mark, Dispute.since] using hm
  | challenge hl _ | overturn hl _ => exact hquiet hl (by simp [marks]) (by simp [marks]) (by rintro ⟨⟩)
  | appeal hl hcast =>
    refine hquiet hl (by simp [marks]) (by simp [marks]) ?_
    rw [(castAppeal_inv hcast).2.1]
    rintro ⟨⟩
  | uphold hl _ | finalize hl _ =>
    exact hquiet hl (by simp [marks, TreasurerEffect.mark]) (by simp [marks, TreasurerEffect.mark])
      (by rintro ⟨⟩)
  | loser hl hs _ =>
    refine hquiet hl (by simp [marks, TreasurerEffect.mark]) (by simp [marks, TreasurerEffect.mark]) ?_
    rw [hs]
    rintro ⟨⟩

/-- What moves no verdict keeps the draws. -/
lemma Drawn.frame (h : Drawn P log d) (hv : d'.verdicts = d.verdicts)
    (ht : d'.run.tieBreakerCommitteeSize = d.run.tieBreakerCommitteeSize)
    (hm : Relation.ReflTransGen Moved d.account.coordinator d'.account.coordinator)
    (hfx : ∀ target, marks target fx = []) : Drawn P (fx.reverse ++ log) d' := by
  obtain ⟨hfull, hpin⟩ := pinned_of_moves d.run.tieBreakerCommitteeSize hm h.full
  refine ⟨hfull, fun target v hl => ?_⟩
  rw [hv] at hl
  obtain ⟨draw, hvotes, hp⟩ := h.pinned target v hl
  rw [marks_log, hfx target, ht]
  exact ⟨draw, hvotes, fun hs => hpin v draw (hp hs)⟩

/-- For the votes on a verdict to come from one draw: votes are cast in complete rounds, the number of tie-breakers does not
change while a verdict of the round is open for votes, and epochs are not counted back. -/
structure Steady (ix : TreasurerInstruction) (d : Deployment) : Prop where
  votes : isVote ix = true → Complete d
  size : ∀ size ∈ ix.tieBreakers, size = d.run.tieBreakerCommitteeSize ∨ ∀ x ∈ d.verdicts.entries,
    x.2.status = .voting → x.2.epoch = d.account.coordinator.progress.epoch →
      x.2.roundHeight ≠ d.account.coordinator.currentRound.height
  forward : ∀ ix' ∈ ix.calls, ∀ p ∈ ix'.progress, d.account.coordinator.progress.epoch ≤ p.epoch

instance (ix : TreasurerInstruction) (d : Deployment) : Decidable (Steady ix d) :=
  decidable_of_iff (_ ∧ _ ∧ _) ⟨fun h => ⟨h.1, h.2.1, h.2.2⟩, fun h => ⟨h.votes, h.size, h.forward⟩⟩

lemma Drawn.resize {run : Run} (h : Drawn P log d)
    (hs : run.tieBreakerCommitteeSize = d.run.tieBreakerCommitteeSize ∨ ∀ x ∈ d.verdicts.entries,
      x.2.status = .voting → x.2.epoch = d.account.coordinator.progress.epoch →
        x.2.roundHeight ≠ d.account.coordinator.currentRound.height) : Drawn P log { d with run } := by
  refine ⟨h.full, fun target v hl => ?_⟩
  obtain ⟨draw, hvotes, hp⟩ := h.pinned target v hl
  refine ⟨draw, hvotes, fun hv => ?_⟩
  obtain hs | hs := hs
  · rw [hs]
    exact hp hv
  · have hne := hs ⟨target, v⟩ (AList.mem_lookup_iff.mp hl) hv
    refine (hp hv).imp_right fun h => ⟨h.1, h.2.1, h.2.2.imp_right fun hh => ?_⟩
    exact absurd hh.1 (hne h.2.1)

lemma Drawn.setVerdict {key : Option Pubkey} (h : Drawn P log d) (hm : Moves P d target ix fx v key)
    (hc : isVote ix = true → Complete d) : Drawn P (fx.reverse ++ log) (d.setVerdict target v) := by
  refine ⟨h.full, fun other w hw => ?_⟩
  rw [marks_log]
  obtain ⟨rfl, rfl⟩ | ⟨ho, hw⟩ := Accounts.lookup_insert_eq_some hw
  · exact hm.drawn hc h
  · rw [hm.marks_ne ho]
    exact h.pinned other w hw

lemma Step.drawn (st : Step P ix d fx d') (hs : Steady ix d) (h : Drawn P log d) : Drawn P (fx.reverse ++ log) d' := by
  have hej : ∀ {d d' : Deployment} {key}, Slashed d key d' →
      d'.verdicts = d.verdicts ∧ d'.run = d.run ∧ d.account.coordinator.Moved d'.account.coordinator := by
    rintro d _ _ ⟨_, _, _, _, _, he, rfl⟩
    exact ⟨rfl, rfl, Coordinator.moved_eject he⟩
  cases st with
  | call hc _ =>
    have hm := callCoordinator_moved hc hs.forward fun ix' h' => progress_of_mem_tail h'
    obtain ⟨account, fx', rfl, rfl, _⟩ := callCoordinator_inv hc
    exact h.frame rfl rfl hm fun _ => marks_eq_nil (by simp [TreasurerEffect.mark])
  | slash hsl =>
    obtain ⟨hv, hr, hm⟩ := hej hsl
    exact h.frame hv (by rw [hr]) (.single hm) fun _ => rfl
  | finalize hf _ =>
    rw [hf.eq]
    refine h.frame rfl rfl .refl fun target => marks_eq_nil fun e he => ?_
    obtain he | he := mem_append.mp he
    · obtain ⟨x, _, rfl⟩ := mem_map.mp he
      rfl
    · split at he
      · cases he
      · rw [mem_singleton.mp he]
        rfl
  | @configure ix _ run hr =>
    refine h.resize ?_
    rw [hr.size]
    cases hix : ix.tieBreakers with
    | none => exact .inl rfl
    | some size => exact hs.size size hix
  | dispute hd =>
    cases hd with
    | quiet hm => exact h.setVerdict hm hs.votes
    | slash hm hsl =>
      obtain ⟨hv, hr, hmoved⟩ := hej hsl
      rw [reverse_append, append_assoc]
      exact (h.setVerdict hm hs.votes).frame hv (by rw [hr]) (.single hmoved) fun _ => rfl
  | _ => exact h.frame rfl rfl .refl fun _ => rfl

end Draws

section Runs
variable {P : Platform} {d : Deployment} {tr : Record}

/-- The votes that the marks tell of since the last reset come from one draw, in which each voter has its own verifier seat.
-/
def OneDraw (P : Platform) (marks : List Dispute.Mark) (voters : List Pubkey) : Prop :=
  ∃ draw : Draw, (∀ voter draw', .voted voter draw' ∈ Dispute.since marks → draw' = draw)
    ∧ (∀ voter ∈ voters, draw.Seats P voter)
    ∧ ∀ voter ∈ voters, ∀ voter' ∈ voters, draw.position P voter = draw.position P voter' → voter = voter'

/-- In every run of steady instructions the voters of every verdict have seats of their own in one draw, from
which all of them were accepted. -/
theorem one_draw (r : (machine P).Run tr d)
    (hs : ∀ ev ∈ tr, Steady ev.input.2 ev.before) (target : Pubkey) (v : AuditVerdict)
    (hv : d.verdicts.lookup target = some v) : OneDraw P (marks target (log tr)) v.voters := by
  have h := r.history (P := fun tr d => (∀ ev ∈ tr, Steady ev.input.2 ev.before) →
    Drawn P (log tr) d) ?_ ?_ hs
  · obtain ⟨draw, hvotes, _⟩ := h.pinned target v hv
    have hk := kept_of_run r target v.dispute (by rw [dispute, hv]; rfl)
    -- the recorded voters are those whose votes are on record
    have hseats : ∀ voter ∈ v.voters, draw.Seats P voter := by
      intro voter hmem
      have hvoters : Dispute.ballots (Dispute.since (marks target (log tr))) = v.voters := hk.voters
      rw [← hvoters, Dispute.ballots, mem_reverse, mem_filterMap] at hmem
      obtain ⟨m, hm, he⟩ := hmem
      cases m with
      | voted voter' draw' =>
        cases he
        exact (hvotes _ _ hm).2
      | _ => cases he
    refine ⟨draw, fun voter draw' hm => (hvotes voter draw' hm).1, hseats, fun a ha b hb he => ?_⟩
    exact Bench.position_inj (hseats a ha).1 (hseats b hb).1 he
  · rintro _ ⟨_, _, _, _, _, rfl⟩ _
    exact ⟨by rintro ⟨⟩, by rintro _ _ ⟨⟩⟩
  · intro tr d i d' fx _ ih st hs
    exact (process_inv st).drawn (hs ⟨d, i, fx, d'⟩ mem_cons_self)
      (ih fun ev hev => hs ev (mem_cons_of_mem _ hev))

/-- Two of three clients vote against the third in the same round. -/
def sameRoundVotes : List (Clock × TreasurerInstruction) :=
  trio ++ [(⟨16, 1⟩, .runSubmitAuditVerdict 1 3 ⟨2, 0, 1, 0, 1⟩),
    (⟨17, 1⟩, .runSubmitAuditVerdict 2 3 ⟨2, 0, 1, 0, 1⟩)]

/-- Two votes of one round come from seats of the same draw. -/
theorem one_draw_sameRoundVotes :
    (runOf sameRoundVotes).2.dispute 3 = some ⟨.slashPending, [1, 2], 0⟩
      ∧ OneDraw .zero (marks 3 (log (runOf sameRoundVotes).1)) [1, 2] := by
  have hd : (runOf sameRoundVotes).2.dispute 3 = some ⟨.slashPending, [1, 2], 0⟩ := by decide +kernel
  obtain ⟨v, hv, he⟩ := Option.map_eq_some_iff.mp hd
  have hvoters : v.voters = [1, 2] := congrArg Dispute.voters he
  exact ⟨hd, hvoters ▸ one_draw (runOf_run sameRoundVotes) (by decide +kernel) 3 v hv⟩

lemma not_oneDraw {marks : List Dispute.Mark} {voters : List Pubkey} {voter voter' : Pubkey} {draw draw' : Draw}
    (h : .voted voter draw ∈ Dispute.since marks) (h' : .voted voter' draw' ∈ Dispute.since marks)
    (hne : draw ≠ draw') : ¬ OneDraw P marks voters := by
  rintro ⟨draw'', hall, _⟩
  exact hne ((hall _ _ h).trans (hall _ _ h').symm)

/-- The second of three clients votes against the first and is slashed itself; during the cooldown the third has taken its
place, and votes too. -/
def cooldownVotes : List (Clock × TreasurerInstruction) :=
  trio ++ [(⟨16, 1⟩, .runSubmitAuditVerdict 2 1 ⟨0, 0, 1, 0, 1⟩), (⟨16, 1⟩, .runSlash authority 1),
    (⟨25, 1⟩, .coordinator .tick), (⟨35, 1⟩, .coordinator .tick),
    (⟨36, 1⟩, .runSubmitAuditVerdict 3 1 ⟨0, 0, 1, 0, 1⟩)]

/-- Between two votes of one round the authority makes one of three clients a tie-breaker. -/
def resizedVotes : List (Clock × TreasurerInstruction) :=
  trio ++ [(⟨16, 1⟩, .runSubmitAuditVerdict 1 2 ⟨1, 0, 1, 0, 1⟩), (⟨16, 1⟩, .runSetChallengeConfig authority 10 1 0),
    (⟨17, 1⟩, .runSubmitAuditVerdict 3 2 ⟨1, 0, 1, 0, 1⟩)]

/-- A client of an epoch that has ended votes, and a client of the next epoch votes in its first round. -/
def waitingVotes : List (Clock × TreasurerInstruction) :=
  epoch ++ [(⟨45, 1⟩, .runSetChallengeConfig authority 10 0 0), (⟨45, 1⟩, .participantCreate 3),
    (⟨45, 1⟩, .runSubmitAuditVerdict 1 1 ⟨0, 0, 1, 0, 1⟩), (⟨47, 1⟩, .coordinator (.joinRun 1 ⟨1, 0⟩)),
    (⟨47, 1⟩, .coordinator (.joinRun 3 ⟨3, 0⟩)), (⟨57, 1⟩, .coordinator .tick),
    (⟨58, 1⟩, .runSubmitAuditVerdict 3 1 ⟨0, 0, 1, 0, 1⟩)]

/-- In each of the three runs a quorum of two votes comes out of two draws. In the first one both voters have
been at the same index of the roster, so that the same seat has voted twice. -/
theorem quorum_of_two_draws :
    ((machine .zero).Run (runOf cooldownVotes).1 (runOf cooldownVotes).2
      ∧ (runOf cooldownVotes).2.dispute 1 = some ⟨.slashPending, [2, 3], 0⟩
      ∧ ¬ OneDraw .zero (marks 1 (log (runOf cooldownVotes).1)) [2, 3])
    ∧ ((machine .zero).Run (runOf resizedVotes).1 (runOf resizedVotes).2
      ∧ (runOf resizedVotes).2.dispute 2 = some ⟨.slashPending, [1, 3], 0⟩
      ∧ ¬ OneDraw .zero (marks 2 (log (runOf resizedVotes).1)) [1, 3])
    ∧ ((machine .zero).Run (runOf waitingVotes).1 (runOf waitingVotes).2
      ∧ (runOf waitingVotes).2.dispute 1 = some ⟨.slashPending, [1, 3], 0⟩
      ∧ ¬ OneDraw .zero (marks 1 (log (runOf waitingVotes).1)) [1, 3]) := by
  refine ⟨⟨runOf_run _, by decide +kernel, ?_⟩, ⟨runOf_run _, by decide +kernel, ?_⟩, runOf_run _, by decide +kernel, ?_⟩
  · have h2 : .voted 2 ⟨⟨0, [1, 2, 3], 0, 3⟩, 3⟩ ∈ Dispute.since (marks 1 (log (runOf cooldownVotes).1)) := by
      decide +kernel
    have h3 : .voted 3 ⟨⟨0, [1, 3], 0, 3⟩, 3⟩ ∈ Dispute.since (marks 1 (log (runOf cooldownVotes).1)) := by
      decide +kernel
    exact not_oneDraw h2 h3 (by decide)
  · have h1 : .voted 1 ⟨⟨0, [1, 2, 3], 0, 3⟩, 3⟩ ∈ Dispute.since (marks 2 (log (runOf resizedVotes).1)) := by
      decide +kernel
    have h3 : .voted 3 ⟨⟨0, [1, 2, 3], 1, 3⟩, 2⟩ ∈ Dispute.since (marks 2 (log (runOf resizedVotes).1)) := by
      decide +kernel
    exact not_oneDraw h1 h3 (by decide)
  · have h1 : .voted 1 ⟨⟨0, [1], 0, 2⟩, 2⟩ ∈ Dispute.since (marks 1 (log (runOf waitingVotes).1)) := by
      decide +kernel
    have h3 : .voted 3 ⟨⟨0, [1, 3], 0, 2⟩, 2⟩ ∈ Dispute.since (marks 1 (log (runOf waitingVotes).1)) := by
      decide +kernel
    exact not_oneDraw h1 h3 (by decide)

end Runs
end Deployment
end Leviathan
