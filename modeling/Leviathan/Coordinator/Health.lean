import Leviathan.Coordinator.History

/-!
# Health checks

Who can be dropped by a health check (Rust `health_check`). A check names a client and the seat it held in the previous
round; all named clients have to fail before any is dropped, so that a check that returns an error has changed nothing.
`healthCheckMut` is the Rust function, in place, which agrees with `healthCheck` (`healthCheckMut_run`).

The seat is looked up under the index a client has now, in the draw of the previous round; as long as nobody has left
since that round began, this is the index it had then.
-/

namespace Leviathan.Coordinator
open Exec List
variable {P : Platform} {c c' : Coordinator}

section InPlace
variable {proof : CommitteeProof} {id : NodeIdentity}

/-- A computation that leaves the state alone. -/
def ofExec {ε π σ α : Type} : Exec ε π α → EStateM (Fault ε π) σ α
  | .ok a => pure a
  | .error e => throw e

/-- One iteration of the loop that drops the named clients. -/
def dropClientMut (dropped : Nat) (proof : CommitteeProof) :
    EStateM (Fault CoordinatorError Panic) Coordinator Nat := do
  match (← get).epochState.clients.get? proof.index with
  | none => throw (.panic .indexOutOfBounds)
  | some client =>
    if client.state = .healthy then
      modify fun c => c.setClientState proof.index .dropped
      pure (dropped + 1)
    else
      pure dropped

/-- Rust `health_check` on the state it is given: with an error comes the state as it was left. -/
def healthCheckMut (P : Platform) (checks : List (NodeIdentity × CommitteeProof)) :
    EStateM (Fault CoordinatorError Panic) Coordinator Nat := do
  let c ← get
  ofExec (Exec.require (c.halted = false) .halted)
  ofExec (Exec.require (2 ≤ c.currentRound.height) .invalidHealthCheck)
  ofExec (c.checkUnhealthy P checks)
  (checks.map Prod.snd).foldlM dropClientMut 0

/-- What a client is after a health check has named the client at its index. -/
def dropAt (named : List Nat) (i : Nat) (x : Client) : Client :=
  if i ∈ named ∧ x.state = .healthy then { x with state := .dropped } else x

def numHealthy (c : Coordinator) : Nat := c.epochState.clients.toList.countP fun x => x.state = .healthy

lemma dropAt_cons (i j : Nat) (named : List Nat) (x : Client) :
    dropAt (j :: named) i x = dropAt named i (dropAt [j] i x) := by
  unfold dropAt
  by_cases hij : i = j
  · by_cases hx : x.state = .healthy <;> simp [hij, hx]
  · simp [hij]

lemma dropAt_of_not_healthy {named : List Nat} {i : Nat} {x : Client} (h : x.state ≠ .healthy) :
    dropAt named i x = x :=
  if_neg fun hx => h hx.2

lemma countP_healthy_modify {l : List Client} {index : Nat} {x : Client} (hx : l[index]? = some x)
    (hh : x.state = .healthy) :
    1 + (l.modify index fun x => { x with state := .dropped }).countP (fun x => x.state = .healthy)
      = l.countP (fun x => x.state = .healthy) := by
  induction l generalizing index with
  | nil => cases hx
  | cons y l ih =>
    cases index with
    | zero =>
      obtain rfl : y = x := Option.some.inj hx
      simp [modify_zero_cons, hh, Nat.add_comm]
    | succ index =>
      have := ih hx
      simp only [modify_succ_cons, countP_cons]
      omega

/-- Dropping a client changes its entry and no other. -/
lemma dropClientMut_run (n : Nat) (h : proof.index < c.epochState.clients.len) :
    ∃ c1 k, dropClient (c, n) proof = .ok (c1, k) ∧ (dropClientMut n proof).run c = .ok k c1
      ∧ (∀ i, c1.epochState.clients.get? i = (c.epochState.clients.get? i).map (dropAt [proof.index] i))
      ∧ k + c1.numHealthy = n + c.numHealthy ∧ c1.epochState.clients.len = c.epochState.clients.len := by
  obtain ⟨x, hx⟩ : ∃ x, c.epochState.clients.get? proof.index = some x := ⟨_, getElem?_eq_getElem h⟩
  have hrun : (dropClientMut n proof).run c = (match c.epochState.clients.get? proof.index with
      | none => .error (.panic .indexOutOfBounds) c
      | some client =>
        if client.state = .healthy then .ok (n + 1) (c.setClientState proof.index .dropped) else .ok n c) := by
    simp only [dropClientMut, EStateM.run_bind, EStateM.run_get]
    split
    · rfl
    · split <;> rfl
  rw [hx] at hrun
  by_cases hh : x.state = .healthy
  · refine ⟨c.setClientState proof.index .dropped, n + 1, ?_, hrun.trans (if_pos hh), fun i => ?_, ?_, ?_⟩
    · rw [dropClient, hx]
      exact if_pos hh
    · show (c.epochState.clients.toList.modify _ _)[i]? = _
      rw [getElem?_modify]
      refine Option.map_congr fun y hy => ?_
      by_cases hi : proof.index = i
      · subst hi
        obtain rfl : y = x := Option.some.inj (hy.symm.trans hx)
        simp [dropAt, hh]
      · rw [if_neg hi, dropAt, if_neg fun hm => hi (mem_singleton.mp hm.1).symm]
    · have := countP_healthy_modify hx hh
      show n + 1 + List.countP _ (c.epochState.clients.toList.modify _ _) = _
      unfold numHealthy
      omega
    · exact length_modify ..
  · refine ⟨c, n, ?_, hrun.trans (if_neg hh), fun i => ?_, rfl, rfl⟩
    · rw [dropClient, hx]
      exact if_neg hh
    · have hsame : ∀ y ∈ c.epochState.clients.get? i, dropAt [proof.index] i y = y := by
        intro y hy
        by_cases hi : i = proof.index
        · subst hi
          obtain rfl : y = x := Option.some.inj (hy.symm.trans hx)
          exact dropAt_of_not_healthy hh
        · exact if_neg fun hm => hi (mem_singleton.mp hm.1)
      rw [Option.map_congr hsame, Option.map_id']

lemma foldlM_dropClientMut {proofs : List CommitteeProof} {n : Nat}
    (h : ∀ proof ∈ proofs, proof.index < c.epochState.clients.len) :
    ∃ c' m, proofs.foldlM dropClient (c, n) = .ok (c', m) ∧ (proofs.foldlM dropClientMut n).run c = .ok m c'
      ∧ (∀ i, c'.epochState.clients.get? i
          = (c.epochState.clients.get? i).map (dropAt (proofs.map CommitteeProof.index) i))
      ∧ m + c'.numHealthy = n + c.numHealthy := by
  induction proofs generalizing c n with
  | nil =>
    refine ⟨c, n, rfl, rfl, fun i => ?_, rfl⟩
    have hid : dropAt [] i = id := funext fun x => if_neg fun hx => by cases hx.1
    rw [map_nil, hid, Option.map_id, id]
  | cons proof proofs ih =>
    obtain ⟨hlt, h⟩ := forall_mem_cons.mp h
    obtain ⟨c1, k, hd, hrun, hget, hcount, hlen⟩ := dropClientMut_run n hlt
    obtain ⟨c', m, hd', hrun', hget', hcount'⟩ := ih (c := c1) (n := k) (by rw [hlen]; exact h)
    refine ⟨c', m, ?_, ?_, fun i => ?_, hcount'.trans hcount⟩
    · rw [foldlM_cons, hd]
      exact hd'
    · rw [foldlM_cons, EStateM.run_bind, hrun]
      exact hrun'
    · rw [hget', hget, Option.map_map, map_cons]
      congr 1
      funext x
      exact (dropAt_cons _ _ _ _).symm

lemma checkUnhealthy_eq_ok {checks : List (NodeIdentity × CommitteeProof)} :
    c.checkUnhealthy P checks = .ok () ↔ ∀ check ∈ checks, c.healthy P check.1 check.2 = .ok false := by
  induction checks with
  | nil => exact ⟨fun _ => by rintro _ ⟨⟩, fun _ => rfl⟩
  | cons check checks ih =>
    simp only [checkUnhealthy, bind_eq_ok, require_eq_ok, ih, forall_mem_cons]
    constructor
    · rintro ⟨ok, hok, _, rfl, hrest⟩
      exact ⟨hok, hrest⟩
    · rintro ⟨hok, hrest⟩
      exact ⟨false, hok, (), rfl, hrest⟩

/-- A client that has failed its check: it is present, had a trainer seat in the previous round, and too few witnesses of
that round have confirmed it. -/
structure Failed (P : Platform) (c : Coordinator) (id : NodeIdentity) (proof : CommitteeProof) : Prop where
  client : ∃ x, c.epochState.clients.get? proof.index = some x ∧ x.signer = id.signer
  trainer : proof.committee = .trainer
  seat : ∃ selection, CommitteeSelection.fromCoordinator P c (-1) = .ok selection
    ∧ (selection.getCommittee P proof.index : Exec CoordinatorError Panic CommitteeProof) = .ok proof
  unconfirmed : ∃ round quorum, c.previousRound = some round
    ∧ c.witnessQuorum (asU16 round.witnesses.len) = .ok quorum
    ∧ trainerHealthyScoreByWitnesses P id round.witnesses.toList < quorum

lemma verifyCommitteeForClient_eq_true {selection : CommitteeSelection} {clients : List Client}
    (h : (selection.verifyCommitteeForClient P id proof clients : Exec CoordinatorError Panic Bool) = .ok true) :
    (∃ x, clients[proof.index]? = some x ∧ x.signer = id.signer)
      ∧ (selection.getCommittee P proof.index : Exec CoordinatorError Panic CommitteeProof) = .ok proof := by
  unfold CommitteeSelection.verifyCommitteeForClient at h
  split at h
  · rename_i hv
    unfold CommitteeSelection.verifyClient at hv
    split at hv
    · rename_i x hx
      simp only [CommitteeSelection.verifyCommittee, bind_eq_ok, Except.ok.injEq, Bool.and_eq_true, beq_iff_eq] at h
      obtain ⟨position, hp, rfl, hcommittee⟩ := h
      refine ⟨⟨x, hx, NodeIdentity.beq_iff.mp hv⟩, ?_⟩
      rw [CommitteeSelection.getCommittee, hp, ok_bind, ← hcommittee]
    · cases hv
  · cases h

lemma healthy_eq_false (h : c.healthy P id proof = .ok false) : Failed P c id proof := by
  simp only [healthy, bind_eq_ok, okOr_eq_ok, require_eq_ok, NodeIdentity.beq_iff] at h
  obtain ⟨round, hround, _, _, x, _, selection, hsel, _, hid, seated, hseat, _, rfl, h⟩ := h
  obtain ⟨⟨y, hy, hxy⟩, hdrawn⟩ := verifyCommitteeForClient_eq_true hseat
  have hy' : y.signer = id.signer := hxy.trans hid
  cases hc : proof.committee with
  | tieBreaker | verifier =>
    rw [hc] at h
    cases h
  | trainer =>
    rw [hc] at h
    simp only [trainerHealthy, bind_eq_ok, okOr_eq_ok, Except.ok.injEq, decide_eq_false_iff_not, not_le] at h
    obtain ⟨round, hround, quorum, hquorum, hlt⟩ := h
    refine ⟨⟨y, hy, hy'⟩, hc, ⟨selection, hsel, hdrawn⟩, round, quorum, hround, hquorum, ?_⟩
    rw [trainerHealthyScoreByWitnesses, ← hid]
    exact hlt

lemma Failed.index_lt (h : Failed P c id proof) : proof.index < c.epochState.clients.len := by
  obtain ⟨x, hx, _⟩ := h.client
  exact (List.getElem?_eq_some_iff.mp hx).1

lemma run_ofExec {ε π σ α : Type} (x : Exec ε π α) (s : σ) :
    (ofExec x : EStateM (Fault ε π) σ α).run s = (match x with
      | .ok a => .ok a s
      | .error e => .error e s) := by
  cases x <;> rfl

/-- The checks in place do what the pure ones do, and nothing if they fail. -/
lemma healthCheckMut_run (P : Platform) (c : Coordinator) (checks : List (NodeIdentity × CommitteeProof)) :
    (healthCheckMut P checks).run c = (match c.healthCheck P checks with
      | .ok (c', n) => .ok n c'
      | .error e => .error e c) := by
  simp only [healthCheckMut, healthCheck, EStateM.run_bind, EStateM.run_get, run_ofExec]
  cases (Exec.require (c.halted = false) .halted : Exec CoordinatorError Panic Unit) with
  | error e => rfl
  | ok _ =>
    cases (Exec.require (2 ≤ c.currentRound.height) .invalidHealthCheck : Exec CoordinatorError Panic Unit) with
    | error e => rfl
    | ok _ =>
      cases hc : c.checkUnhealthy P checks with
      | error e => rfl
      | ok _ =>
        have hall := checkUnhealthy_eq_ok.mp hc
        have hlt : ∀ proof ∈ checks.map Prod.snd, proof.index < c.epochState.clients.len := by
          intro proof hp
          obtain ⟨check, hcheck, rfl⟩ := mem_map.mp hp
          exact (healthy_eq_false (hall check hcheck)).index_lt
        obtain ⟨c', m, hd, hrun, _⟩ := foldlM_dropClientMut (n := 0) hlt
        simp only [ok_bind, hd]
        exact hrun

end InPlace

section Dropping
variable {checks : List (NodeIdentity × CommitteeProof)}

/-- The clients that are healthy in one state and dropped in another. -/
def droppedBetween (c c' : Coordinator) : List Client :=
  ((c.epochState.clients.toList.zip c'.epochState.clients.toList).filter fun xy =>
    xy.1.state = .healthy ∧ xy.2.state = .dropped).map Prod.fst

lemma length_droppedBetween (h : List.Forall₂ MayDrop c.epochState.clients.toList c'.epochState.clients.toList) :
    (droppedBetween c c').length + c'.numHealthy = c.numHealthy := by
  unfold droppedBetween numHealthy
  rw [length_map]
  generalize c.epochState.clients.toList = l at h ⊢
  generalize c'.epochState.clients.toList = l' at h ⊢
  induction h with
  | nil => rfl
  | @cons x y l l' hxy _ ih =>
    rw [zip_cons_cons, countP_cons, countP_cons]
    obtain rfl | ⟨hx, rfl⟩ := hxy
    · have hne : ¬ (y.state = .healthy ∧ y.state = .dropped) := by
        rintro ⟨h1, h2⟩
        rw [h1] at h2
        cases h2
      rw [filter_cons_of_neg (by simpa using hne)]
      omega
    · rw [filter_cons_of_pos (by simp [hx]), length_cons]
      simp only [hx, decide_true, if_true]
      simp only [reduceCtorEq, decide_false, Bool.false_eq_true, if_false]
      omega

lemma mem_droppedBetween {x : Client} (h : x ∈ droppedBetween c c') : ∃ i y, c.epochState.clients.get? i = some x
    ∧ c'.epochState.clients.get? i = some y ∧ x.state = .healthy ∧ y.state = .dropped := by
  obtain ⟨⟨x, y⟩, hxy, rfl⟩ := mem_map.mp h
  obtain ⟨hmem, hstate⟩ := mem_filter.mp hxy
  obtain ⟨i, hi⟩ := mem_iff_getElem?.mp hmem
  obtain ⟨hx, hy⟩ := getElem?_zip_eq_some.mp hi
  obtain ⟨hh, hd⟩ := of_decide_eq_true hstate
  exact ⟨i, y, hx, hy, hh, hd⟩

/-- What a successful health check has done: the named clients have failed, the healthy ones among them are dropped, and
nothing else has changed. -/
structure HealthChecked (P : Platform) (checks : List (NodeIdentity × CommitteeProof)) (c : Coordinator) (n : Nat)
    (c' : Coordinator) : Prop where
  failed : ∀ check ∈ checks, Failed P c check.1 check.2
  eq : c' = c.setEpochState { c.epochState with clients := c'.epochState.clients }
  len : c'.epochState.clients.len = c.epochState.clients.len
  clients : ∀ i, c'.epochState.clients.get? i
    = (c.epochState.clients.get? i).map (dropAt ((checks.map Prod.snd).map CommitteeProof.index) i)
  count : n = (droppedBetween c c').length

lemma healthChecked_of_ok {n : Nat} (h : c.healthCheck P checks = .ok (c', n)) : HealthChecked P checks c n c' := by
  obtain ⟨_, _, hc, clients, hmay, he⟩ := healthCheck_inv h
  have hfailed : ∀ check ∈ checks, Failed P c check.1 check.2 :=
    fun check hcheck => healthy_eq_false (checkUnhealthy_eq_ok.mp hc check hcheck)
  have hlt : ∀ proof ∈ checks.map Prod.snd, proof.index < c.epochState.clients.len := by
    intro proof hp
    obtain ⟨check, hcheck, rfl⟩ := mem_map.mp hp
    exact (hfailed check hcheck).index_lt
  obtain ⟨c1, m, hd, _, hget, hcount⟩ := foldlM_dropClientMut (n := 0) hlt
  simp only [healthCheck, bind_eq_ok] at h
  obtain ⟨_, _, _, _, _, _, h⟩ := h
  obtain ⟨rfl, rfl⟩ := Prod.mk.inj (Except.ok.inj (hd.symm.trans h))
  refine ⟨hfailed, by rw [he]; rfl, by rw [he]; exact hmay.length_eq.symm, hget, ?_⟩
  have hlen : (droppedBetween c c1).length + c1.numHealthy = c.numHealthy := by
    rw [he]
    exact length_droppedBetween hmay
  omega

/-- A health check drops healthy clients that are named in it, and no other. -/
lemma HealthChecked.client {n i : Nat} {x y : Client} (h : HealthChecked P checks c n c')
    (hx : c.epochState.clients.get? i = some x) (hy : c'.epochState.clients.get? i = some y) :
    y = x ∨ (x.state = .healthy ∧ y = { x with state := .dropped }
      ∧ ∃ check ∈ checks, check.2.index = i ∧ check.1.signer = x.signer) := by
  rw [h.clients, hx] at hy
  obtain rfl := Option.some.inj hy
  unfold dropAt
  split
  · rename_i hn
    obtain ⟨proof, hproof, rfl⟩ := mem_map.mp hn.1
    obtain ⟨check, hcheck, rfl⟩ := mem_map.mp hproof
    obtain ⟨z, hz, hsigner⟩ := (h.failed check hcheck).client
    obtain rfl := Option.some.inj (hz.symm.trans hx)
    exact .inr ⟨hn.2, rfl, check, hcheck, rfl, hsigner.symm⟩
  · exact .inl rfl

end Dropping

section Confirmed

lemma exists_witnessQuorum {n : Nat} (h : n ≠ 0) : ∃ quorum, c.witnessQuorum n = .ok quorum := by
  unfold witnessQuorum
  split
  · rename_i h0
    split at h0
    · exact absurd h0 h
    · rename_i hw
      exact absurd h0 hw
  all_goals exact ⟨_, rfl⟩

lemma previousRound_of_height (h : c.currentRound.height ≠ 0) : c.previousRound = some c.previousSlot := by
  rw [previousRound, if_neg fun h0 => h h0.2]
  rfl

lemma Failed.not_confirmed {id : NodeIdentity} {proof : CommitteeProof} {round : Round} {quorum : Nat}
    {confirmed : List Witness} (h : Failed P c id proof) (hr : c.previousRound = some round)
    (hq : c.witnessQuorum (asU16 round.witnesses.len) = .ok quorum) (hs : confirmed.Sublist round.witnesses.toList)
    (hadded : ∀ w ∈ confirmed, w.participantBloom.HasAdded (P.sha256 id.signer.bytes).bytes) :
    confirmed.length < quorum := by
  obtain ⟨round', quorum', hr', hq', hlt⟩ := h.unconfirmed
  obtain rfl := Option.some.inj (hr'.symm.trans hr)
  obtain rfl := Except.ok.inj (hq'.symm.trans hq)
  have hall : confirmed.countP (fun w => w.participantBloom.contains (P.sha256 id.signer.bytes).bytes)
      = confirmed.length := by
    exact countP_eq_length.mpr fun w hw => (hadded w hw).contains
  have hle := hs.countP_le (p := fun w => w.participantBloom.contains (P.sha256 id.signer.bytes).bytes)
  unfold trainerHealthyScoreByWitnesses at hlt
  omega

/-- **Confirmed trainers are kept**: from the third round of an epoch on, a client whose hash is in the participant filters
of a quorum of the previous round's witnesses is named as a trainer by no successful health check. A check that fails
changes nothing; one that succeeds turns healthy clients that it names to dropped ones and returns their number. -/
theorem confirmed_trainer_kept {tr : Record} (r : (machine P).Run tr c) :
    (2 ≤ c.currentRound.height → ∃ round quorum, c.previousRound = some round
      ∧ round.height + 1 = c.currentRound.height ∧ c.witnessQuorum (asU16 round.witnesses.len) = .ok quorum
      ∧ ∀ (id : NodeIdentity) (confirmed : List Witness), confirmed.Sublist round.witnesses.toList →
        quorum ≤ confirmed.length →
        (∀ w ∈ confirmed, w.participantBloom.HasAdded (P.sha256 id.signer.bytes).bytes) →
        ∀ checks : List (NodeIdentity × CommitteeProof),
          (∃ check ∈ checks, check.1.signer = id.signer ∧ check.2.committee = .trainer) →
          ∀ n c', (healthCheckMut P checks).run c ≠ .ok n c')
    ∧ ∀ checks, (∀ e c', (healthCheckMut P checks).run c = .error e c' → c' = c)
      ∧ ∀ n c', (healthCheckMut P checks).run c = .ok n c' →
        c' = c.setEpochState { c.epochState with clients := c'.epochState.clients }
        ∧ c'.epochState.clients.len = c.epochState.clients.len
        ∧ (∀ i x y, c.epochState.clients.get? i = some x → c'.epochState.clients.get? i = some y →
          y = x ∨ (x.state = .healthy ∧ y = { x with state := .dropped }
            ∧ ∃ check ∈ checks, check.2.index = i ∧ check.1.signer = x.signer))
        ∧ n = (droppedBetween c c').length := by
  have hok : ∀ checks n c', (healthCheckMut P checks).run c = .ok n c' → HealthChecked P checks c n c' := by
    intro checks n c' h
    rw [healthCheckMut_run] at h
    split at h
    · rename_i c1 n1 hc
      cases h
      exact healthChecked_of_ok hc
    · cases h
  refine ⟨fun hh => ?_, fun checks => ⟨fun e c' h => ?_, fun n c' h => ?_⟩⟩
  · have hne : c.currentRound.height ≠ 0 := by omega
    have hprev := previousRound_of_height hne
    obtain ⟨_, _, _, _, _, _, hsucc⟩ := (opened_of_run r).previous hne
    have hlen : asU16 c.previousSlot.witnesses.len ≠ 0 := by
      rw [FixedVec.asU16_len_witnesses]
      exact (RosterInv.of_run r).witnessed hne
    obtain ⟨quorum, hq⟩ := exists_witnessQuorum hlen
    refine ⟨_, quorum, hprev, hsucc, hq, ?_⟩
    rintro id confirmed hs hle hadded checks ⟨check, hcheck, hid, _⟩ n c' hrun
    have hf := (hok checks n c' hrun).failed check hcheck
    rw [← hid] at hadded
    have := hf.not_confirmed hprev hq hs hadded
    omega
  · rw [healthCheckMut_run] at h
    split at h
    · cases h
    · cases h
      rfl
  · have hc := hok checks n c' h
    exact ⟨hc.eq, hc.len, fun i x y hx hy => hc.client hx hy, hc.count⟩

/-- A hash that tells rounds of the shuffle and small keys apart: the byte after a seed, or the first byte. -/
def mixing : Platform := { Platform.zero with sha256 := fun b => (b.getD 32 (b.headD 0)).setWidth 256 }

/-- A coordinator that waits for its first members, with a share of verifiers. -/
def auditing (verificationPercent : Nat) : Coordinator :=
  { Coordinator.small with config := { CoordinatorConfig.small with verificationPercent } }

lemma auditing_fresh (verificationPercent : Nat) : Fresh (auditing verificationPercent) := ⟨rfl, rfl, rfl, .inl rfl⟩

/-- A witness of the client at an index that has seen the first client at work. -/
def sighting (position index : Nat) : Witness :=
  ⟨⟨position, index, true⟩, WitnessBloom.empty.add (mixing.sha256 (1 : Pubkey).bytes).bytes, .empty, 0⟩

/-- Two clients in the third round of an epoch, of which only the first has been seen at work. -/
def idleTrainer : Record × Coordinator :=
  (machine mixing).play [] (auditing 0) [.tick (some .two) 5 0, .tick none 15 0, .witness ⟨1, 0⟩ (sighting 0 0) 16,
    .tick none 25 0, .tick none 35 0, .witness ⟨1, 0⟩ (sighting 0 0) 36, .tick none 45 0, .tick none 55 0]

def standings (c : Coordinator) : List (Pubkey × ClientState) :=
  c.epochState.clients.toList.map fun x => (x.signer, x.state)

/-- What a health check returns and the standings it leaves. -/
def checked (P : Platform) (c : Coordinator) (checks : List (NodeIdentity × CommitteeProof)) :
    Option (Nat × List (Pubkey × ClientState)) :=
  match c.healthCheck P checks with
  | .ok (c', n) => some (n, c'.standings)
  | .error _ => none

/-- The idle trainer can be dropped, and the one whose work is confirmed cannot. -/
theorem confirmed_trainer_kept_idleTrainer : idleTrainer.2.currentRound.height = 2
    ∧ checked mixing idleTrainer.2 [(⟨2, 0⟩, ⟨.trainer, 1, 1⟩)] = some (1, [(1, .healthy), (2, .dropped)])
    ∧ ∀ n c', (healthCheckMut mixing [(⟨2, 0⟩, ⟨.trainer, 1, 1⟩), (⟨1, 0⟩, ⟨.trainer, 0, 0⟩)]).run idleTrainer.2
      ≠ .ok n c' := by
  have hrun : (machine mixing).Run idleTrainer.1 idleTrainer.2 := (Machine.Run.init (auditing_fresh 0)).play _
  -- the run is evaluated once for all that is read off it
  obtain ⟨hheight, hbloom, hlen, hquorum, hchecked⟩ : idleTrainer.2.currentRound.height = 2
      ∧ (∀ w ∈ idleTrainer.2.previousSlot.witnesses.toList,
        w.participantBloom = WitnessBloom.empty.add (mixing.sha256 (1 : Pubkey).bytes).bytes)
      ∧ idleTrainer.2.previousSlot.witnesses.toList.length = 1 ∧ idleTrainer.2.witnessQuorum 1 = .ok 1
      ∧ checked mixing idleTrainer.2 [(⟨2, 0⟩, ⟨.trainer, 1, 1⟩)] = some (1, [(1, .healthy), (2, .dropped)]) := by
    decide +kernel
  obtain ⟨round, quorum, hr, _, hq, hkept⟩ := (confirmed_trainer_kept hrun).1 hheight.ge
  obtain rfl := previousRound_eq_some hr
  rw [FixedVec.asU16_len_witnesses, FixedVec.len, hlen] at hq
  obtain rfl := Except.ok.inj (hquorum.symm.trans hq)
  refine ⟨hheight, hchecked, hkept ⟨1, 0⟩ _ (List.Sublist.refl _) hlen.ge (fun w hw => ?_) _ ?_⟩
  · exact ⟨.empty, [], hbloom w hw⟩
  · exact ⟨(⟨1, 0⟩, ⟨.trainer, 0, 0⟩), mem_cons_of_mem _ mem_cons_self, rfl, rfl⟩

end Confirmed

section Seats

/-- A key held a seat in the round that began in a state, under the index it had in that state. -/
def HeldSeat (P : Platform) (s : Coordinator) (key : Pubkey) (committee : Committee) : Prop :=
  ∃ i selection proof, s.roster[i]? = some key ∧ CommitteeSelection.fromCoordinator P s 0 = .ok selection
    ∧ (selection.getCommittee P i : Exec CoordinatorError Panic CommitteeProof) = .ok proof
    ∧ proof.committee = committee

lemma fromCoordinator_previous {s : Coordinator} (h : c.previousSlot.emptied = s.currentRound)
    (hc : c.config = s.config) (hne : c.currentRound.height ≠ 0) :
    CommitteeSelection.fromCoordinator P s 0 = CommitteeSelection.fromCoordinator P c (-1) := by
  have hs : CommitteeSelection.roundAt s 0 = some c.previousSlot.emptied := by rw [h]; rfl
  have hp : CommitteeSelection.roundAt c (-1) = some c.previousSlot := previousRound_of_height hne
  simp only [CommitteeSelection.fromCoordinator, hs, hp, hc]
  rfl

/-- **Only trainers of the previous round are dropped**: as long as nobody has left since it began, each client that a
health check turns from healthy to dropped held a trainer seat in that round, under the index it had when the round began.
-/
theorem dropped_was_trainer {tr : Record} {checks : List (NodeIdentity × CommitteeProof)} {n : Nat}
    (r : (machine P).Run tr c) (h : c.healthCheck P checks = .ok (c', n))
    (hstay : c.epochState.clients.len = c.previousSlot.clientsLen) :
    ∃ s s' rest, opened tr = s :: s' :: rest ∧ ∀ x ∈ droppedBetween c c', HeldSeat P s' x.signer .trainer := by
  obtain ⟨hhalt, hheight, _⟩ := healthCheck_inv h
  have hne : c.currentRound.height ≠ 0 := by omega
  obtain ⟨s, s', rest, hopened, hstored, hlen, _⟩ := (opened_of_run r).previous hne
  have hsince : Since s' c := (opened_of_run r).since s' (by simp [hopened])
  have hc := healthChecked_of_ok h
  have hroster : c.roster = s'.roster := by
    refine hsince.roster.eq_of_length ?_
    rw [← hlen, ← hstay, roster, length_map]
    rfl
  refine ⟨s, s', rest, hopened, fun x hx => ?_⟩
  obtain ⟨i, y, hxi, hyi, hx, hy⟩ := mem_droppedBetween hx
  have hconfig : c.config = s'.config := by
    obtain hsame | hnone | hfin := hsince.config
    · exact hsame
    · exact absurd hx (hnone x (mem_of_getElem? hxi))
    · rw [halted, hfin] at hhalt
      cases hhalt
  obtain rfl | ⟨_, _, check, hcheck, rfl, _⟩ := hc.client hxi hyi
  · rw [hx] at hy
    cases hy
  · have hf := hc.failed check hcheck
    obtain ⟨selection, hsel, hproof⟩ := hf.seat
    refine ⟨check.2.index, selection, check.2, ?_, ?_, hproof, hf.trainer⟩
    · rw [← hroster, roster, getElem?_map]
      exact congrArg (Option.map Client.signer) hxi
    · rw [fromCoordinator_previous hstored hconfig hne]
      exact hsel

/-- The client that is dropped had the seat of a trainer in the round before. -/
theorem dropped_was_trainer_idleTrainer : ∃ c' n s s' rest,
    idleTrainer.2.healthCheck mixing [(⟨2, 0⟩, ⟨.trainer, 1, 1⟩)] = .ok (c', n)
      ∧ (droppedBetween idleTrainer.2 c').map Client.signer = [2] ∧ opened idleTrainer.1 = s :: s' :: rest
      ∧ ∀ x ∈ droppedBetween idleTrainer.2 c', HeldSeat mixing s' x.signer .trainer := by
  have hrun : (machine mixing).Run idleTrainer.1 idleTrainer.2 := (Machine.Run.init (auditing_fresh 0)).play _
  obtain ⟨hstay, hdropped⟩ : idleTrainer.2.epochState.clients.len = idleTrainer.2.previousSlot.clientsLen
      ∧ ((idleTrainer.2.healthCheck mixing [(⟨2, 0⟩, ⟨.trainer, 1, 1⟩)]).toOption.map
        fun r => (droppedBetween idleTrainer.2 r.1).map Client.signer) = some [2] := by
    decide +kernel
  cases h : idleTrainer.2.healthCheck mixing [(⟨2, 0⟩, ⟨.trainer, 1, 1⟩)] with
  | error e =>
    rw [h] at hdropped
    cases hdropped
  | ok r =>
    obtain ⟨c', n⟩ := r
    rw [h] at hdropped
    obtain ⟨s, s', rest, hs, hheld⟩ := dropped_was_trainer hrun h hstay
    exact ⟨c', n, s, s', rest, rfl, Option.some.inj hdropped, hs, hheld⟩

/-- Three clients, the second of which has the only trainer seat and leaves during the second round. -/
def shiftedSeats : Record × Coordinator :=
  (machine mixing).play [] (auditing 67) [.tick (some ⟨[⟨1, 1⟩, ⟨2, 2⟩, ⟨3, 3⟩], by decide⟩) 5 0, .tick none 15 0,
    .witness ⟨1, 0⟩ (sighting 0 0) 16, .tick none 25 0, .tick none 35 0, .witness ⟨1, 0⟩ (sighting 0 0) 36,
    .withdraw 1, .tick none 45 0, .tick none 55 0]

/-- The rosters with which the rounds of the epoch began, newest first, and the seats they drew. -/
def lineups (P : Platform) (tr : Record) : List (List (Pubkey × Option Committee)) :=
  (opened tr).map fun s => s.roster.zipIdx.map fun x => (x.1,
    match CommitteeSelection.fromCoordinator P s 0 with
    | .ok selection => match (selection.getCommittee P x.2 : Exec CoordinatorError Panic CommitteeProof) with
      | .ok proof => some proof.committee
      | .error _ => none
    | .error _ => none)

/-- The second client has left and the seats have moved: a verifier is dropped as an idle trainer. -/
theorem verifier_dropped :
    (lineups mixing shiftedSeats.1)[1]? = some [(1, some .verifier), (2, some .trainer), (3, some .verifier)]
      ∧ checked mixing shiftedSeats.2 [(⟨3, 0⟩, ⟨.trainer, 2, 1⟩)] = some (1, [(1, .healthy), (3, .dropped)]) := by
  decide +kernel

end Seats
end Leviathan.Coordinator
