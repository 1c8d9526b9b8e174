import Leviathan.Coordinator.Ring

/-!
# Historical indices

A client that leaves is taken out of the list of clients and appended to the list of those who have exited, and the
index of those behind it changes. To find the client that an index meant in an earlier round,
`get_client_at_historical_index` looks at the place it has now, and behind the present clients it counts back through
the exited ones.

`opened` reads from the record of a run in which states the rounds of the epoch began. `Opened` relates these states to
the ring buffer: a slot holds the round that began then, with the witnesses it has got since; and since then (`Since`)
clients have only moved from one list to the other, so the function looks into the present clients followed by those who
have left since.
-/

namespace Leviathan
open List

section Order
variable {α : Type} {front back l : List α}

lemma append_eq_iff_of_perm (hp : (front ++ back).Perm l) (hn : l.Nodup) :
    front ++ back = l ↔ front <+: l ∧ back.Sublist l := by
  constructor
  · rintro rfl
    exact ⟨prefix_append _ _, sublist_append_right _ _⟩
  · rintro ⟨⟨rest, rfl⟩, hsub⟩
    have hrest : back.Perm rest := (perm_append_left_iff front).mp hp
    obtain ⟨b1, b2, rfl, h1, h2⟩ := sublist_append_iff.mp hsub
    -- nothing of the rest stands in the first part
    have hnil : b1 = [] := by
      refine eq_nil_iff_forall_not_mem.mpr fun x hx => ?_
      have hxr : x ∈ rest := hrest.subset (mem_append_left _ hx)
      exact (disjoint_of_nodup_append hn) (h1.subset hx) hxr
    subst hnil
    rw [nil_append] at hrest ⊢
    rw [h2.eq_of_length hrest.length_eq]

end Order

namespace Coordinator
variable {P : Platform} {c c' s : Coordinator} {now seed : Nat}

/-- The states in which the rounds of the epoch began, newest first; none before its first round. -/
def opened : Record → List Coordinator
  | [] => []
  | ev :: tr =>
    if ev.before.runState = .waitingForMembers ∧ ev.after.runState = .warmup then
      []
    else if ev.before.runState ≠ .roundTrain ∧ ev.after.runState = .roundTrain then
      ev.after :: opened tr
    else
      opened tr

/-- A stored round: the current one, the one before it and so on. -/
def storedRound (c : Coordinator) (k : Fin numStoredRounds) : Round :=
  c.epochState.rounds.get (c.epochState.roundsHead - k)

/-- Those who have left since an earlier state, in the order in which they left. -/
def leftSince (s c : Coordinator) : List Pubkey :=
  (c.epochState.exitedClients.toList.drop s.epochState.exitedClients.len).map Client.signer

/-- The historical indices of a round name those who had them in the state in which it began. -/
def Historical (s : Coordinator) (round : Round) (c : Coordinator) : Prop :=
  ∀ n < round.clientsLen, (c.getClientAtHistoricalIndex n round.clientsLen).map Client.signer = s.roster[n]?

/-- What has happened since an earlier state: clients have only left, and the configuration is that of the time as long as
somebody is left to judge. -/
structure Since (s c : Coordinator) : Prop where
  departed : Departed s c
  roster : c.roster.Sublist s.roster
  config : c.config = s.config ∨ c.NoneHealthy ∨ c.runState = .finished

lemma Since.refl (c : Coordinator) : Since c c := ⟨.same rfl rfl, List.Sublist.refl _, .inl rfl⟩

lemma Since.stays (h : Since s c) (hk : Stays c c') (hf : c.runState = .finished → c'.runState = .finished) :
    Since s c' where
  departed := h.departed.trans hk.departed
  roster := hk.roster.trans h.roster
  config := by
    obtain hc | hn | hs := h.config
    · exact .inl (hk.config.trans hc)
    · exact .inr (.inl (hk.healthy hn))
    · exact .inr (.inr (hf hs))

lemma Since.roundStarted (h : Since s c) (hs : c.runState ≠ .finished) (hr : c.RoundStarted P now seed c') :
    Since s c' := by
  obtain ⟨_, _, _, _, _, rfl⟩ := hr
  refine ⟨h.departed.trans (.same rfl rfl), h.roster, ?_⟩
  obtain hc | hn | hf := h.config
  · exact .inl hc
  · exact .inr (.inl hn)
  · exact absurd hf hs

/-- A halted run has nobody to judge, or is over. -/
lemma Since.updates (h : Since s c) (hi : c.Idle → c.NoneHealthy) (hh : c.halted = true)
    (hs : c'.runState = c.runState) (he : c'.epochState = c.epochState) : Since s c' := by
  have hr : c'.roster = c.roster := by
    rw [Coordinator.roster, he]
    rfl
  refine ⟨h.departed.trans (.same hr (by rw [he])), hr ▸ h.roster, .inr ?_⟩
  rw [NoneHealthy, he, hs]
  unfold halted at hh
  split at hh
  · exact .inl (hi (.inr ‹_›))
  · exact .inr ‹_›
  · exact .inl (hi (.inl ‹_›))
  · cases hh

/-- Since they began, the rounds are in their slots, one for each height, and clients have only left. -/
structure Opened (l : List Coordinator) (c : Coordinator) : Prop where
  warmup : c.runState = .warmup → l = []
  active : c.active = true → l ≠ []
  idle : c.Idle → c.NoneHealthy
  height : c.currentRound.height = l.length - 1
  heights : ∀ k s, l[k]? = some s → s.currentRound.height + k + 1 = l.length
  since : ∀ s ∈ l, Since s c
  clientsLen : ∀ s ∈ l, s.currentRound.clientsLen = s.roster.length
  recent : Recent (c.epochState.rounds.map Round.emptied) c.epochState.roundsHead (l.map currentRound)

section Opened
variable {l : List Coordinator} {tr : Record} {op : Operation} {now seed : Nat}

lemma Opened.nil (ha : c.active = false) (hi : c.Idle → c.NoneHealthy) (hh : c.currentRound.height = 0) :
    Opened [] c where
  warmup := fun _ => rfl
  active := by simp [ha]
  idle := hi
  height := hh
  heights := by simp
  since := by simp
  clientsLen := by simp
  recent := by simp [Recent]

lemma emptied_currentRound (c : Coordinator) :
    (c.epochState.rounds.map Round.emptied).get c.epochState.roundsHead = c.currentRound.emptied :=
  Vector.getElem_map ..

lemma Stays.emptied (h : Stays c c') :
    c'.epochState.rounds.map Round.emptied = c.epochState.rounds.map Round.emptied := by
  obtain ⟨round, he, hr⟩ := h.rounds
  rw [hr, Vector.map_set, he, ← emptied_currentRound]
  exact Vector.set_getElem_self _

/-- What begins no epoch and no round keeps the rounds opened. -/
lemma Opened.stays (h : Opened l c) (hl : Lasts c c') (hk : Stays c c') : Opened l c' where
  warmup := fun hn => h.warmup (hl.warmup hn)
  active := fun ha => h.active (hl.active ha)
  idle := hl.idle hk h.idle
  height := hk.height.trans h.height
  heights := h.heights
  since := fun s hmem => (h.since s hmem).stays hk hl.finished
  clientsLen := h.clientsLen
  recent := by
    rw [hk.emptied, hk.head]
    exact h.recent

lemma Opened.updates (h : Opened l c) (hh : c.halted = true) (hs : c'.runState = c.runState)
    (he : c'.epochState = c.epochState) : Opened l c' where
  warmup := fun hn => h.warmup (hs.symm.trans hn)
  active := fun ha => h.active (by rw [Coordinator.active, ← hs]; exact ha)
  idle := fun hi => by
    rw [Idle, hs] at hi
    rw [NoneHealthy, he]
    exact h.idle hi
  height := by
    rw [(rounds_congr c c' (by rw [he]) (by rw [he])).1]
    exact h.height
  heights := h.heights
  since := fun s hmem => (h.since s hmem).updates h.idle hh hs he
  clientsLen := h.clientsLen
  recent := by
    rw [he]
    exact h.recent

lemma currentRound_of_roundStarted (hr : c.RoundStarted P now seed c') :
    c'.currentRound.emptied = c'.currentRound ∧ c'.currentRound.clientsLen = c'.roster.length := by
  constructor
  · have hw := hr.currentRound.2.2
    unfold Round.emptied
    rw [← hw]
  · rw [hr.currentRound.1, ← hr.frame.1, Coordinator.roster, length_map]
    rfl

lemma Opened.cons (hr : c.RoundStarted P now seed c') (hh : c'.currentRound.height = l.length)
    (hhs : ∀ k s, l[k]? = some s → s.currentRound.height + k + 1 = l.length) (hd : ∀ s ∈ l, Since s c')
    (hl : ∀ s ∈ l, s.currentRound.clientsLen = s.roster.length)
    (hrec : Recent (c'.epochState.rounds.map Round.emptied) c'.epochState.roundsHead
      (c'.currentRound.emptied :: l.map currentRound)) :
    Opened (c' :: l) c' where
  warmup := fun hn => by simp [hr.runState] at hn
  active := fun _ => cons_ne_nil _ _
  idle := fun hi => by simp [Idle, hr.runState] at hi
  height := hh
  heights := fun k s hk => by
    cases k with
    | zero =>
      cases hk
      rw [hh, length_cons]
    | succ k =>
      rw [length_cons, ← hhs k s hk]
      omega
  since := forall_mem_cons.mpr ⟨.refl c', hd⟩
  clientsLen := forall_mem_cons.mpr ⟨(currentRound_of_roundStarted hr).2, hl⟩
  recent := by
    rw [map_cons, ← (currentRound_of_roundStarted hr).1]
    exact hrec

lemma Opened.first (hr : c.RoundStarted P now seed c') (hf : c.epochState.firstRound = true) : Opened [c'] c' :=
  .cons hr (hr.first hf) (by simp) (by simp) (by simp) (.single (emptied_currentRound c'))

lemma Opened.next {c1 : Coordinator} (h : Opened l c) (hs : c.runState = .roundWitness) (hk : Stays c c1)
    (hs1 : c1.runState ≠ .finished) (hf : c1.epochState.firstRound = false) (hr : c1.RoundStarted P now seed c') :
    Opened (c' :: l) c' := by
  have hne : l ≠ [] := h.active (by simp [Coordinator.active, hs])
  obtain ⟨hslot, hhead⟩ := hr.slot
  rw [if_neg (by simp [hf])] at hhead
  refine .cons hr ?_ h.heights (fun s hmem => ?_) h.clientsLen ?_
  · have hpos := length_pos_iff.mpr hne
    rw [(hr.later hf).2, hk.height, h.height]
    omega
  · exact ((h.since s hmem).stays hk fun hn => by simp [hs] at hn).roundStarted hs1 hr
  · have hpush := h.recent.push c'.currentRound.emptied
    rw [← hk.emptied, ← hk.head] at hpush
    rw [hslot, Vector.map_set]
    simp only [hhead]
    exact hpush

lemma opened_begin (h : c.runState = .waitingForMembers) (h' : c'.runState = .warmup) :
    opened (⟨c, op, (), c'⟩ :: tr) = [] := if_pos ⟨h, h'⟩

lemma opened_start (h : c.runState ≠ .waitingForMembers) (hne : c.runState ≠ .roundTrain) (h' : c'.runState = .roundTrain) :
    opened (⟨c, op, (), c'⟩ :: tr) = c' :: opened tr := by
  rw [opened, if_neg fun hn => h hn.1, if_pos ⟨hne, h'⟩]

lemma opened_same (h : c'.runState = .warmup → c.runState = .warmup) (h' : c'.runState = .roundTrain → c.runState = .roundTrain) :
    opened (⟨c, op, (), c'⟩ :: tr) = opened tr := by
  rw [opened, if_neg fun hn => ?_, if_neg fun hn => hn.1 (h' hn.2)]
  have hw := h hn.2
  rw [hn.1] at hw
  cases hw

/-- A round is opened with the roster of the moment, and later steps only take clients away. -/
lemma Opened.step (h : Opened (opened tr) c) (hw : c.runState = .warmup → c.epochState.firstRound = true)
    (co : Course P c c') : Opened (opened (⟨c, op, (), c'⟩ :: tr)) c' := by
  cases co with
  | begins hs hs' _ hround =>
    rw [opened_begin hs hs']
    exact .nil (by simp [Coordinator.active, hs']) (fun hi => by simp [Idle, hs'] at hi) (by rw [hround]; rfl)
  | stays hl hk =>
    rw [opened_same hl.warmup hl.roundTrain]
    exact h.stays hl hk
  | updates hh hs he =>
    rw [opened_same (fun hn => hs.symm.trans hn) (fun hn => hs.symm.trans hn)]
    exact h.updates hh hs he
  | @aborts c1 _ _ hs hs' hr he =>
    have hcur := (rounds_congr c1 c' (by rw [he]) (by rw [he])).1
    rw [opened_same (fun hn => by simp [hn] at hs') (fun hn => by simp [hn] at hs'), h.warmup hs]
    refine .nil ?_ (fun hi => ?_) (by rw [hcur]; exact hr.first (hw hs))
    · obtain hs' | hs' := hs' <;> simp [Coordinator.active, hs']
    · obtain hs' | hs' := hs' <;> simp [Idle, hs'] at hi
  | first hs hf hr =>
    rw [opened_start (by simp [hs]) (by simp [hs]) hr.runState, h.warmup hs]
    exact .first hr (hf.trans (hw hs))
  | next hs hk hs1 _ hf hr =>
    rw [opened_start (by simp [hs]) (by simp [hs]) hr.runState]
    exact h.next hs hk hs1 hf hr

/-- In every run the stored rounds are those that were opened last. -/
lemma opened_of_run (r : (machine P).Run tr c) : Opened (opened tr) c := by
  refine history_of_steps (I := fun tr c => Opened (opened tr) c) (fun c hfresh => ?_) ?_ r
  · obtain ⟨hc, _, hh, hs⟩ := hfresh
    refine .nil ?_ (fun _ x hx => ?_) hh
    · unfold halted at hs
      unfold Coordinator.active
      cases hr : c.runState <;> simp_all
    · rw [hc] at hx
      cases hx
  · intro tr c op c' r h st
    exact h.step (RosterInv.of_run r).warmup st.course

lemma Departed.leftSince (h : Departed s c) :
    ∃ gone : List Client, c.epochState.exitedClients.toList = s.epochState.exitedClients.toList ++ gone
      ∧ s.leftSince c = gone.map Client.signer ∧ (c.roster ++ s.leftSince c).Perm s.roster := by
  obtain ⟨gone, hex, hperm⟩ := h
  have hleft : s.leftSince c = gone.map Client.signer := by
    unfold Coordinator.leftSince
    rw [hex, FixedVec.len, drop_left]
  exact ⟨gone, hex, hleft, hleft ▸ hperm⟩

lemma map_getClientAtHistoricalIndex (h : Departed s c) {n : Nat} (hn : n < s.roster.length) :
    (c.getClientAtHistoricalIndex n s.roster.length).map Client.signer = (c.roster ++ s.leftSince c)[n]? := by
  obtain ⟨gone, hex, hleft, hperm⟩ := h.leftSince
  have hlen : c.roster.length + gone.length = s.roster.length := by
    simpa [hleft] using hperm.length_eq
  have hpresent : c.roster.length = c.epochState.clients.len := length_map _
  rw [hleft]
  unfold getClientAtHistoricalIndex
  by_cases hlt : n < c.epochState.clients.len
  · rw [if_pos hlt, getElem?_append_left (by omega)]
    exact (getElem?_map ..).symm
  · -- counting back from the end of the exited clients
    rw [if_neg hlt, if_pos hn, getElem?_append_right (by omega), getElem?_map,
      getElem?_reverse (by rw [hex, length_append]; omega), hex, length_append,
      getElem?_append_right (by omega)]
    congr 2
    omega

/-- A slot holds the round that began in the state, up to its witnesses. -/
lemma Opened.storedRound (h : Opened l c) {k : Fin numStoredRounds} (hs : l[k.val]? = some s) :
    (c.storedRound k).emptied = s.currentRound ∧ (c.storedRound k).clientsLen = s.roster.length := by
  have hstored : (c.storedRound k).emptied = s.currentRound := by
    have hk := h.recent k s.currentRound (by rw [getElem?_map, hs]; rfl)
    rw [Vector.getElem_map] at hk
    exact hk
  refine ⟨hstored, ?_⟩
  rw [← h.clientsLen s (mem_of_getElem? hs), ← hstored]
  rfl

/-- After the first round of an epoch the slot before the head holds the round before the current one. -/
lemma Opened.previous (h : Opened l c) (hne : c.currentRound.height ≠ 0) : ∃ s s' rest, l = s :: s' :: rest
    ∧ c.previousSlot.emptied = s'.currentRound ∧ c.previousSlot.clientsLen = s'.roster.length
    ∧ c.previousSlot.height + 1 = c.currentRound.height := by
  obtain _ | ⟨s, _ | ⟨s', rest⟩⟩ := l
  · exact absurd h.height hne
  · exact absurd h.height hne
  · obtain ⟨hstored, hlen⟩ := h.storedRound (k := 1) rfl
    have hheight : c.previousSlot.height = s'.currentRound.height := (congrArg Round.height hstored :)
    have hlater := h.heights 1 s' rfl
    refine ⟨s, s', rest, rfl, hstored, hlen, ?_⟩
    rw [hheight, h.height]
    omega

lemma historical_iff_append (h : Departed s c) {round : Round} (hlen : round.clientsLen = s.roster.length) :
    Historical s round c ↔ c.roster ++ s.leftSince c = s.roster := by
  obtain ⟨_, _, _, hperm⟩ := h.leftSince
  unfold Historical
  rw [hlen]
  constructor
  · intro hall
    refine ext_getElem? fun n => ?_
    by_cases hn : n < s.roster.length
    · rw [← map_getClientAtHistoricalIndex h hn, hall n hn]
    · rw [getElem?_eq_none (not_lt.mp hn), getElem?_eq_none]
      rw [hperm.length_eq]
      exact not_lt.mp hn
  · intro heq n hn
    rw [map_getClientAtHistoricalIndex h hn, heq]

lemma Departed.nodup (h : Departed s c) (r : (machine P).Run tr c) : s.roster.Nodup := by
  obtain ⟨gone, hex, hleft, hperm⟩ := h.leftSince
  have hinv := (RosterInv.of_run r).core
  have hsigners : c.epochState.signers.Nodup := hinv.perm.nodup_iff.mpr hinv.nodup
  refine hperm.nodup_iff.mp (hsigners.sublist ?_)
  rw [hleft, CoordinatorEpochState.signers, CoordinatorEpochState.entries, hex, map_append, map_append]
  exact (sublist_append_right _ _).append_left _

/-- In every run and for every stored round of the epoch: the historical indices of the round name those who had them when
it began if and only if the present ones stood in front of those who have left, and these have left in the order of the
roster. -/
theorem historical_iff (r : (machine P).Run tr c) {k : Fin numStoredRounds} (hs : (opened tr)[k.val]? = some s) :
    (c.storedRound k).emptied = s.currentRound ∧ (Historical s (c.storedRound k) c
      ↔ c.roster <+: s.roster ∧ (s.leftSince c).Sublist s.roster) := by
  have h := opened_of_run r
  obtain ⟨hstored, hlen⟩ := h.storedRound hs
  have hdep := (h.since s (mem_of_getElem? hs)).departed
  obtain ⟨_, _, _, hperm⟩ := hdep.leftSince
  exact ⟨hstored, (historical_iff_append hdep hlen).trans (append_eq_iff_of_perm hperm (hdep.nodup r))⟩

/-- Three clients in the second round of an epoch; the one at the given index has withdrawn in the first. -/
def withdrawnOne (index : Nat) : Record × Coordinator :=
  (machine .zero).play [] .small [.tick (some threePending) 5 0, .tick none 15 0, .witness ⟨1, 0⟩ (report 0 0) 16,
    .withdraw index, .tick none 25 0, .tick none 35 0]

/-- The rosters of then and now and those who have left since the round before the current one began. -/
def rosters (run : Record × Coordinator) : Option (List Pubkey × List Pubkey × List Pubkey) :=
  (opened run.1)[1]?.map fun s => (s.roster, run.2.roster, s.leftSince run.2)

/-- The stored round still goes with the roster after the last of three clients has left. -/
theorem historical_iff_thirdLeft : ∃ tr c s, (machine .zero).Run tr c ∧ (opened tr)[1]? = some s ∧ s.roster = [1, 2, 3]
    ∧ c.roster = [1, 2] ∧ Historical s (c.storedRound 1) c := by
  have hrosters : rosters (withdrawnOne 2) = some ([1, 2, 3], [1, 2], [3]) := by decide +kernel
  obtain ⟨s, hs, heq⟩ := Option.map_eq_some_iff.mp hrosters
  simp only [Prod.mk.injEq] at heq
  obtain ⟨hthen, hnow, hleft⟩ := heq
  have hrun : (machine .zero).Run (withdrawnOne 2).1 (withdrawnOne 2).2 := run_small _
  refine ⟨_, _, s, hrun, hs, hthen, hnow, ?_⟩
  refine (historical_iff hrun (k := 1) hs).2.mpr ?_
  rw [hthen, hnow, hleft]
  decide

/-- The second of three clients has left: the index that it had in the round before now names the third. -/
theorem historical_shifted : ∃ tr c s, (machine .zero).Run tr c ∧ (opened tr)[1]? = some s ∧ s.roster = [1, 2, 3]
    ∧ (c.getClientAtHistoricalIndex 1 (c.storedRound 1).clientsLen).map Client.signer = some 3
    ∧ ¬ Historical s (c.storedRound 1) c := by
  obtain ⟨hrosters, hlen, hnames⟩ : rosters (withdrawnOne 1) = some ([1, 2, 3], [1, 3], [2])
      ∧ ((withdrawnOne 1).2.storedRound 1).clientsLen = 3
      ∧ ((withdrawnOne 1).2.getClientAtHistoricalIndex 1 3).map Client.signer = some 3 := by
    decide +kernel
  obtain ⟨s, hs, heq⟩ := Option.map_eq_some_iff.mp hrosters
  simp only [Prod.mk.injEq] at heq
  obtain ⟨hthen, _⟩ := heq
  refine ⟨(withdrawnOne 1).1, (withdrawnOne 1).2, s, run_small _, hs, hthen, by rw [hlen, hnames], fun h => ?_⟩
  have hone := h 1 (by rw [hlen]; decide)
  rw [hlen, hnames, hthen] at hone
  revert hone
  decide

end Opened
end Coordinator
end Leviathan
