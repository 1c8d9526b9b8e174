import Leviathan.Lib.Run
import Leviathan.Lib.Sorting
import Leviathan.Lib.Text
import Mathlib.Data.List.Flatten
import Mathlib.Data.List.ReduceOption
import Mathlib.Data.PNat.Basic

/-!
# The transaction indexer

Model of the loop of `website/backend/src/chainLoop.ts` and of the marker of the data store in
`website/backend/src/dataStores/flatFileCoordinator.ts`. The loop gets the transactions since the slot of the last one
it has processed, hands them to `onInstruction`, moves the marker to the newest, lets `onDoneCatchup` apply the effects
to the store and writes it to disk (`sync`). Whatever throws, the loop starts again. The marker is an object of the
store itself, so that it stays where it was moved to.

An `Attempt` is one iteration of the loop with all that can happen to it. A cancelled one throws before the marker
moves. What `onDoneCatchup` stores is the list of instructions it was given.
-/

namespace Leviathan.Website
open List
variable {D : Type}

/-- A confirmed transaction that touches the program. An instruction that cannot be decoded is `none`. -/
structure Transaction (D : Type) where
  signature : Text
  slot : Nat
  instructions : List (Option D)
deriving DecidableEq, Repr

/-- An instruction as it is handed to `onInstruction`, with the transaction it is from. -/
structure Effect (D : Type) where
  signature : Text
  decoded : D
deriving DecidableEq, Repr

/-- The instructions of a transaction that are processed. -/
def Transaction.effects (tx : Transaction D) : List (Effect D) :=
  tx.instructions.reduceOption.map fun decoded => ⟨tx.signature, decoded⟩

/-- The confirmed transactions, oldest first. Several may share a slot. -/
structure Confirmed (D : Type) where
  txs : List (Transaction D)
  ordered : txs.Pairwise fun a b => a.slot ≤ b.slot
  distinct : txs.Pairwise fun a b => a.signature ≠ b.signature

namespace Confirmed

/-- A transaction that can come next. -/
def Follows (confirmed : Confirmed D) (tx : Transaction D) : Prop :=
  ∀ earlier ∈ confirmed.txs, earlier.slot ≤ tx.slot ∧ earlier.signature ≠ tx.signature

instance (confirmed : Confirmed D) (tx : Transaction D) : Decidable (confirmed.Follows tx) :=
  inferInstanceAs (Decidable (∀ earlier ∈ confirmed.txs, earlier.slot ≤ tx.slot ∧ earlier.signature ≠ tx.signature))

/-- One more transaction is confirmed. -/
def confirm (confirmed : Confirmed D) (tx : Transaction D) (h : confirmed.Follows tx) : Confirmed D where
  txs := confirmed.txs ++ [tx]
  ordered := List.pairwise_append.mpr ⟨confirmed.ordered, List.pairwise_singleton _ _,
    fun a ha _ hb => List.mem_singleton.mp hb ▸ (h a ha).1⟩
  distinct := List.pairwise_append.mpr ⟨confirmed.distinct, List.pairwise_singleton _ _,
    fun a ha _ hb => List.mem_singleton.mp hb ▸ (h a ha).2⟩

end Confirmed

structure IndexedSignature where
  signature : Text
  slot : Nat
deriving DecidableEq, Repr

/-- The data store: the marker (TypeScript `LastUpdateInfo`) and what was applied. -/
structure IndexStore (D : Type) where
  highestSignature : Option IndexedSignature
  effects : List (Effect D)
deriving DecidableEq, Repr

def IndexStore.startSlot (minimumSlotToIndexFrom : Nat) (store : IndexStore D) : Nat :=
  max minimumSlotToIndexFrom ((store.highestSignature.map (·.slot)).getD 0)

/-- What a node answers when it is asked for a transaction. -/
inductive Fetched where
  | transaction
  | null
  | throws
deriving DecidableEq, Repr

/-- How `onDoneCatchup` ends. If it throws, some of the effects have reached the store. -/
inductive DoneCatchup where
  | completes
  | throws (reached : Nat → Bool)

/-- What happens to one iteration of the loop: a request for a page throws or has a page size, `onInstruction` throws or
not. -/
structure Attempt (D : Type) where
  page : Nat → Option ℕ+
  fetched : Text → Fetched
  onInstruction : List (Effect D) → Effect D → Bool
  onDoneCatchup : DoneCatchup
  sync : Bool

/-- The transactions before a signature, newest first, as many as a page has. -/
def getSignaturesForAddress (newestFirst : List (Transaction D)) (before : Option Text) (limit : ℕ+) :
    List (Transaction D) :=
  match before with
  | none => newestFirst.take limit
  | some signature => (newestFirst.dropWhile fun tx => tx.signature ≠ signature).tail.take limit

/-- The loop of `catchupOnTxsToAddress`, with a bound on its iterations. What is confirmed meanwhile is not before any
signature, so all pages are of the same transactions. -/
def collectSignatures (newestFirst : List (Transaction D)) (lastIndexedSlot : Nat) (page : Nat → Option ℕ+) :
    Nat → Nat → Option Text → List (Transaction D) → Option (List (Transaction D))
  | 0, _, _, _ => none
  | fuel + 1, request, oldestSeenSignature, allSignatures =>
    match page request with
    | none => none
    | some limit =>
      let signatures := getSignaturesForAddress newestFirst oldestSeenSignature limit
      let signaturesAfterLastProcessedSlot := signatures.filter fun tx => tx.slot > lastIndexedSlot
      if signatures.length = 0 ∨ signaturesAfterLastProcessedSlot.length ≠ signatures.length then
        some (allSignatures ++ signaturesAfterLastProcessedSlot)
      else
        collectSignatures newestFirst lastIndexedSlot page fuel (request + 1)
          (signaturesAfterLastProcessedSlot.getLast?.map (·.signature))
          (allSignatures ++ signaturesAfterLastProcessedSlot)

/-- The transaction of a signature; `none` if the request throws. -/
def getParsedTransaction (fetched : Text → Fetched) (tx : Transaction D) : Option (Option (Transaction D)) :=
  match fetched tx.signature with
  | .transaction => some (some tx)
  | .null => some none
  | .throws => none

/-- The transactions to process, oldest first; `none` if a request throws. -/
def catchupOnTxsToAddress (confirmed : Confirmed D) (lastIndexedSlot : Nat) (attempt : Attempt D) :
    Option (List (Transaction D)) := do
  let allSignatures ← collectSignatures confirmed.txs.reverse lastIndexedSlot attempt.page (confirmed.txs.length + 1) 0 none []
  let transactions ← allSignatures.mapM (getParsedTransaction attempt.fetched)
  some transactions.reduceOption.reverse

/-- The calls of `onInstruction`, in order; `none` if one throws. -/
def processInstructions (onInstruction : List (Effect D) → Effect D → Bool) :
    List (Effect D) → List (Effect D) → Option (List (Effect D))
  | state, [] => some state
  | state, effect :: rest =>
    if onInstruction state effect then processInstructions onInstruction (state ++ [effect]) rest else none

/-- What has reached the store when `onDoneCatchup` ends. -/
def DoneCatchup.apply : DoneCatchup → List (Effect D) → List (Effect D)
  | .completes, state => state
  | .throws reached, state => (state.zipIdx.filter fun entry => reached entry.2).map (·.1)

/-- Whether the store is written: `onDoneCatchup` must not throw, and neither must `sync`. -/
def Attempt.synced (attempt : Attempt D) : Bool :=
  match attempt.onDoneCatchup with
  | .completes => attempt.sync
  | .throws _ => false

/-- The chain, the data store in memory and the one on disk. -/
structure Indexer (D : Type) where
  confirmed : Confirmed D
  store : IndexStore D
  disk : IndexStore D

namespace Indexer

/-- One iteration of the loop (TypeScript `startWatchChainLoop`). -/
def catchup (minimumSlotToIndexFrom : Nat) (s : Indexer D) (attempt : Attempt D) : Indexer D :=
  match catchupOnTxsToAddress s.confirmed (s.store.startSlot minimumSlotToIndexFrom) attempt with
  | none => s
  | some catchupTxs =>
    match processInstructions attempt.onInstruction [] (catchupTxs.flatMap Transaction.effects) with
    | none => s
    | some state =>
      -- `lastUpdate` is the store's own object, so this moves the marker of the store
      let highestSignature := (catchupTxs.getLast?.map fun tx => ⟨tx.signature, tx.slot⟩).or s.store.highestSignature
      let store := ⟨highestSignature, s.store.effects ++ attempt.onDoneCatchup.apply state⟩
      { s with store, disk := if attempt.synced then store else s.disk }

/-- A transaction is confirmed, the loop makes an attempt, or the process is started again and loads the store from disk. -/
inductive Input (D : Type) where
  | confirm (tx : Transaction D)
  | attempt (attempt : Attempt D)
  | restart

/-- The chain and the loop that follows it. -/
def machine (D : Type) (minimumSlotToIndexFrom : Nat) : Machine (Indexer D) (Input D) Unit Unit where
  init s := s = ⟨⟨[], .nil, .nil⟩, ⟨none, []⟩, ⟨none, []⟩⟩
  step s
    | .confirm tx =>
      if h : s.confirmed.Follows tx then .ok ({ s with confirmed := s.confirmed.confirm tx h }, ()) else .error ()
    | .attempt attempt => .ok (s.catchup minimumSlotToIndexFrom attempt, ())
    | .restart => .ok ({ s with store := s.disk }, ())

end Indexer

/-! ## Pages -/

section Pages
variable {newestFirst seen rest : List (Transaction D)} {lastIndexedSlot : Nat} {page : Nat → Option ℕ+}

lemma getSignaturesForAddress_eq (hdistinct : (seen ++ rest).Pairwise fun a b => a.signature ≠ b.signature) (limit : ℕ+) :
    getSignaturesForAddress (seen ++ rest) (seen.getLast?.map (·.signature)) limit = rest.take limit := by
  rcases eq_nil_or_concat' seen with rfl | ⟨init, last, rfl⟩
  · rfl
  · have hskip : ((init ++ [last]) ++ rest).dropWhile (fun tx => decide (tx.signature ≠ last.signature)) = last :: rest := by
      rw [append_assoc, dropWhile_append_of_pos]
      · simp
      · intro a ha
        rw [append_assoc] at hdistinct
        simpa using (pairwise_append.mp hdistinct).2.2 a ha last (by simp)
    rw [getLast?_concat, Option.map_some, getSignaturesForAddress, hskip, tail_cons]

lemma filter_eq_nil_of_ordered {l l' : List (Transaction D)} (h : (l ++ l').Pairwise fun a b => b.slot ≤ a.slot)
    (hl : ∃ tx ∈ l, tx.slot ≤ lastIndexedSlot) : l'.filter (fun tx => tx.slot > lastIndexedSlot) = [] := by
  obtain ⟨tx, htx, hslot⟩ := hl
  refine filter_eq_nil_iff.mpr fun tx' htx' => ?_
  have hle := (pairwise_append.mp h).2.2 tx htx tx' htx'
  simp only [gt_iff_lt, decide_eq_true_eq]
  omega

/-- The pages that are asked for come, one after the other, until one is empty or has a transaction that is not after the slot.
Of the `total` transactions that are left, `after` are after the slot. -/
inductive PagesCome (page : Nat → Option ℕ+) : Nat → Nat → Nat → Prop where
  | last {request after total : Nat} {limit : ℕ+} :
    page request = some limit → total = 0 ∨ after < min (limit : Nat) total →
    PagesCome page request after total
  | next {request after total : Nat} {limit : ℕ+} :
    page request = some limit → min (limit : Nat) total ≤ after → PagesCome page (request + 1) (after - limit) (total - limit) →
    PagesCome page request after total

/-- Pages that all come, come until the last one. -/
lemma PagesCome.of_all (h : ∀ request, page request ≠ none) (request after total : Nat) :
    PagesCome page request after total := by
  induction total using Nat.strong_induction_on generalizing request after with
  | _ total ih =>
    obtain ⟨limit, hlimit⟩ := Option.ne_none_iff_exists'.mp (h request)
    have hpos := limit.pos
    by_cases hlast : total = 0 ∨ after < min (limit : Nat) total
    · exact .last hlimit hlast
    · obtain ⟨htotal, hafter⟩ := not_or.mp hlast
      exact .next hlimit (Nat.not_lt.mp hafter) (ih _ (by omega) _ _)

/-- The loop gets the transactions after the slot, unless a page that it asks for does not come. -/
lemma collectSignatures_eq {fuel request : Nat} (hordered : (seen ++ rest).Pairwise fun a b => b.slot ≤ a.slot)
    (hdistinct : (seen ++ rest).Pairwise fun a b => a.signature ≠ b.signature)
    (hseen : ∀ tx ∈ seen, tx.slot > lastIndexedSlot) (hfuel : rest.length < fuel) :
    collectSignatures (seen ++ rest) lastIndexedSlot page fuel request (seen.getLast?.map (·.signature)) seen
        = some ((seen ++ rest).filter fun tx => tx.slot > lastIndexedSlot)
        ∧ PagesCome page request (rest.filter fun tx => tx.slot > lastIndexedSlot).length rest.length
      ∨ collectSignatures (seen ++ rest) lastIndexedSlot page fuel request (seen.getLast?.map (·.signature)) seen = none
        ∧ ¬ PagesCome page request (rest.filter fun tx => tx.slot > lastIndexedSlot).length rest.length := by
  induction fuel generalizing seen rest request with
  | zero => exact absurd hfuel (Nat.not_lt_zero _)
  | succ fuel ih =>
    rw [collectSignatures]
    cases hlimit : page request with
    | none =>
      refine .inr ⟨rfl, fun h => ?_⟩
      cases h with
      | last hsome | next hsome => cases hlimit.symm.trans hsome
    | some limit =>
      have hcut : seen ++ rest = seen ++ rest.take limit ++ rest.drop limit := by
        rw [append_assoc, take_append_drop]
      have hcount : (rest.filter fun tx => tx.slot > lastIndexedSlot).length
          = ((rest.take limit).filter fun tx => tx.slot > lastIndexedSlot).length
            + ((rest.drop limit).filter fun tx => tx.slot > lastIndexedSlot).length := by
        rw [← length_append, ← filter_append, take_append_drop]
      simp only [getSignaturesForAddress_eq hdistinct]
      by_cases hlast : (rest.take limit).length = 0
          ∨ ((rest.take limit).filter fun tx => tx.slot > lastIndexedSlot).length ≠ (rest.take limit).length
      · rw [if_pos hlast]
        -- the page is empty, or has a transaction that is not after the slot
        have hnone : (rest.drop limit).filter (fun tx => tx.slot > lastIndexedSlot) = [] := by
          rcases hlast with hempty | hshort
          · have hrest : rest = [] := by
              have hpos := limit.pos
              rw [length_take] at hempty
              exact length_eq_zero_iff.mp (by omega)
            rw [hrest, drop_nil]
            rfl
          · refine filter_eq_nil_of_ordered (l := seen ++ rest.take limit) (hcut ▸ hordered) ?_
            by_contra hall
            refine hshort (congrArg _ (filter_eq_self.mpr fun tx htx => ?_))
            simp only [not_exists, not_and, not_le] at hall
            exact decide_eq_true (hall tx (mem_append_right _ htx))
        refine .inl ⟨congrArg some ?_, .last hlimit ?_⟩
        · rw [hcut, filter_append, hnone, append_nil, filter_append,
            filter_eq_self.mpr fun tx htx => decide_eq_true (hseen tx htx)]
        · have hpos := limit.pos
          have hle := length_filter_le (fun tx : Transaction D => decide (tx.slot > lastIndexedSlot)) (rest.take limit)
          rw [hcount, hnone, length_nil]
          rw [length_take] at hlast hle
          omega
      · rw [if_neg hlast]
        obtain ⟨hpage, hafter⟩ := not_or.mp hlast
        have hafter := length_filter_eq_length_iff.mp (not_not.mp hafter)
        have hne : rest.take limit ≠ [] := fun he => hpage (by rw [he]; rfl)
        have hlast : (rest.take limit).getLast? = (seen ++ rest.take limit).getLast? :=
          (getLast?_append_of_ne_nil _ hne).symm
        have hpos := limit.pos
        have htake := length_pos_iff.mpr hne
        have hdrop := length_filter_le (fun tx : Transaction D => decide (tx.slot > lastIndexedSlot)) (rest.drop limit)
        rw [filter_eq_self.mpr hafter] at hcount
        rw [length_take] at htake hcount
        rw [length_drop] at hdrop
        -- the next page is asked for, of what is left
        have hpages : PagesCome page request (rest.filter fun tx => tx.slot > lastIndexedSlot).length rest.length
            ↔ PagesCome page (request + 1) ((rest.drop limit).filter fun tx => tx.slot > lastIndexedSlot).length
              (rest.drop limit).length := by
          have hleft : ((rest.drop limit).filter fun tx => tx.slot > lastIndexedSlot).length
              = (rest.filter fun tx => tx.slot > lastIndexedSlot).length - limit := by omega
          rw [hleft, length_drop]
          refine ⟨fun h => ?_, fun h => .next hlimit (by omega) h⟩
          cases h with
          | last hsome hend =>
            cases hlimit.symm.trans hsome
            omega
          | next hsome _ hrest =>
            cases hlimit.symm.trans hsome
            exact hrest
        rw [hpages, filter_eq_self.mpr hafter, hlast, hcut]
        refine ih (hcut ▸ hordered) (hcut ▸ hdistinct) ?_ ?_
        · intro tx htx
          obtain htx | htx := mem_append.mp htx
          · exact hseen tx htx
          · exact of_decide_eq_true (hafter tx htx)
        · rw [length_drop]
          omega

/-- All transactions that are asked for come, each as itself or as `null`, unless a request throws. -/
lemma mapM_getParsedTransaction (fetched : Text → Fetched) (l : List (Transaction D)) :
    (∃ transactions, l.mapM (getParsedTransaction fetched) = some transactions
        ∧ transactions.reduceOption = l.filter (fun tx => fetched tx.signature = .transaction)
        ∧ ∀ tx ∈ l, fetched tx.signature ≠ .throws)
      ∨ l.mapM (getParsedTransaction fetched) = none ∧ ∃ tx ∈ l, fetched tx.signature = .throws := by
  induction l with
  | nil => exact .inl ⟨[], rfl, rfl, by rintro _ ⟨⟩⟩
  | cons tx l ih =>
    rw [mapM_cons]
    cases htx : fetched tx.signature with
    | throws => exact .inr ⟨by simp [getParsedTransaction, htx], tx, mem_cons_self, htx⟩
    | transaction =>
      rcases ih with ⟨transactions, hl, hreduce, hno⟩ | ⟨hl, hthrows⟩
      · exact .inl ⟨some tx :: transactions, by simp [getParsedTransaction, htx, hl], by simp [htx, hreduce], by simpa [htx]⟩
      · exact .inr ⟨by simp [getParsedTransaction, htx, hl], by simp [hthrows]⟩
    | null =>
      rcases ih with ⟨transactions, hl, hreduce, hno⟩ | ⟨hl, hthrows⟩
      · exact .inl ⟨none :: transactions, by simp [getParsedTransaction, htx, hl], by simp [htx, hreduce], by simpa [htx]⟩
      · exact .inr ⟨by simp [getParsedTransaction, htx, hl], by simp [hthrows]⟩

/-- No call of `onInstruction` throws, each with what was processed before it. -/
def Passes (onInstruction : List (Effect D) → Effect D → Bool) (effects : List (Effect D)) : Prop :=
  ∀ init effect tail, effects = init ++ effect :: tail → onInstruction init effect = true

/-- All instructions are processed, unless a call throws. -/
lemma processInstructions_eq (onInstruction : List (Effect D) → Effect D → Bool) (state rest : List (Effect D)) :
    processInstructions onInstruction state rest = some (state ++ rest) ∧ Passes (fun init => onInstruction (state ++ init)) rest
      ∨ processInstructions onInstruction state rest = none ∧ ¬ Passes (fun init => onInstruction (state ++ init)) rest := by
  induction rest generalizing state with
  | nil => exact .inl ⟨by rw [processInstructions, append_nil], by simp [Passes]⟩
  | cons effect rest ih =>
    rw [processInstructions]
    cases hcall : onInstruction state effect with
    | false =>
      refine .inr ⟨rfl, fun h => ?_⟩
      have hinit := h [] effect rest rfl
      simp only [append_nil, hcall] at hinit
      cases hinit
    | true =>
      have hpasses : Passes (fun init => onInstruction (state ++ init)) (effect :: rest)
          ↔ Passes (fun init => onInstruction (state ++ [effect] ++ init)) rest := by
        constructor
        · rintro h init later tail rfl
          simpa only [append_assoc, singleton_append] using h (effect :: init) later tail rfl
        · intro h init later tail he
          obtain ⟨rfl, he⟩ | ⟨init, rfl, rfl⟩ := cons_eq_append_iff.mp he
          · cases he
            simpa only [append_nil] using hcall
          · simpa using h init later tail rfl
      rw [hpasses, if_pos rfl, append_cons state effect rest]
      exact ih (state ++ [effect])

/-- The transactions after a slot that do not come back as `null`. -/
def Confirmed.fetchedAfter (confirmed : Confirmed D) (slot : Nat) (attempt : Attempt D) : List (Transaction D) :=
  confirmed.txs.filter fun tx => slot < tx.slot ∧ attempt.fetched tx.signature = .transaction

/-- Nothing throws before the marker moves: the pages come, the transactions after the slot come or are `null`, and their
instructions are processed. -/
structure Attempt.Moves (attempt : Attempt D) (confirmed : Confirmed D) (slot : Nat) : Prop where
  page : PagesCome attempt.page 0 (confirmed.txs.filter fun tx => slot < tx.slot).length confirmed.txs.length
  fetched : ∀ tx ∈ confirmed.txs, slot < tx.slot → attempt.fetched tx.signature ≠ .throws
  onInstruction : Passes attempt.onInstruction ((confirmed.fetchedAfter slot attempt).flatMap Transaction.effects)

/-- A catch-up gets the transactions after the slot that do not come back as `null`, unless a request throws. -/
lemma catchupOnTxsToAddress_eq (confirmed : Confirmed D) (slot : Nat) (attempt : Attempt D) :
    catchupOnTxsToAddress confirmed slot attempt = some (confirmed.fetchedAfter slot attempt)
        ∧ PagesCome attempt.page 0 (confirmed.txs.filter fun tx => slot < tx.slot).length confirmed.txs.length
        ∧ (∀ tx ∈ confirmed.txs, slot < tx.slot → attempt.fetched tx.signature ≠ .throws)
      ∨ catchupOnTxsToAddress confirmed slot attempt = none ∧ ¬attempt.Moves confirmed slot := by
  have hordered : confirmed.txs.reverse.Pairwise fun a b => b.slot ≤ a.slot := pairwise_reverse.mpr confirmed.ordered
  have hdistinct : confirmed.txs.reverse.Pairwise fun a b => a.signature ≠ b.signature :=
    pairwise_reverse.mpr (confirmed.distinct.imp Ne.symm)
  have hcollect := @collectSignatures_eq D [] confirmed.txs.reverse slot attempt.page (confirmed.txs.length + 1) 0 hordered
    hdistinct (by simp) (by simp)
  rw [nil_append, getLast?_nil, Option.map_none, filter_reverse, length_reverse, length_reverse] at hcollect
  rw [catchupOnTxsToAddress]
  rcases hcollect with ⟨hcollect, hpages⟩ | ⟨hcollect, hpages⟩
  · rw [hcollect, Option.bind_eq_bind, Option.bind_some]
    rcases mapM_getParsedTransaction attempt.fetched (confirmed.txs.filter fun tx => tx.slot > slot).reverse with
      ⟨transactions, hmap, hreduce, hno⟩ | ⟨hmap, tx, htx, hthrows⟩
    · refine .inl ⟨?_, hpages, fun tx htx hslot => hno tx ?_⟩
      · rw [hmap, Option.bind_eq_bind, Option.bind_some, hreduce, filter_reverse, reverse_reverse, filter_filter,
          Confirmed.fetchedAfter]
        simp only [gt_iff_lt, Bool.and_comm, Bool.decide_and]
      · exact mem_reverse.mpr (mem_filter.mpr ⟨htx, decide_eq_true hslot⟩)
    · right
      rw [hmap]
      obtain ⟨hmem, hslot⟩ := mem_filter.mp (mem_reverse.mp htx)
      exact ⟨rfl, fun h => h.fetched tx hmem (of_decide_eq_true hslot) hthrows⟩
  · right
    rw [hcollect]
    exact ⟨rfl, fun h => hpages h.page⟩

end Pages

lemma DoneCatchup.apply_sublist (done : DoneCatchup) (state : List (Effect D)) : (done.apply state).Sublist state := by
  cases done with
  | completes => exact .refl _
  | throws reached =>
    have hsub : ((state.zipIdx.filter fun entry => reached entry.2).map Prod.fst).Sublist (state.zipIdx.map Prod.fst) :=
      filter_sublist.map _
    rwa [zipIdx_map_fst] at hsub

/-- `onDoneCatchup` stores all that it is given if and only if it does not throw before. -/
lemma DoneCatchup.apply_eq_iff (done : DoneCatchup) (state : List (Effect D)) :
    done.apply state = state ↔ ∀ reached, done = .throws reached → ∀ k < state.length, reached k = true := by
  cases done with
  | completes => exact iff_of_true rfl (by rintro _ ⟨⟩)
  | throws reached =>
    have hlen : state.length = state.zipIdx.length := length_zipIdx.symm
    rw [← (apply_sublist (.throws reached) state).length_eq, apply, length_map]
    nth_rewrite 1 [hlen]
    rw [length_filter_eq_length_iff]
    constructor
    · rintro h _ ⟨⟩ k hk
      exact h (state[k], k) (mem_zipIdx_iff_getElem?.mpr (List.getElem?_eq_getElem hk))
    · intro h entry hentry
      exact h reached rfl entry.2 (List.getElem?_eq_some_iff.mp (mem_zipIdx_iff_getElem?.mp hentry)).1

namespace Indexer
variable {minSlot : Nat} {s : Indexer D} {confirmed : Confirmed D} {before after : IndexStore D}
  {tx : Transaction D}

/-- The marker after a catch-up. -/
def marker (catchupTxs : List (Transaction D)) (store : IndexStore D) : Option IndexedSignature :=
  (catchupTxs.getLast?.map fun tx => ⟨tx.signature, tx.slot⟩).or store.highestSignature

/-- The store after an iteration in which the marker moved. -/
def stored (minSlot : Nat) (s : Indexer D) (attempt : Attempt D) : IndexStore D :=
  let catchupTxs := s.confirmed.fetchedAfter (s.store.startSlot minSlot) attempt
  ⟨marker catchupTxs s.store, s.store.effects ++ attempt.onDoneCatchup.apply (catchupTxs.flatMap Transaction.effects)⟩

/-- An iteration does nothing if something throws before the marker moves. Otherwise the marker moves, whatever happens
then, and the store is written if nothing else throws. -/
lemma catchup_cases (minSlot : Nat) (s : Indexer D) (attempt : Attempt D) :
    s.catchup minSlot attempt = s ∧ ¬attempt.Moves s.confirmed (s.store.startSlot minSlot)
      ∨ s.catchup minSlot attempt = { s with
          store := s.stored minSlot attempt, disk := if attempt.synced then s.stored minSlot attempt else s.disk }
        ∧ attempt.Moves s.confirmed (s.store.startSlot minSlot) := by
  rw [catchup]
  rcases catchupOnTxsToAddress_eq s.confirmed (s.store.startSlot minSlot) attempt with ⟨htxs, hpages, hfetched⟩ | ⟨htxs, hfail⟩
  · simp only [htxs]
    rcases processInstructions_eq attempt.onInstruction []
      ((s.confirmed.fetchedAfter (s.store.startSlot minSlot) attempt).flatMap Transaction.effects) with
      ⟨hstate, hpasses⟩ | ⟨hstate, hfail⟩
    · simp only [hstate]
      exact .inr ⟨rfl, hpages, hfetched, hpasses⟩
    · simp only [hstate]
      exact .inl ⟨trivial, fun h => hfail h.onInstruction⟩
  · simp only [htxs]
    exact .inl ⟨trivial, hfail⟩

/-! ## What is due -/

/-- The effects that a store should have by its marker, each transaction once, in the order of the chain. -/
def due (minSlot : Nat) (confirmed : Confirmed D) (store : IndexStore D) : List (Effect D) :=
  (confirmed.txs.filter fun tx => minSlot < tx.slot ∧ tx.slot ≤ store.startSlot minSlot).flatMap Transaction.effects

/-- The transactions that a marker passes. -/
def passed (minSlot : Nat) (confirmed : Confirmed D) (before after : IndexStore D) : List (Transaction D) :=
  confirmed.txs.filter fun tx => before.startSlot minSlot < tx.slot ∧ tx.slot ≤ after.startSlot minSlot

lemma due_eq_append (minSlot : Nat) (confirmed : Confirmed D)
    (h : before.startSlot minSlot ≤ after.startSlot minSlot) :
    due minSlot confirmed after
      = due minSlot confirmed before ++ (passed minSlot confirmed before after).flatMap Transaction.effects := by
  rw [due, due, passed, ← flatMap_append]
  exact congrArg _ (filter_between_append confirmed.ordered (le_max_left _ _) h)

lemma due_confirm (h : confirmed.Follows tx) (store : IndexStore D) :
    due minSlot (confirmed.confirm tx h) store = due minSlot confirmed store
      ++ if minSlot < tx.slot ∧ tx.slot ≤ store.startSlot minSlot then tx.effects else [] := by
  rw [due, due, Confirmed.confirm, filter_append, flatMap_append]
  congr 1
  by_cases hslot : minSlot < tx.slot ∧ tx.slot ≤ store.startSlot minSlot
  · simp [hslot]
  · rw [if_neg hslot, filter_cons_of_neg (by simpa using hslot)]
    rfl

lemma startSlot_stored (minSlot : Nat) (s : Indexer D) (attempt : Attempt D) :
    s.store.startSlot minSlot ≤ (s.stored minSlot attempt).startSlot minSlot
      ∧ ∀ tx ∈ s.confirmed.fetchedAfter (s.store.startSlot minSlot) attempt,
        tx.slot ≤ (s.stored minSlot attempt).startSlot minSlot := by
  have hordered : (s.confirmed.fetchedAfter (s.store.startSlot minSlot) attempt).Pairwise fun a b => a.slot ≤ b.slot :=
    s.confirmed.ordered.sublist filter_sublist
  have hafter : ∀ tx ∈ s.confirmed.fetchedAfter (s.store.startSlot minSlot) attempt, s.store.startSlot minSlot < tx.slot := by
    intro tx htx
    exact (of_decide_eq_true (mem_filter.mp htx).2).1
  simp only [stored, IndexStore.startSlot, marker] at *
  rcases eq_nil_or_concat' (s.confirmed.fetchedAfter _ attempt) with hnil | ⟨init, last, hlast⟩
  · rw [hnil]
    exact ⟨le_rfl, fun tx htx => absurd htx not_mem_nil⟩
  · rw [hlast] at hordered hafter ⊢
    rw [getLast?_concat, Option.map_some, Option.some_or, Option.map_some, Option.getD_some]
    refine ⟨(hafter last (by simp)).le.trans (le_max_right _ _), fun tx htx => ?_⟩
    exact (key_le_getLast hordered getLast?_concat htx).trans (le_max_right _ _)

lemma fetchedAfter_eq (minSlot : Nat) (s : Indexer D) (attempt : Attempt D) :
    s.confirmed.fetchedAfter (s.store.startSlot minSlot) attempt
      = (passed minSlot s.confirmed s.store (s.stored minSlot attempt)).filter fun tx =>
        attempt.fetched tx.signature = .transaction := by
  rw [passed, filter_filter, Confirmed.fetchedAfter]
  refine filter_congr fun tx htx => ?_
  rw [← Bool.decide_and]
  refine decide_eq_decide.mpr ⟨fun h => ⟨h.2, h.1, ?_⟩, fun h => ⟨h.2.1, h.1⟩⟩
  exact (startSlot_stored minSlot s attempt).2 tx (mem_filter.mpr ⟨htx, decide_eq_true h⟩)

/-- The effects of what comes are among those of what the marker passes. -/
lemma fetchedAfter_sublist (minSlot : Nat) (s : Indexer D) (attempt : Attempt D) :
    ((s.confirmed.fetchedAfter (s.store.startSlot minSlot) attempt).flatMap Transaction.effects).Sublist
      ((passed minSlot s.confirmed s.store (s.stored minSlot attempt)).flatMap Transaction.effects) := by
  rw [fetchedAfter_eq]
  exact filter_sublist.flatMap _

/-! ## Runs -/

/-- No store has an effect twice: each has a part of what is due. -/
structure Once (minSlot : Nat) (s : Indexer D) : Prop where
  store : s.store.effects.Sublist (due minSlot s.confirmed s.store)
  disk : s.disk.effects.Sublist (due minSlot s.confirmed s.disk)

/-- Both stores have exactly what is due. -/
structure Exact (minSlot : Nat) (s : Indexer D) : Prop where
  store : s.store.effects = due minSlot s.confirmed s.store
  disk : s.disk.effects = due minSlot s.confirmed s.disk

lemma stored_once {tr s} (r : (machine D minSlot).Run tr s) : Once minSlot s := by
  refine r.invariant ?_ ?_
  · rintro s rfl
    exact ⟨.slnil, .slnil⟩
  intro s i s' o h st
  cases i with
  | confirm tx =>
    simp only [machine] at st
    split at st
    case isTrue hnext =>
      cases st
      refine ⟨?_, ?_⟩
      · rw [due_confirm]
        exact h.store.trans (sublist_append_left _ _)
      · rw [due_confirm]
        exact h.disk.trans (sublist_append_left _ _)
    case isFalse => cases st
  | attempt attempt =>
    cases st
    rcases catchup_cases minSlot s attempt with ⟨hsame, _⟩ | ⟨hstored, _⟩
    · rw [hsame]
      exact h
    · have hstore : (s.stored minSlot attempt).effects.Sublist (due minSlot s.confirmed (s.stored minSlot attempt)) := by
        rw [due_eq_append minSlot _ (startSlot_stored minSlot s attempt).1]
        exact h.store.append ((DoneCatchup.apply_sublist _ _).trans (fetchedAfter_sublist minSlot s attempt))
      rw [hstored]
      refine ⟨hstore, ?_⟩
      dsimp only
      split
      · exact hstore
      · exact h.disk
  | restart =>
    cases st
    exact ⟨h.disk, h.disk⟩

/-- A catch-up that loses nothing: if `onDoneCatchup` throws, all effects of the transactions it was given have reached the
store, and no transaction with effects comes back as `null` while one in its slot or a later one comes. -/
structure Keeps (confirmed : Confirmed D) (slot : Nat) (attempt : Attempt D) : Prop where
  onDoneCatchup : ∀ reached, attempt.onDoneCatchup = .throws reached →
    ∀ k < ((confirmed.fetchedAfter slot attempt).flatMap Transaction.effects).length, reached k = true
  fetched : ∀ tx ∈ confirmed.txs, slot < tx.slot → attempt.fetched tx.signature = .null →
    (∃ later ∈ confirmed.txs, tx.slot ≤ later.slot ∧ attempt.fetched later.signature = .transaction) → tx.effects = []

/-- A step that loses nothing: a catch-up that moves the marker loses nothing, and a transaction is confirmed in a slot that no
marker has reached. -/
def Orderly (minSlot : Nat) (s : Indexer D) : Input D → Prop
  | .confirm tx => ∀ store ∈ [s.store, s.disk], minSlot < tx.slot ∧ tx.slot ≤ store.startSlot minSlot → tx.effects = []
  | .attempt attempt => attempt.Moves s.confirmed (s.store.startSlot minSlot) →
    Keeps s.confirmed (s.store.startSlot minSlot) attempt
  | .restart => True

/-- The marker passes the transactions for which one in the same slot or a later one comes. -/
lemma mem_passed_stored {attempt : Attempt D} :
    tx ∈ passed minSlot s.confirmed s.store (s.stored minSlot attempt) ↔ tx ∈ s.confirmed.txs ∧ s.store.startSlot minSlot < tx.slot
      ∧ ∃ later ∈ s.confirmed.txs, tx.slot ≤ later.slot ∧ attempt.fetched later.signature = .transaction := by
  have hreach := (startSlot_stored minSlot s attempt).2
  rw [passed, mem_filter, decide_eq_true_eq]
  refine and_congr_right fun _ => and_congr_right fun hslot => ⟨fun hle => ?_, ?_⟩
  · rcases eq_nil_or_concat' (s.confirmed.fetchedAfter (s.store.startSlot minSlot) attempt) with hnil | ⟨init, last, hlast⟩
    · -- nothing has come, so the marker has not moved
      rw [stored, hnil, marker] at hle
      exact absurd hle (Nat.not_le.mpr hslot)
    · have hmem : last ∈ s.confirmed.fetchedAfter (s.store.startSlot minSlot) attempt := by simp [hlast]
      obtain ⟨hmem, hcomes⟩ := mem_filter.mp hmem
      refine ⟨last, hmem, ?_, (of_decide_eq_true hcomes).2⟩
      have hmin : minSlot ≤ s.store.startSlot minSlot := le_max_left _ _
      rw [stored, hlast, marker, getLast?_concat, IndexStore.startSlot] at hle
      exact (le_max_iff.mp hle).resolve_left (by omega)
  · rintro ⟨later, hmem, hle, hcomes⟩
    exact hle.trans (hreach later (mem_filter.mpr ⟨hmem, decide_eq_true ⟨hslot.trans_le hle, hcomes⟩⟩))

/-- The effects of some of the transactions are those of all if and only if the others have none. -/
lemma flatMap_filter_eq_iff {p : Transaction D → Bool} {l : List (Transaction D)} :
    (l.filter p).flatMap Transaction.effects = l.flatMap Transaction.effects ↔ ∀ tx ∈ l, p tx = false → tx.effects = [] := by
  induction l with
  | nil => simp
  | cons tx l ih =>
    rw [forall_mem_cons, ← ih, filter_cons]
    cases htx : p tx with
    | true => simp
    | false =>
      have hsub : ((l.filter p).flatMap Transaction.effects).Sublist (l.flatMap Transaction.effects) :=
        filter_sublist.flatMap _
      rw [if_neg Bool.false_ne_true, flatMap_cons]
      constructor
      · intro h
        have hlen := congrArg length h
        rw [length_append] at hlen
        have hnil : tx.effects = [] := length_eq_zero_iff.mp (by have := hsub.length_le; omega)
        exact ⟨fun _ => hnil, by rwa [hnil, nil_append] at h⟩
      · rintro ⟨hnil, h⟩
        rw [hnil rfl, h, nil_append]

/-- What comes has the effects of what the marker passes if and only if nothing with effects comes back as `null`. -/
lemma flatMap_fetchedAfter_eq_iff {attempt : Attempt D} (hm : attempt.Moves s.confirmed (s.store.startSlot minSlot)) :
    (s.confirmed.fetchedAfter (s.store.startSlot minSlot) attempt).flatMap Transaction.effects
        = (passed minSlot s.confirmed s.store (s.stored minSlot attempt)).flatMap Transaction.effects
      ↔ ∀ tx ∈ s.confirmed.txs, s.store.startSlot minSlot < tx.slot → attempt.fetched tx.signature = .null →
        (∃ later ∈ s.confirmed.txs, tx.slot ≤ later.slot ∧ attempt.fetched later.signature = .transaction) →
        tx.effects = [] := by
  rw [fetchedAfter_eq, flatMap_filter_eq_iff]
  simp only [mem_passed_stored, decide_eq_false_iff_not]
  refine ⟨fun h tx htx hslot hn hlater => h tx ⟨htx, hslot, hlater⟩ (by rw [hn]; rintro ⟨⟩), ?_⟩
  rintro h tx ⟨htx, hslot, hlater⟩ hno
  cases hf : attempt.fetched tx.signature with
  | transaction => exact absurd hf hno
  | null => exact h tx htx hslot hf hlater
  | throws => exact absurd hf (hm.fetched tx htx hslot)

/-- A catch-up that moves the marker stores what the marker passes if and only if it loses nothing. -/
lemma stored_iff_keeps {attempt : Attempt D} (hm : attempt.Moves s.confirmed (s.store.startSlot minSlot)) :
    (s.stored minSlot attempt).effects
        = s.store.effects ++ (passed minSlot s.confirmed s.store (s.stored minSlot attempt)).flatMap Transaction.effects
      ↔ Keeps s.confirmed (s.store.startSlot minSlot) attempt := by
  have hsub := fetchedAfter_sublist minSlot s attempt
  have hnull := flatMap_fetchedAfter_eq_iff hm
  rw [stored, append_right_inj, ← stored]
  constructor
  · intro h
    have hcame := hsub.eq_of_length_le (h ▸ (DoneCatchup.apply_sublist _ _).length_le)
    exact ⟨(DoneCatchup.apply_eq_iff _ _).mp (h.trans hcame.symm), hnull.mp hcame⟩
  · intro h
    exact ((DoneCatchup.apply_eq_iff _ _).mpr h.onDoneCatchup).trans (hnull.mpr h.fetched)

lemma effects_confirm_iff (hnext : confirmed.Follows tx) {store : IndexStore D}
    (h : store.effects = due minSlot confirmed store) :
    store.effects = due minSlot (confirmed.confirm tx hnext) store
      ↔ (minSlot < tx.slot ∧ tx.slot ≤ store.startSlot minSlot → tx.effects = []) := by
  rw [due_confirm, h, self_eq_append_right, ite_eq_right_iff]

lemma effects_iff_passed (h : before.effects = due minSlot confirmed before)
    (hle : before.startSlot minSlot ≤ after.startSlot minSlot) :
    after.effects = due minSlot confirmed after
      ↔ after.effects = before.effects ++ (passed minSlot confirmed before after).flatMap Transaction.effects := by
  rw [due_eq_append minSlot _ hle, h]

lemma exact_step_iff {ev : Event (Indexer D) (Input D) Unit} (h : Exact minSlot ev.before)
    (st : (machine D minSlot).step ev.before ev.input = .ok (ev.after, ev.output)) :
    Exact minSlot ev.after ↔ Orderly minSlot ev.before ev.input := by
  obtain ⟨s, i, o, s'⟩ := ev
  dsimp only at h st ⊢
  cases i with
  | confirm tx =>
    simp only [machine] at st
    split at st
    case isTrue hnext =>
      cases st
      have hstore := effects_confirm_iff hnext h.store
      have hdisk := effects_confirm_iff hnext h.disk
      simp only [Orderly, forall_mem_cons, not_mem_nil, false_imp_iff, implies_true, and_true]
      exact ⟨fun h' => ⟨hstore.mp h'.store, hdisk.mp h'.disk⟩, fun h' => ⟨hstore.mpr h'.1, hdisk.mpr h'.2⟩⟩
    case isFalse => cases st
  | attempt attempt =>
    cases st
    simp only [Orderly]
    rcases catchup_cases minSlot s attempt with ⟨hsame, hstops⟩ | ⟨hstored, hmoves⟩
    · rw [hsame]
      exact iff_of_true h fun hmoves => absurd hmoves hstops
    · have hpassed := effects_iff_passed h.store (startSlot_stored minSlot s attempt).1
      rw [hstored, forall_prop_of_true hmoves, ← stored_iff_keeps hmoves, ← hpassed]
      refine ⟨fun h' => h'.store, fun h' => ⟨h', ?_⟩⟩
      dsimp only
      split
      · exact h'
      · exact h.disk
  | restart =>
    cases st
    exact iff_of_true ⟨h.disk, h.disk⟩ trivial

/-- An attempt to which nothing happens. -/
structure Succeeds (attempt : Attempt D) : Prop where
  page : ∀ request, attempt.page request ≠ none
  transaction : ∀ signature, attempt.fetched signature = .transaction
  onInstruction : ∀ state effect, attempt.onInstruction state effect = true
  onDoneCatchup : attempt.onDoneCatchup = .completes
  sync : attempt.sync = true

/-- It loses nothing. -/
lemma Succeeds.orderly {attempt : Attempt D} (hs : Succeeds attempt) : Orderly minSlot s (.attempt attempt) := by
  refine fun _ => ⟨fun reached h => ?_, fun tx _ _ h => ?_⟩
  · rw [hs.onDoneCatchup] at h
    cases h
  · rw [hs.transaction] at h
    cases h

/-- It stores all that is confirmed. -/
lemma stored_of_succeeds (h : s.store.effects = due minSlot s.confirmed s.store) {attempt : Attempt D}
    (hs : Succeeds attempt) :
    (s.catchup minSlot attempt).store.effects
        = (s.confirmed.txs.filter fun tx => minSlot < tx.slot).flatMap Transaction.effects
      ∧ (s.catchup minSlot attempt).disk = (s.catchup minSlot attempt).store := by
  rcases catchup_cases minSlot s attempt with ⟨_, hfail⟩ | ⟨hstored, _⟩
  · refine absurd ⟨.of_all hs.page _ _ _, fun tx _ _ => ?_, fun init effect _ _ => hs.onInstruction init effect⟩ hfail
    rw [hs.transaction]
    rintro ⟨⟩
  · rw [hstored]
    refine ⟨?_, ?_⟩
    · have hall : s.confirmed.fetchedAfter (s.store.startSlot minSlot) attempt
          = s.confirmed.txs.filter fun tx => s.store.startSlot minSlot < tx.slot := by
        simp only [Confirmed.fetchedAfter, hs.transaction, and_true]
      rw [filter_lt_append s.confirmed.ordered (le_max_left minSlot _), flatMap_append]
      simp only [stored, hall, hs.onDoneCatchup, DoneCatchup.apply, h]
      rfl
    · have hsynced : attempt.synced = true := by rw [Attempt.synced, hs.onDoneCatchup, hs.sync]
      simp only [hsynced, if_true]

/-- In every run no effect is stored twice, and the store and the file have exactly the effects of the transactions after
the minimum slot and up to their marker, in order, if and only if every step is orderly. While this is so, an undisturbed
catch-up stores all that is confirmed. -/
theorem stored_exactly_iff {tr s} (r : (machine D minSlot).Run tr s) :
    Once minSlot s
      ∧ (Machine.Always (fun _ => Exact minSlot) tr ↔ ∀ ev ∈ tr, Orderly minSlot ev.before ev.input)
      ∧ (Exact minSlot s → ∀ attempt, Succeeds attempt →
        (s.catchup minSlot attempt).store.effects
            = (s.confirmed.txs.filter fun tx => minSlot < tx.slot).flatMap Transaction.effects
          ∧ (s.catchup minSlot attempt).disk = (s.catchup minSlot attempt).store) := by
  refine ⟨stored_once r, ?_, fun h attempt hs => stored_of_succeeds h.store hs⟩
  have hinit : ∀ s, (machine D minSlot).init s → Exact minSlot s := by
    rintro s rfl
    exact ⟨rfl, rfl⟩
  exact r.always_iff_forall_mem hinit fun _ _ _ h st => exact_step_iff h st

section Losing

/-- An attempt to which nothing happens, except that `onDoneCatchup` ends as given. -/
def attemptWith (onDoneCatchup : DoneCatchup) : Attempt Nat where
  page _ := some 1000
  fetched _ := .transaction
  onInstruction _ _ := true
  onDoneCatchup := onDoneCatchup
  sync := true

/-- The indexer before it has seen anything. -/
def unstarted : Indexer Nat := ⟨⟨[], .nil, .nil⟩, ⟨none, []⟩, ⟨none, []⟩⟩

/-- `onDoneCatchup` throws before it has stored anything. -/
def thrown : List (Event (Indexer Nat) (Input Nat) Unit) × Indexer Nat :=
  (machine Nat 3).play [] unstarted
    [.confirm ⟨['a'], 5, [some 7]⟩, .attempt (attemptWith (.throws fun _ => false)), .attempt (attemptWith .completes)]

/-- A second transaction is confirmed in a slot after the slot has been processed. -/
def shared : List (Event (Indexer Nat) (Input Nat) Unit) × Indexer Nat :=
  (machine Nat 3).play [] unstarted
    [.confirm ⟨['b'], 6, [some 8]⟩, .attempt (attemptWith .completes), .confirm ⟨['c'], 6, [none, some 9]⟩,
      .attempt (attemptWith .completes)]

/-- A transaction is skipped if `onDoneCatchup` throws, since the marker has moved, and if it is confirmed in a slot that the
marker has reached: a later catch-up does not get it. -/
theorem transactions_skipped :
    (machine Nat 3).Run thrown.1 thrown.2 ∧ (machine Nat 3).Run shared.1 shared.2
      ∧ thrown.2.confirmed.txs = [⟨['a'], 5, [some 7]⟩] ∧ thrown.2.store = ⟨some ⟨['a'], 5⟩, []⟩
      ∧ shared.2.confirmed.txs = [⟨['b'], 6, [some 8]⟩, ⟨['c'], 6, [none, some 9]⟩]
      ∧ shared.2.store = ⟨some ⟨['b'], 6⟩, [⟨['b'], 8⟩]⟩ := by
  have hinit : (machine Nat 3).Run [] unstarted := .init rfl
  exact ⟨hinit.play _, hinit.play _, by decide +kernel⟩

/-- Two transactions of one slot, a restart, and one of a later slot. -/
def followed : List (Event (Indexer Nat) (Input Nat) Unit) × Indexer Nat :=
  (machine Nat 3).play [] unstarted
    [.confirm ⟨['d'], 4, [some 1, none]⟩, .confirm ⟨['e'], 4, [some 2]⟩, .attempt (attemptWith .completes), .restart,
      .confirm ⟨['f'], 8, [some 3]⟩]

/-- Three transactions, with a restart before the last one, are stored once each and in order. -/
theorem stored_exactly_followed : (machine Nat 3).Run followed.1 followed.2
    ∧ Machine.Always (fun _ => Exact 3) followed.1
    ∧ (followed.2.catchup 3 (attemptWith .completes)).store.effects = [⟨['d'], 1⟩, ⟨['e'], 2⟩, ⟨['f'], 3⟩] := by
  have r : (machine Nat 3).Run followed.1 followed.2 := Machine.Run.play (.init rfl) _
  obtain ⟨_, halways, hall⟩ := stored_exactly_iff r
  have hsucceeds : Succeeds (attemptWith .completes) :=
    ⟨by simp [attemptWith], fun _ => rfl, fun _ _ => rfl, rfl, rfl⟩
  have hexact := halways.mpr <| forall_mem_cons.mpr ⟨by unfold Orderly; decide +kernel, forall_mem_cons.mpr ⟨trivial,
    forall_mem_cons.mpr ⟨hsucceeds.orderly, forall_mem_cons.mpr ⟨by unfold Orderly; decide +kernel,
      forall_mem_singleton.mpr (by unfold Orderly; decide +kernel)⟩⟩⟩⟩
  have hlast : Exact 3 followed.2 := by
    refine r.of_always ?_ hexact
    rintro s rfl
    exact ⟨rfl, rfl⟩
  refine ⟨r, hexact, (hall hlast _ hsucceeds).1.trans ?_⟩
  decide +kernel

end Losing

end Indexer
end Leviathan.Website
