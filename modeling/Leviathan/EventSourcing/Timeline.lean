import Leviathan.Lib.Sorting
import Leviathan.EventSourcing.Files

/-!
# The cluster timeline

`ClusterTimeline` of `shared/event-sourcing/src/timeline.rs`. `from_events_dir` reads a directory of events, `refresh` what has
come since. Both go through the files in the order in which the directory lists them, which is a parameter, and remember
for each file how far they have read and when the file was last modified. The projection and its checkpoints are
not in it (`IndexedTimeline` has them), and the caches of the timeline are left out.
-/

namespace Leviathan
open List

namespace TimelineEntry
variable {fmt : EventFormat}

/-- Entries in the order of their timestamps. -/
def Sorted (entries : List (TimelineEntry fmt)) : Prop := entries.Pairwise fun a b => a.timestamp ≤ b.timestamp

/-- Rust `sort_by_key(|e| e.timestamp())`, which is stable. -/
def sortByTimestamp (entries : List (TimelineEntry fmt)) : List (TimelineEntry fmt) :=
  entries.mergeSort fun a b => decide (a.timestamp ≤ b.timestamp)

lemma sortByTimestamp_perm (entries : List (TimelineEntry fmt)) : (sortByTimestamp entries).Perm entries :=
  mergeSort_perm _ _

lemma sorted_sortByTimestamp (entries : List (TimelineEntry fmt)) : Sorted (sortByTimestamp entries) :=
  pairwise_mergeSort_key _ entries

lemma Sorted.append {l l' : List (TimelineEntry fmt)} (h : Sorted l) (h' : Sorted l')
    (hle : ∀ a ∈ l.getLast?, ∀ b ∈ l'.head?, a.timestamp ≤ b.timestamp) : Sorted (l ++ l') := by
  refine pairwise_append.mpr ⟨h, h', ?_⟩
  intro a ha b hb
  obtain ⟨l1, x, rfl⟩ := (eq_nil_or_concat' l).resolve_left (ne_nil_of_mem ha)
  obtain ⟨y, l2, rfl⟩ := exists_cons_of_ne_nil (ne_nil_of_mem hb)
  have hxy : x.timestamp ≤ y.timestamp := hle x (by simp) y (by simp)
  have hax : a.timestamp ≤ x.timestamp := by
    obtain ha | ha := mem_append.mp ha
    · exact (pairwise_append.mp h).2.2 a ha x (by simp)
    · rw [mem_singleton.mp ha]
  have hyb : y.timestamp ≤ b.timestamp := by
    obtain rfl | hb := mem_cons.mp hb
    · exact le_rfl
    · exact (pairwise_cons.mp h').1 b hb
  exact hax.trans (hxy.trans hyb)

end TimelineEntry

/-- Rust `ClusterTimeline` with its `LiveSource`; each file has the position it is read to and its last time. -/
structure ClusterTimeline (fmt : EventFormat) where
  entries : List (TimelineEntry fmt)
  filePositions : Accounts EventPath (Nat × Nat)

namespace ClusterTimeline
variable {fmt : EventFormat}

/-- What has been found in the files so far. -/
structure Scan (fmt : EventFormat) where
  entries : List (TimelineEntry fmt)
  positions : Accounts EventPath (Nat × Nat)

/-- The loops over the files that a directory lists; a file that is not read is passed over. -/
def collect (read : EventPath → Option (List (TimelineEntry fmt) × (Nat × Nat))) (listing : List EventPath) : Scan fmt :=
  listing.foldl (fun acc path =>
    match read path with
    | none => acc
    | some (entries, position) => ⟨acc.entries ++ entries, acc.positions.insert path position⟩) ⟨[], ∅⟩

/-- A whole file, as `from_events_dir_with_progress` reads it. -/
def readAll (fmt : EventFormat) (dir : Accounts EventPath EventFile) (path : EventPath) :
    Option (List (TimelineEntry fmt) × (Nat × Nat)) :=
  (dir.lookup path).map fun file => ((fmt.readFile path file.data).1, ((fmt.readFile path file.data).2, file.mtime))

/-- Rust `from_events_dir_with_progress`. -/
def fromEventsDir (fmt : EventFormat) (dir : Accounts EventPath EventFile) (listing : List EventPath) : ClusterTimeline fmt :=
  let scanned := collect (readAll fmt dir) listing
  ⟨TimelineEntry.sortByTimestamp scanned.entries, scanned.positions⟩

/-- The new bytes of a file, as `refresh` reads them; a file whose time has not changed is skipped. -/
def readNew (fmt : EventFormat) (currentPositions : Accounts EventPath (Nat × Nat)) (dir : Accounts EventPath EventFile)
    (path : EventPath) :
    Option (List (TimelineEntry fmt) × (Nat × Nat)) :=
  match dir.lookup path with
  | none => none
  | some file =>
    let startPos := ((currentPositions.lookup path).map Prod.fst).getD 0
    let newData := file.data.drop startPos
    if (currentPositions.lookup path).map Prod.snd = some file.mtime then none
    else some ((fmt.readFile path newData).1, (startPos + (fmt.readFile path newData).2, file.mtime))

/-- Rust `refresh`, and whether it has found anything. -/
def refresh (t : ClusterTimeline fmt) (dir : Accounts EventPath EventFile) (listing : List EventPath) :
    ClusterTimeline fmt × Bool :=
  let scanned := collect (readNew fmt t.filePositions dir) listing
  let filePositions := scanned.positions ∪ t.filePositions
  if scanned.entries.isEmpty then (⟨t.entries, filePositions⟩, false)
  else
    let newEntries := TimelineEntry.sortByTimestamp scanned.entries
    let newestExisting := (t.entries.getLast?.map TimelineEntry.timestamp).getD 0
    if (newEntries.head?.map TimelineEntry.timestamp).getD 0 < newestExisting then
      (⟨TimelineEntry.sortByTimestamp (t.entries ++ newEntries), filePositions⟩, true)
    else (⟨t.entries ++ newEntries, filePositions⟩, true)

section Collect
variable {read : EventPath → Option (List (TimelineEntry fmt) × (Nat × Nat))}

lemma collect_entries (listing : List EventPath) :
    (collect read listing).entries = listing.flatMap fun path => ((read path).map Prod.fst).getD [] := by
  induction listing using List.reverseRecOn with
  | nil => rfl
  | append_singleton listing path ih =>
    have hstep : (collect read (listing ++ [path])).entries
        = (collect read listing).entries ++ ((read path).map Prod.fst).getD [] := by
      simp only [collect, foldl_append, foldl_cons, foldl_nil]
      cases read path with
      | none => simp
      | some r => rfl
    rw [hstep, ih]
    simp

lemma lookup_collect (listing : List EventPath) (path : EventPath) :
    (collect read listing).positions.lookup path = if path ∈ listing then (read path).map Prod.snd else none := by
  induction listing using List.reverseRecOn with
  | nil => rfl
  | append_singleton listing last ih =>
    simp only [collect, foldl_append, foldl_cons, foldl_nil] at ih ⊢
    by_cases he : path = last
    · subst he
      cases hr : read path with
      | none => simp [hr, ih]
      | some r => simp [AList.lookup_insert]
    · cases hr : read last with
      | none => simp [ih, he]
      | some r => simp [AList.lookup_insert_ne he, ih, he]

end Collect

lemma fromEventsDir_perm (dir : Accounts EventPath EventFile) (listing : List EventPath) :
    (fromEventsDir fmt dir listing).entries.Perm
      (listing.flatMap fun path => ((readAll fmt dir path).map Prod.fst).getD []) := by
  refine (TimelineEntry.sortByTimestamp_perm _).trans (List.Perm.of_eq ?_)
  exact collect_entries listing

lemma refresh_perm (t : ClusterTimeline fmt) (dir : Accounts EventPath EventFile) (listing : List EventPath) :
    (t.refresh dir listing).1.entries.Perm
      (t.entries ++ listing.flatMap fun path => ((readNew fmt t.filePositions dir path).map Prod.fst).getD []) := by
  rw [← collect_entries listing]
  dsimp only [refresh]
  split
  case isTrue hempty =>
    rw [isEmpty_iff.mp hempty, append_nil]
  case isFalse =>
    have hnew := (TimelineEntry.sortByTimestamp_perm (collect (readNew fmt t.filePositions dir) listing).entries).append_left
      t.entries
    split
    · exact (TimelineEntry.sortByTimestamp_perm _).trans hnew
    · exact hnew

lemma sorted_refresh {t : ClusterTimeline fmt} (h : TimelineEntry.Sorted t.entries)
    (dir : Accounts EventPath EventFile) (listing : List EventPath) :
    TimelineEntry.Sorted (t.refresh dir listing).1.entries := by
  dsimp only [refresh]
  split
  · exact h
  · split
    · exact TimelineEntry.sorted_sortByTimestamp _
    case isFalse hle =>
      refine h.append (TimelineEntry.sorted_sortByTimestamp _) ?_
      intro a ha b hb
      rw [Option.mem_def.mp ha, Option.mem_def.mp hb] at hle
      exact not_lt.mp hle

lemma lookup_refresh (t : ClusterTimeline fmt) (dir : Accounts EventPath EventFile) (listing : List EventPath)
    (path : EventPath) :
    (t.refresh dir listing).1.filePositions.lookup path
      = (if path ∈ listing then (readNew fmt t.filePositions dir path).map Prod.snd else none).or
          (t.filePositions.lookup path) := by
  have hpos : (t.refresh dir listing).1.filePositions
      = (collect (readNew fmt t.filePositions dir) listing).positions ∪ t.filePositions := by
    dsimp only [refresh]
    split
    · rfl
    · split <;> rfl
  have hlookup := @lookup_collect _ (readNew fmt t.filePositions dir) listing path
  rw [hpos]
  cases hc : (collect (readNew fmt t.filePositions dir) listing).positions.lookup path with
  | none =>
    rw [AList.lookup_union_right (AList.lookup_eq_none.mp hc), ← hlookup, hc, Option.none_or]
  | some position =>
    rw [AList.lookup_union_left (AList.lookup_isSome.mp (by simp [hc])), hc, ← hlookup, hc, Option.some_or]

end ClusterTimeline

end Leviathan
