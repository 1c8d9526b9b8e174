import Leviathan.EventSourcing.Projection
import Leviathan.EventSourcing.Timeline
import Leviathan.Lib.Checkpoints

/-!
# Scrubbing through a timeline

A timeline keeps the projection after all of its entries, and a copy of the projection before every five thousandth one,
so that the cluster can be shown as it was after any entry (`snapshot_at` of `shared/event-sourcing/src/timeline.rs`). A
refresh appends what is new. If some of it is older than the last entry, it is merged in, and the projection starts
again from the last copy before the first place that changes. `IndexedTimeline` is the timeline with its projections;
without them it is the one of `ClusterTimeline` (`toClusterTimeline_refresh`).

An empty snapshot has the time at which it is made, which the first entry replaces (`applyEntry_new`).
-/

namespace Leviathan
open List

def checkpointInterval : Nat := 5000

/-- Rust `ClusterTimeline`, with its checkpoints and its tail projection. -/
structure IndexedTimeline (K : ClusterDecoder) extends ClusterTimeline K.format where
  checkpoints : List (Nat × ClusterSnapshot)
  tailProjection : ClusterSnapshot

namespace IndexedTimeline
variable {K : ClusterDecoder}

def extendCheckpoints (t : IndexedTimeline K) (startIdx : Nat) : IndexedTimeline K :=
  let (checkpoints, tailProjection) := Leviathan.extendCheckpoints ClusterSnapshot.applyEntry checkpointInterval startIdx
    (t.entries.drop startIdx) (t.checkpoints, t.tailProjection)
  { t with checkpoints, tailProjection }

/-- Rust `rebuild_checkpoints_with_progress`. -/
def rebuildCheckpoints (t : IndexedTimeline K) (now : Int) : IndexedTimeline K :=
  { t with checkpoints := [], tailProjection := .new now }.extendCheckpoints 0

/-- Rust `from_events_dir_with_progress`. -/
def fromEventsDir (K : ClusterDecoder) (now : Int) (dir : Accounts EventPath EventFile) (listing : List EventPath) :
    IndexedTimeline K :=
  { ClusterTimeline.fromEventsDir K.format dir listing with
    checkpoints := []
    tailProjection := .new now : IndexedTimeline K }.rebuildCheckpoints now

/-- The number of leading entries before a time (Rust `partition_point`, of sorted entries). -/
def partitionPoint (entries : List (TimelineEntry K.format)) (time : Int) : Nat :=
  (entries.takeWhile fun e => e.timestamp < time).length

/-- Rust `refresh`, and whether it has found anything. -/
def refresh (now : Int) (t : IndexedTimeline K) (dir : Accounts EventPath EventFile) (listing : List EventPath) :
    IndexedTimeline K × Bool :=
  let scanned := ClusterTimeline.collect (ClusterTimeline.readNew K.format t.filePositions dir) listing
  let filePositions := scanned.positions ∪ t.filePositions
  if scanned.entries.isEmpty then ({ t with filePositions }, false)
  else
    let newEntries := TimelineEntry.sortByTimestamp scanned.entries
    let newestExisting := (t.entries.getLast?.map TimelineEntry.timestamp).getD 0
    let earliestNewTs := (newEntries.head?.map TimelineEntry.timestamp).getD 0
    if earliestNewTs < newestExisting then
      let mergePoint := partitionPoint t.entries earliestNewTs
      let ((replayStart, baseSnapshot), checkpoints) := rollBack t.checkpoints mergePoint (.new now)
      let entries := TimelineEntry.sortByTimestamp (t.entries ++ newEntries)
      (extendCheckpoints ⟨⟨entries, filePositions⟩, checkpoints, baseSnapshot⟩ replayStart, true)
    else
      (extendCheckpoints ⟨⟨t.entries ++ newEntries, filePositions⟩, t.checkpoints, t.tailProjection⟩ t.entries.length, true)

def snapshotAt (now : Int) (t : IndexedTimeline K) (idx : Nat) : ClusterSnapshot :=
  if t.entries.isEmpty then .new now
  else
    let idx := min idx (t.entries.length - 1)
    let (startIdx, baseSnapshot) := nearestCheckpoint t.checkpoints idx (.new now)
    ((t.entries.take (idx + 1)).drop startIdx).foldl ClusterSnapshot.applyEntry baseSnapshot

/-- A timeline that has been loaded, and refreshed any number of times. -/
inductive Loaded : IndexedTimeline K → Prop where
  | load {now dir listing} :
    Loaded (fromEventsDir K now dir listing)
  | refresh {t now dir listing} :
    Loaded t →
    Loaded (t.refresh now dir listing).1

section Indexed
variable {t : IndexedTimeline K} {now : Int}

def Empty (s : ClusterSnapshot) : Prop := ∃ now, s = .new now

lemma applyEntry_new (now now' : Int) (entry : TimelineEntry K.format) :
    (ClusterSnapshot.new now).applyEntry entry = (ClusterSnapshot.new now').applyEntry entry := by
  cases entry with
  | node _ nodeId event => rfl
  | coordinator _ state => rfl

def Projected (t : IndexedTimeline K) : Prop :=
  Checkpointed ClusterSnapshot.applyEntry Empty t.entries t.checkpoints t.tailProjection

lemma toClusterTimeline_refresh (t : IndexedTimeline K) (dir : Accounts EventPath EventFile) (listing : List EventPath) :
    (t.refresh now dir listing).1.toClusterTimeline = (t.toClusterTimeline.refresh dir listing).1 := by
  dsimp only [refresh, ClusterTimeline.refresh]
  split
  · rfl
  · split <;> rfl

lemma projected_extendCheckpoints {startIdx : Nat}
    (hgood : ∀ c ∈ t.checkpoints, GoodCheckpoint ClusterSnapshot.applyEntry Empty t.entries c)
    (hbase : GoodCheckpoint ClusterSnapshot.applyEntry Empty t.entries (startIdx, t.tailProjection)) :
    Projected (t.extendCheckpoints startIdx) := by
  have hlen : (t.entries.take startIdx).length = startIdx := length_take_of_le hbase.1
  have hsplit := take_append_drop startIdx t.entries
  have h : Checkpointed ClusterSnapshot.applyEntry Empty (t.entries.take startIdx ++ t.entries.drop startIdx)
      (t.extendCheckpoints startIdx).checkpoints (t.extendCheckpoints startIdx).tailProjection :=
    .extend hlen (hsplit.symm ▸ hgood) hbase.2
  rwa [hsplit] at h

lemma projected_fromEventsDir (now : Int) (dir : Accounts EventPath EventFile) (listing : List EventPath) :
    Projected (fromEventsDir K now dir listing) := by
  rw [fromEventsDir, rebuildCheckpoints]
  refine projected_extendCheckpoints ?_ ?_
  · rintro _ ⟨⟩
  · exact ⟨Nat.zero_le _, .nil ⟨now, rfl⟩⟩

lemma head_le_of_mem {entries : List (TimelineEntry K.format)} (h : TimelineEntry.Sorted entries) :
    ∀ e ∈ entries, (entries.head?.map TimelineEntry.timestamp).getD 0 ≤ e.timestamp := by
  intro e he
  obtain ⟨first, rest, rfl⟩ := exists_cons_of_ne_nil (ne_nil_of_mem he)
  obtain rfl | he := mem_cons.mp he
  · exact le_rfl
  · exact (pairwise_cons.mp h).1 e he

lemma projected_refresh (hsorted : TimelineEntry.Sorted t.entries) (h : Projected t) (dir : Accounts EventPath EventFile)
    (listing : List EventPath) : Projected (t.refresh now dir listing).1 := by
  dsimp only [refresh]
  generalize ClusterTimeline.collect (ClusterTimeline.readNew K.format t.filePositions dir) listing = scanned
  split
  · exact h
  · split
    · -- the entries before the merge point stay where they are
      have hnew := head_le_of_mem (TimelineEntry.sorted_sortByTimestamp scanned.entries)
      generalize (((TimelineEntry.sortByTimestamp scanned.entries).head?.map TimelineEntry.timestamp).getD 0) = time at *
      have htake : (TimelineEntry.sortByTimestamp (t.entries ++ TimelineEntry.sortByTimestamp scanned.entries)).take
          (partitionPoint t.entries time) = t.entries.take (partitionPoint t.entries time) :=
        take_mergeSort hsorted hnew
      have hle : partitionPoint t.entries time
          ≤ (TimelineEntry.sortByTimestamp (t.entries ++ TimelineEntry.sortByTimestamp scanned.entries)).length := by
        rw [(TimelineEntry.sortByTimestamp_perm _).length_eq, length_append]
        exact (takeWhile_sublist _).length_le.trans (Nat.le_add_right _ _)
      obtain ⟨hgood, hbase⟩ := h.rollBack ⟨now, rfl⟩ hle htake
      exact projected_extendCheckpoints hgood hbase
    · -- all entries stay where they are
      have hgood : ∀ c, GoodCheckpoint ClusterSnapshot.applyEntry Empty t.entries c →
          GoodCheckpoint ClusterSnapshot.applyEntry Empty (t.entries ++ TimelineEntry.sortByTimestamp scanned.entries) c :=
        fun c hc => hc.of_take hc.1 (by simp) (by simp)
      refine projected_extendCheckpoints (fun c hc => hgood c (h.good c hc)) (hgood _ ⟨Nat.le_refl _, ?_⟩)
      rw [take_length]
      exact h.tail

lemma Loaded.projected (h : Loaded t) : TimelineEntry.Sorted t.entries ∧ Projected t := by
  induction h with
  | load => exact ⟨TimelineEntry.sorted_sortByTimestamp _, projected_fromEventsDir _ _ _⟩
  | @refresh t now dir listing _ ih =>
    refine ⟨?_, projected_refresh ih.1 ih.2 dir listing⟩
    rw [toClusterTimeline_refresh]
    exact ClusterTimeline.sorted_refresh ih.1 dir listing

/-- Scrubbing equals replay. Of every timeline that has been loaded from a directory and refreshed any number of times, the
snapshot at an index is what the entries up to it make of an empty snapshot, and the tail projection what all entries make
of one, whenever the empty snapshots were made, if there is an entry. -/
theorem scrubbing_equals_replay (h : Loaded t) :
    (∀ i < t.entries.length, ∀ now init, t.snapshotAt now i = ClusterSnapshot.replay init (t.entries.take (i + 1)))
      ∧ (∃ init, t.tailProjection = ClusterSnapshot.replay init t.entries)
      ∧ (t.entries ≠ [] → ∀ init, t.tailProjection = ClusterSnapshot.replay init t.entries) := by
  obtain ⟨_, hproj⟩ := h.projected
  have hnew : ∀ s s', Empty s → Empty s' → ∀ entry : TimelineEntry K.format, s.applyEntry entry = s'.applyEntry entry := by
    rintro _ _ ⟨now, rfl⟩ ⟨now', rfl⟩ entry
    exact applyEntry_new now now' entry
  refine ⟨fun i hi now init => ?_, ?_, fun hne init => hproj.tail.eq_foldl hnew hne ⟨init, rfl⟩⟩
  · have hne : t.entries ≠ [] := ne_nil_of_length_pos (Nat.zero_lt_of_lt hi)
    have hmin : min i (t.entries.length - 1) = i := by omega
    rw [snapshotAt, if_neg (by simpa using hne), hmin]
    have htake : t.entries.take (i + 1) ≠ [] := by
      simpa using hne
    exact (hproj.nearest ⟨now, rfl⟩).eq_foldl hnew htake ⟨init, rfl⟩
  · obtain ⟨_, ⟨init, rfl⟩, htail⟩ := hproj.tail
    exact ⟨init, htail.symm⟩

end Indexed

section Merged

/-- Nodes that have loaded their models. -/
def modelLoadedDecoder : ClusterDecoder where
  numMilliseconds := (Int.tdiv · 1000000)
  fromBytesCobs frame :=
    (decodeModelLoaded frame).map fun second => ⟨(1767225600 + second) * 10 ^ 9, .warmup .modelLoadComplete⟩
  coordRecordSize := 1
  coordRecordSize_pos := Nat.one_pos
  decodeRecord _ := (0, ⟨0, .warmup, 2, 0, .ephemeral, [], 4, ∅⟩)

def eventsFile : EventPath := ⟨"peer".toList, "epoch_1.postcard".toList⟩

def eventsDir (data : Bytes) (mtime : Nat) : Accounts EventPath EventFile :=
  (∅ : Accounts EventPath EventFile).insert eventsFile ⟨data, mtime⟩

def single : IndexedTimeline modelLoadedDecoder := fromEventsDir modelLoadedDecoder 100 (eventsDir (modelLoadedFrame 9) 1) [eventsFile]

/-- An older event has come since. -/
def merged : IndexedTimeline modelLoadedDecoder := (single.refresh 200 (eventsDir (modelLoadedFrame 9 ++ modelLoadedFrame 7) 2) [eventsFile]).1

/-- At both positions of a timeline of two events the snapshot is that of a replay. -/
theorem scrubbing_equals_replay_merged : merged.entries.length = 2
    ∧ ∀ i < 2, ∀ now init, merged.snapshotAt now i = ClusterSnapshot.replay init (merged.entries.take (i + 1)) := by
  have hlen : merged.entries.length = 2 := by
    rw [merged, toClusterTimeline_refresh, (ClusterTimeline.refresh_perm _ _ _).length_eq]
    decide +kernel
  have hloaded : Loaded merged := .refresh .load
  exact ⟨hlen, fun i hi => (scrubbing_equals_replay hloaded).1 i (by rwa [hlen])⟩

end Merged

end IndexedTimeline
end Leviathan
