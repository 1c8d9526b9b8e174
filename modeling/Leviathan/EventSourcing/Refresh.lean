import Leviathan.EventSourcing.Timeline
import Leviathan.Lib.Run

/-!
# Following a directory of events

A timeline is loaded from a directory of events, and refreshed while the files grow. Each growth changes the time of the
file. `Known` says what a timeline knows of a file: there are contents of an earlier time, its entries are those of a
load at that time, and its position is where that load was done. A refresh makes them the contents of now, if the reader
of the file can go on (`Known.readNew`). It cannot where the earlier contents end inside a frame, of which the reader of
frames is done with what there is.
-/

namespace Leviathan
open List

/-- An events directory and a timeline that follows it. -/
structure LiveTimeline (fmt : EventFormat) where
  files : Accounts EventPath EventFile
  timeline : ClusterTimeline fmt

/-- A file grows or appears, or the timeline is refreshed from the files that can be read. -/
inductive LiveInput where
  | append (path : EventPath) (bytes : Bytes) (mtime : Nat)
  | refresh (listing : List EventPath)

/-- What cannot happen: a file grows and keeps its time, or a file is listed twice or without being there. -/
inductive LiveError where
  | sameTime
  | wrongListing

namespace LiveTimeline
variable {fmt : EventFormat}

def append (s : LiveTimeline fmt) (path : EventPath) (bytes : Bytes) (mtime : Nat) :
    Except LiveError (LiveTimeline fmt) :=
  match s.files.lookup path with
  | none => .ok { s with files := s.files.insert path ⟨bytes, mtime⟩ }
  | some file =>
    if file.mtime = mtime then .error .sameTime
    else .ok { s with files := s.files.insert path ⟨file.data ++ bytes, mtime⟩ }

/-- One input, and whether a refresh has found anything. -/
def next (s : LiveTimeline fmt) : LiveInput → Except LiveError (LiveTimeline fmt × Bool)
  | .append path bytes mtime => (s.append path bytes mtime).map fun s' => (s', false)
  | .refresh listing =>
    if listing.Nodup ∧ ∀ path ∈ listing, path ∈ s.files.keys then
      .ok ({ s with timeline := (s.timeline.refresh s.files listing).1 }, (s.timeline.refresh s.files listing).2)
    else .error .wrongListing

/-- The timeline is loaded from the files that are there, and then follows them. -/
def machine (fmt : EventFormat) : Machine (LiveTimeline fmt) LiveInput Bool LiveError where
  init s := ∃ listing, listing.Perm s.files.keys ∧ s.timeline = .fromEventsDir fmt s.files listing
  step := next

/-- The timeline is sorted and holds what a load would find. -/
def UpToDate (s : LiveTimeline fmt) : Prop :=
  TimelineEntry.Sorted s.timeline.entries
    ∧ ∀ listing : List EventPath, listing.Perm s.files.keys →
        s.timeline.entries.Perm (ClusterTimeline.fromEventsDir fmt s.files listing).entries

/-- A file that grows has not been read into the middle of a frame, and does not get back the time it had when it was
read. -/
def Safe (s : LiveTimeline fmt) : LiveInput → Prop
  | .append path _ mtime =>
    match s.files.lookup path, s.timeline.filePositions.lookup path with
    | some file, some (pos, cachedMtime) => EventFormat.Uncut path (file.data.take pos) ∧ cachedMtime ≠ mtime
    | _, _ => True
  | .refresh _ => True

instance (s : LiveTimeline fmt) (i : LiveInput) : Decidable (s.Safe i) := by
  unfold Safe
  split
  · split <;> infer_instance
  · infer_instance

lemma flatMap_perm_of_listed {κ ε : Type} [DecidableEq κ] {keys listing : List κ} {f g new : κ → List ε}
    (hkeys : keys.Nodup) (hlisting : listing.Nodup) (hsub : ∀ k ∈ listing, k ∈ keys)
    (hin : ∀ k ∈ listing, f k = g k ++ new k) (hout : ∀ k, k ∉ listing → f k = g k) :
    (keys.flatMap g ++ listing.flatMap new).Perm (keys.flatMap f) := by
  have hlisted : (keys.filter (· ∈ listing)).Perm listing := by
    refine (perm_ext_iff_of_nodup (hkeys.filter _) hlisting).mpr fun k => ?_
    simpa using hsub k
  generalize hrest : keys.filter (fun k => !decide (k ∈ listing)) = rest
  have hall : ∀ h : κ → List ε, (listing.flatMap h ++ rest.flatMap h).Perm (keys.flatMap h) := by
    intro h
    rw [← flatMap_append, ← hrest]
    exact ((hlisted.symm.append_right _).trans (filter_append_perm _ keys)).flatMap_right h
  have hsame : rest.flatMap f = rest.flatMap g := by
    refine flatMap_congr fun k hk => hout k ?_
    rw [← hrest] at hk
    simpa using (mem_filter.mp hk).2
  have hgrown : (listing.flatMap g ++ listing.flatMap new).Perm (listing.flatMap f) := by
    rw [flatMap_congr hin]
    exact flatMap_append_perm listing g new
  refine ((hall g).symm.append_right _).trans (.trans ?_ (hall f))
  rw [hsame]
  refine .trans ?_ (hgrown.append_right _)
  rw [append_assoc, append_assoc]
  exact perm_append_comm.append_left _

section Known
variable {path : EventPath} {file : EventFile} {last : Bytes} {position : Option (Nat × Nat)}

/-- What a position says of a file: what has been read is what a load found when the file was `last`. -/
inductive Known (fmt : EventFormat) (path : EventPath) (file : EventFile) (last : Bytes) : Option (Nat × Nat) → Prop where
  | unread :
    last = [] →
    Known fmt path file last none
  | read {mtime} :
    last <+: file.data →
    (mtime = file.mtime → last = file.data) →
    (mtime ≠ file.mtime → Resumes (fmt.readFile path) last) →
    Known fmt path file last (some ((fmt.readFile path last).2, mtime))

lemma Known.readNew {positions : Accounts EventPath (Nat × Nat)} {files : Accounts EventPath EventFile}
    (h : Known fmt path file last (positions.lookup path)) (hfile : files.lookup path = some file) :
    (fmt.readFile path file.data).1
        = (fmt.readFile path last).1 ++ ((ClusterTimeline.readNew fmt positions files path).map Prod.fst).getD []
      ∧ Known fmt path file file.data
          (((ClusterTimeline.readNew fmt positions files path).map Prod.snd).or (positions.lookup path)) := by
  unfold ClusterTimeline.readNew
  rw [hfile]
  dsimp only
  generalize positions.lookup path = position at h
  cases h with
  | unread hnil =>
    subst hnil
    simp only [Option.map_none, Option.getD_none, drop_zero, reduceCtorEq, if_false, Option.map_some,
      Option.getD_some, fmt.readFile_nil, nil_append, Option.some_or, Nat.zero_add, true_and]
    exact .read prefix_rfl (fun _ => rfl) (fun hne => absurd rfl hne)
  | @read mtime hpre hsame hdiff =>
    by_cases hm : mtime = file.mtime
    · -- the file is skipped: nothing has come since
      rw [if_pos (by simp [hm]), ← hsame hm]
      simp only [Option.map_none, Option.getD_none, append_nil, Option.none_or, true_and]
      exact .read (hsame hm ▸ hpre) (fun _ => hsame hm) hdiff
    · rw [if_neg (by simpa using hm)]
      obtain ⟨t, ht⟩ := hpre
      have hres := hdiff hm t
      rw [ht] at hres
      have hdrop : file.data.drop (fmt.readFile path last).2 = last.drop (fmt.readFile path last).2 ++ t := by
        rw [← ht, drop_append_of_le_length (fmt.readFile_le path last)]
      simp only [Option.map_some, Option.getD_some, Option.some_or, hdrop]
      obtain ⟨hentries, hcursor⟩ := Prod.ext_iff.mp hres
      dsimp only at hcursor
      rw [← hcursor]
      exact ⟨hentries, .read prefix_rfl (fun _ => rfl) (fun hne => absurd rfl hne)⟩

lemma Known.append {bytes : Bytes} {mtime : Nat} (h : Known fmt path file last position)
    (hsafe : ∀ pos cachedMtime, position = some (pos, cachedMtime) →
      EventFormat.Uncut path (file.data.take pos) ∧ cachedMtime ≠ mtime) :
    Known fmt path ⟨file.data ++ bytes, mtime⟩ last position := by
  cases h with
  | unread hnil => exact .unread hnil
  | read hpre hsame hdiff =>
    obtain ⟨huncut, hne⟩ := hsafe _ _ rfl
    refine .read (hpre.trans (prefix_append _ _)) (fun he => absurd he hne) fun _ => ?_
    refine EventFormat.Uncut.resumes fmt ?_
    cases hp : path.isCoord with
    | true => exact .inl hp
    | false =>
      rw [fmt.readFile_node hp, ← prefix_iff_eq_take.mp hpre] at huncut
      exact huncut

end Known

/-- What a file of the directory holds. -/
def contents (files : Accounts EventPath EventFile) (path : EventPath) : Bytes :=
  ((files.lookup path).map EventFile.data).getD []

lemma contents_of_lookup {files : Accounts EventPath EventFile} {path : EventPath} {file : EventFile}
    (h : files.lookup path = some file) : contents files path = file.data := by
  rw [contents, h]
  rfl

lemma readAll_eq (files : Accounts EventPath EventFile) (path : EventPath) :
    ((ClusterTimeline.readAll fmt files path).map Prod.fst).getD [] = (fmt.readFile path (contents files path)).1 := by
  unfold ClusterTimeline.readAll contents
  cases files.lookup path with
  | none => exact (congrArg Prod.fst (fmt.readFile_nil path)).symm
  | some file => rfl

/-- The timeline is that of a load when the files were `last`. -/
structure Tracked (last : EventPath → Bytes) (s : LiveTimeline fmt) : Prop where
  sorted : TimelineEntry.Sorted s.timeline.entries
  entries : s.timeline.entries.Perm (s.files.keys.flatMap fun path => (fmt.readFile path (last path)).1)
  known : ∀ path file, s.files.lookup path = some file →
    Known fmt path file (last path) (s.timeline.filePositions.lookup path)
  absent : ∀ path, s.files.lookup path = none → s.timeline.filePositions.lookup path = none ∧ last path = []

section Tracked
variable {s : LiveTimeline fmt} {last : EventPath → Bytes} {listing : List EventPath}

lemma Tracked.load (h : listing.Perm s.files.keys) (ht : s.timeline = .fromEventsDir fmt s.files listing) :
    Tracked (contents s.files) s := by
  have hlookup : ∀ path, s.timeline.filePositions.lookup path
      = if path ∈ listing then (ClusterTimeline.readAll fmt s.files path).map Prod.snd else none := by
    intro path
    rw [ht]
    exact ClusterTimeline.lookup_collect listing path
  constructor
  case sorted =>
    rw [ht]
    exact TimelineEntry.sorted_sortByTimestamp _
  case entries =>
    rw [ht]
    refine (ClusterTimeline.fromEventsDir_perm s.files listing).trans ?_
    simp only [readAll_eq]
    exact h.flatMap_right _
  case known =>
    intro path file hfile
    have hmem : path ∈ listing := h.mem_iff.mpr (AList.mem_keys.mp (AList.lookup_isSome.mp (by simp [hfile])))
    rw [hlookup, if_pos hmem, contents_of_lookup hfile, ClusterTimeline.readAll, hfile]
    exact .read prefix_rfl (fun _ => rfl) (fun hne => absurd rfl hne)
  case absent =>
    intro path hnone
    rw [hlookup, ClusterTimeline.readAll, contents, hnone]
    simp

lemma Tracked.refresh (h : Tracked last s) (hnd : listing.Nodup) (hsub : ∀ path ∈ listing, path ∈ s.files.keys) :
    Tracked (fun path => if path ∈ listing then contents s.files path else last path)
      { s with timeline := (s.timeline.refresh s.files listing).1 } := by
  have hfile : ∀ path ∈ listing, ∃ file, s.files.lookup path = some file := fun path hp =>
    Option.isSome_iff_exists.mp (AList.lookup_isSome.mpr (AList.mem_keys.mpr (hsub path hp)))
  constructor
  case sorted => exact ClusterTimeline.sorted_refresh h.sorted s.files listing
  case entries =>
    refine (ClusterTimeline.refresh_perm s.timeline s.files listing).trans ?_
    refine (h.entries.append_right _).trans (flatMap_perm_of_listed s.files.keys_nodup hnd hsub ?_ ?_)
    · intro path hp
      obtain ⟨file, hlook⟩ := hfile path hp
      rw [if_pos hp, contents_of_lookup hlook]
      exact ((h.known path file hlook).readNew hlook).1
    · intro path hp
      rw [if_neg hp]
  case known =>
    intro path file hlook
    rw [ClusterTimeline.lookup_refresh]
    by_cases hp : path ∈ listing
    · rw [if_pos hp, if_pos hp, contents_of_lookup hlook]
      exact ((h.known path file hlook).readNew hlook).2
    · rw [if_neg hp, if_neg hp, Option.none_or]
      exact h.known path file hlook
  case absent =>
    intro path hnone
    have hp : path ∉ listing := by
      intro hp
      obtain ⟨file, hlook⟩ := hfile path hp
      rw [hnone] at hlook
      cases hlook
    rw [ClusterTimeline.lookup_refresh, if_neg hp, if_neg hp, Option.none_or]
    exact h.absent path hnone

lemma Tracked.write {path : EventPath} {file : EventFile} (h : Tracked last s)
    (hlast : s.files.lookup path = none → last path = [])
    (hknown : Known fmt path file (last path) (s.timeline.filePositions.lookup path)) :
    Tracked last { s with files := s.files.insert path file } := by
  constructor
  case sorted => exact h.sorted
  case entries =>
    refine h.entries.trans ?_
    rw [AList.keys_insert]
    by_cases hmem : path ∈ s.files.keys
    · exact (perm_cons_erase hmem).flatMap_right _
    · rw [erase_of_not_mem hmem, flatMap_cons, hlast (AList.lookup_eq_none.mpr hmem), fmt.readFile_nil, nil_append]
  case known =>
    intro path' file' hlook
    obtain ⟨rfl, rfl⟩ | ⟨_, hlook⟩ := Accounts.lookup_insert_eq_some hlook
    · exact hknown
    · exact h.known path' file' hlook
  case absent =>
    intro path' hnone
    exact h.absent path' (Accounts.lookup_insert_eq_none hnone).2

lemma Tracked.append {s' : LiveTimeline fmt} {path : EventPath} {bytes : Bytes} {mtime : Nat} (h : Tracked last s)
    (hsafe : s.Safe (.append path bytes mtime)) (hs : s.append path bytes mtime = .ok s') : Tracked last s' := by
  unfold LiveTimeline.append at hs
  dsimp only [Safe] at hsafe
  cases hlook : s.files.lookup path with
  | none =>
    rw [hlook] at hs
    cases hs
    obtain ⟨hpos, hlast⟩ := h.absent path hlook
    refine h.write (fun _ => hlast) ?_
    rw [hpos]
    exact .unread hlast
  | some file =>
    rw [hlook] at hs hsafe
    dsimp only at hs
    split at hs
    · cases hs
    · cases hs
      refine h.write (fun hnone => by rw [hlook] at hnone; cases hnone) ((h.known path file hlook).append ?_)
      intro pos cachedMtime hpos
      rw [hpos] at hsafe
      exact hsafe

lemma Tracked.upToDate (h : Tracked last s) (hall : ∀ path ∈ s.files.keys, last path = contents s.files path) :
    s.UpToDate := by
  refine ⟨h.sorted, ?_⟩
  intro listing hlisting
  refine h.entries.trans (.trans ?_ (ClusterTimeline.fromEventsDir_perm s.files listing).symm)
  simp only [readAll_eq]
  refine .trans (List.Perm.of_eq ?_) (hlisting.symm.flatMap_right _)
  exact flatMap_congr fun path hp => by rw [hall path hp]

end Tracked

/-- Along a run in which no file grows that has been read into the middle of a frame, the timeline is always that of a load
at an earlier time. -/
lemma tracked_of_run {tr : List (Event (LiveTimeline fmt) LiveInput Bool)} {s : LiveTimeline fmt}
    (r : (machine fmt).Run tr s) (hsafe : ∀ ev ∈ tr, ev.before.Safe ev.input) : ∃ last, Tracked last s := by
  induction r with
  | init h =>
    obtain ⟨listing, hlisting, ht⟩ := h
    exact ⟨_, .load hlisting ht⟩
  | @accept tr s i s' o _ st ih =>
    obtain ⟨last, ht⟩ := ih fun ev hev => hsafe ev (mem_cons_of_mem _ hev)
    have hi : s.Safe i := hsafe _ mem_cons_self
    cases i with
    | append path bytes mtime =>
      dsimp only [machine, next] at st
      cases hs : s.append path bytes mtime with
      | error e =>
        rw [hs] at st
        cases st
      | ok s1 =>
        rw [hs] at st
        cases st
        exact ⟨last, ht.append hi hs⟩
    | refresh listing =>
      dsimp only [machine, next] at st
      split at st
      case isTrue hl =>
        cases st
        exact ⟨_, ht.refresh hl.1 hl.2⟩
      case isFalse => cases st
  | reject _ _ ih => exact ih hsafe

/-- While no file grows that has been read into the middle of a frame, a refresh that reads every file makes the timeline
the one that a load would give. -/
theorem refresh_loses_nothing {tr : List (Event (LiveTimeline fmt) LiveInput Bool)} {s : LiveTimeline fmt}
    (r : (machine fmt).Run tr s) (hsafe : ∀ ev ∈ tr, ev.before.Safe ev.input)
    {ev : Event (LiveTimeline fmt) LiveInput Bool} (hev : ev ∈ tr) {listing : List EventPath}
    (hi : ev.input = .refresh listing) (hlisting : listing.Perm ev.before.files.keys) : ev.after.UpToDate := by
  obtain ⟨tr1, tr2, rfl⟩ := append_of_mem hev
  obtain ⟨rb, st⟩ := r.split
  obtain ⟨last, ht⟩ := tracked_of_run rb fun ev' hev' => hsafe ev' (by simp [hev'])
  rw [hi] at st
  dsimp only [machine, next] at st
  split at st
  case isTrue hl =>
    obtain ⟨hafter, _⟩ := Prod.mk.inj (Except.ok.inj st)
    rw [← hafter]
    refine (ht.refresh hl.1 hl.2).upToDate fun path hp => ?_
    exact if_pos (hlisting.mem_iff.mpr hp)
  case isFalse => cases st

/-- Nodes that have loaded their models. -/
def modelLoaded : EventFormat where
  Event := Nat
  State := Unit
  timestamp second := (1767225600 + second) * 10 ^ 9
  fromBytesCobs := decodeModelLoaded
  coordRecordSize := 8
  coordRecordSize_pos := Nat.zero_lt_succ 7
  decodeRecord _ := (0, ())

def onlyFile : EventPath := ⟨"node".toList, "epoch_0.postcard".toList⟩

/-- A timeline loaded from a directory with one file. -/
def loaded (data : Bytes) : LiveTimeline modelLoaded :=
  ⟨(∅ : Accounts EventPath EventFile).insert onlyFile ⟨data, 0⟩,
    .fromEventsDir modelLoaded ((∅ : Accounts EventPath EventFile).insert onlyFile ⟨data, 0⟩) [onlyFile]⟩

def grown (data bytes : Bytes) : LiveTimeline modelLoaded :=
  { loaded data with files := (loaded data).files.insert onlyFile ⟨data ++ bytes, 1⟩ }

/-- The timeline has been refreshed since. -/
def refreshed (data bytes : Bytes) : LiveTimeline modelLoaded :=
  { grown data bytes with timeline := ((grown data bytes).timeline.refresh (grown data bytes).files [onlyFile]).1 }

/-- The two steps of this, newest first. -/
def grownSteps (data bytes : Bytes) : List (Event (LiveTimeline modelLoaded) LiveInput Bool) :=
  [⟨grown data bytes, .refresh [onlyFile],
      ((grown data bytes).timeline.refresh (grown data bytes).files [onlyFile]).2, refreshed data bytes⟩,
    ⟨loaded data, .append onlyFile bytes 1, false, grown data bytes⟩]

lemma run_grownSteps (data bytes : Bytes) : (machine modelLoaded).Run (grownSteps data bytes) (refreshed data bytes) :=
  .accept (.accept (.init ⟨[onlyFile], .refl _, rfl⟩) rfl) rfl

/-- Two events that are written in whole frames are both in the timeline. -/
theorem refresh_loses_nothing_whole :
    (∀ ev ∈ grownSteps (modelLoadedFrame 5) (modelLoadedFrame 7), ev.before.Safe ev.input)
      ∧ (refreshed (modelLoadedFrame 5) (modelLoadedFrame 7)).timeline.entries.length = 2
      ∧ (refreshed (modelLoadedFrame 5) (modelLoadedFrame 7)).UpToDate := by
  have hsafe : ∀ ev ∈ grownSteps (modelLoadedFrame 5) (modelLoadedFrame 7), ev.before.Safe ev.input := by
    decide +kernel
  refine ⟨hsafe, by decide +kernel, ?_⟩
  exact refresh_loses_nothing (run_grownSteps _ _) hsafe mem_cons_self rfl (.refl _)

/-- An event that comes in two pieces, with a load between them, is lost. -/
theorem refresh_loses_cut_frame :
    ∃ tr s, (machine modelLoaded).Run tr s ∧ ∃ ev ∈ tr, ∃ listing : List EventPath,
      ev.input = .refresh listing ∧ listing.Perm ev.before.files.keys ∧ ev.after.timeline.entries.length = 0
        ∧ (ClusterTimeline.fromEventsDir modelLoaded ev.after.files listing).entries.length = 1 ∧ ¬ ev.after.UpToDate := by
  have hlost : (refreshed ((modelLoadedFrame 5).take 12) ((modelLoadedFrame 5).drop 12)).timeline.entries.length = 0
      ∧ (ClusterTimeline.fromEventsDir modelLoaded
        (refreshed ((modelLoadedFrame 5).take 12) ((modelLoadedFrame 5).drop 12)).files [onlyFile]).entries.length = 1 := by
    decide +kernel
  refine ⟨_, _, run_grownSteps ((modelLoadedFrame 5).take 12) ((modelLoadedFrame 5).drop 12), _, mem_cons_self,
    [onlyFile], rfl, .refl _, hlost.1, hlost.2, ?_⟩
  intro hup
  have hlen := (hup.2 [onlyFile] (.refl _)).length_eq
  rw [hlost.1, hlost.2] at hlen
  cases hlen

end LiveTimeline
end Leviathan
