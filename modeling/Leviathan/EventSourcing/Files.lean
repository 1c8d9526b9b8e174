import Leviathan.Core.Identity
import Leviathan.Lib.Accounts
import Leviathan.Lib.Frames
import Leviathan.Lib.Text

/-!
# Event files

The readers of `shared/event-sourcing/src/timeline.rs` and the frame decoder of `store.rs`. A directory of events has a
subdirectory for each node, with files of COBS frames, and one with records of the coordinator. How an event or a record
is decoded is a parameter (`EventFormat`).

Both readers return how much of the data they are done with. The one for frames is done with everything, also with a
frame that has only begun (`decodeEvents_eq`), and can go on only where there is none (`Uncut.resumes`).
-/

namespace Leviathan
open List

/-- The formats of event files: `postcard::from_bytes_cobs` on one frame, and a record of the coordinator. -/
structure EventFormat where
  Event : Type
  State : Type
  timestamp : Event → Int
  fromBytesCobs : Bytes → Option Event
  coordRecordSize : Nat
  coordRecordSize_pos : 0 < coordRecordSize
  decodeRecord : Bytes → Int × State

inductive TimelineEntry (fmt : EventFormat) where
  | node (timestamp : Int) (nodeId : Text) (event : fmt.Event)
  | coordinator (timestamp : Int) (state : fmt.State)

namespace TimelineEntry
variable {fmt : EventFormat}

def timestamp : TimelineEntry fmt → Int
  | .node timestamp _ _ => timestamp
  | .coordinator timestamp _ => timestamp

end TimelineEntry

namespace EventFormat
variable (fmt : EventFormat) {data : Bytes} {cursor cursor' : Nat} {event : fmt.Event}

/-- Rust `try_decode_cobs_frame`: the next event at the cursor, and the cursor after it. Frames that cannot be decoded or
are incomplete are passed over. -/
def tryDecodeCobsFrame (data : Bytes) (cursor : Nat) : Option fmt.Event × Nat :=
  if cursor < data.length then
    match (data.drop cursor).findIdx? (fun b => b == 0x00) with
    | none => (none, data.length)
    | some delimiterPos =>
      match fmt.fromBytesCobs ((data.drop cursor).take (delimiterPos + 1)) with
      | some decoded => (some decoded, cursor + (delimiterPos + 1))
      | none => tryDecodeCobsFrame data (cursor + (delimiterPos + 1))
  else (none, cursor)
termination_by data.length - cursor

lemma lt_of_tryDecodeCobsFrame (h : fmt.tryDecodeCobsFrame data cursor = (some event, cursor')) :
    cursor < cursor' := by
  fun_induction tryDecodeCobsFrame fmt data cursor with
  | case1 => cases h
  | case2 =>
    cases h
    omega
  | case3 _ _ _ _ _ ih => exact lt_trans (by omega) (ih h)
  | case4 => cases h

/-- The loop of `from_events_dir_with_progress` and `refresh` over one file of a node. -/
def decodeEvents (data : Bytes) (cursor : Nat) : List fmt.Event × Nat :=
  if cursor < data.length then
    match _h : fmt.tryDecodeCobsFrame data cursor with
    | (some event, cursor') => ((event :: (decodeEvents data cursor').1), (decodeEvents data cursor').2)
    | (none, cursor') => ([], cursor')
  else ([], cursor)
termination_by data.length - cursor
decreasing_by
  all_goals
    have := fmt.lt_of_tryDecodeCobsFrame _h
    omega

/-- The loop of Rust `decode_coordinator_records`. -/
def decodeCoordinatorRecordsFrom (data : Bytes) (offset : Nat) : List (Int × fmt.State) :=
  if offset + fmt.coordRecordSize ≤ data.length then
    fmt.decodeRecord ((data.drop offset).take fmt.coordRecordSize)
      :: decodeCoordinatorRecordsFrom data (offset + fmt.coordRecordSize)
  else []
termination_by data.length - offset
decreasing_by
  have := fmt.coordRecordSize_pos
  omega

def decodeCoordinatorRecords (data : Bytes) : List (Int × fmt.State) := fmt.decodeCoordinatorRecordsFrom data 0

/-- The events of the finished frames of a file. -/
def framed (data : Bytes) : List fmt.Event := (frames 0x00 data).filterMap fmt.fromBytesCobs

lemma framed_of_tryDecodeCobsFrame_some (h : fmt.tryDecodeCobsFrame data cursor = (some event, cursor')) :
    cursor' ≤ data.length ∧ fmt.framed (data.drop cursor) = event :: fmt.framed (data.drop cursor') := by
  fun_induction tryDecodeCobsFrame fmt data cursor with
  | case1 => cases h
  | case2 cursor hlt i hi e he =>
    cases h
    obtain ⟨hilt, hframes⟩ := frames_of_findIdx?_some hi
    rw [length_drop] at hilt
    refine ⟨by omega, ?_⟩
    rw [framed, hframes, filterMap_cons_some he, drop_drop, framed]
  | case3 cursor hlt i hi he ih =>
    obtain ⟨hle, hrest⟩ := ih h
    refine ⟨hle, ?_⟩
    rw [framed, (frames_of_findIdx?_some hi).2, filterMap_cons_none he, drop_drop]
    exact hrest
  | case4 => cases h

lemma framed_of_tryDecodeCobsFrame_none (hle : cursor ≤ data.length)
    (h : fmt.tryDecodeCobsFrame data cursor = (none, cursor')) :
    cursor' = data.length ∧ fmt.framed (data.drop cursor) = [] := by
  fun_induction tryDecodeCobsFrame fmt data cursor with
  | case1 cursor hlt hi =>
    cases h
    refine ⟨rfl, ?_⟩
    rw [framed, frames_of_findIdx?_none hi, filterMap_nil]
  | case2 => cases h
  | case3 cursor hlt i hi he ih =>
    obtain ⟨hilt, hframes⟩ := frames_of_findIdx?_some hi
    rw [length_drop] at hilt
    obtain ⟨hend, hrest⟩ := ih (by omega) h
    refine ⟨hend, ?_⟩
    rw [framed, hframes, filterMap_cons_none he, drop_drop]
    exact hrest
  | case4 cursor hlt =>
    obtain ⟨_, rfl⟩ := Prod.mk.inj h
    have hend : cursor = data.length := by omega
    refine ⟨hend, ?_⟩
    rw [hend, drop_length]
    rfl

lemma decodeEvents_eq (hle : cursor ≤ data.length) :
    fmt.decodeEvents data cursor = (fmt.framed (data.drop cursor), data.length) := by
  fun_induction decodeEvents fmt data cursor with
  | case1 cursor hlt event cursor' h ih =>
    obtain ⟨hle', hframed⟩ := fmt.framed_of_tryDecodeCobsFrame_some h
    rw [ih hle', hframed]
  | case2 cursor hlt cursor' h =>
    obtain ⟨hend, hframed⟩ := fmt.framed_of_tryDecodeCobsFrame_none hle h
    rw [hend, hframed]
  | case3 cursor hlt =>
    have hend : cursor = data.length := by omega
    rw [hend, drop_length]
    rfl

lemma decodeCoordinatorRecordsFrom_eq (data : Bytes) (offset : Nat) :
    fmt.decodeCoordinatorRecordsFrom data offset = records fmt.coordRecordSize fmt.decodeRecord (data.drop offset) := by
  fun_induction decodeCoordinatorRecordsFrom fmt data offset with
  | case1 offset hle ih =>
    rw [records_of_le fmt.coordRecordSize_pos (by rw [length_drop]; omega), ih, drop_drop]
  | case2 offset hlt =>
    have := fmt.coordRecordSize_pos
    rw [records_of_lt (by rw [length_drop]; omega)]

lemma decodeCoordinatorRecords_eq (data : Bytes) :
    fmt.decodeCoordinatorRecords data = records fmt.coordRecordSize fmt.decodeRecord data :=
  fmt.decodeCoordinatorRecordsFrom_eq data 0

end EventFormat

/-- A data file of the events directory: the subdirectory, which names the node, and the file. -/
structure EventPath where
  nodeId : Text
  file : Text
deriving DecidableEq

/-- Rust `is_coord`: the subdirectory is `COORDINATOR_SUBDIR`. -/
def EventPath.isCoord (path : EventPath) : Bool := path.nodeId = "coordinator".toList

/-- What a data file holds, and when it was modified. -/
structure EventFile where
  data : Bytes
  mtime : Nat

namespace EventFormat
variable (fmt : EventFormat) {path : EventPath}

/-- The body of the loops over the files: the entries in new data, and how much of it is done with. -/
def readFile (path : EventPath) (data : Bytes) : List (TimelineEntry fmt) × Nat :=
  if path.isCoord then
    ((fmt.decodeCoordinatorRecords data).map fun r => .coordinator r.1 r.2,
      (fmt.decodeCoordinatorRecords data).length * fmt.coordRecordSize)
  else
    ((fmt.decodeEvents data 0).1.map fun event => .node (fmt.timestamp event) path.nodeId event,
      (fmt.decodeEvents data 0).2)

lemma readFile_coord (h : path.isCoord = true) (data : Bytes) :
    fmt.readFile path data
      = ((records fmt.coordRecordSize fmt.decodeRecord data).map fun r => .coordinator r.1 r.2,
        (records fmt.coordRecordSize fmt.decodeRecord data).length * fmt.coordRecordSize) := by
  rw [readFile, if_pos h, decodeCoordinatorRecords_eq]

lemma readFile_node (h : path.isCoord = false) (data : Bytes) :
    fmt.readFile path data
      = ((fmt.framed data).map fun event => .node (fmt.timestamp event) path.nodeId event, data.length) := by
  rw [readFile, if_neg (by simp [h]), fmt.decodeEvents_eq (Nat.zero_le _), drop_zero]

lemma readFile_nil (path : EventPath) : fmt.readFile path [] = ([], 0) := by
  cases h : path.isCoord with
  | true =>
    rw [fmt.readFile_coord h, records_of_lt (by simpa using fmt.coordRecordSize_pos)]
    simp
  | false =>
    rw [fmt.readFile_node h]
    rfl

lemma readFile_le (path : EventPath) (data : Bytes) : (fmt.readFile path data).2 ≤ data.length := by
  cases h : path.isCoord with
  | true =>
    rw [fmt.readFile_coord h]
    exact length_records_le _ _
  | false => rw [fmt.readFile_node h]

/-- No frame of the file is cut at its end, or the file has none. -/
def Uncut (path : EventPath) (data : Bytes) : Prop := path.isCoord = true ∨ unfinished 0x00 data = []

instance (path : EventPath) (data : Bytes) : Decidable (Uncut path data) := inferInstanceAs (Decidable (_ ∨ _))

lemma Uncut.resumes {data : Bytes} (h : Uncut path data) : Resumes (fmt.readFile path) data := by
  intro t
  cases hp : path.isCoord with
  | true =>
    simp only [fmt.readFile_coord hp]
    rw [records_append]
    simp [Nat.add_mul]
  | false =>
    have hdone : unfinished 0x00 data = [] := h.resolve_left (by simp [hp])
    simp only [fmt.readFile_node hp, drop_length, nil_append, framed, frames_append hdone]
    simp

end EventFormat

/-- The event of a node that has loaded its model, as `postcard` writes it in one of the first ten seconds of 2026: the
COBS code, the time as a text of twenty bytes, and the numbers of the two variants. -/
def modelLoadedFrame (second : Nat) : Bytes :=
  [0x18, 0x14, 0x32, 0x30, 0x32, 0x36, 0x2d, 0x30, 0x31, 0x2d, 0x30, 0x31, 0x54, 0x30, 0x30, 0x3a, 0x30, 0x30, 0x3a, 0x30,
    0x30 + BitVec.ofNat 8 second, 0x5a, 0x05, 0x06, 0x00]

/-- The second in such a frame. -/
def decodeModelLoaded (frame : Bytes) : Option Nat :=
  (List.range 10).find? fun second => modelLoadedFrame second == frame
end Leviathan
