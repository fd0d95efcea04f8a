import AetherEngine.Consensus.LogStore

/-!
# The write-ahead log

Mutations are appended as records to the active segment file; replay folds the
record stream into a `WalState`.  A segment that reaches its size limit is
closed and the next one is started with a checkpoint record.  A purge unlinks
closed segments whose entries all sit at or below the purge point.

The directory is modelled by its segment files in sequence order, which is the
order `Wal::open` sorts them into; a file is its list of bytes.
-/

namespace AetherEngine.Consensus

open AetherEngine.Frames

def segmentMaxBytes : Nat := 8 * 1024 * 1024

/-! ## Records and their fold -/

inductive WalRecord where
  | entry (entry : Entry)
  | truncateFrom (index : UInt64)
  | purge (logId : LogId)
  | committed (pointer : Option LogId)
  | checkpoint (lastPurged committed : Option LogId)
deriving DecidableEq, Repr

namespace WalRecord

/-- Every record but a log entry has a fixed layout. -/
def isMarker : WalRecord → Bool
  | .entry _ => false
  | _ => true

/-- The log index a record adds to its segment's range. -/
def entryIndex : WalRecord → Option UInt64
  | .entry logged => some logged.logId.index
  | _ => none

end WalRecord

/-- The folded view of the record stream. -/
@[ext]
structure WalState where
  entries : LogMap := ∅
  lastPurged : Option LogId := none
  committed : Option LogId := none

namespace WalState

def apply (state : WalState) : WalRecord → WalState
  | .entry entry =>
      { state with
        entries := state.entries.insert entry.logId.index entry }
  | .truncateFrom index =>
      { state with
        entries :=
          removeRange state.entries fun key => decide (index ≤ key) }
  | .purge logId =>
      { state with
        lastPurged := some logId
        entries :=
          removeRange state.entries fun key => decide (key ≤ logId.index) }
  | .committed pointer =>
      { state with committed := pointer }
  | .checkpoint lastPurged committed =>
      { state with
        -- A checkpoint only fills pointers that are still unset.
        lastPurged :=
          if state.lastPurged.isNone then lastPurged else state.lastPurged
        committed :=
          if state.committed.isNone then committed else state.committed }

end WalState

/-- The state a record stream folds to. -/
def replay (records : List WalRecord) : WalState :=
  records.foldl WalState.apply {}

theorem replay_append (first second : List WalRecord) :
    replay (first ++ second) = second.foldl WalState.apply (replay first) := by
  simp [replay]

/-! ## Segment files -/

/-- Segment files in ascending sequence order. -/
abbrev Directory := List (Nat × Bytes)

namespace Directory

/-- Open a file for appending, creating it when it is missing, and write. -/
def appendFile : Directory → (seq : Nat) → (bytes : Bytes) → Directory
  | [], seq, bytes => [(seq, bytes)]
  | (first, contents) :: rest, seq, bytes =>
      if first = seq then
        (first, contents ++ bytes) :: rest
      else if seq < first then
        (seq, bytes) :: (first, contents) :: rest
      else
        (first, contents) :: appendFile rest seq bytes

def setLen (dir : Directory) (seq len : Nat) : Directory :=
  dir.map fun file =>
    if file.1 = seq then (file.1, file.2.take len) else file

def fileLength (dir : Directory) (seq : Nat) : Nat :=
  ((dir.find? fun file => file.1 = seq).map fun file =>
    file.2.length).getD 0

end Directory

/-! ## The log -/

/-- The codec of the log: a serializer for records whose fixed-layout records
are small.  This is all the log relies on. -/
structure WalCodec extends FrameCodec WalRecord where
  marker_length : ∀ record : WalRecord,
    record.isMarker = true → (encode record).length < 2 ^ 10

/-- The segment being appended to: its number, its size and the highest entry
index ever written into it. -/
structure Segment where
  seq : Nat
  bytes : Nat
  maxIndex : Option UInt64
deriving DecidableEq, Repr

/-- The log over its directory.  Closed segments are kept as their number and
their highest entry index. -/
structure Wal where
  dir : Directory
  segment : Segment
  closed : List (Nat × Option UInt64)
  state : WalState

/-- Track the highest entry index of a segment across one more record. -/
def raiseMaxIndex (maxIndex : Option UInt64) (record : WalRecord) :
    Option UInt64 :=
  match record.entryIndex with
  | none => maxIndex
  | some index =>
      some (match maxIndex with
        | none => index
        | some highest => max highest index)

def maxIndexOf (records : List WalRecord) : Option UInt64 :=
  records.foldl raiseMaxIndex none

/-! ### Opening -/

/-- What the recovery scan has collected so far. -/
structure Recovery where
  state : WalState := {}
  closed : List (Nat × Option UInt64) := []
  corruptAt : Option (Nat × Nat) := none

/-- Scan the segments in order, up to the first one that does not end on a
record boundary. -/
def scanSegments (codec : WalCodec) : Recovery → Directory → Recovery
  | found, [] => found
  | found, (seq, bytes) :: rest =>
      let scanned := scan codec.toFrameCodec bytes
      let next : Recovery :=
        { state := scanned.records.foldl WalState.apply found.state
          closed := found.closed ++ [(seq, maxIndexOf scanned.records)]
          corruptAt :=
            if scanned.clean then none else some (seq, scanned.goodOffset) }
      if scanned.clean then scanSegments codec next rest else next

/-- Truncate the corrupt segment at its last good offset and drop every later
one. -/
def repair (dir : Directory) : Option (Nat × Nat) → Directory
  | none => dir
  | some (badSeq, goodOffset) =>
      (dir.setLen badSeq goodOffset).filter fun file =>
        decide (file.1 ≤ badSeq)

/-- The highest listed segment becomes the active one; when the scan ended
below it, or there is none, segment `0` does. -/
def chooseActive (seqs : List Nat) (corruptAt : Option (Nat × Nat)) : Nat :=
  ((seqs.getLast?).filter fun seq =>
    match corruptAt with
    | none => true
    | some (bad, _) => decide (seq ≤ bad)).getD 0

/-- `Wal::open`. -/
def openWal (codec : WalCodec) (dir : Directory) : Wal :=
  let found := scanSegments codec {} dir
  let repaired := repair dir found.corruptAt
  let listed := match found.corruptAt with
    | none => found.closed
    | some (badSeq, _) =>
        found.closed.filter fun item => decide (item.1 ≤ badSeq)
  let seq := chooseActive (dir.map Prod.fst) found.corruptAt
  let ready := repaired.appendFile seq []
  { dir := ready
    segment :=
      { seq := seq
        bytes := ready.fileLength seq
        maxIndex :=
          ((listed.find? fun item => item.1 = seq).map Prod.snd).join }
    closed := listed.filter fun item => decide (item.1 ≠ seq)
    state := found.state }

/-! ### Appending -/

namespace Wal

/-- Write one framed record to the active segment file. -/
def write (codec : WalCodec) (wal : Wal) (record : WalRecord) : Wal :=
  let framed := frame codec.toFrameCodec (codec.encode record)
  { wal with
    dir := wal.dir.appendFile wal.segment.seq framed
    segment :=
      { wal.segment with
        bytes := wal.segment.bytes + framed.length
        maxIndex := raiseMaxIndex wal.segment.maxIndex record } }

/-- Close the active segment and open the file of the next one. -/
def startSegment (wal : Wal) : Wal :=
  { wal with
    dir := wal.dir.appendFile (wal.segment.seq + 1) []
    segment := { seq := wal.segment.seq + 1, bytes := 0, maxIndex := none }
    closed := wal.closed ++ [(wal.segment.seq, wal.segment.maxIndex)] }

/-- The record heading the next segment: the pointers of the current state,
which the record being appended has not reached yet. -/
def headRecord (wal : Wal) : WalRecord :=
  .checkpoint wal.state.lastPurged wal.state.committed

/-- Start the next segment with a checkpoint.  The source appends it through
`append`; a segment with nothing but a checkpoint is far from full, so that
nested call never rotates. -/
def rotate (codec : WalCodec) (wal : Wal) : Wal :=
  wal.startSegment.write codec wal.headRecord

def append (codec : WalCodec) (wal : Wal) (record : WalRecord) : Wal :=
  let written := wal.write codec record
  if segmentMaxBytes ≤ written.segment.bytes then
    written.rotate codec
  else
    written

/-- Append a record, then fold it into the state. -/
def mutate (codec : WalCodec) (wal : Wal) (record : WalRecord) : Wal :=
  let appended := wal.append codec record
  { appended with state := appended.state.apply record }

/-- A closed segment a purge up to `index` may unlink. -/
def removable (index : UInt64) (maxIndex : Option UInt64) : Bool :=
  maxIndex.all fun highest => decide (highest ≤ index)

/-- The numbers of the closed segments a purge up to `index` unlinks. -/
def unlinked (wal : Wal) (index : UInt64) : List Nat :=
  (wal.closed.filter fun item => removable index item.2).map Prod.fst

/-- Unlink the closed segments wholly at or below the purge point. -/
def reclaim (wal : Wal) (index : UInt64) : Wal :=
  { wal with
    dir := wal.dir.filter fun file =>
      !(wal.unlinked index).contains file.1
    closed := wal.closed.filter fun item => !removable index item.2 }

def appendEntries (codec : WalCodec) (wal : Wal) (entries : List Entry) :
    Wal :=
  entries.foldl (fun current entry => current.mutate codec (.entry entry)) wal

def truncateFrom (codec : WalCodec) (wal : Wal) (index : UInt64) : Wal :=
  wal.mutate codec (.truncateFrom index)

def purge (codec : WalCodec) (wal : Wal) (logId : LogId) : Wal :=
  (wal.mutate codec (.purge logId)).reclaim logId.index

def saveCommitted (codec : WalCodec) (wal : Wal) (pointer : Option LogId) :
    Wal :=
  wal.mutate codec (.committed pointer)

end Wal

/-! ### Markers are small -/

theorem framable_of_isMarker
    (codec : WalCodec) {record : WalRecord}
    (marker : record.isMarker = true) :
    Framable codec.toFrameCodec record := by
  have small := codec.marker_length record marker
  unfold Framable
  omega

end AetherEngine.Consensus
