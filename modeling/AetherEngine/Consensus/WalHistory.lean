import AetherEngine.Consensus.WalCrash
import AetherEngine.Consensus.WalReplay
import AetherEngine.Foundations.Runs

/-!
# The write-ahead log and its history

The log runs action by action, a crash can fall between any two actions, and the
history remembers which records were written before a segment was started.
Every segment but the first is started with a checkpoint that restates the purge
point and the committed pointer.  A checkpoint is exact when it restates what
the records written before its segment fold to; then the records of older
segments are not needed for the pointers, and a whole prefix of the segments can
be unlinked.
-/

namespace AetherEngine.Consensus

open AetherEngine.Frames
open AetherEngine.Registers
open AetherEngine.Runs

/-! ## The log with its history -/

/-- A log in the middle of its mutations, and the records that were written
before each of its segments was started. -/
structure WalHistory where
  session : Session
  starts : List (Nat × List WalRecord)

/-- The next call, the next action of the current call, or a crash: it cuts the
active segment, and when segments are being unlinked only some of them are. -/
inductive WalStep where
  | call (mutation : Mutation)
  | tick
  | crash (cut unlinks : Nat)
deriving DecidableEq, Repr

namespace Session

/-- The bytes of the active segment. -/
def activeFile (session : Session) : Bytes :=
  ((session.wal.dir.find? fun file =>
    decide (file.1 = session.wal.segment.seq)).map Prod.snd).getD []

/-- Where a crash cuts the active segment: never below its last sync. -/
def cutAt (session : Session) (cut : Nat) : Nat :=
  max session.synced cut

/-- The directory a crash leaves. -/
def torn (session : Session) (cut unlinks : Nat) : Directory :=
  match session.pending with
  | .reclaim index :: _ =>
      (session.crashed (session.cutAt cut)).filter fun file =>
        !((session.wal.unlinked index).take unlinks).contains file.1
  | _ => session.crashed (session.cutAt cut)

/-- The records of the active segment that a crash leaves whole. -/
def survivors (codec : WalCodec) (session : Session) (cut : Nat) :
    List WalRecord :=
  (scan codec.toFrameCodec
    (session.activeFile.take (session.cutAt cut))).records

/-- The number of records a crash destroys. -/
def lost (codec : WalCodec) (session : Session) (cut : Nat) : Nat :=
  (scan codec.toFrameCodec session.activeFile).records.length -
    (session.survivors codec cut).length

/-- The log reopened after a crash. -/
def recover (codec : WalCodec) (session : Session) (cut unlinks : Nat) :
    Session where
  wal := openWal codec (session.torn cut unlinks)
  synced := session.synced
  written :=
    session.written.take (session.written.length - session.lost codec cut)
  acknowledged := session.acknowledged
  pending := []

end Session

namespace WalHistory

/-- A log on an empty directory: its first segment follows no record. -/
def start (codec : WalCodec) : WalHistory where
  session := Session.start codec []
  starts := [(0, [])]

def step (codec : WalCodec) (history : WalHistory) : WalStep → WalHistory
  | .call mutation =>
      if history.session.pending = [] then
        { history with
          session := { history.session with pending := mutation.actions } }
      else
        history
  | .tick =>
      { session := history.session.tick codec
        starts :=
          match history.session.pending with
          | .startSegment :: _ =>
              history.starts ++
                [(history.session.wal.segment.seq + 1, history.session.written)]
          | _ => history.starts }
  | .crash cut unlinks =>
      { history with session := history.session.recover codec cut unlinks }

/-- The records written before a segment was started. -/
def before (history : WalHistory) (seq : Nat) : List WalRecord :=
  (history.starts.lookup seq).getD []

/-- Every segment on disk but the oldest begins with a checkpoint of the
pointers that the records written before it fold to. -/
def CheckpointsExact (codec : WalCodec) (history : WalHistory) : Prop :=
  ∀ file ∈ history.session.wal.dir.tail,
    (scan codec.toFrameCodec file.2).records.head? =
      some (.checkpoint (replay (history.before file.1)).lastPurged
        (replay (history.before file.1)).committed)

end WalHistory

/-! ## What keeps checkpoints exact -/

/-- The purge point and the committed pointer. -/
def WalState.pointers (state : WalState) : Option LogId × Option LogId :=
  (state.lastPurged, state.committed)

namespace WalRecord

/-- A purge or committed record. -/
def movesPointer : WalRecord → Bool
  | .purge _ => true
  | .committed _ => true
  | _ => false

def isCheckpoint : WalRecord → Bool
  | .checkpoint _ _ => true
  | _ => false

end WalRecord

namespace Session

/-- A record that fills its segment leaves the pointers as they are. -/
def FillsQuietly (codec : WalCodec) (session : Session) : Prop :=
  match session.pending with
  | .append record :: _ =>
      segmentMaxBytes ≤ (session.wal.write codec record).segment.bytes →
        (session.wal.state.apply record).pointers =
          session.wal.state.pointers
  | _ => True

/-- Unlinking removes no purge or committed record while a segment older than
the record's stays. -/
def UnlinksInOrder (codec : WalCodec) (session : Session) : Prop :=
  match session.pending with
  | .reclaim index :: _ =>
      ∀ gone ∈ session.wal.segmentRecords codec,
        (session.wal.unlinked index).contains gone.1 = true →
          ∀ stays ∈ session.wal.segmentRecords codec,
            (session.wal.unlinked index).contains stays.1 = false →
              stays.1 < gone.1 →
                ∀ record ∈ gone.2, record.movesPointer = false
  | _ => True

end Session

/-- The conditions on a step. -/
def WalHistory.Orderly (codec : WalCodec) (history : WalHistory) :
    WalStep → Prop
  | .call mutation => mutation.Framed codec
  | .tick =>
      history.session.FillsQuietly codec ∧
        history.session.UnlinksInOrder codec
  | .crash cut _ =>
      history.session.UnlinksInOrder codec ∧
        (history.starts.length ≤ 1 ∨ history.session.survivors codec cut ≠ [])

/-! ## Segments with exact checkpoints -/

/-- The records begin with a checkpoint of what the earlier records fold to, and
have no other checkpoint. -/
def Headed (earlier records : List WalRecord) : Prop :=
  ∃ body,
    records =
        .checkpoint (replay earlier).lastPurged (replay earlier).committed ::
          body ∧
      ∀ record ∈ body, record.isCheckpoint = false

/-- Every segment is headed by a checkpoint of the records before it. -/
def AllHeaded : List WalRecord → List SegmentRecords → Prop
  | _, [] => True
  | earlier, segment :: rest =>
      Headed earlier segment.2 ∧ AllHeaded (earlier ++ segment.2) rest

/-- The first segment has no checkpoint and every later one is headed by one of
the records before it. -/
def Chronicle : List SegmentRecords → Prop
  | [] => True
  | first :: rest =>
      (∀ record ∈ first.2, record.isCheckpoint = false) ∧
        AllHeaded first.2 rest

theorem Headed.concat {earlier records : List WalRecord} {record : WalRecord}
    (headed : Headed earlier records) (plain : record.isCheckpoint = false) :
    Headed earlier (records ++ [record]) := by
  obtain ⟨body, rfl, bodyPlain⟩ := headed
  refine ⟨body ++ [record], rfl, ?_⟩
  intro other member
  rcases List.mem_append.mp member with inBody | isLast
  · exact bodyPlain other inBody
  · rw [List.mem_singleton.mp isLast]
    exact plain

/-- A cut that leaves the first record whole leaves the checkpoint. -/
theorem Headed.of_append {earlier kept lost : List WalRecord}
    (headed : Headed earlier (kept ++ lost)) (present : kept ≠ []) :
    Headed earlier kept := by
  obtain ⟨body, split, bodyPlain⟩ := headed
  cases kept with
  | nil =>
      exact absurd rfl present
  | cons first rest =>
      rw [List.cons_append] at split
      obtain ⟨isHead, isBody⟩ := List.cons.inj split
      refine ⟨rest, by rw [isHead], ?_⟩
      intro record member
      exact bodyPlain record (isBody ▸ List.mem_append_left lost member)

private theorem allHeaded_append (earlier : List WalRecord)
    (first second : List SegmentRecords) :
    AllHeaded earlier (first ++ second) ↔
      AllHeaded earlier first ∧
        AllHeaded (earlier ++ recordsOf first) second := by
  induction first generalizing earlier with
  | nil =>
      simp [AllHeaded]
  | cons segment rest inductionHypothesis =>
      simp only [List.cons_append, AllHeaded, inductionHypothesis,
        recordsOf_cons, List.append_assoc, and_assoc]

theorem chronicle_concat (segments : List SegmentRecords)
    (last : SegmentRecords) :
    Chronicle (segments ++ [last]) ↔
      if segments = [] then
        ∀ record ∈ last.2, record.isCheckpoint = false
      else
        Chronicle segments ∧ Headed (recordsOf segments) last.2 := by
  cases segments with
  | nil =>
      simp [Chronicle, AllHeaded]
  | cons first rest =>
      simp [Chronicle, allHeaded_append, AllHeaded, and_assoc]

/-- A later segment is headed by a checkpoint of everything before it. -/
theorem Chronicle.headed {earlier later : List SegmentRecords}
    {segment : SegmentRecords}
    (chronicle : Chronicle (earlier ++ segment :: later))
    (present : earlier ≠ []) : Headed (recordsOf earlier) segment.2 := by
  cases earlier with
  | nil =>
      exact absurd rfl present
  | cons first rest =>
      have headed : AllHeaded first.2 (rest ++ segment :: later) := chronicle.2
      rw [allHeaded_append] at headed
      exact headed.2.1

/-! ### What segments lead to -/

theorem isFill_of_effect {record : WalRecord}
    (plain : record.isCheckpoint = false) :
    ¬ (purgedEffect record).IsFill ∧ ¬ (committedEffect record).IsFill := by
  cases record with
  | checkpoint lastPurged committed => cases plain
  | entry entry => exact ⟨id, id⟩
  | truncateFrom index => exact ⟨id, id⟩
  | purge logId => exact ⟨id, id⟩
  | committed pointer => exact ⟨id, id⟩

private theorem noWrite_of_movesPointer {record : WalRecord}
    (still : record.movesPointer = false) :
    ¬ (purgedEffect record).IsWrite ∧
      ¬ (committedEffect record).IsWrite := by
  cases record with
  | purge logId => cases still
  | committed pointer => cases still
  | entry entry => exact ⟨id, id⟩
  | truncateFrom index => exact ⟨id, id⟩
  | checkpoint lastPurged committed => exact ⟨id, id⟩

/-- Headed segments restate the pointers. -/
theorem AllHeaded.chained {earlier : List WalRecord}
    {segments : List SegmentRecords} (headed : AllHeaded earlier segments) :
    Chained purgedEffect Prod.snd (replay earlier).lastPurged segments ∧
      Chained committedEffect Prod.snd (replay earlier).committed
        segments := by
  induction segments generalizing earlier with
  | nil =>
      exact ⟨trivial, trivial⟩
  | cons segment rest inductionHypothesis =>
      obtain ⟨⟨body, shape, plain⟩, restHeaded⟩ := headed
      have later := inductionHypothesis restHeaded
      rw [replay_lastPurged, replay_committed, settle_append, settle_append,
        ← replay_lastPurged, ← replay_committed] at later
      refine ⟨⟨?_, later.1⟩, ⟨?_, later.2⟩⟩
      · rw [shape]
        exact restates_of_offer rfl
          (fun record member => (isFill_of_effect (plain record member)).1)
      · rw [shape]
        exact restates_of_offer rfl
          (fun record member => (isFill_of_effect (plain record member)).2)

theorem Chronicle.chained {segments : List SegmentRecords}
    (chronicle : Chronicle segments) :
    Chained purgedEffect Prod.snd none segments ∧
      Chained committedEffect Prod.snd none segments := by
  cases segments with
  | nil =>
      exact ⟨trivial, trivial⟩
  | cons first rest =>
      obtain ⟨plain, headed⟩ := chronicle
      have later := headed.chained
      rw [replay_lastPurged, replay_committed] at later
      refine ⟨⟨restates_none ?_, later.1⟩, ⟨restates_none ?_, later.2⟩⟩
      · exact fun record member => (isFill_of_effect (plain record member)).1
      · exact fun record member => (isFill_of_effect (plain record member)).2

/-- No record of the segment moves a pointer. -/
def Still (segment : SegmentRecords) : Prop :=
  ∀ record ∈ segment.2, record.movesPointer = false

/-- With exact checkpoints, the segments that stay fold to the pointers that
all segments fold to. -/
theorem Chronicle.pointers_pruned {segments kept : List SegmentRecords}
    (chronicle : Chronicle segments) (pruned : Pruned Still segments kept)
    (present : kept ≠ []) :
    (replay (recordsOf kept)).pointers =
      (replay (recordsOf segments)).pointers := by
  obtain ⟨purgedChained, committedChained⟩ := chronicle.chained
  have purged := pruned.settle_eq
    (fun segment still record member =>
      (noWrite_of_movesPointer (still record member)).1) present purgedChained
  have committed := pruned.settle_eq
    (fun segment still record member =>
      (noWrite_of_movesPointer (still record member)).2) present
    committedChained
  unfold WalState.pointers
  rw [replay_lastPurged, replay_lastPurged, replay_committed, replay_committed]
  unfold recordsOf
  rw [purged, committed]

/-! ## Where segments start -/

/-- Each segment with the records before it. -/
def startsOf : List WalRecord → List SegmentRecords →
    List (Nat × List WalRecord)
  | _, [] => []
  | earlier, segment :: rest =>
      (segment.1, earlier) :: startsOf (earlier ++ segment.2) rest

theorem startsOf_concat (earlier : List WalRecord)
    (segments : List SegmentRecords) (last : SegmentRecords) :
    startsOf earlier (segments ++ [last]) =
      startsOf earlier segments ++ [(last.1, earlier ++ recordsOf segments)] := by
  induction segments generalizing earlier with
  | nil =>
      simp [startsOf]
  | cons segment rest inductionHypothesis =>
      simp [startsOf, inductionHypothesis, List.append_assoc]

theorem length_startsOf (earlier : List WalRecord)
    (segments : List SegmentRecords) :
    (startsOf earlier segments).length = segments.length := by
  induction segments generalizing earlier with
  | nil =>
      rfl
  | cons segment rest inductionHypothesis =>
      simp [startsOf, inductionHypothesis]

theorem lookup_startsOf {earlier : List WalRecord}
    {first second : List SegmentRecords} {segment : SegmentRecords}
    (fresh : ∀ other ∈ first, other.1 < segment.1) :
    (startsOf earlier (first ++ segment :: second)).lookup segment.1 =
      some (earlier ++ recordsOf first) := by
  induction first generalizing earlier with
  | nil =>
      simp [startsOf]
  | cons head rest inductionHypothesis =>
      have different : (segment.1 == head.1) = false := by
        rw [beq_eq_false_iff_ne]
        exact Nat.ne_of_gt (fresh head List.mem_cons_self)
      rw [List.cons_append, startsOf, List.lookup_cons, different,
        inductionHypothesis (fun other member =>
          fresh other (List.mem_cons_of_mem head member)),
        recordsOf_cons, List.append_assoc]

/-! ## The log on disk, action by action -/

namespace Mirrors

variable {codec : WalCodec} {wal : Wal} {journal : Journal}

theorem write (mirrors : Mirrors codec wal journal) {record : WalRecord}
    (framable : Framable codec.toFrameCodec record) :
    Mirrors codec (wal.write codec record) (journal.write record) where
  holds := mirrors.holds.write framable
  maxIndex := by
    simp only [Wal.write, Journal.write, mirrors.maxIndex, maxIndexOf_concat]
  closed := mirrors.closed

theorem startSegment (mirrors : Mirrors codec wal journal) :
    Mirrors codec wal.startSegment journal.startSegment where
  holds := by
    simpa using mirrors.holds.startSegment
  maxIndex := rfl
  closed := by
    simp [Wal.startSegment, Journal.startSegment, closedHeader, mirrors.closed,
      mirrors.maxIndex, mirrors.holds.seq]

theorem fold (mirrors : Mirrors codec wal journal) (record : WalRecord) :
    Mirrors codec { wal with state := wal.state.apply record }
      (journal.fold record) where
  holds :=
    { dir := mirrors.holds.dir
      seq := mirrors.holds.seq
      bytes := mirrors.holds.bytes
      state := by simp [Journal.fold, mirrors.holds.state]
      ascending := mirrors.holds.ascending
      framable := mirrors.holds.framable }
  maxIndex := mirrors.maxIndex
  closed := mirrors.closed

/-- A directory of whole segments opens as the log over them. -/
theorem of_openWal {older : List SegmentRecords} {active : SegmentRecords}
    (ascending : ((older ++ [active]).map Prod.fst).Pairwise (· < ·))
    (framable : ∀ record ∈ recordsOf (older ++ [active]),
      Framable codec.toFrameCodec record) :
    Mirrors codec (openWal codec (filesOf codec (older ++ [active])))
      { older := older
        active := active
        state := replay (recordsOf (older ++ [active]))
        ascending := ascending } := by
  rw [openWal_whole ascending framable]
  refine ⟨⟨?_, rfl, rfl, rfl, ?_, framable⟩, rfl, rfl⟩
  · simp [Journal.segments]
  · simpa [Journal.segments] using ascending

end Mirrors

end AetherEngine.Consensus
