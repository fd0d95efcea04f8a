import AetherEngine.Consensus.Wal
import Mathlib.Data.List.Nodup

/-!
# The record-level journal

`Journal` is the write-ahead log with its bytes read away: segments are lists
of records and only their sizes still mention the codec.  `Mirrors` relates a
log on disk to its journal, every mutation keeps the relation, and opening a
mirrored directory gives the same log back with the replayed state.
-/

namespace AetherEngine.Consensus

open AetherEngine.Frames

/-- A segment as its number and the records written to it. -/
abbrev SegmentRecords := Nat × List WalRecord

/-- The files that hold some segments. -/
def filesOf (codec : WalCodec) (segments : List SegmentRecords) : Directory :=
  segments.map fun segment =>
    (segment.1, frames codec.toFrameCodec segment.2)

/-- The records of some segments in write order. -/
def recordsOf (segments : List SegmentRecords) : List WalRecord :=
  segments.flatMap Prod.snd

/-- What the log remembers about a closed segment. -/
def closedHeader (segment : SegmentRecords) : Nat × Option UInt64 :=
  (segment.1, maxIndexOf segment.2)

@[simp]
theorem recordsOf_append (first second : List SegmentRecords) :
    recordsOf (first ++ second) = recordsOf first ++ recordsOf second := by
  simp [recordsOf]

@[simp]
theorem recordsOf_cons (first : SegmentRecords)
    (rest : List SegmentRecords) :
    recordsOf (first :: rest) = first.2 ++ recordsOf rest :=
  rfl

@[simp]
theorem recordsOf_nil : recordsOf [] = [] :=
  rfl

@[simp]
theorem filesOf_append (codec : WalCodec)
    (first second : List SegmentRecords) :
    filesOf codec (first ++ second) =
      filesOf codec first ++ filesOf codec second := by
  simp [filesOf]

@[simp]
theorem filesOf_cons (codec : WalCodec) (first : SegmentRecords)
    (rest : List SegmentRecords) :
    filesOf codec (first :: rest) =
      (first.1, frames codec.toFrameCodec first.2) ::
        filesOf codec rest :=
  rfl

@[simp]
theorem filesOf_nil (codec : WalCodec) : filesOf codec [] = [] :=
  rfl

@[simp]
theorem map_fst_filesOf (codec : WalCodec)
    (segments : List SegmentRecords) :
    (filesOf codec segments).map Prod.fst = segments.map Prod.fst := by
  simp [filesOf, Function.comp_def]

theorem framable_append
    {codec : WalCodec} {first second : List WalRecord} :
    (∀ record ∈ first ++ second, Framable codec.toFrameCodec record) ↔
      (∀ record ∈ first, Framable codec.toFrameCodec record) ∧
        ∀ record ∈ second, Framable codec.toFrameCodec record := by
  simp only [List.mem_append, or_imp, forall_and]

/-! ## Directory rules -/

namespace Directory

theorem appendFile_existing
    {earlier : Directory} {seq : Nat}
    (below : ∀ file ∈ earlier, file.1 < seq)
    (contents bytes : Bytes) (later : Directory) :
    appendFile (earlier ++ (seq, contents) :: later) seq bytes =
      earlier ++ (seq, contents ++ bytes) :: later := by
  induction earlier with
  | nil =>
      simp [appendFile]
  | cons first rest inductionHypothesis =>
      have firstBelow : first.1 < seq := below first List.mem_cons_self
      have restBelow : ∀ file ∈ rest, file.1 < seq :=
        fun file member => below file (List.mem_cons_of_mem first member)
      have notEqual : first.1 ≠ seq := Nat.ne_of_lt firstBelow
      have notAbove : ¬ seq < first.1 := by omega
      rw [List.cons_append, appendFile, if_neg notEqual, if_neg notAbove,
        inductionHypothesis restBelow, List.cons_append]

private theorem appendFile_missing
    {earlier later : Directory} {seq : Nat}
    (below : ∀ file ∈ earlier, file.1 < seq)
    (above : ∀ file ∈ later, seq < file.1) (bytes : Bytes) :
    appendFile (earlier ++ later) seq bytes =
      earlier ++ (seq, bytes) :: later := by
  induction earlier with
  | nil =>
      cases later with
      | nil => rfl
      | cons first rest =>
          have firstAbove : seq < first.1 := above first List.mem_cons_self
          have notEqual : first.1 ≠ seq := (Nat.ne_of_lt firstAbove).symm
          rw [List.nil_append, appendFile, if_neg notEqual,
            if_pos firstAbove, List.nil_append]
  | cons first rest inductionHypothesis =>
      have firstBelow : first.1 < seq := below first List.mem_cons_self
      have restBelow : ∀ file ∈ rest, file.1 < seq :=
        fun file member => below file (List.mem_cons_of_mem first member)
      have notEqual : first.1 ≠ seq := Nat.ne_of_lt firstBelow
      have notAbove : ¬ seq < first.1 := by omega
      rw [List.cons_append, appendFile, if_neg notEqual, if_neg notAbove,
        inductionHypothesis restBelow, List.cons_append]

theorem fileLength_existing
    {earlier : Directory} {seq : Nat}
    (below : ∀ file ∈ earlier, file.1 < seq)
    (contents : Bytes) (later : Directory) :
    fileLength (earlier ++ (seq, contents) :: later) seq =
      contents.length := by
  have skipped :
      (earlier.find? fun file => decide (file.1 = seq)) = none := by
    rw [List.find?_eq_none]
    intro file member equal
    have lower := below file member
    simp only [decide_eq_true_eq] at equal
    omega
  simp [fileLength, skipped]

end Directory

/-- In an ascending list of segments every earlier number is below every later
one. -/
theorem below_of_ascending
    {earlier later : List SegmentRecords} {segment : SegmentRecords}
    (ascending :
      ((earlier ++ segment :: later).map Prod.fst).Pairwise (· < ·)) :
    (∀ other ∈ earlier, other.1 < segment.1) ∧
      ∀ other ∈ later, segment.1 < other.1 := by
  rw [List.map_append, List.map_cons, List.pairwise_append,
    List.pairwise_cons] at ascending
  obtain ⟨_, ⟨above, _⟩, crossing⟩ := ascending
  constructor
  · intro other member
    exact crossing other.1 (List.mem_map.mpr ⟨other, member, rfl⟩)
      segment.1 List.mem_cons_self
  · intro other member
    exact above other.1 (List.mem_map.mpr ⟨other, member, rfl⟩)

theorem files_below
    (codec : WalCodec) {segments : List SegmentRecords} {seq : Nat}
    (below : ∀ other ∈ segments, other.1 < seq) :
    ∀ file ∈ filesOf codec segments, file.1 < seq := by
  intro file member
  obtain ⟨segment, held, rfl⟩ := List.mem_map.mp member
  exact below segment held

theorem files_above
    (codec : WalCodec) {segments : List SegmentRecords} {seq : Nat}
    (above : ∀ other ∈ segments, seq < other.1) :
    ∀ file ∈ filesOf codec segments, seq < file.1 := by
  intro file member
  obtain ⟨segment, held, rfl⟩ := List.mem_map.mp member
  exact above segment held

/-! ## The journal -/

/-- Closed segments, the active segment and the folded state.  Segment numbers
ascend. -/
structure Journal where
  older : List SegmentRecords
  active : SegmentRecords
  state : WalState
  ascending : ((older ++ [active]).map Prod.fst).Pairwise (· < ·)

namespace Journal

def segments (journal : Journal) : List SegmentRecords :=
  journal.older ++ [journal.active]

/-- Everything on disk, in write order. -/
def records (journal : Journal) : List WalRecord :=
  recordsOf journal.segments

def activeBytes (codec : WalCodec) (journal : Journal) : Nat :=
  (frames codec.toFrameCodec journal.active.2).length

def write (journal : Journal) (record : WalRecord) : Journal where
  older := journal.older
  active := (journal.active.1, journal.active.2 ++ [record])
  state := journal.state
  ascending := by
    simpa using journal.ascending

theorem older_below (journal : Journal) :
    ∀ other ∈ journal.older, other.1 < journal.active.1 :=
  (below_of_ascending journal.ascending).1

def startSegment (journal : Journal) : Journal where
  older := journal.older ++ [journal.active]
  active := (journal.active.1 + 1, [])
  state := journal.state
  ascending := by
    rw [List.map_append, List.pairwise_append]
    refine ⟨journal.ascending, by simp, ?_⟩
    intro lower lowerMember upper upperMember
    simp only [List.map_append, List.map_cons, List.map_nil,
      List.mem_append, List.mem_map, List.mem_singleton]
      at lowerMember upperMember
    subst upperMember
    rcases lowerMember with ⟨other, member, rfl⟩ | rfl
    · have := journal.older_below other member
      omega
    · omega

def headRecord (journal : Journal) : WalRecord :=
  .checkpoint journal.state.lastPurged journal.state.committed

def rotate (journal : Journal) : Journal :=
  journal.startSegment.write journal.headRecord

/-- The append of this record fills the active segment. -/
def Rotates (codec : WalCodec) (journal : Journal) (record : WalRecord) :
    Prop :=
  segmentMaxBytes ≤ (journal.write record).activeBytes codec

instance (codec : WalCodec) (journal : Journal) (record : WalRecord) :
    Decidable (journal.Rotates codec record) :=
  inferInstanceAs (Decidable (_ ≤ _))

def append (codec : WalCodec) (journal : Journal) (record : WalRecord) :
    Journal :=
  if journal.Rotates codec record then
    (journal.write record).rotate
  else
    journal.write record

def fold (journal : Journal) (record : WalRecord) : Journal :=
  { journal with state := journal.state.apply record }

def mutate (codec : WalCodec) (journal : Journal) (record : WalRecord) :
    Journal :=
  (journal.append codec record).fold record

def reclaim (journal : Journal) (index : UInt64) : Journal where
  older := journal.older.filter fun segment =>
    !Wal.removable index (maxIndexOf segment.2)
  active := journal.active
  state := journal.state
  ascending := by
    refine List.Pairwise.sublist ?_ journal.ascending
    exact List.Sublist.map Prod.fst
      (List.Sublist.append List.filter_sublist (List.Sublist.refl _))

def appendEntries (codec : WalCodec) (journal : Journal)
    (entries : List Entry) : Journal :=
  entries.foldl
    (fun current entry => current.mutate codec (.entry entry)) journal

def purge (codec : WalCodec) (journal : Journal) (logId : LogId) : Journal :=
  (journal.mutate codec (.purge logId)).reclaim logId.index

/-! ### Sizes -/

@[simp]
theorem activeBytes_write (codec : WalCodec) (journal : Journal)
    (record : WalRecord) :
    (journal.write record).activeBytes codec =
      journal.activeBytes codec +
        (frameHeader + (codec.encode record).length) := by
  simp [activeBytes, write]

/-! ### Records on disk after an operation -/

@[simp]
theorem records_write (journal : Journal) (record : WalRecord) :
    (journal.write record).records = journal.records ++ [record] := by
  simp [records, segments, write]

@[simp]
theorem records_startSegment (journal : Journal) :
    journal.startSegment.records = journal.records := by
  simp [records, segments, startSegment]

@[simp]
theorem records_rotate (journal : Journal) :
    journal.rotate.records = journal.records ++ [journal.headRecord] := by
  simp [rotate]

/-- An append leaves the record at the end of the stream, followed by the
checkpoint of the next segment when it filled its own. -/
theorem records_append (codec : WalCodec) (journal : Journal)
    (record : WalRecord) :
    (journal.append codec record).records =
      journal.records ++ record ::
        (if journal.Rotates codec record then [journal.headRecord]
          else []) := by
  unfold append
  split
  · rw [records_rotate, records_write, List.append_assoc]
    rfl
  · exact records_write journal record

theorem records_mutate (codec : WalCodec) (journal : Journal)
    (record : WalRecord) :
    (journal.mutate codec record).records =
      journal.records ++ record ::
        (if journal.Rotates codec record then [journal.headRecord]
          else []) :=
  records_append codec journal record

@[simp]
theorem state_append (codec : WalCodec) (journal : Journal)
    (record : WalRecord) :
    (journal.append codec record).state = journal.state := by
  unfold append
  split <;> rfl

theorem state_mutate (codec : WalCodec) (journal : Journal)
    (record : WalRecord) :
    (journal.mutate codec record).state = journal.state.apply record := by
  simp [mutate, fold]

end Journal

/-! ## Tracking the highest entry index -/

theorem maxIndexOf_concat (records : List WalRecord) (record : WalRecord) :
    maxIndexOf (records ++ [record]) =
      raiseMaxIndex (maxIndexOf records) record := by
  simp [maxIndexOf]

/-! ## The log on disk mirrors its journal -/

/-- The log's directory holds the journal's segments, followed by `spare`
empty files, and its memory agrees with them. -/
structure Holds (codec : WalCodec) (wal : Wal) (journal : Journal)
    (spare : List Nat) : Prop where
  dir : wal.dir =
    filesOf codec (journal.segments ++ spare.map fun seq => (seq, []))
  seq : wal.segment.seq = journal.active.1
  bytes : wal.segment.bytes = journal.activeBytes codec
  state : wal.state = journal.state
  ascending :
    ((journal.segments ++ spare.map fun seq => (seq, ([] : List WalRecord))).map
      Prod.fst).Pairwise (· < ·)
  framable : ∀ record ∈ journal.records, Framable codec.toFrameCodec record

/-- What the log remembers about its segments is what a scan would find. -/
structure Mirrors (codec : WalCodec) (wal : Wal) (journal : Journal) :
    Prop where
  holds : Holds codec wal journal []
  maxIndex : wal.segment.maxIndex = maxIndexOf journal.active.2
  closed : wal.closed = journal.older.map closedHeader

namespace Holds

variable {codec : WalCodec} {wal : Wal} {journal : Journal}
  {spare : List Nat}

theorem write
    (held : Holds codec wal journal spare) {record : WalRecord}
    (framable : Framable codec.toFrameCodec record) :
    Holds codec (wal.write codec record) (journal.write record) spare where
  dir := by
    have below :=
      files_below codec journal.older_below
    simp only [Wal.write, held.dir, held.seq, Journal.segments,
      Journal.write, List.append_assoc, filesOf_append, filesOf_cons,
      List.singleton_append]
    rw [Directory.appendFile_existing below]
    simp
  seq := held.seq
  bytes := by
    simp only [Wal.write, held.bytes, Journal.activeBytes, Journal.write,
      frames_append, frames_cons, frames_nil, List.append_nil,
      List.length_append]
  state := held.state
  ascending := by
    simpa [Journal.segments, Journal.write] using held.ascending
  framable := by
    rw [Journal.records_write, framable_append]
    exact ⟨held.framable, by simpa using framable⟩

private theorem spare_above (held : Holds codec wal journal spare) :
    ∀ seq ∈ spare, journal.active.1 < seq := by
  have ascending := held.ascending
  simp only [Journal.segments, List.append_assoc, List.singleton_append]
    at ascending
  intro seq member
  exact (below_of_ascending ascending).2 (seq, [])
    (List.mem_map.mpr ⟨seq, member, rfl⟩)

private theorem segments_below (journal : Journal) :
    ∀ segment ∈ journal.segments, segment.1 < journal.active.1 + 1 := by
  intro segment member
  simp only [Journal.segments, List.mem_append, List.mem_singleton] at member
  rcases member with old | rfl
  · have := journal.older_below segment old
    omega
  · omega

private theorem spare_pairwise (held : Holds codec wal journal spare) :
    spare.Pairwise (· < ·) := by
  have ascending := held.ascending
  rw [List.map_append, List.pairwise_append] at ascending
  simpa [Function.comp_def] using ascending.2.1

/-- Starting the next segment uses up a spare file of that number. -/
theorem startSegment (held : Holds codec wal journal spare) :
    Holds codec wal.startSegment journal.startSegment
      (spare.filter fun seq => decide (journal.active.1 + 1 < seq)) where
  dir := by
    have below := files_below codec (segments_below journal)
    have started :
        journal.startSegment.segments =
          journal.segments ++ [(journal.active.1 + 1, [])] :=
      rfl
    simp only [Wal.startSegment, held.dir, held.seq, started,
      filesOf_append, filesOf_cons, frames_nil,
      List.append_assoc, List.singleton_append]
    cases spare with
    | nil =>
        simpa using
          @Directory.appendFile_missing _ [] _ below (by simp) []
    | cons first rest =>
        have firstAbove : journal.active.1 < first :=
          held.spare_above first List.mem_cons_self
        have restAbove : ∀ seq ∈ rest, first < seq :=
          fun seq member =>
            (List.pairwise_cons.mp held.spare_pairwise).1 seq member
        by_cases reused : first = journal.active.1 + 1
        · have kept :
              ((first :: rest).filter fun seq =>
                decide (journal.active.1 + 1 < seq)) = rest := by
            rw [List.filter_cons_of_neg (by simp [reused])]
            apply List.filter_eq_self.mpr
            intro seq member
            have := restAbove seq member
            simp only [decide_eq_true_eq]
            omega
          rw [kept]
          subst reused
          simpa using
            Directory.appendFile_existing below [] []
              (filesOf codec (rest.map fun seq => (seq, [])))
        · have kept :
              ((first :: rest).filter fun seq =>
                decide (journal.active.1 + 1 < seq)) = first :: rest := by
            apply List.filter_eq_self.mpr
            intro seq member
            simp only [decide_eq_true_eq]
            rcases List.mem_cons.mp member with rfl | later
            · omega
            · have := restAbove seq later
              omega
          rw [kept]
          apply Directory.appendFile_missing below
          apply files_above
          intro other member
          obtain ⟨seq, listed, rfl⟩ := List.mem_map.mp member
          rcases List.mem_cons.mp listed with rfl | later
          · show journal.active.1 + 1 < seq
            omega
          · have := restAbove seq later
            show journal.active.1 + 1 < seq
            omega
  seq := by
    simp [Wal.startSegment, Journal.startSegment, held.seq]
  bytes := by
    simp [Wal.startSegment, Journal.startSegment, Journal.activeBytes]
  state := held.state
  ascending := by
    have remaining :
        ((spare.filter fun seq =>
          decide (journal.active.1 + 1 < seq)).Pairwise (· < ·)) :=
      List.Pairwise.sublist List.filter_sublist held.spare_pairwise
    rw [List.map_append, List.pairwise_append]
    refine ⟨journal.startSegment.ascending,
      by simpa [Function.comp_def] using remaining, ?_⟩
    intro lower lowerMember upper upperMember
    obtain ⟨segment, member, rfl⟩ := List.mem_map.mp lowerMember
    have upperBound : journal.active.1 + 1 < upper := by
      simp only [List.map_map, List.mem_map, List.mem_filter,
        decide_eq_true_eq, Function.comp_apply] at upperMember
      obtain ⟨seq, ⟨_, above⟩, rfl⟩ := upperMember
      exact above
    have lowerBound := segments_below journal.startSegment segment member
    have started :
        journal.startSegment.active.1 = journal.active.1 + 1 := rfl
    omega
  framable := by
    simpa using held.framable

theorem headRecord (held : Holds codec wal journal spare) :
    wal.headRecord = journal.headRecord := by
  simp [Wal.headRecord, Journal.headRecord, held.state]

theorem rotate (held : Holds codec wal journal spare) :
    Holds codec (wal.rotate codec) journal.rotate
      (spare.filter fun seq => decide (journal.active.1 + 1 < seq)) := by
  unfold Wal.rotate Journal.rotate
  rw [held.headRecord]
  exact held.startSegment.write (framable_of_isMarker codec rfl)

/-- The spare files left after an append. -/
def nextSpare (codec : WalCodec) (journal : Journal) (record : WalRecord)
    (spare : List Nat) : List Nat :=
  if journal.Rotates codec record then
    spare.filter fun seq => decide (journal.active.1 + 1 < seq)
  else
    spare

theorem rotates_iff
    (held : Holds codec wal journal spare) (record : WalRecord) :
    segmentMaxBytes ≤ (wal.write codec record).segment.bytes ↔
      journal.Rotates codec record := by
  simp only [Wal.write, held.bytes, Journal.Rotates, Journal.activeBytes,
    Journal.write, frames_append, frames_cons, frames_nil,
    List.append_nil, List.length_append]

theorem wal_append_eq
    (held : Holds codec wal journal spare) (record : WalRecord) :
    wal.append codec record =
      if journal.Rotates codec record then
        (wal.write codec record).rotate codec
      else
        wal.write codec record := by
  unfold Wal.append
  simp only [held.rotates_iff record]

theorem append
    (held : Holds codec wal journal spare) {record : WalRecord}
    (framable : Framable codec.toFrameCodec record) :
    Holds codec (wal.append codec record) (journal.append codec record)
      (nextSpare codec journal record spare) := by
  have written := held.write framable
  rw [held.wal_append_eq]
  unfold Journal.append nextSpare
  split
  · exact written.rotate
  · exact written

theorem mutate
    (held : Holds codec wal journal spare) {record : WalRecord}
    (framable : Framable codec.toFrameCodec record) :
    Holds codec (wal.mutate codec record) (journal.mutate codec record)
      (nextSpare codec journal record spare) := by
  have appended := held.append framable
  exact
    { dir := appended.dir
      seq := appended.seq
      bytes := appended.bytes
      state := by
        simp [Wal.mutate, Journal.mutate, Journal.fold, appended.state]
      ascending := appended.ascending
      framable := appended.framable }

end Holds

namespace Mirrors

variable {codec : WalCodec} {wal : Wal} {journal : Journal}

theorem append
    (mirrors : Mirrors codec wal journal) {record : WalRecord}
    (framable : Framable codec.toFrameCodec record) :
    Mirrors codec (wal.append codec record)
      (journal.append codec record) := by
  have held := mirrors.holds.append framable
  have noSpare : Holds.nextSpare codec journal record [] = [] := by
    simp [Holds.nextSpare]
  rw [noSpare] at held
  refine ⟨held, ?_, ?_⟩
  · rw [mirrors.holds.wal_append_eq]
    unfold Journal.append
    split
    · rfl
    · simp only [Wal.write, Journal.write, mirrors.maxIndex,
        maxIndexOf_concat]
  · rw [mirrors.holds.wal_append_eq]
    unfold Journal.append
    split
    · simp only [Wal.rotate, Wal.startSegment, Wal.write,
        Journal.rotate, Journal.startSegment, Journal.write,
        List.map_append, List.map_cons, List.map_nil, closedHeader,
        mirrors.closed, mirrors.maxIndex, mirrors.holds.seq,
        maxIndexOf_concat]
    · simp only [Wal.write, Journal.write, mirrors.closed]

theorem mutate
    (mirrors : Mirrors codec wal journal) {record : WalRecord}
    (framable : Framable codec.toFrameCodec record) :
    Mirrors codec (wal.mutate codec record)
      (journal.mutate codec record) := by
  have appended := mirrors.append framable
  have held := mirrors.holds.mutate framable
  have noSpare : Holds.nextSpare codec journal record [] = [] := by
    simp [Holds.nextSpare]
  rw [noSpare] at held
  exact ⟨held, appended.maxIndex, appended.closed⟩

/-- The unlinked numbers are those of the removable older segments. -/
theorem unlinked_iff
    (mirrors : Mirrors codec wal journal) (index : UInt64)
    {segment : SegmentRecords} (member : segment ∈ journal.segments) :
    (wal.unlinked index).contains segment.1 = true ↔
      segment ∈ journal.older ∧
        Wal.removable index (maxIndexOf segment.2) = true := by
  rw [Wal.unlinked, List.contains_iff_mem, mirrors.closed, List.mem_map]
  constructor
  · intro membership
    rcases membership with ⟨item, listed, sameNumber⟩
    rw [List.mem_filter, List.mem_map] at listed
    obtain ⟨⟨other, held, rfl⟩, removed⟩ := listed
    have injective :=
      List.inj_on_of_nodup_map
        (journal.ascending.imp fun lower => Nat.ne_of_lt lower)
    have same : other = segment :=
      injective (List.mem_append_left [journal.active] held) member
        sameNumber
    subst same
    exact ⟨held, removed⟩
  · intro holding
    rcases holding with ⟨held, removed⟩
    refine ⟨closedHeader segment, ?_, rfl⟩
    rw [List.mem_filter, List.mem_map]
    exact ⟨⟨segment, held, rfl⟩, removed⟩

theorem active_linked
    (mirrors : Mirrors codec wal journal) (index : UInt64) :
    (wal.unlinked index).contains journal.active.1 = false := by
  by_contra listed
  rw [Bool.not_eq_false] at listed
  have activeOlder :=
    (mirrors.unlinked_iff index
      (List.mem_append_right _ List.mem_cons_self)).mp listed
  exact absurd (journal.older_below journal.active activeOlder.1)
    (Nat.lt_irrefl _)

theorem older_linked
    (mirrors : Mirrors codec wal journal) (index : UInt64)
    {segment : SegmentRecords} (member : segment ∈ journal.older) :
    (!(wal.unlinked index).contains segment.1) =
      !Wal.removable index (maxIndexOf segment.2) := by
  have decision :=
    mirrors.unlinked_iff index
      (List.mem_append_left [journal.active] member)
  congr 1
  rw [Bool.eq_iff_iff, decision]
  exact and_iff_right member

/-- Unlinking removes exactly the files of the reclaimed segments. -/
theorem reclaim (mirrors : Mirrors codec wal journal) (index : UInt64) :
    Mirrors codec (wal.reclaim index) (journal.reclaim index) := by
  refine ⟨⟨?_, mirrors.holds.seq, mirrors.holds.bytes,
    mirrors.holds.state, ?_, ?_⟩, mirrors.maxIndex, ?_⟩
  · have dir := mirrors.holds.dir
    simp only [List.map_nil, List.append_nil] at dir ⊢
    simp only [Wal.reclaim, dir, Journal.segments, Journal.reclaim,
      filesOf_append, List.filter_append, filesOf_cons, filesOf_nil,
      List.filter_cons, mirrors.active_linked index, Bool.not_false,
      if_true, List.filter_nil]
    congr 1
    unfold filesOf
    rw [List.filter_map]
    congr 1
    exact List.filter_congr fun segment member =>
      mirrors.older_linked index member
  · simpa [Journal.segments] using (journal.reclaim index).ascending
  · intro record member
    apply mirrors.holds.framable record
    unfold Journal.records recordsOf at member ⊢
    obtain ⟨segment, held, inside⟩ := List.mem_flatMap.mp member
    refine List.mem_flatMap.mpr ⟨segment, ?_, inside⟩
    simp only [Journal.segments, Journal.reclaim, List.mem_append,
      List.mem_filter] at held ⊢
    exact held.imp_left And.left
  · simp only [Wal.reclaim, Journal.reclaim, mirrors.closed]
    rw [List.filter_map]
    rfl

theorem appendEntries
    (mirrors : Mirrors codec wal journal) {entries : List Entry}
    (framable : ∀ entry ∈ entries,
      Framable codec.toFrameCodec (.entry entry)) :
    Mirrors codec (wal.appendEntries codec entries)
      (journal.appendEntries codec entries) := by
  induction entries generalizing wal journal with
  | nil =>
      exact mirrors
  | cons entry rest inductionHypothesis =>
      exact inductionHypothesis
        (mirrors.mutate (framable entry List.mem_cons_self))
        fun other member =>
          framable other (List.mem_cons_of_mem entry member)

theorem purge
    (mirrors : Mirrors codec wal journal) (logId : LogId) :
    Mirrors codec (wal.purge codec logId) (journal.purge codec logId) :=
  (mirrors.mutate (framable_of_isMarker codec rfl)).reclaim logId.index

end Mirrors

end AetherEngine.Consensus
