import AetherEngine.Consensus.WalCrash
import AetherEngine.Consensus.WalReplay
import AetherEngine.Foundations.Runs

/-!
# Writing on after damage

One frame of a directory has become unreadable.  Opening the directory always
folds exactly the records in front of that frame.  Whether the log can then be
written on depends on the segment that becomes active: it is the damaged one
when no later segment was listed, and segment `0` otherwise, which is wrong as
soon as a segment above `0` still holds records.
-/

namespace AetherEngine.Consensus

open AetherEngine.Frames
open AetherEngine.Runs

variable {codec : WalCodec}

/-! ## Damaged directories -/

/-- The files of some segments, one of which has the frame between `kept` and
`behind` replaced by other bytes. -/
def damagedDirectory (codec : WalCodec) (before : List SegmentRecords)
    (seq : Nat) (kept : List WalRecord) (damage : Bytes)
    (behind : List WalRecord) (later : List SegmentRecords) : Directory :=
  damagedFiles codec before seq kept
    (damage ++ frames codec.toFrameCodec behind) (filesOf codec later)

/-- The damaged segment is the newest, or no segment above `0` keeps a
record. -/
def WellPlaced (before : List SegmentRecords) (seq : Nat)
    (kept : List WalRecord) (later : List SegmentRecords) : Prop :=
  later = [] ∨
    ∀ segment ∈ before ++ [(seq, kept)], 0 < segment.1 → segment.2 = []

/-- What a later mutation needs of the log it is performed on.  Purges are not
among the later mutations. -/
def LaterSafe (codec : WalCodec) (wal : Wal) : Mutation → Prop
  | .appendEntries entries =>
      ∀ entry ∈ entries, Framable codec.toFrameCodec (.entry entry)
  | .truncateFrom _ => True
  | .saveCommitted none =>
      wal.state.committed = none ∨
        (wal.write codec (.committed none)).segment.bytes < segmentMaxBytes
  | .saveCommitted (some _) => True
  | .purge _ => False

/-- Closing the log and opening its directory gives the live state. -/
def ReopensLive (codec : WalCodec) (wal : Wal) : Prop :=
  (openWal codec wal.dir).state = wal.state

/-! ## Logs that reopen to their live state -/

/-- The log holds a faithful journal, possibly followed by empty files. -/
def Durable (codec : WalCodec) (wal : Wal) : Prop :=
  ∃ journal spare, Holds codec wal journal spare ∧ journal.Faithful

theorem recordsOf_spare (spare : List Nat) :
    recordsOf (spare.map fun seq => (seq, [])) = [] := by
  simp [recordsOf]

private theorem Durable.reopensLive {wal : Wal} (durable : Durable codec wal) :
    ReopensLive codec wal := by
  obtain ⟨journal, spare, held, faithful⟩ := durable
  have records :
      recordsOf (journal.segments ++ spare.map fun seq => (seq, [])) =
        journal.records := by
    rw [recordsOf_append, recordsOf_spare, List.append_nil]
    rfl
  have framable := held.framable
  rw [← records] at framable
  unfold ReopensLive
  rw [held.dir, openWal_state framable, records, faithful, held.state]

theorem Durable.mutate {wal : Wal} (durable : Durable codec wal)
    {record : WalRecord} (framable : Framable codec.toFrameCodec record)
    (keeps : record = .committed none →
      wal.state.committed = none ∨
        (wal.write codec record).segment.bytes < segmentMaxBytes) :
    Durable codec (wal.mutate codec record) := by
  obtain ⟨journal, spare, held, faithful⟩ := durable
  refine ⟨journal.mutate codec record, _, held.mutate framable,
    faithful.mutate ?_⟩
  intro clears rotates
  rw [← held.state]
  rcases keeps clears with unset | small
  · exact unset
  · exact absurd ((held.rotates_iff record).mpr rotates)
      (Nat.not_le.mpr small)

theorem Durable.appendEntries {wal : Wal} (durable : Durable codec wal)
    {entries : List Entry}
    (framable : ∀ entry ∈ entries,
      Framable codec.toFrameCodec (.entry entry)) :
    Durable codec (wal.appendEntries codec entries) := by
  induction entries generalizing wal with
  | nil =>
      exact durable
  | cons entry rest inductionHypothesis =>
      refine inductionHypothesis
        (durable.mutate (framable entry List.mem_cons_self) ?_)
        fun other member =>
          framable other (List.mem_cons_of_mem entry member)
      intro impossible
      cases impossible

theorem Durable.perform {wal : Wal} (durable : Durable codec wal)
    {mutation : Mutation} (safe : LaterSafe codec wal mutation) :
    Durable codec (wal.perform codec mutation) := by
  cases mutation with
  | appendEntries entries =>
      exact durable.appendEntries safe
  | truncateFrom index =>
      refine durable.mutate (framable_of_isMarker codec rfl) ?_
      intro impossible
      cases impossible
  | purge logId =>
      exact safe.elim
  | saveCommitted pointer =>
      refine durable.mutate (framable_of_isMarker codec rfl) ?_
      intro clears
      cases clears
      exact safe

/-! ## Damage by one flipped bit -/

/-- The frame of a record with the lowest bit of its checksum flipped. -/
def flippedFrame (codec : WalCodec) (record : WalRecord) : Bytes :=
  sealedFrame (codec.checksum (codec.encode record) ^^^ 1)
    (codec.encode record)

private theorem xor_one_ne (number : UInt32) : number ^^^ 1 ≠ number := by
  intro same
  have flipped : number ^^^ (number ^^^ 1) = number ^^^ number := by
    rw [same]
  rw [← UInt32.xor_assoc, UInt32.xor_self, UInt32.zero_xor] at flipped
  exact absurd flipped (by decide)

theorem readFrame_flippedFrame {record : WalRecord}
    (framable : Framable codec.toFrameCodec record) (rest : Bytes) :
    readFrame codec.toFrameCodec (flippedFrame codec record ++ rest) =
      .damaged :=
  readFrame_of_checksum_ne codec.toFrameCodec framable
    (xor_one_ne _).symm rest

/-! ## Opening a damaged directory -/

section Opening

variable {before later : List SegmentRecords} {seq : Nat}
  {kept behind : List WalRecord} {damage : Bytes}

/-- The records in front of the damage are folded, wherever it is. -/
theorem openWal_damagedDirectory_state
    (framable : ∀ record ∈ recordsOf (before ++ [(seq, kept)]),
      Framable codec.toFrameCodec record)
    (damaged : readFrame codec.toFrameCodec
      (damage ++ frames codec.toFrameCodec behind) = .damaged) :
    (openWal codec
      (damagedDirectory codec before seq kept damage behind later)).state =
        replay (recordsOf (before ++ [(seq, kept)])) := by
  have scanned :=
    scanSegments_damaged framable damaged (filesOf codec later)
  simp only [openWal, damagedDirectory, scanned]

/-- A log over whole segments whose newest one is active. -/
theorem durable_openWal_whole
    {older : List SegmentRecords} {active : SegmentRecords}
    (ascending : ((older ++ [active]).map Prod.fst).Pairwise (· < ·))
    (framable : ∀ record ∈ recordsOf (older ++ [active]),
      Framable codec.toFrameCodec record) :
    Durable codec (openWal codec (filesOf codec (older ++ [active]))) := by
  rw [openWal_whole ascending framable]
  refine ⟨⟨older, active, replay (recordsOf (older ++ [active])),
    ascending⟩, [], ⟨?_, rfl, rfl, rfl, ?_, framable⟩, rfl⟩
  · simp [Journal.segments]
  · simpa [Journal.segments] using ascending

/-- A log whose active segment is `0`, above which only empty files exist. -/
theorem durable_of_first_active
    {wal : Wal} {records : List WalRecord} {spare : List Nat}
    (dir : wal.dir =
      filesOf codec ((0, records) :: spare.map fun seq => (seq, [])))
    (ascending : (0 :: spare).Pairwise (· < ·))
    (framable : ∀ record ∈ records, Framable codec.toFrameCodec record)
    (active : wal.segment.seq = 0)
    (bytes : wal.segment.bytes = wal.dir.fileLength 0)
    (state : wal.state = replay records) :
    Durable codec wal := by
  refine ⟨⟨[], (0, records), replay records, by simp⟩, spare,
    ⟨dir, active, ?_, state, ?_, ?_⟩, ?_⟩
  · rw [bytes, dir]
    exact @Directory.fileLength_existing [] 0 (by simp) _ _
  · simpa [Journal.segments, Function.comp_def] using ascending
  · simpa [Journal.records, Journal.segments] using framable
  · simp [Journal.Faithful, Journal.records, Journal.segments]

/-- Segments above a given number that hold no records are spare files. -/
theorem eq_map_spare {segments : List SegmentRecords}
    (empty : ∀ segment ∈ segments, segment.2 = []) :
    segments = (segments.map Prod.fst).map fun seq => (seq, []) := by
  induction segments with
  | nil =>
      rfl
  | cons segment rest inductionHypothesis =>
      obtain ⟨number, records⟩ := segment
      have none := empty (number, records) List.mem_cons_self
      simp only at none
      subst none
      rw [List.map_cons, List.map_cons,
        ← inductionHypothesis fun other member =>
          empty other (List.mem_cons_of_mem _ member)]

/-- Surviving segments that keep records only in segment `0` are that segment
and spare files, once segment `0` has been created. -/
theorem appendFile_zero_spare (codec : WalCodec)
    {segments : List SegmentRecords}
    (ascending : (segments.map Prod.fst).Pairwise (· < ·))
    (empty : ∀ segment ∈ segments, 0 < segment.1 → segment.2 = []) :
    ∃ records spare,
      (filesOf codec segments).appendFile 0 [] =
          filesOf codec ((0, records) :: spare.map fun seq => (seq, [])) ∧
        (0 :: spare).Pairwise (· < ·) ∧
        recordsOf segments = records := by
  cases segments with
  | nil =>
      exact ⟨[], [], by simp [Directory.appendFile], by simp, rfl⟩
  | cons first rest =>
      obtain ⟨number, records⟩ := first
      have split := List.pairwise_cons.mp ascending
      by_cases present : number = 0
      · subst present
        have restEmpty : ∀ segment ∈ rest, segment.2 = [] :=
          fun segment member =>
            empty segment (List.mem_cons_of_mem _ member)
              (split.1 segment.1 (List.mem_map_of_mem member))
        refine ⟨records, rest.map Prod.fst, ?_, ascending, ?_⟩
        · rw [← eq_map_spare restEmpty]
          simp [Directory.appendFile]
        · rw [recordsOf_cons, eq_map_spare restEmpty, recordsOf_spare,
            List.append_nil]
      · have allEmpty :
            ∀ segment ∈ (number, records) :: rest, segment.2 = [] := by
          intro segment member
          apply empty segment member
          rcases List.mem_cons.mp member with rfl | inRest
          · exact Nat.pos_of_ne_zero present
          · have above :=
              split.1 segment.1 (List.mem_map_of_mem inRest)
            simp only at above
            omega
        refine ⟨[], ((number, records) :: rest).map Prod.fst, ?_, ?_, ?_⟩
        · rw [← eq_map_spare allEmpty]
          have positive : 0 < number := Nat.pos_of_ne_zero present
          simp [Directory.appendFile, present, positive]
        · refine List.pairwise_cons.mpr ⟨?_, ascending⟩
          intro other member
          rcases List.mem_cons.mp member with rfl | inRest
          · exact Nat.pos_of_ne_zero present
          · have above := split.1 other inRest
            simp only at above
            omega
        · rw [eq_map_spare allEmpty, recordsOf_spare]

private theorem durable_openWal_damaged
    (ascending :
      ((before ++ (seq, kept) :: later).map Prod.fst).Pairwise (· < ·))
    (framable : ∀ record ∈ recordsOf (before ++ [(seq, kept)]),
      Framable codec.toFrameCodec record)
    (damaged : readFrame codec.toFrameCodec
      (damage ++ frames codec.toFrameCodec behind) = .damaged)
    (placed : WellPlaced before seq kept later) :
    Durable codec (openWal codec
      (damagedDirectory codec before seq kept damage behind later)) := by
  have surviving :
      ((before ++ [(seq, kept)]).map Prod.fst).Pairwise (· < ·) := by
    refine List.Pairwise.sublist (List.Sublist.map Prod.fst ?_) ascending
    exact List.Sublist.append (List.Sublist.refl _)
      (List.Sublist.cons_cons _ (List.nil_sublist _))
  unfold damagedDirectory
  by_cases newest : later = []
  · subst newest
    rw [filesOf_nil, openWal_damaged_newest surviving framable damaged]
    exact durable_openWal_whole surviving framable
  · have onlyFirst := placed.resolve_left newest
    obtain ⟨state, dir, active, bytes⟩ :=
      openWal_damaged_middle ascending framable damaged newest
    obtain ⟨records, spare, files, spareAscending, held⟩ :=
      appendFile_zero_spare codec surviving onlyFirst
    rw [held] at framable state
    rw [files] at dir bytes
    rw [← dir] at bytes
    exact durable_of_first_active dir spareAscending framable active bytes
      state

/-- Opening a directory with one damaged frame folds exactly the records in
front of it.  When the damaged segment is the newest, or no segment above `0`
keeps a record, every later run of safe mutations reopens to its live state at
every point. -/
theorem damaged_log_written_on
    (ascending :
      ((before ++ (seq, kept) :: later).map Prod.fst).Pairwise (· < ·))
    (framable : ∀ record ∈ recordsOf (before ++ [(seq, kept)]),
      Framable codec.toFrameCodec record)
    (damaged : readFrame codec.toFrameCodec
      (damage ++ frames codec.toFrameCodec behind) = .damaged) :
    (openWal codec
      (damagedDirectory codec before seq kept damage behind later)).state =
        replay (recordsOf before ++ kept) ∧
      (WellPlaced before seq kept later →
        ∀ mutations : List Mutation,
          EachStep (Wal.perform codec) (LaterSafe codec)
            (openWal codec (damagedDirectory codec before seq kept damage
              behind later)) mutations →
          Throughout (Wal.perform codec) (ReopensLive codec)
            (openWal codec (damagedDirectory codec before seq kept damage
              behind later)) mutations) := by
  constructor
  · rw [openWal_damagedDirectory_state framable damaged,
      recordsOf_append, recordsOf_cons, recordsOf_nil, List.append_nil]
  · intro placed mutations safe
    have durable :=
      durable_openWal_damaged ascending framable damaged placed
    exact throughout_mono (fun _ holds => Durable.reopensLive holds)
      (throughout_of_eachStep
        (fun _ _ holds stepSafe => Durable.perform holds stepSafe)
        durable safe)

end Opening

/-- The second record of segment `0` is damaged while segment `1` exists; the
log is then written on. -/
def writtenOn : List Mutation :=
  [.appendEntries [⟨⟨⟨1, 1⟩, 2⟩, .normal [7]⟩],
    .saveCommitted (some ⟨⟨1, 1⟩, 2⟩), .truncateFrom 2]

theorem damaged_log_written_on_first :
    WellPlaced [] 0 [.entry ⟨⟨⟨1, 1⟩, 1⟩, .blank⟩]
        [(1, [.checkpoint none none])] ∧
      Throughout (Wal.perform bincodeCodec) (ReopensLive bincodeCodec)
        (openWal bincodeCodec
          (damagedDirectory bincodeCodec [] 0
            [.entry ⟨⟨⟨1, 1⟩, 1⟩, .blank⟩]
            (flippedFrame bincodeCodec (.truncateFrom 5))
            [.committed none] [(1, [.checkpoint none none])]))
        writtenOn := by
  have placed : WellPlaced [] 0 [.entry ⟨⟨⟨1, 1⟩, 1⟩, .blank⟩]
      [(1, [.checkpoint none none])] := by
    refine Or.inr fun segment member above => ?_
    rw [List.mem_singleton.mp member] at above
    exact absurd above (Nat.lt_irrefl 0)
  have framable :
      ∀ record ∈ [WalRecord.entry ⟨⟨⟨1, 1⟩, 1⟩, .blank⟩,
        .entry ⟨⟨⟨1, 1⟩, 2⟩, .normal [7]⟩],
        Framable bincodeCodec.toFrameCodec record := by
    unfold Framable
    decide +kernel
  refine ⟨placed, (damaged_log_written_on (by simp) ?_
    (readFrame_flippedFrame (framable_of_isMarker bincodeCodec rfl) _)).2
      placed writtenOn ⟨?_, trivial, trivial, trivial⟩⟩
  · intro record member
    exact framable record (List.mem_cons.mpr (Or.inl
      (List.mem_singleton.mp member)))
  · intro entry member
    rw [List.mem_singleton.mp member]
    exact framable _ (by simp)

/-! ### Damage in front of a later segment -/

section Misplaced

variable {first second : Entry}

/-- Two entries with a committed marker between them. -/
def markedMutations (first second : Entry) : List Mutation :=
  [.appendEntries [first], .saveCommitted (some first.logId),
    .appendEntries [second]]

/-- The segments of these mutations when each entry fills a segment. -/
def markedSegments (first second : Entry) : List SegmentRecords :=
  [(0, [.entry first]),
    (1, [.checkpoint none none, .committed (some first.logId),
      .entry second]),
    (2, [.checkpoint none (some first.logId)])]

/-- The same files after one bit of the second entry's frame has flipped. -/
def markedDamage (codec : WalCodec) (first second : Entry) : Directory :=
  damagedDirectory codec [(0, [.entry first])] 1
    [.checkpoint none none, .committed (some first.logId)]
    (flippedFrame codec (.entry second)) []
    [(2, [.checkpoint none (some first.logId)])]

private theorem markedMutations_dir
    (firstFull : segmentMaxBytes ≤
      frameHeader + (codec.encode (.entry first)).length)
    (secondFull : segmentMaxBytes ≤
      frameHeader + (codec.encode (.entry second)).length) :
    ((markedMutations first second).foldl (Wal.perform codec)
      (openWal codec [])).dir =
        filesOf codec (markedSegments first second) := by
  have headSmall := codec.marker_length (.checkpoint none none) rfl
  have markerSmall :=
    codec.marker_length (.committed (some first.logId)) rfl
  have markerFits :
      ¬ segmentMaxBytes ≤
        frameHeader + (codec.encode (.checkpoint none none)).length +
          (frameHeader +
            (codec.encode (.committed (some first.logId))).length) := by
    simp only [segmentMaxBytes, frameHeader]
    omega
  have alsoFull :
      segmentMaxBytes ≤
        frameHeader + (codec.encode (.checkpoint none none)).length +
          (frameHeader +
            (codec.encode (.committed (some first.logId))).length) +
          (frameHeader + (codec.encode (.entry second)).length) := by
    omega
  simp [markedMutations, markedSegments, openWal_nil, Wal.perform,
    Wal.appendEntries, Wal.saveCommitted, Wal.mutate, Wal.append,
    Wal.write, firstFull, Wal.rotate, Wal.startSegment, Wal.headRecord,
    Directory.appendFile, markerFits, alsoFull, WalState.apply, frames]

/-- The second committed marker is written in front of the surviving one, so
a restart brings the older pointer back. -/
theorem markedDamage_reopens_stale
    (firstFull : segmentMaxBytes ≤
      frameHeader + (codec.encode (.entry first)).length)
    (firstFramable : Framable codec.toFrameCodec (.entry first))
    (secondFramable : Framable codec.toFrameCodec (.entry second))
    (different : second.logId ≠ first.logId) :
    ¬ Throughout (Wal.perform codec) (ReopensLive codec)
      (openWal codec (markedDamage codec first second))
      [.saveCommitted (some second.logId)] := by
  intro durable
  rcases durable with ⟨_, live⟩
  have headFramable : ∀ lastPurged committed,
      Framable codec.toFrameCodec (.checkpoint lastPurged committed) :=
    fun _ _ => framable_of_isMarker codec rfl
  have markerFramable : ∀ pointer,
      Framable codec.toFrameCodec (.committed pointer) :=
    fun _ => framable_of_isMarker codec rfl
  have framable : ∀ record ∈
      recordsOf ([((0 : Nat), [WalRecord.entry first])] ++
        [(1, [.checkpoint none none, .committed (some first.logId)])]),
          Framable codec.toFrameCodec record := by
    simp [firstFramable, headFramable, markerFramable]
  have damaged :
      readFrame codec.toFrameCodec
        (flippedFrame codec (.entry second) ++
          frames codec.toFrameCodec []) = .damaged :=
    readFrame_flippedFrame secondFramable _
  have ascending :
      (([((0 : Nat), [WalRecord.entry first])] ++
        (1, [WalRecord.checkpoint none none,
          .committed (some first.logId)]) ::
          [(2, [.checkpoint none (some first.logId)])]).map
            Prod.fst).Pairwise (· < ·) := by
    simp
  obtain ⟨state, dir, active, bytes⟩ :=
    openWal_damaged_middle ascending framable damaged (by simp)
  have written :
      ((openWal codec (markedDamage codec first second)).perform codec
        (.saveCommitted (some second.logId))).dir =
      filesOf codec
        [(0, [.entry first, .committed (some second.logId)]),
          (1, [.checkpoint none none, .committed (some first.logId),
            .checkpoint none (some first.logId)])] := by
    change ((openWal codec (damagedFiles _ _ _ _ _ _)).perform codec
      _).dir = _
    generalize openWal codec (damagedFiles codec _ _ _ _ _) = wal at *
    have size : wal.segment.bytes =
        frameHeader + (codec.encode (.entry first)).length := by
      rw [bytes]
      simp [Directory.appendFile, Directory.fileLength]
    have full : segmentMaxBytes ≤
        frameHeader + (codec.encode (.entry first)).length +
          (frameHeader +
            (codec.encode (.committed (some second.logId))).length) := by
      omega
    simp [Wal.perform, Wal.saveCommitted, Wal.mutate, Wal.append,
      Wal.write, dir, active, size, state, full, Wal.rotate,
      Wal.startSegment, Wal.headRecord, Directory.appendFile, replay,
      WalState.apply]
  have rewritten : ∀ record ∈ recordsOf
      [(0, [.entry first, .committed (some second.logId)]),
        ((1 : Nat), [.checkpoint none none, .committed (some first.logId),
          .checkpoint none (some first.logId)])],
        Framable codec.toFrameCodec record := by
    simp [firstFramable, headFramable, markerFramable]
  have stale := openWal_state rewritten
  unfold Throughout ReopensLive at live
  rw [written, stale] at live
  have pointer := congrArg WalState.committed live
  simp [replay, WalState.apply, Wal.perform, Wal.saveCommitted,
    Wal.mutate] at pointer
  exact different pointer.symm

end Misplaced

/-- A payload of one segment's size. -/
@[irreducible]
def segmentPayload : Bytes :=
  List.replicate 8388608 0

private theorem segmentPayload_length : segmentPayload.length = 8388608 := by
  unfold segmentPayload
  exact List.length_replicate

/-- The entry with a given index that fills a segment. -/
def segmentEntry (index : UInt64) : Entry where
  logId := ⟨⟨1, 1⟩, index⟩
  payload := .normal segmentPayload

private theorem encode_segmentEntry_length (index : UInt64) :
    (bincodeCodec.encode (.entry (segmentEntry index))).length =
      8388648 := by
  have size :=
    walRecordLayout_normal_length ⟨⟨1, 1⟩, index⟩ segmentPayload
  rw [segmentPayload_length] at size
  exact size

/-- The log writes three segments, a bit flips in the second one, and the
committed pointer saved after the recovery is replaced by the older one at the
next restart. -/
theorem segmentEntry_pointer_reverts :
    ((markedMutations (segmentEntry 1) (segmentEntry 2)).foldl
        (Wal.perform bincodeCodec) (openWal bincodeCodec [])).dir =
        filesOf bincodeCodec
          (markedSegments (segmentEntry 1) (segmentEntry 2)) ∧
      readFrame bincodeCodec.toFrameCodec
        (flippedFrame bincodeCodec (.entry (segmentEntry 2))) =
          .damaged ∧
      ¬ Throughout (Wal.perform bincodeCodec) (ReopensLive bincodeCodec)
        (openWal bincodeCodec
          (markedDamage bincodeCodec (segmentEntry 1) (segmentEntry 2)))
        [.saveCommitted (some (segmentEntry 2).logId)] := by
  have full : ∀ index, segmentMaxBytes ≤ frameHeader +
      (bincodeCodec.encode (.entry (segmentEntry index))).length := by
    intro index
    rw [encode_segmentEntry_length, segmentMaxBytes]
    omega
  have framable : ∀ index,
      Framable bincodeCodec.toFrameCodec (.entry (segmentEntry index)) := by
    intro index
    unfold Framable
    rw [encode_segmentEntry_length]
    omega
  have damaged := readFrame_flippedFrame (framable 2) []
  rw [List.append_nil] at damaged
  refine ⟨markedMutations_dir (full 1) (full 2), damaged,
    markedDamage_reopens_stale (full 1) (framable 1) (framable 2) ?_⟩
  intro same
  have index := congrArg LogId.index same
  simp [segmentEntry] at index

end AetherEngine.Consensus
