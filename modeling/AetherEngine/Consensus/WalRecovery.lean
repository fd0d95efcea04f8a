import AetherEngine.Consensus.Journal

/-!
# Opening a directory

What `openWal` returns on a directory of whole segments, and on a directory in
which one segment stops being readable.  In the second case the scan yields
the records in front of the unreadable tail and the repaired directory holds
exactly these records; which segment then becomes active depends on whether a
later segment was listed.
-/

namespace AetherEngine.Consensus

open AetherEngine.Frames

variable {codec : WalCodec}

/-! ## Whole segments -/

/-- Whole segments are folded one after the other. -/
theorem scanSegments_whole
    {segments : List SegmentRecords}
    (framable : ∀ record ∈ recordsOf segments,
      Framable codec.toFrameCodec record)
    (found : Recovery) (intact : found.corruptAt = none)
    (rest : Directory) :
    scanSegments codec found (filesOf codec segments ++ rest) =
      scanSegments codec
        { state :=
            (recordsOf segments).foldl WalState.apply found.state
          closed := found.closed ++ segments.map closedHeader
          corruptAt := none } rest := by
  induction segments generalizing found with
  | nil =>
      obtain ⟨state, closed, corruptAt⟩ := found
      simp only at intact
      subst intact
      simp
  | cons segment later inductionHypothesis =>
      rw [recordsOf_cons, framable_append] at framable
      rw [filesOf_cons, List.cons_append, scanSegments]
      simp only [scan_frames codec.toFrameCodec framable.1, if_true]
      rw [inductionHypothesis framable.2 _ rfl]
      simp [closedHeader, List.foldl_append]

/-- The fold of an undamaged directory is the replay of its records. -/
theorem openWal_state
    {segments : List SegmentRecords}
    (framable : ∀ record ∈ recordsOf segments,
      Framable codec.toFrameCodec record) :
    (openWal codec (filesOf codec segments)).state =
      replay (recordsOf segments) := by
  have scanned :=
    scanSegments_whole framable {} rfl []
  rw [List.append_nil] at scanned
  simp only [openWal, scanned, scanSegments, replay]

private theorem find?_closedHeader
    {older : List SegmentRecords} (active : SegmentRecords)
    (below : ∀ other ∈ older, other.1 < active.1) :
    (((older ++ [active]).map closedHeader).find? fun item =>
        decide (item.1 = active.1)) = some (closedHeader active) := by
  have skipped :
      ((older.map closedHeader).find? fun item =>
        decide (item.1 = active.1)) = none := by
    rw [List.find?_eq_none]
    intro item member equal
    obtain ⟨segment, held, rfl⟩ := List.mem_map.mp member
    have lower := below segment held
    exact Nat.ne_of_lt lower (of_decide_eq_true equal)
  rw [List.map_append, List.find?_append, skipped]
  simp [closedHeader]

private theorem filter_closedHeader
    {older : List SegmentRecords} (active : SegmentRecords)
    (below : ∀ other ∈ older, other.1 < active.1) :
    (((older ++ [active]).map closedHeader).filter fun item =>
        decide (item.1 ≠ active.1)) = older.map closedHeader := by
  have kept :
      ((older.map closedHeader).filter fun item =>
        decide (item.1 ≠ active.1)) = older.map closedHeader := by
    apply List.filter_eq_self.mpr
    intro item member
    obtain ⟨segment, held, rfl⟩ := List.mem_map.mp member
    exact decide_eq_true (Nat.ne_of_lt (below segment held))
  rw [List.map_append, List.filter_append, kept]
  simp [closedHeader]

/-- Opening whole segments changes no file, makes the newest segment active
and closes the others. -/
theorem openWal_whole
    {older : List SegmentRecords} {active : SegmentRecords}
    (ascending : ((older ++ [active]).map Prod.fst).Pairwise (· < ·))
    (framable : ∀ record ∈ recordsOf (older ++ [active]),
      Framable codec.toFrameCodec record) :
    openWal codec (filesOf codec (older ++ [active])) =
      { dir := filesOf codec (older ++ [active])
        segment :=
          { seq := active.1
            bytes := (frames codec.toFrameCodec active.2).length
            maxIndex := maxIndexOf active.2 }
        closed := older.map closedHeader
        state := replay (recordsOf (older ++ [active])) } := by
  have below := (below_of_ascending ascending).1
  have scanned :=
    scanSegments_whole framable {} rfl []
  rw [List.append_nil] at scanned
  have lastSeq :
      chooseActive
        ((filesOf codec (older ++ [active])).map Prod.fst) none =
          active.1 := by
    simp [chooseActive, Option.filter]
  have unchanged :
      (filesOf codec (older ++ [active])).appendFile active.1 [] =
        filesOf codec (older ++ [active]) := by
    rw [filesOf_append, filesOf_cons, filesOf_nil,
      Directory.appendFile_existing (files_below codec below),
      List.append_nil]
  have size :
      (filesOf codec (older ++ [active])).fileLength active.1 =
        (frames codec.toFrameCodec active.2).length := by
    rw [filesOf_append, filesOf_cons, filesOf_nil,
      Directory.fileLength_existing (files_below codec below)]
  simp only [openWal, scanned, scanSegments, repair, lastSeq, unchanged,
    size, List.nil_append, find?_closedHeader active below,
    filter_closedHeader active below, replay]
  simp [closedHeader]

/-- The log that creates its first segment. -/
def emptyJournal : Journal where
  older := []
  active := (0, [])
  state := {}
  ascending := by simp

theorem Journal.activeBytes_empty (codec : WalCodec) :
    emptyJournal.activeBytes codec = 0 := by
  simp [Journal.activeBytes, emptyJournal]

theorem openWal_nil :
    openWal codec [] =
      { dir := [(0, [])]
        segment := { seq := 0, bytes := 0, maxIndex := none }
        closed := []
        state := {} } := by
  simp [openWal, scanSegments, repair, chooseActive,
    Directory.appendFile, Directory.fileLength]

theorem mirrors_openWal_nil :
    Mirrors codec (openWal codec []) emptyJournal := by
  rw [openWal_nil]
  refine ⟨⟨?_, rfl, ?_, rfl, ?_, ?_⟩, rfl, rfl⟩
  · simp [emptyJournal, Journal.segments]
  · simp [emptyJournal, Journal.activeBytes]
  · simp [emptyJournal, Journal.segments]
  · simp [emptyJournal, Journal.records, Journal.segments]

/-- Reopening a mirrored log only replaces its state by the replay of what is
on disk. -/
theorem Mirrors.reopen
    {wal : Wal} {journal : Journal} (mirrors : Mirrors codec wal journal) :
    openWal codec wal.dir =
      { wal with state := replay journal.records } := by
  have dir := mirrors.holds.dir
  simp only [List.map_nil, List.append_nil] at dir
  rw [dir]
  simp only [Journal.segments]
  rw [openWal_whole journal.ascending mirrors.holds.framable]
  obtain ⟨_, ⟨seq, bytes, maxIndex⟩, closed, _⟩ := wal
  have sameSeq := mirrors.holds.seq
  have sameBytes := mirrors.holds.bytes
  have sameMaxIndex := mirrors.maxIndex
  have sameClosed := mirrors.closed
  simp only at dir sameSeq sameBytes sameMaxIndex sameClosed
  subst dir sameSeq sameBytes sameMaxIndex sameClosed
  rfl

/-! ## An unreadable tail -/

section Damage

variable {before later : List SegmentRecords} {seq : Nat}
  {kept : List WalRecord} {tail : Bytes}

/-- The directory in which segment `seq` holds whole records followed by bytes
that do not start with a readable frame. -/
def damagedFiles (codec : WalCodec) (before : List SegmentRecords)
    (seq : Nat) (kept : List WalRecord) (tail : Bytes)
    (later : Directory) : Directory :=
  filesOf codec before ++
    (seq, frames codec.toFrameCodec kept ++ tail) :: later

theorem scanSegments_damaged
    (framable : ∀ record ∈ recordsOf (before ++ [(seq, kept)]),
      Framable codec.toFrameCodec record)
    (damaged : readFrame codec.toFrameCodec tail = .damaged)
    (laterFiles : Directory) :
    scanSegments codec {}
        (damagedFiles codec before seq kept tail laterFiles) =
      { state := replay (recordsOf (before ++ [(seq, kept)]))
        closed := (before ++ [(seq, kept)]).map closedHeader
        corruptAt :=
          some (seq, (frames codec.toFrameCodec kept).length) } := by
  rw [recordsOf_append, framable_append] at framable
  have keptFramable :
      ∀ record ∈ kept, Framable codec.toFrameCodec record := by
    simpa using framable.2
  rw [damagedFiles, scanSegments_whole framable.1 _ rfl, scanSegments]
  simp only [scan_frames_damaged codec.toFrameCodec keptFramable damaged]
  simp [replay, closedHeader, List.foldl_append]

/-- The repaired directory holds exactly the surviving records. -/
theorem repair_damaged (codec : WalCodec) (kept : List WalRecord)
    (tail : Bytes) {laterFiles : Directory}
    (below : ∀ other ∈ before, other.1 < seq)
    (above : ∀ file ∈ laterFiles, seq < file.1) :
    repair (damagedFiles codec before seq kept tail laterFiles)
        (some (seq, (frames codec.toFrameCodec kept).length)) =
      filesOf codec (before ++ [(seq, kept)]) := by
  have beforeKept :
      ((filesOf codec before).setLen seq
          (frames codec.toFrameCodec kept).length).filter
        (fun file => decide (file.1 ≤ seq)) = filesOf codec before := by
    have untouched :
        (filesOf codec before).setLen seq
            (frames codec.toFrameCodec kept).length =
          filesOf codec before := by
      unfold Directory.setLen
      rw [List.map_congr_left (g := id), List.map_id]
      intro file member
      have lower := files_below codec below file member
      exact if_neg (Nat.ne_of_lt lower)
    rw [untouched]
    apply List.filter_eq_self.mpr
    intro file member
    have lower := files_below codec below file member
    simp only [decide_eq_true_eq]
    omega
  have laterDropped :
      (Directory.setLen laterFiles seq
          (frames codec.toFrameCodec kept).length).filter
        (fun file => decide (file.1 ≤ seq)) = [] := by
    apply List.filter_eq_nil_iff.mpr
    intro file member
    obtain ⟨original, listed, rfl⟩ := List.mem_map.mp member
    have upper := above original listed
    rw [if_neg (by omega)]
    simp only [decide_eq_true_eq]
    omega
  have setLenSplit :
      (damagedFiles codec before seq kept tail laterFiles).setLen seq
          (frames codec.toFrameCodec kept).length =
        (filesOf codec before).setLen seq
            (frames codec.toFrameCodec kept).length ++
          (seq, frames codec.toFrameCodec kept) ::
            Directory.setLen laterFiles seq
              (frames codec.toFrameCodec kept).length := by
    simp [damagedFiles, Directory.setLen]
  rw [repair, setLenSplit, List.filter_append, beforeKept,
    List.filter_cons_of_pos (by simp), laterDropped]
  simp

/-- When the damaged segment is the newest one, opening the directory is
opening the repaired directory. -/
theorem openWal_damaged_newest
    (ascending :
      ((before ++ [(seq, kept)]).map Prod.fst).Pairwise (· < ·))
    (framable : ∀ record ∈ recordsOf (before ++ [(seq, kept)]),
      Framable codec.toFrameCodec record)
    (damaged : readFrame codec.toFrameCodec tail = .damaged) :
    openWal codec (damagedFiles codec before seq kept tail []) =
      openWal codec (filesOf codec (before ++ [(seq, kept)])) := by
  have below := (below_of_ascending ascending).1
  have scanned := scanSegments_damaged framable damaged []
  have repaired :=
    @repair_damaged before seq codec kept tail [] below (by simp)
  have lastSeq :
      chooseActive
        ((damagedFiles codec before seq kept tail []).map Prod.fst)
        (some (seq, (frames codec.toFrameCodec kept).length)) = seq := by
    simp [chooseActive, damagedFiles, Option.filter]
  have listed :
      (((before ++ [(seq, kept)]).map closedHeader).filter fun item =>
        decide (item.1 ≤ seq)) =
          (before ++ [(seq, kept)]).map closedHeader := by
    apply List.filter_eq_self.mpr
    intro item member
    obtain ⟨segment, held, rfl⟩ := List.mem_map.mp member
    apply decide_eq_true
    rcases List.mem_append.mp held with old | same
    · exact Nat.le_of_lt (below segment old)
    · rw [List.mem_singleton.mp same]
      exact Nat.le_refl seq
  have unchanged :
      (filesOf codec (before ++ [(seq, kept)])).appendFile seq [] =
        filesOf codec (before ++ [(seq, kept)]) := by
    rw [filesOf_append, filesOf_cons, filesOf_nil,
      Directory.appendFile_existing (files_below codec below),
      List.append_nil]
  have size :
      (filesOf codec (before ++ [(seq, kept)])).fileLength seq =
        (frames codec.toFrameCodec kept).length := by
    rw [filesOf_append, filesOf_cons, filesOf_nil,
      Directory.fileLength_existing (files_below codec below)]
  rw [openWal_whole ascending framable]
  have headers :=
    find?_closedHeader (seq, kept) below
  have olderHeaders :=
    filter_closedHeader (seq, kept) below
  simp only at headers olderHeaders
  simp only [openWal, scanned, repaired, lastSeq, listed, unchanged, size,
    headers, olderHeaders]
  simp [closedHeader]

/-- When later segments were listed, segment `0` becomes active. -/
theorem openWal_damaged_middle
    (ascending :
      ((before ++ (seq, kept) :: later).map Prod.fst).Pairwise (· < ·))
    (framable : ∀ record ∈ recordsOf (before ++ [(seq, kept)]),
      Framable codec.toFrameCodec record)
    (damaged : readFrame codec.toFrameCodec tail = .damaged)
    (listedLater : later ≠ []) :
    (openWal codec
        (damagedFiles codec before seq kept tail
          (filesOf codec later))).state =
        replay (recordsOf (before ++ [(seq, kept)])) ∧
      (openWal codec
        (damagedFiles codec before seq kept tail
          (filesOf codec later))).dir =
        (filesOf codec (before ++ [(seq, kept)])).appendFile 0 [] ∧
      (openWal codec
        (damagedFiles codec before seq kept tail
          (filesOf codec later))).segment.seq = 0 ∧
      (openWal codec
        (damagedFiles codec before seq kept tail
          (filesOf codec later))).segment.bytes =
        ((filesOf codec (before ++ [(seq, kept)])).appendFile 0
          []).fileLength 0 := by
  obtain ⟨below, above⟩ := below_of_ascending ascending
  have scanned :=
    scanSegments_damaged framable damaged (filesOf codec later)
  have repaired :=
    repair_damaged codec kept tail
      below (files_above codec above)
  have firstSegment :
      chooseActive
        ((damagedFiles codec before seq kept tail
          (filesOf codec later)).map Prod.fst)
        (some (seq, (frames codec.toFrameCodec kept).length)) = 0 := by
    obtain ⟨initial, newest, rfl⟩ :=
      List.eq_nil_or_concat' later |>.resolve_left listedLater
    have newestAbove : seq < newest.1 := above newest (by simp)
    have lastListed :
        ((damagedFiles codec before seq kept tail
          (filesOf codec (initial ++ [newest]))).map
            Prod.fst).getLast? = some newest.1 := by
      simp only [damagedFiles, List.map_append, List.map_cons,
        map_fst_filesOf, List.map_nil]
      rw [← List.cons_append, ← List.append_assoc,
        List.getLast?_concat]
    have notBelow : ¬ newest.1 ≤ seq := by omega
    rw [chooseActive, lastListed]
    simp [Option.filter, notBelow]
  simp only [openWal, scanned, repaired, firstSegment]
  exact ⟨trivial, trivial, trivial, trivial⟩

end Damage

end AetherEngine.Consensus
