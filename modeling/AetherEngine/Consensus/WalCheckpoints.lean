import AetherEngine.Consensus.WalHistory

/-!
# Checkpoints of segments

Checkpoints stay exact as long as no record that moves a pointer fills its
segment, no crash cuts a checkpoint off, and no purge unlinks a segment with a
purge or committed record while an older segment stays.  Each action of a call
and each crash keeps the account of what was written, what is on disk and what
is in memory; between calls the account gives the exact checkpoints.
-/

namespace AetherEngine.Consensus

open AetherEngine.Frames
open AetherEngine.Registers
open AetherEngine.Runs

/-! ## The invariant -/

/-- Between two records the actions only sync, unlink or return; a record that
is appended fits its frame and is folded next. -/
def Tidy (codec : WalCodec) : List Action → Prop
  | [] => True
  | .append record :: .fold folded :: rest =>
      folded = record ∧ record.isCheckpoint = false ∧
        Framable codec.toFrameCodec record ∧ Tidy codec rest
  | .sync :: rest => Tidy codec rest
  | .reclaim _ :: rest => Tidy codec rest
  | .acknowledge :: rest => Tidy codec rest
  | _ => False

private theorem tidy_actions {codec : WalCodec} {mutation : Mutation}
    (framed : mutation.Framed codec) : Tidy codec mutation.actions := by
  cases mutation with
  | appendEntries entries =>
      rw [Mutation.actions]
      simp only [Mutation.Framed] at framed
      induction entries with
      | nil =>
          trivial
      | cons entry rest inductionHypothesis =>
          have later := inductionHypothesis (fun other member =>
            framed other (List.mem_cons_of_mem entry member))
          exact ⟨rfl, rfl, framed entry List.mem_cons_self, later⟩
  | truncateFrom index =>
      exact ⟨rfl, rfl, framable_of_isMarker codec rfl, trivial⟩
  | purge logId =>
      exact ⟨rfl, rfl, framable_of_isMarker codec rfl, trivial⟩
  | saveCommitted pointer =>
      exact ⟨rfl, rfl, framable_of_isMarker codec rfl, trivial⟩

/-- All segments ever started, those on disk, and the record of what came before
each of them. -/
structure Recorded (codec : WalCodec) (history : WalHistory)
    (closed : List SegmentRecords) (journal : Journal) : Prop where
  mirrors : Mirrors codec history.session.wal journal
  written : history.session.written = recordsOf closed ++ journal.active.2
  starts : history.starts = startsOf [] (closed ++ [journal.active])
  pruned : Pruned Still closed journal.older
  ascending : ((closed ++ [journal.active]).map Prod.fst).Pairwise (· < ·)

/-- The record written last is the next to be folded. -/
structure Lagging (codec : WalCodec) (session : Session) (record : WalRecord)
    (rest : List Action) : Prop where
  tidy : Tidy codec rest
  current : (session.wal.state.apply record).pointers =
    (replay session.written).pointers

/-- How far the current record has come: the pointers in memory are those of the
records written, up to a record that is not folded yet; a segment is filled,
synced, followed by the next one and its checkpoint only by a record that leaves
the pointers alone. -/
inductive Stage (codec : WalCodec) (session : Session)
    (closed : List SegmentRecords) (active : SegmentRecords) : Prop
  | idle (chronicle : Chronicle (closed ++ [active]))
      (tidy : Tidy codec session.pending)
      (current : session.wal.state.pointers =
        (replay session.written).pointers)
  | lagging {record : WalRecord} {rest : List Action}
      (chronicle : Chronicle (closed ++ [active]))
      (lags : Lagging codec session record rest)
      (upcoming : session.pending = .fold record :: rest)
  | filled {record : WalRecord} {rest : List Action}
      (chronicle : Chronicle (closed ++ [active]))
      (lags : Lagging codec session record rest)
      (quiet : (session.wal.state.apply record).pointers =
        session.wal.state.pointers)
      (upcoming : session.pending =
        .sync :: .startSegment :: .checkpoint :: .fold record :: rest)
  | synced {record : WalRecord} {rest : List Action}
      (chronicle : Chronicle (closed ++ [active]))
      (lags : Lagging codec session record rest)
      (quiet : (session.wal.state.apply record).pointers =
        session.wal.state.pointers)
      (upcoming : session.pending =
        .startSegment :: .checkpoint :: .fold record :: rest)
  | started {record : WalRecord} {rest : List Action}
      (chronicle : Chronicle closed) (present : closed ≠ [])
      (empty : active.2 = [])
      (lags : Lagging codec session record rest)
      (quiet : (session.wal.state.apply record).pointers =
        session.wal.state.pointers)
      (upcoming : session.pending = .checkpoint :: .fold record :: rest)

def Accounted (codec : WalCodec) (history : WalHistory) : Prop :=
  ∃ closed journal, Recorded codec history closed journal ∧
    Stage codec history.session closed journal.active

theorem accounted_start (codec : WalCodec) :
    Accounted codec (WalHistory.start codec) := by
  refine ⟨[], emptyJournal, ⟨mirrors_openWal_nil, rfl, rfl,
    ⟨[], [], rfl, .nil⟩, ?_⟩, .idle ?_ trivial rfl⟩
  · simp [emptyJournal]
  · simp [Chronicle, AllHeaded, emptyJournal]

/-! ### Writing -/

private theorem replay_concat (records : List WalRecord) (record : WalRecord) :
    replay (records ++ [record]) = (replay records).apply record := by
  rw [replay_append]
  rfl

private theorem WalState.pointers_apply_congr {first second : WalState}
    (same : first.pointers = second.pointers) (record : WalRecord) :
    (first.apply record).pointers = (second.apply record).pointers := by
  obtain ⟨purged, committed⟩ := Prod.mk.inj same
  cases record <;> simp [WalState.pointers, WalState.apply, purged, committed]

/-- A checkpoint of the state's own pointers changes nothing. -/
theorem WalState.pointers_apply_checkpoint (state : WalState) :
    (state.apply (.checkpoint state.lastPurged state.committed)).pointers =
      state.pointers := by
  cases purged : state.lastPurged <;> cases committed : state.committed <;>
    simp [WalState.pointers, WalState.apply, purged, committed]

theorem Chronicle.write {closed : List SegmentRecords} {active : SegmentRecords}
    (chronicle : Chronicle (closed ++ [active])) {record : WalRecord}
    (plain : record.isCheckpoint = false) :
    Chronicle (closed ++ [(active.1, active.2 ++ [record])]) := by
  rw [chronicle_concat] at chronicle ⊢
  split at chronicle
  · rename_i first
    rw [if_pos first]
    intro other member
    rcases List.mem_append.mp member with held | isLast
    · exact chronicle other held
    · rw [List.mem_singleton.mp isLast]
      exact plain
  · rename_i later
    rw [if_neg later]
    exact ⟨chronicle.1, chronicle.2.concat plain⟩

theorem Recorded.write {codec : WalCodec} {history : WalHistory}
    {closed : List SegmentRecords} {journal : Journal}
    (recorded : Recorded codec history closed journal) {record : WalRecord}
    (framable : Framable codec.toFrameCodec record) (rest : List Action) :
    Recorded codec
      { history with session := history.session.append codec record rest }
      closed (journal.write record) where
  mirrors := recorded.mirrors.write framable
  written := by
    simp [Session.append, recorded.written, Journal.write]
  starts := by
    rw [recorded.starts, startsOf_concat, startsOf_concat]
    rfl
  pruned := recorded.pruned
  ascending := by
    simpa [Journal.write] using recorded.ascending

section Ticks

variable {codec : WalCodec} {history : WalHistory}
  {closed : List SegmentRecords} {journal : Journal} {record : WalRecord}
  {rest : List Action}

/-- A record that is written lags until it is folded. -/
theorem lagging_append {session : Session}
    (current : session.wal.state.pointers = (replay session.written).pointers)
    (tidy : Tidy codec rest) (record : WalRecord) (later : List Action) :
    Lagging codec (session.append codec record later) record rest where
  tidy := tidy
  current := by
    have written : (session.append codec record later).written =
        session.written ++ [record] := rfl
    rw [written, replay_concat]
    exact WalState.pointers_apply_congr current record

private theorem Accounted.tick_append
    (recorded : Recorded codec history closed journal)
    (chronicle : Chronicle (closed ++ [journal.active]))
    (current : history.session.wal.state.pointers =
      (replay history.session.written).pointers)
    (upcoming : history.session.pending = .append record :: .fold record :: rest)
    (plain : record.isCheckpoint = false)
    (framable : Framable codec.toFrameCodec record) (tidy : Tidy codec rest)
    (fills : history.session.FillsQuietly codec) :
    Accounted codec (history.step codec .tick) := by
  have stepped : history.step codec .tick =
      { history with
        session :=
          history.session.append codec record (.fold record :: rest) } := by
    simp only [WalHistory.step, Session.tick, upcoming]
  have lags := lagging_append current tidy record (.fold record :: rest)
  rw [stepped]
  refine ⟨closed, journal.write record, recorded.write framable _, ?_⟩
  simp only [Session.FillsQuietly, upcoming] at fills
  by_cases full : segmentMaxBytes ≤
      (history.session.wal.write codec record).segment.bytes
  · refine .filled (chronicle.write plain) lags (fills full) ?_
    simp only [Session.append, if_pos full]
  · refine .lagging (chronicle.write plain) lags ?_
    simp only [Session.append, if_neg full]

/-- The files and the history do not change. -/
theorem Recorded.of_session
    (recorded : Recorded codec history closed journal) {session : Session}
    (sameWal : session.wal = history.session.wal)
    (sameWritten : session.written = history.session.written) :
    Recorded codec { history with session := session } closed journal where
  mirrors := by
    rw [sameWal]
    exact recorded.mirrors
  written := by
    rw [sameWritten]
    exact recorded.written
  starts := recorded.starts
  pruned := recorded.pruned
  ascending := recorded.ascending

/-- An action that changes neither the files nor the memory. -/
theorem Accounted.tick_idle
    (recorded : Recorded codec history closed journal)
    (chronicle : Chronicle (closed ++ [journal.active]))
    (current : history.session.wal.state.pointers =
      (replay history.session.written).pointers)
    {session : Session}
    (stepped : history.step codec .tick = { history with session := session })
    (sameWal : session.wal = history.session.wal)
    (sameWritten : session.written = history.session.written)
    (tidy : Tidy codec session.pending) :
    Accounted codec (history.step codec .tick) := by
  rw [stepped]
  refine ⟨closed, journal, recorded.of_session sameWal sameWritten,
    .idle chronicle tidy ?_⟩
  rw [sameWal, sameWritten]
  exact current

private theorem Accounted.tick_filled
    (recorded : Recorded codec history closed journal)
    (chronicle : Chronicle (closed ++ [journal.active]))
    (lags : Lagging codec history.session record rest)
    (quiet : (history.session.wal.state.apply record).pointers =
      history.session.wal.state.pointers)
    (upcoming : history.session.pending =
      .sync :: .startSegment :: .checkpoint :: .fold record :: rest) :
    Accounted codec (history.step codec .tick) := by
  have stepped : history.step codec .tick =
      { history with
        session :=
          { history.session with
            synced := history.session.activeLength
            pending := .startSegment :: .checkpoint :: .fold record :: rest } } := by
    simp only [WalHistory.step, Session.tick, upcoming]
  rw [stepped]
  exact ⟨closed, journal, recorded.of_session rfl rfl,
    .synced chronicle ⟨lags.tidy, lags.current⟩ quiet rfl⟩

theorem Recorded.fold (recorded : Recorded codec history closed journal)
    (record : WalRecord) (rest : List Action) :
    Recorded codec
      { history with
        session :=
          { history.session with
            wal :=
              { history.session.wal with
                state := history.session.wal.state.apply record }
            pending := rest } }
      closed (journal.fold record) where
  mirrors := recorded.mirrors.fold record
  written := recorded.written
  starts := recorded.starts
  pruned := recorded.pruned
  ascending := recorded.ascending

private theorem Accounted.tick_fold
    (recorded : Recorded codec history closed journal)
    (chronicle : Chronicle (closed ++ [journal.active]))
    (lags : Lagging codec history.session record rest)
    (upcoming : history.session.pending = .fold record :: rest) :
    Accounted codec (history.step codec .tick) := by
  have stepped : history.step codec .tick =
      { history with
        session :=
          { history.session with
            wal :=
              { history.session.wal with
                state := history.session.wal.state.apply record }
            pending := rest } } := by
    simp only [WalHistory.step, Session.tick, upcoming]
  rw [stepped]
  exact ⟨closed, journal.fold record, recorded.fold record rest,
    .idle chronicle lags.tidy lags.current⟩

private theorem ascending_next {segments : List SegmentRecords}
    {last : SegmentRecords} (records : List WalRecord)
    (ascending : ((segments ++ [last]).map Prod.fst).Pairwise (· < ·)) :
    ((segments ++ [last] ++ [(last.1 + 1, records)]).map
      Prod.fst).Pairwise (· < ·) := by
  have below := (below_of_ascending ascending).1
  rw [List.map_append, List.pairwise_append]
  refine ⟨ascending, by simp, ?_⟩
  intro lower lowerMember upper upperMember
  obtain ⟨segment, member, rfl⟩ := List.mem_map.mp lowerMember
  rw [List.map_cons, List.map_nil, List.mem_singleton] at upperMember
  rw [upperMember]
  rcases List.mem_append.mp member with earlier | isLast
  · exact Nat.lt_succ_of_lt (below segment earlier)
  · rw [List.mem_singleton.mp isLast]
    exact Nat.lt_succ_self _

/-- The next segment starts behind everything written. -/
theorem Accounted.tick_startSegment
    (recorded : Recorded codec history closed journal)
    (chronicle : Chronicle (closed ++ [journal.active]))
    (lags : Lagging codec history.session record rest)
    (quiet : (history.session.wal.state.apply record).pointers =
      history.session.wal.state.pointers)
    (upcoming : history.session.pending =
      .startSegment :: .checkpoint :: .fold record :: rest) :
    Accounted codec (history.step codec .tick) := by
  have everything : recordsOf (closed ++ [journal.active]) =
      history.session.written := by
    rw [recorded.written]
    simp
  have stepped : history.step codec .tick =
      { session :=
          { history.session with
            wal := history.session.wal.startSegment
            synced := 0
            pending := .checkpoint :: .fold record :: rest }
        starts := history.starts ++
          [(history.session.wal.segment.seq + 1, history.session.written)] } := by
    simp only [WalHistory.step, Session.tick, upcoming]
  rw [stepped]
  refine ⟨closed ++ [journal.active], journal.startSegment, ?_,
    .started chronicle (by simp) rfl ⟨lags.tidy, lags.current⟩ quiet rfl⟩
  exact
    { mirrors := recorded.mirrors.startSegment
      written := by
        rw [everything, Journal.startSegment, List.append_nil]
      starts := by
        rw [startsOf_concat, everything, recorded.starts,
          recorded.mirrors.holds.seq]
        rfl
      pruned := recorded.pruned.concat journal.active
      ascending := ascending_next [] recorded.ascending }

/-- The checkpoint that heads the segment restates what was written before. -/
theorem Accounted.tick_checkpoint
    (recorded : Recorded codec history closed journal)
    (chronicle : Chronicle closed) (present : closed ≠ [])
    (empty : journal.active.2 = [])
    (lags : Lagging codec history.session record rest)
    (quiet : (history.session.wal.state.apply record).pointers =
      history.session.wal.state.pointers)
    (upcoming : history.session.pending =
      .checkpoint :: .fold record :: rest) :
    Accounted codec (history.step codec .tick) := by
  have everything : recordsOf closed = history.session.written := by
    rw [recorded.written, empty, List.append_nil]
  have current : history.session.wal.state.pointers =
      (replay history.session.written).pointers := quiet.symm.trans lags.current
  obtain ⟨purged, committed⟩ := Prod.mk.inj current
  have head : history.session.wal.headRecord =
      .checkpoint (replay history.session.written).lastPurged
        (replay history.session.written).committed := by
    rw [Wal.headRecord, purged, committed]
  have stepped : history.step codec .tick =
      { history with
        session := history.session.append codec history.session.wal.headRecord
          (.fold record :: rest) } := by
    simp only [WalHistory.step, Session.tick, upcoming]
  have small := codec.marker_length history.session.wal.headRecord rfl
  have below : ¬ segmentMaxBytes ≤ (history.session.wal.write codec
      history.session.wal.headRecord).segment.bytes := by
    have bytes := recorded.mirrors.holds.bytes
    simp only [Journal.activeBytes, empty, frames_nil, List.length_nil] at bytes
    simp only [Wal.write, bytes, frame_length, frameHeader, segmentMaxBytes]
    omega
  have lagsStill : Lagging codec
      (history.session.append codec history.session.wal.headRecord
        (.fold record :: rest)) record rest := by
    refine ⟨lags.tidy, ?_⟩
    have written : (history.session.append codec
        history.session.wal.headRecord (.fold record :: rest)).written =
          history.session.written ++ [history.session.wal.headRecord] := rfl
    rw [written, replay_concat, head, WalState.pointers_apply_checkpoint]
    exact lags.current
  rw [stepped]
  refine ⟨closed, journal.write history.session.wal.headRecord,
    recorded.write (framable_of_isMarker codec rfl) _,
    .lagging ?_ lagsStill ?_⟩
  · rw [chronicle_concat, if_neg present]
    refine ⟨chronicle, [], ?_, by simp⟩
    simp only [Journal.write, empty, List.nil_append, head, everything]
  · simp only [Session.append, if_neg below]

/-! ### Unlinking -/

private theorem pairwise_unlinked {wal : Wal}
    (mirrors : Mirrors codec wal journal)
    (index : UInt64) : (wal.unlinked index).Pairwise (· < ·) := by
  have older : (journal.older.map Prod.fst).Pairwise (· < ·) :=
    journal.ascending.sublist
      ((List.sublist_append_left journal.older [journal.active]).map Prod.fst)
  rw [Wal.unlinked, mirrors.closed]
  have numbers : (journal.older.map closedHeader).map Prod.fst =
      journal.older.map Prod.fst := by
    simp [closedHeader]
  exact (numbers ▸ older).sublist (List.filter_sublist.map Prod.fst)

/-- Of the segments that are unlinked one after the other, a segment behind one
that is still there holds no purge or committed record. -/
theorem inOrder_of_unlinksInOrder
    (mirrors : Mirrors codec history.session.wal journal) {index : UInt64}
    (upcoming : history.session.pending = .reclaim index :: rest)
    (inOrder : history.session.UnlinksInOrder codec) (unlinks : Nat) :
    journal.older.Pairwise (fun early late =>
      (!((history.session.wal.unlinked index).take unlinks).contains
        early.1) = true →
      (!((history.session.wal.unlinked index).take unlinks).contains
        late.1) = false →
      Still late) := by
  have numbers := pairwise_unlinked mirrors index
  have older : journal.older.Pairwise (fun early late => early.1 < late.1) :=
    List.pairwise_map.mp (journal.ascending.sublist
      ((List.sublist_append_left journal.older [journal.active]).map Prod.fst))
  simp only [Session.UnlinksInOrder, upcoming, mirrors.segmentRecords_eq]
    at inOrder
  refine older.imp_of_mem ?_
  intro early late earlyMember lateMember lower stays gone
  rw [Bool.not_eq_true', List.contains_eq_mem, decide_eq_false_iff_not] at stays
  rw [Bool.not_eq_false', List.contains_iff_mem] at gone
  have lateGone : (history.session.wal.unlinked index).contains late.1 = true :=
    List.contains_iff_mem.mpr (List.mem_of_mem_take gone)
  have earlyStays :
      (history.session.wal.unlinked index).contains early.1 = false := by
    rw [List.contains_eq_mem, decide_eq_false_iff_not]
    intro listed
    -- the numbers ascend, so the lower one is unlinked first
    rw [← List.take_append_drop unlinks (history.session.wal.unlinked index)]
      at listed numbers
    rcases List.mem_append.mp listed with soon | later
    · exact stays soon
    · have above := (List.pairwise_append.mp numbers).2.2 late.1 gone early.1
        later
      omega
  exact inOrder late (List.mem_append_left _ lateMember) lateGone early
    (List.mem_append_left _ earlyMember) earlyStays lower

private theorem Accounted.tick_reclaim
    (recorded : Recorded codec history closed journal)
    (chronicle : Chronicle (closed ++ [journal.active]))
    (current : history.session.wal.state.pointers =
      (replay history.session.written).pointers)
    {index : UInt64}
    (upcoming : history.session.pending = .reclaim index :: rest)
    (tidy : Tidy codec rest)
    (inOrder : history.session.UnlinksInOrder codec) :
    Accounted codec (history.step codec .tick) := by
  have stepped : history.step codec .tick =
      { history with
        session :=
          { history.session with
            wal := history.session.wal.reclaim index
            pending := rest } } := by
    simp only [WalHistory.step, Session.tick, upcoming]
  have behind := inOrder_of_unlinksInOrder recorded.mirrors upcoming inOrder
    (history.session.wal.unlinked index).length
  rw [List.take_length] at behind
  have staying : (journal.reclaim index).older =
      journal.older.filter (fun segment =>
        !(history.session.wal.unlinked index).contains segment.1) := by
    apply List.filter_congr
    intro segment member
    exact (recorded.mirrors.older_linked index member).symm
  rw [stepped]
  refine ⟨closed, journal.reclaim index, ?_, .idle chronicle tidy current⟩
  exact
    { mirrors := recorded.mirrors.reclaim index
      written := recorded.written
      starts := recorded.starts
      pruned := staying ▸ recorded.pruned.filter behind
      ascending := recorded.ascending }

/-- One action keeps the account. -/
theorem Accounted.tick (accounted : Accounted codec history)
    (fills : history.session.FillsQuietly codec)
    (inOrder : history.session.UnlinksInOrder codec) :
    Accounted codec (history.step codec .tick) := by
  obtain ⟨closed, journal, recorded, stage⟩ := accounted
  cases stage with
  | idle chronicle tidy current =>
      cases upcoming : history.session.pending with
      | nil =>
          have stepped : history.step codec .tick = history := by
            simp only [WalHistory.step, Session.tick, upcoming]
          rw [stepped]
          exact ⟨closed, journal, recorded, .idle chronicle tidy current⟩
      | cons action rest =>
          rw [upcoming] at tidy
          cases action with
          | append record =>
              cases rest with
              | nil => cases tidy
              | cons next rest =>
                  cases next with
                  | fold folded =>
                      obtain ⟨rfl, plain, framable, restTidy⟩ := tidy
                      exact tick_append recorded chronicle current upcoming
                        plain framable restTidy fills
                  | append other => cases tidy
                  | checkpoint => cases tidy
                  | sync => cases tidy
                  | startSegment => cases tidy
                  | reclaim index => cases tidy
                  | acknowledge => cases tidy
          | checkpoint => cases tidy
          | fold folded => cases tidy
          | startSegment => cases tidy
          | sync =>
              have stepped : history.step codec .tick =
                  { history with
                    session :=
                      { history.session with
                        synced := history.session.activeLength
                        pending := rest } } := by
                simp only [WalHistory.step, Session.tick, upcoming]
              exact tick_idle recorded chronicle current stepped rfl rfl tidy
          | acknowledge =>
              have stepped : history.step codec .tick =
                  { history with
                    session :=
                      { history.session with
                        acknowledged := history.session.written
                        pending := rest } } := by
                simp only [WalHistory.step, Session.tick, upcoming]
              exact tick_idle recorded chronicle current stepped rfl rfl tidy
          | reclaim index =>
              exact tick_reclaim recorded chronicle current upcoming tidy inOrder
  | lagging chronicle lags upcoming =>
      exact tick_fold recorded chronicle lags upcoming
  | filled chronicle lags quiet upcoming =>
      exact tick_filled recorded chronicle lags quiet upcoming
  | synced chronicle lags quiet upcoming =>
      exact tick_startSegment recorded chronicle lags quiet upcoming
  | started chronicle present empty lags quiet upcoming =>
      exact tick_checkpoint recorded chronicle present empty lags quiet upcoming

end Ticks

/-! ### Crashes -/

section Crashes

variable {codec : WalCodec} {history : WalHistory}
  {closed : List SegmentRecords} {journal : Journal}

private theorem Holds.activeFile_eq {session : Session}
    (holds : Holds codec session.wal journal []) :
    session.activeFile = frames codec.toFrameCodec journal.active.2 := by
  have below := files_below codec journal.older_below
  have skipped : ((filesOf codec journal.older).find? fun file =>
      decide (file.1 = journal.active.1)) = none := by
    rw [List.find?_eq_none]
    intro file member same
    exact Nat.ne_of_lt (below file member) (of_decide_eq_true same)
  unfold Session.activeFile
  rw [holds.dir, holds.seq]
  simp [Journal.segments, List.find?_append, skipped]

/-- A crash leaves a pruned list of older segments and a cut active one. -/
theorem Recorded.torn_eq (recorded : Recorded codec history closed journal)
    (inOrder : history.session.UnlinksInOrder codec) (cut unlinks : Nat) :
    ∃ older,
      history.session.torn cut unlinks =
          filesOf codec older ++
            [(journal.active.1,
              (frames codec.toFrameCodec journal.active.2).take
                (history.session.cutAt cut))] ∧
        older.Sublist journal.older ∧ Pruned Still closed older := by
  have crashed :=
    recorded.mirrors.holds.crashed_eq (history.session.cutAt cut)
  unfold Session.torn
  split
  · rename_i index rest upcoming
    have behind :=
      inOrder_of_unlinksInOrder recorded.mirrors upcoming inOrder unlinks
    refine ⟨_, ?_, List.filter_sublist, recorded.pruned.filter behind⟩
    have activeStays :
        ((history.session.wal.unlinked index).take unlinks).contains
          journal.active.1 = false := by
      have linked := recorded.mirrors.active_linked index
      rw [List.contains_eq_mem, decide_eq_false_iff_not] at linked ⊢
      exact fun listed => linked (List.mem_of_mem_take listed)
    rw [crashed, List.filter_append, List.filter_singleton, activeStays]
    unfold filesOf
    rw [List.filter_map]
    rfl
  · exact ⟨journal.older, crashed, List.Sublist.refl _, recorded.pruned⟩

/-- The checkpoint survives a crash that leaves the first record whole. -/
theorem Stage.chronicle_survivors
    (stage : Stage codec history.session closed journal.active)
    {kept lost : List WalRecord} (split : journal.active.2 = kept ++ lost)
    (whole : closed = [] ∨ kept ≠ []) :
    Chronicle (closed ++ [(journal.active.1, kept)]) := by
  have cutting (chronicle : Chronicle (closed ++ [journal.active])) :
      Chronicle (closed ++ [(journal.active.1, kept)]) := by
    rw [chronicle_concat] at chronicle ⊢
    by_cases first : closed = []
    · rw [if_pos first] at chronicle ⊢
      intro record member
      exact chronicle record (split ▸ List.mem_append_left lost member)
    · rw [if_neg first] at chronicle ⊢
      obtain ⟨earlier, headed⟩ := chronicle
      rw [split] at headed
      exact ⟨earlier, headed.of_append (whole.resolve_left first)⟩
  cases stage with
  | idle chronicle _ _ => exact cutting chronicle
  | lagging chronicle _ _ => exact cutting chronicle
  | filled chronicle _ _ _ => exact cutting chronicle
  | synced chronicle _ _ _ => exact cutting chronicle
  | started _ present empty _ _ _ =>
      rw [empty] at split
      have nothing : kept = [] := (List.nil_eq_append_iff.mp split).1
      exact absurd nothing (whole.resolve_left present)

/-- A crash leaves the first records of the active segment. -/
theorem Mirrors.survivors_eq
    (mirrors : Mirrors codec history.session.wal journal) (cut : Nat) :
    ∃ kept lost tail,
      journal.active.2 = kept ++ lost ∧
        (frames codec.toFrameCodec journal.active.2).take
            (history.session.cutAt cut) =
          frames codec.toFrameCodec kept ++ tail ∧
        (tail = [] ∨ readFrame codec.toFrameCodec tail = .damaged) ∧
        history.session.survivors codec cut = kept ∧
        history.session.lost codec cut = lost.length := by
  have framable : ∀ record ∈ journal.active.2,
      Framable codec.toFrameCodec record := by
    intro record member
    apply mirrors.holds.framable
    simp [Journal.records, Journal.segments, member]
  obtain ⟨kept, lost, tail, split, cutBytes, ending, -⟩ :=
    take_frames codec.toFrameCodec
      (min (history.session.cutAt cut)
        (frames codec.toFrameCodec journal.active.2).length)
      framable (Nat.min_le_right _ _)
  rw [← List.take_eq_take_min] at cutBytes
  have keptFramable : ∀ record ∈ kept,
      Framable codec.toFrameCodec record := fun record member =>
    framable record (split ▸ List.mem_append_left lost member)
  have survive : history.session.survivors codec cut = kept := by
    rw [Session.survivors, mirrors.holds.activeFile_eq, cutBytes]
    rcases ending with rfl | damaged
    · rw [List.append_nil, scan_frames codec.toFrameCodec keptFramable]
    · rw [scan_frames_damaged codec.toFrameCodec keptFramable damaged]
  refine ⟨kept, lost, tail, split, cutBytes, ending, survive, ?_⟩
  rw [Session.lost, survive, mirrors.holds.activeFile_eq,
    scan_frames codec.toFrameCodec framable, split, List.length_append]
  omega

/-- A crash that leaves the checkpoint keeps the account. -/
theorem Accounted.crash (accounted : Accounted codec history)
    (inOrder : history.session.UnlinksInOrder codec) {cut : Nat}
    (whole : history.starts.length ≤ 1 ∨
      history.session.survivors codec cut ≠ []) (unlinks : Nat) :
    Accounted codec (history.step codec (.crash cut unlinks)) := by
  obtain ⟨closed, journal, recorded, stage⟩ := accounted
  obtain ⟨older, torn, fewer, pruned⟩ := recorded.torn_eq inOrder cut unlinks
  obtain ⟨kept, lost, tail, split, cutBytes, ending, survive, lostCount⟩ :=
    recorded.mirrors.survivors_eq cut
  have survives : closed = [] ∨ kept ≠ [] := by
    rw [survive, recorded.starts, length_startsOf, List.length_append,
      List.length_singleton] at whole
    exact whole.imp_left (fun few => List.length_eq_zero_iff.mp (by omega))
  have chronicle := stage.chronicle_survivors split survives
  have ascending :
      ((older ++ [(journal.active.1, kept)]).map Prod.fst).Pairwise
        (· < ·) := by
    have numbers := journal.ascending.sublist
      ((fewer.append_right [journal.active]).map Prod.fst)
    simpa using numbers
  have framable : ∀ record ∈ recordsOf (older ++ [(journal.active.1, kept)]),
      Framable codec.toFrameCodec record := by
    intro record member
    apply recorded.mirrors.holds.framable
    rw [recordsOf_append, List.mem_append] at member
    rw [Journal.records, Journal.segments, recordsOf_append, List.mem_append]
    rcases member with inOlder | inActive
    · obtain ⟨segment, held, inside⟩ := List.mem_flatMap.mp inOlder
      exact Or.inl (List.mem_flatMap.mpr ⟨segment, fewer.subset held, inside⟩)
    · rw [recordsOf_cons, recordsOf_nil, List.append_nil] at inActive ⊢
      exact Or.inr (split ▸ List.mem_append_left lost inActive)
  have reopened : openWal codec (history.session.torn cut unlinks) =
      openWal codec (filesOf codec (older ++ [(journal.active.1, kept)])) := by
    rw [torn, cutBytes]
    exact openWal_cut ascending framable ending
  have written : history.session.written.take
      (history.session.written.length - history.session.lost codec cut) =
        recordsOf (closed ++ [(journal.active.1, kept)]) := by
    have everything : history.session.written =
        recordsOf (closed ++ [(journal.active.1, kept)]) ++ lost := by
      rw [recorded.written, split]
      simp
    rw [lostCount, everything, List.length_append, Nat.add_sub_cancel,
      List.take_left]
  refine ⟨closed,
    { older := older
      active := (journal.active.1, kept)
      state := replay (recordsOf (older ++ [(journal.active.1, kept)]))
      ascending := ascending }, ?_, .idle chronicle trivial ?_⟩
  · exact
      { mirrors := by
          simp only [WalHistory.step, Session.recover, reopened]
          exact Mirrors.of_openWal ascending framable
        written := by
          simp only [WalHistory.step, Session.recover, written]
          simp
        starts := by
          simp only [WalHistory.step, recorded.starts, startsOf_concat]
        pruned := pruned
        ascending := by
          simpa using recorded.ascending }
  · simp only [WalHistory.step, Session.recover, reopened, written,
      openWal_state framable]
    exact chronicle.pointers_pruned (pruned.concat (journal.active.1, kept))
      (by simp)

end Crashes

/-! ## Runs -/

section Runs

variable {codec : WalCodec} {history : WalHistory}

/-- Between calls the memory is up to date and every segment has its
checkpoint. -/
theorem Stage.of_pending_nil {closed : List SegmentRecords}
    {active : SegmentRecords}
    (stage : Stage codec history.session closed active)
    (between : history.session.pending = []) :
    Chronicle (closed ++ [active]) ∧
      history.session.wal.state.pointers =
        (replay history.session.written).pointers := by
  cases stage with
  | idle chronicle _ current => exact ⟨chronicle, current⟩
  | lagging _ _ upcoming => exact absurd (between.symm.trans upcoming) nofun
  | filled _ _ _ upcoming => exact absurd (between.symm.trans upcoming) nofun
  | synced _ _ _ upcoming => exact absurd (between.symm.trans upcoming) nofun
  | started _ _ _ _ _ upcoming =>
      exact absurd (between.symm.trans upcoming) nofun

theorem Accounted.call (accounted : Accounted codec history)
    {mutation : Mutation} (framed : mutation.Framed codec) :
    Accounted codec (history.step codec (.call mutation)) := by
  unfold WalHistory.step
  simp only
  split
  · rename_i between
    obtain ⟨closed, journal, recorded, stage⟩ := accounted
    obtain ⟨chronicle, current⟩ := stage.of_pending_nil between
    exact ⟨closed, journal, recorded.of_session rfl rfl,
      .idle chronicle (tidy_actions framed) current⟩
  · exact accounted

theorem Accounted.step (accounted : Accounted codec history) {next : WalStep}
    (orderly : history.Orderly codec next) :
    Accounted codec (history.step codec next) := by
  cases next with
  | call mutation => exact accounted.call orderly
  | tick => exact accounted.tick orderly.1 orderly.2
  | crash cut unlinks => exact accounted.crash orderly.1 orderly.2 unlinks

/-- A segment behind the oldest one on disk follows another segment. -/
theorem Recorded.split_of_mem_tail {closed : List SegmentRecords}
    {journal : Journal} (recorded : Recorded codec history closed journal)
    {segment : SegmentRecords} (member : segment ∈ journal.segments.tail) :
    ∃ earlier later,
      closed ++ [journal.active] = earlier ++ segment :: later ∧
        earlier ≠ [] ∧ ∀ other ∈ earlier, other.1 < segment.1 := by
  have onDisk := recorded.pruned.concat journal.active
  obtain ⟨earlier, later, split⟩ :=
    List.append_of_mem (onDisk.mem (List.mem_of_mem_tail member))
  have ascending := recorded.ascending
  rw [split] at ascending
  obtain ⟨below, above⟩ := below_of_ascending ascending
  refine ⟨earlier, later, split, ?_, below⟩
  -- the oldest segment on disk is below this one, so it came before
  intro nothing
  cases shape : journal.segments with
  | nil =>
      rw [shape] at member
      cases member
  | cons oldest others =>
      have numbers := journal.ascending
      change (journal.segments.map Prod.fst).Pairwise (· < ·) at numbers
      rw [shape, List.map_cons, List.pairwise_cons] at numbers
      rw [shape, List.tail_cons] at member
      have lower := numbers.1 segment.1 (List.mem_map_of_mem member)
      have listed : oldest ∈ closed ++ [journal.active] := by
        apply onDisk.mem
        change oldest ∈ journal.segments
        rw [shape]
        exact List.mem_cons_self
      rw [split, nothing, List.nil_append, List.mem_cons] at listed
      rcases listed with rfl | behind
      · exact Nat.lt_irrefl _ lower
      · exact Nat.lt_asymm lower (above oldest behind)

private theorem Accounted.checkpointsExact (accounted : Accounted codec history)
    (between : history.session.pending = []) :
    history.CheckpointsExact codec := by
  obtain ⟨closed, journal, recorded, stage⟩ := accounted
  obtain ⟨chronicle, -⟩ := stage.of_pending_nil between
  have files : history.session.wal.dir = filesOf codec journal.segments := by
    simpa using recorded.mirrors.holds.dir
  intro file member
  rw [files, filesOf, ← List.map_tail] at member
  obtain ⟨segment, held, rfl⟩ := List.mem_map.mp member
  obtain ⟨earlier, later, split, present, below⟩ :=
    recorded.split_of_mem_tail held
  have framable : ∀ record ∈ segment.2,
      Framable codec.toFrameCodec record := by
    intro record inside
    apply recorded.mirrors.holds.framable
    exact List.mem_flatMap.mpr
      ⟨segment, List.mem_of_mem_tail held, inside⟩
  have past : history.before segment.1 = recordsOf earlier := by
    rw [WalHistory.before, recorded.starts, split, lookup_startsOf below]
    rfl
  rw [split] at chronicle
  obtain ⟨body, shape, -⟩ := chronicle.headed present
  simp only [scan_frames codec.toFrameCodec framable, past]
  rw [shape]
  rfl

end Runs

/-- In every run of calls, actions and crashes that is orderly, every segment on
disk but the oldest begins, between calls, with a checkpoint of what all records
written before it fold to. -/
theorem checkpoints_exact_of_orderly (codec : WalCodec) {steps : List WalStep}
    (orderly : EachStep (WalHistory.step codec) (WalHistory.Orderly codec)
      (WalHistory.start codec) steps) :
    Throughout (WalHistory.step codec)
      (fun history => history.session.pending = [] →
        history.CheckpointsExact codec)
      (WalHistory.start codec) steps := by
  have always : Throughout (WalHistory.step codec) (Accounted codec)
      (WalHistory.start codec) steps :=
    throughout_of_eachStep
      (fun _ _ accounted orderlyStep => accounted.step orderlyStep)
      (accounted_start codec) orderly
  exact throughout_mono (fun _ accounted => accounted.checkpointsExact) always

/-! ### A segment that is filled -/

/-- An entry with that many payload bytes. -/
@[irreducible]
def wideEntry (size : Nat) : Entry where
  logId := ⟨⟨1, 1⟩, 1⟩
  payload := .normal (List.replicate size 0)

private theorem encode_wideEntry_length (size : Nat) :
    (bincodeCodec.encode (.entry (wideEntry size))).length = 40 + size := by
  have length := walRecordLayout_normal_length ⟨⟨1, 1⟩, 1⟩
    (List.replicate size 0)
  rw [List.length_replicate] at length
  unfold wideEntry
  exact length

section Filling

variable {codec : WalCodec} {entry : Entry} {logId : LogId}

private theorem scan_emptyCheckpoint (codec : WalCodec) :
    (scan codec.toFrameCodec
      (frames codec.toFrameCodec [.checkpoint none none])).records =
        [.checkpoint none none] := by
  rw [scan_frames codec.toFrameCodec]
  intro record member
  rw [List.mem_singleton.mp member]
  exact framable_of_isMarker codec rfl

/-- An entry is appended and fills its segment; then the log crashes. -/
def rotationSteps (entry : Entry) : List WalStep :=
  [.call (.appendEntries [entry]), .tick, .tick, .tick, .tick, .tick, .tick,
    .tick, .crash 0 0]

private theorem orderly_rotationSteps
    (framable : Framable codec.toFrameCodec (.entry entry))
    (full : segmentMaxBytes ≤
      frameHeader + (codec.encode (.entry entry)).length) :
    EachStep (WalHistory.step codec) (WalHistory.Orderly codec)
      (WalHistory.start codec) (rotationSteps entry) := by
  have whole := scan_emptyCheckpoint codec
  rw [frames_cons, frames_nil, List.append_nil] at whole
  have survives : (scan codec.toFrameCodec
      ((frame codec.toFrameCodec (codec.encode (.checkpoint none none))).take
        (frameHeader +
          (codec.encode (.checkpoint none none)).length))).records ≠ [] := by
    rw [← frame_length codec.toFrameCodec, List.take_length, whole]
    exact List.cons_ne_nil _ _
  simp [EachStep, rotationSteps, WalHistory.Orderly, Mutation.Framed, framable,
    WalHistory.step, WalHistory.start, Session.tick, Session.start,
    openWal_nil, Mutation.actions, foldActions, Session.append, Wal.write, full,
    Wal.startSegment, Wal.headRecord, checkpoint_fits, Directory.appendFile,
    raiseMaxIndex, WalRecord.entryIndex, WalState.apply, Session.FillsQuietly,
    Session.UnlinksInOrder, WalState.pointers, Session.survivors, Session.cutAt,
    Session.activeFile, Session.activeLength, Directory.fileLength, survives]

/-- An entry is appended, then a committed pointer is saved. -/
def committedSteps (entry : Entry) (logId : LogId) : List WalStep :=
  [.call (.appendEntries [entry]), .tick, .tick, .tick, .tick,
    .call (.saveCommitted (some logId)), .tick, .tick, .tick, .tick, .tick,
    .tick, .tick]

/-- When the committed record fills the segment, the checkpoint behind it has
the pointer from before. -/
theorem final_committedSteps
    (fits : ¬ segmentMaxBytes ≤
      frameHeader + (codec.encode (.entry entry)).length)
    (full : segmentMaxBytes ≤
      frameHeader + (codec.encode (.entry entry)).length +
        (frameHeader + (codec.encode (.committed (some logId))).length)) :
    (final (WalHistory.step codec) (WalHistory.start codec)
        (committedSteps entry logId)).session.pending = [] ∧
      (final (WalHistory.step codec) (WalHistory.start codec)
        (committedSteps entry logId)).session.wal.dir =
        filesOf codec
          [(0, [.entry entry, .committed (some logId)]),
            (1, [.checkpoint none none])] ∧
      (final (WalHistory.step codec) (WalHistory.start codec)
        (committedSteps entry logId)).starts =
        [(0, []), (1, [.entry entry, .committed (some logId)])] := by
  simp [final, committedSteps, WalHistory.step, WalHistory.start, Session.tick,
    Session.start, openWal_nil, Mutation.actions, foldActions, Session.append,
    Wal.write, fits, full, Wal.startSegment, Wal.headRecord, checkpoint_fits,
    Directory.appendFile, raiseMaxIndex, WalRecord.entryIndex, WalState.apply,
    filesOf, frames]

private theorem not_checkpointsExact_committedSteps
    (fits : ¬ segmentMaxBytes ≤
      frameHeader + (codec.encode (.entry entry)).length)
    (full : segmentMaxBytes ≤
      frameHeader + (codec.encode (.entry entry)).length +
        (frameHeader + (codec.encode (.committed (some logId))).length)) :
    ¬ (final (WalHistory.step codec) (WalHistory.start codec)
      (committedSteps entry logId)).CheckpointsExact codec := by
  obtain ⟨-, dir, starts⟩ := final_committedSteps fits full
  intro exactEverywhere
  have exactNewest := exactEverywhere
    (1, frames codec.toFrameCodec [.checkpoint none none]) (by simp [dir])
  have past : (final (WalHistory.step codec) (WalHistory.start codec)
      (committedSteps entry logId)).before 1 =
        [.entry entry, .committed (some logId)] := by
    rw [WalHistory.before, starts]
    rfl
  rw [scan_emptyCheckpoint, past] at exactNewest
  simp [replay, WalState.apply] at exactNewest

end Filling

/-- An entry of eight mebibytes rotates the log; the crash after its return
keeps the checkpoint. -/
theorem checkpoints_exact_of_orderly_rotation :
    EachStep (WalHistory.step bincodeCodec) (WalHistory.Orderly bincodeCodec)
        (WalHistory.start bincodeCodec)
        (rotationSteps (wideEntry segmentMaxBytes)) ∧
      Throughout (WalHistory.step bincodeCodec)
        (fun history => history.session.pending = [] →
          history.CheckpointsExact bincodeCodec)
        (WalHistory.start bincodeCodec)
        (rotationSteps (wideEntry segmentMaxBytes)) := by
  have length := encode_wideEntry_length segmentMaxBytes
  have orderly : EachStep (WalHistory.step bincodeCodec)
      (WalHistory.Orderly bincodeCodec) (WalHistory.start bincodeCodec)
      (rotationSteps (wideEntry segmentMaxBytes)) := by
    apply orderly_rotationSteps
    · rw [Framable, length, segmentMaxBytes]
      omega
    · rw [length]
      omega
  exact ⟨orderly, checkpoints_exact_of_orderly bincodeCodec orderly⟩

/-- An entry leaves one byte of its segment, so the committed record saved next
fills it: the checkpoint of the new segment has no committed pointer, although
one was written before. -/
theorem checkpoint_misses_committed :
    (final (WalHistory.step bincodeCodec) (WalHistory.start bincodeCodec)
        (committedSteps (wideEntry (segmentMaxBytes - 49))
          ⟨⟨1, 1⟩, 1⟩)).session.pending = [] ∧
      ¬ (final (WalHistory.step bincodeCodec) (WalHistory.start bincodeCodec)
        (committedSteps (wideEntry (segmentMaxBytes - 49))
          ⟨⟨1, 1⟩, 1⟩)).CheckpointsExact bincodeCodec := by
  have length := encode_wideEntry_length (segmentMaxBytes - 49)
  have fits : ¬ segmentMaxBytes ≤ frameHeader + (bincodeCodec.encode
      (.entry (wideEntry (segmentMaxBytes - 49)))).length := by
    rw [length, segmentMaxBytes, frameHeader]
    omega
  have full : segmentMaxBytes ≤ frameHeader + (bincodeCodec.encode
      (.entry (wideEntry (segmentMaxBytes - 49)))).length +
        (frameHeader + (bincodeCodec.encode
          (.committed (some ⟨⟨1, 1⟩, 1⟩))).length) := by
    rw [length, segmentMaxBytes, frameHeader]
    omega
  exact ⟨(final_committedSteps fits full).1,
    not_checkpointsExact_committedSteps fits full⟩

end AetherEngine.Consensus
