import AetherEngine.Consensus.WalRecovery
import AetherEngine.Foundations.Registers
import Mathlib.Data.List.Induction

/-!
# When the replayed state is the live state

Replay folds every record on disk, checkpoints included; the live state folds
only the mutations.  The two agree as long as no record that replay still
needs is missing from the disk and no checkpoint fills a pointer that was
cleared.  This module states both conditions on the log before the step and
proves that each mutation keeps `replay = live` under them.

Replay is a family of registers: one for each log index, one for the purge
point and one for the committed pointer.
-/

namespace AetherEngine.Consensus

open AetherEngine.Frames
open AetherEngine.Registers

/-! ## Replay as registers -/

/-- What a record does to the entry at one index. -/
def entryEffect (index : UInt64) : WalRecord → Effect Entry
  | .entry logged =>
      if logged.logId.index = index then .write (some logged) else .keep
  | .truncateFrom start => if start ≤ index then .write none else .keep
  | .purge logId => if index ≤ logId.index then .write none else .keep
  | .committed _ => .keep
  | .checkpoint _ _ => .keep

/-- What a record does to the purge point. -/
def purgedEffect : WalRecord → Effect LogId
  | .purge logId => .write (some logId)
  | .checkpoint lastPurged _ => .fill lastPurged
  | _ => .keep

/-- What a record does to the committed pointer. -/
def committedEffect : WalRecord → Effect LogId
  | .committed pointer => .write pointer
  | .checkpoint _ committed => .fill committed
  | _ => .keep

private theorem apply_entries (state : WalState) (record : WalRecord)
    (index : UInt64) :
    (state.apply record).entries[index]? =
      (entryEffect index record).act state.entries[index]? := by
  cases record with
  | entry logged =>
      by_cases same : logged.logId.index = index
      · simp [WalState.apply, entryEffect, same, Effect.act]
      · simp [WalState.apply, entryEffect, same, Effect.act]
  | truncateFrom start =>
      by_cases cut : start ≤ index
      · simp [WalState.apply, entryEffect, cut, Effect.act]
      · simp [WalState.apply, entryEffect, cut, Effect.act]
  | purge logId =>
      by_cases cut : index ≤ logId.index
      · simp [WalState.apply, entryEffect, cut, Effect.act]
      · simp [WalState.apply, entryEffect, cut, Effect.act]
  | committed pointer =>
      rfl
  | checkpoint lastPurged committed =>
      rfl

private theorem apply_lastPurged (state : WalState) (record : WalRecord) :
    (state.apply record).lastPurged =
      (purgedEffect record).act state.lastPurged := by
  cases record <;> rfl

private theorem apply_committed (state : WalState) (record : WalRecord) :
    (state.apply record).committed =
      (committedEffect record).act state.committed := by
  cases record <;> rfl

theorem foldl_apply_registers (records : List WalRecord) (state : WalState) :
    (∀ index, (records.foldl WalState.apply state).entries[index]? =
        settle (entryEffect index) state.entries[index]? records) ∧
      (records.foldl WalState.apply state).lastPurged =
        settle purgedEffect state.lastPurged records ∧
      (records.foldl WalState.apply state).committed =
        settle committedEffect state.committed records := by
  induction records generalizing state with
  | nil =>
      exact ⟨fun _ => rfl, rfl, rfl⟩
  | cons record rest inductionHypothesis =>
      obtain ⟨entries, purged, committed⟩ :=
        inductionHypothesis (state.apply record)
      refine ⟨fun index => ?_, ?_, ?_⟩
      · rw [List.foldl_cons, entries, apply_entries, settle_cons]
      · rw [List.foldl_cons, purged, apply_lastPurged, settle_cons]
      · rw [List.foldl_cons, committed, apply_committed, settle_cons]

private theorem replay_entries (records : List WalRecord) (index : UInt64) :
    (replay records).entries[index]? =
      settle (entryEffect index) none records := by
  have registers := (foldl_apply_registers records {}).1 index
  simpa [replay] using registers

theorem replay_lastPurged (records : List WalRecord) :
    (replay records).lastPurged = settle purgedEffect none records :=
  (foldl_apply_registers records {}).2.1

theorem replay_committed (records : List WalRecord) :
    (replay records).committed = settle committedEffect none records :=
  (foldl_apply_registers records {}).2.2

/-- Streams that agree on every register replay to the same state. -/
theorem replay_ext {first second : List WalRecord}
    (entries : ∀ index,
      settle (entryEffect index) none first =
        settle (entryEffect index) none second)
    (purged : settle purgedEffect none first =
      settle purgedEffect none second)
    (committed : settle committedEffect none first =
      settle committedEffect none second) :
    replay first = replay second := by
  apply WalState.ext
  · apply Std.ExtTreeMap.ext_getElem?
    intro index
    rw [replay_entries, replay_entries, entries index]
  · rw [replay_lastPurged, replay_lastPurged, purged]
  · rw [replay_committed, replay_committed, committed]

private theorem entryEffect_noFill (index : UInt64) (record : WalRecord) :
    ¬ (entryEffect index record).IsFill := by
  cases record with
  | entry logged =>
      simp only [entryEffect]
      split <;> exact id
  | truncateFrom start =>
      simp only [entryEffect]
      split <;> exact id
  | purge logId =>
      simp only [entryEffect]
      split <;> exact id
  | committed pointer =>
      exact id
  | checkpoint lastPurged committed =>
      exact id

/-! ## Mutations -/

/-- A checkpoint written in front of the record it follows fills a pointer
only when that record cleared the committed pointer. -/
theorem apply_headRecord
    (state : WalState) (record : WalRecord)
    (unset : record = .committed none → state.committed = none) :
    (state.apply record).apply
        (.checkpoint state.lastPurged state.committed) =
      state.apply record := by
  cases record with
  | entry logged =>
      apply WalState.ext
      · rfl
      · cases held : state.lastPurged <;> simp [WalState.apply, held]
      · cases held : state.committed <;> simp [WalState.apply, held]
  | truncateFrom start =>
      apply WalState.ext
      · rfl
      · cases held : state.lastPurged <;> simp [WalState.apply, held]
      · cases held : state.committed <;> simp [WalState.apply, held]
  | purge logId =>
      apply WalState.ext
      · rfl
      · simp [WalState.apply]
      · cases held : state.committed <;> simp [WalState.apply, held]
  | committed pointer =>
      apply WalState.ext
      · rfl
      · cases held : state.lastPurged <;> simp [WalState.apply, held]
      · cases pointer with
        | none => simp [WalState.apply, unset rfl]
        | some logId => simp [WalState.apply]
  | checkpoint lastPurged committed =>
      apply WalState.ext
      · rfl
      · cases held : state.lastPurged <;> cases lastPurged <;>
          simp [WalState.apply, held]
      · cases held : state.committed <;> cases committed <;>
          simp [WalState.apply, held]

/-- The live state is what a replay of the disk would give. -/
def Journal.Faithful (journal : Journal) : Prop :=
  replay journal.records = journal.state

/-- The append of a record does not clear a committed pointer and fill the
segment at once. -/
def Journal.KeepsPointer (codec : WalCodec) (journal : Journal)
    (record : WalRecord) : Prop :=
  record = .committed none → journal.Rotates codec record →
    journal.state.committed = none

theorem Journal.Faithful.mutate
    {codec : WalCodec} {journal : Journal} (faithful : journal.Faithful)
    {record : WalRecord} (keeps : journal.KeepsPointer codec record) :
    (journal.mutate codec record).Faithful := by
  unfold Journal.Faithful at faithful ⊢
  rw [Journal.records_mutate, Journal.state_mutate, replay_append, faithful]
  by_cases rotates : journal.Rotates codec record
  · rw [if_pos rotates]
    exact apply_headRecord journal.state record fun clears =>
      keeps clears rotates
  · rw [if_neg rotates]
    rfl

theorem Journal.Faithful.appendEntries
    {codec : WalCodec} {journal : Journal} (faithful : journal.Faithful)
    (entries : List Entry) :
    (journal.appendEntries codec entries).Faithful := by
  induction entries generalizing journal with
  | nil =>
      exact faithful
  | cons entry rest inductionHypothesis =>
      exact inductionHypothesis <|
        faithful.mutate fun clears => by cases clears

theorem Journal.state_appendEntries
    (codec : WalCodec) (journal : Journal) (entries : List Entry) :
    (journal.appendEntries codec entries).state =
      entries.foldl (fun state entry => state.apply (.entry entry))
        journal.state := by
  induction entries generalizing journal with
  | nil =>
      rfl
  | cons entry rest inductionHypothesis =>
      have stepped := inductionHypothesis (journal.mutate codec (.entry entry))
      rw [Journal.state_mutate] at stepped
      exact stepped

/-! ## Unlinking -/

/-- The records of each segment file. -/
def Wal.segmentRecords (codec : WalCodec) (wal : Wal) :
    List SegmentRecords :=
  wal.dir.map fun file =>
    (file.1, (scan codec.toFrameCodec file.2).records)

/-- Every record on disk, marked with whether its segment stays linked when a
purge up to `index` unlinks. -/
def Wal.linkStream (codec : WalCodec) (wal : Wal) (index : UInt64) :
    List (Bool × WalRecord) :=
  (wal.segmentRecords codec).flatMap fun segment =>
    segment.2.map fun record =>
      (!(wal.unlinked index).contains segment.1, record)

/-- The newest committed marker names the current pointer and stays, or no
committed marker stays and the first checkpoint with a pointer names it. -/
def CommittedSurvives (stream : List (Bool × WalRecord))
    (current : Option LogId) : Prop :=
  (∃ earlier later,
      stream = earlier ++ (true, .committed current) :: later ∧
        ∀ other ∈ everything later, ¬ (committedEffect other).IsWrite) ∨
    ((∀ other ∈ staying stream, ¬ (committedEffect other).IsWrite) ∧
      ((staying stream).findSome? fun record =>
        offer (committedEffect record)) = current)

/-- No record that replay still needs sits in a segment that is unlinked: not
the newest purge marker, not the newest committed marker (unless a checkpoint
restates it and no older one stays), and not a truncate or purge marker that
alone voids an entry of a segment that stays. -/
structure SafeUnlink (codec : WalCodec) (wal : Wal) (index : UInt64) :
    Prop where
  purged : NewestStays (fun record => (purgedEffect record).IsWrite)
    (wal.linkStream codec index)
  committed :
    CommittedSurvives (wal.linkStream codec index) wal.state.committed
  entries : ∀ key,
    ¬ Revived (entryEffect key) (wal.linkStream codec index)

section Unlink

variable {codec : WalCodec} {wal : Wal} {journal : Journal}

theorem Mirrors.segmentRecords_eq (mirrors : Mirrors codec wal journal) :
    wal.segmentRecords codec = journal.segments := by
  have dir := mirrors.holds.dir
  simp only [List.map_nil, List.append_nil] at dir
  unfold Wal.segmentRecords filesOf at *
  rw [dir, List.map_map]
  rw [List.map_congr_left (g := id), List.map_id]
  intro segment member
  have framable : ∀ record ∈ segment.2,
      Framable codec.toFrameCodec record := by
    intro record inside
    apply mirrors.holds.framable
    exact List.mem_flatMap.mpr ⟨segment, member, inside⟩
  simp only [Function.comp_apply, scan_frames codec.toFrameCodec framable]
  rfl

private theorem everything_marked (marked : Bool) (records : List WalRecord) :
    everything (records.map fun record => (marked, record)) = records := by
  simp [everything, Function.comp_def]

private theorem staying_marked (marked : Bool) (records : List WalRecord) :
    staying (records.map fun record => (marked, record)) =
      if marked then records else [] := by
  induction records with
  | nil =>
      simp [staying]
  | cons record rest inductionHypothesis =>
      cases marked
      · simp [staying]
      · simpa [staying] using inductionHypothesis

private theorem Mirrors.everything_linkStream
    (mirrors : Mirrors codec wal journal) (index : UInt64) :
    everything (wal.linkStream codec index) = journal.records := by
  unfold Wal.linkStream Journal.records recordsOf
  rw [mirrors.segmentRecords_eq]
  induction journal.segments with
  | nil =>
      rfl
  | cons segment rest inductionHypothesis =>
      rw [List.flatMap_cons, List.flatMap_cons, everything_append,
        everything_marked, inductionHypothesis]

/-- What stays linked is what the journal keeps. -/
theorem Mirrors.staying_linkStream
    (mirrors : Mirrors codec wal journal) (index : UInt64) :
    staying (wal.linkStream codec index) =
      (journal.reclaim index).records := by
  have olderStays :
      ∀ segments : List SegmentRecords,
        (∀ segment ∈ segments, segment ∈ journal.older) →
        staying (segments.flatMap fun segment =>
            segment.2.map fun record =>
              (!(wal.unlinked index).contains segment.1, record)) =
          recordsOf (segments.filter fun segment =>
            !Wal.removable index (maxIndexOf segment.2)) := by
    intro segments inside
    induction segments with
    | nil =>
        rfl
    | cons segment rest inductionHypothesis =>
        have linked :=
          mirrors.older_linked index (inside segment List.mem_cons_self)
        have restInside : ∀ other ∈ rest, other ∈ journal.older :=
          fun other member =>
            inside other (List.mem_cons_of_mem segment member)
        rw [List.flatMap_cons, staying_append, staying_marked,
          inductionHypothesis restInside, linked, List.filter_cons]
        cases Wal.removable index (maxIndexOf segment.2) <;> simp
  unfold Wal.linkStream
  rw [mirrors.segmentRecords_eq, Journal.segments, List.flatMap_append,
    staying_append, olderStays journal.older fun _ member => member]
  simp only [List.flatMap_cons, List.flatMap_nil, List.append_nil,
    staying_marked, mirrors.active_linked index, Bool.not_false, if_true,
    Journal.records, Journal.segments, Journal.reclaim, recordsOf_append,
    recordsOf_cons, recordsOf_nil]

private theorem le_max_index (highest index : UInt64) :
    highest ≤ max highest index ∧ index ≤ max highest index := by
  change
    highest ≤ (if highest ≤ index then index else highest) ∧
      index ≤ (if highest ≤ index then index else highest)
  by_cases order : highest ≤ index
  · rw [if_pos order]
    exact ⟨order, UInt64.le_refl index⟩
  · rw [if_neg order]
    exact ⟨UInt64.le_refl highest,
      UInt64.le_of_lt (UInt64.not_le.mp order)⟩

private theorem raiseMaxIndex_le (maxIndex : Option UInt64) (record : WalRecord)
    {highest : UInt64} (held : maxIndex = some highest) :
    ∃ raised, raiseMaxIndex maxIndex record = some raised ∧
      highest ≤ raised := by
  subst held
  cases indexed : record.entryIndex with
  | none =>
      exact ⟨highest, by simp [raiseMaxIndex, indexed],
        UInt64.le_refl highest⟩
  | some index =>
      exact ⟨max highest index, by simp [raiseMaxIndex, indexed],
        (le_max_index highest index).1⟩

/-- Every entry of a segment is at or below the segment's highest index. -/
theorem entry_le_maxIndexOf
    {records : List WalRecord} {logged : Entry}
    (member : WalRecord.entry logged ∈ records) :
    ∃ highest, maxIndexOf records = some highest ∧
      logged.logId.index ≤ highest := by
  induction records using List.reverseRecOn with
  | nil =>
      simp at member
  | append_singleton initial last inductionHypothesis =>
      rw [maxIndexOf_concat]
      rcases List.mem_append.mp member with earlier | atEnd
      · obtain ⟨highest, held, bound⟩ := inductionHypothesis earlier
        obtain ⟨raised, result, higher⟩ :=
          raiseMaxIndex_le _ last held
        exact ⟨raised, result, UInt64.le_trans bound higher⟩
      · rw [← List.mem_singleton.mp atEnd]
        cases maxIndexOf initial with
        | none =>
            exact ⟨logged.logId.index, rfl, UInt64.le_refl _⟩
        | some highest =>
            exact ⟨max highest logged.logId.index, rfl,
              (le_max_index highest logged.logId.index).2⟩

/-- Unlinked segments hold no entry above the purge point. -/
theorem Mirrors.dropped_entry_le
    (mirrors : Mirrors codec wal journal) {index : UInt64}
    {logged : Entry}
    (dropped : (false, WalRecord.entry logged) ∈
      wal.linkStream codec index) :
    logged.logId.index ≤ index := by
  unfold Wal.linkStream at dropped
  rw [mirrors.segmentRecords_eq] at dropped
  obtain ⟨segment, member, inside⟩ := List.mem_flatMap.mp dropped
  obtain ⟨record, held, marked⟩ := List.mem_map.mp inside
  injection marked with gone same
  subst same
  have listed : (wal.unlinked index).contains segment.1 = true := by
    simpa using gone
  have removed := ((mirrors.unlinked_iff index member).mp listed).2
  obtain ⟨highest, found, bound⟩ := entry_le_maxIndexOf held
  have highestBound : highest ≤ index := by
    simpa [found, Wal.removable] using removed
  exact UInt64.le_trans bound highestBound

/-- At or below the purge point the marker is the newest writer. -/
private theorem settle_entries_of_purged
    {stream earlier later : List (Bool × WalRecord)} {logId : LogId}
    (split : stream = earlier ++ (true, .purge logId) :: later)
    (laterQuiet : ∀ record ∈ everything later,
      ∃ lastPurged committed, record = .checkpoint lastPurged committed)
    {key : UInt64} (purgedKey : key ≤ logId.index) :
    settle (entryEffect key) none (staying stream) =
      settle (entryEffect key) none (everything stream) := by
  apply settle_staying_of_newestStays
  · refine ⟨earlier, .purge logId, later, split, ?_, ?_⟩
    · simp [entryEffect, purgedKey, Effect.IsWrite]
    · intro other member
      obtain ⟨_, _, rfl⟩ := laterQuiet other member
      exact id
  · intro _ _ laterToo content _ _ laterIdle
    apply settle_of_keep
    intro other member
    have quiet := laterIdle other member
    have unfilled := entryEffect_noFill key other
    cases shape : entryEffect key other with
    | keep => rfl
    | write _ => exact absurd (by rw [shape]; trivial) quiet
    | fill _ => exact absurd (by rw [shape]; trivial) unfilled

/-- Above it, unlinked segments can only have voided the entry. -/
private theorem Mirrors.settle_entries_above
    (mirrors : Mirrors codec wal journal) {index key : UInt64}
    (above : ¬ key ≤ index)
    (notRevived : ¬ Revived (entryEffect key) (wal.linkStream codec index)) :
    settle (entryEffect key) none (staying (wal.linkStream codec index)) =
      settle (entryEffect key) none
        (everything (wal.linkStream codec index)) := by
  apply settle_staying_of_not_revived
    (fun item _ => entryEffect_noFill key item) ?_ notRevived
  intro item dropped
  cases item with
  | entry logged =>
      have bound := mirrors.dropped_entry_le dropped
      have different : logged.logId.index ≠ key := by
        intro equality
        subst equality
        exact above bound
      exact Or.inl (by simp [entryEffect, different])
  | truncateFrom start =>
      by_cases cut : start ≤ key
      · exact Or.inr (by simp [entryEffect, cut])
      · exact Or.inl (by simp [entryEffect, cut])
  | purge other =>
      by_cases cut : key ≤ other.index
      · exact Or.inr (by simp [entryEffect, cut])
      · exact Or.inl (by simp [entryEffect, cut])
  | committed pointer => exact Or.inl rfl
  | checkpoint lastPurged committed => exact Or.inl rfl

private theorem settle_purged_of_newestStays
    {stream : List (Bool × WalRecord)}
    (newest : NewestStays (fun record => (purgedEffect record).IsWrite)
      stream) :
    settle purgedEffect none (staying stream) =
      settle purgedEffect none (everything stream) := by
  apply settle_staying_of_newestStays newest
  intro _ item laterToo content _ written laterIdle
  cases item <;> simp only [purgedEffect, reduceCtorEq,
    Effect.write.injEq] at written
  subst written
  exact settle_some_of_noWrite laterIdle _

private theorem settle_committed_of_survives
    {stream : List (Bool × WalRecord)} {committed : Option LogId}
    (current : settle committedEffect none (everything stream) = committed)
    (survives : CommittedSurvives stream committed) :
    settle committedEffect none (staying stream) = committed := by
  rcases survives with
    ⟨earlier, later, split, newest⟩ | ⟨noneStays, restated⟩
  · have written :
        committedEffect (.committed committed) = .write committed :=
      rfl
    have stable :
        settle committedEffect committed (everything later) = committed := by
      rw [split, everything_append] at current
      change settle committedEffect none
        (everything earlier ++ .committed committed :: everything later) =
          committed at current
      rwa [settle_after_write written] at current
    have stayingSplit :
        staying stream =
          staying earlier ++ .committed committed :: staying later := by
      rw [split]
      simp [staying]
    rw [stayingSplit, settle_after_write written]
    exact settle_staying_of_settle_eq newest stable
  · rw [settle_none_of_noWrite noneStays, restated]

/-- After the marker of a purge has been appended, unlinking keeps the log
faithful when nothing replay needs is unlinked. -/
theorem Journal.Faithful.reclaim
    (mirrors : Mirrors codec wal journal) (faithful : journal.Faithful)
    {logId : LogId} {earlierRecords tail : List WalRecord}
    (appended : journal.records = earlierRecords ++ .purge logId :: tail)
    (tailQuiet : ∀ record ∈ tail,
      ∃ lastPurged committed, record = .checkpoint lastPurged committed)
    (safe : SafeUnlink codec wal logId.index) :
    (journal.reclaim logId.index).Faithful := by
  have all := mirrors.everything_linkStream logId.index
  have kept := mirrors.staying_linkStream logId.index
  have tailNoPurge :
      ∀ record ∈ tail, ¬ (purgedEffect record).IsWrite := by
    intro record member
    obtain ⟨_, _, rfl⟩ := tailQuiet record member
    exact id
  unfold Journal.Faithful at faithful ⊢
  rw [← kept]
  show replay (staying (wal.linkStream codec logId.index)) = journal.state
  rw [← faithful, ← all]
  -- The newest purge marker is the one just appended, so it stays.
  obtain ⟨earlier, item, later, split, isPurge, newest⟩ := safe.purged
  have purgeStays : item = .purge logId ∧ everything later = tail := by
    have joined :
        everything earlier ++ item :: everything later =
          earlierRecords ++ .purge logId :: tail := by
      rw [← appended, ← all, split]
      simp [everything]
    exact newest_unique joined isPurge trivial newest tailNoPurge
  obtain ⟨rfl, laterEq⟩ := purgeStays
  refine replay_ext (fun key => ?_)
    (settle_purged_of_newestStays safe.purged) ?_
  · by_cases purgedKey : key ≤ logId.index
    · rw [← laterEq] at tailQuiet
      exact settle_entries_of_purged split tailQuiet purgedKey
    · exact mirrors.settle_entries_above purgedKey (safe.entries key)
  · have current :
        settle committedEffect none
            (everything (wal.linkStream codec logId.index)) =
          wal.state.committed := by
      rw [all, ← replay_committed, faithful, mirrors.holds.state]
    rw [current]
    exact settle_committed_of_survives current safe.committed

end Unlink

/-- A purge keeps the log faithful when its unlinking is safe. -/
theorem Journal.Faithful.purge
    {codec : WalCodec} {wal : Wal} {journal : Journal}
    (mirrors : Mirrors codec wal journal) (faithful : journal.Faithful)
    {logId : LogId}
    (safe :
      SafeUnlink codec (wal.mutate codec (.purge logId)) logId.index) :
    (journal.purge codec logId).Faithful := by
  have marked : Mirrors codec (wal.mutate codec (.purge logId))
      (journal.mutate codec (.purge logId)) :=
    mirrors.mutate (framable_of_isMarker codec rfl)
  have stillFaithful : (journal.mutate codec (.purge logId)).Faithful :=
    faithful.mutate fun clears => by cases clears
  refine Journal.Faithful.reclaim marked stillFaithful
    (Journal.records_mutate codec journal (.purge logId)) ?_ safe
  intro record member
  split at member
  · rw [List.mem_singleton.mp member]
    exact ⟨_, _, rfl⟩
  · cases member

/-- When the marker of a purge fills the active segment and the purge covers
every entry, all that is left on disk is the new segment's checkpoint, whose
pointers are those from before the purge. -/
theorem Journal.records_purge_of_rotates
    {codec : WalCodec} {journal : Journal} {logId : LogId}
    (rotates : journal.Rotates codec (.purge logId))
    (covered : ∀ segment ∈ journal.segments,
      Wal.removable logId.index (maxIndexOf segment.2) = true) :
    (journal.purge codec logId).records = [journal.headRecord] := by
  have closedActive :
      Wal.removable logId.index
        (maxIndexOf (journal.active.2 ++ [.purge logId])) = true := by
    rw [maxIndexOf_concat]
    exact covered journal.active (List.mem_append_right _ List.mem_cons_self)
  have noneStays :
      ((journal.write (.purge logId)).segments.filter fun segment =>
        !Wal.removable logId.index (maxIndexOf segment.2)) = [] := by
    apply List.filter_eq_nil_iff.mpr
    intro segment member
    rcases List.mem_append.mp member with old | new
    · simp [covered segment (List.mem_append_left _ old)]
    · rw [List.mem_singleton.mp new]
      simp [Journal.write, closedActive]
  have appended :
      journal.append codec (.purge logId) =
        (journal.write (.purge logId)).rotate := by
    rw [Journal.append, if_pos rotates]
  rw [Journal.purge, Journal.mutate, appended]
  show recordsOf
    ((journal.write (.purge logId)).segments.filter (fun segment =>
      !Wal.removable logId.index (maxIndexOf segment.2)) ++
        [(journal.active.1 + 1, [journal.headRecord])]) =
      [journal.headRecord]
  rw [noneStays]
  rfl

end AetherEngine.Consensus
