import AetherEngine.Consensus.WalCodec
import AetherEngine.Consensus.WalRecovery
import Mathlib.Logic.Function.Iterate
import Mathlib.Tactic.IntervalCases

/-!
# Crashes

A mutation of the log is a sequence of file actions: writes, syncs, the start
of a segment, the fold into memory, and the return to the caller.  `Session`
runs these actions one at a time, so that a crash can fall between any two of
them; a crash inside a write is a crash after it that cuts the written bytes.

A crash keeps every closed segment and cuts the active one somewhere at or
above its length at the last completed sync.  Recovery then yields the longest
initial segment of the records written whose frames are still whole, and this
segment contains every acknowledged record.
-/

namespace AetherEngine.Consensus

open AetherEngine.Frames

/-! ## Mutations as file actions -/

inductive Mutation where
  | appendEntries (entries : List Entry)
  | truncateFrom (index : UInt64)
  | purge (logId : LogId)
  | saveCommitted (pointer : Option LogId)
deriving DecidableEq, Repr

inductive Action where
  | append (record : WalRecord)
  | checkpoint
  | fold (record : WalRecord)
  | sync
  | startSegment
  | reclaim (index : UInt64)
  | acknowledge
deriving DecidableEq, Repr

/-- Append one record and fold it into the state. -/
def foldActions (record : WalRecord) : List Action :=
  [.append record, .fold record]

namespace Mutation

/-- The actions of a mutation up to its return. -/
def actions : Mutation → List Action
  | .appendEntries entries =>
      entries.flatMap (fun entry => foldActions (.entry entry)) ++
        [.sync, .acknowledge]
  | .truncateFrom index =>
      foldActions (.truncateFrom index) ++ [.sync, .acknowledge]
  | .purge logId =>
      foldActions (.purge logId) ++
        [.sync, .reclaim logId.index, .acknowledge]
  | .saveCommitted pointer =>
      foldActions (.committed pointer) ++ [.sync, .acknowledge]

/-- Every entry the mutation appends fits its frame. -/
def Framed (codec : WalCodec) : Mutation → Prop
  | .appendEntries entries =>
      ∀ entry ∈ entries, Framable codec.toFrameCodec (.entry entry)
  | _ => True

end Mutation

/-- The mutations as whole calls. -/
def Wal.perform (codec : WalCodec) (wal : Wal) : Mutation → Wal
  | .appendEntries entries => wal.appendEntries codec entries
  | .truncateFrom index => wal.truncateFrom codec index
  | .purge logId => wal.purge codec logId
  | .saveCommitted pointer => wal.saveCommitted codec pointer

/-! ## Sessions -/

/-- A log in the middle of its mutations: the length of the active segment at
the last completed sync, the records written and acknowledged so far, and the
actions still to come. -/
structure Session where
  wal : Wal
  synced : Nat
  written : List WalRecord
  acknowledged : List WalRecord
  pending : List Action

namespace Session

/-- A session over an empty directory. -/
def start (codec : WalCodec) (mutations : List Mutation) : Session where
  wal := openWal codec []
  synced := 0
  written := []
  acknowledged := []
  pending := mutations.flatMap Mutation.actions

def activeLength (session : Session) : Nat :=
  session.wal.dir.fileLength session.wal.segment.seq

/-- Write a record.  A full segment is synced and the next one started, with a
checkpoint as its first record, before anything else happens. -/
def append (codec : WalCodec) (session : Session) (record : WalRecord)
    (rest : List Action) : Session :=
  let wal := session.wal.write codec record
  { session with
    wal := wal
    written := session.written ++ [record]
    pending :=
      if segmentMaxBytes ≤ wal.segment.bytes then
        .sync :: .startSegment :: .checkpoint :: rest
      else
        rest }

/-- Perform the next action. -/
def tick (codec : WalCodec) (session : Session) : Session :=
  match session.pending with
  | [] => session
  | .append record :: rest => session.append codec record rest
  | .checkpoint :: rest =>
      session.append codec session.wal.headRecord rest
  | .fold record :: rest =>
      { session with
        wal :=
          { session.wal with state := session.wal.state.apply record }
        pending := rest }
  | .sync :: rest =>
      { session with synced := session.activeLength, pending := rest }
  | .startSegment :: rest =>
      { session with
        wal := session.wal.startSegment
        synced := 0
        pending := rest }
  | .reclaim index :: rest =>
      { session with wal := session.wal.reclaim index, pending := rest }
  | .acknowledge :: rest =>
      { session with acknowledged := session.written, pending := rest }

/-- The next action unlinks no segment. -/
def UnlinksNothing (session : Session) : Prop :=
  ∀ index rest, session.pending = .reclaim index :: rest →
    session.wal.unlinked index = []

/-- The directory after a crash that cuts the active segment. -/
def crashed (session : Session) (cut : Nat) : Directory :=
  session.wal.dir.setLen session.wal.segment.seq cut

end Session

/-! ## Sessions execute the mutations -/

/-- After some actions the session has the given log, with the given actions
still to come. -/
def Session.Executes (codec : WalCodec) (session : Session) (wal : Wal)
    (rest : List Action) : Prop :=
  ∃ count,
    ((Session.tick codec)^[count] session).wal = wal ∧
      ((Session.tick codec)^[count] session).pending = rest

namespace Session

variable {codec : WalCodec} {session : Session} {wal final : Wal}
  {rest later : List Action}

private theorem executes_now (codec : WalCodec) (session : Session) :
    session.Executes codec session.wal session.pending :=
  ⟨0, rfl, rfl⟩

theorem Executes.andThen
    (first : session.Executes codec wal rest)
    (second : ∀ middle : Session, middle.wal = wal →
      middle.pending = rest → middle.Executes codec final later) :
    session.Executes codec final later := by
  obtain ⟨count, reached, remaining⟩ := first
  obtain ⟨more, ends, left⟩ := second _ reached remaining
  refine ⟨more + count, ?_, ?_⟩
  · rw [Function.iterate_add_apply, ends]
  · rw [Function.iterate_add_apply, left]

private theorem executes_tick
    (next : (session.tick codec).Executes codec wal rest) :
    session.Executes codec wal rest := by
  obtain ⟨count, reached, remaining⟩ := next
  exact ⟨count + 1, reached, remaining⟩

/-- The actions of an append are the append, rotation included. -/
theorem executes_append {record : WalRecord}
    (upcoming : session.pending = .append record :: rest) :
    session.Executes codec (session.wal.append codec record) rest := by
  have written :
      session.tick codec = session.append codec record rest := by
    simp only [tick, upcoming]
  apply executes_tick
  rw [written]
  unfold Wal.append
  by_cases full :
      segmentMaxBytes ≤ (session.wal.write codec record).segment.bytes
  · -- Sync, start the next segment and write its checkpoint.
    have small := codec.marker_length
      (session.wal.write codec record).headRecord rfl
    have below :
        ¬ segmentMaxBytes ≤
          ((session.wal.write codec record).startSegment.write codec
            (session.wal.write codec record).headRecord).segment.bytes := by
      simp only [Wal.write, Wal.startSegment, frame_length, frameHeader,
        segmentMaxBytes] at small ⊢
      omega
    refine ⟨3, ?_, ?_⟩
    · simp only [if_pos full]
      simp only [append, if_pos full, Function.iterate_succ,
        Function.iterate_zero, Function.comp_apply, id_eq, tick]
      rfl
    · simp only [append, if_pos full, Function.iterate_succ,
        Function.iterate_zero, Function.comp_apply, id_eq, tick]
      exact if_neg below
  · refine ⟨0, ?_, ?_⟩
    · simp only [if_neg full]
      rfl
    · simp [append, if_neg full]

theorem executes_mutate {record : WalRecord}
    (upcoming : session.pending = foldActions record ++ rest) :
    session.Executes codec (session.wal.mutate codec record) rest := by
  refine (executes_append upcoming).andThen fun middle reached remaining =>
    executes_tick ⟨0, ?_, ?_⟩
  · simp only [Function.iterate_zero, id_eq, tick, remaining, reached]
    rfl
  · simp only [Function.iterate_zero, id_eq, tick, remaining]
    rfl

/-- A sync and the return change nothing in the log. -/
theorem executes_return (codec : WalCodec)
    (upcoming : session.pending = [.sync, .acknowledge] ++ rest) :
    session.Executes codec session.wal rest := by
  refine ⟨2, ?_, ?_⟩
  · simp [Function.iterate_succ, tick, upcoming]
  · simp [Function.iterate_succ, tick, upcoming]

/-- What a session executes before a sync and the return, it executes with
them. -/
theorem Executes.andReturn
    (executes : session.Executes codec wal ([.sync, .acknowledge] ++ rest)) :
    session.Executes codec wal rest := by
  refine executes.andThen fun middle reached remaining => ?_
  have returned := executes_return codec remaining
  rw [reached] at returned
  exact returned

private theorem executes_appendEntries {entries : List Entry}
    (upcoming : session.pending =
      entries.flatMap (fun entry => foldActions (.entry entry)) ++ rest) :
    session.Executes codec (session.wal.appendEntries codec entries)
      rest := by
  induction entries generalizing session with
  | nil =>
      have now := executes_now codec session
      rw [upcoming] at now
      exact now
  | cons entry others inductionHypothesis =>
      rw [List.flatMap_cons, List.append_assoc] at upcoming
      refine (executes_mutate upcoming).andThen fun middle reached
        remaining => ?_
      have others := inductionHypothesis remaining
      rw [reached] at others
      exact others

/-- The actions of a mutation have the effect of the whole call. -/
theorem executes_perform {mutation : Mutation}
    (upcoming : session.pending = mutation.actions ++ rest) :
    session.Executes codec (session.wal.perform codec mutation) rest := by
  cases mutation with
  | appendEntries entries =>
      rw [Mutation.actions, List.append_assoc] at upcoming
      exact (executes_appendEntries upcoming).andReturn
  | truncateFrom index =>
      rw [Mutation.actions, List.append_assoc] at upcoming
      exact (executes_mutate upcoming).andReturn
  | purge logId =>
      rw [Mutation.actions, List.append_assoc] at upcoming
      refine (executes_mutate upcoming).andThen fun middle reached
        remaining => ⟨3, ?_, ?_⟩
      · simp [Function.iterate_succ, tick, remaining, reached,
          Wal.perform, Wal.purge]
      · simp [Function.iterate_succ, tick, remaining]
  | saveCommitted pointer =>
      rw [Mutation.actions, List.append_assoc] at upcoming
      exact (executes_mutate upcoming).andReturn

/-- A session that runs to its end has performed all of its mutations. -/
theorem executes_program (codec : WalCodec) (mutations : List Mutation) :
    (start codec mutations).Executes codec
      (mutations.foldl (Wal.perform codec) (openWal codec [])) [] := by
  have general : ∀ session : Session,
      session.pending = mutations.flatMap Mutation.actions →
      session.Executes codec
        (mutations.foldl (Wal.perform codec) session.wal) [] := by
    induction mutations with
    | nil =>
        intro session upcoming
        have now := executes_now codec session
        rw [upcoming] at now
        exact now
    | cons mutation others inductionHypothesis =>
        intro session upcoming
        rw [List.flatMap_cons] at upcoming
        refine (executes_perform upcoming).andThen fun middle reached
          remaining => ?_
        have rest := inductionHypothesis middle remaining
        rw [reached] at rest
        exact rest
  exact general (start codec mutations) rfl

end Session

/-! ## What recovery promises -/

/-- The number of bytes in all files. -/
def Directory.size (dir : Directory) : Nat :=
  (dir.map fun file => file.2.length).sum

/-- Opening the directory recovers the longest initial segment of the written
records that is whole on disk, with every acknowledged record in it, leaves
files that hold exactly these records, and changes nothing when done again. -/
def RecoversLongest (codec : WalCodec) (dir : Directory)
    (written acknowledged : List WalRecord) : Prop :=
  ∃ kept lost segments,
    written = kept ++ lost ∧
      acknowledged <+: kept ∧
      (∀ next more, lost = next :: more →
        dir.size < (frames codec.toFrameCodec (kept ++ [next])).length) ∧
      (openWal codec dir).state = replay kept ∧
      (openWal codec dir).dir = filesOf codec segments ∧
      recordsOf segments = kept ∧
      openWal codec (openWal codec dir).dir = openWal codec dir

/-! ## The invariant -/

/-- The actions to come only start a segment, unlink or acknowledge when
everything written has been synced, and only write records that fit their
frame.  `settled` says that everything written so far has been synced. -/
def Guarded (codec : WalCodec) : (settled : Bool) → List Action → Prop
  | _, [] => True
  | _, .append record :: rest =>
      Framable codec.toFrameCodec record ∧ Guarded codec false rest
  | _, .checkpoint :: rest => Guarded codec false rest
  | settled, .fold _ :: rest => Guarded codec settled rest
  | _, .sync :: rest => Guarded codec true rest
  | settled, .startSegment :: rest =>
      settled = true ∧ Guarded codec false rest
  | settled, .reclaim _ :: rest =>
      settled = true ∧ Guarded codec settled rest
  | settled, .acknowledge :: rest =>
      settled = true ∧ Guarded codec settled rest

/-- The written records are those of a journal on disk, and the acknowledged
ones are in front of what the last sync covered. -/
structure Covered (codec : WalCodec) (session : Session) (journal : Journal)
    (safe rest : List WalRecord) : Prop where
  holds : Holds codec session.wal journal []
  written : session.written = journal.records
  active : journal.active.2 = safe ++ rest
  synced : session.synced = (frames codec.toFrameCodec safe).length
  acknowledged :
    session.acknowledged <+: recordsOf journal.older ++ safe

def Recoverable (codec : WalCodec) (session : Session) : Prop :=
  ∃ journal safe rest settled,
    Covered codec session journal safe rest ∧
      (settled = true → rest = []) ∧
      Guarded codec settled session.pending

theorem Guarded.weaken {codec : WalCodec} {actions : List Action}
    (guarded : Guarded codec false actions) (settled : Bool) :
    Guarded codec settled actions := by
  induction actions with
  | nil =>
      trivial
  | cons action rest inductionHypothesis =>
      cases action with
      | append record => exact guarded
      | checkpoint => exact guarded
      | fold record => exact inductionHypothesis guarded
      | sync => exact guarded
      | startSegment => cases guarded.1
      | reclaim index => cases guarded.1
      | acknowledge => cases guarded.1

/-- The actions of a mutation are guarded whatever was synced before them. -/
theorem guarded_actions
    {codec : WalCodec} {mutation : Mutation}
    (framed : mutation.Framed codec) {rest : List Action}
    (later : Guarded codec false rest) (settled : Bool) :
    Guarded codec settled (mutation.actions ++ rest) := by
  have marked : ∀ {record : WalRecord}, record.isMarker = true →
      Framable codec.toFrameCodec record :=
    fun marker => framable_of_isMarker codec marker
  cases mutation with
  | appendEntries entries =>
      simp only [Mutation.actions, List.append_assoc]
      simp only [Mutation.Framed] at framed
      induction entries generalizing settled with
      | nil =>
          exact ⟨rfl, later.weaken true⟩
      | cons entry others inductionHypothesis =>
          refine ⟨framed entry List.mem_cons_self, ?_⟩
          exact inductionHypothesis false fun other member =>
            framed other (List.mem_cons_of_mem entry member)
  | truncateFrom index =>
      exact ⟨marked rfl, rfl, later.weaken true⟩
  | purge logId =>
      exact ⟨marked rfl, rfl, rfl, later.weaken true⟩
  | saveCommitted pointer =>
      exact ⟨marked rfl, rfl, later.weaken true⟩

private theorem guarded_program
    {codec : WalCodec} {mutations : List Mutation}
    (framed : ∀ mutation ∈ mutations, mutation.Framed codec) :
    Guarded codec false (mutations.flatMap Mutation.actions) := by
  induction mutations with
  | nil =>
      trivial
  | cons mutation rest inductionHypothesis =>
      rw [List.flatMap_cons]
      refine guarded_actions (framed mutation List.mem_cons_self) ?_ false
      exact inductionHypothesis fun other member =>
        framed other (List.mem_cons_of_mem mutation member)

private theorem recoverable_start
    {codec : WalCodec} {mutations : List Mutation}
    (framed : ∀ mutation ∈ mutations, mutation.Framed codec) :
    Recoverable codec (Session.start codec mutations) := by
  refine ⟨emptyJournal, [], [], false,
    ⟨mirrors_openWal_nil.holds, rfl, rfl, rfl, ?_⟩, fun _ => rfl,
    guarded_program framed⟩
  exact List.prefix_rfl

section Steps

variable {codec : WalCodec} {session : Session} {journal : Journal}
  {safe rest : List WalRecord}

theorem Holds.activeLength
    (holds : Holds codec session.wal journal []) :
    session.activeLength =
      (frames codec.toFrameCodec journal.active.2).length := by
  unfold Session.activeLength
  rw [holds.dir, holds.seq]
  simp only [List.map_nil, List.append_nil, Journal.segments,
    filesOf_append, filesOf_cons, filesOf_nil]
  exact Directory.fileLength_existing
    (files_below codec journal.older_below) _ []

theorem Covered.append
    (covered : Covered codec session journal safe rest)
    {record : WalRecord} (framable : Framable codec.toFrameCodec record)
    (actions : List Action) :
    Covered codec (session.append codec record actions)
      (journal.write record) safe (rest ++ [record]) where
  holds := covered.holds.write framable
  written := by
    rw [Journal.records_write, ← covered.written]
    rfl
  active := by
    simp [Journal.write, covered.active]
  synced := covered.synced
  acknowledged := covered.acknowledged

/-- Writing a record leaves the session recoverable with nothing newly
synced, and a full segment is synced before the next one starts. -/
theorem Covered.recoverable_append
    (covered : Covered codec session journal safe rest)
    {record : WalRecord} (framable : Framable codec.toFrameCodec record)
    {actions : List Action} (later : Guarded codec false actions) :
    Recoverable codec (session.append codec record actions) := by
  refine ⟨journal.write record, safe, rest ++ [record], false,
    covered.append framable actions, Bool.false_ne_true.elim, ?_⟩
  unfold Session.append
  simp only
  split
  · exact ⟨rfl, later⟩
  · exact later

theorem Covered.fold
    (covered : Covered codec session journal safe rest)
    (record : WalRecord) (actions : List Action) :
    Covered codec
      { session with
        wal :=
          { session.wal with state := session.wal.state.apply record }
        pending := actions }
      (journal.fold record) safe rest where
  holds :=
    { dir := covered.holds.dir
      seq := covered.holds.seq
      bytes := covered.holds.bytes
      state := by simp [Journal.fold, covered.holds.state]
      ascending := covered.holds.ascending
      framable := covered.holds.framable }
  written := covered.written
  active := covered.active
  synced := covered.synced
  acknowledged := covered.acknowledged

theorem Covered.sync
    (covered : Covered codec session journal safe rest)
    (actions : List Action) :
    Covered codec
      { session with synced := session.activeLength, pending := actions }
      journal (safe ++ rest) [] where
  holds := covered.holds
  written := covered.written
  active := by
    rw [covered.active, List.append_nil]
  synced := by
    rw [← covered.active]
    exact covered.holds.activeLength
  acknowledged := by
    rw [← List.append_assoc]
    exact covered.acknowledged.trans (List.prefix_append _ _)

theorem Covered.startSegment
    (covered : Covered codec session journal safe [])
    (actions : List Action) :
    Covered codec
      { session with
        wal := session.wal.startSegment
        synced := 0
        pending := actions }
      journal.startSegment [] [] where
  holds := by
    simpa using covered.holds.startSegment
  written := by
    rw [Journal.records_startSegment]
    exact covered.written
  active := rfl
  synced := rfl
  acknowledged := by
    have active := covered.active
    rw [List.append_nil] at active
    simpa [Journal.startSegment, active] using covered.acknowledged

private theorem Wal.reclaim_of_unlinked_nil
    {wal : Wal} {index : UInt64} (nothing : wal.unlinked index = []) :
    wal.reclaim index = wal := by
  have closedKept :
      (wal.closed.filter fun item => !removable index item.2) =
        wal.closed := by
    apply List.filter_eq_self.mpr
    intro item member
    have noneRemoved := List.map_eq_nil_iff.mp nothing
    have kept := List.filter_eq_nil_iff.mp noneRemoved item member
    simpa using kept
  have filesKept :
      (wal.dir.filter fun file => !(wal.unlinked index).contains file.1) =
        wal.dir := by
    apply List.filter_eq_self.mpr
    intro file _
    simp [nothing]
  unfold Wal.reclaim
  rw [closedKept, filesKept]

theorem Covered.acknowledge
    (covered : Covered codec session journal safe [])
    (actions : List Action) :
    Covered codec
      { session with acknowledged := session.written, pending := actions }
      journal safe [] where
  holds := covered.holds
  written := covered.written
  active := covered.active
  synced := covered.synced
  acknowledged := by
    have active := covered.active
    rw [List.append_nil] at active
    have everything :
        session.written ++ [] = recordsOf journal.older ++ safe := by
      rw [covered.written, Journal.records, Journal.segments,
        recordsOf_append, recordsOf_cons, recordsOf_nil, active,
        List.append_nil, List.append_nil]
    exact ⟨[], everything⟩

end Steps

/-- One action keeps the session recoverable when it unlinks nothing. -/
theorem Recoverable.tick
    {codec : WalCodec} {session : Session}
    (recoverable : Recoverable codec session)
    (linked : session.UnlinksNothing) :
    Recoverable codec (session.tick codec) := by
  obtain ⟨journal, safe, rest, settled, covered, whole, guarded⟩ :=
    recoverable
  unfold Session.tick
  cases upcoming : session.pending with
  | nil =>
      refine ⟨journal, safe, rest, settled, covered, whole, ?_⟩
      exact guarded
  | cons action actions =>
      rw [upcoming] at guarded
      cases action with
      | append record =>
          exact covered.recoverable_append guarded.1 guarded.2
      | checkpoint =>
          exact covered.recoverable_append
            (framable_of_isMarker codec rfl) guarded
      | fold record =>
          exact ⟨journal.fold record, safe, rest, settled,
            covered.fold record actions, whole, guarded⟩
      | sync =>
          exact ⟨journal, safe ++ rest, [], true, covered.sync actions,
            fun _ => rfl, guarded⟩
      | startSegment =>
          obtain ⟨isSettled, later⟩ := guarded
          have nothingLeft := whole isSettled
          subst nothingLeft
          exact ⟨journal.startSegment, [], [], false,
            covered.startSegment actions, fun _ => rfl, later⟩
      | reclaim index =>
          obtain ⟨isSettled, later⟩ := guarded
          have unchanged :=
            Wal.reclaim_of_unlinked_nil (linked index actions upcoming)
          refine ⟨journal, safe, rest, settled, ?_, whole, later⟩
          simp only [unchanged]
          exact ⟨covered.holds, covered.written, covered.active,
            covered.synced, covered.acknowledged⟩
      | acknowledge =>
          obtain ⟨isSettled, later⟩ := guarded
          have nothingLeft := whole isSettled
          subst nothingLeft
          exact ⟨journal, safe, [], settled, covered.acknowledge actions,
            fun _ => rfl, later⟩

private theorem recoverable_of_run
    {codec : WalCodec} {session : Session}
    (recoverable : Recoverable codec session) {count : Nat}
    (linked : ∀ earlier < count,
      ((Session.tick codec)^[earlier] session).UnlinksNothing) :
    Recoverable codec ((Session.tick codec)^[count] session) := by
  induction count with
  | zero =>
      exact recoverable
  | succ count inductionHypothesis =>
      rw [Function.iterate_succ_apply']
      exact (inductionHypothesis fun earlier before =>
        linked earlier (Nat.lt_succ_of_lt before)).tick
          (linked count (Nat.lt_succ_self count))

/-! ## Recovery after a crash -/

private theorem Directory.size_filesOf (codec : WalCodec)
    (segments : List SegmentRecords) :
    Directory.size (filesOf codec segments) =
      (frames codec.toFrameCodec (recordsOf segments)).length := by
  induction segments with
  | nil =>
      rfl
  | cons segment rest inductionHypothesis =>
      rw [recordsOf_cons, frames_append, List.length_append,
        ← inductionHypothesis]
      simp [Directory.size, filesOf]

/-- A crash leaves the older segments whole and a cut active segment. -/
theorem Holds.crashed_eq
    {codec : WalCodec} {session : Session} {journal : Journal}
    (holds : Holds codec session.wal journal []) (cut : Nat) :
    session.crashed cut =
      filesOf codec journal.older ++
        [(journal.active.1,
          (frames codec.toFrameCodec journal.active.2).take cut)] := by
  have below := files_below codec journal.older_below
  have olderKept :
      (filesOf codec journal.older).setLen journal.active.1 cut =
        filesOf codec journal.older := by
    unfold Directory.setLen
    rw [List.map_congr_left (g := id), List.map_id]
    intro file member
    exact if_neg (Nat.ne_of_lt (below file member))
  have dir := holds.dir
  simp only [List.map_nil, List.append_nil, Journal.segments,
    filesOf_append, filesOf_cons, filesOf_nil] at dir
  unfold Session.crashed
  rw [dir, holds.seq]
  unfold Directory.setLen at olderKept ⊢
  rw [List.map_append, olderKept]
  simp

theorem Covered.crashed_eq
    {codec : WalCodec} {session : Session} {journal : Journal}
    {safe rest : List WalRecord}
    (covered : Covered codec session journal safe rest) (cut : Nat) :
    session.crashed cut =
      filesOf codec journal.older ++
        [(journal.active.1,
          (frames codec.toFrameCodec (safe ++ rest)).take cut)] := by
  rw [covered.holds.crashed_eq, covered.active]

/-- Opening a cut directory is opening the directory of the whole frames in
front of the cut. -/
theorem openWal_cut
    {codec : WalCodec} {older : List SegmentRecords} {seq : Nat}
    {kept : List WalRecord} {tail : Bytes}
    (ascending : ((older ++ [(seq, kept)]).map Prod.fst).Pairwise (· < ·))
    (framable : ∀ record ∈ recordsOf (older ++ [(seq, kept)]),
      Framable codec.toFrameCodec record)
    (ending : tail = [] ∨ readFrame codec.toFrameCodec tail = .damaged) :
    openWal codec
        (filesOf codec older ++
          [(seq, frames codec.toFrameCodec kept ++ tail)]) =
      openWal codec (filesOf codec (older ++ [(seq, kept)])) := by
  rcases ending with rfl | damaged
  · rw [List.append_nil, filesOf_append, filesOf_cons, filesOf_nil]
  · exact openWal_damaged_newest ascending framable damaged

private theorem Recoverable.recoversLongest
    {codec : WalCodec} {session : Session}
    (recoverable : Recoverable codec session) {cut : Nat}
    (spared : session.synced ≤ cut) (bound : cut ≤ session.activeLength) :
    RecoversLongest codec (session.crashed cut) session.written
      session.acknowledged := by
  obtain ⟨journal, safe, rest, _, covered, _, _⟩ := recoverable
  have allFramable := covered.holds.framable
  rw [Journal.records, Journal.segments, recordsOf_append,
    framable_append, recordsOf_cons, recordsOf_nil, List.append_nil,
    covered.active, framable_append] at allFramable
  obtain ⟨olderFramable, safeFramable, restFramable⟩ := allFramable
  rw [covered.synced] at spared
  rw [covered.holds.activeLength, covered.active] at bound
  obtain ⟨kept, lost, tail, split, cutBytes, ending, longest⟩ :=
    take_frames_append codec.toFrameCodec restFramable spared bound
  have crashed := covered.crashed_eq cut
  have size : (session.crashed cut).size =
      (frames codec.toFrameCodec (recordsOf journal.older)).length +
        cut := by
    rw [crashed, ← Directory.size_filesOf]
    simp only [Directory.size, List.map_append, List.sum_append,
      List.map_cons, List.map_nil, List.sum_cons, List.sum_nil,
      List.length_take]
    omega
  rw [cutBytes] at crashed
  have ascending :
      ((journal.older ++ [(journal.active.1, safe ++ kept)]).map
        Prod.fst).Pairwise (· < ·) := by
    simpa using journal.ascending
  have keptFramable : ∀ record ∈
      recordsOf (journal.older ++ [(journal.active.1, safe ++ kept)]),
        Framable codec.toFrameCodec record := by
    rw [split, framable_append] at restFramable
    rw [recordsOf_append, framable_append, recordsOf_cons, recordsOf_nil,
      List.append_nil, framable_append]
    exact ⟨olderFramable, safeFramable, restFramable.1⟩
  have opened :
      openWal codec (session.crashed cut) =
        openWal codec (filesOf codec
          (journal.older ++ [(journal.active.1, safe ++ kept)])) := by
    rw [crashed]
    exact openWal_cut ascending keptFramable ending
  have recovered :
      recordsOf (journal.older ++ [(journal.active.1, safe ++ kept)]) =
        recordsOf journal.older ++ safe ++ kept := by
    simp
  have dir :
      (openWal codec (session.crashed cut)).dir =
        filesOf codec
          (journal.older ++ [(journal.active.1, safe ++ kept)]) := by
    rw [opened, openWal_whole ascending keptFramable]
  refine ⟨recordsOf journal.older ++ safe ++ kept, lost,
    journal.older ++ [(journal.active.1, safe ++ kept)], ?_, ?_, ?_, ?_,
    dir, recovered, ?_⟩
  · rw [covered.written, Journal.records, Journal.segments,
      recordsOf_append, recordsOf_cons, recordsOf_nil, covered.active,
      split]
    simp [List.append_assoc]
  · exact covered.acknowledged.trans (List.prefix_append _ _)
  · intro next more following
    have shorter := longest next more following
    rw [size, List.append_assoc, List.append_assoc, frames_append,
      List.length_append, ← List.append_assoc]
    omega
  · rw [opened, openWal_whole ascending keptFramable, ← recovered]
  · rw [dir, opened]

/-- Every crash of every run recovers the longest clean initial segment of the
records written and loses no acknowledged record, as long as every appended
entry fits its frame. -/
theorem crash_recovers_longest
    (codec : WalCodec) {mutations : List Mutation}
    (framed : ∀ mutation ∈ mutations, mutation.Framed codec)
    {count : Nat}
    (linked : ∀ earlier < count,
      ((Session.tick codec)^[earlier]
        (Session.start codec mutations)).UnlinksNothing)
    {cut : Nat}
    (spared :
      ((Session.tick codec)^[count]
        (Session.start codec mutations)).synced ≤ cut)
    (bound : cut ≤
      ((Session.tick codec)^[count]
        (Session.start codec mutations)).activeLength) :
    RecoversLongest codec
      (((Session.tick codec)^[count]
        (Session.start codec mutations)).crashed cut)
      ((Session.tick codec)^[count]
        (Session.start codec mutations)).written
      ((Session.tick codec)^[count]
        (Session.start codec mutations)).acknowledged :=
  (recoverable_of_run (recoverable_start framed) linked).recoversLongest
    spared bound

/-- Two entries are acknowledged; the crash comes right after the committed
marker is written and keeps five of its bytes. -/
def tornSession : Session :=
  (Session.tick bincodeCodec)^[7] (Session.start bincodeCodec
    [.appendEntries
      [⟨⟨⟨1, 1⟩, 1⟩, .blank⟩, ⟨⟨⟨1, 1⟩, 2⟩, .normal [7]⟩],
      .saveCommitted (some ⟨⟨1, 1⟩, 1⟩)])

theorem crash_recovers_longest_torn :
    tornSession.written.length = 3 ∧
      tornSession.acknowledged.length = 2 ∧
      RecoversLongest bincodeCodec
        (tornSession.crashed (tornSession.synced + 5)) tornSession.written
        tornSession.acknowledged := by
  refine ⟨by decide +kernel, by decide +kernel, ?_⟩
  refine crash_recovers_longest bincodeCodec ?_ ?_ ?_ ?_
  · have framed :
        ∀ entry ∈ [(⟨⟨⟨1, 1⟩, 1⟩, .blank⟩ : Entry),
          ⟨⟨⟨1, 1⟩, 2⟩, .normal [7]⟩],
          Framable bincodeCodec.toFrameCodec (.entry entry) := by
      unfold Framable
      decide +kernel
    simpa [Mutation.Framed] using framed
  · intro earlier before index rest _
    have noneClosed :
        ∀ earlier < 7,
          ((Session.tick bincodeCodec)^[earlier]
            (Session.start bincodeCodec
              [.appendEntries
                [⟨⟨⟨1, 1⟩, 1⟩, .blank⟩, ⟨⟨⟨1, 1⟩, 2⟩, .normal [7]⟩],
                .saveCommitted (some ⟨⟨1, 1⟩, 1⟩)])).wal.closed =
            [] := by
      decide +kernel
    simp [Wal.unlinked, noneClosed earlier before]
  · exact Nat.le_add_right _ _
  · have room : tornSession.synced + 5 ≤ tornSession.activeLength := by
      decide +kernel
    exact room

/-! ### A record too long for its length field -/

section Oversized

variable {codec : WalCodec} {entry : Entry}

theorem checkpoint_fits (codec : WalCodec) :
    ¬ segmentMaxBytes ≤
      frameHeader + (codec.encode (.checkpoint none none)).length := by
  have small := codec.marker_length (.checkpoint none none) rfl
  simp only [segmentMaxBytes, frameHeader]
  omega

/-- The session of one append whose record fills its segment, after the
mutation has returned. -/
theorem tick_appendOne
    (full : segmentMaxBytes ≤
      frameHeader + (codec.encode (.entry entry)).length) :
    (Session.tick codec)^[7]
        (Session.start codec [.appendEntries [entry]]) =
      { wal :=
          { dir :=
              [(0, frame codec.toFrameCodec (codec.encode (.entry entry))),
                (1, frame codec.toFrameCodec
                  (codec.encode (.checkpoint none none)))]
            segment :=
              { seq := 1
                bytes := frameHeader +
                  (codec.encode (.checkpoint none none)).length
                maxIndex := none }
            closed := [(0, some entry.logId.index)]
            state := ({} : WalState).apply (.entry entry) }
        synced := frameHeader +
          (codec.encode (.checkpoint none none)).length
        written := [.entry entry, .checkpoint none none]
        acknowledged := [.entry entry, .checkpoint none none]
        pending := [] } := by
  simp [Function.iterate_succ, Session.tick, Session.start, openWal_nil,
    Mutation.actions, foldActions, Session.append, Wal.write, full,
    Wal.startSegment, Wal.headRecord, checkpoint_fits,
    Directory.appendFile, raiseMaxIndex, WalRecord.entryIndex,
    Session.activeLength, Directory.fileLength]

/-- The append comes to no unlinking action. -/
theorem unlinksNothing_appendOne
    (full : segmentMaxBytes ≤
      frameHeader + (codec.encode (.entry entry)).length)
    {earlier : Nat} (before : earlier < 7) :
    ((Session.tick codec)^[earlier]
      (Session.start codec [.appendEntries [entry]])).UnlinksNothing := by
  intro index rest
  interval_cases earlier <;>
    simp [Function.iterate_succ, Session.tick, Session.start, openWal_nil,
      Mutation.actions, foldActions, Session.append, Wal.write, full,
      Wal.startSegment, Wal.headRecord, checkpoint_fits]

/-- A directory whose first file starts with damage is recovered empty. -/
theorem openWal_state_of_damaged_first
    (seq : Nat) {bytes : Bytes} (rest : Directory)
    (damaged : readFrame codec.toFrameCodec bytes = .damaged) :
    (openWal codec ((seq, bytes) :: rest)).state = {} := by
  simp [openWal, scanSegments, scan_of_damaged damaged]

/-- The acknowledged entry is lost when its frame reads back as damage. -/
theorem not_recoversLongest_of_damaged
    (full : segmentMaxBytes ≤
      frameHeader + (codec.encode (.entry entry)).length)
    (damaged : readFrame codec.toFrameCodec
      (frame codec.toFrameCodec (codec.encode (.entry entry))) =
        .damaged) (cut : Nat) :
    ¬ RecoversLongest codec
      (((Session.tick codec)^[7]
        (Session.start codec [.appendEntries [entry]])).crashed cut)
      ((Session.tick codec)^[7]
        (Session.start codec [.appendEntries [entry]])).written
      ((Session.tick codec)^[7]
        (Session.start codec [.appendEntries [entry]])).acknowledged := by
  rw [tick_appendOne full]
  intro recovers
  rcases recovers with ⟨kept, lost, segments, split, covered, _, state, _⟩
  simp only at split covered
  have all : kept = [.entry entry, .checkpoint none none] := by
    have shorter := covered.length_le
    have longer := congrArg List.length split
    rw [List.length_append] at longer
    have noneLost : lost = [] := by
      apply List.length_eq_zero_iff.mp
      omega
    rw [noneLost, List.append_nil] at split
    exact split.symm
  have recovered := openWal_state_of_damaged_first 0
    [(1, (frame codec.toFrameCodec
      (codec.encode (.checkpoint none none))).take cut)] damaged
  have sameState :
      replay [.entry entry, .checkpoint none none] = ({} : WalState) := by
    rw [← all, ← state, ← recovered]
    rfl
  have entries := congrArg
    (fun state => state.entries[entry.logId.index]?) sameState
  simp [replay, WalState.apply] at entries

end Oversized

/-- A payload of `2 ^ 32` bytes. -/
@[irreducible]
def oversizedPayload : Bytes :=
  List.replicate (2 ^ 32) 0

theorem oversizedPayload_length : oversizedPayload.length = 2 ^ 32 := by
  unfold oversizedPayload
  exact List.length_replicate

def oversizedEntry : Entry where
  logId := ⟨⟨1, 1⟩, 1⟩
  payload := .normal oversizedPayload

private theorem encode_oversizedEntry_length :
    (bincodeCodec.encode (.entry oversizedEntry)).length =
      40 + 2 ^ 32 := by
  have size := walRecordLayout_normal_length ⟨⟨1, 1⟩, 1⟩ oversizedPayload
  rw [oversizedPayload_length] at size
  exact size

private theorem oversizedEntry_damaged :
    readFrame bincodeCodec.toFrameCodec
      (frame bincodeCodec.toFrameCodec
        (bincodeCodec.encode (.entry oversizedEntry))) = .damaged := by
  apply readFrame_oversized
  rw [encode_oversizedEntry_length]
  have reduced : (40 + 2 ^ 32) % 2 ^ 32 = 40 := by
    omega
  rw [reduced]
  exact bincodeCodec_decode_take ⟨⟨1, 1⟩, 1⟩
    (by rw [oversizedPayload_length]; omega)
    (by rw [oversizedPayload_length]; omega)

/-- One append of an entry with `2 ^ 32` payload bytes returns, and the entry
is gone after a crash that cuts nothing. -/
theorem oversizedEntry_lost :
    (∀ earlier < 7,
      ((Session.tick bincodeCodec)^[earlier] (Session.start bincodeCodec
        [.appendEntries [oversizedEntry]])).UnlinksNothing) ∧
      ((Session.tick bincodeCodec)^[7] (Session.start bincodeCodec
        [.appendEntries [oversizedEntry]])).synced =
      ((Session.tick bincodeCodec)^[7] (Session.start bincodeCodec
        [.appendEntries [oversizedEntry]])).activeLength ∧
      ¬ RecoversLongest bincodeCodec
        (((Session.tick bincodeCodec)^[7] (Session.start bincodeCodec
          [.appendEntries [oversizedEntry]])).crashed
          ((Session.tick bincodeCodec)^[7] (Session.start bincodeCodec
            [.appendEntries [oversizedEntry]])).synced)
        ((Session.tick bincodeCodec)^[7] (Session.start bincodeCodec
          [.appendEntries [oversizedEntry]])).written
        ((Session.tick bincodeCodec)^[7] (Session.start bincodeCodec
          [.appendEntries [oversizedEntry]])).acknowledged := by
  have full : segmentMaxBytes ≤ frameHeader +
      (bincodeCodec.encode (.entry oversizedEntry)).length := by
    rw [encode_oversizedEntry_length, segmentMaxBytes]
    omega
  refine ⟨fun earlier before => unlinksNothing_appendOne full before, ?_,
    not_recoversLongest_of_damaged full oversizedEntry_damaged _⟩
  rw [tick_appendOne full]
  simp [Session.activeLength, Directory.fileLength]

end AetherEngine.Consensus
