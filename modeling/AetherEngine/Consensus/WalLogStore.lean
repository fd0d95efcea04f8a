import AetherEngine.Consensus.WalCodec
import AetherEngine.Consensus.WalReplay
import AetherEngine.Foundations.Runs

/-!
# The durable log store against the in-memory log store

`WalLogStore` answers from the folded state of its write-ahead log and keeps
the vote in a file of its own.  It is run next to the in-memory `LogStore`:
both execute the same calls, and the durable store is closed and reopened
between calls wherever the run says so.

The two give the same answers as long as every step is safe.  A step is unsafe
when an appended entry does not fit its frame, when clearing the committed
pointer fills the segment, or when a purge unlinks a record that replay still
needs.
-/

namespace AetherEngine.Consensus

open AetherEngine.Frames
open AetherEngine.Runs
open AetherEngine.Registers

/-! ## The durable store -/

/-- The serializers of the durable store: records and the vote. -/
structure StoreCodec extends WalCodec where
  encodeVote : Vote → Bytes
  decodeVote : Bytes → Option Vote
  decodeVote_encodeVote : ∀ vote, decodeVote (encodeVote vote) = some vote

/-- `read_vote`: a missing or undecodable vote file is no vote. -/
def readVoteFile (codec : StoreCodec) (file : Option Bytes) : Option Vote :=
  file.bind codec.decodeVote

structure WalLogStore where
  wal : Wal
  voteFile : Option Bytes
  vote : Option Vote

namespace WalLogStore

variable (codec : StoreCodec)

/-- `WalLogStore::open` on the segment files and the vote file. -/
def openStore (dir : Directory) (voteFile : Option Bytes) : WalLogStore where
  wal := openWal codec.toWalCodec dir
  voteFile := voteFile
  vote := readVoteFile codec voteFile

/-- Close the store and open its directory again. -/
def reopen (store : WalLogStore) : WalLogStore :=
  openStore codec store.wal.dir store.voteFile

def tryGetLogEntries (store : WalLogStore) (range : LogRange) : List Entry :=
  entriesIn store.wal.state.entries range

def getLogState (store : WalLogStore) : LogState :=
  logStateOf store.wal.state.entries store.wal.state.lastPurged

def readVote (store : WalLogStore) : Option Vote :=
  store.vote

def readCommitted (store : WalLogStore) : Option LogId :=
  store.wal.state.committed

/-- The vote file is replaced before the vote in memory is. -/
def saveVote (store : WalLogStore) (vote : Vote) : WalLogStore :=
  { store with voteFile := some (codec.encodeVote vote), vote := some vote }

def saveCommitted (store : WalLogStore) (committed : Option LogId) :
    WalLogStore :=
  { store with wal := store.wal.saveCommitted codec.toWalCodec committed }

def append (store : WalLogStore) (entries : List Entry) : WalLogStore :=
  { store with wal := store.wal.appendEntries codec.toWalCodec entries }

def truncate (store : WalLogStore) (logId : LogId) : WalLogStore :=
  { store with wal := store.wal.truncateFrom codec.toWalCodec logId.index }

def purge (store : WalLogStore) (logId : LogId) : WalLogStore :=
  { store with wal := store.wal.purge codec.toWalCodec logId }

end WalLogStore

/-! ## Both stores side by side -/

inductive LogCall where
  | append (entries : List Entry)
  | truncate (logId : LogId)
  | purge (logId : LogId)
  | saveCommitted (committed : Option LogId)
  | saveVote (vote : Vote)
deriving DecidableEq, Repr

def LogStore.call (store : LogStore) : LogCall → LogStore
  | .append entries => store.append entries
  | .truncate logId => store.truncate logId
  | .purge logId => store.purge logId
  | .saveCommitted committed => store.saveCommitted committed
  | .saveVote vote => store.saveVote vote

def WalLogStore.call (codec : StoreCodec) (store : WalLogStore) :
    LogCall → WalLogStore
  | .append entries => store.append codec entries
  | .truncate logId => store.truncate codec logId
  | .purge logId => store.purge codec logId
  | .saveCommitted committed => store.saveCommitted codec committed
  | .saveVote vote => store.saveVote codec vote

/-- A step is a call both stores execute, or a restart of the durable one. -/
inductive StoreStep where
  | call (call : LogCall)
  | restart
deriving DecidableEq, Repr

/-- The in-memory store and the durable store of one run. -/
structure Twin where
  memory : LogStore
  durable : WalLogStore

namespace Twin

/-- An empty log and a durable store over an empty directory. -/
def start (codec : StoreCodec) : Twin where
  memory := {}
  durable := WalLogStore.openStore codec [] none

def step (codec : StoreCodec) (twin : Twin) : StoreStep → Twin
  | .call call =>
      { memory := twin.memory.call call
        durable := twin.durable.call codec call }
  | .restart =>
      { twin with durable := twin.durable.reopen codec }

/-- Both stores answer every query the same way and hold the same entries and
pointers. -/
structure AnswersAlike (twin : Twin) : Prop where
  entries : ∀ range,
    twin.durable.tryGetLogEntries range = twin.memory.tryGetLogEntries range
  logState : twin.durable.getLogState = twin.memory.getLogState
  committed : twin.durable.readCommitted = twin.memory.readCommitted
  sameLog : twin.durable.wal.state.entries = twin.memory.log
  sameLastPurged : twin.durable.wal.state.lastPurged = twin.memory.lastPurged
  sameCommitted : twin.durable.wal.state.committed = twin.memory.committed

/-- What the durable store needs of a step, in the state before it. -/
def StepSafe (codec : StoreCodec) (twin : Twin) : StoreStep → Prop
  | .call (.append entries) =>
      ∀ entry ∈ entries, Framable codec.toFrameCodec (.entry entry)
  | .call (.saveCommitted none) =>
      twin.durable.wal.state.committed = none ∨
        (twin.durable.wal.write codec.toWalCodec
          (.committed none)).segment.bytes < segmentMaxBytes
  | .call (.purge logId) =>
      SafeUnlink codec.toWalCodec
        (twin.durable.wal.mutate codec.toWalCodec (.purge logId))
        logId.index
  | _ => True

/-! ## The invariant -/

/-- The in-memory store as a folded log state. -/
def expected (twin : Twin) : WalState where
  entries := twin.memory.log
  lastPurged := twin.memory.lastPurged
  committed := twin.memory.committed

/-- The durable store holds a faithful journal of the in-memory log, and its
vote file holds the vote. -/
structure Agrees (codec : StoreCodec) (twin : Twin) : Prop where
  journal : ∃ journal,
    Mirrors codec.toWalCodec twin.durable.wal journal ∧
      journal.Faithful ∧ journal.state = twin.expected
  vote : twin.durable.vote = twin.memory.vote
  voteFile : readVoteFile codec twin.durable.voteFile = twin.memory.vote

private theorem agrees_start (codec : StoreCodec) :
    (start codec).Agrees codec where
  journal := ⟨emptyJournal, mirrors_openWal_nil, rfl, rfl⟩
  vote := rfl
  voteFile := rfl

private theorem Agrees.answersAlike {codec : StoreCodec} {twin : Twin}
    (agrees : twin.Agrees codec) : twin.AnswersAlike := by
  obtain ⟨journal, mirrors, _, live⟩ := agrees.journal
  have state : twin.durable.wal.state = twin.expected :=
    mirrors.holds.state.trans live
  have sameLog : twin.durable.wal.state.entries = twin.memory.log := by
    rw [state]
    rfl
  have samePurged :
      twin.durable.wal.state.lastPurged = twin.memory.lastPurged := by
    rw [state]
    rfl
  have sameCommitted :
      twin.durable.wal.state.committed = twin.memory.committed := by
    rw [state]
    rfl
  refine ⟨fun range => ?_, ?_, sameCommitted, sameLog, samePurged,
    sameCommitted⟩
  · simp only [WalLogStore.tryGetLogEntries, LogStore.tryGetLogEntries,
      sameLog]
  · simp only [WalLogStore.getLogState, LogStore.getLogState, sameLog,
      samePurged]

private theorem expected_append (store : LogStore) (entries : List Entry)
    (durable : WalLogStore) :
    entries.foldl (fun state entry => WalState.apply state (.entry entry))
        (expected ⟨store, durable⟩) =
      expected ⟨store.append entries, durable⟩ := by
  induction entries generalizing store with
  | nil =>
      rfl
  | cons entry rest inductionHypothesis =>
      exact inductionHypothesis (store.append [entry])

/-- A restart rebuilds the live state from disk. -/
theorem Agrees.restart {codec : StoreCodec} {twin : Twin}
    (agrees : twin.Agrees codec) :
    (twin.step codec .restart).Agrees codec := by
  obtain ⟨journal, mirrors, faithful, live⟩ := agrees.journal
  have unchanged : openWal codec.toWalCodec twin.durable.wal.dir =
      twin.durable.wal := by
    rw [mirrors.reopen, faithful, ← mirrors.holds.state]
  refine ⟨⟨journal, ?_, faithful, live⟩, agrees.voteFile, agrees.voteFile⟩
  show Mirrors codec.toWalCodec
    (openWal codec.toWalCodec twin.durable.wal.dir) journal
  rw [unchanged]
  exact mirrors

/-- One marker keeps the agreement when both stores fold it the same way. -/
theorem Agrees.mutate {codec : StoreCodec} {twin : Twin}
    (agrees : twin.Agrees codec) {record : WalRecord} {memory : LogStore}
    (marker : record.isMarker = true)
    (keeps : record = .committed none →
      twin.durable.wal.state.committed = none ∨
        (twin.durable.wal.write codec.toWalCodec
          record).segment.bytes < segmentMaxBytes)
    (folded : ∀ durable,
      twin.expected.apply record = expected ⟨memory, durable⟩)
    (sameVote : memory.vote = twin.memory.vote) :
    Agrees codec
      { memory := memory
        durable :=
          { twin.durable with
            wal := twin.durable.wal.mutate codec.toWalCodec record } } := by
  obtain ⟨journal, mirrors, faithful, live⟩ := agrees.journal
  have keepsPointer : journal.KeepsPointer codec.toWalCodec record := by
    intro clears rotates
    rw [← mirrors.holds.state]
    rcases keeps clears with unset | small
    · exact unset
    · exact absurd ((mirrors.holds.rotates_iff record).mpr rotates)
        (Nat.not_le.mpr small)
  refine ⟨⟨journal.mutate codec.toWalCodec record,
    mirrors.mutate (framable_of_isMarker codec.toWalCodec marker),
    faithful.mutate keepsPointer, ?_⟩, ?_, ?_⟩
  · rw [Journal.state_mutate, live]
    exact folded _
  · exact agrees.vote.trans sameVote.symm
  · exact agrees.voteFile.trans sameVote.symm

theorem Agrees.step {codec : StoreCodec} {twin : Twin} {next : StoreStep}
    (agrees : twin.Agrees codec) (safe : twin.StepSafe codec next) :
    (twin.step codec next).Agrees codec := by
  cases next with
  | restart =>
      exact agrees.restart
  | call call =>
      cases call with
      | append entries =>
          obtain ⟨journal, mirrors, faithful, live⟩ := agrees.journal
          refine ⟨⟨journal.appendEntries codec.toWalCodec entries,
            mirrors.appendEntries safe, faithful.appendEntries entries, ?_⟩,
            agrees.vote, agrees.voteFile⟩
          rw [Journal.state_appendEntries, live]
          exact expected_append twin.memory entries _
      | truncate logId =>
          exact agrees.mutate rfl (fun clears => by cases clears)
            (fun _ => rfl) rfl
      | purge logId =>
          obtain ⟨journal, mirrors, faithful, live⟩ := agrees.journal
          refine ⟨⟨journal.purge codec.toWalCodec logId,
            mirrors.purge logId, Journal.Faithful.purge mirrors faithful safe,
            ?_⟩, agrees.vote, agrees.voteFile⟩
          have folded :
              (journal.purge codec.toWalCodec logId).state =
                journal.state.apply (.purge logId) :=
            Journal.state_mutate codec.toWalCodec journal (.purge logId)
          rw [folded, live]
          rfl
      | saveCommitted committed =>
          refine agrees.mutate rfl (fun clears => ?_) (fun _ => rfl) rfl
          cases clears
          exact safe
      | saveVote vote =>
          obtain ⟨journal, mirrors, faithful, live⟩ := agrees.journal
          refine ⟨⟨journal, mirrors, faithful, live⟩, rfl, ?_⟩
          exact codec.decodeVote_encodeVote vote

/-- Restarts never lose a vote, whatever else the run does safely. -/
theorem readVote_alike (codec : StoreCodec) {steps : List StoreStep}
    (safe : EachStep (step codec) (StepSafe codec) (start codec) steps) :
    Throughout (step codec)
      (fun twin => twin.durable.readVote = twin.memory.readVote)
      (start codec) steps :=
  throughout_mono (fun _ agrees => agrees.vote)
    (throughout_of_eachStep (fun _ _ agrees stepSafe => agrees.step stepSafe)
      (agrees_start codec) safe)

/-- In every run of safe steps the durable store, restarted at arbitrary
points, answers exactly as the in-memory store that never restarted. -/
theorem walLogStore_answers_as_logStore
    (codec : StoreCodec) {steps : List StoreStep}
    (safe : EachStep (step codec) (StepSafe codec) (start codec) steps) :
    Throughout (step codec) AnswersAlike (start codec) steps :=
  throughout_mono (fun _ agrees => agrees.answersAlike)
    (throughout_of_eachStep (fun _ _ agrees stepSafe => agrees.step stepSafe)
      (agrees_start codec) safe)

/-! ### The store with its real serializers -/

/-- The codec of the durable store on disk. -/
def bincodeStore : StoreCodec where
  toWalCodec := bincodeCodec
  encodeVote := voteLayout.write
  decodeVote bytes := (voteLayout.read bytes).map Prod.fst
  decodeVote_encodeVote vote := by
    have short : (voteLayout.write vote).length < 2 ^ 32 := by
      simp [voteLayout, leaderIdLayout, Bincode.through, Bincode.both,
        Bincode.uint64, Bincode.boolean]
    have back := voteLayout.read_write vote [] (short.trans (by decide))
    rw [List.append_nil] at back
    rw [back]
    rfl

def firstId : LogId where
  leaderId := { term := 1, nodeId := 1 }
  index := 1

def secondId : LogId where
  leaderId := { term := 1, nodeId := 1 }
  index := 2

/-- Append two entries, commit and purge the first, cut the second and vote,
with a restart after every call. -/
def smallRun : List StoreStep :=
  [.call (.append [⟨firstId, .blank⟩, ⟨secondId, .normal [7]⟩]), .restart,
    .call (.saveCommitted (some firstId)), .restart,
    .call (.purge firstId), .restart,
    .call (.truncate secondId), .restart,
    .call (.saveVote ⟨firstId.leaderId, true⟩), .restart]

/-- The records on disk when the purge of the small run starts to unlink: all
of them are in the active segment. -/
theorem smallRun_linkStream :
    ((final (step bincodeStore) (start bincodeStore)
        (smallRun.take 4)).durable.wal.mutate bincodeStore.toWalCodec
          (.purge firstId)).linkStream bincodeStore.toWalCodec
            firstId.index =
      [(true, .entry ⟨firstId, .blank⟩),
        (true, .entry ⟨secondId, .normal [7]⟩),
        (true, .committed (some firstId)),
        (true, .purge firstId)] := by
  decide +kernel

private theorem smallRun_committed :
    ((final (step bincodeStore) (start bincodeStore)
        (smallRun.take 4)).durable.wal.mutate bincodeStore.toWalCodec
          (.purge firstId)).state.committed = some firstId := by
  decide +kernel

private theorem smallRun_safeUnlink :
    SafeUnlink bincodeStore.toWalCodec
      ((final (step bincodeStore) (start bincodeStore)
        (smallRun.take 4)).durable.wal.mutate bincodeStore.toWalCodec
          (.purge firstId)) firstId.index where
  purged := by
    rw [smallRun_linkStream]
    refine ⟨[_, _, _], .purge firstId, [], rfl, trivial, ?_⟩
    simp [everything]
  committed := by
    rw [smallRun_linkStream, smallRun_committed]
    refine Or.inl ⟨[_, _], [(true, .purge firstId)], rfl, ?_⟩
    simp [everything, committedEffect, Effect.IsWrite]
  entries := by
    intro key
    rw [smallRun_linkStream]
    apply not_revived_of_all_stay
    simp

private theorem smallRun_safe :
    EachStep (step bincodeStore) (StepSafe bincodeStore)
      (start bincodeStore) smallRun := by
  have framable :
      ∀ entry ∈ [(⟨firstId, .blank⟩ : Entry), ⟨secondId, .normal [7]⟩],
        Framable bincodeStore.toFrameCodec (.entry entry) := by
    unfold Framable
    decide +kernel
  exact ⟨framable, trivial, trivial, trivial, smallRun_safeUnlink, trivial,
    trivial, trivial, trivial, trivial, trivial⟩

theorem walLogStore_answers_as_logStore_smallRun :
    EachStep (step bincodeStore) (StepSafe bincodeStore)
        (start bincodeStore) smallRun ∧
      Throughout (step bincodeStore) AnswersAlike (start bincodeStore)
        smallRun :=
  ⟨smallRun_safe, walLogStore_answers_as_logStore bincodeStore smallRun_safe⟩

/-- Append one entry, purge it and restart: when the marker of the purge is
what fills the segment, the purge point is forgotten. -/
theorem purge_forgotten
    {codec : StoreCodec} {entry : Entry}
    (framable : Framable codec.toFrameCodec (.entry entry))
    (fits : ¬ emptyJournal.Rotates codec.toWalCodec (.entry entry))
    (fills :
      (emptyJournal.write (.entry entry)).Rotates codec.toWalCodec
        (.purge entry.logId)) :
    ¬ Throughout (step codec) AnswersAlike (start codec)
      [.call (.append [entry]), .call (.purge entry.logId), .restart] := by
  intro agrees
  rcases agrees with ⟨_, _, _, alike⟩
  have opened : Mirrors codec.toWalCodec (start codec).durable.wal
      emptyJournal :=
    mirrors_openWal_nil
  have allFramable : ∀ other ∈ [entry],
      Framable codec.toFrameCodec (.entry other) := by
    simpa using framable
  have appended := opened.appendEntries allFramable
  have written :
      emptyJournal.appendEntries codec.toWalCodec [entry] =
        (emptyJournal.write (.entry entry)).fold (.entry entry) := by
    simp only [Journal.appendEntries, List.foldl_cons, List.foldl_nil,
      Journal.mutate, Journal.append, if_neg fits]
  rw [written] at appended
  have left :
      (((emptyJournal.write (.entry entry)).fold (.entry entry)).purge
        codec.toWalCodec entry.logId).records = [.checkpoint none none] := by
    refine Journal.records_purge_of_rotates fills ?_
    intro segment member
    have only : segment = (0, [.entry entry]) := by
      simpa [Journal.segments, Journal.fold, Journal.write, emptyJournal]
        using member
    rw [only]
    exact decide_eq_true (UInt64.le_refl entry.logId.index)
  have reopened := (appended.purge entry.logId).reopen
  rw [left] at reopened
  have last := alike.sameLastPurged
  change (openWal codec.toWalCodec
    (((start codec).durable.wal.appendEntries codec.toWalCodec
      [entry]).purge codec.toWalCodec entry.logId).dir).state.lastPurged =
        some entry.logId at last
  rw [reopened] at last
  cases last

/-- A payload whose record leaves room for exactly one purge marker in an
empty segment. -/
@[irreducible]
def fillingPayload : Bytes :=
  List.replicate 8388524 0

private theorem fillingPayload_length : fillingPayload.length = 8388524 := by
  unfold fillingPayload
  exact List.length_replicate

def fillingEntry : Entry where
  logId := firstId
  payload := .normal fillingPayload

theorem encode_fillingEntry_length :
    (bincodeStore.encode (.entry fillingEntry)).length = 8388564 := by
  have size := walRecordLayout_normal_length firstId fillingPayload
  rw [fillingPayload_length] at size
  exact size

/-- The entry of index 1, its purge and a restart: the purge marker is the
last record the first segment takes, and the durable store comes back without
a purge point. -/
theorem fillingEntry_purge_forgotten :
    ¬ Throughout (step bincodeStore) AnswersAlike (start bincodeStore)
      [.call (.append [fillingEntry]), .call (.purge firstId),
        .restart] := by
  refine @purge_forgotten bincodeStore fillingEntry ?_ ?_ ?_
  · unfold Framable
    rw [encode_fillingEntry_length]
    omega
  · unfold Journal.Rotates
    rw [Journal.activeBytes_write, Journal.activeBytes_empty,
      encode_fillingEntry_length]
    simp only [segmentMaxBytes, frameHeader]
    omega
  · have marker :
        (bincodeStore.encode (.purge fillingEntry.logId)).length = 28 :=
      walRecordLayout_purge_length firstId
    unfold Journal.Rotates
    rw [Journal.activeBytes_write, Journal.activeBytes_write,
      Journal.activeBytes_empty, encode_fillingEntry_length, marker]
    simp only [segmentMaxBytes, frameHeader]
    omega

end Twin

end AetherEngine.Consensus
