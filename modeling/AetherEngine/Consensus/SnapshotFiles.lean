import AetherEngine.Consensus.StateMachine
import AetherEngine.Consensus.WalCodec
import AetherEngine.Foundations.Decimal
import AetherEngine.Foundations.Files
import AetherEngine.Foundations.Ranking
import Mathlib.Data.List.MinMax

/-!
# The snapshot directory

A state machine store with a snapshot directory persists every snapshot it
builds or installs: it writes a temporary file, syncs it, renames it to the
name of its log index and unlinks the other snapshots.  A failed file
operation is reported on the console and the call returns as if nothing had
happened.  On a restart the snapshot with the highest index is loaded.

`DurableStore` interleaves the file operations of any number of such calls
with the other calls, and with crashes.  What has been promised is on disk as
long as no call unlinks a snapshot newer than its own, no two calls write one
temporary file at a time, and an operation fails only when the disk holds a
snapshot as recent anyway.
-/

namespace AetherEngine.Consensus

open AetherEngine.Bincode
open AetherEngine.Files
open AetherEngine.Frames
open AetherEngine.Ranking
open AetherEngine.Runs

universe u

/-! ## File names and file content -/

/-- The serializer of `SnapshotFile`. -/
structure SnapshotCodec where
  encode : StoredSnapshot → Option Bytes
  decode : Bytes → Option StoredSnapshot
  decode_encode : ∀ {snapshot bytes},
    encode snapshot = some bytes → decode bytes = some snapshot

/-- A snapshot with the bytes it is stored as. -/
structure SnapshotFile (codec : SnapshotCodec) where
  snapshot : StoredSnapshot
  bytes : Bytes
  serialized : codec.encode snapshot = some bytes

/-- The log index a snapshot is filed under; a snapshot of the empty log is
filed under zero. -/
def StoredSnapshot.index (snapshot : StoredSnapshot) : UInt64 :=
  (snapshot.info.lastLogId.map LogId.index).getD 0

/-- `snap-` and the index in twenty digits. -/
def snapshotStem (index : UInt64) : List Char :=
  "snap-".toList ++ Decimal.padded 20 index.toNat

/-- `snapshot_path`. -/
def snapshotPath (index : UInt64) : String :=
  String.ofList (snapshotStem index ++ ".bin".toList)

/-- The path with the extension `tmp`. -/
def temporaryPath (index : UInt64) : String :=
  String.ofList (snapshotStem index ++ ".tmp".toList)

/-- The name starts with `snap-` and ends in `.bin`. -/
def isSnapshotName (name : String) : Bool :=
  "snap-".toList.isPrefixOf name.toList && ".bin".toList.isSuffixOf name.toList

/-- The index between `snap-` and `.bin`, when it is a number of 64 bits. -/
def indexOfName (name : String) : Option Nat := do
  let rest ← name.toList.dropPrefix? "snap-".toList
  let digits ← rest.dropSuffix? ".bin".toList
  Decimal.parse (2 ^ 64) digits

/-- `load_latest`.  The files are met in the order of the directory; of two
names with one index the first is taken. -/
def loadLatest (codec : SnapshotCodec) (order : IterationOrder String)
    (files : Folder) : Option StoredSnapshot := do
  let candidates := (order.arrange files.keys).filterMap fun name =>
    (indexOfName name).map fun index => (index, name)
  let newest ← candidates.argmax Prod.fst
  let file ← files[newest.2]?
  codec.decode file.bytes

/-! ## Persisting a snapshot -/

/-- What one file operation comes to.  A failed write may leave a part of the
file; listing the directory may skip entries it cannot read. -/
structure FileOutcome where
  failed : Bool := false
  left : Option Bytes := none
  order : IterationOrder String := .asStored
  unread : String → Bool := fun _ => false

/-- Where a call of `persist` is: before one of its file operations, returned
(with the rename done or not), or cut off by a crash. -/
inductive PersistPhase where
  | writing
  | syncing
  | moving
  | listing
  | unlinking (doomed : List String)
  | returned (renamed : Bool)
  | lost
deriving DecidableEq

structure PersistCall (codec : SnapshotCodec) where
  file : SnapshotFile codec
  phase : PersistPhase

namespace PersistCall

variable {codec : SnapshotCodec}

def index (call : PersistCall codec) : UInt64 :=
  call.file.snapshot.index

/-- The next file operation of the call.  A failure up to the rename ends it,
later failures are ignored. -/
def advance (call : PersistCall codec) (outcome : FileOutcome)
    (files : Folder) : PersistPhase × Folder :=
  let path := snapshotPath call.index
  let temporary := temporaryPath call.index
  match call.phase with
  | .writing =>
      if outcome.failed then
        (.returned false,
          match outcome.left with
          | some bytes => write files temporary bytes
          | none => files)
      else
        (.syncing, write files temporary call.file.bytes)
  | .syncing =>
      if outcome.failed then (.returned false, files)
      else (.moving, sync files temporary)
  | .moving =>
      if outcome.failed then (.returned false, files)
      else (.listing, rename files temporary path)
  | .listing =>
      if outcome.failed then (.returned true, files)
      else
        (.unlinking ((outcome.order.arrange files.keys).filter fun name =>
          !outcome.unread name && isSnapshotName name && name != path), files)
  | .unlinking (name :: rest) =>
      (.unlinking rest, if outcome.failed then files else unlink files name)
  | .unlinking [] => (.returned true, files)
  | .returned renamed => (.returned renamed, files)
  | .lost => (.lost, files)

/-- A crash cuts off what has not returned. -/
def cutOff (call : PersistCall codec) : PersistCall codec :=
  match call.phase with
  | .returned _ => call
  | _ => { call with phase := .lost }

end PersistCall

/-! ## The store over its directory -/

variable {state : Type u}

/-- What a crash does to the files that were not synced, and the order in which
the restarted store meets its files. -/
structure Crash where
  torn : String → Option Bytes
  order : IterationOrder String := .asStored

/-- The state machine store, its files, and every call of `persist` made so
far. -/
structure DurableStore (state : Type u) (codec : SnapshotCodec) where
  memory : StateMachineStore state
  files : Folder
  calls : List (PersistCall codec)

inductive DurableStep where
  | apply (entry : Entry)
  | build (data : Bytes)
  | install (received : StoredSnapshot)
  | advance (position : Nat) (outcome : FileOutcome)
  | restart (crash : Crash)

/-- `with_snapshot_dir`: the application starts afresh and takes the newest
snapshot. -/
def withSnapshotDir (app : StateMachineApp state) (codec : SnapshotCodec)
    (order : IterationOrder String) (fresh : state) (files : Folder) :
    StateMachineStore state :=
  let store : StateMachineStore state := { app := fresh }
  match loadLatest codec order files with
  | some snapshot =>
      { store with
        app := app.restore fresh snapshot.data
        lastApplied := snapshot.info.lastLogId
        membership := snapshot.info.lastMembership
        snapshot := some snapshot }
  | none => store

namespace DurableStore

variable {codec : SnapshotCodec} (app : StateMachineApp state) (fresh : state)

/-- A store opened on an empty directory. -/
def start : DurableStore state codec where
  memory := withSnapshotDir app codec .asStored fresh ∅
  files := ∅
  calls := []

/-- Enter `persist` with the snapshot in memory.  A snapshot that does not
serialize ends the call. -/
def beginPersist (store : DurableStore state codec) :
    DurableStore state codec :=
  match store.memory.snapshot with
  | some snapshot =>
      match serialized : codec.encode snapshot with
      | some bytes =>
          { store with
            calls := store.calls ++ [⟨⟨snapshot, bytes, serialized⟩, .writing⟩] }
      | none => store
  | none => store

/-- One step.  A build is given the bytes its first critical section read; a
call of `build_snapshot` or `install_snapshot` returns when its `persist`
does. -/
def step (store : DurableStore state codec) :
    DurableStep → DurableStore state codec
  | .apply entry =>
      { store with
        memory := (store.memory.applyPayload app entry).applyPosition entry }
  | .build data =>
      beginPersist { store with memory := store.memory.buildInfo data }
  | .install received =>
      beginPersist
        { store with
          memory :=
            (store.memory.installData app received.data).installInfo received }
  | .advance position outcome =>
      match store.calls[position]? with
      | some call =>
          let next := call.advance outcome store.files
          { store with
            files := next.2
            calls := store.calls.set position { call with phase := next.1 } }
      | none => store
  | .restart crashed =>
      let files := crash crashed.torn store.files
      { memory := withSnapshotDir app codec crashed.order fresh files
        files := files
        calls := store.calls.map PersistCall.cutOff }

/-! ## What has been promised -/

/-- The snapshots handed to `persist`. -/
def handed (store : DurableStore state codec) : List (SnapshotFile codec) :=
  store.calls.map PersistCall.file

end DurableStore

/-- The call has returned, with its snapshot in place or, where failed calls
count too, without. -/
def PersistPhase.promises (evenFailed : Bool) : PersistPhase → Bool
  | .returned renamed => renamed || evenFailed
  | _ => false

/-- The temporary file is in use by the call. -/
def PersistPhase.staged : PersistPhase → Bool
  | .syncing => true
  | .moving => true
  | _ => false

/-- The snapshot of the call is not in place yet. -/
def PersistPhase.beforeRename : PersistPhase → Bool
  | .writing => true
  | .syncing => true
  | .moving => true
  | _ => false

/-- The file the call is about to unlink. -/
def PersistPhase.nextUnlink : PersistPhase → Option String
  | .unlinking (name :: _) => some name
  | _ => none

/-- A snapshot at the index or a later one is in the folder. -/
def HoldsFrom (index : UInt64) (files : Folder) : Prop :=
  ∃ name ∈ files.keys, ∃ found ∈ indexOfName name, index.toNat ≤ found

instance (index : UInt64) (files : Folder) : Decidable (HoldsFrom index files) :=
  inferInstanceAs (Decidable (∃ name ∈ files.keys, _))

namespace DurableStore

variable {codec : SnapshotCodec} (app : StateMachineApp state) (fresh : state)

/-- After a restart at this moment, whatever the crash leaves, the store has
restored one of the snapshots handed over, as recent as every snapshot
promised. -/
def Restores (evenFailed : Bool) (store : DurableStore state codec) : Prop :=
  ∀ call ∈ store.calls, call.phase.promises evenFailed = true →
    ∀ crashed : Crash, ∃ origin ∈ store.handed,
      (store.step app fresh (.restart crashed)).memory.snapshot =
          some origin.snapshot ∧
        (store.step app fresh (.restart crashed)).memory.lastApplied =
          origin.snapshot.info.lastLogId ∧
        call.index ≤ origin.snapshot.index

/-- A file operation is harmless when the temporary file it writes is not in
use by another call of the same index, when it fails only with a snapshot as
recent as that of its call on disk (where failed calls count), and when it
unlinks an older snapshot than that of its call. -/
def CallHarmless (evenFailed : Bool) (store : DurableStore state codec)
    (call : PersistCall codec) (outcome : FileOutcome) : Prop :=
  (call.phase = .writing → ∀ other ∈ store.calls,
    other.phase.staged = true → other.index ≠ call.index) ∧
  (call.phase.beforeRename = true → outcome.failed = true →
    evenFailed = true → HoldsFrom call.index store.files) ∧
  (outcome.failed = false → ∀ name ∈ call.phase.nextUnlink,
    ∀ index ∈ indexOfName name, index < call.index.toNat)

instance (evenFailed : Bool) (store : DurableStore state codec)
    (call : PersistCall codec) (outcome : FileOutcome) :
    Decidable (store.CallHarmless evenFailed call outcome) :=
  inferInstanceAs (Decidable (_ ∧ _))

def StepHarmless (evenFailed : Bool) (store : DurableStore state codec) :
    DurableStep → Prop
  | .advance position outcome =>
      ∀ call ∈ store.calls[position]?,
        store.CallHarmless evenFailed call outcome
  | _ => True

instance (evenFailed : Bool) (store : DurableStore state codec) :
    (next : DurableStep) → Decidable (store.StepHarmless evenFailed next)
  | .advance position _ =>
      inferInstanceAs (Decidable (∀ call ∈ store.calls[position]?, _))
  | .apply _ => instDecidableTrue
  | .build _ => instDecidableTrue
  | .install _ => instDecidableTrue
  | .restart _ => instDecidableTrue

end DurableStore

/-! ## Names -/

private theorem snapshotStem_inj {left right : UInt64} :
    snapshotStem left = snapshotStem right ↔ left = right := by
  unfold snapshotStem
  rw [List.append_cancel_left_eq, Decimal.padded_inj, UInt64.toNat_inj]

theorem toList_snapshotPath (index : UInt64) :
    (snapshotPath index).toList =
      "snap-".toList ++ (Decimal.padded 20 index.toNat ++ ".bin".toList) := by
  rw [snapshotPath, String.toList_ofList]
  exact List.append_assoc _ _ _

theorem temporaryPath_inj {left right : UInt64} :
    temporaryPath left = temporaryPath right ↔ left = right := by
  rw [temporaryPath, temporaryPath, String.ofList_inj,
    List.append_cancel_right_eq, snapshotStem_inj]

private theorem indexOfName_snapshotPath (index : UInt64) :
    indexOfName (snapshotPath index) = some index.toNat := by
  have front :
      (snapshotPath index).toList.dropPrefix? "snap-".toList =
        some (Decimal.padded 20 index.toNat ++ ".bin".toList) := by
    rw [toList_snapshotPath]
    exact List.dropPrefix?_append_of_beq _ (BEq.refl _)
  have back :
      (Decimal.padded 20 index.toNat ++ ".bin".toList).dropSuffix?
          ".bin".toList =
        some (Decimal.padded 20 index.toNat) := by
    rw [List.dropSuffix?_eq_some_iff]
    exact ⟨_, rfl, BEq.refl _⟩
  rw [indexOfName, front, Option.bind_eq_bind, Option.bind_some, back,
    Option.bind_some]
  exact Decimal.parse_padded index.toNat_lt

private theorem isSnapshotName_temporaryPath (index : UInt64) :
    isSnapshotName (temporaryPath index) = false := by
  have different : ¬ ".bin".toList <:+ snapshotStem index ++ ".tmp".toList := by
    intro ending
    have sameEnding : ".bin".toList <:+ ".tmp".toList :=
      List.suffix_of_suffix_length_le ending
        (List.suffix_append (snapshotStem index) ".tmp".toList) (by decide)
    exact absurd sameEnding (by decide)
  have notSuffix :
      ".bin".toList.isSuffixOf (snapshotStem index ++ ".tmp".toList) = false := by
    rw [← Bool.not_eq_true, List.isSuffixOf_iff_suffix]
    exact different
  have written :
      (temporaryPath index).toList = snapshotStem index ++ ".tmp".toList :=
    String.toList_ofList
  rw [isSnapshotName, written, notSuffix, Bool.and_false]

private theorem isSnapshotName_of_indexOfName {name : String} {index : Nat}
    (named : indexOfName name = some index) : isSnapshotName name = true := by
  simp only [indexOfName, Option.bind_eq_bind, Option.bind_eq_some_iff,
    List.dropPrefix?_eq_some_iff, List.dropSuffix?_eq_some_iff,
    beq_iff_eq] at named
  obtain ⟨rest, ⟨front, shape, rfl⟩, digits, ⟨back, restShape, rfl⟩, -⟩ := named
  rw [isSnapshotName, Bool.and_eq_true, List.isPrefixOf_iff_prefix,
    List.isSuffixOf_iff_suffix, shape, restShape]
  exact ⟨List.prefix_append _ _,
    (List.suffix_append digits _).trans (List.suffix_append _ _)⟩

theorem ne_temporaryPath_of_indexOfName {name : String} {index : Nat}
    (named : indexOfName name = some index) (other : UInt64) :
    temporaryPath other ≠ name := by
  intro equality
  subst equality
  have isName := isSnapshotName_of_indexOfName named
  rw [isSnapshotName_temporaryPath] at isName
  cases isName

/-! ## Folders of whole snapshots -/

theorem holdsFrom_iff {index : UInt64} {files : Folder} :
    HoldsFrom index files ↔ ∃ name found file, indexOfName name = some found ∧
      files[name]? = some file ∧ index.toNat ≤ found := by
  constructor
  · intro membership
    rcases membership with ⟨name, member, found, named, atLeast⟩
    rw [Std.ExtTreeMap.mem_keys, Std.ExtTreeMap.mem_iff_isSome_getElem?,
      Option.isSome_iff_exists] at member
    obtain ⟨file, present⟩ := member
    exact ⟨name, found, file, named, present, atLeast⟩
  · intro finding
    rcases finding with ⟨name, found, file, named, present, atLeast⟩
    refine ⟨name, ?_, found, named, atLeast⟩
    rw [Std.ExtTreeMap.mem_keys, Std.ExtTreeMap.mem_iff_isSome_getElem?, present]
    rfl

section Whole

variable {codec : SnapshotCodec}

/-- Every snapshot in the folder is on disk, and is one of those handed over,
under its own index. -/
def WholeSnapshots (handed : List (SnapshotFile codec)) (files : Folder) :
    Prop :=
  ∀ name index file, indexOfName name = some index →
    files[name]? = some file → file.synced = true ∧
      ∃ origin ∈ handed, origin.bytes = file.bytes ∧
        origin.snapshot.index.toNat = index

variable {handed : List (SnapshotFile codec)} {files : Folder}

theorem WholeSnapshots.crash (whole : WholeSnapshots handed files)
    (torn : String → Option Bytes) :
    WholeSnapshots handed (crash torn files) := by
  intro name index file named found
  obtain ⟨before, foundBefore⟩ := getElem?_of_crash found
  obtain ⟨synced, fromHanded⟩ := whole name index before named foundBefore
  rw [getElem?_crash_of_synced foundBefore synced, Option.some.injEq] at found
  subst found
  exact ⟨synced, fromHanded⟩

theorem HoldsFrom.crash {index : UInt64} (holds : HoldsFrom index files)
    (whole : WholeSnapshots handed files) (torn : String → Option Bytes) :
    HoldsFrom index (crash torn files) := by
  obtain ⟨name, found, file, named, present, atLeast⟩ := holdsFrom_iff.mp holds
  have synced := (whole name found file named present).1
  exact holdsFrom_iff.mpr ⟨name, found, file, named,
    getElem?_crash_of_synced present synced torn, atLeast⟩

/-- The newest snapshot of the folder is loaded. -/
theorem loadLatest_of_whole (whole : WholeSnapshots handed files)
    {index : UInt64} (holds : HoldsFrom index files)
    (order : IterationOrder String) :
    ∃ origin ∈ handed, loadLatest codec order files = some origin.snapshot ∧
      index ≤ origin.snapshot.index := by
  obtain ⟨name, found, file, named, present, atLeast⟩ := holdsFrom_iff.mp holds
  have mem_candidates : ∀ candidate : Nat × String,
      candidate ∈ (order.arrange files.keys).filterMap (fun name =>
        (indexOfName name).map fun index => (index, name)) ↔
      candidate.2 ∈ files ∧ indexOfName candidate.2 = some candidate.1 := by
    intro numberedTitle
    rcases numberedTitle with ⟨number, title⟩
    simp only [List.mem_filterMap, IterationOrder.mem_arrange,
      Std.ExtTreeMap.mem_keys, Option.map_eq_some_iff, Prod.mk.injEq]
    constructor
    · intro membership
      rcases membership with ⟨_, member, _, numbered, rfl, rfl⟩
      exact ⟨member, numbered⟩
    · intro membership
      rcases membership with ⟨member, numbered⟩
      exact ⟨title, member, number, numbered, rfl, rfl⟩
  have candidate := (mem_candidates (found, name)).mpr
    ⟨Std.ExtTreeMap.mem_iff_isSome_getElem?.mpr (by rw [present]; rfl), named⟩
  cases newest : List.argmax Prod.fst ((order.arrange files.keys).filterMap
      (fun name => (indexOfName name).map fun index => (index, name))) with
  | none =>
      rw [List.argmax_eq_none] at newest
      rw [newest] at candidate
      cases candidate
  | some best =>
      obtain ⟨bestPresent, bestNamed⟩ :=
        (mem_candidates best).mp (List.argmax_mem newest)
      have largest : found ≤ best.1 := List.le_of_mem_argmax candidate newest
      rw [Std.ExtTreeMap.mem_iff_isSome_getElem?, Option.isSome_iff_exists]
        at bestPresent
      obtain ⟨bestFile, bestFound⟩ := bestPresent
      obtain ⟨-, origin, isHanded, sameBytes, sameIndex⟩ :=
        whole best.2 best.1 bestFile bestNamed bestFound
      refine ⟨origin, isHanded, ?_, ?_⟩
      · simp only [loadLatest, newest, bestFound, Option.bind_eq_bind,
          Option.bind_some, ← sameBytes]
        exact codec.decode_encode origin.serialized
      · rw [UInt64.le_iff_toNat_le]
        omega

/-- Snapshots keep their names when only other files change. -/
theorem WholeSnapshots.of_agree (whole : WholeSnapshots handed files)
    {later : Folder}
    (agree : ∀ name index, indexOfName name = some index →
      later[name]? = files[name]?) :
    WholeSnapshots handed later := by
  intro name index file named found
  rw [agree name index named] at found
  exact whole name index file named found

theorem HoldsFrom.of_agree {index : UInt64} (holds : HoldsFrom index files)
    {later : Folder}
    (agree : ∀ name index, indexOfName name = some index →
      later[name]? = files[name]?) :
    HoldsFrom index later := by
  obtain ⟨name, found, file, named, present, atLeast⟩ := holdsFrom_iff.mp holds
  exact holdsFrom_iff.mpr ⟨name, found, file, named,
    (agree name found named).trans present, atLeast⟩

theorem WholeSnapshots.mono (whole : WholeSnapshots handed files)
    {more : List (SnapshotFile codec)} (included : handed ⊆ more) :
    WholeSnapshots more files := by
  intro name index file named found
  obtain ⟨synced, origin, isHanded, same⟩ := whole name index file named found
  exact ⟨synced, origin, included isHanded, same⟩

end Whole

/-! ## The invariant -/

/-- The call has put its snapshot in place, or returned with a promise. -/
def PersistPhase.owes (evenFailed : Bool) : PersistPhase → Bool
  | .listing => true
  | .unlinking _ => true
  | .returned renamed => renamed || evenFailed
  | _ => false

namespace DurableStore

variable {codec : SnapshotCodec} {evenFailed : Bool}

/-- What harmless steps keep.  Calls are told apart by their place in the
list. -/
structure Held (evenFailed : Bool) (store : DurableStore state codec) :
    Prop where
  whole : WholeSnapshots store.handed store.files
  staging : ∀ {position : Nat} {call : PersistCall codec},
    store.calls[position]? = some call →
    call.phase.staged = true → ∃ file,
      store.files[temporaryPath call.index]? = some file ∧
        file.bytes = call.file.bytes ∧
          (call.phase = .moving → file.synced = true)
  alone : ∀ {first second : Nat} {call other : PersistCall codec},
    store.calls[first]? = some call →
    store.calls[second]? = some other → call.phase.staged = true →
      other.phase.staged = true → other.index = call.index → second = first
  doomed : ∀ {position : Nat} {call : PersistCall codec} {names : List String},
    store.calls[position]? = some call →
    call.phase = .unlinking names →
      ∀ name ∈ names, isSnapshotName name = true
  kept : ∀ {position : Nat} {call : PersistCall codec},
    store.calls[position]? = some call →
    call.phase.owes evenFailed = true → HoldsFrom call.index store.files

variable {store : DurableStore state codec} {position : Nat}
  {call : PersistCall codec}

private theorem getElem?_set_phase (found : store.calls[position]? = some call)
    (phase : PersistPhase) (place : Nat) :
    (store.calls.set position { call with phase := phase })[place]? =
      if place = position then some { call with phase := phase }
      else store.calls[place]? := by
  rw [List.getElem?_set]
  have inside := (List.getElem?_eq_some_iff.mp found).1
  by_cases same : position = place
  · rw [if_pos same, if_pos same.symm, if_pos inside]
  · rw [if_neg same, if_neg (Ne.symm same)]

private theorem handed_set_phase (found : store.calls[position]? = some call)
    (phase : PersistPhase) :
    (store.calls.set position { call with phase := phase }).map
        PersistCall.file =
      store.handed := by
  apply List.ext_getElem?
  intro place
  rw [handed, List.getElem?_map, List.getElem?_map, getElem?_set_phase found]
  by_cases same : place = position
  · rw [if_pos same, same, found]
    rfl
  · rw [if_neg same]

/-- One call moves to another phase while the files change.  Nothing is lost
when the snapshots stay whole and as recent, and the temporary files of the
other calls stay as they are. -/
theorem Held.update (held : store.Held evenFailed)
    (found : store.calls[position]? = some call)
    {files : Folder} {phase : PersistPhase}
    (whole : WholeSnapshots store.handed files)
    (recent : ∀ index, HoldsFrom index store.files → HoldsFrom index files)
    (others : ∀ place other, place ≠ position →
      store.calls[place]? = some other → other.phase.staged = true →
        files[temporaryPath other.index]? =
          store.files[temporaryPath other.index]?)
    (staging : phase.staged = true → ∃ file,
      files[temporaryPath call.index]? = some file ∧
        file.bytes = call.file.bytes ∧
          (phase = .moving → file.synced = true))
    (alone : phase.staged = true → ∀ place other, place ≠ position →
      store.calls[place]? = some other → other.phase.staged = true →
        other.index ≠ call.index)
    (doomed : ∀ names, phase = .unlinking names →
      ∀ name ∈ names, isSnapshotName name = true)
    (kept : phase.owes evenFailed = true → HoldsFrom call.index files) :
    Held evenFailed
      { store with
        files := files
        calls := store.calls.set position { call with phase := phase } } := by
  have lookup := getElem?_set_phase found phase
  refine ⟨?_, ?_, ?_, ?_, ?_⟩
  · show WholeSnapshots (List.map PersistCall.file _) files
    rw [handed_set_phase found]
    exact whole
  · intro place other otherFound isStaged
    rw [lookup] at otherFound
    by_cases same : place = position
    · rw [if_pos same, Option.some.injEq] at otherFound
      subst otherFound
      exact staging isStaged
    · rw [if_neg same] at otherFound
      obtain ⟨file, present, content⟩ := held.staging otherFound isStaged
      exact ⟨file, (others place other same otherFound isStaged).trans present,
        content⟩
  · intro first second one other oneFound otherFound oneStaged otherStaged
      sameIndex
    rw [lookup] at oneFound otherFound
    by_cases isFirst : first = position
    · by_cases isSecond : second = position
      · rw [isFirst, isSecond]
      · rw [if_pos isFirst, Option.some.injEq] at oneFound
        rw [if_neg isSecond] at otherFound
        subst oneFound
        exact absurd sameIndex
          (alone oneStaged second other isSecond otherFound otherStaged)
    · rw [if_neg isFirst] at oneFound
      by_cases isSecond : second = position
      · rw [if_pos isSecond, Option.some.injEq] at otherFound
        subst otherFound
        exact absurd sameIndex.symm
          (alone otherStaged first one isFirst oneFound oneStaged)
      · rw [if_neg isSecond] at otherFound
        exact held.alone oneFound otherFound oneStaged otherStaged sameIndex
  · intro place other names otherFound unlinks
    rw [lookup] at otherFound
    by_cases same : place = position
    · rw [if_pos same, Option.some.injEq] at otherFound
      subst otherFound
      exact doomed names unlinks
    · rw [if_neg same] at otherFound
      exact held.doomed otherFound unlinks
  · intro place other otherFound owes
    rw [lookup] at otherFound
    by_cases same : place = position
    · rw [if_pos same, Option.some.injEq] at otherFound
      subst otherFound
      exact kept owes
    · rw [if_neg same] at otherFound
      exact recent other.index (held.kept otherFound owes)

/-- A call moves on without touching a file. -/
theorem Held.settle (held : store.Held evenFailed)
    (found : store.calls[position]? = some call) {phase : PersistPhase}
    (unstaged : phase.staged = false)
    (doomed : ∀ names, phase = .unlinking names →
      ∀ name ∈ names, isSnapshotName name = true)
    (kept : phase.owes evenFailed = true → HoldsFrom call.index store.files) :
    Held evenFailed
      { store with
        calls := store.calls.set position { call with phase := phase } } := by
  refine held.update found held.whole (fun _ holds => holds)
    (fun _ _ _ _ _ => rfl) ?_ ?_ doomed kept
  · intro isStaged
    rw [unstaged] at isStaged
    cases isStaged
  · intro isStaged
    rw [unstaged] at isStaged
    cases isStaged

/-- A call returns. -/
theorem Held.finish (held : store.Held evenFailed)
    (found : store.calls[position]? = some call) {renamed : Bool}
    (kept : (PersistPhase.returned renamed).owes evenFailed = true →
      HoldsFrom call.index store.files) :
    Held evenFailed
      { store with
        calls := store.calls.set position
          { call with phase := .returned renamed } } := by
  refine held.settle found rfl ?_ kept
  intro names unlinks
  cases unlinks

/-- A snapshot is not affected by a write to a temporary file. -/
theorem write_agrees (files : Folder) (index : UInt64) (bytes : Bytes) :
    ∀ name found, indexOfName name = some found →
      (write files (temporaryPath index) bytes)[name]? = files[name]? := by
  intro name found named
  rw [getElem?_write, if_neg (ne_temporaryPath_of_indexOfName named index)]

private theorem sync_agrees (files : Folder) (index : UInt64) :
    ∀ name found, indexOfName name = some found →
      (sync files (temporaryPath index))[name]? = files[name]? := by
  intro name found named
  rw [getElem?_sync, if_neg (ne_temporaryPath_of_indexOfName named index)]

/-- The temporary file is written, whole or in part, while no other call of
the index uses it. -/
theorem Held.write (held : store.Held evenFailed)
    (found : store.calls[position]? = some call) {phase : PersistPhase}
    {bytes : Bytes}
    (free : ∀ other ∈ store.calls, other.phase.staged = true →
      other.index ≠ call.index)
    (content : phase.staged = true →
      phase = .syncing ∧ bytes = call.file.bytes)
    (notUnlinking : ∀ names, phase ≠ .unlinking names)
    (kept : phase.owes evenFailed = true → HoldsFrom call.index store.files) :
    Held evenFailed
      { store with
        files := Files.write store.files (temporaryPath call.index) bytes
        calls := store.calls.set position { call with phase := phase } } := by
  have agree := write_agrees store.files call.index bytes
  refine held.update found (held.whole.of_agree agree)
    (fun index holds => holds.of_agree agree) ?_ ?_ ?_
    (fun names unlinks => absurd unlinks (notUnlinking names))
    (fun owes => (kept owes).of_agree agree)
  · intro place other _ otherFound isStaged
    have different := free other (List.mem_of_getElem? otherFound) isStaged
    rw [getElem?_write, if_neg]
    rw [temporaryPath_inj]
    exact fun same => different same.symm
  · intro isStaged
    obtain ⟨isSyncing, whole⟩ := content isStaged
    refine ⟨⟨bytes, false⟩, ?_, whole, ?_⟩
    · rw [getElem?_write, if_pos rfl]
    · rw [isSyncing]
      exact fun isMoving => nomatch isMoving
  · intro _ place other _ otherFound isStaged
    exact free other (List.mem_of_getElem? otherFound) isStaged

/-- The temporary files of the other calls have other names. -/
theorem Held.temporaryPath_ne (held : store.Held evenFailed)
    (found : store.calls[position]? = some call)
    (isStaged : call.phase.staged = true) {place : Nat}
    {other : PersistCall codec} (apart : place ≠ position)
    (otherFound : store.calls[place]? = some other)
    (otherStaged : other.phase.staged = true) : other.index ≠ call.index :=
  fun sameIndex =>
    apart (held.alone found otherFound isStaged otherStaged sameIndex)

theorem Held.sync (held : store.Held evenFailed)
    (found : store.calls[position]? = some call)
    (isSyncing : call.phase = .syncing) :
    Held evenFailed
      { store with
        files := Files.sync store.files (temporaryPath call.index)
        calls := store.calls.set position { call with phase := .moving } } := by
  have isStaged : call.phase.staged = true := by
    rw [isSyncing]
    rfl
  obtain ⟨file, present, content, -⟩ := held.staging found isStaged
  have agree := sync_agrees store.files call.index
  refine held.update found (held.whole.of_agree agree)
    (fun index holds => holds.of_agree agree) ?_ ?_ ?_ ?_ ?_
  · intro place other apart otherFound otherStaged
    have different :=
      held.temporaryPath_ne found isStaged apart otherFound otherStaged
    rw [getElem?_sync, if_neg]
    rw [temporaryPath_inj]
    exact fun same => different same.symm
  · intro _
    refine ⟨{ file with synced := true }, ?_, content, fun _ => rfl⟩
    rw [getElem?_sync, if_pos rfl, present]
    rfl
  · intro _ place other apart otherFound otherStaged
    exact held.temporaryPath_ne found isStaged apart otherFound otherStaged
  · intro names unlinks
    cases unlinks
  · intro owes
    cases owes

/-- The renamed file replaces the snapshot of its index, or adds one. -/
theorem Held.rename (held : store.Held evenFailed)
    (found : store.calls[position]? = some call)
    (isMoving : call.phase = .moving) :
    Held evenFailed
      { store with
        files := Files.rename store.files (temporaryPath call.index)
          (snapshotPath call.index)
        calls := store.calls.set position { call with phase := .listing } } := by
  have isStaged : call.phase.staged = true := by
    rw [isMoving]
    rfl
  obtain ⟨file, present, content, onDisk⟩ := held.staging found isStaged
  have lookup :=
    @getElem?_rename store.files _ (snapshotPath call.index) file present
  have own := indexOfName_snapshotPath call.index
  have isHanded : call.file ∈ store.handed :=
    List.mem_map_of_mem (List.mem_of_getElem? found)
  refine held.update found ?_ ?_ ?_ ?_ ?_ ?_ ?_
  · intro name index later named laterFound
    rw [lookup] at laterFound
    by_cases replaced : snapshotPath call.index = name
    · rw [if_pos replaced, Option.some.injEq] at laterFound
      subst laterFound
      rw [← replaced, own, Option.some.injEq] at named
      exact ⟨onDisk isMoving, call.file, isHanded, content.symm, named⟩
    · rw [if_neg replaced,
        if_neg (ne_temporaryPath_of_indexOfName named call.index)] at laterFound
      exact held.whole name index later named laterFound
  · intro index holds
    obtain ⟨name, number, before, named, beforeFound, atLeast⟩ :=
      holdsFrom_iff.mp holds
    by_cases replaced : snapshotPath call.index = name
    · refine holdsFrom_iff.mpr ⟨name, number, file, named, ?_, atLeast⟩
      rw [lookup, if_pos replaced]
    · refine holdsFrom_iff.mpr ⟨name, number, before, named, ?_, atLeast⟩
      rw [lookup, if_neg replaced,
        if_neg (ne_temporaryPath_of_indexOfName named call.index)]
      exact beforeFound
  · intro place other apart otherFound otherStaged
    have different :=
      held.temporaryPath_ne found isStaged apart otherFound otherStaged
    rw [lookup, if_neg (Ne.symm (ne_temporaryPath_of_indexOfName own _)),
      if_neg]
    rw [temporaryPath_inj]
    exact fun same => different same.symm
  · intro notStaged
    cases notStaged
  · intro notStaged
    cases notStaged
  · intro names unlinks
    cases unlinks
  · intro _
    refine holdsFrom_iff.mpr
      ⟨snapshotPath call.index, call.index.toNat, file, own, ?_, le_refl _⟩
    rw [lookup, if_pos rfl]

/-- An unlinked snapshot that is older than the one of the call leaves the
folder as recent as it was. -/
theorem Held.unlink (held : store.Held evenFailed)
    (found : store.calls[position]? = some call)
    {name : String} {rest : List String}
    (isUnlinking : call.phase = .unlinking (name :: rest))
    (older : ∀ index, indexOfName name = some index →
      index < call.index.toNat) :
    Held evenFailed
      { store with
        files := Files.unlink store.files name
        calls := store.calls.set position
          { call with phase := .unlinking rest } } := by
  have owes : call.phase.owes evenFailed = true := by
    rw [isUnlinking]
    rfl
  have survives : ∀ other index, indexOfName other = some index →
      call.index.toNat ≤ index →
        (Files.unlink store.files name)[other]? = store.files[other]? := by
    intro other index named atLeast
    rw [getElem?_unlink, if_neg]
    intro equality
    subst equality
    have below := older index named
    omega
  have recent : ∀ index, HoldsFrom index store.files →
      HoldsFrom index (Files.unlink store.files name) := by
    intro index holds
    obtain ⟨title, number, file, named, present, atLeast⟩ :=
      holdsFrom_iff.mp holds
    obtain ⟨ownName, ownNumber, ownFile, ownNamed, ownPresent, ownAtLeast⟩ :=
      holdsFrom_iff.mp (held.kept found owes)
    by_cases newer : call.index.toNat ≤ number
    · exact holdsFrom_iff.mpr ⟨title, number, file, named,
        (survives title number named newer).trans present, atLeast⟩
    · exact holdsFrom_iff.mpr ⟨ownName, ownNumber, ownFile, ownNamed,
        (survives ownName ownNumber ownNamed ownAtLeast).trans ownPresent,
        by omega⟩
  refine held.update found ?_ recent ?_ ?_ ?_ ?_ ?_
  · intro title index file named present
    rw [getElem?_unlink] at present
    by_cases removed : name = title
    · rw [if_pos removed] at present
      cases present
    · rw [if_neg removed] at present
      exact held.whole title index file named present
  · intro place other _ _ _
    rw [getElem?_unlink, if_neg]
    intro equality
    subst equality
    have isName := held.doomed found isUnlinking _ List.mem_cons_self
    rw [isSnapshotName_temporaryPath] at isName
    cases isName
  · intro notStaged
    cases notStaged
  · intro notStaged
    cases notStaged
  · intro names unlinks
    cases unlinks
    intro title member
    exact held.doomed found isUnlinking title (List.mem_cons_of_mem name member)
  · intro _
    exact recent call.index (held.kept found owes)

/-! ## One step -/

theorem owes_returned_false {phase : PersistPhase}
    (isFailed : phase = .returned false)
    (owes : phase.owes evenFailed = true) : evenFailed = true := by
  rw [isFailed, PersistPhase.owes, Bool.false_or] at owes
  exact owes

variable {app : StateMachineApp state} {fresh : state}

theorem Held.advance (held : store.Held evenFailed) {outcome : FileOutcome}
    (harmless : store.StepHarmless evenFailed (.advance position outcome)) :
    (store.step app fresh (.advance position outcome)).Held evenFailed := by
  cases found : store.calls[position]? with
  | none =>
      simp only [step, found]
      exact held
  | some call =>
      obtain ⟨free, failsLate, older⟩ := harmless call found
      simp only [step, found]
      unfold PersistCall.advance
      cases phase : call.phase with
      | writing =>
          rw [phase] at failsLate
          have alone := free phase
          by_cases failed : outcome.failed = true
          · simp only [failed, if_true]
            have kept : (PersistPhase.returned false).owes evenFailed = true →
                HoldsFrom call.index store.files :=
              fun owes => failsLate rfl failed (owes_returned_false rfl owes)
            cases left : outcome.left with
            | none =>
                exact held.finish found kept
            | some bytes =>
                exact held.write found alone (fun notStaged => nomatch notStaged)
                  (fun _ unlinks => nomatch unlinks) kept
          · simp only [failed]
            exact held.write found alone (fun _ => ⟨rfl, rfl⟩)
              (fun _ unlinks => nomatch unlinks) (fun owes => nomatch owes)
      | syncing =>
          rw [phase] at failsLate
          by_cases failed : outcome.failed = true
          · simp only [failed, if_true]
            exact held.finish found
              (fun owes => failsLate rfl failed (owes_returned_false rfl owes))
          · simp only [failed]
            exact held.sync found phase
      | moving =>
          rw [phase] at failsLate
          by_cases failed : outcome.failed = true
          · simp only [failed, if_true]
            exact held.finish found
              (fun owes => failsLate rfl failed (owes_returned_false rfl owes))
          · simp only [failed]
            exact held.rename found phase
      | listing =>
          have inPlace : HoldsFrom call.index store.files :=
            held.kept found (by rw [phase]; rfl)
          by_cases failed : outcome.failed = true
          · simp only [failed, if_true]
            exact held.finish found (fun _ => inPlace)
          · simp only [failed]
            refine held.settle found rfl ?_ (fun _ => inPlace)
            intro names unlinks name member
            cases unlinks
            have passed := (List.mem_filter.mp member).2
            simp only [Bool.and_eq_true] at passed
            exact passed.1.2
      | unlinking names =>
          have inPlace : HoldsFrom call.index store.files :=
            held.kept found (by rw [phase]; rfl)
          cases names with
          | nil =>
              exact held.finish found (fun _ => inPlace)
          | cons name rest =>
              rw [phase] at older
              by_cases failed : outcome.failed = true
              · simp only [failed, if_true]
                refine held.settle found rfl ?_ (fun _ => inPlace)
                intro _ unlinks title member
                cases unlinks
                exact held.doomed found phase title
                  (List.mem_cons_of_mem name member)
              · simp only [failed]
                rw [Bool.not_eq_true] at failed
                exact held.unlink found phase (older failed name rfl)
      | returned renamed =>
          apply held.finish found
          intro owes
          exact held.kept found (by rw [phase]; exact owes)
      | lost =>
          exact held.settle found rfl (fun _ unlinks => nomatch unlinks)
            (fun owes => nomatch owes)

/-- What stands in a list with one more call stood there before, or is that
call. -/
theorem getElem?_append_new {calls : List (PersistCall codec)}
    {place : Nat} {latest found : PersistCall codec}
    (present : (calls ++ [latest])[place]? = some found) :
    calls[place]? = some found ∨ found = latest := by
  by_cases atEnd : place = calls.length
  · right
    rw [atEnd, List.getElem?_concat_length] at present
    exact (Option.some.inj present).symm
  · left
    rwa [Tables.getElem?_concat_of_ne atEnd] at present

/-- A new call has not touched a file. -/
theorem Held.beginPersist (held : store.Held evenFailed)
    (memory : StateMachineStore state) :
    (DurableStore.beginPersist { store with memory := memory }).Held
      evenFailed := by
  have unchanged : Held evenFailed { store with memory := memory } :=
    ⟨held.whole, held.staging, held.alone, held.doomed, held.kept⟩
  unfold DurableStore.beginPersist
  split
  · split
    · rename_i snapshot _ bytes serialized
      refine ⟨held.whole.mono ?_, ?_, ?_, ?_, ?_⟩
      · intro origin member
        rw [handed, List.map_append]
        exact List.mem_append_left _ member
      · intro place other otherFound isStaged
        rcases getElem?_append_new otherFound with
          earlier | rfl
        · exact held.staging earlier isStaged
        · cases isStaged
      · intro first second one other oneFound otherFound oneStaged otherStaged
        rcases getElem?_append_new oneFound with
          oneEarlier | rfl
        · rcases getElem?_append_new otherFound with
            otherEarlier | rfl
          · exact held.alone oneEarlier otherEarlier oneStaged otherStaged
          · cases otherStaged
        · cases oneStaged
      · intro place other names otherFound unlinks
        rcases getElem?_append_new otherFound with
          earlier | rfl
        · exact held.doomed earlier unlinks
        · cases unlinks
      · intro place other otherFound owes
        rcases getElem?_append_new otherFound with
          earlier | rfl
        · exact held.kept earlier owes
        · cases owes
    · exact unchanged
  · exact unchanged

private theorem cutOff_file (call : PersistCall codec) :
    call.cutOff.file = call.file := by
  unfold PersistCall.cutOff
  split <;> rfl

private theorem cutOff_phase (call : PersistCall codec) :
    (∃ renamed, call.phase = .returned renamed ∧ call.cutOff = call) ∨
      call.cutOff.phase = .lost := by
  unfold PersistCall.cutOff
  split
  · rename_i renamed returned
    exact .inl ⟨renamed, returned, rfl⟩
  · exact .inr rfl

/-- After a crash no call is under way, and every snapshot is still there. -/
theorem Held.restart (held : store.Held evenFailed) (crashed : Crash) :
    (store.step app fresh (.restart crashed)).Held evenFailed := by
  have stopped : ∀ {place : Nat} {call : PersistCall codec},
      (store.calls.map PersistCall.cutOff)[place]? = some call →
        (∃ renamed, call.phase = .returned renamed ∧
          store.calls[place]? = some call) ∨ call.phase = .lost := by
    intro place call found
    rw [List.getElem?_map, Option.map_eq_some_iff] at found
    obtain ⟨before, present, rfl⟩ := found
    rcases cutOff_phase before with ⟨renamed, returned, same⟩ | isLost
    · rw [same]
      exact .inl ⟨renamed, returned, present⟩
    · exact .inr isLost
  have unstaged : ∀ {place : Nat} {call : PersistCall codec},
      (store.calls.map PersistCall.cutOff)[place]? = some call →
        call.phase.staged = false := by
    intro place call found
    rcases stopped found with ⟨renamed, returned, -⟩ | isLost
    · rw [returned]
      rfl
    · rw [isLost]
      rfl
  refine ⟨?_, ?_, ?_, ?_, ?_⟩
  · have sameHanded :
        (store.calls.map PersistCall.cutOff).map PersistCall.file =
          store.handed := by
      rw [List.map_map, handed]
      exact List.map_congr_left fun call _ => cutOff_file call
    show WholeSnapshots
      ((store.calls.map PersistCall.cutOff).map PersistCall.file) (crash _ _)
    rw [sameHanded]
    exact held.whole.crash crashed.torn
  · intro place call found isStaged
    rw [unstaged found] at isStaged
    cases isStaged
  · intro first second call other callFound _ isStaged
    rw [unstaged callFound] at isStaged
    cases isStaged
  · intro place call names found unlinks
    rcases stopped found with ⟨renamed, returned, -⟩ | isLost
    · rw [returned] at unlinks
      cases unlinks
    · rw [isLost] at unlinks
      cases unlinks
  · intro place call found owes
    rcases stopped found with ⟨renamed, -, before⟩ | isLost
    · exact (held.kept before owes).crash held.whole crashed.torn
    · rw [isLost] at owes
      cases owes

theorem Held.step (held : store.Held evenFailed) {next : DurableStep}
    (harmless : store.StepHarmless evenFailed next) :
    (store.step app fresh next).Held evenFailed := by
  cases next with
  | apply entry =>
      exact ⟨held.whole, held.staging, held.alone, held.doomed, held.kept⟩
  | build data => exact held.beginPersist (store.memory.buildInfo data)
  | install received =>
      exact held.beginPersist
        ((store.memory.installData app received.data).installInfo received)
  | advance position outcome => exact held.advance harmless
  | restart crashed => exact held.restart crashed

theorem held_start :
    (start app fresh : DurableStore state codec).Held evenFailed where
  whole := by
    intro name index file _ found
    simp [start] at found
  staging := by simp [start]
  alone := by simp [start]
  doomed := by simp [start]
  kept := by simp [start]

theorem Held.restores (held : store.Held evenFailed) :
    store.Restores app fresh evenFailed := by
  intro call member promised crashed
  obtain ⟨position, found⟩ := List.mem_iff_getElem?.mp member
  have owes : call.phase.owes evenFailed = true := by
    cases phase : call.phase with
    | returned renamed =>
        rw [phase] at promised
        exact promised
    | _ =>
        rw [phase] at promised
        cases promised
  obtain ⟨origin, isHanded, loaded, recent⟩ :=
    loadLatest_of_whole (held.whole.crash crashed.torn)
      ((held.kept found owes).crash held.whole crashed.torn) crashed.order
  refine ⟨origin, isHanded, ?_, ?_, recent⟩
  · simp only [DurableStore.step, withSnapshotDir, loaded]
  · simp only [DurableStore.step, withSnapshotDir, loaded]

/-- Runs of harmless steps keep what they promised. -/
theorem restores_of_harmless {run : List DurableStep}
    (harmless : EachStep (step app fresh) (StepHarmless evenFailed)
      (start app fresh : DurableStore state codec) run) :
    Throughout (step app fresh) (Restores app fresh evenFailed)
      (start app fresh : DurableStore state codec) run := by
  have kept : ∀ (current : DurableStore state codec) next,
      current.Held evenFailed → current.StepHarmless evenFailed next →
        (current.step app fresh next).Held evenFailed :=
    fun _ _ held allowed => held.step allowed
  have always := throughout_of_eachStep kept held_start harmless
  exact throughout_mono (fun _ held => held.restores) always

/-- Every acknowledged snapshot, or a later one, is restored. -/
theorem acknowledged_snapshot_restored (app : StateMachineApp state)
    (fresh : state) (codec : SnapshotCodec) (run : List DurableStep)
    (harmless : EachStep (step app fresh) (StepHarmless true)
      (start app fresh : DurableStore state codec) run) :
    Throughout (step app fresh) (Restores app fresh true)
      (start app fresh : DurableStore state codec) run :=
  restores_of_harmless harmless

/-- Every snapshot whose call of `persist` completed, or a later one, is
restored. -/
theorem completed_snapshot_restored (app : StateMachineApp state)
    (fresh : state) (codec : SnapshotCodec) (run : List DurableStep)
    (harmless : EachStep (step app fresh) (StepHarmless false)
      (start app fresh : DurableStore state codec) run) :
    Throughout (step app fresh) (Restores app fresh false)
      (start app fresh : DurableStore state codec) run :=
  restores_of_harmless harmless

end DurableStore

/-! ## Concrete directories -/

def snapshotLayout : Layout StoredSnapshot :=
  through
    (both (both (optionally logIdLayout)
        (both (both (optionally logIdLayout) membershipLayout) text))
      (listOf byte))
    (fun fields =>
      ⟨⟨fields.1.1, ⟨fields.1.2.1.1, fields.1.2.1.2⟩, fields.1.2.2⟩, fields.2⟩)
    (fun snapshot =>
      ((snapshot.info.lastLogId,
          (snapshot.info.lastMembership.logId,
            snapshot.info.lastMembership.membership),
          snapshot.info.snapshotId),
        snapshot.data))
    (fun _ => rfl)

/-- The codec of the snapshots on disk, for snapshots below `2 ^ 32` bytes. -/
def bincodeSnapshots : SnapshotCodec where
  encode snapshot :=
    let bytes := snapshotLayout.write snapshot
    if bytes.length < 2 ^ 32 then some bytes else none
  decode bytes := (snapshotLayout.read bytes).map Prod.fst
  decode_encode := by
    intro snapshot bytes encoded
    simp only [Option.ite_none_right_eq_some, Option.some.injEq] at encoded
    obtain ⟨short, rfl⟩ := encoded
    have back := snapshotLayout.read_write snapshot [] (short.trans (by decide))
    rw [List.append_nil] at back
    rw [back]
    rfl

namespace DurableStore

/-- The entry at an index. -/
def registerEntry (index : UInt64) : Entry :=
  ⟨⟨⟨1, 1⟩, index⟩, .normal [7]⟩

/-- A snapshot of another member. -/
def registerSnapshot (index : UInt64) : StoredSnapshot :=
  ⟨⟨some ⟨⟨1, 1⟩, index⟩, {}, "snap-1"⟩, [9]⟩

/-- The file operations of one call without a failure. -/
def persistAll (position unlinks : Nat) : List DurableStep :=
  List.replicate (unlinks + 5) (.advance position {})

/-- A build whose first file operation fails. -/
def failedWrite : List DurableStep :=
  [.apply (registerEntry 5), .build [7], .advance 0 { failed := true }]

/-- A build at index five enters `persist`, a snapshot at index ten is
installed and persisted, then the build goes on. -/
def overtakenBuild : List DurableStep :=
  [.apply (registerEntry 5), .build [7], .install (registerSnapshot 10)] ++
    persistAll 1 0 ++ persistAll 0 1

/-- A build at index five and an install at index ten, one after the other,
then a build at index ten that fails to write. -/
def orderlySnapshots : List DurableStep :=
  [.apply (registerEntry 5), .build [7]] ++ persistAll 0 0 ++
    [.install (registerSnapshot 10)] ++ persistAll 1 1 ++
      [.build [9], .advance 2 { failed := true }]

/-- The index restored when nothing unsynced survives a crash after the run. -/
def restoredIndex (run : List DurableStep) : Option UInt64 :=
  let store : DurableStore Bytes bincodeSnapshots :=
    Runs.final (step System.registerApp []) (start System.registerApp []) run
  (store.step System.registerApp []
    (.restart ⟨fun _ => none, .asStored⟩)).memory.snapshot.map
      StoredSnapshot.index

private theorem restoredIndex_orderlySnapshots :
    restoredIndex orderlySnapshots = some 10 := by
  decide +kernel

theorem acknowledged_snapshot_restored_orderly :
    restoredIndex orderlySnapshots = some 10 ∧
      Throughout (step System.registerApp []) (Restores System.registerApp [] true)
        (start System.registerApp [] : DurableStore Bytes bincodeSnapshots)
        orderlySnapshots :=
  ⟨restoredIndex_orderlySnapshots,
    acknowledged_snapshot_restored System.registerApp [] bincodeSnapshots
      orderlySnapshots (by decide +kernel)⟩

theorem completed_snapshot_restored_orderly :
    restoredIndex orderlySnapshots = some 10 ∧
      Throughout (step System.registerApp [])
        (Restores System.registerApp [] false)
        (start System.registerApp [] : DurableStore Bytes bincodeSnapshots)
        orderlySnapshots :=
  ⟨restoredIndex_orderlySnapshots,
    completed_snapshot_restored System.registerApp [] bincodeSnapshots
      orderlySnapshots (by decide +kernel)⟩

/-- A run breaks its promises when it ends with a returned call whose index
the crash does not restore. -/
theorem not_restores_of_restoredIndex {evenFailed : Bool}
    {run : List DurableStep} {promised : UInt64}
    (returned : ∃ call ∈ (Runs.final (step System.registerApp [])
        (start System.registerApp [] : DurableStore Bytes bincodeSnapshots)
        run).calls,
      call.phase.promises evenFailed = true ∧ call.index = promised)
    (lost : (restoredIndex run).all (· < promised) = true) :
    ¬ Throughout (step System.registerApp [])
      (Restores System.registerApp [] evenFailed)
      (start System.registerApp [] : DurableStore Bytes bincodeSnapshots)
      run := by
  intro always
  obtain ⟨call, member, isPromised, rfl⟩ := returned
  obtain ⟨origin, -, restored, -, recent⟩ :=
    final_of_throughout always call member isPromised ⟨fun _ => none, .asStored⟩
  have found : restoredIndex run = some origin.snapshot.index := by
    rw [restoredIndex, restored]
    rfl
  rw [found, Option.all_some, decide_eq_true_eq] at lost
  exact absurd lost (UInt64.not_lt.mpr recent)

/-- The write fails, the build returns, and a restart finds no snapshot. -/
theorem failed_write_acknowledged :
    ¬ Throughout (step System.registerApp []) (Restores System.registerApp [] true)
      (start System.registerApp [] : DurableStore Bytes bincodeSnapshots)
      failedWrite :=
  @not_restores_of_restoredIndex true failedWrite 5 (by decide +kernel)
    (by decide +kernel)

/-- Both calls complete, and the older one unlinks the newer snapshot. -/
theorem older_persist_unlinks_newer :
    ¬ Throughout (step System.registerApp [])
      (Restores System.registerApp [] false)
      (start System.registerApp [] : DurableStore Bytes bincodeSnapshots)
      overtakenBuild :=
  @not_restores_of_restoredIndex false overtakenBuild 10 (by decide +kernel)
    (by decide +kernel)

end DurableStore

end AetherEngine.Consensus
