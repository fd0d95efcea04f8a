import AetherEngine.Consensus.LogStore
import AetherEngine.Foundations.Runs

/-!
# The snapshotting state machine

`StateMachineStore` feeds committed entries to an application and remembers
the position reached.  Applying an entry and installing a snapshot each touch
the application first and the position afterwards, in two critical sections;
building a snapshot reads the application's bytes first and the position
afterwards.  `System` interleaves one builder with the apply and install steps
at this granularity.

A stored snapshot is sound when restoring it and applying the entries behind
its position gives the state of the whole log.  Every stored snapshot is sound
in runs in which no application write separates the two reads of a build.
-/

namespace AetherEngine.Consensus

open AetherEngine.Frames
open AetherEngine.Runs

universe u

/-! ## Applications and the committed log -/

/-- What an application supplies, with its contract: `Agrees` relates states
that are the same to every reader, applying a payload respects it, and
restoring a dump replaces the state by the dumped one. -/
structure StateMachineApp (state : Type u) where
  apply : state → Bytes → state
  snapshotBytes : state → Bytes
  restore : state → Bytes → state
  Agrees : state → state → Prop
  agrees_equivalence : Equivalence Agrees
  apply_agrees : ∀ {left right} payload,
    Agrees left right → Agrees (apply left payload) (apply right payload)
  restore_snapshotBytes : ∀ prior dumped,
    Agrees (restore prior (snapshotBytes dumped)) dumped

/-- The committed entries in index order. -/
structure CommittedLog where
  entries : List Entry
  ascending : entries.Pairwise fun earlier later =>
    earlier.logId.index < later.logId.index

/-- Only normal payloads reach the application. -/
def EntryPayload.isNormal : EntryPayload → Bool
  | .normal _ => true
  | _ => false

variable {state : Type u}

/-- The effect of an entry on the application. -/
def applyEntry (app : StateMachineApp state) (current : state)
    (entry : Entry) : state :=
  match entry.payload with
  | .normal payload => app.apply current payload
  | _ => current

namespace CommittedLog

/-- The id of the entry at a position, counted from one. -/
def idAt (log : CommittedLog) (position : Nat) : Option LogId :=
  (log.entries.take position).getLast?.map Entry.logId

/-- The entry is not covered by a snapshot that claims `last`. -/
def isAfter (last : Option LogId) (entry : Entry) : Bool :=
  match last with
  | none => true
  | some logId => decide (logId.index < entry.logId.index)

/-- The number of entries a snapshot that claims `last` covers. -/
def covered (log : CommittedLog) (last : Option LogId) : Nat :=
  (log.entries.filter fun entry => !isAfter last entry).length

/-- The entries behind `last` among the first `bound`. -/
def behind (log : CommittedLog) (last : Option LogId) (bound : Nat) :
    List Entry :=
  (log.entries.take bound).filter (isAfter last)

/-- The application state after the first `position` entries. -/
def stateAt (app : StateMachineApp state) (fresh : state)
    (log : CommittedLog) (position : Nat) : state :=
  (log.entries.take position).foldl (applyEntry app) fresh

/-- No entry between the two positions reaches the application. -/
def QuietBetween (log : CommittedLog) (first second : Nat) : Prop :=
  ∀ entry ∈ (log.entries.take (max first second)).drop (min first second),
    entry.payload.isNormal = false

instance (log : CommittedLog) (first second : Nat) :
    Decidable (log.QuietBetween first second) :=
  inferInstanceAs (Decidable (∀ entry ∈ _, _))

end CommittedLog

/-! ## The store -/

structure StoredMembership where
  logId : Option LogId := none
  membership : Membership := ⟨[], []⟩
deriving DecidableEq, Repr

structure SnapshotMeta where
  lastLogId : Option LogId
  lastMembership : StoredMembership
  snapshotId : String
deriving DecidableEq, Repr

structure StoredSnapshot where
  info : SnapshotMeta
  data : Bytes
deriving DecidableEq, Repr

/-- The application state and `SmInner`. -/
structure StateMachineStore (state : Type u) where
  app : state
  lastApplied : Option LogId := none
  membership : StoredMembership := {}
  snapshotSeq : Nat := 0
  snapshot : Option StoredSnapshot := none

namespace StateMachineStore

/-- The first critical section of `apply`: the application takes a normal
payload, the store a membership. -/
def applyPayload (app : StateMachineApp state)
    (store : StateMachineStore state) (entry : Entry) :
    StateMachineStore state :=
  match entry.payload with
  | .blank => store
  | .normal payload => { store with app := app.apply store.app payload }
  | .membership membership =>
      { store with membership := ⟨some entry.logId, membership⟩ }

/-- The second critical section of `apply`. -/
def applyPosition (store : StateMachineStore state) (entry : Entry) :
    StateMachineStore state :=
  { store with lastApplied := some entry.logId }

/-- The first critical section of `install_snapshot`. -/
def installData (app : StateMachineApp state)
    (store : StateMachineStore state) (data : Bytes) :
    StateMachineStore state :=
  { store with app := app.restore store.app data }

/-- The second critical section of `install_snapshot`. -/
def installInfo (store : StateMachineStore state)
    (received : StoredSnapshot) : StateMachineStore state :=
  { store with
    lastApplied := received.info.lastLogId
    membership := received.info.lastMembership
    snapshot := some received }

/-- The second critical section of `build_snapshot`, with the bytes the first
one read. -/
def buildInfo (store : StateMachineStore state) (data : Bytes) :
    StateMachineStore state :=
  let seq := store.snapshotSeq + 1
  { store with
    snapshotSeq := seq
    snapshot := some
      { info :=
          { lastLogId := store.lastApplied
            lastMembership := store.membership
            snapshotId := "snap-" ++ toString seq }
        data := data } }

end StateMachineStore

/-! ## One builder among the apply and install steps -/

/-- Restoring the data and applying the entries behind the claimed position
gives the state of the whole log. -/
def SnapshotSound (app : StateMachineApp state) (fresh : state)
    (log : CommittedLog) (snapshot : StoredSnapshot) : Prop :=
  ∀ prior bound, log.covered snapshot.info.lastLogId ≤ bound →
    app.Agrees
      ((log.behind snapshot.info.lastLogId bound).foldl (applyEntry app)
        (app.restore prior snapshot.data))
      (log.stateAt app fresh bound)

/-- A snapshot received from another member: the dump of a committed state and
the position of that state. -/
structure ReceivedSnapshot (app : StateMachineApp state) (fresh : state)
    (log : CommittedLog) where
  position : Nat
  data : Bytes
  lastMembership : StoredMembership
  snapshotId : String
  inside : position ≤ log.entries.length
  restores : ∀ prior,
    app.Agrees (app.restore prior data) (log.stateAt app fresh position)

/-- Where the apply and install path is: between calls, or between the two
critical sections of one. -/
inductive Worker where
  | idle
  | applying (entry : Entry)
  | installing (received : StoredSnapshot)

/-- Where the builder is.  It holds the bytes it read; `position` counts the
entries the application had taken at that moment. -/
inductive Builder where
  | idle
  | holding (data : Bytes) (position : Nat)

/-- `reflected` counts the entries the application has taken. -/
structure System (state : Type u) where
  store : StateMachineStore state
  worker : Worker
  builder : Builder
  reflected : Nat

inductive SystemStep (app : StateMachineApp state) (fresh : state)
    (log : CommittedLog) where
  | applyPayload
  | applyPosition
  | installData (received : ReceivedSnapshot app fresh log)
  | installInfo
  | buildData
  | buildInfo

namespace System

variable {app : StateMachineApp state} {fresh : state} {log : CommittedLog}

def start (fresh : state) : System state where
  store := { app := fresh }
  worker := .idle
  builder := .idle
  reflected := 0

/-- One critical section.  Entries are applied in log order; a step that is
not due does nothing. -/
def step (system : System state) : SystemStep app fresh log → System state
  | .applyPayload =>
      match system.worker, log.entries[system.reflected]? with
      | .idle, some entry =>
          { system with
            store := system.store.applyPayload app entry
            worker := .applying entry
            reflected := system.reflected + 1 }
      | _, _ => system
  | .applyPosition =>
      match system.worker with
      | .applying entry =>
          { system with
            store := system.store.applyPosition entry
            worker := .idle }
      | _ => system
  | .installData received =>
      match system.worker with
      | .idle =>
          { system with
            store := system.store.installData app received.data
            worker := .installing
              { info :=
                  { lastLogId := log.idAt received.position
                    lastMembership := received.lastMembership
                    snapshotId := received.snapshotId }
                data := received.data }
            reflected := received.position }
      | _ => system
  | .installInfo =>
      match system.worker with
      | .installing received =>
          { system with
            store := system.store.installInfo received
            worker := .idle }
      | _ => system
  | .buildData =>
      match system.builder with
      | .idle =>
          { system with
            builder := .holding (app.snapshotBytes system.store.app)
              system.reflected }
      | _ => system
  | .buildInfo =>
      match system.builder with
      | .holding data _ =>
          { system with
            store := system.store.buildInfo data
            builder := .idle }
      | _ => system

/-- Every stored snapshot is sound. -/
def StoresSound (app : StateMachineApp state) (fresh : state)
    (log : CommittedLog) (system : System state) : Prop :=
  ∀ snapshot, system.store.snapshot = some snapshot →
    SnapshotSound app fresh log snapshot

/-- When the builder records the position, no application write lies between
the entries its bytes reflect and the entries the position covers. -/
def StepQuiet (system : System state) : SystemStep app fresh log → Prop
  | .buildInfo =>
      match system.builder with
      | .holding _ position =>
          log.QuietBetween position (log.covered system.store.lastApplied)
      | .idle => True
  | _ => True

end System

/-! ## Positions in the log -/

namespace CommittedLog

variable {app : StateMachineApp state} {fresh : state}
  (log : CommittedLog)

private theorem not_isAfter_of_mem_take {position : Nat} {entry : Entry}
    (member : entry ∈ log.entries.take position) :
    isAfter (log.idAt position) entry = false := by
  have ascending :
      (log.entries.take position).Pairwise fun earlier later =>
        earlier.logId.index < later.logId.index :=
    List.Pairwise.sublist (List.take_sublist _ _) log.ascending
  unfold idAt
  rcases List.eq_nil_or_concat' (log.entries.take position) with
    empty | ⟨initial, newest, split⟩
  · rw [empty] at member
    cases member
  · rw [split] at member ascending ⊢
    rw [List.getLast?_concat]
    have newestBound : ¬ newest.logId.index < entry.logId.index := by
      rcases List.mem_append.mp member with earlier | same
      · have below :=
          (List.pairwise_append.mp ascending).2.2 entry earlier newest
            List.mem_cons_self
        exact UInt64.not_lt.mpr (UInt64.le_of_lt below)
      · rw [List.mem_singleton.mp same]
        exact UInt64.lt_irrefl _
    simpa [isAfter] using newestBound

private theorem isAfter_of_mem_drop {position : Nat} {entry : Entry}
    (member : entry ∈ log.entries.drop position) :
    isAfter (log.idAt position) entry = true := by
  have ascending := log.ascending
  rw [← List.take_append_drop position log.entries,
    List.pairwise_append] at ascending
  unfold idAt
  cases newest : (log.entries.take position).getLast? with
  | none =>
      rfl
  | some last =>
      have above :=
        ascending.2.2 last (List.mem_of_getLast? newest) entry member
      simpa [isAfter] using above

/-- A snapshot that claims the id at a position covers the entries up to
there. -/
theorem covered_idAt {position : Nat}
    (inside : position ≤ log.entries.length) :
    log.covered (log.idAt position) = position := by
  have kept :
      (log.entries.take position).filter
          (fun entry => !isAfter (log.idAt position) entry) =
        log.entries.take position := by
    apply List.filter_eq_self.mpr
    intro entry member
    rw [log.not_isAfter_of_mem_take member]
    rfl
  have skipped :
      (log.entries.drop position).filter
          (fun entry => !isAfter (log.idAt position) entry) = [] := by
    apply List.filter_eq_nil_iff.mpr
    intro entry member
    rw [log.isAfter_of_mem_drop member]
    simp
  have split :
      log.entries.filter
          (fun entry => !isAfter (log.idAt position) entry) =
        log.entries.take position := by
    conv_lhs => rw [← List.take_append_drop position log.entries]
    rw [List.filter_append, kept, skipped, List.append_nil]
  rw [covered, split, List.length_take, Nat.min_eq_left inside]

private theorem behind_idAt {position bound : Nat}
    (ordered : position ≤ bound) :
    log.behind (log.idAt position) bound =
      (log.entries.take bound).drop position := by
  have split :
      log.entries.take bound =
        log.entries.take position ++
          (log.entries.take bound).drop position := by
    have rejoined :=
      (List.take_append_drop position (log.entries.take bound)).symm
    rwa [List.take_take, Nat.min_eq_left ordered] at rejoined
  have skipped :
      (log.entries.take position).filter (isAfter (log.idAt position)) =
        [] := by
    apply List.filter_eq_nil_iff.mpr
    intro entry member
    rw [log.not_isAfter_of_mem_take member]
    exact Bool.false_ne_true
  have kept :
      ((log.entries.take bound).drop position).filter
          (isAfter (log.idAt position)) =
        (log.entries.take bound).drop position := by
    apply List.filter_eq_self.mpr
    intro entry member
    apply log.isAfter_of_mem_drop
    rw [List.drop_take] at member
    exact List.mem_of_mem_take member
  unfold behind
  rw [split, List.filter_append, skipped, List.nil_append, ← split, kept]

/-- Applying the entries behind a position continues from its state. -/
theorem stateAt_behind {position bound : Nat} (ordered : position ≤ bound) :
    (log.behind (log.idAt position) bound).foldl (applyEntry app)
        (log.stateAt app fresh position) =
      log.stateAt app fresh bound := by
  rw [log.behind_idAt ordered, stateAt, ← List.foldl_append]
  have rejoined := List.take_append_drop position (log.entries.take bound)
  rw [List.take_take, Nat.min_eq_left ordered] at rejoined
  rw [rejoined]
  rfl

private theorem foldl_applyEntry_of_quiet {entries : List Entry}
    (quiet : ∀ entry ∈ entries, entry.payload.isNormal = false)
    (current : state) :
    entries.foldl (applyEntry app) current = current := by
  induction entries with
  | nil =>
      rfl
  | cons entry rest inductionHypothesis =>
      have untouched : applyEntry app current entry = current := by
        have notNormal := quiet entry List.mem_cons_self
        unfold applyEntry
        cases payload : entry.payload with
        | blank => rfl
        | normal bytes =>
            rw [payload] at notNormal
            cases notNormal
        | membership membership => rfl
      rw [List.foldl_cons, untouched]
      exact inductionHypothesis fun other member =>
        quiet other (List.mem_cons_of_mem entry member)

/-- Positions with no application write between them have one state. -/
theorem stateAt_eq_of_quiet {first second : Nat}
    (quiet : log.QuietBetween first second) :
    log.stateAt app fresh first = log.stateAt app fresh second := by
  have raised : ∀ low high, low ≤ high →
      (∀ entry ∈ (log.entries.take high).drop low,
        entry.payload.isNormal = false) →
      log.stateAt app fresh low = log.stateAt app fresh high := by
    intro low high ordered between
    rw [← log.stateAt_behind ordered, log.behind_idAt ordered,
      foldl_applyEntry_of_quiet between]
  unfold QuietBetween at quiet
  rcases Nat.le_total first second with ordered | ordered
  · rw [Nat.max_eq_right ordered, Nat.min_eq_left ordered] at quiet
    exact raised first second ordered quiet
  · rw [Nat.max_eq_left ordered, Nat.min_eq_right ordered] at quiet
    exact (raised second first ordered quiet).symm

private theorem stateAt_succ {position : Nat} {entry : Entry}
    (found : log.entries[position]? = some entry) :
    log.stateAt app fresh (position + 1) =
      applyEntry app (log.stateAt app fresh position) entry := by
  unfold stateAt
  rw [List.take_add_one, found]
  simp

private theorem idAt_succ {position : Nat} {entry : Entry}
    (found : log.entries[position]? = some entry) :
    log.idAt (position + 1) = some entry.logId := by
  unfold idAt
  rw [List.take_add_one, found]
  simp

end CommittedLog

private theorem applyEntry_agrees (app : StateMachineApp state) (entry : Entry)
    {left right : state} (agree : app.Agrees left right) :
    app.Agrees (applyEntry app left entry) (applyEntry app right entry) := by
  unfold applyEntry
  cases entry.payload with
  | blank => exact agree
  | normal payload => exact app.apply_agrees payload agree
  | membership membership => exact agree

private theorem foldl_applyEntry_agrees (app : StateMachineApp state)
    (entries : List Entry) {left right : state}
    (agree : app.Agrees left right) :
    app.Agrees (entries.foldl (applyEntry app) left)
      (entries.foldl (applyEntry app) right) := by
  induction entries generalizing left right with
  | nil =>
      exact agree
  | cons entry rest inductionHypothesis =>
      exact inductionHypothesis (applyEntry_agrees app entry agree)

/-- Data that restores the state at a position is sound under its id. -/
theorem snapshotSound_of_restores
    {app : StateMachineApp state} {fresh : state} {log : CommittedLog}
    {snapshot : StoredSnapshot} {position : Nat}
    (inside : position ≤ log.entries.length)
    (claimed : snapshot.info.lastLogId = log.idAt position)
    (restores : ∀ prior, app.Agrees (app.restore prior snapshot.data)
      (log.stateAt app fresh position)) :
    SnapshotSound app fresh log snapshot := by
  intro prior bound enough
  rw [claimed] at enough ⊢
  rw [log.covered_idAt inside] at enough
  rw [← log.stateAt_behind enough]
  exact foldl_applyEntry_agrees app _ (restores prior)

/-! ## The invariant -/

namespace System

variable {app : StateMachineApp state} {fresh : state} {log : CommittedLog}

/-- What the path between two critical sections still owes. -/
def WorkerOwes (app : StateMachineApp state) (fresh : state)
    (log : CommittedLog) (reflected : Nat) : Worker → Prop
  | .idle => True
  | .applying entry => log.idAt reflected = some entry.logId
  | .installing received =>
      received.info.lastLogId = log.idAt reflected ∧
        SnapshotSound app fresh log received

/-- The builder's bytes restore the state at the position they were read. -/
def BuilderHolds (app : StateMachineApp state) (fresh : state)
    (log : CommittedLog) : Builder → Prop
  | .idle => True
  | .holding data position =>
      ∀ prior, app.Agrees (app.restore prior data)
        (log.stateAt app fresh position)

structure Consistent (app : StateMachineApp state) (fresh : state)
    (log : CommittedLog) (system : System state) : Prop where
  inside : system.reflected ≤ log.entries.length
  reflects :
    app.Agrees system.store.app (log.stateAt app fresh system.reflected)
  claimed : ∃ position ≤ log.entries.length,
    system.store.lastApplied = log.idAt position
  worker : WorkerOwes app fresh log system.reflected system.worker
  builder : BuilderHolds app fresh log system.builder
  sound : StoresSound app fresh log system

private theorem consistent_start :
    Consistent app fresh log (start fresh) where
  inside := Nat.zero_le _
  reflects := app.agrees_equivalence.refl _
  claimed := ⟨0, Nat.zero_le _, rfl⟩
  worker := trivial
  builder := trivial
  sound := by
    intro snapshot stored
    cases stored

private theorem applyPayload_app (store : StateMachineStore state)
    (entry : Entry) :
    (store.applyPayload app entry).app = applyEntry app store.app entry := by
  unfold StateMachineStore.applyPayload applyEntry
  cases entry.payload <;> rfl

private theorem applyPayload_lastApplied (store : StateMachineStore state)
    (entry : Entry) :
    (store.applyPayload app entry).lastApplied = store.lastApplied := by
  unfold StateMachineStore.applyPayload
  cases entry.payload <;> rfl

private theorem applyPayload_snapshot (store : StateMachineStore state)
    (entry : Entry) :
    (store.applyPayload app entry).snapshot = store.snapshot := by
  unfold StateMachineStore.applyPayload
  cases entry.payload <;> rfl

theorem Consistent.applyPayload {system : System state}
    (consistent : Consistent app fresh log system) :
    Consistent app fresh log
      (system.step (.applyPayload : SystemStep app fresh log)) := by
  simp only [step]
  split
  · rename_i entry _ found
    have next : system.reflected < log.entries.length :=
      (List.getElem?_eq_some_iff.mp found).1
    refine ⟨next, ?_, ?_, log.idAt_succ found, consistent.builder, ?_⟩
    · simp only
      rw [applyPayload_app, log.stateAt_succ found]
      exact applyEntry_agrees app entry consistent.reflects
    · simp only [applyPayload_lastApplied]
      exact consistent.claimed
    · intro snapshot stored
      simp only [applyPayload_snapshot] at stored
      exact consistent.sound snapshot stored
  · exact consistent

theorem Consistent.applyPosition {system : System state}
    (consistent : Consistent app fresh log system) :
    Consistent app fresh log
      (system.step (.applyPosition : SystemStep app fresh log)) := by
  unfold step
  cases busy : system.worker with
  | applying entry =>
      have owed := consistent.worker
      rw [busy] at owed
      exact ⟨consistent.inside, consistent.reflects,
        ⟨system.reflected, consistent.inside, owed.symm⟩, trivial,
        consistent.builder, consistent.sound⟩
  | idle => exact consistent
  | installing received => exact consistent

theorem Consistent.installData {system : System state}
    (consistent : Consistent app fresh log system)
    (received : ReceivedSnapshot app fresh log) :
    Consistent app fresh log (system.step (.installData received)) := by
  unfold step
  cases system.worker with
  | idle =>
      refine ⟨received.inside, received.restores _, consistent.claimed,
        ⟨rfl, ?_⟩, consistent.builder, consistent.sound⟩
      exact snapshotSound_of_restores received.inside rfl received.restores
  | applying entry => exact consistent
  | installing received => exact consistent

theorem Consistent.installInfo {system : System state}
    (consistent : Consistent app fresh log system) :
    Consistent app fresh log
      (system.step (.installInfo : SystemStep app fresh log)) := by
  unfold step
  cases busy : system.worker with
  | installing received =>
      have owed := consistent.worker
      rw [busy] at owed
      refine ⟨consistent.inside, consistent.reflects,
        ⟨system.reflected, consistent.inside, owed.1⟩, trivial,
        consistent.builder, ?_⟩
      intro snapshot stored
      cases stored
      exact owed.2
  | idle => exact consistent
  | applying entry => exact consistent

theorem Consistent.buildData {system : System state}
    (consistent : Consistent app fresh log system) :
    Consistent app fresh log
      (system.step (.buildData : SystemStep app fresh log)) := by
  unfold step
  cases system.builder with
  | idle =>
      refine ⟨consistent.inside, consistent.reflects, consistent.claimed,
        consistent.worker, ?_, consistent.sound⟩
      intro prior
      exact app.agrees_equivalence.trans
        (app.restore_snapshotBytes prior system.store.app) consistent.reflects
  | holding data position => exact consistent

/-- The snapshot is sound when the two reads saw the same application
state. -/
theorem Consistent.buildInfo {system : System state}
    (consistent : Consistent app fresh log system)
    (quiet : system.StepQuiet (.buildInfo : SystemStep app fresh log)) :
    Consistent app fresh log
      (system.step (.buildInfo : SystemStep app fresh log)) := by
  unfold StepQuiet at quiet
  unfold step
  cases held : system.builder with
  | idle => exact consistent
  | holding data position =>
      have restores := consistent.builder
      rw [held] at restores quiet
      obtain ⟨claimed, inside, recorded⟩ := consistent.claimed
      simp only [recorded, log.covered_idAt inside] at quiet
      refine ⟨consistent.inside, consistent.reflects, consistent.claimed,
        consistent.worker, trivial, ?_⟩
      intro snapshot stored
      cases stored
      refine snapshotSound_of_restores inside recorded fun prior => ?_
      rw [← log.stateAt_eq_of_quiet quiet]
      exact restores prior

theorem Consistent.step {system : System state}
    (consistent : Consistent app fresh log system)
    {next : SystemStep app fresh log} (quiet : system.StepQuiet next) :
    Consistent app fresh log (system.step next) := by
  cases next with
  | applyPayload => exact consistent.applyPayload
  | applyPosition => exact consistent.applyPosition
  | installData received => exact consistent.installData received
  | installInfo => exact consistent.installInfo
  | buildData => exact consistent.buildData
  | buildInfo => exact consistent.buildInfo quiet

/-- In every interleaving whose builds are quiet, every stored snapshot is
sound. -/
theorem stored_snapshots_sound
    {steps : List (SystemStep app fresh log)}
    (quiet : EachStep (fun system next => system.step next)
      (fun system next => system.StepQuiet next) (start fresh) steps) :
    Throughout (fun system (next : SystemStep app fresh log) =>
        system.step next)
      (StoresSound app fresh log) (start fresh) steps :=
  throughout_mono (fun _ consistent => Consistent.sound consistent)
    (throughout_of_eachStep
      (fun _ _ consistent stepQuiet => Consistent.step consistent stepQuiet)
      consistent_start quiet)

/-! ### A register application -/

/-- The application that remembers the last payload. -/
def registerApp : StateMachineApp Bytes where
  apply _ payload := payload
  snapshotBytes current := current
  restore _ bytes := bytes
  Agrees left right := left = right
  agrees_equivalence := eq_equivalence
  apply_agrees _ _ := rfl
  restore_snapshotBytes _ _ := rfl

/-- One committed payload, followed by a blank entry. -/
def registerLog : CommittedLog where
  entries :=
    [⟨⟨⟨1, 1⟩, 1⟩, .normal [7]⟩, ⟨⟨⟨1, 1⟩, 2⟩, .blank⟩]
  ascending := by decide

/-- A build around the blank entry, then a build inside an apply whose
position is recorded before the builder records its own. -/
def quietBuilds : List (SystemStep registerApp [] registerLog) :=
  [.applyPayload, .buildData, .applyPosition, .buildInfo, .buildData,
    .applyPayload, .applyPosition, .buildInfo]

theorem stored_snapshots_sound_quietBuilds :
    (Runs.final (fun system (next : SystemStep registerApp [] registerLog) =>
        system.step next) (start []) quietBuilds).store.snapshotSeq = 2 ∧
      Throughout (fun system (next : SystemStep registerApp [] registerLog) =>
          system.step next)
        (StoresSound registerApp [] registerLog) (start []) quietBuilds := by
  refine ⟨by decide, stored_snapshots_sound ?_⟩
  have firstQuiet : registerLog.QuietBetween 1
      (registerLog.covered (some ⟨⟨1, 1⟩, 1⟩)) := by
    decide
  have secondQuiet : registerLog.QuietBetween 1
      (registerLog.covered (some ⟨⟨1, 1⟩, 2⟩)) := by
    decide
  exact ⟨trivial, trivial, trivial, firstQuiet, trivial, trivial, trivial,
    secondQuiet, trivial⟩

/-- The bytes are read, an entry is applied, then the position is read: the
snapshot claims the entry and does not contain it. -/
theorem build_around_apply_unsound :
    ¬ Throughout (fun system (next : SystemStep registerApp [] registerLog) =>
        system.step next)
      (StoresSound registerApp [] registerLog) (start [])
      [.buildData, .applyPayload, .applyPosition, .buildInfo] := by
  intro restores
  rcases restores with ⟨_, _, _, _, sound⟩
  have lost : ([] : Bytes) = [7] := sound _ rfl [] 1 (by decide)
  cases lost

end System

end AetherEngine.Consensus
