import AetherEngine.Foundations.Frames
import Std.Data.ExtTreeMap

/-!
# Raft log data and the in-memory log store

The log identifiers, entries and votes of the raft group, and `LogStore`, the
in-memory implementation of the log storage interface.  It is the reference
the durable store is compared with.
-/

namespace AetherEngine.Consensus

open AetherEngine.Frames

/-! ## Log data -/

structure LeaderId where
  term : UInt64
  nodeId : UInt64
deriving DecidableEq, Repr

structure LogId where
  leaderId : LeaderId
  index : UInt64
deriving DecidableEq, Repr

/-- The voter configurations and the transport address of every member. -/
structure Membership where
  configs : List (List UInt64)
  nodes : List (UInt64 × String)
deriving DecidableEq, Repr

/-- The application payload is opaque to the log. -/
inductive EntryPayload where
  | blank
  | normal (payload : Bytes)
  | membership (membership : Membership)
deriving DecidableEq, Repr

structure Entry where
  logId : LogId
  payload : EntryPayload
deriving DecidableEq, Repr

structure Vote where
  leaderId : LeaderId
  committed : Bool
deriving DecidableEq, Repr

/-- Log entries by index. -/
abbrev LogMap := Std.ExtTreeMap UInt64 Entry

/-- Collect the keys inside a range and remove each of them. -/
def removeRange (log : LogMap) (doomed : UInt64 → Bool) : LogMap :=
  log.filter fun index _ => !doomed index

@[simp]
theorem getElem?_removeRange
    (log : LogMap) (doomed : UInt64 → Bool) (index : UInt64) :
    (removeRange log doomed)[index]? =
      if doomed index then none else log[index]? := by
  unfold removeRange
  rw [Std.ExtTreeMap.getElem?_filter']
  cases doomed index <;> cases log[index]? <;> rfl

@[simp]
theorem getElem?_insertEntry
    (log : LogMap) (key index : UInt64) (entry : Entry) :
    (log.insert key entry)[index]? =
      if key = index then some entry else log[index]? := by
  rw [Std.ExtTreeMap.getElem?_insert]
  simp

/-! ## Queries over a log map -/

inductive Bound where
  | included (index : UInt64)
  | excluded (index : UInt64)
  | unbounded
deriving DecidableEq, Repr

structure LogRange where
  lower : Bound
  upper : Bound
deriving DecidableEq, Repr

def LogRange.contains (range : LogRange) (index : UInt64) : Bool :=
  (match range.lower with
    | .included bound => decide (bound ≤ index)
    | .excluded bound => decide (bound < index)
    | .unbounded => true) &&
  (match range.upper with
    | .included bound => decide (index ≤ bound)
    | .excluded bound => decide (index < bound)
    | .unbounded => true)

/-- The entries inside a range, in index order. -/
def entriesIn (log : LogMap) (range : LogRange) : List Entry :=
  (log.toList.filter fun item => range.contains item.1).map Prod.snd

structure LogState where
  lastPurgedLogId : Option LogId
  lastLogId : Option LogId
deriving DecidableEq, Repr

/-- The last entry's id, or the purge point when the log is empty. -/
def logStateOf (log : LogMap) (lastPurged : Option LogId) : LogState where
  lastPurgedLogId := lastPurged
  lastLogId :=
    (log.toList.getLast?.map fun item => item.2.logId).or lastPurged

/-! ## The in-memory store -/

/-- `LogInner`: everything a log store remembers. -/
structure LogStore where
  log : LogMap := ∅
  lastPurged : Option LogId := none
  committed : Option LogId := none
  vote : Option Vote := none

namespace LogStore

def tryGetLogEntries (store : LogStore) (range : LogRange) : List Entry :=
  entriesIn store.log range

def getLogState (store : LogStore) : LogState :=
  logStateOf store.log store.lastPurged

def saveVote (store : LogStore) (vote : Vote) : LogStore :=
  { store with vote := some vote }

def readVote (store : LogStore) : Option Vote :=
  store.vote

def saveCommitted (store : LogStore) (committed : Option LogId) :
    LogStore :=
  { store with committed := committed }

def readCommitted (store : LogStore) : Option LogId :=
  store.committed

def append (store : LogStore) (entries : List Entry) : LogStore :=
  { store with
    log := entries.foldl
      (fun log entry => log.insert entry.logId.index entry) store.log }

/-- Remove everything at and after `logId`. -/
def truncate (store : LogStore) (logId : LogId) : LogStore :=
  { store with
    log := removeRange store.log fun index => decide (logId.index ≤ index) }

/-- Drop everything up to and including `logId`. -/
def purge (store : LogStore) (logId : LogId) : LogStore :=
  { store with
    lastPurged := some logId
    log := removeRange store.log fun index => decide (index ≤ logId.index) }

end LogStore

end AetherEngine.Consensus
