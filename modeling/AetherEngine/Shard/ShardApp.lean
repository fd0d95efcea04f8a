import AetherEngine.Foundations.Frames
import AetherEngine.Foundations.Registers
import AetherEngine.Shard.Store

/-!
# The shard's state machine

Committed payloads index a batch of documents or evict a virtual shard; a
payload that does not decode does nothing.  A snapshot is a flat dump of the
documents.

Seen from one aircraft, every payload overwrites the aircraft's document, clears
it, or leaves it alone.  The state is therefore decided by the last payload that
touches each aircraft, and restoring a snapshot and applying the rest of the log
is applying the whole log.
-/

namespace AetherEngine.Shard

open AetherEngine.Common
open AetherEngine.Frames
open AetherEngine.Ranking
open AetherEngine.Registers
open AetherEngine.Tables

variable {real : Type} {vectors : VectorSide real}

/-- The wire codec of the log and of snapshots, which reads back what it
writes. -/
structure Prost (real : Type) where
  decodeCommand : Bytes → Option (ShardCommand real)
  encodeReplicate : ReplicateRequest real → Bytes
  decodeReplicate : Bytes → Option (ReplicateRequest real)
  decode_encode : ∀ request,
    decodeReplicate (encodeReplicate request) = some request

namespace ShardApp

/-- Apply one committed payload; answers how many documents it touched. -/
def apply (rules : TextRules) (prost : Prost real) (passes : Nat → Passes)
    (store : ShardStore real vectors) (payload : Bytes) :
    Option (ShardStore real vectors × Nat) :=
  match ((prost.decodeCommand payload).getD ⟨none⟩).kind with
  | some (.batch request) => do
      let after ← ShardStore.insertAll rules passes store request.documents
      some (after, request.documents.length)
  | some (.evict request) =>
      store.evictVshard rules passes request.vshard request.v
  | none => some (store, 0)

def snapshotBytes (prost : Prost real) (store : ShardStore real vectors) :
    Bytes :=
  prost.encodeReplicate ⟨store.documents, 0⟩

/-- Install a snapshot; answers how many documents it holds. -/
def restore (rules : TextRules) (prost : Prost real) (passes : Nat → Passes)
    (store : ShardStore real vectors) (bytes : Bytes) :
    Option (ShardStore real vectors × Nat) := do
  let decoded := (prost.decodeReplicate bytes).getD ⟨[], 0⟩
  let after ← store.replaceAll rules passes decoded.documents
  some (after, decoded.documents.length)

/-- Apply payloads in log order, each with passes of its own. -/
def applyAll (rules : TextRules) (prost : Prost real) :
    (Nat → Nat → Passes) → ShardStore real vectors → List Bytes →
      Option (ShardStore real vectors)
  | _, store, [] => some store
  | passes, store, payload :: rest => do
      let (store, _) ← apply rules prost (passes 0) store payload
      applyAll rules prost (fun number => passes (number + 1)) store rest

/-- What a member does to its store: apply a committed payload, or install a
snapshot. -/
inductive Step where
  | apply (passes : Nat → Passes) (payload : Bytes)
  | restore (passes : Nat → Passes) (bytes : Bytes)

def step (rules : TextRules) (prost : Prost real)
    (store : ShardStore real vectors) :
    Step → Option (ShardStore real vectors)
  | .apply passes payload =>
      (apply rules prost passes store payload).map Prod.fst
  | .restore passes bytes =>
      (restore rules prost passes store bytes).map Prod.fst

end ShardApp

/-! ## Effects on one aircraft -/

/-- The smallest changes a payload makes. -/
inductive DocumentChange (real : Type) where
  | upsert (doc : FlightDocument real)
  | evict (request : EvictVShard)

/-- What a change does to the document of an aircraft. -/
def DocumentChange.effectOn (aircraft : String) :
    DocumentChange real → Effect (FlightDocument real)
  | .upsert doc =>
      if doc.icao24 = aircraft then .write (some doc) else .keep
  | .evict request =>
      if request.v ≠ 0 ∧ vshardFor aircraft request.v = request.vshard then
        .write none
      else
        .keep

private theorem effectOn_not_fill (aircraft : String)
    (change : DocumentChange real) :
    ¬ (change.effectOn aircraft).IsFill := by
  cases change with
  | upsert doc =>
      by_cases same : doc.icao24 = aircraft
      · simp [DocumentChange.effectOn, same, Effect.IsFill]
      · simp [DocumentChange.effectOn, same, Effect.IsFill]
  | evict request =>
      by_cases matching :
        request.v ≠ 0 ∧ vshardFor aircraft request.v = request.vshard
      · rw [DocumentChange.effectOn, if_pos matching]
        exact id
      · rw [DocumentChange.effectOn, if_neg matching]
        exact id

/-- The changes of a payload, in order. -/
def changesOf (prost : Prost real) (payload : Bytes) :
    List (DocumentChange real) :=
  match ((prost.decodeCommand payload).getD ⟨none⟩).kind with
  | some (.batch request) => request.documents.map .upsert
  | some (.evict request) => [.evict request]
  | none => []

/-- The documents are those that changes leave of others. -/
def Settled (before : Std.ExtTreeMap String (FlightDocument real))
    (changes : List (DocumentChange real))
    (after : Std.ExtTreeMap String (FlightDocument real)) : Prop :=
  ∀ aircraft,
    after[aircraft]? =
      settle (DocumentChange.effectOn aircraft) before[aircraft]? changes

theorem Settled.append
    {before between after : Std.ExtTreeMap String (FlightDocument real)}
    {first second : List (DocumentChange real)}
    (start : Settled before first between)
    (finish : Settled between second after) :
    Settled before (first ++ second) after := by
  intro aircraft
  rw [settle_append, ← start aircraft, finish aircraft]

theorem Settled.unique
    {before after after' : Std.ExtTreeMap String (FlightDocument real)}
    {changes : List (DocumentChange real)}
    (settled : Settled before changes after)
    (settled' : Settled before changes after') : after = after' := by
  apply Std.ExtTreeMap.ext_getElem?
  intro aircraft
  rw [settled aircraft, settled' aircraft]

/-- Repeating changes changes nothing more. -/
theorem Settled.twice
    {before once twice : Std.ExtTreeMap String (FlightDocument real)}
    {changes : List (DocumentChange real)}
    (settled : Settled before changes once)
    (again : Settled once changes twice) : twice = once := by
  apply Std.ExtTreeMap.ext_getElem?
  intro aircraft
  rw [again aircraft, settled aircraft]
  exact settle_settle (fun change _ => effectOn_not_fill aircraft change) _

theorem settled_upserts (before : Std.ExtTreeMap String (FlightDocument real))
    (docs : List (FlightDocument real)) :
    Settled before (docs.map .upsert)
      (docs.foldl (fun found doc => found.insert doc.icao24 doc) before) := by
  induction docs generalizing before with
  | nil =>
      exact fun _ => rfl
  | cons doc rest inductionHypothesis =>
      intro aircraft
      rw [List.foldl_cons, List.map_cons, settle_cons,
        inductionHypothesis (before.insert doc.icao24 doc) aircraft,
        getElem?_insert]
      by_cases same : doc.icao24 = aircraft
      · simp [DocumentChange.effectOn, same, Effect.act]
      · simp [DocumentChange.effectOn, same, Effect.act]

/-! ## Payloads -/

section Payloads

variable {rules : TextRules} {store : ShardStore real vectors}
variable {surviving : Std.ExtTreeMap String (FlightDocument real)}

/-- A payload never panics and has the effect of its changes. -/
theorem holds_apply (prost : Prost real)
    (holds : store.Holds rules surviving) (passes : Nat → Passes)
    (payload : Bytes) :
    ∃ after count, ShardApp.apply rules prost passes store payload =
        some (after, count) ∧
      ∃ kept, after.Holds rules kept ∧
        Settled surviving (changesOf prost payload) kept := by
  cases kind : ((prost.decodeCommand payload).getD ⟨none⟩).kind with
  | none =>
      refine ⟨store, 0, by simp [ShardApp.apply, kind], surviving, holds, ?_⟩
      simp only [changesOf, kind]
      exact fun _ => rfl
  | some command =>
      cases command with
      | batch request =>
          obtain ⟨after, inserted, afterHolds⟩ :=
            holds.insertAll passes request.documents
          refine ⟨after, request.documents.length, ?_, _, afterHolds, ?_⟩
          · simp only [ShardApp.apply, kind, inserted]
            rfl
          · simp only [changesOf, kind]
            exact settled_upserts surviving request.documents
      | evict request =>
          obtain ⟨after, count, evicted, kept, afterHolds, keptIs⟩ :=
            holds.evictVshard passes request.vshard request.v
          refine ⟨after, count, ?_, kept, afterHolds, ?_⟩
          · simp only [ShardApp.apply, kind, evicted]
          · intro aircraft
            simp only [changesOf, kind, settle_cons, settle_nil,
              DocumentChange.effectOn]
            rw [keptIs aircraft]
            by_cases matching :
              request.v ≠ 0 ∧
                vshardFor aircraft request.v = request.vshard
            · rw [if_pos matching, if_pos matching]
              rfl
            · rw [if_neg matching, if_neg matching]
              rfl

theorem holds_applyAll (prost : Prost real)
    (holds : store.Holds rules surviving) (passes : Nat → Nat → Passes)
    (payloads : List Bytes) :
    ∃ after, ShardApp.applyAll rules prost passes store payloads =
        some after ∧
      ∃ kept, after.Holds rules kept ∧
        Settled surviving (payloads.flatMap (changesOf prost)) kept := by
  induction payloads generalizing passes store surviving with
  | nil =>
      exact ⟨store, rfl, surviving, holds, fun _ => rfl⟩
  | cons payload rest inductionHypothesis =>
      obtain ⟨next, count, applied, kept, nextHolds, settled⟩ :=
        holds_apply prost holds (passes 0) payload
      obtain ⟨after, finished, final, afterHolds, settledRest⟩ :=
        inductionHypothesis nextHolds (fun number => passes (number + 1))
      refine ⟨after, ?_, final, afterHolds, settled.append settledRest⟩
      rw [ShardApp.applyAll, applied]
      exact finished

/-- Whatever a member does, its store holds some map of documents. -/
theorem holds_step (prost : Prost real)
    (holds : store.Holds rules surviving) (step : ShardApp.Step) :
    ∃ after, ShardApp.step rules prost store step = some after ∧
      ∃ kept, after.Holds rules kept := by
  cases step with
  | apply passes payload =>
      obtain ⟨after, count, applied, kept, afterHolds, -⟩ :=
        holds_apply prost holds passes payload
      refine ⟨after, ?_, kept, afterHolds⟩
      rw [ShardApp.step, applied, Option.map_some]
  | restore passes bytes =>
      obtain ⟨after, replaced, afterHolds⟩ :=
        ShardStore.holds_replaceAll rules passes store
          ((prost.decodeReplicate bytes).getD ⟨[], 0⟩).documents
      refine ⟨after, ?_, _, afterHolds⟩
      simp only [ShardApp.step, ShardApp.restore, replaced]
      rfl

private theorem holds_history (prost : Prost real)
    (holds : store.Holds rules surviving) (history : List ShardApp.Step) :
    ∃ after, history.foldlM (ShardApp.step rules prost) store = some after ∧
      ∃ kept, after.Holds rules kept := by
  induction history generalizing store surviving with
  | nil =>
      exact ⟨store, rfl, surviving, holds⟩
  | cons step rest inductionHypothesis =>
      obtain ⟨next, stepped, kept, nextHolds⟩ := holds_step prost holds step
      obtain ⟨after, finished, final, afterHolds⟩ :=
        inductionHypothesis nextHolds
      refine ⟨after, ?_, final, afterHolds⟩
      rw [List.foldlM_cons, stepped]
      exact finished

/-- Restoring a dump brings back exactly the dumped documents. -/
theorem holds_restore (prost : Prost real)
    (holds : store.Holds rules surviving) (passes : Nat → Passes)
    (prior : ShardStore real vectors) :
    ∃ after count,
      ShardApp.restore rules prost passes prior
          (ShardApp.snapshotBytes prost store) = some (after, count) ∧
        after.Holds rules surviving := by
  obtain ⟨after, replaced, afterHolds⟩ :=
    ShardStore.holds_replaceAll rules passes prior store.documents
  have contents : store.contents = surviving := holds.contents_eq
  refine ⟨after, store.documents.length, ?_, contents ▸ afterHolds⟩
  rw [ShardApp.restore, ShardApp.snapshotBytes, prost.decode_encode,
    Option.getD_some, replaced]
  rfl

end Payloads

/-- Two stores hold the same documents and answer every keyword search
alike. -/
def SameAnswers [LinearOrder real] (rules : TextRules)
    (left right : ShardStore real vectors) : Prop :=
  left.contents = right.contents ∧
    ∀ arith order order' query limit,
      left.search rules arith order query limit =
        right.search rules arith order' query limit

theorem sameAnswers_of_holds [LinearOrder real] {rules : TextRules}
    {left right : ShardStore real vectors}
    {surviving : Std.ExtTreeMap String (FlightDocument real)}
    (leftHolds : left.Holds rules surviving)
    (rightHolds : right.Holds rules surviving) :
    SameAnswers rules left right := by
  refine ⟨leftHolds.contents_eq.trans rightHolds.contents_eq.symm, ?_⟩
  intro arith order order' query limit
  rw [ShardStore.search, ShardStore.search, leftHolds.search,
    rightHolds.search]

/-- A snapshot installed over any prior store, followed by the rest of the log,
gives what the whole log gives; and from every state a log applied twice gives
what it gives once. -/
theorem snapshot_tail_eq_replay [LinearOrder real] (rules : TextRules)
    (prost : Prost real) :
    (∀ (head tail : List Bytes) (prior : ShardStore real vectors)
        (headPasses fullPasses tailPasses : Nat → Nat → Passes)
        (restorePasses : Nat → Passes),
      ∃ atCut full restored count resumed,
        ShardApp.applyAll rules prost headPasses
            (ShardStore.new : ShardStore real vectors) head = some atCut ∧
        ShardApp.applyAll rules prost fullPasses
            (ShardStore.new : ShardStore real vectors) (head ++ tail) =
          some full ∧
        ShardApp.restore rules prost restorePasses prior
            (ShardApp.snapshotBytes prost atCut) = some (restored, count) ∧
        ShardApp.applyAll rules prost tailPasses restored tail =
          some resumed ∧
        SameAnswers rules resumed full) ∧
    (∀ (history : List ShardApp.Step) (payloads : List Bytes)
        (firstPasses secondPasses : Nat → Nat → Passes),
      ∃ state once twice,
        history.foldlM (ShardApp.step rules prost)
            (ShardStore.new : ShardStore real vectors) = some state ∧
        ShardApp.applyAll rules prost firstPasses state payloads =
          some once ∧
        ShardApp.applyAll rules prost secondPasses once payloads =
          some twice ∧
        SameAnswers rules twice once) := by
  constructor
  · intro head tail prior headPasses fullPasses tailPasses restorePasses
    have fresh : ShardStore.Holds rules
        (ShardStore.new : ShardStore real vectors) ∅ :=
      ShardStore.holds_new rules
    obtain ⟨atCut, cutRun, cutMap, cutHolds, cutSettled⟩ :=
      holds_applyAll prost fresh headPasses head
    obtain ⟨full, fullRun, fullMap, fullHolds, fullSettled⟩ :=
      holds_applyAll prost fresh fullPasses (head ++ tail)
    obtain ⟨restored, count, restoreRun, restoredHolds⟩ :=
      holds_restore prost cutHolds restorePasses prior
    obtain ⟨resumed, resumedRun, resumedMap, resumedHolds, tailSettled⟩ :=
      holds_applyAll prost restoredHolds tailPasses tail
    refine ⟨atCut, full, restored, count, resumed, cutRun, fullRun,
      restoreRun, resumedRun, ?_⟩
    have sameMap : resumedMap = fullMap := by
      rw [List.flatMap_append] at fullSettled
      exact (cutSettled.append tailSettled).unique fullSettled
    exact sameAnswers_of_holds (sameMap ▸ resumedHolds) fullHolds
  · intro history payloads firstPasses secondPasses
    obtain ⟨state, historyRun, stateMap, stateHolds⟩ :=
      holds_history prost
        (ShardStore.holds_new rules :
          ShardStore.Holds rules (ShardStore.new : ShardStore real vectors) ∅)
        history
    obtain ⟨once, onceRun, onceMap, onceHolds, settled⟩ :=
      holds_applyAll prost stateHolds firstPasses payloads
    obtain ⟨twice, twiceRun, twiceMap, twiceHolds, again⟩ :=
      holds_applyAll prost onceHolds secondPasses payloads
    refine ⟨state, once, twice, historyRun, onceRun, twiceRun, ?_⟩
    exact sameAnswers_of_holds (settled.twice again ▸ twiceHolds) onceHolds

end AetherEngine.Shard
