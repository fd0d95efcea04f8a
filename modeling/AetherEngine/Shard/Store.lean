import AetherEngine.Common.Hashing
import AetherEngine.Shard.IndexSearch

/-!
# The shard's document store

One keyword index and one vector index, updated together.  The keyword index is
the store's document map; the vector side is a parameter, since nothing of it
flows back into the documents or the keyword search.
-/

namespace AetherEngine.Shard

open AetherEngine.Common
open AetherEngine.Ranking
open AetherEngine.Tables

variable {real : Type}

/-- A vector index as the store uses it. -/
structure VectorSide (real : Type) where
  State : Type
  new : State
  /-- A fresh index over the same embedder. -/
  restart : State → State
  insert : State → FlightDocument real → State
  remove : State → String → State × Bool

structure ShardStore (real : Type) (vectors : VectorSide real) where
  keyword : InvertedIndex real
  vector : vectors.State

variable {vectors : VectorSide real}

namespace ShardStore

def new : ShardStore real vectors where
  keyword := .new
  vector := vectors.new

/-- All stored documents: the shard's full state, for snapshotting. -/
def documents (store : ShardStore real vectors) : List (FlightDocument real) :=
  store.keyword.documents

def len (store : ShardStore real vectors) : Nat :=
  store.keyword.len

/-- Index one document in both views. -/
def insert (rules : TextRules) (outgoing incoming : Passes)
    (store : ShardStore real vectors) (doc : FlightDocument real) :
    Option (ShardStore real vectors) := do
  let keyword ← store.keyword.insert rules outgoing incoming doc
  some { keyword := keyword, vector := vectors.insert store.vector doc }

/-- Remove one aircraft from both views; tells whether it was present. -/
def remove (rules : TextRules) (outgoing : Passes)
    (store : ShardStore real vectors) (icao24 : String) :
    Option (ShardStore real vectors × Bool) := do
  let (keyword, present) ← store.keyword.remove rules outgoing icao24
  let (vector, _) := vectors.remove store.vector icao24
  some ({ keyword := keyword, vector := vector }, present)

/-- Insert documents in turn, each with passes of its own. -/
def insertAll (rules : TextRules) :
    (Nat → Passes) → ShardStore real vectors → List (FlightDocument real) →
      Option (ShardStore real vectors)
  | _, store, [] => some store
  | passes, store, doc :: rest => do
      let store ← store.insert rules (passes 0) (passes 1) doc
      insertAll rules (fun number => passes (number + 2)) store rest

/-- Remove aircraft in turn, each with passes of its own. -/
def removeAll (rules : TextRules) :
    (Nat → Passes) → ShardStore real vectors → List String →
      Option (ShardStore real vectors)
  | _, store, [] => some store
  | passes, store, icao24 :: rest => do
      let (store, _) ← store.remove rules (passes 0) icao24
      removeAll rules (fun number => passes (number + 1)) store rest

/-- Replace the entire contents: fresh indexes, refilled. -/
def replaceAll (rules : TextRules) (passes : Nat → Passes)
    (store : ShardStore real vectors) (docs : List (FlightDocument real)) :
    Option (ShardStore real vectors) :=
  insertAll rules passes
    { keyword := .new, vector := vectors.restart store.vector } docs

/-- The aircraft an eviction removes. -/
def doomed (store : ShardStore real vectors) (vshard v : UInt32) :
    List String :=
  (store.documents.filter
    (fun doc => vshardFor doc.icao24 v = vshard)).map FlightDocument.icao24

/-- Evict every document of a virtual shard; tells how many were removed. -/
def evictVshard (rules : TextRules) (passes : Nat → Passes)
    (store : ShardStore real vectors) (vshard v : UInt32) :
    Option (ShardStore real vectors × Nat) :=
  if v = 0 then
    some (store, 0)
  else do
    let after ← removeAll rules passes store (store.doomed vshard v)
    some (after, (store.doomed vshard v).length)

/-- Keyword search. -/
def search [LinearOrder real] (rules : TextRules) (arith : Arithmetic real)
    (order : IterationOrder (Nat × real)) (store : ShardStore real vectors)
    (query : String) (limit : Nat) : Option (SearchResults real) :=
  store.keyword.search rules arith order query limit

/-- The map from aircraft to stored document. -/
def contents (store : ShardStore real vectors) :
    Std.ExtTreeMap String (FlightDocument real) :=
  store.documents.foldl (fun found doc => found.insert doc.icao24 doc) ∅

/-- The store holds exactly the surviving documents. -/
def Holds (rules : TextRules) (store : ShardStore real vectors)
    (surviving : Std.ExtTreeMap String (FlightDocument real)) : Prop :=
  store.keyword.Represents rules surviving

section Operations

variable {rules : TextRules} {store : ShardStore real vectors}
variable {surviving : Std.ExtTreeMap String (FlightDocument real)}

theorem holds_new (rules : TextRules) :
    (new : ShardStore real vectors).Holds rules ∅ :=
  InvertedIndex.represents_new rules

theorem Holds.insert (holds : store.Holds rules surviving)
    (outgoing incoming : Passes) (doc : FlightDocument real) :
    ∃ after, store.insert rules outgoing incoming doc = some after ∧
      after.Holds rules (surviving.insert doc.icao24 doc) := by
  obtain ⟨keyword, inserted, represents⟩ :=
    InvertedIndex.Represents.insert holds outgoing incoming doc
  refine ⟨⟨keyword, vectors.insert store.vector doc⟩, ?_, represents⟩
  rw [ShardStore.insert, inserted]
  rfl

theorem Holds.remove (holds : store.Holds rules surviving)
    (outgoing : Passes) (icao24 : String) :
    ∃ after,
      store.remove rules outgoing icao24 =
          some (after, surviving[icao24]?.isSome) ∧
        after.Holds rules (surviving.erase icao24) := by
  obtain ⟨keyword, removed, represents⟩ :=
    InvertedIndex.Represents.remove holds outgoing icao24
  refine ⟨⟨keyword, (vectors.remove store.vector icao24).1⟩, ?_, represents⟩
  rw [ShardStore.remove, removed]
  rfl

theorem Holds.insertAll (holds : store.Holds rules surviving)
    (passes : Nat → Passes) (docs : List (FlightDocument real)) :
    ∃ after, ShardStore.insertAll rules passes store docs = some after ∧
      after.Holds rules
        (docs.foldl (fun found doc => found.insert doc.icao24 doc)
          surviving) := by
  induction docs generalizing passes store surviving with
  | nil =>
      exact ⟨store, rfl, holds⟩
  | cons doc rest inductionHypothesis =>
      obtain ⟨next, inserted, nextHolds⟩ :=
        holds.insert (passes 0) (passes 1) doc
      obtain ⟨after, finished, afterHolds⟩ :=
        inductionHypothesis nextHolds (fun number => passes (number + 2))
      refine ⟨after, ?_, afterHolds⟩
      rw [ShardStore.insertAll, inserted]
      exact finished

theorem Holds.removeAll (holds : store.Holds rules surviving)
    (passes : Nat → Passes) (aircraft : List String) :
    ∃ after, ShardStore.removeAll rules passes store aircraft = some after ∧
      after.Holds rules
        (aircraft.foldl (fun found icao24 => found.erase icao24)
          surviving) := by
  induction aircraft generalizing passes store surviving with
  | nil =>
      exact ⟨store, rfl, holds⟩
  | cons icao24 rest inductionHypothesis =>
      obtain ⟨next, removed, nextHolds⟩ := holds.remove (passes 0) icao24
      obtain ⟨after, finished, afterHolds⟩ :=
        inductionHypothesis nextHolds (fun number => passes (number + 1))
      refine ⟨after, ?_, afterHolds⟩
      rw [ShardStore.removeAll, removed]
      exact finished

/-- Refilling forgets what the store held. -/
theorem holds_replaceAll (rules : TextRules) (passes : Nat → Passes)
    (store : ShardStore real vectors) (docs : List (FlightDocument real)) :
    ∃ after, store.replaceAll rules passes docs = some after ∧
      after.Holds rules
        (docs.foldl (fun found doc => found.insert doc.icao24 doc) ∅) := by
  have fresh :
      ShardStore.Holds rules
        (⟨.new, vectors.restart store.vector⟩ : ShardStore real vectors) ∅ :=
    InvertedIndex.represents_new rules
  exact fresh.insertAll passes docs

theorem Holds.mem_documents (holds : store.Holds rules surviving)
    {doc : FlightDocument real} :
    doc ∈ store.documents ↔ surviving[doc.icao24]? = some doc := by
  rw [documents, InvertedIndex.mem_documents, holds.slots.stored]
  simp

/-- Inserting documents of distinct aircraft collects exactly them. -/
theorem foldl_insert_getElem? {docs : List (FlightDocument real)}
    (once : (docs.map FlightDocument.icao24).Nodup)
    (aircraft : String) (doc : FlightDocument real) :
    (docs.foldl (fun found doc => found.insert doc.icao24 doc)
        (∅ : Std.ExtTreeMap String (FlightDocument real)))[aircraft]? =
        some doc ↔
      doc ∈ docs ∧ doc.icao24 = aircraft := by
  induction docs using List.reverseRecOn with
  | nil =>
      simp
  | append_singleton earlier last inductionHypothesis =>
      rw [List.map_append, List.nodup_append] at once
      rw [List.foldl_append, List.foldl_cons, List.foldl_nil,
        getElem?_insert]
      by_cases same : last.icao24 = aircraft
      · rw [if_pos same, Option.some.injEq]
        constructor
        · intro equality
          subst equality
          exact ⟨by simp, same⟩
        · intro membership
          rcases membership with ⟨member, docIs⟩
          rcases List.mem_append.mp member with old | new
          · exact absurd (docIs.trans same.symm)
              (once.2.2 doc.icao24 (List.mem_map_of_mem old) last.icao24
                (by simp))
          · exact (List.mem_singleton.mp new).symm
      · rw [if_neg same, inductionHypothesis once.1]
        constructor
        · intro membership
          rcases membership with ⟨member, docIs⟩
          exact ⟨by simp [member], docIs⟩
        · intro membership
          rcases membership with ⟨member, docIs⟩
          rcases List.mem_append.mp member with old | new
          · exact ⟨old, docIs⟩
          · rw [List.mem_singleton.mp new] at docIs
            exact absurd docIs same

/-- The stored documents determine the map that survives. -/
theorem Holds.contents_eq (holds : store.Holds rules surviving) :
    store.contents = surviving := by
  apply Std.ExtTreeMap.ext_getElem?
  intro aircraft
  apply Option.ext
  intro doc
  have once : (store.documents.map FlightDocument.icao24).Nodup :=
    InvertedIndex.Represents.documents_once holds
  rw [contents, foldl_insert_getElem? once, holds.mem_documents]
  constructor
  · intro survival
    rcases survival with ⟨survives, rfl⟩
    exact survives
  · intro survives
    have docIs := ((holds.slots.stored _ _).mp survives).1
    exact ⟨docIs ▸ survives, docIs⟩

/-- An eviction removes exactly the documents of the virtual shard. -/
theorem Holds.evictVshard (holds : store.Holds rules surviving)
    (passes : Nat → Passes) (vshard v : UInt32) :
    ∃ after count, store.evictVshard rules passes vshard v = some (after, count) ∧
      ∃ kept, after.Holds rules kept ∧
        ∀ aircraft, kept[aircraft]? =
          if v ≠ 0 ∧ vshardFor aircraft v = vshard then none
          else surviving[aircraft]? := by
  by_cases degenerate : v = 0
  · refine ⟨store, 0, by simp [ShardStore.evictVshard, degenerate], surviving,
      holds, ?_⟩
    simp [degenerate]
  · obtain ⟨after, removed, afterHolds⟩ :=
      holds.removeAll passes (store.doomed vshard v)
    refine ⟨after, (store.doomed vshard v).length, ?_, _, afterHolds, ?_⟩
    · rw [ShardStore.evictVshard, if_neg degenerate, removed]
      rfl
    · intro aircraft
      have erased := Tables.getElem?_foldl_erase id (store.doomed vshard v)
        surviving aircraft
      simp only [id, exists_eq_right] at erased
      rw [erased]
      by_cases matching : vshardFor aircraft v = vshard
      · rw [if_pos (show v ≠ 0 ∧ _ from ⟨degenerate, matching⟩)]
        by_cases present : aircraft ∈ store.doomed vshard v
        · rw [if_pos present]
        · rw [if_neg present]
          apply Option.eq_none_iff_forall_ne_some.mpr
          intro doc survives
          have docIs := ((holds.slots.stored _ _).mp survives).1
          apply present
          rw [doomed, List.mem_map]
          refine ⟨doc, ?_, docIs⟩
          rw [List.mem_filter, holds.mem_documents, docIs, decide_eq_true_eq]
          exact ⟨survives, matching⟩
      · have absent : aircraft ∉ store.doomed vshard v := by
          intro present
          rw [doomed, List.mem_map] at present
          obtain ⟨doc, member, docIs⟩ := present
          rw [List.mem_filter, decide_eq_true_eq, docIs] at member
          exact matching member.2
        rw [if_neg absent, if_neg (fun both => matching both.2)]

/-- The vector view takes in the same documents. -/
theorem vector_insertAll {after : ShardStore real vectors}
    (passes : Nat → Passes) (docs : List (FlightDocument real))
    (inserted : ShardStore.insertAll rules passes store docs = some after) :
    after.vector = docs.foldl vectors.insert store.vector := by
  induction docs generalizing passes store with
  | nil =>
      cases inserted
      rfl
  | cons doc rest inductionHypothesis =>
      rw [ShardStore.insertAll, Option.bind_eq_bind,
        Option.bind_eq_some_iff] at inserted
      obtain ⟨next, first, finished⟩ := inserted
      rw [ShardStore.insert, Option.bind_eq_bind,
        Option.bind_eq_some_iff] at first
      obtain ⟨keyword, -, nextIs⟩ := first
      cases nextIs
      exact inductionHypothesis _ finished

/-- The vector view drops the same aircraft. -/
theorem vector_removeAll {after : ShardStore real vectors}
    (passes : Nat → Passes) (aircraft : List String)
    (removed : ShardStore.removeAll rules passes store aircraft =
      some after) :
    after.vector = aircraft.foldl
      (fun state icao24 => (vectors.remove state icao24).1) store.vector := by
  induction aircraft generalizing passes store with
  | nil =>
      cases removed
      rfl
  | cons icao24 rest inductionHypothesis =>
      rw [ShardStore.removeAll, Option.bind_eq_bind,
        Option.bind_eq_some_iff] at removed
      obtain ⟨⟨next, present⟩, first, finished⟩ := removed
      rw [ShardStore.remove, Option.bind_eq_bind,
        Option.bind_eq_some_iff] at first
      obtain ⟨keyword, -, nextIs⟩ := first
      cases nextIs
      exact inductionHypothesis _ finished

end Operations

end ShardStore

/-! ## Stores in use -/

/-- A store that holds some map of documents, as every store does that
insertions, removals and evictions reach. -/
structure HeldStore (rules : TextRules) (vectors : VectorSide real) where
  store : ShardStore real vectors
  holds : ∃ surviving, store.Holds rules surviving

namespace HeldStore

variable {rules : TextRules}

def contents (held : HeldStore rules vectors) :
    Std.ExtTreeMap String (FlightDocument real) :=
  held.store.contents

theorem holds_contents (held : HeldStore rules vectors) :
    held.store.Holds rules held.contents := by
  obtain ⟨surviving, holds⟩ := held.holds
  rw [contents, holds.contents_eq]
  exact holds

def new : HeldStore rules vectors where
  store := .new
  holds := ⟨∅, ShardStore.holds_new rules⟩

/-- Index documents; the store never panics. -/
def insertAll (passes : Nat → Passes) (docs : List (FlightDocument real))
    (held : HeldStore rules vectors) : HeldStore rules vectors where
  store := (ShardStore.insertAll rules passes held.store docs).get (by
    obtain ⟨after, inserted, -⟩ := held.holds_contents.insertAll passes docs
    rw [inserted, Option.isSome_some])
  holds := by
    obtain ⟨after, inserted, holds⟩ :=
      held.holds_contents.insertAll passes docs
    simp only [inserted, Option.get_some]
    exact ⟨_, holds⟩

/-- Evict a virtual shard; the store never panics. -/
def evictVshard (passes : Nat → Passes) (vshard v : UInt32)
    (held : HeldStore rules vectors) : HeldStore rules vectors where
  store := ((held.store.evictVshard rules passes vshard v).get (by
    obtain ⟨after, count, evicted, -⟩ :=
      held.holds_contents.evictVshard passes vshard v
    rw [evicted, Option.isSome_some])).1
  holds := by
    obtain ⟨after, count, evicted, kept, holds, -⟩ :=
      held.holds_contents.evictVshard passes vshard v
    simp only [evicted, Option.get_some]
    exact ⟨kept, holds⟩

theorem contents_insertAll (passes : Nat → Passes)
    (docs : List (FlightDocument real)) (held : HeldStore rules vectors) :
    (held.insertAll passes docs).contents =
      docs.foldl (fun found doc => found.insert doc.icao24 doc)
        held.contents := by
  obtain ⟨after, inserted, holds⟩ :=
    held.holds_contents.insertAll passes docs
  simp only [contents, insertAll, inserted, Option.get_some]
  exact holds.contents_eq

/-- An eviction removes exactly the documents of the virtual shard. -/
theorem getElem?_contents_evictVshard (passes : Nat → Passes)
    (vshard v : UInt32) (held : HeldStore rules vectors)
    (aircraft : String) :
    (held.evictVshard passes vshard v).contents[aircraft]? =
      if v ≠ 0 ∧ vshardFor aircraft v = vshard then none
      else held.contents[aircraft]? := by
  obtain ⟨after, count, evicted, kept, holds, keptIs⟩ :=
    held.holds_contents.evictVshard passes vshard v
  rw [← keptIs aircraft]
  simp only [contents, evictVshard, evicted, Option.get_some]
  rw [holds.contents_eq]

theorem icao24_of_getElem?_contents (held : HeldStore rules vectors)
    {aircraft : String} {doc : FlightDocument real}
    (found : held.contents[aircraft]? = some doc) :
    doc.icao24 = aircraft :=
  ((held.holds_contents.slots.stored _ _).mp found).1

theorem mem_documents (held : HeldStore rules vectors)
    {doc : FlightDocument real} :
    doc ∈ held.store.documents ↔ held.contents[doc.icao24]? = some doc :=
  held.holds_contents.mem_documents

end HeldStore

/-! ## The two views -/

/-- What a vector index represents whose insertions and removals do what they
say. -/
structure VectorMirror (vectors : VectorSide real) where
  represents :
    vectors.State → Std.ExtTreeMap String (FlightDocument real) → Prop
  insert : ∀ {state docs}, represents state docs → ∀ doc,
    represents (vectors.insert state doc) (docs.insert doc.icao24 doc)
  remove : ∀ {state docs}, represents state docs → ∀ icao24,
    represents (vectors.remove state icao24).1 (docs.erase icao24)

namespace VectorMirror

variable {mirror : VectorMirror vectors} {state : vectors.State}
variable {found : Std.ExtTreeMap String (FlightDocument real)}

theorem foldl_insert (begins : mirror.represents state found)
    (docs : List (FlightDocument real)) :
    mirror.represents (docs.foldl vectors.insert state)
      (docs.foldl (fun found doc => found.insert doc.icao24 doc) found) := by
  induction docs generalizing state found with
  | nil =>
      exact begins
  | cons doc rest inductionHypothesis =>
      exact inductionHypothesis (mirror.insert begins doc)

theorem foldl_remove (begins : mirror.represents state found)
    (aircraft : List String) :
    mirror.represents
      (aircraft.foldl (fun state icao24 => (vectors.remove state icao24).1)
        state)
      (aircraft.foldl (fun found icao24 => found.erase icao24) found) := by
  induction aircraft generalizing state found with
  | nil =>
      exact begins
  | cons icao24 rest inductionHypothesis =>
      exact inductionHypothesis (mirror.remove begins icao24)

end VectorMirror

namespace HeldStore

variable {rules : TextRules}

/-- The vector view has the documents of the keyword view. -/
def Mirrored (mirror : VectorMirror vectors)
    (held : HeldStore rules vectors) : Prop :=
  mirror.represents held.store.vector held.contents

variable {mirror : VectorMirror vectors} {held : HeldStore rules vectors}

theorem Mirrored.insertAll (mirrored : held.Mirrored mirror)
    (passes : Nat → Passes) (docs : List (FlightDocument real)) :
    (held.insertAll passes docs).Mirrored mirror := by
  obtain ⟨after, inserted, -⟩ := held.holds_contents.insertAll passes docs
  rw [Mirrored, contents_insertAll]
  simp only [HeldStore.insertAll, inserted, Option.get_some]
  rw [ShardStore.vector_insertAll passes docs inserted]
  exact VectorMirror.foldl_insert mirrored docs

theorem Mirrored.evictVshard (mirrored : held.Mirrored mirror)
    (passes : Nat → Passes) (vshard v : UInt32) :
    (held.evictVshard passes vshard v).Mirrored mirror := by
  by_cases degenerate : v = 0
  · simp only [Mirrored, contents, HeldStore.evictVshard,
      ShardStore.evictVshard, if_pos degenerate, Option.get_some]
    exact mirrored
  · obtain ⟨after, removed, holds⟩ := held.holds_contents.removeAll passes
      (held.store.doomed vshard v)
    have evicted : held.store.evictVshard rules passes vshard v =
        some (after, (held.store.doomed vshard v).length) := by
      rw [ShardStore.evictVshard, if_neg degenerate, removed]
      rfl
    simp only [Mirrored, contents, HeldStore.evictVshard, evicted,
      Option.get_some]
    rw [holds.contents_eq, ShardStore.vector_removeAll passes _ removed]
    exact VectorMirror.foldl_remove mirrored _

end HeldStore

end AetherEngine.Shard
