import AetherEngine.Foundations.Runs
import AetherEngine.Shard.Store

/-!
# Ingestion and eviction under virtual-shard placement

The leader of a group keeps a local view of the virtual-shard table.  Ingestion
accepts the documents the view gives to the group; a watcher evicts the virtual
shards the group still holds but the view gives away.

The watcher decides on a copy of the table and then writes its evictions one by
one.  When the view gives a virtual shard back in between, the eviction deletes
what ingestion has accepted since.
-/

namespace AetherEngine.Shard

open AetherEngine.Common
open AetherEngine.Ranking
open AetherEngine.Runs
open AetherEngine.Tables

variable {real : Type}

/-! ## Ownership -/

/-- What a node keeps from the stream. -/
inductive Ownership where
  | all
  | modulo (index count : UInt32)
  /-- Virtual-shard placement, under the view of the moment. -/
  | mapped (group : UInt32) (assignments : List UInt32)
deriving DecidableEq, Repr

/-- Without a table a mapped node owns nothing. -/
def Ownership.owns (icao24 : String) : Ownership → Bool
  | all => true
  | modulo index count => shardFor icao24 count = index
  | mapped group assignments =>
      let v := assignments.length.toUInt32
      if v = 0 then
        false
      else
        assignments[(vshardFor icao24 v).toNat]? = some group

/-! ## The eviction watcher -/

/-- The virtual shards that documents fall into. -/
def heldVshards (v : UInt32) (docs : List (FlightDocument real)) :
    Std.ExtTreeSet UInt32 :=
  .ofList (docs.map (fun doc => vshardFor doc.icao24 v))

/-- The evictions of one tick, decided on a copy of the table: every virtual
shard held and not assigned to the group, in ascending order. -/
def evictions (group : UInt32) (table : List UInt32)
    (docs : List (FlightDocument real)) : List EvictVShard :=
  let v := table.length.toUInt32
  if v = 0 then
    []
  else
    ((heldVshards v docs).toList.filter
      (fun vshard => table[vshard.toNat]? ≠ some group)).map
        (fun vshard => { vshard := vshard, v := v })

/-! ## The group's leader -/

/-- The view of the table, the store the group's log has produced, and the
evictions of the current tick that are still to be written. -/
structure GroupLeader (rules : TextRules) (vectors : VectorSide real) where
  view : List UInt32
  store : HeldStore rules vectors
  sweep : List EvictVShard

inductive LeaderStep (real : Type) where
  /-- The view is fetched anew. -/
  | replaceView (table : List UInt32)
  /-- A fetched batch is filtered and committed. -/
  | ingest (passes : Nat → Passes) (batch : List (FlightDocument real))
  /-- The watcher copies the table and decides what to evict. -/
  | tick
  /-- The watcher's next eviction is committed. -/
  | evictNext (passes : Nat → Passes)
  /-- An eviction is refused; the watcher gives the tick up. -/
  | standDown

namespace GroupLeader

variable {rules : TextRules} {vectors : VectorSide real}

/-- Does the group own the aircraft, by the view? -/
def owns (group : UInt32) (leader : GroupLeader rules vectors)
    (icao24 : String) : Bool :=
  (Ownership.mapped group leader.view).owns icao24

def step (group : UInt32) (leader : GroupLeader rules vectors) :
    LeaderStep real → GroupLeader rules vectors
  | .replaceView table => { leader with view := table }
  | .ingest passes batch =>
      { leader with
        store := leader.store.insertAll passes
          (batch.filter (fun doc => leader.owns group doc.icao24)) }
  | .tick =>
      -- one tick at a time
      if leader.sweep.isEmpty then
        { leader with
          sweep := evictions group leader.view leader.store.store.documents }
      else
        leader
  | .evictNext passes =>
      match leader.sweep with
      | [] => leader
      | request :: rest =>
          { leader with
            store := leader.store.evictVshard passes request.vshard request.v
            sweep := rest }
  | .standDown => { leader with sweep := [] }

/-! ## What ingestion has accepted -/

/-- The leader's store has a document of the aircraft. -/
def Stores (leader : GroupLeader rules vectors) (icao24 : String) : Prop :=
  (leader.store.contents[icao24]?).isSome = true

/-- A document that ingestion accepts stays, as long as every view from then on
gives its virtual shard to the group. -/
def KeepsAccepted (group : UInt32) (start : GroupLeader rules vectors)
    (run : List (LeaderStep real)) : Prop :=
  ∀ before passes batch later rest,
    run = before ++ (.ingest passes batch :: later) ++ rest →
    ∀ doc ∈ batch,
      Throughout (step group)
          (fun leader => leader.owns group doc.icao24 = true)
          (final (step group) start before) (.ingest passes batch :: later) →
        (final (step group) start
          (before ++ .ingest passes batch :: later)).Stores doc.icao24

/-- The view of the moment gives no aircraft of the virtual shard about to be
evicted to the group. -/
def EvictsUnowned (group : UInt32) (leader : GroupLeader rules vectors) :
    LeaderStep real → Prop
  | .evictNext _ =>
      ∀ request ∈ leader.sweep.head?, ∀ aircraft,
        request.v ≠ 0 → vshardFor aircraft request.v = request.vshard →
          leader.owns group aircraft = false
  | _ => True

private theorem isSome_foldl_insert {docs : List (FlightDocument real)}
    {found : Std.ExtTreeMap String (FlightDocument real)} {key : String} :
    ((docs.foldl (fun found doc => found.insert doc.icao24 doc)
        found)[key]?).isSome = true ↔
      (found[key]?).isSome = true ∨ ∃ doc ∈ docs, doc.icao24 = key := by
  induction docs generalizing found with
  | nil =>
      simp
  | cons doc rest inductionHypothesis =>
      rw [List.foldl_cons, inductionHypothesis, getElem?_insert]
      by_cases same : doc.icao24 = key
      · simp [same]
      · simp [same]

private theorem stores_ingest_iff (group : UInt32)
    (leader : GroupLeader rules vectors) (passes : Nat → Passes)
    (batch : List (FlightDocument real)) (aircraft : String) :
    (leader.step group (.ingest passes batch)).Stores aircraft ↔
      leader.Stores aircraft ∨
        ∃ doc ∈ batch, leader.owns group doc.icao24 = true ∧
          doc.icao24 = aircraft := by
  simp only [Stores, step, HeldStore.contents_insertAll, isSome_foldl_insert,
    List.mem_filter, and_assoc]

/-- A step changes the store by a batch filtered or by the eviction at the head
of the sweep, if at all. -/
theorem store_step_cases (group : UInt32)
    (leader : GroupLeader rules vectors) (next : LeaderStep real) :
    (leader.step group next).store = leader.store ∨
      (∃ passes batch, next = .ingest passes batch ∧
        (leader.step group next).store = leader.store.insertAll passes
          (batch.filter (fun doc => leader.owns group doc.icao24))) ∨
      ∃ passes, next = .evictNext passes ∧
        ∃ request ∈ leader.sweep.head?,
          (leader.step group next).store =
            leader.store.evictVshard passes request.vshard request.v := by
  cases next with
  | replaceView table =>
      exact Or.inl rfl
  | ingest passes batch =>
      exact Or.inr (Or.inl ⟨passes, batch, rfl, rfl⟩)
  | tick =>
      left
      by_cases idle : leader.sweep.isEmpty = true
      · simp only [GroupLeader.step, if_pos idle]
      · simp only [GroupLeader.step, if_neg idle]
  | evictNext passes =>
      cases sweep : leader.sweep with
      | nil =>
          left
          simp only [GroupLeader.step, sweep]
      | cons request rest =>
          refine Or.inr (Or.inr ⟨passes, rfl, request, rfl, ?_⟩)
          simp only [GroupLeader.step, sweep]
  | standDown =>
      exact Or.inl rfl

/-- A stored document that the view gives to the group stays through a step. -/
theorem Stores.step {group : UInt32} {leader : GroupLeader rules vectors}
    {aircraft : String} {next : LeaderStep real}
    (stored : leader.Stores aircraft)
    (owned : leader.owns group aircraft = true)
    (unowned : leader.EvictsUnowned group next) :
    (leader.step group next).Stores aircraft := by
  rcases store_step_cases group leader next with
    same | ⟨passes, batch, rfl, -⟩ | ⟨passes, rfl, request, isNext, evicted⟩
  · rw [Stores, same]
    exact stored
  · exact (stores_ingest_iff group leader passes batch aircraft).mpr
      (Or.inl stored)
  · have outside :
        ¬ (request.v ≠ 0 ∧
          vshardFor aircraft request.v = request.vshard) := by
      intro counting
      rcases counting with ⟨counted, inside⟩
      rw [unowned request isNext aircraft counted inside] at owned
      cases owned
    rw [Stores, evicted, HeldStore.getElem?_contents_evictVshard,
      if_neg outside]
    exact stored

/-- In a run whose evictions all concern virtual shards that the view of the
moment gives away, no eviction deletes what ingestion has accepted. -/
theorem keepsAccepted_of_evictsUnowned (group : UInt32)
    (start : GroupLeader rules vectors) (run : List (LeaderStep real))
    (unowned : EachStep (GroupLeader.step group) (EvictsUnowned group) start
      run) :
    KeepsAccepted group start run := by
  intro before passes batch later rest equality doc member owned
  subst equality
  rw [eachStep_append, eachStep_append] at unowned
  obtain ⟨⟨-, -, safe⟩, -⟩ := unowned
  rw [final_append, final_cons]
  have accepted :
      ((final (GroupLeader.step group) start before).step group
        (.ingest passes batch)).Stores doc.icao24 := by
    rw [stores_ingest_iff]
    exact Or.inr ⟨doc, member, owned.1, rfl⟩
  have kept := safe.and (eachStep_of_throughout owned.2)
  have preserved : ∀ (current : GroupLeader rules vectors) next,
      current.Stores doc.icao24 →
      current.EvictsUnowned group next ∧
          current.owns group doc.icao24 = true →
        (current.step group next).Stores doc.icao24 := by
    intro current next stored guarded
    rcases guarded with ⟨safe, owned⟩
    exact stored.step owned safe
  exact final_of_eachStep preserved accepted kept

private theorem view_evictNext (group : UInt32)
    (leader : GroupLeader rules vectors)
    (passes : Nat → Passes) :
    (leader.step group (.evictNext passes)).view = leader.view := by
  cases sweep : leader.sweep with
  | nil => simp only [step, sweep]
  | cons request rest => simp only [step, sweep]

/-- An eviction that the view of the moment does not bear out deletes what
ingestion accepts just before it. -/
theorem not_keepsAccepted_of_stale {group : UInt32}
    {leader : GroupLeader rules vectors} {passes : Nat → Passes}
    (stale : ¬ leader.EvictsUnowned group (.evictNext passes)) :
    ∃ aircraft, ∀ (doc : FlightDocument real), doc.icao24 = aircraft →
      ¬ KeepsAccepted group leader
        [.ingest passes [doc], .evictNext passes] := by
  simp only [EvictsUnowned, not_forall, Bool.not_eq_false] at stale
  obtain ⟨request, next, aircraft, counted, inside, owned⟩ := stale
  refine ⟨aircraft, ?_⟩
  intro doc equality keeps
  subst equality
  have stored := keeps [] passes [doc] [.evictNext passes] [] rfl doc
    List.mem_cons_self ⟨owned, owned, ?_⟩
  · cases sweep : leader.sweep with
    | nil =>
        simp [sweep] at next
    | cons first rest =>
        rw [sweep, List.head?_cons, Option.mem_some_iff] at next
        subst next
        simp only [List.nil_append, final_cons, final_nil, GroupLeader.step,
          sweep, Stores, HeldStore.getElem?_contents_evictVshard] at stored
        rw [if_pos (show _ ∧ _ from ⟨counted, inside⟩)] at stored
        cases stored
  · rw [Throughout, owns, view_evictNext]
    exact owned

/-! ## A virtual shard leaves and comes back -/

namespace Roundtrip

def asciiText : TextRules where
  isAlphanumeric := Char.isAlphanum
  toLowercase text := String.ofList (text.toList.map Char.toLower)

def noVectors : VectorSide Nat where
  State := Unit
  new := ()
  restart state := state
  insert state _ := state
  remove state _ := (state, false)

def sighting (aircraft : String) : FlightDocument Nat :=
  { (default : FlightDocument Nat) with icao24 := aircraft }

def passes : Nat → Passes :=
  fun _ => ⟨.asStored, .asStored⟩

/-- A leader that has just started, with one virtual shard in the view. -/
def start : GroupLeader asciiText noVectors where
  view := [0]
  store := .new
  sweep := []

/-- The virtual shard moves to group one and its documents are evicted. -/
def moveAway : List (LeaderStep Nat) :=
  [.ingest passes [sighting "aaa"], .replaceView [1], .tick,
    .evictNext passes]

private theorem not_owns_moved (aircraft : String) :
    (Ownership.mapped 0 [1]).owns aircraft = false := by
  have other : ∀ index : Nat, ([1] : List UInt32)[index]? ≠ some 0 := by
    intro index found
    have member := List.mem_of_getElem? found
    simp at member
  simp [Ownership.owns, other]

theorem keepsAccepted_moveAway :
    KeepsAccepted 0 start moveAway ∧
      ¬ (final (GroupLeader.step 0) start moveAway).Stores "aaa" := by
  refine ⟨?_, by unfold Stores; decide +kernel⟩
  apply keepsAccepted_of_evictsUnowned
  refine ⟨trivial, trivial, trivial, ?_, trivial⟩
  intro request next aircraft _ _
  exact not_owns_moved aircraft

/-- The watcher decides while the virtual shard is away; it comes back and a
document is accepted before the eviction is written. -/
def before : List (LeaderStep Nat) :=
  [.ingest passes [sighting "aaa"], .replaceView [1], .tick,
    .replaceView [0]]

/-- The eviction deletes the document just accepted. -/
theorem stale_eviction_deletes_accepted :
    ¬ KeepsAccepted 0 start
      (before ++ [.ingest passes [sighting "bbb"], .evictNext passes]) := by
  intro keeps
  have stored := keeps before passes [sighting "bbb"] [.evictNext passes] []
    rfl (sighting "bbb") List.mem_cons_self
    ⟨by decide +kernel, by decide +kernel, by
      rw [Throughout]
      decide +kernel⟩
  unfold Stores at stored
  exact absurd stored (by decide +kernel)

end Roundtrip

end GroupLeader

/-! ## Placement tables -/

/-- A table of `v` virtual shards over some groups. -/
structure PlacementTable (groups : UInt32) where
  groupOf : List UInt32
  v : UInt32
  v_ne_zero : v ≠ 0
  length_groupOf : groupOf.length = v.toNat
  inside : ∀ group ∈ groupOf, group < groups

namespace PlacementTable

variable {groups : UInt32}

private theorem vshardFor_lt (table : PlacementTable groups) (icao24 : String) :
    (vshardFor icao24 table.v).toNat < table.groupOf.length := by
  rw [toNat_vshardFor icao24 table.v_ne_zero, table.length_groupOf]
  exact Nat.mod_lt _ (toNat_pos_of_ne_zero table.v_ne_zero)

/-- The group an aircraft belongs to. -/
def owner (table : PlacementTable groups) (icao24 : String) : UInt32 :=
  table.groupOf.get ⟨_, table.vshardFor_lt icao24⟩

private theorem owner_congr (table : PlacementTable groups)
    {first second : String}
    (same : vshardFor first table.v = vshardFor second table.v) :
    table.owner first = table.owner second := by
  simp only [owner, same]

private theorem toUInt32_length (table : PlacementTable groups) :
    table.groupOf.length.toUInt32 = table.v := by
  rw [table.length_groupOf]
  exact UInt32.ofNat_toNat

theorem getElem?_vshardFor (table : PlacementTable groups)
    (icao24 : String) :
    table.groupOf[(vshardFor icao24 table.v).toNat]? =
      some (table.owner icao24) := by
  rw [List.getElem?_eq_getElem (table.vshardFor_lt icao24)]
  rfl

theorem owns_iff (table : PlacementTable groups) (group : UInt32)
    (icao24 : String) :
    (Ownership.mapped group table.groupOf).owns icao24 = true ↔
      table.owner icao24 = group := by
  simp only [Ownership.owns, table.toUInt32_length, if_neg table.v_ne_zero,
    table.getElem?_vshardFor, decide_eq_true_eq, Option.some.injEq]

private theorem owner_lt (table : PlacementTable groups) (icao24 : String) :
    table.owner icao24 < groups :=
  table.inside _ (List.get_mem _ _)

/-- Every aircraft has exactly one group. -/
theorem existsUnique_owns (table : PlacementTable groups)
    (icao24 : String) :
    ∃! group, group < groups ∧
      (Ownership.mapped group table.groupOf).owns icao24 = true := by
  refine ⟨table.owner icao24, ⟨table.owner_lt icao24, ?_⟩, ?_⟩
  · exact (table.owns_iff _ icao24).mpr rfl
  · intro group ownership
    rcases ownership with ⟨-, owned⟩
    exact ((table.owns_iff group icao24).mp owned).symm

theorem mem_evictions (table : PlacementTable groups) (group : UInt32)
    (docs : List (FlightDocument real)) (request : EvictVShard) :
    request ∈ evictions group table.groupOf docs ↔
      request.v = table.v ∧
        ∃ doc ∈ docs, vshardFor doc.icao24 table.v = request.vshard ∧
          table.owner doc.icao24 ≠ group := by
  simp only [evictions, table.toUInt32_length, if_neg table.v_ne_zero,
    heldVshards, List.mem_map, List.mem_filter, Std.ExtTreeSet.mem_toList,
    Std.ExtTreeSet.mem_ofList, List.contains_iff_mem, decide_eq_true_eq]
  constructor
  · intro membership
    rcases membership with ⟨vshard, ⟨⟨doc, member, rfl⟩, away⟩, rfl⟩
    refine ⟨rfl, doc, member, rfl, ?_⟩
    rw [table.getElem?_vshardFor] at away
    exact fun same => away (congrArg some same)
  · intro membership
    rcases membership with ⟨counted, doc, member, inside, away⟩
    refine ⟨request.vshard, ⟨⟨doc, member, inside⟩, ?_⟩, ?_⟩
    · rw [← inside, table.getElem?_vshardFor]
      exact fun same => away (Option.some.inj same)
    · rw [← counted]

end PlacementTable

/-! ## A tick with nothing else going on -/

/-- Commit the evictions of a tick one after the other. -/
def evictSteps : Nat → (Nat → Nat → Passes) → List (LeaderStep real)
  | 0, _ => []
  | count + 1, passes =>
      .evictNext (passes 0) ::
        evictSteps count (fun number => passes (number + 1))

/-- The leader after one whole tick under a table. -/
def afterTick {rules : TextRules} {vectors : VectorSide real}
    (group : UInt32) (table : List UInt32) (passes : Nat → Nat → Passes)
    (store : HeldStore rules vectors) : GroupLeader rules vectors :=
  final (GroupLeader.step group) ⟨table, store, []⟩
    (.tick :: evictSteps
      (evictions group table store.store.documents).length passes)

section Quiescence

variable {rules : TextRules} {vectors : VectorSide real}

/-- Committing all evictions of a tick removes their virtual shards. -/
theorem final_evictSteps (group : UInt32) (passes : Nat → Nat → Passes)
    (leader : GroupLeader rules vectors) :
    (final (GroupLeader.step group) leader
        (evictSteps leader.sweep.length passes)).sweep = [] ∧
      ∀ aircraft,
        (final (GroupLeader.step group) leader
          (evictSteps leader.sweep.length passes)).store.contents[aircraft]? =
          if ∃ request ∈ leader.sweep, request.v ≠ 0 ∧
              vshardFor aircraft request.v = request.vshard then
            none
          else
            leader.store.contents[aircraft]? := by
  induction sweep : leader.sweep generalizing leader passes with
  | nil =>
      simp [evictSteps, sweep]
  | cons request rest inductionHypothesis =>
      obtain ⟨emptied, contents⟩ := inductionHypothesis
        (fun number => passes (number + 1))
        (leader.step group (.evictNext (passes 0)))
        (by simp only [GroupLeader.step, sweep])
      rw [List.length_cons, evictSteps, final_cons]
      refine ⟨emptied, ?_⟩
      intro aircraft
      rw [contents aircraft]
      simp only [GroupLeader.step, sweep,
        HeldStore.getElem?_contents_evictVshard, List.exists_mem_cons_iff]
      by_cases first :
        request.v ≠ 0 ∧ vshardFor aircraft request.v = request.vshard
      · simp [first]
      · simp [first]

/-- A whole tick leaves exactly the documents the table gives to the group. -/
theorem getElem?_contents_afterTick {groups : UInt32}
    (table : PlacementTable groups) (group : UInt32)
    (passes : Nat → Nat → Passes) (store : HeldStore rules vectors)
    (aircraft : String) :
    (afterTick group table.groupOf passes store).store.contents[aircraft]? =
      if (Ownership.mapped group table.groupOf).owns aircraft = true then
        store.contents[aircraft]?
      else
        none := by
  have swept := (final_evictSteps group passes
    (⟨table.groupOf, store,
      evictions group table.groupOf store.store.documents⟩ :
        GroupLeader rules vectors)).2 aircraft
  refine swept.trans ?_
  by_cases owned : (Ownership.mapped group table.groupOf).owns aircraft = true
  · have safe : ¬ ∃ request ∈
        evictions group table.groupOf store.store.documents,
          request.v ≠ 0 ∧ vshardFor aircraft request.v = request.vshard := by
      intro membership
      rcases membership with ⟨request, member, -, inside⟩
      obtain ⟨counted, doc, -, fallsIn, away⟩ :=
        (table.mem_evictions group _ request).mp member
      rw [counted, ← fallsIn] at inside
      exact away ((table.owner_congr inside).symm.trans
        ((table.owns_iff group aircraft).mp owned))
    rw [if_neg safe, if_pos owned]
  · rw [if_neg owned]
    cases found : store.contents[aircraft]? with
    | none =>
        exact ite_self none
    | some doc =>
        have sameAircraft := store.icao24_of_getElem?_contents found
        have doomed : ∃ request ∈
            evictions group table.groupOf store.store.documents,
              request.v ≠ 0 ∧
                vshardFor aircraft request.v = request.vshard := by
          refine ⟨⟨vshardFor aircraft table.v, table.v⟩, ?_,
            table.v_ne_zero, rfl⟩
          rw [table.mem_evictions]
          refine ⟨rfl, doc, ?_, by rw [sameAircraft], ?_⟩
          · rw [store.mem_documents, sameAircraft]
            exact found
          · rw [sameAircraft]
            exact fun same => owned ((table.owns_iff group aircraft).mpr same)
        rw [if_pos doomed]

private theorem sweep_afterTick (group : UInt32) (table : List UInt32)
    (passes : Nat → Nat → Passes) (store : HeldStore rules vectors) :
    (afterTick group table passes store).sweep = [] :=
  (final_evictSteps group passes
    (⟨table, store, evictions group table store.store.documents⟩ :
      GroupLeader rules vectors)).1

/-- After a whole tick there is nothing left to evict. -/
theorem evictions_afterTick {groups : UInt32}
    (table : PlacementTable groups) (group : UInt32)
    (passes : Nat → Nat → Passes) (store : HeldStore rules vectors) :
    evictions group table.groupOf
        (afterTick group table.groupOf passes store).store.store.documents =
      [] := by
  rw [List.eq_nil_iff_forall_not_mem]
  intro request member
  obtain ⟨-, doc, stored, -, away⟩ :=
    (table.mem_evictions group _ request).mp member
  rw [HeldStore.mem_documents, getElem?_contents_afterTick,
    Option.ite_none_right_eq_some] at stored
  exact away ((table.owns_iff group doc.icao24).mp stored.1)

/-- The leader's steps change both views of the store alike. -/
theorem GroupLeader.mirrored_step {mirror : VectorMirror vectors}
    {leader : GroupLeader rules vectors}
    (mirrored : leader.store.Mirrored mirror) (group : UInt32)
    (next : LeaderStep real) :
    (leader.step group next).store.Mirrored mirror := by
  rcases store_step_cases group leader next with
    same | ⟨passes, batch, -, ingested⟩ | ⟨passes, -, request, -, evicted⟩
  · rw [same]
    exact mirrored
  · rw [ingested]
    exact mirrored.insertAll passes _
  · rw [evicted]
    exact mirrored.evictVshard passes request.vshard request.v

private theorem GroupLeader.mirrored_final {mirror : VectorMirror vectors}
    {leader : GroupLeader rules vectors}
    (mirrored : leader.store.Mirrored mirror) (group : UInt32)
    (run : List (LeaderStep real)) :
    (final (GroupLeader.step group) leader run).store.Mirrored mirror := by
  have unguarded : EachStep (GroupLeader.step group) (fun _ _ => True)
      leader run :=
    eachStep_of_forall_mem (fun _ _ _ => trivial)
  have preserved : ∀ (current : GroupLeader rules vectors) next,
      current.store.Mirrored mirror → True →
        (current.step group next).store.Mirrored mirror := by
    intro current next kept _
    exact mirrored_step kept group next
  exact final_of_eachStep preserved mirrored unguarded

/-- Once every group's leader has finished a tick under one table, each group
holds exactly its own slice of what it held, in both views of its store, and
has nothing left to evict.  Every aircraft has one owner, so no two groups hold
it. -/
theorem quiescent_tick_leaves_own_slice {groups : UInt32}
    (table : PlacementTable groups)
    (stores : UInt32 → HeldStore rules vectors)
    (passes : UInt32 → Nat → Nat → Passes) :
    (∀ group aircraft,
      (afterTick group table.groupOf (passes group)
          (stores group)).store.contents[aircraft]? =
        if (Ownership.mapped group table.groupOf).owns aircraft = true then
          (stores group).contents[aircraft]?
        else
          none) ∧
    (∀ group, (afterTick group table.groupOf (passes group)
      (stores group)).sweep = []) ∧
    (∀ first second aircraft,
      aircraft ∈ (afterTick first table.groupOf (passes first)
        (stores first)).store.contents →
      aircraft ∈ (afterTick second table.groupOf (passes second)
        (stores second)).store.contents →
      first = second) ∧
    (∀ aircraft, ∃! group, group < groups ∧
      (Ownership.mapped group table.groupOf).owns aircraft = true) ∧
    (∀ (held : HeldStore rules vectors) evictPasses vshard v aircraft,
      v ≠ 0 →
      (held.evictVshard evictPasses vshard v).contents[aircraft]? =
        if (fnv1a64 (textBytes aircraft)).toNat % v.toNat = vshard.toNat then
          none
        else
          held.contents[aircraft]?) ∧
    (∀ group, evictions group table.groupOf
      (afterTick group table.groupOf (passes group)
        (stores group)).store.store.documents = []) ∧
    (∀ (mirror : VectorMirror vectors) group,
      (stores group).Mirrored mirror →
      (afterTick group table.groupOf (passes group)
        (stores group)).store.Mirrored mirror) := by
  refine ⟨?_, ?_, ?_, table.existsUnique_owns, ?_, ?_, ?_⟩
  · intro group aircraft
    exact getElem?_contents_afterTick table group (passes group) _ aircraft
  · intro group
    exact sweep_afterTick group table.groupOf (passes group) (stores group)
  · intro first second aircraft inFirst inSecond
    have owner : ∀ group,
        aircraft ∈ (afterTick group table.groupOf (passes group)
          (stores group)).store.contents →
        table.owner aircraft = group := by
      intro group member
      rw [← Std.ExtTreeMap.isSome_getElem?_iff_mem,
        getElem?_contents_afterTick] at member
      by_contra other
      rw [if_neg (mt (table.owns_iff group aircraft).mp other)] at member
      cases member
    exact (owner first inFirst).symm.trans (owner second inSecond)
  · intro held evictPasses vshard v aircraft counted
    rw [HeldStore.getElem?_contents_evictVshard,
      ← toNat_vshardFor aircraft counted]
    simp only [ne_eq, counted, not_false_eq_true, true_and,
      UInt32.toNat_inj]
  · intro group
    exact evictions_afterTick table group (passes group) (stores group)
  · intro mirror group mirrored
    exact GroupLeader.mirrored_final mirrored group _

end Quiescence

end AetherEngine.Shard
