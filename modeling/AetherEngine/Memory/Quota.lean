import AetherEngine.Memory.MemoryStore

/-!
# Quotas

A writer never holds more entries of a namespace than its quota, whatever the
clock does.  In the order of time a well-formed write is refused exactly when
the writer has a full quota of unexpired entries.  These are the entries whose
time to live has not passed, unless a deadline has wrapped around.  A refused
write may have swept its namespace, but nothing asked or written later can
tell.
-/

namespace AetherEngine.Memory

open AetherEngine.Ranking
open AetherEngine.Runs
open AetherEngine.Tables

/-- How many of the entries are a writer's. -/
def heldBy (writer : String) (entries : List MemoryEntry) : Nat :=
  (entries.filter fun entry => entry.writer = writer).length

private theorem heldBy_unexpired_le (writer : String) (nowMs : UInt64)
    (entries : List MemoryEntry) :
    heldBy writer (unexpired nowMs entries) ≤ heldBy writer entries :=
  (List.filter_sublist.filter _).length_le

private theorem heldBy_concat (writer : String) (entries : List MemoryEntry)
    (entry : MemoryEntry) :
    heldBy writer (entries ++ [entry]) =
      heldBy writer entries + if entry.writer = writer then 1 else 0 := by
  rw [heldBy, List.filter_append, List.length_append, heldBy]
  by_cases same : entry.writer = writer
  · simp [same]
  · simp [same]

/-! ## What a write can do -/

/-- The arguments of a write are not blank. -/
def WellFormed (rules : TextRules) (ns text writer : String) : Prop :=
  MemoryStore.blank rules ns = false ∧ MemoryStore.blank rules text = false ∧
    MemoryStore.blank rules writer = false

instance (rules : TextRules) (ns text writer : String) :
    Decidable (WellFormed rules ns text writer) :=
  inferInstanceAs (Decidable (_ ∧ _))

namespace MemoryStore

variable {rules : TextRules} {ns text writer : String} {nowMs : UInt64}

theorem sweepNamespace_nextId (store : MemoryStore) (ns : String)
    (nowMs : UInt64) :
    (store.sweepNamespace ns nowMs).1.nextId = store.nextId := by
  unfold sweepNamespace
  split <;> rfl

theorem sweepNamespace_quotaPerWriter (store : MemoryStore) (ns : String)
    (nowMs : UInt64) :
    (store.sweepNamespace ns nowMs).1.quotaPerWriter =
      store.quotaPerWriter := by
  unfold sweepNamespace
  split <;> rfl

/-- A sweep leaves the quota and the next id. -/
theorem sweep_counters (order : IterationOrder String) (store : MemoryStore)
    (nowMs : UInt64) :
    (store.sweep order nowMs).1.nextId = store.nextId ∧
      (store.sweep order nowMs).1.quotaPerWriter = store.quotaPerWriter := by
  refine List.foldlRecOn (motive := fun swept : MemoryStore × Nat =>
    swept.1.nextId = store.nextId ∧
      swept.1.quotaPerWriter = store.quotaPerWriter) _ _ ⟨rfl, rfl⟩ ?_
  intro swept kept name _
  exact ⟨(sweepNamespace_nextId ..).trans kept.1,
    (sweepNamespace_quotaPerWriter ..).trans kept.2⟩

private theorem remember_of_malformed (store : MemoryStore)
    (malformed : ¬ WellFormed rules ns text writer) (ttlSecs nowMs : UInt64) :
    ∃ message, store.remember rules ns text writer ttlSecs nowMs =
      (store, .error (.malformed message)) := by
  unfold remember
  by_cases blankNs : blank rules ns = true
  · exact ⟨_, if_pos blankNs⟩
  · rw [if_neg blankNs]
    by_cases blankText : blank rules text = true
    · exact ⟨_, if_pos blankText⟩
    · rw [if_neg blankText]
      by_cases blankWriter : blank rules writer = true
      · exact ⟨_, if_pos blankWriter⟩
      · rw [Bool.not_eq_true] at blankNs blankText blankWriter
        exact absurd ⟨blankNs, blankText, blankWriter⟩ malformed

/-- The writer's entries that a write counts. -/
theorem heldBy_sweepNamespace (store : MemoryStore) :
    heldBy writer (bucket (store.sweepNamespace ns nowMs).1.byNs ns) =
      heldBy writer (unexpired nowMs (bucket store.byNs ns)) := by
  rw [bucket_sweepNamespace, if_pos rfl]

private theorem remember_of_full {store : MemoryStore}
    (wellFormed : WellFormed rules ns text writer)
    (full : store.quotaPerWriter ≤
      heldBy writer (unexpired nowMs (bucket store.byNs ns)))
    (ttlSecs : UInt64) :
    store.remember rules ns text writer ttlSecs nowMs =
      ((store.sweepNamespace ns nowMs).1,
        .error (.quotaExceeded writer store.quotaPerWriter)) := by
  rw [← heldBy_sweepNamespace,
    ← sweepNamespace_quotaPerWriter store ns nowMs] at full
  unfold remember
  rw [wellFormed.1, wellFormed.2.1, wellFormed.2.2]
  refine (if_pos full).trans ?_
  rw [sweepNamespace_quotaPerWriter]

theorem remember_of_room {store : MemoryStore}
    (wellFormed : WellFormed rules ns text writer)
    (room : heldBy writer (unexpired nowMs (bucket store.byNs ns)) <
      store.quotaPerWriter)
    (ttlSecs : UInt64) :
    store.remember rules ns text writer ttlSecs nowMs =
      ({ (store.sweepNamespace ns nowMs).1 with
          nextId := store.nextId + 1
          byNs := deposit (store.sweepNamespace ns nowMs).1.byNs ns
            ⟨store.nextId, ns, text, writer, nowMs, ttlSecs⟩ },
        .ok store.nextId) := by
  rw [← heldBy_sweepNamespace,
    ← sweepNamespace_quotaPerWriter store ns nowMs] at room
  unfold remember
  rw [wellFormed.1, wellFormed.2.1, wellFormed.2.2]
  refine (if_neg (Nat.not_le.mpr room)).trans ?_
  rw [sweepNamespace_nextId]

/-- What is recalled depends on the unexpired entries only. -/
theorem recall_congr {first second : MemoryStore}
    (same : unexpired nowMs (bucket first.byNs ns) =
      unexpired nowMs (bucket second.byNs ns))
    (query : String) (limit : Nat) :
    first.recall rules ns query limit nowMs =
      second.recall rules ns query limit nowMs := by
  unfold unexpired at same
  unfold MemoryStore.recall
  rw [same]

private theorem len_congr {first second : MemoryStore}
    (same : unexpired nowMs (bucket first.byNs ns) =
      unexpired nowMs (bucket second.byNs ns)) :
    first.len ns nowMs = second.len ns nowMs :=
  congrArg List.length same

end MemoryStore

namespace Ledger

variable {rules : TextRules} {ledger : Ledger}

section Writes

variable {ns text writer : String} {ttlSecs nowMs : UInt64}

theorem step_of_malformed (malformed : ¬ WellFormed rules ns text writer) :
    ledger.step rules (.remember ns text writer ttlSecs nowMs) =
      { ledger with clock := nowMs } := by
  obtain ⟨message, refused⟩ :=
    ledger.store.remember_of_malformed malformed ttlSecs nowMs
  rw [step, refused]

theorem step_of_full (wellFormed : WellFormed rules ns text writer)
    (full : ledger.store.quotaPerWriter ≤
      heldBy writer (unexpired nowMs (bucket ledger.store.byNs ns))) :
    ledger.step rules (.remember ns text writer ttlSecs nowMs) =
      { ledger with
        store := (ledger.store.sweepNamespace ns nowMs).1
        clock := nowMs } := by
  rw [step, MemoryStore.remember_of_full wellFormed full]

theorem step_of_room (wellFormed : WellFormed rules ns text writer)
    (room : heldBy writer (unexpired nowMs (bucket ledger.store.byNs ns)) <
      ledger.store.quotaPerWriter) :
    ledger.step rules (.remember ns text writer ttlSecs nowMs) =
      { store :=
          { (ledger.store.sweepNamespace ns nowMs).1 with
            nextId := ledger.store.nextId + 1
            byNs := deposit (ledger.store.sweepNamespace ns nowMs).1.byNs ns
              ⟨ledger.store.nextId, ns, text, writer, nowMs, ttlSecs⟩ }
        clock := nowMs
        accepted := ledger.accepted ++
          [⟨ledger.store.nextId, ns, text, writer, nowMs, ttlSecs⟩] } := by
  rw [step, MemoryStore.remember_of_room wellFormed room]

/-- The namespace of an accepted write, and the others. -/
theorem bucket_of_room (ledger : Ledger) (entry : MemoryEntry)
    (nowMs : UInt64) (other : String) :
    bucket (deposit (ledger.store.sweepNamespace entry.ns nowMs).1.byNs
        entry.ns entry) other =
      if entry.ns = other then
        unexpired nowMs (bucket ledger.store.byNs other) ++ [entry]
      else bucket ledger.store.byNs other := by
  rw [bucket_deposit, MemoryStore.bucket_sweepNamespace]
  by_cases same : entry.ns = other
  · rw [if_pos same, if_pos same, if_pos same]
  · rw [if_neg same, if_neg same, if_neg same]

end Writes

/-- What a call does to the store: an accepted write files its entry, under the
next id, behind the unexpired entries of its namespace; any other call sweeps
some namespaces. -/
theorem step_effect (rules : TextRules) (ledger : Ledger) (call : MemoryCall) :
    (ledger.step rules call).store.quotaPerWriter =
        ledger.store.quotaPerWriter ∧
      ((∃ entry, entry.id = ledger.store.nextId ∧
          heldBy entry.writer (unexpired call.nowMs
            (bucket ledger.store.byNs entry.ns)) <
              ledger.store.quotaPerWriter ∧
          (ledger.step rules call).accepted = ledger.accepted ++ [entry] ∧
          (ledger.step rules call).store.nextId = ledger.store.nextId + 1 ∧
          ∀ ns, bucket (ledger.step rules call).store.byNs ns =
            if entry.ns = ns then
              unexpired call.nowMs (bucket ledger.store.byNs ns) ++ [entry]
            else bucket ledger.store.byNs ns) ∨
        ((ledger.step rules call).accepted = ledger.accepted ∧
          (ledger.step rules call).store.nextId = ledger.store.nextId ∧
          ∀ ns, bucket (ledger.step rules call).store.byNs ns =
              unexpired call.nowMs (bucket ledger.store.byNs ns) ∨
            bucket (ledger.step rules call).store.byNs ns =
              bucket ledger.store.byNs ns)) := by
  cases call with
  | remember ns text writer ttlSecs nowMs =>
      by_cases wellFormed : WellFormed rules ns text writer
      · by_cases full : ledger.store.quotaPerWriter ≤
            heldBy writer (unexpired nowMs (bucket ledger.store.byNs ns))
        · rw [step_of_full wellFormed full]
          refine ⟨MemoryStore.sweepNamespace_quotaPerWriter .., .inr
            ⟨rfl, MemoryStore.sweepNamespace_nextId .., fun other => ?_⟩⟩
          rw [MemoryStore.bucket_sweepNamespace]
          by_cases same : ns = other
          · exact .inl (if_pos same)
          · exact .inr (if_neg same)
        · rw [Nat.not_le] at full
          rw [step_of_room wellFormed full]
          have buckets := bucket_of_room ledger
            ⟨ledger.store.nextId, ns, text, writer, nowMs, ttlSecs⟩ nowMs
          exact ⟨MemoryStore.sweepNamespace_quotaPerWriter ..,
            .inl ⟨_, rfl, full, rfl, rfl, buckets⟩⟩
      · rw [step_of_malformed wellFormed]
        exact ⟨rfl, .inr ⟨rfl, rfl, fun _ => .inr rfl⟩⟩
  | sweep order nowMs =>
      have counters := ledger.store.sweep_counters order nowMs
      exact ⟨counters.2, .inr ⟨rfl, counters.1, fun ns =>
        .inl (ledger.store.bucket_sweep order ns nowMs)⟩⟩

/-! ## No more than the quota -/

/-- No writer holds more entries of a namespace than its quota. -/
def WithinQuota (ledger : Ledger) : Prop :=
  ∀ ns writer, heldBy writer (bucket ledger.store.byNs ns) ≤
    ledger.store.quotaPerWriter

private theorem withinQuota_start (quotaPerWriter : Nat) :
    (start quotaPerWriter).WithinQuota := by
  intro ns writer
  exact Nat.zero_le _

theorem WithinQuota.step (within : ledger.WithinQuota) (call : MemoryCall) :
    (ledger.step rules call).WithinQuota := by
  intro ns writer
  obtain ⟨quota, effect⟩ := step_effect rules ledger call
  rw [quota]
  have swept := (heldBy_unexpired_le writer call.nowMs
    (bucket ledger.store.byNs ns)).trans (within ns writer)
  rcases effect with ⟨entry, -, room, -, -, buckets⟩ | ⟨-, -, buckets⟩
  · rw [buckets]
    by_cases same : entry.ns = ns
    · subst same
      rw [if_pos rfl, heldBy_concat]
      by_cases sameWriter : entry.writer = writer
      · subst sameWriter
        rw [if_pos rfl]
        exact room
      · rw [if_neg sameWriter]
        exact swept
    · rw [if_neg same]
      exact within ns writer
  · rcases buckets ns with emptied | unchanged
    · rw [emptied]
      exact swept
    · rw [unchanged]
      exact within ns writer

/-! ## Ids -/

/-- The accepted writes are numbered in their order, in 64 bits. -/
structure Numbered (ledger : Ledger) : Prop where
  ids : ledger.accepted.map MemoryEntry.id =
    (List.range ledger.accepted.length).map UInt64.ofNat
  nextId : ledger.store.nextId = UInt64.ofNat ledger.accepted.length

private theorem numbered_start (quotaPerWriter : Nat) :
    (start quotaPerWriter).Numbered :=
  ⟨rfl, rfl⟩

theorem Numbered.step (numbered : ledger.Numbered) (call : MemoryCall) :
    (ledger.step rules call).Numbered := by
  obtain ⟨-, ⟨entry, id, -, accepted, nextId, -⟩ | ⟨accepted, nextId, -⟩⟩ :=
    step_effect rules ledger call
  · constructor
    · rw [accepted, List.map_append, numbered.ids, List.length_append,
        List.length_singleton, List.range_succ, List.map_append,
        List.map_singleton, id, numbered.nextId, List.map_singleton]
    · rw [nextId, accepted, numbered.nextId, List.length_append,
        List.length_singleton, UInt64.ofNat_add]
      rfl
  · constructor
    · rw [accepted]
      exact numbered.ids
    · rw [accepted, nextId]
      exact numbered.nextId

/-- Ids increase as long as 64 bits number the accepted writes. -/
theorem Numbered.increasing (numbered : ledger.Numbered)
    (few : ledger.accepted.length ≤ 2 ^ 64) :
    (ledger.accepted.map MemoryEntry.id).Pairwise (· < ·) := by
  rw [numbered.ids, List.pairwise_map]
  refine List.pairwise_lt_range.imp_of_mem ?_
  intro earlier later _ member ordered
  have bounded := List.mem_range.mp member
  rw [UInt64.lt_iff_toNat_lt, UInt64.toNat_ofNat', UInt64.toNat_ofNat',
    Nat.mod_eq_of_lt (by omega), Nat.mod_eq_of_lt (by omega)]
  exact ordered

/-! ## Nothing shows later -/

/-- From some time on, two stores hold the same unexpired entries. -/
structure Alike (since : UInt64) (first second : Ledger) : Prop where
  quota : first.store.quotaPerWriter = second.store.quotaPerWriter
  nextId : first.store.nextId = second.store.nextId
  seen : ∀ ns later, since ≤ later →
    unexpired later (bucket first.store.byNs ns) =
      unexpired later (bucket second.store.byNs ns)

/-- A refused write leaves a store like the one before. -/
theorem alike_of_refused {ns text writer : String} {ttlSecs nowMs : UInt64}
    {error : WriteError}
    (refused : (ledger.store.remember rules ns text writer ttlSecs nowMs).2 =
      .error error) :
    Alike nowMs (ledger.step rules (.remember ns text writer ttlSecs nowMs))
      ledger := by
  by_cases wellFormed : WellFormed rules ns text writer
  · by_cases full : ledger.store.quotaPerWriter ≤
        heldBy writer (unexpired nowMs (bucket ledger.store.byNs ns))
    · rw [step_of_full wellFormed full]
      refine ⟨MemoryStore.sweepNamespace_quotaPerWriter ..,
        MemoryStore.sweepNamespace_nextId .., ?_⟩
      intro other later ordered
      rw [MemoryStore.bucket_sweepNamespace]
      by_cases same : ns = other
      · rw [if_pos same, unexpired_unexpired ordered]
      · rw [if_neg same]
    · rw [Nat.not_le] at full
      rw [MemoryStore.remember_of_room wellFormed full] at refused
      cases refused
  · rw [step_of_malformed wellFormed]
    exact ⟨rfl, rfl, fun _ _ _ => rfl⟩

/-- Calls from that time on keep the stores alike, in whatever order of time
they come. -/
theorem Alike.step {since : UInt64} {first second : Ledger}
    (alike : Alike since first second) {call : MemoryCall}
    (ordered : since ≤ call.nowMs) :
    Alike since (first.step rules call) (second.step rules call) := by
  cases call with
  | remember ns text writer ttlSecs nowMs =>
      have same := alike.seen ns nowMs ordered
      by_cases wellFormed : WellFormed rules ns text writer
      · by_cases full : first.store.quotaPerWriter ≤
            heldBy writer (unexpired nowMs (bucket first.store.byNs ns))
        · have alsoFull := full
          rw [same, alike.quota] at alsoFull
          rw [step_of_full wellFormed full, step_of_full wellFormed alsoFull]
          constructor
          · simp only [MemoryStore.sweepNamespace_quotaPerWriter, alike.quota]
          · simp only [MemoryStore.sweepNamespace_nextId, alike.nextId]
          · intro other later afterwards
            simp only [MemoryStore.bucket_sweepNamespace]
            by_cases here : ns = other
            · rw [if_pos here, if_pos here, ← here, same]
            · rw [if_neg here, if_neg here, alike.seen other later afterwards]
        · rw [Nat.not_le] at full
          have alsoRoom := full
          rw [same, alike.quota] at alsoRoom
          rw [step_of_room wellFormed full, step_of_room wellFormed alsoRoom]
          constructor
          · simp only [MemoryStore.sweepNamespace_quotaPerWriter, alike.quota]
          · simp only [alike.nextId]
          · intro other later afterwards
            have buckets := bucket_of_room first
              ⟨first.store.nextId, ns, text, writer, nowMs, ttlSecs⟩ nowMs
            have alsoBuckets := bucket_of_room second
              ⟨second.store.nextId, ns, text, writer, nowMs, ttlSecs⟩ nowMs
            simp only [buckets, alsoBuckets]
            by_cases here : ns = other
            · rw [if_pos here, if_pos here, ← here, same, alike.nextId]
            · rw [if_neg here, if_neg here, alike.seen other later afterwards]
      · rw [step_of_malformed wellFormed, step_of_malformed wellFormed]
        exact ⟨alike.quota, alike.nextId, alike.seen⟩
  | sweep order nowMs =>
      have counters := first.store.sweep_counters order nowMs
      have alsoCounters := second.store.sweep_counters order nowMs
      constructor
      · exact (counters.2.trans alike.quota).trans alsoCounters.2.symm
      · exact (counters.1.trans alike.nextId).trans alsoCounters.1.symm
      · intro ns later afterwards
        simp only [Ledger.step, MemoryStore.bucket_sweep]
        rw [alike.seen ns nowMs ordered]

theorem Alike.run (rules : TextRules) {since : UInt64} {first second : Ledger}
    (alike : Alike since first second) {calls : List MemoryCall}
    (ordered : ∀ call ∈ calls, since ≤ call.nowMs) :
    Alike since (Runs.final (Ledger.step rules) first calls)
      (Runs.final (Ledger.step rules) second calls) := by
  induction calls generalizing first second with
  | nil =>
      exact alike
  | cons call rest inductionHypothesis =>
      exact inductionHypothesis
        (alike.step (ordered call List.mem_cons_self))
        (fun later member => ordered later (List.mem_cons_of_mem _ member))

/-- Calls and questions at the time of a call or later give what they would
give without it. -/
def Unseen (rules : TextRules) (ledger : Ledger) (call : MemoryCall) : Prop :=
  ∀ after : List MemoryCall, (∀ next ∈ after, call.nowMs ≤ next.nowMs) →
    ∀ ns later, call.nowMs ≤ later →
      (∀ query limit,
        (Runs.final (step rules) (ledger.step rules call)
            after).store.recall rules ns query limit later =
          (Runs.final (step rules) ledger after).store.recall rules ns query
            limit later) ∧
        (Runs.final (step rules) (ledger.step rules call) after).store.len ns
            later =
          (Runs.final (step rules) ledger after).store.len ns later

private theorem unseen_of_refused {ns text writer : String}
    {ttlSecs nowMs : UInt64}
    {error : WriteError}
    (refused : (ledger.store.remember rules ns text writer ttlSecs nowMs).2 =
      .error error) :
    ledger.Unseen rules (.remember ns text writer ttlSecs nowMs) := by
  intro after ordered other later afterwards
  have alike := ((alike_of_refused refused).run rules ordered).seen other later
    afterwards
  exact ⟨MemoryStore.recall_congr alike, MemoryStore.len_congr alike⟩

/-! ## Refusals -/

/-- The accepted entries of a writer in a namespace that have not expired. -/
def unexpiredOf (ledger : Ledger) (ns writer : String) (nowMs : UInt64) :
    List MemoryEntry :=
  ledger.accepted.filter fun entry =>
    entry.ns = ns ∧ entry.writer = writer ∧ entry.expiredAt nowMs = false

private theorem Held.length_unexpiredOf (held : ledger.Held) {nowMs : UInt64}
    (ordered : ledger.clock ≤ nowMs) (ns writer : String) :
    (ledger.unexpiredOf ns writer nowMs).length =
      heldBy writer (unexpired nowMs (bucket ledger.store.byNs ns)) := by
  rw [held ns nowMs ordered, heldBy, unexpired, List.filter_filter,
    List.filter_filter, unexpiredOf]
  congr 1
  apply List.filter_congr
  intro entry _
  cases entry.expiredAt nowMs <;> simp [Bool.and_comm]

/-- The accepted entries of a writer in a namespace whose time to live has not
passed. -/
def liveOf (ledger : Ledger) (ns writer : String) (nowMs : UInt64) :
    List MemoryEntry :=
  ledger.accepted.filter fun entry =>
    entry.ns = ns ∧ entry.writer = writer ∧ entry.LiveAt nowMs

/-- Every accepted entry has a deadline of 64 bits. -/
def AllFit (ledger : Ledger) : Prop :=
  ∀ entry ∈ ledger.accepted,
    MemoryEntry.DeadlineFits entry.createdMs entry.ttlSecs

theorem AllFit.step (allFit : ledger.AllFit) {call : MemoryCall}
    (fits : ledger.StepFits rules call) : (ledger.step rules call).AllFit := by
  rcases step_cases rules ledger call with
    ⟨entry, isWrite, accepts, accepted, -⟩ | ⟨-, accepted, -⟩
  · intro other member
    rw [accepted] at member
    rcases List.mem_append.mp member with earlier | latest
    · exact allFit other earlier
    · rw [isWrite] at fits
      rw [List.mem_singleton.mp latest]
      exact fits accepts
  · intro other member
    rw [accepted] at member
    exact allFit other member

private theorem AllFit.unexpiredOf_eq (allFit : ledger.AllFit)
    (ns writer : String)
    (nowMs : UInt64) :
    ledger.unexpiredOf ns writer nowMs = ledger.liveOf ns writer nowMs := by
  apply List.filter_congr
  intro entry member
  simp [MemoryEntry.expiredAt_of_fits (allFit entry member)]

/-- A well-formed write in the order of time is refused for the quota exactly
when the writer has a full quota of unexpired entries. -/
theorem Held.quotaExceeded_iff (held : ledger.Held)
    (within : ledger.WithinQuota) {ns text writer : String}
    {ttlSecs nowMs : UInt64} (ordered : ledger.clock ≤ nowMs) :
    (ledger.store.remember rules ns text writer ttlSecs nowMs).2 =
        .error (.quotaExceeded writer ledger.store.quotaPerWriter) ↔
      WellFormed rules ns text writer ∧
        (ledger.unexpiredOf ns writer nowMs).length =
          ledger.store.quotaPerWriter := by
  rw [held.length_unexpiredOf ordered]
  by_cases wellFormed : WellFormed rules ns text writer
  · have most := (heldBy_unexpired_le writer nowMs
      (bucket ledger.store.byNs ns)).trans (within ns writer)
    by_cases full : ledger.store.quotaPerWriter ≤
        heldBy writer (unexpired nowMs (bucket ledger.store.byNs ns))
    · rw [MemoryStore.remember_of_full wellFormed full]
      exact ⟨fun _ => ⟨wellFormed, Nat.le_antisymm most full⟩, fun _ => rfl⟩
    · rw [Nat.not_le] at full
      rw [MemoryStore.remember_of_room wellFormed full]
      constructor
      · intro impossible
        cases impossible
      · intro reached
        exact absurd reached.2 full.ne
  · obtain ⟨message, refused⟩ :=
      ledger.store.remember_of_malformed wellFormed ttlSecs nowMs
    rw [refused]
    constructor
    · intro impossible
      cases impossible
    · intro reached
      exact absurd reached.1 wellFormed

/-! ## Every run -/

section Runs

variable (rules : TextRules) (quotaPerWriter : Nat) (run : List MemoryCall)

private theorem quotaPerWriter_final :
    (Runs.final (step rules) (start quotaPerWriter) run).store.quotaPerWriter =
      quotaPerWriter :=
  List.foldlRecOn (motive := fun reached : Ledger =>
    reached.store.quotaPerWriter = quotaPerWriter) run _ rfl
    (fun reached kept call _ => (step_effect rules reached call).1.trans kept)

private theorem withinQuota_final :
    (Runs.final (step rules) (start quotaPerWriter) run).WithinQuota :=
  List.foldlRecOn (motive := WithinQuota) run _
    (withinQuota_start quotaPerWriter)
    (fun _ within call _ => within.step call)

private theorem numbered_final :
    (Runs.final (step rules) (start quotaPerWriter) run).Numbered :=
  List.foldlRecOn (motive := Numbered) run _ (numbered_start quotaPerWriter)
    (fun _ numbered call _ => numbered.step call)

variable {run}

/-- In a run in the order of time the store holds what was accepted, and the
clock is behind the next call. -/
theorem held_final {next : MemoryCall}
    (ordered : ((run ++ [next]).map MemoryCall.nowMs).Pairwise (· ≤ ·)) :
    (Runs.final (step rules) (start quotaPerWriter) run).Held ∧
      (Runs.final (step rules) (start quotaPerWriter) run).clock ≤
        next.nowMs := by
  have inTime := @eachStep_of_ordered rules (start quotaPerWriter)
    (run ++ [next]) (fun call _ => UInt64.zero_le) ordered
  rw [eachStep_append] at inTime
  refine ⟨?_, inTime.2.1⟩
  refine final_of_eachStep ?_ (held_start quotaPerWriter) inTime.1
  intro current call held later
  exact held.step later

private theorem allFit_final
    (fits : EachStep (step rules) (StepFits rules) (start quotaPerWriter) run) :
    (Runs.final (step rules) (start quotaPerWriter) run).AllFit := by
  refine final_of_eachStep ?_ ?_ fits
  · intro current call allFit fitsNow
    exact allFit.step fitsNow
  · intro entry listed
    cases listed

end Runs

/-- The quota in every run, whatever the times of the calls.  No writer holds
more entries of a namespace than its quota.  In the order of time, and as long
as every accepted entry has had a deadline of 64 bits, a write is refused for
the quota exactly when it is well formed and its writer has a full quota of
entries whose time to live has not passed.  After a refused write every call
that comes at its time or later shows what it would have shown without that
write.  The ids of accepted writes increase. -/
theorem quota_kept (rules : TextRules) (quotaPerWriter : Nat)
    (run : List MemoryCall) :
    (∀ ns writer,
      heldBy writer (bucket (Runs.final (step rules) (start quotaPerWriter)
        run).store.byNs ns) ≤ quotaPerWriter) ∧
    (EachStep (step rules) (StepFits rules) (start quotaPerWriter) run →
      ∀ ns text writer ttlSecs nowMs,
        ((run ++ [MemoryCall.remember ns text writer ttlSecs nowMs]).map
          MemoryCall.nowMs).Pairwise (· ≤ ·) →
        (((Runs.final (step rules) (start quotaPerWriter) run).store.remember
            rules ns text writer ttlSecs nowMs).2 =
              .error (.quotaExceeded writer quotaPerWriter) ↔
          WellFormed rules ns text writer ∧
            ((Runs.final (step rules) (start quotaPerWriter) run).liveOf
              ns writer nowMs).length = quotaPerWriter)) ∧
    (∀ ns text writer ttlSecs nowMs error,
      ((Runs.final (step rules) (start quotaPerWriter) run).store.remember
          rules ns text writer ttlSecs nowMs).2 = .error error →
        (Runs.final (step rules) (start quotaPerWriter) run).Unseen rules
          (.remember ns text writer ttlSecs nowMs)) ∧
    ((Runs.final (step rules) (start quotaPerWriter) run).accepted.length ≤
        2 ^ 64 →
      ((Runs.final (step rules) (start quotaPerWriter) run).accepted.map
        MemoryEntry.id).Pairwise (· < ·)) := by
  have within := withinQuota_final rules quotaPerWriter run
  have quota := quotaPerWriter_final rules quotaPerWriter run
  refine ⟨?_, ?_, ?_, (numbered_final rules quotaPerWriter run).increasing⟩
  · intro ns writer
    exact (within ns writer).trans (Nat.le_of_eq quota)
  · intro fits ns text writer ttlSecs nowMs ordered
    obtain ⟨held, behind⟩ := held_final rules quotaPerWriter ordered
    have refused := @Held.quotaExceeded_iff rules _ held within ns text writer
      ttlSecs nowMs behind
    have allFit := allFit_final rules quotaPerWriter fits
    rwa [quota, allFit.unexpiredOf_eq] at refused
  · intro ns text writer ttlSecs nowMs error refused
    exact unseen_of_refused refused

/-- One entry fills the quota. -/
def oneMemory : List MemoryCall :=
  [.remember "agent-a" "user is in Berlin" "agent-a" 5 1000]

theorem quota_kept_oneMemory :
    ((Runs.final (step asciiRules) (start 1) oneMemory).store.remember
        asciiRules "agent-a" "gate changed" "agent-a" 0 2000).2 =
      .error (.quotaExceeded "agent-a" 1) :=
  ((quota_kept asciiRules 1 oneMemory).2.1 (by decide +kernel) "agent-a"
    "gate changed" "agent-a" 0 2000 (by decide +kernel)).mpr
      (by decide +kernel)

/-- The longest memory of all does not count against a quota of one. -/
theorem longest_memory_frees_quota :
    ¬ (((Runs.final (step asciiRules) (start 1) longestMemory).store.remember
          asciiRules "agent-a" "gate changed" "agent-a" 0 1000).2 =
            .error (.quotaExceeded "agent-a" 1) ↔
        WellFormed asciiRules "agent-a" "gate changed" "agent-a" ∧
          ((Runs.final (step asciiRules) (start 1) longestMemory).liveOf
            "agent-a" "agent-a" 1000).length = 1) := by
  decide +kernel

end Ledger

end AetherEngine.Memory
