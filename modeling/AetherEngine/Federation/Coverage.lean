import AetherEngine.Coordinator.EntryPoints
import AetherEngine.Federation.Search
import Mathlib.Data.List.Dedup

/-!
# Coverage of a fan-out

A response says how many leaders were asked, how many answered and which did
not.  A task that panics leaves no trace, nor does an aggregate answered without
a partial; and the hybrid search counts the leaders that failed by their
distinct addresses.  Where no task is lost that way the counts agree.
-/

namespace AetherEngine.Coordinator

open AetherEngine.Common
open AetherEngine.Ranking

variable {real : Type}

/-! ## Counting tasks -/

section Counting

variable {task κ : Type} {tasks : List task} {done reported : task → Bool}

theorem length_eq_done_add_reported_iff
    (exclusive : ∀ item, done item = true → reported item = false) :
    tasks.length = tasks.countP done + tasks.countP reported ↔
      ∀ item ∈ tasks, done item = true ∨ reported item = true := by
  have merged : tasks.countP done + tasks.countP reported =
      tasks.countP (fun item => done item || reported item) := by
    induction tasks with
    | nil =>
        rfl
    | cons item rest inductionHypothesis =>
        simp only [List.countP_cons, ← inductionHypothesis]
        cases finished : done item with
        | true =>
            simp [exclusive item finished]
            omega
        | false =>
            simp
            omega
  rw [merged, eq_comm, List.countP_eq_length]
  simp only [Bool.or_eq_true]

private theorem filter_reported_sublist (tasks : List task)
    (exclusive : ∀ item, done item = true → reported item = false) :
    (tasks.filter reported).Sublist
      (tasks.filter (fun item => !done item)) := by
  apply List.monotone_filter_right
  intro item named
  cases finished : done item with
  | true =>
      rw [exclusive item finished] at named
      contradiction
  | false =>
      rfl

variable [DecidableEq κ]

/-- The distinct keys of the reported tasks are as many as the tasks that are
not done exactly when all of these are reported, each under a key of its own. -/
theorem length_dedup_reported_eq_iff (keyOf : task → κ)
    (exclusive : ∀ item, done item = true → reported item = false) :
    ((tasks.filter reported).map keyOf).dedup.length =
        (tasks.filter (fun item => !done item)).length ↔
      (∀ item ∈ tasks, done item = true ∨ reported item = true) ∧
        ((tasks.filter (fun item => !done item)).map keyOf).Nodup := by
  have fewer := filter_reported_sublist tasks exclusive
  constructor
  · intro equal
    have distinct :=
      (List.dedup_sublist ((tasks.filter reported).map keyOf)).length_le
    rw [List.length_map] at distinct
    have same : tasks.filter reported =
        tasks.filter (fun item => !done item) :=
      fewer.eq_of_length_le (equal ▸ distinct)
    constructor
    · intro item member
      cases finished : done item with
      | true =>
          exact Or.inl rfl
      | false =>
          have failing : item ∈ tasks.filter (fun item => !done item) := by
            rw [List.mem_filter]
            exact ⟨member, by simp [finished]⟩
          rw [← same] at failing
          exact Or.inr (List.mem_filter.mp failing).2
    · rw [same] at equal
      rw [← List.dedup_eq_self]
      apply (List.dedup_sublist _).eq_of_length
      rw [equal, List.length_map]
  · intro separate
    rcases separate with ⟨covered, distinct⟩
    have same : tasks.filter reported =
        tasks.filter (fun item => !done item) := by
      apply List.filter_congr
      intro item member
      rcases covered item member with finished | named
      · simp [finished, exclusive item finished]
      · cases finished : done item with
        | true => simp [exclusive item finished] at named
        | false => simp [named]
    rw [same, List.dedup_eq_self.mpr distinct, List.length_map]

end Counting

/-! ## What the tasks of a fan-out leave -/

namespace Attempt

variable {α : Type}

def answers : Attempt α → Bool
  | answered (.ok _) => true
  | _ => false

/-- The task hands back an omission. -/
def omits : Attempt α → Bool
  | answered (.error _) => true
  | unreachable => true
  | timedOut => true
  | _ => false

theorem not_omits_of_answers {attempt : Attempt α}
    (answer : attempt.answers = true) : attempt.omits = false := by
  cases attempt with
  | answered outcome =>
      cases outcome with
      | ok response => rfl
      | error status => simp [answers] at answer
  | unreachable => simp [answers] at answer
  | timedOut => simp [answers] at answer
  | panicked => rfl

private theorem isSome_answerOf_joined (attempt : Attempt α)
    (address : String) :
    (answerOf (attempt.joined address)).isSome = attempt.answers := by
  cases attempt with
  | answered outcome =>
      cases outcome with
      | ok response => rfl
      | error status => rfl
  | unreachable => rfl
  | timedOut => rfl
  | panicked => rfl

private theorem address_omissionOf_joined (attempt : Attempt α)
    (address : String) :
    (omissionOf (attempt.joined address)).map OmittedShard.address =
      if attempt.omits then some address else none := by
  cases attempt with
  | answered outcome =>
      cases outcome with
      | ok response => rfl
      | error status => rfl
  | unreachable => rfl
  | timedOut => rfl
  | panicked => rfl

end Attempt

section Joined

variable {α : Type} (arrival : IterationOrder (String × Nat))
  (attempt : Nat → String → Attempt α) (leaders : List String)

theorem length_answers_joinAll :
    ((joinAll arrival attempt leaders).filterMap answerOf).length =
      leaders.zipIdx.countP
        (fun task => (attempt task.2 task.1).answers) := by
  rw [joinAll, List.filterMap_map, List.length_filterMap_eq_countP,
    (arrival.perm leaders.zipIdx).countP_eq]
  apply List.countP_congr
  intro task _
  simp only [Function.comp_apply, Attempt.isSome_answerOf_joined]

theorem addresses_omitted_joinAll :
    (((joinAll arrival attempt leaders).filterMap omissionOf).map
        OmittedShard.address).Perm
      ((leaders.zipIdx.filter
        (fun task => (attempt task.2 task.1).omits)).map Prod.fst) := by
  have named : ∀ tasks : List (String × Nat),
      tasks.filterMap (fun task =>
          (omissionOf ((attempt task.2 task.1).joined task.1)).map
            OmittedShard.address) =
        (tasks.filter (fun task => (attempt task.2 task.1).omits)).map
          Prod.fst := by
    intro tasks
    simp only [Attempt.address_omissionOf_joined]
    induction tasks with
    | nil =>
        rfl
    | cons task rest inductionHypothesis =>
        cases lost : (attempt task.2 task.1).omits with
        | true => simp [lost, inductionHypothesis]
        | false => simp [lost, inductionHypothesis]
  rw [joinAll, List.filterMap_map, List.map_filterMap]
  simp only [Function.comp_apply]
  rw [named]
  exact ((arrival.perm leaders.zipIdx).filter _).map _

end Joined

/-! ## Coverage of a reply -/

/-- The coverage a reply reports. -/
structure Coverage where
  shardsQueried : Nat
  shardsAnswered : Nat
  omitted : List OmittedShard

namespace Coverage

/-- Every leader that was asked is counted, and those that did not contribute
are named. -/
structure Complete (contributes : String × Nat → Bool) (leaders : List String)
    (coverage : Coverage) : Prop where
  counted : coverage.shardsQueried =
    coverage.shardsAnswered + coverage.omitted.length
  named : ∀ task ∈ leaders.zipIdx, contributes task = false →
    task.1 ∈ coverage.omitted.map OmittedShard.address

/-- The coverage of a fan-out that counts what contributes and names what is
reported is complete exactly when every task does one or the other. -/
theorem complete_iff {contributes reported : String × Nat → Bool}
    {leaders : List String} (coverage : Coverage)
    (exclusive : ∀ task, contributes task = true → reported task = false)
    (queried : coverage.shardsQueried = leaders.length)
    (answered : coverage.shardsAnswered = leaders.zipIdx.countP contributes)
    (omitted : (coverage.omitted.map OmittedShard.address).Perm
      ((leaders.zipIdx.filter reported).map Prod.fst)) :
    coverage.Complete contributes leaders ↔
      ∀ task ∈ leaders.zipIdx,
        contributes task = true ∨ reported task = true := by
  have lost : coverage.omitted.length = leaders.zipIdx.countP reported := by
    have same := omitted.length_eq
    rw [List.length_map, List.length_map] at same
    rw [same, List.countP_eq_length_filter]
  have counts : coverage.shardsQueried =
      coverage.shardsAnswered + coverage.omitted.length ↔
        ∀ task ∈ leaders.zipIdx,
          contributes task = true ∨ reported task = true := by
    rw [queried, answered, lost, ← length_eq_done_add_reported_iff exclusive,
      List.length_zipIdx]
  constructor
  · intro complete
    exact counts.mp complete.counted
  · intro covered
    refine ⟨counts.mpr covered, ?_⟩
    intro task member failed
    have named := (covered task member).resolve_left (by simp [failed])
    rw [omitted.mem_iff]
    exact List.mem_map_of_mem (List.mem_filter.mpr ⟨member, named⟩)

end Coverage

/-- The coverage a reply reports; the stream's is that of its last update. -/
def Reply.coverage : Reply real → Option Coverage
  | .hits response =>
      response.manifest.map (fun manifest =>
        ⟨response.shardsQueried, response.shardsAnswered, manifest.omitted⟩)
  | .aggregated response =>
      (response.bind AggregateResponse.manifest).map (fun manifest =>
        ⟨manifest.shardsQueried, manifest.shardsAnswered, manifest.omitted⟩)
  | .updates sent =>
      sent.getLast?.bind (fun update =>
        update.manifest.map (fun manifest =>
          ⟨update.shardsQueried, update.shardsAnswered, manifest.omitted⟩))

namespace Query

/-- The vector half of a hybrid search. -/
def vectorHalf (context : QueryContext real) (request : SearchRequest real) :
    VectorSearchRequest real where
  vector := context.embed request.query
  limit := request.limit
  filter := request.filter

/-- The leader of a task contributes to the reply. -/
def contributes (context : QueryContext real) :
    Query real → String × Nat → Bool
  | search request, task =>
      (context.network.search task.2 task.1 request).answers
  | vectorSearch request, task =>
      (context.network.vectorSearch task.2 task.1 request).answers
  | aggregate request, task =>
      match context.network.aggregate task.2 task.1 request with
      | .answered (.ok response) => response.summary.isSome
      | _ => false
  | hybridSearch request, task =>
      (context.network.search task.2 task.1 request).answers &&
        (context.network.vectorSearch task.2 task.1
          (vectorHalf context request)).answers
  | searchStream request, task =>
      (context.network.search task.2 task.1 request).answers

/-- A task hands back that its leader is missing. -/
def reported (context : QueryContext real) :
    Query real → String × Nat → Bool
  | search request, task =>
      (context.network.search task.2 task.1 request).omits
  | vectorSearch request, task =>
      (context.network.vectorSearch task.2 task.1 request).omits
  | aggregate request, task =>
      (context.network.aggregate task.2 task.1 request).omits
  | hybridSearch request, task =>
      (context.network.search task.2 task.1 request).omits ||
        (context.network.vectorSearch task.2 task.1
          (vectorHalf context request)).omits
  | searchStream request, task =>
      (context.network.search task.2 task.1 request).omits

def isHybrid : Query real → Bool
  | hybridSearch _ => true
  | _ => false

/-- What the coverage of a reply has to say: a hybrid search counts the leaders
that answered both ways, the other calls account for every leader. -/
def CoveredBy (context : QueryContext real) (leaders : List String)
    (query : Query real) (coverage : Coverage) : Prop :=
  if query.isHybrid then
    coverage.shardsAnswered =
      (leaders.zipIdx.filter (query.contributes context)).length
  else
    coverage.Complete (query.contributes context) leaders

/-- Every leader contributes or is reported missing, and no two leaders a hybrid
search misses have the same address. -/
def Traceable (context : QueryContext real) (leaders : List String)
    (query : Query real) : Prop :=
  (∀ task ∈ leaders.zipIdx, query.contributes context task = true ∨
      query.reported context task = true) ∧
    (query.isHybrid = true →
      ((leaders.zipIdx.filter
        (fun task => !query.contributes context task)).map Prod.fst).Nodup)

private theorem not_reported_of_contributes (query : Query real)
    (context : QueryContext real) (task : String × Nat)
    (contributed : query.contributes context task = true) :
    query.reported context task = false := by
  cases query with
  | search request => exact Attempt.not_omits_of_answers contributed
  | vectorSearch request => exact Attempt.not_omits_of_answers contributed
  | searchStream request => exact Attempt.not_omits_of_answers contributed
  | hybridSearch request =>
      simp only [contributes, Bool.and_eq_true] at contributed
      simp only [reported, Bool.or_eq_false_iff]
      exact ⟨Attempt.not_omits_of_answers contributed.1,
        Attempt.not_omits_of_answers contributed.2⟩
  | aggregate request =>
      simp only [contributes] at contributed
      simp only [reported]
      split at contributed
      · rename_i response outcome
        rw [outcome]
        rfl
      · contradiction

end Query

section Replies

variable [LinearOrder real]

/-- The fold over the outcomes of a streaming search counts the answers and
records the omissions. -/
theorem streamed_counts (order : Nat → IterationOrder (SearchHit real))
    (outcomes :
      List (Option (Except OmittedShard (SearchResponse real)) × Nat))
    (progress : ProgressiveMerge real × List (SearchUpdate real)) :
    let merge := (outcomes.foldl
      (fun progress outcome =>
        CoordinatorService.streamArrival (order outcome.2) progress
          outcome.1) progress).1
    merge.shardsQueried = progress.1.shardsQueried ∧
      merge.shardsAnswered = progress.1.shardsAnswered +
        ((outcomes.map Prod.fst).filterMap answerOf).length ∧
      merge.omitted = progress.1.omitted ++
        (outcomes.map Prod.fst).filterMap omissionOf := by
  induction outcomes generalizing progress with
  | nil =>
      simp
  | cons outcome rest inductionHypothesis =>
      rcases outcome with ⟨result, number⟩
      have later := inductionHypothesis
        (CoordinatorService.streamArrival (order number) progress result)
      simp only [List.foldl_cons, List.map_cons] at later ⊢
      obtain ⟨queried, answered, omitted⟩ := later
      rw [queried, answered, omitted]
      cases result with
      | none =>
          exact ⟨rfl, rfl, rfl⟩
      | some reply =>
          cases reply with
          | error shard =>
              refine ⟨rfl, rfl, ?_⟩
              exact List.append_assoc ..
          | ok response =>
              refine ⟨rfl, ?_, rfl⟩
              exact Nat.add_right_comm ..

omit [LinearOrder real] in
theorem outcome_of_admitted {α : Type} {service : CoordinatorService}
    {floats : FloatRules real} {authorization : Option String}
    {filter : Option (Common.Filter real)} {handle : Handled α} {value : α}
    (returned : (admitted service floats authorization filter
      handle).outcome = .ok value) :
    handle.outcome = .ok value := by
  unfold admitted at returned
  split at returned
  · contradiction
  · split at returned
    · contradiction
    · exact returned

omit [LinearOrder real] in
theorem exists_of_outcome_map {α : Type} {handled : Handled α}
    {wrap : α → Reply real} {reply : Reply real}
    (returned : (handled.map wrap).outcome = .ok reply) :
    ∃ value, handled.outcome = .ok value ∧ wrap value = reply := by
  cases result : handled.outcome with
  | error status =>
      simp [Handled.map, Except.map, result] at returned
  | ok value =>
      simp only [Handled.map, Except.map, result, Except.ok.injEq] at returned
      exact ⟨value, rfl, returned⟩

/-- What a reply that reached the caller reports, in terms of the tasks of its
call. -/
structure Reports (context : QueryContext real) (leaders : List String)
    (query : Query real) (coverage : Coverage) : Prop where
  queried : coverage.shardsQueried = leaders.length
  answered : query.isHybrid = false → coverage.shardsAnswered =
    leaders.zipIdx.countP (query.contributes context)
  omitted : query.isHybrid = false →
    (coverage.omitted.map OmittedShard.address).Perm
      ((leaders.zipIdx.filter (query.reported context)).map Prod.fst)
  hybrid : query.isHybrid = true → coverage.shardsAnswered =
    leaders.length -
      ((leaders.zipIdx.filter (query.reported context)).map
        Prod.fst).dedup.length

omit [LinearOrder real] in
theorem length_partials (arrival : IterationOrder (String × Nat))
    (attempt : Nat → String → Attempt (AggregateResponse real))
    (leaders : List String) :
    (scatterAggregate arrival attempt leaders).1.length =
      leaders.zipIdx.countP (fun task =>
        match attempt task.2 task.1 with
        | .answered (.ok response) => response.summary.isSome
        | _ => false) := by
  rw [scatterAggregate, joinAll, List.filterMap_filterMap, List.filterMap_map,
    List.length_filterMap_eq_countP, (arrival.perm leaders.zipIdx).countP_eq]
  apply List.countP_congr
  intro task _
  simp only [Function.comp_apply]
  cases attempt task.2 task.1 with
  | answered outcome =>
      cases outcome with
      | ok response => exact Iff.rfl
      | error status => exact Iff.rfl
  | unreachable => exact Iff.rfl
  | timedOut => exact Iff.rfl
  | panicked => exact Iff.rfl

omit [LinearOrder real] in
/-- The distinct addresses missed by one fan-out or another are those of the
tasks that report either. -/
theorem length_dedup_omitted (leaders : List String)
    {first second : String × Nat → Bool} {firstLost secondLost : List String}
    (firstNamed : firstLost.Perm
      ((leaders.zipIdx.filter first).map Prod.fst))
    (secondNamed : secondLost.Perm
      ((leaders.zipIdx.filter second).map Prod.fst)) :
    (firstLost ++ secondLost).dedup.length =
      ((leaders.zipIdx.filter (fun task => first task || second task)).map
        Prod.fst).dedup.length := by
  apply List.Perm.length_eq
  rw [List.perm_ext_iff_of_nodup (List.nodup_dedup _) (List.nodup_dedup _)]
  intro address
  rw [List.mem_dedup, List.mem_dedup, List.mem_append, firstNamed.mem_iff,
    secondNamed.mem_iff]
  simp only [List.mem_map, List.mem_filter, Bool.or_eq_true]
  constructor
  · intro named
    rcases named with ⟨task, ⟨member, lost⟩, same⟩ | ⟨task, ⟨member, lost⟩, same⟩
    · exact ⟨task, ⟨member, Or.inl lost⟩, same⟩
    · exact ⟨task, ⟨member, Or.inr lost⟩, same⟩
  · intro named
    rcases named with ⟨task, ⟨member, lost | lost⟩, same⟩
    · exact Or.inl ⟨task, ⟨member, lost⟩, same⟩
    · exact Or.inr ⟨task, ⟨member, lost⟩, same⟩

omit [LinearOrder real] in
theorem Reports.of_plain {context : QueryContext real} {leaders : List String}
    {query : Query real} {coverage : Coverage}
    (plain : query.isHybrid = false)
    (queried : coverage.shardsQueried = leaders.length)
    (answered : coverage.shardsAnswered =
      leaders.zipIdx.countP (query.contributes context))
    (omitted : (coverage.omitted.map OmittedShard.address).Perm
      ((leaders.zipIdx.filter (query.reported context)).map Prod.fst)) :
    Reports context leaders query coverage := by
  refine ⟨queried, fun _ => answered, fun _ => omitted, ?_⟩
  intro hybrid
  rw [plain] at hybrid
  contradiction

theorem exists_reports_searchStream {context : QueryContext real}
    {service : CoordinatorService} {authorization : Option String}
    {request : SearchRequest real} {reply : Reply real}
    (returned : (service.answer context authorization
      (.searchStream request)).outcome = .ok reply) :
    ∃ coverage, reply.coverage = some coverage ∧
      Reports context
        (service.registry.leaderAddresses context.call.keyword.leaders)
        (.searchStream request) coverage := by
  obtain ⟨updates, answered, rfl⟩ := exists_of_outcome_map returned
  simp only [CoordinatorService.searchStream] at answered
  split at answered
  · contradiction
  · have sent := Except.ok.inj answered
    have counts := streamed_counts context.call.keyword.order
      (joinAll context.call.keyword.arrival
        (fun number address =>
          context.network.search number address request)
        (service.registry.leaderAddresses
          context.call.keyword.leaders)).zipIdx
      (.new (service.registry.leaderAddresses
          context.call.keyword.leaders).length request.limit.toNat
        service.registry.placementVersion.toUInt64, [])
    rw [List.zipIdx_map_fst] at counts
    obtain ⟨queried, answers, omitted⟩ := counts
    rw [← sent, Reply.coverage, List.getLast?_concat]
    refine ⟨_, rfl, .of_plain rfl queried ?_ ?_⟩
    · refine answers.trans ?_
      rw [length_answers_joinAll]
      exact Nat.zero_add _
    · exact (List.Perm.of_eq (congrArg _ omitted)).trans
        (addresses_omitted_joinAll ..)

/-- Every reply that reaches its caller reports a coverage. -/
theorem exists_reports {context : QueryContext real}
    {service : CoordinatorService} {authorization : Option String}
    {query : Query real} {reply : Reply real}
    (returned :
      (service.answer context authorization query).outcome = .ok reply)
    (responded : reply ≠ .aggregated none) :
    ∃ coverage, reply.coverage = some coverage ∧
      Reports context
        (service.registry.leaderAddresses context.call.keyword.leaders)
        query coverage := by
  cases query with
  | search request =>
      obtain ⟨response, answered, rfl⟩ := exists_of_outcome_map returned
      rw [← Except.ok.inj (outcome_of_admitted answered)]
      exact ⟨_, rfl, .of_plain rfl rfl (length_answers_joinAll ..)
        (addresses_omitted_joinAll ..)⟩
  | vectorSearch request =>
      obtain ⟨response, answered, rfl⟩ := exists_of_outcome_map returned
      rw [← Except.ok.inj (outcome_of_admitted answered)]
      exact ⟨_, rfl, .of_plain rfl rfl (length_answers_joinAll ..)
        (addresses_omitted_joinAll ..)⟩
  | aggregate request =>
      obtain ⟨response, answered, rfl⟩ := exists_of_outcome_map returned
      have merged := Except.ok.inj (outcome_of_admitted answered)
      cases response with
      | none =>
          exact absurd rfl responded
      | some response =>
          rw [Option.map_eq_some_iff] at merged
          obtain ⟨result, -, rfl⟩ := merged
          exact ⟨_, rfl, .of_plain rfl rfl (length_partials ..)
            (addresses_omitted_joinAll ..)⟩
  | hybridSearch request =>
      obtain ⟨response, answered, rfl⟩ := exists_of_outcome_map returned
      rw [← Except.ok.inj (outcome_of_admitted answered)]
      refine ⟨_, rfl, rfl, ?_, ?_, ?_⟩
      · intro plain
        contradiction
      · intro plain
        contradiction
      · intro _
        have distinct := length_dedup_omitted
          (service.registry.leaderAddresses context.call.keyword.leaders)
          (addresses_omitted_joinAll context.call.keyword.arrival
            (fun number address =>
              context.network.search number address request) _)
          (addresses_omitted_joinAll context.call.vectorArrival
            (fun number address => context.network.vectorSearch number
              address (Query.vectorHalf context request)) _)
        rw [← List.map_append] at distinct
        exact congrArg _ distinct
  | searchStream request => exact exists_reports_searchStream returned

omit [LinearOrder real] in
/-- The coverage of a reply says what it has to exactly when every leader is
traceable. -/
theorem coveredBy_iff_traceable {context : QueryContext real}
    {leaders : List String} {query : Query real} {coverage : Coverage}
    (reports : Reports context leaders query coverage) :
    query.CoveredBy context leaders coverage ↔
      query.Traceable context leaders := by
  have exclusive := query.not_reported_of_contributes context
  cases hybrid : query.isHybrid with
  | false =>
      simp only [Query.CoveredBy, Query.Traceable, hybrid,
        Bool.false_eq_true, if_false, false_implies, and_true]
      exact coverage.complete_iff exclusive reports.queried
        (reports.answered hybrid) (reports.omitted hybrid)
  | true =>
      simp only [Query.CoveredBy, Query.Traceable, hybrid, if_true,
        forall_true_left]
      rw [reports.hybrid hybrid,
        ← length_dedup_reported_eq_iff Prod.fst exclusive]
      have split := List.length_eq_length_filter_add
        (l := leaders.zipIdx) (query.contributes context)
      rw [List.length_zipIdx] at split
      have named := (List.dedup_sublist ((leaders.zipIdx.filter
        (query.reported context)).map Prod.fst)).length_le
      have within :=
        (filter_reported_sublist leaders.zipIdx exclusive).length_le
      rw [List.length_map] at named
      omega

end Replies

end AetherEngine.Coordinator

namespace AetherEngine.Federation

open AetherEngine.Common
open AetherEngine.Coordinator
open AetherEngine.Ranking

variable {real : Type} [LinearOrder real]

/-- A federated search accounts for every cluster exactly when every cluster
answers or is reported missing. -/
theorem federated_complete_iff (order : IterationOrder (SearchHit real))
    (arrival : IterationOrder (String × Nat)) (elapsedMs : UInt64)
    (network :
      Nat → String → SearchRequest real → Attempt (SearchResponse real))
    (clusters : List String) (request : SearchRequest real) :
    (∃ coverage,
        (Reply.hits (federateSearch order arrival elapsedMs network clusters
          request)).coverage = some coverage ∧
        coverage.Complete
          (fun task => (network task.2 task.1 request).answers) clusters) ↔
      ∀ task ∈ clusters.zipIdx,
        (network task.2 task.1 request).answers = true ∨
          (network task.2 task.1 request).omits = true := by
  rw [← Coverage.complete_iff
    ⟨clusters.length,
      ((joinAll arrival (fun number address => network number address request)
        clusters).filterMap answerOf).length,
      (joinAll arrival (fun number address => network number address request)
        clusters).filterMap omissionOf⟩
    (fun _ => Attempt.not_omits_of_answers) rfl
    (length_answers_joinAll ..) (addresses_omitted_joinAll ..)]
  constructor
  · intro complete
    rcases complete with ⟨coverage, reported, complete⟩
    rw [← Option.some.inj reported] at complete
    exact complete
  · intro complete
    exact ⟨_, rfl, complete⟩

/-- A reply accounts for every leader that was asked exactly when no leader is
lost without a trace; so does a federated search for the clusters. -/
theorem every_asked_leader_accounted_iff (context : QueryContext real)
    (service : CoordinatorService) (authorization : Option String)
    (query : Query real) (reply : Reply real)
    (returned :
      (service.answer context authorization query).outcome = .ok reply)
    (responded : reply ≠ .aggregated none)
    (order : IterationOrder (SearchHit real))
    (arrival : IterationOrder (String × Nat)) (elapsedMs : UInt64)
    (network :
      Nat → String → SearchRequest real → Attempt (SearchResponse real))
    (clusters : List String) (request : SearchRequest real) :
    ((∃ coverage, reply.coverage = some coverage ∧
        query.CoveredBy context
          (service.registry.leaderAddresses context.call.keyword.leaders)
          coverage) ↔
      query.Traceable context
        (service.registry.leaderAddresses context.call.keyword.leaders)) ∧
    ((∃ coverage,
        (Reply.hits (federateSearch order arrival elapsedMs network clusters
          request)).coverage = some coverage ∧
        coverage.Complete
          (fun task => (network task.2 task.1 request).answers) clusters) ↔
      ∀ task ∈ clusters.zipIdx,
        (network task.2 task.1 request).answers = true ∨
          (network task.2 task.1 request).omits = true) := by
  constructor
  · obtain ⟨coverage, shown, reports⟩ := exists_reports returned responded
    rw [← coveredBy_iff_traceable reports]
    constructor
    · intro covered
      rcases covered with ⟨other, same, covers⟩
      rw [shown, Option.some.injEq] at same
      rw [same]
      exact covers
    · intro covers
      exact ⟨coverage, shown, covers⟩
  · exact federated_complete_iff order arrival elapsedMs network clusters
      request

namespace Lost

/-- The first leader cannot be reached, and the task for any other panics. -/
def network : Network Rat where
  search number _ _ := if number = 0 then .unreachable else .panicked
  vectorSearch number _ _ := if number = 0 then .unreachable else .panicked
  aggregate number _ _ := if number = 0 then .unreachable else .panicked

/-- No leader can be reached. -/
def nobody : Network Rat where
  search _ _ _ := .unreachable
  vectorSearch _ _ _ := .unreachable
  aggregate _ _ _ := .unreachable

/-- A coordinator that routes two shards to one address. -/
def shared : CoordinatorService where
  registry := { Registry.new 2 with
    leaders := (∅ : Std.ExtTreeMap UInt32 NodeInfo).insertMany
      [(0, Move.leader "a"), (1, Move.leader "a")] }
  auth := { tokens := ∅, enabled := false }

/-- The coverage a call reports, with the addresses it names. -/
def shown (context : QueryContext Rat) (service : CoordinatorService)
    (query : Query Rat) : Option (Nat × Nat × List String) :=
  ((service.answer context none query).outcome.toOption.bind
    Reply.coverage).map (fun coverage =>
      (coverage.shardsQueried, coverage.shardsAnswered,
        coverage.omitted.map OmittedShard.address))

theorem not_covered_of_shown {context : QueryContext Rat}
    {service : CoordinatorService} {query : Query Rat} {reply : Reply Rat}
    {queried answered : Nat} {named : List String}
    (returned : (service.answer context none query).outcome = .ok reply)
    (numbers : shown context service query = some (queried, answered, named))
    {leaders : List String}
    (wrong : if query.isHybrid then
        answered ≠ (leaders.zipIdx.filter (query.contributes context)).length
      else queried ≠ answered + named.length) :
    ¬ ∃ coverage, reply.coverage = some coverage ∧
      query.CoveredBy context leaders coverage := by
  intro covered
  obtain ⟨coverage, reported, covers⟩ := covered
  rw [shown, returned] at numbers
  simp only [Except.toOption, Option.bind_some, reported, Option.map_some,
    Option.some.injEq, Prod.mk.injEq] at numbers
  obtain ⟨rfl, rfl, rfl⟩ := numbers
  rw [Query.CoveredBy] at covers
  split at wrong
  · rename_i hybrid
    rw [if_pos hybrid] at covers
    exact wrong covers
  · rename_i plain
    rw [if_neg plain] at covers
    rw [List.length_map] at wrong
    exact wrong covers.counted

/-- The leader whose task panicked is neither counted nor named; and a hybrid
search that reaches neither of two leaders at one address says that one
answered. -/
theorem lost_leaders_unaccounted :
    (shown { Move.context with network := network } Move.coordinator
          (.search (Move.query 0 none)) = some (2, 0, ["http://a"]) ∧
        ∀ reply, (Move.coordinator.answer
            { Move.context with network := network } none
            (.search (Move.query 0 none))).outcome = .ok reply →
          ¬ ∃ coverage, reply.coverage = some coverage ∧
            (Query.search (Move.query 0 none)).CoveredBy
              { Move.context with network := network }
              ["http://a", "http://b"] coverage) ∧
      (shown { Move.context with network := nobody } shared
          (.hybridSearch (Move.query 0 none)) =
            some (2, 1, ["http://a", "http://a", "http://a", "http://a"]) ∧
        ∀ reply, (shared.answer { Move.context with network := nobody } none
            (.hybridSearch (Move.query 0 none))).outcome = .ok reply →
          ¬ ∃ coverage, reply.coverage = some coverage ∧
            (Query.hybridSearch (Move.query 0 none)).CoveredBy
              { Move.context with network := nobody }
              ["http://a", "http://a"] coverage) := by
  have panicked : shown { Move.context with network := network }
      Move.coordinator (.search (Move.query 0 none)) =
        some (2, 0, ["http://a"]) := by
    decide +kernel
  have doubled : shown { Move.context with network := nobody } shared
      (.hybridSearch (Move.query 0 none)) =
        some (2, 1, ["http://a", "http://a", "http://a", "http://a"]) := by
    decide +kernel
  refine ⟨⟨panicked, ?_⟩, ⟨doubled, ?_⟩⟩
  · intro reply returned
    exact not_covered_of_shown returned panicked (by decide)
  · intro reply returned
    exact not_covered_of_shown returned doubled (by decide +kernel)

theorem every_asked_leader_accounted_iff_nobody :
    ∃ reply,
      (Move.coordinator.answer { Move.context with network := nobody } none
        (.search (Move.query 0 none))).outcome = .ok reply ∧
      ((∃ coverage, reply.coverage = some coverage ∧
          (Query.search (Move.query 0 none)).CoveredBy
            { Move.context with network := nobody }
            (Move.coordinator.registry.leaderAddresses .asStored)
            coverage) ↔
        (Query.search (Move.query 0 none)).Traceable
          { Move.context with network := nobody }
          (Move.coordinator.registry.leaderAddresses .asStored)) := by
  refine ⟨_, rfl, ?_⟩
  exact (every_asked_leader_accounted_iff
    { Move.context with network := nobody } Move.coordinator none
    (.search (Move.query 0 none)) _ rfl (by simp) .asStored .asStored 0
    nobody.search [] (Move.query 0 none)).1

end Lost

end AetherEngine.Federation
