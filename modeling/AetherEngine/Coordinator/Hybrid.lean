import AetherEngine.Coordinator.EntryPoints
import Mathlib.Algebra.Order.Field.Basic
import Mathlib.Tactic.Linarith
import Mathlib.Tactic.Positivity

/-!
# Reciprocal rank fusion

The fused ranking orders the documents of two ranked lists by the sum of the
reciprocals of their damped ranks.  A hit without an identity takes up a rank
and is left out.  Arithmetic is exact here.
-/

namespace AetherEngine.Coordinator

open AetherEngine.Common
open AetherEngine.Ranking
open AetherEngine.Shard
open AetherEngine.Tables

/-! ## The two passes -/

section Passes

variable {real : Type}

/-- The rank and the hit of an aircraft in a list, the ranks counted from
zero. -/
def ranked (hits : List (SearchHit real)) (aircraft : String) :
    Option (SearchHit real × Nat) :=
  hits.zipIdx.find? (fun entry => icao24Of entry.1 = aircraft)

/-- No aircraft is listed twice; hits without one may be many. -/
def ListsOnce (hits : List (SearchHit real)) : Prop :=
  ((hits.map icao24Of).filter (fun aircraft => aircraft ≠ "")).Nodup

instance (hits : List (SearchHit real)) : Decidable (ListsOnce hits) :=
  inferInstanceAs (Decidable (List.Nodup _))

/-- What a hit at a rank adds to a score. -/
def contributionAt (arith : Arithmetic real) (rank : Nat) : real :=
  arith.div (arith.ofNat 1)
    (arith.add (arith.ofNat rrfK)
      (arith.add (arith.ofNat rank) (arith.ofNat 1)))

private theorem getElem?_fuseHit_of_ne (arith : Arithmetic real) (prefer : Bool)
    (fused : Std.ExtTreeMap String (real × SearchHit real))
    {entry : SearchHit real × Nat} {aircraft : String}
    (other : icao24Of entry.1 ≠ aircraft) :
    (fuseHit arith prefer fused entry)[aircraft]? = fused[aircraft]? := by
  rw [fuseHit]
  split
  · rfl
  · split
    · rw [getElem?_insert, if_neg other]
    · rw [getElem?_insert, if_neg other]

/-- A pass adds to each aircraft's entry what its list gives. -/
theorem getElem?_foldl_fuseHit (arith : Arithmetic real) (prefer : Bool)
    {entries : List (SearchHit real × Nat)}
    (once : ((entries.map (fun entry => icao24Of entry.1)).filter
      (fun aircraft => aircraft ≠ "")).Nodup)
    (fused : Std.ExtTreeMap String (real × SearchHit real))
    {aircraft : String} (named : aircraft ≠ "") :
    (entries.foldl (fuseHit arith prefer) fused)[aircraft]? =
      match entries.find? (fun entry => icao24Of entry.1 = aircraft) with
      | none => fused[aircraft]?
      | some entry =>
          match fused[aircraft]? with
          | some (score, existing) =>
              some (arith.add score (contributionAt arith entry.2),
                if prefer then entry.1 else existing)
          | none => some (contributionAt arith entry.2, entry.1) := by
  induction entries generalizing fused with
  | nil =>
      rfl
  | cons entry rest inductionHypothesis =>
      rw [List.map_cons, List.filter_cons] at once
      rw [List.foldl_cons, List.find?_cons]
      by_cases same : icao24Of entry.1 = aircraft
      · have kept : icao24Of entry.1 ≠ "" := same ▸ named
        simp only [kept, ne_eq, not_false_eq_true, decide_true, if_true,
          List.nodup_cons] at once
        have absent : rest.find?
            (fun entry => decide (icao24Of entry.1 = aircraft)) = none := by
          rw [List.find?_eq_none]
          intro other member found
          rw [decide_eq_true_eq] at found
          apply once.1
          rw [List.mem_filter]
          exact ⟨List.mem_map.mpr ⟨other, member, found.trans same.symm⟩,
            by simpa using kept⟩
        rw [inductionHypothesis once.2, absent]
        simp only [same, decide_true, fuseHit, if_neg named]
        cases found : fused[aircraft]? with
        | none =>
            simp [contributionAt]
        | some held =>
            simp [contributionAt]
      · have restOnce : ((rest.map (fun entry => icao24Of entry.1)).filter
            (fun aircraft => aircraft ≠ "")).Nodup := by
          split at once
          · exact (List.nodup_cons.mp once).2
          · exact once
        rw [inductionHypothesis restOnce,
          getElem?_fuseHit_of_ne arith prefer fused same]
        simp [same]

/-- No pass writes an entry without a name. -/
theorem getElem?_foldl_fuseHit_empty (arith : Arithmetic real)
    (prefer : Bool) (entries : List (SearchHit real × Nat))
    (fused : Std.ExtTreeMap String (real × SearchHit real)) :
    (entries.foldl (fuseHit arith prefer) fused)[""]? = fused[""]? := by
  induction entries generalizing fused with
  | nil =>
      rfl
  | cons entry rest inductionHypothesis =>
      rw [List.foldl_cons, inductionHypothesis, fuseHit]
      by_cases nameless : icao24Of entry.1 = ""
      · rw [if_pos nameless]
      · rw [if_neg nameless]
        split
        · rw [getElem?_insert, if_neg nameless]
        · rw [getElem?_insert, if_neg nameless]

/-- The entry of an aircraft after both passes. -/
def fusedEntry (arith : Arithmetic real) (keyword vector : List (SearchHit real))
    (aircraft : String) : Option (real × SearchHit real) :=
  match ranked keyword aircraft, ranked vector aircraft with
  | some entry, some other =>
      some (arith.add (contributionAt arith entry.2)
        (contributionAt arith other.2), entry.1)
  | some entry, none => some (contributionAt arith entry.2, entry.1)
  | none, some other => some (contributionAt arith other.2, other.1)
  | none, none => none

/-- The table after both passes. -/
def fusedTable (arith : Arithmetic real)
    (keyword vector : List (SearchHit real)) :
    Std.ExtTreeMap String (real × SearchHit real) :=
  vector.zipIdx.foldl (fuseHit arith false)
    (keyword.zipIdx.foldl (fuseHit arith true) ∅)

private theorem map_icao24Of_zipIdx (hits : List (SearchHit real)) :
    hits.zipIdx.map (fun entry => icao24Of entry.1) = hits.map icao24Of := by
  apply List.ext_getElem?
  intro place
  simp [List.getElem?_zipIdx, Function.comp_def]

theorem getElem?_fusedTable (arith : Arithmetic real)
    {keyword vector : List (SearchHit real)} (keywordOnce : ListsOnce keyword)
    (vectorOnce : ListsOnce vector) (aircraft : String) :
    (fusedTable arith keyword vector)[aircraft]? =
      if aircraft = "" then none
      else fusedEntry arith keyword vector aircraft := by
  by_cases nameless : aircraft = ""
  · subst nameless
    rw [if_pos rfl, fusedTable, getElem?_foldl_fuseHit_empty,
      getElem?_foldl_fuseHit_empty, Std.ExtTreeMap.getElem?_empty]
  · rw [ListsOnce, ← map_icao24Of_zipIdx] at keywordOnce vectorOnce
    rw [if_neg nameless, fusedTable,
      getElem?_foldl_fuseHit arith false vectorOnce _ nameless,
      getElem?_foldl_fuseHit arith true keywordOnce _ nameless,
      Std.ExtTreeMap.getElem?_empty, fusedEntry, ranked, ranked]
    cases keyword.zipIdx.find? (fun entry => icao24Of entry.1 = aircraft) with
    | none =>
        cases vector.zipIdx.find?
            (fun entry => icao24Of entry.1 = aircraft) with
        | none => rfl
        | some other => rfl
    | some entry =>
        cases vector.zipIdx.find?
            (fun entry => icao24Of entry.1 = aircraft) with
        | none => rfl
        | some other => rfl

theorem ranked_eq_none_iff {hits : List (SearchHit real)}
    {aircraft : String} :
    ranked hits aircraft = none ↔ aircraft ∉ hits.map icao24Of := by
  rw [ranked, List.find?_eq_none, ← map_icao24Of_zipIdx, List.mem_map,
    not_exists]
  simp

/-- A ranked hit is one of the list, of the aircraft. -/
theorem of_ranked {hits : List (SearchHit real)} {aircraft : String}
    {entry : SearchHit real × Nat} (found : ranked hits aircraft = some entry) :
    entry.1 ∈ hits ∧ icao24Of entry.1 = aircraft := by
  constructor
  · exact List.fst_mem_of_mem_zipIdx (List.mem_of_find?_eq_some found)
  · have same := List.find?_some found
    exact of_decide_eq_true same

/-- The fused hit is that of the keyword list where the aircraft is in it. -/
theorem of_fusedEntry {arith : Arithmetic real}
    {keyword vector : List (SearchHit real)} {aircraft : String}
    {score : real} {hit : SearchHit real}
    (found : fusedEntry arith keyword vector aircraft = some (score, hit)) :
    icao24Of hit = aircraft ∧
      if aircraft ∈ keyword.map icao24Of then hit ∈ keyword
      else hit ∈ vector := by
  rw [fusedEntry] at found
  cases inKeyword : ranked keyword aircraft with
  | some entry =>
      have listed : aircraft ∈ keyword.map icao24Of := by
        by_contra absent
        rw [ranked_eq_none_iff.mpr absent] at inKeyword
        cases inKeyword
      have isEntry : entry.1 = hit := by
        cases inVector : ranked vector aircraft with
        | none =>
            simp only [inKeyword, inVector, Option.some.injEq] at found
            exact congrArg Prod.snd found
        | some other =>
            simp only [inKeyword, inVector, Option.some.injEq] at found
            exact congrArg Prod.snd found
      obtain ⟨member, named⟩ := of_ranked inKeyword
      rw [if_pos listed, ← isEntry]
      exact ⟨named, member⟩
  | none =>
      have unlisted := ranked_eq_none_iff.mp inKeyword
      cases inVector : ranked vector aircraft with
      | none =>
          simp [inKeyword, inVector] at found
      | some other =>
          simp only [inKeyword, inVector, Option.some.injEq] at found
          obtain ⟨member, named⟩ := of_ranked inVector
          have isOther : other.1 = hit := congrArg Prod.snd found
          rw [if_neg unlisted, ← isOther]
          exact ⟨named, member⟩

end Passes

/-! ## All fused hits -/

section Fused

variable {real : Type} [LinearOrder real]

/-- All fused hits, before the cut. -/
def fusedHits (arith : Arithmetic real)
    (order : IterationOrder (String × (real × SearchHit real)))
    (keyword vector : List (SearchHit real)) : List (SearchHit real) :=
  sortHits ((order.arrange (fusedTable arith keyword vector).toList).map
    (fun entry => { entry.2.2 with score := entry.2.1 }))

private theorem rrfFuse_eq (arith : Arithmetic real)
    (order : IterationOrder (String × (real × SearchHit real)))
    (keyword vector : List (SearchHit real)) (limit : Nat) :
    rrfFuse arith order keyword vector limit =
      truncate limit (fusedHits arith order keyword vector) :=
  rfl

variable {arith : Arithmetic real} {keyword vector : List (SearchHit real)}
variable (order : IterationOrder (String × (real × SearchHit real)))

theorem mem_fusedHits (keywordOnce : ListsOnce keyword)
    (vectorOnce : ListsOnce vector) {hit : SearchHit real} :
    hit ∈ fusedHits arith order keyword vector ↔
      ∃ source, icao24Of hit ≠ "" ∧
        hit = { source with score := hit.score } ∧
        fusedEntry arith keyword vector (icao24Of hit) =
          some (hit.score, source) := by
  rw [fusedHits, sortHits, (sortBy_perm _ _).mem_iff, List.mem_map]
  constructor
  · intro membership
    obtain ⟨⟨aircraft, score, source⟩, member, isHit⟩ := membership
    rw [IterationOrder.mem_arrange, mem_toList,
      getElem?_fusedTable arith keywordOnce vectorOnce] at member
    by_cases nameless : aircraft = ""
    · rw [if_pos nameless] at member
      cases member
    · rw [if_neg nameless] at member
      have named : icao24Of hit = aircraft := by
        rw [← isHit]
        exact (of_fusedEntry member).1
      refine ⟨source, named ▸ nameless, ?_, ?_⟩
      · rw [← isHit]
      · rw [named, ← isHit]
        exact member
  · intro membership
    obtain ⟨source, named, isHit, found⟩ := membership
    refine ⟨(icao24Of hit, hit.score, source), ?_, isHit.symm⟩
    rw [IterationOrder.mem_arrange, mem_toList,
      getElem?_fusedTable arith keywordOnce vectorOnce, if_neg named]
    exact found

private theorem icao24Of_fusedHits_once (keywordOnce : ListsOnce keyword)
    (vectorOnce : ListsOnce vector) :
    ((fusedHits arith order keyword vector).map icao24Of).Nodup := by
  have named : (((order.arrange
      (fusedTable arith keyword vector).toList).map
        (fun entry => ({ entry.2.2 with score := entry.2.1 } :
          SearchHit real))).map icao24Of) =
      (order.arrange (fusedTable arith keyword vector).toList).map
        Prod.fst := by
    rw [List.map_map]
    apply List.map_congr_left
    intro entry member
    rcases entry with ⟨aircraft, score, source⟩
    rw [IterationOrder.mem_arrange, mem_toList,
      getElem?_fusedTable arith keywordOnce vectorOnce] at member
    split at member
    · cases member
    · exact (of_fusedEntry member).1
  rw [fusedHits, sortHits,
    ((sortBy_perm _ _).map icao24Of).nodup_iff, named,
    ((order.perm _).map Prod.fst).nodup_iff]
  exact nodup_keys _

end Fused

/-! ## The rank-sum ranking -/

section Exact

variable {K : Type} [Field K] [LinearOrder K]

omit [LinearOrder K] in
/-- Arithmetic that does not round. -/
structure ExactScores (arith : Arithmetic K) : Prop where
  ofNat : ∀ number, arith.ofNat number = (number : K)
  add : ∀ first second, arith.add first second = first + second
  div : ∀ first second, arith.div first second = first / second

/-- What a list gives an aircraft: the reciprocal of its rank, counted from one
and damped. -/
def share (hits : List (SearchHit K)) (aircraft : String) : K :=
  match ranked hits aircraft with
  | some entry => 1 / (60 + ((entry.2 : K) + 1))
  | none => 0

/-- The ranking by rank sums: the named aircraft of both lists, each once, by
their sums and then by name, each with the hit of the keyword list if it has
one. -/
structure RankSum (keyword vector fused : List (SearchHit K)) : Prop where
  once : (fused.map icao24Of).Nodup
  union : ∀ aircraft, aircraft ∈ fused.map icao24Of ↔
    aircraft ≠ "" ∧
      (aircraft ∈ keyword.map icao24Of ∨ aircraft ∈ vector.map icao24Of)
  scored : ∀ hit ∈ fused, hit.score =
    share keyword (icao24Of hit) + share vector (icao24Of hit)
  sorted : fused.Pairwise (fun first second =>
    second.score < first.score ∨
      (second.score = first.score ∧ icao24Of first ≤ icao24Of second))
  sourced : ∀ hit ∈ fused, ∃ source,
    hit = { source with score := hit.score } ∧
      if icao24Of hit ∈ keyword.map icao24Of then source ∈ keyword
      else source ∈ vector

omit [LinearOrder K] in
theorem contributionAt_exact {arith : Arithmetic K}
    (exact : ExactScores arith) (rank : Nat) :
    contributionAt arith rank = 1 / (60 + ((rank : K) + 1)) := by
  simp only [contributionAt, exact.ofNat, exact.add, exact.div, rrfK,
    Nat.cast_one, Nat.cast_ofNat]

omit [LinearOrder K] in
/-- The score of an entry is the sum of the shares. -/
theorem score_of_fusedEntry {arith : Arithmetic K}
    (exact : ExactScores arith) {keyword vector : List (SearchHit K)}
    {aircraft : String} {score : K} {hit : SearchHit K}
    (found : fusedEntry arith keyword vector aircraft = some (score, hit)) :
    score = share keyword aircraft + share vector aircraft := by
  rw [fusedEntry] at found
  rw [share, share]
  cases inKeyword : ranked keyword aircraft with
  | none =>
      cases inVector : ranked vector aircraft with
      | none =>
          simp [inKeyword, inVector] at found
      | some other =>
          simp only [inKeyword, inVector, Option.some.injEq] at found
          cases found
          simp [contributionAt_exact exact]
  | some entry =>
      cases inVector : ranked vector aircraft with
      | none =>
          simp only [inKeyword, inVector, Option.some.injEq] at found
          cases found
          simp [contributionAt_exact exact]
      | some other =>
          simp only [inKeyword, inVector, Option.some.injEq] at found
          cases found
          simp [contributionAt_exact exact, exact.add]

/-- The score and the name of a hit. -/
def shownAs (hit : SearchHit K) : K × String :=
  (hit.score, icao24Of hit)

/-- A ranking by rank sums shows every aircraft with its sum. -/
theorem RankSum.mem_shown {keyword vector fused : List (SearchHit K)}
    (rankSum : RankSum keyword vector fused) (score : K)
    (aircraft : String) :
    (score, aircraft) ∈ fused.map shownAs ↔
      (aircraft ≠ "" ∧
        (aircraft ∈ keyword.map icao24Of ∨ aircraft ∈ vector.map icao24Of)) ∧
        score = share keyword aircraft + share vector aircraft := by
  rw [← rankSum.union, List.mem_map, List.mem_map]
  constructor
  · intro membership
    obtain ⟨hit, member, shown⟩ := membership
    cases shown
    exact ⟨⟨hit, member, rfl⟩, rankSum.scored hit member⟩
  · intro membership
    rcases membership with ⟨⟨hit, member, rfl⟩, scoreIs⟩
    exact ⟨hit, member,
      congrArg (fun score => (score, icao24Of hit))
        ((rankSum.scored hit member).trans scoreIs.symm)⟩

/-- The sums do not depend on which list is which, and they determine the
order. -/
theorem RankSum.shown_eq_of_swap
    {keyword vector fused swapped : List (SearchHit K)}
    (rankSum : RankSum keyword vector fused)
    (other : RankSum vector keyword swapped) :
    fused.map shownAs = swapped.map shownAs := by
  have once : ∀ {keyword vector fused : List (SearchHit K)},
      RankSum keyword vector fused → (fused.map shownAs).Nodup := by
    intro keyword vector fused ofLists
    apply List.Nodup.of_map Prod.snd
    rw [List.map_map]
    exact ofLists.once
  have sorted : ∀ {keyword vector fused : List (SearchHit K)},
      RankSum keyword vector fused →
      (fused.map shownAs).Pairwise
        (fun first second => (cmpScoreKey first second).isLE = true) := by
    intro keyword vector fused ofLists
    rw [List.pairwise_map]
    refine ofLists.sorted.imp ?_
    intro first second before
    exact (isLE_cmpScoreKey_iff _ _).mpr before
  have permuted : (fused.map shownAs).Perm (swapped.map shownAs) := by
    rw [List.perm_ext_iff_of_nodup (once rankSum) (once other)]
    intro shown
    rcases shown with ⟨score, aircraft⟩
    rw [rankSum.mem_shown, other.mem_shown, Or.comm, add_comm]
  apply permuted.eq_of_pairwise _ (sorted rankSum) (sorted other)
  intro first second _ _ forth back
  exact cmpScoreKey_antisymm first second forth back

/-- One aircraft is listed ahead of another wherever the other is listed. -/
def OutRanks (hits : List (SearchHit K)) (better worse : String) : Prop :=
  ∀ entry, ranked hits worse = some entry →
    ∃ ahead, ranked hits better = some ahead ∧ ahead.2 < entry.2

section Ordered

variable [IsStrictOrderedRing K]

theorem share_nonneg (hits : List (SearchHit K)) (aircraft : String) :
    0 ≤ share hits aircraft := by
  rw [share]
  cases ranked hits aircraft with
  | none =>
      exact le_refl 0
  | some entry =>
      positivity

theorem share_lt_of_outRanks {hits : List (SearchHit K)}
    {better worse : String} (ahead : OutRanks hits better worse)
    (listed : worse ∈ hits.map icao24Of) :
    share hits worse < share hits better := by
  have present : ranked hits worse ≠ none := by
    rw [ne_eq, ranked_eq_none_iff, not_not]
    exact listed
  obtain ⟨entry, found⟩ := Option.ne_none_iff_exists'.mp present
  obtain ⟨other, foundBetter, earlier⟩ := ahead entry found
  rw [share, share, found, foundBetter]
  have lower : (other.2 : K) < (entry.2 : K) := Nat.cast_lt.mpr earlier
  apply one_div_lt_one_div_of_lt
  · positivity
  · linarith

private theorem share_le_of_outRanks {hits : List (SearchHit K)}
    {better worse : String} (ahead : OutRanks hits better worse) :
    share hits worse ≤ share hits better := by
  by_cases listed : worse ∈ hits.map icao24Of
  · exact (share_lt_of_outRanks ahead listed).le
  · have zero : share hits worse = 0 := by
      rw [share, ranked_eq_none_iff.mpr listed]
    rw [zero]
    exact share_nonneg hits better

/-- An aircraft ahead of another in every list that has the other comes first
in the ranking. -/
theorem RankSum.before_of_outRanks
    {keyword vector fused : List (SearchHit K)}
    (rankSum : RankSum keyword vector fused) {better worse : String}
    (named : better ≠ "") (inKeyword : OutRanks keyword better worse)
    (inVector : OutRanks vector better worse) {place : Nat}
    {hit : SearchHit K} (found : fused[place]? = some hit)
    (isWorse : icao24Of hit = worse) :
    ∃ earlier < place, ∃ other, fused[earlier]? = some other ∧
      icao24Of other = better := by
  have member := List.mem_of_getElem? found
  have listed := ((rankSum.union worse).mp
    (List.mem_map.mpr ⟨hit, member, isWorse⟩)).2
  have higher : share keyword worse + share vector worse <
      share keyword better + share vector better := by
    rcases listed with ofKeyword | ofVector
    · exact add_lt_add_of_lt_of_le (share_lt_of_outRanks inKeyword ofKeyword)
        (share_le_of_outRanks inVector)
    · exact add_lt_add_of_le_of_lt (share_le_of_outRanks inKeyword)
        (share_lt_of_outRanks inVector ofVector)
  have betterListed :
      better ∈ keyword.map icao24Of ∨ better ∈ vector.map icao24Of := by
    by_contra neither
    rw [not_or, ← ranked_eq_none_iff, ← ranked_eq_none_iff] at neither
    have zero : share keyword better + share vector better = 0 := by
      rw [share, share, neither.1, neither.2, add_zero]
    rw [zero] at higher
    exact absurd higher (not_lt.mpr
      (add_nonneg (share_nonneg _ _) (share_nonneg _ _)))
  obtain ⟨other, otherMember, isBetter⟩ := List.mem_map.mp
    ((rankSum.union better).mpr ⟨named, betterListed⟩)
  obtain ⟨earlier, otherFound⟩ := List.mem_iff_getElem?.mp otherMember
  have scores : hit.score < other.score := by
    rw [rankSum.scored hit member, rankSum.scored other otherMember, isWorse,
      isBetter]
    exact higher
  refine ⟨earlier, ?_, other, otherFound, isBetter⟩
  by_contra late
  rcases (Nat.le_of_not_lt late).eq_or_lt with same | after
  · rw [same, otherFound, Option.some.injEq] at found
    rw [found] at scores
    exact lt_irrefl _ scores
  · obtain ⟨inside, isHit⟩ := List.getElem?_eq_some_iff.mp found
    obtain ⟨otherInside, isOther⟩ := List.getElem?_eq_some_iff.mp otherFound
    have sorted := List.pairwise_iff_getElem.mp rankSum.sorted place earlier
      inside otherInside after
    rw [isHit, isOther] at sorted
    rcases sorted with lower | ⟨equal, -⟩
    · exact lt_asymm scores lower
    · exact scores.ne' equal

end Ordered

section Results

variable {arith : Arithmetic K} {keyword vector : List (SearchHit K)}
variable (order : IterationOrder (String × (K × SearchHit K)))

private theorem rankSum_fusedHits (exact : ExactScores arith)
    (keywordOnce : ListsOnce keyword) (vectorOnce : ListsOnce vector) :
    RankSum keyword vector (fusedHits arith order keyword vector) where
  once := icao24Of_fusedHits_once order keywordOnce vectorOnce
  union aircraft := by
    rw [List.mem_map]
    constructor
    · intro membership
      obtain ⟨hit, member, rfl⟩ := membership
      obtain ⟨source, named, -, found⟩ :=
        (mem_fusedHits order keywordOnce vectorOnce).mp member
      refine ⟨named, ?_⟩
      by_contra neither
      rw [not_or, ← ranked_eq_none_iff, ← ranked_eq_none_iff] at neither
      rw [fusedEntry, neither.1, neither.2] at found
      cases found
    · intro listed
      rcases listed with ⟨named, listed⟩
      have present : fusedEntry arith keyword vector aircraft ≠ none := by
        intro absent
        rw [fusedEntry] at absent
        split at absent
        case h_4 keywordNone vectorNone =>
          rw [ranked_eq_none_iff] at keywordNone vectorNone
          exact listed.elim keywordNone vectorNone
        all_goals cases absent
      obtain ⟨⟨score, source⟩, found⟩ :=
        Option.ne_none_iff_exists'.mp present
      have sameName := (of_fusedEntry found).1
      refine ⟨{ source with score := score }, ?_, sameName⟩
      rw [mem_fusedHits order keywordOnce vectorOnce]
      refine ⟨source, ?_, rfl, ?_⟩
      · exact fun nameless => named (sameName.symm.trans nameless)
      · exact (congrArg (fusedEntry arith keyword vector) sameName).trans
          found
  scored hit member := by
    obtain ⟨source, -, -, found⟩ :=
      (mem_fusedHits order keywordOnce vectorOnce).mp member
    exact score_of_fusedEntry exact found
  sorted := by
    refine (pairwise_sortHits _).imp ?_
    intro first second before
    exact (isLE_cmpScoreKey_iff (first.score, icao24Of first)
      (second.score, icao24Of second)).mp before
  sourced hit member := by
    obtain ⟨source, -, isHit, found⟩ :=
      (mem_fusedHits order keywordOnce vectorOnce).mp member
    exact ⟨source, isHit, (of_fusedEntry found).2⟩

/-- Reciprocal rank fusion is the ranking by rank sums, cut to the limit; it
does not depend on which list is which, and it respects agreement. -/
theorem rrfFuse_is_rankSum [IsStrictOrderedRing K]
    (exact : ExactScores arith) (keywordOnce : ListsOnce keyword)
    (vectorOnce : ListsOnce vector) (limit : Nat) :
    (∃ fused, RankSum keyword vector fused ∧
      rrfFuse arith order keyword vector limit = truncate limit fused) ∧
    (∀ order', (rrfFuse arith order keyword vector limit).map shownAs =
      (rrfFuse arith order' vector keyword limit).map shownAs) ∧
    (∀ better worse, better ≠ "" → OutRanks keyword better worse →
      OutRanks vector better worse → ∀ (place : Nat) hit,
        (rrfFuse arith order keyword vector limit)[place]? = some hit →
        icao24Of hit = worse →
        ∃ earlier < place, ∃ other,
          (rrfFuse arith order keyword vector limit)[earlier]? =
              some other ∧
            icao24Of other = better) := by
  have rankSum := rankSum_fusedHits order exact keywordOnce vectorOnce
  have cut := rrfFuse_eq arith order keyword vector limit
  refine ⟨⟨_, rankSum, cut⟩, ?_, ?_⟩
  · intro order'
    rw [cut, rrfFuse_eq, map_truncate, map_truncate, rankSum.shown_eq_of_swap
      (rankSum_fusedHits order' exact vectorOnce keywordOnce)]
  · intro better worse named inKeyword inVector place hit found isWorse
    rw [cut] at found ⊢
    obtain ⟨rest, whole⟩ :=
      exists_truncate_append limit (fusedHits arith order keyword vector)
    have inside := (List.getElem?_eq_some_iff.mp found).1
    have foundWhole : (fusedHits arith order keyword vector)[place]? =
        some hit := by
      rw [← whole, List.getElem?_append_left inside]
      exact found
    obtain ⟨earlier, before, other, otherFound, isBetter⟩ :=
      rankSum.before_of_outRanks named inKeyword inVector foundWhole isWorse
    refine ⟨earlier, before, other, ?_, isBetter⟩
    rw [← whole, List.getElem?_append_left (before.trans inside)]
      at otherFound
    exact otherFound

end Results

end Exact

namespace Move

private theorem exactScores_rational : ExactScores rational where
  ofNat _ := rfl
  add _ _ := rfl
  div _ _ := rfl

def hitOf (aircraft : String) : SearchHit Rat where
  document := some (sighting aircraft 0 0)
  score := 0
  provenance := none

/-- A hit without a document takes up a rank. -/
def nameless : SearchHit Rat where
  document := none
  score := 0
  provenance := none

private theorem listsOnce_keyword :
    ListsOnce [hitOf "a", nameless, hitOf "b"] := by
  decide +kernel

private theorem listsOnce_vector :
    ListsOnce [nameless, hitOf "b", nameless] := by
  decide +kernel

/-- Two lists with hits that have no document. -/
theorem rrfFuse_is_rankSum_small :
    ∃ fused,
      RankSum [hitOf "a", nameless, hitOf "b"]
          [nameless, hitOf "b", nameless] fused ∧
        rrfFuse rational .asStored [hitOf "a", nameless, hitOf "b"]
          [nameless, hitOf "b", nameless] 0 = truncate 0 fused :=
  (rrfFuse_is_rankSum .asStored exactScores_rational listsOnce_keyword
    listsOnce_vector 0).1

end Move

end AetherEngine.Coordinator
