import Mathlib.Data.Finset.Card
import Mathlib.Data.Finset.Max
import Mathlib.Data.List.Perm.Basic
import Mathlib.Data.List.Nodup
import Mathlib.Data.List.Dedup
import Mathlib.Data.List.Sort

/-!
# The best entry of each key, ranked

An entry is a key with a grade.  Of several entries with one key only the best
is of interest, and the best entries are shown in a display order, cut to a
limit.  This module says when two ways of collecting the entries show the same
list.

Collecting everything first gives a canonical list: it depends only on the set
of entries.  Collecting entries batch by batch and cutting after every batch
forgets entries; the two agree exactly when no forgotten key is reported again
and none climbs back above the limit.
-/

namespace AetherEngine.Ranking

universe u v w

/-! ## Passes over unordered maps -/

/-- The order in which one pass over an unordered map meets its entries. -/
structure IterationOrder (α : Type u) where
  arrange : List α → List α
  perm : ∀ entries, (arrange entries).Perm entries

namespace IterationOrder

variable {α : Type u}

/-- The pass that follows the stored order. -/
def asStored : IterationOrder α where
  arrange entries := entries
  perm := List.Perm.refl

/-- The pass that runs against the stored order. -/
def backwards : IterationOrder α where
  arrange := List.reverse
  perm := List.reverse_perm

/-- A pass that meets some entries in a given order. -/
def ofPerm [DecidableEq α] {entries met : List α} (same : met.Perm entries) :
    IterationOrder α where
  arrange others := if others = entries then met else others
  perm others := by
    by_cases asGiven : others = entries
    · rw [if_pos asGiven, asGiven]
      exact same
    · rw [if_neg asGiven]

theorem arrange_ofPerm [DecidableEq α] {entries met : List α}
    (same : met.Perm entries) : (ofPerm same).arrange entries = met :=
  if_pos rfl

@[simp]
theorem mem_arrange
    (order : IterationOrder α) {entries : List α} {entry : α} :
    entry ∈ order.arrange entries ↔ entry ∈ entries :=
  (order.perm entries).mem_iff

@[simp]
theorem length_arrange
    (order : IterationOrder α) (entries : List α) :
    (order.arrange entries).length = entries.length :=
  (order.perm entries).length_eq

end IterationOrder

/-! ## Cutting a list to a limit -/

/-- Keep at most `limit` entries; the limit zero keeps everything. -/
def truncate {α : Type u} (limit : Nat) (entries : List α) : List α :=
  if limit ≠ 0 ∧ limit < entries.length then
    entries.take limit
  else
    entries

@[simp]
theorem truncate_zero {α : Type u} (entries : List α) :
    truncate 0 entries = entries := by
  simp [truncate]

theorem truncate_of_ne_zero {α : Type u} {limit : Nat} (bounded : limit ≠ 0)
    (entries : List α) :
    truncate limit entries = entries.take limit := by
  by_cases long : limit < entries.length
  · simp [truncate, bounded, long]
  · rw [truncate, if_neg (fun both => long both.2),
      List.take_of_length_le (Nat.le_of_not_lt long)]

theorem truncate_sublist {α : Type u} (limit : Nat) (entries : List α) :
    (truncate limit entries).Sublist entries := by
  by_cases cut : limit ≠ 0 ∧ limit < entries.length
  · rw [truncate, if_pos cut]
    exact List.take_sublist limit entries
  · rw [truncate, if_neg cut]

/-- A cut keeps the beginning. -/
theorem exists_truncate_append {α : Type u} (limit : Nat) (entries : List α) :
    ∃ dropped, truncate limit entries ++ dropped = entries := by
  by_cases cut : limit ≠ 0 ∧ limit < entries.length
  · rw [truncate, if_pos cut]
    exact ⟨_, List.take_append_drop limit entries⟩
  · rw [truncate, if_neg cut]
    exact ⟨[], List.append_nil entries⟩

theorem mem_of_mem_truncate {α : Type u} {limit : Nat} {entries : List α}
    {entry : α} (member : entry ∈ truncate limit entries) :
    entry ∈ entries :=
  (truncate_sublist limit entries).subset member

theorem map_truncate {α : Type u} {β : Type v} (f : α → β) (limit : Nat)
    (entries : List α) :
    (truncate limit entries).map f = truncate limit (entries.map f) := by
  by_cases cut : limit ≠ 0 ∧ limit < entries.length
  · simp [truncate, cut, List.map_take]
  · simp [truncate, cut]

/-- Filtering before a cut shows exactly when the cut reaches a filtered
entry. -/
theorem take_filter_eq_take_iff {α : Type u} (keep : α → Bool) (limit : Nat)
    (entries : List α) :
    (entries.filter keep).take limit = entries.take limit ↔
      ∀ entry ∈ entries.take limit, keep entry = true := by
  constructor
  · intro same entry member
    rw [← same] at member
    exact (List.mem_filter.mp (List.mem_of_mem_take member)).2
  · intro kept
    induction entries generalizing limit with
    | nil =>
        simp
    | cons head tail inductionHypothesis =>
        cases limit with
        | zero =>
            simp
        | succ limit =>
            have headKept : keep head = true :=
              kept head (by simp)
            have tailKept :=
              inductionHypothesis limit
                (fun entry member => kept entry (by simp [member]))
            simp [headKept, tailKept]

/-! ## Sorting -/

/-- A stable sort. -/
def sortBy {α : Type u} (le : α → α → Bool) (entries : List α) : List α :=
  entries.insertionSort (fun first second => le first second = true)

theorem sortBy_perm {α : Type u} (le : α → α → Bool) (entries : List α) :
    (sortBy le entries).Perm entries :=
  List.perm_insertionSort _ entries

theorem pairwise_sortBy {α : Type u} {le : α → α → Bool}
    (trans : ∀ first second third,
      le first second = true → le second third = true →
        le first third = true)
    (total : ∀ first second, (le first second || le second first) = true)
    (entries : List α) :
    (sortBy le entries).Pairwise
      (fun first second => le first second = true) := by
  have isTotal : Std.Total (fun first second => le first second = true) :=
    ⟨fun first second => by simpa using total first second⟩
  have isTrans : IsTrans α (fun first second => le first second = true) :=
    ⟨trans⟩
  exact List.pairwise_insertionSort _ entries

theorem pairwise_sortBy_key {α : Type u} {κ : Type v} [LinearOrder κ]
    (key : α → κ) (entries : List α) :
    (sortBy (fun first second => decide (key first ≤ key second))
      entries).Pairwise (fun first second => key first ≤ key second) := by
  have sorted : (sortBy (fun first second => decide (key first ≤ key second))
      entries).Pairwise (fun first second =>
        decide (key first ≤ key second) = true) := by
    apply pairwise_sortBy
    · intro first second third
      simp only [decide_eq_true_eq]
      exact le_trans
    · intro first second
      simpa using le_total (key first) (key second)
  simpa using sorted

/-- Sorting by what a view shows sorts the views. -/
theorem map_sortBy {α : Type u} {β : Type v} {le : α → α → Bool}
    {leView : β → β → Bool} (view : α → β)
    (same : ∀ first second, le first second = leView (view first) (view second))
    (entries : List α) :
    (sortBy le entries).map view = sortBy leView (entries.map view) := by
  apply List.map_insertionSort
  intro first _ second _
  rw [same]

/-- Sorting forgets the order it starts from, where the sort order tells the
entries apart. -/
theorem sortBy_eq_of_perm {α : Type u} {le : α → α → Bool}
    (trans : ∀ first second third,
      le first second = true → le second third = true →
        le first third = true)
    (total : ∀ first second, (le first second || le second first) = true)
    {entries entries' : List α} (permuted : entries.Perm entries')
    (antisymm : ∀ first ∈ entries, ∀ second ∈ entries,
      le first second = true → le second first = true → first = second) :
    sortBy le entries = sortBy le entries' := by
  have sorted := sortBy_perm le entries
  have sorted' := sortBy_perm le entries'
  apply List.Perm.eq_of_pairwise _ (pairwise_sortBy trans total entries)
    (pairwise_sortBy trans total entries')
  · exact sorted.trans (permuted.trans sorted'.symm)
  · intro first second firstMember secondMember
    apply antisymm first (sorted.mem_iff.mp firstMember) second
    exact permuted.mem_iff.mpr (sorted'.mem_iff.mp secondMember)

/-- A list is sorted as well where the order is one only for its entries. -/
theorem pairwise_sortBy_of_forall {α : Type u} {le : α → α → Bool}
    {sound : α → Prop}
    (trans : ∀ first second third, sound first → sound second → sound third →
      le first second = true → le second third = true →
        le first third = true)
    (total : ∀ first second, sound first → sound second →
      (le first second || le second first) = true)
    {entries : List α} (all : ∀ entry ∈ entries, sound entry) :
    (sortBy le entries).Pairwise
      (fun first second => le first second = true) := by
  have lifted : (entries.pmap Subtype.mk all).map Subtype.val = entries := by
    rw [List.map_pmap, List.pmap_eq_map, List.map_id']
  have sorted := @pairwise_sortBy {entry // sound entry}
    (fun first second => le first.1 second.1)
    (fun first second third => trans _ _ _ first.2 second.2 third.2)
    (fun first second => total _ _ first.2 second.2)
    (entries.pmap Subtype.mk all)
  rw [← lifted, ← map_sortBy Subtype.val (fun _ _ => rfl), List.pairwise_map]
  exact sorted

theorem sortBy_eq_of_perm_of_forall {α : Type u} {le : α → α → Bool}
    {sound : α → Prop}
    (trans : ∀ first second third, sound first → sound second → sound third →
      le first second = true → le second third = true →
        le first third = true)
    (total : ∀ first second, sound first → sound second →
      (le first second || le second first) = true)
    {entries entries' : List α} (permuted : entries.Perm entries')
    (all : ∀ entry ∈ entries, sound entry)
    (antisymm : ∀ first ∈ entries, ∀ second ∈ entries,
      le first second = true → le second first = true → first = second) :
    sortBy le entries = sortBy le entries' := by
  have all' : ∀ entry ∈ entries', sound entry :=
    fun entry member => all entry (permuted.mem_iff.mpr member)
  have sorted := sortBy_perm le entries
  have sorted' := sortBy_perm le entries'
  apply List.Perm.eq_of_pairwise _ (pairwise_sortBy_of_forall trans total all)
    (pairwise_sortBy_of_forall trans total all')
  · exact sorted.trans (permuted.trans sorted'.symm)
  · intro first second firstMember secondMember
    apply antisymm first (sorted.mem_iff.mp firstMember) second
    exact permuted.mem_iff.mpr (sorted'.mem_iff.mp secondMember)

/-! ## The best of groups -/

theorem nodup_of_subperm {α : Type u} {fewer entries : List α}
    (within : fewer.Subperm entries) (once : entries.Nodup) :
    fewer.Nodup := by
  obtain ⟨kept, same, sublist⟩ := within
  exact same.nodup_iff.mp (once.sublist sublist)

/-- An early entry of a list is early in every sublist that has it. -/
theorem mem_take_of_sublist {α : Type u} {fewer entries : List α}
    (sublist : fewer.Sublist entries) (once : entries.Nodup) {entry : α}
    (member : entry ∈ fewer) {limit : Nat}
    (early : entry ∈ entries.take limit) : entry ∈ fewer.take limit := by
  induction sublist generalizing limit with
  | slnil =>
      exact early
  | cons head sublist inductionHypothesis =>
      rw [List.nodup_cons] at once
      cases limit with
      | zero =>
          simp at early
      | succ limit =>
          rw [List.take_succ_cons, List.mem_cons] at early
          rcases early with rfl | early
          · exact absurd (sublist.subset member) once.1
          · have within := inductionHypothesis once.2 member early
            exact (List.take_sublist_take_left (Nat.le_succ limit)).subset
              within
  | cons_cons head sublist inductionHypothesis =>
      rw [List.nodup_cons] at once
      cases limit with
      | zero =>
          simp at early
      | succ limit =>
          rw [List.take_succ_cons, List.mem_cons] at early ⊢
          rcases early with rfl | early
          · exact Or.inl rfl
          · have different : entry ≠ head := by
              intro equality
              subst equality
              exact once.1 (List.mem_of_mem_take early)
            have later := (List.mem_cons.mp member).resolve_left different
            exact Or.inr (inductionHypothesis once.2 later early)

section Groups

variable {α : Type u} {le : α → α → Bool}
variable (trans : ∀ first second third,
  le first second = true → le second third = true → le first third = true)
variable (total : ∀ first second, (le first second || le second first) = true)

include trans total

open Classical in
/-- Sorting some of the entries picks them from the sorted entries. -/
theorem sortBy_eq_filter {fewer entries : List α} (once : entries.Nodup)
    (fewerOnce : fewer.Nodup) (included : ∀ entry ∈ fewer, entry ∈ entries)
    (antisymm : ∀ first ∈ entries, ∀ second ∈ entries,
      le first second = true → le second first = true → first = second) :
    sortBy le fewer =
      (sortBy le entries).filter (fun entry => entry ∈ fewer) := by
  have sorted := sortBy_perm le entries
  have fewerSorted := sortBy_perm le fewer
  apply List.Perm.eq_of_pairwise _ (pairwise_sortBy trans total fewer)
    ((pairwise_sortBy trans total entries).filter _)
  · rw [List.perm_ext_iff_of_nodup (fewerSorted.nodup_iff.mpr fewerOnce)
      ((sorted.nodup_iff.mpr once).filter _)]
    intro entry
    rw [fewerSorted.mem_iff, List.mem_filter, sorted.mem_iff,
      decide_eq_true_eq]
    exact ⟨fun member => ⟨included entry member, member⟩, And.right⟩
  · intro first second firstMember secondMember
    have firstIs := included first (fewerSorted.mem_iff.mp firstMember)
    have secondIs := sorted.mem_iff.mp (List.mem_of_mem_filter secondMember)
    exact antisymm first firstIs second secondIs

/-- The best of all entries are the best among the best of each group. -/
theorem take_sortBy_flatMap (groups : List (List α)) (limit : Nat)
    (once : groups.flatten.Nodup)
    (antisymm : ∀ first ∈ groups.flatten, ∀ second ∈ groups.flatten,
      le first second = true → le second first = true → first = second) :
    (sortBy le
        (groups.flatMap (fun group => (sortBy le group).take limit))).take
        limit =
      (sortBy le groups.flatten).take limit := by
  classical
  have sorted := sortBy_perm le groups.flatten
  have groupOnce : ∀ group ∈ groups, group.Nodup :=
    (List.nodup_flatten.mp once).1
  have fewerPerm :
      (groups.flatMap (fun group => (sortBy le group).take limit)).Subperm
        groups.flatten := by
    rw [← List.flatMap_id]
    clear once antisymm sorted groupOnce
    induction groups with
    | nil =>
        exact List.Subperm.refl _
    | cons group rest inductionHypothesis =>
        rw [List.flatMap_cons, List.flatMap_cons]
        refine List.Subperm.append ?_ inductionHypothesis
        exact (List.take_sublist limit _).subperm.trans
          (sortBy_perm le group).subperm
  have fewerOnce := nodup_of_subperm fewerPerm once
  rw [sortBy_eq_filter trans total once fewerOnce
    (fun entry member => fewerPerm.subset member) antisymm,
    take_filter_eq_take_iff]
  intro entry early
  have member := sorted.mem_iff.mp (List.mem_of_mem_take early)
  obtain ⟨group, groupMember, inGroup⟩ := List.mem_flatten.mp member
  have included : ∀ other ∈ group, other ∈ groups.flatten :=
    fun other otherMember =>
      List.mem_flatten.mpr ⟨group, groupMember, otherMember⟩
  rw [decide_eq_true_eq, List.mem_flatMap]
  refine ⟨group, groupMember, ?_⟩
  have within :
      (sortBy le group).Sublist (sortBy le groups.flatten) := by
    rw [sortBy_eq_filter trans total once (groupOnce group groupMember)
      included antisymm]
    exact List.filter_sublist
  exact mem_take_of_sublist within (sorted.nodup_iff.mpr once)
    ((sortBy_perm le group).mem_iff.mpr inGroup) early

/-- The same with the limit zero for no limit. -/
theorem truncate_sortBy_flatMap (groups : List (List α)) (limit : Nat)
    (once : groups.flatten.Nodup)
    (antisymm : ∀ first ∈ groups.flatten, ∀ second ∈ groups.flatten,
      le first second = true → le second first = true → first = second) :
    truncate limit (sortBy le
        (groups.flatMap (fun group => truncate limit (sortBy le group)))) =
      truncate limit (sortBy le groups.flatten) := by
  by_cases unlimited : limit = 0
  · simp only [unlimited, truncate_zero]
    have permuted :
        groups.flatten.Perm
          (groups.flatMap (fun group => sortBy le group)) := by
      rw [← List.flatMap_id]
      apply List.Perm.flatMap_left
      intro group _
      exact (sortBy_perm le group).symm
    exact (sortBy_eq_of_perm trans total permuted antisymm).symm
  · simp only [truncate_of_ne_zero unlimited]
    exact take_sortBy_flatMap trans total groups limit once antisymm

end Groups

/-! ## Score descending, then key -/

section ScoreOrder

variable {σ : Type u} {κ : Type v} [LinearOrder σ] [LinearOrder κ]

/-- Compare by score, the highest first, ties broken by key. -/
def cmpScoreKey (first second : σ × κ) : Ordering :=
  (compare second.1 first.1).then (compare first.2 second.2)

theorem isLE_cmpScoreKey_iff (first second : σ × κ) :
    (cmpScoreKey first second).isLE = true ↔
      second.1 < first.1 ∨ (second.1 = first.1 ∧ first.2 ≤ second.2) := by
  rw [cmpScoreKey, Ordering.isLE_then_iff_or, compare_lt_iff_lt,
    compare_eq_iff_eq, ← Ordering.ne_gt_iff_isLE]
  exact or_congr_right (and_congr_right fun _ => compare_le_iff_le)

theorem cmpScoreKey_trans (first second third : σ × κ)
    (forth : (cmpScoreKey first second).isLE = true)
    (onwards : (cmpScoreKey second third).isLE = true) :
    (cmpScoreKey first third).isLE = true := by
  rw [isLE_cmpScoreKey_iff] at *
  rcases forth with higher | ⟨same, before⟩
  · rcases onwards with higher' | ⟨same', -⟩
    · exact Or.inl (higher'.trans higher)
    · exact Or.inl (same' ▸ higher)
  · rcases onwards with higher' | ⟨same', before'⟩
    · exact Or.inl (same ▸ higher')
    · exact Or.inr ⟨same'.trans same, before.trans before'⟩

theorem cmpScoreKey_total (first second : σ × κ) :
    ((cmpScoreKey first second).isLE ||
      (cmpScoreKey second first).isLE) = true := by
  rw [Bool.or_eq_true, isLE_cmpScoreKey_iff, isLE_cmpScoreKey_iff]
  rcases lt_trichotomy first.1 second.1 with lower | same | higher
  · exact Or.inr (Or.inl lower)
  · rcases le_total first.2 second.2 with before | after
    · exact Or.inl (Or.inr ⟨same.symm, before⟩)
    · exact Or.inr (Or.inr ⟨same, after⟩)
  · exact Or.inl (Or.inl higher)

theorem cmpScoreKey_antisymm (first second : σ × κ)
    (forth : (cmpScoreKey first second).isLE = true)
    (back : (cmpScoreKey second first).isLE = true) : first = second := by
  rw [isLE_cmpScoreKey_iff] at forth back
  rcases forth with higher | ⟨same, before⟩
  · rcases back with higher' | ⟨same', -⟩
    · exact absurd higher (lt_asymm higher')
    · exact absurd same' higher.ne'
  · rcases back with higher' | ⟨-, before'⟩
    · exact absurd same higher'.ne'
    · exact Prod.ext same.symm (le_antisymm before before')

end ScoreOrder

/-! ## The best entry of a key -/

section Best

variable {κ : Type u} {ρ : Type v} [LinearOrder ρ]

/-- No entry with the same key has a higher grade. -/
def IsBest (entries : List (κ × ρ)) (entry : κ × ρ) : Prop :=
  entry ∈ entries ∧
    ∀ other ∈ entries, other.1 = entry.1 → other.2 ≤ entry.2

instance [DecidableEq κ] (entries : List (κ × ρ)) (entry : κ × ρ) :
    Decidable (IsBest entries entry) :=
  inferInstanceAs (Decidable (_ ∧ _))

private theorem IsBest.eq_of_key {entries : List (κ × ρ)} {left right : κ × ρ}
    (leftBest : IsBest entries left) (rightBest : IsBest entries right)
    (sameKey : left.1 = right.1) : left = right := by
  have upper := rightBest.2 left leftBest.1 sameKey
  have lower := leftBest.2 right rightBest.1 sameKey.symm
  exact Prod.ext sameKey (le_antisymm upper lower)

theorem exists_isBest [DecidableEq κ]
    {entries : List (κ × ρ)} {entry : κ × ρ} (member : entry ∈ entries) :
    ∃ best, IsBest entries best ∧ best.1 = entry.1 ∧ entry.2 ≤ best.2 := by
  have nonempty :
      (entries.toFinset.filter (fun other => other.1 = entry.1)).Nonempty :=
    ⟨entry, by simp [member]⟩
  obtain ⟨best, bestMember, highest⟩ :=
    Finset.exists_max_image _ Prod.snd nonempty
  simp only [Finset.mem_filter, List.mem_toFinset] at bestMember highest
  refine ⟨best, ⟨bestMember.1, ?_⟩, bestMember.2,
    highest entry ⟨member, rfl⟩⟩
  intro other otherMember sameKey
  exact highest other ⟨otherMember, sameKey.trans bestMember.2⟩

/-- A selection that still holds an entry at least as good as each one it
leaves out has the same best entries. -/
theorem isBest_iff_of_covers {kept entries : List (κ × ρ)}
    (included : ∀ entry ∈ kept, entry ∈ entries)
    (covers : ∀ entry ∈ entries,
      ∃ keeper ∈ kept, keeper.1 = entry.1 ∧ entry.2 ≤ keeper.2)
    (entry : κ × ρ) :
    IsBest kept entry ↔ IsBest entries entry := by
  constructor
  · intro best
    refine ⟨included entry best.1, ?_⟩
    intro other member sameKey
    obtain ⟨keeper, keeperMember, keeperKey, above⟩ := covers other member
    exact above.trans
      (best.2 keeper keeperMember (keeperKey.trans sameKey))
  · intro best
    obtain ⟨keeper, keeperMember, keeperKey, above⟩ := covers entry best.1
    have below := best.2 keeper (included keeper keeperMember) keeperKey
    have same : keeper = entry :=
      Prod.ext keeperKey (le_antisymm below above)
    subst same
    exact ⟨keeperMember, fun other member =>
      best.2 other (included other member)⟩

/-- Leaving out entries that share no key with the rest takes nothing else from
the best entries. -/
theorem isBest_and_not_mem_iff {kept dropped next : List (κ × ρ)}
    (apartKept : ∀ entry ∈ dropped, entry.1 ∉ kept.map Prod.fst)
    (apartNext : ∀ entry ∈ dropped, entry.1 ∉ next.map Prod.fst)
    (entry : κ × ρ) :
    IsBest (kept ++ dropped ++ next) entry ∧ entry ∉ dropped ↔
      IsBest (kept ++ next) entry := by
  constructor
  · intro membership
    rcases membership with ⟨⟨member, highest⟩, notDropped⟩
    simp only [List.mem_append] at member highest
    refine ⟨by simp only [List.mem_append]; tauto, ?_⟩
    intro other otherMember
    apply highest other
    rw [List.mem_append] at otherMember
    tauto
  · intro membership
    rcases membership with ⟨member, highest⟩
    have foreign : ∀ other ∈ dropped, other.1 ≠ entry.1 := by
      intro other otherMember sameKey
      rcases List.mem_append.mp member with old | new
      · exact apartKept other otherMember
          (sameKey ▸ List.mem_map_of_mem old)
      · exact apartNext other otherMember
          (sameKey ▸ List.mem_map_of_mem new)
    refine ⟨⟨?_, ?_⟩, fun inDropped => foreign entry inDropped rfl⟩
    · simp only [List.mem_append] at member ⊢
      tauto
    · intro other otherMember sameKey
      simp only [List.mem_append] at otherMember
      rcases otherMember with (old | out) | new
      · exact highest other (by simp [old]) sameKey
      · exact absurd sameKey (foreign other out)
      · exact highest other (by simp [new]) sameKey

private theorem IsBest.append_of_key_not_mem {entries next : List (κ × ρ)}
    {entry : κ × ρ} (isBest : IsBest entries entry)
    (absent : entry.1 ∉ next.map Prod.fst) :
    IsBest (entries ++ next) entry := by
  refine ⟨List.mem_append_left _ isBest.1, ?_⟩
  intro other member sameKey
  rcases List.mem_append.mp member with old | new
  · exact isBest.2 other old sameKey
  · exact absurd (sameKey ▸ List.mem_map_of_mem new) absent

/-- `kept` holds the best entry of every key, once. -/
structure Condenses (kept entries : List (κ × ρ)) : Prop where
  once : (kept.map Prod.fst).Nodup
  best : ∀ entry, entry ∈ kept ↔ IsBest entries entry

theorem Condenses.perm {kept kept' entries entries' : List (κ × ρ)}
    (left : Condenses kept entries) (right : Condenses kept' entries')
    (same : ∀ entry, IsBest entries entry ↔ IsBest entries' entry) :
    kept.Perm kept' := by
  rw [List.perm_ext_iff_of_nodup (List.Nodup.of_map _ left.once)
    (List.Nodup.of_map _ right.once)]
  intro entry
  rw [left.best, right.best, same]

theorem Condenses.included {kept entries : List (κ × ρ)}
    (condenses : Condenses kept entries) {entry : κ × ρ}
    (member : entry ∈ kept) : entry ∈ entries :=
  ((condenses.best entry).mp member).1

theorem Condenses.covers [DecidableEq κ] {kept entries : List (κ × ρ)}
    (condenses : Condenses kept entries) {entry : κ × ρ}
    (member : entry ∈ entries) :
    ∃ keeper ∈ kept, keeper.1 = entry.1 ∧ entry.2 ≤ keeper.2 := by
  obtain ⟨best, isBest, sameKey, above⟩ := exists_isBest member
  exact ⟨best, (condenses.best best).mpr isBest, sameKey, above⟩

/-- Entries that were condensed group by group have the best entries of all
groups together. -/
theorem isBest_flatten_iff [DecidableEq κ]
    {kept entries : List (List (κ × ρ))}
    (grouped : List.Forall₂ Condenses kept entries) (entry : κ × ρ) :
    IsBest kept.flatten entry ↔ IsBest entries.flatten entry := by
  apply isBest_iff_of_covers
  · induction grouped with
    | nil =>
        simp
    | cons condenses _ inductionHypothesis =>
        intro other member
        rw [List.flatten_cons, List.mem_append] at member ⊢
        rcases member with here | there
        · exact Or.inl (condenses.included here)
        · exact Or.inr (inductionHypothesis other there)
  · induction grouped with
    | nil =>
        simp
    | cons condenses _ inductionHypothesis =>
        intro other member
        rw [List.flatten_cons, List.mem_append] at member
        rcases member with here | there
        · obtain ⟨keeper, keeperMember, found⟩ := condenses.covers here
          exact ⟨keeper, by simp [keeperMember], found⟩
        · obtain ⟨keeper, keeperMember, found⟩ :=
            inductionHypothesis other there
          exact ⟨keeper, by simp [keeperMember], found⟩

/-- The entries that are best of their key, each once. -/
def bests [DecidableEq κ] (entries : List (κ × ρ)) : List (κ × ρ) :=
  (entries.filter (fun entry => IsBest entries entry)).dedup

private theorem condenses_bests [DecidableEq κ] (entries : List (κ × ρ)) :
    Condenses (bests entries) entries where
  once := by
    apply List.Nodup.map_on
    · intro left leftMember right rightMember sameKey
      simp only [bests, List.mem_dedup, List.mem_filter,
        decide_eq_true_eq] at leftMember rightMember
      exact leftMember.2.eq_of_key rightMember.2 sameKey
    · exact List.nodup_dedup _
  best entry := by
    simp only [bests, List.mem_dedup, List.mem_filter, decide_eq_true_eq,
      and_iff_right_iff_imp]
    exact fun isBest => isBest.1

end Best

/-! ## The display order -/

/-- A total order to show entries in.  It may ignore parts of the grade, but it
tells different keys apart. -/
structure Display (κ : Type u) (ρ : Type v) where
  le : κ × ρ → κ × ρ → Bool
  trans : ∀ first second third,
    le first second = true → le second third = true → le first third = true
  total : ∀ first second, (le first second || le second first) = true
  separates : ∀ first second,
    le first second = true → le second first = true → first.1 = second.1

section Display

variable {κ : Type u} {ρ : Type v} [LinearOrder ρ] [DecidableEq κ]
variable (display : Display κ ρ)

/-- The best entry of every key, in display order. -/
def ranking (entries : List (κ × ρ)) : List (κ × ρ) :=
  sortBy display.le (bests entries)

theorem condenses_ranking (entries : List (κ × ρ)) :
    Condenses (ranking display entries) entries where
  once := by
    have sorted := sortBy_perm display.le (bests entries)
    exact (sorted.map Prod.fst).nodup_iff.mpr (condenses_bests entries).once
  best entry := by
    rw [← (condenses_bests entries).best entry, ranking,
      (sortBy_perm display.le (bests entries)).mem_iff]

theorem pairwise_ranking (entries : List (κ × ρ)) :
    (ranking display entries).Pairwise
      (fun first second => display.le first second = true) :=
  pairwise_sortBy display.trans display.total _

theorem mem_ranking {entries : List (κ × ρ)} {entry : κ × ρ} :
    entry ∈ ranking display entries ↔ IsBest entries entry :=
  (condenses_ranking display entries).best entry

/-- The ranking is the only sorted list of the best entries. -/
theorem Condenses.eq_ranking {kept entries : List (κ × ρ)}
    (condenses : Condenses kept entries)
    (sorted : kept.Pairwise
      (fun first second => display.le first second = true)) :
    kept = ranking display entries := by
  apply List.Perm.eq_of_pairwise _ sorted (pairwise_ranking display entries)
  · exact condenses.perm (condenses_ranking display entries)
      (fun _ => Iff.rfl)
  · intro left right leftMember rightMember forth back
    have leftBest := (condenses.best left).mp leftMember
    have rightBest := (mem_ranking display).mp rightMember
    exact leftBest.eq_of_key rightBest
      (display.separates left right forth back)

theorem ranking_congr {entries entries' : List (κ × ρ)}
    (same : ∀ entry, IsBest entries entry ↔ IsBest entries' entry) :
    ranking display entries = ranking display entries' := by
  apply Condenses.eq_ranking display _ (pairwise_ranking display entries)
  refine ⟨(condenses_ranking display entries).once, fun entry => ?_⟩
  rw [mem_ranking, same]

/-- The ranking depends only on which entries there are. -/
theorem ranking_congr_of_mem_iff {entries entries' : List (κ × ρ)}
    (same : ∀ entry, entry ∈ entries ↔ entry ∈ entries') :
    ranking display entries = ranking display entries' := by
  apply ranking_congr
  intro entry
  simp only [IsBest, same]

/-- Every key is ranked once. -/
theorem length_ranking (entries : List (κ × ρ)) :
    (ranking display entries).length =
      (entries.map Prod.fst).toFinset.card := by
  have condenses := condenses_ranking display entries
  have sameKeys :
      ((ranking display entries).map Prod.fst).toFinset =
        (entries.map Prod.fst).toFinset := by
    ext key
    simp only [List.mem_toFinset, List.mem_map]
    constructor
    · intro membership
      rcases membership with ⟨entry, member, rfl⟩
      exact ⟨entry, condenses.included member, rfl⟩
    · intro membership
      rcases membership with ⟨entry, member, rfl⟩
      obtain ⟨keeper, keeperMember, sameKey, -⟩ := condenses.covers member
      exact ⟨keeper, keeperMember, sameKey⟩
  rw [← sameKeys, List.toFinset_card_of_nodup condenses.once,
    List.length_map]

/-! ## Places in the ranking -/

/-- `rival` is shown before `entry`. -/
def ahead (rival entry : κ × ρ) : Bool :=
  !display.le entry rival

/-- The number of keys whose best entry is shown before `entry`. -/
def rivals (entries : List (κ × ρ)) (entry : κ × ρ) : Nat :=
  (bests entries).countP (fun rival => ahead display rival entry)

omit [LinearOrder ρ] [DecidableEq κ] in
/-- In a sorted list without repeated keys an entry is among the first `limit`
when fewer than `limit` entries are ahead of it. -/
theorem mem_take_iff_countP_lt {sorted : List (κ × ρ)} {entry : κ × ρ}
    (ordered : sorted.Pairwise
      (fun first second => display.le first second = true))
    (once : (sorted.map Prod.fst).Nodup) (limit : Nat)
    (member : entry ∈ sorted) :
    entry ∈ sorted.take limit ↔
      sorted.countP (fun rival => ahead display rival entry) < limit := by
  induction sorted generalizing limit with
  | nil =>
      simp at member
  | cons head tail inductionHypothesis =>
      obtain ⟨headFirst, tailOrdered⟩ := List.pairwise_cons.mp ordered
      rw [List.map_cons, List.nodup_cons] at once
      cases limit with
      | zero =>
          simp
      | succ limit =>
          rw [List.take_succ_cons, List.mem_cons, List.countP_cons]
          rcases List.mem_cons.mp member with rfl | inTail
          · -- nothing is ahead of the head
            have noRival :
                tail.countP (fun rival => ahead display rival entry) = 0 := by
              rw [List.countP_eq_zero]
              intro rival rivalMember
              simp [ahead, headFirst rival rivalMember]
            have selfBehind : ahead display entry entry = false := by
              simpa [ahead] using display.total entry entry
            simp [noRival, selfBehind]
          · have headAhead : ahead display head entry = true := by
              rw [ahead, Bool.not_eq_true']
              apply Bool.eq_false_iff.mpr
              intro back
              have sameKey := display.separates head entry
                (headFirst entry inTail) back
              exact once.1 (sameKey ▸ List.mem_map_of_mem inTail)
            have different : entry ≠ head := by
              intro equality
              subst equality
              exact once.1 (List.mem_map_of_mem inTail)
            rw [inductionHypothesis tailOrdered once.2 limit inTail]
            simp [different, headAhead]

theorem mem_take_ranking_iff {entries : List (κ × ρ)} {entry : κ × ρ}
    (isBest : IsBest entries entry) (limit : Nat) :
    entry ∈ (ranking display entries).take limit ↔
      rivals display entries entry < limit := by
  rw [mem_take_iff_countP_lt display (pairwise_ranking display entries)
    (condenses_ranking display entries).once limit
    ((mem_ranking display).mpr isBest), rivals]
  rw [ranking, (sortBy_perm display.le (bests entries)).countP_eq]

private theorem mem_drop_ranking_iff {entries : List (κ × ρ)} {entry : κ × ρ}
    (limit : Nat) :
    entry ∈ (ranking display entries).drop limit ↔
      IsBest entries entry ∧ limit ≤ rivals display entries entry := by
  have parts := List.take_append_drop limit (ranking display entries)
  have once := List.Nodup.of_map _ (condenses_ranking display entries).once
  rw [← parts, List.nodup_append] at once
  constructor
  · intro dropped
    have isBest := (mem_ranking display).mp (List.mem_of_mem_drop dropped)
    refine ⟨isBest, Nat.le_of_not_lt fun early => ?_⟩
    rw [← mem_take_ranking_iff display isBest] at early
    exact once.2.2 entry early entry dropped rfl
  · intro prevailing
    rcases prevailing with ⟨isBest, late⟩
    have ranked := (mem_ranking display).mpr isBest
    rw [← parts, List.mem_append, mem_take_ranking_iff display isBest]
      at ranked
    exact ranked.resolve_left (Nat.not_lt_of_le late)

end Display

/-! ## Collecting batch by batch -/

section Stream

variable {κ : Type u} {ρ : Type v} [LinearOrder ρ] [DecidableEq κ]
variable (display : Display κ ρ) (limit : Nat)

/-- What is shown, and how many entries were dropped because a better one has
the same key. -/
@[ext]
structure Tally (κ : Type u) (ρ : Type v) where
  shown : List (κ × ρ)
  duplicates : Nat

/-- Collect all entries, then rank and cut once. -/
def batch (entries : List (κ × ρ)) : Tally κ ρ where
  shown := truncate limit (ranking display entries)
  duplicates := entries.length - (ranking display entries).length

/-- Add entries to what is shown, then rank and cut again. -/
def absorb (tally : Tally κ ρ) (next : List (κ × ρ)) : Tally κ ρ where
  shown := truncate limit (ranking display (tally.shown ++ next))
  duplicates := tally.duplicates +
    ((tally.shown ++ next).length -
      (ranking display (tally.shown ++ next)).length)

/-- Rank and cut after every batch of entries. -/
def stream (batches : List (List (κ × ρ))) : Tally κ ρ :=
  batches.foldl (absorb display limit) ⟨[], 0⟩

/-- No key that the limit left out is reported again, and none of them climbs
back above the limit. -/
def StaysOut (earlier next : List (κ × ρ)) : Prop :=
  limit = 0 ∨
    ∀ entry, IsBest earlier entry → limit ≤ rivals display earlier entry →
      entry.1 ∉ next.map Prod.fst ∧
        limit ≤ rivals display (earlier ++ next) entry

theorem length_ranking_le (entries : List (κ × ρ)) :
    (ranking display entries).length ≤ entries.length := by
  rw [length_ranking]
  exact (List.toFinset_card_le _).trans (by simp)

private theorem isBest_ranking_append_iff (earlier next : List (κ × ρ))
    (entry : κ × ρ) :
    IsBest (ranking display earlier ++ next) entry ↔
      IsBest (earlier ++ next) entry := by
  have condenses := condenses_ranking display earlier
  apply isBest_iff_of_covers
  · intro other member
    rw [List.mem_append] at member ⊢
    exact member.imp_left condenses.included
  · intro other member
    rcases List.mem_append.mp member with old | new
    · obtain ⟨keeper, keeperMember, found⟩ := condenses.covers old
      exact ⟨keeper, by simp [keeperMember], found⟩
    · exact ⟨other, by simp [new], rfl, le_refl _⟩

theorem ranking_ranking_append (earlier next : List (κ × ρ)) :
    ranking display (ranking display earlier ++ next) =
      ranking display (earlier ++ next) :=
  ranking_congr display (isBest_ranking_append_iff display earlier next)

/-- No key is both within the limit and left out. -/
theorem ranking_parts_apart (earlier : List (κ × ρ)) :
    ∀ entry ∈ (ranking display earlier).drop limit,
      entry.1 ∉ ((ranking display earlier).take limit).map Prod.fst := by
  have once := (condenses_ranking display earlier).once
  rw [← List.take_append_drop limit (ranking display earlier),
    List.map_append, List.nodup_append] at once
  intro entry dropped kept
  exact once.2.2 entry.1 kept entry.1 (List.mem_map_of_mem dropped) rfl

/-- A key the limit left out and the next batch reports is counted as new. -/
theorem length_ranking_append (earlier next : List (κ × ρ)) :
    (ranking display (earlier ++ next)).length +
        ((((ranking display earlier).drop limit).map Prod.fst).toFinset ∩
          (next.map Prod.fst).toFinset).card =
      (ranking display
          ((ranking display earlier).take limit ++ next)).length +
        ((ranking display earlier).drop limit).length := by
  rw [← ranking_ranking_append display earlier next]
  have once := (condenses_ranking display earlier).once
  rw [← List.take_append_drop limit (ranking display earlier),
    List.map_append, List.nodup_append] at once
  obtain ⟨-, droppedOnce, apart⟩ := once
  simp only [length_ranking]
  generalize keptIs : (ranking display earlier).take limit = kept at apart
  generalize droppedIs : (ranking display earlier).drop limit = dropped
    at apart droppedOnce
  rw [← List.take_append_drop limit (ranking display earlier), keptIs,
    droppedIs]
  have disjoint :
      Disjoint (dropped.map Prod.fst).toFinset
        (kept.map Prod.fst).toFinset := by
    rw [Finset.disjoint_left]
    intro key inDropped inKept
    exact apart key (List.mem_toFinset.mp inKept) key
      (List.mem_toFinset.mp inDropped) rfl
  have droppedCard :
      (dropped.map Prod.fst).toFinset.card = dropped.length := by
    rw [List.toFinset_card_of_nodup droppedOnce, List.length_map]
  simp only [List.map_append, List.toFinset_append]
  have union :
      (kept.map Prod.fst).toFinset ∪ (dropped.map Prod.fst).toFinset ∪
          (next.map Prod.fst).toFinset =
        ((kept.map Prod.fst).toFinset ∪ (next.map Prod.fst).toFinset) ∪
          ((dropped.map Prod.fst).toFinset \
            (next.map Prod.fst).toFinset) := by
    ext key
    simp only [Finset.mem_union, Finset.mem_sdiff]
    tauto
  have unionDisjoint :
      Disjoint
        ((kept.map Prod.fst).toFinset ∪ (next.map Prod.fst).toFinset)
        ((dropped.map Prod.fst).toFinset \
          (next.map Prod.fst).toFinset) := by
    rw [Finset.disjoint_union_left]
    exact ⟨disjoint.symm.mono_right Finset.sdiff_subset,
      Finset.disjoint_sdiff⟩
  have split := Finset.card_sdiff_add_card_inter
    (dropped.map Prod.fst).toFinset (next.map Prod.fst).toFinset
  rw [union, Finset.card_union_of_disjoint unionDisjoint]
  omega

/-- While no key that was left out is reported again, ranking what was shown
leaves out only those keys. -/
theorem ranking_take_append {earlier next : List (κ × ρ)}
    (apart : ∀ entry ∈ (ranking display earlier).drop limit,
      entry.1 ∉ next.map Prod.fst) :
    ranking display ((ranking display earlier).take limit ++ next) =
      (ranking display (earlier ++ next)).filter
        (fun entry => entry ∉ (ranking display earlier).drop limit) := by
  symm
  apply Condenses.eq_ranking display
  · refine ⟨?_, fun entry => ?_⟩
    · exact (condenses_ranking display (earlier ++ next)).once.sublist
        (List.filter_sublist.map _)
    · rw [List.mem_filter, decide_eq_true_eq, mem_ranking,
        ← isBest_ranking_append_iff display earlier next entry]
      nth_rewrite 1 [← List.take_append_drop limit (ranking display earlier)]
      apply isBest_and_not_mem_iff
      · exact ranking_parts_apart display limit earlier
      · exact apart
  · exact (pairwise_ranking display (earlier ++ next)).sublist
      List.filter_sublist

private theorem truncate_eq_iff_of_apart {earlier next : List (κ × ρ)}
    (bounded : limit ≠ 0)
    (apart : ∀ entry ∈ (ranking display earlier).drop limit,
      entry.1 ∉ next.map Prod.fst) :
    truncate limit
        (ranking display ((ranking display earlier).take limit ++ next)) =
      truncate limit (ranking display (earlier ++ next)) ↔
      ∀ entry ∈ (ranking display earlier).drop limit,
        limit ≤ rivals display (earlier ++ next) entry := by
  rw [truncate_of_ne_zero bounded, truncate_of_ne_zero bounded,
    ranking_take_append display limit apart, take_filter_eq_take_iff]
  simp only [decide_eq_true_eq]
  constructor
  · intro outside entry dropped
    have isBest : IsBest (earlier ++ next) entry := by
      have stillBest := (mem_ranking display).mp
        (List.mem_of_mem_drop dropped)
      exact stillBest.append_of_key_not_mem (apart entry dropped)
    refine Nat.le_of_not_lt fun early => ?_
    rw [← mem_take_ranking_iff display isBest] at early
    exact outside entry early dropped
  · intro late entry early dropped
    have isBest := (mem_ranking display).mp (List.mem_of_mem_take early)
    rw [mem_take_ranking_iff display isBest] at early
    exact Nat.not_lt_of_le (late entry dropped) early

private theorem duplicates_eq_iff (earlier next : List (κ × ρ)) :
    earlier.length - (ranking display earlier).length +
          (((ranking display earlier).take limit ++ next).length -
            (ranking display
              ((ranking display earlier).take limit ++ next)).length) =
        (earlier ++ next).length -
          (ranking display (earlier ++ next)).length ↔
      ∀ entry ∈ (ranking display earlier).drop limit,
        entry.1 ∉ next.map Prod.fst := by
  have counted := length_ranking_append display limit earlier next
  have parts := congrArg List.length
    (List.take_append_drop limit (ranking display earlier))
  have shorter := length_ranking_le display earlier
  have shorterAll := length_ranking_le display (earlier ++ next)
  have shorterKept := length_ranking_le display
    ((ranking display earlier).take limit ++ next)
  have noneShared :
      (((ranking display earlier).drop limit).map Prod.fst).toFinset ∩
            (next.map Prod.fst).toFinset = ∅ ↔
        ∀ entry ∈ (ranking display earlier).drop limit,
          entry.1 ∉ next.map Prod.fst := by
    rw [← Finset.disjoint_iff_inter_eq_empty, Finset.disjoint_left]
    simp only [List.mem_toFinset]
    exact List.forall_mem_map
  rw [← noneShared, ← Finset.card_eq_zero]
  rw [List.length_append] at parts shorterAll shorterKept
  rw [List.length_append, List.length_append]
  omega

/-- One more batch keeps up with collecting everything exactly when the keys
that were left out stay out. -/
theorem absorb_batch_iff (earlier next : List (κ × ρ)) :
    absorb display limit (batch display limit earlier) next =
        batch display limit (earlier ++ next) ↔
      StaysOut display limit earlier next := by
  by_cases unlimited : limit = 0
  · simp only [unlimited, StaysOut, true_or, iff_true]
    have shorter := length_ranking_le display earlier
    have shorterKept :=
      length_ranking_le display (ranking display earlier ++ next)
    ext1
    · simp [absorb, batch, ranking_ranking_append]
    · simp only [absorb, batch, truncate_zero]
      rw [ranking_ranking_append] at shorterKept ⊢
      rw [List.length_append] at shorterKept ⊢
      rw [List.length_append]
      omega
  · simp only [Tally.ext_iff, absorb, batch, StaysOut, unlimited, false_or,
      truncate_of_ne_zero unlimited (ranking display earlier)]
    rw [duplicates_eq_iff display limit earlier next]
    constructor
    · intro both entry isBest late
      rcases both with ⟨sameShown, apart⟩
      have dropped := (mem_drop_ranking_iff display limit).mpr ⟨isBest, late⟩
      rw [truncate_eq_iff_of_apart display limit unlimited apart] at sameShown
      exact ⟨apart entry dropped, sameShown entry dropped⟩
    · intro staysOut
      have apart :
          ∀ entry ∈ (ranking display earlier).drop limit,
            entry.1 ∉ next.map Prod.fst ∧
              limit ≤ rivals display (earlier ++ next) entry := by
        intro entry dropped
        obtain ⟨isBest, late⟩ := (mem_drop_ranking_iff display limit).mp dropped
        exact staysOut entry isBest late
      have unreported := fun entry dropped => (apart entry dropped).1
      refine ⟨?_, unreported⟩
      rw [truncate_eq_iff_of_apart display limit unlimited unreported]
      exact fun entry dropped => (apart entry dropped).2

theorem stream_append (batches : List (List (κ × ρ)))
    (next : List (κ × ρ)) :
    stream display limit (batches ++ [next]) =
      absorb display limit (stream display limit batches) next := by
  simp [stream]

/-- Cutting after every batch keeps up with collecting everything through a
whole run exactly when at each batch the keys that were left out stay out. -/
theorem stream_eq_batch_iff (batches : List (List (κ × ρ))) :
    (∀ earlier later, batches = earlier ++ later →
        stream display limit earlier =
          batch display limit earlier.flatten) ↔
      ∀ earlier next later, batches = earlier ++ next :: later →
        StaysOut display limit earlier.flatten next := by
  constructor
  · intro keepsUp earlier next later split
    have before := keepsUp earlier (next :: later) split
    have after := keepsUp (earlier ++ [next]) later (by simp [split])
    rw [stream_append, before, List.flatten_append,
      List.flatten_singleton] at after
    exact (absorb_batch_iff display limit earlier.flatten next).mp after
  · intro staysOut earlier
    -- along the batches taken so far, the last one first
    induction earlier using List.reverseRecOn with
    | nil =>
        intro later split
        simp [stream, batch, ranking, sortBy, bests, truncate]
    | append_singleton earlier next inductionHypothesis =>
        intro later split
        have resplit : batches = earlier ++ next :: later := by
          simp [split]
        rw [stream_append, inductionHypothesis (next :: later) resplit,
          List.flatten_append, List.flatten_singleton]
        exact (absorb_batch_iff display limit earlier.flatten next).mpr
          (staysOut earlier next later resplit)

end Stream

end AetherEngine.Ranking
