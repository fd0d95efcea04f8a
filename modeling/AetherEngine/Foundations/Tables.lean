import Mathlib.Algebra.BigOperators.Group.List.Basic
import Mathlib.Algebra.BigOperators.Group.List.Lemmas
import Mathlib.Algebra.GroupWithZero.Nat
import Mathlib.Data.List.Induction
import Mathlib.Data.List.Dedup
import Mathlib.Data.List.Perm.Basic
import Std.Data.ExtTreeMap

/-!
# Counting tables and buckets

Two uses of a map: a table that counts how often each key occurs in a list, and
a table of buckets that items are added to and taken out of.  Emptied buckets
are dropped from the table, and a missing bucket reads as an empty one.
-/

namespace AetherEngine.Tables

universe u v w

/-- One more element at the end changes nothing at the other places. -/
theorem getElem?_concat_of_ne {α : Type v} {items : List α} {last : α}
    {place : Nat} (different : place ≠ items.length) :
    (items ++ [last])[place]? = items[place]? := by
  by_cases inside : place < items.length
  · rw [List.getElem?_append_left inside]
  · have beyond : (items ++ [last]).length ≤ place := by
      rw [List.length_append, List.length_singleton]
      omega
    rw [List.getElem?_eq_none beyond, List.getElem?_eq_none (by omega)]

variable {κ : Type u} {α : Type v} [Ord κ] [Std.TransOrd κ]
  [Std.LawfulEqOrd κ] [DecidableEq κ]

theorem getElem?_insert (table : Std.ExtTreeMap κ α) (key other : κ)
    (value : α) :
    (table.insert key value)[other]? =
      if key = other then some value else table[other]? := by
  simp only [Std.ExtTreeMap.getElem?_insert,
    Std.LawfulEqCmp.compare_eq_iff_eq]

theorem getElem?_erase (table : Std.ExtTreeMap κ α) (key other : κ) :
    (table.erase key)[other]? =
      if key = other then none else table[other]? := by
  simp only [Std.ExtTreeMap.getElem?_erase,
    Std.LawfulEqCmp.compare_eq_iff_eq]

theorem getElem?_alter (table : Std.ExtTreeMap κ α) (key other : κ)
    (change : Option α → Option α) :
    (table.alter key change)[other]? =
      if key = other then change table[key]? else table[other]? := by
  simp only [Std.ExtTreeMap.getElem?_alter,
    Std.LawfulEqCmp.compare_eq_iff_eq]

omit [DecidableEq κ] in
theorem nodup_keys (table : Std.ExtTreeMap κ α) :
    (table.toList.map Prod.fst).Nodup := by
  rw [List.Nodup, List.pairwise_map]
  refine Std.ExtTreeMap.distinct_keys_toList.imp ?_
  intro first second different
  rwa [Std.LawfulEqCmp.compare_eq_iff_eq] at different

omit [DecidableEq κ] in
theorem mem_toList (table : Std.ExtTreeMap κ α) (key : κ) (value : α) :
    (key, value) ∈ table.toList ↔ table[key]? = some value :=
  Std.ExtTreeMap.mem_toList_iff_getElem?_eq_some

theorem getElem?_foldl_erase {β : Type w} (keyOf : β → κ) (doomed : List β)
    (table : Std.ExtTreeMap κ α) (key : κ) :
    (doomed.foldl (fun table item => table.erase (keyOf item)) table)[key]? =
      if ∃ item ∈ doomed, keyOf item = key then none else table[key]? := by
  induction doomed generalizing table with
  | nil =>
      simp
  | cons item rest inductionHypothesis =>
      rw [List.foldl_cons, inductionHypothesis, getElem?_erase]
      by_cases later : ∃ item ∈ rest, keyOf item = key
      · simp [later]
      · by_cases same : keyOf item = key
        · simp [same]
        · simp [later, same]

/-- An inserted entry replaces the entry of its key. -/
theorem toList_insert_perm (table : Std.ExtTreeMap κ α) (key : κ) (value : α) :
    (table.insert key value).toList.Perm
      ((key, value) :: (table.erase key).toList) := by
  have fresh : (key, value) ∉ (table.erase key).toList := by
    rw [mem_toList, getElem?_erase, if_pos rfl]
    simp
  rw [List.perm_ext_iff_of_nodup (List.Nodup.of_map _ (nodup_keys _))
    (List.nodup_cons.mpr ⟨fresh, List.Nodup.of_map _ (nodup_keys _)⟩)]
  intro pair
  rcases pair with ⟨other, content⟩
  rw [List.mem_cons, mem_toList, mem_toList, getElem?_insert, getElem?_erase]
  by_cases same : key = other
  · subst same
    simp [eq_comm]
  · simp [same, Ne.symm same]

/-- An entry stands beside those of the other keys. -/
theorem toList_perm_of_getElem? {table : Std.ExtTreeMap κ α} {key : κ}
    {value : α} (found : table[key]? = some value) :
    table.toList.Perm ((key, value) :: (table.erase key).toList) := by
  have unchanged : table.insert key value = table := by
    apply Std.ExtTreeMap.ext_getElem?
    intro other
    rw [getElem?_insert]
    by_cases same : key = other
    · rw [if_pos same, ← same, found]
    · rw [if_neg same]
  have inserted := toList_insert_perm table key value
  rwa [unchanged] at inserted

theorem erase_of_getElem?_none {table : Std.ExtTreeMap κ α} {key : κ}
    (absent : table[key]? = none) : table.erase key = table := by
  apply Std.ExtTreeMap.ext_getElem?
  intro other
  rw [getElem?_erase]
  by_cases same : key = other
  · rw [if_pos same, ← same, absent]
  · rw [if_neg same]

/-- Every entry of a table filled from nothing was written there. -/
theorem exists_of_getElem?_foldl_insert {β : Type w} {keyOf : β → κ}
    {valueOf : β → α} {items : List β} {key : κ} {value : α}
    (found : (items.foldl
      (fun table item => table.insert (keyOf item) (valueOf item))
      (∅ : Std.ExtTreeMap κ α))[key]? = some value) :
    ∃ item ∈ items, keyOf item = key ∧ valueOf item = value := by
  induction items using List.reverseRecOn with
  | nil =>
      simp at found
  | append_singleton earlier last inductionHypothesis =>
      rw [List.foldl_append, List.foldl_cons, List.foldl_nil,
        getElem?_insert] at found
      by_cases same : keyOf last = key
      · rw [if_pos same, Option.some.injEq] at found
        exact ⟨last, by simp, same, found⟩
      · rw [if_neg same] at found
        obtain ⟨item, member, keyIs, valueIs⟩ := inductionHypothesis found
        exact ⟨item, by simp [member], keyIs, valueIs⟩

/-- What was written is not missing. -/
theorem foldl_insert_getElem?_ne_none {β : Type w} {keyOf : β → κ}
    {valueOf : β → α} {items : List β} {item : β} (member : item ∈ items) :
    (items.foldl (fun table item => table.insert (keyOf item) (valueOf item))
      (∅ : Std.ExtTreeMap κ α))[keyOf item]? ≠ none := by
  induction items using List.reverseRecOn with
  | nil =>
      simp at member
  | append_singleton earlier last inductionHypothesis =>
      rw [List.foldl_append, List.foldl_cons, List.foldl_nil,
        getElem?_insert]
      by_cases same : keyOf last = keyOf item
      · simp [same]
      · rw [if_neg same]
        rcases List.mem_append.mp member with old | new
        · exact inductionHypothesis old
        · rw [List.mem_singleton.mp new] at same
          exact absurd rfl same

/-- A table filled under distinct keys holds what was written. -/
theorem toList_foldl_insert_perm {β : Type w} {keyOf : β → κ}
    (valueOf : β → α) {items : List β} (once : (items.map keyOf).Nodup) :
    (items.foldl (fun table item => table.insert (keyOf item) (valueOf item))
      (∅ : Std.ExtTreeMap κ α)).toList.Perm
      (items.map (fun item => (keyOf item, valueOf item))) := by
  induction items using List.reverseRecOn with
  | nil =>
      simp
  | append_singleton earlier last inductionHypothesis =>
      rw [List.map_append, List.nodup_append] at once
      have absent : (earlier.foldl
          (fun table item => table.insert (keyOf item) (valueOf item))
          (∅ : Std.ExtTreeMap κ α))[keyOf last]? = none := by
        apply Option.eq_none_iff_forall_ne_some.mpr
        intro value found
        obtain ⟨item, member, keyIs, -⟩ :=
          exists_of_getElem?_foldl_insert found
        exact once.2.2 _ (List.mem_map_of_mem member) (keyOf last) (by simp)
          keyIs
      rw [List.foldl_append, List.foldl_cons, List.foldl_nil, List.map_append]
      refine (toList_insert_perm ..).trans ?_
      rw [erase_of_getElem?_none absent]
      exact ((inductionHypothesis once.1).cons _).trans
        (List.perm_append_singleton _ _).symm

omit [Ord κ] [Std.TransOrd κ] [Std.LawfulEqOrd κ] in
/-- A list without repeated keys holds at most one item of a key. -/
theorem filter_keyOf_eq_singleton {keyOf : α → κ} {items : List α} {item : α}
    (once : (items.map keyOf).Nodup) (member : item ∈ items) :
    items.filter (fun other => keyOf other = keyOf item) = [item] := by
  induction items with
  | nil =>
      simp at member
  | cons head tail inductionHypothesis =>
      rw [List.map_cons, List.nodup_cons] at once
      rcases List.mem_cons.mp member with rfl | later
      · have absent :
            tail.filter (fun other => keyOf other = keyOf item) = [] := by
          rw [List.filter_eq_nil_iff]
          intro other otherMember sameKey
          rw [decide_eq_true_eq] at sameKey
          exact once.1 (List.mem_map.mpr ⟨other, otherMember, sameKey⟩)
        simp [absent]
      · have different : keyOf head ≠ keyOf item := by
          intro sameKey
          exact once.1 (List.mem_map.mpr ⟨item, later, sameKey.symm⟩)
        rw [List.filter_cons_of_neg (by simpa using different)]
        exact inductionHypothesis once.2 later

omit [Ord κ] [Std.TransOrd κ] [Std.LawfulEqOrd κ] in
/-- A list of pairs without repeated keys holds at most one pair of a key. -/
theorem filter_key_eq_singleton {entries : List (κ × α)} {key : κ} {value : α}
    (once : (entries.map Prod.fst).Nodup) (member : (key, value) ∈ entries) :
    entries.filter (fun entry => entry.1 = key) = [(key, value)] :=
  filter_keyOf_eq_singleton once member

/-- The pairs of one key in a table. -/
theorem filter_toList_key (table : Std.ExtTreeMap κ α) (key : κ) :
    table.toList.filter (fun entry => entry.1 = key) =
      table[key]?.toList.map (fun value => (key, value)) := by
  cases found : table[key]? with
  | none =>
      rw [Option.toList_none, List.map_nil, List.filter_eq_nil_iff]
      intro entry member same
      rw [decide_eq_true_eq] at same
      rw [← same, (mem_toList _ _ _).mp member] at found
      cases found
  | some value =>
      rw [filter_key_eq_singleton (nodup_keys _)
        ((mem_toList _ _ _).mpr found)]
      rfl

omit [Ord κ] [Std.TransOrd κ] [Std.LawfulEqOrd κ] in
/-- The pairs of one key among lists spread out into pairs. -/
theorem filter_spread (groups : List (κ × List α)) (key : κ) :
    (groups.flatMap
        (fun group => group.2.map (fun value => (group.1, value)))).filter
        (fun entry => entry.1 = key) =
      (groups.filter (fun group => group.1 = key)).flatMap
        (fun group => group.2.map (fun value => (group.1, value))) := by
  induction groups with
  | nil =>
      rfl
  | cons group rest inductionHypothesis =>
      rw [List.flatMap_cons, List.filter_append, inductionHypothesis,
        List.filter_map]
      by_cases same : group.1 = key
      · rw [List.filter_cons_of_pos (by simpa using same), List.flatMap_cons,
          List.filter_eq_self.mpr]
        intro value _
        simpa using same
      · rw [List.filter_cons_of_neg (by simpa using same),
          List.filter_eq_nil_iff.mpr, List.map_nil, List.nil_append]
        intro value _
        simpa using same

omit [Ord κ] [Std.TransOrd κ] [Std.LawfulEqOrd κ] in
/-- Pairs are the same up to order when the pairs of every key are. -/
theorem perm_of_filter_key {first second : List (κ × α)}
    (same : ∀ key, (first.filter (fun entry => entry.1 = key)).Perm
      (second.filter (fun entry => entry.1 = key))) : first.Perm second := by
  classical
  rw [List.perm_iff_count]
  intro entry
  have counted := List.perm_iff_count.mp (same entry.1) entry
  rwa [List.count_filter (by simp), List.count_filter (by simp)] at counted

/-! ## Counting -/

def bump (counts : Std.ExtTreeMap κ Nat) (item : κ) : Std.ExtTreeMap κ Nat :=
  counts.alter item (fun seen => some (seen.getD 0 + 1))

/-- How often each key occurs. -/
def histogram (items : List κ) : Std.ExtTreeMap κ Nat :=
  items.foldl bump ∅

theorem getElem?_histogram (items : List κ) (key : κ) :
    (histogram items)[key]? =
      if items.count key = 0 then none else some (items.count key) := by
  induction items using List.reverseRecOn with
  | nil =>
      simp [histogram]
  | append_singleton earlier item inductionHypothesis =>
      have step :
          histogram (earlier ++ [item]) = bump (histogram earlier) item := by
        simp [histogram]
      rw [step, bump, getElem?_alter, List.count_append, List.count_singleton]
      by_cases same : item = key
      · subst same
        rw [if_pos rfl, inductionHypothesis]
        by_cases fresh : earlier.count item = 0
        · simp [fresh]
        · simp [fresh]
      · simp [same, inductionHypothesis]

theorem histogram_perm {items items' : List κ} (permuted : items.Perm items') :
    histogram items = histogram items' := by
  apply Std.ExtTreeMap.ext_getElem?
  intro key
  rw [getElem?_histogram, getElem?_histogram, permuted.count_eq]

/-- The counts add up to the number of items. -/
theorem sum_histogram (items : List κ) :
    ((histogram items).toList.map Prod.snd).sum = items.length := by
  have counted :
      (histogram items).toList.map Prod.snd =
        ((histogram items).toList.map Prod.fst).map
          (fun key => items.count key) := by
    rw [List.map_map]
    apply List.map_congr_left
    intro pair member
    rcases pair with ⟨key, count⟩
    rw [mem_toList, getElem?_histogram] at member
    by_cases absent : items.count key = 0
    · simp [absent] at member
    · simpa [absent] using member.symm
  have keys :
      ((histogram items).toList.map Prod.fst).Perm items.dedup := by
    rw [List.perm_ext_iff_of_nodup (nodup_keys _) (List.nodup_dedup _)]
    intro key
    rw [List.mem_dedup, List.mem_map, ← @List.count_pos_iff _ _ _ key items]
    constructor
    · intro membership
      rcases membership with ⟨⟨found, count⟩, member, rfl⟩
      rw [mem_toList, getElem?_histogram] at member
      by_cases absent : items.count found = 0
      · simp [absent] at member
      · exact Nat.pos_of_ne_zero absent
    · intro present
      refine ⟨(key, items.count key), ?_, rfl⟩
      rw [mem_toList, getElem?_histogram, if_neg present.ne']
  rw [counted, (keys.map _).sum_eq, List.sum_map_count_dedup_eq_length]

/-! ## Buckets -/

/-- The items filed under a key. -/
def bucket (table : Std.ExtTreeMap κ (List α)) (key : κ) : List α :=
  table[key]?.getD []

/-- File an item under a key, behind those already there. -/
def deposit (table : Std.ExtTreeMap κ (List α)) (key : κ) (item : α) :
    Std.ExtTreeMap κ (List α) :=
  table.alter key (fun held => some (held.getD [] ++ [item]))

/-- Take the items that do not pass out of a bucket; drop it if it is left
empty. -/
def retain (keep : α → Bool) (table : Std.ExtTreeMap κ (List α)) (key : κ) :
    Std.ExtTreeMap κ (List α) :=
  match table[key]? with
  | some held =>
      if (held.filter keep).isEmpty then
        table.erase key
      else
        table.insert key (held.filter keep)
  | none => table

theorem bucket_deposit (table : Std.ExtTreeMap κ (List α)) (key other : κ)
    (item : α) :
    bucket (deposit table key item) other =
      if key = other then bucket table other ++ [item]
      else bucket table other := by
  rw [bucket, deposit, getElem?_alter]
  by_cases same : key = other
  · subst same
    simp [bucket]
  · simp [same, bucket]

private theorem bucket_retain (keep : α → Bool)
    (table : Std.ExtTreeMap κ (List α))
    (key other : κ) :
    bucket (retain keep table key) other =
      if key = other then (bucket table other).filter keep
      else bucket table other := by
  cases found : table[key]? with
  | none =>
      by_cases same : key = other
      · subst same
        simp [retain, bucket, found]
      · simp [retain, found, same]
  | some held =>
      by_cases emptied : (held.filter keep).isEmpty = true
      · simp only [retain, found, if_pos emptied, bucket, getElem?_erase]
        by_cases same : key = other
        · subst same
          rw [List.isEmpty_iff] at emptied
          simp [found, emptied]
        · simp [same]
      · simp only [retain, found, if_neg emptied, bucket, getElem?_insert]
        by_cases same : key = other
        · subst same
          simp [found]
        · simp [same]

theorem bucket_foldl_retain (keep : α → Bool) (keys : List κ)
    (table : Std.ExtTreeMap κ (List α)) (other : κ) :
    bucket (keys.foldl (retain keep) table) other =
      if other ∈ keys then (bucket table other).filter keep
      else bucket table other := by
  induction keys generalizing table with
  | nil =>
      simp
  | cons key rest inductionHypothesis =>
      rw [List.foldl_cons, inductionHypothesis, bucket_retain]
      by_cases same : key = other
      · simp [same]
      · have different : other ≠ key := fun equal => same equal.symm
        simp [same, different]

theorem bucket_foldl_deposit {β : Type w} (item : β → α)
    (entries : List (κ × β)) (table : Std.ExtTreeMap κ (List α)) (other : κ) :
    bucket (entries.foldl
        (fun table entry => deposit table entry.1 (item entry.2)) table)
        other =
      bucket table other ++
        (entries.filter (fun entry => entry.1 = other)).map
          (fun entry => item entry.2) := by
  induction entries generalizing table with
  | nil =>
      simp
  | cons entry rest inductionHypothesis =>
      rw [List.foldl_cons, inductionHypothesis, bucket_deposit]
      by_cases same : entry.1 = other
      · simp [same]
      · simp [same]

/-- No bucket of the table is left empty. -/
def NoEmptyBucket (table : Std.ExtTreeMap κ (List α)) : Prop :=
  ∀ key : κ, table[key]? ≠ some []

theorem noEmptyBucket_deposit {table : Std.ExtTreeMap κ (List α)}
    (filled : NoEmptyBucket table) (key : κ) (item : α) :
    NoEmptyBucket (deposit table key item) := by
  intro other
  rw [deposit, getElem?_alter]
  by_cases same : key = other
  · rw [if_pos same]
    simp
  · rw [if_neg same]
    exact filled other

theorem noEmptyBucket_retain {table : Std.ExtTreeMap κ (List α)}
    (filled : NoEmptyBucket table) (keep : α → Bool) (key : κ) :
    NoEmptyBucket (retain keep table key) := by
  intro other
  cases found : table[key]? with
  | none =>
      simp only [retain, found]
      exact filled other
  | some held =>
      by_cases emptied : (held.filter keep).isEmpty = true
      · simp only [retain, found, if_pos emptied, getElem?_erase]
        by_cases same : key = other
        · simp [same]
        · rw [if_neg same]
          exact filled other
      · simp only [retain, found, if_neg emptied, getElem?_insert]
        by_cases same : key = other
        · rw [if_pos same]
          intro equality
          rw [Option.some.injEq] at equality
          exact emptied (List.isEmpty_iff.mpr equality)
        · rw [if_neg same]
          exact filled other

end AetherEngine.Tables
