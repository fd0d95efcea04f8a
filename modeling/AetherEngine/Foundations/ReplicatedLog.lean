import Mathlib.Data.List.Forall2
import Mathlib.Data.List.Nodup

/-!
# Replicated logs

A consensus group is handed entries and agrees on one log of them.  An entry
handed in may be committed late or never, and is committed at most once.  The
replicas apply the log entry by entry, or take over the state of another.
-/

namespace AetherEngine.ReplicatedLog

universe u v

/-! ## The ledger -/

section Ledger

variable {entry : Type u}

/-- What was proposed, which proposals may still be committed, and the log with
the proposal that owns each of its entries. -/
structure Ledger (entry : Type u) where
  proposals : List entry
  submitted : List Nat
  owners : List Nat
  log : List entry
  once : (owners ++ submitted).Nodup
  known : ∀ number ∈ submitted, number < proposals.length
  logged : List.Forall₂ (fun number entry => proposals[number]? = some entry)
    owners log

namespace Ledger

def empty : Ledger entry where
  proposals := []
  submitted := []
  owners := []
  log := []
  once := List.nodup_nil
  known := fun _ member => absurd member List.not_mem_nil
  logged := .nil

private theorem lt_of_owner (ledger : Ledger entry) {number : Nat}
    (owns : number ∈ ledger.owners) : number < ledger.proposals.length := by
  obtain ⟨position, found⟩ := List.mem_iff_getElem?.mp owns
  obtain ⟨inside, same⟩ := List.getElem?_eq_some_iff.mp found
  have owned := ledger.logged.get inside
    (ledger.logged.length_eq ▸ inside)
  rw [List.get_eq_getElem, same] at owned
  exact (List.getElem?_eq_some_iff.mp owned).1

/-- Hand in an entry; its number is the number of proposals before. -/
def propose (ledger : Ledger entry) (proposed : entry) : Ledger entry where
  proposals := ledger.proposals ++ [proposed]
  submitted := ledger.submitted ++ [ledger.proposals.length]
  owners := ledger.owners
  log := ledger.log
  once := by
    have unknown : ledger.proposals.length ∉
        ledger.owners ++ ledger.submitted := by
      intro member
      rcases List.mem_append.mp member with owns | waits
      · exact absurd (ledger.lt_of_owner owns) (Nat.lt_irrefl _)
      · exact absurd (ledger.known _ waits) (Nat.lt_irrefl _)
    rw [← List.append_assoc, ← List.concat_eq_append]
    exact ledger.once.concat unknown
  known number member := by
    rw [List.length_append, List.length_singleton]
    rcases List.mem_append.mp member with waits | isNew
    · exact Nat.lt_succ_of_lt (ledger.known number waits)
    · rw [List.mem_singleton.mp isNew]
      exact Nat.lt_succ_self _
  logged := by
    refine ledger.logged.imp ?_
    intro number entry found
    obtain ⟨inside, -⟩ := List.getElem?_eq_some_iff.mp found
    rw [List.getElem?_append_left inside, found]

/-- Commit a proposal that is waiting. -/
def commit (ledger : Ledger entry) (number : Nat)
    (waits : number ∈ ledger.submitted) : Ledger entry where
  proposals := ledger.proposals
  submitted := ledger.submitted.erase number
  owners := ledger.owners ++ [number]
  log := ledger.log ++
    [ledger.proposals.get ⟨number, ledger.known number waits⟩]
  once := by
    have moved : (ledger.owners ++ ledger.submitted).Perm
        (ledger.owners ++ [number] ++ ledger.submitted.erase number) := by
      rw [List.append_assoc]
      exact (List.perm_cons_erase waits).append_left ledger.owners
    exact moved.nodup_iff.mp ledger.once
  known other member := ledger.known other (List.mem_of_mem_erase member)
  logged := by
    refine List.rel_append ledger.logged (.cons ?_ .nil)
    exact List.getElem?_eq_getElem _

/-- An owner's entry is its proposal. -/
theorem log_of_owner (ledger : Ledger entry) {position number : Nat}
    (owns : ledger.owners[position]? = some number) :
    ledger.log[position]? = ledger.proposals[number]? := by
  obtain ⟨inside, same⟩ := List.getElem?_eq_some_iff.mp owns
  have insideLog := ledger.logged.length_eq ▸ inside
  have owned := ledger.logged.get inside insideLog
  rw [List.get_eq_getElem, same] at owned
  rw [owned, List.get_eq_getElem, List.getElem?_eq_getElem insideLog]

/-- Every entry of the log was proposed. -/
theorem mem_proposals_of_mem_log (ledger : Ledger entry) {logged : entry}
    (member : logged ∈ ledger.log) : logged ∈ ledger.proposals := by
  obtain ⟨position, found⟩ := List.mem_iff_getElem?.mp member
  obtain ⟨inside, -⟩ := List.getElem?_eq_some_iff.mp found
  have insideOwners := ledger.logged.length_eq.symm ▸ inside
  have owns := List.getElem?_eq_getElem insideOwners
  rw [ledger.log_of_owner owns] at found
  exact List.mem_of_getElem? found

/-- A later ledger of the same group. -/
structure Grows (earlier later : Ledger entry) : Prop where
  proposals : earlier.proposals <+: later.proposals
  owners : earlier.owners <+: later.owners
  log : earlier.log <+: later.log

variable {earlier later latest : Ledger entry}

theorem Grows.refl (ledger : Ledger entry) : ledger.Grows ledger :=
  ⟨List.prefix_rfl, List.prefix_rfl, List.prefix_rfl⟩

theorem Grows.trans (first : earlier.Grows later)
    (second : later.Grows latest) : earlier.Grows latest where
  proposals := first.proposals.trans second.proposals
  owners := first.owners.trans second.owners
  log := first.log.trans second.log

theorem grows_propose (ledger : Ledger entry) (proposed : entry) :
    ledger.Grows (ledger.propose proposed) :=
  ⟨List.prefix_append _ _, List.prefix_rfl, List.prefix_rfl⟩

theorem grows_commit (ledger : Ledger entry) (number : Nat)
    (waits : number ∈ ledger.submitted) :
    ledger.Grows (ledger.commit number waits) :=
  ⟨List.prefix_rfl, List.prefix_append _ _, List.prefix_append _ _⟩

theorem Grows.getElem?_proposals (grown : earlier.Grows later)
    {number : Nat} {proposed : entry}
    (found : earlier.proposals[number]? = some proposed) :
    later.proposals[number]? = some proposed := by
  obtain ⟨inside, -⟩ := List.getElem?_eq_some_iff.mp found
  obtain ⟨more, same⟩ := grown.proposals
  rw [← same, List.getElem?_append_left inside, found]

/-- What a replica has applied begins with what it had applied before. -/
theorem Grows.take_log (grown : earlier.Grows later)
    {position reached : Nat} (inside : position ≤ earlier.log.length)
    (further : position ≤ reached) :
    later.log.take reached = earlier.log.take position ++
      (later.log.take reached).drop position := by
  obtain ⟨more, same⟩ := grown.log
  have begins : (later.log.take reached).take position =
      earlier.log.take position := by
    rw [List.take_take, Nat.min_eq_left further, ← same,
      List.take_append_of_le_length inside]
  rw [← begins, List.take_append_drop]

/-- What has been proposed since is logged since. -/
theorem Grows.mem_drop_log (grown : earlier.Grows later) {number : Nat}
    (isNew : earlier.proposals.length ≤ number)
    (owns : number ∈ later.owners) {proposed : entry}
    (found : later.proposals[number]? = some proposed) :
    proposed ∈ later.log.drop earlier.log.length := by
  obtain ⟨position, owned⟩ := List.mem_iff_getElem?.mp owns
  have since : earlier.log.length ≤ position := by
    by_contra before
    have inside : position < earlier.owners.length := by
      have sameLength := earlier.logged.length_eq
      omega
    obtain ⟨more, same⟩ := grown.owners
    rw [← same, List.getElem?_append_left inside] at owned
    have old := earlier.lt_of_owner (List.mem_of_getElem? owned)
    omega
  rw [← later.log_of_owner owned,
    ← Nat.add_sub_cancel' since, ← List.getElem?_drop] at found
  exact List.mem_of_getElem? found

end Ledger

end Ledger

/-! ## Replicas -/

section Replicas

variable {entry : Type u} {state : Type v}

/-- A replica's state and how many entries it has applied. -/
structure Copy (state : Type v) where
  state : state
  position : Nat

/-- The state shows the entries before the replica's position. -/
structure Follows (shows : List entry → state → Prop) (log : List entry)
    (copy : Copy state) : Prop where
  inside : copy.position ≤ log.length
  shown : shows (log.take copy.position) copy.state

variable {shows : List entry → state → Prop} {log : List entry}
  {copy : Copy state}

theorem follows_fresh {fresh : state} (begins : shows [] fresh) :
    Follows shows log ⟨fresh, 0⟩ where
  inside := Nat.zero_le _
  shown := by
    rw [List.take_zero]
    exact begins

theorem Follows.grows (follows : Follows shows log copy)
    (more : List entry) : Follows shows (log ++ more) copy where
  inside := by
    rw [List.length_append]
    exact Nat.le_add_right_of_le follows.inside
  shown := by
    rw [List.take_append_of_le_length follows.inside]
    exact follows.shown

/-- Apply the next entry. -/
theorem Follows.next (follows : Follows shows log copy) {applied : entry}
    (found : log[copy.position]? = some applied) {after : state}
    (applies : ∀ before, shows before copy.state →
      shows (before ++ [applied]) after) :
    Follows shows log ⟨after, copy.position + 1⟩ where
  inside := (List.getElem?_eq_some_iff.mp found).1
  shown := by
    rw [List.take_add_one, found]
    exact applies _ follows.shown

/-- Take over a state that shows the same. -/
theorem Follows.install (follows : Follows shows log copy)
    {installed : state}
    (same : ∀ before, shows before copy.state → shows before installed) :
    Follows shows log ⟨installed, copy.position⟩ where
  inside := follows.inside
  shown := same _ follows.shown

end Replicas

end AetherEngine.ReplicatedLog
