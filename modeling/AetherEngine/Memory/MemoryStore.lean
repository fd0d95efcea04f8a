import AetherEngine.Foundations.Runs
import AetherEngine.Shard.InvertedIndex

/-!
# Agent memory

A namespaced store of remembered texts.  An entry carries its writer and a time
to live; a writer may hold a limited number of live entries in a namespace.
Expired entries are skipped when memories are recalled, and dropped by sweeps:
each write sweeps its namespace first.

The deadline of an entry is computed in 64 bits and wraps around.  Recalling
everything gives exactly the accepted entries that are still alive as long as
no accepted entry has a deadline beyond 64 bits.
-/

namespace AetherEngine.Memory

open AetherEngine.Ranking
open AetherEngine.Runs
open AetherEngine.Tables

/-! ## The store -/

/-- What the store takes from the standard library. -/
structure TextRules extends Shard.TextRules where
  isWhitespace : Char → Bool

structure MemoryEntry where
  id : UInt64
  ns : String
  text : String
  writer : String
  createdMs : UInt64
  ttlSecs : UInt64
deriving DecidableEq, Repr

/-- The deadline is a sum of 64 bits, without a check for overflow. -/
def MemoryEntry.expiredAt (entry : MemoryEntry) (nowMs : UInt64) : Bool :=
  entry.ttlSecs ≠ 0 ∧ entry.createdMs + entry.ttlSecs * 1000 ≤ nowMs

inductive WriteError where
  | quotaExceeded (writer : String) (quota : Nat)
  | malformed (message : String)
deriving DecidableEq, Repr

structure MemoryStore where
  byNs : Std.ExtTreeMap String (List MemoryEntry)
  nextId : UInt64
  /-- How many live entries a writer may hold in a namespace. -/
  quotaPerWriter : Nat

def tokenize (rules : TextRules) (text : String) : List String :=
  Shard.tokenize rules.toTextRules text

namespace MemoryStore

def new (quotaPerWriter : Nat) : MemoryStore where
  byNs := ∅
  nextId := 0
  quotaPerWriter := quotaPerWriter

/-- Drop the expired entries of a namespace; tells how many. -/
def sweepNamespace (store : MemoryStore) (ns : String) (nowMs : UInt64) :
    MemoryStore × Nat :=
  match store.byNs[ns]? with
  | some entries =>
      let kept := entries.filter fun entry => !entry.expiredAt nowMs
      ({ store with byNs := store.byNs.insert ns kept },
        entries.length - kept.length)
  | none => (store, 0)

/-- Drop the expired entries of every namespace; tells how many. -/
def sweep (order : IterationOrder String) (store : MemoryStore)
    (nowMs : UInt64) : MemoryStore × Nat :=
  (order.arrange store.byNs.keys).foldl
    (fun swept ns =>
      let (store, dropped) := swept.1.sweepNamespace ns nowMs
      (store, swept.2 + dropped))
    (store, 0)

/-- Nothing is left of the text without the whitespace around it. -/
def blank (rules : TextRules) (text : String) : Bool :=
  text.toList.all rules.isWhitespace

/-- Write one entry.  A refused write may have swept its namespace. -/
def remember (rules : TextRules) (store : MemoryStore)
    (ns text writer : String) (ttlSecs nowMs : UInt64) :
    MemoryStore × Except WriteError UInt64 :=
  if blank rules ns then
    (store, .error (.malformed "namespace is required"))
  else if blank rules text then
    (store, .error (.malformed "text is required"))
  else if blank rules writer then
    (store, .error (.malformed "writer attribution is required"))
  else
    let store := (store.sweepNamespace ns nowMs).1
    let liveByWriter :=
      ((bucket store.byNs ns).filter fun entry => entry.writer = writer).length
    if store.quotaPerWriter ≤ liveByWriter then
      (store, .error (.quotaExceeded writer store.quotaPerWriter))
    else
      let id := store.nextId
      ({ store with
          nextId := store.nextId + 1
          byNs := deposit store.byNs ns
            { id := id
              ns := ns
              text := text
              writer := writer
              createdMs := nowMs
              ttlSecs := ttlSecs } },
        .ok id)

/-- More overlap first, then the freshest. -/
def cmpRecalled (first second : Nat × MemoryEntry) : Ordering :=
  (compare second.1 first.1).then
    (compare second.2.createdMs first.2.createdMs)

/-- The live entries of a namespace that share a term with the query, all of
them for a query without terms; the limit zero means no limit. -/
def «recall» (rules : TextRules) (store : MemoryStore) (ns query : String)
    (limit : Nat) (nowMs : UInt64) : List MemoryEntry :=
  let terms := tokenize rules query
  let live := (bucket store.byNs ns).filter fun entry => !entry.expiredAt nowMs
  let hits := live.filterMap fun entry =>
    let tokens := tokenize rules entry.text
    let overlap := (terms.filter fun term => term ∈ tokens).length
    if terms.isEmpty || 0 < overlap then some (overlap, entry) else none
  let sorted :=
    sortBy (fun first second => (cmpRecalled first second).isLE) hits
  truncate limit (sorted.map Prod.snd)

/-- Live entry count of a namespace. -/
def len (store : MemoryStore) (ns : String) (nowMs : UInt64) : Nat :=
  ((bucket store.byNs ns).filter fun entry => !entry.expiredAt nowMs).length

end MemoryStore

/-! ## Runs -/

inductive MemoryCall where
  | remember (ns text writer : String) (ttlSecs nowMs : UInt64)
  | sweep (order : IterationOrder String) (nowMs : UInt64)

def MemoryCall.nowMs : MemoryCall → UInt64
  | .remember _ _ _ _ nowMs => nowMs
  | .sweep _ nowMs => nowMs

/-- The store, the time of the last call and every entry whose write was
accepted. -/
structure Ledger where
  store : MemoryStore
  clock : UInt64
  accepted : List MemoryEntry

namespace Ledger

variable (rules : TextRules)

def start (quotaPerWriter : Nat) : Ledger where
  store := .new quotaPerWriter
  clock := 0
  accepted := []

def step (ledger : Ledger) : MemoryCall → Ledger
  | .remember ns text writer ttlSecs nowMs =>
      let (store, outcome) :=
        ledger.store.remember rules ns text writer ttlSecs nowMs
      { store := store
        clock := nowMs
        accepted :=
          match outcome with
          | .ok id => ledger.accepted ++ [⟨id, ns, text, writer, nowMs, ttlSecs⟩]
          | .error _ => ledger.accepted }
  | .sweep order nowMs =>
      { ledger with
        store := (ledger.store.sweep order nowMs).1
        clock := nowMs }

end Ledger

/-- The time to live has not passed, in exact numbers. -/
def MemoryEntry.LiveAt (entry : MemoryEntry) (nowMs : UInt64) : Prop :=
  entry.ttlSecs = 0 ∨
    nowMs.toNat < entry.createdMs.toNat + 1000 * entry.ttlSecs.toNat

instance (entry : MemoryEntry) (nowMs : UInt64) :
    Decidable (entry.LiveAt nowMs) :=
  inferInstanceAs (Decidable (_ ∨ _))

/-- The deadline, if there is one, is a number of 64 bits. -/
def MemoryEntry.DeadlineFits (createdMs ttlSecs : UInt64) : Prop :=
  ttlSecs = 0 ∨ createdMs.toNat + 1000 * ttlSecs.toNat < 2 ^ 64

instance (createdMs ttlSecs : UInt64) :
    Decidable (MemoryEntry.DeadlineFits createdMs ttlSecs) :=
  inferInstanceAs (Decidable (_ ∨ _))

/-- The arguments are not blank, and the writer holds fewer live entries than
its quota. -/
def MemoryStore.Accepts (rules : TextRules) (store : MemoryStore)
    (ns text writer : String) (nowMs : UInt64) : Prop :=
  blank rules ns = false ∧ blank rules text = false ∧
    blank rules writer = false ∧
      ((bucket store.byNs ns).filter fun entry =>
        !entry.expiredAt nowMs && decide (entry.writer = writer)).length <
          store.quotaPerWriter

instance (rules : TextRules) (store : MemoryStore) (ns text writer : String)
    (nowMs : UInt64) : Decidable (store.Accepts rules ns text writer nowMs) :=
  inferInstanceAs (Decidable (_ ∧ _))

namespace Ledger

variable (rules : TextRules)

/-- From now on, recalling everything in a namespace gives exactly the accepted
entries of that namespace that are alive. -/
def RecallsExactly (ledger : Ledger) : Prop :=
  ∀ ns nowMs, ledger.clock ≤ nowMs →
    (ledger.store.recall rules ns "" 0 nowMs).Perm
      (ledger.accepted.filter fun entry =>
        decide (entry.ns = ns ∧ entry.LiveAt nowMs))

/-- A sweep, or a write to another namespace, does not change what is
recalled from then on. -/
def LeavesOthers (ledger : Ledger) (call : MemoryCall) : Prop :=
  ∀ ns nowMs, call.nowMs ≤ nowMs →
    (∀ text writer ttlSecs writtenMs,
      call ≠ .remember ns text writer ttlSecs writtenMs) →
        (ledger.step rules call).store.recall rules ns "" 0 nowMs =
          ledger.store.recall rules ns "" 0 nowMs

/-- A write that is accepted has a deadline of 64 bits. -/
def StepFits (ledger : Ledger) : MemoryCall → Prop
  | .remember ns text writer ttlSecs nowMs =>
      ledger.store.Accepts rules ns text writer nowMs →
        MemoryEntry.DeadlineFits nowMs ttlSecs
  | .sweep _ _ => True

instance (ledger : Ledger) :
    (call : MemoryCall) → Decidable (ledger.StepFits rules call)
  | .remember ns text writer ttlSecs nowMs =>
      inferInstanceAs
        (Decidable (ledger.store.Accepts rules ns text writer nowMs →
          MemoryEntry.DeadlineFits nowMs ttlSecs))
  | .sweep _ _ => instDecidableTrue

end Ledger

/-! ## Deadlines -/

namespace MemoryEntry

variable {entry : MemoryEntry}

/-- The deadline of the code is the exact one up to multiples of `2 ^ 64`. -/
theorem toNat_deadline (createdMs ttlSecs : UInt64) :
    (createdMs + ttlSecs * 1000).toNat =
      (createdMs.toNat + 1000 * ttlSecs.toNat) % 2 ^ 64 := by
  rw [UInt64.toNat_add, UInt64.toNat_mul, Nat.add_mod_mod, Nat.mul_comm]
  rfl

theorem expiredAt_eq_true {nowMs : UInt64} :
    entry.expiredAt nowMs = true ↔
      entry.ttlSecs ≠ 0 ∧
        (entry.createdMs.toNat + 1000 * entry.ttlSecs.toNat) % 2 ^ 64 ≤
          nowMs.toNat := by
  rw [expiredAt, decide_eq_true_eq, UInt64.le_iff_toNat_le, toNat_deadline]

/-- What has expired stays expired. -/
theorem expiredAt_mono {earlier later : UInt64} (ordered : earlier ≤ later)
    (expired : entry.expiredAt earlier = true) :
    entry.expiredAt later = true := by
  rw [expiredAt_eq_true] at expired ⊢
  rw [UInt64.le_iff_toNat_le] at ordered
  exact ⟨expired.1, Nat.le_trans expired.2 ordered⟩

theorem expiredAt_of_fits (fits : DeadlineFits entry.createdMs entry.ttlSecs)
    (nowMs : UInt64) :
    entry.expiredAt nowMs = !decide (entry.LiveAt nowMs) := by
  rw [Bool.eq_iff_iff, expiredAt_eq_true, Bool.not_eq_true',
    decide_eq_false_iff_not, LiveAt, not_or, Nat.not_lt]
  refine and_congr_right fun limited => ?_
  rcases fits with unlimited | short
  · exact absurd unlimited limited
  · rw [Nat.mod_eq_of_lt short]

/-- An entry whose deadline does not fit has expired, by the code, at some time
from any moment on, while its time to live has not passed. -/
theorem expired_while_live
    (overflows : ¬ DeadlineFits entry.createdMs entry.ttlSecs)
    (clock : UInt64) :
    ∃ nowMs, clock ≤ nowMs ∧ entry.expiredAt nowMs = true ∧
      entry.LiveAt nowMs := by
  rw [DeadlineFits, not_or, Nat.not_lt] at overflows
  obtain ⟨limited, long⟩ := overflows
  have alive : ∀ nowMs : UInt64, entry.LiveAt nowMs := fun nowMs =>
    .inr (Nat.lt_of_lt_of_le nowMs.toNat_lt long)
  by_cases past : clock ≤ entry.createdMs + entry.ttlSecs * 1000
  · refine ⟨_, past, ?_, alive _⟩
    rw [expiredAt_eq_true, toNat_deadline]
    exact ⟨limited, Nat.le_refl _⟩
  · refine ⟨clock, UInt64.le_refl _, ?_, alive _⟩
    rw [UInt64.not_le, UInt64.lt_iff_toNat_lt, toNat_deadline] at past
    rw [expiredAt_eq_true]
    exact ⟨limited, Nat.le_of_lt past⟩

end MemoryEntry

/-! ## What the store holds -/

/-- The entries that have not expired. -/
def unexpired (nowMs : UInt64) (entries : List MemoryEntry) :
    List MemoryEntry :=
  entries.filter fun entry => !entry.expiredAt nowMs

/-- An earlier sweep drops nothing that has not expired later. -/
theorem unexpired_unexpired {earlier later : UInt64}
    (ordered : earlier ≤ later) (entries : List MemoryEntry) :
    unexpired later (unexpired earlier entries) = unexpired later entries := by
  rw [unexpired, unexpired, List.filter_filter, unexpired]
  apply List.filter_congr
  intro entry _
  cases expired : entry.expiredAt earlier with
  | false => simp
  | true =>
      rw [MemoryEntry.expiredAt_mono ordered expired]
      rfl

namespace MemoryStore

variable {rules : TextRules}

theorem bucket_sweepNamespace (store : MemoryStore) (ns other : String)
    (nowMs : UInt64) :
    bucket (store.sweepNamespace ns nowMs).1.byNs other =
      if ns = other then unexpired nowMs (bucket store.byNs other)
      else bucket store.byNs other := by
  cases found : store.byNs[ns]? with
  | none =>
      simp only [sweepNamespace, found]
      by_cases same : ns = other
      · subst same
        simp [bucket, found, unexpired]
      · simp [same]
  | some entries =>
      simp only [sweepNamespace, found, bucket, getElem?_insert]
      by_cases same : ns = other
      · subst same
        simp [found, unexpired]
      · simp [same]

/-- A sweep leaves the unexpired entries of every namespace. -/
theorem bucket_sweep (order : IterationOrder String) (store : MemoryStore)
    (ns : String) (nowMs : UInt64) :
    bucket (store.sweep order nowMs).1.byNs ns =
      unexpired nowMs (bucket store.byNs ns) := by
  have folded : ∀ (names : List String) (swept : MemoryStore × Nat),
      bucket (names.foldl (fun swept ns =>
          let (store, dropped) := swept.1.sweepNamespace ns nowMs
          (store, swept.2 + dropped)) swept).1.byNs ns =
        if ns ∈ names then unexpired nowMs (bucket swept.1.byNs ns)
        else bucket swept.1.byNs ns := by
    intro names
    induction names with
    | nil =>
        simp
    | cons name rest inductionHypothesis =>
        intro swept
        rw [List.foldl_cons, inductionHypothesis]
        simp only [bucket_sweepNamespace]
        by_cases same : name = ns
        · subst same
          by_cases again : name ∈ rest
          · simp [again, unexpired_unexpired (UInt64.le_refl nowMs)]
          · simp [again]
        · simp [same, Ne.symm same]
  rw [sweep, folded]
  by_cases present : ns ∈ order.arrange store.byNs.keys
  · rw [if_pos present]
  · rw [if_neg present]
    rw [IterationOrder.mem_arrange, Std.ExtTreeMap.mem_keys] at present
    simp [bucket, Std.ExtTreeMap.getElem?_eq_none present, unexpired]

/-- What a write does: it is accepted and adds its entry to the swept
namespace, or it is refused and at most sweeps it. -/
theorem remember_cases (store : MemoryStore) (ns text writer : String)
    (ttlSecs nowMs : UInt64) :
    (store.Accepts rules ns text writer nowMs ∧
      ∃ id, (store.remember rules ns text writer ttlSecs nowMs).2 = .ok id ∧
        ∀ other,
          bucket (store.remember rules ns text writer ttlSecs nowMs).1.byNs
              other =
            if ns = other then
              unexpired nowMs (bucket store.byNs other) ++
                [⟨id, ns, text, writer, nowMs, ttlSecs⟩]
            else bucket store.byNs other) ∨
    (¬ store.Accepts rules ns text writer nowMs ∧
      ∃ error,
        (store.remember rules ns text writer ttlSecs nowMs).2 =
            .error error ∧
          ∀ other, ∀ later, nowMs ≤ later →
            unexpired later
                (bucket (store.remember rules ns text writer ttlSecs
                  nowMs).1.byNs other) =
              unexpired later (bucket store.byNs other)) := by
  unfold remember Accepts
  by_cases blankNs : blank rules ns = true
  · right
    simp [blankNs]
  · by_cases blankText : blank rules text = true
    · right
      simp [blankNs, blankText]
    · by_cases blankWriter : blank rules writer = true
      · right
        simp [blankNs, blankText, blankWriter]
      · rw [Bool.not_eq_true] at blankNs blankText blankWriter
        have swept := bucket_sweepNamespace store ns
        have quota : (store.sweepNamespace ns nowMs).1.quotaPerWriter =
            store.quotaPerWriter := by
          unfold sweepNamespace
          split <;> rfl
        have counted :
            ((bucket (store.sweepNamespace ns nowMs).1.byNs ns).filter
              fun entry => decide (entry.writer = writer)) =
            (bucket store.byNs ns).filter fun entry =>
              !entry.expiredAt nowMs && decide (entry.writer = writer) := by
          rw [swept, if_pos rfl, unexpired, List.filter_filter]
          apply List.filter_congr
          intro entry _
          rw [Bool.and_comm]
        simp only [blankNs, blankText, blankWriter, counted, quota,
          Bool.false_eq_true, if_false, true_and]
        by_cases full : store.quotaPerWriter ≤
            ((bucket store.byNs ns).filter fun entry =>
              !entry.expiredAt nowMs && decide (entry.writer = writer)).length
        · right
          rw [if_pos full]
          refine ⟨Nat.not_lt.mpr full, _, rfl, ?_⟩
          intro other later ordered
          rw [swept]
          by_cases same : ns = other
          · rw [if_pos same, unexpired_unexpired ordered]
          · rw [if_neg same]
        · left
          rw [if_neg full]
          refine ⟨Nat.lt_of_not_le full, _, rfl, ?_⟩
          intro other
          rw [bucket_deposit, swept]
          by_cases same : ns = other
          · rw [if_pos same, if_pos same, if_pos same]
          · rw [if_neg same, if_neg same, if_neg same]

/-- Recalling everything lists the unexpired entries. -/
theorem recall_all (store : MemoryStore) (ns : String) (nowMs : UInt64) :
    store.recall rules ns "" 0 nowMs =
      (sortBy (fun first second => (cmpRecalled first second).isLE)
        ((unexpired nowMs (bucket store.byNs ns)).map
          fun entry => (0, entry))).map Prod.snd := by
  have noTerms : tokenize rules "" = [] := by
    simp [tokenize, Shard.tokenize]
  simp only [MemoryStore.recall, noTerms, List.filter_nil, List.length_nil,
    List.isEmpty_nil, Bool.true_or, if_true, truncate_zero, unexpired,
    List.filterMap_eq_map']

private theorem recall_all_perm (store : MemoryStore) (ns : String)
    (nowMs : UInt64) :
    (store.recall rules ns "" 0 nowMs).Perm
      (unexpired nowMs (bucket store.byNs ns)) := by
  rw [recall_all]
  refine ((sortBy_perm _ _).map Prod.snd).trans ?_
  rw [List.map_map]
  exact List.Perm.of_eq (List.map_id _)

end MemoryStore

/-! ## Runs in the order of time -/

namespace Ledger

variable {rules : TextRules} {ledger : Ledger}

/-- Every namespace holds its accepted entries, but for some that have
expired. -/
def Held (ledger : Ledger) : Prop :=
  ∀ ns nowMs, ledger.clock ≤ nowMs →
    unexpired nowMs (bucket ledger.store.byNs ns) =
      unexpired nowMs (ledger.accepted.filter fun entry =>
        decide (entry.ns = ns))

theorem held_start (quotaPerWriter : Nat) : (start quotaPerWriter).Held := by
  intro ns nowMs _
  simp [start, MemoryStore.new, bucket, unexpired]

private theorem unexpired_append (nowMs : UInt64)
    (first second : List MemoryEntry) :
    unexpired nowMs (first ++ second) =
      unexpired nowMs first ++ unexpired nowMs second :=
  List.filter_append ..

/-- The call is the write of an entry. -/
def Writes (call : MemoryCall) (entry : MemoryEntry) : Prop :=
  call = .remember entry.ns entry.text entry.writer entry.ttlSecs entry.createdMs

/-- What a call can do: it is an accepted write and adds its entry, or nothing
changes that can be seen from the time of the call on. -/
theorem step_cases (rules : TextRules) (ledger : Ledger) (call : MemoryCall) :
    (∃ entry, Writes call entry ∧
      ledger.store.Accepts rules entry.ns entry.text entry.writer
        entry.createdMs ∧
      (ledger.step rules call).accepted = ledger.accepted ++ [entry] ∧
      ∀ ns later, call.nowMs ≤ later →
        unexpired later (bucket (ledger.step rules call).store.byNs ns) =
          unexpired later (bucket ledger.store.byNs ns) ++
            if entry.ns = ns then unexpired later [entry] else []) ∨
    ((∀ entry, Writes call entry →
        ¬ ledger.store.Accepts rules entry.ns entry.text entry.writer
          entry.createdMs) ∧
      (ledger.step rules call).accepted = ledger.accepted ∧
      ∀ ns later, call.nowMs ≤ later →
        unexpired later (bucket (ledger.step rules call).store.byNs ns) =
          unexpired later (bucket ledger.store.byNs ns)) := by
  cases call with
  | remember ns text writer ttlSecs nowMs =>
      rcases @MemoryStore.remember_cases rules ledger.store ns text writer
          ttlSecs nowMs with
        ⟨accepts, id, accepted, buckets⟩ | ⟨refuses, error, refused, buckets⟩
      · left
        refine ⟨⟨id, ns, text, writer, nowMs, ttlSecs⟩, rfl, accepts, ?_, ?_⟩
        · simp only [step, accepted]
        · intro other later ordered
          have sameTime : nowMs ≤ later := ordered
          simp only [step]
          rw [buckets other]
          by_cases same : ns = other
          · rw [if_pos same, if_pos same, unexpired_append,
              unexpired_unexpired sameTime]
          · rw [if_neg same, if_neg same, List.append_nil]
      · right
        refine ⟨?_, ?_, buckets⟩
        · intro entry isWrite
          cases isWrite
          exact refuses
        · simp only [step, refused]
  | sweep order nowMs =>
      right
      refine ⟨?_, rfl, ?_⟩
      · intro entry isWrite
        cases isWrite
      · intro ns later ordered
        have sameTime : nowMs ≤ later := ordered
        simp only [step]
        rw [MemoryStore.bucket_sweep, unexpired_unexpired sameTime]

private theorem clock_step (ledger : Ledger) (call : MemoryCall) :
    (ledger.step rules call).clock = call.nowMs := by
  cases call <;> rfl

theorem Held.step (held : ledger.Held) {call : MemoryCall}
    (ordered : ledger.clock ≤ call.nowMs) :
    (ledger.step rules call).Held := by
  intro ns later afterCall
  rw [clock_step] at afterCall
  have before := held ns later (UInt64.le_trans ordered afterCall)
  rcases step_cases rules ledger call with
    ⟨entry, -, -, accepted, seen⟩ | ⟨-, accepted, seen⟩
  · rw [seen ns later afterCall, accepted, before, List.filter_append,
      unexpired_append]
    by_cases same : entry.ns = ns
    · simp [same]
    · simp [same, unexpired]
  · rw [seen ns later afterCall, accepted, before]

/-- What is recalled is exact if and only if every deadline fits. -/
theorem Held.recallsExactly_iff (held : ledger.Held) :
    ledger.RecallsExactly rules ↔
      ∀ entry ∈ ledger.accepted,
        MemoryEntry.DeadlineFits entry.createdMs entry.ttlSecs := by
  constructor
  · intro exact entry member
    by_contra overflows
    obtain ⟨nowMs, ordered, expired, alive⟩ :=
      MemoryEntry.expired_while_live overflows ledger.clock
    have listed : entry ∈ ledger.accepted.filter fun other =>
        decide (other.ns = entry.ns ∧ other.LiveAt nowMs) :=
      List.mem_filter.mpr ⟨member, decide_eq_true ⟨rfl, alive⟩⟩
    have recalled := (exact entry.ns nowMs ordered).mem_iff.mpr listed
    rw [(ledger.store.recall_all_perm entry.ns nowMs).mem_iff, unexpired,
      List.mem_filter, expired] at recalled
    exact absurd recalled.2 (by decide)
  · intro fits ns nowMs ordered
    refine (ledger.store.recall_all_perm ns nowMs).trans ?_
    rw [held ns nowMs ordered, unexpired, List.filter_filter]
    apply List.Perm.of_eq
    apply List.filter_congr
    intro entry member
    rw [MemoryEntry.expiredAt_of_fits (fits entry member), Bool.not_not,
      Bool.decide_and, Bool.and_comm]

private theorem leavesOthers (ledger : Ledger) (call : MemoryCall) :
    ledger.LeavesOthers rules call := by
  intro ns later ordered elsewhere
  have unchanged : unexpired later (bucket (ledger.step rules call).store.byNs
      ns) = unexpired later (bucket ledger.store.byNs ns) := by
    rcases step_cases rules ledger call with
      ⟨entry, isWrite, -, -, seen⟩ | ⟨-, -, seen⟩
    · have different : entry.ns ≠ ns := by
        intro equality
        subst equality
        exact elsewhere entry.text entry.writer entry.ttlSecs entry.createdMs
          isWrite
      rw [seen ns later ordered, if_neg different, List.append_nil]
    · exact seen ns later ordered
  rw [MemoryStore.recall_all, MemoryStore.recall_all, unchanged]

/-- A call keeps what is recalled exact if and only if it fits. -/
theorem Held.step_iff (held : ledger.Held) {call : MemoryCall}
    (ordered : ledger.clock ≤ call.nowMs)
    (exact : ledger.RecallsExactly rules) :
    (ledger.step rules call).RecallsExactly rules ∧
        ledger.LeavesOthers rules call ↔
      ledger.StepFits rules call := by
  have others := @leavesOthers rules ledger call
  rw [held.recallsExactly_iff] at exact
  rw [(held.step ordered).recallsExactly_iff, and_iff_left others]
  rcases step_cases rules ledger call with
    ⟨entry, isWrite, accepts, accepted, -⟩ | ⟨refuses, accepted, -⟩
  · rw [accepted, isWrite]
    constructor
    · intro fits _
      exact fits entry (List.mem_append_right _ List.mem_cons_self)
    · intro fits other member
      rcases List.mem_append.mp member with earlier | latest
      · exact exact other earlier
      · rw [List.mem_singleton.mp latest]
        exact fits accepts
  · rw [accepted]
    refine ⟨fun _ => ?_, fun _ => exact⟩
    cases call with
    | remember ns text writer ttlSecs nowMs =>
        intro accepts
        exact absurd accepts
          (refuses ⟨0, ns, text, writer, nowMs, ttlSecs⟩ rfl)
    | sweep order nowMs => trivial

/-- Calls in the order of time find the clock behind them. -/
theorem eachStep_of_ordered {run : List MemoryCall}
    (later : ∀ call ∈ run, ledger.clock ≤ call.nowMs)
    (ordered : (run.map MemoryCall.nowMs).Pairwise (· ≤ ·)) :
    EachStep (step rules) (fun ledger call => ledger.clock ≤ call.nowMs)
      ledger run := by
  induction run generalizing ledger with
  | nil =>
      trivial
  | cons call rest inductionHypothesis =>
      rw [List.map_cons, List.pairwise_cons] at ordered
      refine ⟨later call List.mem_cons_self, ?_⟩
      refine inductionHypothesis ?_ ordered.2
      intro next member
      rw [clock_step]
      exact ordered.1 next.nowMs (List.mem_map_of_mem member)

/-- In a run in the order of time, everything accepted is recalled until its
time to live ends, and nothing else, exactly when the deadline of every
accepted entry fits in 64 bits. -/
theorem recall_exact_iff (rules : TextRules) (quotaPerWriter : Nat)
    (run : List MemoryCall)
    (ordered : (run.map MemoryCall.nowMs).Pairwise (· ≤ ·)) :
    Throughout (step rules) (RecallsExactly rules) (start quotaPerWriter) run ∧
        EachStep (step rules) (LeavesOthers rules) (start quotaPerWriter) run ↔
      EachStep (step rules) (StepFits rules) (start quotaPerWriter) run := by
  have kept : ∀ (current : Ledger) call, current.Held →
      current.clock ≤ call.nowMs → (current.step rules call).Held :=
    fun _ _ held later => held.step later
  have oneStep : ∀ (current : Ledger) call, current.Held →
      current.clock ≤ call.nowMs → current.RecallsExactly rules →
        ((current.step rules call).RecallsExactly rules ∧
            current.LeavesOthers rules call ↔
          current.StepFits rules call) :=
    fun _ _ held later exact => held.step_iff later exact
  have begins : (start quotaPerWriter).RecallsExactly rules := by
    rw [(held_start quotaPerWriter).recallsExactly_iff]
    intro entry member
    cases member
  have inTime := @eachStep_of_ordered rules (start quotaPerWriter) run
    (fun call _ => UInt64.zero_le) ordered
  exact throughout_and_eachStep_iff_of_allowed kept oneStep
    (held_start quotaPerWriter) inTime begins

/-! ### Two memories -/

/-- The rules of ASCII text. -/
def asciiRules : TextRules where
  isAlphanumeric := Char.isAlphanum
  toLowercase := String.toLower
  isWhitespace := Char.isWhitespace

/-- Two entries, one of which expires before a sweep. -/
def twoMemories : List MemoryCall :=
  [.remember "agent-a" "user is in Berlin" "agent-a" 0 1000,
    .remember "agent-a" "gate changed" "agent-a" 2 1500,
    .sweep .asStored 4000]

theorem recall_exact_iff_twoMemories :
    (Runs.final (step asciiRules) (start 10) twoMemories).accepted.length = 2 ∧
      Throughout (step asciiRules) (RecallsExactly asciiRules) (start 10)
        twoMemories :=
  ⟨by decide +kernel,
    ((recall_exact_iff asciiRules 10 twoMemories (by decide +kernel)).mpr
      (by decide +kernel)).1⟩

/-- A memory meant to last for ever. -/
def longestMemory : List MemoryCall :=
  [.remember "agent-a" "user is in Berlin" "agent-a" 18446744073709551615 1000]

/-- It is accepted and never recalled. -/
theorem longest_memory_expires_at_once :
    ¬ Throughout (step asciiRules) (RecallsExactly asciiRules) (start 10)
      longestMemory := by
  intro always
  have exact := final_of_throughout always "agent-a" 1000 (by decide +kernel)
  have recalled :
      (Runs.final (step asciiRules) (start 10) longestMemory).store.recall
        asciiRules "agent-a" "" 0 1000 = [] := by
    decide +kernel
  have accepted :
      (Runs.final (step asciiRules) (start 10) longestMemory).accepted.filter
          (fun entry => decide (entry.ns = "agent-a" ∧ entry.LiveAt 1000)) ≠
        [] := by
    decide +kernel
  rw [recalled] at exact
  exact accepted exact.nil_eq.symm

end Ledger

end AetherEngine.Memory
