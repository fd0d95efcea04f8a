import Mathlib.Data.List.Basic

/-!
# Registers driven by a record stream

A record acts on a register by overwriting it, by filling it when it is still
empty, or not at all.  The content after a stream is decided by its newest
overwriting record and the fills behind it.  From that follow the facts the
developments above need: replaying a stream of overwrites twice is replaying it
once, and three ways in which records can be dropped from a stream without
changing the register, the last of them in whole blocks.
-/

namespace AetherEngine.Registers

universe u v

variable {record : Type u} {value : Type v}

inductive Effect (value : Type v) where
  | keep
  | write (content : Option value)
  | fill (content : Option value)

namespace Effect

def act (current : Option value) : Effect value → Option value
  | .keep => current
  | .write content => content
  | .fill content => if current.isNone then content else current

def IsWrite : Effect value → Prop
  | .write _ => True
  | _ => False

def IsFill : Effect value → Prop
  | .fill _ => True
  | _ => False

end Effect

/-- The register after a stream of records. -/
def settle (effect : record → Effect value)
    (start : Option value) (records : List record) : Option value :=
  records.foldl (fun current item => (effect item).act current) start

variable {effect : record → Effect value}

@[simp]
theorem settle_nil (start : Option value) :
    settle effect start [] = start :=
  rfl

@[simp]
theorem settle_cons (start : Option value) (item : record)
    (rest : List record) :
    settle effect start (item :: rest) =
      settle effect ((effect item).act start) rest :=
  rfl

theorem settle_append (start : Option value) (first second : List record) :
    settle effect start (first ++ second) =
      settle effect (settle effect start first) second := by
  simp [settle]

/-! ## The newest overwrite decides -/

theorem settle_after_write
    {item : record} {content : Option value}
    (written : effect item = .write content)
    (start : Option value) (earlier later : List record) :
    settle effect start (earlier ++ item :: later) =
      settle effect content later := by
  rw [settle_append, settle_cons, written]
  rfl

/-- What a record offers to an empty register. -/
def offer : Effect value → Option value
  | .fill content => content
  | _ => none

/-- What does not overwrite keeps a content and offers one to an empty
register. -/
theorem act_of_not_isWrite {change : Effect value} (quiet : ¬ change.IsWrite)
    (current : Option value) :
    change.act current = current.or (offer change) := by
  cases change with
  | keep =>
      exact Option.or_none.symm
  | write content =>
      exact absurd trivial quiet
  | fill content =>
      cases current with
      | none => rfl
      | some content => rfl

/-- Without overwrites a filled register keeps its content. -/
theorem settle_some_of_noWrite
    {records : List record}
    (noWrite : ∀ item ∈ records, ¬ (effect item).IsWrite)
    (content : value) :
    settle effect (some content) records = some content := by
  induction records with
  | nil =>
      rfl
  | cons item rest inductionHypothesis =>
      obtain ⟨quiet, restQuiet⟩ := List.forall_mem_cons.mp noWrite
      rw [settle_cons, act_of_not_isWrite quiet, Option.some_or,
        inductionHypothesis restQuiet]

/-- Without overwrites an empty register takes the first offer. -/
theorem settle_none_of_noWrite
    {records : List record}
    (noWrite : ∀ item ∈ records, ¬ (effect item).IsWrite) :
    settle effect none records =
      records.findSome? fun item => offer (effect item) := by
  induction records with
  | nil =>
      rfl
  | cons item rest inductionHypothesis =>
      obtain ⟨quiet, restQuiet⟩ := List.forall_mem_cons.mp noWrite
      rw [settle_cons, act_of_not_isWrite quiet, Option.none_or]
      cases taken : offer (effect item) with
      | none =>
          simp [taken, inductionHypothesis restQuiet]
      | some content =>
          simp [taken, settle_some_of_noWrite restQuiet content]

/-- A stream either has no item with a property or a newest one. -/
theorem exists_newest {alpha : Type u} (selected : alpha → Prop)
    (items : List alpha) :
    (∀ item ∈ items, ¬ selected item) ∨
      ∃ earlier item later,
        items = earlier ++ item :: later ∧ selected item ∧
          ∀ other ∈ later, ¬ selected other := by
  classical
  induction items with
  | nil =>
      exact Or.inl (by simp)
  | cons first rest inductionHypothesis =>
      rcases inductionHypothesis with
        noneLater | ⟨earlier, item, later, split, found, newest⟩
      · by_cases here : selected first
        · exact Or.inr ⟨[], first, rest, rfl, here, noneLater⟩
        · refine Or.inl ?_
          intro item member
          rcases List.mem_cons.mp member with rfl | inRest
          · exact here
          · exact noneLater item inRest
      · exact Or.inr ⟨first :: earlier, item, later,
          by rw [split, List.cons_append], found, newest⟩

/-- There is only one newest item. -/
theorem newest_unique {alpha : Type u} {selected : alpha → Prop}
    {earlier earlierToo later laterToo : List alpha} {item itemToo : alpha}
    (same : earlier ++ item :: later = earlierToo ++ itemToo :: laterToo)
    (found : selected item) (foundToo : selected itemToo)
    (newest : ∀ other ∈ later, ¬ selected other)
    (newestToo : ∀ other ∈ laterToo, ¬ selected other) :
    item = itemToo ∧ later = laterToo := by
  rcases List.append_eq_append_iff.mp same with
    ⟨between, _, shape⟩ | ⟨between, _, shape⟩
  · cases between with
    | nil =>
        simpa using shape
    | cons first rest =>
        rw [List.cons_append] at shape
        injection shape with _ tails
        exact absurd foundToo (newest itemToo (by rw [tails]; simp))
  · cases between with
    | nil =>
        have flipped : item = itemToo ∧ later = laterToo := by
          simpa [eq_comm] using shape
        exact flipped
    | cons first rest =>
        rw [List.cons_append] at shape
        injection shape with _ tails
        exact absurd found (newestToo item (by rw [tails]; simp))

/-! ## Replaying twice -/

/-- A stream without fills either leaves the register alone or decides it
whatever it held. -/
theorem settle_constant_or_identity
    {records : List record}
    (noFill : ∀ item ∈ records, ¬ (effect item).IsFill) :
    (∀ start, settle effect start records = start) ∨
      ∃ content, ∀ start, settle effect start records = content := by
  induction records with
  | nil =>
      exact Or.inl fun _ => rfl
  | cons item rest inductionHypothesis =>
      have restUnfilled : ∀ other ∈ rest, ¬ (effect other).IsFill :=
        fun other member =>
          noFill other (List.mem_cons_of_mem item member)
      have unfilled := noFill item List.mem_cons_self
      rcases inductionHypothesis restUnfilled with
        untouched | ⟨content, decided⟩
      · cases shape : effect item with
        | keep =>
            refine Or.inl fun start => ?_
            rw [settle_cons, shape, untouched]
            rfl
        | write content =>
            refine Or.inr ⟨content, fun start => ?_⟩
            rw [settle_cons, shape, untouched]
            rfl
        | fill _ =>
            exact absurd (by rw [shape]; trivial) unfilled
      · exact Or.inr ⟨content, fun start => by
          rw [settle_cons, decided]⟩

theorem settle_settle
    {records : List record}
    (noFill : ∀ item ∈ records, ¬ (effect item).IsFill)
    (start : Option value) :
    settle effect (settle effect start records) records =
      settle effect start records := by
  rcases settle_constant_or_identity noFill with
    untouched | ⟨content, decided⟩
  · rw [untouched, untouched]
  · rw [decided, decided]

/-! ## Dropping records -/

/-- The records of a stream in which each is marked as staying or not. -/
def everything (stream : List (Bool × record)) : List record :=
  stream.map Prod.snd

/-- The records that stay. -/
def staying (stream : List (Bool × record)) : List record :=
  (stream.filter Prod.fst).map Prod.snd

@[simp]
theorem everything_append (first second : List (Bool × record)) :
    everything (first ++ second) = everything first ++ everything second := by
  simp [everything]

@[simp]
theorem staying_append (first second : List (Bool × record)) :
    staying (first ++ second) = staying first ++ staying second := by
  simp [staying]

/-- A staying record stands between the records before and behind it. -/
theorem staying_split {stream earlier later : List (Bool × record)}
    {item : record} (split : stream = earlier ++ (true, item) :: later) :
    staying stream = staying earlier ++ item :: staying later := by
  simp [split, staying]

private theorem everything_split {stream earlier later : List (Bool × record)}
    {item : record} (split : stream = earlier ++ (true, item) :: later) :
    everything stream = everything earlier ++ item :: everything later := by
  simp [split, everything]

theorem mem_staying
    {stream : List (Bool × record)} {item : record} :
    item ∈ staying stream ↔ (true, item) ∈ stream := by
  simp [staying]

theorem mem_everything_of_mem_staying
    {stream : List (Bool × record)} {item : record}
    (member : item ∈ staying stream) : item ∈ everything stream :=
  List.mem_map.mpr ⟨(true, item), mem_staying.mp member, rfl⟩

/-- The newest record with a property stays. -/
def NewestStays (selected : record → Prop)
    (stream : List (Bool × record)) : Prop :=
  ∃ earlier item later,
    stream = earlier ++ (true, item) :: later ∧ selected item ∧
      ∀ other ∈ everything later, ¬ selected other

/-- Fewer offers cannot fill what all offers left empty. -/
theorem settle_staying_of_settle_eq
    {stream : List (Bool × record)}
    (noWrite : ∀ item ∈ everything stream, ¬ (effect item).IsWrite)
    {content : Option value}
    (stable : settle effect content (everything stream) = content) :
    settle effect content (staying stream) = content := by
  have stayingQuiet : ∀ item ∈ staying stream, ¬ (effect item).IsWrite :=
    fun item member =>
      noWrite item (mem_everything_of_mem_staying member)
  cases content with
  | some held =>
      exact settle_some_of_noWrite stayingQuiet held
  | none =>
      rw [settle_none_of_noWrite noWrite,
        List.findSome?_eq_none_iff] at stable
      rw [settle_none_of_noWrite stayingQuiet,
        List.findSome?_eq_none_iff]
      intro item member
      exact stable item (mem_everything_of_mem_staying member)

/-- If the newest overwrite stays and the offers behind it change nothing,
dropping the other records does not change the register. -/
theorem settle_staying_of_newestStays
    {stream : List (Bool × record)} {start other : Option value}
    (newest : NewestStays (fun item => (effect item).IsWrite) stream)
    (undisturbed : ∀ earlier item later content,
      stream = earlier ++ (true, item) :: later →
      effect item = .write content →
      (∀ other ∈ everything later, ¬ (effect other).IsWrite) →
      settle effect content (everything later) = content) :
    settle effect start (staying stream) =
      settle effect other (everything stream) := by
  obtain ⟨earlier, item, later, split, written, laterQuiet⟩ := newest
  cases shape : effect item with
  | keep => rw [shape] at written; exact written.elim
  | fill _ => rw [shape] at written; exact written.elim
  | write content =>
      have stable :=
        undisturbed earlier item later content split shape laterQuiet
      rw [staying_split split, everything_split split, settle_after_write shape,
        settle_after_write shape, stable,
        settle_staying_of_settle_eq laterQuiet stable]

/-- The newest staying record that writes the register puts something there
which a newer, dropped record overwrote. -/
def Revived (effect : record → Effect value)
    (stream : List (Bool × record)) : Prop :=
  ∃ earlier item later content,
    stream = earlier ++ (true, item) :: later ∧
      effect item = .write (some content) ∧
      (∀ other ∈ staying later, ¬ (effect other).IsWrite) ∧
      ∃ other ∈ everything later, (effect other).IsWrite

/-- Nothing is revived when nothing is dropped. -/
theorem not_revived_of_all_stay
    {stream : List (Bool × record)}
    (allStay : ∀ item ∈ stream, item.1 = true) :
    ¬ Revived effect stream := by
  intro revived
  rcases revived with
    ⟨earlier, item, later, content, split, _, quiet, other, member, writes⟩
  obtain ⟨marked, listed, rfl⟩ := List.mem_map.mp member
  have stays : marked.1 = true := by
    apply allStay
    rw [split]
    exact List.mem_append_right _ (List.mem_cons_of_mem _ listed)
  refine quiet marked.2 ?_ writes
  exact List.mem_map.mpr ⟨marked, List.mem_filter.mpr ⟨listed, stays⟩, rfl⟩

/-- Overwrites that all clear the register leave it clear. -/
theorem settle_none_of_clearing
    {records : List record}
    (clearing : ∀ item ∈ records,
      effect item = .keep ∨ effect item = .write none) :
    settle effect none records = none := by
  induction records with
  | nil =>
      rfl
  | cons item rest inductionHypothesis =>
      have cleared : (effect item).act none = none := by
        rcases clearing item List.mem_cons_self with shape | shape <;>
          rw [shape] <;> rfl
      rw [settle_cons, cleared]
      exact inductionHypothesis fun other member =>
        clearing other (List.mem_cons_of_mem item member)

theorem settle_of_keep
    {records : List record} (start : Option value)
    (idle : ∀ item ∈ records, effect item = .keep) :
    settle effect start records = start := by
  induction records with
  | nil =>
      rfl
  | cons item rest inductionHypothesis =>
      rw [settle_cons, idle item List.mem_cons_self]
      exact inductionHypothesis fun other member =>
        idle other (List.mem_cons_of_mem item member)

/-- If every dropped record clears the register or leaves it alone, and no
record is revived, dropping them does not change the register. -/
theorem settle_staying_of_not_revived
    {stream : List (Bool × record)}
    (noFill : ∀ item ∈ everything stream, ¬ (effect item).IsFill)
    (dropped : ∀ item, (false, item) ∈ stream →
      effect item = .keep ∨ effect item = .write none)
    (notRevived : ¬ Revived effect stream) :
    settle effect none (staying stream) =
      settle effect none (everything stream) := by
  -- A record that is no fill and no overwrite leaves the register alone.
  have idle : ∀ item ∈ everything stream,
      ¬ (effect item).IsWrite → effect item = .keep := by
    intro item member quiet
    cases shape : effect item with
    | keep => rfl
    | write _ => exact absurd (by rw [shape]; trivial) quiet
    | fill _ => exact absurd (by rw [shape]; trivial) (noFill item member)
  rcases exists_newest
      (fun item : Bool × record =>
        item.1 = true ∧ (effect item.2).IsWrite) stream with
    noneStays | ⟨earlier, ⟨marked, item⟩, later, split, found, newest⟩
  · have stayingIdle :
        ∀ item ∈ staying stream, effect item = .keep := by
      intro item member
      exact idle item (mem_everything_of_mem_staying member) fun written =>
        noneStays (true, item) (mem_staying.mp member) ⟨rfl, written⟩
    rw [settle_of_keep none stayingIdle, settle_none_of_clearing]
    intro item member
    obtain ⟨⟨stays, _⟩, listed, rfl⟩ := List.mem_map.mp member
    cases stays with
    | false => exact dropped _ listed
    | true =>
        exact Or.inl <| idle _ member fun written =>
          noneStays _ listed ⟨rfl, written⟩
  · obtain ⟨stays, written⟩ := found
    simp only at stays written
    subst stays
    have laterStaying :
        ∀ other ∈ staying later, ¬ (effect other).IsWrite :=
      fun other member overwrites =>
        newest (true, other) (mem_staying.mp member) ⟨rfl, overwrites⟩
    have laterInside : ∀ other ∈ everything later,
        other ∈ everything stream := by
      intro other member
      rw [split, everything_append]
      exact List.mem_append_right _ (List.mem_cons_of_mem _ member)
    have laterStayingIdle :
        ∀ other ∈ staying later, effect other = .keep :=
      fun other member =>
        idle other
          (laterInside other (mem_everything_of_mem_staying member))
          (laterStaying other member)
    cases shape : effect item with
    | keep => rw [shape] at written; exact written.elim
    | fill _ => rw [shape] at written; exact written.elim
    | write content =>
        rw [staying_split split, everything_split split, settle_after_write shape,
          settle_after_write shape, settle_of_keep content laterStayingIdle]
        cases content with
        | some held =>
            -- Nothing newer writes, or the record would be revived.
            have laterQuiet :
                ∀ other ∈ everything later, effect other = .keep := by
              intro other member
              apply idle other (laterInside other member)
              intro overwrites
              exact notRevived ⟨earlier, item, later, held, split, shape,
                laterStaying, other, member, overwrites⟩
            rw [settle_of_keep (some held) laterQuiet]
        | none =>
            rw [settle_none_of_clearing]
            intro other member
            obtain ⟨⟨marked, _⟩, listed, rfl⟩ := List.mem_map.mp member
            cases marked with
            | false =>
                exact dropped _ (by rw [split]; simp [listed])
            | true =>
                exact Or.inl <|
                  laterStayingIdle _ (mem_staying.mpr listed)

/-! ## Dropping blocks

The stream comes in blocks, and each block begins by offering what the register
holds. -/

section Blocks

variable {block : Type*} {contents : block → List record}

/-- From an empty register the block leads to what it leads to from `held`, and
without an overwrite it leaves `held` alone. -/
def Restates (effect : record → Effect value) (held : Option value)
    (records : List record) : Prop :=
  settle effect none records = settle effect held records ∧
    ((∀ item ∈ records, ¬ (effect item).IsWrite) →
      settle effect held records = held)

/-- Every block restates what the blocks before it lead to. -/
def Chained (effect : record → Effect value) (contents : block → List record) :
    Option value → List block → Prop
  | _, [] => True
  | held, first :: rest =>
      Restates effect held (contents first) ∧
        Chained effect contents (settle effect held (contents first)) rest

private theorem chained_append {held : Option value}
    (first second : List block) :
    Chained effect contents held (first ++ second) ↔
      Chained effect contents held first ∧
        Chained effect contents
          (settle effect held (first.flatMap contents)) second := by
  induction first generalizing held with
  | nil =>
      simp [Chained]
  | cons head rest inductionHypothesis =>
      simp only [List.cons_append, Chained, inductionHypothesis,
        List.flatMap_cons, settle_append, and_assoc]

/-- A block that begins with an offer of the held content, with nothing else
than overwrites behind it, restates the content. -/
theorem restates_of_offer {held : Option value} {head : record}
    {rest : List record} (offers : effect head = .fill held)
    (noFill : ∀ item ∈ rest, ¬ (effect item).IsFill) :
    Restates effect held (head :: rest) := by
  have refilled : (effect head).act held = held := by
    rw [offers]
    cases held with
    | none => rfl
    | some content => rfl
  have filled : (effect head).act none = held := by
    rw [offers]
    rfl
  constructor
  · rw [settle_cons, settle_cons, filled, refilled]
  · intro noWrite
    rw [settle_cons, refilled]
    apply settle_of_keep
    intro item member
    cases shape : effect item with
    | keep => rfl
    | write _ =>
        exact absurd (by rw [shape]; trivial)
          (noWrite item (List.mem_cons_of_mem head member))
    | fill _ =>
        exact absurd (by rw [shape]; trivial) (noFill item member)

/-- A block without offers restates an empty register. -/
theorem restates_none {records : List record}
    (noFill : ∀ item ∈ records, ¬ (effect item).IsFill) :
    Restates effect none records := by
  refine ⟨rfl, fun noWrite => settle_of_keep none ?_⟩
  intro item member
  cases shape : effect item with
  | keep => rfl
  | write _ => exact absurd (by rw [shape]; trivial) (noWrite item member)
  | fill _ => exact absurd (by rw [shape]; trivial) (noFill item member)

/-- Some blocks are dropped, all of them quiet. -/
inductive Thinned (quiet : block → Prop) : List block → List block → Prop
  | nil : Thinned quiet [] []
  | keep (first : block) {blocks kept : List block}
      (rest : Thinned quiet blocks kept) :
      Thinned quiet (first :: blocks) (first :: kept)
  | skip {first : block} {blocks kept : List block} (isQuiet : quiet first)
      (rest : Thinned quiet blocks kept) : Thinned quiet (first :: blocks) kept

/-- The first blocks are dropped, and quiet ones behind them. -/
def Pruned (quiet : block → Prop) (blocks kept : List block) : Prop :=
  ∃ dropped rest, blocks = dropped ++ rest ∧ Thinned quiet rest kept

variable {quiet : block → Prop} {blocks kept : List block}

theorem Thinned.concat (thinned : Thinned quiet blocks kept) (last : block) :
    Thinned quiet (blocks ++ [last]) (kept ++ [last]) := by
  induction thinned with
  | nil => exact .keep last .nil
  | keep first _ inductionHypothesis => exact .keep first inductionHypothesis
  | skip isQuiet _ inductionHypothesis => exact .skip isQuiet inductionHypothesis

theorem Thinned.mem (thinned : Thinned quiet blocks kept) {item : block}
    (member : item ∈ kept) : item ∈ blocks := by
  induction thinned with
  | nil => exact member
  | keep first _ inductionHypothesis =>
      rcases List.mem_cons.mp member with rfl | later
      · exact List.mem_cons_self
      · exact List.mem_cons_of_mem _ (inductionHypothesis later)
  | skip _ _ inductionHypothesis =>
      exact List.mem_cons_of_mem _ (inductionHypothesis member)

private theorem Thinned.filter_of_quiet (thinned : Thinned quiet blocks kept)
    {stays : block → Bool}
    (dropsQuiet : ∀ item ∈ kept, stays item = false → quiet item) :
    Thinned quiet blocks (kept.filter stays) := by
  induction thinned with
  | nil => exact .nil
  | keep first _ inductionHypothesis =>
      have later := inductionHypothesis (fun item member =>
        dropsQuiet item (List.mem_cons_of_mem first member))
      cases decision : stays first with
      | true =>
          rw [List.filter_cons_of_pos decision]
          exact .keep first later
      | false =>
          rw [List.filter_cons_of_neg (by simp [decision])]
          exact .skip (dropsQuiet first List.mem_cons_self decision) later
  | skip isQuiet _ inductionHypothesis =>
      exact .skip isQuiet (inductionHypothesis dropsQuiet)

/-- Blocks may be dropped as long as those behind a staying one are quiet. -/
theorem Thinned.pruned_filter (thinned : Thinned quiet blocks kept)
    {stays : block → Bool}
    (inOrder : kept.Pairwise (fun early late =>
      stays early = true → stays late = false → quiet late)) :
    Pruned quiet blocks (kept.filter stays) := by
  induction thinned with
  | nil => exact ⟨[], [], rfl, .nil⟩
  | keep first rest inductionHypothesis =>
      obtain ⟨behind, restInOrder⟩ := List.pairwise_cons.mp inOrder
      cases decision : stays first with
      | true =>
          rw [List.filter_cons_of_pos decision]
          refine ⟨[], _, rfl, .keep first (rest.filter_of_quiet ?_)⟩
          intro item member gone
          exact behind item member decision gone
      | false =>
          obtain ⟨dropped, others, split, remains⟩ :=
            inductionHypothesis restInOrder
          rw [List.filter_cons_of_neg (by simp [decision])]
          exact ⟨first :: dropped, others, by rw [split]; rfl, remains⟩
  | skip _ _ inductionHypothesis =>
      obtain ⟨dropped, others, split, remains⟩ := inductionHypothesis inOrder
      exact ⟨_ :: dropped, others, by rw [split]; rfl, remains⟩

theorem Pruned.filter (pruned : Pruned quiet blocks kept)
    {stays : block → Bool}
    (inOrder : kept.Pairwise (fun early late =>
      stays early = true → stays late = false → quiet late)) :
    Pruned quiet blocks (kept.filter stays) := by
  obtain ⟨dropped, rest, rfl, thinned⟩ := pruned
  obtain ⟨more, others, rfl, remains⟩ := thinned.pruned_filter inOrder
  exact ⟨dropped ++ more, others, by rw [List.append_assoc], remains⟩

theorem Pruned.concat (pruned : Pruned quiet blocks kept) (last : block) :
    Pruned quiet (blocks ++ [last]) (kept ++ [last]) := by
  obtain ⟨dropped, rest, rfl, thinned⟩ := pruned
  exact ⟨dropped, rest ++ [last], by rw [List.append_assoc],
    thinned.concat last⟩

theorem Pruned.mem (pruned : Pruned quiet blocks kept) {item : block}
    (member : item ∈ kept) : item ∈ blocks := by
  obtain ⟨dropped, rest, rfl, thinned⟩ := pruned
  exact List.mem_append_right dropped (thinned.mem member)

section Settle

variable (noWrite : ∀ item, quiet item →
  ∀ entry ∈ contents item, ¬ (effect entry).IsWrite)

include noWrite

theorem Thinned.settle_eq (thinned : Thinned quiet blocks kept)
    {held : Option value} (chained : Chained effect contents held blocks) :
    settle effect held (kept.flatMap contents) =
      settle effect held (blocks.flatMap contents) := by
  induction thinned generalizing held with
  | nil => rfl
  | keep first _ inductionHypothesis =>
      rw [List.flatMap_cons, List.flatMap_cons, settle_append, settle_append,
        inductionHypothesis chained.2]
  | @skip first _ _ isQuiet _ inductionHypothesis =>
      have unchanged := chained.1.2 (noWrite first isQuiet)
      have later := chained.2
      rw [unchanged] at later
      rw [List.flatMap_cons, settle_append, unchanged,
        inductionHypothesis later]

/-- The blocks that stay lead from an empty register to what all blocks lead to
from the content before them. -/
theorem Thinned.settle_none_eq (thinned : Thinned quiet blocks kept)
    (present : kept ≠ []) {held : Option value}
    (chained : Chained effect contents held blocks) :
    settle effect none (kept.flatMap contents) =
      settle effect held (blocks.flatMap contents) := by
  induction thinned generalizing held with
  | nil => exact absurd rfl present
  | keep first rest _ =>
      rw [List.flatMap_cons, List.flatMap_cons, settle_append, settle_append,
        chained.1.1, rest.settle_eq noWrite chained.2]
  | @skip first _ _ isQuiet _ inductionHypothesis =>
      have unchanged := chained.1.2 (noWrite first isQuiet)
      have later := chained.2
      rw [unchanged] at later
      rw [List.flatMap_cons, settle_append, unchanged,
        inductionHypothesis present later]

/-- Dropping whole blocks does not change the register when the first blocks go
and only quiet ones behind a staying one. -/
theorem Pruned.settle_eq (pruned : Pruned quiet blocks kept)
    (present : kept ≠ []) (chained : Chained effect contents none blocks) :
    settle effect none (kept.flatMap contents) =
      settle effect none (blocks.flatMap contents) := by
  obtain ⟨dropped, rest, rfl, thinned⟩ := pruned
  rw [chained_append] at chained
  rw [List.flatMap_append, settle_append,
    thinned.settle_none_eq noWrite present chained.2]

end Settle

end Blocks

end AetherEngine.Registers
