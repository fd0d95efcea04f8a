import AetherEngine.Common.Json
import Mathlib.Data.List.Forall2

/-!
# The filters argument of the tools

A tool call carries its filters as JSON that a language model wrote.  The parser
picks one test for each element by the keys and the types it finds; what it does
not pick is not looked at again.
-/

namespace AetherEngine.AgentTools

open AetherEngine.Common

variable {real : Type}

/-! ## The parser -/

/-- The condition of one element. -/
def parseCondition (floats : FloatRules real) (element : Json real) :
    Except String (FilterCondition real) :=
  match (element.get "field").bind Json.asStr with
  | none => .error "each filter needs a 'field'"
  | some field =>
      match (element.get "equals").bind Json.asStr with
      | some want => .ok ⟨field, some (.equals want)⟩
      | none =>
          if (element.get "min").isSome || (element.get "max").isSome then
            .ok ⟨field, some (.range
              { min := (element.get "min").bind (Json.asF64 floats)
                max := (element.get "max").bind (Json.asF64 floats) })⟩
          else
            match (element.get "is").bind Json.asBool with
            | some want => .ok ⟨field, some (.is want)⟩
            | none =>
                .error ("filter on '" ++ field ++
                  "' needs 'equals', 'min'/'max', or 'is'")

/-- The filter of a tool call; without a list of filters there is none. -/
def parseFilters (floats : FloatRules real) (args : Json real) :
    Except String (Option (Common.Filter real)) :=
  match (args.get "filters").bind Json.asArray with
  | none => .ok none
  | some list => do
      let conditions ← list.mapM (parseCondition floats)
      .ok (if conditions.isEmpty then none else some ⟨conditions⟩)

/-! ## What is written -/

/-- The value under a key; `null` is nothing written. -/
def written (element : Json real) (key : String) : Option (Json real) :=
  (element.get key).filter (fun value => !value.isNull)

/-- The elements of the argument; what is not a list is one element. -/
def elements : Json real → List (Json real)
  | .array items => items
  | .null => []
  | other => [other]

/-- The document satisfies all that an element says of a field.  A value of the
wrong type says something no document satisfies. -/
structure Satisfies (floats : FloatRules real) (doc : FlightDocument real)
    (element : Json real) (field : String) : Prop where
  equals : ∀ value, written element "equals" = some value →
    ∃ want, value.asStr = some want ∧
      Filter.eqIgnoreAsciiCase (Filter.textValue doc field) want = true
  min : ∀ value, written element "min" = some value →
    ∃ bound, value.asF64 floats = some bound ∧
      floats.le bound (Filter.numericValue floats doc field) = true
  max : ∀ value, written element "max" = some value →
    ∃ bound, value.asF64 floats = some bound ∧
      floats.le (Filter.numericValue floats doc field) bound = true
  is : ∀ value, written element "is" = some value →
    value.asBool = some doc.onGround

/-- The condition keeps all that an element says. -/
structure Carries (floats : FloatRules real) (element : Json real)
    (condition : FilterCondition real) : Prop where
  field : (element.get "field").bind Json.asStr = some condition.field
  equals : ∀ value, written element "equals" = some value →
    ∃ want, value.asStr = some want ∧ condition.test = some (.equals want)
  min : ∀ value, written element "min" = some value →
    ∃ bound bounds, value.asF64 floats = some bound ∧
      condition.test = some (.range bounds) ∧ bounds.min = some bound
  max : ∀ value, written element "max" = some value →
    ∃ bound bounds, value.asF64 floats = some bound ∧
      condition.test = some (.range bounds) ∧ bounds.max = some bound
  is : ∀ value, written element "is" = some value →
    ∃ want, value.asBool = some want ∧ condition.test = some (.is want)

/-- The filter is not weaker than what is written: each element has a condition
that keeps all of it, and a document that passes satisfies every element. -/
structure Enforces (floats : FloatRules real) (filters : Json real)
    (filter : Option (Common.Filter real)) : Prop where
  kept : List.Forall₂ (Carries floats) (elements filters)
    (filter.elim [] Filter.conditions)
  satisfied : ∀ doc, Filter.passes floats doc filter = true →
    ∀ element ∈ elements filters, ∀ field,
      (element.get "field").bind Json.asStr = some field →
      Satisfies floats doc element field

/-- A condition that keeps an element lets no other document pass. -/
theorem Carries.satisfies {floats : FloatRules real} {element : Json real}
    {condition : FilterCondition real}
    (carries : Carries floats element condition)
    {doc : FlightDocument real}
    (holds : Filter.conditionHolds floats doc condition = true) :
    Satisfies floats doc element condition.field := by
  constructor
  case equals =>
    intro value isWritten
    obtain ⟨want, isText, test⟩ := carries.equals value isWritten
    refine ⟨want, isText, ?_⟩
    rwa [Filter.conditionHolds, test] at holds
  case min =>
    intro value isWritten
    obtain ⟨bound, bounds, isNumber, test, minIs⟩ :=
      carries.min value isWritten
    refine ⟨bound, isNumber, ?_⟩
    rw [Filter.conditionHolds, test] at holds
    simp only [minIs, Option.all_some, Bool.and_eq_true] at holds
    exact holds.1
  case max =>
    intro value isWritten
    obtain ⟨bound, bounds, isNumber, test, maxIs⟩ :=
      carries.max value isWritten
    refine ⟨bound, isNumber, ?_⟩
    rw [Filter.conditionHolds, test] at holds
    simp only [maxIs, Option.all_some, Bool.and_eq_true] at holds
    exact holds.2
  case is =>
    intro value isWritten
    obtain ⟨want, isFlag, test⟩ := carries.is value isWritten
    rw [Filter.conditionHolds, test] at holds
    rw [isFlag, of_decide_eq_true holds]

private theorem exists_of_forall₂ {α β : Type} {relation : α → β → Prop}
    {items : List α} {others : List β}
    (related : List.Forall₂ relation items others) {item : α}
    (member : item ∈ items) : ∃ other ∈ others, relation item other := by
  induction related with
  | nil =>
      cases member
  | cons head tail inductionHypothesis =>
      rcases List.mem_cons.mp member with first | later
      · subst first
        exact ⟨_, List.mem_cons_self, head⟩
      · obtain ⟨other, otherMember, holds⟩ := inductionHypothesis later
        exact ⟨other, List.mem_cons_of_mem _ otherMember, holds⟩

private theorem Enforces.of_kept {floats : FloatRules real}
    {filters : Json real}
    {filter : Option (Common.Filter real)}
    (kept : List.Forall₂ (Carries floats) (elements filters)
      (filter.elim [] Filter.conditions)) :
    Enforces floats filters filter where
  kept := kept
  satisfied := by
    intro doc passes element member field isField
    obtain ⟨condition, conditionMember, carries⟩ :=
      exists_of_forall₂ kept member
    have same : field = condition.field :=
      Option.some.inj (isField.symm.trans carries.field)
    rw [same]
    apply carries.satisfies
    cases filter with
    | none =>
        simp at conditionMember
    | some filter =>
        exact List.all_eq_true.mp passes condition conditionMember

/-! ## What the parser keeps -/

/-- The parser reports the element as an error. -/
def Refused (element : Json real) : Prop :=
  (element.get "field").bind Json.asStr = none ∨
    ((element.get "equals").bind Json.asStr = none ∧
      element.get "min" = none ∧ element.get "max" = none ∧
      (element.get "is").bind Json.asBool = none)

/-- An element with one kind of test, of the right type, and with no key of a
bound beside a flag. -/
structure Clean (floats : FloatRules real) (element : Json real) : Prop where
  equals : ∀ value, written element "equals" = some value →
    (∃ want, value.asStr = some want) ∧ written element "min" = none ∧
      written element "max" = none ∧ written element "is" = none
  min : ∀ value, written element "min" = some value →
    ∃ bound, value.asF64 floats = some bound
  max : ∀ value, written element "max" = some value →
    ∃ bound, value.asF64 floats = some bound
  is : ∀ value, written element "is" = some value →
    (∃ want, value.asBool = some want) ∧ element.get "min" = none ∧
      element.get "max" = none

section Elements

variable {floats : FloatRules real} {element : Json real} {key : String}

theorem get_of_written {value : Json real}
    (isWritten : written element key = some value) :
    element.get key = some value := by
  rw [written, Option.filter_eq_some_iff] at isWritten
  exact isWritten.1

private theorem written_of_asStr {want : String}
    (isText : (element.get key).bind Json.asStr = some want) :
    written element key = some (.string want) := by
  rw [Option.bind_eq_some_iff] at isText
  obtain ⟨value, found, isText⟩ := isText
  cases value with
  | string text =>
      cases isText
      rw [written, found]
      rfl
  | null | bool | number | array | object => cases isText

private theorem written_of_asBool {want : Bool}
    (isFlag : (element.get key).bind Json.asBool = some want) :
    written element key = some (.bool want) := by
  rw [Option.bind_eq_some_iff] at isFlag
  obtain ⟨value, found, isFlag⟩ := isFlag
  cases value with
  | bool flag =>
      cases isFlag
      rw [written, found]
      rfl
  | null | string | number | array | object => cases isFlag

private theorem written_eq_none_of_get {key : String}
    (absent : element.get key = none) : written element key = none := by
  rw [written, absent]
  rfl

private theorem parseCondition_error_of_refused (floats : FloatRules real)
    (refused : Refused element) :
    ∃ message, parseCondition floats element = .error message := by
  rcases refused with fieldless | ⟨textless, minless, maxless, flagless⟩
  · exact ⟨_, by rw [parseCondition, fieldless]⟩
  · cases named : (element.get "field").bind Json.asStr with
    | none =>
        exact ⟨_, by rw [parseCondition, named]⟩
    | some field =>
        refine ⟨"filter on '" ++ field ++
          "' needs 'equals', 'min'/'max', or 'is'", ?_⟩
        simp only [parseCondition, named, textless, minless, maxless,
          flagless, Option.isSome_none, Bool.or_self, Bool.false_eq_true,
          if_false]

/-- With a text to compare, the condition is an equality. -/
theorem parseCondition_equals {field want : String}
    (named : (element.get "field").bind Json.asStr = some field)
    (isText : (element.get "equals").bind Json.asStr = some want) :
    parseCondition floats element = .ok ⟨field, some (.equals want)⟩ := by
  rw [parseCondition, named]
  simp only [isText]

private theorem carries_equals_iff {field want : String}
    (named : (element.get "field").bind Json.asStr = some field)
    (isText : (element.get "equals").bind Json.asStr = some want) :
    Carries floats element ⟨field, some (.equals want)⟩ ↔
      Clean floats element := by
  have text := written_of_asStr isText
  constructor
  · intro carries
    have minless : written element "min" = none := by
      apply Option.eq_none_iff_forall_ne_some.mpr
      intro value isWritten
      obtain ⟨_, _, _, test, _⟩ := carries.min value isWritten
      cases test
    have maxless : written element "max" = none := by
      apply Option.eq_none_iff_forall_ne_some.mpr
      intro value isWritten
      obtain ⟨_, _, _, test, _⟩ := carries.max value isWritten
      cases test
    have flagless : written element "is" = none := by
      apply Option.eq_none_iff_forall_ne_some.mpr
      intro value isWritten
      obtain ⟨_, _, test⟩ := carries.is value isWritten
      cases test
    constructor
    case equals =>
      intro value isWritten
      obtain ⟨found, isFound, -⟩ := carries.equals value isWritten
      exact ⟨⟨found, isFound⟩, minless, maxless, flagless⟩
    all_goals
      intro value isWritten
      simp_all
  · intro clean
    obtain ⟨-, minless, maxless, flagless⟩ := clean.equals _ text
    constructor
    case field =>
      exact named
    case equals =>
      intro value isWritten
      rw [text, Option.some.injEq] at isWritten
      subst isWritten
      exact ⟨want, rfl, rfl⟩
    all_goals
      intro value isWritten
      simp_all

/-- In a clean element a value to compare is a text, and a text is read. -/
theorem Clean.written_equals (clean : Clean floats element)
    (textless : (element.get "equals").bind Json.asStr = none) :
    written element "equals" = none := by
  apply Option.eq_none_iff_forall_ne_some.mpr
  intro value isWritten
  obtain ⟨⟨want, isText⟩, -⟩ := clean.equals value isWritten
  rw [get_of_written isWritten, Option.bind_some, isText] at textless
  cases textless

/-- With a key of a bound, and no text to compare, the condition is a range. -/
theorem carries_range_iff {field : String}
    (named : (element.get "field").bind Json.asStr = some field)
    (textless : (element.get "equals").bind Json.asStr = none)
    (bounded : ((element.get "min").isSome || (element.get "max").isSome) =
      true) :
    Carries floats element ⟨field, some (.range
        { min := (element.get "min").bind (Json.asF64 floats)
          max := (element.get "max").bind (Json.asF64 floats) })⟩ ↔
      Clean floats element := by
  constructor
  · intro carries
    constructor
    case equals =>
      intro value isWritten
      obtain ⟨_, _, test⟩ := carries.equals value isWritten
      cases test
    case min =>
      intro value isWritten
      obtain ⟨bound, _, isNumber, _⟩ := carries.min value isWritten
      exact ⟨bound, isNumber⟩
    case max =>
      intro value isWritten
      obtain ⟨bound, _, isNumber, _⟩ := carries.max value isWritten
      exact ⟨bound, isNumber⟩
    case is =>
      intro value isWritten
      obtain ⟨_, _, test⟩ := carries.is value isWritten
      cases test
  · intro clean
    constructor
    case field =>
      exact named
    case equals =>
      intro value isWritten
      rw [clean.written_equals textless] at isWritten
      cases isWritten
    case min =>
      intro value isWritten
      obtain ⟨bound, isNumber⟩ := clean.min value isWritten
      refine ⟨bound, _, isNumber, rfl, ?_⟩
      rw [get_of_written isWritten]
      exact isNumber
    case max =>
      intro value isWritten
      obtain ⟨bound, isNumber⟩ := clean.max value isWritten
      refine ⟨bound, _, isNumber, rfl, ?_⟩
      rw [get_of_written isWritten]
      exact isNumber
    case is =>
      intro value isWritten
      obtain ⟨-, minless, maxless⟩ := clean.is value isWritten
      rw [minless, maxless] at bounded
      cases bounded

/-- With a flag alone, the condition is on the flag. -/
theorem carries_is_iff {field : String} {want : Bool}
    (named : (element.get "field").bind Json.asStr = some field)
    (textless : (element.get "equals").bind Json.asStr = none)
    (minless : element.get "min" = none) (maxless : element.get "max" = none)
    (isFlag : (element.get "is").bind Json.asBool = some want) :
    Carries floats element ⟨field, some (.is want)⟩ ↔
      Clean floats element := by
  have flag := written_of_asBool isFlag
  have minUnwritten := written_eq_none_of_get minless
  have maxUnwritten := written_eq_none_of_get maxless
  constructor
  · intro carries
    constructor
    case equals =>
      intro value isWritten
      obtain ⟨_, _, test⟩ := carries.equals value isWritten
      cases test
    case is =>
      intro value isWritten
      obtain ⟨found, isFound, -⟩ := carries.is value isWritten
      exact ⟨⟨found, isFound⟩, minless, maxless⟩
    all_goals
      intro value isWritten
      simp_all
  · intro clean
    constructor
    case field =>
      exact named
    case equals =>
      intro value isWritten
      rw [clean.written_equals textless] at isWritten
      cases isWritten
    case is =>
      intro value isWritten
      rw [flag, Option.some.injEq] at isWritten
      subst isWritten
      exact ⟨want, rfl, rfl⟩
    all_goals
      intro value isWritten
      simp_all

/-- An element that is not refused gets a condition, which keeps the element
exactly when it is clean. -/
theorem parseCondition_ok (floats : FloatRules real)
    (accepted : ¬ Refused element) :
    ∃ condition, parseCondition floats element = .ok condition ∧
      (Carries floats element condition ↔ Clean floats element) := by
  rw [Refused, not_or] at accepted
  rcases accepted with ⟨hasField, hasTest⟩
  obtain ⟨field, named⟩ := Option.ne_none_iff_exists'.mp hasField
  cases isText : (element.get "equals").bind Json.asStr with
  | some want =>
      exact ⟨_, parseCondition_equals named isText,
        carries_equals_iff named isText⟩
  | none =>
      cases bounded :
          (element.get "min").isSome || (element.get "max").isSome with
      | true =>
          refine ⟨_, ?_, carries_range_iff named isText bounded⟩
          simp only [parseCondition, named, isText, bounded, if_true]
      | false =>
          rw [Bool.or_eq_false_iff, Option.isSome_eq_false_iff,
            Option.isSome_eq_false_iff, Option.isNone_iff_eq_none,
            Option.isNone_iff_eq_none] at bounded
          rcases bounded with ⟨minless, maxless⟩
          cases isFlag : (element.get "is").bind Json.asBool with
          | none =>
              exact absurd ⟨isText, minless, maxless, isFlag⟩ hasTest
          | some want =>
              refine ⟨_, ?_,
                carries_is_iff named isText minless maxless isFlag⟩
              simp only [parseCondition, named, isText, minless, maxless,
                isFlag, Option.isSome_none, Bool.or_self, Bool.false_eq_true,
                if_false]

end Elements

private theorem mapM_parseCondition_error (floats : FloatRules real)
    {items : List (Json real)}
    (refused : ∃ element ∈ items, Refused element) :
    ∃ message, items.mapM (parseCondition floats) = .error message := by
  induction items with
  | nil =>
      obtain ⟨element, member, -⟩ := refused
      cases member
  | cons first rest inductionHypothesis =>
      rw [List.mapM_cons]
      cases parsed : parseCondition floats first with
      | error message =>
          exact ⟨message, rfl⟩
      | ok condition =>
          have later : ∃ element ∈ rest, Refused element := by
            obtain ⟨element, member, isRefused⟩ := refused
            rcases List.mem_cons.mp member with isFirst | isLater
            · subst isFirst
              obtain ⟨message, failed⟩ :=
                parseCondition_error_of_refused floats isRefused
              rw [parsed] at failed
              cases failed
            · exact ⟨element, isLater, isRefused⟩
          obtain ⟨message, failed⟩ := inductionHypothesis later
          refine ⟨message, ?_⟩
          rw [failed]
          rfl

private theorem mapM_parseCondition_ok (floats : FloatRules real)
    {items : List (Json real)}
    (accepted : ∀ element ∈ items, ¬ Refused element) :
    ∃ conditions, items.mapM (parseCondition floats) = .ok conditions ∧
      (List.Forall₂ (Carries floats) items conditions ↔
        ∀ element ∈ items, Clean floats element) := by
  induction items with
  | nil =>
      exact ⟨[], rfl, by simp⟩
  | cons first rest inductionHypothesis =>
      rw [List.forall_mem_cons] at accepted
      obtain ⟨condition, parsed, keeps⟩ :=
        parseCondition_ok floats accepted.1
      obtain ⟨conditions, others, keepOthers⟩ :=
        inductionHypothesis accepted.2
      refine ⟨condition :: conditions, ?_, ?_⟩
      · rw [List.mapM_cons, parsed, others]
        rfl
      · rw [List.forall₂_cons, List.forall_mem_cons, keeps, keepOthers]

/-- The filter of a list of elements has their conditions. -/
theorem parseFilters_array (floats : FloatRules real) {args : Json real}
    {items : List (Json real)}
    (given : args.get "filters" = some (.array items)) :
    parseFilters floats args =
      (items.mapM (parseCondition floats)).map
        (fun conditions =>
          if conditions.isEmpty then none else some ⟨conditions⟩) := by
  rw [parseFilters, given]
  change (items.mapM (parseCondition floats) >>= _) = _
  cases items.mapM (parseCondition floats) with
  | error message => rfl
  | ok conditions => rfl

/-- Of a list, nothing is lost exactly when one of its elements is refused or
all of them are clean. -/
theorem parseFilters_array_enforces_iff (floats : FloatRules real)
    {args : Json real} {items : List (Json real)}
    (given : args.get "filters" = some (.array items)) :
    (∀ filter, parseFilters floats args = .ok filter →
        Enforces floats (.array items) filter) ↔
      (∃ element ∈ items, Refused element) ∨
        ∀ element ∈ items, Clean floats element := by
  rw [parseFilters_array floats given]
  by_cases refused : ∃ element ∈ items, Refused element
  · obtain ⟨message, failed⟩ := mapM_parseCondition_error floats refused
    rw [failed]
    constructor
    · intro _
      exact Or.inl refused
    · intro _ filter parsed
      cases parsed
  · have accepted : ∀ element ∈ items, ¬ Refused element :=
      fun element member isRefused => refused ⟨element, member, isRefused⟩
    obtain ⟨conditions, parsed, keeps⟩ :=
      mapM_parseCondition_ok floats accepted
    have listed : (if conditions.isEmpty then none
        else some (⟨conditions⟩ : Common.Filter real)).elim []
          Filter.conditions = conditions := by
      cases conditions with
      | nil => rfl
      | cons first rest => rfl
    rw [parsed]
    constructor
    · intro enforces
      have kept := (enforces _ rfl).kept
      rw [listed] at kept
      exact Or.inr (keeps.mp kept)
    · intro outcome filter isFilter
      cases isFilter
      apply Enforces.of_kept
      rw [listed]
      exact keeps.mpr (outcome.resolve_left refused)

/-- The parser never weakens its argument exactly when it is a list and either
one of its elements is refused or all of them are clean. -/
theorem parseFilters_enforces_iff (floats : FloatRules real)
    {args filters : Json real} (given : args.get "filters" = some filters)
    (present : filters.isNull = false) :
    (∀ filter, parseFilters floats args = .ok filter →
        Enforces floats filters filter) ↔
      ∃ items, filters = .array items ∧
        ((∃ element ∈ items, Refused element) ∨
          ∀ element ∈ items, Clean floats element) := by
  cases isList : filters.asArray with
  | none =>
      -- the argument is not a list: it is dropped without a word
      have none : parseFilters floats args = .ok none := by
        rw [parseFilters, given, Option.bind_some, isList]
      have single : elements filters = [filters] := by
        cases filters with
        | array items => cases isList
        | null => cases present
        | bool | number | string | object => rfl
      constructor
      · intro enforces
        have kept := (enforces _ none).kept
        rw [single] at kept
        cases kept
      · intro list
        obtain ⟨items, isItems, -⟩ := list
        rw [isItems] at isList
        cases isList
  | some items =>
      have isArray : filters = .array items := by
        cases filters with
        | array found => cases isList; rfl
        | null | bool | number | string | object => cases isList
      subst isArray
      rw [parseFilters_array_enforces_iff floats given]
      constructor
      · intro outcome
        exact ⟨items, rfl, outcome⟩
      · intro list
        obtain ⟨found, isFound, outcome⟩ := list
        cases isFound
        exact outcome

/-! ## A bound of the wrong type -/

namespace Sample

def floats : FloatRules (Option Int) where
  ofInt time := some time
  nan := none
  le
    | some first, some second => first ≤ second
    | _, _ => false
  lt
    | some first, some second => first < second
    | _, _ => false
  display _ := "number"

def call (element : Json (Option Int)) : Json (Option Int) :=
  .object [("filters", .array [element])]

def number (value : UInt64) : Json (Option Int) :=
  .number (.posInt value)

/-- A band of altitudes whose upper bound is written as a string. -/
def quotedBound : Json (Option Int) :=
  .object [("field", .string "altitude"), ("max", .string "3000"),
    ("min", number 1000)]

def band : Json (Option Int) :=
  .object [("field", .string "altitude"), ("max", number 3000),
    ("min", number 1000)]

def high : FlightDocument (Option Int) :=
  { defaultDocument floats with altitude := some 9000 }

end Sample

/-- The quoted bound is dropped: an aircraft above it passes. -/
theorem quotedBound_dropped :
    parseFilters Sample.floats (Sample.call Sample.quotedBound) =
        .ok (some ⟨[⟨"altitude",
          some (.range ⟨some (some 1000), none⟩)⟩]⟩) ∧
      Filter.passes Sample.floats Sample.high
        (some ⟨[⟨"altitude", some (.range ⟨some (some 1000), none⟩)⟩]⟩) =
          true ∧
      ¬ Enforces Sample.floats (.array [Sample.quotedBound])
        (some ⟨[⟨"altitude", some (.range ⟨some (some 1000), none⟩)⟩]⟩) := by
  refine ⟨rfl, rfl, ?_⟩
  intro enforces
  have satisfied := enforces.satisfied Sample.high rfl Sample.quotedBound
    List.mem_cons_self "altitude" rfl
  obtain ⟨bound, isNumber, -⟩ := satisfied.max (.string "3000") rfl
  cases isNumber

/-- A band with two numbers is kept. -/
theorem parseFilters_enforces_band :
    parseFilters Sample.floats (Sample.call Sample.band) =
        .ok (some ⟨[⟨"altitude",
          some (.range ⟨some (some 1000), some (some 3000)⟩)⟩]⟩) ∧
      Enforces Sample.floats (.array [Sample.band])
        (some ⟨[⟨"altitude",
          some (.range ⟨some (some 1000), some (some 3000)⟩)⟩]⟩) := by
  have given : (Sample.call Sample.band).get "filters" =
      some (.array [Sample.band]) := rfl
  have parsed : parseFilters Sample.floats (Sample.call Sample.band) =
      .ok (some ⟨[⟨"altitude",
        some (.range ⟨some (some 1000), some (some 3000)⟩)⟩]⟩) := rfl
  have clean : ∀ element ∈ [Sample.band], Clean Sample.floats element := by
    intro element member
    rw [List.mem_singleton.mp member]
    constructor
    case equals =>
      intro value isWritten
      cases isWritten
    case min =>
      intro value isWritten
      cases isWritten
      exact ⟨_, rfl⟩
    case max =>
      intro value isWritten
      cases isWritten
      exact ⟨_, rfl⟩
    case is =>
      intro value isWritten
      cases isWritten
  exact ⟨parsed, (parseFilters_enforces_iff Sample.floats given rfl).mpr
    ⟨[Sample.band], rfl, Or.inr clean⟩ _ parsed⟩

end AetherEngine.AgentTools
