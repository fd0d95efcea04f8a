import Mathlib.Data.List.Basic

/-!
# Runs of a deterministic machine

A run is the list of inputs fed to a step function.  `EachStep` says that a
guard, evaluated in the state before the step, holds at every step of the run;
`Throughout` says that a property holds in every state the run visits, the
first and the last included.  `WhileLive` and `EachStepLive` ask the same up to
the first state that is not live.  The rules below are the only inductions over
runs that the invariant proofs need.
-/

namespace AetherEngine.Runs

universe u v

section Runs

variable {state : Type u} {input : Type v}

/-- The state reached after feeding all inputs. -/
def final (step : state → input → state) (start : state)
    (inputs : List input) : state :=
  inputs.foldl step start

/-- The guard holds in the state before each step of the run. -/
def EachStep (step : state → input → state)
    (guard : state → input → Prop) : state → List input → Prop
  | _, [] => True
  | start, next :: rest =>
      guard start next ∧ EachStep step guard (step start next) rest

instance instDecidableEachStep {step : state → input → state}
    {guard : state → input → Prop}
    [decided : ∀ current next, Decidable (guard current next)] :
    (start : state) → (inputs : List input) →
      Decidable (EachStep step guard start inputs)
  | _, [] => instDecidableTrue
  | start, next :: rest =>
      @instDecidableAnd _ _ (decided start next)
        (instDecidableEachStep (step start next) rest)

/-- The property holds in every state the run visits. -/
def Throughout (step : state → input → state)
    (good : state → Prop) : state → List input → Prop
  | start, [] => good start
  | start, next :: rest =>
      good start ∧ Throughout step good (step start next) rest

/-- The property holds in the states the run visits, up to the first one that is
not live. -/
def WhileLive (step : state → input → state) (live good : state → Prop) :
    state → List input → Prop
  | start, [] => live start → good start
  | start, next :: rest =>
      live start → good start ∧ WhileLive step live good (step start next) rest

/-- The guard holds in the state before each step, up to the first state that
is not live. -/
def EachStepLive (step : state → input → state) (live : state → Prop)
    (guard : state → input → Prop) : state → List input → Prop
  | _, [] => True
  | start, next :: rest =>
      live start →
        guard start next ∧ EachStepLive step live guard (step start next) rest

variable {step : state → input → state}

@[simp]
theorem final_nil (start : state) : final step start [] = start :=
  rfl

@[simp]
theorem final_cons (start : state) (next : input) (rest : List input) :
    final step start (next :: rest) = final step (step start next) rest :=
  rfl

theorem final_append (start : state) (first second : List input) :
    final step start (first ++ second) =
      final step (final step start first) second := by
  simp [final]

theorem eachStep_append
    {guard : state → input → Prop} {start : state}
    (first second : List input) :
    EachStep step guard start (first ++ second) ↔
      EachStep step guard start first ∧
        EachStep step guard (final step start first) second := by
  induction first generalizing start with
  | nil =>
      simp [EachStep]
  | cons next rest inductionHypothesis =>
      simp only [List.cons_append, EachStep, final_cons]
      rw [inductionHypothesis, and_assoc]

theorem throughout_append
    {good : state → Prop} {start : state} (first second : List input) :
    Throughout step good start (first ++ second) ↔
      Throughout step good start first ∧
        Throughout step good (final step start first) second := by
  induction first generalizing start with
  | nil =>
      cases second with
      | nil => simp [Throughout]
      | cons next rest => simp [Throughout]
  | cons next rest inductionHypothesis =>
      simp only [List.cons_append, Throughout, final_cons]
      rw [inductionHypothesis, and_assoc]

theorem final_of_throughout
    {good : state → Prop} {start : state} {inputs : List input}
    (always : Throughout step good start inputs) :
    good (final step start inputs) := by
  induction inputs generalizing start with
  | nil =>
      exact always
  | cons next rest inductionHypothesis =>
      exact inductionHypothesis always.2

theorem eachStep_of_forall_mem
    {guard : state → input → Prop} {start : state} {inputs : List input}
    (always : ∀ next ∈ inputs, ∀ current, guard current next) :
    EachStep step guard start inputs := by
  induction inputs generalizing start with
  | nil =>
      trivial
  | cons next rest inductionHypothesis =>
      exact ⟨always next List.mem_cons_self start,
        inductionHypothesis fun other member =>
          always other (List.mem_cons_of_mem next member)⟩

theorem eachStep_of_throughout
    {good : state → Prop} {start : state} {inputs : List input}
    (always : Throughout step good start inputs) :
    EachStep step (fun current _ => good current) start inputs := by
  induction inputs generalizing start with
  | nil =>
      trivial
  | cons next rest inductionHypothesis =>
      exact ⟨always.1, inductionHypothesis always.2⟩

theorem EachStep.and
    {guard other : state → input → Prop} {start : state}
    {inputs : List input}
    (guarded : EachStep step guard start inputs)
    (alsoGuarded : EachStep step other start inputs) :
    EachStep step
      (fun current next => guard current next ∧ other current next)
      start inputs := by
  induction inputs generalizing start with
  | nil =>
      trivial
  | cons next rest inductionHypothesis =>
      exact ⟨⟨guarded.1, alsoGuarded.1⟩,
        inductionHypothesis guarded.2 alsoGuarded.2⟩

theorem EachStep.and_of_forall_mem
    {guard : state → input → Prop} {allowed : input → Prop} {start : state}
    {inputs : List input} (guarded : EachStep step guard start inputs)
    (inside : ∀ next ∈ inputs, allowed next) :
    EachStep step (fun current next => guard current next ∧ allowed next)
      start inputs :=
  guarded.and
    (eachStep_of_forall_mem (fun next member _ => inside next member))

/-- A guard that follows from an invariant holds at every step of a run whose
inputs all keep the invariant. -/
theorem eachStep_of_invariant
    {guard : state → input → Prop} {invariant : state → Prop}
    {allowed : input → Prop}
    (kept : ∀ current next, invariant current → allowed next →
      guard current next ∧ invariant (step current next))
    {start : state} {inputs : List input}
    (begins : invariant start)
    (inside : ∀ next ∈ inputs, allowed next) :
    EachStep step guard start inputs := by
  induction inputs generalizing start with
  | nil =>
      trivial
  | cons next rest inductionHypothesis =>
      obtain ⟨guarded, reached⟩ :=
        kept start next begins (inside next List.mem_cons_self)
      refine ⟨guarded, inductionHypothesis reached ?_⟩
      exact fun other member =>
        inside other (List.mem_cons_of_mem next member)

/-- One guard gives another along a run, under an invariant that it keeps. -/
theorem EachStep.imp_of_invariant
    {guard other : state → input → Prop} {invariant : state → Prop}
    (kept : ∀ current next, invariant current → guard current next →
      other current next ∧ invariant (step current next))
    {start : state} {inputs : List input}
    (begins : invariant start)
    (guarded : EachStep step guard start inputs) :
    EachStep step other start inputs := by
  induction inputs generalizing start with
  | nil =>
      trivial
  | cons next rest inductionHypothesis =>
      obtain ⟨given, reached⟩ := kept start next begins guarded.1
      exact ⟨given, inductionHypothesis reached guarded.2⟩

/-- A property that every guarded step preserves holds at the end of a
guarded run. -/
theorem final_of_eachStep
    {guard : state → input → Prop} {good : state → Prop}
    (preserved : ∀ current next,
      good current → guard current next → good (step current next))
    {start : state} {inputs : List input}
    (begins : good start)
    (guarded : EachStep step guard start inputs) :
    good (final step start inputs) := by
  induction inputs generalizing start with
  | nil =>
      exact begins
  | cons next rest inductionHypothesis =>
      exact inductionHypothesis
        (preserved start next begins guarded.1) guarded.2

/-- A property that every guarded step preserves holds throughout a guarded
run. -/
theorem throughout_of_eachStep
    {guard : state → input → Prop} {good : state → Prop}
    (preserved : ∀ current next,
      good current → guard current next → good (step current next))
    {start : state} {inputs : List input}
    (begins : good start)
    (guarded : EachStep step guard start inputs) :
    Throughout step good start inputs := by
  induction inputs generalizing start with
  | nil =>
      exact begins
  | cons next rest inductionHypothesis =>
      refine ⟨begins, ?_⟩
      exact inductionHypothesis
        (preserved start next begins guarded.1) guarded.2

/-- When, under an invariant of the allowed steps, the guard is exactly what
one step needs to keep the property and to satisfy another guard, the guarded
runs are exactly those on which neither ever fails. -/
theorem throughout_and_eachStep_iff_of_allowed
    {guard other allowed : state → input → Prop}
    {good invariant : state → Prop}
    (kept : ∀ current next, invariant current → allowed current next →
      invariant (step current next))
    (exact : ∀ current next, invariant current → allowed current next →
      good current →
        (good (step current next) ∧ other current next ↔
          guard current next))
    {start : state} {inputs : List input}
    (holds : invariant start) (inside : EachStep step allowed start inputs)
    (begins : good start) :
    Throughout step good start inputs ∧ EachStep step other start inputs ↔
      EachStep step guard start inputs := by
  induction inputs generalizing start with
  | nil =>
      exact ⟨fun _ => trivial, fun _ => ⟨begins, trivial⟩⟩
  | cons next rest inductionHypothesis =>
      obtain ⟨allowedNext, insideRest⟩ := inside
      have oneStep := exact start next holds allowedNext begins
      have later :=
        inductionHypothesis (kept start next holds allowedNext) insideRest
      constructor
      · intro always
        rcases always with ⟨⟨_, always⟩, now, alsoLater⟩
        have reached : good (step start next) := by
          cases rest with
          | nil => exact always
          | cons _ _ => exact always.1
        exact ⟨oneStep.mp ⟨reached, now⟩,
          (later reached).mp ⟨always, alsoLater⟩⟩
      · intro guards
        rcases guards with ⟨guarded, guardedLater⟩
        obtain ⟨reached, now⟩ := oneStep.mpr guarded
        obtain ⟨always, alsoLater⟩ := (later reached).mpr guardedLater
        exact ⟨⟨begins, always⟩, now, alsoLater⟩

theorem throughout_and_eachStep_iff
    {guard other : state → input → Prop} {good invariant : state → Prop}
    {allowed : input → Prop}
    (kept : ∀ current next, invariant current → allowed next →
      invariant (step current next))
    (exact : ∀ current next, invariant current → allowed next →
      good current →
        (good (step current next) ∧ other current next ↔
          guard current next))
    {start : state} {inputs : List input}
    (holds : invariant start) (inside : ∀ next ∈ inputs, allowed next)
    (begins : good start) :
    Throughout step good start inputs ∧ EachStep step other start inputs ↔
      EachStep step guard start inputs := by
  have insideEach : EachStep step (fun _ next => allowed next) start inputs :=
    eachStep_of_forall_mem (fun next member _ => inside next member)
  exact throughout_and_eachStep_iff_of_allowed kept exact holds insideEach
    begins

/-- When the guard is exactly what one step needs, guarded runs are exactly
the runs on which the property never fails. -/
theorem throughout_iff_eachStep
    {guard : state → input → Prop} {good : state → Prop}
    (exact : ∀ current next,
      good current → (good (step current next) ↔ guard current next))
    {start : state} {inputs : List input}
    (begins : good start) :
    Throughout step good start inputs ↔
      EachStep step guard start inputs := by
  have unguarded : EachStep step (fun _ _ => True) start inputs :=
    eachStep_of_forall_mem (fun _ _ _ => trivial)
  have oneStep : ∀ current next, True → True → good current →
      (good (step current next) ∧ True ↔ guard current next) := by
    intro current next _ _ holds
    rw [and_true]
    exact exact current next holds
  have both := throughout_and_eachStep_iff (fun _ _ _ _ => trivial) oneStep
    trivial (fun next (_ : next ∈ inputs) => trivial) begins
  exact ⟨fun always => both.mp ⟨always, unguarded⟩,
    fun guarded => (both.mpr guarded).1⟩

private theorem good_of_whileLive
    {live good : state → Prop} {start : state} {inputs : List input}
    (holds : WhileLive step live good start inputs) (alive : live start) :
    good start := by
  cases inputs with
  | nil => exact holds alive
  | cons next rest => exact (holds alive).1

/-- When, under an invariant, the guard is exactly what one step needs to keep
the property while the state is live, the property lasts as long as the state
is live exactly on the runs that are guarded as long. -/
theorem whileLive_iff_eachStepLive
    {guard : state → input → Prop} {live good invariant : state → Prop}
    (kept : ∀ current next, invariant current →
      invariant (step current next))
    (exact : ∀ current next, invariant current → live current →
      good current →
        ((live (step current next) → good (step current next)) ↔
          guard current next))
    {start : state} {inputs : List input} (holds : invariant start)
    (begins : live start → good start) :
    WhileLive step live good start inputs ↔
      EachStepLive step live guard start inputs := by
  induction inputs generalizing start with
  | nil =>
      exact ⟨fun _ => trivial, fun _ => begins⟩
  | cons next rest inductionHypothesis =>
      have later := inductionHypothesis (kept start next holds)
      constructor
      · intro lasts alive
        obtain ⟨-, lastsLater⟩ := lasts alive
        have reached := fun alive => good_of_whileLive lastsLater alive
        exact ⟨(exact start next holds alive (begins alive)).mp reached,
          (later reached).mp lastsLater⟩
      · intro guarded alive
        obtain ⟨guardedNow, guardedLater⟩ := guarded alive
        have reached :=
          (exact start next holds alive (begins alive)).mpr guardedNow
        exact ⟨begins alive, (later reached).mpr guardedLater⟩

theorem throughout_mono
    {good better : state → Prop}
    (weaker : ∀ current, good current → better current)
    {start : state} {inputs : List input}
    (always : Throughout step good start inputs) :
    Throughout step better start inputs := by
  induction inputs generalizing start with
  | nil =>
      exact weaker start always
  | cons next rest inductionHypothesis =>
      exact ⟨weaker start always.1, inductionHypothesis always.2⟩

end Runs

end AetherEngine.Runs
