import Mathlib.Algebra.BigOperators.Group.List.Basic
import Mathlib.Algebra.BigOperators.Group.List.Lemmas
import Mathlib.Algebra.GroupWithZero.Nat
import Mathlib.Data.List.Induction

/-!
# Traces of a machine whose events may be disabled

A step function refuses the events that are not enabled.  A trace leads to a
state when all of its events are enabled in turn.  The rules below relate what
a state says to what its trace says: an invariant may mention both.
-/

namespace AetherEngine.Traces

universe u v

variable {state : Type u} {event : Type v}

/-- The state a trace leads to. -/
def replay (step : state → event → Option state) (start : state)
    (events : List event) : Option state :=
  events.foldlM step start

/-- The events are enabled one after the other, and lead to the state. -/
def Leads (step : state → event → Option state) (start : state)
    (events : List event) (finish : state) : Prop :=
  replay step start events = some finish

instance instDecidableLeads [DecidableEq state]
    {step : state → event → Option state} {start finish : state}
    {events : List event} : Decidable (Leads step start events finish) :=
  inferInstanceAs (Decidable (_ = _))

variable {step : state → event → Option state}

@[simp]
theorem leads_nil {start finish : state} :
    Leads step start [] finish ↔ start = finish := by
  simp [Leads, replay]

@[simp]
theorem leads_cons {start finish : state} {next : event}
    {rest : List event} :
    Leads step start (next :: rest) finish ↔
      ∃ reached, step start next = some reached ∧
        Leads step reached rest finish := by
  simp [Leads, replay, List.foldlM_cons, Option.bind_eq_some_iff]

theorem leads_append {start finish : state} {first second : List event} :
    Leads step start (first ++ second) finish ↔
      ∃ reached, Leads step start first reached ∧
        Leads step reached second finish := by
  simp [Leads, replay, List.foldlM_append, Option.bind_eq_some_iff]

/-- An invariant of states and traces that every enabled event keeps. -/
theorem Leads.invariant (holds : List event → state → Prop) {start : state}
    (begins : holds [] start)
    (kept : ∀ events current next reached, holds events current →
      step current next = some reached → holds (events ++ [next]) reached)
    {events : List event} {finish : state}
    (leads : Leads step start events finish) : holds events finish := by
  induction events using List.reverseRecOn generalizing finish with
  | nil =>
      rw [leads_nil] at leads
      rw [← leads]
      exact begins
  | append_singleton events next inductionHypothesis =>
      rw [leads_append] at leads
      obtain ⟨current, led, last⟩ := leads
      simp only [leads_cons, leads_nil] at last
      obtain ⟨reached, stepped, same⟩ := last
      rw [← same]
      exact kept events current next reached (inductionHypothesis led) stepped

/-- The same for traces whose events are all allowed. -/
theorem Leads.invariant_of_allowed (holds : List event → state → Prop)
    {allowed : event → Prop} {start : state} (begins : holds [] start)
    (kept : ∀ events current next reached, holds events current →
      allowed next → step current next = some reached →
      holds (events ++ [next]) reached)
    {events : List event} {finish : state}
    (leads : Leads step start events finish)
    (inside : ∀ next ∈ events, allowed next) : holds events finish := by
  have always := Leads.invariant
    (fun events current =>
      (∀ next ∈ events, allowed next) → holds events current)
    (fun _ => begins) ?_ leads
  · exact always inside
  · intro events current next reached holdsNow stepped inside
    refine kept events current next reached (holdsNow ?_) (inside next ?_)
      stepped
    · exact fun other member =>
        inside other (List.mem_append_left _ member)
    · exact List.mem_append_right _ List.mem_cons_self

/-- Some event of the trace happened so: after these events, in that state. -/
def Once (step : state → event → Option state) (start : state)
    (events : List event) (happened : List event → event → state → Prop) :
    Prop :=
  ∃ earlier next later moment, events = earlier ++ next :: later ∧
    Leads step start earlier moment ∧ happened earlier next moment

theorem once_now {happened : List event → event → state → Prop}
    {start current : state} {events : List event} {next : event}
    (leads : Leads step start events current)
    (now : happened events next current) :
    Once step start (events ++ [next]) happened :=
  ⟨events, next, [], current, rfl, leads, now⟩

theorem Once.later {happened : List event → event → state → Prop}
    {start : state} {events : List event}
    (once : Once step start events happened) (more : List event) :
    Once step start (events ++ more) happened := by
  obtain ⟨earlier, next, later, moment, rfl, leads, held⟩ := once
  refine ⟨earlier, next, later ++ more, moment, ?_, leads, held⟩
  rw [List.append_assoc, List.cons_append]

/-- What the events cost is paid from the potential of the first state and from
what the events bring in. -/
theorem Leads.cost_le (potential : state → Nat) (cost income : event → Nat)
    (paid : ∀ current next reached, step current next = some reached →
      potential reached + cost next ≤ potential current + income next)
    {start finish : state} {events : List event}
    (leads : Leads step start events finish) :
    potential finish + (events.map cost).sum ≤
      potential start + (events.map income).sum := by
  refine Leads.invariant
    (fun events current =>
      potential current + (events.map cost).sum ≤
        potential start + (events.map income).sum) ?_ ?_ leads
  · simp
  · intro events current next reached bounded stepped
    have now := paid current next reached stepped
    simp only [List.map_append, List.map_cons, List.map_nil, List.sum_append,
      List.sum_cons, List.sum_nil]
    omega

end AetherEngine.Traces
