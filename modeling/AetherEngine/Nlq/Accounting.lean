import AetherEngine.Nlq.Run

/-!
# The account of a run

The loop turn by turn, with a log of what it asks of the model and of the
tools.  Whatever the model and the tools do, the loop ends within its budget,
and what the answer says of the run is what the log shows.
-/

namespace AetherEngine.Nlq

open AetherEngine.AgentTools
open AetherEngine.Lines

variable {value : Type}

/-! ## The log -/

/-- What the loop does with the world outside. -/
inductive Event (value : Type) where
  /-- The model is shown observations and decides. -/
  | asked (seen : List (String × String))
      (decision : Except String (Step value))
  /-- A tool is run. -/
  | ran (name : String) (args : value) (result : Except String String)

namespace Event

/-- What a tool run adds to the observations. -/
def observation : Event value → Option (String × String)
  | .asked _ _ => none
  | .ran name _ result => some (name, outputOf name result)

def isAsk : Event value → Bool
  | .asked _ _ => true
  | .ran _ _ _ => false

def isRun : Event value → Bool
  | .asked _ _ => false
  | .ran _ _ _ => true

end Event

/-- The loop for a number of turns, with the log so far; no result if it has not
ended by then. -/
def converse (model : Model value) (tools : ToolRunner value)
    (question : String) (budget : Budget) :
    Nat → Gathered → List (Event value) →
      Option (List (Event value) × Answer)
  | 0, _, _ => none
  | turns + 1, gathered, log =>
      let decision := model question gathered.observations
      let log := log ++ [.asked gathered.observations decision]
      match decision with
      | .error message =>
          some (log, gathered.conclude
            ("could not complete the query: " ++ message) false)
      | .ok (.answer text) => some (log, gathered.conclude text false)
      | .ok (.callTool name args) =>
          if budget.maxToolCalls ≤ gathered.calls then
            some (log, gathered.conclude (partialText budget gathered) true)
          else
            converse model tools question budget turns
              (gathered.call tools name args)
              (log ++ [.ran name args (tools gathered.calls name args)])

/-- Every question to the model shows it what the runs before have brought, and
every run is the call the model has just asked for. -/
structure Told (model : Model value) (tools : ToolRunner value)
    (question : String) (log : List (Event value)) : Prop where
  asked : ∀ before seen decision after,
    log = before ++ .asked seen decision :: after →
      seen = before.filterMap Event.observation ∧
        decision = model question seen
  ran : ∀ before name args result after,
    log = before ++ .ran name args result :: after →
      result = tools (before.countP Event.isRun) name args ∧
        ∃ earlier seen,
          before = earlier ++ [.asked seen (.ok (.callTool name args))]

/-- What the loop has gathered is what the log shows. -/
structure Gathered.Records (gathered : Gathered) (log : List (Event value)) :
    Prop where
  observations : gathered.observations = log.filterMap Event.observation
  provenance : gathered.provenance =
    (log.filterMap Event.observation).flatMap
      (fun seen => liftProvenance seen.2)
  calls : gathered.calls = log.countP Event.isRun

/-- The log of a run that has ended, and what the answer says of it. -/
structure Settled (model : Model value) (tools : ToolRunner value)
    (question : String) (budget : Budget) (log : List (Event value))
    (answer : Answer) : Prop where
  told : Told model tools question log
  /-- The tools run. -/
  runs : log.countP Event.isRun ≤ budget.maxToolCalls
  /-- The model calls. -/
  asks : log.countP Event.isAsk ≤ budget.maxToolCalls + 1
  toolCalls : answer.toolCalls = log.countP Event.isRun
  /-- The model asked for one more call after all the budget allows. -/
  exhausted : answer.budgetExhausted = true ↔
    ∃ earlier seen name args,
      log = earlier ++ [.asked seen (.ok (.callTool name args))] ∧
        earlier.countP Event.isRun = budget.maxToolCalls
  /-- With the marker in front again, these are the outputs' lines that begin
  with it. -/
  provenance : answer.provenance.map (fun lifted => marker ++ lifted.toList) =
    (log.filterMap Event.observation).flatMap
      (fun seen => (lines seen.2.toList).filter (marker <+: ·))

/-! ## One more event -/

theorem concat_eq_append_cons {α : Type} {items before after : List α}
    {last item : α} (split : items ++ [last] = before ++ item :: after) :
    (before = items ∧ item = last ∧ after = []) ∨
      ∃ rest, items = before ++ item :: rest := by
  rcases List.eq_nil_or_concat after with rfl | ⟨rest, final, rfl⟩
  · have parts := List.append_inj' split rfl
    exact .inl ⟨parts.1.symm, by simpa using parts.2.symm, rfl⟩
  · right
    refine ⟨rest, ?_⟩
    rw [List.concat_eq_append, ← List.cons_append, ← List.append_assoc]
      at split
    exact (List.append_inj' split rfl).1

section Log

variable {model : Model value} {tools : ToolRunner value} {question : String}
variable {budget : Budget} {gathered : Gathered} {log : List (Event value)}

private theorem told_nil : Told model tools question [] where
  asked := by simp
  ran := by simp

private theorem records_start : Gathered.Records {} ([] : List (Event value)) :=
  ⟨rfl, rfl, rfl⟩

theorem Told.ask (told : Told model tools question log)
    (records : gathered.Records log) :
    Told model tools question
      (log ++ [.asked gathered.observations
        (model question gathered.observations)]) where
  asked before seen decision after split := by
    rcases concat_eq_append_cons split with ⟨rfl, same, -⟩ | ⟨rest, earlier⟩
    · cases same
      exact ⟨records.observations, rfl⟩
    · exact told.asked before seen decision rest earlier
  ran before name args result after split := by
    rcases concat_eq_append_cons split with ⟨-, same, -⟩ | ⟨rest, earlier⟩
    · cases same
    · exact told.ran before name args result rest earlier

theorem Told.run {seen : List (String × String)} {name : String} {args : value}
    (told : Told model tools question
      (log ++ [.asked seen (.ok (.callTool name args))])) :
    Told model tools question
      (log ++ [.asked seen (.ok (.callTool name args))] ++
        [.ran name args (tools (log.countP Event.isRun) name args)]) where
  asked before shown decision after split := by
    rcases concat_eq_append_cons split with ⟨-, same, -⟩ | ⟨rest, earlier⟩
    · cases same
    · exact told.asked before shown decision rest earlier
  ran before other others result after split := by
    rcases concat_eq_append_cons split with ⟨rfl, same, -⟩ | ⟨rest, earlier⟩
    · cases same
      refine ⟨?_, log, seen, rfl⟩
      rw [List.countP_append]
      rfl
    · exact told.ran before other others result rest earlier

theorem Gathered.Records.ask (records : gathered.Records log)
    (seen : List (String × String)) (decision : Except String (Step value)) :
    gathered.Records (log ++ [.asked seen decision]) where
  observations := by
    simp [records.observations, Event.observation]
  provenance := by
    simp [records.provenance, Event.observation]
  calls := by
    simp [records.calls, Event.isRun]

theorem Gathered.Records.call (records : gathered.Records log)
    (tools : ToolRunner value) (name : String) (args : value) :
    (gathered.call tools name args).Records
      (log ++ [.ran name args (tools gathered.calls name args)]) where
  observations := by
    simp [Gathered.call, records.observations, Event.observation]
  provenance := by
    simp [Gathered.call, records.provenance, Event.observation]
  calls := by
    simp [Gathered.call, records.calls, Event.isRun]

private theorem marker_append_liftProvenance (output : String) :
    (liftProvenance output).map (fun lifted => marker ++ lifted.toList) =
      (lines output.toList).filter (marker <+: ·) := by
  rw [← append_markedLines, liftProvenance, List.map_map]
  exact List.map_congr_left fun lifted _ => by
    rw [Function.comp_apply, String.toList_ofList]

/-- What has been lifted are the marked lines of the outputs. -/
theorem Gathered.Records.marked (records : gathered.Records log) :
    gathered.provenance.map (fun lifted => marker ++ lifted.toList) =
      (log.filterMap Event.observation).flatMap
        (fun seen => (lines seen.2.toList).filter (marker <+: ·)) := by
  rw [records.provenance, List.map_flatMap]
  exact List.flatMap_congr fun seen _ => marker_append_liftProvenance seen.2

/-! ## The end of a run -/

/-- The text with which a decision ends the run, unless it is a call. -/
def lastWords : Except String (Step value) → Option String
  | .error message => some ("could not complete the query: " ++ message)
  | .ok (.answer text) => some text
  | .ok (.callTool _ _) => none

private theorem lastWords_eq_some {decision : Except String (Step value)}
    {text : String} (ends : lastWords decision = some text) :
    (∃ message, decision = .error message ∧
      text = "could not complete the query: " ++ message) ∨
    decision = .ok (.answer text) := by
  cases decision with
  | error message =>
      exact Or.inl ⟨message, rfl, (Option.some_inj.mp ends).symm⟩
  | ok step =>
      cases step with
      | answer answered =>
          rw [← Option.some_inj.mp ends]
          exact Or.inr rfl
      | callTool name args =>
          cases ends

/-- A decision that ends the run ends the loop on that turn. -/
theorem converse_of_lastWords {text : String} {turns : Nat}
    (ends : lastWords (model question gathered.observations) = some text)
    (enough : 0 < turns) :
    converse model tools question budget turns gathered log =
      some (log ++ [.asked gathered.observations
        (model question gathered.observations)],
        gathered.conclude text false) := by
  obtain ⟨turns, rfl⟩ := Nat.exists_eq_add_one.mpr enough
  rw [converse]
  rcases lastWords_eq_some ends with ⟨message, decision, rfl⟩ | decision
  · rw [decision]
  · rw [decision]

private theorem runFrom_of_lastWords {text : String} {remaining : Nat}
    (ends : lastWords (model question gathered.observations) = some text) :
    runFrom model tools question budget remaining gathered =
      (gathered, gathered.conclude text false) := by
  unfold runFrom
  rcases lastWords_eq_some ends with ⟨message, decision, rfl⟩ | decision
  · rw [decision]
  · rw [decision]

private theorem callTool_of_lastWords {decision : Except String (Step value)}
    (continues : lastWords decision = none) :
    ∃ name args, decision = .ok (.callTool name args) := by
  cases decision with
  | error message => cases continues
  | ok step =>
      cases step with
      | answer text => cases continues
      | callTool name args => exact ⟨name, args, rfl⟩

/-- The model ends the run. -/
theorem Settled.ended {text : String}
    (told : Told model tools question log) (records : gathered.Records log)
    (even : log.countP Event.isAsk = log.countP Event.isRun)
    (within : gathered.calls ≤ budget.maxToolCalls)
    (ends : lastWords (model question gathered.observations) = some text) :
    Settled model tools question budget
      (log ++ [.asked gathered.observations
        (model question gathered.observations)])
      (gathered.conclude text false) where
  told := told.ask records
  runs := by
    rw [← (records.ask _ _).calls]
    exact within
  asks := by
    rw [List.countP_append, even, ← records.calls]
    exact Nat.add_le_add_right within 1
  toolCalls := (records.ask _ _).calls
  exhausted := by
    constructor
    · intro impossible
      cases impossible
    · intro asking
      obtain ⟨earlier, seen, name, args, split, -⟩ := asking
      have last := (List.append_inj' split rfl).2
      rw [List.cons.injEq, Event.asked.injEq] at last
      rw [last.1.2] at ends
      cases ends
  provenance := (records.ask _ _).marked

/-- The model asks for a call beyond the budget. -/
theorem Settled.overrun {name : String} {args : value} {text : String}
    (told : Told model tools question log) (records : gathered.Records log)
    (even : log.countP Event.isAsk = log.countP Event.isRun)
    (spent : gathered.calls = budget.maxToolCalls)
    (decided : model question gathered.observations =
      .ok (.callTool name args)) :
    Settled model tools question budget
      (log ++ [.asked gathered.observations (.ok (.callTool name args))])
      (gathered.conclude text true) where
  told := decided ▸ told.ask records
  runs := by
    rw [← (records.ask _ _).calls]
    exact Nat.le_of_eq spent
  asks := by
    rw [List.countP_append, even, ← records.calls]
    exact Nat.add_le_add_right (Nat.le_of_eq spent) 1
  toolCalls := (records.ask _ _).calls
  exhausted := by
    refine ⟨fun _ => ?_, fun _ => rfl⟩
    exact ⟨log, gathered.observations, name, args, rfl,
      records.calls.symm.trans spent⟩
  provenance := (records.ask _ _).marked

/-- From any turn of a run on, the loop ends within the calls the budget has
left, with the answer of the run. -/
theorem converse_spec (remaining : Nat) {gathered : Gathered}
    {log : List (Event value)} (told : Told model tools question log)
    (records : gathered.Records log)
    (even : log.countP Event.isAsk = log.countP Event.isRun)
    (left : gathered.calls + remaining = budget.maxToolCalls) :
    ∃ whole,
      (∀ turns, remaining < turns →
        converse model tools question budget turns gathered log =
          some (whole,
            (runFrom model tools question budget remaining gathered).2)) ∧
      Settled model tools question budget whole
        (runFrom model tools question budget remaining gathered).2 := by
  induction remaining generalizing gathered log with
  | zero =>
      cases ends : lastWords (model question gathered.observations) with
      | some text =>
          rw [runFrom_of_lastWords ends]
          refine ⟨_, fun turns enough => converse_of_lastWords ends enough, ?_⟩
          exact .ended told records even (Nat.le_of_eq left) ends
      | none =>
          obtain ⟨name, args, decided⟩ := callTool_of_lastWords ends
          have stops : runFrom model tools question budget 0 gathered =
              (gathered,
                gathered.conclude (partialText budget gathered) true) := by
            rw [runFrom, decided]
          rw [stops]
          refine ⟨log ++ [.asked gathered.observations
            (.ok (.callTool name args))], ?_, ?_⟩
          · intro turns enough
            obtain ⟨turns, rfl⟩ := Nat.exists_eq_add_one.mpr enough
            rw [converse, decided]
            exact if_pos (Nat.le_of_eq left.symm)
          · exact .overrun told records even left decided
  | succ remaining inductionHypothesis =>
      cases ends : lastWords (model question gathered.observations) with
      | some text =>
          rw [runFrom_of_lastWords ends]
          refine ⟨_, fun turns enough =>
            converse_of_lastWords ends (Nat.zero_lt_of_lt enough), ?_⟩
          exact .ended told records even (by omega) ends
      | none =>
          obtain ⟨name, args, decided⟩ := callTool_of_lastWords ends
          have continues :
              runFrom model tools question budget (remaining + 1) gathered =
                runFrom model tools question budget remaining
                  (gathered.call tools name args) := by
            rw [runFrom, decided]
          have asked := told.ask records
          rw [decided] at asked
          have ran := asked.run
          rw [← records.calls] at ran
          have called := (records.ask gathered.observations
            (.ok (.callTool name args))).call tools name args
          have counted : (gathered.call tools name args).calls =
            gathered.calls + 1 := rfl
          obtain ⟨whole, finishes, settled⟩ := inductionHypothesis ran called
            (by
              simp only [List.countP_append, even]
              rfl)
            (by omega)
          rw [continues]
          refine ⟨whole, ?_, settled⟩
          intro turns enough
          obtain ⟨turns, rfl⟩ :=
            Nat.exists_eq_add_one.mpr (Nat.zero_lt_of_lt enough)
          rw [converse, decided, ← finishes turns (by omega)]
          exact if_neg (by omega)

end Log

/-- Whatever the model and the tools do, the loop ends with the answer of the
run after at most one turn more than the budget has calls.  The log of these
turns has no more runs than the budget, and the answer says of it how many runs
there were, whether the model asked for more than the budget allows, and what
follows the marker in every line of an output that begins with it, in order. -/
theorem run_settled (model : Model value) (tools : ToolRunner value)
    (question : String) (budget : Budget) :
    ∃ log,
      (∀ turns, budget.maxToolCalls < turns →
        converse model tools question budget turns {} [] =
          some (log, run model tools question budget)) ∧
      Settled model tools question budget log
        (run model tools question budget) :=
  converse_spec budget.maxToolCalls told_nil records_start rfl
    (Nat.zero_add _)

end AetherEngine.Nlq
