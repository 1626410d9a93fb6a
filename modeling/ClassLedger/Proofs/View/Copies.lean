import ClassLedger.View

/-!
# What the copies of a record know

A record may be copied and revised, and every copy may be asked for its shape again and again, by whatever
interpreters.  The first interpreter that a copy needs is called once, and its outcome, also a failure, is what this
copy answers from then on.  Nothing that is asked of a copy changes its record or another copy, and a new copy knows
nothing yet.
-/

namespace ClassLedger

/-! ### Queries -/

inductive Query where
  | shape
  | shapeBy (interpreter : Interpreter)
  | members
  /-- The result of an interpretation of its own, with the reason of a failure. -/
  | interpretation
  | copy
  | revision (edits : List Record.Edit)

inductive Answer where
  | shape (shape? : Option Shape)
  | members (members? : Option Members)
  | interpretation (result : Except InterpretError Shape)
  | copy (made : Observation)

def Answer.made? : Answer → Option Observation
  | copy made => some made
  | shape _ | members _ | interpretation _ => none

namespace Observation

def answer (o : Observation) : Query → Observed Answer
  | .shape => o.shape.map .shape
  | .shapeBy interpreter => (o.shapeBy interpreter).map .shape
  | .members => o.members.map .members
  | .interpretation => { value := .interpretation o.record.interpret, after := o }
  | .copy => { value := .copy o.copy, after := o }
  | .revision edits => { value := .copy (o.revise edits), after := o }

/-- All copies after a query to the one at a place; a new copy comes last. -/
def step (copies : List Observation) (s : Nat × Query) : List Observation :=
  match copies[s.1]? with
  | none => copies
  | some o => copies.set s.1 (o.answer s.2).after ++ (o.answer s.2).value.made?.toList

/-- All copies of a record and its revisions after some queries, each to the one at a place. -/
def run (r : Record) (steps : List (Nat × Query)) : List Observation := steps.foldl step [{ record := r }]

end Observation

/-! ### Lives -/

/-- The interpreter that a query needs, if the copy has no outcome yet. -/
def Query.viewer? : Query → Option Interpreter
  | shape | members => some .standard
  | shapeBy interpreter => some interpreter
  | interpretation | copy | revision _ => none

/-- The record of the new copy that a query makes of a copy of `r`. -/
def Query.made? (r : Record) : Query → Option Record
  | copy => some r
  | revision edits => some (r.revise edits)
  | shape | shapeBy _ | members | interpretation => none

/-- The answer of a copy of `r` with the given outcome. -/
def Query.answerFor (r : Record) (outcome : Option Shape) : Query → Answer
  | shape | shapeBy _ => .shape outcome
  | members => .members (outcome.bind Shape.members?)
  | interpretation => .interpretation r.interpret
  | copy => .copy { record := r }
  | revision edits => .copy { record := r.revise edits }

/-- A copy of a record, with all that was asked of it since it was made. -/
structure Life where
  record : Record
  queries : List Query := []

def Attempt.entries (kind : Int32) : Attempt → List LogEvent
  | returned (.ok _) => []
  | returned (.error error) => [{ kind, error }]
  | crashed report => [{ kind, error := .crashed report.message }]

def Attempt.levels : Attempt → List String
  | returned (.ok _) => []
  | returned (.error (.crashed _)) | crashed _ => ["WARN"]
  | returned (.error _) => ["DEBUG"]

namespace Life

/-- The first interpreter that was needed. -/
def viewer? (l : Life) : Option Interpreter := l.queries.findSome? Query.viewer?

def state (l : Life) : Observation where
  record := l.record
  outcome? := l.viewer?.map fun interpreter => (interpreter l.record).result.toOption

def askAll (l : Life) (queries : List Query) : Life := { l with queries := l.queries ++ queries }

def ask (l : Life) (query : Query) : Life := l.askAll [query]

def step (lives : List Life) (s : Nat × Query) : List Life :=
  match lives[s.1]? with
  | none => lives
  | some l => lives.set s.1 (l.ask s.2) ++ ((s.2.made? l.record).map fun r => { record := r }).toList

def run (r : Record) (steps : List (Nat × Query)) : List Life := steps.foldl step [{ record := r }]

def queriesTo (place : Nat) (steps : List (Nat × Query)) : List Query :=
  (steps.filter fun s => s.1 = place).map Prod.snd

end Life

variable {query : Query}

/-! ### One query -/

theorem Attempt.map_level_entries (kind : Int32) (a : Attempt) : (a.entries kind).map LogEvent.level = a.levels := by
  match a with
  | .returned (.ok _) => rfl
  | .returned (.error e) => cases e <;> rfl
  | .crashed _ => rfl

namespace Observation

variable {o : Observation} {interpreter : Interpreter} {outcome : Option Shape}

theorem shapeBy_of_outcome (known : o.outcome? = some outcome) (interpreter : Interpreter) :
    o.shapeBy interpreter = { value := outcome, after := o } := by
  unfold shapeBy
  rw [known]

theorem shapeBy_of_none (unknown : o.outcome? = none) (interpreter : Interpreter) :
    o.shapeBy interpreter = {
      value := (interpreter o.record).result.toOption
      calls := 1
      events := (interpreter o.record).entries o.record.kind
      after := { o with outcome? := some (interpreter o.record).result.toOption } } := by
  unfold shapeBy
  rw [unknown]
  match interpreter o.record with
  | .returned (.ok _) => rfl
  | .returned (.error _) => rfl
  | .crashed _ => rfl

/-- Every query that needs a shape is the projection of a view. -/
theorem answer_of_viewer (viewer : query.viewer? = some interpreter) (o : Observation) :
    o.answer query = (o.shapeBy interpreter).map (query.answerFor o.record) := by
  cases query with
  | shape | members =>
    obtain rfl := Option.some.inj viewer
    rfl
  | shapeBy i =>
    obtain rfl := Option.some.inj viewer
    rfl
  | interpretation | copy | revision => cases viewer

theorem answer_of_no_viewer (viewer : query.viewer? = none) (o : Observation) (outcome : Option Shape) :
    o.answer query = { value := query.answerFor o.record outcome, after := o } := by
  cases query with
  | interpretation | copy | revision => rfl
  | shape | members | shapeBy => cases viewer

end Observation

theorem Query.made?_answerFor (r : Record) (outcome : Option Shape) (query : Query) :
    (query.answerFor r outcome).made? = (query.made? r).map fun r' => { record := r' } := by
  cases query <;> rfl

namespace Life

variable {l : Life} {interpreter first : Interpreter}

@[simp]
theorem record_askAll (l : Life) (queries : List Query) : (l.askAll queries).record = l.record := rfl

@[simp]
theorem record_ask (l : Life) (query : Query) : (l.ask query).record = l.record := rfl

theorem viewer?_askAll (l : Life) (queries : List Query) :
    (l.askAll queries).viewer? = l.viewer?.or (queries.findSome? Query.viewer?) :=
  List.findSome?_append

theorem viewer?_ask (l : Life) (query : Query) : (l.ask query).viewer? = l.viewer?.or query.viewer? := by
  rw [ask, viewer?_askAll, List.findSome?_singleton]

/-- What is known of a copy does not change. -/
theorem state_askAll_of_viewer (old : l.viewer? = some first) (queries : List Query) :
    (l.askAll queries).state = l.state := by
  simp only [state, viewer?_askAll, old, Option.some_or, record_askAll]

/-- The first query that needs an interpreter calls it, and its outcome is what the copy knows from then on. -/
theorem answer_first (new : l.viewer? = none) (viewer : query.viewer? = some interpreter) :
    l.state.answer query = {
      value := query.answerFor l.record (interpreter l.record).result.toOption
      calls := 1
      events := (interpreter l.record).entries l.record.kind
      after := (l.ask query).state } := by
  have unknown : l.state.outcome? = none := by simp [state, new]
  have after : (l.ask query).state =
      { l.state with outcome? := some (interpreter l.record).result.toOption } := by
    simp [state, viewer?_ask, new, viewer]
  rw [Observation.answer_of_viewer viewer, Observation.shapeBy_of_none unknown, after]
  rfl

/-- A copy that knows an outcome answers from it, whatever interpreter it is offered. -/
theorem answer_later (old : l.viewer? = some first) (viewer : query.viewer? = some interpreter) :
    l.state.answer query =
      { value := query.answerFor l.record (first l.record).result.toOption, after := l.state } := by
  have known : l.state.outcome? = some (first l.record).result.toOption := by simp [state, old]
  rw [Observation.answer_of_viewer viewer, Observation.shapeBy_of_outcome known]
  rfl

theorem after_answer (l : Life) (query : Query) : (l.state.answer query).after = (l.ask query).state := by
  match viewer : query.viewer?, seen : l.viewer? with
  | none, _ =>
    rw [Observation.answer_of_no_viewer viewer _ none]
    simp [state, viewer?_ask, viewer]
  | some _, none => rw [answer_first seen viewer]
  | some _, some _ =>
    rw [answer_later seen viewer]
    exact (state_askAll_of_viewer seen [query]).symm

theorem made?_answer (l : Life) (query : Query) :
    (l.state.answer query).value.made? = (query.made? l.record).map fun r => { record := r } := by
  match viewer : query.viewer?, seen : l.viewer? with
  | none, _ => rw [Observation.answer_of_no_viewer viewer _ none, Query.made?_answerFor]; rfl
  | some _, none => rw [answer_first seen viewer, Query.made?_answerFor]
  | some _, some _ => rw [answer_later seen viewer, Query.made?_answerFor]

/-! ### All queries -/

variable {lives : List Life} {place : Nat}

theorem map_state_step (lives : List Life) (s : Nat × Query) :
    Observation.step (lives.map state) s = (step lives s).map state := by
  unfold step Observation.step
  rw [List.getElem?_map]
  cases lives[s.1]? with
  | none => rfl
  | some l =>
    simp only [Option.map_some, List.map_append, List.map_set, after_answer, made?_answer]
    cases s.2.made? l.record <;> rfl

theorem map_state_run (r : Record) (steps : List (Nat × Query)) :
    Observation.run r steps = (run r steps).map state := by
  have start : [{ record := r }] = [({ record := r } : Life)].map state := rfl
  unfold Observation.run run
  rw [start, List.foldl_hom (List.map state) map_state_step]

/-- A query concerns no other copy than the one that it is put to. -/
theorem getElem?_step (there : lives[place]? = some l) (s : Nat × Query) :
    (step lives s)[place]? = some (if s.1 = place then l.ask s.2 else l) := by
  have inside : place < lives.length := (List.getElem?_eq_some_iff.mp there).1
  unfold step
  match asked : lives[s.1]? with
  | none =>
    have elsewhere : s.1 ≠ place := by
      rintro rfl
      cases there.symm.trans asked
    rw [if_neg elsewhere]
    exact there
  | some l' =>
    rw [List.getElem?_append_left (by simpa using inside)]
    by_cases here : s.1 = place
    · subst here
      obtain rfl := Option.some.inj (asked.symm.trans there)
      rw [List.getElem?_set_self inside, if_pos rfl]
    · rw [List.getElem?_set_ne here, if_neg here]
      exact there

theorem getElem?_foldl_step (there : lives[place]? = some l) (more : List (Nat × Query)) :
    (more.foldl step lives)[place]? = some (l.askAll (queriesTo place more)) := by
  induction more generalizing lives l with
  | nil => simpa [askAll, queriesTo] using there
  | cons s more ih =>
    rw [List.foldl_cons, ih (getElem?_step there s)]
    by_cases here : s.1 = place
    · simp [here, queriesTo, ask, askAll]
    · simp [here, queriesTo]

theorem getElem?_run_append {r : Record} {steps : List (Nat × Query)} (there : (run r steps)[place]? = some l)
    (more : List (Nat × Query)) :
    (Observation.run r (steps ++ more))[place]? = some (l.askAll (queriesTo place more)).state := by
  have later : run r (steps ++ more) = more.foldl step (run r steps) := List.foldl_append
  rw [map_state_run, List.getElem?_map, later, getElem?_foldl_step there]
  rfl

end Life

/-- In every run on copies of a record, a copy is what the queries put to it have made of it.  Its first query that
needs an interpreter calls the one it came with, once, logs the failure if there is one, and fixes the outcome.  All
other queries call nothing, log nothing and leave the copy alone. -/
theorem Observation.answer_of_run (r : Record) (steps : List (Nat × Query)) {place : Nat} {l : Life}
    (there : (Life.run r steps)[place]? = some l) :
    (run r steps)[place]? = some l.state ∧
    l.state.isInterpreted = l.viewer?.isSome ∧
    (∀ query,
      (l.state.answer query).after = (l.ask query).state ∧
      (l.state.answer query).value.made? = (query.made? l.record).map fun r' => { record := r' }) ∧
    (∀ query interpreter, l.viewer? = none → query.viewer? = some interpreter →
      l.state.answer query = {
        value := query.answerFor l.record (interpreter l.record).result.toOption
        calls := 1
        events := (interpreter l.record).entries l.record.kind
        after := { record := l.record, outcome? := some (interpreter l.record).result.toOption } } ∧
      (l.state.answer query).events.map LogEvent.level = (interpreter l.record).levels) ∧
    (∀ query first later, l.viewer? = some first → query.viewer? = some later →
      l.state.answer query = {
        value := query.answerFor l.record (first l.record).result.toOption
        calls := 0
        events := []
        after := l.state }) ∧
    (∀ query outcome, query.viewer? = none →
      l.state.answer query = {
        value := query.answerFor l.record outcome
        calls := 0
        events := []
        after := l.state }) ∧
    (l.viewer? = some .standard → l.state.outcome? = some l.record.interpret.toOption) ∧
    (∀ more, ∃ o, (run r (steps ++ more))[place]? = some o ∧ o.record = l.record ∧
      (l.viewer?.isSome → o = l.state)) ∧
    (∀ o, (l.state == o) = decide (l.record = o.record)) ∧
    l.state.encode = l.record.encode := by
  refine ⟨?here, ?known, ?step, ?first, ?later, ?other, ?standard, ?more, fun _ => rfl, rfl⟩
  case here =>
    rw [Life.map_state_run, List.getElem?_map, there]
    rfl
  case known => exact Option.isSome_map
  case step => exact fun query => ⟨l.after_answer query, l.made?_answer query⟩
  case first =>
    intro query interpreter new viewer
    have seen := Life.answer_first new viewer
    have after : (l.ask query).state =
        { record := l.record, outcome? := some (interpreter l.record).result.toOption } := by
      simp [Life.state, Life.viewer?_ask, new, viewer]
    rw [seen, after]
    exact ⟨rfl, Attempt.map_level_entries _ _⟩
  case later => exact fun query first later old viewer => Life.answer_later old viewer
  case other => exact fun query outcome viewer => answer_of_no_viewer viewer l.state outcome
  case standard =>
    intro first
    simp only [Life.state, first]
    rfl
  case more =>
    intro more
    refine ⟨_, Life.getElem?_run_append there more, rfl, ?_⟩
    intro viewed
    obtain ⟨first, old⟩ := Option.isSome_iff_exists.mp viewed
    exact Life.state_askAll_of_viewer old _

/-- The copy of a record whose interpretation failed: it knows nothing of the failure, and a crash is its own. -/
theorem Observation.answer_of_run_copied :
    let failing : Interpreter := fun _ => .returned (.error .missingClassName)
    let crashing : Interpreter := fun _ => .crashed .other
    let steps : List (Nat × Query) := [(0, .shapeBy failing), (0, .copy), (0, .members), (1, .interpretation)]
    let fresh : Observation := { record := { kind := 7 } }
    (run { kind := 7 } steps)[1]? = some fresh ∧
    (fresh.answer (.shapeBy crashing)).calls = 1 ∧
    (fresh.answer (.shapeBy crashing)).events.map LogEvent.level = ["WARN"] ∧
    (fresh.answer (.shapeBy crashing)).after.isInterpreted := by
  intro failing crashing steps fresh
  obtain ⟨here, -, -, first, -⟩ :=
    @answer_of_run { kind := 7 } steps 1 { record := { kind := 7 }, queries := [.interpretation] } rfl
  obtain ⟨seen, levels⟩ := first (.shapeBy crashing) crashing rfl rfl
  refine ⟨here, ?_, levels, ?_⟩
  · exact congrArg Observed.calls seen
  · exact congrArg (fun o => o.after.isInterpreted) seen

end ClassLedger
