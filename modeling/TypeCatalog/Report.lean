import TypeCatalog.Event

/-!
# Reports

The answer of a step that may fail, with the events that led to it. Events are reported whether or
not the step fails. A step that also changes something returns the changed value beside its report,
so that what a failure leaves behind can be spoken of.
-/

namespace TypeCatalog

/-- The answer of a step or its failure, and what the step reported, oldest first. -/
structure Report (α : Type) where
  answer : Except Failure α
  events : List Event := []
  deriving Repr

namespace Report

variable {α β : Type}

/-- The report of a step that succeeded. -/
def done (answer : α) (events : List Event := []) : Report α := ⟨.ok answer, events⟩

/-- The report of a step that failed. -/
def failed (failure : Failure) (events : List Event := []) : Report α := ⟨.error failure, events⟩

/-- A report with earlier events put before its own. -/
def after (events : List Event) (r : Report α) : Report α := ⟨r.answer, events ++ r.events⟩

/-- A report with its answer changed. -/
def map (f : α → β) (r : Report α) : Report β := ⟨r.answer.map f, r.events⟩

/-- Goes on with the answer of a step, unless it failed. -/
def andThen (r : Report α) (next : α → Report β) : Report β :=
  match r.answer with
  | .ok answer => (next answer).after r.events
  | .error failure => failed failure r.events

@[simp] theorem answer_done (answer : α) (events : List Event) :
    (done answer events).answer = .ok answer := rfl

@[simp] theorem answer_failed (failure : Failure) (events : List Event) :
    (failed failure events : Report α).answer = .error failure := rfl

@[simp] theorem events_done (answer : α) (events : List Event) :
    (done answer events).events = events := rfl

@[simp] theorem events_failed (failure : Failure) (events : List Event) :
    (failed failure events : Report α).events = events := rfl

@[simp] theorem answer_after (events : List Event) (r : Report α) :
    (r.after events).answer = r.answer := rfl

@[simp] theorem events_after (events : List Event) (r : Report α) :
    (r.after events).events = events ++ r.events := rfl

/-- A step that succeeded hands its answer to the next and its events on. -/
theorem andThen_of_ok {r : Report α} {answer : α} (h : r.answer = .ok answer)
    (next : α → Report β) : r.andThen next = (next answer).after r.events := by
  simp [andThen, h]

/-- A step that failed keeps its failure and its events. -/
theorem andThen_of_error {r : Report α} {failure : Failure} (h : r.answer = .error failure)
    (next : α → Report β) : r.andThen next = failed failure r.events := by
  simp [andThen, h]

@[simp] theorem answer_map (f : α → β) (r : Report α) : (r.map f).answer = r.answer.map f := rfl

@[simp] theorem events_map (f : α → β) (r : Report α) : (r.map f).events = r.events := rfl

/-- A changed answer comes from the answer before it was changed. -/
theorem answer_map_eq_ok_iff {f : α → β} {r : Report α} {last : β} :
    (r.map f).answer = .ok last ↔ ∃ answer, r.answer = .ok answer ∧ f answer = last := by
  rw [answer_map]
  cases r.answer <;> simp [Except.map]

/-- Only an answer is changed, and a failure stays. -/
theorem answer_map_eq_error_iff {f : α → β} {r : Report α} {failure : Failure} :
    (r.map f).answer = .error failure ↔ r.answer = .error failure := by
  rw [answer_map]
  cases r.answer <;> simp [Except.map]

/-- Two steps succeed if and only if the first does, and the second one does with its answer. -/
theorem answer_andThen_eq_ok_iff {r : Report α} {next : α → Report β} {last : β} :
    (r.andThen next).answer = .ok last ↔
      ∃ answer, r.answer = .ok answer ∧ (next answer).answer = .ok last := by
  rw [andThen]
  cases r.answer <;> simp

end Report

end TypeCatalog
