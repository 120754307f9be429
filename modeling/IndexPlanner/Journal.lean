import IndexPlanner.Event

/-!
# Counting and logging

Seven counters tell how often something was done.  They have 64 bits and wrap around, so
counts add up modulo `2 ^ 64`; added up in any order they are the same.

There are two ways to keep such books.  Most operations do one thing and give back what it
was, their events and by how much the counters rise, as their `Activity`; whoever keeps the
counters and the log enters it.  Advice has more to tell, and it is recorded line by line in
a `Journal` that holds the counters, the lines and the threshold of the log.

The two come to the same.  Whatever is counted or written in a journal is an activity that is
entered, and activities that are entered one after the other are entered together.  So a
record that is made step by step is known by its activity, in which the threshold has no part.

* `Counters.add` adds up counters, and `Activity.append` puts what happened later after what
  happened before;
* `Journal.count` and `Journal.write` are the two steps of a record, and `Journal.enter` takes
  in a whole activity;
* `Journal.count_eq_enter`, `Journal.write_eq_enter`, `Journal.enter_append` and
  `Journal.foldl_eq_enter`: what is entered by a step, by steps that follow one another, and by
  a loop.
-/

namespace IndexPlanner

/-- How often the planner did what. -/
structure Counters where
  advisories : UInt64 := 0
  candidatesEvaluated : UInt64 := 0
  sortRisksFlagged : UInt64 := 0
  recommendationsIssued : UInt64 := 0
  catalogAdds : UInt64 := 0
  catalogDrops : UInt64 := 0
  catalogRejections : UInt64 := 0
  deriving DecidableEq, Repr, Inhabited

namespace Counters

/-- Counters that count nothing. -/
def zero : Counters := {}

/-- Adds up counters, modulo `2 ^ 64`. -/
def add (a b : Counters) : Counters where
  advisories := a.advisories + b.advisories
  candidatesEvaluated := a.candidatesEvaluated + b.candidatesEvaluated
  sortRisksFlagged := a.sortRisksFlagged + b.sortRisksFlagged
  recommendationsIssued := a.recommendationsIssued + b.recommendationsIssued
  catalogAdds := a.catalogAdds + b.catalogAdds
  catalogDrops := a.catalogDrops + b.catalogDrops
  catalogRejections := a.catalogRejections + b.catalogRejections

instance : Add Counters := ⟨add⟩

/-- Counters that have counted the same so many times. -/
def times : Nat → Counters → Counters
  | 0, _ => zero
  | n + 1, c => c.add (times n c)

theorem times_zero (n : Nat) : times n zero = zero := by
  induction n with
  | zero => rfl
  | succ n ih =>
    rw [times, ih]
    rfl

@[simp] theorem add_zero (a : Counters) : a.add zero = a := by simp [add, zero]

@[simp] theorem zero_add (a : Counters) : zero.add a = a := by simp [add, zero]

theorem add_empty (a : Counters) : a + ({} : Counters) = a := add_zero a

theorem add_assoc (a b c : Counters) : (a.add b).add c = a.add (b.add c) := by
  simp [add, UInt64.add_assoc]

end Counters

/-- What an operation has done besides its result. -/
structure Activity where
  /-- What happened, in order. -/
  events : List Event := []
  /-- By how much the counters rise. -/
  counts : Counters := {}
  deriving DecidableEq, Repr, Inhabited

namespace Activity

/-- What happened in two operations, one after the other. -/
def append (a b : Activity) : Activity := ⟨a.events ++ b.events, a.counts.add b.counts⟩

instance : Append Activity := ⟨append⟩

theorem append_eq (a b : Activity) :
    a ++ b = ⟨a.events ++ b.events, a.counts.add b.counts⟩ := rfl

end Activity

/-- What is counted and logged while an operation runs. -/
structure Journal where
  /-- The least severity that is written. -/
  threshold : Severity
  counters : Counters := {}
  log : Log := {}

namespace Journal

/-- Whether events of a severity are written. -/
def enabled (j : Journal) (s : Severity) : Bool := s.reaches j.threshold

/-- Counts on. -/
def count (j : Journal) (c : Counters) : Journal := { j with counters := j.counters + c }

/-- Writes the line of an event, if its severity is written at all: a failure goes to one
stream, and anything else to the other. -/
def write (j : Journal) (e : Event) : Journal :=
  if j.enabled e.severity then
    { j with
      log :=
        if e.severity.isFailure then { j.log with errors := j.log.errors ++ [e.line] }
        else { j.log with output := j.log.output ++ [e.line] } }
  else j

/-- Counts and writes all of an activity. -/
def enter (j : Journal) (a : Activity) : Journal where
  threshold := j.threshold
  counters := j.counters + a.counts
  log := j.log ++ .ofEvents j.threshold a.events

variable {j : Journal} {α : Type}

/-- Activities that are entered one after the other are entered together. -/
theorem enter_append (a b : Activity) : (j.enter a).enter b = j.enter (a ++ b) := by
  have hcounters : j.counters + a.counts + b.counts = j.counters + (a ++ b).counts :=
    Counters.add_assoc ..
  have hlog : j.log ++ Log.ofEvents j.threshold a.events ++ Log.ofEvents j.threshold b.events =
      j.log ++ Log.ofEvents j.threshold (a ++ b).events := by
    rw [Log.append_assoc, ← Log.ofEvents_append]
    rfl
  simp only [enter, hcounters, hlog]

theorem count_eq_enter (c : Counters) : j.count c = j.enter { counts := c } := by
  have hlog : j.log ++ Log.ofEvents j.threshold [] = j.log := Log.append_empty j.log
  simp only [count, enter, hlog]

/-- A line is what is entered for an event. -/
theorem write_eq_enter (e : Event) : j.write e = j.enter { events := [e] } := by
  have hlog : (j.write e).log = j.log ++ Log.ofEvents j.threshold [e] := by
    rw [Log.ofEvents_singleton, write, enabled]
    split
    · split
      · exact congrArg (Log.mk · _) (List.append_nil _).symm
      · exact congrArg (Log.mk _) (List.append_nil _).symm
    · exact (Log.append_empty j.log).symm
  rw [enter, Counters.add_empty, ← hlog, write]
  split <;> rfl

/-- A step that counts and then writes enters both. -/
theorem write_count_eq_enter (c : Counters) (e : Event) :
    (j.count c).write e = j.enter { events := [e], counts := c } := by
  rw [count_eq_enter, write_eq_enter, enter_append]
  exact congrArg (fun d => j.enter ⟨[e], d⟩) (Counters.add_zero c)

/-- What does not reach the threshold leaves no line. -/
theorem enter_of_not_enabled {es : List Event} (h : ∀ e ∈ es, j.enabled e.severity = false) :
    j.enter { events := es } = j := by
  have hkept : Log.kept j.threshold es = [] :=
    List.filter_eq_nil_iff.2 fun e he => Bool.eq_false_iff.1 (h e he)
  have hlog : j.log ++ Log.ofEvents j.threshold es = j.log := by
    rw [Log.ofEvents, hkept]
    exact Log.append_empty j.log
  simp only [enter, Counters.add_empty, hlog]

/-- A loop whose step enters an event and counts the same every time. -/
theorem foldl_eq_enter {step : Journal → α → Journal} {tell : α → Event} {c : Counters}
    (hstep : ∀ j x, step j x = j.enter { events := [tell x], counts := c }) (xs : List α) :
    xs.foldl step j = j.enter { events := xs.map tell, counts := .times xs.length c } := by
  induction xs generalizing j with
  | nil => exact (enter_of_not_enabled (by simp)).symm
  | cons x xs ih =>
    rw [List.foldl_cons, hstep, ih, enter_append]
    rfl

end Journal

end IndexPlanner
