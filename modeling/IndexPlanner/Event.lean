import IndexPlanner.Json.Printer
import IndexPlanner.Text.Order

/-!
# Events and the log

What the planner does is told as a list of *events*.  Which of them are written, and where,
is decided by the threshold of the log, in which no result has a part.

An event is written as one line that holds one object: the name of the event, its
severity, and its fields in ascending order of their keys.  If a key is there twice the
later value counts, and it takes the place of the earlier one.

* `Event.line` is the line of an event;
* `Log.ofEvents` keeps the events that reach a threshold and sends each to its stream, and
  `Log.ofEvents_append` says that events that follow one another may be written one by one.
-/

namespace IndexPlanner

/-- How much an event matters. -/
inductive Severity where
  | trace
  | info
  | warn
  | error
  | fatal
  deriving DecidableEq, Repr, Inhabited

namespace Severity

/-- The word for a severity. -/
def name : Severity → String
  | trace => "TRACE"
  | info => "INFO"
  | warn => "WARN"
  | error => "ERROR"
  | fatal => "FATAL"

/-- The place of a severity in the order from `trace` to `fatal`. -/
def rank : Severity → Nat
  | trace => 0
  | info => 1
  | warn => 2
  | error => 3
  | fatal => 4

/-- The severity with a name, if there is one. -/
def ofName? (word : String) : Option Severity :=
  [trace, info, warn, error, fatal].find? (·.name = word)

/-- Whether events of a severity are written when `threshold` is the least that is. -/
def reaches (s threshold : Severity) : Bool := threshold.rank ≤ s.rank

/-- Whether events of a severity are failures. -/
def isFailure (s : Severity) : Bool := s.reaches error

end Severity

/-- Something that has happened. -/
structure Event where
  severity : Severity
  name : String
  fields : List (String × String) := []
  deriving DecidableEq, Repr, Inhabited

namespace Event

/-- Fields in ascending order of their keys; fields with the same key keep their order. -/
def sortedFields (e : Event) : List (String × String) :=
  e.fields.mergeSort fun a b => ¬ Text.Before b.1 a.1

/-- The members of the object that an event is written as. -/
def members (e : Event) : List (String × Json) :=
  e.sortedFields.foldl (fun ms f => putMember ms f.1 (.string f.2))
    [("event", .string e.name), ("severity", .string e.severity.name)]

/-- The line of an event, with the end of the line. -/
def line (e : Event) : String := (Json.object e.members).compact ++ "\n"

end Event

/-- The lines written to the two streams of the log. -/
structure Log where
  output : List String := []
  errors : List String := []
  deriving DecidableEq, Repr, Inhabited

namespace Log

/-- The events that are written at a threshold. -/
def kept (threshold : Severity) (events : List Event) : List Event :=
  events.filter (·.severity.reaches threshold)

/-- Writes the events that reach a threshold: failures to one stream, all others to the
other. -/
def ofEvents (threshold : Severity) (events : List Event) : Log :=
  let written := kept threshold events
  { output := (written.filter (!·.severity.isFailure)).map Event.line
    errors := (written.filter (·.severity.isFailure)).map Event.line }

/-- The lines of two logs, one written after the other. -/
def append (a b : Log) : Log := ⟨a.output ++ b.output, a.errors ++ b.errors⟩

instance : Append Log := ⟨append⟩

theorem append_assoc (a b c : Log) : a ++ b ++ c = a ++ (b ++ c) := by
  show append (append a b) c = append a (append b c)
  simp only [append, List.append_assoc]

theorem append_empty (a : Log) : a ++ ({} : Log) = a := by
  show append a {} = a
  simp only [append, List.append_nil]

/-- Events that follow one another are written one after the other. -/
theorem ofEvents_append (threshold : Severity) (es fs : List Event) :
    ofEvents threshold (es ++ fs) = ofEvents threshold es ++ ofEvents threshold fs := by
  show _ = append _ _
  simp only [ofEvents, kept, append, List.filter_append, List.map_append]

/-- An event that reaches the threshold is a line in one of the streams. -/
theorem ofEvents_singleton (threshold : Severity) (e : Event) :
    ofEvents threshold [e] =
      if e.severity.reaches threshold then
        if e.severity.isFailure then { errors := [e.line] } else { output := [e.line] }
      else {} := by
  unfold ofEvents kept
  cases hreaches : e.severity.reaches threshold <;> cases hfailure : e.severity.isFailure <;>
    simp [hreaches, hfailure]

end Log

end IndexPlanner
