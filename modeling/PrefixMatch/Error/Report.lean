import PrefixMatch.Error.Cause
import PrefixMatch.Event

/-!
# Error — Report

A failure with the place where it surfaced, and its delivery: a slot holds at most one reporter, and a
report goes to that reporter or, when there is none, to the console.
-/

namespace PrefixMatch

/-- A failure, the component that met it, and details about the occasion. -/
structure Report where
  failure : Failure
  component : String
  details : Option String := none
  deriving DecidableEq, Repr

namespace Report

/-- The report as text. -/
def text (r : Report) : String :=
  "Error in " ++ r.component ++ ": " ++ r.failure.message ++
    match r.details with
    | none => ""
    | some details => "\nDetails: " ++ details

/-- The report as an event; missing details are shown as `None`. -/
def event (r : Report) : Event :=
  .errorReported r.failure.message r.component (r.details.getD "None")

end Report

/-- A receiver of reports. -/
inductive Reporter where
  /-- Turns each report into an event. -/
  | tracing
  /-- Keeps each report, under a name of its own. -/
  | recorder (name : String)
  deriving DecidableEq, Repr

/-- What became of a report. -/
inductive Delivery where
  | emitted (e : Event)
  | recorded (name : String) (r : Report)
  /-- Printed on the console, where errors go before any reporter is installed. -/
  | printed (text : String)
  deriving DecidableEq, Repr

/-- The place of the current reporter. -/
structure Slot where
  reporter : Option Reporter := none
  deriving DecidableEq, Repr

namespace Slot

/-- Installs a reporter in place of the previous one. -/
def install (_ : Slot) (r : Reporter) : Slot :=
  ⟨some r⟩

/-- Delivers a report. -/
def deliver (s : Slot) (r : Report) : Delivery :=
  match s.reporter with
  | none => .printed ("Error: " ++ r.text ++ "\n")
  | some .tracing => .emitted r.event
  | some (.recorder name) => .recorded name r

end Slot

/-- The slot of the process and a slot of one's own. -/
structure Slots where
  process : Slot := {}
  own : Slot := {}
  deriving DecidableEq, Repr

/-- Which slot a step addresses. -/
inductive Target where
  | process
  | own
  deriving DecidableEq, Repr

/-- A step of a run with reporters. -/
inductive ReportStep where
  /-- Installs a reporter. -/
  | install (r : Reporter)
  /-- Starts the library, which makes the reporter of the process emit events. -/
  | init
  /-- Reports a failure. -/
  | report (r : Report)
  deriving DecidableEq, Repr

namespace Slots

/-- The slot that a target names. -/
def get (s : Slots) : Target → Slot
  | .process => s.process
  | .own => s.own

/-- The slots after one step, with what it delivered. -/
def step (s : Slots) (target : Target) : ReportStep → Slots × Option Delivery
  | .install r =>
    match target with
    | .process => ({ s with process := s.process.install r }, none)
    | .own => ({ s with own := s.own.install r }, none)
  | .init => ({ s with process := s.process.install .tracing }, none)
  | .report r => (s, some ((s.get target).deliver r))

/-- What each step of a run delivered. -/
def run (s : Slots) (target : Target) : List ReportStep → List (Option Delivery)
  | [] => []
  | x :: xs => (s.step target x).2 :: (s.step target x).1.run target xs

end Slots

end PrefixMatch
