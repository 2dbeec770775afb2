import Mathlib.Data.List.Forall2
import Mathlib.Data.List.Infix
import PrefixMatch.Error.Report

/-!
# Error — the delivery of reports

A run makes steps on two slots, the one of the process and one of its own, in any order.  Its deliveries are told
from the steps alone, without the state of a slot: the current reporter of a slot is the one that the latest
installation on it put there (`Slots.current`), and each step is looked at together with the steps before it
(`Slots.withBefore`).

* `Slots.reporter_step`, `Slots.current_concat`: a step changes the reporter of a slot as it changes the latest
  installation.
* `Slots.HoldsCurrent.deliveries_eq`: the deliveries of a run, step by step.
* `Slots.received_deliveries`: what a recorder has received.
* `Slots.deliveriesOn_eq`: the deliveries on one slot are those of the steps on that slot alone.
* `Slots.deliveries_reach_current`: each report reaches the reporter that is current on its slot, once.
-/

namespace PrefixMatch

/-- The reporter that a step installs. -/
def ReportStep.installed? : ReportStep → Option Reporter
  | .install r => some r
  | .init => some .tracing
  | .report _ => none

namespace Slots

/-! ### Runs over both slots -/

/-- What each step of a run over both slots delivered. -/
def deliveries (s : Slots) : List (Target × ReportStep) → List (Option Delivery)
  | [] => []
  | (target, x) :: steps => (s.step target x).2 :: (s.step target x).1.deliveries steps

/-- A run on one slot is such a run. -/
theorem run_eq_deliveries (s : Slots) (target : Target) (xs : List ReportStep) :
    s.run target xs = s.deliveries (xs.map (target, ·)) := by
  induction xs generalizing s with
  | nil => rfl
  | cons x xs ih => rw [run, ih, List.map_cons, deliveries]

/-- The slot that a step acts on.  Starting the library acts on the slot of the process, whatever slot is at
hand. -/
def slotOf : Target × ReportStep → Target
  | (_, .init) => .process
  | (target, _) => target

@[simp] theorem slotOf_report (slot : Target) (r : Report) : slotOf (slot, .report r) = slot := rfl

/-- The reporter that a step puts into a slot. -/
def installs? (slot : Target) (step : Target × ReportStep) : Option Reporter :=
  if slotOf step = slot then step.2.installed? else none

/-- The reporter that the latest installation on a slot put there. -/
def current (slot : Target) (steps : List (Target × ReportStep)) : Option Reporter :=
  (steps.filterMap (installs? slot)).getLast?

/-- Each step with the steps before it. -/
def withBefore (steps : List (Target × ReportStep)) :
    List ((Target × ReportStep) × List (Target × ReportStep)) :=
  steps.zip steps.inits

/-- What a step is to deliver, behind the steps before it: a report goes to the current reporter of its slot, as
it is, as one event with the same fields, or as text on the console when there is no reporter; nothing else is
delivered. -/
inductive Delivers (before : List (Target × ReportStep)) : Target × ReportStep → Option Delivery → Prop where
  | recorded {slot : Target} {name : String} (r : Report) (h : current slot before = some (.recorder name)) :
      Delivers before (slot, .report r) (some (.recorded name r))
  | emitted {slot : Target} {e : Event} (r : Report) (h : current slot before = some .tracing)
      (level : e.level = .error) (message : e.message = "Error reported")
      (fields : e.fields = [("error", .text r.failure.message), ("component", .text r.component),
        ("details", .text (r.details.getD "None"))]) :
      Delivers before (slot, .report r) (some (.emitted e))
  | printed {slot : Target} (r : Report) (h : current slot before = none) :
      Delivers before (slot, .report r) (some (.printed ("Error: " ++ r.text ++ "\n")))
  | install (slot : Target) (reporter : Reporter) : Delivers before (slot, .install reporter) none
  | init (slot : Target) : Delivers before (slot, .init) none

/-- The reports that a recorder received. -/
def received (name : String) (ds : List (Option Delivery)) : List Report :=
  ds.filterMap fun
    | some (.recorded recorder r) => if recorder = name then some r else none
    | _ => none

/-- The reports that were made on a slot while a reporter was the current one there. -/
def madeUnder (reporter : Reporter) (steps : List (Target × ReportStep)) : List Report :=
  (withBefore steps).filterMap fun
    | ((slot, .report r), before) => if current slot before = some reporter then some r else none
    | _ => none

/-! ### The current reporter -/

/-- A step changes the reporter of a slot only by what it puts there. -/
theorem reporter_step (s : Slots) (step : Target × ReportStep) (slot : Target) :
    ((s.step step.1 step.2).1.get slot).reporter = (installs? slot step).or (s.get slot).reporter := by
  obtain ⟨target, x⟩ := step
  cases x <;> cases target <;> cases slot <;> rfl

/-- A step changes the latest installation in the same way. -/
theorem current_concat (slot : Target) (steps : List (Target × ReportStep)) (step : Target × ReportStep) :
    current slot (steps ++ [step]) = (installs? slot step).or (current slot steps) := by
  rw [current, List.filterMap_append, List.getLast?_append, current]
  cases h : installs? slot step <;> simp [h]

/-- The slots hold the current reporters behind some steps. -/
def HoldsCurrent (s : Slots) (before : List (Target × ReportStep)) : Prop :=
  ∀ slot, (s.get slot).reporter = current slot before

theorem holdsCurrent_nil : HoldsCurrent {} [] := by
  intro slot
  cases slot <;> rfl

/-- **Each step keeps the current reporters in the slots.** -/
theorem HoldsCurrent.step {s : Slots} {before : List (Target × ReportStep)} (h : s.HoldsCurrent before)
    (step : Target × ReportStep) :
    (s.step step.1 step.2).1.HoldsCurrent (before ++ [step]) := by
  intro slot
  rw [reporter_step, current_concat, h slot]

/-! ### The deliveries -/

theorem withBefore_cons (step : Target × ReportStep) (steps : List (Target × ReportStep)) :
    withBefore (step :: steps) = (step, []) :: (withBefore steps).map fun p => (p.1, step :: p.2) := by
  rw [withBefore, List.inits_cons, List.zip_cons_cons, List.zip_map_right]
  rfl

/-- What a step delivers when its slot holds a reporter. -/
def delivery (reporter : Option Reporter) : ReportStep → Option Delivery
  | .report r => some (Slot.deliver ⟨reporter⟩ r)
  | _ => none

theorem delivered_step (s : Slots) (step : Target × ReportStep) :
    (s.step step.1 step.2).2 = delivery (s.get (slotOf step)).reporter step.2 := by
  obtain ⟨target, x⟩ := step
  cases x with
  | install r => cases target <;> rfl
  | init | report r => rfl

/-- **The deliveries of a run are told from its steps alone.** -/
theorem HoldsCurrent.deliveries_eq {s : Slots} {before : List (Target × ReportStep)} (h : s.HoldsCurrent before)
    (steps : List (Target × ReportStep)) :
    s.deliveries steps =
      (withBefore steps).map fun p => delivery (current (slotOf p.1) (before ++ p.2)) p.1.2 := by
  induction steps generalizing s before with
  | nil => rfl
  | cons step steps ih =>
      have hlater : ∀ p : (Target × ReportStep) × List (Target × ReportStep),
          before ++ [step] ++ p.2 = before ++ step :: p.2 := fun p => (List.append_cons before step p.2).symm
      rw [deliveries, delivered_step, h, ih (h.step step), withBefore_cons, List.map_cons, List.append_nil,
        List.map_map]
      simp only [hlater, Function.comp_def]

theorem delivers_delivery (before : List (Target × ReportStep)) (step : Target × ReportStep) :
    Delivers before step (delivery (current (slotOf step) before) step.2) := by
  obtain ⟨slot, x⟩ := step
  cases x with
  | install r => exact .install slot r
  | init => exact .init slot
  | report r =>
      rw [slotOf_report]
      cases h : current slot before with
      | none => exact .printed r h
      | some reporter =>
          cases reporter with
          | tracing => exact .emitted r h rfl rfl rfl
          | recorder name => exact .recorded r h

/-- **A recorder received what was reported while it was the current one**, in the same order. -/
theorem received_deliveries (name : String) (steps : List (Target × ReportStep)) :
    received name (deliveries {} steps) = madeUnder (.recorder name) steps := by
  rw [received, holdsCurrent_nil.deliveries_eq, List.filterMap_map, madeUnder]
  refine List.filterMap_congr ?_
  rintro ⟨⟨slot, x⟩, before⟩ -
  cases x with
  | install | init => rfl
  | report r =>
      simp only [Function.comp_apply, slotOf_report, delivery, List.nil_append]
      cases current slot before with
      | none => rfl
      | some reporter =>
          cases reporter with
          | tracing => rfl
          | recorder recorder => simp [Slot.deliver]

/-! ### The two slots apart -/

/-- The deliveries of the steps on one slot. -/
def deliveriesOn (s : Slots) (slot : Target) (steps : List (Target × ReportStep)) : List (Option Delivery) :=
  ((steps.zip (s.deliveries steps)).filter fun p => slotOf p.1 = slot).map Prod.snd

/-- **What is delivered on one slot does not depend on the steps on the other one.** -/
theorem deliveriesOn_eq {slot : Target} {s s' : Slots} (h : (s.get slot).reporter = (s'.get slot).reporter)
    (steps : List (Target × ReportStep)) :
    s.deliveriesOn slot steps = s'.deliveries (steps.filter (slotOf · = slot)) := by
  induction steps generalizing s s' with
  | nil => rfl
  | cons step steps ih =>
      rw [deliveriesOn, deliveries, List.zip_cons_cons, List.filter_cons, List.filter_cons]
      by_cases hslot : slotOf step = slot
      · have hrest := @ih (s.step step.1 step.2).1 (s'.step step.1 step.2).1
          (by rw [reporter_step, reporter_step, h])
        simp only [hslot, decide_true, if_true, List.map_cons, deliveries, delivered_step, h]
        rw [← hrest, deliveriesOn]
      · have hrest := @ih (s.step step.1 step.2).1 s'
          (by rw [reporter_step, installs?, if_neg hslot, Option.none_or, h])
        simp only [hslot, decide_false, Bool.false_eq_true, if_false]
        rw [← hrest, deliveriesOn]

/-- **Each report reaches exactly one reporter, the current one**, over any steps on the slot of the process and
on one of one's own.  Step by step, a report is delivered once, to the reporter that the latest installation on its
slot put there, or to the console if there was none; starting the library installs the reporter of events on the
slot of the process.  So a recorder has received just the reports made while it was the current one, unchanged and
in order.  What is delivered on one slot is what the steps on that slot alone deliver.  A run on one slot is such
a run. -/
theorem deliveries_reach_current (steps : List (Target × ReportStep)) :
    List.Forall₂ (fun p d => Delivers p.2 p.1 d) (withBefore steps) (deliveries {} steps) ∧
    (∀ name, received name (deliveries {} steps) = madeUnder (.recorder name) steps) ∧
    (∀ slot, deliveriesOn {} slot steps = deliveries {} (steps.filter (slotOf · = slot))) ∧
    ∀ target xs, run {} target xs = deliveries {} (xs.map (target, ·)) := by
  refine ⟨?_, fun name => received_deliveries name steps, fun slot => deliveriesOn_eq rfl steps,
    fun target xs => run_eq_deliveries {} target xs⟩
  rw [holdsCurrent_nil.deliveries_eq, List.forall₂_map_right_iff, List.forall₂_same]
  exact fun p _ => delivers_delivery p.2 p.1

end Slots

end PrefixMatch
