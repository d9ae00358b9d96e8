import Sylph.DataProcessor.Basic

/-!
# The monitor and telemetry

`Core.DataProcessor.Monitor` attaches one handler to five telemetry events when it
starts (`subscribeToEvents`). `:telemetry` keeps the handlers in a table shared by
all processes (`attachMany`), and `:telemetry.execute` calls those attached to an
event, one after the other, *in the process that executes the event*: what
`handleTelemetryEvent` calls `self()` is that process (`execute`).

Of the health checks of the monitor, only the events they execute are needed here
(`Report`).
-/

namespace Sylph.DataProcessor.Monitor

open Lib Elixir

variable {γ : Type}

/-! ## Telemetry -/

/-- The table of `:telemetry`: under its identifier, the events the handler of the
    monitor is attached to. -/
abbrev Handlers := List (String × List (List Atom))

/-- `:telemetry.attach_many`, which refuses an identifier already in use. -/
def attachMany (id : String) (events : List (List Atom)) (handlers : Handlers) : Handlers :=
  if id ∈ handlers.map Prod.fst then handlers else handlers ++ [(id, events)]

/-- The events the monitor subscribes to. -/
def subscribed : List (List Atom) := [
  Event.named "worker_pool" "task_submitted",
  Event.named "worker_pool" "task_complete",
  Event.named "worker_pool" "task_failed",
  Event.named "worker" "task_error",
  Event.named "worker" "task_complete"]

/-- One handler is attached to all of them. -/
def subscribeToEvents (handlers : Handlers) : Handlers :=
  attachMany "data-processor-monitor" subscribed handlers

/-- The messages sent by the handler, called in the process `self`, which is alive. -/
def handleTelemetryEvent (self : Proc) (event : Event) : List (Proc × Msg γ) :=
  [(self, .telemetryEvent event)]

/-- `:telemetry.execute` in the process `self`: the messages its handlers send. -/
def execute (handlers : Handlers) (self : Proc) (event : Event) : List (Proc × Msg γ) :=
  handlers.flatMap fun handler =>
    if event.name ∈ handler.2 then handleTelemetryEvent self event else []

/-- Whatever is attached, an event executed by a process is sent to that process only. -/
theorem eq_self_of_mem_execute {handlers : Handlers} {self : Proc} {event : Event}
    {d : Proc × Msg γ} (h : d ∈ execute handlers self event) :
    d = (self, .telemetryEvent event) := by
  obtain ⟨handler, -, h⟩ := List.mem_flatMap.1 h
  split at h
  · exact List.mem_singleton.1 h
  · exact absurd h List.not_mem_nil

/-! ## Reports -/

/-- The kinds of events of the monitor itself. -/
inductive ReportKind
  | healthCheck
  | alertTriggered
  | alertResolved
  | immediateAlert

/-- The name of the event of a report. -/
def ReportKind.name : ReportKind → List Atom
  | healthCheck => Event.named "data_processor" "health_check"
  | alertTriggered => Event.named "data_processor" "alert_triggered"
  | alertResolved => Event.named "data_processor" "alert_resolved"
  | immediateAlert => Event.named "data_processor" "immediate_alert"

/-- The monitor is not subscribed to its own events. -/
theorem ReportKind.not_subscribed (k : ReportKind) : k.name ∉ subscribed := by
  rcases k with _ | _ | _ | _ <;> decide

/-- An event of the monitor itself. -/
structure Report where
  kind : ReportKind
  measurements : List (Atom × Term)
  metadata : List (Atom × Term)

/-- The event of a report. -/
def Report.event (r : Report) : Event := ⟨r.kind.name, r.measurements, r.metadata⟩

end Sylph.DataProcessor.Monitor
