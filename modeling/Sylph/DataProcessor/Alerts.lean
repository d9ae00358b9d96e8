import Sylph.DataProcessor.Metrics
import Sylph.DataProcessor.State
import Sylph.Lib.Edges

/-!
# The alerts of the monitor

`Core.DataProcessor.Monitor` as a process: its health checks, and what it tells of them.

* `performHealthCheck`: the alerts, by the statistics of the pool and of the chains: those
  that are due (`alerts_of_performHealthCheck`).
* `handleAlertChanges`: what is told of the alerts that are new, and of those that are gone.
* `handle`: the callbacks; a check ends the process if it gets no statistics.
* `metrics_of_run`: the metrics of the process, whatever else it does.
* `inTurns_of_reachable`: in every run, of each alert it is told in turns that it is
  triggered and that it is resolved, and the alerts of the state are those that have been
  triggered last.
-/

namespace Sylph.DataProcessor.Monitor

open Lib Elixir Sync

/-- `@check_interval`, in milliseconds. -/
def checkInterval : ℕ := 30 * 1000

/-- `@error_threshold` -/
def errorThreshold : ℚ := 1 / 10

/-- `@queue_size_threshold` -/
def queueSizeThreshold : ℕ := 1000

/-- An alert of a health check, by its name. -/
inductive Alert
  | atom (name : Atom)
  | string (name : String)
  deriving DecidableEq

/-- An alert in the metadata of an event. -/
def Alert.toTerm : Alert → Term
  | atom name => .atom name
  | string name => .string name

/-- The statistics of the pool. -/
structure PoolStats where
  workerCount : ℕ
  queueSize : ℕ
  processingCount : ℕ

/-- The statistics of a chain. -/
structure ProcessingStats where
  processingCount : ℕ
  failedCount : ℕ
  processingDelay : Option ℤ

/-- The reply of `Core.DataProcessor.State` has no delay. -/
def ProcessingStats.ofStats (stats : State.Stats) : ProcessingStats where
  processingCount := stats.processingCount
  failedCount := stats.failedCount
  processingDelay := none

/-- What the process finds while it handles a message. -/
structure Env where
  /-- `System.system_time()` -/
  systemTime : ℤ
  /-- `System.system_time(:second)` -/
  seconds : ℤ
  /-- `WorkerPool.get_stats`, or the reason the call exits with. -/
  poolStats : Except ExitReason PoolStats
  /-- `State.get_processing_stats` -/
  processingStats : Chain → Except ExitReason ProcessingStats
  /-- The order of the chains in the map of their statistics. -/
  order : KeyOrder Chain

/-! ## Health checks -/

/-- The alerts about the workers: none at all, or more than nine in ten of them busy. -/
def checkWorkerCount (poolStats : PoolStats) (alerts : List Alert) : List Alert :=
  if poolStats.workerCount = 0 then
    .atom "no_workers" :: alerts
  else if (poolStats.processingCount : ℚ) / poolStats.workerCount > 9 / 10 then
    .atom "high_worker_utilization" :: alerts
  else
    alerts

/-- The alert about the length of the queue. -/
def checkQueueSize (poolStats : PoolStats) (alerts : List Alert) : List Alert :=
  if poolStats.queueSize > queueSizeThreshold then .atom "queue_backlog" :: alerts else alerts

/-- An alert for each of the chains whose statistics exceed a threshold. -/
def checkChains (exceeds : ProcessingStats → Bool) (suffix : String) (order : KeyOrder Chain)
    (processingStats : Chain → ProcessingStats) (alerts : List Alert) : List Alert :=
  (order.list [.ethereum, .solana]).foldl (fun acc chain =>
    if exceeds (processingStats chain) then
      .string (chain.atom.name ++ suffix) :: acc
    else
      acc) alerts

/-- The alerts about chains with more failures than `@error_threshold` allows. -/
def checkErrorRates : KeyOrder Chain → (Chain → ProcessingStats) → List Alert → List Alert :=
  checkChains (fun stats => (stats.failedCount : ℚ) / max stats.processingCount 1 > errorThreshold)
    "_high_error_rate"

/-- The alerts about chains that are behind. Their stats have no delay, which counts as none. -/
def checkProcessingDelays :
    KeyOrder Chain → (Chain → ProcessingStats) → List Alert → List Alert :=
  checkChains (fun stats => stats.processingDelay.getD 0 > performanceThresholdMs)
    "_processing_delay"

/-- The statistics of a check. -/
structure CheckMetrics where
  poolStats : PoolStats
  processingStats : Chain → ProcessingStats

/-- A check: the statistics are asked for by calls, whose exits end the monitor. -/
def performHealthCheck (env : Env) : Except ExitReason (List Alert × CheckMetrics) := do
  let poolStats ← env.poolStats
  let ethereum ← env.processingStats .ethereum
  let solana ← env.processingStats .solana
  let processingStats : Chain → ProcessingStats
    | .ethereum => ethereum
    | .solana => solana
  let alerts := uniq <|
    checkProcessingDelays env.order processingStats <|
    checkErrorRates env.order processingStats <|
    checkQueueSize poolStats <|
    checkWorkerCount poolStats []
  return (alerts, ⟨poolStats, processingStats⟩)

section

variable {poolStats : PoolStats} {exceeds : ProcessingStats → Bool} {suffix : String}
  {order : KeyOrder Chain} {processingStats : Chain → ProcessingStats} {alerts : List Alert}
  {alert : Alert} {env : Env} {metrics : CheckMetrics}

theorem mem_checkWorkerCount : alert ∈ checkWorkerCount poolStats alerts ↔ alert ∈ alerts ∨
    (poolStats.workerCount = 0 ∧ alert = .atom "no_workers") ∨
      (poolStats.workerCount ≠ 0 ∧
        9 / 10 < (poolStats.processingCount : ℚ) / poolStats.workerCount ∧
          alert = .atom "high_worker_utilization") := by
  rw [checkWorkerCount]
  split
  next h => simp [h, or_comm]
  next h =>
    split
    next hu => simp [h, hu, or_comm]
    next hu => simp [h, hu]

theorem mem_checkQueueSize : alert ∈ checkQueueSize poolStats alerts ↔
    alert ∈ alerts ∨
      (queueSizeThreshold < poolStats.queueSize ∧ alert = .atom "queue_backlog") := by
  rw [checkQueueSize]
  split
  next h => simp [h, or_comm]
  next h => simp [h]

/-- The order of the chains does not matter. -/
theorem mem_checkChains : alert ∈ checkChains exceeds suffix order processingStats alerts ↔
    alert ∈ alerts ∨ ∃ chain, exceeds (processingStats chain) = true ∧
      alert = .string (chain.atom.name ++ suffix) := by
  have hfold : ∀ (chains : List Chain) (acc : List Alert),
      alert ∈ chains.foldl (fun acc chain =>
          if exceeds (processingStats chain) then
            .string (chain.atom.name ++ suffix) :: acc
          else
            acc) acc ↔
        alert ∈ acc ∨ ∃ chain ∈ chains, exceeds (processingStats chain) = true ∧
          alert = .string (chain.atom.name ++ suffix) := by
    intro chains
    induction chains with
    | nil => simp
    | cons chain chains ih =>
      intro acc
      rw [List.foldl_cons, ih]
      split
      next h => simp [h, or_assoc, or_comm]
      next h => simp [h]
  have hall : ∀ chain : Chain, chain ∈ order.list [.ethereum, .solana] := fun chain => by
    rw [KeyOrder.mem_list]
    cases chain <;> decide
  rw [checkChains, hfold]
  simp only [hall, true_and]

/-- An alert is due, by the statistics. -/
def Due (metrics : CheckMetrics) (alert : Alert) : Prop :=
  (metrics.poolStats.workerCount = 0 ∧ alert = .atom "no_workers") ∨
    (metrics.poolStats.workerCount ≠ 0 ∧
      9 / 10 < (metrics.poolStats.processingCount : ℚ) / metrics.poolStats.workerCount ∧
        alert = .atom "high_worker_utilization") ∨
    (queueSizeThreshold < metrics.poolStats.queueSize ∧ alert = .atom "queue_backlog") ∨
    (∃ chain, errorThreshold < ((metrics.processingStats chain).failedCount : ℚ) /
        max (metrics.processingStats chain).processingCount 1 ∧
      alert = .string (chain.atom.name ++ "_high_error_rate")) ∨
    ∃ chain, performanceThresholdMs < (metrics.processingStats chain).processingDelay.getD 0 ∧
      alert = .string (chain.atom.name ++ "_processing_delay")

/-- The alerts of a check are those that are due, each of them once. -/
theorem alerts_of_performHealthCheck (h : performHealthCheck env = .ok (alerts, metrics)) :
    alerts.Nodup ∧ ∀ alert, alert ∈ alerts ↔ Due metrics alert := by
  obtain ⟨poolStats, -, h⟩ := Except.bind_eq_ok.1 h
  obtain ⟨ethereum, -, h⟩ := Except.bind_eq_ok.1 h
  obtain ⟨solana, -, h⟩ := Except.bind_eq_ok.1 h
  cases h
  refine ⟨nodup_uniq _, fun alert => ?_⟩
  rw [mem_uniq, checkProcessingDelays, mem_checkChains, checkErrorRates, mem_checkChains,
    mem_checkQueueSize, mem_checkWorkerCount]
  simp only [List.not_mem_nil, false_or, or_assoc, gt_iff_lt, decide_eq_true_eq]
  rfl

/-- No delay is reported by the state of the data processor. -/
theorem not_due_processingDelay (stats : Chain → State.Stats) (chain : Chain) :
    ¬Due ⟨poolStats, fun c => .ofStats (stats c)⟩
      (.string (chain.atom.name ++ "_processing_delay")) := by
  rintro (⟨-, h⟩ | ⟨-, -, h⟩ | ⟨-, h⟩ | ⟨c, -, h⟩ | ⟨c, h, -⟩)
  · cases h
  · cases h
  · cases h
  · cases chain <;> cases c <;> exact absurd h (by decide)
  · exact absurd h (by norm_num [ProcessingStats.ofStats, performanceThresholdMs])

end

/-! ## Callbacks -/

/-- The state of the monitor. -/
structure State where
  pool : Atom
  interval : ℕ
  lastCheck : Option ℤ
  metrics : Metrics
  alerts : List Alert

/-- The messages; the last two are calls. -/
inductive Msg
  | checkHealth
  | telemetryEvent (event : Event)
  | getHealthStatus
  | getPerformanceMetrics

/-- The replies to the calls. -/
inductive Reply
  | healthStatus (healthy : Bool) (alerts : List Alert) (lastCheck : Option ℤ)
  | performance (metrics : PerformanceMetrics)

/-- What the process does while it handles a message: its events, and the timer. -/
inductive Effect
  | alertTriggered (timestamp : ℤ) (alert : Alert)
  | alertResolved (timestamp : ℤ) (alert : Alert)
  | healthCheck (timestamp : ℤ) (pool : Atom) (alerts : List Alert) (metrics : CheckMetrics)
  | immediateAlert (timestamp : ℤ) (alert : ImmediateAlert) (metadata : List (Atom × Term))
  /-- `Process.send_after(self(), :check_health, interval)` -/
  | scheduleHealthCheck (interval : ℕ)

/-- The stats of the pool, in the measurements of an event. -/
def PoolStats.toTerm (stats : PoolStats) : Term :=
  .map [("worker_count", .int stats.workerCount), ("queue_size", .int stats.queueSize),
    ("processing_count", .int stats.processingCount)]

/-- As far as the monitor reads them. -/
def ProcessingStats.toTerm (stats : ProcessingStats) : Term :=
  let counts : List (Atom × Term) :=
    [("processing_count", .int stats.processingCount), ("failed_count", .int stats.failedCount)]
  match stats.processingDelay with
  | some delay => .map (counts ++ [(Atom.mk "processing_delay", Term.int delay)])
  | none => .map counts

/-- What a check has measured, in the measurements of its event. -/
def CheckMetrics.toTerm (metrics : CheckMetrics) : Term :=
  .map [("pool_stats", metrics.poolStats.toTerm),
    ("processing_stats", .map [("ethereum", (metrics.processingStats .ethereum).toTerm),
      ("solana", (metrics.processingStats .solana).toTerm)])]

/-- The event of an effect. -/
def Effect.report : Effect → Option Report
  | alertTriggered timestamp alert => some
    { kind := .alertTriggered
      measurements := [("timestamp", .int timestamp)]
      metadata := [("alert", alert.toTerm)] }
  | alertResolved timestamp alert => some
    { kind := .alertResolved
      measurements := [("timestamp", .int timestamp)]
      metadata := [("alert", alert.toTerm)] }
  | healthCheck timestamp pool alerts metrics => some
    { kind := .healthCheck
      measurements := [("timestamp", .int timestamp)]
      metadata := [("pool", .atom pool), ("alerts", .list (alerts.map Alert.toTerm)),
        ("metrics", metrics.toTerm)] }
  | immediateAlert timestamp alert metadata => some
    { kind := .immediateAlert
      measurements := [("timestamp", .int timestamp)]
      metadata := [("alert", .atom alert.atom), ("metadata", .map metadata)] }
  | scheduleHealthCheck _ => none

/-- The monitor before its first check. -/
def init (pool : Atom) (interval : ℕ) : State where
  pool := pool
  interval := interval
  lastCheck := none
  metrics := initializeMetrics
  alerts := []

/-- The events for alerts that are new, and for those that are over. -/
def handleAlertChanges (env : Env) (oldAlerts newAlerts : List Alert) : List Effect :=
  (newAlerts.diff oldAlerts).map (.alertTriggered env.systemTime) ++
    (oldAlerts.diff newAlerts).map (.alertResolved env.systemTime)

/-- The events for alerts that are raised at once. -/
def handleImmediateAlerts (env : Env) (alerts : List ImmediateAlert)
    (metadata : List (Atom × Term)) : List Effect :=
  alerts.map fun alert => .immediateAlert env.systemTime alert metadata

/-- The messages of the monitor, dispatched to their callbacks. -/
def handle (env : Env) (msg : Msg) (state : State) : Outcome State Reply Effect :=
  match msg with
  | .checkHealth =>
    match performHealthCheck env with
    | .error reason => .stop reason state []
    | .ok (alerts, metrics) =>
      .noreply { state with lastCheck := some env.systemTime, alerts := alerts }
        (handleAlertChanges env state.alerts alerts ++
          [.healthCheck env.systemTime state.pool alerts metrics,
            .scheduleHealthCheck state.interval])
  | .telemetryEvent event =>
    match updateMetrics env.seconds state.metrics event with
    | .error e => .raise e []
    | .ok metrics =>
      .noreply { state with metrics := metrics }
        (handleImmediateAlerts env (checkImmediateAlerts metrics) event.metadata)
  | .getHealthStatus =>
    .reply (.healthStatus state.alerts.isEmpty state.alerts state.lastCheck) state []
  | .getPerformanceMetrics =>
    .reply (.performance (calculatePerformanceMetrics state.metrics)) state []

/-- The process, with all it has done so far. -/
structure Session where
  state : State
  done : List Effect

/-- The process of a pool: a label is a message and what is found while it is handled. -/
def machine (pool : Atom) (interval : ℕ) : Machine Session (Env × Msg) where
  init := ⟨init pool interval, [.scheduleHealthCheck interval]⟩
  step s l := (handle l.1 l.2 s.state).next.map fun state =>
    ⟨state, s.done ++ (handle l.1 l.2 s.state).out⟩

section

variable {pool : Atom} {interval : ℕ} {env : Env} {msg : Msg} {state state' : State} {s : Session}

/-- The telemetry events among some messages, with the time of each. -/
def deliveries (ls : List (Env × Msg)) : List Delivery :=
  ls.filterMap fun l =>
    match l.2 with
    | .telemetryEvent event => some (l.1.seconds, event)
    | _ => none

/-- What is told of the alerts. -/
def notification : Effect → Option (Bool × Alert)
  | .alertTriggered _ alert => some (true, alert)
  | .alertResolved _ alert => some (false, alert)
  | _ => none

/-- The alerts triggered (`true`) and resolved, in the order of the events. -/
def notifications (done : List Effect) : List (Bool × Alert) := done.filterMap notification

theorem notifications_append (done done' : List Effect) :
    notifications (done ++ done') = notifications done ++ notifications done' :=
  List.filterMap_append

/-- The changes of the alerts are told. -/
theorem notifications_handleAlertChanges (env : Env) (oldAlerts newAlerts : List Alert) :
    notifications (handleAlertChanges env oldAlerts newAlerts) = edges oldAlerts newAlerts := by
  have hmap : ∀ (f : Alert → Effect) (b : Bool) (l : List Alert),
      (∀ a, notification (f a) = some (b, a)) → notifications (l.map f) = l.map (Prod.mk b) := by
    intro f b l hf
    rw [notifications, List.filterMap_map, ← List.filterMap_eq_map]
    exact List.filterMap_congr fun a _ => hf a
  rw [handleAlertChanges, notifications_append, hmap _ true _ fun _ => rfl,
    hmap _ false _ fun _ => rfl, edges]

/-- What a message does after which the process goes on. -/
inductive Handled (env : Env) (state : State) : Msg → State → List Effect → Prop
  | check {alerts : List Alert} {metrics : CheckMetrics}
      (h : performHealthCheck env = .ok (alerts, metrics)) :
      Handled env state .checkHealth
        { state with lastCheck := some env.systemTime, alerts := alerts }
        (handleAlertChanges env state.alerts alerts ++
          [.healthCheck env.systemTime state.pool alerts metrics,
            .scheduleHealthCheck state.interval])
  | event {event : Event} {metrics : Metrics}
      (h : updateMetrics env.seconds state.metrics event = .ok metrics) :
      Handled env state (.telemetryEvent event) { state with metrics := metrics }
        (handleImmediateAlerts env (checkImmediateAlerts metrics) event.metadata)
  | getHealthStatus : Handled env state .getHealthStatus state []
  | getPerformanceMetrics : Handled env state .getPerformanceMetrics state []

/-- A message ends the process, at once, or it is handled. -/
theorem handle_cases (env : Env) (msg : Msg) (state : State) :
    ((handle env msg state).next = none ∧ (handle env msg state).out = []) ∨
      ∃ state', (handle env msg state).next = some state' ∧
        Handled env state msg state' (handle env msg state).out := by
  cases msg with
  | checkHealth =>
    rcases h : performHealthCheck env with reason | ⟨alerts, metrics⟩
    · refine .inl ?_
      simp only [handle, h]
      exact ⟨rfl, rfl⟩
    · refine .inr ?_
      simp only [handle, h]
      exact ⟨_, rfl, .check h⟩
  | telemetryEvent event =>
    rcases h : updateMetrics env.seconds state.metrics event with e | metrics
    · refine .inl ?_
      simp only [handle, h]
      exact ⟨rfl, rfl⟩
    · refine .inr ?_
      simp only [handle, h]
      exact ⟨_, rfl, .event h⟩
  | getHealthStatus => exact .inr ⟨_, rfl, .getHealthStatus⟩
  | getPerformanceMetrics => exact .inr ⟨_, rfl, .getPerformanceMetrics⟩

theorem handled_of_step {l : Env × Msg} {s' : Session}
    (h : (machine pool interval).step s l = some s') :
    ∃ out, Handled l.1 s.state l.2 s'.state out ∧ s'.done = s.done ++ out := by
  obtain ⟨state, hn, rfl⟩ := Option.map_eq_some_iff.1 h
  rcases handle_cases l.1 l.2 s.state with ⟨hnone, -⟩ | ⟨state', hsome, hh⟩
  · exact absurd (hn.symm.trans hnone) (Option.some_ne_none _)
  · obtain rfl := Option.some_inj.1 (hn.symm.trans hsome)
    exact ⟨_, hh, rfl⟩

/-- A check puts its alerts in the place of the old ones, and tells of the changes. No other
    message has to do with them. -/
theorem Handled.alerts {out : List Effect} (h : Handled env state msg state' out) :
    (state'.alerts = state.alerts ∧ notifications out = []) ∨
      state'.alerts.Nodup ∧ notifications out = edges state.alerts state'.alerts := by
  cases h with
  | check h =>
    refine .inr ⟨(alerts_of_performHealthCheck h).1, ?_⟩
    rw [notifications_append, notifications_handleAlertChanges]
    exact List.append_nil _
  | event =>
    refine .inl ⟨rfl, List.filterMap_eq_nil_iff.2 fun e he => ?_⟩
    obtain ⟨alert, -, rfl⟩ := List.mem_map.1 he
    rfl
  | getHealthStatus | getPerformanceMetrics => exact .inl ⟨rfl, rfl⟩

theorem Handled.check_alerts {out : List Effect} (h : Handled env state .checkHealth state' out) :
    ∃ metrics, performHealthCheck env = .ok (state'.alerts, metrics) := by
  cases h with
  | check h => exact ⟨_, h⟩

/-- An event enters the metrics. -/
theorem Handled.metrics {out : List Effect} (h : Handled env state msg state' out)
    {history : List Delivery} (hm : metricsAfter history = .ok state.metrics) :
    metricsAfter (history ++ deliveries [(env, msg)]) = .ok state'.metrics := by
  cases h with
  | event h =>
    rw [metricsAfter, List.foldlM_append]
    exact Except.bind_eq_ok.2 ⟨_, hm, Except.bind_eq_ok.2 ⟨_, h, rfl⟩⟩
  | check | getHealthStatus | getPerformanceMetrics =>
    exact (congrArg metricsAfter (List.append_nil _)).trans hm

/-- The metrics of the process are those of the events delivered to it. -/
theorem metrics_of_run {ls : List (Env × Msg)} (h : (machine pool interval).Run ls s) :
    metricsAfter (deliveries ls) = .ok s.state.metrics := by
  induction h with
  | nil => rfl
  | snoc _ hs ih =>
    obtain ⟨out, hh, -⟩ := handled_of_step hs
    rw [deliveries, List.filterMap_append]
    exact hh.metrics ih

/-- The alerts have no repetitions, and each is told of in turns. -/
structure Told (s : Session) : Prop where
  nodup : s.state.alerts.Nodup
  inTurns : ∀ alert, InTurns (edgesOf alert (notifications s.done)) (alert ∈ s.state.alerts)

theorem told_init : Told (machine pool interval).init :=
  ⟨List.nodup_nil, fun _ => inTurns_nil List.not_mem_nil⟩

theorem Told.step {l : Env × Msg} {s' : Session} (h : Told s)
    (hs : (machine pool interval).step s l = some s') : Told s' := by
  obtain ⟨out, hh, hdone⟩ := handled_of_step hs
  rcases hh.alerts with ⟨halerts, hnone⟩ | ⟨hnodup, hedges⟩
  · refine ⟨halerts ▸ h.nodup, fun alert => ?_⟩
    rw [hdone, notifications_append, hnone, List.append_nil, halerts]
    exact h.inTurns alert
  · refine ⟨hnodup, fun alert => ?_⟩
    rw [hdone, notifications_append, hedges]
    exact inTurns_edges (h.inTurns alert) h.nodup hnodup

/-- In every run, it is told in turns that an alert is triggered and that it is resolved, and
    the alerts of the state are those that have been triggered last. -/
theorem inTurns_of_reachable (h : (machine pool interval).Reachable s) (alert : Alert) :
    InTurns (edgesOf alert (notifications s.done)) (alert ∈ s.state.alerts) :=
  (h.invariant told_init fun _ _ _ h hs => h.step hs).inTurns alert

/-- After a check, the alerts told of last as triggered are those that are due. -/
theorem last_iff_due (h : (machine pool interval).Reachable s) {s' : Session}
    (hs : (machine pool interval).step s (env, .checkHealth) = some s') :
    ∃ metrics, performHealthCheck env = .ok (s'.state.alerts, metrics) ∧
      ∀ alert, (edgesOf alert (notifications s'.done)).getLast? = some true ↔
        Due metrics alert := by
  obtain ⟨out, hh, -⟩ := handled_of_step hs
  obtain ⟨metrics, hc⟩ := hh.check_alerts
  refine ⟨metrics, hc, fun alert => ?_⟩
  rw [← (inTurns_of_reachable (h.step hs) alert).last, (alerts_of_performHealthCheck hc).2]

/-- A check that finds the pool with the given number of workers, all idle. -/
def idleCheck (workers : ℕ) : Env × Msg :=
  ({ systemTime := 0
     seconds := 0
     poolStats := .ok ⟨workers, 0, 0⟩
     processingStats := fun _ => .ok ⟨0, 0, none⟩
     order := .stored }, .checkHealth)

/-- There are no workers, then there are, and then there are none again. -/
theorem inTurns_idleCheck : ∃ s,
    (machine "pool" checkInterval).exec [idleCheck 0, idleCheck 2, idleCheck 0] = some s ∧
      edgesOf (.atom "no_workers") (notifications s.done) = [true, false, true] ∧
        InTurns (edgesOf (.atom "no_workers") (notifications s.done))
          (.atom "no_workers" ∈ s.state.alerts) :=
  have h : (machine "pool" checkInterval).exec [idleCheck 0, idleCheck 2, idleCheck 0] = some _ :=
    rfl
  ⟨_, h, by decide +kernel, inTurns_of_reachable (Machine.reachable_of_exec h) _⟩

end

end Sylph.DataProcessor.Monitor
