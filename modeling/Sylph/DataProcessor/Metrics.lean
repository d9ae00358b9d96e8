import Mathlib.Algebra.Order.Field.Rat
import Mathlib.Data.Rat.Cast.Order
import Mathlib.Tactic.FieldSimp
import Mathlib.Tactic.Linarith
import Sylph.DataProcessor.Monitor
import Sylph.DataProcessor.Worker
import Sylph.Lib.Except
import Sylph.Lib.Tally

/-!
# The metrics of the monitor

What `Core.DataProcessor.Monitor` keeps of the telemetry events that are delivered to it,
and computes from it.

* `updateMetrics`: the times of the last hundred tasks and when they have been completed,
  and a tally of the errors by their type.
* `checkImmediateAlerts`: the alerts that are raised at once, by the mean time of the last
  ten tasks and by the size of the tally.
* `calculatePerformanceMetrics`: the reply to a question about the performance.
* `records_of_metricsAfter`: what is kept, in terms of the events delivered so far.
* `detectsErrorVolume_iff`: a high number of errors is detected if it is also a high number
  of types of errors.
* `usesUnits_iff`: the unit of the times is not the one of the thresholds and of the
  throughput.

Divisions are exact here.
-/

namespace Sylph.DataProcessor.Monitor

open Lib Elixir

/-- `@performance_threshold_ms` -/
def performanceThresholdMs : ℚ := 5000

/-- What the monitor keeps of the events. -/
structure Metrics where
  /-- The times of the last tasks, the last one first. -/
  taskTimes : List ℤ
  errorCounts : Dict Term ℕ
  /-- When the last tasks have been completed, in seconds, the last one first. -/
  throughput : List ℤ

/-- The metrics before any event. -/
def initializeMetrics : Metrics := ⟨[], ∅, []⟩

/-- The name of the struct of an exception. -/
def classifyError (error : Term) : Term :=
  match error.get? "__struct__" with
  | some (.atom name) =>
    if error.hasAtom "__exception__" "true" then .atom name else .atom "unknown"
  | _ => .atom "unknown"

/-- The type of an error: the one it is given, or else the struct of its exception. -/
def getErrorType (metadata : List (Atom × Term)) : Term :=
  match (Term.map metadata).get? "error_type", (Term.map metadata).get? "error" with
  | some errorType, _ => errorType
  | none, some error => classifyError error
  | none, none => .atom "unknown"

/-- The name of the event of a task that is completed. -/
def taskComplete : List Atom := Event.named "worker" "task_complete"

/-- The name of the event of a task that has failed. -/
def taskError : List Atom := Event.named "worker" "task_error"

/-- `measurements.duration`. What is no integer does not get through the sum of the times,
    in the same callback. -/
def fetchDuration (measurements : List (Atom × Term)) : Except Exn ℤ :=
  match (Term.map measurements).fetch "duration" with
  | .ok (.int duration) => .ok duration
  | .ok _ => .error (.exception "Elixir.ArithmeticError")
  | .error e => .error e

/-- The metrics after an event, at the time `now` in seconds. -/
def updateMetrics (now : ℤ) (metrics : Metrics) (event : Event) : Except Exn Metrics :=
  if event.name = taskComplete then
    match fetchDuration event.measurements with
    | .ok duration => .ok { metrics with
        taskTimes := duration :: metrics.taskTimes.take 99
        throughput := now :: metrics.throughput.take 99 }
    | .error e => .error e
  else if event.name = taskError then
    let errorType := getErrorType event.metadata
    let currentCount := (metrics.errorCounts.lookup errorType).getD 0
    .ok { metrics with errorCounts := metrics.errorCounts.insert errorType (currentCount + 1) }
  else
    .ok metrics

/-- The alerts raised at once. -/
inductive ImmediateAlert
  | criticalPerformanceDegradation
  | highErrorVolume
  deriving DecidableEq

/-- The name of an alert. -/
def ImmediateAlert.atom : ImmediateAlert → Atom
  | criticalPerformanceDegradation => "critical_performance_degradation"
  | highErrorVolume => "high_error_volume"

/-- The mean, 0 for no values. -/
def calculateAverage : List ℤ → ℚ
  | [] => 0
  | values => values.sum / values.length

/-- The mean time of the last ten tasks. -/
def averageTime (metrics : Metrics) : ℚ := calculateAverage (metrics.taskTimes.take 10)

/-- The alerts that an event may raise: one at most. -/
def checkImmediateAlerts (metrics : Metrics) : List ImmediateAlert :=
  if averageTime metrics > performanceThresholdMs * 2 then
    [.criticalPerformanceDegradation]
  else if Dict.size metrics.errorCounts > 100 then
    [.highErrorVolume]
  else
    []

/-- `List.first(timestamps) - List.last(timestamps)` -/
def timeSpan (timestamps : List ℤ) : ℤ := timestamps.headD 0 - timestamps.getLastD 0

/-- Tasks per time; the timestamps are in seconds, and are divided by 1000 again. -/
def calculateThroughput (timestamps : List ℤ) : ℚ :=
  match timestamps with
  | [] => 0
  | timestamps =>
    if timeSpan timestamps > 0 then
      timestamps.length / (timeSpan timestamps / 1000)
    else
      0

/-- The share of errors among the tasks that are kept. -/
def calculateErrorRate (metrics : Metrics) : ℚ :=
  let totalErrors := (Dict.values metrics.errorCounts).sum
  let totalTasks := metrics.taskTimes.length + totalErrors
  if totalTasks > 0 then totalErrors / totalTasks else 0

/-- The reply to `:get_performance_metrics`. -/
structure PerformanceMetrics where
  averageProcessingTime : ℚ
  errorDistribution : Dict Term ℕ
  throughput : ℚ
  recentErrorRate : ℚ

/-- The metrics that a caller is told. -/
def calculatePerformanceMetrics (metrics : Metrics) : PerformanceMetrics where
  averageProcessingTime := calculateAverage metrics.taskTimes
  errorDistribution := metrics.errorCounts
  throughput := calculateThroughput metrics.throughput
  recentErrorRate := calculateErrorRate metrics

/-! ## Histories -/

/-- An event that is delivered, and the time when it is handled, in seconds. -/
abbrev Delivery := ℤ × Event

/-- The metrics after some events. -/
def metricsAfter (history : List Delivery) : Except Exn Metrics :=
  history.foldlM (fun metrics d => updateMetrics d.1 metrics d.2) initializeMetrics

/-- When the tasks of a history have been completed, and their times. -/
def completions (history : List Delivery) : List (ℤ × ℤ) :=
  history.filterMap fun d =>
    if d.2.name = taskComplete then
      (fetchDuration d.2.measurements).toOption.map fun duration => (d.1, duration)
    else
      none

/-- The errors of a history. -/
def taskErrors (history : List Delivery) : List Delivery :=
  history.filter fun d => d.2.name = taskError

/-- Their types. -/
def errorTypes (history : List Delivery) : List Term :=
  (taskErrors history).map fun d => getErrorType d.2.metadata

/-- The times of the last tasks, the last one first. -/
def lastTimes (n : ℕ) (history : List Delivery) : List ℤ :=
  ((completions history).map Prod.snd).reverse.take n

/-- When the last tasks have been completed, the last one first. -/
def lastCompleted (n : ℕ) (history : List Delivery) : List ℤ :=
  ((completions history).map Prod.fst).reverse.take n

/-- What the metrics keep of a history. -/
structure Records (history : List Delivery) (metrics : Metrics) : Prop where
  taskTimes : metrics.taskTimes = lastTimes 100 history
  errorCounts : metrics.errorCounts = Dict.tally (errorTypes history)
  throughput : metrics.throughput = lastCompleted 100 history

section

variable {history : List Delivery} {metrics metrics' : Metrics} {d : Delivery}

theorem completions_append (history history' : List Delivery) :
    completions (history ++ history') = completions history ++ completions history' :=
  List.filterMap_append

theorem errorTypes_append (history history' : List Delivery) :
    errorTypes (history ++ history') = errorTypes history ++ errorTypes history' := by
  rw [errorTypes, taskErrors, List.filter_append, List.map_append]
  rfl

theorem completions_of_eq {duration : ℤ} (h : d.2.name = taskComplete)
    (hf : fetchDuration d.2.measurements = .ok duration) : completions [d] = [(d.1, duration)] := by
  rw [completions, List.filterMap_cons, if_pos h, hf]
  rfl

theorem completions_of_ne (h : d.2.name ≠ taskComplete) : completions [d] = [] := by
  rw [completions, List.filterMap_cons, if_neg h]
  rfl

theorem errorTypes_of_eq (h : d.2.name = taskError) :
    errorTypes [d] = [getErrorType d.2.metadata] := by
  rw [errorTypes, taskErrors, List.filter_cons, if_pos (decide_eq_true h)]
  rfl

theorem errorTypes_of_ne (h : d.2.name ≠ taskError) : errorTypes [d] = [] := by
  rw [errorTypes, taskErrors, List.filter_cons, if_neg (by simpa using h)]
  rfl

theorem taskError_ne_taskComplete : taskError ≠ taskComplete := by decide

/-- What an event does: its completion enters the windows, its error the tally. -/
theorem updateMetrics_eq_ok (h : updateMetrics d.1 metrics d.2 = .ok metrics') :
    metrics' = {
      taskTimes := ((completions [d]).map Prod.snd).foldl (push 99) metrics.taskTimes
      errorCounts := (errorTypes [d]).foldl Dict.count metrics.errorCounts
      throughput := ((completions [d]).map Prod.fst).foldl (push 99) metrics.throughput } := by
  rw [updateMetrics] at h
  split at h
  next hc =>
    rcases hf : fetchDuration d.2.measurements with e | duration
    · rw [hf] at h
      cases h
    · rw [hf] at h
      cases h
      rw [completions_of_eq hc hf,
        errorTypes_of_ne fun he => taskError_ne_taskComplete (he.symm.trans hc)]
      rfl
  next hc =>
    rw [completions_of_ne hc]
    split at h
    next he =>
      cases h
      rw [errorTypes_of_eq he]
      rfl
    next he =>
      cases h
      rw [errorTypes_of_ne he]
      rfl

/-- An event is recorded. -/
theorem Records.step (h : Records history metrics)
    (hd : updateMetrics d.1 metrics d.2 = .ok metrics') : Records (history ++ [d]) metrics' := by
  rw [updateMetrics_eq_ok hd]
  refine ⟨?_, ?_, ?_⟩
  · rw [h.taskTimes, lastTimes, lastTimes, ← foldl_push, ← foldl_push, completions_append,
      List.map_append, List.foldl_append]
  · rw [h.errorCounts, Dict.tally, Dict.tally, errorTypes_append, List.foldl_append]
  · rw [h.throughput, lastCompleted, lastCompleted, ← foldl_push, ← foldl_push,
      completions_append, List.map_append, List.foldl_append]

/-- What the metrics are after some events. -/
theorem records_of_metricsAfter (h : metricsAfter history = .ok metrics) :
    Records history metrics :=
  Except.foldlM_invariant (P := Records) h ⟨rfl, rfl, rfl⟩ fun _ _ _ _ h hd => h.step hd

/-- The metrics go on as long as the tasks completed come with their time. -/
theorem exists_metricsAfter (h : ∀ d ∈ history, d.2.name = taskComplete →
    ∃ duration, fetchDuration d.2.measurements = .ok duration) :
    ∃ metrics, metricsAfter history = .ok metrics := by
  refine Except.exists_foldlM (fun d hd metrics => ?_) _
  rw [updateMetrics]
  split
  next hc =>
    obtain ⟨duration, hf⟩ := h d hd hc
    rw [hf]
    exact ⟨_, rfl⟩
  next => split <;> exact ⟨_, rfl⟩

/-- The mean time of the last ten tasks of a history. -/
def recentAverage (history : List Delivery) : ℚ := calculateAverage (lastTimes 10 history)

theorem Records.averageTime_eq (h : Records history metrics) :
    averageTime metrics = recentAverage history := by
  rw [averageTime, h.taskTimes, recentAverage, lastTimes, lastTimes, List.take_take]
  rfl

theorem critical_mem_checkImmediateAlerts :
    .criticalPerformanceDegradation ∈ checkImmediateAlerts metrics ↔
      performanceThresholdMs * 2 < averageTime metrics := by
  rw [checkImmediateAlerts]
  split
  next h => exact iff_of_true List.mem_cons_self h
  next h => refine iff_of_false ?_ h; split <;> decide

/-- The volume of errors is found high by the number of their types. -/
theorem highErrorVolume_mem_checkImmediateAlerts :
    .highErrorVolume ∈ checkImmediateAlerts metrics ↔
      averageTime metrics ≤ performanceThresholdMs * 2 ∧ 100 < Dict.size metrics.errorCounts := by
  rw [checkImmediateAlerts]
  split
  next h => exact iff_of_false (by decide) fun h' => absurd h (not_lt.2 h'.1)
  next h =>
    rw [and_iff_right (not_lt.1 h)]
    split
    next he => exact iff_of_true List.mem_cons_self he
    next he => exact iff_of_false List.not_mem_nil he

/-- It is the only alert then. -/
theorem checkImmediateAlerts_of_mem (h : .highErrorVolume ∈ checkImmediateAlerts metrics) :
    checkImmediateAlerts metrics = [.highErrorVolume] := by
  obtain ⟨ha, he⟩ := highErrorVolume_mem_checkImmediateAlerts.1 h
  rw [checkImmediateAlerts, if_neg (not_lt.2 ha), if_pos he]

/-! ## Many errors -/

/-- A high number of errors is detected, and no other: it raises an alert, if the tasks are
    not critically slow. -/
structure DetectsErrorVolume (errors : ℕ) (metrics : Metrics) : Prop where
  raised : 100 < errors → averageTime metrics ≤ performanceThresholdMs * 2 →
    checkImmediateAlerts metrics = [.highErrorVolume]
  silent : errors ≤ 100 → .highErrorVolume ∉ checkImmediateAlerts metrics

theorem length_errorTypes (history : List Delivery) :
    (errorTypes history).length = (taskErrors history).length := List.length_map _

/-- There are at most as many types of errors as errors. -/
theorem length_dedup_errorTypes_le (history : List Delivery) :
    (errorTypes history).dedup.length ≤ (taskErrors history).length :=
  (List.dedup_sublist _).length_le.trans_eq (length_errorTypes history)

/-- The error rate is that of all errors, among them and the last hundred tasks. -/
theorem Records.calculateErrorRate_eq (h : Records history metrics) :
    calculateErrorRate metrics = (taskErrors history).length /
      ((lastTimes 100 history).length + (taskErrors history).length) := by
  have hsum : (Dict.values metrics.errorCounts).sum = (taskErrors history).length := by
    rw [h.errorCounts, Dict.sum_values_tally, length_errorTypes]
  simp only [calculateErrorRate, hsum, h.taskTimes]
  split
  next => rw [Nat.cast_add]
  next hz =>
    have hlen : (taskErrors history).length = 0 := by omega
    rw [hlen, Nat.cast_zero, zero_div]

/-- After any events, a high number of errors is detected, and no other, if and only if
    there is none, or the tasks are critically slow, or the number of types of errors is
    high, too. -/
theorem detectsErrorVolume_iff (h : metricsAfter history = .ok metrics) :
    DetectsErrorVolume (taskErrors history).length metrics ↔
      (taskErrors history).length ≤ 100 ∨ performanceThresholdMs * 2 < recentAverage history ∨
        100 < (errorTypes history).dedup.length := by
  have hr := records_of_metricsAfter h
  have hsize : Dict.size metrics.errorCounts = (errorTypes history).dedup.length := by
    rw [hr.errorCounts, Dict.size_tally]
  rw [← hr.averageTime_eq, ← hsize]
  constructor
  · intro hd
    by_contra hn
    obtain ⟨hlen, hslow, hfew⟩ := not_or.1 hn |>.imp_right not_or.1
    have hmem : .highErrorVolume ∈ checkImmediateAlerts metrics := by
      rw [hd.raised (not_le.1 hlen) (not_lt.1 hslow)]
      exact List.mem_cons_self
    exact hfew (highErrorVolume_mem_checkImmediateAlerts.1 hmem).2
  · intro hc
    refine ⟨fun hlen hfast => ?_, fun hlen hmem => ?_⟩
    · rcases hc with hc | hc | hc
      · exact absurd hlen (not_lt.2 hc)
      · exact absurd hfast (not_le.2 hc)
      · exact checkImmediateAlerts_of_mem (highErrorVolume_mem_checkImmediateAlerts.2 ⟨hfast, hc⟩)
    · -- There are no more types than errors.
      have hmany := (highErrorVolume_mem_checkImmediateAlerts.1 hmem).2
      rw [hsize] at hmany
      exact absurd (hmany.trans_le (length_dedup_errorTypes_le history)) (not_lt.2 hlen)

/-- The errors of workers are all of one type: they come with a text. -/
theorem getErrorType_of_worker {γ : Type} {env : Worker.Env} {self : Pid} {state : Worker γ}
    {task : Task γ} {event : Event}
    (h : .execute event ∈ (Worker.processTask env self state task).2.2)
    (he : event.name = taskError) : getErrorType event.metadata = .atom "unknown" := by
  rw [Worker.processTask] at h
  split at h
  · cases List.mem_singleton.1 h
    exact absurd he.symm taskError_ne_taskComplete
  · cases List.mem_singleton.1 h
    rfl

/-- However many errors of one type there are, no alert is raised. -/
theorem not_highErrorVolume_of_forall_eq (h : metricsAfter history = .ok metrics) {errorType : Term}
    (ht : ∀ d ∈ taskErrors history, getErrorType d.2.metadata = errorType) :
    .highErrorVolume ∉ checkImmediateAlerts metrics := by
  intro hmem
  have hmany := (highErrorVolume_mem_checkImmediateAlerts.1 hmem).2
  rw [(records_of_metricsAfter h).errorCounts, Dict.size_tally] at hmany
  have hsub : (errorTypes history).dedup ⊆ [errorType] := by
    intro t hm
    obtain ⟨d, hd, rfl⟩ := List.mem_map.1 (List.mem_dedup.1 hm)
    exact List.mem_singleton.2 (ht d hd)
  have hle : (errorTypes history).dedup.length ≤ 1 :=
    (List.nodup_dedup _).length_le_of_subset hsub
  omega

/-- An error of a worker, with its text. -/
def textError : Event := ⟨taskError, [("duration", .int 0)], [("error", .string "boom")]⟩

/-- An error with its type. -/
def typedError : Event := ⟨taskError, [], [("error_type", .atom "timeout")]⟩

/-- The completion of a task, which has taken the given time in native units. -/
def completion (duration : ℤ) : Event := ⟨taskComplete, [("duration", .int duration)], []⟩

/-- Errors of two types, among completed tasks. -/
def mixedEvents : List Delivery :=
  [(0, completion 5000), (1, textError), (1, typedError), (2, completion 7000), (3, textError)]

/-- Three errors are not many. -/
theorem detectsErrorVolume_mixedEvents : ∃ metrics, metricsAfter mixedEvents = .ok metrics ∧
    (taskErrors mixedEvents).length = 3 ∧ DetectsErrorVolume 3 metrics := by
  obtain ⟨metrics, hm⟩ : ∃ metrics, metricsAfter mixedEvents = .ok metrics := ⟨_, rfl⟩
  have hlen : (taskErrors mixedEvents).length = 3 := by decide
  exact ⟨metrics, hm, hlen, hlen ▸ (detectsErrorVolume_iff hm).2 (.inl (by rw [hlen]; decide))⟩

/-- A hundred and one errors of a worker are not detected. -/
theorem not_forall_detectsErrorVolume : ¬∀ history metrics,
    metricsAfter history = .ok metrics →
      DetectsErrorVolume (taskErrors history).length metrics := by
  intro h
  have hname : ∀ d ∈ List.replicate 101 ((0 : ℤ), textError), d.2.name = taskError := by
    intro d hd
    rw [List.eq_of_mem_replicate hd]
    rfl
  obtain ⟨metrics, hm⟩ :
      ∃ metrics, metricsAfter (List.replicate 101 (0, textError)) = .ok metrics :=
    exists_metricsAfter fun d hd hc =>
      absurd ((hname d hd).symm.trans hc) taskError_ne_taskComplete
  have hlen : (taskErrors (List.replicate 101 ((0 : ℤ), textError))).length = 101 := by
    rw [taskErrors, List.filter_eq_self.2 fun d hd => decide_eq_true (hname d hd),
      List.length_replicate]
  -- No task has been completed: they are not slow.
  have hfast : averageTime metrics ≤ performanceThresholdMs * 2 := by
    have hnone : completions (List.replicate 101 ((0 : ℤ), textError)) = [] :=
      List.filterMap_eq_nil_iff.2 fun d hd =>
        if_neg ((hname d hd).trans_ne taskError_ne_taskComplete)
    rw [(records_of_metricsAfter hm).averageTime_eq, recentAverage, lastTimes, hnone]
    exact mul_nonneg (Nat.cast_nonneg _) zero_le_two
  have htype : ∀ d ∈ taskErrors (List.replicate 101 (0, textError)),
      getErrorType d.2.metadata = .atom "unknown" := by
    intro d hd
    rw [List.eq_of_mem_replicate (List.mem_filter.1 hd).1]
    rfl
  have hnot := not_highErrorVolume_of_forall_eq hm htype
  rw [(h _ metrics hm).raised (by rw [hlen]; decide) hfast] at hnot
  exact hnot List.mem_cons_self

/-! ## Units -/

/-- Native units in a millisecond: the native unit is the nanosecond. -/
def nativePerMs : ℚ := 10 ^ 6

/-- Times are computed with in their units: the throughput is that of the last tasks, by the
    second, and the mean time of the last ten tasks is critical if it is in milliseconds. -/
structure UsesUnits (history : List Delivery) (metrics : Metrics) : Prop where
  throughput : 0 < timeSpan (lastCompleted 100 history) →
    calculateThroughput metrics.throughput =
      (lastCompleted 100 history).length / timeSpan (lastCompleted 100 history)
  critical : .criticalPerformanceDegradation ∈ checkImmediateAlerts metrics ↔
    10000 < recentAverage history / nativePerMs

/-- The throughput by the second, a thousand times. -/
theorem calculateThroughput_eq {timestamps : List ℤ} (h : 0 < timeSpan timestamps) :
    calculateThroughput timestamps = 1000 * (timestamps.length / timeSpan timestamps) := by
  rcases timestamps with _ | ⟨t, timestamps⟩
  · exact absurd h (lt_irrefl _)
  · rw [calculateThroughput, if_pos h]
    · field_simp
    · exact fun h => by cases h

/-- It is never the throughput by the second, if any time has passed. -/
theorem calculateThroughput_ne {timestamps : List ℤ} (h : 0 < timeSpan timestamps) :
    calculateThroughput timestamps ≠ timestamps.length / timeSpan timestamps := by
  rcases timestamps with _ | ⟨t, timestamps⟩
  · exact absurd h (lt_irrefl _)
  · have hspan : (0 : ℚ) < timeSpan (t :: timestamps) := Int.cast_pos.2 h
    have hlen : (0 : ℚ) < (t :: timestamps).length := Nat.cast_pos.2 (Nat.succ_pos _)
    have hpos := div_pos hlen hspan
    rw [calculateThroughput_eq h]
    linarith

/-- The mean time is critical if it is over ten thousand native units. -/
theorem Records.critical_iff (h : Records history metrics) :
    .criticalPerformanceDegradation ∈ checkImmediateAlerts metrics ↔
      10000 < recentAverage history := by
  rw [critical_mem_checkImmediateAlerts, h.averageTime_eq, performanceThresholdMs]
  norm_num

/-- In milliseconds, it is if it is over ten seconds. -/
theorem lt_div_nativePerMs_iff {mean : ℚ} : 10000 < mean / nativePerMs ↔ 10 ^ 10 < mean := by
  rw [nativePerMs, lt_div_iff₀ (by norm_num)]
  norm_num

/-- After any events, times are computed with in their units if and only if no time has
    passed between the last completions, and the mean time of the last ten tasks is at most
    ten thousand nanoseconds or more than ten seconds. -/
theorem usesUnits_iff (h : metricsAfter history = .ok metrics) :
    UsesUnits history metrics ↔
      timeSpan (lastCompleted 100 history) ≤ 0 ∧
        (recentAverage history ≤ 10000 ∨ 10 ^ 10 < recentAverage history) := by
  have hr := records_of_metricsAfter h
  constructor
  · intro hu
    refine ⟨not_lt.1 fun hspan => ?_, ?_⟩
    · have ht := hu.throughput hspan
      rw [hr.throughput] at ht
      exact calculateThroughput_ne hspan ht
    · have hc := hu.critical
      rw [hr.critical_iff, lt_div_nativePerMs_iff] at hc
      exact (le_or_gt _ _).imp_right hc.1
  · rintro ⟨hspan, hmean⟩
    refine ⟨fun hpos => absurd hpos (not_lt.2 hspan), ?_⟩
    rw [hr.critical_iff, lt_div_nativePerMs_iff]
    rcases hmean with hle | hlt
    · exact iff_of_false (not_lt.2 hle) fun hlt => absurd hle (not_le.2 (by linarith))
    · exact iff_of_true (by linarith) hlt

/-- Two tasks of five microseconds each, in the same second. -/
theorem usesUnits_sameSecond : ∃ metrics,
    metricsAfter [(7, completion 5000), (7, completion 5000)] = .ok metrics ∧
      (UsesUnits [(7, completion 5000), (7, completion 5000)] metrics ↔
        timeSpan (lastCompleted 100 [(7, completion 5000), (7, completion 5000)]) ≤ 0 ∧
          (recentAverage [(7, completion 5000), (7, completion 5000)] ≤ 10000 ∨
            10 ^ 10 < recentAverage [(7, completion 5000), (7, completion 5000)])) :=
  ⟨_, rfl, usesUnits_iff rfl⟩

/-- Two tasks in two seconds: the throughput is not one task by the second. -/
theorem not_forall_usesUnits : ¬∀ history metrics,
    metricsAfter history = .ok metrics → UsesUnits history metrics := by
  intro h
  have hu := h [(7, completion 5000), (9, completion 5000)] _ rfl
  exact calculateThroughput_ne (by decide) (hu.throughput (by decide))

end

end Sylph.DataProcessor.Monitor
