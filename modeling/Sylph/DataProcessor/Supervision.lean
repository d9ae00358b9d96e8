import Sylph.DataProcessor.Alerts
import Sylph.DataProcessor.BlockHistory
import Sylph.Lib.Supervisor

/-!
# The supervision of the data processor

What becomes of the state of the data processor and of its monitor. They are children of
`Core.DataProcessor.Supervisor`, along with the pool: each is started again when it has exited.

* `next`: what the children do with a message or a timer. In a check the monitor calls the pool,
  and then the state, for one chain after the other; what else the state handles comes in between,
  and the monitor exits with a call that is not answered.
* `step`: the supervisor starts the child that has exited again, until it gives up.
* `moves_of_next`: the state exits when it is asked about Solana, so that no check is completed.
* `healthy_of_reachable`: the monitor always answers that it is healthy, and tells of no alert.
* `count_checking`: it exits in each check, and is started again.
* `children_of_quiet`: the supervisor endures this.
-/

namespace Sylph.DataProcessor.Supervision

open Lib Elixir Sync Supervisor

/-- The options the monitor is started with. -/
structure Opts where
  pool : Atom
  /-- In milliseconds. -/
  interval : ℕ

/-- Those of the supervisor, and of the configuration. -/
def Opts.configured : Opts := ⟨"Elixir.Core.DataProcessor.WorkerPool", 30 * 1000⟩

/-- How far the monitor is with a check, with the statistics it has got. -/
inductive Check
  | idle
  | pool
  | ethereum (poolStats : Monitor.PoolStats)
  | solana (poolStats : Monitor.PoolStats) (ethereum : Monitor.ProcessingStats)
  /-- The process it has called has exited. -/
  | lost

/-- Why a child exits. -/
inductive Exit
  /-- The state, asked by the monitor. -/
  | asked
  /-- The state, with its metrics. -/
  | reported
  /-- The state, with another message. -/
  | told
  /-- The monitor, in a check. -/
  | checking
  /-- The monitor, with another message. -/
  | notified
  | pool
  deriving DecidableEq

/-- The children, and when their timers go off; times are in seconds. -/
structure Children where
  state : State
  reportDue : ℕ
  monitor : Monitor.State
  checkDue : ℕ
  check : Check

/-- What the children do: they go on, or one of them exits. The children are those after it has
    been started again. -/
inductive Next
  | go (c : Children) (out : List Monitor.Effect)
  | exit (why : Exit) (c : Children) (out : List Monitor.Effect)

/-- What happens next. -/
inductive Label
  /-- The state handles a message, not a request of the monitor. -/
  | state (now : ℕ) (env : State.Env) (msg : State.Msg)
  | report (now : ℕ) (env : State.Env)
  | check (now : ℕ)
  | poolAnswers (now : ℕ) (stats : Monitor.PoolStats)
  /-- The state handles the request of the monitor. -/
  | stateAnswers (now : ℕ) (env : State.Env) (monitorEnv : Monitor.Env)
  /-- The call of the monitor exits. -/
  | callFails (now : ℕ)
  /-- The monitor handles a message, while there is no check. -/
  | monitor (now : ℕ) (env : Monitor.Env) (msg : Monitor.Msg)
  | poolExit (now : ℕ)

/-- When a step is taken. -/
def Label.now : Label → ℕ
  | state now .. | report now .. | check now | poolAnswers now .. | stateAnswers now ..
  | callFails now | monitor now .. | poolExit now => now

namespace Children

/-! ## The children -/

/-- The state is started. A call to the old one gets no answer. -/
def startState (c : Children) (now : ℕ) (env : State.Env) : Children :=
  { c with
    state := .init env
    reportDue := now + 60
    check :=
      match c.check with
      | .ethereum _ | .solana .. => .lost
      | check => check }

/-- The monitor is started. -/
def startMonitor (c : Children) (opts : Opts) (now : ℕ) : Children :=
  { c with
    monitor := Monitor.init opts.pool opts.interval
    checkDue := now + opts.interval / 1000
    check := .idle }

/-- A message to the state, which exits if its callback raises. -/
def stateHandles (c : Children) (why : Exit) (now : ℕ) (env : State.Env) (msg : State.Msg) :
    Next :=
  match (State.handle env msg c.state).next with
  | some state => .go { c with state := state } []
  | none => .exit why (c.startState now env) []

/-- A message to the monitor, which exits if its callback raises. -/
def monitorHandles (c : Children) (opts : Opts) (why : Exit) (now : ℕ) (env : Monitor.Env)
    (msg : Monitor.Msg) : Next :=
  let o := Monitor.handle env msg c.monitor
  match o.next with
  | some monitor => .go { c with monitor := monitor } o.out
  | none => .exit why (c.startMonitor opts now) o.out

/-- The answers of the pool and of the state, once the monitor has got them all. -/
def answers (env : Monitor.Env) (poolStats : Monitor.PoolStats)
    (ethereum solana : Monitor.ProcessingStats) : Monitor.Env :=
  { env with
    poolStats := .ok poolStats
    processingStats
      | .ethereum => .ok ethereum
      | .solana => .ok solana }

/-- The state handles the request of the monitor for a chain. -/
def stateAnswers (c : Children) (now : ℕ) (env : State.Env) (chain : Chain)
    (k : State.Stats → Next) : Next :=
  match (State.handle env (.getStats chain) c.state).answer with
  | some stats => k stats
  | none => .exit .asked (c.startState now env) []

/-- What a step does to the children. -/
def next (c : Children) (opts : Opts) : Label → Option Next
  | .state now env msg =>
    match msg with
    | .reportMetrics => none
    | msg => some (c.stateHandles .told now env msg)
  | .report now env =>
    if now < c.reportDue then none
    else some ({ c with reportDue := now + 60 }.stateHandles .reported now env .reportMetrics)
  | .check now =>
    match c.check with
    | .idle => if now < c.checkDue then none else some (.go { c with check := .pool } [])
    | _ => none
  | .poolAnswers _ stats =>
    match c.check with
    | .pool => some (.go { c with check := .ethereum stats } [])
    | _ => none
  | .stateAnswers now env monitorEnv =>
    match c.check with
    | .ethereum poolStats =>
      some (c.stateAnswers now env .ethereum fun stats =>
        .go { c with check := .solana poolStats (.ofStats stats) } [])
    | .solana poolStats ethereum =>
      some (c.stateAnswers now env .solana fun stats =>
        { c with
          checkDue := now + c.monitor.interval / 1000
          check := .idle }.monitorHandles opts .checking now
            (answers monitorEnv poolStats ethereum (.ofStats stats)) .checkHealth)
    | _ => none
  | .callFails now =>
    match c.check with
    | .idle => none
    | _ => some (.exit .checking (c.startMonitor opts now) [])
  | .monitor now env msg =>
    match msg with
    | .checkHealth => none
    | msg =>
      match c.check with
      | .idle => some (c.monitorHandles opts .notified now env msg)
      | _ => none
  | .poolExit _ =>
    some (.exit .pool
      { c with
        check :=
          match c.check with
          | .pool => .lost
          | check => check } [])

end Children

/-! ## The supervisor -/

/-- The data processor as its supervisor has it, with a record of the exits of the children, and of
    what the monitors have done so far. -/
structure Processor where
  /-- The children, unless the supervisor has given up. -/
  children : Option Children
  restarts : List ℕ
  clock : ℕ
  exits : List (Exit × ℕ)
  done : List Monitor.Effect

/-- What the children do is done, and the one that exits is started again, unless there have been
    too many restarts. -/
def Processor.follow (s : Processor) (now : ℕ) : Next → Processor
  | .go c out => { s with children := some c, clock := now, done := s.done ++ out }
  | .exit why c out =>
    let s := { s with
      clock := now
      exits := s.exits ++ [(why, now)]
      done := s.done ++ out }
    match addRestart .default now s.restarts with
    | some restarts => { s with children := some c, restarts := restarts }
    | none => { s with children := none }

/-- A step at a time that has not passed, as long as the supervisor runs. -/
def step (opts : Opts) (s : Processor) (l : Label) : Option Processor :=
  match s.children with
  | none => none
  | some c => if l.now < s.clock then none else (c.next opts l).map (s.follow l.now)

/-- The children as they are started first. -/
def start (opts : Opts) (env : State.Env) : Children where
  state := .init env
  reportDue := 60
  monitor := Monitor.init opts.pool opts.interval
  checkDue := opts.interval / 1000
  check := .idle

/-- The runs of the supervisor and its children. -/
def machine (opts : Opts) (env : State.Env) : Machine Processor Label where
  init := ⟨some (start opts env), [], 0, [], []⟩
  step := step opts

variable {opts : Opts} {env₀ : State.Env} {c : Children} {l : Label} {n : Next}
  {s s' : Processor} {ls : List Label}

/-! ## The moves of the children -/

/-- What the children do, while the state has nothing to say of Solana. -/
inductive Moves (opts : Opts) (c : Children) : Label → Next → Prop
  | mark {now : ℕ} {env : State.Env} {k : State.Mark} {state : State} {b : State.Blocks}
    (h : State.Sound state b) :
    Moves opts c (.state now env (k.msg .ethereum)) (.go { c with state := state } [])
  | stats {now : ℕ} {env : State.Env} :
    Moves opts c (.state now env (.getStats .ethereum)) (.go c [])
  | told {now : ℕ} {env : State.Env} {msg : State.Msg} (h : ¬msg.OnEthereum) :
    Moves opts c (.state now env msg) (.exit .told (c.startState now env) [])
  | reported {now : ℕ} {env : State.Env} (h : c.reportDue ≤ now) :
    Moves opts c (.report now env) (.exit .reported (c.startState now env) [])
  | check {now : ℕ} (hc : c.check = .idle) (h : c.checkDue ≤ now) :
    Moves opts c (.check now) (.go { c with check := .pool } [])
  | poolAnswers {now : ℕ} {stats : Monitor.PoolStats} (hc : c.check = .pool) :
    Moves opts c (.poolAnswers now stats) (.go { c with check := .ethereum stats } [])
  | ethereum {now : ℕ} {env : State.Env} {monitorEnv : Monitor.Env}
    {poolStats : Monitor.PoolStats} {stats : State.Stats} (hc : c.check = .ethereum poolStats) :
    Moves opts c (.stateAnswers now env monitorEnv)
      (.go { c with check := .solana poolStats (.ofStats stats) } [])
  | asked {now : ℕ} {env : State.Env} {monitorEnv : Monitor.Env} {poolStats : Monitor.PoolStats}
    {stats : Monitor.ProcessingStats} (hc : c.check = .solana poolStats stats) :
    Moves opts c (.stateAnswers now env monitorEnv) (.exit .asked (c.startState now env) [])
  | checking {now : ℕ} (hc : c.check ≠ .idle) :
    Moves opts c (.callFails now) (.exit .checking (c.startMonitor opts now) [])
  | monitor {now : ℕ} {env : Monitor.Env} {msg : Monitor.Msg} {monitor : Monitor.State}
    {out : List Monitor.Effect} (hc : c.check = .idle) (hmsg : msg ≠ .checkHealth)
    (h : Monitor.Handled env c.monitor msg monitor out) :
    Moves opts c (.monitor now env msg) (.go { c with monitor := monitor } out)
  | notified {now : ℕ} {env : Monitor.Env} {msg : Monitor.Msg} (hc : c.check = .idle)
    (h : (Monitor.handle env msg c.monitor).next = none) :
    Moves opts c (.monitor now env msg) (.exit .notified (c.startMonitor opts now) [])
  | pool {now : ℕ} :
    Moves opts c (.poolExit now)
      (.exit .pool
        { c with
          check :=
            match c.check with
            | .pool => .lost
            | check => check } [])

theorem moves_of_next {b : State.Blocks} (hb : State.Sound c.state b)
    (h : c.next opts l = some n) : Moves opts c l n := by
  have hstate : ∀ (now : ℕ) (env : State.Env) (msg : State.Msg),
      some (c.stateHandles .told now env msg) = some n → Moves opts c (.state now env msg) n := by
    intro now env msg h
    obtain rfl := Option.some_inj.1 h
    rw [Children.stateHandles]
    rcases hb.handle_cases env msg with ⟨k, state, rfl, hn, hs⟩ | ⟨rfl, hn⟩ | ⟨hmsg, hn⟩
    · rw [hn]
      exact .mark hs
    · rw [hn]
      exact .stats
    · rw [hn]
      exact .told hmsg
  have hmonitor : ∀ (now : ℕ) (env : Monitor.Env) (msg : Monitor.Msg), msg ≠ .checkHealth →
      (match c.check with
        | .idle => some (c.monitorHandles opts .notified now env msg)
        | _ => none) = some n → Moves opts c (.monitor now env msg) n := by
    intro now env msg hmsg h
    rcases hc : c.check with _ | _ | _ | _ | _ <;> rw [hc] at h
    · obtain rfl := Option.some_inj.1 h
      rw [Children.monitorHandles]
      rcases Monitor.handle_cases env msg c.monitor with ⟨hn, hout⟩ | ⟨monitor, hn, hh⟩
      · simp only [hn, hout]
        exact .notified hc hn
      · simp only [hn]
        exact .monitor hc hmsg hh
    all_goals cases h
  cases l with
  | state now env msg =>
    cases msg with
    | reportMetrics => cases h
    | markProcessing chain number => exact hstate _ _ _ h
    | markComplete chain number => exact hstate _ _ _ h
    | markFailed chain number => exact hstate _ _ _ h
    | getStats chain => exact hstate _ _ _ h
  | report now env =>
    obtain ⟨hdue, h⟩ := Option.ite_none_left_eq_some.1 h
    obtain rfl := Option.some_inj.1 h
    rw [Children.stateHandles, hb.handle_reportMetrics]
    exact .reported (Nat.not_lt.1 hdue)
  | check now =>
    rcases hc : c.check with _ | _ | _ | _ | _ <;> rw [Children.next, hc] at h
    · obtain ⟨hdue, h⟩ := Option.ite_none_left_eq_some.1 h
      exact Option.some_inj.1 h ▸ .check hc (Nat.not_lt.1 hdue)
    all_goals cases h
  | poolAnswers now stats =>
    rcases hc : c.check with _ | _ | _ | _ | _ <;> rw [Children.next, hc] at h
    case pool => exact Option.some_inj.1 h ▸ .poolAnswers hc
    all_goals cases h
  | stateAnswers now env monitorEnv =>
    rcases hc : c.check with _ | _ | poolStats | ⟨poolStats, stats⟩ | _ <;>
      rw [Children.next, hc] at h
    case ethereum =>
      obtain rfl := Option.some_inj.1 h
      rw [Children.stateAnswers, hb.handle_getStats]
      exact .ethereum hc
    case solana =>
      obtain rfl := Option.some_inj.1 h
      rw [Children.stateAnswers, hb.handle_getStats_solana]
      exact .asked hc
    all_goals cases h
  | callFails now =>
    rcases hc : c.check with _ | _ | _ | _ | _ <;> rw [Children.next, hc] at h
    case idle => cases h
    all_goals exact Option.some_inj.1 h ▸ .checking fun hi => Check.noConfusion (hc.symm.trans hi)
  | monitor now env msg =>
    cases msg with
    | checkHealth => cases h
    | telemetryEvent event => exact hmonitor _ _ _ (fun hc => Monitor.Msg.noConfusion hc) h
    | getHealthStatus => exact hmonitor _ _ _ (fun hc => Monitor.Msg.noConfusion hc) h
    | getPerformanceMetrics => exact hmonitor _ _ _ (fun hc => Monitor.Msg.noConfusion hc) h
  | poolExit now => exact Option.some_inj.1 h ▸ .pool

namespace Next

/-- The children after what a step has done. -/
def children : Next → Children
  | go c _ | exit _ c _ => c

/-- The events that the monitor has executed. -/
def out : Next → List Monitor.Effect
  | go _ out | exit _ _ out => out

/-- The exit, if there is one. -/
def exits (now : ℕ) : Next → List (Exit × ℕ)
  | go .. => []
  | exit why .. => [(why, now)]

end Next

@[simp] theorem Processor.follow_exits (s : Processor) (now : ℕ) (n : Next) :
    (s.follow now n).exits = s.exits ++ n.exits now := by
  cases n with
  | go => exact (List.append_nil _).symm
  | exit =>
    rw [follow]
    split <;> rfl

@[simp] theorem Processor.follow_done (s : Processor) (now : ℕ) (n : Next) :
    (s.follow now n).done = s.done ++ n.out := by
  cases n with
  | go => rfl
  | exit =>
    rw [follow]
    split <;> rfl

theorem Processor.mem_children_follow {now : ℕ} (h : c ∈ (s.follow now n).children) :
    c = n.children := by
  cases n with
  | go => exact (Option.some_inj.1 h).symm
  | exit =>
    rw [follow] at h
    split at h
    · exact (Option.some_inj.1 h).symm
    · cases h

theorem step_cases (h : step opts s l = some s') : ∃ c n, s.children = some c ∧ s.clock ≤ l.now ∧
    c.next opts l = some n ∧ s' = s.follow l.now n := by
  rcases hc : s.children with _ | c
  · rw [step, hc] at h
    cases h
  · rw [step, hc] at h
    obtain ⟨hnow, h⟩ := Option.ite_none_left_eq_some.1 h
    obtain ⟨n, hn, rfl⟩ := Option.map_eq_some_iff.1 h
    exact ⟨c, n, rfl, Nat.not_lt.1 hnow, hn, rfl⟩

/-! ## What the monitor tells -/

/-- The state has nothing to say of Solana, and the monitor has not completed a check. -/
structure Calm (c : Children) : Prop where
  sound : ∃ b, State.Sound c.state b
  alerts : c.monitor.alerts = []
  lastCheck : c.monitor.lastCheck = none

theorem calm_start (opts : Opts) (env : State.Env) : Calm (start opts env) :=
  ⟨⟨_, State.sound_init env⟩, rfl, rfl⟩

theorem Calm.startState (h : Calm c) (now : ℕ) (env : State.Env) : Calm (c.startState now env) :=
  ⟨⟨_, State.sound_init env⟩, h.alerts, h.lastCheck⟩

theorem Calm.startMonitor (h : Calm c) (opts : Opts) (now : ℕ) : Calm (c.startMonitor opts now) :=
  ⟨h.sound, rfl, rfl⟩

/-- The effects of a message that is not a check. -/
def IsImmediateAlert (e : Monitor.Effect) : Prop :=
  ∃ timestamp alert metadata, e = .immediateAlert timestamp alert metadata

/-- Only a check changes the alerts, or tells of them. -/
theorem handled_of_ne {env : Monitor.Env} {msg : Monitor.Msg} {monitor monitor' : Monitor.State}
    {out : List Monitor.Effect} (h : Monitor.Handled env monitor msg monitor' out)
    (hmsg : msg ≠ .checkHealth) : monitor'.alerts = monitor.alerts ∧
      monitor'.lastCheck = monitor.lastCheck ∧ ∀ e ∈ out, IsImmediateAlert e := by
  cases h with
  | check => exact absurd rfl hmsg
  | event =>
    refine ⟨rfl, rfl, fun e he => ?_⟩
    obtain ⟨alert, -, rfl⟩ := List.mem_map.1 he
    exact ⟨_, _, _, rfl⟩
  | getHealthStatus | getPerformanceMetrics => exact ⟨rfl, rfl, List.forall_mem_nil _⟩

theorem Calm.moves (h : Calm c) (hm : Moves opts c l n) :
    Calm n.children ∧ ∀ e ∈ n.out, IsImmediateAlert e := by
  cases hm with
  | mark hs => exact ⟨⟨⟨_, hs⟩, h.alerts, h.lastCheck⟩, List.forall_mem_nil _⟩
  | stats => exact ⟨h, List.forall_mem_nil _⟩
  | told | reported | asked => exact ⟨h.startState _ _, List.forall_mem_nil _⟩
  | check | poolAnswers | ethereum | pool =>
    exact ⟨⟨h.sound, h.alerts, h.lastCheck⟩, List.forall_mem_nil _⟩
  | checking | notified => exact ⟨h.startMonitor _ _, List.forall_mem_nil _⟩
  | monitor _ hmsg hh =>
    obtain ⟨halerts, hlast, hout⟩ := handled_of_ne hh hmsg
    exact ⟨⟨h.sound, halerts.trans h.alerts, hlast.trans h.lastCheck⟩, hout⟩

/-- The children are calm, and no check has been completed. -/
structure Silent (s : Processor) : Prop where
  calm : ∀ c ∈ s.children, Calm c
  done : ∀ e ∈ s.done, IsImmediateAlert e

theorem Silent.step (h : Silent s) (hst : step opts s l = some s') : Silent s' := by
  obtain ⟨c, n, hc, -, hn, rfl⟩ := step_cases hst
  obtain ⟨b, hb⟩ := (h.calm c hc).sound
  obtain ⟨hcalm, hout⟩ := (h.calm c hc).moves (moves_of_next hb hn)
  refine ⟨fun c' hc' => Processor.mem_children_follow hc' ▸ hcalm, ?_⟩
  rw [Processor.follow_done]
  exact List.forall_mem_append.2 ⟨h.done, hout⟩

theorem silent_of_reachable (h : (machine opts env₀).Reachable s) : Silent s := by
  refine h.invariant (P := Silent) ?_ fun _ _ _ h hst => h.step hst
  exact ⟨fun c hc => Option.some_inj.1 hc ▸ calm_start opts env₀, List.forall_mem_nil _⟩

/-- What a step does, in a run. -/
theorem moves_of_step (h : (machine opts env₀).Reachable s) (hst : step opts s l = some s') :
    ∃ c n, s.children = some c ∧ s.clock ≤ l.now ∧ Moves opts c l n ∧ s' = s.follow l.now n := by
  obtain ⟨c, n, hc, hnow, hn, rfl⟩ := step_cases hst
  obtain ⟨b, hb⟩ := ((silent_of_reachable h).calm c hc).sound
  exact ⟨c, n, hc, hnow, moves_of_next hb hn, rfl⟩

/-- Whatever happens, the monitor never completes a check: it is healthy, and nothing has been told
    of an alert. -/
theorem healthy_of_reachable (opts : Opts) (env₀ : State.Env) (s : Processor)
    (h : (machine opts env₀).Reachable s) :
    (∀ e ∈ s.done, IsImmediateAlert e) ∧ ∀ c ∈ s.children, ∀ env,
      Monitor.handle env .getHealthStatus c.monitor =
        .reply (.healthStatus true [] none) c.monitor [] := by
  refine ⟨(silent_of_reachable h).done, fun c hc env => ?_⟩
  have hcalm := (silent_of_reachable h).calm c hc
  rw [Monitor.handle, hcalm.alerts, hcalm.lastCheck]
  rfl

/-- A check when there are no workers. -/
def checked : List Label :=
  let env : State.Env := ⟨30, 30⟩
  let monitorEnv : Monitor.Env := (Monitor.idleCheck 0).1
  [.check 30, .poolAnswers 30 ⟨0, 0, 0⟩, .stateAnswers 30 env monitorEnv,
    .stateAnswers 30 env monitorEnv, .callFails 30]

theorem healthy_of_reachable_checked : ∃ s, (machine .configured ⟨0, 0⟩).exec checked = some s ∧
    s.exits = [(.asked, 30), (.checking, 30)] ∧
      ((∀ e ∈ s.done, IsImmediateAlert e) ∧ ∀ c ∈ s.children, ∀ env,
        Monitor.handle env .getHealthStatus c.monitor =
          .reply (.healthStatus true [] none) c.monitor []) := by
  obtain ⟨s, he, hexits⟩ : ∃ s, (machine .configured ⟨0, 0⟩).exec checked = some s ∧
      s.exits = [(.asked, 30), (.checking, 30)] := ⟨_, rfl, rfl⟩
  exact ⟨s, he, hexits, healthy_of_reachable _ _ s (Machine.reachable_of_exec he)⟩

/-! ## What a check costs -/

/-- A check begins. -/
def Label.isCheck : Label → Bool
  | check _ => true
  | _ => false

/-- How many checks are in progress. -/
def Check.inProgress : Check → ℕ
  | idle => 0
  | _ => 1

theorem inProgress_of_ne {check : Check} (h : check ≠ .idle) : check.inProgress = 1 := by
  cases check with
  | idle => exact absurd rfl h
  | _ => rfl

theorem inProgress_startState (c : Children) (now : ℕ) (env : State.Env) :
    (c.startState now env).check.inProgress = c.check.inProgress := by
  rw [Children.startState]
  cases c.check <;> rfl

/-- A check begins, and is in progress until the monitor exits. -/
theorem Moves.count (h : Moves opts c l n) (now : ℕ) :
    [l].countP Label.isCheck + c.check.inProgress =
      (n.exits now).countP (fun e => e.1 = .checking) + n.children.check.inProgress := by
  cases h with
  | mark | stats => rfl
  | told | reported | asked => exact congrArg _ (inProgress_startState _ _ _).symm
  | check hc => rw [hc]; rfl
  | poolAnswers hc | ethereum hc => rw [hc]; rfl
  | checking hc => rw [inProgress_of_ne hc]; rfl
  | monitor => rfl
  | notified hc => rw [hc]; rfl
  | pool =>
    rw [Next.children]
    cases c.check <;> rfl

/-- The monitor exits in each check that it begins, so that there is one for each time it is
    started. -/
theorem count_checking (opts : Opts) (env₀ : State.Env) (ls : List Label) (s : Processor)
    (c : Children) (h : (machine opts env₀).Run ls s) (hc : s.children = some c) :
    ls.countP Label.isCheck = s.exits.countP (fun e => e.1 = .checking) + c.check.inProgress := by
  induction h generalizing c with
  | nil =>
    obtain rfl := Option.some_inj.1 hc
    rfl
  | @snoc ls s s' l hr hst ih =>
    obtain ⟨c₀, n, hc₀, -, hm, rfl⟩ := moves_of_step hr.reachable hst
    obtain rfl := Processor.mem_children_follow hc
    have hcount := hm.count l.now
    rw [List.countP_append, ih c₀ hc₀, Processor.follow_exits, List.countP_append]
    omega

theorem count_checking_checked : ∃ s c, (machine .configured ⟨0, 0⟩).exec checked = some s ∧
    s.children = some c ∧ checked.countP Label.isCheck =
      s.exits.countP (fun e => e.1 = .checking) + c.check.inProgress := by
  obtain ⟨s, c, he, hc⟩ : ∃ s c, (machine .configured ⟨0, 0⟩).exec checked = some s ∧
      s.children = some c := ⟨_, _, rfl, rfl⟩
  exact ⟨s, c, he, hc, count_checking _ _ checked s c (Machine.run_of_exec he) hc⟩

/-! ## What the supervisor endures -/

/-- Nothing goes wrong but the checks and the metrics: other messages to the state are about
    Ethereum, those to the monitor are handled, and the pool goes on. -/
def Quiet (s : Processor) : Label → Prop
  | .state _ _ msg => msg.OnEthereum
  | .monitor _ env msg => ∀ c ∈ s.children, (Monitor.handle env msg c.monitor).next.isSome
  | .poolExit _ => False
  | .report .. | .check _ | .poolAnswers .. | .stateAnswers .. | .callFails _ => True

/-- The time `t` is that long before the check in progress, or before the next one. -/
def Children.Before (c : Children) (opts : Opts) (clock t : ℕ) : Prop :=
  match c.check with
  | .idle => t + opts.interval / 1000 ≤ c.checkDue
  | _ => t + opts.interval / 1000 ≤ clock

theorem before_of_ne {clock t : ℕ} (h : c.check ≠ .idle) :
    c.Before opts clock t ↔ t + opts.interval / 1000 ≤ clock := by
  rw [Children.Before]
  split
  next hc => exact absurd hc h
  next => rfl

theorem before_of_eq {clock t : ℕ} (h : c.check = .idle) :
    c.Before opts clock t ↔ t + opts.interval / 1000 ≤ c.checkDue := by
  rw [Children.Before, h]

/-- It stays so as long as there is or there is not a check. -/
theorem Children.Before.mono {c' : Children} {clock now t : ℕ} (h : c.Before opts clock t)
    (hnow : clock ≤ now) (hc : c.check = .idle ↔ c'.check = .idle)
    (hdue : c'.checkDue = c.checkDue) : c'.Before opts now t := by
  by_cases hi : c.check = .idle
  · rw [before_of_eq (hc.1 hi), hdue]
    exact (before_of_eq hi).1 h
  · exact (before_of_ne fun h' => hi (hc.2 h')).2 (((before_of_ne hi).1 h).trans hnow)

theorem startState_check_eq_idle (c : Children) (now : ℕ) (env : State.Env) :
    c.check = .idle ↔ (c.startState now env).check = .idle := by
  rw [Children.startState]
  cases c.check <;> simp

/-- Exits in their order, of three kinds, those of a kind more than five seconds apart. -/
structure Spaced (clock : ℕ) (exits : List (Exit × ℕ)) : Prop where
  kinds : ∀ e ∈ exits, e.1 ∈ [Exit.asked, .reported, .checking]
  le : ∀ e ∈ exits, e.2 ≤ clock
  sorted : exits.Pairwise fun a b => a.2 ≤ b.2
  spaced : exits.Pairwise fun a b => a.1 = b.1 → a.2 + 5 < b.2

/-- How long after the exits of each kind there can be another one. -/
structure Timely (opts : Opts) (c : Children) (clock : ℕ) (exits : List (Exit × ℕ)) : Prop
    extends Spaced clock exits where
  asked : ∀ e ∈ exits, e.1 = .asked → c.check = .lost ∨ c.Before opts clock e.2
  reported : ∀ e ∈ exits, e.1 = .reported → e.2 + 60 ≤ c.reportDue
  checking : ∀ e ∈ exits, e.1 = .checking → c.Before opts clock e.2

section

variable {clock now : ℕ} {exits : List (Exit × ℕ)}

theorem Spaced.concat (h : Spaced clock exits) (hnow : clock ≤ now) {why : Exit}
    (hk : why ∈ [Exit.asked, .reported, .checking])
    (hs : ∀ e ∈ exits, e.1 = why → e.2 + 5 < now) : Spaced now (exits ++ [(why, now)]) where
  kinds := List.forall_mem_append.2 ⟨h.kinds, List.forall_mem_singleton.2 hk⟩
  le := List.forall_mem_append.2
    ⟨fun e he => (h.le e he).trans hnow, List.forall_mem_singleton.2 (Nat.le_refl now)⟩
  sorted := List.pairwise_append.2 ⟨h.sorted, List.pairwise_singleton _ _,
    fun a ha _ hb => List.mem_singleton.1 hb ▸ (h.le a ha).trans hnow⟩
  spaced := List.pairwise_append.2 ⟨h.spaced, List.pairwise_singleton _ _,
    fun a ha _ hb => List.mem_singleton.1 hb ▸ hs a ha⟩

theorem Timely.go (h : Timely opts c clock exits) (hnow : clock ≤ now) {c' : Children}
    (hr : c'.reportDue = c.reportDue) (hl : c.check = .lost → c'.check = .lost)
    (hb : ∀ t, c.Before opts clock t → c'.Before opts now t) : Timely opts c' now exits where
  kinds := h.kinds
  le e he := (h.le e he).trans hnow
  sorted := h.sorted
  spaced := h.spaced
  asked e he hk := (h.asked e he hk).imp hl (hb e.2)
  reported e he hk := hr ▸ h.reported e he hk
  checking e he hk := hb e.2 (h.checking e he hk)

theorem Timely.startState (h : Timely opts c clock exits) (hnow : clock ≤ now) (env : State.Env)
    {why : Exit} (hk : why ∈ [Exit.asked, .reported])
    (hs : ∀ e ∈ exits, e.1 = why → e.2 + 5 < now)
    (hl : why = .asked → (c.startState now env).check = .lost) :
    Timely opts (c.startState now env) now (exits ++ [(why, now)]) := by
  have hb : ∀ t, c.Before opts clock t → (c.startState now env).Before opts now t := fun t ht =>
    ht.mono hnow (startState_check_eq_idle c now env) rfl
  have hcheck : c.check = .lost → (c.startState now env).check = .lost := fun hc => by
    rw [Children.startState, hc]
  have hsp := h.toSpaced.concat hnow (List.mem_append_left [Exit.checking] hk) hs
  refine { hsp with asked := ?_, reported := ?_, checking := ?_ }
  · refine List.forall_mem_append.2 ⟨fun e he hk => (h.asked e he hk).imp hcheck (hb e.2), ?_⟩
    exact List.forall_mem_singleton.2 fun hk => Or.inl (hl hk)
  · exact fun e he _ => Nat.add_le_add_right (hsp.le e he) 60
  · refine List.forall_mem_append.2 ⟨fun e he hk => hb e.2 (h.checking e he hk), ?_⟩
    refine List.forall_mem_singleton.2 fun hc => ?_
    obtain rfl : why = .checking := hc
    exact absurd hk (by decide)

theorem Timely.startMonitor (h : Timely opts c clock exits) (hnow : clock ≤ now)
    (hs : ∀ e ∈ exits, e.1 = .checking → e.2 + 5 < now) :
    Timely opts (c.startMonitor opts now) now (exits ++ [(.checking, now)]) := by
  have hk : Exit.checking ∈ [Exit.asked, .reported, .checking] := by decide
  have hsp := h.toSpaced.concat hnow hk hs
  have hb : ∀ e ∈ exits ++ [(.checking, now)], (c.startMonitor opts now).Before opts now e.2 :=
    fun e he => Nat.add_le_add_right (hsp.le e he) _
  refine { hsp with asked := ?_, reported := ?_, checking := fun e he _ => hb e he }
  · exact fun e he _ => Or.inr (hb e he)
  · refine List.forall_mem_append.2 ⟨h.reported, ?_⟩
    exact List.forall_mem_singleton.2 fun hc => Exit.noConfusion hc

/-- A check and the metrics are due a long time after those before. -/
theorem Timely.moves (h : Timely opts c s.clock s.exits) (hi : 6000 ≤ opts.interval)
    (hc : s.children = some c) (hnow : s.clock ≤ l.now) (hm : Moves opts c l n) (hq : Quiet s l) :
    Timely opts n.children l.now (s.exits ++ n.exits l.now) := by
  have hlong : ∀ t, c.check ≠ .idle → c.Before opts s.clock t → t + 5 < l.now := by
    intro t hne ht
    have := (before_of_ne hne).1 ht
    omega
  cases hm with
  | mark | stats | monitor =>
    rw [Next.exits, List.append_nil]
    exact h.go hnow rfl id fun t ht => ht.mono hnow Iff.rfl rfl
  | told hmsg => exact absurd hq hmsg
  | @reported now env hdue =>
    refine h.startState hnow _ (by decide) (fun e he hk => ?_) fun hc => Exit.noConfusion hc
    have hlt : e.2 + 5 < now := by
      have := h.reported e he hk
      omega
    exact hlt
  | check hidle hdue =>
    rw [Next.exits, List.append_nil]
    refine h.go hnow rfl (fun hl => Check.noConfusion (hidle.symm.trans hl)) fun t ht => ?_
    exact ((before_of_eq hidle).1 ht).trans hdue
  | poolAnswers hpool =>
    rw [Next.exits, List.append_nil]
    refine h.go hnow rfl (fun hl => Check.noConfusion (hpool.symm.trans hl)) fun t ht => ?_
    exact ht.mono hnow (by simp [hpool, Next.children]) rfl
  | ethereum hask =>
    rw [Next.exits, List.append_nil]
    refine h.go hnow rfl (fun hl => Check.noConfusion (hask.symm.trans hl)) fun t ht => ?_
    exact ht.mono hnow (by simp [hask, Next.children]) rfl
  | asked hask =>
    have hne : c.check ≠ .idle := fun h' => Check.noConfusion (hask.symm.trans h')
    refine h.startState hnow _ (by decide) (fun e he hk => ?_) fun _ => ?_
    · rcases h.asked e he hk with hl | hb
      · exact Check.noConfusion (hask.symm.trans hl)
      · exact hlong e.2 hne hb
    · rw [Children.startState, hask]
  | checking hne => exact h.startMonitor hnow fun e he hk => hlong e.2 hne (h.checking e he hk)
  | notified _ hn =>
    have hsome := hq c hc
    rw [hn] at hsome
    cases hsome
  | pool => exact hq.elim

end

/-- The supervisor goes on, with its restarts. -/
structure Enduring (opts : Opts) (s : Processor) (c : Children) : Prop where
  children : s.children = some c
  timely : Timely opts c s.clock s.exits
  restarts : addRestarts .default (s.exits.map Prod.snd) = some s.restarts

theorem Enduring.follow {now : ℕ} (h : Enduring opts s c)
    (ht : Timely opts n.children now (s.exits ++ n.exits now)) :
    Enduring opts (s.follow now n) n.children := by
  cases n with
  | go c out => exact ⟨rfl, (List.append_nil s.exits) ▸ ht, h.restarts⟩
  | exit why c out =>
    have hsorted : ((s.exits ++ [(why, now)]).map Prod.snd).Pairwise (· ≤ ·) :=
      List.pairwise_map.2 ht.sorted
    have hsparse : Sparse .default ((s.exits ++ [(why, now)]).map Prod.snd) :=
      sparse_of_kinds ht.kinds (by decide) ht.sorted ht.spaced
    have hend := (endures_iff hsorted).2 hsparse
    have hadd : addRestarts .default ((s.exits ++ [(why, now)]).map Prod.snd) =
        addRestart .default now s.restarts := by
      rw [List.map_append, List.map_singleton, addRestarts_concat, h.restarts, Option.bind_some]
    rw [Endures, hadd] at hend
    obtain ⟨restarts, hr⟩ := Option.isSome_iff_exists.1 hend
    have hf : s.follow now (.exit why c out) =
        ⟨some c, restarts, now, s.exits ++ [(why, now)], s.done ++ out⟩ := by
      rw [Processor.follow]
      simp only [hr]
    rw [hf]
    exact ⟨rfl, ht, hadd.trans hr⟩

theorem enduring_of_quiet (hi : 6000 ≤ opts.interval)
    (h : (machine opts env₀).RunWhere Quiet ls s) : ∃ c, Enduring opts s c := by
  induction h with
  | nil =>
    refine ⟨start opts env₀, rfl, ?_, rfl⟩
    exact ⟨⟨List.forall_mem_nil _, List.forall_mem_nil _, .nil, .nil⟩, List.forall_mem_nil _,
      List.forall_mem_nil _, List.forall_mem_nil _⟩
  | snoc hr hq hst ih =>
    obtain ⟨c, hc⟩ := ih
    obtain ⟨c', n, hc', hnow, hm, rfl⟩ := moves_of_step hr.run.reachable hst
    obtain rfl := Option.some_inj.1 (hc.children.symm.trans hc')
    exact ⟨_, hc.follow (hc.timely.moves hi hc.children hnow hm hq)⟩

/-- However long it runs, the supervisor endures that the monitor and the state exit in the checks,
    and that the state exits with its metrics. -/
theorem children_of_quiet (opts : Opts) (env₀ : State.Env) (ls : List Label) (s : Processor)
    (hi : 6000 ≤ opts.interval) (h : (machine opts env₀).RunWhere Quiet ls s) :
    s.children.isSome := by
  obtain ⟨c, hc⟩ := enduring_of_quiet hi h
  exact Option.isSome_of_mem hc.children

theorem children_of_quiet_checked : ∃ s : Processor, 6000 ≤ Opts.configured.interval ∧
    (machine .configured ⟨0, 0⟩).RunWhere Quiet checked s ∧ s.children.isSome := by
  obtain ⟨s, hr⟩ : ∃ s, (machine .configured ⟨0, 0⟩).RunWhere Quiet checked s :=
    ⟨_, .snoc (.snoc (.snoc (.snoc (.snoc .nil trivial rfl) trivial rfl) trivial rfl) trivial rfl)
      trivial rfl⟩
  exact ⟨s, by decide, hr, children_of_quiet _ _ checked s (by decide) hr⟩

/-- An exit of the pool is one too many, when the state has exited twice and the monitor once. -/
example : ∃ s, (machine .configured ⟨0, 0⟩).exec
    [.report 60 ⟨60, 60⟩, .check 60, .poolAnswers 60 ⟨0, 0, 0⟩,
      .stateAnswers 60 ⟨60, 60⟩ (Monitor.idleCheck 0).1,
      .stateAnswers 60 ⟨60, 60⟩ (Monitor.idleCheck 0).1, .callFails 60, .poolExit 60] = some s ∧
    s.children.isNone :=
  ⟨_, rfl, rfl⟩

end Sylph.DataProcessor.Supervision
