import Sylph.Solana.Subscription

/-!
# Clones of the client

The clones of a client (`SolanaRpcClient`) share the set of its active subscriptions. Each
of them removes all subscriptions from it when it is dropped (`Drop`), and each subscription
has a clone of its own, which is dropped with the task.

* `step`: a clone is made or dropped, a subscription is made (`subscribe_slots`), or its task
  takes a step (`Subscription.step`), the set being the shared one. What is called
  in `Drop` is taken to run to completion.
* `Quiet`: a step that neither drops a clone, in the runtime, nor ends a task while
  another task runs.
* `registered_iff`: all tasks that run are active as long as all steps are quiet, and no
  longer.
-/

namespace Sylph.Solana.Clones

open Lib Subscription

variable {β : Type}

/-- The clones of a client, and its subscriptions. -/
structure State (β : Type) where
  /-- The clones that belong to no task. -/
  clones : ℕ
  activeSubscriptions : Finset String
  /-- The tasks, under the ids of their subscriptions. -/
  tasks : String → Option (Subscription.Task β)

/-- What happens next. -/
inductive Label (β : Type)
  | clone
  /-- A clone is dropped, in the runtime or outside of it. -/
  | drop (inRuntime : Bool)
  /-- A subscription is made, with a new id. -/
  | subscribe (id : String)
  /-- The task of a subscription takes a step. -/
  | task (id : String) (l : Subscription.Label β)

/-- The client that has been made, by `SolanaRpcClient::new`. -/
def init : State β := ⟨1, ∅, fun _ => none⟩

/-- A subscription; `block_on` is granted to complete. -/
def config (wsEndpoints : List String) (id : String) : Config := ⟨id, wsEndpoints, .completes⟩

/-- The task, with the set as it is now. -/
def view (s : State β) (t : Subscription.Task β) : Subscription.Task β :=
  { t with activeSubscriptions := s.activeSubscriptions }

/-- The state after a step of a task. -/
def State.setTask (id : String) (t : Subscription.Task β) (s : State β) : State β :=
  { s with
    activeSubscriptions := t.activeSubscriptions
    tasks := Function.update s.tasks id (some t) }

/-- The steps of the clones and of their subscriptions. -/
def step (wsEndpoints : List String) (s : State β) : Label β → Option (State β)
  | .clone => if 0 < s.clones then some { s with clones := s.clones + 1 } else none
  | .drop inRuntime =>
    if 0 < s.clones then
      some { s with
        clones := s.clones - 1
        -- `Handle::try_current()`
        activeSubscriptions := if inRuntime then unsubscribeAll else s.activeSubscriptions }
    else none
  | .subscribe id =>
    if 0 < s.clones ∧ (s.tasks id).isNone then
      some (s.setTask id (start (config wsEndpoints id) s.activeSubscriptions))
    else none
  | .task id l =>
    (s.tasks id).bind fun t =>
      (Subscription.step (config wsEndpoints id) (view s t) l).map fun t' => s.setTask id t'

/-- The runs of the clones of a client. -/
def machine (β : Type) (wsEndpoints : List String) : Machine (State β) (Label β) :=
  ⟨init, step wsEndpoints⟩

variable {wsEndpoints : List String} {s s' : State β} {l : Label β}

/-- All tasks that run are active. -/
def Registered (s : State β) : Prop :=
  ∀ id t, s.tasks id = some t → t.pc.running = true → id ∈ s.activeSubscriptions

/-- No task runs, but possibly one. -/
def NoOther (s : State β) (id : Option String) : Prop :=
  ∀ id' t, s.tasks id' = some t → some id' ≠ id → t.pc.running = false

/-- A step that leaves the subscriptions of others alone. -/
def Quiet (wsEndpoints : List String) (s : State β) : Label β → Prop
  | .clone | .subscribe _ | .drop false => True
  | .drop true => NoOther s none
  | .task id l => ∀ t, s.tasks id = some t → l.ends (config wsEndpoints id) (view s t) = true →
      NoOther s (some id)

/-- The indices of all tasks are in range. -/
def AllInRange (wsEndpoints : List String) (s : State β) : Prop :=
  ∀ id t, s.tasks id = some t → Subscription.InRange (config wsEndpoints id) t

/-- With an empty set, all tasks that run are active if none runs. -/
theorem registered_iff_of_empty (h : s.activeSubscriptions = ∅) :
    Registered s ↔ NoOther s none := by
  refine forall₃_congr fun id t ht => ?_
  rw [h]
  simp

theorem tasks_setTask {id id' : String} {t t' : Subscription.Task β} :
    (s.setTask id t).tasks id' = some t' ↔
      (id' = id ∧ t = t') ∨ (id' ≠ id ∧ s.tasks id' = some t') := by
  rw [State.setTask]
  by_cases h : id' = id
  · subst h
    simp
  · simp [h]

/-- What a step does. -/
inductive StepsTo (wsEndpoints : List String) (s : State β) : Label β → State β → Prop
  | clone : StepsTo wsEndpoints s .clone { s with clones := s.clones + 1 }
  | drop (inRuntime : Bool) : StepsTo wsEndpoints s (.drop inRuntime) { s with
      clones := s.clones - 1
      activeSubscriptions := if inRuntime then unsubscribeAll else s.activeSubscriptions }
  | subscribe (id : String) : StepsTo wsEndpoints s (.subscribe id)
      (s.setTask id (start (config wsEndpoints id) s.activeSubscriptions))
  | task {id : String} {l : Subscription.Label β} {t t' : Subscription.Task β}
    (ht : s.tasks id = some t)
    (hst : Subscription.step (config wsEndpoints id) (view s t) l = some t') :
    StepsTo wsEndpoints s (.task id l) (s.setTask id t')

theorem stepsTo_of_step (hs : step wsEndpoints s l = some s') : StepsTo wsEndpoints s l s' := by
  cases l with
  | clone =>
    obtain ⟨-, hs⟩ := Option.ite_none_right_eq_some.1 hs
    exact Option.some_inj.1 hs ▸ .clone
  | drop inRuntime =>
    obtain ⟨-, hs⟩ := Option.ite_none_right_eq_some.1 hs
    exact Option.some_inj.1 hs ▸ .drop inRuntime
  | subscribe id =>
    obtain ⟨-, hs⟩ := Option.ite_none_right_eq_some.1 hs
    exact Option.some_inj.1 hs ▸ .subscribe id
  | task id l =>
    obtain ⟨t, ht, hs⟩ := Option.bind_eq_some_iff.1 hs
    obtain ⟨t', hst, rfl⟩ := Option.map_eq_some_iff.1 hs
    exact .task ht hst

theorem AllInRange.step (h : AllInRange wsEndpoints s) (hs : step wsEndpoints s l = some s') :
    AllInRange wsEndpoints s' := by
  cases stepsTo_of_step hs with
  | clone => exact h
  | drop inRuntime => exact h
  | subscribe id =>
    intro id' t ht
    rcases tasks_setTask.1 ht with ⟨rfl, rfl⟩ | ⟨-, ht⟩
    · exact List.length_pos_of_ne_nil
    · exact h id' t ht
  | @task id l t t' ht hst =>
    intro id' t'' ht'
    rcases tasks_setTask.1 ht' with ⟨rfl, rfl⟩ | ⟨-, ht'⟩
    · exact Subscription.InRange.step (s := view s t) (h id' t ht) hst
    · exact h id' t'' ht'

theorem allInRange_of_reachable (h : (machine β wsEndpoints).Reachable s) :
    AllInRange wsEndpoints s := by
  refine h.invariant (P := AllInRange wsEndpoints) ?_ fun _ _ _ hi hst => hi.step hst
  intro _ _ ht
  cases ht

/-- A task that ends takes all subscriptions with it, since its clone is dropped. -/
theorem active_of_ends {id : String} {t t' : Subscription.Task β} {l : Subscription.Label β}
    (hi : Subscription.InRange (config wsEndpoints id) t)
    (hst : Subscription.step (config wsEndpoints id) t l = some t')
    (he : l.ends (config wsEndpoints id) t = true) :
    t'.activeSubscriptions = ∅ ∧ t'.pc.running = false := by
  rcases Subscription.stepsTo_of_step hi hst with ⟨-, hn, -, -⟩ | - | - | -
  · rw [he] at hn
    cases hn
  · exact ⟨rfl, rfl⟩
  · exact ⟨rfl, rfl⟩
  · exact ⟨rfl, rfl⟩

/-- A task that does not end leaves the set as it is. -/
theorem active_of_not_ends {id : String} {t t' : Subscription.Task β} {l : Subscription.Label β}
    (hi : Subscription.InRange (config wsEndpoints id) t)
    (hst : Subscription.step (config wsEndpoints id) t l = some t')
    (he : l.ends (config wsEndpoints id) t = false) :
    t'.activeSubscriptions = t.activeSubscriptions ∧
      (t'.pc.running = true → t.pc.running = true) := by
  rcases Subscription.stepsTo_of_step hi hst with
    ⟨-, -, hpc, ha⟩ | ⟨-, hy, -⟩ | ⟨-, hy, -⟩ | ⟨-, hy, -⟩
  · refine ⟨ha, fun hr => ?_⟩
    rcases hpc with hpc | ⟨hr', -⟩
    · exact hpc ▸ hr
    · exact hr'
  all_goals
    rw [he] at hy
    cases hy

/-- A step keeps all tasks that run active if and only if it is quiet. -/
theorem registered_step_iff (hi : AllInRange wsEndpoints s) (h : Registered s)
    (hs : step wsEndpoints s l = some s') : Registered s' ↔ Quiet wsEndpoints s l := by
  cases stepsTo_of_step hs with
  | clone => exact iff_of_true h trivial
  | drop inRuntime =>
    cases inRuntime with
    | true => exact registered_iff_of_empty rfl
    | false => exact iff_of_true h trivial
  | subscribe id =>
    refine iff_of_true (fun id' t ht hr => ?_) trivial
    rcases tasks_setTask.1 ht with ⟨rfl, -⟩ | ⟨-, ht⟩
    · exact Finset.mem_insert_self _ _
    · exact Finset.mem_insert_of_mem (h id' t ht hr)
  | @task id l t t' ht hst =>
    have hit : Subscription.InRange (config wsEndpoints id) (view s t) := hi id t ht
    cases he : l.ends (config wsEndpoints id) (view s t) with
    | true =>
      -- The clone of the task is dropped.
      obtain ⟨ha, hnr⟩ := active_of_ends hit hst he
      rw [registered_iff_of_empty ha, Quiet]
      constructor
      · intro hn t₁ _ _ id' t₂ ht₂ hne
        have hne' : id' ≠ id := fun h => hne (congrArg some h)
        exact hn id' t₂ (tasks_setTask.2 (Or.inr ⟨hne', ht₂⟩)) (Option.some_ne_none _)
      · intro hq id' t₂ ht₂ _
        rcases tasks_setTask.1 ht₂ with ⟨rfl, rfl⟩ | ⟨hne, ht₂⟩
        · exact hnr
        · exact hq t ht he id' t₂ ht₂ fun h => hne (Option.some_inj.1 h)
    | false =>
      obtain ⟨ha, hr⟩ := active_of_not_ends hit hst he
      refine iff_of_true (fun id' t₂ ht₂ hr₂ => ?_) fun t₁ ht₁ he₁ => ?_
      · rw [State.setTask, ha]
        rcases tasks_setTask.1 ht₂ with ⟨rfl, rfl⟩ | ⟨-, ht₂⟩
        · exact h id' t ht (hr hr₂)
        · exact h id' t₂ ht₂ hr₂
      · rw [ht] at ht₁
        obtain rfl := Option.some_inj.1 ht₁
        rw [he] at he₁
        cases he₁

/-- All tasks that run are active throughout a run if and only if all of its steps are
    quiet. -/
theorem registered_iff {ls : List (Label β)} :
    (machine β wsEndpoints).RunThrough Registered ls s ↔
      (machine β wsEndpoints).RunWhere (Quiet wsEndpoints) ls s :=
  Machine.runThrough_iff_runWhere (fun _ _ ht => by cases ht) fun _ _ _ hr hp hst =>
    registered_step_iff (allInRange_of_reachable hr) hp hst

/-- A clone that is dropped unregisters the subscription of another one. -/
theorem not_forall_registered : ¬∀ (wsEndpoints : List String) (s : State Unit),
    (machine Unit wsEndpoints).Reachable s → Registered s := by
  intro h
  obtain ⟨s, he, ht, ha⟩ : ∃ s, (machine Unit ["ws://localhost:8900"]).exec
      [.subscribe "slot-0", .clone, .drop true] = some s ∧
      s.tasks "slot-0" = some (start (config ["ws://localhost:8900"] "slot-0") ∅) ∧
      s.activeSubscriptions = ∅ := ⟨_, rfl, rfl, rfl⟩
  have hmem := h _ s (Machine.reachable_of_exec he) "slot-0" _ ht rfl
  rw [ha] at hmem
  exact absurd hmem (Finset.notMem_empty _)

end Sylph.Solana.Clones
