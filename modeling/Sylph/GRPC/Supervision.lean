import Sylph.GRPC.Restart
import Sylph.Lib.Supervisor

/-!
# The supervision of the client

What becomes of the application when the client, or the connection registry, terminates. Both are
children of `Core.GRPC.Supervisor`, which is a child of `Core.Supervisor`; a supervisor gives up
when it has restarted its children more than three times in five seconds.

* `restartClient`: a client that cannot be started is tried again at once, until the supervisor
  gives up.
* `step`: the exits of the two processes, with the restarts that follow them.
* `clientExit_cases`: since the key of the client is registered, `Core.GRPC.Supervisor` gives up
  whenever the client has terminated. It is started again with a new registry.
* `running_iff`: so the application goes on if and only if this does not happen more than three
  times in five seconds (`outages`).
-/

namespace Sylph.GRPC

open Lib Elixir DataProcessor Supervisor

/-- The application, with the restarts of its two supervisors. -/
inductive Application (χ : Type)
  | running (restarts grpcRestarts : List ℕ) (clock : ℕ) (layer : Layer χ)
  | terminated

namespace Application

variable {χ : Type}

/-- What happens next; times are in seconds. -/
inductive Label (χ : Type)
  /-- A step of the registry and the client. -/
  | run (l : Layer.Label χ)
  | clientExit (now : ℕ) (callback : Option (ℤ × ExitReason)) (env : ConnectionRegistry.Env)
  | registryExit (now : ℕ) (env : ConnectionRegistry.Env)

/-- The starts and exits of the client are the steps of its supervisor. -/
def supervised : Layer.Label χ → Bool
  | .start .. | .terminate _ => true
  | .run _ | .late _ | .other .. => false

/-- The registry and the client are started. -/
def startLayer (opts : Client.Opts) (env : ConnectionRegistry.Env) : Layer χ :=
  (Layer.start opts.key env opts (.down ⟨∅⟩ [])).getD (.down ⟨∅⟩ [])

/-- The client is started again, until this succeeds or there have been too many restarts. -/
def restartClient (opts : Client.Opts) (env : ConnectionRegistry.Env) (now : ℕ) :
    ℕ → List ℕ → Layer χ → Option (List ℕ × Layer χ)
  | 0, _, _ => none
  | fuel + 1, restarts, layer =>
    match addRestart .default now restarts with
    | none => none
    | some restarts =>
      match Layer.start opts.key env opts layer with
      | some (.up connection late) => some (restarts, .up connection late)
      | some (.down registry late) => restartClient opts env now fuel restarts (.down registry late)
      | none => none

/-- `Core.GRPC.Supervisor` has terminated; it is restarted with its children, unless there have
    been too many restarts. -/
def giveUp (opts : Client.Opts) (env : ConnectionRegistry.Env) (now : ℕ) (restarts : List ℕ) :
    Application χ :=
  match addRestart .default now restarts with
  | none => terminated
  | some restarts => running restarts [] now (startLayer opts env)

/-- The steps of the application, as long as it runs. -/
def step (opts : Client.Opts) : Application χ → Label χ → Option (Application χ)
  | running restarts grpcRestarts clock layer, .run l =>
    if supervised l then none
    else (Layer.step opts.key layer l).map (running restarts grpcRestarts clock ·)
  | running restarts grpcRestarts clock layer, .clientExit now callback env =>
    if now < clock then none
    else (Layer.terminate callback layer).map fun layer =>
      match restartClient opts env now (Limit.default.intensity + 1) grpcRestarts layer with
      | some (grpcRestarts, layer) => running restarts grpcRestarts now layer
      | none => giveUp opts env now restarts
  | running restarts grpcRestarts clock _, .registryExit now env =>
    if now < clock then none
    else
      -- With the registry, the client is restarted, too.
      match addRestart .default now grpcRestarts with
      | some grpcRestarts => some (running restarts grpcRestarts now (startLayer opts env))
      | none => some (giveUp opts env now restarts)
  | terminated, _ => none

/-- The runs of the application, once it has been started. -/
def machine (opts : Client.Opts) (env : ConnectionRegistry.Env) :
    Machine (Application χ) (Label χ) :=
  ⟨running [] [] 0 (startLayer opts env), step opts⟩

variable {opts : Client.Opts} {env env' : ConnectionRegistry.Env} {s s' : Application χ}
  {l : Label χ} {ls : List (Label χ)} {layer : Layer χ}

/-! ## Starts -/

/-- The client is up, and registered. -/
def Up (opts : Client.Opts) (layer : Layer χ) : Prop :=
  (∃ connection late, layer = .up connection late) ∧ opts.key ∈ layer.registry.connections

theorem up_startLayer (opts : Client.Opts) (env : ConnectionRegistry.Env) :
    Up opts (startLayer opts env : Layer χ) := by
  obtain ⟨layer, hs⟩ : ∃ layer : Layer χ,
      Layer.step opts.key (.down ⟨∅⟩ []) (.start env opts) = some layer := by
    rw [Layer.step, Layer.start, if_pos rfl]
    split <;> exact ⟨_, rfl⟩
  have he : startLayer opts env = layer := by
    rw [startLayer]
    exact congrArg (Option.getD · _) hs
  rw [he]
  rcases Layer.start_cases hs with ⟨hmem, -⟩ | ⟨-, connection, late, rfl, hkey, -⟩
  · exact absurd hmem (AList.notMem_empty _)
  · exact ⟨⟨connection, late, rfl⟩, hkey⟩

/-- A client whose key is registered does not start. -/
theorem start_of_mem {registry : ConnectionRegistry} {late : List ConnectionRegistry.Msg}
    (h : opts.key ∈ registry.connections)
    (hs : Layer.start opts.key env opts (.down registry late) = some layer) :
    ∃ registry' late', layer = .down registry' late' ∧ opts.key ∈ registry'.connections := by
  have hst : Layer.step opts.key (.down registry late) (.start env opts) = some layer := hs
  rcases Layer.start_cases hst with ⟨-, he⟩ | ⟨hn, -⟩
  · exact he
  · exact absurd h hn

/-- So it is not started again. -/
theorem restartClient_of_mem (now fuel : ℕ) (restarts : List ℕ) {registry : ConnectionRegistry}
    {late : List ConnectionRegistry.Msg} (h : opts.key ∈ registry.connections) :
    restartClient opts env now fuel restarts (.down registry late : Layer χ) = none := by
  induction fuel generalizing restarts registry late with
  | zero => rfl
  | succ fuel ih =>
    rw [restartClient]
    split
    · rfl
    · split
      next hs =>
        obtain ⟨_, _, he, -⟩ := start_of_mem h hs
        cases he
      next hs =>
        obtain ⟨_, _, he, hmem⟩ := start_of_mem h hs
        cases he
        exact ih _ hmem
      next => rfl

theorem Up.step (h : Up opts layer) {k : Layer.Label χ} {layer' : Layer χ}
    (hk : supervised k = false) (hst : Layer.step opts.key layer k = some layer') :
    Up opts layer' := by
  refine ⟨?_, Layer.mem_registry_step h.2 hst⟩
  obtain ⟨⟨connection, late, rfl⟩, -⟩ := h
  cases k with
  | start env opts => cases hk
  | terminate callback => cases hk
  | run l =>
    obtain ⟨c, -, rfl⟩ := Option.map_eq_some_iff.1 hst
    exact ⟨c, late, rfl⟩
  | late env =>
    rw [Layer.step, Layer.deliverLate] at hst
    split at hst
    · cases hst
    · obtain ⟨registry, -, rfl⟩ := Option.map_eq_some_iff.1 hst
      exact ⟨_, _, rfl⟩
  | other env msg => cases hst

/-! ## Outages -/

/-- The times at which `Core.GRPC.Supervisor` has given up, and its restarts since then: whenever
    the client has terminated, and when the registry has done so too often. -/
def outage : List ℕ × List ℕ → Label χ → List ℕ × List ℕ
  | x, .run _ => x
  | (times, _), .clientExit now _ _ => (times ++ [now], [])
  | (times, restarts), .registryExit now _ =>
    match addRestart .default now restarts with
    | some restarts => (times, restarts)
    | none => (times ++ [now], [])

/-- The outages of a run, and the restarts since the last one. -/
def outages (ls : List (Label χ)) : List ℕ × List ℕ := ls.foldl outage ([], [])

theorem outages_concat (ls : List (Label χ)) (l : Label χ) :
    outages (ls ++ [l]) = outage (outages ls) l := by
  rw [outages, List.foldl_concat, ← outages]

/-- The restarts are those for the outages. -/
inductive Sound (opts : Client.Opts) (ls : List (Label χ)) : Application χ → Prop
  | running {restarts grpcRestarts : List ℕ} {clock : ℕ} {layer : Layer χ} (up : Up opts layer)
    (kept : addRestarts .default (outages ls).1 = some restarts)
    (grpc : grpcRestarts = (outages ls).2) (le : ∀ t ∈ (outages ls).1, t ≤ clock)
    (sorted : (outages ls).1.Pairwise (· ≤ ·)) :
    Sound opts ls (.running restarts grpcRestarts clock layer)
  | terminated (kept : addRestarts .default (outages ls).1 = none)
    (sorted : (outages ls).1.Pairwise (· ≤ ·)) : Sound opts ls .terminated

/-- An outage at a time that is not before the others. -/
theorem Sound.giveUp {restarts : List ℕ} {clock now : ℕ} {times : List ℕ}
    (ho : outages (ls ++ [l]) = (times ++ [now], []))
    (hkept : addRestarts .default times = some restarts) (hle : ∀ t ∈ times, t ≤ clock)
    (hs : times.Pairwise (· ≤ ·)) (hnow : clock ≤ now) :
    Sound opts (ls ++ [l]) (giveUp opts env now restarts : Application χ) := by
  have hs' : (times ++ [now]).Pairwise (· ≤ ·) := by
    refine List.pairwise_append.2 ⟨hs, List.pairwise_singleton _ _, fun t ht u hu => ?_⟩
    obtain rfl := List.mem_singleton.1 hu
    exact (hle t ht).trans hnow
  have hadd : addRestarts .default (times ++ [now]) = addRestart .default now restarts := by
    rw [addRestarts_concat, hkept, Option.bind_some]
  rw [Application.giveUp]
  split
  next he =>
    refine .terminated ?_ (ho ▸ hs')
    rw [ho, hadd, he]
  next restarts' he =>
    refine .running (up_startLayer opts env) ?_ (by rw [ho]) ?_ (ho ▸ hs')
    · rw [ho, hadd, he]
    · rw [ho]
      refine List.forall_mem_append.2 ⟨fun t ht => (hle t ht).trans hnow, ?_⟩
      exact List.forall_mem_singleton.2 (Nat.le_refl now)

/-- What an exit of the client leads to. -/
theorem step_clientExit {restarts grpcRestarts : List ℕ} {clock now : ℕ}
    {callback : Option (ℤ × ExitReason)} (hup : Up opts layer)
    (hst : step opts (.running restarts grpcRestarts clock layer) (.clientExit now callback env) =
      some s') : clock ≤ now ∧ s' = giveUp opts env now restarts := by
  obtain ⟨⟨connection, late, rfl⟩, hmem⟩ := hup
  have hreg : opts.key ∈ connection.registry.connections := hmem
  obtain ⟨hnow, hst⟩ := Option.ite_none_left_eq_some.1 hst
  obtain ⟨layer, ht, rfl⟩ := Option.map_eq_some_iff.1 hst
  obtain rfl := Option.some_inj.1 ht
  refine ⟨Nat.not_lt.1 hnow, ?_⟩
  rw [restartClient_of_mem now _ grpcRestarts hreg]

theorem Sound.step (h : Sound opts ls s) (hst : Application.step opts s l = some s') :
    Sound opts (ls ++ [l]) s' := by
  cases h with
  | terminated => cases hst
  | @running restarts grpcRestarts clock layer hup hkept hgrpc hle hs =>
    cases l with
    | run k =>
      obtain ⟨hk, hst⟩ := Option.ite_none_left_eq_some.1 hst
      obtain ⟨layer', hl, rfl⟩ := Option.map_eq_some_iff.1 hst
      have ho : outages (ls ++ [.run k]) = outages ls := outages_concat ls (.run k)
      exact .running (hup.step (Bool.not_eq_true _ ▸ hk) hl) (ho ▸ hkept) (ho ▸ hgrpc) (ho ▸ hle)
        (ho ▸ hs)
    | clientExit now callback env =>
      obtain ⟨hnow, rfl⟩ := step_clientExit hup hst
      exact .giveUp (outages_concat ls (.clientExit now callback env)) hkept hle hs hnow
    | registryExit now env =>
      obtain ⟨hnow, hst⟩ := Option.ite_none_left_eq_some.1 hst
      have ho := outages_concat ls (.registryExit now env)
      rw [outage, ← hgrpc] at ho
      split at hst
      next grpc he =>
        rw [he] at ho
        obtain rfl := Option.some_inj.1 hst
        refine .running (up_startLayer opts env) (by rw [ho, hkept]) (by rw [ho]) ?_ ?_
        · rw [ho]
          exact fun t ht => (hle t ht).trans (Nat.not_lt.1 hnow)
        · rw [ho]
          exact hs
      next he =>
        rw [he] at ho
        obtain rfl := Option.some_inj.1 hst
        exact .giveUp ho hkept hle hs (Nat.not_lt.1 hnow)

theorem sound_of_run (h : (machine opts env : Machine (Application χ) (Label χ)).Run ls s) :
    Sound opts ls s := by
  refine h.invariant (P := Sound opts) ?_ fun _ _ _ _ _ hs hst => hs.step hst
  exact .running (up_startLayer opts env) rfl rfl (List.forall_mem_nil _) .nil

/-- When the client has terminated, the application terminates, or the registry and the client
    are started anew, as after the start of the application. -/
theorem clientExit_cases (opts : Client.Opts) (env env' : ConnectionRegistry.Env)
    (s s' : Application χ) (now : ℕ) (callback : Option (ℤ × ExitReason))
    (h : (machine opts env).Reachable s)
    (hst : step opts s (.clientExit now callback env') = some s') :
    s' = .terminated ∨ ∃ restarts, s' = .running restarts [] now (startLayer opts env') := by
  obtain ⟨ls, hr⟩ := h
  cases sound_of_run hr with
  | terminated => cases hst
  | running hup =>
    obtain ⟨-, rfl⟩ := step_clientExit hup hst
    rw [giveUp]
    split
    · exact Or.inl rfl
    · exact Or.inr ⟨_, rfl⟩

theorem clientExit_cases_ethereum : ∃ s' : Application String,
    (s' = .terminated ∨ ∃ restarts, s' = .running restarts [] 60
      (startLayer Layer.ethereum Connection.quiet)) := by
  obtain ⟨s', hst⟩ : ∃ s', step Layer.ethereum
      (machine Layer.ethereum Connection.quiet : Machine (Application String) _).init
      (.clientExit 60 none Connection.quiet) = some s' := ⟨_, rfl⟩
  exact ⟨s', clientExit_cases Layer.ethereum Connection.quiet Connection.quiet _ s' 60 none
    .init hst⟩

/-- The application goes on if and only if there are never more than three outages in five
    seconds. -/
theorem running_iff (opts : Client.Opts) (env : ConnectionRegistry.Env) (ls : List (Label χ))
    (s : Application χ) (h : (machine opts env).Run ls s) :
    s ≠ .terminated ↔ Sparse .default (outages ls).1 := by
  cases sound_of_run h with
  | running _ hkept _ _ hs =>
    refine iff_of_true nofun ((endures_iff hs).1 ?_)
    rw [Endures, hkept]
    rfl
  | terminated hkept hs =>
    refine iff_of_false (not_not_intro rfl) fun hsp => ?_
    have he := (endures_iff hs).2 hsp
    rw [Endures, hkept] at he
    cases he

/-- The client is killed four times in four seconds. -/
def killed : List (Label String) :=
  [10, 11, 12, 13].map fun now => .clientExit now none Connection.quiet

theorem running_iff_killed : ∃ s : Application String,
    (machine Layer.ethereum Connection.quiet).Run killed s ∧ s = .terminated ∧
      (s ≠ .terminated ↔ Sparse .default (outages killed).1) := by
  obtain ⟨s, he, hs⟩ : ∃ s : Application String,
      (machine Layer.ethereum Connection.quiet).exec killed = some s ∧ s = .terminated :=
    ⟨_, rfl, rfl⟩
  have hrun := Machine.run_of_exec he
  exact ⟨s, hrun, hs, running_iff Layer.ethereum Connection.quiet killed s hrun⟩

end Application

end Sylph.GRPC
