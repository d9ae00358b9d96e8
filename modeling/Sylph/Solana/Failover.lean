import Mathlib.Data.List.Perm.Subperm
import Mathlib.Data.Nat.ModEq
import Sylph.Lib.Machine
import Sylph.Lib.Rust
import Sylph.Solana.Client

/-!
# Failover

The endpoints of a client (`MultiClient`), one of which is the current one, and a call
that goes on to the next endpoint whenever its operation fails (`execute_with_failover`).

The clones of a client share the index of the current endpoint, and any number of calls may be
under way. Each reads the index once and advances it from then on (`select`), in one step
under the lock, and counts its own attempts (`finish`). The answers of the operations
are in the labels.

* `Clock`: how far the index has been advanced when a call selects an endpoint. It only
  depends on the order of the selections.
* `Tracks`: a call has failed on the endpoints its selections say, the index is in range,
  and so the lock is never poisoned.
* `exhausts_iff`: a call that fails has tried all endpoints if and only if the index was not
  advanced by a multiple of their number between two of its selections, as it may be
  by other calls. A call that is alone has tried them all (`exhausts_of_alone`).
-/

namespace Sylph.Solana

open Lib Rust

/-- The client of an endpoint. -/
structure RpcClient where
  endpoint : String
  timeout : UInt64
  commitment : CommitmentLevel

/-- The clients of the endpoints. The index of the current one is shared by all clones: it is
    in the state of the calls. -/
structure MultiClient where
  endpoints : List String
  clients : List RpcClient
  config : RpcConfig
  ne_nil : clients ≠ []

namespace MultiClient

/-- A client for each endpoint; there has to be one. -/
def new (endpoints : List String) (config : RpcConfig) : Except RpcError MultiClient :=
  if h : endpoints = [] then .error (.invalidResponse "no rpc endpoints provided")
  else .ok {
    endpoints := endpoints
    clients := endpoints.map fun endpoint => ⟨endpoint, config.timeout, config.commitment⟩
    config := config
    ne_nil := fun hm => h (List.map_eq_nil_iff.1 hm) }

/-- The current endpoint. -/
def currentClient (self : MultiClient) (current : ℕ) : Except Panic RpcClient :=
  index self.clients current

/-- The next endpoint, which becomes the current one. -/
def nextClient (self : MultiClient) (current : ℕ) : ℕ × Except Panic RpcClient :=
  let current := (current + 1) % self.clients.length
  (current, index self.clients current)

theorem length_pos (self : MultiClient) : 0 < self.clients.length :=
  List.length_pos_of_ne_nil self.ne_nil

end MultiClient

namespace Failover

variable {α : Type}

/-- Where a call is. -/
inductive Pc (α : Type)
  /-- It is to select an endpoint. -/
  | select
  /-- Its operation is under way, on the endpoint at an index. -/
  | operation (current : ℕ) (client : RpcClient)
  | returned (result : Except RpcError α)
  | panicked

/-- A call of `execute_with_failover`. -/
structure Call (α : Type) where
  pc : Pc α
  attempts : ℕ
  /-- Not in the code: the endpoints its operation has failed on. -/
  failed : List ℕ

/-- The calls under way, and the index they share. -/
structure State (α : Type) where
  current : ℕ
  /-- A call has panicked under the lock, for writing. -/
  poisoned : Bool
  calls : ℕ → Call α

/-- What happens next. -/
inductive Label (α : Type)
  /-- A call selects an endpoint. -/
  | select (i : ℕ)
  /-- The operation of a call is answered. -/
  | finish (i : ℕ) (result : Except RpcError α)

/-- No call has begun. -/
def init : State α := ⟨0, false, fun _ => ⟨.select, 0, []⟩⟩

/-- The state with another state of one call. -/
def State.setCall (i : ℕ) (call : Call α) (s : State α) : State α :=
  { s with calls := Function.update s.calls i call }

/-- The error of a lock that is poisoned. -/
def lockError (mode : String) : RpcError :=
  .invalidResponse ("Failed to acquire " ++ mode ++
    " lock: poisoned lock: another task failed inside")

/-- The current endpoint at first, and the next one from then on. -/
def select (self : MultiClient) (i : ℕ) (s : State α) : Option (State α) :=
  let call := s.calls i
  match call.pc with
  | .select =>
    if call.attempts = 0 then
      if s.poisoned then
        some (s.setCall i { call with pc := .returned (.error (lockError "read")) })
      else match self.currentClient s.current with
        | .ok client => some (s.setCall i { call with pc := .operation s.current client })
        | .error _ => some (s.setCall i { call with pc := .panicked })
    else
      if s.poisoned then
        some (s.setCall i { call with pc := .returned (.error (lockError "write")) })
      else
        let (current, next) := self.nextClient s.current
        match next with
        | .ok client =>
          some ({ s with current := current }.setCall i
            { call with pc := .operation current client })
        | .error _ =>
          some ({ s with current := current, poisoned := true }.setCall i
            { call with pc := .panicked })
  | _ => none

/-- The call once its operation is answered. -/
def Call.finish (maxAttempts current : ℕ) (result : Except RpcError α) (call : Call α) : Call α :=
  match result with
  | .ok a => { call with pc := .returned (.ok a) }
  | .error e =>
    { pc := if call.attempts + 1 ≥ maxAttempts then .returned (.error e) else .select
      attempts := call.attempts + 1
      failed := call.failed ++ [current] }

/-- The operation of a call is over, with its result. -/
def finish (self : MultiClient) (i : ℕ) (result : Except RpcError α) (s : State α) :
    Option (State α) :=
  match (s.calls i).pc with
  | .operation current _ =>
    some (s.setCall i ((s.calls i).finish self.clients.length current result))
  | _ => none

/-- The steps of the calls. -/
def step (self : MultiClient) (s : State α) : Label α → Option (State α)
  | .select i => select self i s
  | .finish i result => finish self i result s

/-- The runs of any number of calls. -/
def machine (α : Type) (self : MultiClient) : Machine (State α) (Label α) := ⟨init, step self⟩

/-! ## The order of the selections -/

/-- How often the index has been advanced, in total, and when each call selected. -/
structure Clock where
  advances : ℕ
  turns : ℕ → List ℕ

/-- Every selection of a call but its first one advances the index. -/
def Clock.tick (c : Clock) : Label α → Clock
  | .select i =>
    let now := if c.turns i = [] then c.advances else c.advances + 1
    ⟨now, Function.update c.turns i (c.turns i ++ [now])⟩
  | .finish .. => c

/-- The turns of a run. -/
def clock (ls : List (Label α)) : Clock := ls.foldl Clock.tick ⟨0, fun _ => []⟩

theorem clock_snoc (ls : List (Label α)) (l : Label α) : clock (ls ++ [l]) = (clock ls).tick l := by
  rw [clock, List.foldl_append]
  rfl

/-! ## The endpoints a call has failed on -/

/-- A call is where its selections say, with `n` endpoints. -/
def Call.Tracks (n : ℕ) (turns : List ℕ) (call : Call α) : Prop :=
  match call.pc with
  | .select => call.attempts = turns.length ∧ turns.length < n ∧ call.failed = turns.map (· % n)
  | .operation current _ =>
    call.attempts + 1 = turns.length ∧ turns.length ≤ n ∧
      call.failed ++ [current] = turns.map (· % n)
  | .returned (.ok _) => turns ≠ []
  | .returned (.error _) => turns.length = n ∧ call.failed = turns.map (· % n)
  | .panicked => False

/-- All calls are where the order of the selections says. -/
structure Tracks (n : ℕ) (c : Clock) (s : State α) : Prop where
  current : s.current = c.advances % n
  poisoned : s.poisoned = false
  calls : ∀ i, (s.calls i).Tracks n (c.turns i)

variable {self : MultiClient} {c : Clock} {s s' : State α} {i : ℕ}

theorem Tracks.init : Tracks self.clients.length ⟨0, fun _ => []⟩ (init : State α) where
  current := (Nat.zero_mod _).symm
  poisoned := rfl
  calls _ := ⟨rfl, self.length_pos, rfl⟩

/-- A step of one call leaves the other ones where they are. -/
theorem Tracks.update {n now : ℕ} {turns : List ℕ} (s' : State α) (call : Call α)
    (h : Tracks n c s) (hcall : call.Tracks n turns) (hcurrent : s'.current = now % n)
    (hpoisoned : s'.poisoned = false) (hcalls : s'.calls = Function.update s.calls i call) :
    Tracks n ⟨now, Function.update c.turns i turns⟩ s' where
  current := hcurrent
  poisoned := hpoisoned
  calls j := by
    rw [hcalls]
    by_cases hj : j = i
    · subst hj
      simpa using hcall
    · simpa [Function.update_of_ne hj] using h.calls j

/-- The index is in range, so that a selection finds an endpoint. -/
theorem Tracks.exists_client (h : Tracks self.clients.length c s) :
    ∃ client, self.currentClient s.current = .ok client :=
  exists_index_iff.2 (h.current ▸ Nat.mod_lt _ self.length_pos)

theorem exists_nextClient (self : MultiClient) (current : ℕ) : ∃ client,
    self.nextClient current = ((current + 1) % self.clients.length, .ok client) := by
  obtain ⟨client, hc⟩ := exists_index_iff.2 (Nat.mod_lt (current + 1) self.length_pos)
  exact ⟨client, congrArg _ hc⟩

/-- A selection finds the endpoint the clock says. -/
theorem Tracks.select (h : Tracks self.clients.length c s) (hs : select self i s = some s') :
    Tracks self.clients.length (c.tick (.select i : Label α)) s' := by
  have hcall := h.calls i
  rw [Failover.select] at hs
  rw [Call.Tracks] at hcall
  split at hs
  · next hpc =>
    rw [hpc] at hcall
    obtain ⟨ha, hlt, hf⟩ := hcall
    split at hs
    · next h0 =>
      -- The first selection reads the index.
      have hnil : c.turns i = [] := List.eq_nil_of_length_eq_zero (ha.symm.trans h0)
      obtain ⟨client, hc⟩ := h.exists_client
      rw [if_neg (by simp [h.poisoned]), hc] at hs
      obtain rfl := Option.some_inj.1 hs
      rw [Clock.tick, if_pos hnil, hnil, List.nil_append]
      rw [hnil] at ha hf
      refine Tracks.update _ { s.calls i with pc := .operation s.current client } h ?_
        h.current h.poisoned rfl
      refine ⟨?_, self.length_pos, ?_⟩
      · rw [ha]
        rfl
      · rw [hf, h.current]
        rfl
    · next h0 =>
      -- The other ones advance it.
      have hne : c.turns i ≠ [] := fun hnil => h0 (ha.trans (congrArg List.length hnil))
      obtain ⟨client, hc⟩ := exists_nextClient self s.current
      rw [if_neg (by simp [h.poisoned]), hc] at hs
      obtain rfl := Option.some_inj.1 hs
      rw [Clock.tick, if_neg hne]
      have hnow : (s.current + 1) % self.clients.length =
          (c.advances + 1) % self.clients.length := by
        rw [h.current, Nat.mod_add_mod]
      refine Tracks.update _ { s.calls i with pc := .operation _ client } h ?_
        hnow h.poisoned rfl
      refine ⟨?_, ?_, ?_⟩
      · rw [ha, List.length_append]
        rfl
      · rw [List.length_append]
        exact hlt
      · rw [hf, hnow, List.map_append]
        rfl
  · cases hs

/-- An answer moves no selection. -/
theorem Tracks.finish (h : Tracks self.clients.length c s) {result : Except RpcError α}
    (hs : finish self i result s = some s') : Tracks self.clients.length c s' := by
  have hcall := h.calls i
  rw [Failover.finish] at hs
  rw [Call.Tracks] at hcall
  split at hs
  · next current client hpc =>
    rw [hpc] at hcall
    obtain ⟨ha, hle, hf⟩ := hcall
    obtain rfl := Option.some_inj.1 hs
    suffices hc : ((s.calls i).finish self.clients.length current result).Tracks
        self.clients.length (c.turns i) by
      have hup := Tracks.update (s.setCall i _) _ h hc h.current h.poisoned rfl
      rwa [Function.update_eq_self] at hup
    cases result with
    | ok a =>
      intro hnil
      rw [hnil] at ha
      cases ha
    | error e =>
      rw [Call.finish, Call.Tracks]
      dsimp only
      -- A call that fails gives up after as many attempts as there are endpoints.
      by_cases hmax : (s.calls i).attempts + 1 ≥ self.clients.length
      · rw [if_pos hmax]
        exact ⟨Nat.le_antisymm hle (ha ▸ hmax), hf⟩
      · rw [if_neg hmax]
        exact ⟨ha, ha ▸ Nat.lt_of_not_le hmax, hf⟩
  · cases hs

/-- Along a run, the calls are where the order of the selections says. -/
theorem tracks {ls : List (Label α)} (h : (machine α self).Run ls s) :
    Tracks self.clients.length (clock ls) s := by
  refine h.invariant (P := fun ls s => Tracks self.clients.length (clock ls) s) .init ?_
  intro ls s l s' _ ih hst
  rw [clock_snoc]
  cases l with
  | select i => exact ih.select hst
  | finish i result => exact ih.finish hst

/-! ## Which endpoints a call has tried -/

/-- With as many numbers below a bound as there are, all are in a list if and only if none is
    twice. -/
theorem forall_mem_iff_nodup {n : ℕ} {l : List ℕ} (hlen : l.length = n) (hlt : ∀ k ∈ l, k < n) :
    (∀ k < n, k ∈ l) ↔ l.Nodup := by
  constructor
  · intro h
    -- The range is in the list, which is not longer, so that one is the other in some order.
    have hsub : List.range n ⊆ l := fun k hk => h k (List.mem_range.1 hk)
    have hperm := (List.nodup_range.subperm hsub).perm_of_length_le (by simp [hlen])
    exact hperm.nodup_iff.1 List.nodup_range
  · intro h k hk
    -- The same, the other way around.
    have hsub : l ⊆ List.range n := fun k hk => List.mem_range.2 (hlt k hk)
    have hperm := (h.subperm hsub).perm_of_length_le (by simp [hlen])
    exact hperm.mem_iff.2 (List.mem_range.2 hk)

/-- No two selections of a call are at the same endpoint: in between, the index is not advanced
    by a multiple of the number of the endpoints. -/
def Spread (n : ℕ) (turns : List ℕ) : Prop := turns.Pairwise fun t t' => ¬t ≡ t' [MOD n]

/-- A call that fails has tried every endpoint if and only if its selections are spread. -/
theorem exhausts_iff {ls : List (Label α)} (h : (machine α self).Run ls s) {e : RpcError}
    (hr : (s.calls i).pc = .returned (.error e)) :
    (∀ k < self.clients.length, k ∈ (s.calls i).failed) ↔
      Spread self.clients.length ((clock ls).turns i) := by
  have hcall := (tracks h).calls i
  rw [Call.Tracks, hr] at hcall
  -- It has failed as often as there are endpoints.
  obtain ⟨hlen, hf⟩ := hcall
  rw [hf, forall_mem_iff_nodup (by rw [List.length_map, hlen]), List.nodup_iff_pairwise_ne,
    List.pairwise_map]
  · rfl
  · intro k hk
    obtain ⟨t, -, rfl⟩ := List.mem_map.1 hk
    exact Nat.mod_lt _ self.length_pos

/-- If a call is the only one to select, it does so at every count. -/
theorem clock_of_alone {ls : List (Label α)} (h : ∀ j, .select j ∈ ls → j = i) :
    ∃ m, (clock ls).turns i = List.range m ∧ (clock ls).advances = m - 1 := by
  induction ls using List.reverseRecOn with
  | nil => exact ⟨0, rfl, rfl⟩
  | append_singleton ls l ih =>
    obtain ⟨m, ht, ha⟩ := ih fun j hj => h j (List.mem_append_left _ hj)
    rw [clock_snoc]
    cases l with
    | select j =>
      obtain rfl := h j (by simp)
      refine ⟨m + 1, ?_⟩
      rw [Clock.tick, ht, ha, List.range_succ]
      -- Its first selection does not count, and each later one counts once.
      cases m with
      | zero => simp
      | succ m => simp
    | finish j result => exact ⟨m, ht, ha⟩

theorem spread_range (n : ℕ) : Spread n (List.range n) := by
  refine List.Pairwise.imp_of_mem ?_ List.pairwise_lt_range
  intro t t' ht ht' hlt hmod
  have h := Nat.ModEq.eq_of_lt_of_lt hmod (List.mem_range.1 ht) (List.mem_range.1 ht')
  exact Nat.ne_of_lt hlt h

/-- A call that is alone and fails has tried every endpoint. -/
theorem exhausts_of_alone {ls : List (Label α)} (h : (machine α self).Run ls s)
    (halone : ∀ j, .select j ∈ ls → j = i) {e : RpcError}
    (hr : (s.calls i).pc = .returned (.error e)) :
    ∀ k < self.clients.length, k ∈ (s.calls i).failed := by
  have hcall := (tracks h).calls i
  obtain ⟨m, ht, -⟩ := clock_of_alone halone
  rw [Call.Tracks, hr, ht, List.length_range] at hcall
  refine (exhausts_iff h hr).2 ?_
  rw [ht, hcall.1]
  exact spread_range _

/-- Every call that has failed has tried every endpoint. -/
def Exhaustive (n : ℕ) (s : State α) : Prop :=
  ∀ i e, (s.calls i).pc = .returned (.error e) → ∀ k < n, k ∈ (s.calls i).failed

/-- At the end of a run, every call that has failed has tried every endpoint if and only if
    the selections of each of them are spread. -/
theorem exhaustive_iff {ls : List (Label α)} (h : (machine α self).Run ls s) :
    Exhaustive self.clients.length s ↔
      ∀ i e, (s.calls i).pc = .returned (.error e) →
        Spread self.clients.length ((clock ls).turns i) :=
  forall_congr' fun _ => forall_congr' fun _ => forall_congr' fun hr => exhausts_iff h hr

/-- Two endpoints. -/
def two : MultiClient where
  endpoints := ["http://a", "http://b"]
  clients := [⟨"http://a", 30, .confirmed⟩, ⟨"http://b", 30, .confirmed⟩]
  config := .default
  ne_nil := List.cons_ne_nil _ _

/-- A failure, for tests. -/
def failure : Except RpcError Unit := .error .rateLimitExceeded

/-- Two calls that fail at once take turns: the first one gets back to where it started. -/
def collision : List (Label Unit) :=
  [.select 0, .select 1, .finish 0 failure, .finish 1 failure, .select 1, .select 0,
    .finish 0 failure]

theorem exhaustive_iff_collision : ∃ s, (machine Unit two).exec collision = some s ∧
    (Exhaustive 2 s ↔ ∀ i e, (s.calls i).pc = .returned (.error e) →
      Spread 2 ((clock collision).turns i)) := by
  obtain ⟨s, he⟩ : ∃ s, (machine Unit two).exec collision = some s := ⟨_, rfl⟩
  exact ⟨s, he, exhaustive_iff (Machine.run_of_exec he)⟩

/-- The first one has not tried the second endpoint. -/
theorem not_forall_exhaustive : ¬∀ (self : MultiClient) (s : State Unit),
    (machine Unit self).Reachable s → Exhaustive self.clients.length s := by
  intro h
  obtain ⟨s, he, hr, hf⟩ : ∃ s, (machine Unit two).exec collision = some s ∧
      (s.calls 0).pc = .returned failure ∧ (s.calls 0).failed = [0, 0] := ⟨_, rfl, rfl, rfl⟩
  have hmem := h two s (Machine.reachable_of_exec he) 0 _ hr 1 (by decide)
  rw [hf] at hmem
  exact absurd hmem (by decide)

end Failover

end Sylph.Solana
