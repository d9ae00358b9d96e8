import Sylph.Lib.Circle
import Sylph.Solana.Failover

/-!
# A single call

A call of `execute_with_failover` with no other one under way, from some endpoint on: the
steps of the call are determined by the outcomes of its operation on the endpoints.

* `At`: after some failures, the call has failed on the first endpoints from there on, and
  the shared index is at the last of them.
* `single_spec`: hence the call ends, at the first endpoint the operation succeeds on, if
  there is one, and otherwise with the error of the last one, having tried all.
-/

namespace Sylph.Solana.Failover

open Lib Circle

variable {α : Type}

/-- A call that is alone, from the endpoint at `current` on, with an operation that has the
    outcome `outcome k` on the endpoint at `k`. -/
def single (self : MultiClient) (outcome : ℕ → Except RpcError α) (current : ℕ) :
    Machine (State α) Unit where
  init := { init with current := current }
  step s _ :=
    match (s.calls 0).pc with
    | .select => select self 0 s
    | .operation k _ => finish self 0 (outcome k) s
    | _ => none

/-- The endpoints the operation of the call has been called on. -/
def State.called (s : State α) : List ℕ :=
  (s.calls 0).failed ++
    match (s.calls 0).pc with
    | .operation k _ => [k]
    | .returned (.ok _) => [s.current]
    | _ => []

/-- How the call ends, from the endpoint at `i` on. -/
inductive Completed (self : MultiClient) (outcome : ℕ → Except RpcError α) (i : ℕ)
    (s : State α) : Prop
  /-- At the first endpoint the operation succeeds on, which stays the current one. -/
  | ok (d : ℕ) (a : α)
    (first : FirstAt (fun k => ∃ a, outcome k = .ok a) self.clients.length i d)
    (outcome : outcome (place self.clients.length i d) = .ok a)
    (pc : (s.calls 0).pc = .returned (.ok a))
    (current : s.current = place self.clients.length i d)
    (called : s.called = places self.clients.length i (d + 1))
  /-- At the endpoint before the first one, after all of them have failed. -/
  | error (e : RpcError) (none : ∀ k < self.clients.length, ∀ a, outcome k ≠ .ok a)
    (outcome : outcome (place self.clients.length i (self.clients.length - 1)) = .error e)
    (pc : (s.calls 0).pc = .returned (.error e))
    (current : s.current = place self.clients.length i (self.clients.length - 1))
    (called : s.called = places self.clients.length i self.clients.length)

/-- Where the call is: about to select an endpoint, or in its operation, after the first `d`
    endpoints have failed, or at its end. -/
inductive At (self : MultiClient) (outcome : ℕ → Except RpcError α) (i : ℕ) (s : State α) : Prop
  | select (d : ℕ) (hd : d < self.clients.length)
    (before : ∀ e < d, ∀ a, outcome (place self.clients.length i e) ≠ .ok a)
    (call : s.calls 0 = ⟨.select, d, places self.clients.length i d⟩)
    (current : s.current = place self.clients.length i (d - 1)) (poisoned : s.poisoned = false)
  | operation (d : ℕ) (client : RpcClient) (hd : d < self.clients.length)
    (before : ∀ e < d, ∀ a, outcome (place self.clients.length i e) ≠ .ok a)
    (call : s.calls 0 = ⟨.operation (place self.clients.length i d) client, d,
      places self.clients.length i d⟩)
    (current : s.current = place self.clients.length i d) (poisoned : s.poisoned = false)
  | completed (h : Completed self outcome i s)

/-- How far the call is from its end. -/
def rank (self : MultiClient) (s : State α) : ℕ :=
  match (s.calls 0).pc with
  | .select => 2 * (self.clients.length - (s.calls 0).attempts)
  | .operation _ _ => 2 * (self.clients.length - (s.calls 0).attempts) - 1
  | _ => 0

variable {self : MultiClient} {outcome : ℕ → Except RpcError α} {i : ℕ} {s s' : State α}

theorem At.init (hi : i < self.clients.length) :
    At self outcome i (single self outcome i).init :=
  .select 0 self.length_pos (fun _ he => absurd he (Nat.not_lt_zero _)) rfl (place_zero hi).symm rfl

theorem calls_setCall (call : Call α) (s : State α) : (s.setCall 0 call).calls 0 = call := by
  exact Function.update_self (f := s.calls) 0 call

/-- The endpoint after `d` failures is selected. -/
theorem exists_select {d : ℕ} {failed : List ℕ}
    (hcall : s.calls 0 = ⟨.select, d, failed⟩)
    (hcur : s.current = place self.clients.length i (d - 1)) (hp : s.poisoned = false) :
    ∃ client s', select self 0 s = some s' ∧
      s'.calls 0 = ⟨.operation (place self.clients.length i d) client, d, failed⟩ ∧
      s'.current = place self.clients.length i d ∧ s'.poisoned = false := by
  cases d with
  | zero =>
    have hcur : s.current = place self.clients.length i 0 := hcur
    obtain ⟨client, hc⟩ : ∃ client, self.currentClient s.current = .ok client :=
      Rust.exists_index_iff.2 (hcur ▸ place_lt self.length_pos)
    refine ⟨client, s.setCall 0 ⟨.operation s.current client, 0, failed⟩, ?_, ?_, hcur, hp⟩
    · simp [select, hcall, hp, hc]
    · rw [calls_setCall, hcur]
  | succ d =>
    obtain ⟨client, hc⟩ := exists_nextClient self s.current
    rw [hcur, Nat.add_sub_cancel, place_succ] at hc
    refine ⟨client, { s with current := place self.clients.length i (d + 1) }.setCall 0
      ⟨.operation (place self.clients.length i (d + 1)) client, d + 1, failed⟩, ?_,
      calls_setCall .., rfl, hp⟩
    simp [select, hcall, hp, hc, hcur]

/-- Once the operation is answered, the call ends, or goes on to the next endpoint. -/
theorem at_finish {d : ℕ} {client : RpcClient} (hd : d < self.clients.length)
    (hb : ∀ e < d, ∀ a, outcome (place self.clients.length i e) ≠ .ok a)
    (hcall : s.calls 0 = ⟨.operation (place self.clients.length i d) client, d,
      places self.clients.length i d⟩)
    (hcur : s.current = place self.clients.length i d) (hp : s.poisoned = false)
    (hs : finish self 0 (outcome (place self.clients.length i d)) s = some s') :
    At self outcome i s' ∧ rank self s' < 2 * (self.clients.length - d) - 1 := by
  rw [finish, hcall] at hs
  obtain rfl := Option.some_inj.1 hs
  have hpl := places_succ (n := self.clients.length) (i := i) (m := d)
  rcases ho : outcome (place self.clients.length i d) with e | a
  · have hfail : ∀ e < d + 1, ∀ a, outcome (place self.clients.length i e) ≠ .ok a := by
      intro e' he' a
      rcases Nat.lt_succ_iff_lt_or_eq.1 he' with hlt | rfl
      · exact hb e' hlt a
      · intro h
        cases ho.symm.trans h
    by_cases hlast : d + 1 ≥ self.clients.length
    · -- This was the last endpoint.
      have hn : self.clients.length = d + 1 := Nat.le_antisymm hlast hd
      refine ⟨.completed (.error e ?_ ?_ ?_ ?_ ?_), ?_⟩
      · intro k hk
        obtain ⟨e', he', rfl⟩ := exists_place hk i
        exact hfail e' (hn ▸ he')
      · rw [hn, Nat.add_sub_cancel, ← hn, ho]
      · rw [calls_setCall, Call.finish, if_pos hlast]
      · rw [hn, Nat.add_sub_cancel, ← hn]
        exact hcur
      · rw [State.called, calls_setCall, Call.finish, if_pos hlast, ← hpl, ← hn]
        exact List.append_nil _
      · rw [rank, calls_setCall, Call.finish, if_pos hlast]
        exact Nat.sub_pos_of_lt (by omega)
    · have hlt : d + 1 < self.clients.length := Nat.lt_of_not_le hlast
      refine ⟨.select (d + 1) hlt hfail ?_ hcur hp, ?_⟩
      · rw [calls_setCall, Call.finish, if_neg hlast, hpl]
      · rw [rank, calls_setCall, Call.finish, if_neg hlast]
        change 2 * (self.clients.length - (d + 1)) < _
        omega
  · refine ⟨.completed (.ok d a ⟨⟨a, ho⟩, ?_⟩ ho ?_ hcur ?_), ?_⟩
    · rintro e he ⟨a', ha'⟩
      exact hb e he a' ha'
    · rw [calls_setCall, Call.finish]
    · rw [State.called, calls_setCall, Call.finish, hpl, ← hcur]
      rfl
    · rw [rank, calls_setCall, Call.finish]
      exact Nat.sub_pos_of_lt (by omega)

theorem At.step (h : At self outcome i s)
    (hn : ¬Completed self outcome i s) : ∃ s', (single self outcome i).step s () = some s' ∧
      At self outcome i s' ∧ rank self s' < rank self s := by
  rcases h with ⟨d, hd, hb, hcall, hcur, hp⟩ | ⟨d, client, hd, hb, hcall, hcur, hp⟩ | h
  · obtain ⟨client, s', hs, hcall', hcur', hp'⟩ := exists_select hcall hcur hp
    refine ⟨s', ?_, .operation d client hd hb hcall' hcur' hp', ?_⟩
    · simp only [single, hcall]
      exact hs
    · simp only [rank, hcall, hcall']
      omega
  · have hs : ∃ s', finish self 0 (outcome (place self.clients.length i d)) s = some s' := by
      rw [finish, hcall]
      exact ⟨_, rfl⟩
    obtain ⟨s', hs⟩ := hs
    obtain ⟨hat, hlt⟩ := at_finish hd hb hcall hcur hp hs
    refine ⟨s', ?_, hat, ?_⟩
    · simp only [single, hcall]
      exact hs
    · simpa only [rank, hcall] using hlt
  · exact absurd h hn

/-- A call that has ended takes no step. -/
theorem Completed.step_eq_none (h : Completed self outcome i s) :
    (single self outcome i).step s () = none := by
  rcases h with ⟨_, _, -, -, hpc, -, -⟩ | ⟨_, -, -, hpc, -, -⟩ <;> simp only [single, hpc]

/-- What is known of the call where it is: the index is in range, and the calls so far are on
    the first endpoints from there on, in order. -/
theorem At.called (h : At self outcome i s) :
    s.current < self.clients.length ∧
      s.called <+: places self.clients.length i self.clients.length := by
  have hlt : ∀ d, place self.clients.length i d < self.clients.length := fun _ =>
    place_lt self.length_pos
  rcases h with ⟨d, hd, -, hcall, hcur, -⟩ | ⟨d, client, hd, -, hcall, hcur, -⟩ |
    ⟨d, a, hf, -, -, hcur, hc⟩ | ⟨e, -, -, -, hcur, hc⟩
  · rw [State.called, hcall, List.append_nil]
    exact ⟨hcur ▸ hlt _, places_prefix (Nat.le_of_lt hd)⟩
  · rw [State.called, hcall, ← places_succ]
    exact ⟨hcur ▸ hlt _, places_prefix hd⟩
  · rw [hc]
    exact ⟨hcur ▸ hlt _, places_prefix (hf.lt self.length_pos)⟩
  · rw [hc]
    exact ⟨hcur ▸ hlt _, List.prefix_rfl⟩

/-- A single call ends at the first endpoint its operation succeeds on, if there is one, and
    otherwise fails with the error of the last one, after each of them has been tried once.
    The index stays in range all along. -/
theorem single_spec (self : MultiClient) (outcome : ℕ → Except RpcError α) (i : ℕ)
    (hi : i < self.clients.length) :
    (single self outcome i).Inevitably (Completed self outcome i) (single self outcome i).init ∧
      ∀ s, (single self outcome i).Reachable s → s.current < self.clients.length ∧
        s.called <+: places self.clients.length i self.clients.length ∧ s.called.Nodup := by
  constructor
  · refine Machine.Inevitably.of_rank (I := At self outcome i) (rank self) ?_ ?_ (.init hi)
    · intro s h hn
      obtain ⟨s', hst, -⟩ := h.step hn
      exact ⟨(), s', hst⟩
    · rintro s ⟨⟩ s' h hn hst
      obtain ⟨s'', hst', h', hlt⟩ := h.step hn
      cases hst.symm.trans hst'
      exact ⟨h', hlt⟩
  · intro s hs
    have hat : At self outcome i s := by
      refine hs.invariant (.init hi) ?_
      rintro s ⟨⟩ s' h hst
      by_cases hc : Completed self outcome i s
      · rw [hc.step_eq_none] at hst
        exact absurd hst nofun
      · obtain ⟨s'', hst', h', -⟩ := h.step hc
        cases hst.symm.trans hst'
        exact h'
    obtain ⟨hlt, hpre⟩ := hat.called
    exact ⟨hlt, hpre, hpre.sublist.nodup (nodup_places (Nat.le_refl _))⟩

/-- The first of two endpoints fails. -/
theorem single_spec_two :
    (single two (fun k => if k = 0 then failure else .ok ()) 0).Inevitably
      (Completed two (fun k => if k = 0 then failure else .ok ()) 0)
      (single two (fun k => if k = 0 then failure else .ok ()) 0).init ∧
    ∀ s, (single two (fun k => if k = 0 then failure else .ok ()) 0).Reachable s →
      s.current < 2 ∧ s.called <+: places 2 0 2 ∧ s.called.Nodup :=
  single_spec two _ 0 (by decide)

end Sylph.Solana.Failover
