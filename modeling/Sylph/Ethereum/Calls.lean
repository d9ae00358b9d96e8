import Sylph.Ethereum.Selection
import Sylph.Lib.Machine

/-!
# Calls and health checks

The calls that choose a client (`getHealthyClient`), made by the requests of the service at the
same time as each other, and as the health checks store what they find. What they share is read and
written atomically, but one thing after the other.

* `step`: the steps of the calls and of the checks.
* `returned_cases`: in whatever order they are taken, a call returns a client that has been healthy
  at some moment of the call, or the error that there is none, if each client has been unhealthy at
  some moment of it. It never panics.
* `count_call_le`: no call waits for another one, or for a check.
* `exec_alone`: a call that is not interrupted does what `getHealthyClient` does.
-/

namespace Sylph.Ethereum.Calls

open Lib Go

/-- A call; the clients are known by their indices. -/
inductive Call
  /-- The loop over the clients is at `i`. -/
  | loading (i : ℕ) (candidates : List ℕ)
  /-- The loop over the offsets is at `offset`. -/
  | scanning (candidates : List ℕ) (cur : ℤ) (offset : ℕ)
  /-- The index of a healthy client is to be stored. -/
  | storing (idx : ℤ)
  | returned (result : Result ℤ)

/-- The call has not returned. -/
def Call.running : Call → Bool
  | loading _ _ | scanning _ _ _ | storing _ => true
  | returned _ => false

/-- The clients, the shared index, and the calls in the order they have been started. -/
structure Pool where
  clients : List HealthyClient
  current : Int32
  calls : List Call

/-- What happens next. -/
inductive Label
  | start
  /-- The next step of the call `j`. -/
  | call (j : ℕ)
  /-- The check of the client `i` is over. -/
  | check (i : ℕ) (p : Probe)

/-- The next step of a call, and the shared index after it. -/
def Call.next (clients : List HealthyClient) (current : Int32) : Call → Option (Call × Int32)
  | loading i candidates =>
    match clients[i]? with
    | some hc =>
      some (loading (i + 1) (if hc.isHealthy then candidates ++ [i] else candidates), current)
    | none =>
      if candidates = [] then
        some (returned (.error (.err "no healthy clients available")), current)
      else some (scanning candidates current.toInt 0, current)
  | scanning candidates cur offset =>
    if offset < candidates.length then
      let idx := (cur + offset).tmod clients.length
      match index clients idx with
      | .error fault => some (returned (.error fault), current)
      | .ok hc =>
        some (if hc.isHealthy then storing idx else scanning candidates cur (offset + 1), current)
    else some (returned ((index candidates 0).map Int.ofNat), current)
  | storing idx => some (returned (.ok idx), .ofInt idx)
  | returned _ => none

/-- The steps of the calls and of the checks. -/
def step (s : Pool) : Label → Option Pool
  | .start => some { s with calls := s.calls ++ [.loading 0 []] }
  | .call j => s.calls[j]?.bind fun c => (c.next s.clients s.current).map fun (c, current) =>
    { s with current := current, calls := s.calls.set j c }
  | .check i p => s.clients[i]?.map fun hc => { s with clients := s.clients.set i (hc.check p) }

/-- The runs of the calls and checks, from a client that has just been made. -/
def machine (clients : List HealthyClient) : Machine Pool Label := ⟨⟨clients, 0, []⟩, step⟩

variable {clients : List HealthyClient} {s s' : Pool} {l : Label} {ls : List Label} {j : ℕ}
  {c : Call}

/-- The steps of a call, each with what it needs. -/
inductive Call.StepsTo (clients : List HealthyClient) (current : Int32) : Call → Call → Int32 → Prop
  | load {i : ℕ} {candidates : List ℕ} {hc : HealthyClient} (get : clients[i]? = some hc) :
    StepsTo clients current (.loading i candidates)
      (.loading (i + 1) (if hc.isHealthy then candidates ++ [i] else candidates)) current
  | unavailable {i : ℕ} (get : clients[i]? = none) :
    StepsTo clients current (.loading i [])
      (.returned (.error (.err "no healthy clients available"))) current
  | loaded {i : ℕ} {candidates : List ℕ} (get : clients[i]? = none) (some : candidates ≠ []) :
    StepsTo clients current (.loading i candidates) (.scanning candidates current.toInt 0) current
  | fault {candidates : List ℕ} {cur : ℤ} {offset : ℕ} {fault : Fault}
    (index : index clients ((cur + offset).tmod clients.length) = .error fault) :
    StepsTo clients current (.scanning candidates cur offset) (.returned (.error fault)) current
  | scan {candidates : List ℕ} {cur : ℤ} {offset : ℕ} {hc : HealthyClient}
    (lt : offset < candidates.length)
    (index : index clients ((cur + offset).tmod clients.length) = .ok hc) :
    StepsTo clients current (.scanning candidates cur offset)
      (if hc.isHealthy then .storing ((cur + offset).tmod clients.length)
        else .scanning candidates cur (offset + 1)) current
  | scanned {candidates : List ℕ} {cur : ℤ} {offset : ℕ} :
    StepsTo clients current (.scanning candidates cur offset)
      (.returned ((Go.index candidates 0).map Int.ofNat)) current
  | store {idx : ℤ} : StepsTo clients current (.storing idx) (.returned (.ok idx)) (.ofInt idx)

theorem Call.stepsTo_of_next {current current' : Int32} {c' : Call}
    (hn : c.next clients current = some (c', current')) :
    c.StepsTo clients current c' current' := by
  rcases c with ⟨i, candidates⟩ | ⟨candidates, cur, offset⟩ | idx | result
  · rcases hget : clients[i]? with _ | hc
    · rcases candidates with _ | ⟨first, rest⟩ <;> simp only [next, hget] at hn <;> cases hn
      · exact .unavailable hget
      · exact .loaded hget (List.cons_ne_nil first rest)
    · simp only [next, hget] at hn
      cases hn
      exact .load hget
  · rw [next] at hn
    by_cases hlt : offset < candidates.length
    · rw [if_pos hlt] at hn
      rcases hidx : index clients ((cur + offset).tmod clients.length) with fault | hc <;>
        simp only [hidx] at hn <;> cases hn
      · exact .fault hidx
      · exact .scan hlt hidx
    · rw [if_neg hlt] at hn
      cases hn
      exact .scanned
  · cases hn
    exact .store
  · cases hn

/-! ## Moments of a call -/

/-- At some moment of the call `j`, the clients have the property `P`. -/
def During (clients : List HealthyClient) (ls : List Label) (j : ℕ)
    (P : List HealthyClient → Prop) : Prop :=
  (machine clients).Once (fun s => (s.calls[j]?.any Call.running) = true ∧ P s.clients) ls

/-- A client has been healthy at some moment of the call. -/
def SeenHealthy (clients : List HealthyClient) (ls : List Label) (j i : ℕ) : Prop :=
  i < clients.length ∧ During clients ls j fun clients => HealthyAt clients i

/-- It has not been so at some moment of it. -/
def SeenUnhealthy (clients : List HealthyClient) (ls : List Label) (j i : ℕ) : Prop :=
  During clients ls j fun clients => ¬HealthyAt clients i

/-- What a call knows of the clients. -/
inductive Founded (clients : List HealthyClient) (ls : List Label) (j : ℕ) : Call → Prop
  | loading {i : ℕ} {candidates : List ℕ} (le : i ≤ clients.length)
    (healthy : ∀ k ∈ candidates, SeenHealthy clients ls j k)
    (unhealthy : ∀ k < i, k ∉ candidates → SeenUnhealthy clients ls j k) :
    Founded clients ls j (.loading i candidates)
  | scanning {candidates : List ℕ} {cur : ℤ} {offset : ℕ} (some : candidates ≠ [])
    (healthy : ∀ k ∈ candidates, SeenHealthy clients ls j k) (nonneg : 0 ≤ cur) :
    Founded clients ls j (.scanning candidates cur offset)
  | storing {i : ℕ} (healthy : SeenHealthy clients ls j i) : Founded clients ls j (.storing i)
  | found {i : ℕ} (healthy : SeenHealthy clients ls j i) :
    Founded clients ls j (.returned (.ok i))
  | none (unhealthy : ∀ k < clients.length, SeenUnhealthy clients ls j k) :
    Founded clients ls j (.returned (.error (.err "no healthy clients available")))

theorem SeenHealthy.concat {i : ℕ} (h : SeenHealthy clients ls j i) (l : Label) :
    SeenHealthy clients (ls ++ [l]) j i := ⟨h.1, h.2.concat l⟩

/-- What a call knows is not forgotten. -/
theorem Founded.concat (h : Founded clients ls j c) (l : Label) :
    Founded clients (ls ++ [l]) j c := by
  cases h with
  | loading hle hh hu =>
    exact .loading hle (fun k hk => (hh k hk).concat l) fun k hk hn => (hu k hk hn).concat l
  | scanning hne hh h₀ => exact .scanning hne (fun k hk => (hh k hk).concat l) h₀
  | storing hh => exact .storing (hh.concat l)
  | found hh => exact .found (hh.concat l)
  | none hu => exact .none fun k hk => (hu k hk).concat l

/-- There are always the same clients, the shared index is one of them, and each call is
    founded on what it has read. -/
structure Sound (clients : List HealthyClient) (ls : List Label) (s : Pool) : Prop where
  length : s.clients.length = clients.length
  nonneg : 0 ≤ s.current.toInt
  founded : ∀ j c, s.calls[j]? = some c → Founded clients ls j c

/-- What a running call reads, it has read at a moment of the call. -/
theorem During.now {P : List HealthyClient → Prop} (hr : (machine clients).Run ls s)
    (hc : s.calls[j]? = some c) (hrun : c.running = true) (hp : P s.clients) (l : Label) :
    During clients (ls ++ [l]) j P :=
  (hr.once ⟨by rw [hc]; exact hrun, hp⟩).concat l

/-- One step of the loop over the clients. -/
theorem Founded.load {i : ℕ} {candidates : List ℕ} {hc : HealthyClient}
    (hr : (machine clients).Run ls s) (hlen : s.clients.length = clients.length)
    (hj : s.calls[j]? = some (.loading i candidates)) (hget : s.clients[i]? = some hc)
    (hf : Founded clients (ls ++ [l]) j (.loading i candidates)) :
    Founded clients (ls ++ [l]) j
      (.loading (i + 1) (if hc.isHealthy then candidates ++ [i] else candidates)) := by
  have hi : i < clients.length := hlen ▸ (List.getElem?_eq_some_iff.1 hget).1
  cases hf with
  | loading hle hh hu =>
    by_cases hhc : hc.isHealthy = true
    · rw [if_pos hhc]
      refine .loading hi (fun k hk => ?_) fun k hk hn => ?_
      · rcases List.mem_append.1 hk with hk | hk
        · exact hh k hk
        · obtain rfl := List.mem_singleton.1 hk
          exact ⟨hi, .now hr hj rfl ((healthyAt_iff hget).2 hhc) l⟩
      · rw [List.mem_append, List.mem_singleton, not_or] at hn
        exact hu k (Nat.lt_of_le_of_ne (Nat.le_of_lt_succ hk) hn.2) hn.1
    · rw [if_neg hhc]
      refine .loading hi hh fun k hk hn => ?_
      rcases Nat.lt_succ_iff_lt_or_eq.1 hk with hk | rfl
      · exact hu k hk hn
      · exact .now hr hj rfl ((healthyAt_iff hget).not.2 hhc) l

/-- One step of the loop over the offsets. -/
theorem Founded.scan {candidates : List ℕ} {cur : ℤ} {offset : ℕ}
    (hr : (machine clients).Run ls s) (hlen : s.clients.length = clients.length)
    (hj : s.calls[j]? = some (.scanning candidates cur offset))
    (hf : Founded clients (ls ++ [l]) j (.scanning candidates cur offset)) :
    ∃ hc, index s.clients ((cur + offset).tmod s.clients.length) = .ok hc ∧
      Founded clients (ls ++ [l]) j
        (if hc.isHealthy then .storing ((cur + offset).tmod s.clients.length)
        else .scanning candidates cur (offset + 1)) := by
  cases hf with
  | scanning hne hh h₀ =>
    obtain ⟨k, hk⟩ := List.exists_mem_of_ne_nil _ hne
    have hpos : 0 < s.clients.length := hlen ▸ Nat.zero_lt_of_lt (hh k hk).1
    obtain ⟨m, rfl⟩ := Int.eq_ofNat_of_zero_le h₀
    have hidx : ((m : ℤ) + offset).tmod s.clients.length = ↑((m + offset) % s.clients.length) := rfl
    have hlt : (m + offset) % s.clients.length < s.clients.length := Nat.mod_lt _ hpos
    have hget := List.getElem?_eq_getElem hlt
    refine ⟨_, by rw [hidx]; exact index_natCast hget, ?_⟩
    rw [hidx]
    split
    next hhc =>
      exact .storing ⟨hlen ▸ hlt, .now hr hj rfl ((healthyAt_iff hget).2 hhc) l⟩
    next => exact .scanning hne hh h₀

/-- One step of a call. -/
theorem Founded.next {current' : Int32} {c' : Call} (hfit : clients.length ≤ 2 ^ 31)
    (hr : (machine clients).Run ls s) (hs : Sound clients ls s) (hj : s.calls[j]? = some c)
    (hst : c.StepsTo s.clients s.current c' current') :
    Founded clients (ls ++ [.call j]) j c' ∧ 0 ≤ current'.toInt := by
  have hf := (hs.founded j c hj).concat (.call j)
  have hle : ∀ {i : ℕ}, s.clients[i]? = Option.none → clients.length ≤ i := fun hget =>
    hs.length ▸ List.getElem?_eq_none_iff.1 hget
  cases hst with
  | load hget => exact ⟨hf.load hr hs.length hj hget, hs.nonneg⟩
  | unavailable hget =>
    cases hf with
    | loading _ hh hu =>
      exact ⟨.none fun k hk => hu k (Nat.lt_of_lt_of_le hk (hle hget)) List.not_mem_nil, hs.nonneg⟩
  | loaded hget hne =>
    cases hf with
    | loading _ hh hu => exact ⟨.scanning hne hh hs.nonneg, hs.nonneg⟩
  | fault hidx =>
    obtain ⟨hc, hok, -⟩ := hf.scan hr hs.length hj
    rw [hok] at hidx
    cases hidx
  | scan _ hidx =>
    obtain ⟨hc, hok, hf'⟩ := hf.scan hr hs.length hj
    rw [hok] at hidx
    cases hidx
    exact ⟨hf', hs.nonneg⟩
  | scanned =>
    cases hf with
    | scanning hne hh =>
      obtain ⟨k, candidates, rfl⟩ := List.exists_cons_of_ne_nil hne
      exact ⟨.found (hh k List.mem_cons_self), hs.nonneg⟩
  | store =>
    cases hf with
    | @storing i hh =>
      refine ⟨.found hh, ?_⟩
      have := hh.1
      rw [Int32.toInt_ofInt_of_le (by omega) (by omega)]
      exact Int.natCast_nonneg i

theorem Sound.step (hfit : clients.length ≤ 2 ^ 31) (hr : (machine clients).Run ls s)
    (hs : Sound clients ls s) (hst : step s l = some s') : Sound clients (ls ++ [l]) s' := by
  cases l with
  | start =>
    obtain rfl := Option.some_inj.1 hst
    refine ⟨hs.length, hs.nonneg, fun j c hj => ?_⟩
    rw [List.getElem?_append] at hj
    split at hj
    next => exact (hs.founded j c hj).concat .start
    next =>
      obtain rfl := List.mem_singleton.1 (List.mem_of_getElem? hj)
      exact .loading (Nat.zero_le _) (List.forall_mem_nil _) fun k hk =>
        absurd hk (Nat.not_lt_zero k)
  | call j =>
    obtain ⟨c, hj, hst⟩ := Option.bind_eq_some_iff.1 hst
    obtain ⟨⟨c', current'⟩, hn, rfl⟩ := Option.map_eq_some_iff.1 hst
    obtain ⟨hf, h₀⟩ := Founded.next hfit hr hs hj (Call.stepsTo_of_next hn)
    refine ⟨hs.length, h₀, fun k d hk => ?_⟩
    rw [List.getElem?_set] at hk
    split at hk
    next he =>
      split at hk
      · obtain rfl := Option.some_inj.1 hk
        exact he ▸ hf
      · cases hk
    next => exact (hs.founded k d hk).concat _
  | check i p =>
    obtain ⟨hc, -, rfl⟩ := Option.map_eq_some_iff.1 hst
    exact ⟨List.length_set.trans hs.length, hs.nonneg, fun j c hj => (hs.founded j c hj).concat _⟩

theorem sound_of_run (hfit : clients.length ≤ 2 ^ 31) (h : (machine clients).Run ls s) :
    Sound clients ls s := by
  refine h.invariant (P := Sound clients) ?_ fun _ _ _ _ hr hs hst => hs.step hfit hr hst
  exact ⟨rfl, Int.le_refl 0, nofun⟩

/-- A call has returned a client that has been healthy at some moment of the call, or the error
    that there is none, and each client has been unhealthy at some moment of it. -/
theorem returned_cases (clients : List HealthyClient) (ls : List Label) (s : Pool) (j : ℕ)
    (result : Result ℤ) (hfit : clients.length ≤ 2 ^ 31) (h : (machine clients).Run ls s)
    (hj : s.calls[j]? = some (.returned result)) :
    (∃ i : ℕ, result = .ok ↑i ∧ SeenHealthy clients ls j i) ∨
      (result = .error (.err "no healthy clients available") ∧
        ∀ i < clients.length, SeenUnhealthy clients ls j i) := by
  cases (sound_of_run hfit h).founded j _ hj with
  | found hh => exact Or.inl ⟨_, rfl, hh⟩
  | none hu => exact Or.inr ⟨rfl, hu⟩

/-- Two clients, of which the second one is healthy at first. -/
def twoClients : List HealthyClient := [clientAt "http://a" false, clientAt "http://b" true]

/-- Two calls at the same time, and a third one after the checks of both clients have failed. -/
def threeCalls : List Label :=
  [.start, .start, .call 0, .call 1, .check 0 ⟨none, 20, 0⟩, .call 0, .call 1,
    .check 1 ⟨some "timeout", 5000, 30⟩, .call 0, .call 0, .call 1, .call 1,
    .check 0 ⟨some "timeout", 5000, 60⟩, .call 1, .call 0, .start, .call 2, .call 2, .call 2]

/-- The first two calls return the first client, and the third one none. -/
theorem returned_cases_threeCalls : ∃ s, (machine twoClients).Run threeCalls s ∧
    SeenHealthy twoClients threeCalls 0 0 ∧ SeenHealthy twoClients threeCalls 1 0 ∧
      ∀ i < 2, SeenUnhealthy twoClients threeCalls 2 i := by
  obtain ⟨s, he, h₀, h₁, h₂⟩ : ∃ s, (machine twoClients).exec threeCalls = some s ∧
      s.calls[0]? = some (.returned (.ok 0)) ∧ s.calls[1]? = some (.returned (.ok 0)) ∧
      s.calls[2]? = some (.returned (.error (.err "no healthy clients available"))) :=
    ⟨_, rfl, rfl, rfl, rfl⟩
  have hrun := Machine.run_of_exec he
  have hcases := fun j result => returned_cases twoClients threeCalls s j result (by decide) hrun
  have hfound : ∀ j, s.calls[j]? = some (.returned (.ok 0)) →
      SeenHealthy twoClients threeCalls j 0 := by
    intro j hj
    rcases hcases j _ hj with ⟨i, hi, hseen⟩ | ⟨hi, -⟩
    · obtain rfl : i = 0 := (Int.ofNat.inj (Except.ok.inj hi)).symm
      exact hseen
    · cases hi
  refine ⟨s, hrun, hfound 0 h₀, hfound 1 h₁, ?_⟩
  rcases hcases 2 _ h₂ with ⟨i, hi, -⟩ | ⟨-, hseen⟩
  · cases hi
  · exact hseen

/-! ## Steps of a call -/

/-- A step of the call `j`. -/
def Label.isCall (j : ℕ) : Label → Bool
  | call k => k = j
  | start | check _ _ => false

/-- How many steps a call takes at most until it returns, among `n` clients. -/
def Call.rank (n : ℕ) : Call → ℕ
  | loading i candidates => (n - i) + (n - i) + candidates.length + 3
  | scanning candidates _ offset => candidates.length - offset + 2
  | storing _ => 1
  | returned _ => 0

/-- Each step of a call brings it closer to its return. -/
theorem Call.rank_lt_of_stepsTo {current current' : Int32} {c' : Call}
    (hst : c.StepsTo clients current c' current') :
    c'.rank clients.length < c.rank clients.length := by
  cases hst with
  | load hget =>
    have hi := (List.getElem?_eq_some_iff.1 hget).1
    simp only [rank]
    split
    · rw [List.length_append, List.length_singleton]
      omega
    · omega
  | unavailable | fault | scanned => exact Nat.succ_pos _
  | loaded =>
    simp only [rank]
    omega
  | scan =>
    split <;> simp only [rank] <;> omega
  | store => exact Nat.one_pos


/-- A call that has not returned can take its next step. -/
theorem Call.exists_next (clients : List HealthyClient) (current : Int32)
    (h : c.running = true) : ∃ x, c.next clients current = some x := by
  cases c with
  | loading i candidates =>
    rw [Call.next]
    split
    · exact ⟨_, rfl⟩
    · split <;> exact ⟨_, rfl⟩
  | scanning candidates cur offset =>
    rw [Call.next]
    split
    · dsimp only
      split <;> exact ⟨_, rfl⟩
    · exact ⟨_, rfl⟩
  | storing idx => exact ⟨_, rfl⟩
  | returned result => cases h

/-- The steps that a call has taken, and those that it may take yet. -/
structure Paced (n : ℕ) (ls : List Label) (s : Pool) : Prop where
  length : s.clients.length = n
  unstarted : ∀ j, s.calls[j]? = none → ls.countP (Label.isCall j) = 0
  started : ∀ j c, s.calls[j]? = some c → ls.countP (Label.isCall j) + c.rank n ≤ 2 * n + 3

theorem countP_concat (ls : List Label) (l : Label) :
    (ls ++ [l]).countP (Label.isCall j) =
      ls.countP (Label.isCall j) + if l.isCall j then 1 else 0 := by
  rw [List.countP_append, List.countP_singleton]

theorem Paced.step {n : ℕ} (h : Paced n ls s) (hst : Calls.step s l = some s') :
    Paced n (ls ++ [l]) s' := by
  cases l with
  | start =>
    obtain rfl := Option.some_inj.1 hst
    have hcount : ∀ j, (ls ++ [Label.start]).countP (Label.isCall j) =
      ls.countP (Label.isCall j) := fun j => countP_concat ls _
    refine ⟨h.length, fun j hj => ?_, fun j c hj => ?_⟩
    · rw [hcount]
      refine h.unstarted j (List.getElem?_eq_none_iff.2 ?_)
      have := List.getElem?_eq_none_iff.1 hj
      rw [List.length_append] at this
      omega
    · rw [hcount]
      rw [List.getElem?_append] at hj
      split at hj
      next => exact h.started j c hj
      next hlt =>
        obtain rfl := List.mem_singleton.1 (List.mem_of_getElem? hj)
        rw [h.unstarted j (List.getElem?_eq_none_iff.2 (Nat.not_lt.1 hlt)), Call.rank]
        simp only [List.length_nil]
        omega
  | call i =>
    obtain ⟨c, hi, hst⟩ := Option.bind_eq_some_iff.1 hst
    obtain ⟨⟨c', current'⟩, hn, rfl⟩ := Option.map_eq_some_iff.1 hst
    have hlt := Call.rank_lt_of_stepsTo (Call.stepsTo_of_next hn)
    rw [h.length] at hlt
    refine ⟨h.length, fun j hj => ?_, fun j d hj => ?_⟩
    · have hne : i ≠ j := by
        rintro rfl
        rw [List.getElem?_eq_none_iff, List.length_set, ← List.getElem?_eq_none_iff, hi] at hj
        cases hj
      rw [List.getElem?_set_ne hne] at hj
      rw [countP_concat, h.unstarted j hj]
      simp [Label.isCall, hne]
    · rw [countP_concat]
      by_cases hij : i = j
      · subst hij
        have hlen := (List.getElem?_eq_some_iff.1 hi).1
        rw [List.getElem?_set_self hlen] at hj
        obtain rfl := Option.some_inj.1 hj
        have := h.started i c hi
        simp only [Label.isCall, decide_true, if_true]
        omega
      · rw [List.getElem?_set_ne hij] at hj
        have := h.started j d hj
        simp only [Label.isCall, hij, decide_false, Bool.false_eq_true, if_false]
        omega
  | check i p =>
    obtain ⟨hc, -, rfl⟩ := Option.map_eq_some_iff.1 hst
    have hcount : ∀ j, (ls ++ [Label.check i p]).countP (Label.isCall j) =
      ls.countP (Label.isCall j) := fun j => countP_concat ls _
    exact ⟨List.length_set.trans h.length, fun j hj => (hcount j).trans (h.unstarted j hj),
      fun j c hj => hcount j ▸ h.started j c hj⟩

/-- A call takes a bounded number of steps, and the next one of them is always possible, whatever
    the other calls and the checks do. -/
theorem count_call_le (clients : List HealthyClient) (ls : List Label) (s : Pool) (j : ℕ)
    (h : (machine clients).Run ls s) : ls.countP (Label.isCall j) ≤ 2 * clients.length + 3 ∧
      ∀ c, s.calls[j]? = some c → c.running = true → ∃ s', step s (.call j) = some s' := by
  have hp : Paced clients.length ls s := by
    refine h.invariant (P := Paced clients.length) ?_ fun _ _ _ _ _ hp hst => hp.step hst
    exact ⟨rfl, fun _ _ => rfl, nofun⟩
  constructor
  · rcases hj : s.calls[j]? with _ | c
    · exact (hp.unstarted j hj).trans_le (Nat.zero_le _)
    · exact (Nat.le_add_right _ _).trans (hp.started j c hj)
  · intro c hj hrun
    obtain ⟨x, hx⟩ := Call.exists_next s.clients s.current hrun
    exact ⟨_, by rw [step, hj, Option.bind_some, hx]; rfl⟩

/-- Each call among two clients takes at most seven steps. The first one goes on after the check of
    the second client has failed. -/
theorem count_call_le_threeCalls :
    (threeCalls.countP (Label.isCall 0) ≤ 2 * 2 + 3 ∧
      threeCalls.countP (Label.isCall 1) ≤ 2 * 2 + 3 ∧
      threeCalls.countP (Label.isCall 2) ≤ 2 * 2 + 3) ∧
    ∃ s, (machine twoClients).exec (threeCalls.take 8) = some s ∧
      ∃ s', step s (.call 0) = some s' := by
  obtain ⟨s, he⟩ : ∃ s, (machine twoClients).exec threeCalls = some s := ⟨_, rfl⟩
  have hle := fun j => (count_call_le twoClients threeCalls s j (Machine.run_of_exec he)).1
  obtain ⟨s₀, c, he₀, hj, hrun⟩ : ∃ s₀ c, (machine twoClients).exec (threeCalls.take 8) = some s₀ ∧
      s₀.calls[0]? = some c ∧ c.running = true := ⟨_, _, rfl, rfl, rfl⟩
  exact ⟨⟨hle 0, hle 1, hle 2⟩, s₀, he₀,
    (count_call_le twoClients _ s₀ 0 (Machine.run_of_exec he₀)).2 c hj hrun⟩

/-! ## A call that is not interrupted -/

/-- One step of a call, with the shared index. -/
def Next (clients : List HealthyClient) (x y : Call × Int32) : Prop :=
  x.1.next clients x.2 = some y

/-- The steps of a call are steps of the pool. -/
theorem exists_exec {x y : Call × Int32} (h : Relation.ReflTransGen (Next clients) x y)
    {calls : List Call} (hj : calls[j]? = some x.1) : ∃ k,
      (⟨⟨clients, x.2, calls⟩, step⟩ : Machine Pool Label).exec (List.replicate k (.call j)) =
        some ⟨clients, y.2, calls.set j y.1⟩ := by
  induction h using Relation.ReflTransGen.head_induction_on generalizing calls with
  | refl =>
    obtain ⟨hlen, hget⟩ := List.getElem?_eq_some_iff.1 hj
    refine ⟨0, ?_⟩
    rw [← hget, List.set_getElem_self]
    rfl
  | @head x z hxz _ ih =>
    have hlen := (List.getElem?_eq_some_iff.1 hj).1
    obtain ⟨k, hk⟩ := ih (List.getElem?_set_self (a := z.1) hlen)
    refine ⟨k + 1, ?_⟩
    have hst : step ⟨clients, x.2, calls⟩ (.call j) = some ⟨clients, z.2, calls.set j z.1⟩ := by
      rw [Next] at hxz
      rw [step, hj, Option.bind_some, hxz]
      rfl
    rw [List.set_set] at hk
    exact (congrArg (· >>= _) hst).trans hk

theorem candidates_concat (clients : List HealthyClient) (hc : HealthyClient) :
    candidates (clients ++ [hc]) =
      if hc.isHealthy then candidates clients ++ [clients.length] else candidates clients := by
  rw [candidates, List.zipIdx_append, List.filter_append, List.map_append, ← candidates]
  cases hh : hc.isHealthy <;> simp [hh]

/-- The loop over the clients collects the candidates. -/
theorem reflTransGen_loading (current : Int32) {i : ℕ} (hi : i ≤ clients.length) :
    Relation.ReflTransGen (Next clients) (.loading 0 [], current)
      (.loading i (candidates (clients.take i)), current) := by
  induction i with
  | zero => exact .refl
  | succ i ih =>
    have hget := List.getElem?_eq_getElem hi
    refine (ih (Nat.le_of_succ_le hi)).tail ?_
    rw [Next, Call.next, hget, List.take_add_one, hget, Option.toList_some, candidates_concat,
      List.length_take, Nat.min_eq_left (Nat.le_of_succ_le hi)]

/-- The loop over the offsets does what `scan` does. -/
theorem reflTransGen_scanning (clients : List HealthyClient) (candidates : List ℕ) (cur : ℤ)
    (current : Int32) {offset k : ℕ} (hk : offset + k = candidates.length) :
    ∃ result current', Relation.ReflTransGen (Next clients)
      (.scanning candidates cur offset, current) (.returned result, current') ∧
      match scan clients cur (List.range' offset k) with
      | .ok (some (idx, hc)) =>
        result = .ok idx ∧ index clients idx = .ok hc ∧ current' = .ofInt idx
      | .ok none => result = (index candidates 0).map Int.ofNat ∧ current' = current
      | .error fault => result = .error fault ∧ current' = current := by
  induction k generalizing offset with
  | zero =>
    refine ⟨_, _, .single ?_, rfl, rfl⟩
    rw [Next, Call.next, if_neg (by omega)]
  | succ k ih =>
    have hlt : offset < candidates.length := by omega
    rw [List.range'_succ, scan]
    rcases hidx : index clients ((cur + offset).tmod clients.length) with fault | hc
    · refine ⟨.error fault, current, .single ?_, rfl, rfl⟩
      simp only [Next, Call.next, if_pos hlt, hidx]
    · by_cases hh : hc.isHealthy = true
      · have hstore : Next clients (.scanning candidates cur offset, current)
            (.storing ((cur + offset).tmod clients.length), current) := by
          simp only [Next, Call.next, if_pos hlt, hidx, if_pos hh]
        refine ⟨.ok ((cur + offset).tmod clients.length), _, .head hstore (.single rfl), ?_⟩
        simp only [bind, Except.bind, if_pos hh]
        exact ⟨rfl, hidx, rfl⟩
      · obtain ⟨result, current', hsteps, hres⟩ := @ih (offset + 1) (by omega)
        have hnext : Next clients (.scanning candidates cur offset, current)
            (.scanning candidates cur (offset + 1), current) := by
          simp only [Next, Call.next, if_pos hlt, hidx, if_neg hh]
        refine ⟨result, current', .head hnext hsteps, ?_⟩
        simpa only [bind, Except.bind, if_neg hh] using hres

/-- A call that is not interrupted comes to what `getHealthyClient` comes to, and leaves the shared
    index where this does. -/
theorem exec_alone (clients : List HealthyClient) (current : Int32) (calls : List Call) (j : ℕ)
    (hj : calls[j]? = some (.loading 0 [])) : ∃ k result,
      (⟨⟨clients, current, calls⟩, step⟩ : Machine Pool Label).exec
        (List.replicate k (.call j)) =
          some ⟨clients, (getHealthyClient clients current).2, calls.set j (.returned result)⟩ ∧
      result.bind (index clients) = (getHealthyClient clients current).1 := by
  have hload := reflTransGen_loading current (Nat.le_refl clients.length)
  rw [List.take_length] at hload
  have hend : clients[clients.length]? = none := List.getElem?_eq_none (Nat.le_refl _)
  suffices hs : ∃ result, Relation.ReflTransGen (Next clients) (.loading 0 [], current)
      (.returned result, (getHealthyClient clients current).2) ∧
        result.bind (index clients) = (getHealthyClient clients current).1 by
    obtain ⟨result, hsteps, he⟩ := hs
    obtain ⟨k, hk⟩ := exists_exec hsteps hj
    exact ⟨k, result, hk, he⟩
  rcases hcand : candidates clients with _ | ⟨first, rest⟩
  · rw [hcand] at hload
    have hnone : Next clients (.loading clients.length [], current)
        (.returned (.error (.err "no healthy clients available")), current) := by
      simp only [Next, Call.next, hend, if_true]
    simp only [getHealthyClient, hcand]
    exact ⟨_, hload.tail hnone, rfl⟩
  · rw [hcand] at hload
    have hscan : Next clients (.loading clients.length (first :: rest), current)
        (.scanning (first :: rest) current.toInt 0, current) := by
      simp only [Next, Call.next, hend, reduceCtorEq, if_false]
    obtain ⟨result, current', hsteps, hres⟩ :=
      reflTransGen_scanning clients (first :: rest) current.toInt current (Nat.zero_add _)
    rw [← List.range_eq_range'] at hres
    have hall := (hload.tail hscan).trans hsteps
    rcases hs : scan clients current.toInt (List.range (first :: rest).length) with
      fault | ⟨_ | ⟨idx, hc⟩⟩
    · rw [hs] at hres
      obtain ⟨rfl, rfl⟩ := hres
      simp only [getHealthyClient, hcand, hs]
      exact ⟨_, hall, rfl⟩
    · rw [hs] at hres
      obtain ⟨rfl, rfl⟩ := hres
      simp only [getHealthyClient, hcand, hs]
      exact ⟨_, hall, rfl⟩
    · rw [hs] at hres
      obtain ⟨rfl, hidx, rfl⟩ := hres
      simp only [getHealthyClient, hcand, hs]
      exact ⟨_, hall, hidx⟩

theorem exec_alone_fourClients : ∃ k result,
    (⟨⟨fourClients, 1, [.loading 0 []]⟩, step⟩ : Machine Pool Label).exec
      (List.replicate k (.call 0)) =
        some ⟨fourClients, (getHealthyClient fourClients 1).2,
          [Call.loading 0 []].set 0 (.returned result)⟩ ∧
    result.bind (index fourClients) = (getHealthyClient fourClients 1).1 :=
  exec_alone fourClients 1 [.loading 0 []] 0 rfl

end Sylph.Ethereum.Calls
