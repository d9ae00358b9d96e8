import Sylph.Sync.ChainState

/-!
# Latest and safe blocks

What becomes of the latest and the safe blocks of the chains.

* `handle_cases`: what a message does. A status is never stored, as its changeset lacks
  the earliest block; the blocks of Ethereum are never found, as they are looked up by a
  field their schema does not have; so only Solana is ever reorganised, and only a
  processed block changes a latest one.
* `inStep_iff`: no update is accepted and in step with the table.
* `detectsReorg_iff`: a reorganisation is detected exactly, and lasts, on Solana, as long
  as nobody asks for one of Ethereum.
* `wellFormed_iff`: the safe block stays between 0 and the latest one as long as the block
  0 of Solana is not reorganised.
-/

namespace Sylph.Sync.ChainState

open Lib Elixir Ecto Schema

/-! ## What a message does -/

/-- The hash of the block stored for a chain under a number. -/
def storedHash (env : Env) (number : ℤ) : Chain → Option String
  | .ethereum => (env.ethereumBlocks.find number).map EthereumBlock.hash
  | .solana => (env.solanaBlocks.find number).map SolanaBlock.blockhash

/-- A block is stored for the chain under the number, with another hash. -/
def Differs (env : Env) (chain : Chain) (number : ℤ) (hash : String) : Prop :=
  ∃ stored, storedHash env number chain = some stored ∧ stored ≠ hash

/-- No update is stored: its parameters lack the earliest block. -/
theorem updateChainStatus_eq (env : Env) (chain : Chain) (params : Params) (s : State)
    (t : ChainSyncStatus.Rows) : updateChainStatus env chain params s t =
      (.reply (.updated (.error "invalid_status_update")) s [], t) := by
  have hc : (ChainSyncStatus.changeset {} (updateAttrs chain params)).errors ≠ [] :=
    ChainSyncStatus.errors_changeset_ne_nil rfl rfl
  have h : Repo.insertOrUpdate (ChainSyncStatus.schema env.now)
      (ChainSyncStatus.changeset {} (updateAttrs chain params)) t = _ :=
    Repo.insert_of_invalid (ChainSyncStatus.schema env.now) t hc
  rw [updateChainStatus, h]
  rfl

/-- The blocks of Ethereum cannot be looked up: their schema has no field `number`. -/
theorem detectChainReorg_ethereum (env : Env) (number : ℤ) (hash : String) (s : State) :
    detectChainReorg env .ethereum number hash s =
      .raise (.exception "Elixir.Ecto.QueryError") [] := by
  rw [detectChainReorg, getStoredBlockHash, Repo.getBy_of_lookup_none rfl]
  rfl

theorem getStoredBlockHash_solana (env : Env) (number : ℤ) :
    getStoredBlockHash env .solana number = .ok (storedHash env number .solana) := by
  rw [getStoredBlockHash, Repo.getBy_key SolanaBlock.slot rfl]
  rfl

theorem detectChainReorg_of_differs {env : Env} {number : ℤ} {hash : String}
    (h : Differs env .solana number hash) (s : State) :
    detectChainReorg env .solana number hash s =
      handleReorgDetected env .solana number hash s := by
  obtain ⟨stored, hs, hn⟩ := h
  rw [detectChainReorg, getStoredBlockHash_solana, hs]
  exact if_neg hn

theorem detectChainReorg_of_not_differs {env : Env} {number : ℤ} {hash : String}
    (h : ¬Differs env .solana number hash) (s : State) :
    detectChainReorg env .solana number hash s = .reply (.reorg false) s [] := by
  rw [detectChainReorg, getStoredBlockHash_solana]
  rcases hs : storedHash env number .solana with _ | stored
  · rfl
  · exact if_pos (not_not.1 fun hn => h ⟨stored, hs, hn⟩)

/-- What a message does, to the state `s`: it changes nothing, moves a latest block up or
    the safe block of Solana below a block that differs, or raises an error, if it asks for
    a block of Ethereum. -/
inductive Effected (env : Env) (s : State) : Msg → Option State → Prop
  | nothing {msg : Msg} (h : ∀ n hash, msg = .detectReorg .solana n hash →
      ¬Differs env .solana n hash) (he : ∀ n hash, msg ≠ .detectReorg .ethereum n hash) :
      Effected env s msg (some s)
  | latest {chain : Chain} {n : ℤ} {hash : String} : (s chain).latestBlock < n →
      Effected env s (.markProcessed chain n hash)
        (some (Function.update s chain { s chain with latestBlock := n, lastUpdate := env.now }))
  | safe {n : ℤ} {hash : String} : Differs env .solana n hash →
      Effected env s (.detectReorg .solana n hash) (some (Function.update s .solana
        { s .solana with safeBlock := min (s .solana).safeBlock (n - 1) }))
  | raised {n : ℤ} {hash : String} : Effected env s (.detectReorg .ethereum n hash) none

/-- The table is left alone, and the state is changed as a message may. -/
theorem handle_cases (env : Env) (msg : Msg) (s : State) (t : ChainSyncStatus.Rows) :
    (handle env msg s t).2 = t ∧ Effected env s msg (handle env msg s t).1.next := by
  rcases msg with chain | ⟨chain, params⟩ | ⟨_ | _, n, hash⟩ | ⟨chain, n, hash⟩
  · exact ⟨rfl, .nothing (fun _ _ h => by cases h) (fun _ _ h => by cases h)⟩
  · rw [handle, updateChainStatus_eq]
    exact ⟨rfl, .nothing (fun _ _ h => by cases h) (fun _ _ h => by cases h)⟩
  · rw [handle, detectChainReorg_ethereum]
    exact ⟨rfl, .raised⟩
  · by_cases h : Differs env .solana n hash
    · rw [handle, detectChainReorg_of_differs h]
      exact ⟨rfl, .safe h⟩
    · rw [handle, detectChainReorg_of_not_differs h]
      exact ⟨rfl, .nothing (fun _ _ he => by cases he; exact h) (fun _ _ h => by cases h)⟩
  · refine ⟨rfl, ?_⟩
    rw [handle, doMarkProcessed]
    by_cases h : n > (s chain).latestBlock
    · rw [if_pos h]
      exact .latest h
    · rw [if_neg h]
      exact .nothing (fun _ _ h => by cases h) (fun _ _ h => by cases h)

/-! ## Updates -/

/-- What the process keeps for a chain is what the table holds for it. -/
def Agrees (chain : Chain) (s : System) : Prop :=
  ∃ row, s.statuses.find chain.atom.name = some row ∧
    (s.state chain).latestBlock = row.latestBlockNumber ∧
    (s.state chain).safeBlock = row.safeBlockNumber ∧
    (s.state chain).status.name = row.syncStatus

/-- The updates of a list are all accepted, and after each one the process agrees with the
    table. -/
def InStep (chain : Chain) : System → List (Env × Params) → Prop
  | _, [] => True
  | s, (env, params) :: ls => ∃ s' out,
      handle env (.updateStatus chain params) s.state s.statuses =
        (.reply (.updated (.ok ())) s'.state out, s'.statuses) ∧
      Agrees chain s' ∧ InStep chain s' ls

/-- No update is accepted: those of a list are in step iff there are none. -/
theorem inStep_iff (chain : Chain) (s : System) (ls : List (Env × Params)) :
    InStep chain s ls ↔ ls = [] := by
  rcases ls with _ | ⟨⟨env, params⟩, ls⟩
  · exact ⟨fun _ => rfl, fun _ => trivial⟩
  · refine ⟨?_, fun h => absurd h (List.cons_ne_nil _ _)⟩
    rintro ⟨s', out, h, -⟩
    rw [handle, updateChainStatus_eq] at h
    cases h

/-- An environment without stored blocks. -/
def emptyEnv : Env := ⟨0, 0, .empty, .empty⟩

/-- The process started with an empty table. -/
def emptySystem : System := ⟨init 0 .empty, .empty⟩

theorem not_inStep :
    ¬InStep .ethereum emptySystem [(emptyEnv, ⟨10, "0xab", 5, "syncing"⟩)] ∧
      (handle emptyEnv (.updateStatus .ethereum ⟨10, "0xab", 5, "syncing"⟩) emptySystem.state
        emptySystem.statuses).1.answer = some (.updated (.error "invalid_status_update")) := by
  refine ⟨fun h => ?_, by rw [handle, updateChainStatus_eq]; rfl⟩
  obtain ⟨s', out, h, -⟩ := h
  rw [handle, updateChainStatus_eq] at h
  cases h

/-! ## Reorganisations -/

/-- A message that is not an update. -/
inductive Call
  | detectReorg (chain : Chain) (number : ℤ) (hash : String)
  | markProcessed (chain : Chain) (number : ℤ) (hash : String)

/-- The message of a call. -/
def Call.msg : Call → Msg
  | detectReorg chain number hash => .detectReorg chain number hash
  | markProcessed chain number hash => .markProcessed chain number hash

/-- The call does not ask for a block of Ethereum. -/
def Call.Found (c : Call) : Prop := ∀ n hash, c ≠ .detectReorg .ethereum n hash

/-- The process after the calls of a list. -/
def handleCalls (s : System) (ls : List (Env × Call)) : Option System :=
  handleAll s (ls.map fun l => (l.1, l.2.msg))

/-- What `detect_reorg` promises, at a block of a chain and before the calls of a list: it
    says whether a stored block differs, changes nothing if not, and if so, the chain is
    safe below the block only, throughout the calls, which do not end the process. -/
def DetectsReorg (env : Env) (chain : Chain) (number : ℤ) (hash : String) (s : System)
    (ls : List (Env × Call)) : Prop :=
  ∃ detected s' out, handle env (.detectReorg chain number hash) s.state s.statuses =
      (.reply (.reorg detected) s'.state out, s'.statuses) ∧
    (detected = true ↔ Differs env chain number hash) ∧
    (detected = false → s'.state = s.state) ∧
    (handleCalls s' ls).isSome ∧
    (detected = true → ∀ ks ks' s'', ls = ks ++ ks' → handleCalls s' ks = some s'' →
      (s''.state chain).safeBlock ≤ number - 1)

theorem handleCalls_concat (s : System) (ls : List (Env × Call)) (l : Env × Call) :
    handleCalls s (ls ++ [l]) = (handleCalls s ls).bind fun s =>
      (handle l.1 l.2.msg s.state s.statuses).1.next.map fun state =>
        ⟨state, (handle l.1 l.2.msg s.state s.statuses).2⟩ := by
  rw [handleCalls, handleAll, List.map_append, List.foldlM_append]
  simp only [List.map_cons, List.map_nil, List.foldlM_cons, List.foldlM_nil, bind_pure]
  rfl

/-- A change of the state of one chain that does not move its safe block up moves none up. -/
theorem safeBlock_update_le {s : State} {chain : Chain} {c : ChainState}
    (h : c.safeBlock ≤ (s chain).safeBlock) (chain' : Chain) :
    (Function.update s chain c chain').safeBlock ≤ (s chain').safeBlock := by
  by_cases hc : chain' = chain
  · subst hc
    rwa [Function.update_self]
  · rw [Function.update_of_ne hc]

/-- A call that is handled moves no safe block up. -/
theorem safeBlock_le_of_next {env : Env} {c : Call} {s s' : State} {t : ChainSyncStatus.Rows}
    (h : (handle env c.msg s t).1.next = some s') (chain : Chain) :
    (s' chain).safeBlock ≤ (s chain).safeBlock := by
  have he := (handle_cases env c.msg s t).2
  rw [h] at he
  generalize c.msg = msg at he
  rcases he with - | @⟨chain', n, hash, hn⟩ | @⟨n, hash, hd⟩
  · exact le_refl _
  · refine safeBlock_update_le ?_ chain
    exact le_refl _
  · exact safeBlock_update_le (min_le_left _ _) chain

theorem next_isSome_iff (env : Env) (c : Call) (s : State) (t : ChainSyncStatus.Rows) :
    (handle env c.msg s t).1.next.isSome ↔ c.Found := by
  have he := (handle_cases env c.msg s t).2
  generalize hn : (handle env c.msg s t).1.next = o at he
  generalize hm : c.msg = msg at he
  rcases he with ⟨-, he⟩ | @⟨chain, n, hash, -⟩ | @⟨n, hash, -⟩ | @⟨n, hash⟩
  · refine ⟨fun _ n hash hc => he n hash (hm ▸ hc ▸ rfl), fun _ => rfl⟩
  · refine ⟨fun _ n hash hc => ?_, fun _ => rfl⟩
    rw [hc] at hm
    cases hm
  · refine ⟨fun _ n hash hc => ?_, fun _ => rfl⟩
    rw [hc] at hm
    cases hm
  · refine ⟨fun h => absurd h Bool.false_ne_true, fun h => ?_⟩
    rcases c with ⟨chain, n', hash'⟩ | ⟨chain, n', hash'⟩
    · cases hm
      exact absurd rfl (h n hash)
    · cases hm

/-- The calls of a list are handled iff none of them asks for a block of Ethereum. -/
theorem handleCalls_isSome_iff (s : System) (ls : List (Env × Call)) :
    (handleCalls s ls).isSome ↔ ∀ l ∈ ls, l.2.Found := by
  induction ls using List.reverseRecOn with
  | nil => exact ⟨fun _ _ h => absurd h List.not_mem_nil, fun _ => rfl⟩
  | append_singleton ls l ih =>
    rw [handleCalls_concat, List.forall_mem_append, List.forall_mem_singleton, ← ih]
    rcases handleCalls s ls with _ | s'
    · exact ⟨fun h => absurd h Bool.false_ne_true, fun h => h.1⟩
    · rw [Option.bind_some, Option.isSome_map, next_isSome_iff]
      exact ⟨fun h => ⟨rfl, h⟩, fun h => h.2⟩

/-- Calls move no safe block up. -/
theorem safeBlock_le_of_handleCalls {s s' : System} {ls : List (Env × Call)}
    (h : handleCalls s ls = some s') (chain : Chain) :
    (s'.state chain).safeBlock ≤ (s.state chain).safeBlock := by
  induction ls using List.reverseRecOn generalizing s' with
  | nil => cases h; exact le_refl _
  | append_singleton ls l ih =>
    rw [handleCalls_concat] at h
    obtain ⟨s₁, h₁, h⟩ := Option.bind_eq_some_iff.1 h
    obtain ⟨state, hn, rfl⟩ := Option.map_eq_some_iff.1 h
    exact (safeBlock_le_of_next hn chain).trans (ih h₁)

/-- Where the hash of a block of Solana differs, the safe block is put before it, and stays
    there. -/
theorem detectsReorg_of_differs {env : Env} {number : ℤ} {hash : String}
    (hd : Differs env .solana number hash) (s : System) {ls : List (Env × Call)}
    (hf : ∀ l ∈ ls, l.2.Found) : DetectsReorg env .solana number hash s ls := by
  refine ⟨true, ⟨Function.update s.state .solana { s.state .solana with
      safeBlock := min (s.state .solana).safeBlock (number - 1) }, s.statuses⟩,
    [reorgDetected env .solana number hash], ?_, iff_of_true rfl hd, fun h => Bool.noConfusion h,
    (handleCalls_isSome_iff _ ls).2 hf, ?_⟩
  · rw [handle, detectChainReorg_of_differs hd]
    rfl
  · intro _ ks ks' s'' _ hs
    refine (safeBlock_le_of_handleCalls hs .solana).trans ?_
    simp only [Function.update_self]
    exact min_le_right _ _

/-- Where it does not, nothing happens. -/
theorem detectsReorg_of_not_differs {env : Env} {number : ℤ} {hash : String}
    (hd : ¬Differs env .solana number hash) (s : System) {ls : List (Env × Call)}
    (hf : ∀ l ∈ ls, l.2.Found) : DetectsReorg env .solana number hash s ls := by
  refine ⟨false, s, [], ?_, iff_of_false Bool.false_ne_true hd, fun _ => rfl,
    (handleCalls_isSome_iff s ls).2 hf, fun h => Bool.noConfusion h⟩
  rw [handle, detectChainReorg_of_not_differs hd]

/-- A reorganisation is detected as promised on Solana, before calls none of which asks for
    a block of Ethereum, and there only. The number is any integer: that the column of the slots
    holds 64 bits, and what the database says to a number beyond them, is not in the model. -/
theorem detectsReorg_iff (env : Env) (chain : Chain) (number : ℤ) (hash : String) (s : System)
    (ls : List (Env × Call)) :
    DetectsReorg env chain number hash s ls ↔ chain = .solana ∧ ∀ l ∈ ls, l.2.Found := by
  constructor
  · rintro ⟨detected, s', out, h, -, -, hs, -⟩
    refine ⟨?_, (handleCalls_isSome_iff s' ls).1 hs⟩
    rcases chain
    · rw [handle, detectChainReorg_ethereum] at h
      cases h
    · rfl
  · rintro ⟨rfl, hf⟩
    by_cases hd : Differs env .solana number hash
    · exact detectsReorg_of_differs hd s hf
    · exact detectsReorg_of_not_differs hd s hf

/-- A block of Ethereum is asked for, and the process ends. -/
theorem not_detectsReorg :
    (handle emptyEnv (.detectReorg .ethereum 7 "0xab") emptySystem.state
        emptySystem.statuses).1.next = none ∧
      ¬DetectsReorg emptyEnv .ethereum 7 "0xab" emptySystem [] := by
  refine ⟨by rw [handle, detectChainReorg_ethereum]; rfl, ?_⟩
  rintro ⟨_, _, _, h, -⟩
  rw [handle, detectChainReorg_ethereum] at h
  cases h

/-! ## Heights -/

/-- The safe block of each chain is between 0 and the latest one. -/
def WellFormed (s : System) : Prop :=
  ∀ chain, 0 ≤ (s.state chain).safeBlock ∧ (s.state chain).safeBlock ≤ (s.state chain).latestBlock

/-- The rows of the chains have no negative safe block. -/
def LoadsNonneg (t : ChainSyncStatus.Rows) : Prop :=
  ∀ chain : Chain, ∀ row, t.find chain.atom.name = some row → 0 ≤ row.safeBlockNumber

/-- The message does not detect a reorganisation of a block below 1. -/
def ReorgsPositive (_s : System) (l : Env × Msg) : Prop :=
  ∀ n hash, l.2 = .detectReorg .solana n hash → Differs l.1 .solana n hash → 1 ≤ n

theorem wellFormed_init_iff (now : ℤ) (t : ChainSyncStatus.Rows) :
    WellFormed ⟨init now t, t⟩ ↔ LoadsNonneg t := by
  constructor
  · intro h chain row hr
    have hc := (h chain).1
    simp only [init, loadChainState, hr] at hc
    exact hc
  · intro h chain
    rcases hr : t.find chain.atom.name with _ | row
    · simp only [init, loadChainState, hr]
      exact ⟨le_refl _, le_refl _⟩
    · simp only [init, loadChainState, hr]
      exact ⟨h chain row hr, row.valid_block_numbers.2⟩

theorem statuses_of_reachable {now : ℤ} {t : ChainSyncStatus.Rows} {s : System}
    (h : (machine now t).Reachable s) : s.statuses = t := by
  refine Machine.Reachable.invariant (P := fun s => s.statuses = t) rfl ?_ h
  rintro s l s' hs hst
  cases hst
  exact (handle_cases l.1 l.2 s.state s.statuses).1.trans hs

/-- A change of the state of one chain keeps the heights well-formed iff it does there. -/
theorem wellFormed_update_iff {s : System} (h : WellFormed s) (chain : Chain) (c : ChainState) :
    WellFormed ⟨Function.update s.state chain c, s.statuses⟩ ↔
      0 ≤ c.safeBlock ∧ c.safeBlock ≤ c.latestBlock := by
  constructor
  · intro hw
    simpa only [Function.update_self] using hw chain
  · intro hc chain'
    by_cases he : chain' = chain
    · subst he
      simpa only [Function.update_self] using hc
    · simpa only [Function.update_of_ne he] using h chain'

theorem wellFormed_step_iff {now : ℤ} {t : ChainSyncStatus.Rows} (hl : LoadsNonneg t)
    {s s' : System} {l : Env × Msg} (hr : (machine now t).Reachable s) (hw : WellFormed s)
    (hst : (machine now t).step s l = some s') : WellFormed s' ↔ ReorgsPositive s l := by
  obtain ⟨env, msg⟩ := l
  obtain ⟨ht, he⟩ := handle_cases env msg s.state s.statuses
  have hs' : s' = ⟨(handle env msg s.state s.statuses).1.next.getD (init env.now s.statuses),
      s.statuses⟩ := by
    have h := (Option.some_inj.1 hst).symm
    simp only [ht] at h
    exact h
  rw [hs']
  generalize (handle env msg s.state s.statuses).1.next = o at he
  rcases he with ⟨hn, -⟩ | @⟨chain, n, hash, hlt⟩ | @⟨n, hash, hd⟩ | @⟨n, hash⟩
  · exact iff_of_true hw fun n hash hm hd => absurd hd (hn n hash hm)
  · rw [Option.getD_some, wellFormed_update_iff hw]
    obtain ⟨h₀, h₁⟩ := hw chain
    exact iff_of_true ⟨h₀, h₁.trans hlt.le⟩ fun _ _ hm => by cases hm
  · rw [Option.getD_some, wellFormed_update_iff hw]
    obtain ⟨h₀, h₁⟩ := hw .solana
    constructor
    · rintro ⟨h, -⟩ n' hash' hm -
      cases hm
      have := (le_min_iff.1 h).2
      omega
    · intro h
      have := h n hash rfl hd
      exact ⟨le_min h₀ (by omega), (min_le_left _ _).trans h₁⟩
  · -- The process is started anew, with what it had loaded at first.
    rw [Option.getD_none, statuses_of_reachable hr]
    exact iff_of_true ((wellFormed_init_iff env.now t).2 hl) fun _ _ hm => by cases hm

/-- The safe blocks stay between 0 and the latest ones iff no negative one is loaded, and no
    block of Solana below 1 is found to differ. -/
theorem wellFormed_iff (now : ℤ) (t : ChainSyncStatus.Rows) (ls : List (Env × Msg)) (s : System) :
    (machine now t).RunThrough WellFormed ls s ↔
      LoadsNonneg t ∧ (machine now t).RunWhere ReorgsPositive ls s := by
  constructor
  · intro h
    have hl : LoadsNonneg t := (wellFormed_init_iff now t).1 h.init
    exact ⟨hl, (Machine.runThrough_iff_runWhere h.init
      fun _ _ _ hr hw hst => wellFormed_step_iff hl hr hw hst).1 h⟩
  · rintro ⟨hl, h⟩
    exact (Machine.runThrough_iff_runWhere ((wellFormed_init_iff now t).2 hl)
      fun _ _ _ hr hw hst => wellFormed_step_iff hl hr hw hst).2 h

/-- The first block of Solana is stored with another hash. -/
def reorgAtZero : Env where
  now := 0
  systemTime := 0
  ethereumBlocks := .empty
  solanaBlocks := Table.empty.insert ⟨0, "4sGj", none, 0, none⟩ rfl

theorem not_forall_wellFormed :
    ∃ s, (machine 0 .empty).Run [(reorgAtZero, .detectReorg .solana 0 "5eyk")] s ∧
      (s.state .solana).safeBlock = -1 ∧ ¬WellFormed s := by
  refine ⟨_, Machine.run_of_exec rfl, by decide, ?_⟩
  exact fun h => absurd (h .solana).1 (by decide)

end Sylph.Sync.ChainState
