import Sylph.Lib.Machine
import Sylph.Proto.Ethereum

/-!
# New blocks

`EthereumService.SubscribeNewBlocks` of the Ethereum service: a handler that subscribes to
the heads of the chain and, for each head announced, fetches its block and sends it on the
stream of the call, until something fails or the call is done.

* `step`: the steps of the handler, with the answers of the clients, of the node and of the
  stream as labels. What is fetched for a head is the answer of `fetchBlockData`.
* `number_sent`: the blocks sent are those of the heads announced (`streamed`), whatever the
  request says.
* `fromStart_iff`: so they are the blocks from the start block on if and only if this is what
  the heads are.
-/

namespace Sylph.Ethereum

open Lib Proto.Ethereum

/-- A request for new blocks, with an optional start. -/
structure SubscribeNewBlocksRequest where
  startBlock : Int64

/-- The codes of a status that are used here. -/
inductive Code
  | unavailable
  | internal

/-- What a handler fails with. -/
inductive Failure
  /-- An error, as it is. -/
  | error (err : String)
  /-- `status.Error(code, message)` -/
  | status (code : Code) (message : String)

/-- `data.Block.BlockNumber`, if there is a block. -/
def blockNumber (data : BlockData) : Option ℤ := data.block.map Block.blockNumber

namespace SubscribeNewBlocks

/-- Where the handler is. -/
inductive Pc
  /-- `s.client.WSClient()` -/
  | wsClient
  /-- `wsClient.SubscribeNewHead(ctx, headers)` -/
  | subscribe
  /-- `select {…}` -/
  | select
  | returned (failure : Failure)

/-- The handler, with what it has sent. -/
structure State where
  pc : Pc
  /-- The messages sent. -/
  sent : List BlockData

/-- What happens next. -/
inductive Label
  /-- The client, which may be `nil`. -/
  | wsClient (result : Except String (Option Unit))
  | subscribe (result : Except String Unit)
  /-- The subscription fails. -/
  | subErr (err : String)
  /-- A head is announced; its block is fetched and sent. A fetch that panics ends the process, and
      with it the run. -/
  | header (number : ℤ) (fetched : Except String BlockData) (sendErr : Option String)
  /-- The call is done. -/
  | ctxDone (err : String)

/-- The handler, called with a request. -/
def init (_req : SubscribeNewBlocksRequest) : State := ⟨.wsClient, []⟩

/-- The handler returns. -/
def fail (failure : Failure) (s : State) : State := { s with pc := .returned failure }

/-- An internal error, with its text. -/
def internal (text err : String) : Failure := .status .internal (text ++ ": " ++ err)

/-- The block of a head. -/
def header (fetched : Except String BlockData) (sendErr : Option String) (s : State) : State :=
  match fetched, sendErr with
  | .error err, _ => fail (internal "failed to fetch block data" err) s
  | .ok _, some err => fail (internal "failed to send block data" err) s
  | .ok blockData, none => { s with sent := s.sent ++ [blockData] }

/-- The steps of the handler. -/
def step (s : State) (l : Label) : Option State :=
  match s.pc, l with
  | .wsClient, .wsClient (.error err) => some (fail (.error err) s)
  | .wsClient, .wsClient (.ok none) =>
    some (fail (.status .unavailable "no WebSocket endpoints available") s)
  | .wsClient, .wsClient (.ok (some ())) => some { s with pc := .subscribe }
  | .subscribe, .subscribe (.error err) =>
    some (fail (internal "failed to subscribe to new heads" err) s)
  | .subscribe, .subscribe (.ok ()) => some { s with pc := .select }
  | .select, .subErr err => some (fail (internal "subscription error" err) s)
  | .select, .header _ fetched sendErr => some (header fetched sendErr s)
  | .select, .ctxDone err => some (fail (.error err) s)
  | _, _ => none

/-- The runs of the handler for a request. -/
def machine (req : SubscribeNewBlocksRequest) : Machine State Label := ⟨init req, step⟩

/-- The head announced by a step. -/
def Label.head : Label → Option ℤ
  | header number _ _ => some number
  | _ => none

/-- The heads announced. -/
def heads (ls : List Label) : List ℤ := ls.filterMap Label.head

/-- The head of a step whose block is sent. -/
def Label.streamed : Label → Option ℤ
  | header number (.ok _) none => some number
  | _ => none

/-- The heads whose blocks are sent. -/
def streamed (ls : List Label) : List ℤ := ls.filterMap Label.streamed

variable {req : SubscribeNewBlocksRequest} {s s' : State} {l : Label} {ls : List Label}

/-- What a step adds to the stream: the block fetched, for a head. -/
theorem sent_step (hs : step s l = some s') :
    (s'.sent = s.sent ∧ l.streamed = none) ∨
      ∃ number data, l = .header number (.ok data) none ∧ s'.sent = s.sent ++ [data] := by
  unfold step at hs
  split at hs
  case h_7 number fetched sendErr hpc =>
    obtain rfl := Option.some_inj.1 hs
    rcases fetched with err | data
    · exact Or.inl ⟨rfl, rfl⟩
    · rcases sendErr with _ | err
      · exact Or.inr ⟨number, data, rfl, rfl⟩
      · exact Or.inl ⟨rfl, rfl⟩
  case h_9 => cases hs
  all_goals
    obtain rfl := Option.some_inj.1 hs
    exact Or.inl ⟨rfl, rfl⟩

/-- The node answers with the blocks it is asked for, as it does for the numbers of heads
    (`answered_of_served`). -/
def Answered (ls : List Label) : Prop :=
  ∀ number data sendErr, .header number (.ok data) sendErr ∈ ls → blockNumber data = some number

/-- The blocks sent are those of the heads, whatever the request. -/
theorem number_sent (h : (machine req).Run ls s) (hn : Answered ls) :
    s.sent.map blockNumber = (streamed ls).map some := by
  induction h with
  | nil => rfl
  | @snoc ls s s' l _ hst ih =>
    have ih := ih fun number data sendErr hm => hn number data sendErr (List.mem_append_left _ hm)
    rw [streamed, List.filterMap_append, List.map_append, ← streamed, ← ih]
    rcases sent_step hst with ⟨hs, hl⟩ | ⟨number, data, rfl, hs⟩
    · simp [hs, hl]
    · have hd := hn number data none (by simp)
      simp [hs, hd, Label.streamed]

/-- The blocks from the start block on, each once and in order. -/
def FromStart (req : SubscribeNewBlocksRequest) (s : State) : Prop :=
  ∀ (i : ℕ) data, s.sent[i]? = some data → blockNumber data = some (req.startBlock.toInt + i)

/-- The blocks sent are those from the start block on if and only if the heads announced
    are. -/
theorem fromStart_iff (h : (machine req).Run ls s) (hn : Answered ls) :
    FromStart req s ↔
      ∀ (i : ℕ) number, (streamed ls)[i]? = some number → number = req.startBlock.toInt + i := by
  have hget : ∀ i : ℕ, s.sent[i]?.map blockNumber = (streamed ls)[i]?.map some := by
    intro i
    have := congrArg (·[i]?) (number_sent h hn)
    simpa using this
  refine forall_congr' fun i => ?_
  have hi := hget i
  rcases hs : s.sent[i]? with _ | data <;> rcases hl : (streamed ls)[i]? with _ | number <;>
    simp only [hs, hl, Option.map_none, Option.map_some] at hi
  · simp
  · cases hi
  · cases hi
  · simp [Option.some_inj.1 hi]

/-- A block with a number. -/
def numbered (number : ℤ) : BlockData where
  block := some ⟨number, "", "", 0, "", "", "", "", 0, 0, "", "", ""⟩
  transactions := []
  logs := []
  tokenTransfers := []

/-- The steps of a subscription that has been accepted. -/
def subscribed (ls : List Label) : List Label :=
  .wsClient (.ok (some ())) :: .subscribe (.ok ()) :: ls

/-- A head whose block is sent. -/
def oneHead (number : ℤ) : Label := .header number (.ok (numbered number)) none

theorem answered_subscribed {ls : List Label} (h : Answered ls) : Answered (subscribed ls) := by
  intro number data sendErr hm
  rw [subscribed, List.mem_cons, List.mem_cons] at hm
  rcases hm with hm | hm | hm
  · cases hm
  · cases hm
  · exact h number data sendErr hm

theorem answered_oneHead (number : ℤ) (h : Answered ls) : Answered (oneHead number :: ls) := by
  intro n data sendErr hm
  rcases List.mem_cons.1 hm with hm | hm
  · cases hm
    rfl
  · exact h n data sendErr hm

/-- Two blocks are sent, and the third one cannot be fetched. -/
def threeHeads : List Label :=
  subscribed [oneHead 5, oneHead 6, .header 7 (.error "not found") none]

theorem answered_threeHeads : Answered threeHeads := by
  refine answered_subscribed (answered_oneHead 5 (answered_oneHead 6 fun n data sendErr hm => ?_))
  cases List.mem_singleton.1 hm

theorem fromStart_iff_threeHeads : ∃ s, (machine ⟨5⟩).exec threeHeads = some s ∧
    s.sent.length = 2 ∧ FromStart ⟨5⟩ s := by
  obtain ⟨s, he, hlen⟩ : ∃ s, (machine ⟨5⟩).exec threeHeads = some s ∧ s.sent.length = 2 :=
    ⟨_, rfl, rfl⟩
  refine ⟨s, he, hlen, (fromStart_iff (Machine.run_of_exec he) answered_threeHeads).2 ?_⟩
  rintro (_ | _ | i) number h <;> cases h <;> rfl

/-- The chain is past the start block when the subscription begins. -/
theorem not_forall_fromStart : ¬∀ (req : SubscribeNewBlocksRequest) (ls : List Label) (s : State),
    (heads ls).Pairwise (· < ·) → Answered ls → (machine req).Run ls s → FromStart req s := by
  intro h
  obtain ⟨s, he, hs⟩ : ∃ s, (machine ⟨5⟩).exec (subscribed [oneHead 10]) = some s ∧
      s.sent = [numbered 10] :=
    ⟨_, rfl, rfl⟩
  have hd := h ⟨5⟩ (subscribed [oneHead 10]) s (List.pairwise_singleton _ _)
    (answered_subscribed (answered_oneHead 10 fun _ _ _ hm => absurd hm List.not_mem_nil))
    (Machine.run_of_exec he) 0 (numbered 10) (by rw [hs]; rfl)
  exact absurd hd (by decide)

end SubscribeNewBlocks

end Sylph.Ethereum
