import Sylph.DataProcessor.Worker
import Sylph.Proto.Ethereum
import Sylph.Sync.Syncer

/-!
# Blocks between the service, the syncer and the workers

A block passes two seams on its way from the service to a worker, and fits at neither.

* The service streams `BlockData` messages, whose block is a message of its own, under
  the key `block`. The syncer takes the number of a block from the key `number`, which
  the messages do not have: it raises on the first one (`submitBlocksBatch_blockData`),
  and understands no stream but the empty one (`understood_iff`).
* The syncer names the chain in the task. The worker looks for it in the data of the
  task, where it is not: it raises, catches the error, and reports a failure
  (`BlockTask.handleInfo_task`), though all the steps that it skips would succeed.
-/

namespace Sylph.Sync

open Lib Elixir DataProcessor Proto.Ethereum

namespace Syncer

/-! ## Streams of blocks -/

/-- The items of a stream of messages. -/
def items (msgs : List BlockData) : List Item := msgs.map fun m => .ok m.toTerm

/-- A submission is the task for the block of a message. -/
def Submission.Of (chain : Chain) (m : BlockData) (s : Submission) : Prop :=
  ∃ block, m.block = some block ∧ s.chain = chain.atom ∧ s.type = "block" ∧
    s.data.get? "number" = some (.int block.blockNumber) ∧
    s.data.get? "hash" = some (.string block.hash)

/-- A stream of messages is understood: the tasks for their blocks are submitted, in
    order, with the result `:ok` if every submission has it. -/
def Understood (chain : Chain) (pool : List Submission → Submission → Result Term)
    (msgs : List BlockData) : Prop :=
  let (submissions, result) := submitBlocksBatch chain pool [] (items msgs)
  List.Forall₂ (Submission.Of chain) msgs submissions ∧
    ((∀ before s, pool before s = .ok ()) → result = .ok (.ok ()))

/-- A message has no `number`. -/
theorem fetch_number_blockData (m : BlockData) :
    m.toTerm.fetch "number" = .error (.key "number") := rfl

/-- On the first message of a stream, the syncer raises, and has submitted nothing. -/
theorem submitBlocksBatch_blockData (chain : Chain)
    (pool : List Submission → Submission → Result Term) (before : List Submission)
    (m : BlockData) (msgs : List BlockData) :
    submitBlocksBatch chain pool before (items (m :: msgs)) = ([], .error (.key "number")) := by
  have hm : blockSubmission chain m.toTerm = .error (.key "number") := by
    rw [blockSubmission, fetch_number_blockData]
    rfl
  rw [items, List.map_cons, submitBlocksBatch, hm]

/-- So it does on a stream of any length, whose first batch starts with its first
    message. -/
theorem processBlockStream_blockData (chain : Chain)
    (pool : List Submission → Submission → Result Term) (m : BlockData) (msgs : List BlockData) :
    processBlockStream chain pool (items (m :: msgs)) = ([], .error (.key "number")) := by
  have hc : chunkEvery 50 (items (m :: msgs)) =
      items (m :: msgs.take 49) :: chunkEvery 50 (items (msgs.drop 49)) := by
    simp only [items, List.map_cons, chunkEvery, List.map_take, List.map_drop]
  rw [processBlockStream, hc, submitBatches, submitBlocksBatch_blockData]

/-- A stream of messages is understood if and only if it is empty. -/
theorem understood_iff (chain : Chain) (pool : List Submission → Submission → Result Term)
    (msgs : List BlockData) : Understood chain pool msgs ↔ msgs = [] := by
  constructor
  · intro h
    rcases msgs with _ | ⟨m, msgs⟩
    · rfl
    · rw [Understood, submitBlocksBatch_blockData] at h
      exact absurd h.1 nofun
  · rintro rfl
    exact ⟨.nil, fun _ => rfl⟩

/-- The message for an empty block of number `1`. -/
def blockOne : BlockData where
  block := some {
    blockNumber := 1
    hash := "0x01"
    parentHash := "0x00"
    timestamp := 0
    stateRoot := ""
    transactionsRoot := ""
    receiptsRoot := ""
    miner := ""
    gasUsed := 0
    gasLimit := 0
    baseFeePerGas := "0"
    difficulty := "0"
    totalDifficulty := "0" }
  transactions := []
  logs := []
  tokenTransfers := []

/-- The stream of one message with its block set is not understood. -/
theorem not_forall_understood : ¬∀ (chain : Chain)
    (pool : List Submission → Submission → Result Term) (msgs : List BlockData),
    (∀ m ∈ msgs, m.block.isSome) → Understood chain pool msgs := fun h => by
  have hb : ∀ m ∈ [blockOne], m.block.isSome := by
    intro m hm
    rw [List.mem_singleton.1 hm]
    rfl
  have := (h .ethereum (fun _ _ => .ok ()) [blockOne] hb).2 fun _ _ => rfl
  exact absurd this nofun

end Syncer

/-! ## Tasks for blocks -/

namespace BlockTask

variable {γ : Type}

/-- A task for a block, as the syncer submits it, at any attempt. -/
def task (chain : Chain) (number hash block : Term) (attempt : ℕ) (startedAt : ℤ) (ghost : γ) :
    DataProcessor.Task γ where
  chain := chain.atom
  type := "block"
  data := Syncer.blockData number hash block
  attempt := attempt
  startedAt := startedAt
  ghost := ghost

/-- The worker `self` brings a block to a good end: it marks the block as complete, and
    not as failed, and tells the pool. -/
def Complete (chain : Chain) (number : Term) (self : Pid) (out : List (Effect γ)) : Prop :=
  .cast (.markComplete chain.atom number) ∈ out ∧
    (∀ n, .cast (.markFailed chain.atom n) ∉ out) ∧ .send .pool (.taskComplete self (.ok ())) ∈ out

/-- The pool accepts such a task. -/
theorem validateTask_task (chain : Chain) (number hash block : Term) (attempt : ℕ)
    (startedAt : ℤ) (ghost : γ) :
    WorkerPool.validateTask (task chain number hash block attempt startedAt ghost) = .ok () := by
  rcases chain with _ | _ <;> rfl

/-- A worker has a client, or none, for both chains. -/
theorem ensureChainClient_atom (w : Worker γ) (chain : Chain) :
    ∃ w', Worker.ensureChainClient w chain.atom = .ok w' := by
  rw [Worker.ensureChainClient]
  rcases Worker.getChainClient w chain.atom with _ | client
  · rcases chain with _ | _ <;> exact ⟨_, rfl⟩
  · exact ⟨w, rfl⟩

/-- No clause of `process_block` matches the data of the task. -/
theorem doProcessTask_task (chain : Chain) (number hash block : Term) (attempt : ℕ)
    (startedAt : ℤ) (ghost : γ) (w : Worker γ) :
    Worker.doProcessTask (task chain number hash block attempt startedAt ghost) w =
      .error .functionClause := rfl

/-- A worker marks the block as failed, and tells the pool of an error, whatever the
    block. -/
theorem handleInfo_task (env : Worker.Env) (self : Pid) (w : Worker γ) (chain : Chain)
    (number hash block : Term) (attempt : ℕ) (startedAt : ℤ) (ghost : γ) :
    ∃ w' started failed, Worker.handleInfo env self
      (.processTask (task chain number hash block attempt startedAt ghost)) w =
        .noreply w' [.execute started, .execute failed, .cast (.markFailed chain.atom number),
          .send .pool (.taskComplete self (.error Exn.functionClause.toTerm))] := by
  obtain ⟨w', hw⟩ := ensureChainClient_atom w chain
  have hc : (task chain number hash block attempt startedAt ghost).chain = chain.atom := rfl
  simp only [Worker.handleInfo, hc, hw, Worker.finishTask, Worker.processTask, doProcessTask_task]
  -- The error of `process_block` is caught, and reported under the number of the block.
  exact ⟨_, _, _, rfl⟩

/-- Every task for a block is accepted by the pool, and brought to a good end by no
    worker. -/
theorem accepted_not_complete (env : Worker.Env) (self : Pid) (w : Worker γ) (chain : Chain)
    (number hash block : Term) (attempt : ℕ) (startedAt : ℤ) (ghost : γ) :
    let t := task chain number hash block attempt startedAt ghost
    WorkerPool.validateTask t = .ok () ∧
      ¬Complete chain number self (Worker.handleInfo env self (.processTask t) w).out := by
  refine ⟨validateTask_task .., fun h => ?_⟩
  obtain ⟨w', started, failed, ho⟩ :=
    handleInfo_task env self w chain number hash block attempt startedAt ghost
  rw [ho] at h
  exact h.2.1 number (.tail _ (.tail _ (.head _)))

/-- The block `1` of Ethereum is not brought to a good end. -/
theorem not_forall_complete : ¬∀ (env : Worker.Env) (self : Pid) (w : Worker Unit)
    (chain : Chain) (number hash block : Term) (attempt : ℕ) (startedAt : ℤ),
    WorkerPool.validateTask (task chain number hash block attempt startedAt ()) = .ok () →
      Complete chain number self (Worker.handleInfo env self
        (.processTask (task chain number hash block attempt startedAt ())) w).out := fun h => by
  have hc := h ⟨0, 0, fun _ => ""⟩ 0 .initial .ethereum (.int 1) (.string "0x01")
    Syncer.blockOne.toTerm 1 0 rfl
  exact hc.2.1 (.int 1) (.tail _ (.tail _ (.head _)))

end BlockTask

end Sylph.Sync
