import Sylph.DataProcessor.WorkerPool
import Sylph.Lib.Machine
import Sylph.Sync.BlockRange

/-!
# The syncer

The historical synchronisation of `Core.Chain.Syncer`.

* `submitBlocksBatch`: the blocks of a stream become tasks of the pool, one after the
  other, up to the first failure.
* `processBlockStream`: a stream, in batches of 50 items.
* `historicalSyncLoop`: one pass through the loop, a batch of ranges processed in
  parallel; it goes on below the batch if all ranges succeed, and tries again
  otherwise. `machine` is the loop, pass after pass.

The ranges of a batch are processed in linked tasks, so one that raises or takes too
long ends the process of the loop with it (`Answer.exit`). Pauses and logging are left
out.
-/

namespace Sylph.Sync

open Lib Elixir DataProcessor

namespace Syncer

/-! ## Submissions -/

/-- A call of `WorkerPool.submit_task`. -/
structure Submission where
  chain : Atom
  type : Atom
  data : Term

/-- The data of the task for a block. -/
def blockData (number hash block : Term) : Term :=
  .map [("number", number), ("hash", hash), ("data", block)]

/-- The items of a stream: `{:ok, block}` or `{:error, reason}`. -/
abbrev Item := Except Term Term

/-- The task for a block, built from its fields. -/
def blockSubmission (chain : Chain) (block : Term) : Except Exn Submission := do
  let number ← block.fetch "number"
  let hash ← block.fetch "hash"
  return ⟨chain.atom, "block", blockData number hash block⟩

/-- The submissions made for the items of a stream, and the result: `pool` answers a
    submission, given those before it. -/
def submitBlocksBatch (chain : Chain) (pool : List Submission → Submission → Result Term)
    (before : List Submission) : List Item → List Submission × Except Exn (Result Term)
  | [] => ([], .ok (.ok ()))
  | .error reason :: _ => ([], .ok (.error reason))
  | .ok block :: blocks =>
    match blockSubmission chain block with
    | .error e => ([], .error e)
    | .ok submission =>
      match pool before submission with
      | .error reason => ([submission], .ok (.error reason))
      | .ok () =>
        let (submissions, result) :=
          submitBlocksBatch chain pool (before ++ [submission]) blocks
        (submission :: submissions, result)

/-- The batches of a stream, up to the first that fails. -/
def submitBatches (chain : Chain) (pool : List Submission → Submission → Result Term)
    (before : List Submission) : List (List Item) → List Submission × Except Exn (Result Term)
  | [] => ([], .ok (.ok ()))
  | blocks :: batches =>
    match submitBlocksBatch chain pool before blocks with
    | (submissions, .ok (.ok ())) =>
      let (more, result) := submitBatches chain pool (before ++ submissions) batches
      (submissions ++ more, result)
    | (submissions, result) => (submissions, result)

/-- The blocks of a stream are submitted, fifty at a time. -/
def processBlockStream (chain : Chain) (pool : List Submission → Submission → Result Term)
    (blockStream : List Item) : List Submission × Except Exn (Result Term) :=
  submitBatches chain pool [] (chunkEvery 50 blockStream)

/-! ## The loop -/

/-- What the tasks of a batch answer in a pass through the loop. -/
inductive Answer
  /-- They return these results, as far as they are taken. -/
  | results (result : Range → Result Term)
  /-- The task of a range raises, or takes too long. -/
  | exit (range : Range) (reason : ExitReason)

/-- A batch: its ranges with their results. -/
abbrev Batch := List (Range × Result Term)

/-- The result of a batch: the first failure, if there is one. -/
def Batch.result : Batch → Result Term
  | [] => .ok ()
  | (_, .ok ()) :: batch => Batch.result batch
  | (_, .error reason) :: _ => .error reason

/-- Where the loop is. -/
inductive Position
  | at (currentBlock : ℤ)
  | ended (reason : ExitReason)

/-- The loop: where it is, and the batches it has gone through. -/
structure Loop where
  position : Position
  batches : List Batch

/-- The ranges of a batch, processed: where that leads, and the batch gone through. An
    answer that does not fit leads nowhere. -/
def processRanges (startBlock currentBlock : ℤ) (ranges : List Range) :
    Answer → Option (Position × List Batch)
  | .results result =>
    let batch : Batch := ranges.map fun range => (range, result range)
    match batch.result with
    | .ok () => some (.at (startBlock - 1), [batch])
    | .error _ => some (.at currentBlock, [batch])
  | .exit range reason => if range ∈ ranges then some (.ended reason, []) else none

/-- One pass through the loop from `currentBlock`. -/
def historicalSyncLoop (chain : Chain) (targetBlock : ℤ) (answer : Answer) (currentBlock : ℤ) :
    Option (Position × List Batch) :=
  if currentBlock ≥ 0 then
    match BlockRange.calculateNextRange chain currentBlock targetBlock with
    | .ok ((startBlock, endBlock), batchSize) =>
      match BlockRange.splitRange (startBlock, endBlock) batchSize with
      | .ok ranges => processRanges startBlock currentBlock ranges answer
      | .error e => some (.ended (.raised e), [])
    | .error _ => some (.at currentBlock, [])
  else
    some (.ended (.raised .functionClause), [])

/-- The loop, started by `start_historical_sync`. -/
def machine (chain : Chain) (earliestBlock safeBlock : ℤ) : Machine Loop Answer where
  init := ⟨.at (earliestBlock - 1), []⟩
  step s answer :=
    match s.position with
    | .ended _ => none
    | .at currentBlock =>
      (historicalSyncLoop chain safeBlock answer currentBlock).map fun (next, batches) =>
        ⟨next, s.batches ++ batches⟩

end Syncer

end Sylph.Sync
