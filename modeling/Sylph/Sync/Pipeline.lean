import Sylph.Ethereum.RangeEnds
import Sylph.GRPC.EthereumClient
import Sylph.Sync.BatchFailures
import Sylph.Sync.Chunks
import Sylph.Sync.Incarnations
import Sylph.Sync.Submission

/-!
# From the service to the pool

The historical synchronisation with all its parts: the syncer, started again whenever it dies;
the loop of its task; the tasks of the ranges of a batch; the stream that the Ethereum service
sends for a range; and the submission of its blocks.

* `processBlockRange`: what the task of a range comes to, with what the call of the service comes
  to (`Fetch`). A stream that ends well is what a call of `GetBlockRange` has sent that has
  succeeded (`Served`).
* `processBlockRange_ne_ok`: no range succeeds. For a stream that ends well has a block of the
  range, and the first block is one block too many.
* `nothing_completed`: hence no syncer gets past its first batch, nor submits anything.
-/

namespace Sylph.Sync

open Lib Elixir Proto.Ethereum Ethereum DataProcessor

namespace Syncer

variable {chain : Chain} {pool : List Submission → Submission → Result Term}

/-! ## The task of a range -/

/-- How a stream of blocks ends. -/
inductive StreamEnd
  | done
  | error (reason : Term)
  | exit (reason : ExitReason)

/-- What becomes of the request for a range. -/
inductive Fetch
  /-- The call of the client process, or the stub, exits. -/
  | exit (reason : ExitReason)
  /-- `Core.GRPC.Client.get_channel` returns an error. -/
  | noChannel (reason : Atom)
  /-- `Stub.get_block_range` returns an error. -/
  | refused (reason : Term)
  | stream (msgs : List BlockData) (fin : StreamEnd)

/-- What a task comes to, by the result of its function. -/
def outcomeOf : Except Exn (Result Term) → RangeOutcome
  | .ok result => .returns result
  | .error e => .raises (.raised e)

/-- The blocks of a stream, submitted in chunks as they arrive. -/
def processFetched (chain : Chain) (pool : List Submission → Submission → Result Term)
    (msgs : List BlockData) : StreamEnd → List Submission × RangeOutcome
  | .done => (processBlockStream chain pool (items msgs)).map id outcomeOf
  | .error reason =>
    (processBlockStream chain pool (items msgs ++ [.error reason])).map id outcomeOf
  | .exit reason =>
    -- Only the chunks that are complete have been submitted.
    match processBlockStream chain pool (items (msgs.take (50 * (msgs.length / 50)))) with
    | (submissions, .ok (.ok ())) => (submissions, .raises reason)
    | (submissions, result) => (submissions, outcomeOf result)

/-- `process_block_range`, with the request made by `fetch_block_range`, which there is only for
    Ethereum. -/
def processBlockRange (chain : Chain) (pool : List Submission → Submission → Result Term)
    (fetch : Fetch) : List Submission × RangeOutcome :=
  match chain with
  | .solana => ([], .raises (.raised .functionClause))
  | .ethereum =>
    match fetch with
    | .exit reason => ([], .raises reason)
    | .noChannel reason => ([], .returns (.error (.atom (GRPC.EthereumClient.channelError reason))))
    | .refused reason => ([], .returns (.error (.tuple [.atom "error", reason])))
    | .stream msgs fin => processFetched .ethereum pool msgs fin

/-! ### Its submissions -/

theorem processBlockStream_eq (stream : List Item) :
    processBlockStream chain pool stream = submitBlocksBatch chain pool [] stream := by
  rw [processBlockStream, submitBatches_eq, flatten_chunkEvery]

/-- On a stream that starts with a message, the syncer raises. -/
theorem processBlockStream_cons (m : BlockData) (rest : List Item) :
    processBlockStream chain pool (.ok m.toTerm :: rest) = ([], .error (.key "number")) := by
  have hm : blockSubmission chain m.toTerm = .error (.key "number") := by
    rw [blockSubmission, fetch_number_blockData]
    rfl
  rw [processBlockStream_eq, submitBlocksBatch, hm]

/-- Nothing is submitted of a stream, and only an empty one that ends well is a success. -/
theorem processFetched_cases (msgs : List BlockData) (fin : StreamEnd) :
    (processFetched chain pool msgs fin).1 = [] ∧
      ((processFetched chain pool msgs fin).2 = .returns (.ok ()) → msgs = [] ∧ fin = .done) := by
  rcases msgs with _ | ⟨m, msgs⟩
  · rcases fin with _ | reason | reason
    · exact ⟨by simp [processFetched, processBlockStream_eq, items, submitBlocksBatch],
        fun _ => ⟨rfl, rfl⟩⟩
    · simp [processFetched, processBlockStream_eq, items, submitBlocksBatch, outcomeOf]
    · simp [processFetched, processBlockStream_eq, items, submitBlocksBatch]
  · rcases fin with _ | reason | reason
    · simp [processFetched, items, processBlockStream_cons, outcomeOf]
    · simp [processFetched, items, processBlockStream_cons, outcomeOf]
    · rw [processFetched]
      rcases 50 * ((m :: msgs).length / 50) with _ | n
      · simp [processBlockStream_eq, items, submitBlocksBatch]
      · simp [items, processBlockStream_cons, outcomeOf]

/-- The task of a range submits nothing. -/
theorem processBlockRange_fst (fetch : Fetch) : (processBlockRange chain pool fetch).1 = [] := by
  rcases chain with _ | _
  · rcases fetch with _ | _ | _ | ⟨msgs, fin⟩
    case stream => exact (processFetched_cases msgs fin).1
    all_goals rfl
  · rfl

/-! ### Its stream -/

/-- The request for a range. -/
def request (range : Range) : GetBlockRangeRequest := ⟨.ofInt range.1, .ofInt range.2⟩

/-- A stream carries what a call of the service has sent, all of it if it ends well. A request is
    only made where its numbers fit. -/
def Served (range : Range) : Fetch → Prop
  | .stream msgs fin => -2 ^ 63 ≤ range.1 ∧ range.2 < 2 ^ 63 ∧
    ∃ s, (GetBlockRange.machine (request range)).Reachable s ∧ msgs <+: s.sent.map Prod.snd ∧
      (fin = .done → s.main = .returned none ∧ msgs = s.sent.map Prod.snd)
  | _ => True

/-- The request for a range that is not empty asks for blocks. -/
theorem size_request {range : Range} (h : range.1 ≤ range.2) (h₁ : -2 ^ 63 ≤ range.1)
    (h₂ : range.2 < 2 ^ 63) : 0 < (request range).size := by
  have h₃ : (Int64.ofInt range.1).toInt = range.1 :=
    Int64.toInt_ofInt_of_le h₁ (Int.lt_of_le_of_lt h h₂)
  have h₄ : (Int64.ofInt range.2).toInt = range.2 :=
    Int64.toInt_ofInt_of_le (Int.le_trans h₁ h) h₂
  rw [GetBlockRangeRequest.size, request, h₃, h₄]
  omega

/-- The task of a range that is not empty does not succeed. -/
theorem processBlockRange_ne_ok {range : Range} (h : range.1 ≤ range.2) {fetch : Fetch}
    (hf : Served range fetch) : (processBlockRange chain pool fetch).2 ≠ .returns (.ok ()) := by
  intro hok
  rcases chain with _ | _
  · rcases fetch with _ | _ | _ | ⟨msgs, fin⟩
    case stream =>
      obtain ⟨h₁, h₂, s, hs, -, hdone⟩ := hf
      obtain ⟨hmsgs, hfin⟩ := (processFetched_cases msgs fin).2 hok
      obtain ⟨hm, hsent⟩ := hdone hfin
      -- The service has sent a message for each block.
      have hlen := congrArg List.length hsent
      rw [hmsgs, List.length_map, GetBlockRange.length_sent_of_success hs hm] at hlen
      exact absurd hlen.symm (Nat.pos_iff_ne_zero.1 (size_request h h₁ h₂))
    all_goals exact absurd hok nofun
  · exact absurd hok nofun

/-! ## The loop -/

/-- What the task of a range comes to, unless it takes too long. -/
def TaskOf (chain : Chain) (pool : List Submission → Submission → Result Term) (range : Range)
    (outcome : RangeOutcome) : Prop :=
  outcome = .timesOut ∨
    ∃ fetch, Served range fetch ∧ outcome = (processBlockRange chain pool fetch).2

/-- The answer to a pass of the loop is that of the tasks of its ranges, in some order. -/
def Answered (chain : Chain) (pool : List Submission → Submission → Result Term) (target : ℤ)
    (s : Loop) (answer : Answer) : Prop :=
  ∀ current range batchSize ranges, s.position = .at current →
    BlockRange.calculateNextRange chain current target = .ok (range, batchSize) →
    BlockRange.splitRange range batchSize = .ok ranges →
    ∃ outcome st, (stream ranges outcome).Reachable st ∧
      answerOf ranges outcome st = some answer ∧
      ∀ r ∈ ranges, TaskOf chain pool r (outcome r)

/-- A batch without a success is only over with an error. -/
theorem exists_error_of_reduced {ranges : List Range} {outcome : Range → RangeOutcome}
    (hne : ranges ≠ []) (hout : ∀ r ∈ ranges, outcome r ≠ .returns (.ok ()))
    (h : (stream ranges outcome).Reachable .reduced) :
    ∃ r ∈ ranges, ∃ reason, outcome r = .returns (.error reason) := by
  obtain ⟨finished, hr⟩ := AsyncStream.exists_reduces_of_reachable h
  rcases ranges with _ | ⟨r, ranges⟩
  · exact absurd rfl hne
  · rw [List.map_cons] at hr
    have hfirst := hout r List.mem_cons_self
    rcases ho : outcome r with (reason | ⟨⟩) | reason | _
    · exact ⟨r, List.mem_cons_self, reason, ho⟩
    · exact absurd ho hfirst
    · rw [ho] at hr
      exact absurd hr Bool.false_ne_true
    · rw [ho] at hr
      exact absurd hr Bool.false_ne_true

/-- The loop is where it has started, or has ended, and has completed nothing. -/
structure Stalled (earliest : ℤ) (s : Loop) : Prop where
  completed : s.completed = []
  position : s.position = .at (earliest - 1) ∨ ∃ reason, s.position = .ended reason

theorem stalled_start (earliest : ℤ) : Stalled earliest ⟨.at (earliest - 1), []⟩ :=
  ⟨rfl, Or.inl rfl⟩

theorem Stalled.step {earliest safe : ℤ} {s s' : Loop} {answer : Answer} (h : Stalled earliest s)
    (ha : Answered chain pool safe s answer)
    (hst : (machine chain earliest safe).step s answer = some s') : Stalled earliest s' := by
  obtain ⟨current, next, batches, hp, hl, rfl⟩ := step_eq_some hst
  have hcur : current = earliest - 1 := by
    rcases h.position with h | ⟨reason, h⟩ <;> cases hp.symm.trans h
    rfl
  rcases historicalSyncLoop_eq_some hl with ⟨-, rfl, rfl⟩ | ⟨-, rfl, rfl⟩ |
    ⟨endBlock, ranges, hle, hr, hs, hpr⟩
  · exact ⟨by rw [List.append_nil]; exact h.completed, Or.inr ⟨_, rfl⟩⟩
  · exact ⟨by rw [List.append_nil]; exact h.completed, Or.inl (congrArg _ hcur)⟩
  rcases processRanges_eq_some hpr with ⟨reason, rfl, rfl⟩ | ⟨result, rfl, rfl, hnext⟩
  · exact ⟨by rw [List.append_nil]; exact h.completed, Or.inr ⟨_, rfl⟩⟩
  -- The results are those of the tasks: one of them is an error.
  have ht := BlockRange.tiles_of_splitRange hs (show current ≤ endBlock by omega)
  obtain ⟨outcome, st, hreach, hans, htask⟩ := ha current _ _ ranges hp hr hs
  have hout : ∀ r ∈ ranges, outcome r ≠ .returns (.ok ()) := fun r hr' => by
    rcases htask r hr' with ho | ⟨fetch, hf, ho⟩
    · rw [ho]
      exact nofun
    · rw [ho]
      exact processBlockRange_ne_ok (ht.fst_le_snd r hr') hf
  have herr : ∃ r ∈ ranges, result r ≠ .ok () := by
    rcases st with finished | _ | i
    · cases hans
    · obtain ⟨r, hr', reason, ho⟩ :=
        exists_error_of_reduced (ht.ne_nil (by simp only; omega)) hout hreach
      cases hans
      exact ⟨r, hr', by simp only [ho]; exact nofun⟩
    · obtain ⟨r, -, hx⟩ := Option.map_eq_some_iff.1 hans
      cases hx
  obtain ⟨r, hr', hne⟩ := herr
  rcases hnext with ⟨hall, -⟩ | ⟨-, rfl⟩
  · exact absurd (hall r hr') hne
  · refine ⟨?_, Or.inl (congrArg _ hcur)⟩
    have hfail : ¬Batch.succeeded (ranges.map fun range => (range, result range)) = true := by
      rw [Batch.succeeded_eq_true]
      exact fun hok => hne (hok _ (List.mem_map_of_mem hr'))
    rw [Loop.completed, List.filter_append, List.filter_cons_of_neg hfail, List.filter_nil,
      List.append_nil]
    exact h.completed

/-! ## The syncers -/

namespace System

variable {s s' : System}

/-- The task after some effects: the one before, or one that has just been started. -/
theorem task_performAll (out : List Effect) : (s.performAll out).task = s.task ∨
    ∃ earliest safe, (s.performAll out).task =
      some ⟨earliest, safe, ⟨.at (earliest - 1), []⟩⟩ := by
  induction out generalizing s with
  | nil => exact Or.inl rfl
  | cons effect out ih =>
    have h : (s.perform effect).task = s.task ∨ ∃ earliest safe, (s.perform effect).task =
        some ⟨earliest, safe, ⟨.at (earliest - 1), []⟩⟩ := by
      rcases effect with _ | _ | ⟨_, _ | earliest, _ | safe⟩ | _ | _
      case startHistorical.some.some => exact Or.inr ⟨earliest, safe, rfl⟩
      all_goals exact Or.inl rfl
    have hcons : s.performAll (effect :: out) = (s.perform effect).performAll out := rfl
    rw [hcons]
    rcases ih (s := s.perform effect) with hi | hi
    · rw [hi]
      exact h
    · exact Or.inr hi

/-- What a step does to the task: nothing, a start, or a pass of its loop. -/
theorem task_of_step {l : Label} (h : s.step chain l = some s') : s'.task = s.task ∨
    (∃ earliest safe, s'.task = some ⟨earliest, safe, ⟨.at (earliest - 1), []⟩⟩) ∨
    ∃ answer t loop, l = .loop answer ∧ s.task = some t ∧
      (Syncer.machine chain t.earliestBlock t.safeBlock).step t.loop answer = some loop ∧
      s'.task = some { t with loop := loop } := by
  rcases l with ⟨env, i⟩ | _ | i | answer | _ <;> simp only [step] at h
  · split at h
    · cases h
      exact (task_performAll _).imp_right Or.inl
    · cases h
  · cases h
    exact Or.inl rfl
  · split at h <;> cases h
    exact Or.inl rfl
  · split at h
    · next state t hs ht =>
      split at h
      · next loop hl =>
        cases h
        refine Or.inr (Or.inr ⟨answer, t, loop, rfl, ht, hl, ?_⟩)
        rw [loopPasses]
        split <;> rfl
      · cases h
    · cases h
  · cases h
    exact Or.inl rfl

end System

namespace Life

variable {now : ℤ} {first : Option ChainSyncStatus} {s : Life} {ls : List Label}

/-- The answers to the loop are those of its tasks. -/
def Deployed (chain : Chain) (pool : List Submission → Submission → Result Term) (s : Life) :
    Label → Prop
  | .run (.loop answer) =>
    ∀ t, s.system.task = some t → Answered chain pool t.safeBlock t.loop answer
  | _ => True

/-- However often the syncer is started, and whatever the service and the connection do: the
    historical tasks complete no batch and do not move on, and nothing is submitted. -/
theorem nothing_completed (h : (machine now chain first).RunWhere (Deployed chain pool) ls s) :
    (∀ t ∈ s.tasks, Stalled t.earliestBlock t.loop) ∧
      ∀ fetch, (processBlockRange chain pool fetch).1 = [] := by
  refine ⟨?_, processBlockRange_fst⟩
  refine h.invariant (P := fun _ s => ∀ t ∈ s.tasks, Stalled t.earliestBlock t.loop)
    (fun t ht => absurd ht List.not_mem_nil) fun ls s l s' ih hc hst => ?_
  rcases l with l | time
  · obtain ⟨system, hst', rfl⟩ := run_eq_some hst
    intro t ht
    rcases List.mem_append.1 ht with ht | ht
    · exact ih t (List.mem_append_left _ ht)
    have ht := Option.mem_toList.1 ht
    have hold : ∀ u, s.system.task = some u → Stalled u.earliestBlock u.loop := fun u hu =>
      ih u (List.mem_append_right _ (Option.mem_toList.2 hu))
    rcases System.task_of_step hst' with he | ⟨earliest, safe, he⟩ |
      ⟨answer, u, loop, hl, hu, hloop, he⟩
    · exact hold t (he ▸ ht)
    · cases he.symm.trans ht
      exact stalled_start earliest
    · cases he.symm.trans ht
      -- A pass of the loop, with the answers of its tasks.
      have hl' : l = .loop answer := by
        rcases l with _ | _ | _ | _ | _ <;> first | exact hl | cases hl
      subst hl'
      exact (hold u hu).step (hc u hu) hloop
  · obtain ⟨-, rfl⟩ := restart_eq_some hst
    intro t ht
    rcases List.mem_append.1 ht with ht | ht
    · exact ih t ht
    · cases ht

/-- The client has no connection when the first batch is fetched. -/
def unconnected : Answer := .results fun _ => .error (.atom "not_connected")

theorem answered_unconnected :
    Answered .ethereum (fun _ _ => .ok ()) 10 ⟨.at 9, []⟩ unconnected := by
  intro current range batchSize ranges hp hr hs
  cases hp
  cases hr
  cases hs
  have hx : (stream [(9, 10)] fun _ => .returns (.error (.atom "not_connected"))).exec [0] =
      some .reduced := by decide
  exact ⟨_, .reduced, Machine.reachable_of_exec hx, rfl,
    fun r _ => Or.inr ⟨.noChannel "not_connected", trivial, rfl⟩⟩

theorem nothing_completed_unconnected : ∃ s : Life, s.tasks.length = 1 ∧
    (∀ t ∈ s.tasks, Stalled t.earliestBlock t.loop) ∧
      ∀ fetch, (processBlockRange .ethereum (fun _ _ => .ok ()) fetch).1 = [] := by
  have h₁ : (machine 0 .ethereum none).RunWhere (Deployed .ethereum fun _ _ => .ok ())
      [.run (.server System.envAtTen 0)] _ := .snoc .nil trivial rfl
  have h₂ := h₁.snoc
    (show Deployed _ _ _ (.run (.server System.envAtTen 0)) from trivial) rfl
  have h₃ := h₂.snoc
    (show Deployed _ _ _ (.run (.loop unconnected)) by rintro t ⟨⟩; exact answered_unconnected) rfl
  exact ⟨_, rfl, nothing_completed h₃⟩

end Life

end Syncer

end Sylph.Sync
