import Sylph.Ethereum.Conversion
import Sylph.Ethereum.SubscribeNewBlocks

/-!
# Blocks and their receipts

What the service fetches for a number (`fetchBlockData`): the block, from one client, and its
receipts, from another one it may be. The client chosen may be another one each time, and
what it is asked is answered in any way.

* `getBlockReceipts` drops the error of the call, and goes on with the receipts there are.
* `errs_fetchBlockData_iff`: once there are a block and a client for the receipts, only their
  number makes `fetchBlockData` return an error.
* `failsBlock_iff`: so a failed call for the receipts never fails the block as such.
-/

namespace Sylph.Ethereum

open Lib Go Proto.Ethereum

/-- The client of a node, with the answers of the node. -/
structure EthClient where
  blockByNumber : ℤ → Except String Types.Block
  /-- `Client().CallContext(ctx, &receipts, method, arg)`: the receipts after that, and an
      error. -/
  callContext : String → String → List (Option Types.Receipt) × Option String

/-- What `s.client.CurrentClient()` returns, the first and the second time. -/
structure CurrentClients where
  first : Result EthClient
  second : Result EthClient

variable (c : Common) (signer : LondonSigner)

/-- The receipts of a block, asked for with another client. -/
def getBlockReceipts (client : Result EthClient) (blockHash : Hash) :
    Result (List (Option Types.Receipt)) := do
  let client ← client
  -- The error of the call is dropped: `err` is still the one of the client, `nil`.
  let (receipts, _) := client.callContext "eth_getBlockReceipts" (c.hashHex blockHash)
  return receipts

/-- An error of the receipts. -/
def receiptsFault : Fault → Fault
  | .err text => .err ("failed to get block receipts: " ++ text)
  | .panic p => .panic p

/-- The body of the loop over the transactions, which adds to the messages. -/
def convertTransaction (receipts : List (Option Types.Receipt))
    (pbs : List Transaction × List Log × List TokenTransfer) (tx : Types.Transaction × ℕ) :
    Result (List Transaction × List Log × List TokenTransfer) := do
  let receipt ← index receipts tx.2
  let pbTx ← convertTransactionToPB c tx.1 receipt signer
  let (logs, tokenTransfers) ← processLogs c (← deref receipt).logs
  return (pbs.1 ++ [pbTx], pbs.2.1 ++ logs, pbs.2.2 ++ tokenTransfers)

/-- The message of a block: the block, its receipts, and what they are converted to. -/
def fetchBlockData (clients : CurrentClients) (blockNum : ℤ) : Result BlockData := do
  let client ← clients.first
  let block ← (client.blockByNumber blockNum).mapError .err
  let receipts ← (getBlockReceipts c clients.second block.hash).mapError receiptsFault
  if receipts.length ≠ block.transactions.length then
    throw (.err "receipts count mismatch")
  let (pbTxs, pbLogs, pbTokenTransfers) ←
    block.transactions.zipIdx.foldlM (convertTransaction c signer receipts) ([], [], [])
  return {
    block := some (convertBlockToPB c block)
    transactions := pbTxs
    logs := pbLogs
    tokenTransfers := pbTokenTransfers }

/-- A request for a block. -/
structure GetBlockRequest where
  blockNumber : Int64

/-- The response, with the message of the block. -/
structure GetBlockResponse where
  blockData : BlockData

/-- The answer to a request, unless the handler panics. -/
def getBlock (clients : CurrentClients) (req : GetBlockRequest) :
    Except Panic (Except Failure GetBlockResponse) :=
  match fetchBlockData c signer clients req.blockNumber.toInt with
  | .ok blockData => .ok (.ok ⟨blockData⟩)
  | .error (.err err) => .ok (.error (.status .internal ("failed to fetch block: " ++ err)))
  | .error (.panic p) => .error p

/-! ## Errors -/

variable {c signer}

theorem not_errs_processLogs (logs : List (Option Types.Log)) : ¬Errs (processLogs c logs) := by
  refine not_errs_foldlM (fun pbs log => ?_) _ _
  refine not_errs_bind (not_errs_deref _) fun log => not_errs_bind ?_ fun r => not_errs_ok _
  obtain ⟨r, hr, -⟩ := exists_transfer c log
  rw [hr]
  exact not_errs_ok r

/-- The conversion may panic, but it returns no error. -/
theorem not_errs_convertTransaction (receipts : List (Option Types.Receipt))
    (pbs : List Transaction × List Log × List TokenTransfer) (tx : Types.Transaction × ℕ) :
    ¬Errs (convertTransaction c signer receipts pbs tx) := by
  refine not_errs_bind (not_errs_index _ _) fun receipt => ?_
  refine not_errs_bind (not_errs_bind (not_errs_deref _) fun _ => not_errs_ok _) fun pbTx => ?_
  refine not_errs_bind (not_errs_deref _) fun receipt => ?_
  exact not_errs_bind (not_errs_processLogs _) fun _ => not_errs_ok _

variable {client₁ client₂ : EthClient} {n : ℤ} {block : Types.Block}
  {receipts : List (Option Types.Receipt)} {err : Option String}

/-- What a fetch does once there are a block and receipts. -/
theorem fetchBlockData_eq (hb : client₁.blockByNumber n = .ok block)
    (hr : client₂.callContext "eth_getBlockReceipts" (c.hashHex block.hash) = (receipts, err)) :
    fetchBlockData c signer ⟨.ok client₁, .ok client₂⟩ n =
      if receipts.length ≠ block.transactions.length then
        .error (.err "receipts count mismatch")
      else
        block.transactions.zipIdx.foldlM (convertTransaction c signer receipts) ([], [], []) >>=
          fun pbs => .ok ⟨some (convertBlockToPB c block), pbs.1, pbs.2.1, pbs.2.2⟩ := by
  simp only [fetchBlockData, getBlockReceipts, hb, hr, bind, Except.bind, Except.mapError, pure,
    Except.pure]
  split <;> rfl

/-- Only the number of the receipts makes a fetch return an error. -/
theorem errs_fetchBlockData_iff (hb : client₁.blockByNumber n = .ok block)
    (hr : client₂.callContext "eth_getBlockReceipts" (c.hashHex block.hash) = (receipts, err)) :
    Errs (fetchBlockData c signer ⟨.ok client₁, .ok client₂⟩ n) ↔
      receipts.length ≠ block.transactions.length := by
  rw [fetchBlockData_eq hb hr]
  split
  · next hlen => exact iff_of_true ⟨_, rfl⟩ hlen
  · next hlen =>
    refine iff_of_false ?_ hlen
    exact not_errs_bind (not_errs_foldlM (not_errs_convertTransaction receipts) _ _)
      fun pbs => not_errs_ok _

/-- A block that is fetched has as many receipts as transactions. -/
theorem length_of_fetchBlockData (hb : client₁.blockByNumber n = .ok block)
    (hr : client₂.callContext "eth_getBlockReceipts" (c.hashHex block.hash) = (receipts, err))
    {data : BlockData} (h : fetchBlockData c signer ⟨.ok client₁, .ok client₂⟩ n = .ok data) :
    receipts.length = block.transactions.length := by
  rw [fetchBlockData_eq hb hr] at h
  split at h
  · cases h
  · next hlen => exact not_not.1 hlen

/-- A failed call for the receipts fails the block, which is fetched only with the receipts of
    a call that has succeeded, one for each transaction. -/
structure FailsBlock (c : Common) (signer : LondonSigner) (client₁ client₂ : EthClient) (n : ℤ)
    (block : Types.Block) (receipts : List (Option Types.Receipt)) (err : Option String) :
    Prop where
  getBlockReceipts : err ≠ none → Errs (getBlockReceipts c (.ok client₂) block.hash)
  fetchBlockData : err ≠ none → Errs (fetchBlockData c signer ⟨.ok client₁, .ok client₂⟩ n)
  success : ∀ data, Ethereum.fetchBlockData c signer ⟨.ok client₁, .ok client₂⟩ n = .ok data →
    err = none ∧ receipts.length = block.transactions.length

/-- A call for the receipts, whatever it leaves, fails the block as it is to if and only if the
    call has not failed. After a failed call, the block is failed if and only if there are more
    or fewer receipts than transactions. -/
theorem failsBlock_iff (hb : client₁.blockByNumber n = .ok block)
    (hr : client₂.callContext "eth_getBlockReceipts" (c.hashHex block.hash) = (receipts, err)) :
    (FailsBlock c signer client₁ client₂ n block receipts err ↔ err = none) ∧
    (Errs (fetchBlockData c signer ⟨.ok client₁, .ok client₂⟩ n) ↔
      receipts.length ≠ block.transactions.length) := by
  refine ⟨?_, errs_fetchBlockData_iff hb hr⟩
  constructor
  · intro h
    by_contra hne
    obtain ⟨text, he⟩ := h.getBlockReceipts hne
    simp [getBlockReceipts, hr, bind, Except.bind, pure, Except.pure] at he
  · intro hnone
    exact ⟨fun hne => absurd hnone hne, fun hne => absurd hnone hne,
      fun data h => ⟨hnone, length_of_fetchBlockData hb hr h⟩⟩

/-- A node with blocks that have no transactions, whose calls for receipts fail. -/
def failingNode : EthClient where
  blockByNumber n := if 0 ≤ n then .ok (oldBlock n.toNat) else .error "invalid"
  callContext _ _ := ([], some "connection refused")

theorem failsBlock_iff_failingNode :
    (FailsBlock .lowerCase (.ofAddress ones) failingNode failingNode 1 (oldBlock 1) []
      (some "connection refused") ↔ some "connection refused" = none) ∧
    (Errs (fetchBlockData .lowerCase (.ofAddress ones) ⟨.ok failingNode, .ok failingNode⟩ 1) ↔
      ([] : List (Option Types.Receipt)).length ≠ (oldBlock 1).transactions.length) :=
  failsBlock_iff rfl rfl

/-- The block is fetched all the same. -/
theorem not_forall_failsBlock : ¬∀ (c : Common) (signer : LondonSigner)
    (client₁ client₂ : EthClient) (n : ℤ) (block : Types.Block)
    (receipts : List (Option Types.Receipt)) (err : Option String),
    client₁.blockByNumber n = .ok block →
    client₂.callContext "eth_getBlockReceipts" (c.hashHex block.hash) = (receipts, err) →
    FailsBlock c signer client₁ client₂ n block receipts err := by
  intro h
  have hf := h .lowerCase (.ofAddress ones) failingNode failingNode 1 (oldBlock 1) []
    (some "connection refused") rfl rfl
  exact (errs_fetchBlockData_iff rfl rfl).1 (hf.fetchBlockData (Option.some_ne_none _)) rfl

end Sylph.Ethereum
