import Sylph.Ethereum.Types
import Sylph.Lib.Except
import Sylph.Lib.Go
import Sylph.Proto.Ethereum

/-!
# Transfers of tokens

The transfer that the service finds in a log (`processTokenTransfer`): an event
`Transfer(address,address,uint256)`, the kind of the token being told from where the
value is.

* `TransferLog`: the logs of the standards for tokens, with the value in the data, or in the
  fourth topic.
* `Sourced`: the type of a transfer and its value are taken from the same place.
* `transfers_spec`: what is in a log of the standards is read back, and whatever the log, the
  transfer is sourced.
-/

namespace Sylph.Ethereum

open Lib Go Proto.Ethereum

variable (c : Common)

/-- `transferEventSig` -/
def transferEventSig : Hash :=
  c.hexToHash "0xddf252ad1be2c89b69c2b068fc378daa952ba7f163c4a11628f55a4df523b3ef"

/-- `transferSingleSig` -/
def transferSingleSig : Hash :=
  c.hexToHash "0xc3d58168c5ae7397731d063d5bbf3d657854427343f4c083240f7aacaa2d0f62"

/-- `transferBatchSig` -/
def transferBatchSig : Hash :=
  c.hexToHash "0x4a39dc06d4c0dbc64b70af90fd698a233a518aa5d07e595d983b8c0526c8f7fb"

/-- The type of a token, by the shape of the log of its transfer. -/
def determineTokenType (log : Types.Log) : String :=
  if log.data.length > 0 then "ERC20"
  else if log.topics.length = 4 then "ERC721"
  else "UNKNOWN"

/-- The value of a transfer: the data, or the id in the fourth topic. -/
def getTransferValue (log : Types.Log) : Result String :=
  if log.data.length > 0 then .ok (toString (c.hashBig (c.bytesToHash log.data)))
  else if log.topics.length = 4 then do
    return toString (c.hashBig (← index log.topics 3))
  else .ok "0"

/-- Not implemented: `nil` is returned. -/
def processERC1155SingleTransfer (_log : Types.Log) : Option TokenTransfer := none

/-- Not implemented: `nil` is returned. -/
def processERC1155BatchTransfer (_log : Types.Log) : Option TokenTransfer := none

/-- The transfer in a log, or `nil`. -/
def processTokenTransfer (log : Types.Log) : Result (Option TokenTransfer) := do
  if log.topics.length = 0 then
    return none
  if log.topics.length ≥ 3 ∧ (← index log.topics 0) = transferEventSig c then
    return some {
      tokenType := determineTokenType log
      fromAddress := c.addressHex (c.hexToAddress (c.hashHex (← index log.topics 1)))
      toAddress := c.addressHex (c.hexToAddress (c.hashHex (← index log.topics 2)))
      value := ← getTransferValue c log
      tokenId := c.addressHex log.address
      transactionHash := c.hashHex log.txHash }
  else if (← index log.topics 0) = transferSingleSig c then
    return processERC1155SingleTransfer log
  else if (← index log.topics 0) = transferBatchSig c then
    return processERC1155BatchTransfer log
  else
    return none

/-! ## The standards -/

/-- The topic of the event `Transfer(address,address,uint256)`. -/
def transferTopic : Hash where
  toList := [
    0xdd, 0xf2, 0x52, 0xad, 0x1b, 0xe2, 0xc8, 0x9b, 0x69, 0xc2, 0xb0, 0x68, 0xfc, 0x37, 0x8d, 0xaa,
    0x95, 0x2b, 0xa7, 0xf1, 0x63, 0xc4, 0xa1, 0x16, 0x28, 0xf5, 0x5a, 0x4d, 0xf5, 0x23, 0xb3, 0xef]
  length_toList := rfl

/-- An address as a topic. -/
def padAddress (a : Address) : Hash where
  toList := List.replicate 12 0 ++ a.toList
  length_toList := by rw [List.length_append, List.length_replicate, a.length_toList]

/-- A value as a topic, or as data. -/
def encodeValue (v : BitVec 256) : Hash := .ofNat 32 v.toNat

/-- The logs of the transfer of a value, by a token of a type. -/
inductive TransferLog (sender recipient : Address) (v : BitVec 256) : String → Types.Log → Prop
  | erc20 (address : Address) (index : UInt64) (txHash : Hash) :
    TransferLog sender recipient v "ERC20" {
      address := address
      topics := [transferTopic, padAddress sender, padAddress recipient]
      data := (encodeValue v).toList
      index := index
      txHash := txHash }
  | erc721 (address : Address) (index : UInt64) (txHash : Hash) :
    TransferLog sender recipient v "ERC721" {
      address := address
      topics := [transferTopic, padAddress sender, padAddress recipient, encodeValue v]
      data := []
      index := index
      txHash := txHash }

/-- A transfer of a type, with the addresses and the value as texts. -/
structure Transfers (sender recipient : Address) (v : BitVec 256) (tokenType : String)
    (t : TokenTransfer) : Prop where
  tokenType : t.tokenType = tokenType
  fromAddress : Hex.Denotes t.fromAddress sender.toList
  toAddress : Hex.Denotes t.toAddress recipient.toList
  value : Decimal.Denotes t.value v.toNat

/-- The type of a transfer and its value, taken from the same place. -/
inductive Sourced (log : Types.Log) : String → String → Prop
  | data {value : String} (data : log.data ≠ [])
    (denotes : Decimal.Denotes value (Bytes.value log.data % 2 ^ 256)) : Sourced log "ERC20" value
  | topic {topic : Hash} {value : String} (data : log.data = []) (length : log.topics.length = 4)
    (fourth : log.topics[3]? = some topic)
    (denotes : Decimal.Denotes value (Bytes.value topic.toList)) : Sourced log "ERC721" value
  | unknown (data : log.data = []) (length : log.topics.length ≠ 4) : Sourced log "UNKNOWN" "0"

variable {c} {log : Types.Log}

theorem transferEventSig_eq : transferEventSig c = transferTopic := by
  have hd : Hex.Denotes "0xddf252ad1be2c89b69c2b068fc378daa952ba7f163c4a11628f55a4df523b3ef"
      transferTopic.toList := ⟨_, rfl, rfl⟩
  rw [transferEventSig, c.hexToHash_eq _ _ hd, Bytes.fit_of_length transferTopic.length_toList]

/-- The address in a topic. -/
theorem hexToAddress_padAddress (a : Address) : c.hexToAddress (c.hashHex (padAddress a)) = a :=
  (c.hexToAddress_eq _ _ (c.denotes_hashHex _)).trans (Bytes.fit_append _ a.length_toList)

theorem value_encodeValue (v : BitVec 256) : Bytes.value (encodeValue v).toList = v.toNat :=
  Bytes.value_ofNat v.isLt

/-! ## The place of the value -/

theorem exists_value (c : Common) (log : Types.Log) : ∃ value,
    getTransferValue c log = .ok value ∧ Sourced log (determineTokenType log) value := by
  by_cases hd : log.data = []
  · have hn : ¬log.data.length > 0 := by simp [hd]
    rw [getTransferValue, determineTokenType, if_neg hn, if_neg hn]
    by_cases hl : log.topics.length = 4
    · obtain ⟨topic, ht⟩ : ∃ topic, log.topics[3]? = some topic :=
        ⟨_, List.getElem?_eq_getElem (hl ▸ Nat.lt_succ_self 3)⟩
      have hi : index log.topics 3 = .ok topic := index_natCast (i := 3) ht
      rw [if_pos hl, if_pos hl, hi]
      refine ⟨_, rfl, .topic hd hl ht ?_⟩
      rw [c.hashBig_eq]
      exact Decimal.denotes_toString _
    · rw [if_neg hl, if_neg hl]
      exact ⟨"0", rfl, .unknown hd hl⟩
  · have hp : log.data.length > 0 := List.length_pos_of_ne_nil hd
    rw [getTransferValue, determineTokenType, if_pos hp, if_pos hp]
    refine ⟨_, rfl, .data hd ?_⟩
    rw [c.bytesToHash_eq, c.hashBig_eq, Bytes.value_fit]
    exact Decimal.denotes_toString _

theorem Sourced.of_data {tokenType value : String} (hs : Sourced log tokenType value)
    (hne : log.data ≠ []) :
    tokenType = "ERC20" ∧ Decimal.Denotes value (Bytes.value log.data % 2 ^ 256) := by
  cases hs with
  | data _ hd => exact ⟨rfl, hd⟩
  | topic hd => exact absurd hd hne
  | unknown hd => exact absurd hd hne

theorem Sourced.of_topic {tokenType value : String} {topic : Hash}
    (hs : Sourced log tokenType value) (hd : log.data = []) (hl : log.topics.length = 4)
    (ht : log.topics[3]? = some topic) :
    tokenType = "ERC721" ∧ Decimal.Denotes value (Bytes.value topic.toList) := by
  cases hs with
  | data hne => exact absurd hd hne
  | topic _ _ ht' hd' => exact ⟨rfl, Option.some_inj.1 (ht.symm.trans ht') ▸ hd'⟩
  | unknown _ hne => exact absurd hl hne

/-- In a log of the standards, the value is in the place that the type says. -/
theorem Sourced.of_transferLog {sender recipient : Address} {v : BitVec 256}
    {tokenType tokenType' value : String} (h : TransferLog sender recipient v tokenType log)
    (hs : Sourced log tokenType' value) :
    tokenType' = tokenType ∧ Decimal.Denotes value v.toNat := by
  cases h with
  | erc20 =>
    have hne : (encodeValue v).toList ≠ [] := by
      refine List.ne_nil_of_length_pos ?_
      rw [(encodeValue v).length_toList]
      exact Nat.succ_pos 31
    obtain ⟨htype, hd⟩ := hs.of_data hne
    rw [value_encodeValue, Nat.mod_eq_of_lt v.isLt] at hd
    exact ⟨htype, hd⟩
  | erc721 =>
    obtain ⟨htype, hd⟩ := hs.of_topic rfl rfl rfl
    rw [value_encodeValue] at hd
    exact ⟨htype, hd⟩

/-! ## The transfer in a log -/

/-- A log with a transfer has its topics, and the value is all that is left to find. -/
theorem processTokenTransfer_of_event {t₁ t₂ : Hash} {topics : List Hash}
    (h : log.topics = transferTopic :: t₁ :: t₂ :: topics) :
    processTokenTransfer c log = (getTransferValue c log).map fun value => some {
      tokenType := determineTokenType log
      fromAddress := c.addressHex (c.hexToAddress (c.hashHex t₁))
      toAddress := c.addressHex (c.hexToAddress (c.hashHex t₂))
      value := value
      tokenId := c.addressHex log.address
      transactionHash := c.hashHex log.txHash } := by
  have h₀ : index log.topics 0 = .ok transferTopic := by rw [h]; rfl
  have h₁ : index log.topics 1 = .ok t₁ := by rw [h]; rfl
  have h₂ : index log.topics 2 = .ok t₂ := by rw [h]; rfl
  have hlen : log.topics.length ≠ 0 ∧ log.topics.length ≥ 3 := by simp [h]
  obtain ⟨value, hv, -⟩ := exists_value c log
  simp [processTokenTransfer, hlen, h₀, h₁, h₂, hv, transferEventSig_eq, bind, Except.bind, pure,
    Except.pure, Except.map]

/-- Any other log has none. -/
theorem processTokenTransfer_of_ne
    (h : ¬∃ t₁ t₂ topics, log.topics = transferTopic :: t₁ :: t₂ :: topics) :
    processTokenTransfer c log = .ok none := by
  rw [processTokenTransfer]
  rcases hl : log.topics with _ | ⟨t₀, topics⟩
  · rfl
  · have h₀ : index (t₀ :: topics) 0 = .ok t₀ := rfl
    have hne : ¬((t₀ :: topics).length ≥ 3 ∧ t₀ = transferEventSig c) := by
      rintro ⟨hlen, rfl⟩
      rw [transferEventSig_eq] at hl
      rcases topics with _ | ⟨t₁, _ | ⟨t₂, topics⟩⟩
      · simp at hlen
      · simp at hlen
      · exact h ⟨t₁, t₂, topics, hl⟩
    have hpos : (t₀ :: topics).length ≠ 0 := Nat.succ_ne_zero _
    rw [if_neg hpos]
    simp only [h₀, bind, Except.bind, pure, Except.pure]
    rw [if_neg hne]
    split
    · rfl
    · split <;> rfl

/-- In every log, no topic is missing, and the type and the value of a transfer are taken from
    the same place. -/
theorem exists_transfer (c : Common) (log : Types.Log) : ∃ r, processTokenTransfer c log = .ok r ∧
    ∀ t ∈ r, Sourced log t.tokenType t.value := by
  by_cases h : ∃ t₁ t₂ topics, log.topics = transferTopic :: t₁ :: t₂ :: topics
  · obtain ⟨t₁, t₂, topics, ht⟩ := h
    obtain ⟨value, hv, hs⟩ := exists_value c log
    refine ⟨_, (processTokenTransfer_of_event ht).trans (by rw [hv]; rfl), ?_⟩
    rintro t ⟨⟩
    exact hs
  · exact ⟨none, processTokenTransfer_of_ne h, nofun⟩

/-- The transfers in the logs of the standards are read back, and all transfers have their type
    and their value from the same place. -/
theorem transfers_spec (c : Common) :
    (∀ sender recipient v tokenType log, TransferLog sender recipient v tokenType log →
      ∃ t, processTokenTransfer c log = .ok (some t) ∧ Transfers sender recipient v tokenType t) ∧
    ∀ log, ∃ r, processTokenTransfer c log = .ok r ∧
      ∀ t ∈ r, Sourced log t.tokenType t.value := by
  refine ⟨?_, exists_transfer c⟩
  intro sender recipient v tokenType log h
  obtain ⟨value, hv, hs⟩ := exists_value c log
  obtain ⟨topics, ht⟩ : ∃ topics,
      log.topics = transferTopic :: padAddress sender :: padAddress recipient :: topics := by
    cases h with
    | erc20 => exact ⟨_, rfl⟩
    | erc721 => exact ⟨_, rfl⟩
  have hp := processTokenTransfer_of_event (c := c) ht
  rw [hv, hexToAddress_padAddress, hexToAddress_padAddress] at hp
  obtain ⟨htype, hvalue⟩ := hs.of_transferLog h
  exact ⟨_, hp, htype, c.denotes_addressHex sender, c.denotes_addressHex recipient, hvalue⟩

/-- An address, for tests. -/
def ones : Address := ⟨List.replicate 20 0x11, rfl⟩

/-- A transfer of seven. -/
theorem transfers_spec_seven : ∃ t,
    processTokenTransfer .lowerCase {
      address := ones
      topics := [transferTopic, padAddress ones, padAddress ones]
      data := (encodeValue 7).toList
      index := 0
      txHash := transferTopic } = .ok (some t) ∧ Transfers ones ones 7 "ERC20" t :=
  (transfers_spec .lowerCase).1 _ _ _ _ _ (.erc20 ones 0 transferTopic)

end Sylph.Ethereum
