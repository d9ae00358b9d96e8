import Sylph.Ethereum.FetchBlockData
import Sylph.Ethereum.RangeRuns

/-!
# The numbers of the blocks

Whether a block is the one that was asked for, by its number (`GetBlock`) or by a range
(`GetBlockRange`). The number goes to the client of the node as it is, and the client takes some
of the negative ones for tags (`IsTag`).

* `EthClient.Lawful`: what is documented of the client.
* `fetchBlockData_asked`: a block is the one asked for, unless the number is a tag. So the blocks
  of heads are what they are to be (`SubscribeNewBlocks.number_sent_of_served`).
* `exists_run_to`: a call for a range can come to each of its numbers, so that a tag in it is
  asked for.
* `asked_iff`: the blocks of requests are those asked for if and only if no tag is.
-/

namespace Sylph.Ethereum

open Lib Go Proto.Ethereum

/-- A number yields its block, or an error. Negative ones are no numbers: `-1` to `-4` yield the
    block with the tag `pending`, `latest`, `finalized` or `safe`, whatever its number is, and the
    others are invalid. -/
structure EthClient.Lawful (client : EthClient) : Prop where
  number : ∀ (n : ℕ) (block : Types.Block), client.blockByNumber n = .ok block → block.number = n
  invalid : ∀ n < -4, ∃ err, client.blockByNumber n = .error err

/-- The blocks are those of a lawful client. -/
def CurrentClients.Lawful (clients : CurrentClients) : Prop :=
  ∀ client, clients.first = .ok client → client.Lawful

/-- The number is taken for a tag. -/
def IsTag (n : Int64) : Prop := -4 ≤ n.toInt ∧ n.toInt ≤ -1

variable (c : Common) (signer : LondonSigner)

/-- The block of a response is the one asked for. -/
def AsksBlock (req : GetBlockRequest) : Prop :=
  ∀ (clients : CurrentClients) (resp : GetBlockResponse), clients.Lawful →
    getBlock c signer clients req = .ok (.ok resp) →
    blockNumber resp.blockData = some req.blockNumber.toInt

namespace GetBlockRange

/-- What a fetch is answered with. -/
def Answered (num : Int64) (result : Except String BlockData) : Prop :=
  ∃ clients : CurrentClients, clients.Lawful ∧
    fetchBlockData c signer clients num.toInt = result.mapError .err

/-- The fetches are those of `fetchBlockData`. -/
def Served (s : State) (l : Label) : Prop :=
  ∀ i result g, l = .go i (.fetch result) → s.goroutines[i]? = some g →
    Answered c signer g.num result

end GetBlockRange

/-- The blocks sent for the numbers of a range are those asked for. -/
def AsksRange (req : GetBlockRangeRequest) : Prop :=
  ∀ ls s, (GetBlockRange.machine req).RunWhere (GetBlockRange.Served c signer) ls s →
    ∀ m ∈ s.sent, req.startBlock ≤ m.1 → m.1 ≤ req.endBlock → blockNumber m.2 = some m.1.toInt

variable {c signer}

/-! ## A fetch -/

/-- The block of a fetch is the one the client has returned. -/
theorem exists_block_of_fetchBlockData {clients : CurrentClients} {n : ℤ} {data : BlockData}
    (h : fetchBlockData c signer clients n = .ok data) : ∃ client block,
      clients.first = .ok client ∧ client.blockByNumber n = .ok block ∧
      blockNumber data = some (bigInt64 block.number).toInt := by
  obtain ⟨client, hc, h⟩ := Except.bind_eq_ok.1 h
  obtain ⟨block, hb, h⟩ := Except.bind_eq_ok.1 h
  obtain ⟨receipts, -, h⟩ := Except.bind_eq_ok.1 h
  refine ⟨client, block, hc, Except.mapError_eq_ok.1 hb, ?_⟩
  split at h
  · cases h
  · obtain ⟨pbs, -, h⟩ := Except.bind_eq_ok.1 h
    cases h
    rfl

/-- Unless the number is a tag, the block is the one asked for. -/
theorem fetchBlockData_asked {clients : CurrentClients} (hl : clients.Lawful) {n : Int64}
    (hn : ¬IsTag n) {data : BlockData}
    (h : fetchBlockData c signer clients n.toInt = .ok data) :
    blockNumber data = some n.toInt := by
  obtain ⟨client, block, hc, hb, hd⟩ := exists_block_of_fetchBlockData h
  rw [IsTag] at hn
  rcases Int.lt_or_le n.toInt 0 with hneg | hpos
  · -- The number is invalid.
    obtain ⟨err, he⟩ := (hl client hc).invalid n.toInt (by omega)
    rw [he] at hb
    cases hb
  · obtain ⟨k, hk⟩ := Int.eq_ofNat_of_zero_le hpos
    rw [hk] at hb
    have hlt := n.toInt_lt
    rw [hd, (hl client hc).number k block hb, toInt_bigInt64_iff.2 (by omega), hk]

namespace SubscribeNewBlocks

variable (c signer) in
/-- The fetches for the heads of a subscription are those of `fetchBlockData`, and the heads have
    numbers. -/
def Served (ls : List Label) : Prop :=
  ∀ number data sendErr, .header number (.ok data) sendErr ∈ ls →
    0 ≤ number ∧ number < 2 ^ 63 ∧ ∃ clients : CurrentClients, clients.Lawful ∧
      fetchBlockData c signer clients number = .ok data

/-- So they are answered with the blocks of the heads. -/
theorem answered_of_served {ls : List Label} (h : Served c signer ls) : Answered ls := by
  intro number data sendErr hm
  obtain ⟨hpos, hlt, clients, hl, hf⟩ := h number data sendErr hm
  have hint : (Int64.ofInt number).toInt = number := Int64.toInt_ofInt_of_le (by omega) hlt
  rw [← hint] at hf ⊢
  exact fetchBlockData_asked hl (by rw [IsTag, hint]; omega) hf

/-- The blocks sent to a subscriber are those of the heads. -/
theorem number_sent_of_served {req : SubscribeNewBlocksRequest} {ls : List Label} {s : State}
    (h : (machine req).Run ls s) (hs : Served c signer ls) :
    s.sent.map blockNumber = (streamed ls).map some :=
  number_sent h (answered_of_served hs)

end SubscribeNewBlocks

/-- A chain of blocks without transactions, with all tags on the first one. -/
def genesisBlock (n : ℤ) : Except String Types.Block :=
  if 0 ≤ n then .ok (oldBlock n.toNat) else if -4 ≤ n then .ok (oldBlock 0) else .error "invalid"

/-- A node with that chain. -/
def genesisNode : EthClient := ⟨genesisBlock, fun _ _ => ([], none)⟩

theorem genesisBlock_natCast (n : ℕ) : genesisBlock n = .ok (oldBlock n) :=
  if_pos (Int.natCast_nonneg n)

theorem lawful_genesisNode : genesisNode.Lawful where
  number n block h := by
    cases (genesisBlock_natCast n).symm.trans h
    rfl
  invalid n hn := by
    refine ⟨"invalid", ?_⟩
    change genesisBlock n = _
    rw [genesisBlock, if_neg (by omega), if_neg (by omega)]

/-- A tag may yield another block. -/
theorem exists_other (c : Common) (signer : LondonSigner) {n : Int64} (hn : IsTag n) :
    ∃ clients data, CurrentClients.Lawful clients ∧
      fetchBlockData c signer clients n.toInt = .ok data ∧ blockNumber data ≠ some n.toInt := by
  obtain ⟨hle, hneg⟩ := hn
  have hb : genesisNode.blockByNumber n.toInt = .ok (oldBlock 0) := by
    change genesisBlock n.toInt = _
    rw [genesisBlock, if_neg (by omega), if_pos hle]
  refine ⟨⟨.ok genesisNode, .ok genesisNode⟩,
    ⟨some (convertBlockToPB c (oldBlock 0)), [], [], []⟩, ?_, ?_, ?_⟩
  · rintro client ⟨⟩
    exact lawful_genesisNode
  · rw [fetchBlockData_eq hb rfl]
    rfl
  · intro h
    have h0 : (0 : ℤ) = n.toInt := Option.some_inj.1 h
    omega

theorem getBlock_eq_ok_iff {clients : CurrentClients} {req : GetBlockRequest}
    {resp : GetBlockResponse} : getBlock c signer clients req = .ok (.ok resp) ↔
      fetchBlockData c signer clients req.blockNumber.toInt = .ok resp.blockData := by
  rw [getBlock]
  split
  · next h =>
    rw [h]
    constructor
    · rintro ⟨⟩
      rfl
    · rintro ⟨⟩
      rfl
  · next h =>
    rw [h]
    exact iff_of_false (by rintro ⟨⟩) (by rintro ⟨⟩)
  · next h =>
    rw [h]
    exact iff_of_false (by rintro ⟨⟩) (by rintro ⟨⟩)

theorem asksBlock_iff (req : GetBlockRequest) :
    AsksBlock c signer req ↔ ¬IsTag req.blockNumber := by
  constructor
  · intro h ht
    obtain ⟨clients, data, hl, hf, hne⟩ := exists_other c signer ht
    exact hne (h clients ⟨data⟩ hl (getBlock_eq_ok_iff.2 hf))
  · intro hn clients resp hl hr
    exact fetchBlockData_asked hl hn (getBlock_eq_ok_iff.1 hr)

/-! ## A range -/

namespace GetBlockRange

variable {req : GetBlockRangeRequest} {s s' : State}

/-- The block that a goroutine is to send, if it has got one. -/
def Pc.block? : Pc → Option BlockData
  | ready blockData | sending blockData => some blockData
  | _ => none

/-- Unless its number is a tag, the block is the one asked for. -/
def Asked (num : Int64) (data : BlockData) : Prop :=
  ¬IsTag num → blockNumber data = some num.toInt

/-- The blocks sent, and those to be sent, are those asked for, but for tags. -/
structure AllAsked (s : State) : Prop where
  sent : ∀ m ∈ s.sent, Asked m.1 m.2
  blocks : ∀ g ∈ s.goroutines, ∀ data ∈ g.pc.block?, Asked g.num data

theorem AllAsked.mainStep (h : AllAsked s) (hst : MainStepsTo req s s.main s') :
    AllAsked s' := by
  obtain ⟨hs, hb⟩ := h
  generalize s.main = m at hst
  rcases hst with _ | _ | _ | _ | _ | _ | _ | _ | _
  case spawn =>
    refine ⟨hs, fun g hg => ?_⟩
    rcases List.mem_append.1 hg with hg | hg
    · exact hb g hg
    · rw [List.mem_singleton.1 hg]
      exact nofun
  all_goals exact ⟨hs, hb⟩

/-- A goroutine gets the block of its fetch. -/
theorem block?_of_goStep {num : Int64} {s₁ : State} {pc pc₁ : Pc} {act : Act}
    (h : goStep num s pc act = some (s₁, pc₁)) {data : BlockData} (hd : data ∈ pc₁.block?) :
    data ∈ pc.block? ∨ act = .fetch (.ok data) := by
  have hpc : (goStep num s pc act).map Prod.snd = some pc₁ := by
    rw [h]
    rfl
  cases goStepsTo_of_goStep h with
  | fetched =>
    obtain rfl := Option.some_inj.1 hd
    rcases act with (err | blockData) | _ | _ | _ | _ | _ <;> cases hpc
    exact Or.inr rfl
  | sendBegun => exact Or.inl hd
  | fetchFailed | reported | sent | sendFailed | released | done => cases hd

/-- A goroutine sends the block it has got, for its number. -/
theorem GoStepsTo.sent_eq {num : Int64} {s₁ : State} {pc pc₁ : Pc}
    (h : GoStepsTo num s pc s₁ pc₁) :
    s₁.sent = s.sent ∨ ∃ data ∈ pc.block?, s₁.sent = s.sent ++ [(num, data)] := by
  cases h with
  | sent => exact Or.inr ⟨_, rfl, rfl⟩
  | fetched | fetchFailed | reported | sendBegun | sendFailed | released | done => exact Or.inl rfl

theorem AllAsked.goStep {i : ℕ} {g : Goroutine} {s₁ : State} {pc : Pc} {act : Act}
    (h : AllAsked s) (hserved : Served c signer s (.go i act)) (hg : s.goroutines[i]? = some g)
    (hgo : goStep g.num s g.pc act = some (s₁, pc)) :
    AllAsked { s₁ with goroutines := s₁.goroutines.set i { g with pc := pc } } := by
  obtain ⟨hs, hb⟩ := h
  have hmem : g ∈ s.goroutines := List.mem_of_getElem? hg
  have hst := goStepsTo_of_goStep hgo
  refine ⟨fun m hm => ?_, fun g' hg' data hd => ?_⟩
  · rcases hst.sent_eq with he | ⟨data, hd, he⟩
    · exact hs m (he ▸ hm)
    · rcases List.mem_append.1 (he ▸ hm) with hm | hm
      · exact hs m hm
      · rw [List.mem_singleton.1 hm]
        exact hb g hmem data hd
  · rcases List.mem_or_eq_of_mem_set hg' with hg' | rfl
    · exact hb g' (hst.frame.2 ▸ hg') data hd
    · rcases block?_of_goStep hgo hd with hd | rfl
      · exact hb g hmem data hd
      · obtain ⟨clients, hl, hf⟩ := hserved i (.ok data) g rfl hg
        exact fun hn => fetchBlockData_asked hl hn hf

theorem AllAsked.step {l : Label} (h : AllAsked s) (hserved : Served c signer s l)
    (hst : step req s l = some s') : AllAsked s' := by
  rcases l with _ | ⟨i, act⟩
  · exact h.mainStep (mainStepsTo_of_mainStep hst)
  · obtain ⟨g, hg, hst⟩ := Option.bind_eq_some_iff.1 hst
    obtain ⟨⟨s₁, pc⟩, hgo, hst⟩ := Option.bind_eq_some_iff.1 hst
    cases hst
    exact h.goStep hserved hg hgo

theorem allAsked_of_runWhere {ls : List Label} (h : (machine req).RunWhere (Served c signer) ls s) :
    AllAsked s := by
  refine h.invariant (P := fun _ s => AllAsked s) ⟨?_, ?_⟩ ?_
  · intro m hm
    exact absurd hm List.not_mem_nil
  · intro g hg
    exact absurd hg List.not_mem_nil
  · intro ls s l s' hs hserved hst
    exact hs.step hserved hst

/-! ## The way to a number -/

variable (c signer req) in
/-- The state is reached with fetches that are those of `fetchBlockData`. -/
def ReachedServed (s : State) : Prop := ∃ ls, (machine req).RunWhere (Served c signer) ls s

theorem ReachedServed.main (h : ReachedServed c signer req s) (hst : mainStep req s = some s') :
    ReachedServed c signer req s' := by
  obtain ⟨ls, h⟩ := h
  refine ⟨ls ++ [.main], h.snoc ?_ (show (machine req).step s .main = some s' from hst)⟩
  intro i result g he
  cases he

theorem ReachedServed.go (h : ReachedServed c signer req s) (act : Act) {i : ℕ} {g : Goroutine}
    {s₁ : State} {pc : Pc} (hg : s.goroutines[i]? = some g)
    (hgo : goStep g.num s g.pc act = some (s₁, pc))
    (hact : ∀ result, act = .fetch result → Answered c signer g.num result) :
    ReachedServed c signer req
      { s₁ with goroutines := s₁.goroutines.set i { g with pc := pc } } := by
  obtain ⟨ls, h⟩ := h
  refine ⟨ls ++ [.go i act], h.snoc ?_ (step_go act hg hgo)⟩
  intro i' result g' he hg'
  cases he
  obtain rfl := Option.some_inj.1 (hg.symm.trans hg')
  exact hact result rfl

/-- No client is healthy. -/
def noClients : CurrentClients where
  first := .error (.err "no healthy clients available")
  second := .error (.err "no healthy clients available")

theorem lawful_noClients : noClients.Lawful := by
  intro client h
  cases h

/-- There may be no client for any number. -/
theorem answered_error (num : Int64) :
    Answered c signer num (.error "no healthy clients available") :=
  ⟨noClients, lawful_noClients, rfl⟩

/-- A goroutine can be started for a number, with a slot of its own. -/
theorem exists_fetching (h : ReachedServed c signer req s) {n : Int64} (hm : s.main = .test n)
    (hn : n ≤ req.endBlock) (hsem : s.sem.buf = []) : ∃ s' i, ReachedServed c signer req s' ∧
      s'.main = .test (n + 1) ∧ s'.goroutines[i]? = some ⟨n, .fetch⟩ ∧
      i < s'.goroutines.length ∧ s'.sem.buf = [()] := by
  obtain ⟨s', h', hm', hg', hsem'⟩ :=
    exists_spawn (fun _ _ => ReachedServed.main) h hm hn (by rw [hsem]; exact Nat.succ_pos 9)
  have hget : s'.goroutines[s.goroutines.length]? = some ⟨n, .fetch⟩ := by
    rw [hg', List.getElem?_concat_length]
  obtain ⟨hlt, -⟩ := List.getElem?_eq_some_iff.1 hget
  exact ⟨s', _, h', hm', hget, hlt, hsem'.trans (by rw [hsem]; rfl)⟩

/-- A block is skipped when there is no client for it. -/
theorem exists_skip (h : ReachedServed c signer req s) {n : Int64} (hm : s.main = .test n)
    (hn : n ≤ req.endBlock) (hsem : s.sem.buf = []) : ∃ s', ReachedServed c signer req s' ∧
      s'.main = .test (n + 1) ∧ s'.sem.buf = [] := by
  obtain ⟨s₁, i, h₁, hm₁, hget, hlt, hsem₁⟩ := exists_fetching h hm hn hsem
  obtain ⟨sem, hr, hbuf⟩ := Chan.exists_recv? hsem₁
  -- The goroutine reports that there is no client, and releases its slot.
  have h₂ := h₁.go (.fetch (.error "no healthy clients available")) hget rfl (by
    rintro result ⟨⟩
    exact answered_error n)
  have h₃ := h₂.go .report (List.getElem?_set_self hlt) rfl (by rintro result ⟨⟩)
  have h₄ := h₃.go .release (List.getElem?_set_self (by rwa [List.length_set]))
    (congrArg (Option.map _) hr) (by rintro result ⟨⟩)
  exact ⟨_, h₄, hm₁, hbuf⟩

/-- The handler can come to each number of the range before the last one there is. -/
theorem exists_run_to (c : Common) (signer : LondonSigner) {n : ℤ} (hn : n < 2 ^ 63 - 1)
    (hle : n ≤ req.endBlock.toInt) (k : ℕ) (hk : req.startBlock.toInt + k ≤ n) :
    ∃ s b, ReachedServed c signer req s ∧ s.main = .test b ∧
      b.toInt = req.startBlock.toInt + k ∧ s.sem.buf = [] := by
  induction k with
  | zero =>
    refine ⟨init req, req.startBlock, ⟨[], .nil⟩, rfl, ?_, rfl⟩
    rw [Nat.cast_zero, Int.add_zero]
  | succ k ih =>
    rw [Nat.cast_succ] at hk ⊢
    obtain ⟨s, b, hs, hm, hb, hsem⟩ := ih (by omega)
    have hbe : b ≤ req.endBlock := by
      rw [Int64.le_iff_toInt_le]
      omega
    obtain ⟨s', hs', hm', hsem'⟩ := exists_skip hs hm hbe hsem
    refine ⟨s', b + 1, hs', hm', ?_, hsem'⟩
    rw [toInt_add_one (by omega), hb, Int.add_assoc]

/-- A goroutine can send any block that its number may be answered with. -/
theorem exists_sent (h : ReachedServed c signer req s) {n : Int64} (hm : s.main = .test n)
    (hn : n ≤ req.endBlock) (hsem : s.sem.buf = []) {data : BlockData}
    (hdata : Answered c signer n (.ok data)) :
    ∃ s', ReachedServed c signer req s' ∧ (n, data) ∈ s'.sent := by
  obtain ⟨s₁, i, h₁, -, hget, hlt, -⟩ := exists_fetching h hm hn hsem
  have h₂ := h₁.go (.fetch (.ok data)) hget rfl (by
    rintro result ⟨⟩
    exact hdata)
  have h₃ := h₂.go .beginSend (List.getElem?_set_self hlt) rfl (by rintro result ⟨⟩)
  have h₄ := h₃.go (.endSend none) (List.getElem?_set_self (by rwa [List.length_set])) rfl
    (by rintro result ⟨⟩)
  exact ⟨_, h₄, List.mem_append_right _ (List.mem_singleton_self _)⟩

end GetBlockRange

/-! ## The requests -/

theorem asksRange_iff (req : GetBlockRangeRequest) : AsksRange c signer req ↔
    ∀ n, req.startBlock ≤ n → n ≤ req.endBlock → ¬IsTag n := by
  constructor
  · intro h n hstart hend ht
    obtain ⟨hle, hneg⟩ := ht
    rw [Int64.le_iff_toInt_le] at hstart
    obtain ⟨k, hk⟩ := Int.eq_ofNat_of_zero_le (Int.sub_nonneg.2 hstart)
    obtain ⟨s, b, hs, hm, hb, hsem⟩ := GetBlockRange.exists_run_to c signer
      (n := n.toInt) (by omega) (Int64.le_iff_toInt_le.1 hend) k (by omega)
    obtain rfl : b = n := Int64.toInt_inj.1 (by omega)
    obtain ⟨clients, data, hl, hf, hne⟩ := exists_other c signer ⟨hle, hneg⟩
    obtain ⟨s', ⟨ls, hr⟩, hsent⟩ := GetBlockRange.exists_sent hs hm hend hsem ⟨clients, hl, hf⟩
    exact hne (h ls s' hr (b, data) hsent (Int64.le_iff_toInt_le.2 hstart) hend)
  · intro h ls s hr m hm hstart hend
    exact (GetBlockRange.allAsked_of_runWhere hr).sent m hm (h m.1 hstart hend)

/-- The blocks returned for a number, and those sent for the numbers of a range, are those that
    have been asked for, if and only if none of the numbers is taken for a tag. -/
theorem asked_iff (c : Common) (signer : LondonSigner) :
    (∀ req, AsksBlock c signer req ↔ ¬IsTag req.blockNumber) ∧
    ∀ req : GetBlockRangeRequest, AsksRange c signer req ↔
      ∀ n, req.startBlock ≤ n → n ≤ req.endBlock → ¬IsTag n :=
  ⟨asksBlock_iff, asksRange_iff⟩

/-- For the number `-2`, the latest block is returned. -/
theorem not_forall_asked : ¬∀ (c : Common) (signer : LondonSigner),
    (∀ req, AsksBlock c signer req) ∧ ∀ req : GetBlockRangeRequest, AsksRange c signer req := by
  intro h
  exact (asksBlock_iff ⟨-2⟩).1 ((h .lowerCase (.ofAddress ones)).1 ⟨-2⟩) ⟨by decide, by decide⟩

end Sylph.Ethereum
