import Sylph.Lib.Relay
import Sylph.Solana.GetBlock

/-!
# The stream of a range

The task that fills the stream of a request for a range (`get_block_range`): it asks the node
for the slots in the range that have a block, then for one block after the other, and sends what
the service makes of it, or the error, over a channel for a hundred items to the reader of the
stream.

* `step`: the steps of the task and of the reader, with the answers of the node as labels. The
  task is a relay (`Relay.step`) of these answers. It owns a clone of the client, whose `Drop`
  calls `block_on`, which panics in an asynchronous context: a task that panics aborts the process
  while it unwinds (`Task.aborted`).
* `streamed`: a reader who comes to the end of the stream has received one item for each slot, in
  their order. Where the process is aborted, this is at the block of one of the slots, and they
  have received the first of the items for the slots before.
* `aborted_iff`: the process is aborted if and only if a block has been fetched with a token
  transfer that is without its accounts.
* `inevitably_done`: a reader who stays comes to the end of the stream, whatever the order of the
  steps, if the process is not aborted.
-/

namespace Sylph.Solana

open Lib

/-- The text of an error; what the client of an endpoint reports has a text of its own. -/
def RpcError.text (showClientError : ClientError → String) : RpcError → String
  | clientError e => "Client error: " ++ showClientError e
  | transportError text => "Transport error: " ++ text
  | invalidResponse text => "Invalid response: " ++ text
  | rateLimitExceeded => "Rate limit exceeded"
  | blockNotFound slot => "Block not found: " ++ toString slot

/-- An item of a stream: what the service makes of a block, or the message of an internal
    error. -/
abbrev Item := Except String Proto.Solana.BlockData

/-- The packages of the client and of the service. -/
structure Service where
  decoders : Decoders UiTransactionStatusMeta
  packages : Packages
  showClientError : ClientError → String

/-- What becomes of a block that has been fetched, or not. -/
def Service.respond (service : Service) : Except RpcError RpcBlock → Relay.Outcome Item
  | .ok block =>
    match convertBlockData service.packages block with
    | .ok blockData => .emit (.ok blockData)
    | .error _ => .panic
  | .error e => .emit (.error (e.text service.showClientError))

namespace RangeStream

/-- The answers of the node to the two requests for the block at a slot. -/
structure Fetch where
  slot : UInt64
  response : Except ClientError UiConfirmedBlock
  time : Except ClientError Int64

/-- What the client makes of them. -/
def Fetch.result (fetch : Fetch) (service : Service) : Except RpcError RpcBlock :=
  getBlock service.decoders fetch.slot fetch.response fetch.time

/-- What the task sends something for: the failure of the request for the slots, or a block. -/
inductive Answer
  | failed (e : RpcError)
  | block (result : Except RpcError RpcBlock)

/-- What is sent for an answer; the task panics where the service does. -/
def respond (service : Service) : Answer → Relay.Outcome Item
  | .failed e =>
    .emit (.error ("Failed to get block range: " ++ e.text service.showClientError))
  | .block result => service.respond result

/-- The task, with its channel and the reader. -/
structure Task where
  /-- The slots that are left, once they are known. -/
  slots : Option (List UInt64)
  relay : Relay.State Item 100

/-- What happens next. -/
inductive Label
  /-- `get_blocks` is answered. -/
  | blocks (result : Except RpcError (List UInt64))
  /-- The requests for the block at the next slot are answered. -/
  | block (fetch : Fetch)
  | finish
  | send
  | recv
  /-- The reader leaves. -/
  | leave

/-- The task has been spawned, and knows no slots yet. -/
def init : Task := ⟨none, Relay.init⟩

variable (service : Service)

/-- A step of the task as a relay. -/
def Task.relays (s : Task) (slots : Option (List UInt64)) (l : Relay.Label Answer) :
    Option Task :=
  (Relay.step (respond service) s.relay l).map fun relay => ⟨slots, relay⟩

/-- A step, as long as there is the process. -/
def next (s : Task) : Label → Option Task
  | .blocks (.ok slots) => if s.slots.isNone then some { s with slots := some slots } else none
  | .blocks (.error e) =>
    if s.slots.isNone then s.relays service (some []) (.take (.failed e)) else none
  | .block fetch =>
    match s.slots with
    | some (slot :: slots) =>
      if fetch.slot = slot then
        s.relays service (some slots) (.take (.block (fetch.result service)))
      else none
    | _ => none
  | .finish => if s.slots = some [] then s.relays service s.slots .finish else none
  | .send => s.relays service s.slots .send
  | .recv => s.relays service s.slots .recv
  | .leave => s.relays service s.slots .leave

/-- The client of a task that panics is dropped while the task unwinds. -/
def Task.aborted (s : Task) : Bool := s.relay.pc.hasPanicked

/-- The steps of the task and its reader, as long as the process lives. -/
def step (s : Task) (l : Label) : Option Task := if s.aborted then none else next service s l

/-- The runs of the task. -/
def machine : Machine Task Label := ⟨init, step service⟩

variable {service : Service} {s s' : Task} {l : Label} {ls : List Label}

theorem step_of_alive (h : s.aborted = false) (l : Label) : step service s l = next service s l :=
  if_neg (by rw [h]; exact Bool.false_ne_true)

/-- The step of the relay, where it takes no answer. -/
def Label.own : Label → Option (Relay.Label Answer)
  | blocks _ | block _ => none
  | finish => some .finish
  | send => some .send
  | recv => some .recv
  | leave => some .leave

/-- The steps, each with what it needs. -/
inductive StepsTo (service : Service) (s : Task) : Label → Task → Prop
  | known (slots : List UInt64) (unknown : s.slots = none) :
    StepsTo service s (.blocks (.ok slots)) { s with slots := some slots }
  | failed {e : RpcError} {relay : Relay.State Item 100} (unknown : s.slots = none)
    (relays : Relay.step (respond service) s.relay (.take (.failed e)) = some relay) :
    StepsTo service s (.blocks (.error e)) ⟨some [], relay⟩
  | block {fetch : Fetch} {slots : List UInt64} {relay : Relay.State Item 100}
    (next : s.slots = some (fetch.slot :: slots))
    (relays : Relay.step (respond service) s.relay (.take (.block (fetch.result service))) =
      some relay) :
    StepsTo service s (.block fetch) ⟨some slots, relay⟩
  | other {l : Label} {k : Relay.Label Answer} {relay : Relay.State Item 100}
    (own : l.own = some k) (done : k = .finish → s.slots = some [])
    (relays : Relay.step (respond service) s.relay k = some relay) :
    StepsTo service s l { s with relay := relay }

theorem stepsTo_of_next (hst : next service s l = some s') : StepsTo service s l s' := by
  cases l with
  | blocks result =>
    cases result with
    | ok slots =>
      obtain ⟨hn, hst⟩ := Option.ite_none_right_eq_some.1 hst
      exact Option.some_inj.1 hst ▸ .known slots (Option.isNone_iff_eq_none.1 hn)
    | error e =>
      obtain ⟨hn, hst⟩ := Option.ite_none_right_eq_some.1 hst
      obtain ⟨relay, hrel, rfl⟩ := Option.map_eq_some_iff.1 hst
      exact .failed (Option.isNone_iff_eq_none.1 hn) hrel
  | block fetch =>
    rw [next] at hst
    split at hst
    next slot slots hslots =>
      obtain ⟨heq, hst⟩ := Option.ite_none_right_eq_some.1 hst
      obtain ⟨relay, hrel, rfl⟩ := Option.map_eq_some_iff.1 hst
      exact .block (heq ▸ hslots) hrel
    next => cases hst
  | finish =>
    obtain ⟨he, hst⟩ := Option.ite_none_right_eq_some.1 hst
    obtain ⟨relay, hrel, rfl⟩ := Option.map_eq_some_iff.1 hst
    exact .other rfl (fun _ => he) hrel
  | send =>
    obtain ⟨relay, hrel, rfl⟩ := Option.map_eq_some_iff.1 hst
    exact .other rfl nofun hrel
  | recv =>
    obtain ⟨relay, hrel, rfl⟩ := Option.map_eq_some_iff.1 hst
    exact .other rfl nofun hrel
  | leave =>
    obtain ⟨relay, hrel, rfl⟩ := Option.map_eq_some_iff.1 hst
    exact .other rfl nofun hrel

theorem stepsTo_of_step (hst : step service s l = some s') : StepsTo service s l s' :=
  stepsTo_of_next (Option.ite_none_left_eq_some.1 hst).2

theorem item_of_own {k : Relay.Label Answer} (h : l.own = some k) : k.item = none := by
  cases l <;> cases h <;> rfl

/-! ## The answers -/

/-- The answers to the request for the slots; there is one at most. -/
def listings (ls : List Label) : List (Except RpcError (List UInt64)) :=
  ls.filterMap fun
    | .blocks result => some result
    | .block _ | .finish | .send | .recv | .leave => none

/-- The answers to the requests for blocks. -/
def fetches (ls : List Label) : List Fetch :=
  ls.filterMap fun
    | .block fetch => some fetch
    | .blocks _ | .finish | .send | .recv | .leave => none

theorem listings_concat (ls : List Label) (result : Except RpcError (List UInt64)) :
    listings (ls ++ [.blocks result]) = listings ls ++ [result] ∧
      fetches (ls ++ [.blocks result]) = fetches ls :=
  ⟨List.filterMap_append, List.filterMap_append.trans (List.append_nil _)⟩

theorem fetches_concat (ls : List Label) (fetch : Fetch) :
    fetches (ls ++ [.block fetch]) = fetches ls ++ [fetch] ∧
      listings (ls ++ [.block fetch]) = listings ls :=
  ⟨List.filterMap_append, List.filterMap_append.trans (List.append_nil _)⟩

theorem concat_of_own (ls : List Label) {k : Relay.Label Answer} (h : l.own = some k) :
    listings (ls ++ [l]) = listings ls ∧ fetches (ls ++ [l]) = fetches ls := by
  have hnil : listings [l] = [] ∧ fetches [l] = [] := by
    cases l <;> cases h <;> exact ⟨rfl, rfl⟩
  constructor
  · rw [listings, List.filterMap_append]
    exact (congrArg _ hnil.1).trans (List.append_nil _)
  · rw [fetches, List.filterMap_append]
    exact (congrArg _ hnil.2).trans (List.append_nil _)

/-- What the relay has been given for the slots that are left: nothing, the failure of the
    request for the slots, or the blocks at the first of the slots. -/
inductive Given (service : Service) (ls : List Label) :
    Option (List UInt64) → List Answer → Prop
  | unknown (listing : listings ls = []) (unasked : fetches ls = []) : Given service ls none []
  | failed {e : RpcError} (listing : listings ls = [.error e]) (unasked : fetches ls = []) :
    Given service ls (some []) [.failed e]
  | blocks {rest : List UInt64} {as : List Answer}
    (listing : listings ls = [.ok ((fetches ls).map Fetch.slot ++ rest)])
    (each : as = (fetches ls).map fun fetch => .block (fetch.result service)) :
    Given service ls (some rest) as

/-- The relay has taken a run of its own, with the answers it has been given. -/
def Relays (service : Service) (ls : List Label) (s : Task) : Prop :=
  ∃ ks, (Relay.machine 100 (respond service)).Run ks s.relay ∧
    Given service ls s.slots (Relay.taken ks) ∧ (.finish ∈ ks → s.slots = some [])

theorem Relays.step (h : Relays service ls s) (hst : step service s l = some s') :
    Relays service (ls ++ [l]) s' := by
  obtain ⟨ks, hrun, hgiven, hmem⟩ := h
  cases stepsTo_of_step hst with
  | known slots hn =>
    refine ⟨ks, hrun, ?_, fun hf => absurd (hn.symm.trans (hmem hf)) nofun⟩
    obtain ⟨hl, hf⟩ := listings_concat ls (.ok slots)
    rw [hn] at hgiven
    generalize Relay.taken ks = as at hgiven
    cases hgiven with
    | unknown hlisting hnone =>
      exact .blocks (by rw [hl, hf, hlisting, hnone]; rfl) (by rw [hf, hnone]; rfl)
  | @failed e _ hn hrel =>
    refine ⟨_, .snoc hrun hrel, ?_, fun _ => rfl⟩
    obtain ⟨hl, hf⟩ := listings_concat ls (.error e)
    rw [hn] at hgiven
    rw [Relay.taken_take]
    generalize Relay.taken ks = as at hgiven
    cases hgiven with
    | unknown hlisting hnone => exact .failed (by rw [hl, hlisting]; rfl) (hf.trans hnone)
  | @block fetch slots relay hslots hrel =>
    refine ⟨_, .snoc hrun hrel, ?_, fun hfin => ?_⟩
    · obtain ⟨hf, hl⟩ := fetches_concat ls fetch
      rw [hslots] at hgiven
      rw [Relay.taken_take]
      generalize Relay.taken ks = as at hgiven
      cases hgiven with
      | blocks hlisting has =>
        refine .blocks ?_ ?_
        · rw [hl, hf, hlisting, List.map_append, List.append_assoc]
          rfl
        · rw [hf, has, List.map_append]
          rfl
    · rcases List.mem_append.1 hfin with hfin | hfin
      · exact absurd (hslots.symm.trans (hmem hfin)) (by simp)
      · exact absurd (List.mem_singleton.1 hfin) nofun
  | other hown hdone hrel =>
    refine ⟨_, .snoc hrun hrel, ?_, fun hfin => ?_⟩
    · obtain ⟨hl, hf⟩ := concat_of_own ls hown
      rw [Relay.taken_of_item (item_of_own hown)]
      generalize s.slots = slots, Relay.taken ks = as at hgiven
      cases hgiven with
      | unknown hlisting hnone => exact .unknown (hl.trans hlisting) (hf.trans hnone)
      | failed hlisting hnone => exact .failed (hl.trans hlisting) (hf.trans hnone)
      | blocks hlisting has => exact .blocks (by rw [hl, hf, hlisting]) (by rw [hf, has])
    · rcases List.mem_append.1 hfin with hfin | hfin
      · exact hmem hfin
      · exact hdone (List.mem_singleton.1 hfin).symm

theorem relays_of_run (h : (machine service).Run ls s) : Relays service ls s := by
  refine h.invariant (P := Relays service) ?_ fun _ _ _ _ _ hr hst => hr.step hst
  exact ⟨[], .nil, .unknown rfl rfl, nofun⟩

/-! ## What the service makes of a block -/

/-- The item is what becomes of the block at the slot. -/
def ItemFor (service : Service) (ls : List Label) (slot : UInt64) (item : Item) : Prop :=
  ∃ fetch ∈ fetches ls, fetch.slot = slot ∧ service.respond (fetch.result service) = .emit item

/-- The service panics at the block at the slot. -/
def PanicsAt (service : Service) (ls : List Label) (slot : UInt64) : Prop :=
  ∃ fetch ∈ fetches ls, fetch.slot = slot ∧ service.respond (fetch.result service) = .panic

/-- A block is never passed over: it yields an item, or the service panics. -/
theorem Service.emits_of_ne_panic {result : Except RpcError RpcBlock}
    (h : service.respond result ≠ .panic) : ∃ item, service.respond result = .emit item := by
  unfold Service.respond at h ⊢
  split
  · split
    · exact ⟨_, rfl⟩
    next he => simp [he] at h
  · exact ⟨_, rfl⟩

/-- Sanitized blocks make the service panic where a transfer is without its accounts. -/
theorem respond_eq_panic_iff {block : RpcBlock}
    (hs : ∀ tx ∈ block.transactions, tx.transaction.message.Sanitized) :
    service.respond (.ok block) = .panic ↔ ¬∀ tx ∈ block.transactions,
      ∀ ix ∈ tx.transaction.message.instructions.1,
        HasTransferAccounts service.packages tx.transaction.message ix := by
  have hok : (∃ data, convertBlockData service.packages block = .ok data) ↔
      ∀ tx ∈ block.transactions, ∀ ix ∈ tx.transaction.message.instructions.1,
        HasTransferAccounts service.packages tx.transaction.message ix := by
    rw [exists_convertBlockData_iff]
    exact forall₂_congr fun tx htx => exists_convertRecords_iff (hs tx htx)
  rw [← hok, Service.respond]
  split
  next data he => exact iff_of_false nofun (not_not_intro ⟨data, he⟩)
  next he => exact iff_of_true rfl fun ⟨data, hd⟩ => by rw [hd] at he; cases he

/-- The blocks that the client has got. -/
def blocks (service : Service) (ls : List Label) : List RpcBlock :=
  (fetches ls).filterMap fun fetch => (fetch.result service).toOption

theorem mem_blocks {block : RpcBlock} :
    block ∈ blocks service ls ↔ ∃ fetch ∈ fetches ls, fetch.result service = .ok block := by
  rw [blocks, List.mem_filterMap]
  refine exists_congr fun fetch => and_congr_right fun _ => ?_
  cases fetch.result service with
  | ok b => simp [Except.toOption]
  | error e => simp [Except.toOption]

/-- The service panics at a block only if the client has got it. -/
theorem exists_block_of_panic {fetch : Fetch}
    (h : service.respond (fetch.result service) = .panic) :
    ∃ block, fetch.result service = .ok block := by
  cases hr : fetch.result service with
  | ok block => exact ⟨block, rfl⟩
  | error e => rw [hr] at h; cases h

/-! ## The stream -/

/-- The items of a stream, by the answer to the request for the slots: its error, or one item for
    each slot, in their order. -/
inductive Streamed (service : Service) (ls : List Label) :
    Except RpcError (List UInt64) → List Item → Prop
  | failed (e : RpcError) : Streamed service ls (.error e)
    [.error ("Failed to get block range: " ++ e.text service.showClientError)]
  | complete {slots : List UInt64} {items : List Item}
    (each : List.Forall₂ (ItemFor service ls) slots items) :
    Streamed service ls (.ok slots) items

/-- The items of a stream until the service panics: one for each slot before that of the block. -/
inductive Cut (service : Service) (ls : List Label) :
    Except RpcError (List UInt64) → List Item → Prop
  | at {done rest : List UInt64} {slot : UInt64} {items : List Item}
    (here : PanicsAt service ls slot) (each : List.Forall₂ (ItemFor service ls) done items) :
    Cut service ls (.ok (done ++ slot :: rest)) items

/-- The reader, who has not left, has come to the end of the stream. -/
structure Task.AtEnd (s : Task) : Prop where
  alive : s.aborted = false
  relay : s.relay.AtEnd

/-- Blocks at none of which the service panics yield one item each. -/
theorem forall₂_emitted {fs : List Fetch} (hmem : ∀ fetch ∈ fs, fetch ∈ fetches ls)
    (hsm : ∀ fetch ∈ fs, service.respond (fetch.result service) ≠ .panic) :
    List.Forall₂ (ItemFor service ls) (fs.map Fetch.slot)
      (Relay.emitted (respond service) (fs.map fun fetch => .block (fetch.result service))) := by
  induction fs with
  | nil => exact .nil
  | cons fetch fs ih =>
    obtain ⟨hm, hmem⟩ := List.forall_mem_cons.1 hmem
    obtain ⟨hp, hsm⟩ := List.forall_mem_cons.1 hsm
    obtain ⟨item, hi⟩ := Service.emits_of_ne_panic hp
    have he : respond service (.block (fetch.result service)) = .emit item := hi
    rw [List.map_cons, List.map_cons, Relay.emitted_cons, he]
    exact .cons ⟨fetch, hm, rfl, hi⟩ (ih hmem hsm)

/-- What has been given, if the last of it makes the service panic. -/
theorem Given.cut {slots : Option (List UInt64)} {as : List Answer} {a : Answer}
    (h : Given service ls slots (as ++ [a])) (ha : respond service a = .panic)
    (hsm : ∀ a ∈ as, respond service a ≠ .panic) : ∃ result, listings ls = [result] ∧
      Cut service ls result (Relay.emitted (respond service) as) := by
  generalize has : as ++ [a] = as' at h
  cases h with
  | unknown => exact absurd has (List.append_ne_nil_of_right_ne_nil _ (List.cons_ne_nil _ _))
  | @failed e =>
    -- The request for the slots does not make the service panic.
    have hl : as ++ [a] = [] ++ [.failed e] := has
    obtain rfl := List.singleton_inj.1 (List.append_inj' hl rfl).2
    cases ha
  | @blocks rest _ hlisting heach =>
    subst has
    obtain ⟨fs, last, hfs, rfl, hlast⟩ := List.map_eq_append_iff.1 heach.symm
    obtain ⟨fetch, rfl, rfl⟩ := List.map_eq_singleton_iff.1 hlast
    have hmem : ∀ f ∈ fs ++ [fetch], f ∈ fetches ls := fun f hf => hfs ▸ hf
    rw [hfs, List.map_append, List.append_assoc] at hlisting
    refine ⟨_, hlisting, .at ⟨fetch, hmem _ List.mem_concat_self, rfl, ha⟩ ?_⟩
    exact forall₂_emitted (fun f hf => hmem f (List.mem_append_left _ hf)) fun f hf =>
      hsm _ (List.mem_map_of_mem hf)

/-- What has been given when no slots are left, if nothing of it makes the service panic. -/
theorem Given.complete {as : List Answer} (h : Given service ls (some []) as)
    (hsm : ∀ a ∈ as, respond service a ≠ .panic) : ∃ result, listings ls = [result] ∧
      Streamed service ls result (Relay.emitted (respond service) as) := by
  generalize hslots : some ([] : List UInt64) = slots at h
  cases h with
  | unknown => cases hslots
  | failed hlisting => exact ⟨_, hlisting, .failed _⟩
  | blocks hlisting heach =>
    obtain rfl := Option.some_inj.1 hslots
    subst heach
    rw [List.append_nil] at hlisting
    exact ⟨_, hlisting, .complete (forall₂_emitted (fun _ hf => hf) fun f hf =>
      hsm _ (List.mem_map_of_mem hf))⟩

/-- The blocks that have been fetched are among what has been given. -/
theorem Given.mem {slots : Option (List UInt64)} {as : List Answer}
    (h : Given service ls slots as) {fetch : Fetch} (hf : fetch ∈ fetches ls) :
    .block (fetch.result service) ∈ as := by
  cases h with
  | unknown _ hnone => rw [hnone] at hf; cases hf
  | failed _ hnone => rw [hnone] at hf; cases hf
  | blocks _ heach => exact heach ▸ List.mem_map_of_mem hf

/-- What makes the service panic is one of them. -/
theorem Given.exists_fetch {slots : Option (List UInt64)} {as : List Answer}
    (h : Given service ls slots as) {a : Answer} (ha : a ∈ as) (hp : respond service a = .panic) :
    ∃ fetch ∈ fetches ls, service.respond (fetch.result service) = .panic := by
  cases h with
  | unknown => cases ha
  | failed =>
    obtain rfl := List.mem_singleton.1 ha
    cases hp
  | blocks _ heach =>
    obtain ⟨fetch, hf, rfl⟩ := List.mem_map.1 (heach ▸ ha)
    exact ⟨fetch, hf, hp⟩

/-- At the end of the stream, the reader has received the error of the request for the slots, or
    one item for each slot, in their order. If the process is aborted, this is at the block of one
    of the slots, and what has been sent are the items for the slots before. -/
theorem streamed (service : Service) (ls : List Label) (s : Task)
    (h : (machine service).Run ls s) :
    (s.AtEnd → ∃ result, listings ls = [result] ∧ Streamed service ls result s.relay.received) ∧
      (s.aborted = true → ∃ result items, listings ls = [result] ∧ Cut service ls result items ∧
        s.relay.received <+: items ∧
        (s.relay.chan.closed = false → s.relay.received ++ s.relay.chan.buf = items)) := by
  obtain ⟨ks, hrun, hgiven, hmem⟩ := relays_of_run h
  have hend := Relay.ending_of_run hrun
  have hall := Relay.conserves_of_run hrun
  constructor
  · rintro ⟨halive, he⟩
    have hp : s.relay.pc ≠ .panicked := fun hp =>
      absurd (halive.symm.trans (Relay.Pc.hasPanicked_iff.2 hp)) nofun
    rcases hend.returns (he.cases.resolve_left hp) with hc | hf
    · exact absurd (he.stays.symm.trans hc) nofun
    · rw [hall.received_of_atEnd he]
      rw [hmem hf] at hgiven
      exact hgiven.complete (hend.smooth hp)
  · intro hab
    have hp : s.relay.pc = .panicked := Relay.Pc.hasPanicked_iff.1 hab
    obtain ⟨as, a, hks, hpanic, hsm⟩ := hend.panics hp
    rw [hks] at hgiven hall
    obtain ⟨result, hl, hcut⟩ := hgiven.cut hpanic hsm
    -- Nothing is made of the block at which the service panics.
    have hsent : Relay.emitted (respond service) (as ++ [a]) =
        Relay.emitted (respond service) as := by
      rw [Relay.emitted_append, Relay.emitted_singleton, hpanic]
      exact List.append_nil _
    refine ⟨result, _, hl, hcut, hsent ▸ hall.received, fun ho => ?_⟩
    rw [← hsent, ← hall.all ho, hp]
    exact (List.append_nil _).symm

/-- A service with packages that do as documented. -/
def documented : Service := ⟨.documented, .reference, fun _ => ""⟩

/-- The answers for a block with transfers. -/
def transfersFetch : Fetch := ⟨1, .ok (responseOf transfers), .ok 0⟩

theorem exists_result_transfersFetch : ∃ block, transfersFetch.result documented = .ok block ∧
    block.transactions = [checkedTransfer none, paidTransfer] :=
  exists_getBlock 1 transfers

/-- There is an item for it. -/
theorem respond_transfersFetch :
    ∃ data, documented.respond (transfersFetch.result documented) = .emit (.ok data) := by
  obtain ⟨block, hres, htx⟩ := exists_result_transfersFetch
  obtain ⟨data, hconv⟩ : ∃ data, convertBlockData .reference block = .ok data := by
    rw [exists_convertBlockData_iff, htx]
    exact exists_convertBlockData_iff.1 exists_convertBlockData_pairBlock
  refine ⟨data, ?_⟩
  have hdata : convertBlockData documented.packages block = .ok data := hconv
  rw [hres, Service.respond, hdata]

/-- The answers for a block with a transfer that is without its accounts. -/
def shortFetch : Fetch :=
  ⟨2, .ok (responseOf [⟨transferWithoutAccounts, List.cons_ne_nil _ _, rfl, rfl⟩]), .ok 0⟩

theorem exists_result_shortFetch : ∃ block, shortFetch.result documented = .ok block ∧
    block.transactions = [{ transferWithoutAccounts with slot := 2 }] :=
  exists_getBlock 2 [⟨transferWithoutAccounts, List.cons_ne_nil _ _, rfl, rfl⟩]

/-- A block that has been fetched is given to the service. -/
theorem step_block {fetch : Fetch} {slots : List UInt64} {relay : Relay.State Item 100}
    (h : relay.pc = .taking) : step service ⟨some (fetch.slot :: slots), relay⟩ (.block fetch) =
      some ⟨some slots, { relay with pc := (service.respond (fetch.result service)).pc }⟩ := by
  have ha : (⟨some (fetch.slot :: slots), relay⟩ : Task).aborted = false := by
    rw [Task.aborted, h, Relay.Pc.hasPanicked]
  rw [step_of_alive ha, next]
  simp only [if_true, Task.relays, Relay.step, h]
  rfl

/-- The first block is fetched, and its item is about to be sent. -/
theorem exists_run_transfersFetch (slots : List UInt64) : ∃ data, (machine documented).Run
    [.blocks (.ok (1 :: slots)), .block transfersFetch]
    ⟨some slots, ⟨.sending (.ok data), .channel, []⟩⟩ := by
  obtain ⟨data, hd⟩ := respond_transfersFetch
  refine ⟨data, .snoc (.snoc .nil rfl) ((step_block rfl).trans ?_)⟩
  rw [hd]
  rfl

/-- A range with two slots; there is no block at the second one. -/
def complete : List Label :=
  [.blocks (.ok [1, 5]), .block transfersFetch, .send,
    .block ⟨5, .error (.forUser "Block not available"), .ok 0⟩, .recv, .send, .recv, .finish]

/-- A range with three slots; the service panics at the block of the second one. -/
def cut : List Label :=
  [.blocks (.ok [1, 2, 3]), .block transfersFetch, .send, .block shortFetch]

theorem exists_complete : ∃ s, (machine documented).Run complete s ∧ s.AtEnd := by
  obtain ⟨data, hfirst⟩ := exists_run_transfersFetch [5]
  refine ⟨_, .snoc (.snoc (.snoc (.snoc (.snoc (.snoc hfirst rfl) rfl) rfl) rfl) rfl) rfl, ?_⟩
  exact ⟨rfl, rfl, rfl, rfl⟩

/-- A transfer without its accounts makes the service panic. -/
theorem respond_eq_panic_of_short {block : RpcBlock}
    {tx : EnrichedTransaction UiTransactionStatusMeta} (htx : block.transactions = [tx])
    (hshort : tx.transaction = transferWithoutAccounts.transaction) :
    documented.respond (.ok block) = .panic := by
  have hs : ∀ tx' ∈ block.transactions, tx'.transaction.message.Sanitized := by
    rw [htx, List.forall_mem_singleton, hshort]
    exact sanitized_transferWithoutAccounts
  rw [respond_eq_panic_iff hs, htx, List.forall_mem_singleton, hshort]
  exact fun hall => not_hasTransferAccounts_transferWithoutAccounts
    (hall _ (List.mem_singleton_self _))

theorem respond_shortFetch : documented.respond (shortFetch.result documented) = .panic := by
  obtain ⟨block, hres, htx⟩ := exists_result_shortFetch
  rw [hres]
  exact respond_eq_panic_of_short htx rfl

theorem exists_cut : ∃ s, (machine documented).Run cut s ∧ s.aborted = true := by
  obtain ⟨data, hfirst⟩ := exists_run_transfersFetch [2, 3]
  refine ⟨_, .snoc (.snoc hfirst rfl) (step_block rfl), ?_⟩
  rw [respond_shortFetch]
  rfl

theorem streamed_transfers :
    (∃ s, (machine documented).Run complete s ∧ ∃ result, listings complete = [result] ∧
      Streamed documented complete result s.relay.received) ∧
    ∃ s, (machine documented).Run cut s ∧ ∃ result items, listings cut = [result] ∧
      Cut documented cut result items ∧ s.relay.received <+: items := by
  obtain ⟨s, hr, he⟩ := exists_complete
  obtain ⟨s', hr', hab⟩ := exists_cut
  obtain ⟨result, items, hl, hcut, hrec, -⟩ := (streamed documented cut s' hr').2 hab
  exact ⟨⟨s, hr, (streamed documented complete s hr).1 he⟩, s', hr', result, items, hl, hcut, hrec⟩

/-- The process is aborted if and only if one of the blocks that have been fetched has a token
    transfer without its accounts. -/
theorem aborted_iff (service : Service) (ls : List Label) (s : Task)
    (h : (machine service).Run ls s)
    (hs : ∀ block ∈ blocks service ls, ∀ tx ∈ block.transactions,
      tx.transaction.message.Sanitized) :
    s.aborted = true ↔ ∃ block ∈ blocks service ls, ∃ tx ∈ block.transactions,
      ∃ ix ∈ tx.transaction.message.instructions.1,
        ¬HasTransferAccounts service.packages tx.transaction.message ix := by
  obtain ⟨ks, hrun, hgiven, -⟩ := relays_of_run h
  have hend := Relay.ending_of_run hrun
  constructor
  · intro hab
    obtain ⟨as, a, hks, hpanic, -⟩ := hend.panics (Relay.Pc.hasPanicked_iff.1 hab)
    obtain ⟨fetch, hf, hp⟩ := hgiven.exists_fetch (hks ▸ List.mem_concat_self) hpanic
    obtain ⟨block, hr⟩ := exists_block_of_panic hp
    have hb : block ∈ blocks service ls := mem_blocks.2 ⟨fetch, hf, hr⟩
    rw [hr] at hp
    have hn := (respond_eq_panic_iff (hs block hb)).1 hp
    push Not at hn
    exact ⟨block, hb, hn⟩
  · rintro ⟨block, hb, htx⟩
    obtain ⟨fetch, hf, hr⟩ := mem_blocks.1 hb
    by_contra hab
    have hne : service.respond (fetch.result service) ≠ .panic :=
      hend.smooth (fun hp => hab (Relay.Pc.hasPanicked_iff.2 hp)) _ (hgiven.mem hf)
    rw [hr] at hne
    refine hne ((respond_eq_panic_iff (hs block hb)).2 ?_)
    push Not
    exact htx

theorem sanitized_cut : ∀ block ∈ blocks documented cut, ∀ tx ∈ block.transactions,
    tx.transaction.message.Sanitized := by
  intro block hb tx htx
  obtain ⟨fetch, hf, hr⟩ := mem_blocks.1 hb
  rcases List.mem_pair.1 hf with rfl | rfl
  · obtain ⟨block', hres, htxs⟩ := exists_result_transfersFetch
    obtain rfl := Except.ok.inj (hres.symm.trans hr)
    rw [htxs] at htx
    rcases List.mem_pair.1 htx with rfl | rfl
    · exact sanitized_checkedTransfer none
    · exact sanitized_paidTransfer
  · obtain ⟨block', hres, htxs⟩ := exists_result_shortFetch
    obtain rfl := Except.ok.inj (hres.symm.trans hr)
    rw [htxs] at htx
    obtain rfl := List.mem_singleton.1 htx
    exact sanitized_transferWithoutAccounts

theorem aborted_iff_cut : ∃ s, (machine documented).Run cut s ∧ s.aborted = true ∧
    ∃ block ∈ blocks documented cut, ∃ tx ∈ block.transactions,
      ∃ ix ∈ tx.transaction.message.instructions.1,
        ¬HasTransferAccounts documented.packages tx.transaction.message ix := by
  obtain ⟨s, hr, hab⟩ := exists_cut
  exact ⟨s, hr, hab, (aborted_iff documented cut s hr sanitized_cut).1 hab⟩

/-! ## The end of the stream -/

/-- How far the task is from its end, once it knows the slots. -/
def Task.rank (s : Task) : ℕ := 3 * (s.slots.getD []).length + s.relay.rank

/-- The reader has come to the end of the stream, or left, or the process has been aborted. -/
def Task.Done (s : Task) : Prop := s.AtEnd ∨ s.relay.chan.closed = true ∨ s.aborted = true

theorem of_not_done (h : ¬s.Done) :
    s.aborted = false ∧ s.relay.chan.closed = false ∧ ¬s.relay.AtEnd := by
  simp only [Task.Done, not_or, Bool.not_eq_true] at h
  obtain ⟨hend, hopen, halive⟩ := h
  exact ⟨halive, hopen, fun he => hend ⟨halive, he⟩⟩

/-- A task that knows the slots can take a step, as long as the reader is not done. -/
theorem exists_step (h : s.slots.isSome = true) (hn : ¬s.Done) :
    ∃ l s', step service s l = some s' := by
  obtain ⟨slots, hslots⟩ := Option.isSome_iff_exists.1 h
  obtain ⟨halive, hopen, hend⟩ := of_not_done hn
  simp only [step_of_alive halive]
  by_cases hpc : s.relay.pc = .taking
  · rcases slots with _ | ⟨slot, slots⟩
    · exact ⟨.finish, _, by simp [next, hslots, Task.relays, Relay.step, hpc]; rfl⟩
    · refine ⟨.block ⟨slot, .error (.other ""), .ok 0⟩, ?_⟩
      simp [next, hslots, Task.relays, Relay.step, hpc]
  · obtain ⟨k, relay, hk, hf, hrel⟩ :=
      Relay.exists_step (respond service) hpc hopen hend (by decide)
    cases k with
    | take a => cases hk
    | finish => exact absurd rfl hf
    | send => exact ⟨.send, _, by simp [next, Task.relays, hrel]; rfl⟩
    | recv => exact ⟨.recv, _, by simp [next, Task.relays, hrel]; rfl⟩
    | leave => exact ⟨.leave, _, by simp [next, Task.relays, hrel]; rfl⟩

/-- Each step brings a task that knows the slots closer to its end. -/
theorem rank_lt_of_step (h : s.slots.isSome = true) (hn : ¬s.Done)
    (hst : step service s l = some s') : s'.slots.isSome = true ∧ s'.rank < s.rank := by
  obtain ⟨-, hopen, -⟩ := of_not_done hn
  cases stepsTo_of_step hst with
  | known slots hnone => rw [hnone] at h; cases h
  | failed hnone => rw [hnone] at h; cases h
  | block hslots hrel =>
    have hle := Relay.rank_le_of_take hrel
    refine ⟨rfl, ?_⟩
    simp only [Task.rank, hslots, Option.getD_some, List.length_cons]
    omega
  | other hown hdone hrel =>
    refine ⟨h, ?_⟩
    have hlt := Relay.rank_lt_of_step hrel (item_of_own hown) hopen
    simp only [Task.rank]
    omega

/-- Whatever the order of the steps, once the slots are known a reader who stays comes to the end of
    the stream, if the process is not aborted. -/
theorem inevitably_done (service : Service) (slots : List UInt64) (relay : Relay.State Item 100) :
    (machine service).Inevitably Task.Done ⟨some slots, relay⟩ :=
  .of_rank Task.rank (fun _ => exists_step) (fun _ _ _ hs hn hst => rank_lt_of_step hs hn hst) rfl

end RangeStream

end Sylph.Solana
