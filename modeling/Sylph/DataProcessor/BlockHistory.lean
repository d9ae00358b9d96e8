import Mathlib.Data.Set.Insert
import Mathlib.Order.Bounds.Basic
import Sylph.Lib.History
import Sylph.Lib.Machine
import Sylph.DataProcessor.State

/-!
# Blocks in progress and failed blocks

What the state of the data processor says of the blocks of Ethereum, and that it has
nothing to say of those of Solana.

* `Blocks`: the last block, the blocks in progress and the failed blocks, as the marks
  of a history make them; the process keeps them for Ethereum (`Sound`, `Sound.step`);
* `handleAll_isSome_iff`: a sequence of messages is handled without an error iff it only
  reads and writes the state of Ethereum;
* `stats_of_history`: for Ethereum, the statistics are a function of the history of each
  block;
* `apart_iff_takesNoFailed`: a block is in progress and failed at once as soon as a failed block is
  marked as processing again, and only then.
-/

namespace Sylph.DataProcessor.State

open Lib Elixir Sync

/-! ## The blocks of a history -/

/-- The status a block is marked with. -/
inductive Status
  | processing
  | complete
  | failed
  deriving DecidableEq

/-- An event in the history of a block. -/
structure Mark where
  status : Status
  number : ℤ
  deriving DecidableEq

/-- The cast of a mark. -/
def Mark.msg (chain : Chain) : Mark → Msg
  | ⟨.processing, n⟩ => .markProcessing chain n
  | ⟨.complete, n⟩ => .markComplete chain n
  | ⟨.failed, n⟩ => .markFailed chain n

/-- The last block, the blocks in progress and those that failed. -/
structure Blocks where
  lastBlock : ℤ
  processing : Finset ℤ
  failed : Finset ℤ

namespace Blocks

/-- No block has been marked. -/
def empty : Blocks := ⟨0, ∅, ∅⟩

/-- The blocks after a mark. -/
def mark (b : Blocks) : Mark → Blocks
  | ⟨.processing, n⟩ => { b with processing := insert n b.processing }
  | ⟨.complete, n⟩ => ⟨max b.lastBlock n, b.processing.erase n, b.failed.erase n⟩
  | ⟨.failed, n⟩ => { b with processing := b.processing.erase n, failed := insert n b.failed }

/-- A mark decides whether its block is in progress. -/
theorem keywise_processing :
    History.Keywise mark Mark.number (fun b n => n ∈ b.processing)
      fun _ k => k.status = .processing where
  same b k := by
    obtain ⟨_ | _ | _, n⟩ := k <;> simp [mark]
  other b k n hn := by
    obtain ⟨_ | _ | _, m⟩ := k <;> simp [mark, Ne.symm hn]

/-- A mark of its end decides whether a block has failed. -/
theorem keywise_failed :
    History.Keywise mark Mark.number (fun b n => n ∈ b.failed)
      fun f k => if k.status = .processing then f else k.status = .failed where
  same b k := by
    obtain ⟨_ | _ | _, n⟩ := k <;> simp [mark]
  other b k n hn := by
    obtain ⟨_ | _ | _, m⟩ := k <;> simp [mark, Ne.symm hn]

/-- The blocks after the marks of a history. -/
def ofHistory (ks : List Mark) : Blocks := ks.foldl mark empty

end Blocks

/-- The last event of the block `n`. -/
def lastEvent (ks : List Mark) (n : ℤ) : Option Status :=
  (ks.filter fun k => k.number = n).getLast?.map Mark.status

/-- The last event of the block `n` among its completions and failures. -/
def lastEnd (ks : List Mark) (n : ℤ) : Option Status :=
  (ks.filter fun k => k.number = n ∧ k.status ≠ .processing).getLast?.map Mark.status

namespace Blocks

theorem getD_status_iff {o : Option Mark} {status : Status} {P : Prop} (hP : ¬P) :
    (o.map fun k => k.status = status).getD P ↔ o.map Mark.status = some status := by
  rcases o with _ | k
  · exact ⟨fun h => absurd h hP, fun h => absurd h.symm (Option.some_ne_none _)⟩
  · exact Option.some_inj.symm

theorem mem_processing_iff (ks : List Mark) (n : ℤ) :
    n ∈ (ofHistory ks).processing ↔ lastEvent ks n = some .processing := by
  have h : (n ∈ (ofHistory ks).processing) = _ :=
    keywise_processing.view_overwrite (fun _ => True) (fun k => k.status = .processing)
      (fun _ _ _ => rfl) (fun _ _ h => absurd trivial h) empty ks n
  rw [h, getD_status_iff (P := n ∈ empty.processing) (Finset.notMem_empty n), lastEvent]
  simp only [and_true]

theorem mem_failed_iff (ks : List Mark) (n : ℤ) :
    n ∈ (ofHistory ks).failed ↔ lastEnd ks n = some .failed := by
  have h : (n ∈ (ofHistory ks).failed) = _ :=
    keywise_failed.view_overwrite (fun k => k.status ≠ .processing) (fun k => k.status = .failed)
      (fun _ _ h => if_neg h) (fun _ _ h => if_pos (not_not.1 h)) empty ks n
  rw [h, getD_status_iff (P := n ∈ empty.failed) (Finset.notMem_empty n), lastEnd]

/-- The last block is the greatest of 0 and the completed ones. -/
theorem isGreatest_lastBlock (ks : List Mark) :
    IsGreatest (insert 0 {n | ⟨.complete, n⟩ ∈ ks}) (ofHistory ks).lastBlock := by
  induction ks using List.reverseRecOn with
  | nil => simp [ofHistory, empty, IsGreatest, upperBounds]
  | append_singleton ks k ih =>
    have hf : ofHistory (ks ++ [k]) = (ofHistory ks).mark k := by
      rw [ofHistory, List.foldl_append]
      rfl
    rw [hf]
    obtain ⟨_ | _ | _, m⟩ := k
    · simpa [mark] using ih
    · have hs : insert 0 {n | (⟨.complete, n⟩ : Mark) ∈ ks ++ [⟨.complete, m⟩]} =
          insert m (insert 0 {n | (⟨.complete, n⟩ : Mark) ∈ ks}) := by
        ext n
        simp only [List.mem_append, List.mem_singleton, Mark.mk.injEq, true_and,
          Set.mem_insert_iff, Set.mem_ofPred_eq]
        tauto
      rw [hs, mark, max_comm]
      exact ih.insert m
    · simpa [mark] using ih

/-- A mark keeps the blocks in progress apart from the failed ones iff it does not mark a
    failed block as processing. -/
theorem disjoint_mark_iff {b : Blocks} (h : Disjoint b.processing b.failed) (k : Mark) :
    Disjoint (b.mark k).processing (b.mark k).failed ↔
      (k.status = .processing → k.number ∉ b.failed) := by
  obtain ⟨_ | _ | _, n⟩ := k
  · rw [mark, Finset.disjoint_insert_left]
    exact ⟨fun hd _ => hd.1, fun hn => ⟨hn rfl, h⟩⟩
  · refine ⟨fun _ hc => Status.noConfusion hc, fun _ => ?_⟩
    exact h.mono (Finset.erase_subset n _) (Finset.erase_subset n _)
  · refine ⟨fun _ hc => Status.noConfusion hc, fun _ => ?_⟩
    rw [mark, Finset.disjoint_insert_right]
    exact ⟨Finset.notMem_erase n _, h.mono_left (Finset.erase_subset n _)⟩

/-- The blocks only depend on the history of each block. -/
theorem ofHistory_congr {ks ks' : List Mark}
    (h : ∀ n, History.about Mark.number n ks = History.about Mark.number n ks') :
    ofHistory ks = ofHistory ks' := by
  have hp : (ofHistory ks).processing = (ofHistory ks').processing :=
    Finset.ext fun n => iff_of_eq (keywise_processing.view_congr empty (h n))
  have hf : (ofHistory ks).failed = (ofHistory ks').failed :=
    Finset.ext fun n => iff_of_eq (keywise_failed.view_congr empty (h n))
  have hm : ∀ k : Mark, k ∈ ks ↔ k ∈ ks' := fun k => by
    rw [← History.mem_about_self Mark.number, h k.number, History.mem_about_self]
  have hl : (ofHistory ks).lastBlock = (ofHistory ks').lastBlock := by
    have h₁ := isGreatest_lastBlock ks
    simp only [hm] at h₁
    exact h₁.unique (isGreatest_lastBlock ks')
  calc ofHistory ks
      = ⟨(ofHistory ks).lastBlock, (ofHistory ks).processing, (ofHistory ks).failed⟩ := rfl
    _ = ofHistory ks' := by rw [hl, hp, hf]

end Blocks

/-- The message reads and writes the state of Ethereum only. -/
def Msg.OnEthereum : Msg → Prop
  | .markProcessing chain _ | .markComplete chain _ | .markFailed chain _ | .getStats chain =>
    chain = .ethereum
  | .reportMetrics => False

theorem Mark.onEthereum (k : Mark) : (k.msg .ethereum).OnEthereum := by
  obtain ⟨_ | _ | _, n⟩ := k <;> rfl

/-! ## What the process keeps -/

namespace ChainState

variable {m : ChainState} {k k' : Atom}

theorem fetchInt_of_lookup {n : ℤ} (h : m.get? k = some (.int n)) : m.fetchInt k = .ok n := by
  rw [fetchInt, h]

theorem fetchSet_of_lookup {t : Finset ℤ} (h : m.get? k = some (.set t)) :
    m.fetchSet k = .ok t := by
  rw [fetchSet, h]

/-- An update of a key that the map has changes the value of this key only. -/
theorem exists_replace {v w : Value} (h : m.get? k = some w) :
    ∃ m', m.replace k v = .ok m' ∧ m'.get? k = some v ∧
      ∀ k' ≠ k, m'.get? k' = m.get? k' :=
  ⟨m.insert k v, if_pos (Dict.mem_of_lookup h), AList.lookup_insert m,
    fun _ hk => AList.lookup_insert_ne hk⟩

end ChainState

/-- The state of a chain holds the blocks `b`. -/
structure Holds (m : ChainState) (b : Blocks) : Prop where
  last : m.get? "last_block" = some (.int b.lastBlock)
  processing : m.get? "processing_blocks" = some (.set b.processing)
  failed : m.get? "failed_blocks" = some (.set b.failed)

namespace Holds

variable {m : ChainState} {b : Blocks}

theorem initEthereum : Holds initEthereum .empty := ⟨rfl, rfl, rfl⟩

theorem counts (h : Holds m b) :
    counts m = .ok (b.lastBlock, b.processing.card, b.failed.card) := by
  rw [State.counts, ChainState.fetchInt_of_lookup h.last,
    ChainState.fetchSet_of_lookup h.processing, ChainState.fetchSet_of_lookup h.failed]
  rfl

theorem markProcessing (h : Holds m b) (n : ℤ) :
    ∃ m', markProcessing n m = .ok m' ∧ Holds m' (b.mark ⟨.processing, n⟩) := by
  obtain ⟨m', hm, hk, ho⟩ := ChainState.exists_replace (v := .set (insert n b.processing))
    h.processing
  refine ⟨m', ?_, ?_, hk, ?_⟩
  · rw [State.markProcessing, ChainState.fetchSet_of_lookup h.processing]
    exact hm
  · rw [ho _ (by decide), h.last]
    rfl
  · rw [ho _ (by decide), h.failed]
    rfl

theorem markComplete (h : Holds m b) (n : ℤ) :
    ∃ m', markComplete n m = .ok m' ∧ Holds m' (b.mark ⟨.complete, n⟩) := by
  obtain ⟨m₁, hm₁, hk₁, ho₁⟩ := ChainState.exists_replace (v := .set (b.processing.erase n))
    h.processing
  obtain ⟨m₂, hm₂, hk₂, ho₂⟩ := ChainState.exists_replace (v := .set (b.failed.erase n))
    ((ho₁ _ (by decide)).trans h.failed)
  obtain ⟨m₃, hm₃, hk₃, ho₃⟩ := ChainState.exists_replace (v := .int (max b.lastBlock n))
    ((ho₂ _ (by decide)).trans ((ho₁ _ (by decide)).trans h.last))
  refine ⟨m₃, ?_, hk₃, ?_, ?_⟩
  · rw [State.markComplete, ChainState.fetchSet_of_lookup h.processing,
      ChainState.fetchSet_of_lookup h.failed, ChainState.fetchInt_of_lookup h.last]
    simp only [bind, Except.bind, hm₁, hm₂, hm₃]
  · rw [ho₃ _ (by decide), ho₂ _ (by decide), hk₁]
    rfl
  · rw [ho₃ _ (by decide), hk₂]
    rfl

theorem markFailed (h : Holds m b) (n : ℤ) :
    ∃ m', markFailed n m = .ok m' ∧ Holds m' (b.mark ⟨.failed, n⟩) := by
  obtain ⟨m₁, hm₁, hk₁, ho₁⟩ := ChainState.exists_replace (v := .set (b.processing.erase n))
    h.processing
  obtain ⟨m₂, hm₂, hk₂, ho₂⟩ := ChainState.exists_replace (v := .set (insert n b.failed))
    ((ho₁ _ (by decide)).trans h.failed)
  refine ⟨m₂, ?_, ?_, ?_, hk₂⟩
  · rw [State.markFailed, ChainState.fetchSet_of_lookup h.processing,
      ChainState.fetchSet_of_lookup h.failed]
    simp only [bind, Except.bind, hm₁, hm₂]
  · rw [ho₂ _ (by decide), ho₁ _ (by decide), h.last]
    rfl
  · rw [ho₂ _ (by decide), hk₁]
    rfl

end Holds

/-- The process keeps the blocks `b` for Ethereum; for Solana it has what `init` left. -/
structure Sound (s : State) (b : Blocks) : Prop where
  ethereum : Holds (s.chains .ethereum) b
  solana : s.chains .solana = initSolana

theorem sound_init (env : Env) : Sound (init env) .empty := ⟨.initEthereum, rfl⟩

namespace Sound

variable {s : State} {b : Blocks}

theorem update (h : Sound s b) {m : ChainState} {b' : Blocks} (hm : Holds m b') :
    Sound (s.put .ethereum m) b' :=
  ⟨by rwa [put_chains_self], by rw [put_chains_of_ne s (by decide), h.solana]⟩

/-- A mark of a block of Ethereum changes the blocks accordingly. -/
theorem handle_mark (h : Sound s b) (env : Env) (k : Mark) :
    ∃ s' out, handle env (k.msg .ethereum) s = .noreply s' out ∧ Sound s' (b.mark k) := by
  obtain ⟨_ | _ | _, n⟩ := k
  · obtain ⟨m, hm, hb⟩ := h.ethereum.markProcessing n
    exact ⟨_, _, by rw [Mark.msg, handle, hm]; rfl, h.update hb⟩
  · obtain ⟨m, hm, hb⟩ := h.ethereum.markComplete n
    exact ⟨_, _, by rw [Mark.msg, handle, hm]; rfl, h.update hb⟩
  · obtain ⟨m, hm, hb⟩ := h.ethereum.markFailed n
    exact ⟨_, _, by rw [Mark.msg, handle, hm]; rfl, h.update hb⟩

theorem handle_getStats (h : Sound s b) (env : Env) :
    handle env (.getStats .ethereum) s = .reply
      ⟨b.lastBlock, b.processing.card, b.failed.card, env.seconds - s.startTime⟩ s [] := by
  rw [handle, getStats, h.ethereum.counts]

/-- The state of Solana has none of the keys that are read and written. -/
theorem handle_solana (h : Sound s b) (env : Env) (k : Mark) :
    ∃ e, handle env (k.msg .solana) s = .raise e [] := by
  obtain ⟨_ | _ | _, n⟩ := k <;> refine ⟨.key "processing_blocks", ?_⟩ <;>
    rw [Mark.msg, handle, h.solana] <;> rfl

theorem handle_getStats_solana (h : Sound s b) (env : Env) :
    handle env (.getStats .solana) s = .raise (.key "last_block") [] := by
  rw [handle, getStats, h.solana]
  rfl

/-- The metrics of Ethereum are reported, those of Solana raise an error. -/
theorem handle_reportMetrics (h : Sound s b) (env : Env) :
    handle env .reportMetrics s = .raise (.key "last_block")
      [metrics .ethereum (b.lastBlock, b.processing.card, b.failed.card)] := by
  have hs : counts (s.chains .solana) = .error (.key "last_block") := by
    rw [h.solana]
    rfl
  simp only [handle, reportMetrics, h.ethereum.counts, hs]

/-- What a message does: a mark of a block of Ethereum changes the blocks, a request for
    its statistics nothing, and all other messages raise an error. -/
theorem handle_cases (h : Sound s b) (env : Env) (msg : Msg) :
    (∃ k s', msg = k.msg .ethereum ∧ (handle env msg s).next = some s' ∧ Sound s' (b.mark k)) ∨
    (msg = .getStats .ethereum ∧ (handle env msg s).next = some s) ∨
    (¬msg.OnEthereum ∧ (handle env msg s).next = none) := by
  have hmark : ∀ (k : Mark) chain, msg = k.msg chain →
      (∃ k s', msg = k.msg .ethereum ∧ (handle env msg s).next = some s' ∧ Sound s' (b.mark k)) ∨
        (msg = .getStats .ethereum ∧ (handle env msg s).next = some s) ∨
        (¬msg.OnEthereum ∧ (handle env msg s).next = none) := by
    rintro k chain rfl
    rcases chain
    · obtain ⟨s', out, he, hs⟩ := h.handle_mark env k
      exact .inl ⟨k, s', rfl, by rw [he]; rfl, hs⟩
    · obtain ⟨e, he⟩ := h.handle_solana env k
      refine .inr (.inr ⟨?_, by rw [he]; rfl⟩)
      obtain ⟨_ | _ | _, n⟩ := k <;> exact fun hc => Chain.noConfusion hc
  rcases msg with ⟨chain, n⟩ | ⟨chain, n⟩ | ⟨chain, n⟩ | chain | _
  · exact hmark ⟨.processing, n⟩ chain rfl
  · exact hmark ⟨.complete, n⟩ chain rfl
  · exact hmark ⟨.failed, n⟩ chain rfl
  · rcases chain
    · exact .inr (.inl ⟨rfl, by rw [h.handle_getStats]; rfl⟩)
    · exact .inr (.inr ⟨fun hc => Chain.noConfusion hc, by rw [h.handle_getStats_solana]; rfl⟩)
  · exact .inr (.inr ⟨id, by rw [h.handle_reportMetrics]; rfl⟩)

end Sound

/-! ## Both chains -/

/-- After messages that are all handled, the process keeps some blocks. -/
theorem sound_of_handleAll {env₀ : Env} {ls : List (Env × Msg)} {s : State}
    (h : handleAll (init env₀) ls = some s) : ∃ b, Sound s b := by
  induction ls using List.reverseRecOn generalizing s with
  | nil => exact ⟨_, Option.some_inj.1 h ▸ sound_init env₀⟩
  | append_singleton ls l ih =>
    rw [handleAll_concat] at h
    obtain ⟨s₁, h₁, h⟩ := Option.bind_eq_some_iff.1 h
    obtain ⟨b, hb⟩ := ih h₁
    rcases hb.handle_cases l.1 l.2 with ⟨k, s', -, hn, hs⟩ | ⟨-, hn⟩ | ⟨-, hn⟩
    · exact ⟨_, Option.some_inj.1 (hn.symm.trans h) ▸ hs⟩
    · exact ⟨b, Option.some_inj.1 (hn.symm.trans h) ▸ hb⟩
    · rw [hn] at h
      exact absurd h.symm (Option.some_ne_none s)

/-- A sequence of messages is handled without an error iff they only read and write the
    state of Ethereum. -/
theorem handleAll_isSome_iff (env₀ : Env) (ls : List (Env × Msg)) :
    (handleAll (init env₀) ls).isSome ↔ ∀ l ∈ ls, l.2.OnEthereum := by
  induction ls using List.reverseRecOn with
  | nil => exact ⟨fun _ _ h => absurd h List.not_mem_nil, fun _ => rfl⟩
  | append_singleton ls l ih =>
    rw [handleAll_concat, List.forall_mem_append, List.forall_mem_singleton, ← ih]
    rcases hs : handleAll (init env₀) ls with _ | s
    · simp
    · obtain ⟨b, hb⟩ := sound_of_handleAll hs
      rw [Option.bind_some]
      rcases hb.handle_cases l.1 l.2 with ⟨k, s', hk, hn, -⟩ | ⟨hk, hn⟩ | ⟨hk, hn⟩
      · rw [hn, hk]
        exact ⟨fun _ => ⟨rfl, k.onEthereum⟩, fun _ => rfl⟩
      · rw [hn, hk]
        exact ⟨fun _ => ⟨rfl, rfl⟩, fun _ => rfl⟩
      · rw [hn]
        exact ⟨fun h => absurd h Bool.false_ne_true, fun h => absurd h.2 hk⟩

/-- The statistics of Solana are never given. -/
theorem statsAfter_solana (env₀ : Env) (ls : List (Env × Msg)) (env : Env) :
    statsAfter env₀ ls env .solana = none := by
  rw [statsAfter]
  rcases hs : handleAll (init env₀) ls with _ | s
  · rfl
  · obtain ⟨b, hb⟩ := sound_of_handleAll hs
    rw [Option.bind_some, hb.handle_getStats_solana]
    rfl

/-- A message about a chain, without the chain, or the timer. -/
inductive Op
  | mark (k : Mark)
  | getStats
  | reportMetrics

/-- The message about a chain. -/
def Op.msg (chain : Chain) : Op → Msg
  | mark k => k.msg chain
  | getStats => .getStats chain
  | reportMetrics => .reportMetrics

/-- The sequence addressed to either chain yields the same counts. -/
def SameStats (env₀ : Env) (ls : List (Env × Op)) (env : Env) : Prop :=
  ∃ ethereum solana,
    statsAfter env₀ (ls.map fun l => (l.1, l.2.msg .ethereum)) env .ethereum = some ethereum ∧
    statsAfter env₀ (ls.map fun l => (l.1, l.2.msg .solana)) env .solana = some solana ∧
    ethereum.counts = solana.counts

/-- The process does not treat the chains alike: it handles exactly the sequences without a
    message about Solana and without a report, and no sequence yields the same statistics
    for both. -/
theorem chains_alike_iff (env₀ : Env) :
    (∀ ls, (handleAll (init env₀) ls).isSome ↔ ∀ l ∈ ls, l.2.OnEthereum) ∧
      ∀ ls env, ¬SameStats env₀ ls env := by
  refine ⟨handleAll_isSome_iff env₀, fun ls env => ?_⟩
  rintro ⟨_, solana, -, hs, -⟩
  rw [statsAfter_solana] at hs
  exact absurd hs.symm (Option.some_ne_none solana)

/-- A block of Solana is marked as processing. -/
theorem chains_not_alike :
    ¬(handleAll (init ⟨0, 0⟩) [(⟨0, 0⟩, .markProcessing .solana 7)]).isSome ∧
      (handleAll (init ⟨0, 0⟩) [(⟨0, 0⟩, .markProcessing .ethereum 7)]).isSome ∧
      statsAfter ⟨0, 0⟩ [] ⟨0, 0⟩ .solana = none := by
  decide

/-! ## Ethereum -/

/-- The casts of marks of blocks of Ethereum. -/
def casts (ks : List (Env × Mark)) : List (Env × Msg) :=
  ks.map fun k => (k.1, k.2.msg .ethereum)

/-- After marks, the process keeps the blocks of their history. -/
theorem exists_handleAll_casts (env₀ : Env) (ks : List (Env × Mark)) :
    ∃ s, handleAll (init env₀) (casts ks) = some s ∧
      Sound s (.ofHistory (ks.map Prod.snd)) := by
  induction ks using List.reverseRecOn with
  | nil => exact ⟨_, rfl, sound_init env₀⟩
  | append_singleton ks k ih =>
    obtain ⟨s, hs, hb⟩ := ih
    obtain ⟨s', out, he, hb'⟩ := hb.handle_mark k.1 k.2
    refine ⟨s', ?_, ?_⟩
    · rw [casts, List.map_append, List.map_singleton, handleAll_concat, ← casts, hs,
        Option.bind_some, he]
      rfl
    · rw [List.map_append, List.map_singleton, Blocks.ofHistory, List.foldl_append]
      exact hb'

theorem counts_statsAfter (env₀ : Env) (ks : List (Env × Mark)) (env : Env) :
    (statsAfter env₀ (casts ks) env .ethereum).map Stats.counts =
      some ((Blocks.ofHistory (ks.map Prod.snd)).lastBlock,
        (Blocks.ofHistory (ks.map Prod.snd)).processing.card,
        (Blocks.ofHistory (ks.map Prod.snd)).failed.card) := by
  obtain ⟨s, hs, hb⟩ := exists_handleAll_casts env₀ ks
  rw [statsAfter, hs, Option.bind_some, hb.handle_getStats]
  rfl

/-- The statistics are a function of the history of each block: a block is in progress iff
    its last event says so, it is failed iff its last end does, and the last block is the
    greatest of 0 and the completed ones. -/
theorem stats_of_history (env₀ : Env) (ks : List (Env × Mark)) :
    (∃ s last processing failed, handleAll (init env₀) (casts ks) = some s ∧
      (s.chains .ethereum).fetchInt "last_block" = .ok last ∧
      (s.chains .ethereum).fetchSet "processing_blocks" = .ok processing ∧
      (s.chains .ethereum).fetchSet "failed_blocks" = .ok failed ∧
      (∀ n, n ∈ processing ↔ lastEvent (ks.map Prod.snd) n = some .processing) ∧
      (∀ n, n ∈ failed ↔ lastEnd (ks.map Prod.snd) n = some .failed) ∧
      IsGreatest (insert 0 {n | ⟨.complete, n⟩ ∈ ks.map Prod.snd}) last ∧
      ∀ env, (statsAfter env₀ (casts ks) env .ethereum).map Stats.counts =
        some (last, processing.card, failed.card)) ∧
    ∀ env₀' ks' env env', (∀ n, History.about Mark.number n (ks.map Prod.snd) =
        History.about Mark.number n (ks'.map Prod.snd)) →
      (statsAfter env₀ (casts ks) env .ethereum).map Stats.counts =
        (statsAfter env₀' (casts ks') env' .ethereum).map Stats.counts := by
  refine ⟨?_, fun env₀' ks' env env' hk => ?_⟩
  · obtain ⟨s, hs, hb⟩ := exists_handleAll_casts env₀ ks
    exact ⟨s, _, _, _, hs, ChainState.fetchInt_of_lookup hb.ethereum.last,
      ChainState.fetchSet_of_lookup hb.ethereum.processing,
      ChainState.fetchSet_of_lookup hb.ethereum.failed, Blocks.mem_processing_iff _,
      Blocks.mem_failed_iff _, Blocks.isGreatest_lastBlock _,
      counts_statsAfter env₀ ks⟩
  · rw [counts_statsAfter, counts_statsAfter, Blocks.ofHistory_congr hk]

/-- No block of Ethereum is both in progress and failed. -/
def Apart (s : State) : Prop :=
  ∃ processing failed, (s.chains .ethereum).fetchSet "processing_blocks" = .ok processing ∧
    (s.chains .ethereum).fetchSet "failed_blocks" = .ok failed ∧ Disjoint processing failed

/-- The message does not mark a failed block of Ethereum as processing. -/
def TakesNoFailed (s : State) (l : Env × Msg) : Prop :=
  ∀ n failed, l.2 = .markProcessing .ethereum n →
    (s.chains .ethereum).fetchSet "failed_blocks" = .ok failed → n ∉ failed

namespace Sound

variable {s : State} {b : Blocks}

theorem apart_iff (h : Sound s b) : Apart s ↔ Disjoint b.processing b.failed := by
  have hp := ChainState.fetchSet_of_lookup h.ethereum.processing
  have hf := ChainState.fetchSet_of_lookup h.ethereum.failed
  constructor
  · rintro ⟨_, _, hp', hf', hd⟩
    cases hp.symm.trans hp'
    cases hf.symm.trans hf'
    exact hd
  · exact fun hd => ⟨_, _, hp, hf, hd⟩

theorem takesNoFailed_iff (h : Sound s b) (env : Env) (msg : Msg) :
    TakesNoFailed s (env, msg) ↔ ∀ n, msg = .markProcessing .ethereum n → n ∉ b.failed := by
  have hf := ChainState.fetchSet_of_lookup h.ethereum.failed
  constructor
  · exact fun ht n hm => ht n _ hm hf
  · intro hn n failed hm hf'
    cases hf.symm.trans hf'
    exact hn n hm

end Sound

theorem exists_sound_of_reachable {env₀ : Env} {s : State} (h : (machine env₀).Reachable s) :
    ∃ b, Sound s b := by
  refine h.invariant (P := fun s => ∃ b, Sound s b) ⟨_, sound_init env₀⟩ ?_
  rintro s l s' ⟨b, hb⟩ hst
  cases hst
  rcases hb.handle_cases l.1 l.2 with ⟨k, s', -, hn, hs⟩ | ⟨-, hn⟩ | ⟨-, hn⟩
  · exact ⟨_, by rw [hn]; exact hs⟩
  · exact ⟨b, by rw [hn]; exact hb⟩
  · exact ⟨_, by rw [hn]; exact sound_init l.1⟩

/-- A run keeps the blocks in progress apart from the failed ones iff it never takes up a
    failed block again. -/
theorem apart_iff_takesNoFailed (env₀ : Env) (ls : List (Env × Msg)) (s : State) :
    (machine env₀).RunThrough Apart ls s ↔ (machine env₀).RunWhere TakesNoFailed ls s := by
  have hinit : ∀ env, Apart (init env) := fun env =>
    (sound_init env).apart_iff.2 (Finset.disjoint_empty_left _)
  refine Machine.runThrough_iff_runWhere (hinit env₀) ?_
  rintro s ⟨env, msg⟩ s' hr hp hst
  obtain ⟨b, hb⟩ := exists_sound_of_reachable hr
  cases hst
  rw [hb.takesNoFailed_iff]
  rcases hb.handle_cases env msg with ⟨k, s', hk, hn, hs⟩ | ⟨hk, hn⟩ | ⟨hk, hn⟩ <;>
    simp only [hn, Option.getD_some, Option.getD_none]
  · rw [hs.apart_iff, Blocks.disjoint_mark_iff (hb.apart_iff.1 hp), hk]
    obtain ⟨_ | _ | _, n⟩ := k <;> simp [Mark.msg]
  · exact iff_of_true hp fun n hc => by cases hk.symm.trans hc
  · exact iff_of_true (hinit env) fun n hc => absurd (hc ▸ rfl) hk

/-- A block that failed is taken up again. -/
def retryingOne : List (Env × Msg) :=
  [(⟨0, 0⟩, .markFailed .ethereum 5), (⟨0, 0⟩, .markProcessing .ethereum 5)]

theorem not_forall_apart :
    ∃ s, (machine ⟨0, 0⟩).Run retryingOne s ∧
      (s.chains .ethereum).fetchSet "processing_blocks" = .ok {5} ∧
      (s.chains .ethereum).fetchSet "failed_blocks" = .ok {5} ∧ ¬Apart s := by
  refine ⟨_, Machine.run_of_exec rfl, rfl, rfl, ?_⟩
  rintro ⟨_, _, hp, hf, hd⟩
  cases hp
  cases hf
  exact absurd hd (by decide)

end Sylph.DataProcessor.State
