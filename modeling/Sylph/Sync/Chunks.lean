import Sylph.Sync.Syncer

/-!
# Streams in chunks

A stream is submitted in chunks of 50 items, by a fold over the chunks around a fold over
the items of each.

* `submitBatches_eq`: that is one fold over the items, whatever the chunks.
* `processBlockStream_spec`: hence the blocks are submitted in order, once each, up to the
  first item or submission that fails, whose failure is the result.
-/

namespace Sylph.Sync.Syncer

open Lib Elixir

variable {chain : Chain} {pool : List Submission → Submission → Result Term}

/-! ## One fold -/

/-- The items of two streams in a row: the second one's come after the first one's, if these
    succeed. -/
theorem submitBlocksBatch_append (before : List Submission) (xs ys : List Item) :
    submitBlocksBatch chain pool before (xs ++ ys) =
      match submitBlocksBatch chain pool before xs with
      | (submissions, .ok (.ok ())) =>
        let (more, result) := submitBlocksBatch chain pool (before ++ submissions) ys
        (submissions ++ more, result)
      | (submissions, result) => (submissions, result) := by
  induction xs generalizing before with
  | nil => simp [submitBlocksBatch]
  | cons item xs ih =>
    rcases item with reason | block
    · rfl
    · rw [List.cons_append, submitBlocksBatch, submitBlocksBatch]
      rcases blockSubmission chain block with e | s
      · rfl
      · simp only
        rcases pool before s with reason | ⟨⟩
        · rfl
        · rw [ih]
          rcases submitBlocksBatch chain pool (before ++ [s]) xs with ⟨submissions, e | reason | ⟨⟩⟩
            <;> simp

/-- Batches are submitted like the items they are made of. -/
theorem submitBatches_eq (before : List Submission) (batches : List (List Item)) :
    submitBatches chain pool before batches =
      submitBlocksBatch chain pool before batches.flatten := by
  induction batches generalizing before with
  | nil => rfl
  | cons blocks batches ih =>
    rw [submitBatches, List.flatten_cons, submitBlocksBatch_append]
    rcases submitBlocksBatch chain pool before blocks with ⟨submissions, e | reason | ⟨⟩⟩
    · rfl
    · rfl
    · simp only [ih]

/-! ## What is submitted -/

/-- A block that carries a number and a hash. -/
def Carries (block : Term) : Prop :=
  (∃ number, block.get? "number" = some number) ∧ ∃ hash, block.get? "hash" = some hash

/-- A submission is the task for the block of an item. -/
def Submission.IsFor (chain : Chain) (item : Item) (s : Submission) : Prop :=
  ∃ block, item = .ok block ∧ blockSubmission chain block = .ok s

/-- The submissions are accepted, each given those before it. -/
def Accepted (pool : List Submission → Submission → Result Term) (before : List Submission) :
    List Submission → Prop
  | [] => True
  | s :: submissions => pool before s = .ok () ∧ Accepted pool (before ++ [s]) submissions

/-- How the submission of a stream ends, with `before` accepted and the items `rest` left:
    what is submitted of them, and the result. -/
inductive Ends (chain : Chain) (pool : List Submission → Submission → Result Term)
    (before : List Submission) : List Item → List Submission → Result Term → Prop
  /-- There is no failure. -/
  | all : Ends chain pool before [] [] (.ok ())
  /-- The next item is an error. -/
  | item (reason : Term) (later : List Item) :
    Ends chain pool before (.error reason :: later) [] (.error reason)
  /-- The submission of the next block fails. -/
  | submission {block reason : Term} {s : Submission} (later : List Item)
    (hs : blockSubmission chain block = .ok s) (hp : pool before s = .error reason) :
    Ends chain pool before (.ok block :: later) [s] (.error reason)

theorem exists_blockSubmission (chain : Chain) {block : Term} (h : Carries block) :
    ∃ s, blockSubmission chain block = .ok s := by
  obtain ⟨⟨number, hn⟩, hash, hh⟩ := h
  rw [← Term.fetch_eq_ok_iff] at hn hh
  exact ⟨_, by rw [blockSubmission, hn, hh]; rfl⟩

/-- The blocks of a stream are submitted up to the first failure. -/
theorem submitBlocksBatch_spec (before : List Submission) (items : List Item)
    (hc : ∀ block, .ok block ∈ items → Carries block) :
    ∃ done rest submissions failed result, items = done ++ rest ∧
      List.Forall₂ (Submission.IsFor chain) done submissions ∧
      Accepted pool before submissions ∧
      Ends chain pool (before ++ submissions) rest failed result ∧
      submitBlocksBatch chain pool before items = (submissions ++ failed, .ok result) := by
  induction items generalizing before with
  | nil =>
    exact ⟨[], [], [], [], .ok (), rfl, .nil, trivial, .all, rfl⟩
  | cons item items ih =>
    rcases item with reason | block
    · exact ⟨[], _, [], [], .error reason, rfl, .nil, trivial, .item reason items, rfl⟩
    · obtain ⟨s, hs⟩ := exists_blockSubmission chain (hc block List.mem_cons_self)
      rcases hp : pool before s with reason | ⟨⟩
      · refine ⟨[], _, [], [s], .error reason, rfl, .nil, trivial, .submission items hs ?_, ?_⟩
        · rw [List.append_nil, hp]
        · simp [submitBlocksBatch, hs, hp]
      · -- The block is accepted, and the rest submitted after it.
        obtain ⟨done, rest, submissions, failed, result, rfl, hd, ha, he, hb⟩ :=
          ih (before ++ [s]) fun b hm => hc b (List.mem_cons_of_mem _ hm)
        refine ⟨.ok block :: done, rest, s :: submissions, failed, result, rfl,
          .cons ⟨block, rfl, hs⟩ hd, ⟨hp, ha⟩, ?_, ?_⟩
        · simpa using he
        · simp [submitBlocksBatch, hs, hp, hb]

/-- Whatever the size of the chunks, the blocks of a stream are submitted in order and once
    each, up to the first item or submission that fails, whose failure is the result. -/
theorem processBlockStream_spec (chain : Chain)
    (pool : List Submission → Submission → Result Term) (stream : List Item)
    (hc : ∀ block, .ok block ∈ stream → Carries block) :
    (∀ n, submitBatches chain pool [] (chunkEvery n stream) =
      processBlockStream chain pool stream) ∧
    ∃ done rest submissions failed result, stream = done ++ rest ∧
      List.Forall₂ (Submission.IsFor chain) done submissions ∧
      Accepted pool [] submissions ∧
      Ends chain pool submissions rest failed result ∧
      processBlockStream chain pool stream = (submissions ++ failed, .ok result) := by
  have hflat : ∀ n, submitBatches chain pool [] (chunkEvery n stream) =
      submitBlocksBatch chain pool [] stream := fun n => by
    rw [submitBatches_eq, flatten_chunkEvery]
  refine ⟨fun n => (hflat n).trans (hflat 50).symm, ?_⟩
  rw [processBlockStream, hflat]
  exact submitBlocksBatch_spec [] stream hc

/-- A block, and an error after it. -/
theorem processBlockStream_spec_two :
    (∀ n, submitBatches .ethereum (fun _ _ => .ok ()) []
      (chunkEvery n [.ok (blockData (.int 7) .nil .nil), .error .nil]) =
      processBlockStream .ethereum (fun _ _ => .ok ())
        [.ok (blockData (.int 7) .nil .nil), .error .nil]) ∧
    ∃ done rest submissions failed result,
      [.ok (blockData (.int 7) .nil .nil), .error .nil] = done ++ rest ∧
      List.Forall₂ (Submission.IsFor .ethereum) done submissions ∧
      Accepted (fun _ _ => .ok ()) [] submissions ∧
      Ends .ethereum (fun _ _ => .ok ()) submissions rest failed result ∧
      processBlockStream .ethereum (fun _ _ => .ok ())
        [.ok (blockData (.int 7) .nil .nil), .error .nil] = (submissions ++ failed, .ok result) :=
  processBlockStream_spec .ethereum _ _ fun block hb => by
    obtain rfl : block = blockData (.int 7) .nil .nil := by simpa using hb
    exact ⟨⟨_, rfl⟩, _, rfl⟩

end Sylph.Sync.Syncer
