import Sylph.Sync.HistoricalSync

/-!
# The historical synchronisation at genesis

The loop is only defined for blocks from genesis on (`Loop.Guarded`), and moves down a block
with every batch that succeeds (`historicalSyncLoop_down_iff`). Nothing stops it at genesis:
it gets there and below if no range fails (`exists_run_down`), and a run stays within the
guard only as long as no batch from genesis succeeds (`runThrough_guarded_iff`).
-/

namespace Sylph.Sync.Syncer

open Lib Elixir

variable {chain : Chain} {earliest safe : ℤ}

/-! ## One pass -/

/-- The loop is not entered below genesis, where its guard fails. -/
def Loop.Guarded (s : Loop) : Prop := ∀ current, s.position = .at current → 0 ≤ current

/-- All ranges of the batch that starts at `current` succeed. -/
def Succeeds (chain : Chain) (target current : ℤ) (answer : Answer) : Prop :=
  ∃ range batchSize ranges result,
    BlockRange.calculateNextRange chain current target = .ok (range, batchSize) ∧
    BlockRange.splitRange range batchSize = .ok ranges ∧
    answer = .results result ∧ ∀ r ∈ ranges, result r = .ok ()

/-- The next range starts at the current block. -/
theorem fst_of_calculateNextRange {target current batchSize : ℤ} {range : Range}
    (h : BlockRange.calculateNextRange chain current target = .ok (range, batchSize)) :
    range.1 = current ∧ current < target := by
  rcases Int.lt_or_le current target with hlt | hge
  · obtain ⟨endBlock, hr, -, -⟩ := BlockRange.calculateNextRange_of_lt chain hlt
    cases hr.symm.trans h
    exact ⟨rfl, hlt⟩
  · rw [BlockRange.calculateNextRange_of_ge chain hge] at h
    exact absurd h nofun

/-- The loop moves down if and only if the batch succeeds. -/
theorem historicalSyncLoop_down_iff {target current : ℤ} {answer : Answer} (h₀ : 0 ≤ current) :
    (∃ batches, historicalSyncLoop chain target answer current =
      some (.at (current - 1), batches)) ↔ Succeeds chain target current answer := by
  constructor
  · rintro ⟨batches, h⟩
    rcases historicalSyncLoop_eq_some h with ⟨-, hn, -⟩ | ⟨-, hn, -⟩ |
      ⟨endBlock, ranges, -, hr, hs, h⟩
    · exact absurd hn nofun
    · -- At the target the loop waits where it is.
      injection hn
      omega
    rcases processRanges_eq_some h with ⟨reason, hn, -⟩ | ⟨result, rfl, -, hnext⟩
    · exact absurd hn nofun
    rcases hnext with ⟨hall, -⟩ | ⟨-, hn⟩
    · exact ⟨_, _, ranges, result, hr, hs, rfl, hall⟩
    · -- A failure leaves the loop where it is.
      injection hn
      omega
  · rintro ⟨range, batchSize, ranges, result, hr, hs, rfl, hok⟩
    rw [historicalSyncLoop_of_ranges h₀ hr hs, (fst_of_calculateNextRange hr).1]
    exact ⟨_, processRanges_of_ok hok⟩

/-- A step from within the guard leaves it if and only if it is a pass from genesis whose
    batch succeeds. -/
theorem Loop.guarded_step_iff {s s' : Loop} {answer : Answer} (hg : s.Guarded)
    (hst : (machine chain earliest safe).step s answer = some s') :
    s'.Guarded ↔ ¬(s.position = .at 0 ∧ Succeeds chain safe 0 answer) := by
  obtain ⟨current, next, batches, hp, hl, rfl⟩ := step_eq_some hst
  have h₀ := hg current hp
  constructor
  · rintro hg' ⟨hp', hs⟩
    cases hp.symm.trans hp'
    obtain ⟨more, hd⟩ := (historicalSyncLoop_down_iff h₀).2 hs
    rw [hd] at hl
    cases hl
    exact absurd (hg' _ rfl) (by decide)
  · intro hn current' hp'
    obtain rfl : next = .at current' := hp'
    rcases historicalSyncLoop_cases hl with ⟨reason, hx, -⟩ | ⟨hx, -⟩ |
      ⟨batch, -, ⟨-, -, hx⟩ | ⟨-, hx⟩⟩ <;> cases hx
    · exact h₀
    · -- The loop has moved down: it has not been at genesis.
      have hd := (historicalSyncLoop_down_iff h₀).1 ⟨_, hl⟩
      have hne : current ≠ 0 := by
        rintro rfl
        exact hn ⟨hp, hd⟩
      omega
    · exact h₀

/-! ## Runs -/

/-- A run stays within the guard of the loop if and only if there is a historical block to
    begin with, and no batch from genesis succeeds. -/
theorem runThrough_guarded_iff (chain : Chain) (earliest safe : ℤ) (answers : List Answer)
    (s : Loop) : (machine chain earliest safe).RunThrough Loop.Guarded answers s ↔
      0 < earliest ∧ (machine chain earliest safe).RunWhere
        (fun s answer => ¬(s.position = .at 0 ∧ Succeeds chain safe 0 answer)) answers s := by
  have hinit : (machine chain earliest safe).init.Guarded ↔ 0 < earliest := by
    refine ⟨fun h => ?_, fun h current hp => ?_⟩
    · have := h _ rfl
      omega
    · cases hp
      omega
  constructor
  · intro h
    exact ⟨hinit.1 h.init, (Machine.runThrough_iff_runWhere h.init
      fun _ _ _ _ hg hst => Loop.guarded_step_iff hg hst).1 h⟩
  · rintro ⟨he, h⟩
    exact (Machine.runThrough_iff_runWhere (hinit.2 he)
      fun _ _ _ _ hg hst => Loop.guarded_step_iff hg hst).2 h

/-- From every block, the loop gets below genesis if no range fails. -/
theorem exists_run_down (chain : Chain) (hs : earliest ≤ safe) (n : ℕ) (hn : n ≤ earliest) : ∃ s,
    (machine chain earliest safe).Run (List.replicate n (.results fun _ => .ok ())) s ∧
      s.position = .at (earliest - 1 - n) := by
  induction n with
  | zero => exact ⟨_, .nil, by simp [machine]⟩
  | succ n ih =>
    obtain ⟨s, hr, hp⟩ := ih (by omega)
    have hlt : earliest - 1 - n < safe := by omega
    obtain ⟨endBlock, hc, -, -⟩ := BlockRange.calculateNextRange_of_lt chain hlt
    obtain ⟨ranges, hd⟩ := BlockRange.exists_splitRange (earliest - 1 - n, endBlock)
      (show 0 < BlockRange.defaultBatchSize by decide)
    obtain ⟨batches, hl⟩ : ∃ batches, historicalSyncLoop chain safe (.results fun _ => .ok ())
        (earliest - 1 - n) = some (.at (earliest - 1 - n - 1), batches) :=
      (historicalSyncLoop_down_iff (by omega)).2 ⟨_, _, ranges, _, hc, hd, rfl, fun _ _ => rfl⟩
    refine ⟨⟨.at (earliest - 1 - n - 1), s.batches ++ batches⟩, ?_, ?_⟩
    · rw [List.replicate_succ']
      refine .snoc hr ?_
      simp only [machine, hp, hl, Option.map_some]
    · simp only [Position.at.injEq]
      omega

/-- With one historical block, a batch that succeeds leaves the loop below genesis, to be
    entered there. -/
theorem not_forall_guarded : ¬∀ (chain : Chain) (earliest safe : ℤ), 0 ≤ earliest →
    earliest ≤ safe → ∀ answers s, (machine chain earliest safe).Run answers s → s.Guarded := by
  intro h
  obtain ⟨s, hr, hp⟩ := exists_run_down .ethereum (Int.le_refl 1) 1 (Int.le_refl 1)
  exact absurd (h .ethereum 1 1 (by decide) (by decide) _ s hr _ hp) (by decide)

end Sylph.Sync.Syncer
