import Sylph.Lib.ReadWrite
import Sylph.Schema.MissingBlock

/-!
# Failures recorded at the same time

Calls of `record_failure` about one block from several processes: each looks the row up in
one step and writes it in a later one, in any order.

* `recording`: the two steps, on the table of the missing blocks; the attempts of the row
  count the calls (`counts_attempts`), since a call that has found a row writes one
  attempt more than it has found, and one that has found none is refused if there is a
  row by then.
* `attempts_eq_iff`: hence the attempts are those at first and the number of the calls
  iff no call writes after another one has, since it has looked the row up.
-/

namespace Sylph.Schema.MissingBlock

open Lib Elixir Ecto Sync

/-- A valid call about a block. -/
structure CallOn (k : Key) where
  failure : Failure
  on : failure.key = k
  valid : failure.Valid

/-- The two steps of the calls about a block. -/
def recording (k : Key) : ReadWrite Rows (Option Row) (CallOn k) where
  read t := t.find k
  write c existing t := (writeFailure c.failure existing t).2

/-- The attempts of a row, none if there is no row. -/
def attemptsOf (r : Option Row) : ℤ := (r.map Row.attempts).getD 0

/-- The attempts count the calls. -/
theorem counts_attempts (k : Key) : (recording k).Counts attemptsOf where
  fresh c t := by
    obtain ⟨f, rfl, hv⟩ := c
    rcases hr : t.find f.key with _ | r
    · obtain ⟨_, t', r, hw, hf, -, ha, -⟩ := exists_writeFailure_none hv hr
      simp only [recording, hr, hw, hf, if_pos, attemptsOf, Option.map_some, Option.getD_some, ha]
      rfl
    · obtain ⟨_, t', r', hw, hf, ha, -⟩ := exists_writeFailure_some hv (e := r) hr
      simp only [recording, hr, hw, hf, if_pos, attemptsOf, Option.map_some, Option.getD_some, ha]
  stale c existing t hn := by
    obtain ⟨f, rfl, hv⟩ := c
    change t.find f.key ≠ existing at hn
    rcases hr : t.find f.key with _ | r
    · -- There is no row: a call that has found one writes nothing.
      rcases existing with _ | e
      · exact absurd hr hn
      · have hw : (writeFailure f (some e) t).2 = t := Repo.update_of_find_none schema _ hr
        exact .inr (by simp only [recording, hw])
    · rcases existing with _ | e
      · obtain ⟨_, hw⟩ := exists_writeFailure_of_find hv hr
        exact .inr (by simp only [recording, hw])
      · obtain ⟨_, t', r', hw, hf, ha, -⟩ := exists_writeFailure_some hv (e := e) hr
        refine .inl ?_
        simp only [recording, hw, hf, if_pos, attemptsOf, Option.map_some, Option.getD_some, ha]

/-- When all calls have finished, the attempts are those at first and the number of the
    calls iff every call that has written found the row as it had looked it up. -/
theorem attempts_eq_iff (k : Key) (t₀ : Rows) (calls : List (CallOn k))
    (ls : List ReadWrite.Label) (s : ReadWrite.State Rows (Option Row) (CallOn k))
    (h : ((recording k).machine t₀ calls).Run ls s)
    (hf : ∀ c ∈ s.calls, c.2.isFinished = true) :
    attemptsOf (s.shared.find k) = attemptsOf (t₀.find k) + calls.length ↔
      ((recording k).machine t₀ calls).RunWhere (recording k).Fresh ls s := by
  have hn : s.finished = calls.length := by
    rw [ReadWrite.State.finished, List.countP_eq_length.2 hf, ReadWrite.length_calls h.reachable]
  rw [← ReadWrite.lossless_iff (counts_attempts k) h, ReadWrite.Lossless, hn]
  rfl

/-- A call about the block 5 of Ethereum. -/
def timedOut : CallOn ("ethereum", 5) where
  failure := { chain := .ethereum, blockNumber := 5, errorType := "timeout", now := 0 }
  on := rfl
  valid := ⟨rfl, fun _ h => absurd h.symm (Option.some_ne_none _)⟩

/-- One call after the other. -/
def oneByOne : List ReadWrite.Label := [.read 0, .write 0, .read 1, .write 1]

/-- Both calls look the row up first. -/
def atOnce : List ReadWrite.Label := [.read 0, .read 1, .write 0, .write 1]

theorem attempts_oneByOne :
    ∃ s, ((recording ("ethereum", 5)).machine .empty [timedOut, timedOut]).RunWhere
      (recording ("ethereum", 5)).Fresh oneByOne s ∧
        attemptsOf (s.shared.find ("ethereum", 5)) = 2 := by
  have h : ((recording ("ethereum", 5)).machine .empty [timedOut, timedOut]).Run oneByOne _ :=
    Machine.run_of_exec rfl
  exact ⟨_, (attempts_eq_iff ("ethereum", 5) .empty [timedOut, timedOut] oneByOne _ h
    (by decide)).1 (by decide), by decide⟩

/-- Of two calls that look up a block without a row at the same time, one is lost. -/
theorem not_forall_attempts_eq :
    ∃ s, ((recording ("ethereum", 5)).machine .empty [timedOut, timedOut]).Run atOnce s ∧
      (∀ c ∈ s.calls, c.2.isFinished = true) ∧
      attemptsOf (s.shared.find ("ethereum", 5)) = 1 ∧
      attemptsOf (s.shared.find ("ethereum", 5)) ≠
        attemptsOf ((.empty : Rows).find ("ethereum", 5)) + 2 :=
  ⟨_, Machine.run_of_exec rfl, by decide, by decide, by decide⟩

end Sylph.Schema.MissingBlock
