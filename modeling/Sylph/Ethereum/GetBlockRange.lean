import Sylph.Lib.Go
import Sylph.Lib.Machine
import Sylph.Proto.Ethereum

/-!
# Ranges of blocks

`EthereumService.GetBlockRange` of the Ethereum service: a handler that starts a
goroutine for every block of the range, at most ten at a time (`sem`), each of which
fetches the block and sends it on the stream of the call; it waits for them (`wg`) and
returns the first error, if there is one (`errCh`).

`machine` interleaves the steps of the handler (`Main`) and of its goroutines (`Pc`), one
operation on shared state at a time, with the answers of the node and of the stream.
Between the beginning and the end of a send, others may take steps. The state also
records the messages sent, with the number each is for, and the errors that occur. A fetch that
panics ends the process, and with it the run; this step is added in `Sylph.Ethereum.RangeEnds`.
-/

namespace Sylph.Ethereum

open Lib Go Proto.Ethereum

/-- A request for the blocks of a range, ends included. -/
structure GetBlockRangeRequest where
  startBlock : Int64
  endBlock : Int64

namespace GetBlockRange

/-- Where a goroutine is. -/
inductive Pc
  /-- `s.fetchBlockData(…)` -/
  | fetch
  /-- `select { case errCh <- err: default: }` -/
  | report (err : String)
  /-- Before `stream.Send(blockData)`. -/
  | ready (blockData : BlockData)
  /-- In `stream.Send(blockData)`. -/
  | sending (blockData : BlockData)
  /-- `<-sem` -/
  | release
  /-- `wg.Done()` -/
  | done
  | finished

/-- A goroutine, and the block it is for. -/
structure Goroutine where
  num : Int64
  pc : Pc

/-- Where the handler is. -/
inductive Main
  /-- `blockNum <= req.EndBlock` -/
  | test (blockNum : Int64)
  /-- `sem <- struct{}{}` -/
  | acquire (blockNum : Int64)
  /-- `wg.Add(1)` -/
  | add (blockNum : Int64)
  /-- `go func(num int64) {…}(blockNum)`, and `blockNum++` -/
  | spawn (blockNum : Int64)
  /-- `wg.Wait()` -/
  | wait
  /-- `close(sem)` -/
  | close
  /-- `select { case err := <-errCh: …; default: … }` -/
  | select
  | returned (err : Option String)

/-- A call: the handler, its goroutines, and what they share. -/
structure State where
  main : Main
  goroutines : List Goroutine
  sem : Chan Unit 10
  wg : ℤ
  errCh : Chan String 1
  /-- The messages sent. -/
  sent : List (Int64 × BlockData)
  /-- The errors of fetches and sends. -/
  failures : List String

/-- The handler, called with a request. -/
def init (req : GetBlockRangeRequest) : State where
  main := .test req.startBlock
  goroutines := []
  sem := .make
  wg := 0
  errCh := .make
  sent := []
  failures := []

/-- A step of the handler, unless it blocks. -/
def mainStep (req : GetBlockRangeRequest) (s : State) : Option State :=
  match s.main with
  | .test blockNum =>
    some { s with main := if blockNum ≤ req.endBlock then .acquire blockNum else .wait }
  | .acquire blockNum =>
    (s.sem.send? ()).map fun sem => { s with sem := sem, main := .add blockNum }
  | .add blockNum => some { s with wg := s.wg + 1, main := .spawn blockNum }
  | .spawn blockNum =>
    some { s with
      goroutines := s.goroutines ++ [⟨blockNum, .fetch⟩]
      main := .test (blockNum + 1) }
  | .wait => if s.wg = 0 then some { s with main := .close } else none
  -- No goroutine is left to notice.
  | .close => some { s with main := .select }
  | .select =>
    match s.errCh.recv? with
    | some (err, errCh) => some { s with errCh := errCh, main := .returned (some err) }
    | none => some { s with main := .returned none }
  | .returned _ => none

/-- The steps of a goroutine, with the answers of the node and the stream. -/
inductive Act
  | fetch (result : Except String BlockData)
  | report
  | beginSend
  | endSend (err : Option String)
  | release
  | done

/-- A step of a goroutine for the block `num` on the shared state, and where it leads,
    unless it blocks. -/
def goStep (num : Int64) (s : State) : Pc → Act → Option (State × Pc)
  | .fetch, .fetch (.ok blockData) => some (s, .ready blockData)
  | .fetch, .fetch (.error err) => some ({ s with failures := s.failures ++ [err] }, .report err)
  | .report err, .report => some ({ s with errCh := s.errCh.trySend err }, .release)
  | .ready blockData, .beginSend => some (s, .sending blockData)
  | .sending blockData, .endSend none =>
    some ({ s with sent := s.sent ++ [(num, blockData)] }, .release)
  | .sending _, .endSend (some err) =>
    some ({ s with failures := s.failures ++ [err] }, .report err)
  | .release, .release => s.sem.recv?.map fun (_, sem) => ({ s with sem := sem }, .done)
  | .done, .done => some ({ s with wg := s.wg - 1 }, .finished)
  | _, _ => none

/-- A step of the handler, or of its `i`-th goroutine. -/
inductive Label
  | main
  | go (i : ℕ) (act : Act)

/-- The steps of a call. -/
def step (req : GetBlockRangeRequest) (s : State) : Label → Option State
  | .main => mainStep req s
  | .go i act => do
    let g ← s.goroutines[i]?
    let (s, pc) ← goStep g.num s g.pc act
    return { s with goroutines := s.goroutines.set i { g with pc := pc } }

/-- A call of the handler. -/
def machine (req : GetBlockRangeRequest) : Machine State Label := ⟨init req, step req⟩

/-! ## Steps, case by case -/

/-- The steps of the handler. -/
inductive MainStepsTo (req : GetBlockRangeRequest) (s : State) : Main → State → Prop
  | enter {blockNum : Int64} (h : blockNum ≤ req.endBlock) :
    MainStepsTo req s (.test blockNum) { s with main := .acquire blockNum }
  | leave {blockNum : Int64} (h : ¬blockNum ≤ req.endBlock) :
    MainStepsTo req s (.test blockNum) { s with main := .wait }
  | acquire {blockNum : Int64} {sem : Chan Unit 10} (h : sem.buf = s.sem.buf ++ [()]) :
    MainStepsTo req s (.acquire blockNum) { s with sem := sem, main := .add blockNum }
  | add {blockNum : Int64} :
    MainStepsTo req s (.add blockNum) { s with wg := s.wg + 1, main := .spawn blockNum }
  | spawn {blockNum : Int64} :
    MainStepsTo req s (.spawn blockNum) { s with
      goroutines := s.goroutines ++ [⟨blockNum, .fetch⟩]
      main := .test (blockNum + 1) }
  | wait (h : s.wg = 0) : MainStepsTo req s .wait { s with main := .close }
  | close : MainStepsTo req s .close { s with main := .select }
  | error {err : String} {errCh : Chan String 1} (h : s.errCh.buf ≠ []) :
    MainStepsTo req s .select { s with errCh := errCh, main := .returned (some err) }
  | success (h : s.errCh.buf = []) :
    MainStepsTo req s .select { s with main := .returned none }

/-- The steps of a goroutine: what it does to the shared state, and where it goes. -/
inductive GoStepsTo (num : Int64) (s : State) : Pc → State → Pc → Prop
  | fetched {blockData : BlockData} : GoStepsTo num s .fetch s (.ready blockData)
  | fetchFailed {err : String} :
    GoStepsTo num s .fetch { s with failures := s.failures ++ [err] } (.report err)
  | reported {err : String} :
    GoStepsTo num s (.report err) { s with errCh := s.errCh.trySend err } .release
  | sendBegun {blockData : BlockData} : GoStepsTo num s (.ready blockData) s (.sending blockData)
  | sent {blockData : BlockData} :
    GoStepsTo num s (.sending blockData) { s with sent := s.sent ++ [(num, blockData)] } .release
  | sendFailed {blockData : BlockData} {err : String} :
    GoStepsTo num s (.sending blockData) { s with failures := s.failures ++ [err] } (.report err)
  | released {sem : Chan Unit 10} (h : s.sem.buf.length = sem.buf.length + 1) :
    GoStepsTo num s .release { s with sem := sem } .done
  | done : GoStepsTo num s .done { s with wg := s.wg - 1 } .finished

/-- The steps of a call: of the handler, or of a goroutine. -/
inductive StepsTo (req : GetBlockRangeRequest) (s : State) : State → Prop
  | main {s' : State} (h : MainStepsTo req s s.main s') : StepsTo req s s'
  | go {i : ℕ} {g : Goroutine} {s₁ : State} {pc : Pc} (hg : s.goroutines[i]? = some g)
    (h : GoStepsTo g.num s g.pc s₁ pc) :
    StepsTo req s { s₁ with goroutines := s.goroutines.set i { g with pc := pc } }

theorem mainStepsTo_of_mainStep {req : GetBlockRangeRequest} {s s' : State}
    (h : mainStep req s = some s') : MainStepsTo req s s.main s' := by
  rw [mainStep] at h
  split at h <;> rename_i hm <;> rw [hm]
  · split at h <;> cases h
    · exact .enter ‹_›
    · exact .leave ‹_›
  · obtain ⟨sem, hs, rfl⟩ := Option.map_eq_some_iff.1 h
    exact .acquire (Chan.buf_of_send? hs)
  · cases h
    exact .add
  · cases h
    exact .spawn
  · split at h <;> cases h
    exact .wait ‹_›
  · cases h
    exact .close
  · split at h <;> rename_i hr <;> cases h
    · exact .error (by rw [Chan.buf_of_recv? hr]; exact List.cons_ne_nil _ _)
    · exact .success (Chan.recv?_eq_none.1 hr)
  · exact absurd h nofun

theorem goStepsTo_of_goStep {num : Int64} {s s₁ : State} {pc pc₁ : Pc} {act : Act}
    (h : goStep num s pc act = some (s₁, pc₁)) : GoStepsTo num s pc s₁ pc₁ := by
  rcases pc with _ | err | blockData | blockData | _ | _ | _ <;>
    rcases act with (err' | blockData') | _ | _ | (_ | err') | _ | _ <;> try cases h
  · exact .fetchFailed
  · exact .fetched
  · exact .reported
  · exact .sendBegun
  · exact .sent
  · exact .sendFailed
  · obtain ⟨⟨u, sem⟩, hr, he⟩ := Option.map_eq_some_iff.1 h
    cases he
    exact .released (by rw [Chan.buf_of_recv? hr]; rfl)
  · exact .done

/-- A goroutine starts no other. -/
theorem GoStepsTo.frame {num : Int64} {s s₁ : State} {pc pc₁ : Pc}
    (h : GoStepsTo num s pc s₁ pc₁) : s₁.main = s.main ∧ s₁.goroutines = s.goroutines := by
  rcases h with _ | _ | _ | _ | _ | _ | _ | _ <;> exact ⟨rfl, rfl⟩

theorem stepsTo_of_step {req : GetBlockRangeRequest} {s s' : State} {l : Label}
    (h : step req s l = some s') : StepsTo req s s' := by
  rcases l with _ | ⟨i, act⟩
  · exact .main (mainStepsTo_of_mainStep h)
  · obtain ⟨g, hg, h⟩ := Option.bind_eq_some_iff.1 h
    obtain ⟨⟨s₁, pc⟩, hs, h⟩ := Option.bind_eq_some_iff.1 h
    have hgo := goStepsTo_of_goStep hs
    cases h
    have hst : StepsTo req s _ := .go hg hgo
    rwa [← hgo.frame.2] at hst

end GetBlockRange

end Sylph.Ethereum
