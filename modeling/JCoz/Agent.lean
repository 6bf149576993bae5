import JCoz.State
import JCoz.Speedup
import JCoz.ExperimentLength
import Mathlib.Data.List.Dedup

/-! The profiler thread: `runAgentThread`, `runExperiment` and `signal_user_threads`, one
statement at a time. -/
namespace JCoz.Agent
open LineTable State Speedup ExperimentLength

/-- What the environment decides at a step of the profiler thread: the value `rand()` returns,
the order `std::random_shuffle` leaves the candidates in, what `GetLineNumberTable` returns for
each method, and whether `getClassFromMethodIDLocation` succeeds. -/
structure AgentInput where
  rand : Nat := 0
  order : List CallFrame := []
  table : Nat → Option (List LineEntry) := fun _ => none
  classFound : Bool := true

def firstResolved (table : Nat → Option (List LineEntry)) :
    List CallFrame → Option (CallFrame × List LineEntry)
  | [] => none
  | f :: fs =>
    match table f.methodId with
    | some tbl => some (f, tbl)
    | none => firstResolved table fs

def runAgentThread (c : Config) (s : Sys) (i : AgentInput) : Option Sys :=
  match s.agent with
  | .start => some { s with globalDelay := 0, agent := .ready }
  | .ready => some { s with profReady := true, agent := .loopTop }
  | .loopTop => some { s with agent := if s.running then .sample 0 else .finish }
  | .sample acc => some { s with
      agent := if acc < 30 * signalFreq
        then .sigLock (.sample (acc + (2 * signalFreq - i.rand % signalFreq))) else .copyLock }
  | .sigLock ret =>
    if s.userThreadsLock = none then
      some { s with userThreadsLock := some .agent, agent := .sigKill ret s.userThreads }
    else none
  | .sigKill ret (p :: ps) =>
    match s.heap p with
    | some ut => some { s with
        threads := Function.update s.threads ut.thread { s.threads ut.thread with pending := true }
        agent := .sigKill ret ps }
    | none => some { s with fault := true }
  | .sigKill ret [] => some { s with userThreadsLock := none, agent := ret.resume }
  | .copyLock =>
    if s.frameLock = none then some { s with frameLock := some .agent, agent := .copy } else none
  | .copy => some { s with
      callFrames := s.callFrames ++
        (List.range (min s.callIndex c.consts.numStaticCallFrames)).map s.staticCallFrames
      agent := .copyUnlock }
  | .copyUnlock => some { s with frameLock := none, agent := .select }
  | .select => some (if s.callFrames = [] then { s with agent := .loopTop }
      else { s with callIndex := 0, agent := .resolve })
  | .resolve =>
    if i.order.Perm s.callFrames.dedup then
      match firstResolved i.table i.order with
      | some (f, tbl) => some { s with agent := .setup f tbl }
      | none => some { s with callFrames := [], agent := .loopTop }
    else none
  | .setup f tbl => some { s with
      current := { s.current with
        target := selectTarget f tbl s.current.target.lineno, rangesLive := true }
      agent := .resetIndex }
  | .resetIndex => some { s with callIndex := 0, agent := .expStart }
  | .expStart => some { s with inExperiment := true, agent := .expResetHits }
  | .expResetHits => some { s with pointsHit := 0, agent := .expDraw }
  | .expDraw => some { s with
      current := { s.current with speedupDraw := i.rand, delay := speedupDelay i.rand }
      expStart := s.clock, agent := .expLoop }
  | .expLoop => some { s with agent := if s.running then .expLoopCond else .expEnd }
  | .expLoopCond => some { s with
      agent := if (c.endToEnd ∧ s.pointsHit = 0) ∨
          s.clock < s.expStart + ((s.experimentTime * 1000000 : Nat) : Int)
        then .sigLock .expLoop else .expEnd }
  | .expEnd => some { s with inExperiment := false, agent := .sigLock .expFinal }
  | .expCheck => some (if s.running then { s with agent := .expLedger }
      else { s with current := { s.current with rangesLive := false }, agent := .clearLock })
  | .expLedger => some { s with
      current := { s.current with delay := s.globalDelay, duration := s.clock - s.expStart }
      agent := .expHits }
  | .expHits => some { s with
      current := { s.current with pointsHit := s.pointsHit }, agent := .expResetHits2 }
  | .expResetHits2 => some { s with pointsHit := 0, agent := .expResetLedger }
  | .expResetLedger => some { s with globalDelay := 0, agent := .expRecord }
  | .expRecord => some (if i.classFound then { s with
        rows := s.rows ++ [s.current.row]
        experimentTime := updateExperimentLength c.consts c.fixExp s.current.pointsHit s.experimentTime
        current := { s.current with rangesLive := false }
        agent := .clearLock }
      else { s with agent := .clearLock })
  | .clearLock =>
    if s.frameLock = none then
      some { s with callFrames := [], frameLock := some .agent, agent := .clear }
    else none
  | .clear => some { s with staticCallFrames := fun _ => CallFrame.zero, agent := .clearUnlock }
  | .clearUnlock => some { s with frameLock := none, agent := .loopTop }
  | .finish => some { s with profileDone := true, agent := .halted }
  | .halted => none

end JCoz.Agent
