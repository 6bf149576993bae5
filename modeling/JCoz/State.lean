import JCoz.LineTable
import Mathlib.Logic.Function.Basic

/-! The shared state and a program counter for every thread; a step runs one statement, or a
stretch of which at most one touches state another thread uses. -/
namespace JCoz.State
open LineTable

structure UserThread where
  thread : Nat
  localDelay : Int
  pointsHit : Nat
  numSignalsReceived : Nat
  deriving DecidableEq, Repr

/-- `struct Experiment`. The speedup is kept as the `rand()` value it is drawn from;
`rangesLive` is false once `location_ranges` has been deleted. -/
structure Experiment where
  target : Target
  rangesLive : Bool
  speedupDraw : Nat
  delay : Int
  pointsHit : Nat
  duration : Int
  deriving DecidableEq, Repr

def Experiment.zero : Experiment := ⟨⟨0, 0, 0, []⟩, false, 0, 0, 0, 0⟩

/-- One row of the output file: the line of `selectedClassLineNo`, `speedup`, `duration`,
`effectiveDuration` and `progressPointHits`. -/
structure Row where
  lineno : Int
  speedupDraw : Nat
  duration : Int
  effectiveDuration : Int
  progressPointHits : Nat
  deriving DecidableEq, Repr

def Experiment.row (e : Experiment) : Row :=
  ⟨e.target.lineno, e.speedupDraw, e.duration, e.duration - e.delay, e.pointsHit⟩

inductive Owner where
  | agent
  | thread (t : Nat)
  | stopper
  deriving DecidableEq, Repr

inductive SigReturn where
  | sample (accrued : Nat)
  | expLoop
  | expFinal

inductive AgentPc where
  | start | ready | loopTop
  | sample (accrued : Nat)
  | sigLock (ret : SigReturn)
  | sigKill (ret : SigReturn) (rest : List Nat)
  | copyLock | copy | copyUnlock | select | resolve
  | setup (frame : CallFrame) (table : List LineEntry)
  | resetIndex
  | expStart | expResetHits | expDraw | expLoop | expLoopCond | expEnd | expCheck
  | expLedger | expHits | expResetHits2 | expResetLedger | expRecord
  | clearLock | clear | clearUnlock
  | finish | halted

def SigReturn.resume : SigReturn → AgentPc
  | .sample a => .sample a
  | .expLoop => .expLoop
  | .expFinal => .expCheck

inductive HandlerPc where
  | entry (frames : Option (List CallFrame))
  | check (frames : List CallFrame)
  | idleReset (frames : List CallFrame)
  | scopeLock (frames : List CallFrame)
  | scopeScan (frames : List CallFrame) (hasLock : Bool)
  | frameLock (frame : CallFrame) (hasLock : Bool)
  | frameAdd (frame : CallFrame) (hasLock : Bool)
  | frameStore (frame : CallFrame) (index : Nat) (hasLock : Bool)
  | frameUnlock (hasLock : Bool)
  | scopeUnlock (hasLock : Bool)
  | count (frames : List CallFrame)
  | scan (frames : List CallFrame)
  | addDelay | sync
  | settle (sleepDiff : Int)
  | mergeHits | resetHits

inductive MainPc where
  | unstarted
  | addAlloc | addLock | addInsert | addUnlock
  | running
  | prepare (methods : List Nat) (inScope progress : Bool)
  | scopeLock (methods : List Nat) (progress : Bool)
  | scopeInsert (methods : List Nat) (progress : Bool)
  | scopeUnlock (progress : Bool)
  | progressPoint (progress : Bool)
  | rmMerge | rmReset | rmRead
  | rmSettle (sleepTime : Int)
  | rmLock | rmErase | rmUnlock | rmDelete
  | exiting | dead

inductive StopPc where
  | idle | check | inc | clear | wait | scopeLock | scopeClear | scopeUnlock | ignore | returned

/-- A Java thread: its own code, the handler it is running (if any), the thread-local
`curr_ut` (`none` is null) and whether a `SIGPROF` is pending. -/
structure Thread where
  main : MainPc
  handler : Option HandlerPc
  currUt : Option Nat
  pending : Bool

/-- The whole process. `heap` holds the `UserThread` records by address; `clock` is
`high_resolution_clock` in nanoseconds. -/
structure Sys where
  agent : AgentPc
  callFrames : List CallFrame
  expStart : Int
  threads : Nat → Thread
  heap : Nat → Option UserThread
  nextPtr : Nat
  userThreads : List Nat
  userThreadsLock : Option Owner
  inScopeLock : Option Owner
  frameLock : Option Owner
  inScopeIds : List Nat
  inExperiment : Bool
  running : Bool
  profReady : Bool
  profileDone : Bool
  pointsHit : Nat
  globalDelay : Int
  callIndex : Nat
  staticCallFrames : Nat → CallFrame
  current : Experiment
  experimentTime : Nat
  rows : List Row
  clock : Int
  breakpointSet : Bool
  stop : StopPc
  sigIgnored : Bool
  fault : Bool

def init (c : Config) : Sys where
  agent := .start
  callFrames := []
  expStart := 0
  threads := fun _ => ⟨.unstarted, none, none, false⟩
  heap := fun _ => none
  nextPtr := 1
  userThreads := []
  userThreadsLock := none
  inScopeLock := none
  frameLock := none
  inScopeIds := []
  inExperiment := false
  running := true
  profReady := false
  profileDone := false
  pointsHit := 0
  globalDelay := 0
  callIndex := 0
  staticCallFrames := fun _ => CallFrame.zero
  current := Experiment.zero
  experimentTime := c.consts.minExpTime
  rows := []
  clock := 0
  breakpointSet := false
  stop := .idle
  sigIgnored := false
  fault := false

variable (s : Sys) (t : Nat)

def Sys.record : Option (Nat × UserThread) :=
  match (s.threads t).currUt with
  | some p => (s.heap p).map (p, ·)
  | none => none

def Sys.setThread (th : Thread) : Sys := { s with threads := Function.update s.threads t th }

def Sys.setMain (m : MainPc) : Sys := s.setThread t { s.threads t with main := m }

def Sys.setHandler (h : Option HandlerPc) : Sys := s.setThread t { s.threads t with handler := h }

def Sys.setRecord (p : Nat) (ut : UserThread) : Sys := { s with heap := Function.update s.heap p (some ut) }

@[simp] theorem setThread_threads (th : Thread) :
    (s.setThread t th).threads = Function.update s.threads t th := rfl

@[simp] theorem setThread_heap (th : Thread) : (s.setThread t th).heap = s.heap := rfl

@[simp] theorem setThread_nextPtr (th : Thread) : (s.setThread t th).nextPtr = s.nextPtr := rfl

@[simp] theorem setThread_userThreads (th : Thread) :
    (s.setThread t th).userThreads = s.userThreads := rfl

@[simp] theorem setThread_userThreadsLock (th : Thread) :
    (s.setThread t th).userThreadsLock = s.userThreadsLock := rfl

@[simp] theorem setThread_agent (th : Thread) : (s.setThread t th).agent = s.agent := rfl

@[simp] theorem setMain_threads (m : MainPc) :
    (s.setMain t m).threads = Function.update s.threads t { s.threads t with main := m } := rfl

@[simp] theorem setHandler_threads (h : Option HandlerPc) :
    (s.setHandler t h).threads = Function.update s.threads t { s.threads t with handler := h } := rfl

@[simp] theorem setThread_self (th : Thread) : (s.setThread t th).threads t = th :=
  Function.update_same _ _ _

@[simp] theorem setMain_self (m : MainPc) :
    (s.setMain t m).threads t = { s.threads t with main := m } := Function.update_same _ _ _

@[simp] theorem setHandler_self (h : Option HandlerPc) :
    (s.setHandler t h).threads t = { s.threads t with handler := h } := Function.update_same _ _ _

@[simp] theorem setRecord_heap (p : Nat) (ut : UserThread) :
    (s.setRecord p ut).heap = Function.update s.heap p (some ut) := rfl

end JCoz.State
