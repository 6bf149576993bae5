import JCoz.Agent
import JCoz.Callbacks

/-! The whole profiler as one transition system: any party may take its next step at any time. -/
namespace JCoz.System
open State Agent Handler Callbacks

inductive Event where
  | agent (i : AgentInput)
  | step (t : Nat) (slept : Nat)
  | start (t : Nat) (inMain : Bool)
  | breakpoint (t : Nat)
  | classPrepare (t : Nat) (methods : List Nat) (inScope progress : Bool)
  | threadEnd (t : Nat)
  | deliver (t : Nat) (frames : Option (List CallFrame))
  | stop
  /-- The clock moves by `d` nanoseconds: forward as time passes, back when the system clock,
  which backs libstdc++'s `high_resolution_clock`, is set. -/
  | tick (d : Int)

def step (c : Config) (s : Sys) (e : Event) : Option Sys :=
  if s.fault then none else
  match e with
  | .agent i => runAgentThread c s i
  | .step t slept =>
    match (s.threads t).handler with
    | some h => handle c s t slept h
    | none => threadMain c s t (s.threads t).main
  | .start t inMain => addUserThread s t inMain
  | .breakpoint t => handleBreakpoint s t
  | .classPrepare t ms inScope progress => classPrepare s t ms inScope progress
  | .threadEnd t => removeUserThread s t
  | .deliver t fs => deliver s t fs
  | .stop => Callbacks.stop c s
  | .tick d => some { s with clock := s.clock + d }

def run (c : Config) : Sys → List Event → Option Sys
  | s, [] => some s
  | s, e :: es => (step c s e).bind fun s' => run c s' es

inductive Reachable (c : Config) : Sys → Prop where
  | init : Reachable c (init c)
  | step {s s' : Sys} (e : Event) : Reachable c s → step c s e = some s' → Reachable c s'

/-- A clock move `std::chrono::steady_clock` could make: it never goes back. -/
def Event.steady : Event → Bool
  | .tick d => decide (0 ≤ d)
  | _ => true

inductive SteadyReachable (c : Config) : Sys → Prop where
  | init : SteadyReachable c (init c)
  | step {s s' : Sys} (e : Event) : SteadyReachable c s → e.steady = true → step c s e = some s' →
      SteadyReachable c s'

theorem run_append (c : Config) (s : Sys) (es es' : List Event) :
    run c s (es ++ es') = (run c s es).bind fun s' => run c s' es' := by
  induction es generalizing s with
  | nil => rfl
  | cons e es ih =>
    show (step c s e).bind (fun s' => run c s' (es ++ es')) = _
    simp only [ih, run, Option.bind_assoc]

theorem Reachable.run {c : Config} {s s' : Sys} (h : Reachable c s) (es : List Event)
    (hr : System.run c s es = some s') : Reachable c s' := by
  induction es generalizing s with
  | nil => cases hr; exact h
  | cons e es ih =>
    simp only [System.run, Option.bind_eq_some] at hr
    obtain ⟨s₁, h₁, h₂⟩ := hr
    exact ih (.step e h h₁) h₂

theorem SteadyReachable.run {c : Config} {s s' : Sys} (h : SteadyReachable c s) (es : List Event)
    (hs : es.all Event.steady = true) (hr : System.run c s es = some s') :
    SteadyReachable c s' := by
  induction es generalizing s with
  | nil => cases hr; exact h
  | cons e es ih =>
    simp only [System.run, Option.bind_eq_some] at hr
    simp only [List.all_cons, Bool.and_eq_true] at hs
    obtain ⟨s₁, h₁, h₂⟩ := hr
    exact ih (.step e h hs.1 h₁) hs.2 h₂

namespace Event

def register (t : Nat) : List Event := .start t true :: List.replicate 4 (.step t 0)

def prepareScope (t : Nat) (ms : List Nat) : List Event :=
  .classPrepare t ms true false :: List.replicate 5 (.step t 0)

def prepareProgress (t : Nat) : List Event := .classPrepare t [] false true :: List.replicate 2 (.step t 0)

def agentSteps (n : Nat) : List Event := List.replicate n (.agent {})

def handlerRun (t : Nat) (fs : List CallFrame) (n : Nat) : List Event :=
  .deliver t (some fs) :: List.replicate n (.step t 0)

/-- From the top of the sampling loop with `k` threads registered: fifteen sampling rounds,
thread `t` storing a frame of `fs` in the first, then selection of the target through `order`
and `table`, up to `in_experiment = true`. -/
def sampleAndSelect (k t : Nat) (fs order : List CallFrame)
    (table : Nat → Option (List LineEntry)) : List Event :=
  agentSteps (k + 3) ++ handlerRun t fs 10 ++ agentSteps (14 * (k + 3) + 5) ++
    [.agent { order := order, table := table }] ++ agentSteps 2

def startExperiment (r : Nat) : List Event := agentSteps 2 ++ [.agent { rand := r }] ++ agentSteps 2

def experiment (k t : Nat) (fs order : List CallFrame) (table : Nat → Option (List LineEntry))
    (r : Nat) : List Event :=
  sampleAndSelect k t fs order table ++ startExperiment r

/-- The profiler thread ends the running experiment once its deadline has passed (`d` ticks
later), broadcasts to `k` threads, records it and clears the frame buffer. -/
def finishExperiment (k d : Nat) : List Event := .tick d :: agentSteps (k + 14)

end Event

def sampleConfig : Config := ⟨⟨2000, 5000, 80000, 2, 5, 10⟩, false, false⟩

def target : CallFrame := ⟨7, 3⟩
def targetTable (m : Nat) : Option (List LineEntry) := if m = 7 then some [⟨0, 42⟩] else none

end JCoz.System
