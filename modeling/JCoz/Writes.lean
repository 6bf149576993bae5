import JCoz.System

/-! What one statement of each party may write, and the profiler thread's statements by the
shared state they touch. -/
namespace JCoz.State

def AgentPc.broadcasting : AgentPc → Prop
  | .sigKill _ _ => True
  | _ => False

def AgentPc.holdsFrame : AgentPc → Bool
  | .copy | .copyUnlock | .clear | .clearUnlock => true
  | _ => false

/-- The profiler thread's statements outside the broadcast's loop and `frame_lock`, before it
halts. -/
def AgentPc.own : AgentPc → Bool
  | .sigKill _ _ | .copy | .copyUnlock | .clear | .clearUnlock | .halted => false
  | _ => true

@[simp] theorem SigReturn.resume_holdsFrame (r : SigReturn) : r.resume.holdsFrame = false := by
  cases r <;> rfl

theorem AgentPc.own_broadcasting {a : AgentPc} (h : a.own = true) : ¬a.broadcasting := by
  cases a <;> first | exact id | cases h

theorem AgentPc.own_holdsFrame {a : AgentPc} (h : a.own = true) : a.holdsFrame = false := by
  cases a <;> first | rfl | cases h

theorem AgentPc.own_ne_halted {a : AgentPc} (h : a.own = true) : a ≠ .halted := by
  rintro rfl; cases h

end JCoz.State

namespace JCoz.Writes
open State Agent Handler Callbacks System

variable {c : Config} {s s' : Sys} {t : Nat}

/-- A statement of the profiler thread, by the shared state it touches: the three of
`signal_user_threads`, the four around `frame_lock`, the copy and the clear, the last of
`runAgentThread`, or one on its own state and the experiment's counters. -/
inductive AgentMove (c : Config) (s s' : Sys) : Prop where
  | sigLock (r : SigReturn) : s.agent = .sigLock r → s.userThreadsLock = none →
      s' = { s with userThreadsLock := some .agent, agent := .sigKill r s.userThreads } →
      AgentMove c s s'
  | sigKill (r : SigReturn) (p : Nat) (ps : List Nat) (ut : UserThread) :
      s.agent = .sigKill r (p :: ps) → s.heap p = some ut →
      s' = { s with
        threads := Function.update s.threads ut.thread { s.threads ut.thread with pending := true }
        agent := .sigKill r ps } → AgentMove c s s'
  | sigFault (r : SigReturn) (p : Nat) (ps : List Nat) : s.agent = .sigKill r (p :: ps) →
      s.heap p = none → s' = { s with fault := true } → AgentMove c s s'
  | sigUnlock (r : SigReturn) : s.agent = .sigKill r [] →
      s' = { s with userThreadsLock := none, agent := r.resume } → AgentMove c s s'
  | copyLock : s.agent = .copyLock → s.frameLock = none →
      s' = { s with frameLock := some .agent, agent := .copy } → AgentMove c s s'
  | copy : s.agent = .copy → s' = { s with
      callFrames := s.callFrames ++
        (List.range (min s.callIndex c.consts.numStaticCallFrames)).map s.staticCallFrames
      agent := .copyUnlock } → AgentMove c s s'
  | copyUnlock : s.agent = .copyUnlock → s' = { s with frameLock := none, agent := .select } →
      AgentMove c s s'
  | clearLock : s.agent = .clearLock → s.frameLock = none →
      s' = { s with callFrames := [], frameLock := some .agent, agent := .clear } → AgentMove c s s'
  | clear : s.agent = .clear →
      s' = { s with staticCallFrames := fun _ => CallFrame.zero, agent := .clearUnlock } →
      AgentMove c s s'
  | clearUnlock : s.agent = .clearUnlock → s' = { s with frameLock := none, agent := .loopTop } →
      AgentMove c s s'
  | finish : s.agent = .finish → s' = { s with profileDone := true, agent := .halted } →
      AgentMove c s s'
  | own (a : AgentPc) (cf : List CallFrame) (es : Int) (ie pr : Bool) (ph : Nat) (gd : Int)
      (ci : Nat) (cur : Experiment) (et : Nat) (rs : List Row) :
      s' = { s with
        agent := a, callFrames := cf, expStart := es, inExperiment := ie, profReady := pr,
        pointsHit := ph, globalDelay := gd, callIndex := ci, current := cur, experimentTime := et,
        rows := rs } →
      s.agent.own = true → a.own = true → (gd = s.globalDelay ∨ gd = 0) → AgentMove c s s'

theorem agentMove {i : AgentInput} (h : runAgentThread c s i = some s') : AgentMove c s s' := by
  unfold runAgentThread at h
  split at h <;> (try split at h) <;> (try split at h) <;> (try obtain ⟨rfl⟩ := h) <;>
    first
    | exact .own _ _ _ _ _ _ _ _ _ _ _ rfl (‹s.agent = _› ▸ rfl) rfl (.inl rfl)
    | exact .own _ _ _ _ _ _ _ _ _ _ _ rfl (‹s.agent = _› ▸ rfl) rfl (.inr rfl)
    | exact .sigLock _ ‹_› ‹_› rfl
    | exact .sigKill _ _ _ _ ‹_› ‹_› rfl
    | exact .sigFault _ _ _ ‹_› ‹_› rfl
    | exact .sigUnlock _ ‹_› rfl
    | exact .copyLock ‹_› ‹_› rfl
    | exact .copy ‹_› rfl
    | exact .copyUnlock ‹_› rfl
    | exact .clearLock ‹_› ‹_› rfl
    | exact .clear ‹_› rfl
    | exact .clearUnlock ‹_› rfl
    | exact .finish ‹_› rfl

theorem record_heap {p : Nat} {ut : UserThread} (h : s.record t = some (p, ut)) :
    s.heap p = some ut := by
  unfold Sys.record at h
  split at h
  · obtain ⟨u, hu, he⟩ := Option.map_eq_some'.mp h
    cases he; exact hu
  · cases h

theorem withRecord_cases (s : Sys) (t : Nat) (f : Nat → UserThread → Sys) :
    withRecord s t f = { s with fault := true } ∧ s.record t = none ∨
      ∃ p ut, s.record t = some (p, ut) ∧ withRecord s t f = f p ut := by
  unfold withRecord
  split
  · next p ut h => exact .inr ⟨p, ut, h, rfl⟩
  · next h => exact .inl ⟨rfl, by simpa using h⟩

theorem runAgentThread_writes {i : AgentInput} (h : runAgentThread c s i = some s') :
    ∃ a cf es th utl fl ie pr pd ph gd ci sc cur et rs f,
      s' = { s with
        agent := a, callFrames := cf, expStart := es, threads := th, userThreadsLock := utl,
        frameLock := fl, inExperiment := ie, profReady := pr, profileDone := pd, pointsHit := ph,
        globalDelay := gd, callIndex := ci, staticCallFrames := sc, current := cur,
        experimentTime := et, rows := rs, fault := f } := by
  cases agentMove h <;> subst_vars <;> exact ⟨_, _, _, _, _, _, _, _, _, _, _, _, _, _, _, _, _, rfl⟩

theorem handle_writes {sl : Nat} {hp : HandlerPc} (h : handle c s t sl hp = some s') :
    ∃ th hh isl fl ph gd ci sc f,
      s' = { s with
        threads := Function.update s.threads t th, heap := hh, inScopeLock := isl,
        frameLock := fl, pointsHit := ph, globalDelay := gd, callIndex := ci,
        staticCallFrames := sc, fault := f } := by
  cases hp <;> simp only [handle] at h <;> (try split at h) <;> (try split at h) <;>
    (try obtain ⟨rfl⟩ := h) <;>
    (try rcases withRecord_cases s t _ with ⟨hw, -⟩ | ⟨p, ut, -, hw⟩ <;> rw [hw]) <;>
    (try split) <;>
    first
    | exact ⟨_, _, _, _, _, _, _, _, _, rfl⟩
    | exact ⟨s.threads t, _, _, _, _, _, _, _, _, by rw [Function.update_eq_self]⟩

theorem threadMain_writes {m : MainPc} (h : threadMain c s t m = some s') :
    ∃ th hh np ut utl isl ids bp ph gd f,
      s' = { s with
        threads := Function.update s.threads t th, heap := hh, nextPtr := np, userThreads := ut,
        userThreadsLock := utl, inScopeLock := isl, inScopeIds := ids, breakpointSet := bp,
        pointsHit := ph, globalDelay := gd, fault := f } := by
  cases m <;> simp only [threadMain] at h <;> (try split at h) <;> (try split at h) <;>
    (try obtain ⟨rfl⟩ := h) <;>
    (try rcases withRecord_cases s t _ with ⟨hw, -⟩ | ⟨p, ut, -, hw⟩ <;> rw [hw]) <;>
    first
    | exact ⟨_, _, _, _, _, _, _, _, _, _, _, rfl⟩
    | exact ⟨s.threads t, _, _, _, _, _, _, _, _, _, _, by rw [Function.update_eq_self]⟩

theorem threadMain_breakpointSet {m : MainPc} (he : c.endToEnd = true)
    (h : threadMain c s t m = some s') : s'.breakpointSet = s.breakpointSet := by
  cases m <;> simp only [threadMain] at h <;> (try split at h) <;> (try split at h) <;>
    (try obtain ⟨rfl⟩ := h) <;>
    (try rcases withRecord_cases s t _ with ⟨hw, -⟩ | ⟨p, ut, -, hw⟩ <;> rw [hw]) <;>
    simp_all [Sys.setMain, Sys.setThread, Sys.setRecord]

theorem addUserThread_writes {b : Bool} (h : addUserThread s t b = some s') :
    ∃ th, s' = { s with threads := Function.update s.threads t th } := by
  obtain ⟨-, rfl⟩ := addUserThread_eq h
  split <;> exact ⟨_, rfl⟩

theorem classPrepare_writes {ms : List Nat} {b b' : Bool}
    (h : classPrepare s t ms b b' = some s') :
    ∃ th, s' = { s with threads := Function.update s.threads t th } :=
  ⟨_, (classPrepare_eq h).2⟩

theorem removeUserThread_writes (h : removeUserThread s t = some s') :
    ∃ th, s' = { s with threads := Function.update s.threads t th } :=
  ⟨_, (removeUserThread_eq h).2⟩

theorem deliver_writes {fs : Option (List CallFrame)} (h : deliver s t fs = some s') :
    ∃ th, s' = { s with threads := Function.update s.threads t th } :=
  ⟨_, (deliver_eq h).2.2⟩

theorem handleBreakpoint_writes (h : handleBreakpoint s t = some s') :
    ∃ hh f, s' = { s with heap := hh, fault := f } := by
  obtain ⟨-, -, rfl⟩ := handleBreakpoint_eq h
  rcases withRecord_cases s t _ with ⟨hw, -⟩ | ⟨p, ut, -, hw⟩ <;> rw [hw] <;> exact ⟨_, _, rfl⟩

/-- `Stop` touches its own counter, `_running`, the scope list, the breakpoint and the signal
disposition; it only ever clears `_running`. -/
theorem stop_writes (h : Callbacks.stop c s = some s') :
    ∃ ph rn isl ids bp si st,
      s' = { s with
        pointsHit := ph, running := rn, inScopeLock := isl, inScopeIds := ids,
        breakpointSet := bp, sigIgnored := si, stop := st } ∧ (rn = true → s.running = true) := by
  unfold Callbacks.stop at h
  split at h <;> (try split at h) <;> obtain ⟨rfl⟩ := h <;>
    first
    | exact ⟨_, _, _, _, _, _, _, rfl, id⟩
    | exact ⟨_, _, _, _, _, _, _, rfl, fun h => nomatch h⟩

/-- Every party other than the profiler thread leaves its experiment, `experiment_time` and the
rows alone; a steady clock does not go back, and `_running`, once cleared, stays clear. -/
theorem step_agentState {e : Event} (he : ∀ i, e ≠ .agent i) (h : step c s e = some s') :
    s'.agent = s.agent ∧ s'.expStart = s.expStart ∧ s'.current = s.current ∧
      s'.experimentTime = s.experimentTime ∧ s'.rows = s.rows ∧
      (e.steady = true → s.clock ≤ s'.clock) ∧ (s'.running = true → s.running = true) := by
  unfold step at h
  split at h
  · cases h
  cases e <;> simp only at h
  case agent i => exact absurd rfl (he i)
  case step t sl =>
    split at h
    · obtain ⟨_, _, _, _, _, _, _, _, _, rfl⟩ := handle_writes h
      exact ⟨rfl, rfl, rfl, rfl, rfl, fun _ => le_rfl, id⟩
    · obtain ⟨_, _, _, _, _, _, _, _, _, _, _, rfl⟩ := threadMain_writes h
      exact ⟨rfl, rfl, rfl, rfl, rfl, fun _ => le_rfl, id⟩
  case stop =>
    obtain ⟨_, _, _, _, _, _, _, rfl, hrun⟩ := stop_writes h
    exact ⟨rfl, rfl, rfl, rfl, rfl, fun _ => le_rfl, hrun⟩
  case tick d =>
    obtain ⟨rfl⟩ := h
    exact ⟨rfl, rfl, rfl, rfl, rfl, fun hd => Int.le_add_of_nonneg_right (of_decide_eq_true hd), id⟩
  all_goals
    first
    | obtain ⟨_, rfl⟩ := addUserThread_writes h
    | obtain ⟨_, _, rfl⟩ := handleBreakpoint_writes h
    | obtain ⟨_, rfl⟩ := classPrepare_writes h
    | obtain ⟨_, rfl⟩ := removeUserThread_writes h
    | obtain ⟨_, rfl⟩ := deliver_writes h
    exact ⟨rfl, rfl, rfl, rfl, rfl, fun _ => le_rfl, id⟩

def HitFree (s : Sys) : Prop := ∀ p ut, s.heap p = some ut → ut.pointsHit = 0

theorem hitFree_update {s : Sys} (hf : HitFree s) {p : Nat} {v : Option UserThread}
    (hv : ∀ ut, v = some ut → ut.pointsHit = 0) :
    ∀ q ut, Function.update s.heap p v q = some ut → ut.pointsHit = 0 := by
  intro q ut h
  by_cases hq : q = p
  · subst hq; simp only [Function.update_same] at h; exact hv ut h
  · rw [Function.update_noteq hq] at h; exact hf q ut h

theorem handle_hitFree {sl : Nat} {hp : HandlerPc} (hf : HitFree s)
    (h : handle c s t sl hp = some s') : HitFree s' ∧ s'.pointsHit = s.pointsHit := by
  cases hp <;> simp only [handle] at h <;> (try split at h) <;> (try split at h) <;>
    (try obtain ⟨rfl⟩ := h) <;>
    (try rcases withRecord_cases s t _ with ⟨hw, -⟩ | ⟨p, ut, hr, hw⟩ <;> rw [hw]) <;>
    (try split) <;>
    first
    | exact ⟨hf, rfl⟩
    | exact ⟨hitFree_update hf (by rintro _ ⟨⟩; first | rfl | exact hf p ut (record_heap hr)), rfl⟩
    | exact ⟨hf, by simp [Sys.setHandler, Sys.setThread, hf p ut (record_heap hr)]⟩

theorem threadMain_hitFree {m : MainPc} (hf : HitFree s) (h : threadMain c s t m = some s') :
    HitFree s' ∧ s'.pointsHit = s.pointsHit := by
  cases m <;> simp only [threadMain] at h <;> (try split at h) <;> (try split at h) <;>
    (try obtain ⟨rfl⟩ := h) <;>
    (try rcases withRecord_cases s t _ with ⟨hw, -⟩ | ⟨p, ut, hr, hw⟩ <;> rw [hw]) <;>
    first
    | exact ⟨hf, rfl⟩
    | exact ⟨hitFree_update hf (by rintro _ ⟨⟩ <;> rfl), rfl⟩
    | exact ⟨hf, by simp [Sys.setMain, Sys.setThread, hf p ut (record_heap hr)]⟩

end JCoz.Writes
