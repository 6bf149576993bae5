import JCoz.Writes

/-! Progress-point hits: the pending counts of `HandleBreakpoint`, their merges, the resets
of `runExperiment`, and `Stop`'s injected hit in end-to-end mode. -/
namespace JCoz.State

/-- `Stop` has run `points_hit++`. Its `!_running` branch past the increment is never taken in
a run, as only `Stop` itself clears `_running` (`EndToEnd.running`). -/
def StopPc.incremented : StopPc → Prop
  | .idle | .check | .inc => False
  | _ => True

/-- Where the profiler thread stands in `runExperiment` with respect to the hit counter. -/
inductive HitStage where
  | other
  | leftLoop
  | checked
  | copied
  | recording

def SigReturn.hitStage : SigReturn → HitStage
  | .expFinal => .leftLoop
  | _ => .other

def AgentPc.hitStage : AgentPc → HitStage
  | .sigLock r | .sigKill r _ => r.hitStage
  | .expEnd | .expCheck => .leftLoop
  | .expLedger | .expHits => .checked
  | .expResetHits2 => .copied
  | .expResetLedger | .expRecord => .recording
  | _ => .other

@[simp] theorem SigReturn.resume_hitStage (r : SigReturn) : r.resume.hitStage = r.hitStage := by
  cases r <;> rfl

end JCoz.State

namespace JCoz.HitCount
open State Agent Handler Callbacks System System.Event Writes

/-- Thread 1 hits the progress point once during an experiment and then ends. A signal sent
before it ended is delivered between `removeUserThread`'s merge and its reset. -/
def doublePre : List Event :=
  register 1 ++ prepareScope 1 [7] ++ prepareProgress 1 ++ agentSteps 3 ++
    experiment 1 1 [target] [target] targetTable 0 ++ agentSteps 3
def doublePost : List Event :=
  [.threadEnd 1, .step 1 0] ++ handlerRun 1 [] 7 ++ List.replicate 7 (.step 1 0) ++
    finishExperiment 0 5000000000

set_option maxRecDepth 8000 in
theorem hit_counted_twice :
    (run sampleConfig (init sampleConfig) doublePre).map (·.inExperiment) = some true ∧
    (run sampleConfig (init sampleConfig) (doublePre ++ .breakpoint 1 :: doublePost)).map
        (fun s => s.rows.map (·.progressPointHits)) = some [2] := by
  decide

variable {c : Config} {s s' : Sys}

inductive HitMove (c : Config) (s s' : Sys) : Prop where
  | keep : s'.agent.hitStage = s.agent.hitStage → s'.pointsHit = s.pointsHit →
      s'.rows = s.rows → s'.current.pointsHit = s.current.pointsHit → HitMove c s s'
  | resetHits : s.agent.hitStage = .other → s'.agent.hitStage = .other → s'.pointsHit = 0 →
      s'.rows = s.rows → HitMove c s s'
  | leaveLoop : s.agent.hitStage = .other → s'.agent.hitStage = .leftLoop →
      s.running = false ∨ ¬(c.endToEnd = true ∧ s.pointsHit = 0) → s'.pointsHit = s.pointsHit →
      s'.rows = s.rows → HitMove c s s'
  | pass : s.agent.hitStage = .leftLoop → s'.agent.hitStage = .checked → s.running = true →
      s'.pointsHit = s.pointsHit → s'.rows = s.rows → HitMove c s s'
  | discard : s.agent.hitStage = .leftLoop → s'.agent.hitStage = .other →
      s'.pointsHit = s.pointsHit → s'.rows = s.rows → HitMove c s s'
  | copy : s.agent.hitStage = .checked → s'.agent.hitStage = .copied →
      s'.current.pointsHit = s.pointsHit → s'.pointsHit = s.pointsHit → s'.rows = s.rows →
      HitMove c s s'
  | reset : s.agent.hitStage = .copied → s'.agent.hitStage = .recording → s'.pointsHit = 0 →
      s'.rows = s.rows → s'.current.pointsHit = s.current.pointsHit → HitMove c s s'
  | record : s.agent.hitStage = .recording → s'.agent.hitStage = .other →
      s'.pointsHit = s.pointsHit → s'.rows = s.rows ∨ s'.rows = s.rows ++ [s.current.row] →
      HitMove c s s'

theorem agent_hitMove {i : AgentInput} (h : runAgentThread c s i = some s') : HitMove c s s' := by
  unfold runAgentThread at h
  split at h <;> (try split at h) <;> (try split at h) <;> (try obtain ⟨rfl⟩ := h) <;>
    first
    | (refine .keep ?_ rfl rfl rfl
       rw [‹s.agent = _›] <;> first | rfl | exact SigReturn.resume_hitStage _)
    | (refine .resetHits ?_ ?_ rfl rfl <;> (try rw [‹s.agent = _›]) <;> rfl)
    | (refine .leaveLoop ?_ ?_ ?_ rfl rfl <;> (try rw [‹s.agent = _›]) <;>
        first
        | rfl
        | exact .inl (by simpa using ‹¬s.running = true›)
        | exact .inr fun h => ‹¬(_ ∨ _)› (.inl h))
    | (refine .pass ?_ ?_ ‹_› rfl rfl <;> (try rw [‹s.agent = _›]) <;> rfl)
    | (refine .discard ?_ ?_ rfl rfl <;> (try rw [‹s.agent = _›]) <;> rfl)
    | (refine .copy ?_ ?_ rfl rfl rfl <;> (try rw [‹s.agent = _›]) <;> rfl)
    | (refine .reset ?_ ?_ rfl rfl rfl <;> (try rw [‹s.agent = _›]) <;> rfl)
    | (refine .record ?_ ?_ rfl (by simp) <;> (try rw [‹s.agent = _›]) <;> rfl)

def stageFact (s : Sys) : HitStage → Prop
  | .other => True
  | .leftLoop => s.pointsHit = 1 ∨ s.running = false
  | .checked => s.pointsHit = 1 ∧ s.rows = []
  | .copied => s.current.pointsHit = 1 ∧ s.pointsHit = 1 ∧ s.rows = []
  | .recording => s.current.pointsHit = 1 ∧ s.pointsHit = 0 ∧ s.stop.incremented ∧ s.rows = []

/-- End-to-end mode: `Stop`'s increment is the only hit, and a row exists only after it. -/
structure EndToEnd (s : Sys) : Prop where
  noBreakpoint : s.breakpointSet = false
  hitFree : HitFree s
  hits : s.pointsHit = 0 ∨ s.pointsHit = 1 ∧ s.stop.incremented
  running : s.running = false → s.stop.incremented
  stage : stageFact s s.agent.hitStage
  rows : s.rows = [] ∨ s.rows.map (·.progressPointHits) = [1] ∧ s.pointsHit = 0 ∧ s.stop.incremented

theorem stageFact_mono {g : HitStage} (h : stageFact s g) (hp : s'.pointsHit = s.pointsHit)
    (hr : s'.rows = s.rows) (hc : s'.current.pointsHit = s.current.pointsHit)
    (hrun : s'.running = s.running) (hinc : s.stop.incremented → s'.stop.incremented) :
    stageFact s' g := by
  cases g <;> simp only [stageFact, hp, hr, hc, hrun] at h ⊢
  case recording => exact ⟨h.1, h.2.1, hinc h.2.2.1, h.2.2.2⟩
  all_goals exact h

theorem EndToEnd.restage (hi : EndToEnd s) (hf : HitFree s') (hp : s'.pointsHit = s.pointsHit)
    (hr : s'.rows = s.rows) (hrun : s'.running = s.running)
    (hinc : s.stop.incremented → s'.stop.incremented) (hb : s'.breakpointSet = false)
    (hstage : stageFact s' s'.agent.hitStage) : EndToEnd s' where
  noBreakpoint := hb
  hitFree := hf
  hits := by rw [hp]; exact hi.hits.imp_right (And.imp_right hinc)
  running := fun h => hinc (hi.running (hrun ▸ h))
  stage := hstage
  rows := by rw [hr, hp]; exact hi.rows.imp_right (And.imp_right (And.imp_right hinc))

theorem EndToEnd.of_frame (hi : EndToEnd s) (hf : HitFree s')
    (hs : s'.agent.hitStage = s.agent.hitStage) (hp : s'.pointsHit = s.pointsHit)
    (hr : s'.rows = s.rows) (hc : s'.current.pointsHit = s.current.pointsHit)
    (hrun : s'.running = s.running) (hinc : s.stop.incremented → s'.stop.incremented)
    (hb : s'.breakpointSet = false) : EndToEnd s' :=
  hi.restage hf hp hr hrun hinc hb (hs ▸ stageFact_mono hi.stage hp hr hc hrun hinc)

theorem stop_cases (h : Callbacks.stop c s = some s') :
    (s.stop = .inc ∧ c.endToEnd = true ∧ s' = { s with pointsHit := s.pointsHit + 1, stop := .clear }) ∨
    (s.stop = .clear ∧ s' = { s with running := false, stop := .wait }) ∨
    (s.stop = .ignore ∧
      s' = { s with sigIgnored := true, breakpointSet := false, stop := .returned }) ∨
    ∃ st isl ids, (s.stop.incremented → st.incremented) ∧
      s' = { s with stop := st, inScopeLock := isl, inScopeIds := ids } := by
  unfold Callbacks.stop at h
  split at h <;> (try split at h) <;> obtain ⟨rfl⟩ := h <;>
    first
    | exact .inl ⟨‹_›, ‹_›, rfl⟩
    | exact .inr (.inl ⟨‹_›, rfl⟩)
    | exact .inr (.inr (.inl ⟨‹_›, rfl⟩))
    | exact .inr (.inr (.inr ⟨_, _, _, fun h => by simp_all [StopPc.incremented], rfl⟩))

theorem stop_endToEnd (hi : EndToEnd s)
    (h : Callbacks.stop c s = some s') : EndToEnd s' := by
  have hstage := hi.stage
  rcases stop_cases h with ⟨hst, -, rfl⟩ | ⟨hst, rfl⟩ | ⟨hst, rfl⟩ | ⟨st, isl, ids, hinc, rfl⟩
  · -- `points_hit++`: the counter was 0, as `Stop` had not incremented yet
    have hp : s.pointsHit = 0 := hi.hits.resolve_right fun h => by simp [hst, StopPc.incremented] at h
    refine ⟨hi.noBreakpoint, hi.hitFree, .inr ⟨by simp [hp], trivial⟩, fun _ => trivial, ?_,
      .inl (hi.rows.resolve_right fun h => by simp [hst, StopPc.incremented] at h)⟩
    show stageFact _ s.agent.hitStage
    revert hstage
    cases s.agent.hitStage <;> simp [stageFact, StopPc.incremented, hst, hp]
  · -- `_running = false`
    refine ⟨hi.noBreakpoint, hi.hitFree, hi.hits.imp_right fun h => ⟨h.1, trivial⟩,
      fun _ => trivial, ?_, hi.rows.imp_right fun h => ⟨h.1, h.2.1, trivial⟩⟩
    show stageFact _ s.agent.hitStage
    revert hstage
    cases s.agent.hitStage <;> simp [stageFact, StopPc.incremented, hst]
  · exact hi.of_frame hi.hitFree rfl rfl rfl rfl rfl (fun _ => trivial) rfl
  · exact hi.of_frame hi.hitFree rfl rfl rfl rfl rfl hinc hi.noBreakpoint

theorem agent_endToEnd (he : c.endToEnd = true) {i : AgentInput} (hi : EndToEnd s)
    (h : runAgentThread c s i = some s') : EndToEnd s' := by
  obtain ⟨hst, hrun, hheap, hbp⟩ : s'.stop = s.stop ∧ s'.running = s.running ∧ s'.heap = s.heap ∧
      s'.breakpointSet = s.breakpointSet := by
    obtain ⟨_, _, _, _, _, _, _, _, _, _, _, _, _, _, _, _, _, rfl⟩ := runAgentThread_writes h
    exact ⟨rfl, rfl, rfl, rfl⟩
  have hf : HitFree s' := fun p ut h => hi.hitFree p ut (hheap ▸ h)
  have hinc : s.stop.incremented → s'.stop.incremented := (hst ▸ ·)
  have hb : s'.breakpointSet = false := hbp ▸ hi.noBreakpoint
  have hstage := hi.stage
  cases agent_hitMove h with
  | keep hs hp hr hc => exact hi.of_frame hf hs hp hr hc hrun hinc hb
  | resetHits hs hs' hp hr =>
    refine ⟨hb, hf, .inl hp, hst ▸ hrun ▸ hi.running, hs' ▸ trivial, ?_⟩
    rw [hr, hp, hst]
    exact hi.rows.imp_right fun h => ⟨h.1, rfl, h.2.2⟩
  | leaveLoop hs hs' hexit hp hr =>
    -- in end-to-end mode the loop ends only on a hit or on `!_running`
    refine hi.restage hf hp hr hrun hinc hb (hs' ▸ ?_)
    show s'.pointsHit = 1 ∨ s'.running = false
    rw [hp, hrun]
    rcases hi.hits with h0 | ⟨h1, -⟩
    · exact .inr (hexit.resolve_right (· ⟨he, h0⟩))
    · exact .inl h1
  | pass hs hs' hr' hp hr =>
    refine hi.restage hf hp hr hrun hinc hb (hs' ▸ ?_)
    rw [hs] at hstage
    have h1 : s.pointsHit = 1 := by simpa [stageFact, hr'] using hstage
    refine ⟨hp.trans h1, hr.trans (hi.rows.resolve_right fun h => by omega)⟩
  | discard hs hs' hp hr => exact hi.restage hf hp hr hrun hinc hb (hs' ▸ trivial)
  | copy hs hs' hc hp hr =>
    rw [hs] at hstage
    exact hi.restage hf hp hr hrun hinc hb (hs' ▸ ⟨hc.trans hstage.1, hp.trans hstage.1, hr.trans hstage.2⟩)
  | reset hs hs' hp hr hc =>
    rw [hs] at hstage
    obtain ⟨hc1, h1, hr0⟩ := hstage
    have hinc1 : s'.stop.incremented := hinc (hi.hits.resolve_left (by omega)).2
    refine ⟨hb, hf, .inl hp, fun _ => hinc1, hs' ▸ ⟨hc.trans hc1, hp, hinc1, hr.trans hr0⟩, .inl (hr.trans hr0)⟩
  | record hs hs' hp hr =>
    rw [hs] at hstage
    obtain ⟨hc1, h0, hinc0, hr0⟩ := hstage
    refine ⟨hb, hf, .inl (hp.trans h0), fun _ => hinc hinc0, hs' ▸ trivial, ?_⟩
    rcases hr with hr | hr
    · exact .inl (hr.trans hr0)
    · exact .inr ⟨by simp [hr, hr0, Experiment.row, hc1], hp.trans h0, hinc hinc0⟩

theorem EndToEnd.step (he : c.endToEnd = true) (hi : EndToEnd s) {e : Event}
    (h : System.step c s e = some s') : EndToEnd s' := by
  unfold System.step at h
  split at h
  · cases h
  have threads (th : Nat → Thread) : EndToEnd { s with threads := th } :=
    hi.of_frame hi.hitFree rfl rfl rfl rfl rfl id hi.noBreakpoint
  cases e <;> simp only at h
  case agent i => exact agent_endToEnd he hi h
  case step t sl =>
    split at h
    · obtain ⟨hf, hp⟩ := handle_hitFree hi.hitFree h
      obtain ⟨_, _, _, _, _, _, _, _, _, rfl⟩ := handle_writes h
      exact hi.of_frame hf rfl hp rfl rfl rfl id hi.noBreakpoint
    · obtain ⟨hf, hp⟩ := threadMain_hitFree hi.hitFree h
      have hb := threadMain_breakpointSet he h
      obtain ⟨_, _, _, _, _, _, _, _, _, _, _, rfl⟩ := threadMain_writes h
      exact hi.of_frame hf rfl hp rfl rfl rfl id (hb.trans hi.noBreakpoint)
  case start t b => obtain ⟨th, rfl⟩ := addUserThread_writes h; exact threads _
  case breakpoint t => exact absurd (handleBreakpoint_eq h).2.1 (by simp [hi.noBreakpoint])
  case classPrepare t ms b b' => obtain ⟨th, rfl⟩ := classPrepare_writes h; exact threads _
  case threadEnd t => obtain ⟨th, rfl⟩ := removeUserThread_writes h; exact threads _
  case deliver t fs => obtain ⟨th, rfl⟩ := deliver_writes h; exact threads _
  case stop => exact stop_endToEnd hi h
  case tick d => obtain ⟨rfl⟩ := h; exact hi.of_frame hi.hitFree rfl rfl rfl rfl rfl id hi.noBreakpoint

end JCoz.HitCount
