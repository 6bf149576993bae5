import JCoz.Progress
import Mathlib.Data.Prod.Lex

/-! Shutdown: once `_running` is clear the profiler thread finishes, and `Stop` waits for
`profile_done`. -/
namespace JCoz.State

def StopPc.beforeClear : StopPc → Bool
  | .idle | .check | .inc | .clear => true
  | _ => false

def StopPc.pastWait : StopPc → Bool
  | .scopeLock | .scopeClear | .scopeUnlock | .ignore | .returned => true
  | _ => false

end JCoz.State

namespace JCoz.Shutdown
open State Agent Callbacks System Writes Registry Spinlocks Progress

variable {c : Config} {s s' : Sys}

def samplesLeft (accrued : Nat) : Nat := 3 + 2 * (30 * signalFreq - accrued)

def sigRank : SigReturn → ℕ × ℕ
  | .sample a => (samplesLeft a, 1)
  | .expLoop => (1, 3)
  | .expFinal => (0, 12)

/-- How far the profiler thread is from `halted` once `_running` is clear. -/
def rank : AgentPc → ℕ ×ₗ ℕ
  | .halted => toLex (0, 0)
  | .finish => toLex (0, 1)
  | .loopTop => toLex (0, 2)
  | .clearUnlock => toLex (0, 3)
  | .clear => toLex (0, 4)
  | .clearLock => toLex (0, 5)
  | .expRecord => toLex (0, 6)
  | .expResetLedger => toLex (0, 7)
  | .expResetHits2 => toLex (0, 8)
  | .expHits => toLex (0, 9)
  | .expLedger => toLex (0, 10)
  | .expCheck => toLex (0, 11)
  | .expEnd => toLex (1, 1)
  | .expLoop => toLex (1, 2)
  | .expLoopCond => toLex (2, 1)
  | .expDraw => toLex (2, 2)
  | .expResetHits => toLex (2, 3)
  | .expStart => toLex (2, 4)
  | .resetIndex => toLex (2, 5)
  | .setup _ _ => toLex (2, 6)
  | .resolve => toLex (2, 7)
  | .select => toLex (2, 8)
  | .copyUnlock => toLex (2, 9)
  | .copy => toLex (2, 10)
  | .copyLock => toLex (2, 11)
  | .ready => toLex (2, 12)
  | .start => toLex (2, 13)
  | .sample a => toLex (samplesLeft a, 0)
  | .sigLock r => toLex ((sigRank r).1 + 1, 0)
  | .sigKill r ps => toLex ((sigRank r).1, (sigRank r).2 + ps.length)

theorem rank_resume_lt (r : SigReturn) : rank r.resume < rank (.sigKill r []) := by
  cases r <;> simp [rank, sigRank, SigReturn.resume, Prod.Lex.lt_iff]

theorem rank_lt (hrun : s.running = false) (hf : s'.fault = false) {i : AgentInput}
    (h : runAgentThread c s i = some s') : rank s'.agent < rank s.agent := by
  have hmod : i.rand % signalFreq < signalFreq := Nat.mod_lt _ (by decide)
  unfold runAgentThread at h
  split at h <;> (try split at h) <;> (try split at h) <;> (try obtain ⟨rfl⟩ := h) <;>
    first
    | cases h
    | cases hf
    | exact absurd (hrun.symm.trans ‹s.running = true›) Bool.false_ne_true
    | (rw [‹s.agent = _›]
       simp only [rank, sigRank, samplesLeft, Prod.Lex.lt_iff, List.length_cons, true_and]
       omega)
    | (rw [‹s.agent = _›]; exact rank_resume_lt _)

theorem rank_step (hi : Inv s) (hrun : s.running = false) {e : Event} (h : step c s e = some s') :
    s'.running = false ∧ rank s'.agent ≤ rank s.agent ∧
      ∀ i, e = .agent i → rank s'.agent < rank s.agent := by
  by_cases he : ∃ i, e = .agent i
  · obtain ⟨i, rfl⟩ := he
    unfold step at h
    split at h
    · cases h
    · next hf =>
      have hlt := rank_lt hrun ((hi.agent_fault h).trans (Bool.eq_false_iff.mpr hf)) h
      obtain ⟨_, _, _, _, _, _, _, _, _, _, _, _, _, _, _, _, _, rfl⟩ := runAgentThread_writes h
      exact ⟨hrun, le_of_lt hlt, fun _ _ => hlt⟩
  · obtain ⟨ha, -, -, -, -, -, hrn⟩ := step_agentState (fun i hi => he ⟨i, hi⟩) h
    rw [hrun] at hrn
    exact ⟨Bool.eq_false_iff.mpr fun h' => Bool.false_ne_true (hrn h'), by rw [ha],
      fun i hi => absurd ⟨i, hi⟩ he⟩

theorem rank_run (hr : Reachable c s) (hrun : s.running = false) (es : List Event)
    (h : run c s es = some s') : Reachable c s' ∧ s'.running = false ∧ rank s'.agent ≤ rank s.agent := by
  induction es generalizing s with
  | nil => cases h; exact ⟨hr, hrun, le_rfl⟩
  | cons e es ih =>
    obtain ⟨s₁, h₁, h₂⟩ := Option.bind_eq_some.mp h
    obtain ⟨hrun₁, hle₁, -⟩ := rank_step (inv_reachable hr) hrun h₁
    obtain ⟨hr', hrun', hle'⟩ := ih (hr.step e h₁) hrun₁ h₂
    exact ⟨hr', hrun', hle'.trans hle₁⟩

def AgentStepAfterStop (c : Config) (s' s : Sys) : Prop :=
  Reachable c s ∧ s.running = false ∧ ∃ es i, run c s (es ++ [.agent i]) = some s'

theorem agentStepAfterStop_wf (c : Config) : WellFounded (AgentStepAfterStop c) :=
  (InvImage.wf (fun s : Sys => rank s.agent) wellFounded_lt).mono
    fun s' s ⟨hr, hrun, es, i, h⟩ => by
      rw [run_append] at h
      obtain ⟨s₁, h₁, h₂⟩ := Option.bind_eq_some.mp h
      obtain ⟨hr₁, hrun₁, hle⟩ := rank_run hr hrun es h₁
      simp only [run, Option.bind_eq_some, Option.some.injEq] at h₂
      obtain ⟨_, h₃, rfl⟩ := h₂
      exact lt_of_lt_of_le ((rank_step (inv_reachable hr₁) hrun₁ h₃).2.2 i rfl) hle

/-! ### `Stop` waits for the profiler thread -/

/-- `_running` stays set until `Stop` clears it, `profile_done` is set only as the profiler
thread halts, and `Stop` leaves its wait loop only after `profile_done`. -/
structure Barrier (s : Sys) : Prop where
  running : s.stop.beforeClear = true → s.running = true
  done : s.profileDone = true → s.agent = .halted
  halted : s.agent = .halted → s.profileDone = true
  past : s.stop.pastWait = true → s.profileDone = true

theorem barrier_init : Barrier (init c) := ⟨fun _ => rfl, nofun, nofun, nofun⟩

theorem Barrier.same (hi : Barrier s) (hst : s'.stop = s.stop) (hrun : s'.running = s.running)
    (hpd : s'.profileDone = s.profileDone) (ha : s'.agent = s.agent) : Barrier s' :=
  ⟨by rw [hst, hrun]; exact hi.running, by rw [hpd, ha]; exact hi.done,
    by rw [hpd, ha]; exact hi.halted, by rw [hst, hpd]; exact hi.past⟩

theorem runAgentThread_halted (ha : s.agent = .halted) (i : AgentInput) :
    runAgentThread c s i = none := by
  simp [runAgentThread, ha]

theorem agent_profileDone {i : AgentInput} (h : runAgentThread c s i = some s') :
    (s'.profileDone = s.profileDone ∨ s'.agent = .halted) ∧
      (s'.agent = .halted → s'.profileDone = true) := by
  cases agentMove h <;> subst_vars
  case finish => exact ⟨.inr rfl, fun _ => rfl⟩
  case own ha' _ => exact ⟨.inl rfl, fun h => absurd h (AgentPc.own_ne_halted ha')⟩
  case sigFault ha _ => exact ⟨.inl rfl, fun h => by rw [ha] at h; cases h⟩
  case sigUnlock => exact ⟨.inl rfl, fun h => by cases ‹SigReturn› <;> cases h⟩
  all_goals exact ⟨.inl rfl, nofun⟩

theorem Barrier.agent_step (hi : Barrier s) {i : AgentInput} (h : runAgentThread c s i = some s') :
    Barrier s' := by
  have hnd : s.profileDone = false := Bool.eq_false_iff.mpr fun hp => by
    rw [runAgentThread_halted (hi.done hp)] at h; cases h
  obtain ⟨hpd, hhalt⟩ := agent_profileDone h
  obtain ⟨_, _, _, _, _, _, _, _, _, _, _, _, _, _, _, _, _, rfl⟩ := runAgentThread_writes h
  refine ⟨hi.running, fun hp => hpd.resolve_left fun he => ?_, hhalt, fun hp => ?_⟩
  · rw [he, hnd] at hp; cases hp
  · rw [hi.past hp] at hnd; cases hnd

theorem Barrier.stop_step (hi : Barrier s) (h : Callbacks.stop c s = some s') : Barrier s' := by
  obtain ⟨hr, hd, hh, hp⟩ := hi
  unfold Callbacks.stop at h
  split at h <;> (try split at h) <;> obtain ⟨rfl⟩ := h <;>
    exact ⟨fun _ => by simp_all [StopPc.beforeClear], hd, hh,
      fun _ => by simp_all [StopPc.beforeClear, StopPc.pastWait]⟩

theorem Barrier.step (hi : Barrier s) {e : Event} (h : System.step c s e = some s') : Barrier s' := by
  unfold System.step at h
  split at h
  · cases h
  cases e <;> simp only at h
  case agent i => exact hi.agent_step h
  case step t sl =>
    split at h
    · obtain ⟨_, _, _, _, _, _, _, _, _, rfl⟩ := handle_writes h
      exact hi.same rfl rfl rfl rfl
    · obtain ⟨_, _, _, _, _, _, _, _, _, _, _, rfl⟩ := threadMain_writes h
      exact hi.same rfl rfl rfl rfl
  case breakpoint t =>
    obtain ⟨_, _, rfl⟩ := handleBreakpoint_writes h
    exact hi.same rfl rfl rfl rfl
  case stop => exact hi.stop_step h
  case tick d => obtain ⟨rfl⟩ := h; exact hi.same rfl rfl rfl rfl
  all_goals
    first
    | obtain ⟨_, rfl⟩ := addUserThread_writes h
    | obtain ⟨_, rfl⟩ := classPrepare_writes h
    | obtain ⟨_, rfl⟩ := removeUserThread_writes h
    | obtain ⟨_, rfl⟩ := deliver_writes h
    exact hi.same rfl rfl rfl rfl

theorem barrier_reachable (hr : Reachable c s) : Barrier s := by
  induction hr with
  | init => exact barrier_init
  | step e _ h ih => exact ih.step h

/-- Once `Stop` has cleared `_running`, the profiler thread takes only finitely many more
statements, whatever the other threads do and however they interleave: there is no infinite
sequence of schedules each of which ends with one of its statements. Until it halts it can
always take its next statement, unless it spins on `user_threads_lock` or `frame_lock` held by
another party; and it halts only with `profile_done` set, which `Stop` waits for. -/
theorem agent_halts_after_stop (c : Config) :
    WellFounded (AgentStepAfterStop c) ∧
      ∀ s, Reachable c s → s.fault = false →
        (s.agent ≠ .halted → CanStep c s .agent ∨ WaitsFrame s .agent ∨ AgentWaitsRegistry s) ∧
        (s.agent = .halted → s.profileDone = true) :=
  ⟨agentStepAfterStop_wf c, fun _ hr hf =>
    ⟨agent_progress hf (locks_reachable hr) (registryLock_reachable hr),
      (barrier_reachable hr).halted⟩⟩

/-- `Stop` runs to `_running = false` before the profiler thread's first statement. -/
def stopEarly : List Event := List.replicate 4 .stop

theorem agent_halts_after_stop_at_stopEarly :
    ∃ s, run sampleConfig (init sampleConfig) stopEarly = some s ∧ Reachable sampleConfig s ∧
      s.fault = false ∧ s.running = false ∧ s.agent ≠ .halted ∧
      (CanStep sampleConfig s .agent ∨ WaitsFrame s .agent ∨ AgentWaitsRegistry s) := by
  obtain ⟨s, hs, he⟩ := Option.map_eq_some'.mp (show (run sampleConfig (init sampleConfig)
    stopEarly).map (fun s => (s.fault, s.running, s.agent matches .halted)) =
      some (false, false, false) by decide)
  have hr : Reachable sampleConfig s := Reachable.init.run stopEarly hs
  simp only [Prod.mk.injEq] at he
  obtain ⟨hf, hrun, ha⟩ := he
  have hna : s.agent ≠ .halted := fun h => by rw [h] at ha; cases ha
  exact ⟨s, hs, hr, hf, hrun, hna, ((agent_halts_after_stop sampleConfig).2 s hr hf).1 hna⟩

theorem halted_run (ha : s.agent = .halted) (es : List Event) (h : run c s es = some s') :
    s'.agent = .halted ∧ s'.rows = s.rows := by
  induction es generalizing s with
  | nil => cases h; exact ⟨ha, rfl⟩
  | cons e es ih =>
    obtain ⟨s₁, h₁, h₂⟩ := Option.bind_eq_some.mp h
    have hne : ∀ i, e ≠ .agent i := by
      rintro i rfl
      unfold step at h₁
      split at h₁
      · cases h₁
      · simp [runAgentThread_halted ha] at h₁
    obtain ⟨ha₁, -, -, -, hrows, -⟩ := step_agentState hne h₁
    obtain ⟨ha', hrows'⟩ := ih (ha₁.trans ha) h₂
    exact ⟨ha', hrows'.trans hrows⟩

/-- `Stop` is a barrier for the profiler thread: once it has left its wait loop, the profiler
thread has finished and set `profile_done`, so `clearInScopeMethods`, ignoring `SIGPROF` and
clearing the progress point all come after its last statement, and no later schedule writes
another row to the output file. -/
theorem stop_waits_for_agent (hr : Reachable c s) (hs : s.stop.pastWait = true) :
    s.profileDone = true ∧ s.agent = .halted ∧
      ∀ es s', run c s es = some s' → s'.agent = .halted ∧ s'.rows = s.rows :=
  have hi := barrier_reachable hr
  ⟨hi.past hs, hi.done (hi.past hs), fun es _ h => halted_run (hi.done (hi.past hs)) es h⟩

/-- `Stop` runs to its wait loop, the profiler thread starts, sees `_running` clear and
finishes, and `Stop` leaves its wait loop. -/
def stopFirst : List Event := List.replicate 4 .stop ++ Event.agentSteps 4 ++ [.stop]

theorem stop_waits_for_agent_at_stopFirst :
    ∃ s, run sampleConfig (init sampleConfig) stopFirst = some s ∧ Reachable sampleConfig s ∧
      s.stop.pastWait = true ∧
      (s.profileDone = true ∧ s.agent = .halted ∧
        ∀ es s', run sampleConfig s es = some s' → s'.agent = .halted ∧ s'.rows = s.rows) := by
  obtain ⟨s, hs, he⟩ := Option.map_eq_some'.mp (show (run sampleConfig (init sampleConfig)
    stopFirst).map (fun s => s.stop.pastWait) = some true by decide)
  have hr : Reachable sampleConfig s := Reachable.init.run stopFirst hs
  exact ⟨s, hs, hr, he, stop_waits_for_agent hr he⟩

end JCoz.Shutdown
