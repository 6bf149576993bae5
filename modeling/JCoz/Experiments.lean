import JCoz.Writes

/-! The recorded experiments over every interleaving: `experiment_time` follows the rows' hit
counts, and under a steady clock each row ran to its deadline. -/
namespace JCoz.State

/-- Where the profiler thread stands with respect to the running experiment's deadline. -/
inductive DeadlineStage where
  | other
  | leftLoop
  | passed
  | measured

def SigReturn.deadlineStage : SigReturn → DeadlineStage
  | .expFinal => .leftLoop
  | _ => .other

def AgentPc.deadlineStage : AgentPc → DeadlineStage
  | .sigLock r | .sigKill r _ => r.deadlineStage
  | .expEnd | .expCheck => .leftLoop
  | .expLedger => .passed
  | .expHits | .expResetHits2 | .expResetLedger | .expRecord => .measured
  | _ => .other

@[simp] theorem SigReturn.resume_deadlineStage (r : SigReturn) :
    r.resume.deadlineStage = r.deadlineStage := by
  cases r <;> rfl

end JCoz.State

namespace JCoz.Experiments
open State Agent ExperimentLength System System.Event Writes

variable {c : Config} {s s' : Sys}

inductive DeadlineMove (c : Config) (s s' : Sys) : Prop where
  | keep : s'.agent.deadlineStage = s.agent.deadlineStage → s'.expStart = s.expStart →
      s'.current.duration = s.current.duration → s'.experimentTime = s.experimentTime →
      s'.rows = s.rows → DeadlineMove c s s'
  | other : s.agent.deadlineStage = .other → s'.agent.deadlineStage = .other →
      s'.experimentTime = s.experimentTime → s'.rows = s.rows → DeadlineMove c s s'
  | leave : s.agent.deadlineStage = .other → s'.agent.deadlineStage = .leftLoop →
      s.running = false ∨ s.expStart + ((s.experimentTime * 1000000 : Nat) : Int) ≤ s.clock →
      s'.expStart = s.expStart → s'.experimentTime = s.experimentTime → s'.rows = s.rows →
      DeadlineMove c s s'
  | pass : s.agent.deadlineStage = .leftLoop → s'.agent.deadlineStage = .passed →
      s.running = true → s'.expStart = s.expStart → s'.experimentTime = s.experimentTime →
      s'.rows = s.rows → DeadlineMove c s s'
  | discard : s.agent.deadlineStage = .leftLoop → s'.agent.deadlineStage = .other →
      s'.experimentTime = s.experimentTime → s'.rows = s.rows → DeadlineMove c s s'
  | measure : s.agent.deadlineStage = .passed → s'.agent.deadlineStage = .measured →
      s'.current.duration = s.clock - s.expStart → s'.experimentTime = s.experimentTime →
      s'.rows = s.rows → DeadlineMove c s s'
  | record : s.agent.deadlineStage = .measured → s'.agent.deadlineStage = .other →
      s'.rows = s.rows ∧ s'.experimentTime = s.experimentTime ∨
        s'.rows = s.rows ++ [s.current.row] ∧ s'.experimentTime =
          updateExperimentLength c.consts c.fixExp s.current.pointsHit s.experimentTime →
      DeadlineMove c s s'

theorem agent_deadlineMove {i : AgentInput} (h : runAgentThread c s i = some s') :
    DeadlineMove c s s' := by
  unfold runAgentThread at h
  split at h <;> (try split at h) <;> (try split at h) <;> (try obtain ⟨rfl⟩ := h) <;>
    first
    | (refine .keep ?_ rfl rfl rfl rfl
       rw [‹s.agent = _›] <;> first | rfl | exact SigReturn.resume_deadlineStage _)
    | (refine .other ?_ ?_ rfl rfl <;> (try rw [‹s.agent = _›]) <;> rfl)
    | (refine .leave ?_ ?_ ?_ rfl rfl rfl <;> (try rw [‹s.agent = _›]) <;>
        first
        | rfl
        | exact .inl (by simpa using ‹¬s.running = true›)
        | exact .inr (not_lt.mp fun h => ‹¬(_ ∨ _)› (.inr h)))
    | (refine .pass ?_ ?_ ‹_› rfl rfl rfl <;> (try rw [‹s.agent = _›]) <;> rfl)
    | (refine .discard ?_ ?_ rfl rfl <;> (try rw [‹s.agent = _›]) <;> rfl)
    | (refine .measure ?_ ?_ rfl rfl rfl <;> (try rw [‹s.agent = _›]) <;> rfl)
    | (refine .record ?_ ?_ (.inl ⟨rfl, rfl⟩) <;> (try rw [‹s.agent = _›]) <;> rfl)
    | (refine .record ?_ ?_ (.inr ⟨rfl, rfl⟩) <;> (try rw [‹s.agent = _›]) <;> rfl)

def deadlineFact (s : Sys) : DeadlineStage → Prop
  | .other => True
  | .leftLoop => s.running = false ∨ s.expStart + ((s.experimentTime * 1000000 : Nat) : Int) ≤ s.clock
  | .passed => s.expStart + ((s.experimentTime * 1000000 : Nat) : Int) ≤ s.clock
  | .measured => ((s.experimentTime * 1000000 : Nat) : Int) ≤ s.current.duration

/-- `experiment_time` is the controller's value after the hit counts of the rows. -/
def Timed (c : Config) (s : Sys) : Prop :=
  s.experimentTime = experimentTimeAfter c.consts c.fixExp (s.rows.map (·.progressPointHits))

theorem Timed.append (hi : Timed c s) (hr : s'.rows = s.rows ++ [s.current.row])
    (ht : s'.experimentTime =
      updateExperimentLength c.consts c.fixExp s.current.pointsHit s.experimentTime) :
    Timed c s' := by
  rw [Timed, ht, hr, hi]
  simp only [experimentTimeAfter, List.map_append, List.map_cons, List.map_nil, runFrom_append,
    runFrom_cons, runFrom_nil]
  rfl

theorem Timed.step (hi : Timed c s) {e : Event} (h : System.step c s e = some s') : Timed c s' := by
  have frame : s'.experimentTime = s.experimentTime → s'.rows = s.rows → Timed c s' :=
    fun ht hr => by rw [Timed, ht, hr]; exact hi
  cases e
  case agent i =>
    unfold System.step at h
    split at h
    · cases h
    cases agent_deadlineMove h with
    | keep _ _ _ ht hr | other _ _ ht hr | leave _ _ _ _ ht hr | pass _ _ _ _ ht hr
    | discard _ _ ht hr | measure _ _ _ ht hr => exact frame ht hr
    | record _ _ hrec => exact hrec.elim (fun ⟨hr, ht⟩ => frame ht hr) fun ⟨hr, ht⟩ => hi.append hr ht
  all_goals
    obtain ⟨-, -, -, ht, hr, -⟩ := step_agentState (by intro _ hx; cases hx) h
    exact frame ht hr

theorem timed_reachable (hr : Reachable c s) : Timed c s := by
  induction hr with
  | init => rfl
  | step e _ h ih => exact ih.step h

structure Recorded (c : Config) (s : Sys) : Prop where
  rows : ∀ pre r post, s.rows = pre ++ r :: post →
    ((experimentTimeAfter c.consts c.fixExp (pre.map (·.progressPointHits)) * 1000000 : Nat) : Int) ≤
      r.duration
  stage : deadlineFact s s.agent.deadlineStage

theorem deadlineFact_mono {g : DeadlineStage} (h : deadlineFact s g)
    (he : s'.expStart = s.expStart) (hd : s'.current.duration = s.current.duration)
    (ht : s'.experimentTime = s.experimentTime) (hc : s.clock ≤ s'.clock)
    (hrun : s'.running = true → s.running = true) : deadlineFact s' g := by
  cases g
  case other => trivial
  case leftLoop =>
    refine Or.imp (fun hf => ?_) (fun hl => ?_) h
    · exact Bool.eq_false_iff.mpr fun hr => Bool.noConfusion (hf.symm.trans (hrun hr))
    · show s'.expStart + _ ≤ s'.clock
      rw [he, ht]; exact hl.trans hc
  case passed =>
    show s'.expStart + _ ≤ s'.clock
    rw [he, ht]; exact h.trans hc
  case measured =>
    show ((s'.experimentTime * 1000000 : Nat) : Int) ≤ s'.current.duration
    rw [hd, ht]; exact h

theorem Recorded.of_frame (hi : Recorded c s) (hr : s'.rows = s.rows)
    (hstage : deadlineFact s' s'.agent.deadlineStage) : Recorded c s' :=
  ⟨by rw [hr]; exact hi.rows, hstage⟩

theorem Recorded.append (hi : Recorded c s) (hT : Timed c s) (hm : deadlineFact s .measured)
    (hr : s'.rows = s.rows ++ [s.current.row])
    (hstage : deadlineFact s' s'.agent.deadlineStage) : Recorded c s' where
  rows := by
    intro pre r post heq
    rw [hr] at heq
    rcases List.eq_nil_or_concat post with rfl | ⟨L, b, rfl⟩
    · -- the new row: the experiment it closes ran under the current `experiment_time`
      obtain ⟨rfl, hrow⟩ := List.append_inj' heq rfl
      obtain rfl := List.singleton_inj.mp hrow
      rw [← hT]; exact hm
    · rw [List.concat_eq_append, ← List.cons_append, ← List.append_assoc] at heq
      exact hi.rows pre r L (List.append_inj' heq rfl).1
  stage := hstage

theorem Recorded.agent_step (hi : Recorded c s) (hT : Timed c s) {i : AgentInput}
    (h : runAgentThread c s i = some s') : Recorded c s' := by
  obtain ⟨hclock, hrun⟩ : s'.clock = s.clock ∧ s'.running = s.running := by
    obtain ⟨_, _, _, _, _, _, _, _, _, _, _, _, _, _, _, _, _, rfl⟩ := runAgentThread_writes h
    exact ⟨rfl, rfl⟩
  have hstage := hi.stage
  cases agent_deadlineMove h with
  | keep hs he hd ht hr =>
    refine hi.of_frame hr ?_
    rw [hs]; exact deadlineFact_mono hstage he hd ht hclock.ge (by rw [hrun]; exact id)
  | other _ hs' _ hr => exact hi.of_frame hr (by rw [hs']; trivial)
  | leave _ hs' hcond he ht hr =>
    refine hi.of_frame hr ?_
    rw [hs']
    show s'.running = false ∨ s'.expStart + _ ≤ s'.clock
    rw [hrun, he, ht, hclock]; exact hcond
  | pass hs hs' hrunning he ht hr =>
    -- the check passed, so the loop was left at the deadline
    refine hi.of_frame hr ?_
    rw [hs] at hstage; rw [hs']
    show s'.expStart + _ ≤ s'.clock
    rw [he, ht, hclock]; exact Or.resolve_left hstage (by simp [hrunning])
  | discard _ hs' _ hr => exact hi.of_frame hr (by rw [hs']; trivial)
  | measure hs hs' hd ht hr =>
    refine hi.of_frame hr ?_
    rw [hs] at hstage; rw [hs']
    show ((s'.experimentTime * 1000000 : Nat) : Int) ≤ s'.current.duration
    have hdl : s.expStart + ((s.experimentTime * 1000000 : Nat) : Int) ≤ s.clock := hstage
    rw [hd, ht]; omega
  | record hs hs' hrec =>
    rcases hrec with ⟨hr, -⟩ | ⟨hr, -⟩
    · exact hi.of_frame hr (by rw [hs']; trivial)
    · rw [hs] at hstage; exact hi.append hT hstage hr (by rw [hs']; trivial)

theorem Recorded.step (hi : Recorded c s) (hT : Timed c s) {e : Event} (hst : e.steady = true)
    (h : System.step c s e = some s') : Recorded c s' := by
  cases e
  case agent i =>
    unfold System.step at h
    split at h
    · cases h
    · exact hi.agent_step hT h
  all_goals
    obtain ⟨ha, he, hc, ht, hr, hclock, hrun⟩ := step_agentState (by intro _ hx; cases hx) h
    refine hi.of_frame hr ?_
    rw [ha]; exact deadlineFact_mono hi.stage he (by rw [hc]) ht (hclock hst) hrun

/-- In every reachable state `experiment_time` is what `update_experiment_length` makes of the
hit counts of the rows written so far, in order; so with `EXP_TIME_FACTOR = 2` and no overflow
it stays within `[⌈MIN_EXP_TIME / 2⌉, MAX_EXP_TIME]` over every interleaving. -/
theorem experimentTime_follows_rows (hr : Reachable c s) :
    s.experimentTime = experimentTimeAfter c.consts c.fixExp (s.rows.map (·.progressPointHits)) ∧
    (c.consts.expTimeFactor = 2 → c.consts.minExpTime ≤ c.consts.maxExpTime →
      c.consts.maxExpTime < 2 ^ 63 →
      (c.consts.minExpTime + 1) / 2 ≤ s.experimentTime ∧ s.experimentTime ≤ c.consts.maxExpTime) := by
  have ht := timed_reachable hr
  refine ⟨ht, fun hF hle hmax => ?_⟩
  rw [ht, experimentTimeAfter]
  cases c.fixExp
  · exact runFrom_mem hF hmax _ _ (by omega) hle
  · rw [runFrom_fixExp]; omega

/-- One experiment with no hit, recorded once its five-second deadline has passed. -/
def oneExperiment : List Event :=
  register 1 ++ prepareScope 1 [7] ++ agentSteps 3 ++
    experiment 1 1 [target] [target] targetTable 0 ++ finishExperiment 1 5000000000

def oneRow : Row := ⟨42, 0, 5000000000, 5000000000, 0⟩

set_option maxRecDepth 8000 in
theorem oneExperiment_reachable :
    ∃ s, run sampleConfig (init sampleConfig) oneExperiment = some s ∧ s.rows = [oneRow] ∧
      s.experimentTime = 10000 := by
  obtain ⟨s, hs, he⟩ := Option.map_eq_some'.mp (show (run sampleConfig (init sampleConfig)
    oneExperiment).map (fun s => (s.rows, s.experimentTime)) = some ([oneRow], 10000) by decide)
  exact ⟨s, hs, congrArg Prod.fst he, congrArg Prod.snd he⟩

theorem experimentTime_follows_rows_at_oneExperiment :
    ∃ s, run sampleConfig (init sampleConfig) oneExperiment = some s ∧ s.rows = [oneRow] ∧
      s.experimentTime = 10000 ∧ Reachable sampleConfig s ∧
      (s.experimentTime = experimentTimeAfter sampleConfig.consts sampleConfig.fixExp
          (s.rows.map (·.progressPointHits)) ∧
        (sampleConfig.consts.expTimeFactor = 2 →
          sampleConfig.consts.minExpTime ≤ sampleConfig.consts.maxExpTime →
          sampleConfig.consts.maxExpTime < 2 ^ 63 →
          (sampleConfig.consts.minExpTime + 1) / 2 ≤ s.experimentTime ∧
            s.experimentTime ≤ sampleConfig.consts.maxExpTime)) ∧
      (sampleConfig.consts.minExpTime + 1) / 2 ≤ s.experimentTime ∧
        s.experimentTime ≤ sampleConfig.consts.maxExpTime := by
  obtain ⟨s, hs, hrows, ht⟩ := oneExperiment_reachable
  have hr : Reachable sampleConfig s := Reachable.init.run oneExperiment hs
  exact ⟨s, hs, hrows, ht, hr, experimentTime_follows_rows hr,
    (experimentTime_follows_rows hr).2 rfl (by decide) (by decide)⟩

set_option maxRecDepth 8000 in
/-- With the system clock set back by a second between the end of the wait loop and `expEnd`,
the first experiment, of `MIN_EXP_TIME = 5000` ms, is recorded as lasting four seconds. -/
example : (run sampleConfig (init sampleConfig) (register 1 ++ prepareScope 1 [7] ++
    agentSteps 3 ++ experiment 1 1 [target] [target] targetTable 0 ++ [.tick 5000000000] ++
    agentSteps 10 ++ [.tick (-1000000000)] ++ agentSteps 5)).map
      (fun s => s.rows.map (·.duration)) = some [4000000000] := by
  decide

end JCoz.Experiments
