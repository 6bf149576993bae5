import JCoz.Writes

/-! The delay ledger `global_delay`: settlements only add to it, and only the profiler thread
resets it, so a settlement that read it before a reset adds its donation after. -/
namespace JCoz.Ledger
open State Agent Handler Callbacks System System.Event Writes

variable {c : Config} {s s' : Sys} {t : Nat}

theorem handle_globalDelay {sl : Nat} {hp : HandlerPc} (h : handle c s t sl hp = some s') :
    s.globalDelay ≤ s'.globalDelay := by
  cases hp <;> simp only [handle] at h <;> (try split at h) <;> (try split at h) <;>
    (try obtain ⟨rfl⟩ := h) <;>
    (try rcases withRecord_cases s t _ with ⟨hw, -⟩ | ⟨p, ut, -, hw⟩ <;> rw [hw]) <;>
    (try split) <;> simp [Sys.setHandler, Sys.setThread, Sys.setRecord, Int.le_add_of_nonneg_right, Int.natCast_nonneg]

theorem threadMain_globalDelay {m : MainPc} (h : threadMain c s t m = some s') :
    s.globalDelay ≤ s'.globalDelay := by
  cases m <;> simp only [threadMain] at h <;> (try split at h) <;> (try split at h) <;>
    (try obtain ⟨rfl⟩ := h) <;>
    (try rcases withRecord_cases s t _ with ⟨hw, -⟩ | ⟨p, ut, -, hw⟩ <;> rw [hw]) <;>
    simp [Sys.setMain, Sys.setThread, Sys.setRecord, Int.le_add_of_nonneg_right, Int.natCast_nonneg]

/-- Only the profiler thread lowers `global_delay`, and only to `0`: at its start and as each
experiment ends. Every settlement adds its donation, whatever it read. -/
theorem step_globalDelay {e : Event} (h : System.step c s e = some s') :
    s.globalDelay ≤ s'.globalDelay ∨ (∃ i, e = .agent i) ∧ s'.globalDelay = 0 := by
  unfold System.step at h
  split at h
  · cases h
  cases e <;> simp only at h
  case agent i =>
    cases agentMove h <;> subst_vars
    case own hgd => exact hgd.elim (fun he => .inl he.ge) fun he => .inr ⟨⟨i, rfl⟩, he⟩
    all_goals exact .inl le_rfl
  case step t sl =>
    split at h
    · exact .inl (handle_globalDelay h)
    · exact .inl (threadMain_globalDelay h)
  case stop => obtain ⟨_, _, _, _, _, _, _, rfl, -⟩ := stop_writes h; exact .inl le_rfl
  case tick d => obtain ⟨rfl⟩ := h; exact .inl le_rfl
  case breakpoint t => obtain ⟨_, _, rfl⟩ := handleBreakpoint_writes h; exact .inl le_rfl
  all_goals
    first
    | obtain ⟨_, rfl⟩ := addUserThread_writes h
    | obtain ⟨_, rfl⟩ := classPrepare_writes h
    | obtain ⟨_, rfl⟩ := removeUserThread_writes h
    | obtain ⟨_, rfl⟩ := deliver_writes h
    exact .inl le_rfl

theorem run_globalDelay {es : List Event} (hes : ∀ e ∈ es, ∀ i, e ≠ .agent i)
    (h : run c s es = some s') : s.globalDelay ≤ s'.globalDelay := by
  induction es generalizing s with
  | nil => cases h; exact le_rfl
  | cons e es ih =>
    obtain ⟨s₁, h₁, h₂⟩ := Option.bind_eq_some.mp h
    have hle := (step_globalDelay h₁).resolve_right fun ⟨⟨i, he⟩, _⟩ =>
      hes e (List.mem_cons_self _ _) i he
    exact hle.trans (ih (fun e' he' => hes e' (List.mem_cons_of_mem _ he')) h₂)

/-- Two threads each hit the target once (speedup `1.0`, one period per hit) and then end;
both read the ledger `0` before either settles. -/
def raceStart : List Event :=
  register 1 ++ register 2 ++ prepareScope 1 [7] ++ agentSteps 3 ++
    experiment 2 1 [target] [target] targetTable 24
def raceRest : List Event :=
  agentSteps 4 ++ handlerRun 1 [target] 8 ++ handlerRun 2 [target] 8 ++
    [.threadEnd 1, .threadEnd 2] ++ List.replicate 3 (.step 1 0) ++ List.replicate 3 (.step 2 0) ++
    [.step 1 0, .step 2 0]

set_option maxRecDepth 8000 in
theorem concurrent_donations_overshoot :
    (run sampleConfig (init sampleConfig) raceStart).map
        (fun s => (s.inExperiment, s.globalDelay)) = some (true, 0) ∧
    (run sampleConfig (init sampleConfig) (raceStart ++ raceRest)).map
        (fun s => (s.inExperiment, s.globalDelay, (s.record 1).map (·.2.localDelay),
          (s.record 2).map (·.2.localDelay))) =
      some (true, 2000000, some 1000000, some 1000000) := by
  decide

/-- Thread 2 hits the target and starts `removeUserThread`, reading its settlement before the
experiment ends; it settles after the ledger's reset, and the next experiment (speedup `0`)
starts from, and records, that donation. -/
def staleStart : List Event :=
  register 1 ++ register 2 ++ prepareScope 1 [7] ++ agentSteps 3 ++
    experiment 2 1 [target] [target] targetTable 24 ++ agentSteps 4 ++
    handlerRun 2 [target] 8 ++ [.threadEnd 2] ++ List.replicate 3 (.step 2 0) ++
    finishExperiment 2 5000000000 ++ List.replicate 5 (.step 2 0) ++
    agentSteps 1 ++ sampleAndSelect 1 1 [target] [target] targetTable ++ agentSteps 1
def staleRest : List Event :=
  agentSteps 1 ++ [.agent {}] ++ agentSteps 2 ++ agentSteps 3 ++ finishExperiment 1 100000000000

set_option maxRecDepth 8000 in
theorem stale_donation_reaches_next_experiment :
    (run sampleConfig (init sampleConfig) staleStart).map
        (fun s => (s.inExperiment, s.globalDelay)) = some (true, 1000000) ∧
    (run sampleConfig (init sampleConfig) (staleStart ++ staleRest)).map
        (fun s => s.rows.map fun r => (r.speedupDraw, r.duration - r.effectiveDuration)) =
      some [(24, 0), (0, 1000000)] := by
  decide

/-- Thread 2 hits the target twice and donates two periods on its way out; the experiment
records them as its delay. In the next experiment thread 1 takes a pending signal right after
`in_experiment = true`, before the speedup is drawn. -/
def quantumSchedule : List Event :=
  register 1 ++ register 2 ++ prepareScope 1 [7] ++ agentSteps 3 ++
    experiment 2 1 [target] [target] targetTable 24 ++ agentSteps 4 ++
    handlerRun 2 [target] 8 ++ agentSteps 6 ++ handlerRun 2 [target] 8 ++
    [.threadEnd 2] ++ List.replicate 8 (.step 2 0) ++ finishExperiment 1 5000000000 ++
    agentSteps 1 ++ sampleAndSelect 1 1 [target] [target] targetTable ++ agentSteps 1 ++
    handlerRun 1 [target] 5

set_option maxRecDepth 8000 in
theorem handler_adds_previous_ledger :
    (run sampleConfig (init sampleConfig) quantumSchedule).map
        (fun s => (s.inExperiment, s.current.delay, (s.record 1).map (·.2.localDelay))) =
      some (true, 2000000, some 2000000) := by
  decide

end JCoz.Ledger
