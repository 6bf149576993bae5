import JCoz.Spinlocks
import JCoz.Registry

/-! Progress of the three spinlocks, taken in the order `user_threads_lock`, `in_scope_lock`,
`frame_lock`: some holder can always step. -/
namespace JCoz.Progress
open State Agent Handler Callbacks System Writes Spinlocks Registry

variable {c : Config} {s s' : Sys} {t : Nat}

/-! ### Who is inside `user_threads_lock` -/

def registryHeld (s : Sys) : Owner → Prop
  | .agent => s.agent.broadcasting
  | .thread t => (s.threads t).main.holdsRegistry
  | .stopper => False

def RegistryLock (s : Sys) : Prop := ∀ o, s.userThreadsLock = some o → registryHeld s o

theorem registryLock_init : RegistryLock (init c) := fun _ h => nomatch h

theorem RegistryLock.of_mains (hi : RegistryLock s) (hl : s'.userThreadsLock = s.userThreadsLock)
    (ha : s.agent.broadcasting → s'.agent.broadcasting)
    (hm : ∀ u, (s.threads u).main.holdsRegistry → (s'.threads u).main.holdsRegistry) :
    RegistryLock s'
  | .agent, h => ha (hi .agent (hl.symm.trans h))
  | .thread u, h => hm u (hi (.thread u) (hl.symm.trans h))
  | .stopper, h => hi .stopper (hl.symm.trans h)

theorem RegistryLock.thread_step (hi : RegistryLock s)
    (hother : ∀ u, u ≠ t → s'.threads u = s.threads u) (ha : s'.agent = s.agent)
    (hl : s'.userThreadsLock = s.userThreadsLock)
    (hm : (s.threads t).main.holdsRegistry → (s'.threads t).main.holdsRegistry) : RegistryLock s' :=
  hi.of_mains hl (by rw [ha]; exact id) fun u h => by
    by_cases hu : u = t
    · subst hu; exact hm h
    · rw [hother u hu]; exact h

theorem main_pending (th : Nat → Thread) (p u : Nat) :
    (Function.update th p { th p with pending := true } u).main = (th u).main := by
  by_cases hu : u = p
  · subst hu; rw [Function.update_same]
  · rw [Function.update_noteq hu]

theorem agent_registryMove {i : AgentInput} (h : runAgentThread c s i = some s') :
    (∀ u, (s'.threads u).main = (s.threads u).main) ∧
      (s'.userThreadsLock = s.userThreadsLock ∧ (s.agent.broadcasting → s'.agent.broadcasting) ∨
        s'.userThreadsLock = some .agent ∧ s'.agent.broadcasting ∨ s'.userThreadsLock = none) := by
  cases agentMove h <;> subst_vars
  case sigLock => exact ⟨fun _ => rfl, .inr (.inl ⟨rfl, trivial⟩)⟩
  case sigKill => exact ⟨main_pending _ _, .inl ⟨rfl, fun _ => trivial⟩⟩
  case sigFault => exact ⟨fun _ => rfl, .inl ⟨rfl, id⟩⟩
  case sigUnlock => exact ⟨fun _ => rfl, .inr (.inr rfl)⟩
  case own hs _ _ =>
    exact ⟨fun _ => rfl, .inl ⟨rfl, fun hb => absurd hb (AgentPc.own_broadcasting hs)⟩⟩
  all_goals exact ⟨fun _ => rfl, .inl ⟨rfl, fun hb => by simp_all [AgentPc.broadcasting]⟩⟩

theorem RegistryLock.agent_step (hi : RegistryLock s) {i : AgentInput}
    (h : runAgentThread c s i = some s') : RegistryLock s' := by
  obtain ⟨hm, ⟨hl, ha⟩ | ⟨hl, ha⟩ | hl⟩ := agent_registryMove h
  · exact hi.of_mains hl ha fun u => by rw [hm u]; exact id
  · intro o ho
    obtain rfl := Option.some.inj (hl.symm.trans ho)
    exact ha
  · exact fun o ho => nomatch hl.symm.trans ho

theorem threadMain_registryMove {m : MainPc} (h : threadMain c s t m = some s') :
    s'.userThreadsLock = s.userThreadsLock ∧ (m.holdsRegistry → (s'.threads t).main.holdsRegistry) ∨
      s'.userThreadsLock = some (.thread t) ∧ (s'.threads t).main.holdsRegistry ∨
      s'.userThreadsLock = none := by
  cases m <;> simp only [threadMain] at h <;> (try split at h) <;> (try split at h) <;>
    (try obtain ⟨rfl⟩ := h) <;>
    (try rcases withRecord_cases s t _ with ⟨hw, -⟩ | ⟨p, ut, -, hw⟩ <;> rw [hw]) <;>
    (try first | rw [setMain_self] | rw [setThread_self]) <;>
    first
    | exact .inl ⟨rfl, False.elim⟩
    | exact .inl ⟨rfl, fun _ => trivial⟩
    | exact .inr (.inl ⟨rfl, trivial⟩)
    | exact .inr (.inr rfl)

theorem RegistryLock.threadMain_step (hi : RegistryLock s)
    (h : threadMain c s t (s.threads t).main = some s') : RegistryLock s' := by
  rcases threadMain_registryMove h with ⟨hl, hm⟩ | ⟨hl, hm⟩ | hl
  · obtain ⟨_, _, _, _, _, _, _, _, _, _, _, rfl⟩ := threadMain_writes h
    exact hi.thread_step (fun u hu => Function.update_noteq hu _ _) rfl hl hm
  · intro o ho
    obtain rfl := Option.some.inj (hl.symm.trans ho)
    exact hm
  · exact fun o ho => nomatch hl.symm.trans ho

theorem main_setHandler (s : Sys) (t u : Nat) (h : Option HandlerPc) :
    ((s.setHandler t h).threads u).main = (s.threads u).main := by
  rw [setHandler_threads, Function.update_apply]
  split
  · next hu => subst hu; rfl
  · rfl

theorem handle_main {sl : Nat} {hp : HandlerPc} (h : handle c s t sl hp = some s') (u : Nat) :
    (s'.threads u).main = (s.threads u).main := by
  cases hp <;> simp only [handle] at h <;> (try split at h) <;> (try split at h) <;>
    (try obtain ⟨rfl⟩ := h) <;>
    (try rcases withRecord_cases s t _ with ⟨hw, -⟩ | ⟨p, ut, -, hw⟩ <;> rw [hw]) <;>
    (try split) <;>
    first
    | rfl
    | exact main_setHandler ..

theorem RegistryLock.step (hi : RegistryLock s) {e : Event} (h : System.step c s e = some s') :
    RegistryLock s' := by
  unfold System.step at h
  split at h
  · cases h
  cases e <;> simp only at h
  case agent i => exact hi.agent_step h
  case step t sl =>
    split at h
    · have hm := handle_main h
      obtain ⟨_, _, _, _, _, _, _, _, _, rfl⟩ := handle_writes h
      exact hi.of_mains rfl id fun u => by rw [hm u]; exact id
    · exact hi.threadMain_step h
  case start t b =>
    obtain ⟨hm, rfl⟩ := addUserThread_eq h
    split <;>
      exact hi.thread_step (fun u hu => Function.update_noteq hu _ _) rfl rfl (by rw [hm]; nofun)
  case breakpoint t =>
    obtain ⟨_, _, rfl⟩ := handleBreakpoint_writes h
    exact hi.of_mains rfl id fun _ => id
  case classPrepare t ms b b' =>
    obtain ⟨hidle, rfl⟩ := classPrepare_eq h
    exact hi.thread_step (fun u hu => Function.update_noteq hu _ _) rfl rfl
      (by rw [(idle_iff.1 hidle).1]; nofun)
  case threadEnd t =>
    obtain ⟨hidle, rfl⟩ := removeUserThread_eq h
    exact hi.thread_step (fun u hu => Function.update_noteq hu _ _) rfl rfl
      (by rw [(idle_iff.1 hidle).1]; nofun)
  case deliver t fs =>
    obtain ⟨-, -, rfl⟩ := deliver_eq h
    exact hi.thread_step (fun u hu => Function.update_noteq hu _ _) rfl rfl
      (by rw [setThread_self]; exact id)
  case stop =>
    obtain ⟨_, _, _, _, _, _, _, rfl, -⟩ := stop_writes h
    exact hi.of_mains rfl id fun _ => id
  case tick d => obtain ⟨rfl⟩ := h; exact hi.of_mains rfl id fun _ => id

theorem registryLock_reachable (hr : Reachable c s) : RegistryLock s := by
  induction hr with
  | init => exact registryLock_init
  | step e _ h ih => exact ih.step h

/-! ### Where a party can block -/

/-- Party `o` can take its next statement, for some choice of the environment. -/
def CanStep (c : Config) (s : Sys) : Owner → Prop
  | .agent => ∃ i, (step c s (.agent i)).isSome
  | .thread t => ∃ sl, (step c s (.step t sl)).isSome
  | .stopper => (step c s .stop).isSome

def AcquiresFrame (s : Sys) : Owner → Prop
  | .agent => s.agent = .copyLock ∨ s.agent = .clearLock
  | .thread t => ∃ f hl, (s.threads t).handler = some (.frameLock f hl)
  | .stopper => False

def AcquiresScope (s : Sys) : Owner → Prop
  | .agent => False
  | .thread t => (∃ fs, (s.threads t).handler = some (.scopeLock fs)) ∨
      (s.threads t).handler = none ∧ ∃ ms p, (s.threads t).main = .scopeLock ms p
  | .stopper => s.stop = .scopeLock

def WaitsFrame (s : Sys) (o : Owner) : Prop :=
  AcquiresFrame s o ∧ ∃ o', s.frameLock = some o' ∧ o' ≠ o

def WaitsScope (s : Sys) (o : Owner) : Prop :=
  AcquiresScope s o ∧ ∃ o', s.inScopeLock = some o' ∧ o' ≠ o

def AgentWaitsRegistry (s : Sys) : Prop :=
  (∃ r, s.agent = .sigLock r) ∧ ∃ o, s.userThreadsLock = some o ∧ o ≠ .agent

def HoldsSpinlock (s : Sys) (o : Owner) : Prop :=
  s.frameLock = some o ∨ s.inScopeLock = some o ∨ s.userThreadsLock = some o

section Enabled
variable (hf : s.fault = false)
include hf

theorem step_agent (i : AgentInput) : step c s (.agent i) = runAgentThread c s i := by
  simp [step, hf]

theorem step_handler {sl : Nat} {hp : HandlerPc} (hh : (s.threads t).handler = some hp) :
    step c s (.step t sl) = handle c s t sl hp := by
  simp [step, hf, hh]

theorem step_main {sl : Nat} (hh : (s.threads t).handler = none) :
    step c s (.step t sl) = threadMain c s t (s.threads t).main := by
  simp [step, hf, hh]

theorem step_stop : step c s .stop = Callbacks.stop c s := by
  simp [step, hf]

/-- The profiler thread blocks only once halted and at the compare-and-swaps of
`user_threads_lock` and `frame_lock`; at the shuffle, the order it takes is the environment's. -/
theorem agent_canStep_or (ha : s.agent ≠ .halted) :
    CanStep c s .agent ∨ (∃ r, s.agent = .sigLock r) ∧ s.userThreadsLock ≠ none ∨
      AcquiresFrame s .agent ∧ s.frameLock ≠ none := by
  have can : ∀ i, (runAgentThread c s i).isSome → CanStep c s .agent :=
    fun i h => ⟨i, by rw [step_agent hf]; exact h⟩
  cases hs : s.agent
  case halted => exact absurd hs ha
  case resolve =>
    refine .inl (can { order := s.callFrames.dedup } ?_)
    simp only [runAgentThread, hs, if_pos (List.Perm.refl _)]
    split <;> rfl
  case sigLock r =>
    by_cases hl : s.userThreadsLock = none
    · exact .inl (can {} (by simp [runAgentThread, hs, hl]))
    · exact .inr (.inl ⟨⟨r, rfl⟩, hl⟩)
  case copyLock | clearLock =>
    by_cases hl : s.frameLock = none
    · exact .inl (can {} (by simp [runAgentThread, hs, hl]))
    · exact .inr (.inr ⟨by simp [AcquiresFrame, hs], hl⟩)
  case sigKill r ps => exact .inl (can {} (by cases ps <;> simp [runAgentThread, hs]; split <;> rfl))
  all_goals exact .inl (can {} (by simp [runAgentThread, hs]))

theorem agent_canStep (h : s.agent.broadcasting ∨ s.agent.holdsFrame = true) :
    CanStep c s .agent := by
  have ha : s.agent ≠ .halted := fun he => by simp [he, AgentPc.broadcasting, AgentPc.holdsFrame] at h
  rcases agent_canStep_or hf ha with hc | ⟨⟨r, hr⟩, -⟩ | ⟨hacq, -⟩
  · exact hc
  · simp [hr, AgentPc.broadcasting, AgentPc.holdsFrame] at h
  · rcases hacq with hr | hr <;> simp [hr, AgentPc.broadcasting, AgentPc.holdsFrame] at h

/-- Until it halts, the profiler thread blocks only on the compare-and-swap of
`user_threads_lock` or `frame_lock` held by another party. -/
theorem agent_progress (hi : Locks s) (hr : RegistryLock s) (ha : s.agent ≠ .halted) :
    CanStep c s .agent ∨ WaitsFrame s .agent ∨ AgentWaitsRegistry s := by
  rcases agent_canStep_or hf ha with hc | ⟨⟨r, hs⟩, hl⟩ | ⟨hacq, hl⟩
  · exact .inl hc
  · obtain ⟨o, ho⟩ := Option.ne_none_iff_exists'.mp hl
    refine .inr (.inr ⟨⟨r, hs⟩, o, ho, fun h => ?_⟩)
    subst h
    simpa [registryHeld, hs, AgentPc.broadcasting] using hr .agent ho
  · obtain ⟨o, ho⟩ := Option.ne_none_iff_exists'.mp hl
    refine .inr (.inl ⟨hacq, o, ho, fun h => ?_⟩)
    subst h
    rcases hacq with hs | hs <;> simpa [hs, AgentPc.holdsFrame] using hi.agent.mp ho

theorem stop_canStep (h : s.stop.holdsScope = true) : CanStep c s .stopper := by
  show (step c s .stop).isSome
  rw [step_stop hf]
  unfold Callbacks.stop
  cases hs : s.stop <;> rw [hs] at h <;> first | rfl | cases h

end Enabled

theorem threadMain_canStep {m : MainPc} (h : m.holdsRegistry ∨ m.holdsScope = true) :
    (threadMain c s t m).isSome := by
  cases m <;> simp only [MainPc.holdsRegistry, MainPc.holdsScope, Bool.false_eq_true, or_self,
    false_or, or_false] at h <;> rfl

theorem handle_blocked (hi : Locks s) {sl : Nat} {hp : HandlerPc}
    (hh : (s.threads t).handler = some hp) (hn : handle c s t sl hp = none) :
    WaitsScope s (.thread t) ∨ WaitsFrame s (.thread t) := by
  cases hp
  case scopeLock fs =>
    simp only [handle] at hn
    split at hn
    · cases hn
    · split at hn
      · cases hn
      · next hown hfree =>
        obtain ⟨o', ho'⟩ := Option.ne_none_iff_exists'.mp hfree
        exact .inl ⟨.inl ⟨fs, hh⟩, o', ho', fun h => hown (h ▸ ho')⟩
  case frameLock f b =>
    simp only [handle] at hn
    split at hn
    · cases hn
    · next hfree =>
      obtain ⟨o', ho'⟩ := Option.ne_none_iff_exists'.mp hfree
      refine .inr ⟨⟨f, b, hh⟩, o', ho', fun h => ?_⟩
      subst h
      have := (hi.thread t).1.mp ho'
      simp [Thread.lockView, LockView.ofPcs, hh, HandlerPc.holdsFrame] at this
  all_goals simp only [handle] at hn; (try split at hn) <;> cases hn

theorem thread_progress (hi : Locks s) (hf : s.fault = false)
    (hm : (s.threads t).handler = none → (threadMain c s t (s.threads t).main).isSome) :
    CanStep c s (.thread t) ∨ WaitsScope s (.thread t) ∨ WaitsFrame s (.thread t) := by
  cases hh : (s.threads t).handler with
  | none => exact .inl ⟨0, by rw [step_main hf hh]; exact hm hh⟩
  | some hp =>
    cases hn : handle c s t 0 hp with
    | none => exact .inr (handle_blocked hi hh hn)
    | some s' => exact .inl ⟨0, by rw [step_handler hf hh, hn]; rfl⟩

/-! ### The lock order -/

section Order
variable (hi : Locks s) (hf : s.fault = false)
include hi hf

theorem frame_holder_canStep : ∀ o, s.frameLock = some o → CanStep c s o
  | .agent, h => agent_canStep hf (.inr (hi.agent.mp h))
  | .thread t, h => by
    have hfr := (hi.thread t).1.mp h
    have hn : (s.threads t).handler ≠ none := fun hh => by
      simp [Thread.lockView, LockView.ofPcs, hh] at hfr
    rcases thread_progress hi hf (fun hh => absurd hh hn) with hs | ⟨hacq, -⟩ | ⟨-, o', ho', hne⟩
    · exact hs
    · rcases hacq with ⟨fs, hh⟩ | ⟨hh, -⟩
      · simp [Thread.lockView, LockView.ofPcs, hh, HandlerPc.holdsFrame] at hfr
      · exact absurd hh hn
    · exact absurd (Option.some.inj (ho'.symm.trans h)) hne
  | .stopper, h => absurd h hi.noStopperFrame

theorem scope_holder_progress : ∀ o, s.inScopeLock = some o → CanStep c s o ∨ WaitsFrame s o
  | .agent, h => absurd h hi.noAgentScope
  | .thread t, h => by
    have hsc := (hi.thread t).2.1.mp h
    have hm : (s.threads t).handler = none → (threadMain c s t (s.threads t).main).isSome :=
      fun hh => threadMain_canStep (.inr (by
        simpa [Thread.lockView, LockView.ofPcs, hh] using hsc))
    rcases thread_progress hi hf hm with hs | ⟨-, o', ho', hne⟩ | hw
    · exact .inl hs
    · exact absurd (Option.some.inj (ho'.symm.trans h)) hne
    · exact .inr hw
  | .stopper, h => .inl (stop_canStep hf (hi.stopper.mp h))

theorem registry_holder_progress (hr : RegistryLock s) :
    ∀ o, s.userThreadsLock = some o → CanStep c s o ∨ WaitsScope s o ∨ WaitsFrame s o
  | .agent, h => .inl (agent_canStep hf (.inl (hr .agent h)))
  | .thread t, h => thread_progress hi hf fun _ => threadMain_canStep (.inl (hr (.thread t) h))
  | .stopper, h => (hr .stopper h).elim

end Order

/-- `user_threads_lock`, `in_scope_lock` and `frame_lock` are taken in that order: in every
reachable state that has not faulted, the holder of `frame_lock` can take its next statement, a
holder of `in_scope_lock` can or spins only on `frame_lock`, and a holder of
`user_threads_lock` can or spins only on one of the other two, each held by another party. So
whenever a spinlock is held, one of its holders can step: the spinlocks never deadlock. -/
theorem spinlocks_deadlock_free (hr : Reachable c s) (hf : s.fault = false) :
    (∀ o, s.frameLock = some o → CanStep c s o) ∧
    (∀ o, s.inScopeLock = some o → CanStep c s o ∨ WaitsFrame s o) ∧
    (∀ o, s.userThreadsLock = some o → CanStep c s o ∨ WaitsScope s o ∨ WaitsFrame s o) ∧
    ((∃ o, HoldsSpinlock s o) → ∃ o, HoldsSpinlock s o ∧ CanStep c s o) := by
  have hi := locks_reachable hr
  have hfr := frame_holder_canStep (c := c) hi hf
  have hsc := scope_holder_progress (c := c) hi hf
  have hrg := registry_holder_progress (c := c) hi hf (registryLock_reachable hr)
  refine ⟨hfr, hsc, hrg, fun ⟨o, ho⟩ => ?_⟩
  cases hfl : s.frameLock with
  | some o' => exact ⟨o', .inl hfl, hfr o' hfl⟩
  | none =>
    have nwf : ∀ o, ¬WaitsFrame s o := fun _ ⟨_, _, h, _⟩ => nomatch hfl.symm.trans h
    cases hsl : s.inScopeLock with
    | some o' => exact ⟨o', .inr (.inl hsl), (hsc o' hsl).resolve_right (nwf o')⟩
    | none =>
      have hu : s.userThreadsLock = some o := by
        rcases ho with h | h | h
        · exact nomatch hfl.symm.trans h
        · exact nomatch hsl.symm.trans h
        · exact h
      refine ⟨o, .inr (.inr hu), ?_⟩
      rcases hrg o hu with h | ⟨-, _, h, _⟩ | h
      · exact h
      · exact nomatch hsl.symm.trans h
      · exact absurd h (nwf o)

theorem spinlocks_deadlock_free_at_hasLockRun :
    ∃ s, run sampleConfig (init sampleConfig) hasLockRun = some s ∧
      s.inScopeLock = some (.thread 1) ∧ Reachable sampleConfig s ∧ s.fault = false ∧
      ((∀ o, s.frameLock = some o → CanStep sampleConfig s o) ∧
        (∀ o, s.inScopeLock = some o → CanStep sampleConfig s o ∨ WaitsFrame s o) ∧
        (∀ o, s.userThreadsLock = some o →
          CanStep sampleConfig s o ∨ WaitsScope s o ∨ WaitsFrame s o) ∧
        ((∃ o, HoldsSpinlock s o) → ∃ o, HoldsSpinlock s o ∧ CanStep sampleConfig s o)) := by
  obtain ⟨s, hs, he⟩ := Option.map_eq_some'.mp (show (run sampleConfig (init sampleConfig)
    hasLockRun).map (fun s => (s.inScopeLock, s.fault)) = some (some (.thread 1), false) by decide)
  have hr : Reachable sampleConfig s := Reachable.init.run hasLockRun hs
  have hf : s.fault = false := congrArg Prod.snd he
  exact ⟨s, hs, congrArg Prod.fst he, hr, hf, spinlocks_deadlock_free hr hf⟩

end JCoz.Progress
