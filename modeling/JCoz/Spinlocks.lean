import JCoz.Writes

/-! `frame_lock` and `in_scope_lock`: each lock word names exactly the party inside its
section, and the handler's `has_lock` path runs only under its own thread's lock. -/
namespace JCoz.State

def HandlerPc.holdsFrame : HandlerPc → Bool
  | .frameAdd .. | .frameStore .. | .frameUnlock _ => true
  | _ => false

def HandlerPc.scopeLockState : HandlerPc → Option Bool
  | .scopeScan _ hl | .frameLock _ hl | .frameAdd _ hl | .frameStore _ _ hl | .frameUnlock hl
  | .scopeUnlock hl => some hl
  | _ => none

def MainPc.holdsScope : MainPc → Bool
  | .scopeInsert .. | .scopeUnlock _ => true
  | _ => false

def StopPc.holdsScope : StopPc → Bool
  | .scopeClear | .scopeUnlock => true
  | _ => false

/-- What a thread's two program counters say about the locks. -/
structure LockView where
  frame : Bool
  scope : Option Bool
  main : Bool
  deriving DecidableEq, Repr

def LockView.ofPcs (h : Option HandlerPc) (m : MainPc) : LockView :=
  ⟨h.any HandlerPc.holdsFrame, h.bind HandlerPc.scopeLockState, m.holdsScope⟩

def Thread.lockView (th : Thread) : LockView := LockView.ofPcs th.handler th.main

end JCoz.State

namespace JCoz.Spinlocks
open State Agent Handler Callbacks System System.Event Writes

variable {c : Config} {s s' : Sys} {t : Nat}

/-- Thread `t`'s view agrees with the lock words: it holds `frame_lock` exactly inside its
handler's frame section, and `in_scope_lock` exactly inside `addInScopeMethods` or a handler
section that took the lock itself; `has_lock` is true exactly when `addInScopeMethods` holds it. -/
def ThreadLockOk (t : Nat) (v : LockView) (fl isl : Option Owner) : Prop :=
  (fl = some (.thread t) ↔ v.frame = true) ∧
  (isl = some (.thread t) ↔ v.main = true ∨ v.scope = some false) ∧
  (v.scope = some true → v.main = true) ∧ (v.scope = some false → v.main = false)

theorem ThreadLockOk.transfer {v : LockView} {fl fl' isl isl' : Option Owner}
    (h : ThreadLockOk t v fl isl) (hf : fl' = some (.thread t) ↔ fl = some (.thread t))
    (hs : isl' = some (.thread t) ↔ isl = some (.thread t)) : ThreadLockOk t v fl' isl' :=
  ⟨hf.trans h.1, hs.trans h.2.1, h.2.2⟩

def MovesWith (o : Owner) (l l' : Option Owner) : Prop :=
  l' = l ∨ l = none ∧ l' = some o ∨ l = some o ∧ l' = none

theorem MovesWith.some_iff {o : Owner} {l l' : Option Owner} (h : MovesWith o l l') (o' : Owner)
    (hne : o' ≠ o) : l' = some o' ↔ l = some o' := by
  rcases h with rfl | ⟨rfl, rfl⟩ | ⟨rfl, rfl⟩ <;> simp [Ne.symm hne]

/-- One statement of thread `t`, its own code or its handler, as the locks see it: its view
before and after, and each lock word before and after. -/
inductive ThreadLockMove (t : Nat) :
    LockView → LockView → Option Owner → Option Owner → Option Owner → Option Owner → Prop where
  | keep {v fl isl} : ThreadLockMove t v v fl fl isl isl
  | frameTake {sc m fl isl} : fl = none →
      ThreadLockMove t ⟨false, sc, m⟩ ⟨true, sc, m⟩ fl (some (.thread t)) isl isl
  | frameRelease {sc m fl isl} :
      ThreadLockMove t ⟨true, sc, m⟩ ⟨false, sc, m⟩ fl none isl isl
  | scopeOwn {m fl isl} : isl = some (.thread t) →
      ThreadLockMove t ⟨false, none, m⟩ ⟨false, some true, m⟩ fl fl isl isl
  | scopeTake {m fl isl} : isl = none →
      ThreadLockMove t ⟨false, none, m⟩ ⟨false, some false, m⟩ fl fl isl (some (.thread t))
  | scopeRelease {m fl isl} :
      ThreadLockMove t ⟨false, some false, m⟩ ⟨false, none, m⟩ fl fl isl none
  | scopeLeave {m fl isl} :
      ThreadLockMove t ⟨false, some true, m⟩ ⟨false, none, m⟩ fl fl isl isl
  | mainTake {fr sc fl isl} : isl = none →
      ThreadLockMove t ⟨fr, sc, false⟩ ⟨fr, sc, true⟩ fl fl isl (some (.thread t))
  | mainRelease {fr sc fl isl} : sc = none →
      ThreadLockMove t ⟨fr, sc, true⟩ ⟨fr, sc, false⟩ fl fl isl none

theorem ThreadLockMove.ok {v v' : LockView} {fl fl' isl isl' : Option Owner}
    (hm : ThreadLockMove t v v' fl fl' isl isl') (h : ThreadLockOk t v fl isl) :
    ThreadLockOk t v' fl' isl' ∧ MovesWith (.thread t) fl fl' ∧ MovesWith (.thread t) isl isl' := by
  obtain ⟨hf, hs, hg, ho⟩ := h
  cases hm <;> simp_all [ThreadLockOk, MovesWith]

/-- Each lock word names exactly the party inside its section. -/
structure Locks (s : Sys) : Prop where
  agent : s.frameLock = some .agent ↔ s.agent.holdsFrame = true
  noStopperFrame : s.frameLock ≠ some .stopper
  stopper : s.inScopeLock = some .stopper ↔ s.stop.holdsScope = true
  noAgentScope : s.inScopeLock ≠ some .agent
  thread : ∀ t, ThreadLockOk t (s.threads t).lockView s.frameLock s.inScopeLock

theorem locks_init : Locks (init c) where
  agent := by simp [init, AgentPc.holdsFrame]
  noStopperFrame := nofun
  stopper := by simp [init, StopPc.holdsScope]
  noAgentScope := nofun
  thread _ := by simp [ThreadLockOk, init, Thread.lockView, LockView.ofPcs, MainPc.holdsScope]

theorem Locks.of_same (hi : Locks s) (hth : s'.threads = s.threads)
    (hf : s'.frameLock = s.frameLock) (hs : s'.inScopeLock = s.inScopeLock)
    (ha : s'.agent = s.agent) (hst : s'.stop = s.stop) : Locks s' :=
  ⟨by rw [hf, ha]; exact hi.agent, by rw [hf]; exact hi.noStopperFrame,
    by rw [hs, hst]; exact hi.stopper, by rw [hs]; exact hi.noAgentScope,
    fun u => by rw [hth, hf, hs]; exact hi.thread u⟩

theorem Locks.thread_step (hi : Locks s)
    (hm : ThreadLockMove t (s.threads t).lockView (s'.threads t).lockView s.frameLock
      s'.frameLock s.inScopeLock s'.inScopeLock)
    (hother : ∀ u, u ≠ t → s'.threads u = s.threads u) (ha : s'.agent = s.agent)
    (hst : s'.stop = s.stop) : Locks s' := by
  obtain ⟨hok, hf, hs⟩ := hm.ok (hi.thread t)
  refine ⟨?_, fun h => hi.noStopperFrame ((hf.some_iff .stopper nofun).mp h), ?_,
    fun h => hi.noAgentScope ((hs.some_iff .agent nofun).mp h), fun u => ?_⟩
  · rw [ha]; exact (hf.some_iff .agent nofun).trans hi.agent
  · rw [hst]; exact (hs.some_iff .stopper nofun).trans hi.stopper
  · by_cases hu : u = t
    · subst hu; exact hok
    · have hne : Owner.thread u ≠ .thread t := fun h => hu (Owner.thread.inj h)
      rw [hother u hu]
      exact (hi.thread u).transfer (hf.some_iff _ hne) (hs.some_iff _ hne)

theorem Locks.party_step (hi : Locks s) (hv : ∀ u, (s'.threads u).lockView = (s.threads u).lockView)
    (hf : MovesWith .agent s.frameLock s'.frameLock) (hs : MovesWith .stopper s.inScopeLock s'.inScopeLock)
    (ha : s'.frameLock = some .agent ↔ s'.agent.holdsFrame = true)
    (hst : s'.inScopeLock = some .stopper ↔ s'.stop.holdsScope = true) : Locks s' where
  agent := ha
  noStopperFrame h := hi.noStopperFrame ((hf.some_iff .stopper nofun).mp h)
  stopper := hst
  noAgentScope h := hi.noAgentScope ((hs.some_iff .agent nofun).mp h)
  thread u := by
    rw [hv u]; exact (hi.thread u).transfer (hf.some_iff _ nofun) (hs.some_iff _ nofun)

theorem lockView_pending (th : Nat → Thread) (p u : Nat) :
    (Function.update th p { th p with pending := true } u).lockView = (th u).lockView := by
  by_cases hu : u = p
  · subst hu; rw [Function.update_same]; rfl
  · rw [Function.update_noteq hu]

theorem agent_lockMove {i : AgentInput} (h : runAgentThread c s i = some s') :
    (∀ u, (s'.threads u).lockView = (s.threads u).lockView) ∧ s'.inScopeLock = s.inScopeLock ∧
      s'.stop = s.stop ∧
      (s'.frameLock = s.frameLock ∧ s'.agent.holdsFrame = s.agent.holdsFrame ∨
        s.frameLock = none ∧ s'.frameLock = some .agent ∧ s'.agent.holdsFrame = true ∨
        s.agent.holdsFrame = true ∧ s'.frameLock = none ∧ s'.agent.holdsFrame = false) := by
  cases agentMove h <;> subst_vars
  case sigKill ha _ => exact ⟨lockView_pending _ _, rfl, rfl, .inl ⟨rfl, by rw [ha]; rfl⟩⟩
  case sigUnlock ha =>
    exact ⟨fun _ => rfl, rfl, rfl, .inl ⟨rfl, by rw [ha, SigReturn.resume_holdsFrame]; rfl⟩⟩
  case copyLock hl | clearLock hl => exact ⟨fun _ => rfl, rfl, rfl, .inr (.inl ⟨hl, rfl, rfl⟩)⟩
  case copyUnlock ha | clearUnlock ha =>
    exact ⟨fun _ => rfl, rfl, rfl, .inr (.inr ⟨by rw [ha]; rfl, rfl, rfl⟩)⟩
  case own hs ha' _ =>
    exact ⟨fun _ => rfl, rfl, rfl, .inl ⟨rfl, by rw [AgentPc.own_holdsFrame hs,
      AgentPc.own_holdsFrame ha']⟩⟩
  all_goals exact ⟨fun _ => rfl, rfl, rfl, .inl ⟨rfl, by simp_all [AgentPc.holdsFrame]⟩⟩

theorem Locks.agent_step (hi : Locks s) {i : AgentInput} (h : runAgentThread c s i = some s') :
    Locks s' := by
  obtain ⟨hv, hs, hst, hm⟩ := agent_lockMove h
  refine hi.party_step hv ?_ (.inl hs) ?_ (by rw [hs, hst]; exact hi.stopper)
  · rcases hm with ⟨hf, -⟩ | ⟨hf, hf', -⟩ | ⟨ha, hf', -⟩
    · exact .inl hf
    · exact .inr (.inl ⟨hf, hf'⟩)
    · exact .inr (.inr ⟨hi.agent.mpr ha, hf'⟩)
  · rcases hm with ⟨hf, ha⟩ | ⟨-, hf, ha⟩ | ⟨-, hf, ha⟩
    · rw [hf, ha]; exact hi.agent
    · simp [hf, ha]
    · simp [hf, ha]

theorem stop_lockMove (h : Callbacks.stop c s = some s') :
    s'.threads = s.threads ∧ s'.frameLock = s.frameLock ∧ s'.agent = s.agent ∧
      (s'.inScopeLock = s.inScopeLock ∧ s'.stop.holdsScope = s.stop.holdsScope ∨
        s.inScopeLock = none ∧ s'.inScopeLock = some .stopper ∧ s'.stop.holdsScope = true ∨
        s.stop.holdsScope = true ∧ s'.inScopeLock = none ∧ s'.stop.holdsScope = false) := by
  unfold Callbacks.stop at h
  split at h <;> (try split at h) <;> obtain ⟨rfl⟩ := h <;> (try rw [‹s.stop = _›]) <;>
    first
    | exact ⟨rfl, rfl, rfl, .inl ⟨rfl, rfl⟩⟩
    | exact ⟨rfl, rfl, rfl, .inr (.inl ⟨‹_›, rfl, rfl⟩)⟩
    | exact ⟨rfl, rfl, rfl, .inr (.inr ⟨rfl, rfl, rfl⟩)⟩

theorem Locks.stop_step (hi : Locks s) (h : Callbacks.stop c s = some s') : Locks s' := by
  obtain ⟨hth, hf, ha, hm⟩ := stop_lockMove h
  refine hi.party_step (fun u => by rw [hth]) (.inl hf) ?_ (by rw [hf, ha]; exact hi.agent) ?_
  · rcases hm with ⟨hs, -⟩ | ⟨hs, hs', -⟩ | ⟨hst, hs', -⟩
    · exact .inl hs
    · exact .inr (.inl ⟨hs, hs'⟩)
    · exact .inr (.inr ⟨hi.stopper.mpr hst, hs'⟩)
  · rcases hm with ⟨hs, hst⟩ | ⟨-, hs, hst⟩ | ⟨-, hs, hst⟩
    · rw [hs, hst]; exact hi.stopper
    · simp [hs, hst]
    · simp [hs, hst]

theorem handle_lockMove {sl : Nat} {hp : HandlerPc} (h : handle c s t sl hp = some s') :
    s'.threads = s.threads ∧ s'.frameLock = s.frameLock ∧ s'.inScopeLock = s.inScopeLock ∨
      ThreadLockMove t (LockView.ofPcs (some hp) (s.threads t).main) (s'.threads t).lockView
        s.frameLock s'.frameLock s.inScopeLock s'.inScopeLock := by
  cases hp
  case entry fs =>
    obtain ⟨rfl⟩ := h
    rw [setHandler_self]
    split
    · cases fs <;> exact .inr .keep
    · exact .inr .keep
  case scopeUnlock hl =>
    obtain ⟨rfl⟩ := h
    rw [setHandler_self]
    cases hl
    · exact .inr .scopeRelease
    · exact .inr .scopeLeave
  all_goals
    simp only [handle] at h
    (try split at h) <;> (try split at h) <;> (try obtain ⟨rfl⟩ := h) <;>
    (try rcases withRecord_cases s t _ with ⟨hw, -⟩ | ⟨p, ut, -, hw⟩ <;> rw [hw]) <;>
    first
    | exact .inl ⟨rfl, rfl, rfl⟩
    | (rw [setHandler_self]
       (try split) <;>
        first
        | exact .inr .keep
        | exact .inr (.frameTake ‹_›)
        | exact .inr .frameRelease
        | exact .inr (.scopeOwn ‹_›)
        | exact .inr (.scopeTake ‹_›))

theorem threadMain_lockMove {m : MainPc} (hh : (s.threads t).handler = none)
    (h : threadMain c s t m = some s') :
    s'.threads = s.threads ∧ s'.frameLock = s.frameLock ∧ s'.inScopeLock = s.inScopeLock ∨
      ThreadLockMove t (LockView.ofPcs (s.threads t).handler m) (s'.threads t).lockView
        s.frameLock s'.frameLock s.inScopeLock s'.inScopeLock := by
  cases m <;> simp only [threadMain] at h <;> (try split at h) <;> (try split at h) <;>
    (try obtain ⟨rfl⟩ := h) <;>
    (try rcases withRecord_cases s t _ with ⟨hw, -⟩ | ⟨p, ut, -, hw⟩ <;> rw [hw]) <;>
    first
    | exact .inl ⟨rfl, rfl, rfl⟩
    | (first | rw [setMain_self] | rw [setThread_self]
       first
       | exact .inr .keep
       | exact .inr (.mainTake ‹_›)
       | exact .inr (.mainRelease (by rw [hh]; rfl)))

theorem Locks.keep_view (hi : Locks s) {th : Thread} (hv : th.lockView = (s.threads t).lockView) :
    Locks { s with threads := Function.update s.threads t th } := by
  refine hi.thread_step ?_ (fun u hu => Function.update_noteq hu _ _) rfl rfl
  rw [show ({ s with threads := Function.update s.threads t th } : Sys).threads t = th from
    Function.update_same _ _ _, hv]
  exact .keep

theorem Locks.step (hi : Locks s) {e : Event} (h : System.step c s e = some s') : Locks s' := by
  unfold System.step at h
  split at h
  · cases h
  cases e <;> simp only at h
  case agent i => exact hi.agent_step h
  case step t sl =>
    split at h
    · next hp hh =>
      rcases handle_lockMove h with ⟨hth, hf, hs⟩ | hm
      · obtain ⟨_, _, _, _, _, _, _, _, _, rfl⟩ := handle_writes h
        exact hi.of_same hth hf hs rfl rfl
      · obtain ⟨_, _, _, _, _, _, _, _, _, rfl⟩ := handle_writes h
        refine hi.thread_step ?_ (fun u hu => Function.update_noteq hu _ _) rfl rfl
        rwa [Thread.lockView, hh]
    · next hh =>
      rcases threadMain_lockMove hh h with ⟨hth, hf, hs⟩ | hm
      · obtain ⟨_, _, _, _, _, _, _, _, _, _, _, rfl⟩ := threadMain_writes h
        exact hi.of_same hth hf hs rfl rfl
      · obtain ⟨_, _, _, _, _, _, _, _, _, _, _, rfl⟩ := threadMain_writes h
        exact hi.thread_step hm (fun u hu => Function.update_noteq hu _ _) rfl rfl
  case breakpoint t =>
    obtain ⟨_, _, rfl⟩ := handleBreakpoint_writes h
    exact hi.of_same rfl rfl rfl rfl rfl
  case stop => exact hi.stop_step h
  case tick d => obtain ⟨rfl⟩ := h; exact hi.of_same rfl rfl rfl rfl rfl
  case start t b =>
    obtain ⟨hm, rfl⟩ := addUserThread_eq h
    split <;> exact hi.keep_view (by rw [Thread.lockView, Thread.lockView, hm]; rfl)
  case classPrepare t ms b b' =>
    obtain ⟨hidle, rfl⟩ := classPrepare_eq h
    exact hi.keep_view (by rw [Thread.lockView, Thread.lockView, (idle_iff.1 hidle).1]; rfl)
  case threadEnd t =>
    obtain ⟨hidle, rfl⟩ := removeUserThread_eq h
    exact hi.keep_view (by
      split <;> (rw [Thread.lockView, Thread.lockView, (idle_iff.1 hidle).1]; rfl))
  case deliver t fs =>
    obtain ⟨hh, -, rfl⟩ := deliver_eq h
    exact hi.keep_view (by split <;> (rw [Thread.lockView, Thread.lockView, hh] <;> rfl))

theorem locks_reachable (hr : Reachable c s) : Locks s := by
  induction hr with
  | init => exact locks_init
  | step e _ h ih => exact ih.step h

/-- Thread 1's class preparation holds `in_scope_lock` when a `SIGPROF` arrives, and the handler
takes the `has_lock` path into its scan. -/
def hasLockRun : List Event :=
  register 1 ++ agentSteps 6 ++
    [.classPrepare 1 [7] true false, .step 1 0, .step 1 0, .deliver 1 (some [target])] ++
    List.replicate 4 (.step 1 0)

end JCoz.Spinlocks
