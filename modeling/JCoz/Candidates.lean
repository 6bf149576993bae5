import JCoz.Spinlocks
import JCoz.Shutdown

/-! The candidates of target selection: every frame stored in `static_call_frames` is in scope,
and the only other value a slot holds is the `memset`'s zero frame. -/
namespace JCoz.State

def HandlerPc.frame? : HandlerPc → Option CallFrame
  | .frameLock f _ | .frameAdd f _ | .frameStore f _ _ => some f
  | _ => none

def SigReturn.holdsCandidates : SigReturn → Bool
  | .sample _ => false
  | _ => true

def AgentPc.holdsCandidates : AgentPc → Bool
  | .start | .ready | .loopTop | .sample _ | .copyLock | .copy | .clear | .clearUnlock
  | .finish | .halted => false
  | .sigLock r | .sigKill r _ => r.holdsCandidates
  | _ => true

def StopPc.scopeCleared : StopPc → Bool
  | .scopeUnlock | .ignore | .returned => true
  | _ => false

@[simp] theorem SigReturn.resume_holdsCandidates (r : SigReturn) :
    r.resume.holdsCandidates = r.holdsCandidates := by
  cases r <;> rfl

theorem StopPc.pastWait_of_scopeCleared {p : StopPc} (h : p.scopeCleared = true) :
    p.pastWait = true := by
  cases p <;> first | rfl | cases h

end JCoz.State

namespace JCoz.Candidates
open State Agent Handler Callbacks System System.Event Writes Spinlocks Shutdown

variable {c : Config} {s s' : Sys} {t : Nat}

/-- What target selection can see: `call_frames` is empty outside the selection and the
experiment and never longer than the buffer; each candidate, each slot of the buffer (until
`Stop` empties the scope list) and each frame a handler is about to store is the zero frame or
a frame of an in-scope method. -/
structure Inv (c : Config) (s : Sys) : Prop where
  empty : s.agent.holdsCandidates = false → s.callFrames = []
  bound : s.callFrames.length ≤ c.consts.numStaticCallFrames
  frames : ∀ f ∈ s.callFrames, f = CallFrame.zero ∨ f.methodId ∈ s.inScopeIds
  slots : s.stop.scopeCleared = false →
    ∀ i, s.staticCallFrames i = CallFrame.zero ∨ (s.staticCallFrames i).methodId ∈ s.inScopeIds
  found : ∀ t hp f, (s.threads t).handler = some hp → hp.frame? = some f → f.methodId ∈ s.inScopeIds

theorem inv_init : Inv c (init c) where
  empty _ := rfl
  bound := Nat.zero_le _
  frames _ h := nomatch h
  slots _ _ := .inl rfl
  found _ _ _ h := nomatch h

theorem Inv.of_frame (hi : Inv c s) (hcf : s'.callFrames = s.callFrames) (ha : s'.agent = s.agent)
    (hst : s'.stop = s.stop) (hids : ∀ m ∈ s.inScopeIds, m ∈ s'.inScopeIds)
    (hsl : ∀ i, s'.staticCallFrames i = s.staticCallFrames i ∨
      (s'.staticCallFrames i).methodId ∈ s'.inScopeIds)
    (hfd : ∀ t hp f, (s'.threads t).handler = some hp → hp.frame? = some f →
      f.methodId ∈ s'.inScopeIds) : Inv c s' where
  empty h := by rw [hcf]; exact hi.empty (ha ▸ h)
  bound := hcf ▸ hi.bound
  frames f hf := (hi.frames f (hcf ▸ hf)).imp_right (hids _)
  slots h i := (hsl i).elim (fun he => he ▸ (hi.slots (hst ▸ h) i).imp_right (hids _)) .inr
  found := hfd

theorem Inv.same (hi : Inv c s) (hcf : s'.callFrames = s.callFrames) (ha : s'.agent = s.agent)
    (hst : s'.stop = s.stop) (hids : s'.inScopeIds = s.inScopeIds)
    (hsc : s'.staticCallFrames = s.staticCallFrames)
    (hh : ∀ u, (s'.threads u).handler = (s.threads u).handler) : Inv c s' :=
  hi.of_frame hcf ha hst (fun _ h => hids ▸ h) (fun _ => .inl (congrFun hsc _))
    fun u hp f h hf => hids ▸ hi.found u hp f ((hh u).symm.trans h) hf

theorem handler_pending (th : Nat → Thread) (p u : Nat) :
    (Function.update th p { th p with pending := true } u).handler = (th u).handler := by
  by_cases hu : u = p
  · subst hu; rw [Function.update_same]
  · rw [Function.update_noteq hu]

theorem Inv.found_update (hi : Inv c s) {th : Thread}
    (hf : ∀ hp f, th.handler = some hp → hp.frame? = some f → f.methodId ∈ s.inScopeIds) :
    ∀ u hp f, (Function.update s.threads t th u).handler = some hp → hp.frame? = some f →
      f.methodId ∈ s.inScopeIds := by
  intro u hp f
  rw [Function.update_apply]
  split
  · exact hf hp f
  · exact hi.found u hp f

/-! ### The profiler thread -/

theorem Inv.agent_keep (hi : Inv c s) (hcf : s'.callFrames = s.callFrames ∨ s'.callFrames = [])
    (ha : s'.agent.holdsCandidates = false →
      s.agent.holdsCandidates = false ∨ s'.callFrames = [])
    (hst : s'.stop = s.stop) (hids : s'.inScopeIds = s.inScopeIds)
    (hsc : ∀ i, s'.staticCallFrames i = s.staticCallFrames i ∨ s'.staticCallFrames i = CallFrame.zero)
    (hh : ∀ u, (s'.threads u).handler = (s.threads u).handler) : Inv c s' where
  empty h := (ha h).elim (fun h' => hcf.elim (fun e => e.trans (hi.empty h')) id) id
  bound := hcf.elim (fun e => e ▸ hi.bound) fun e => by rw [e]; exact Nat.zero_le _
  frames f hf := hcf.elim (fun e => hids ▸ hi.frames f (e ▸ hf)) fun e => by rw [e] at hf; cases hf
  slots h i := (hsc i).elim (fun e => e ▸ hids ▸ hi.slots (hst ▸ h) i) .inl
  found u hp f h := hids ▸ hi.found u hp f ((hh u).symm.trans h)

theorem Inv.copy (hi : Inv c s) (hb : Barrier s) (ha : s.agent = .copy) :
    Inv c { s with
      callFrames := s.callFrames ++
        (List.range (min s.callIndex c.consts.numStaticCallFrames)).map s.staticCallFrames
      agent := .copyUnlock } := by
  have hcf : s.callFrames = [] := hi.empty (by rw [ha]; rfl)
  have hnc : s.stop.scopeCleared = false := Bool.eq_false_iff.mpr fun h => by
    have := hb.done (hb.past (StopPc.pastWait_of_scopeCleared h))
    rw [ha] at this; cases this
  refine ⟨nofun, ?_, fun f hf => ?_, hi.slots, hi.found⟩
  · simp [hcf, Nat.min_le_right]
  · simp only [hcf, List.nil_append, List.mem_map, List.mem_range] at hf
    obtain ⟨i, -, rfl⟩ := hf
    exact hi.slots hnc i

/-- After an experiment, the final broadcast's handler stores a frame at index 0; the `memset`
then zeroes that slot while `call_index` stays 1, and the next round's copy, with no handler
storing anything, takes slot 0. -/
def zeroSlot : List Event :=
  register 1 ++ prepareScope 1 [7] ++ agentSteps 3 ++
    experiment 1 1 [target] [target] targetTable 0 ++ agentSteps 3 ++
    [.tick 5000000000] ++ agentSteps 6 ++ handlerRun 1 [target] 10 ++ agentSteps 9 ++
    agentSteps (1 + 15 * 4 + 1 + 2)

set_option maxRecDepth 8000 in
theorem copy_takes_zeroed_slot :
    (run sampleConfig (init sampleConfig) zeroSlot).map
      (fun s => (s.callFrames, s.callIndex, s.inScopeIds.contains CallFrame.zero.methodId)) =
      some ([CallFrame.zero], 1, false) := by
  decide

theorem Inv.agent_step (hi : Inv c s) (hb : Barrier s) {i : AgentInput}
    (h : runAgentThread c s i = some s') : Inv c s' := by
  unfold runAgentThread at h
  split at h <;> (try split at h) <;> (try split at h) <;> (try obtain ⟨rfl⟩ := h) <;>
    first
    | exact hi.agent_keep (.inl rfl) (fun h => .inl (by rw [‹s.agent = _›]; exact h)) rfl rfl
        (fun _ => .inl rfl) fun _ => rfl
    | exact hi.copy hb ‹_›
    | exact hi.agent_keep (.inl rfl) (fun h => .inl h) rfl rfl (fun _ => .inl rfl) fun _ => rfl
    | exact hi.agent_keep (.inl rfl) (fun h => .inl (by rw [‹s.agent = _›]; exact h)) rfl rfl
        (fun _ => .inl rfl) (handler_pending _ _)
    | exact hi.agent_keep (.inl rfl) (fun h => .inl (by
        rw [‹s.agent = _›]; exact (SigReturn.resume_holdsCandidates _).symm.trans h)) rfl rfl
        (fun _ => .inl rfl) fun _ => rfl
    | exact hi.agent_keep (.inr rfl) (fun _ => .inr rfl) rfl rfl (fun _ => .inl rfl) fun _ => rfl
    | exact hi.agent_keep (.inl rfl) (fun _ => .inr ‹_›) rfl rfl (fun _ => .inl rfl) fun _ => rfl
    | exact hi.agent_keep (.inl rfl) (fun h => .inl (by rw [‹s.agent = _›]; exact h)) rfl rfl
        (fun _ => .inr rfl) fun _ => rfl

/-! ### The threads -/

theorem update_slot {slots : Nat → CallFrame} {idx : Nat} {f : CallFrame} {ids : List Nat}
    (hf : f.methodId ∈ ids) (i : Nat) :
    Function.update slots idx f i = slots i ∨ (Function.update slots idx f i).methodId ∈ ids := by
  rw [Function.update_apply]
  split
  · exact .inr hf
  · exact .inl rfl

theorem Inv.handle_step (hi : Inv c s) {sl : Nat} {hp : HandlerPc}
    (hh : (s.threads t).handler = some hp) (h : handle c s t sl hp = some s') : Inv c s' := by
  cases hp
  case entry fs =>
    obtain ⟨rfl⟩ := h
    refine hi.of_frame rfl rfl rfl (fun _ => id) (fun _ => .inl rfl) (hi.found_update ?_)
    intro hp f h hf
    split at h
    · cases fs <;> cases h; cases hf
    · cases h
  case scopeScan fs hl =>
    obtain ⟨rfl⟩ := h
    refine hi.of_frame rfl rfl rfl (fun _ => id) (fun _ => .inl rfl) (hi.found_update ?_)
    rintro hp f ⟨⟩
    split
    · next f' hf' =>
      rintro ⟨⟩
      have := List.find?_some hf'
      exact of_decide_eq_true this
    · rintro ⟨⟩
  case frameStore f idx hl =>
    obtain ⟨rfl⟩ := h
    have hf := hi.found t _ f hh rfl
    refine hi.of_frame rfl rfl rfl (fun _ => id) (fun i => ?_)
      (hi.found_update fun _ _ h hf => by cases h; cases hf)
    dsimp only [Sys.setHandler, Sys.setThread]
    split
    · exact update_slot hf i
    · exact .inl rfl
  all_goals
    simp only [handle] at h
    (try split at h) <;> (try split at h) <;> (try obtain ⟨rfl⟩ := h) <;>
    (try rcases withRecord_cases s t _ with ⟨hw, -⟩ | ⟨p, ut, -, hw⟩ <;> rw [hw]) <;>
    (try split) <;>
    first
    | exact hi.of_frame rfl rfl rfl (fun _ => id) (fun _ => .inl rfl)
        (hi.found_update fun _ _ h hf => by cases h <;> cases hf <;> exact hi.found t _ _ hh rfl)
    | exact hi.same rfl rfl rfl rfl rfl fun _ => rfl

theorem handler_setThread {th : Thread} (hth : th.handler = (s.threads t).handler) (u : Nat) :
    ((s.setThread t th).threads u).handler = (s.threads u).handler := by
  rw [setThread_threads, Function.update_apply]
  split
  · next hu => subst hu; exact hth
  · rfl

theorem threadMain_frameMove {m : MainPc} (h : threadMain c s t m = some s') :
    (∀ u, (s'.threads u).handler = (s.threads u).handler) ∧ ∀ x ∈ s.inScopeIds, x ∈ s'.inScopeIds := by
  cases m <;> simp only [threadMain] at h <;> (try split at h) <;> (try split at h) <;>
    (try obtain ⟨rfl⟩ := h) <;>
    (try rcases withRecord_cases s t _ with ⟨hw, -⟩ | ⟨p, ut, -, hw⟩ <;> rw [hw]) <;>
    first
    | exact ⟨fun _ => rfl, fun _ => id⟩
    | exact ⟨handler_setThread rfl, fun _ => id⟩
    | exact ⟨handler_setThread rfl, fun _ hx => List.mem_append_left _ hx⟩

theorem Inv.threadMain_step (hi : Inv c s) {m : MainPc} (h : threadMain c s t m = some s') :
    Inv c s' := by
  obtain ⟨hh, hids⟩ := threadMain_frameMove h
  obtain ⟨_, _, _, _, _, _, _, _, _, _, _, rfl⟩ := threadMain_writes h
  exact hi.of_frame rfl rfl rfl hids (fun _ => .inl rfl)
    fun u hp f h hf => hids _ (hi.found u hp f ((hh u).symm.trans h) hf)

/-! ### `Stop` -/

theorem no_frame_of_stopper (hl : Locks s) (hs : s.stop.holdsScope = true) {hp : HandlerPc}
    {f : CallFrame} (hh : (s.threads t).handler = some hp) (hf : hp.frame? = some f) : False := by
  obtain ⟨b, hb⟩ : ∃ b, (s.threads t).lockView.scope = some b := by
    cases hp <;> cases hf <;> exact ⟨_, by rw [Thread.lockView, LockView.ofPcs, hh]; rfl⟩
  have hown : s.inScopeLock = some (.thread t) := (hl.thread t).2.1.mpr (by
    cases b
    · exact .inr hb
    · exact .inl ((hl.thread t).2.2.1 hb))
  have := hl.stopper.mpr hs
  rw [hown] at this
  cases this

theorem Inv.clearScope (hi : Inv c s) (hb : Barrier s) (hl : Locks s) (hs : s.stop = .scopeClear) :
    Inv c { s with inScopeIds := [], stop := .scopeUnlock } where
  empty := hi.empty
  bound := hi.bound
  frames f hf := by
    have ha := hb.done (hb.past (by rw [hs]; rfl))
    rw [hi.empty (by rw [ha]; rfl)] at hf
    cases hf
  slots h := by cases h
  found _ _ _ hh hf := (no_frame_of_stopper hl (by rw [hs]; rfl) hh hf).elim

theorem Inv.stop_keep (hi : Inv c s) (hth : s'.threads = s.threads) (hcf : s'.callFrames = s.callFrames)
    (ha : s'.agent = s.agent) (hids : s'.inScopeIds = s.inScopeIds)
    (hsc : s'.staticCallFrames = s.staticCallFrames)
    (hst : s'.stop.scopeCleared = false → s.stop.scopeCleared = false) : Inv c s' where
  empty h := hcf ▸ hi.empty (ha ▸ h)
  bound := hcf ▸ hi.bound
  frames f hf := hids ▸ hi.frames f (hcf ▸ hf)
  slots h i := hsc ▸ hids ▸ hi.slots (hst h) i
  found u hp f h := hids ▸ hi.found u hp f (hth ▸ h)

theorem Inv.stop_step (hi : Inv c s) (hb : Barrier s) (hl : Locks s)
    (h : Callbacks.stop c s = some s') : Inv c s' := by
  unfold Callbacks.stop at h
  split at h <;> (try split at h) <;> obtain ⟨rfl⟩ := h <;>
    first
    | exact hi.clearScope hb hl ‹_›
    | exact hi.stop_keep rfl rfl rfl rfl rfl fun h => by rw [‹s.stop = _›]; exact h

/-! ### Every interleaving -/

theorem Inv.step (hi : Inv c s) (hb : Barrier s) (hl : Locks s) {e : Event}
    (h : System.step c s e = some s') : Inv c s' := by
  unfold System.step at h
  split at h
  · cases h
  cases e <;> simp only at h
  case agent i => exact hi.agent_step hb h
  case step t sl =>
    split at h
    · exact hi.handle_step ‹_› h
    · exact hi.threadMain_step h
  case start t b =>
    obtain ⟨-, rfl⟩ := addUserThread_eq h
    split <;> exact hi.same rfl rfl rfl rfl rfl (handler_setThread rfl)
  case breakpoint t =>
    obtain ⟨_, _, rfl⟩ := handleBreakpoint_writes h
    exact hi.same rfl rfl rfl rfl rfl fun _ => rfl
  case classPrepare t ms b b' =>
    obtain ⟨-, rfl⟩ := classPrepare_eq h
    exact hi.same rfl rfl rfl rfl rfl (handler_setThread rfl)
  case threadEnd t =>
    obtain ⟨-, rfl⟩ := removeUserThread_eq h
    exact hi.same rfl rfl rfl rfl rfl (handler_setThread rfl)
  case deliver t fs =>
    obtain ⟨-, -, rfl⟩ := deliver_eq h
    exact hi.of_frame rfl rfl rfl (fun _ => id) (fun _ => .inl rfl)
      (hi.found_update fun _ _ h hf => by split at h <;> cases h; cases hf)
  case stop => exact hi.stop_step hb hl h
  case tick d => obtain ⟨rfl⟩ := h; exact hi.same rfl rfl rfl rfl rfl fun _ => rfl

theorem inv_reachable (hr : Reachable c s) : Inv c s := by
  induction hr with
  | init => exact inv_init
  | step e hr h ih => exact ih.step (barrier_reachable hr) (locks_reachable hr) h

end JCoz.Candidates
