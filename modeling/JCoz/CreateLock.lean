import JCoz.System

/-! The class-preparation lock `class_prep_lock` of `CreateJMethodIDsForClass`, with
`addProgressPoint` and `OnVMDeath`'s `clearProgressPoint`; calls do not nest. -/
namespace JCoz.CreateLock
open State System Callbacks

/-- Where a thread is in `CreateJMethodIDsForClass`: `prog` is whether the class is the progress
class, `releaseLock` what `acquireCreateLock` returned. -/
inductive CallPc where
  | entry (prog : Bool)
  | acquire (prog : Bool)
  | spin (prog : Bool)
  | methods (prog releaseLock : Bool)
  | check (releaseLock : Bool)
  | set (releaseLock : Bool)
  | release (releaseLock : Bool)
  deriving DecidableEq, Repr

/-- `class_prep_lock` (`0` is `none`), each thread's call, `_running`, whether
`progress_point->method_id` is set, and the `SetBreakpoint` and `ClearBreakpoint` requests
made. -/
structure CState where
  classPrepLock : Option Nat
  pcs : Nat → Option CallPc
  running : Bool
  methodSet : Bool
  breakpoints : Nat
  clears : Nat

def init : CState := ⟨none, fun _ => none, false, false, 0, 0⟩

inductive CEvent where
  | call (t : Nat) (prog : Bool)
  | step (t : Nat)
  | setRunning (running : Bool)
  | clear

def CState.setPc (s : CState) (t : Nat) (pc : Option CallPc) : CState :=
  { s with pcs := Function.update s.pcs t pc }

def callStep (endToEnd : Bool) (s : CState) (t : Nat) : CallPc → Option CState
  | .entry prog => some (s.setPc t (if s.running then some (.acquire prog) else none))
  | .acquire prog => some (s.setPc t (some
      (if s.classPrepLock = some t then .methods prog false else .spin prog)))
  | .spin prog =>
    if s.classPrepLock = none then
      some ({ s with classPrepLock := some t }.setPc t (some (.methods prog true)))
    else none
  | .methods prog r => some (s.setPc t (some (if prog then .check r else .release r)))
  | .check r => some (s.setPc t (some (if endToEnd || s.methodSet then .release r else .set r)))
  | .set r => some ({ s with methodSet := true, breakpoints := s.breakpoints + 1 }.setPc t
      (some (.release r)))
  | .release r => some ((if r then { s with classPrepLock := none } else s).setPc t none)

/-- `clearProgressPoint`, taken as one step: no other statement writes `method_id` while it is
set. -/
def clearProgressPoint (endToEnd : Bool) (s : CState) : CState :=
  if !endToEnd && s.methodSet then { s with methodSet := false, clears := s.clears + 1 } else s

def step (endToEnd : Bool) (s : CState) : CEvent → Option CState
  | .call t prog => if s.pcs t = none then some (s.setPc t (some (.entry prog))) else none
  | .step t => (s.pcs t).bind (callStep endToEnd s t)
  | .setRunning running => some { s with running := running }
  | .clear => some (clearProgressPoint endToEnd s)

def run (endToEnd : Bool) : CState → List CEvent → Option CState
  | s, [] => some s
  | s, e :: es => (step endToEnd s e).bind fun s' => run endToEnd s' es

inductive Reachable (endToEnd : Bool) : CState → Prop where
  | init : Reachable endToEnd init
  | step {s s' : CState} (e : CEvent) : Reachable endToEnd s → step endToEnd s e = some s' →
      Reachable endToEnd s'

theorem Reachable.run {endToEnd : Bool} {s s' : CState} (h : Reachable endToEnd s) (es : List CEvent)
    (hr : CreateLock.run endToEnd s es = some s') : Reachable endToEnd s' := by
  induction es generalizing s with
  | nil => cases hr; exact h
  | cons e es ih =>
    simp only [CreateLock.run, Option.bind_eq_some] at hr
    obtain ⟨s₁, h₁, h₂⟩ := hr
    exact ih (.step e h h₁) h₂

@[simp] theorem setPc_pcs (s : CState) (t : Nat) (pc : Option CallPc) (t' : Nat) :
    (s.setPc t pc).pcs t' = if t' = t then pc else s.pcs t' := by
  simp [CState.setPc, Function.update_apply]

@[simp] theorem setPc_classPrepLock (s : CState) (t : Nat) (pc : Option CallPc) :
    (s.setPc t pc).classPrepLock = s.classPrepLock := rfl

@[simp] theorem setPc_methodSet (s : CState) (t : Nat) (pc : Option CallPc) :
    (s.setPc t pc).methodSet = s.methodSet := rfl

@[simp] theorem setPc_breakpoints (s : CState) (t : Nat) (pc : Option CallPc) :
    (s.setPc t pc).breakpoints = s.breakpoints := rfl

@[simp] theorem setPc_clears (s : CState) (t : Nat) (pc : Option CallPc) :
    (s.setPc t pc).clears = s.clears := rfl

/-! ### The lock invariant -/

def CallPc.inside : CallPc → Bool
  | .methods _ _ | .check _ | .set _ | .release _ => true
  | _ => false

def CallPc.releaseLock : CallPc → Bool
  | .methods _ r | .check r | .set r | .release r => r
  | _ => false

/-- The lock is held by exactly the thread whose call is inside, which took it; a pending
`SetBreakpoint` finds `method_id` unset outside end-to-end mode; and each `SetBreakpoint` but the
one of a set `method_id` was followed by a `ClearBreakpoint`. -/
structure Inv (endToEnd : Bool) (s : CState) : Prop where
  holder : ∀ t, s.classPrepLock = some t ↔ (s.pcs t).any CallPc.inside = true
  owns : ∀ t pc, s.pcs t = some pc → pc.inside = true → pc.releaseLock = true
  pending : ∀ t r, s.pcs t = some (.set r) → endToEnd = false ∧ s.methodSet = false
  unset : endToEnd = true → s.methodSet = false
  count : s.breakpoints = s.clears + if s.methodSet then 1 else 0

theorem inv_init (endToEnd : Bool) : Inv endToEnd init :=
  ⟨fun _ => by simp [init], nofun, nofun, fun _ => rfl, rfl⟩

section Step
variable {endToEnd : Bool} {s : CState} (hi : Inv endToEnd s)
include hi

/-- A statement of thread `t` that moves it to `p` and leaves `class_prep_lock` as `l`. -/
theorem Inv.relock {t : Nat} {p : Option CallPc} {l : Option Nat}
    (hl : ∀ t', t' ≠ t → (l = some t' ↔ s.classPrepLock = some t'))
    (hin : l = some t ↔ p.any CallPc.inside = true)
    (hown : ∀ pc, p = some pc → pc.inside = true → pc.releaseLock = true)
    (hset : ∀ r, p = some (.set r) → endToEnd = false ∧ s.methodSet = false) :
    Inv endToEnd ({ s with classPrepLock := l }.setPc t p) where
  holder t' := by
    by_cases h : t' = t
    · subst h; simpa using hin
    · simpa [h] using (hl t' h).trans (hi.holder t')
  owns t' pc := by
    by_cases h : t' = t
    · subst h; simpa using hown pc
    · simpa [h] using hi.owns t' pc
  pending t' r := by
    by_cases h : t' = t
    · subst h; simpa using hset r
    · simpa [h] using hi.pending t' r
  unset := hi.unset
  count := by simpa using hi.count

theorem Inv.move {t : Nat} {p : Option CallPc}
    (hin : p.any CallPc.inside = (s.pcs t).any CallPc.inside)
    (hown : ∀ pc, p = some pc → pc.inside = true → pc.releaseLock = true)
    (hset : ∀ r, p = some (.set r) → endToEnd = false ∧ s.methodSet = false) :
    Inv endToEnd (s.setPc t p) :=
  hi.relock (fun _ _ => Iff.rfl) (hin ▸ hi.holder t) hown hset

theorem Inv.callStep {t : Nat} {pc : CallPc} (hpc : s.pcs t = some pc)
    {s' : CState} (h : callStep endToEnd s t pc = some s') : Inv endToEnd s' := by
  have hout : s.classPrepLock ≠ some t → ∀ p : Option CallPc, p.any CallPc.inside = false →
      (∀ r, p ≠ some (.set r)) → Inv endToEnd (s.setPc t p) := fun hl p hp hs =>
    hi.move (by rw [hp]; simpa [hpc] using mt (hi.holder t).2 hl)
      (by rintro pc rfl h; simp [h] at hp) fun r h => absurd h (hs r)
  cases pc with
  | entry prog =>
    cases h
    exact hout (by simpa [hpc] using (hi.holder t).not.2 (by simp [hpc, CallPc.inside]))
      _ (by split <;> rfl) (by split <;> simp)
  | acquire prog =>
    cases h
    have hl : s.classPrepLock ≠ some t := by
      simpa [hpc, CallPc.inside] using (hi.holder t).not.2
    rw [if_neg hl]
    exact hout hl _ rfl (by simp)
  | spin prog =>
    simp only [JCoz.CreateLock.callStep] at h
    split at h
    · next hl =>
      cases h
      exact hi.relock (fun t' ht => by simp [hl, Ne.symm ht]) (by simp [CallPc.inside])
        (by rintro _ ⟨⟩ -; rfl) (by simp)
    · cases h
  | methods prog r =>
    cases h
    exact hi.move (by split <;> simp [hpc, CallPc.inside])
      (fun _ h' _ => by split at h' <;> cases h' <;> exact (hi.owns t _ hpc rfl : r = true))
      (fun _ h' => by split at h' <;> cases h')
  | check r =>
    cases h
    exact hi.move (by split <;> simp [hpc, CallPc.inside])
      (fun _ h' _ => by split at h' <;> cases h' <;> exact (hi.owns t _ hpc rfl : r = true))
      (fun _ h' => by split at h' <;> simp_all)
  | set r =>
    cases h
    obtain ⟨he, hm⟩ := hi.pending t r hpc
    have hmv := hi.move (t := t) (p := some (.release r)) (by simp [hpc, CallPc.inside])
      (fun _ h _ => by cases h; exact (hi.owns t _ hpc rfl : r = true)) (by simp)
    refine ⟨hmv.holder, hmv.owns, fun t' r' h' => ?_, fun h => absurd (h.symm.trans he) (by decide),
      by simp [hi.count, hm]⟩
    have ht : t' ≠ t := by rintro rfl; simp at h'
    simp only [setPc_pcs, if_neg ht] at h'
    have h₁ := (hi.holder t').2 (by simp [h', CallPc.inside])
    have h₂ := (hi.holder t).2 (by simp [hpc, CallPc.inside])
    exact absurd (Option.some.inj (h₁.symm.trans h₂)) ht
  | release r =>
    cases h
    obtain rfl : r = true := hi.owns t _ hpc rfl
    have hlock := (hi.holder t).2 (by simp [hpc, CallPc.inside])
    exact hi.relock (fun t' ht => by simp [hlock, Ne.symm ht]) (by simp) (by simp) (by simp)

theorem Inv.clear : Inv endToEnd (clearProgressPoint endToEnd s) := by
  unfold clearProgressPoint
  split
  · next hc =>
    simp only [Bool.and_eq_true, Bool.not_eq_true'] at hc
    exact ⟨hi.holder, hi.owns, fun t r h => ⟨(hi.pending t r h).1, rfl⟩, fun _ => rfl,
      by simp [hi.count, hc.2]⟩
  · exact hi

end Step

theorem Inv.step {endToEnd : Bool} {s s' : CState} (hi : Inv endToEnd s) {e : CEvent}
    (h : step endToEnd s e = some s') : Inv endToEnd s' := by
  cases e with
  | call t prog =>
    simp only [JCoz.CreateLock.step] at h
    split at h
    · next hn =>
      cases h
      exact hi.move (by simp [hn, CallPc.inside]) (by rintro _ ⟨⟩; simp [CallPc.inside]) (by simp)
    · cases h
  | step t =>
    simp only [JCoz.CreateLock.step, Option.bind_eq_some] at h
    obtain ⟨pc, hpc, h⟩ := h
    exact hi.callStep hpc h
  | setRunning b => cases h; exact ⟨hi.holder, hi.owns, hi.pending, hi.unset, hi.count⟩
  | clear => cases h; exact hi.clear

theorem inv_reachable {endToEnd : Bool} {s : CState} (h : Reachable endToEnd s) :
    Inv endToEnd s := by
  induction h with
  | init => exact inv_init endToEnd
  | step e _ h ih => exact ih.step h

/-- However calls on any threads interleave with `Start`, `Stop` and `clearProgressPoint`, at
most one call is past `acquireCreateLock`, its thread holds `class_prep_lock` and releases it at
the call's end; `SetBreakpoint` is requested only while `method_id` is unset; and the requests
number the `ClearBreakpoint` requests, plus one while `method_id` is set. So the breakpoint is set
at most once until `clearProgressPoint`, after which a call already past `isRunning` sets it
again. -/
theorem createLock_breakpoint_count {endToEnd : Bool} {s : CState} (hr : Reachable endToEnd s) :
    (∀ t t' pc pc', s.pcs t = some pc → s.pcs t' = some pc' → pc.inside = true →
      pc'.inside = true → t = t' ∧ s.classPrepLock = some t) ∧
    (∀ t pc, s.pcs t = some pc → pc.inside = true → pc.releaseLock = true) ∧
    (∀ t r, s.pcs t = some (.set r) → s.methodSet = false) ∧
    s.breakpoints = s.clears + if s.methodSet then 1 else 0 := by
  have hi := inv_reachable hr
  refine ⟨fun t t' pc pc' h h' hin hin' => ?_, hi.owns, fun t r h => (hi.pending t r h).2,
    hi.count⟩
  have h₁ := (hi.holder t).2 (by simp [h, hin])
  have h₂ := (hi.holder t').2 (by simp [h', hin'])
  exact ⟨Option.some.inj (h₁.symm.trans h₂), h₁⟩

/-- Two threads prepare the progress class; the first sets the breakpoint, the second takes the
lock and reaches the test of `method_id` just as `OnVMDeath` runs `Stop` and
`clearProgressPoint`, then sets the breakpoint again. -/
def lateClear : List CEvent :=
  [.setRunning true, .call 1 true, .call 2 true, .step 1, .step 2, .step 1, .step 2, .step 1,
    .step 1, .step 1, .step 1, .step 1, .step 2, .step 2, .setRunning false, .clear, .step 2,
    .step 2]

theorem createLock_breakpoint_count_at_lateClear :
    ∃ s, run false init lateClear = some s ∧ s.breakpoints = 2 ∧ s.clears = 1 ∧
      Reachable false s ∧
      ((∀ t t' pc pc', s.pcs t = some pc → s.pcs t' = some pc' → pc.inside = true →
        pc'.inside = true → t = t' ∧ s.classPrepLock = some t) ∧
      (∀ t pc, s.pcs t = some pc → pc.inside = true → pc.releaseLock = true) ∧
      (∀ t r, s.pcs t = some (.set r) → s.methodSet = false) ∧
      s.breakpoints = s.clears + if s.methodSet then 1 else 0) := by
  obtain ⟨s, hs, he⟩ := Option.map_eq_some'.mp (show (run false init lateClear).map
    (fun s => (s.breakpoints, s.clears)) = some (2, 1) by decide)
  have hr : Reachable false s := Reachable.init.run lateClear hs
  exact ⟨s, hs, congrArg Prod.fst he, congrArg Prod.snd he, hr, createLock_breakpoint_count hr⟩

example : (run false init ((lateClear.take 14) ++ [.step 2, .step 2])).map
    (fun s => (s.breakpoints, s.pcs 2, s.classPrepLock)) = some (1, none, none) := by
  decide

/-! ### The system's class preparation -/

def CallPc.mainPc : Option CallPc → MainPc
  | none | some (.release _) => .running
  | some (.entry prog) => .prepare [] false prog
  | some (.acquire prog) | some (.spin prog) | some (.methods prog _) => .progressPoint prog
  | some (.check _) | some (.set _) => .progressPoint true

/-- The system state `base` with the calls as its threads' own code, and `_running` and the
breakpoint as the lock machine has them. -/
def abstraction (base : Sys) (s : CState) : Sys :=
  { base with
    threads := fun t => { base.threads t with main := CallPc.mainPc (s.pcs t), handler := none }
    running := s.running
    breakpointSet := s.methodSet }

section Refines
variable {c : Config} {base : Sys}

@[simp] theorem abstraction_running (s : CState) : (abstraction base s).running = s.running := rfl

@[simp] theorem abstraction_breakpointSet (s : CState) :
    (abstraction base s).breakpointSet = s.methodSet := rfl

theorem abstraction_setPc (s : CState) (t : Nat) (p : Option CallPc) :
    abstraction base (s.setPc t p) = (abstraction base s).setMain t (CallPc.mainPc p) := by
  simp only [abstraction, Sys.setMain, Sys.setThread]
  congr 1
  funext u
  by_cases h : u = t
  · subst h; simp
  · simp [h]

theorem abstraction_setPc_self {s : CState} {t : Nat} {p : Option CallPc}
    (h : CallPc.mainPc p = CallPc.mainPc (s.pcs t)) : abstraction base (s.setPc t p) = abstraction base s := by
  simp only [abstraction]
  congr 1
  funext u
  by_cases hu : u = t
  · subst hu; simp [h]
  · simp [hu]

variable (hb : base.fault = false)
include hb

theorem call_refines {s : CState} {t : Nat} (hn : s.pcs t = none) (prog : Bool) :
    System.step c (abstraction base s) (.classPrepare t [] false prog) =
      some (abstraction base (s.setPc t (some (.entry prog)))) := by
  rw [abstraction_setPc]
  simp [System.step, hb, classPrepare, idle, abstraction, hn, CallPc.mainPc]

/-- A statement of a call leaves the system's view unchanged or is its thread's next step: the
lock makes the test and the set of `method_id` the one step the system takes. -/
theorem callStep_refines {s s' : CState} (hi : Inv c.endToEnd s) {t : Nat} {pc : CallPc}
    (hpc : s.pcs t = some pc) (h : callStep c.endToEnd s t pc = some s') :
    abstraction base s' = abstraction base s ∨
      System.step c (abstraction base s) (.step t 0) = some (abstraction base s') := by
  have hstep : System.step c (abstraction base s) (.step t 0) =
      threadMain c (abstraction base s) t (CallPc.mainPc (some pc)) := by
    simp [System.step, hb, abstraction, hpc]
  rw [hstep]
  cases pc with
  | entry prog =>
    cases h
    refine .inr ?_
    rw [abstraction_setPc]
    cases hr : s.running <;> simp [threadMain, CallPc.mainPc, hr]
  | acquire prog =>
    cases h
    exact .inl (abstraction_setPc_self (by rw [hpc]; split <;> rfl))
  | spin prog =>
    simp only [JCoz.CreateLock.callStep] at h
    split at h
    · cases h
      exact .inl (abstraction_setPc_self (s := { s with classPrepLock := some t }) (by
        show _ = CallPc.mainPc (s.pcs t)
        rw [hpc]; rfl))
    · cases h
  | methods prog r =>
    cases h
    cases prog
    · refine .inr ?_
      rw [abstraction_setPc]
      simp [threadMain, CallPc.mainPc]
    · exact .inl (abstraction_setPc_self (by rw [hpc]; rfl))
  | check r =>
    cases h
    cases hc : (c.endToEnd || s.methodSet)
    · exact .inl (abstraction_setPc_self (by rw [hpc]; simp [CallPc.mainPc, hc]))
    · refine .inr ?_
      rw [abstraction_setPc]
      simp only [Bool.or_eq_true] at hc
      rcases hc with hc | hc <;> simp [threadMain, CallPc.mainPc, hc]
  | set r =>
    cases h
    obtain ⟨he, hm⟩ := hi.pending t r hpc
    refine .inr ?_
    rw [abstraction_setPc]
    simp [threadMain, CallPc.mainPc, he, hm]
    rfl
  | release r =>
    cases h
    cases r
    · exact .inl (abstraction_setPc_self (s := s) (by rw [hpc]; rfl))
    · exact .inl (abstraction_setPc_self (s := { s with classPrepLock := none }) (by
        show _ = CallPc.mainPc (s.pcs t)
        rw [hpc]; rfl))

theorem stopRunning_refines {s : CState} (hst : base.stop = .clear) :
    System.step c (abstraction base s) .stop =
      some (abstraction { base with stop := .wait } { s with running := false }) := by
  simp [System.step, hb, Callbacks.stop, abstraction, hst]

theorem clear_refines {s : CState} (hi : Inv c.endToEnd s) (hst : base.stop = .ignore) :
    System.step c (abstraction base s) .stop =
      some (abstraction { base with sigIgnored := true, stop := .returned }
        (clearProgressPoint c.endToEnd s)) := by
  have hm : (clearProgressPoint c.endToEnd s).methodSet = false := by
    unfold clearProgressPoint
    split
    · rfl
    · next h =>
      cases he : c.endToEnd
      · simpa [he] using h
      · exact hi.unset he
  have hp : clearProgressPoint c.endToEnd s = { clearProgressPoint c.endToEnd s with
      pcs := s.pcs, running := s.running } := by
    unfold clearProgressPoint; split <;> rfl
  rw [hp]
  simp [System.step, hb, Callbacks.stop, abstraction, hst, hm]

end Refines

end JCoz.CreateLock
