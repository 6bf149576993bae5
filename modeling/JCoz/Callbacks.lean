import JCoz.Handler

/-! A Java thread's own code, `HandleBreakpoint`, and `Profiler::Stop` with the rest of
`OnVMDeath`. A progress class without the progress line (`exit(1)`) is not modelled. -/
namespace JCoz.Callbacks
open State Handler

def threadMain (c : Config) (s : Sys) (t : Nat) : MainPc → Option Sys
  | .addAlloc => some ({ s with
      heap := Function.update s.heap s.nextPtr (some ⟨t, s.globalDelay, 0, 0⟩)
      nextPtr := s.nextPtr + 1 }.setThread t
        { s.threads t with currUt := some s.nextPtr, main := .addLock })
  | .addLock =>
    if s.userThreadsLock = none then
      some ({ s with userThreadsLock := some (.thread t) }.setMain t .addInsert)
    else none
  | .addInsert => some ({ s with
      userThreads := s.userThreads ++ (s.threads t).currUt.toList }.setMain t .addUnlock)
  | .addUnlock => some ({ s with userThreadsLock := none }.setMain t .running)
  | .prepare ms inScope prog => some (s.setMain t
      (if s.running then (if inScope then .scopeLock ms prog else .progressPoint prog) else .running))
  | .scopeLock ms prog =>
    if s.inScopeLock = none then
      some ({ s with inScopeLock := some (.thread t) }.setMain t (.scopeInsert ms prog))
    else none
  | .scopeInsert ms prog =>
    some ({ s with inScopeIds := s.inScopeIds ++ ms }.setMain t (.scopeUnlock prog))
  | .scopeUnlock prog => some ({ s with inScopeLock := none }.setMain t (.progressPoint prog))
  | .progressPoint prog => some ((if prog ∧ !c.endToEnd ∧ !s.breakpointSet
      then { s with breakpointSet := true } else s).setMain t .running)
  | .rmMerge => some (withRecord s t fun _ ut =>
      { s with pointsHit := s.pointsHit + ut.pointsHit }.setMain t .rmReset)
  | .rmReset => some (withRecord s t fun p ut =>
      (s.setRecord p { ut with pointsHit := 0 }).setMain t .rmRead)
  | .rmRead => some (withRecord s t fun _ ut => s.setMain t (.rmSettle (s.globalDelay - ut.localDelay)))
  | .rmSettle d => some ((if 0 < d then s
      else { s with globalDelay := s.globalDelay + d.natAbs }).setMain t .rmLock)
  | .rmLock =>
    if s.userThreadsLock = none then
      some ({ s with userThreadsLock := some (.thread t) }.setMain t .rmErase)
    else none
  | .rmErase => some ({ s with
      userThreads := match (s.threads t).currUt with
        | some p => s.userThreads.erase p
        | none => s.userThreads }.setMain t .rmUnlock)
  | .rmUnlock => some ({ s with userThreadsLock := none }.setMain t .rmDelete)
  | .rmDelete => some ({ s with
      heap := match (s.threads t).currUt with
        | some p => Function.update s.heap p none
        | none => s.heap }.setMain t .exiting)
  | .exiting => some (s.setMain t .dead)
  | .unstarted | .running | .dead => none

/-- A JVMTI callback starts only on a thread that runs Java code and no handler. -/
def idle (s : Sys) (t : Nat) : Bool :=
  match (s.threads t).main, (s.threads t).handler with
  | .running, none => true
  | _, _ => false

def addUserThread (s : Sys) (t : Nat) (inMain : Bool) : Option Sys :=
  match (s.threads t).main with
  | .unstarted => some (if inMain then s.setMain t .addAlloc
      else s.setThread t { s.threads t with currUt := none, main := .running })
  | _ => none

def handleBreakpoint (s : Sys) (t : Nat) : Option Sys :=
  if idle s t ∧ s.breakpointSet then
    some (withRecord s t fun p ut =>
      s.setRecord p { ut with pointsHit := ut.pointsHit + if s.inExperiment then 1 else 0 })
  else none

/-- `OnClassPrepare`: `CreateJMethodIDsForClass` for a class with these methods, in scope or
not, the progress class or not. -/
def classPrepare (s : Sys) (t : Nat) (ms : List Nat) (inScope progress : Bool) : Option Sys :=
  if idle s t then some (s.setMain t (.prepare ms inScope progress)) else none

def removeUserThread (s : Sys) (t : Nat) : Option Sys :=
  if idle s t then
    some (s.setMain t (if (s.threads t).currUt.isSome then .rmMerge else .exiting))
  else none

/-- Delivery of a pending `SIGPROF` to a live thread not already in the handler. -/
def deliver (s : Sys) (t : Nat) (frames : Option (List CallFrame)) : Option Sys :=
  match (s.threads t).main, (s.threads t).handler with
  | .unstarted, _ | .dead, _ | _, some _ => none
  | _, none =>
    if (s.threads t).pending then
      some (s.setThread t { s.threads t with
        pending := false, handler := if s.sigIgnored then none else some (.entry frames) })
    else none

def stop (c : Config) (s : Sys) : Option Sys :=
  match s.stop with
  | .idle => some { s with stop := .check }
  | .check => some { s with stop := if s.running then .inc else .scopeLock }
  | .inc => some { s with pointsHit := if c.endToEnd then s.pointsHit + 1 else s.pointsHit, stop := .clear }
  | .clear => some { s with running := false, stop := .wait }
  | .wait => if s.profileDone then some { s with stop := .scopeLock } else none
  | .scopeLock =>
    if s.inScopeLock = none then some { s with inScopeLock := some .stopper, stop := .scopeClear }
    else none
  | .scopeClear => some { s with inScopeIds := [], stop := .scopeUnlock }
  | .scopeUnlock => some { s with inScopeLock := none, stop := .ignore }
  | .ignore => some { s with sigIgnored := true, breakpointSet := false, stop := .returned }
  | .returned => none

section Spec
variable {s s' : Sys} {t : Nat}

theorem idle_iff : idle s t = true ↔ (s.threads t).main = .running ∧ (s.threads t).handler = none := by
  unfold idle
  split <;> simp_all

theorem addUserThread_eq {b : Bool} (h : addUserThread s t b = some s') :
    (s.threads t).main = .unstarted ∧
      s' = if b then s.setMain t .addAlloc
        else s.setThread t { s.threads t with currUt := none, main := .running } := by
  unfold addUserThread at h
  split at h
  · exact ⟨‹_›, (Option.some.inj h).symm⟩
  · cases h

theorem handleBreakpoint_eq (h : handleBreakpoint s t = some s') :
    idle s t = true ∧ s.breakpointSet = true ∧
      s' = withRecord s t fun p ut =>
        s.setRecord p { ut with pointsHit := ut.pointsHit + if s.inExperiment then 1 else 0 } := by
  unfold handleBreakpoint at h
  split at h
  · next hg => exact ⟨hg.1, hg.2, (Option.some.inj h).symm⟩
  · cases h

theorem classPrepare_eq {ms : List Nat} {b b' : Bool} (h : classPrepare s t ms b b' = some s') :
    idle s t = true ∧ s' = s.setMain t (.prepare ms b b') := by
  unfold classPrepare at h
  split at h
  · exact ⟨‹_›, (Option.some.inj h).symm⟩
  · cases h

theorem removeUserThread_eq (h : removeUserThread s t = some s') :
    idle s t = true ∧
      s' = s.setMain t (if (s.threads t).currUt.isSome then .rmMerge else .exiting) := by
  unfold removeUserThread at h
  split at h
  · exact ⟨‹_›, (Option.some.inj h).symm⟩
  · cases h

theorem deliver_eq {fs : Option (List CallFrame)} (h : deliver s t fs = some s') :
    (s.threads t).handler = none ∧ (s.threads t).pending = true ∧
      s' = s.setThread t { s.threads t with
        pending := false, handler := if s.sigIgnored then none else some (.entry fs) } := by
  unfold deliver at h
  split at h
  · cases h
  · cases h
  · cases h
  · split at h
    · exact ⟨‹_›, ‹_›, (Option.some.inj h).symm⟩
    · cases h

end Spec

end JCoz.Callbacks
