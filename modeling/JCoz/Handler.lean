import JCoz.State

/-! `Profiler::Handle`, one statement at a time; a null or deleted `curr_ut` is a fault. -/
namespace JCoz.Handler
open LineTable State

def withRecord (s : Sys) (t : Nat) (f : Nat → UserThread → Sys) : Sys :=
  match s.record t with
  | some (p, ut) => f p ut
  | none => { s with fault := true }

/-- One statement of the handler on thread `t`; `slept` is what `jcoz_sleep` returns. -/
def handle (c : Config) (s : Sys) (t slept : Nat) : HandlerPc → Option Sys
  | .entry fs => some (s.setHandler t (if s.profReady then fs.map .check else none))
  | .check fs => some (s.setHandler t (some (if s.inExperiment then .count fs else .idleReset fs)))
  | .idleReset fs => some (withRecord s t fun p ut =>
      (s.setRecord p { ut with localDelay := 0 }).setHandler t (some (.scopeLock fs)))
  | .scopeLock fs =>
    if s.inScopeLock = some (.thread t) then some (s.setHandler t (some (.scopeScan fs true)))
    else if s.inScopeLock = none then
      some ({ s with inScopeLock := some (.thread t) }.setHandler t (some (.scopeScan fs false)))
    else none
  | .scopeScan fs hl => some (s.setHandler t (some
      (match fs.find? (fun f => f.methodId ∈ s.inScopeIds) with
        | some f => .frameLock f hl
        | none => .scopeUnlock hl)))
  | .frameLock f hl =>
    if s.frameLock = none then
      some ({ s with frameLock := some (.thread t) }.setHandler t (some (.frameAdd f hl)))
    else none
  | .frameAdd f hl =>
    some ({ s with callIndex := s.callIndex + 1 }.setHandler t (some (.frameStore f s.callIndex hl)))
  | .frameStore f idx hl => some ({ s with
      staticCallFrames := if idx < c.consts.numStaticCallFrames
        then Function.update s.staticCallFrames idx f else s.staticCallFrames }.setHandler t
      (some (.frameUnlock hl)))
  | .frameUnlock hl => some ({ s with frameLock := none }.setHandler t (some (.scopeUnlock hl)))
  | .scopeUnlock hl => some ((if hl then s else { s with inScopeLock := none }).setHandler t none)
  | .count fs => some (withRecord s t fun p ut =>
      (s.setRecord p { ut with numSignalsReceived := ut.numSignalsReceived + 1 }).setHandler t
        (some (.scan fs)))
  | .scan fs =>
    if !s.current.rangesLive ∧ s.current.target.ranges ≠ [] ∧
        fs.any (·.methodId == s.current.target.methodId) then some { s with fault := true }
    else some (s.setHandler t (some
      (if fs.any (inExperiment s.current.target) then .addDelay else .sync)))
  | .addDelay => some (withRecord s t fun p ut =>
      (s.setRecord p { ut with localDelay := ut.localDelay + s.current.delay }).setHandler t
        (some .sync))
  | .sync => some (withRecord s t fun _ ut => s.setHandler t (some
      (if ut.numSignalsReceived = 10 then .settle (s.globalDelay - ut.localDelay) else .mergeHits)))
  | .settle d => some (withRecord s t fun p ut =>
      if 0 < d then
        (s.setRecord p { ut with localDelay := ut.localDelay + slept, numSignalsReceived := 0 }).setHandler t
          (some .mergeHits)
      else
        ({ s with globalDelay := s.globalDelay + d.natAbs }.setRecord p
          { ut with numSignalsReceived := 0 }).setHandler t (some .mergeHits))
  | .mergeHits => some (withRecord s t fun _ ut =>
      { s with pointsHit := s.pointsHit + ut.pointsHit }.setHandler t (some .resetHits))
  | .resetHits => some (withRecord s t fun p ut =>
      (s.setRecord p { ut with pointsHit := 0 }).setHandler t none)

end JCoz.Handler
