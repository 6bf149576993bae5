import Mathlib.Data.Int.Defs
import Mathlib.Algebra.Group.Nat.Basic
import Mathlib.Algebra.Group.Int

/-! Constants and plain records. The tuning constants of `globals.h`, which is not part of
the sources, are a parameter. -/
namespace JCoz

/-- `SIGNAL_FREQ`: the sampling period in nanoseconds. -/
def signalFreq : Nat := 1000000

/-- `MAX_BCI`: the largest bytecode index (JVMS 4.7.3). -/
def maxBci : Int := 65535

structure Consts where
  numStaticCallFrames : Nat
  minExpTime : Nat
  maxExpTime : Nat
  expTimeFactor : Nat
  hitsToIncExpTime : Nat
  hitsToDecExpTime : Nat

structure Config where
  consts : Consts
  endToEnd : Bool
  fixExp : Bool

/-- `JVMPI_CallFrame`: a method id (`0` is null) and the bytecode index that
`AsyncGetCallTrace` stores in its `lineno` field. -/
structure CallFrame where
  methodId : Nat
  lineno : Int
  deriving DecidableEq, Repr

def CallFrame.zero : CallFrame := ⟨0, 0⟩

structure LineEntry where
  startLocation : Int
  lineNumber : Int
  deriving DecidableEq, Repr

end JCoz
