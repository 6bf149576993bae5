import JCoz.Basic

/-! `calculate_random_speedup` and the per-hit delay, in IEEE binary32; every value involved
is positive and below `2 ^ 24`. -/
namespace JCoz.Speedup

def sigScale (n d : Nat) : Nat → Nat → Nat
  | 0, s => s
  | fuel + 1, s => if 2 ^ 23 * d ≤ n * 2 ^ s then s else sigScale n d fuel (s + 1)

def roundSig (n d : Nat) : Nat × Nat :=
  let s := sigScale n d 64 0
  let q := n * 2 ^ s / d
  let r := n * 2 ^ s % d
  (if 2 * r < d ∨ (2 * r = d ∧ q % 2 = 0) then q else q + 1, s)

/-- `calculate_random_speedup` for `rand() = r`, as a binary32 value `m / 2 ^ s`:
`0` for a fifth of the draws, else `(r % 25 - 4) / 20.f`. -/
def calculateRandomSpeedup (r : Nat) : Nat × Nat :=
  if r % 25 < 5 then (0, 0) else roundSig (r % 25 - 4) 20

/-- `(long)(speedup * SIGNAL_FREQ)`: the binary32 product, truncated. -/
def speedupDelay (r : Nat) : Int :=
  let sp := calculateRandomSpeedup r
  let p := roundSig (sp.1 * signalFreq) (2 ^ sp.2)
  ((p.1 / 2 ^ p.2 : Nat) : Int)

theorem speedupDelay_eq (r : Nat) :
    speedupDelay r = if r % 25 < 5 then 0 else 50000 * ((r % 25 : Nat) - 4 : Int) := by
  have key : ∀ k < 25, speedupDelay k = if k < 5 then 0 else 50000 * ((k : Int) - 4) := by decide
  have h := key (r % 25) (Nat.mod_lt _ (by omega))
  have hr : speedupDelay r = speedupDelay (r % 25) := by
    simp only [speedupDelay, calculateRandomSpeedup, Nat.mod_mod]
  rw [hr, h]

theorem speedupDelay_le (r : Nat) : 0 ≤ speedupDelay r ∧ speedupDelay r ≤ signalFreq := by
  rw [speedupDelay_eq]
  have := Nat.mod_lt r (show 25 > 0 by omega)
  split <;> simp only [signalFreq] <;> omega

end JCoz.Speedup
