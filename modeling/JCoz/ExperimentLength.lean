import JCoz.Basic
import Mathlib.Order.MinMax

/-! The adaptive duration controller `Profiler::update_experiment_length` and the value of
`experiment_time` after a run of experiments. `experiment_time` is an `unsigned long`. -/
namespace JCoz.ExperimentLength

variable (k : Consts)

/-- `Profiler::update_experiment_length`, fed `current_experiment.points_hit`. -/
def updateExperimentLength (fixExp : Bool) (pointsHit experimentTime : Nat) : Nat :=
  if fixExp then experimentTime
  else if pointsHit ≤ k.hitsToIncExpTime then
    if k.maxExpTime < experimentTime * 2 % 2 ^ 64 then k.maxExpTime
    else experimentTime * k.expTimeFactor % 2 ^ 64
  else if k.minExpTime < experimentTime ∧ k.hitsToDecExpTime ≤ pointsHit then
    experimentTime / k.expTimeFactor
  else experimentTime

def runFrom (fixExp : Bool) (t : Nat) (hits : List Nat) : Nat :=
  hits.foldl (fun t h => updateExperimentLength k fixExp h t) t

def experimentTimeAfter (fixExp : Bool) (hits : List Nat) : Nat :=
  runFrom k fixExp k.minExpTime hits

@[simp] theorem runFrom_nil (fixExp : Bool) (t : Nat) : runFrom k fixExp t [] = t := rfl

@[simp] theorem runFrom_cons (fixExp : Bool) (t h : Nat) (hs : List Nat) :
    runFrom k fixExp t (h :: hs) = runFrom k fixExp (updateExperimentLength k fixExp h t) hs := rfl

theorem runFrom_append (fixExp : Bool) (t : Nat) (hs hs' : List Nat) :
    runFrom k fixExp t (hs ++ hs') = runFrom k fixExp (runFrom k fixExp t hs) hs' := by
  simp [runFrom]

theorem runFrom_fixExp (t : Nat) (hits : List Nat) : runFrom k true t hits = t := by
  induction hits generalizing t <;> simp [updateExperimentLength, *]

/-- Two sets of constants allowed by `0 < MIN_EXP_TIME ≤ MAX_EXP_TIME` and
`EXP_TIME_FACTOR ≥ 2`: the first shrinks below the minimum, the second overshoots the cap. -/
def undershoot : Consts := ⟨2000, 10, 15, 2, 0, 1⟩
def overshoot : Consts := ⟨2000, 1, 2, 3, 0, 1⟩

theorem experimentTime_leaves_range :
    experimentTimeAfter undershoot false [0, 1] < undershoot.minExpTime ∧
    overshoot.maxExpTime < experimentTimeAfter overshoot false [0] := by
  decide

section FactorTwo

variable {k}
variable (hF : k.expTimeFactor = 2) (hmin : 0 < k.minExpTime)
  (hle : k.minExpTime ≤ k.maxExpTime) (hmax : k.maxExpTime < 2 ^ 63)
include hF hmax

theorem update_low {h t : Nat} (hh : h ≤ k.hitsToIncExpTime) (ht : t ≤ k.maxExpTime) :
    updateExperimentLength k false h t = min k.maxExpTime (2 * t) := by
  have hw : t * 2 % 2 ^ 64 = 2 * t := by rw [Nat.mod_eq_of_lt (by omega)]; omega
  simp only [updateExperimentLength, hh, hw, hF, Bool.false_eq_true, if_false, if_true]
  split <;> omega

omit hmax in
theorem update_high {h t : Nat} (hh : k.hitsToIncExpTime < h) (hd : k.hitsToDecExpTime ≤ h) :
    updateExperimentLength k false h t = if k.minExpTime < t then t / 2 else t := by
  simp only [updateExperimentLength, hF, hd, and_true, Bool.false_eq_true, if_false,
    show ¬ h ≤ k.hitsToIncExpTime by omega]

theorem update_mem (h : Nat) {t : Nat} (hlo : (k.minExpTime + 1) / 2 ≤ t) (hhi : t ≤ k.maxExpTime) :
    (k.minExpTime + 1) / 2 ≤ updateExperimentLength k false h t ∧
      updateExperimentLength k false h t ≤ k.maxExpTime := by
  by_cases hh : h ≤ k.hitsToIncExpTime
  · rw [update_low hF hmax hh hhi]; omega
  · have hw : t * 2 % 2 ^ 64 = 2 * t := by rw [Nat.mod_eq_of_lt (by omega)]; omega
    simp only [updateExperimentLength, hh, hF, Bool.false_eq_true, if_false]
    split <;> omega

theorem runFrom_mem (hits : List Nat) (t : Nat) (hlo : (k.minExpTime + 1) / 2 ≤ t)
    (hhi : t ≤ k.maxExpTime) :
    (k.minExpTime + 1) / 2 ≤ runFrom k false t hits ∧ runFrom k false t hits ≤ k.maxExpTime := by
  induction hits generalizing t with
  | nil => exact ⟨hlo, hhi⟩
  | cons h hs ih =>
    obtain ⟨hlo', hhi'⟩ := update_mem hF hmax h hlo hhi
    exact ih _ hlo' hhi'

theorem runFrom_low (low : List Nat) (hl : ∀ h ∈ low, h ≤ k.hitsToIncExpTime) {t : Nat}
    (ht : t ≤ k.maxExpTime) : runFrom k false t low = min k.maxExpTime (t * 2 ^ low.length) := by
  induction low generalizing t with
  | nil => simp [ht]
  | cons h hs ih =>
    rw [runFrom_cons, update_low hF hmax (hl h (by simp)) ht,
      ih (fun h' hh' => hl h' (by simp [hh'])) (by omega)]
    have hpow : 0 < 2 ^ hs.length := Nat.two_pow_pos _
    simp only [List.length_cons, Nat.pow_succ]
    rcases le_total k.maxExpTime (2 * t) with h1 | h1
    · have hcap : k.maxExpTime ≤ 2 * t * 2 ^ hs.length := h1.trans (Nat.le_mul_of_pos_right _ hpow)
      rw [min_eq_left h1, min_eq_left (Nat.le_mul_of_pos_right _ hpow),
        min_eq_left (hcap.trans_eq (by rw [Nat.mul_comm 2 t, Nat.mul_assoc, Nat.mul_comm 2]))]
    · rw [min_eq_right h1, Nat.mul_comm 2 t, Nat.mul_assoc, Nat.mul_comm 2]

omit hmax in
theorem runFrom_high_of_le (high : List Nat)
    (hh : ∀ h ∈ high, k.hitsToIncExpTime < h ∧ k.hitsToDecExpTime ≤ h) {t : Nat}
    (ht : t ≤ k.minExpTime) : runFrom k false t high = t := by
  induction high with
  | nil => rfl
  | cons h hs ih =>
    have hh' := hh h (by simp)
    rw [runFrom_cons, update_high hF hh'.1 hh'.2, if_neg (by omega)]
    exact ih fun h' m => hh h' (by simp [m])

omit hmax in
theorem runFrom_high (n : Nat) : ∀ t, t < 2 ^ n → (k.minExpTime + 1) / 2 ≤ t →
    ∃ v, (k.minExpTime + 1) / 2 ≤ v ∧ v ≤ k.minExpTime ∧
      ∀ high : List Nat, (∀ h ∈ high, k.hitsToIncExpTime < h ∧ k.hitsToDecExpTime ≤ h) →
        n ≤ high.length → runFrom k false t high = v := by
  induction n with
  | zero =>
    intro t ht hlo
    exact ⟨t, hlo, by omega, fun high hh _ => runFrom_high_of_le hF high hh (by omega)⟩
  | succ n ih =>
    intro t ht hlo
    by_cases hm : t ≤ k.minExpTime
    · exact ⟨t, hlo, hm, fun high hh _ => runFrom_high_of_le hF high hh hm⟩
    obtain ⟨v, hv1, hv2, hv⟩ := ih (t / 2) (by rw [Nat.pow_succ] at ht; omega) (by omega)
    refine ⟨v, hv1, hv2, fun high hh hn => ?_⟩
    obtain ⟨h, hs, rfl⟩ : ∃ h hs, high = h :: hs := List.exists_cons_of_length_pos (by omega)
    have hh' := hh h (by simp)
    rw [runFrom_cons, update_high hF hh'.1 hh'.2, if_pos (by omega)]
    exact hv hs (fun h' m => hh h' (by simp [m])) (by simp at hn; omega)

include hmin hle in
/-- With `EXP_TIME_FACTOR = 2` and no wrap-around, `experiment_time` stays within
`[⌈MIN_EXP_TIME / 2⌉, MAX_EXP_TIME]`; 64 few-hit experiments bring it to exactly
`MAX_EXP_TIME`, and 64 many-hit ones to a value at most `MIN_EXP_TIME` that it then keeps. -/
theorem experimentTime_factor_two (hits : List Nat) :
    ((k.minExpTime + 1) / 2 ≤ experimentTimeAfter k false hits ∧
      experimentTimeAfter k false hits ≤ k.maxExpTime) ∧
    (∀ low : List Nat, (∀ h ∈ low, h ≤ k.hitsToIncExpTime) → 64 ≤ low.length →
      experimentTimeAfter k false (hits ++ low) = k.maxExpTime) ∧
    (∃ v, (k.minExpTime + 1) / 2 ≤ v ∧ v ≤ k.minExpTime ∧
      ∀ high : List Nat, (∀ h ∈ high, k.hitsToIncExpTime < h ∧ k.hitsToDecExpTime ≤ h) →
        64 ≤ high.length → experimentTimeAfter k false (hits ++ high) = v) := by
  obtain ⟨hlo, hhi⟩ := runFrom_mem hF hmax hits k.minExpTime (by omega) hle
  refine ⟨⟨hlo, hhi⟩, fun low hl hn => ?_, ?_⟩
  · have hpos : 1 ≤ runFrom k false k.minExpTime hits := by omega
    have hbig : 2 ^ 63 ≤ 2 ^ low.length := Nat.pow_le_pow_right (by omega) (by omega)
    rw [experimentTimeAfter, runFrom_append, runFrom_low hF hmax low hl hhi, min_eq_left]
    calc k.maxExpTime ≤ 2 ^ low.length := by omega
      _ ≤ runFrom k false k.minExpTime hits * 2 ^ low.length := Nat.le_mul_of_pos_left _ hpos
  · obtain ⟨v, hv1, hv2, hv⟩ := runFrom_high hF 64 _ (by omega) hlo
    exact ⟨v, hv1, hv2, fun high hh hn => by rw [experimentTimeAfter, runFrom_append]; exact hv high hh hn⟩

end FactorTwo

def factorTwo : Consts := ⟨2000, 5000, 80000, 2, 5, 10⟩

theorem experimentTime_factor_two_at_factorTwo :
    (factorTwo.expTimeFactor = 2 ∧ 0 < factorTwo.minExpTime ∧
      factorTwo.minExpTime ≤ factorTwo.maxExpTime ∧ factorTwo.maxExpTime < 2 ^ 63) ∧
    (((factorTwo.minExpTime + 1) / 2 ≤ experimentTimeAfter factorTwo false [] ∧
      experimentTimeAfter factorTwo false [] ≤ factorTwo.maxExpTime) ∧
    (∀ low : List Nat, (∀ h ∈ low, h ≤ factorTwo.hitsToIncExpTime) → 64 ≤ low.length →
      experimentTimeAfter factorTwo false ([] ++ low) = factorTwo.maxExpTime) ∧
    (∃ v, (factorTwo.minExpTime + 1) / 2 ≤ v ∧ v ≤ factorTwo.minExpTime ∧
      ∀ high : List Nat, (∀ h ∈ high, factorTwo.hitsToIncExpTime < h ∧
        factorTwo.hitsToDecExpTime ≤ h) →
        64 ≤ high.length → experimentTimeAfter factorTwo false ([] ++ high) = v)) :=
  ⟨by decide, experimentTime_factor_two rfl (by decide) (by decide) (by decide) []⟩

end JCoz.ExperimentLength
