/-! `jcoz_sleep`: `nanosleep` retried with the reported remainder while it returns `-1`;
`nanosleep` is taken by its POSIX contract. -/
namespace JCoz.Sleep

inductive Wake where
  | completes
  | interrupted (slept : Nat)
  deriving DecidableEq, Repr

/-- `nanosleep(&req, &rem)` on `tv_nsec` values (`tv_sec` stays 0 in both): a `tv_nsec` outside
`[0, 999999999]` fails with `EINVAL` at once and leaves `rem` alone; an interrupted sleep fails with
`EINTR` and writes the unslept part into `rem`. The result is the return value, `rem` afterwards
and the nanoseconds slept. -/
def nanosleep (req rem : Int) (w : Wake) : Int × Int × Nat :=
  if req < 0 ∨ 1000000000 ≤ req then (-1, rem, 0)
  else
    match w with
    | .interrupted slept => if (slept : Int) < req then (-1, req - slept, slept) else (0, rem, req.toNat)
    | .completes => (0, rem, req.toNat)

/-- `do { err = nanosleep(&temp_req, &temp_rem); temp_req.tv_nsec = temp_rem.tv_nsec; }
while (err == -1);` with at most `fuel` calls, the kernel's answers taken from `wakes` one per
call (a call past the list completes). The result is the time slept. -/
def sleepLoop : Nat → Int → Int → List Wake → Option Nat
  | 0, _, _, _ => none
  | fuel + 1, req, rem, wakes =>
    match nanosleep req rem (wakes.headD .completes) with
    | (err, rem', slept) =>
      if err = -1 then (sleepLoop fuel rem' rem' wakes.tail).map (slept + ·) else some slept

def jcozSleep (fuel : Nat) (nanoseconds : Int) (wakes : List Wake) : Option Nat :=
  if nanoseconds = 0 then some 0 else sleepLoop fuel nanoseconds 0 wakes

theorem nanosleep_invalid {req : Int} (h : 1000000000 ≤ req) (rem : Int) (w : Wake) :
    nanosleep req rem w = (-1, rem, 0) := by
  unfold nanosleep; rw [if_pos (.inr h)]

theorem nanosleep_completes {req : Int} (h0 : 0 ≤ req) (h1 : req < 1000000000) (rem : Int) :
    nanosleep req rem .completes = (0, rem, req.toNat) := by
  unfold nanosleep; rw [if_neg (by omega)]

theorem nanosleep_valid {req : Int} (h0 : 0 ≤ req) (h1 : req < 1000000000) (rem : Int) (w : Wake) :
    nanosleep req rem w = (0, rem, req.toNat) ∨
      ∃ slept : Nat, (slept : Int) < req ∧ nanosleep req rem w = (-1, req - slept, slept) := by
  cases w with
  | completes => exact .inl (nanosleep_completes h0 h1 rem)
  | interrupted slept =>
    unfold nanosleep
    rw [if_neg (by omega)]
    by_cases h : (slept : Int) < req
    · exact .inr ⟨slept, h, if_pos h⟩
    · exact .inl (if_neg h)

theorem sleepLoop_zero (fuel : Nat) (rem : Int) (wakes : List Wake) :
    sleepLoop (fuel + 1) 0 rem wakes = some 0 := by
  rcases nanosleep_valid (Int.le_refl 0) (by decide) rem (wakes.headD .completes) with h | ⟨slept, hs, -⟩
  · rw [sleepLoop, h]; rfl
  · omega

theorem sleepLoop_valid (wakes : List Wake) :
    ∀ fuel req rem, wakes.length < fuel → 0 ≤ req → req < 1000000000 →
      sleepLoop fuel req rem wakes = some req.toNat := by
  induction wakes with
  | nil =>
    rintro (_ | fuel) req rem hf h0 h1
    · cases hf
    · rw [sleepLoop, List.headD_nil, nanosleep_completes h0 h1]; rfl
  | cons w wakes ih =>
    rintro (_ | fuel) req rem hf h0 h1
    · cases hf
    rcases nanosleep_valid h0 h1 rem w with h | ⟨slept, hs, h⟩
    · rw [sleepLoop, List.headD_cons, h]; rfl
    · rw [sleepLoop, List.headD_cons, h]
      dsimp only
      rw [if_pos rfl, List.tail_cons, ih fuel (req - slept) (req - slept) (Nat.lt_of_succ_lt_succ hf)
        (by omega) (by omega), Option.map_some']
      congr 1
      omega

/-- `jcoz_sleep(n)` for `n ≥ 10^9`: the first call fails with `EINVAL`, leaving `temp_rem`
zeroed, so the retry requests 0 and returns at once. The thread sleeps 0 nanoseconds for every
pattern of interruptions. -/
theorem jcozSleep_skips_long_delays (n : Int) (hn : 1000000000 ≤ n) (fuel : Nat) (wakes : List Wake) :
    jcozSleep (fuel + 2) n wakes = some 0 := by
  rw [jcozSleep, if_neg (by omega), sleepLoop, nanosleep_invalid hn]
  dsimp only
  rw [if_pos rfl, sleepLoop_zero]
  rfl

theorem jcozSleep_skips_long_delays_at_one_second :
    (1000000000 : Int) ≤ 1000000000 ∧ jcozSleep 2 1000000000 [] = some 0 :=
  ⟨Int.le_refl _, jcozSleep_skips_long_delays _ (Int.le_refl _) 0 []⟩

/-- Below one second, `jcoz_sleep(n)` sleeps exactly `n` nanoseconds under every pattern of
interruptions, and needs one call more than the interruptions. -/
theorem jcozSleep_sleeps_exactly (n : Int) (h0 : 0 < n) (h1 : n < 1000000000) (wakes : List Wake)
    (fuel : Nat) (hf : wakes.length < fuel) : jcozSleep fuel n wakes = some n.toNat := by
  rw [jcozSleep, if_neg (by omega)]
  exact sleepLoop_valid wakes fuel n 0 hf (Int.le_of_lt h0) h1

theorem jcozSleep_sleeps_exactly_at_two_signals :
    (0 : Int) < 5000000 ∧ (5000000 : Int) < 1000000000 ∧
      [Wake.interrupted 1000000, .interrupted 3000000].length < 3 ∧
      jcozSleep 3 5000000 [.interrupted 1000000, .interrupted 3000000] = some 5000000 :=
  ⟨by decide, by decide, by decide,
    jcozSleep_sleeps_exactly 5000000 (by decide) (by decide) _ 3 (by decide)⟩

end JCoz.Sleep
