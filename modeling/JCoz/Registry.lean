import JCoz.Writes

/-! The registry `user_threads` under `user_threads_lock` and each thread's `curr_ut`: distinct
live records, and a lock that excludes. -/
namespace JCoz.State

/-- Where a thread's own code stands with respect to its `UserThread` record. -/
inductive UtPhase where
  | unregistered
  | pending
  | listed
  | removing
  | unlisted
  | freed

def MainPc.utPhase : MainPc → UtPhase
  | .unstarted | .addAlloc => .unregistered
  | .addLock | .addInsert => .pending
  | .rmMerge | .rmReset | .rmRead | .rmSettle _ | .rmLock | .rmErase => .removing
  | .rmUnlock | .rmDelete => .unlisted
  | .exiting | .dead => .freed
  | _ => .listed

def MainPc.holdsRegistry : MainPc → Prop
  | .addInsert | .addUnlock | .rmErase | .rmUnlock => True
  | _ => False

end JCoz.State

namespace JCoz.Registry
open State Agent Handler Callbacks System System.Event Writes

/-- A thread outside the main group prepares the progress class and then hits the progress
point: `addUserThread` left its `curr_ut` null. -/
def nullBreakpoint : List Event :=
  [.start 1 false, .classPrepare 1 [] false true, .step 1 0, .step 1 0, .breakpoint 1]

theorem breakpoint_on_unregistered_thread :
    (run sampleConfig (init sampleConfig) nullBreakpoint).map
      (fun s => ((s.threads 1).currUt, s.breakpointSet, s.fault)) = some (none, true, true) := by
  decide

def sleepsNext (s : Sys) (t : Nat) : Bool :=
  match (s.threads t).handler with
  | some (.settle d) => decide (0 < d)
  | some _ => false
  | none =>
    match (s.threads t).main with
    | .rmSettle d => decide (0 < d)
    | _ => false

def holdsLock (s : Sys) (t : Nat) : Bool :=
  decide (s.userThreadsLock = some (.thread t)) || decide (s.inScopeLock = some (.thread t)) ||
    decide (s.frameLock = some (.thread t))

/-- Thread 2 donates a period to the ledger and ends; thread 1 takes nine in-experiment
signals, enters `addInScopeMethods`, and takes its tenth inside that critical section. -/
def lockedSleep : List Event :=
  register 1 ++ register 2 ++ prepareScope 1 [7] ++ agentSteps 3 ++
    experiment 2 1 [target] [target] targetTable 24 ++ agentSteps 4 ++
    handlerRun 2 [target] 8 ++ [.threadEnd 2] ++ List.replicate 8 (.step 2 0) ++
    handlerRun 1 [] 7 ++ (List.replicate 8 (agentSteps 5 ++ handlerRun 1 [] 7)).flatten ++
    agentSteps 5 ++ [.classPrepare 1 [8] true false, .step 1 0, .step 1 0] ++ handlerRun 1 [] 5

set_option maxRecDepth 8000 in
theorem handler_sleeps_holding_lock :
    (run sampleConfig (init sampleConfig) lockedSleep).map
        (fun s => (sleepsNext s 1, holdsLock s 1, s.inScopeLock)) =
      some (true, true, some (.thread 1)) ∧
    (run sampleConfig (init sampleConfig) (lockedSleep ++ [.step 1 1000000])).map
        (fun s => ((s.record 1).map (·.2.localDelay), holdsLock s 1)) = some (some 1000000, true) := by
  decide

/-! ### The registry over every interleaving -/

variable {c : Config} {s s' : Sys} {t : Nat}

def phaseFact (s : Sys) : UtPhase → Option Nat → Prop
  | .unregistered, u => u = none
  | .pending, u => ∃ p, u = some p ∧ (s.heap p).isSome ∧ p ∉ s.userThreads
  | .listed, u => ∀ p, u = some p → (s.heap p).isSome ∧ p ∈ s.userThreads
  | .removing, u => ∃ p, u = some p ∧ (s.heap p).isSome ∧ p ∈ s.userThreads
  | .unlisted, u => ∃ p, u = some p ∧ (s.heap p).isSome ∧ p ∉ s.userThreads
  | .freed, u => ∀ p, u = some p → p ∉ s.userThreads

/-- `user_threads` holds distinct live records, each thread's record is where its phase says,
and `user_threads_lock` is held by whoever is inside it. -/
structure Inv (s : Sys) : Prop where
  nodup : s.userThreads.Nodup
  live : ∀ p ∈ s.userThreads, (s.heap p).isSome
  bound : ∀ p ∈ s.userThreads, p < s.nextPtr
  fresh : ∀ t p, (s.threads t).currUt = some p → p < s.nextPtr
  unique : ∀ t u p, (s.threads t).currUt = some p → (s.threads u).currUt = some p → t = u
  thread : ∀ t, phaseFact s (s.threads t).main.utPhase (s.threads t).currUt
  lockAgent : s.agent.broadcasting → s.userThreadsLock = some .agent
  lockThread : ∀ t, (s.threads t).main.holdsRegistry → s.userThreadsLock = some (.thread t)
  snapshot : ∀ r ps, s.agent = .sigKill r ps → ∀ p ∈ ps, p ∈ s.userThreads

theorem inv_init : Inv (init c) where
  nodup := .nil
  live _ h := nomatch h
  bound _ h := nomatch h
  fresh _ _ h := nomatch h
  unique _ _ _ h := nomatch h
  thread _ := rfl
  lockAgent h := nomatch h
  lockThread _ h := nomatch h
  snapshot _ _ h := nomatch h

theorem Inv.free (hi : Inv s) (hl : s.userThreadsLock = none) :
    ¬s.agent.broadcasting ∧ ∀ t, ¬(s.threads t).main.holdsRegistry :=
  ⟨fun h => by simp [hi.lockAgent h] at hl, fun t h => by simp [hi.lockThread t h] at hl⟩

theorem phaseFact_transfer {g : UtPhase} {u : Option Nat} (h : phaseFact s g u)
    (hq : ∀ q, u = some q → ((s.heap q).isSome → (s'.heap q).isSome) ∧
      (q ∈ s'.userThreads ↔ q ∈ s.userThreads)) : phaseFact s' g u := by
  cases g
  case unregistered => exact h
  case listed => exact fun q hu => ⟨(hq q hu).1 (h q hu).1, (hq q hu).2.mpr (h q hu).2⟩
  case freed => exact fun q hu hm => h q hu ((hq q hu).2.mp hm)
  all_goals
    obtain ⟨q, rfl, hl, hm⟩ := h
    exact ⟨q, rfl, (hq q rfl).1 hl, by rwa [(hq q rfl).2]⟩

theorem Inv.relock (hi : Inv s)
    (hth : ∀ u, (s'.threads u).main.utPhase = (s.threads u).main.utPhase ∧
      (s'.threads u).currUt = (s.threads u).currUt)
    (hut : s'.userThreads = s.userThreads) (hheap : ∀ p, (s.heap p).isSome → (s'.heap p).isSome)
    (hnp : s'.nextPtr = s.nextPtr)
    (hlockAgent : s'.agent.broadcasting → s'.userThreadsLock = some .agent)
    (hlockThread : ∀ u, (s'.threads u).main.holdsRegistry → s'.userThreadsLock = some (.thread u))
    (hsnap : ∀ r ps, s'.agent = .sigKill r ps → ∀ p ∈ ps, p ∈ s'.userThreads) : Inv s' where
  nodup := hut ▸ hi.nodup
  live p hp := hheap p (hi.live p (hut ▸ hp))
  bound p hp := hnp ▸ hi.bound p (hut ▸ hp)
  fresh t p h := hnp ▸ hi.fresh t p ((hth t).2 ▸ h)
  unique t u p h h' := hi.unique t u p ((hth t).2 ▸ h) ((hth u).2 ▸ h')
  thread t := by
    rw [(hth t).1, (hth t).2]
    exact phaseFact_transfer (hi.thread t) fun q _ => ⟨hheap q, by rw [hut]⟩
  lockAgent := hlockAgent
  lockThread := hlockThread
  snapshot := hsnap

theorem Inv.of_frame (hi : Inv s)
    (hth : ∀ u, (s'.threads u).main.utPhase = (s.threads u).main.utPhase ∧
      ((s'.threads u).main.holdsRegistry ↔ (s.threads u).main.holdsRegistry) ∧
      (s'.threads u).currUt = (s.threads u).currUt)
    (hut : s'.userThreads = s.userThreads) (hheap : ∀ p, (s.heap p).isSome → (s'.heap p).isSome)
    (hnp : s'.nextPtr = s.nextPtr) (hlock : s'.userThreadsLock = s.userThreadsLock)
    (hagent : s'.agent.broadcasting → s'.agent = s.agent) : Inv s' :=
  hi.relock (fun u => ⟨(hth u).1, (hth u).2.2⟩) hut hheap hnp
    (fun h => hlock ▸ hi.lockAgent (hagent h ▸ h))
    (fun t h => hlock ▸ hi.lockThread t ((hth t).2.1.mp h))
    (fun r ps h => hut ▸ hi.snapshot r ps ((hagent (h ▸ trivial)).symm.trans h))

theorem Inv.same (hi : Inv s) (hth : s'.threads = s.threads) (hut : s'.userThreads = s.userThreads)
    (hheap : s'.heap = s.heap) (hnp : s'.nextPtr = s.nextPtr)
    (hlock : s'.userThreadsLock = s.userThreadsLock) (hagent : s'.agent = s.agent) : Inv s' :=
  hi.of_frame (fun u => by rw [hth]; exact ⟨rfl, Iff.rfl, rfl⟩) hut (fun p => by rw [hheap]; exact id)
    hnp hlock (fun _ => hagent)

theorem setMain_apply (s : Sys) (t u : Nat) (m : MainPc) :
    (s.setMain t m).threads u = if u = t then { s.threads t with main := m } else s.threads u := by
  by_cases hu : u = t
  · subst hu; simp
  · simp [hu]

theorem Inv.setThread (hi : Inv s) {th : Thread} (hcur : th.currUt = (s.threads t).currUt)
    (hfact : phaseFact s th.main.utPhase th.currUt)
    (hhold : th.main.holdsRegistry ↔ (s.threads t).main.holdsRegistry) :
    Inv (s.setThread t th) := by
  have hsame : ∀ u, ((s.setThread t th).threads u).currUt = (s.threads u).currUt := fun u => by
    rw [setThread_threads, Function.update_apply]; split
    · next hu => rw [hu, hcur]
    · rfl
  constructor <;> (try simp only [setThread_heap, setThread_nextPtr, setThread_userThreads,
    setThread_userThreadsLock, setThread_agent])
  case nodup => exact hi.nodup
  case live => exact hi.live
  case bound => exact hi.bound
  case fresh => exact fun u p h => hi.fresh u p (hsame u ▸ h)
  case unique => exact fun u v p h h' => hi.unique u v p (hsame u ▸ h) (hsame v ▸ h')
  case thread =>
    intro u
    rw [setThread_threads, Function.update_apply]; split
    · exact hfact
    · exact hi.thread u
  case lockAgent => exact hi.lockAgent
  case lockThread =>
    intro u h
    rw [setThread_threads, Function.update_apply] at h; split at h
    · next hu => rw [hu]; exact hi.lockThread t (hhold.mp h)
    · exact hi.lockThread u h
  case snapshot => exact hi.snapshot

theorem Inv.setMain (hi : Inv s) {m m' : MainPc} (hm : (s.threads t).main = m)
    (hph : m'.utPhase = m.utPhase) (hhold : m'.holdsRegistry ↔ m.holdsRegistry) :
    Inv (s.setMain t m') :=
  hi.setThread rfl (by rw [hph, ← hm]; exact hi.thread t) (by rw [hm]; exact hhold)

theorem Inv.setRecord (hi : Inv s) (p : Nat) (ut : UserThread) : Inv (s.setRecord p ut) :=
  hi.of_frame (fun _ => ⟨rfl, Iff.rfl, rfl⟩) rfl
    (fun q h => by rw [setRecord_heap, Function.update_apply]; split <;> simp [h]) rfl rfl
    (fun _ => rfl)

theorem Inv.setHandler (hi : Inv s) (h : Option HandlerPc) : Inv (s.setHandler t h) :=
  hi.setThread rfl (hi.thread t) Iff.rfl

theorem Inv.acquire (hi : Inv s) {m m' : MainPc} (hm : (s.threads t).main = m)
    (hl : s.userThreadsLock = none) (hph : m'.utPhase = m.utPhase) :
    Inv ({ s with userThreadsLock := some (.thread t) }.setMain t m') := by
  have hfree := hi.free hl
  refine hi.relock (fun u => ?_) rfl (fun _ => id) rfl (fun h => absurd h hfree.1) (fun u h => ?_)
    (fun r ps h => absurd (h ▸ trivial) hfree.1)
  · rw [setMain_apply]; split
    · next hu => subst hu; rw [hm]; exact ⟨hph, rfl⟩
    · exact ⟨rfl, rfl⟩
  · rw [setMain_apply] at h; split at h
    · next hu => rw [hu]; rfl
    · exact absurd h (hfree.2 u)

theorem Inv.release (hi : Inv s) {m m' : MainPc} (hm : (s.threads t).main = m)
    (hhold : m.holdsRegistry) (hph : m'.utPhase = m.utPhase) (hhold' : ¬m'.holdsRegistry) :
    Inv ({ s with userThreadsLock := none }.setMain t m') := by
  have hl := hi.lockThread t (hm ▸ hhold)
  refine hi.relock (fun u => ?_) rfl (fun _ => id) rfl
    (fun h => by simp [hi.lockAgent h] at hl) (fun u h => ?_)
    (fun r ps h => by simp [hi.lockAgent (h ▸ trivial)] at hl)
  · rw [setMain_apply]; split
    · next hu => subst hu; rw [hm]; exact ⟨hph, rfl⟩
    · exact ⟨rfl, rfl⟩
  · rw [setMain_apply] at h; split at h
    · exact absurd h hhold'
    · next hu => simp [hi.lockThread u h] at hl; exact absurd hl hu

theorem Inv.alloc (hi : Inv s) :
    Inv ({ s with
      heap := Function.update s.heap s.nextPtr (some ⟨t, s.globalDelay, 0, 0⟩)
      nextPtr := s.nextPtr + 1 }.setThread t
        { s.threads t with currUt := some s.nextPtr, main := .addLock }) := by
  have hnew : s.nextPtr ∉ s.userThreads := fun h => by simpa using hi.bound _ h
  have hold : ∀ u q, (s.threads u).currUt = some q → q ≠ s.nextPtr :=
    fun u q h e => by simpa [e] using hi.fresh u q h
  constructor <;> simp only [setThread_heap, setThread_nextPtr, setThread_userThreads,
    setThread_userThreadsLock, setThread_agent, setThread_threads, Function.update_apply]
  case nodup => exact hi.nodup
  case live =>
    intro p hp
    rw [if_neg (fun (e : p = s.nextPtr) => hnew (e ▸ hp))]
    exact hi.live p hp
  case bound => exact fun p hp => Nat.lt_succ_of_lt (hi.bound p hp)
  case fresh =>
    intro u p h
    split at h
    · cases h; exact Nat.lt_succ_self _
    · exact Nat.lt_succ_of_lt (hi.fresh u p h)
  case unique =>
    intro u v p h h'
    split at h <;> split at h'
    · next hu hv => rw [hu, hv]
    · cases h; exact absurd rfl (hold v _ h')
    · cases h'; exact absurd rfl (hold u _ h)
    · exact hi.unique u v p h h'
  case thread =>
    intro u
    split
    · exact ⟨s.nextPtr, rfl, by simp, hnew⟩
    · refine phaseFact_transfer (hi.thread u) fun q hq => ⟨fun h => ?_, Iff.rfl⟩
      simpa [Function.update_apply, hold u q hq] using h
  case lockAgent => exact hi.lockAgent
  case lockThread =>
    intro u h
    split at h
    · exact absurd h id
    · exact hi.lockThread u h
  case snapshot => exact hi.snapshot

theorem Inv.insert (hi : Inv s) (hm : (s.threads t).main = .addInsert) :
    Inv ({ s with
      userThreads := s.userThreads ++ (s.threads t).currUt.toList }.setMain t .addUnlock) := by
  have hl := hi.lockThread t (hm ▸ trivial)
  have hb : ¬s.agent.broadcasting := fun h => by simp [hi.lockAgent h] at hl
  have ht := hi.thread t
  rw [hm] at ht
  obtain ⟨p, hp, hlive, hnot⟩ := ht
  have hother : ∀ u q, u ≠ t → (s.threads u).currUt = some q → q ≠ p :=
    fun u q hu hq e => hu (hi.unique u t q hq (e ▸ hp))
  constructor <;> simp only [Sys.setMain, setThread_heap, setThread_nextPtr, setThread_userThreads,
    setThread_userThreadsLock, setThread_agent, setThread_threads, Function.update_apply, hp,
    Option.toList_some]
  case nodup => exact hi.nodup.append (List.nodup_singleton p) (by simpa using hnot)
  case live =>
    intro q hq
    rcases List.mem_append.mp hq with hq | hq
    · exact hi.live q hq
    · rw [List.mem_singleton.mp hq]; exact hlive
  case bound =>
    intro q hq
    rcases List.mem_append.mp hq with hq | hq
    · exact hi.bound q hq
    · rw [List.mem_singleton.mp hq]; exact hi.fresh t p hp
  case fresh =>
    intro u q h
    split at h
    · obtain rfl : p = q := Option.some.inj h; exact hi.fresh t p hp
    · exact hi.fresh u q h
  case unique =>
    intro u v q h h'
    split at h <;> split at h'
    · next hu hv => rw [hu, hv]
    · next hu hv => obtain rfl : p = q := Option.some.inj h; exact absurd rfl (hother v p hv h')
    · next hu hv => obtain rfl : p = q := Option.some.inj h'; exact absurd rfl (hother u p hu h)
    · exact hi.unique u v q h h'
  case thread =>
    intro u
    split
    · intro q hq
      obtain rfl : p = q := Option.some.inj hq
      exact ⟨hlive, by simp⟩
    · next hu =>
      refine phaseFact_transfer (hi.thread u) fun q hq => ⟨id, ?_⟩
      simp [hother u q hu hq]
  case lockAgent => exact fun h => absurd h hb
  case lockThread =>
    intro u h
    split at h
    · next hu => rw [hu]; exact hl
    · exact hi.lockThread u h
  case snapshot => exact fun r ps h => absurd (h ▸ trivial) hb

theorem Inv.erase (hi : Inv s) (hm : (s.threads t).main = .rmErase) :
    Inv ({ s with
      userThreads := match (s.threads t).currUt with
        | some p => s.userThreads.erase p
        | none => s.userThreads }.setMain t .rmUnlock) := by
  have hl := hi.lockThread t (hm ▸ trivial)
  have hb : ¬s.agent.broadcasting := fun h => by simp [hi.lockAgent h] at hl
  have ht := hi.thread t
  rw [hm] at ht
  obtain ⟨p, hp, hlive, hin⟩ := ht
  have hother : ∀ u q, u ≠ t → (s.threads u).currUt = some q → q ≠ p :=
    fun u q hu hq e => hu (hi.unique u t q hq (e ▸ hp))
  constructor <;> simp only [Sys.setMain, setThread_heap, setThread_nextPtr, setThread_userThreads,
    setThread_userThreadsLock, setThread_agent, setThread_threads, Function.update_apply, hp]
  case nodup => exact hi.nodup.erase p
  case live => exact fun q hq => hi.live q (List.mem_of_mem_erase hq)
  case bound => exact fun q hq => hi.bound q (List.mem_of_mem_erase hq)
  case fresh =>
    intro u q h
    split at h
    · obtain rfl : p = q := Option.some.inj h; exact hi.fresh t p hp
    · exact hi.fresh u q h
  case unique =>
    intro u v q h h'
    split at h <;> split at h'
    · next hu hv => rw [hu, hv]
    · next hu hv => obtain rfl : p = q := Option.some.inj h; exact absurd rfl (hother v p hv h')
    · next hu hv => obtain rfl : p = q := Option.some.inj h'; exact absurd rfl (hother u p hu h)
    · exact hi.unique u v q h h'
  case thread =>
    intro u
    split
    · exact ⟨p, rfl, hlive, hi.nodup.not_mem_erase⟩
    · next hu =>
      refine phaseFact_transfer (hi.thread u) fun q hq => ⟨id, ?_⟩
      exact List.mem_erase_of_ne (hother u q hu hq)
  case lockAgent => exact fun h => absurd h hb
  case lockThread =>
    intro u h
    split at h
    · next hu => rw [hu]; exact hl
    · exact hi.lockThread u h
  case snapshot => exact fun r ps h => absurd (h ▸ trivial) hb

theorem Inv.delete (hi : Inv s) (hm : (s.threads t).main = .rmDelete) :
    Inv ({ s with
      heap := match (s.threads t).currUt with
        | some p => Function.update s.heap p none
        | none => s.heap }.setMain t .exiting) := by
  have ht := hi.thread t
  rw [hm] at ht
  obtain ⟨p, hp, -, hout⟩ := ht
  have hother : ∀ u q, u ≠ t → (s.threads u).currUt = some q → q ≠ p :=
    fun u q hu hq e => hu (hi.unique u t q hq (e ▸ hp))
  constructor <;> simp only [Sys.setMain, setThread_heap, setThread_nextPtr, setThread_userThreads,
    setThread_userThreadsLock, setThread_agent, setThread_threads, Function.update_apply, hp]
  case nodup => exact hi.nodup
  case live =>
    intro q hq
    rw [if_neg (fun (e : q = p) => hout (e ▸ hq))]
    exact hi.live q hq
  case bound => exact hi.bound
  case fresh =>
    intro u q h
    split at h
    · obtain rfl : p = q := Option.some.inj h; exact hi.fresh t p hp
    · exact hi.fresh u q h
  case unique =>
    intro u v q h h'
    split at h <;> split at h'
    · next hu hv => rw [hu, hv]
    · next hu hv => obtain rfl : p = q := Option.some.inj h; exact absurd rfl (hother v p hv h')
    · next hu hv => obtain rfl : p = q := Option.some.inj h'; exact absurd rfl (hother u p hu h)
    · exact hi.unique u v q h h'
  case thread =>
    intro u
    split
    · intro q hq
      obtain rfl : p = q := Option.some.inj hq
      exact hout
    · next hu =>
      refine phaseFact_transfer (hi.thread u) fun q hq => ⟨fun h => ?_, Iff.rfl⟩
      simpa [hother u q hu hq] using h
  case lockAgent => exact hi.lockAgent
  case lockThread =>
    intro u h
    split at h
    · exact absurd h id
    · exact hi.lockThread u h
  case snapshot => exact hi.snapshot

theorem Inv.threadMain_step (hi : Inv s) (h : threadMain c s t (s.threads t).main = some s') :
    Inv s' := by
  generalize hm : (s.threads t).main = m at h
  have frame : ∀ {s₀ : Sys} {m' : MainPc}, s₀.threads = s.threads → s₀.userThreads = s.userThreads →
      s₀.heap = s.heap → s₀.nextPtr = s.nextPtr → s₀.userThreadsLock = s.userThreadsLock →
      s₀.agent = s.agent → m'.utPhase = m.utPhase → (m'.holdsRegistry ↔ m.holdsRegistry) →
      Inv (s₀.setMain t m') := fun h1 h2 h3 h4 h5 h6 hph hhold =>
    (hi.same h1 h2 h3 h4 h5 h6).setMain (h1 ▸ hm) hph hhold
  cases m <;> simp only [threadMain] at h
  case addAlloc => obtain ⟨rfl⟩ := h; exact hi.alloc
  case addLock =>
    split at h
    · obtain ⟨rfl⟩ := h; exact hi.acquire hm ‹_› rfl
    · cases h
  case addInsert => obtain ⟨rfl⟩ := h; exact hi.insert hm
  case addUnlock => obtain ⟨rfl⟩ := h; exact hi.release hm trivial rfl id
  case prepare =>
    obtain ⟨rfl⟩ := h
    split <;> (try split) <;> exact hi.setMain hm rfl Iff.rfl
  case scopeLock =>
    split at h
    · obtain ⟨rfl⟩ := h; exact frame rfl rfl rfl rfl rfl rfl rfl Iff.rfl
    · cases h
  case rmLock =>
    split at h
    · obtain ⟨rfl⟩ := h; exact hi.acquire hm ‹_› rfl
    · cases h
  case rmErase => obtain ⟨rfl⟩ := h; exact hi.erase hm
  case rmUnlock => obtain ⟨rfl⟩ := h; exact hi.release hm trivial rfl id
  case rmDelete => obtain ⟨rfl⟩ := h; exact hi.delete hm
  all_goals
    (try obtain ⟨rfl⟩ := h) <;>
    (try rcases withRecord_cases s t _ with ⟨hw, -⟩ | ⟨p, ut, -, hw⟩ <;> rw [hw]) <;>
    (try split) <;>
    first
    | exact frame rfl rfl rfl rfl rfl rfl rfl Iff.rfl
    | exact (hi.setRecord _ _).setMain hm rfl Iff.rfl
    | exact hi.same rfl rfl rfl rfl rfl rfl

theorem Inv.handle_step (hi : Inv s) {sl : Nat} {hp : HandlerPc}
    (h : handle c s t sl hp = some s') : Inv s' := by
  cases hp <;> simp only [handle] at h <;> (try split at h) <;> (try split at h) <;>
    (try obtain ⟨rfl⟩ := h) <;>
    (try rcases withRecord_cases s t _ with ⟨hw, -⟩ | ⟨p, ut, -, hw⟩ <;> rw [hw]) <;>
    (try split) <;>
    first
    | (refine Inv.setHandler ?_ _; exact hi.same rfl rfl rfl rfl rfl rfl)
    | exact Inv.setHandler (hi.setRecord _ _) _
    | exact hi.same rfl rfl rfl rfl rfl rfl
    | (refine Inv.setHandler (Inv.setRecord ?_ _ _) _; exact hi.same rfl rfl rfl rfl rfl rfl)

theorem Inv.broadcastLock (hi : Inv s) (hl : s.userThreadsLock = none) (r : SigReturn) :
    Inv { s with userThreadsLock := some .agent, agent := .sigKill r s.userThreads } :=
  hi.relock (fun _ => ⟨rfl, rfl⟩) rfl (fun _ => id) rfl (fun _ => rfl)
    (fun u h => absurd h ((hi.free hl).2 u)) (fun _ _ h => by cases h; exact fun _ => id)

theorem Inv.broadcast_live (hi : Inv s) {r : SigReturn} {p : Nat} {ps : List Nat}
    (ha : s.agent = .sigKill r (p :: ps)) : (s.heap p).isSome :=
  hi.live p (hi.snapshot r _ ha p (List.mem_cons_self p ps))

theorem Inv.broadcastKill (hi : Inv s) {r : SigReturn} {p : Nat} {ps : List Nat}
    (ha : s.agent = .sigKill r (p :: ps)) (v : Nat) : Inv { s with
      threads := Function.update s.threads v { s.threads v with pending := true }
      agent := .sigKill r ps } :=
  have hth : ∀ u, (Function.update s.threads v { s.threads v with pending := true } u).main =
      (s.threads u).main ∧
      (Function.update s.threads v { s.threads v with pending := true } u).currUt =
      (s.threads u).currUt := fun u => by
    by_cases hu : u = v
    · subst hu; simp
    · simp [Function.update_noteq hu]
  hi.relock (fun u => ⟨congrArg MainPc.utPhase (hth u).1, (hth u).2⟩) rfl (fun _ => id) rfl
    (fun _ => hi.lockAgent (ha ▸ trivial))
    (fun u h => hi.lockThread u ((hth u).1 ▸ h))
    (fun _ _ h q hq => by cases h; exact hi.snapshot r _ ha q (List.mem_cons_of_mem p hq))

theorem Inv.broadcastUnlock (hi : Inv s) {r : SigReturn} (ha : s.agent = .sigKill r []) :
    Inv { s with userThreadsLock := none, agent := r.resume } := by
  have hl := hi.lockAgent (ha ▸ trivial)
  have hres : ¬r.resume.broadcasting := by cases r <;> exact id
  exact hi.relock (fun _ => ⟨rfl, rfl⟩) rfl (fun _ => id) rfl (fun h => absurd h hres)
    (fun u h => by simp [hi.lockThread u h] at hl) (fun _ _ h => by cases r <;> cases h)

theorem Inv.agent_step (hi : Inv s) {i : AgentInput} (h : runAgentThread c s i = some s') :
    Inv s' := by
  have outside : ¬s'.agent.broadcasting → s'.threads = s.threads → s'.heap = s.heap →
      s'.userThreads = s.userThreads → s'.nextPtr = s.nextPtr →
      s'.userThreadsLock = s.userThreadsLock → Inv s' := fun hb hth hheap hut hnp hl =>
    hi.of_frame (fun _ => by rw [hth]; exact ⟨rfl, Iff.rfl, rfl⟩) hut (fun p => by rw [hheap]; exact id)
      hnp hl fun h => absurd h hb
  cases agentMove h <;> subst_vars
  case sigLock hl => exact hi.broadcastLock hl _
  case sigKill ha _ => exact hi.broadcastKill ha _
  case sigFault => exact hi.same rfl rfl rfl rfl rfl rfl
  case sigUnlock ha => exact hi.broadcastUnlock ha
  case own ha' _ => exact outside (AgentPc.own_broadcasting ha') rfl rfl rfl rfl rfl
  all_goals exact outside id rfl rfl rfl rfl rfl

theorem Inv.stop_step (hi : Inv s) (h : Callbacks.stop c s = some s') : Inv s' := by
  unfold Callbacks.stop at h
  split at h <;> (try split at h) <;> obtain ⟨rfl⟩ := h <;> exact hi.same rfl rfl rfl rfl rfl rfl

theorem Inv.step (hi : Inv s) {e : Event} (h : System.step c s e = some s') : Inv s' := by
  unfold System.step at h
  split at h
  · cases h
  cases e <;> simp only at h
  case agent i => exact hi.agent_step h
  case step t sl =>
    split at h
    · exact hi.handle_step h
    · exact hi.threadMain_step h
  case start t b =>
    obtain ⟨hm, rfl⟩ := addUserThread_eq h
    have hnone : (s.threads t).currUt = none := by simpa [hm] using hi.thread t
    split
    · exact hi.setMain hm rfl Iff.rfl
    · exact hi.setThread hnone.symm (fun p h => nomatch h) (by rw [hm]; exact Iff.rfl)
  case breakpoint t =>
    obtain ⟨-, -, rfl⟩ := handleBreakpoint_eq h
    rcases withRecord_cases s t _ with ⟨hw, -⟩ | ⟨p, ut, -, hw⟩ <;> rw [hw]
    · exact hi.same rfl rfl rfl rfl rfl rfl
    · exact hi.setRecord _ _
  case classPrepare t ms b b' =>
    obtain ⟨hidle, rfl⟩ := classPrepare_eq h
    exact hi.setMain (idle_iff.1 hidle).1 rfl Iff.rfl
  case threadEnd t =>
    obtain ⟨hidle, rfl⟩ := removeUserThread_eq h
    have hm := (idle_iff.1 hidle).1
    have hlisted : ∀ p, (s.threads t).currUt = some p → (s.heap p).isSome ∧ p ∈ s.userThreads := by
      simpa [hm] using hi.thread t
    split
    · next hsome =>
      obtain ⟨p, hp⟩ := Option.isSome_iff_exists.mp hsome
      exact hi.setThread rfl ⟨p, hp, hlisted p hp⟩ (by rw [hm]; exact Iff.rfl)
    · next hnone =>
      refine hi.setThread rfl (fun p hp => ?_) (by rw [hm]; exact Iff.rfl)
      simp [show (s.threads t).currUt = some p from hp] at hnone
  case deliver t fs =>
    obtain ⟨-, -, rfl⟩ := deliver_eq h
    exact hi.setThread rfl (hi.thread t) Iff.rfl
  case stop => exact hi.stop_step h
  case tick d => obtain ⟨rfl⟩ := h; exact hi.same rfl rfl rfl rfl rfl rfl

theorem inv_reachable (hr : Reachable c s) : Inv s := by
  induction hr with
  | init => exact inv_init
  | step e _ h ih => exact ih.step h

theorem Inv.record_live (hi : Inv s) (hm : (s.threads t).main.utPhase = .removing) :
    (s.record t).isSome := by
  have ht := hi.thread t
  rw [hm] at ht
  obtain ⟨p, hp, hl, -⟩ := ht
  simpa [Sys.record, hp] using hl

theorem Inv.agent_fault (hi : Inv s) {i : AgentInput} (h : runAgentThread c s i = some s') :
    s'.fault = s.fault := by
  cases agentMove h <;> subst_vars
  case sigFault ha hp => exact absurd (hi.broadcast_live ha) (by simp [hp])
  all_goals rfl

theorem Inv.threadMain_fault (hi : Inv s) (h : threadMain c s t (s.threads t).main = some s') :
    s'.fault = s.fault := by
  generalize hm : (s.threads t).main = m at h
  cases m <;> simp only [threadMain] at h <;> (try split at h) <;> (try split at h) <;>
    (try obtain ⟨rfl⟩ := h) <;>
    (try rcases withRecord_cases s t _ with ⟨hw, hn⟩ | ⟨p, ut, -, hw⟩ <;> rw [hw]) <;> (try rfl)
  all_goals exact absurd (hi.record_live (by rw [hm]; rfl)) (by simp [hn])

/-- In every reachable state `user_threads` holds distinct live records, and neither the
profiler thread (whose broadcast walks the registry) nor a thread's own code (whose
`removeUserThread` reads its record) ever faults. -/
theorem registry_safe (hr : Reachable c s) :
    s.userThreads.Nodup ∧ (∀ p ∈ s.userThreads, (s.heap p).isSome) ∧
    (∀ i s', runAgentThread c s i = some s' → s'.fault = s.fault) ∧
    (∀ t s', threadMain c s t (s.threads t).main = some s' → s'.fault = s.fault) :=
  have hi := inv_reachable hr
  ⟨hi.nodup, hi.live, fun _ _ h => hi.agent_fault h, fun _ _ h => hi.threadMain_fault h⟩

def twoThreads : List Event := register 1 ++ register 2

theorem registry_safe_at_twoThreads :
    ∃ s, run sampleConfig (init sampleConfig) twoThreads = some s ∧ s.userThreads = [1, 2] ∧
      Reachable sampleConfig s ∧
      (s.userThreads.Nodup ∧ (∀ p ∈ s.userThreads, (s.heap p).isSome) ∧
        (∀ i s', runAgentThread sampleConfig s i = some s' → s'.fault = s.fault) ∧
        (∀ t s', threadMain sampleConfig s t (s.threads t).main = some s' → s'.fault = s.fault)) := by
  obtain ⟨s, hs, hut⟩ := Option.map_eq_some'.mp
    (show (run sampleConfig (init sampleConfig) twoThreads).map (·.userThreads) = some [1, 2] by decide)
  have hr : Reachable sampleConfig s := Reachable.init.run twoThreads hs
  exact ⟨s, hs, hut, hr, registry_safe hr⟩

/-- `user_threads_lock` excludes: the broadcast never overlaps a thread's insert or erase,
and no two threads insert or erase at once. -/
theorem registry_exclusive (hr : Reachable c s) :
    (∀ t, s.agent.broadcasting → ¬(s.threads t).main.holdsRegistry) ∧
    (∀ t u, (s.threads t).main.holdsRegistry → (s.threads u).main.holdsRegistry → t = u) := by
  have hi := inv_reachable hr
  refine ⟨fun t hb ht => ?_, fun t u ht hu => ?_⟩
  · simpa using (hi.lockAgent hb).symm.trans (hi.lockThread t ht)
  · simpa using (hi.lockThread t ht).symm.trans (hi.lockThread u hu)

def insertHeld : List Event := [.start 1 true, .step 1 0, .step 1 0]

theorem registry_exclusive_at_insertHeld :
    ∃ s, run sampleConfig (init sampleConfig) insertHeld = some s ∧
      s.userThreadsLock = some (.thread 1) ∧ Reachable sampleConfig s ∧
      ((∀ t, s.agent.broadcasting → ¬(s.threads t).main.holdsRegistry) ∧
        (∀ t u, (s.threads t).main.holdsRegistry → (s.threads u).main.holdsRegistry → t = u)) := by
  obtain ⟨s, hs, hl⟩ := Option.map_eq_some'.mp (show (run sampleConfig (init sampleConfig)
    insertHeld).map (·.userThreadsLock) = some (some (.thread 1)) by decide)
  have hr : Reachable sampleConfig s := Reachable.init.run insertHeld hs
  exact ⟨s, hs, hl, hr, registry_exclusive hr⟩

end JCoz.Registry
