import JCoz.System
import Mathlib.Order.Defs.Unbundled

/-! The sort and `std::unique` of `runAgentThread`'s candidates; `std::sort` is taken by its
contract. -/
namespace JCoz.FrameOrder
open State Agent System

def frameLt (lhs rhs : CallFrame) : Bool :=
  if lhs.methodId = rhs.methodId then lhs.lineno < rhs.lineno else lhs.methodId < rhs.methodId

def frameEq (lhs rhs : CallFrame) : Bool := lhs.methodId == rhs.methodId && lhs.lineno == rhs.lineno

/-- `std::unique` past its first element: `result` is the last frame kept, and a frame is kept
when `operator==` tells it apart from that one. -/
def uniqueFrom (result : CallFrame) : List CallFrame → List CallFrame
  | [] => []
  | f :: fs => if frameEq result f then uniqueFrom result fs else f :: uniqueFrom f fs

def unique : List CallFrame → List CallFrame
  | [] => []
  | f :: fs => f :: uniqueFrom f fs

/-- What `std::sort(call_frames.begin(), call_frames.end())` guarantees: `out` is a permutation
of `frames` and no frame of it compares below one before it. -/
structure SortOutput (frames out : List CallFrame) : Prop where
  perm : out.Perm frames
  sorted : out.Pairwise fun a b => frameLt b a = false

theorem frameEq_iff {a b : CallFrame} : frameEq a b = true ↔ a = b := by
  cases a; cases b; simp [frameEq]

theorem frameLt_iff {a b : CallFrame} :
    frameLt a b = true ↔ a.methodId < b.methodId ∨ a.methodId = b.methodId ∧ a.lineno < b.lineno := by
  unfold frameLt
  split <;> simp [*]

theorem frameLt_irrefl (a : CallFrame) : frameLt a a = false := by simp [frameLt]

theorem frameLt_trans {a b c : CallFrame} (hab : frameLt a b = true) (hbc : frameLt b c = true) :
    frameLt a c = true := by
  rw [frameLt_iff] at *; omega

theorem frameLt_incomparable {a b : CallFrame} :
    frameLt a b = false ∧ frameLt b a = false ↔ frameEq a b = true := by
  obtain ⟨m, l⟩ := a; obtain ⟨m', l'⟩ := b
  simp only [Bool.eq_false_iff, ne_eq, frameLt_iff, frameEq_iff, CallFrame.mk.injEq]
  omega

theorem frameLt_isStrictWeakOrder : IsStrictWeakOrder CallFrame fun a b => frameLt a b = true where
  irrefl a := by simp [frameLt_irrefl]
  trans _ _ _ := frameLt_trans
  incomp_trans a b c hab hbc := by
    simp only [Bool.not_eq_true, frameLt_incomparable, frameEq_iff] at *
    exact hab.trans hbc

theorem mem_uniqueFrom {r f : CallFrame} {fs : List CallFrame} :
    f ∈ r :: uniqueFrom r fs ↔ f ∈ r :: fs := by
  induction fs generalizing r with
  | nil => rfl
  | cons g fs ih =>
    rw [uniqueFrom]
    split
    · next h =>
      rw [frameEq_iff] at h
      subst h
      simp only [List.mem_cons, or_self_left] at ih ⊢
      exact ih
    · simp only [List.mem_cons] at ih ⊢
      rw [ih]

theorem mem_unique {f : CallFrame} {l : List CallFrame} : f ∈ unique l ↔ f ∈ l := by
  cases l with
  | nil => rfl
  | cons r fs => exact mem_uniqueFrom

theorem pairwise_uniqueFrom {r : CallFrame} {fs : List CallFrame}
    (h : (r :: fs).Pairwise fun a b => frameLt b a = false) :
    (r :: uniqueFrom r fs).Pairwise fun a b => frameLt a b = true := by
  induction fs generalizing r with
  | nil => exact List.pairwise_singleton _ r
  | cons g fs ih =>
    rw [uniqueFrom]
    split
    · exact ih (h.sublist ((List.sublist_cons_self g fs).cons₂ r))
    · next hne =>
      have hgr : frameLt g r = false := List.rel_of_pairwise_cons h (List.mem_cons_self g fs)
      have hrg : frameLt r g = true := by
        by_contra hrg
        exact hne (frameLt_incomparable.1 ⟨Bool.eq_false_iff.2 hrg, hgr⟩)
      have ih' := ih h.of_cons
      refine List.pairwise_cons.2 ⟨fun x hx => ?_, ih'⟩
      rcases List.mem_cons.1 hx with rfl | hx
      · exact hrg
      · exact frameLt_trans hrg (List.rel_of_pairwise_cons ih' hx)

theorem nodup_unique {l : List CallFrame} (h : l.Pairwise fun a b => frameLt b a = false) :
    (unique l).Nodup := by
  cases l with
  | nil => exact List.nodup_nil
  | cons r fs =>
    exact (pairwise_uniqueFrom h).imp fun hlt heq => by rw [heq, frameLt_irrefl] at hlt; cases hlt

theorem count_unique {frames out : List CallFrame} (h : SortOutput frames out) (f : CallFrame) :
    (unique out).count f = if f ∈ frames then 1 else 0 := by
  split
  · next hf => exact List.count_eq_one_of_mem (nodup_unique h.sorted) (mem_unique.2 (h.perm.mem_iff.2 hf))
  · next hf => exact List.count_eq_zero_of_not_mem fun hm => hf (h.perm.mem_iff.1 (mem_unique.1 hm))

theorem sort_unique_keeps_each_frame_once :
    IsStrictWeakOrder CallFrame (fun a b => frameLt a b = true) ∧
    (∀ a b, frameLt a b = false ∧ frameLt b a = false ↔ frameEq a b = true) ∧
    ∀ frames out, SortOutput frames out →
      ∀ f, (unique out).count f = if f ∈ frames then 1 else 0 :=
  ⟨frameLt_isStrictWeakOrder, fun _ _ => frameLt_incomparable, fun _ _ h => count_unique h⟩

theorem sortOutput_mergeSort (frames : List CallFrame) :
    SortOutput frames (frames.mergeSort fun a b => !frameLt b a) where
  perm := List.mergeSort_perm _ _
  sorted := by
    refine (List.sorted_mergeSort (fun a b c hab hbc => ?_) (fun a b => ?_) frames).imp (by simp)
    · simp only [Bool.not_eq_true', Bool.not_eq_eq_eq_not, Bool.not_true, Bool.eq_false_iff,
        ne_eq, frameLt_iff] at *
      omega
    · simp only [Bool.or_eq_true, Bool.not_eq_true', Bool.eq_false_iff, ne_eq, frameLt_iff]
      omega

theorem unique_perm_dedup {frames out : List CallFrame} (h : SortOutput frames out) :
    (unique out).Perm frames.dedup :=
  (List.perm_ext_iff_of_nodup (nodup_unique h.sorted) (List.nodup_dedup frames)).2 fun f => by
    rw [mem_unique, List.mem_dedup, h.perm.mem_iff]

/-- The agent's `resolve` step accepts exactly the shuffles of what the sort and `std::unique`
leave: its `dedup` stands for the code's sort, unique and erase. -/
theorem resolve_accepts_shuffles (c : Config) (s : Sys) (i : AgentInput) (ha : s.agent = .resolve)
    {out : List CallFrame} (h : SortOutput s.callFrames out) :
    (runAgentThread c s i).isSome = true ↔ i.order.Perm (unique out) := by
  have hp := unique_perm_dedup h
  simp only [runAgentThread, ha]
  split
  · next ho => split <;> simp [ho.trans hp.symm]
  · next ho => simpa using fun hu => ho (hu.trans hp)

theorem resolve_accepts_shuffles_at_repeated :
    ({ init sampleConfig with agent := .resolve, callFrames := [⟨7, 3⟩, ⟨2, 1⟩, ⟨7, 3⟩] } : Sys).agent =
      .resolve ∧
    SortOutput [⟨7, 3⟩, ⟨2, 1⟩, ⟨7, 3⟩] [⟨2, 1⟩, ⟨7, 3⟩, ⟨7, 3⟩] ∧
    ((runAgentThread sampleConfig
        { init sampleConfig with agent := .resolve, callFrames := [⟨7, 3⟩, ⟨2, 1⟩, ⟨7, 3⟩] }
        { order := [⟨7, 3⟩, ⟨2, 1⟩] }).isSome = true ↔
      ([⟨7, 3⟩, ⟨2, 1⟩] : List CallFrame).Perm (unique [⟨2, 1⟩, ⟨7, 3⟩, ⟨7, 3⟩])) :=
  have h : SortOutput [⟨7, 3⟩, ⟨2, 1⟩, ⟨7, 3⟩] [⟨2, 1⟩, ⟨7, 3⟩, ⟨7, 3⟩] := ⟨by decide, by decide⟩
  ⟨rfl, h, resolve_accepts_shuffles _ _ _ rfl h⟩

end JCoz.FrameOrder
