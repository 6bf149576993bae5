import JCoz.Basic
import Mathlib.Data.List.Sort

/-! The target line and bytecode ranges `runAgentThread` derives from a line-number table, and
`Profiler::inExperiment`. -/
namespace JCoz.LineTable

/-- The line-lookup loop: the first `i ≥ 1` with `i == num_entries` or
`entries[i].start_location > bci` sets `lineno` to `entries[i - 1].line_number`.
An empty table runs no iteration and sets nothing. -/
def lookupLine (bci : Int) : List LineEntry → Option Int
  | [] => none
  | [e] => some e.lineNumber
  | e :: e' :: es => if bci < e'.startLocation then some e.lineNumber else lookupLine bci (e' :: es)

/-- The range-collection loop: an entry on `lineno` contributes `[start, next entry's start)`,
the last entry `[start, MAX_BCI + 1)`. -/
def locationRanges (lineno : Int) : List LineEntry → List (Int × Int)
  | [] => []
  | [e] => if e.lineNumber = lineno then [(e.startLocation, maxBci + 1)] else []
  | e :: e' :: es =>
    (if e.lineNumber = lineno then [(e.startLocation, e'.startLocation)] else []) ++
      locationRanges lineno (e' :: es)

structure Target where
  methodId : Nat
  bci : Int
  lineno : Int
  ranges : List (Int × Int)
  deriving DecidableEq, Repr

def selectTarget (f : CallFrame) (table : List LineEntry) (oldLineno : Int) : Target :=
  let lineno := (lookupLine f.lineno table).getD oldLineno
  ⟨f.methodId, f.lineno, lineno, locationRanges lineno table⟩

/-- `Profiler::inExperiment`: the frame's method is the target's and its index lies in one of
the half-open ranges. -/
def inExperiment (t : Target) (f : CallFrame) : Bool :=
  f.methodId == t.methodId && t.ranges.any fun r => decide (r.1 ≤ f.lineno) && decide (f.lineno < r.2)

def bestEntry (x : Int) : List LineEntry → Option LineEntry
  | [] => none
  | e :: es =>
    match bestEntry x es with
    | some b => if e.startLocation ≤ x ∧ b.startLocation < e.startLocation then some e else some b
    | none => if e.startLocation ≤ x then some e else none

def lineOf (x : Int) (table : List LineEntry) : Option Int := (bestEntry x table).map (·.lineNumber)

abbrev Sorted (table : List LineEntry) : Prop :=
  table.Sorted fun a b => a.startLocation ≤ b.startLocation

theorem bestEntry_eq_none {x : Int} {es : List LineEntry} (h : ∀ e ∈ es, x < e.startLocation) :
    bestEntry x es = none := by
  induction es with
  | nil => rfl
  | cons e es ih =>
    rw [bestEntry, ih fun e' m => h e' (by simp [m]), if_neg (by have := h e (by simp); omega)]

theorem bestEntry_isSome {x : Int} {e : LineEntry} (es : List LineEntry) (h : e.startLocation ≤ x) :
    (bestEntry x (e :: es)).isSome := by
  simp only [bestEntry]
  split <;> (try split) <;> simp_all

theorem bestEntry_mem {x : Int} {es : List LineEntry} {b : LineEntry} (h : bestEntry x es = some b) :
    b ∈ es := by
  induction es generalizing b with
  | nil => cases h
  | cons e es ih =>
    simp only [bestEntry] at h
    split at h <;> [split at h; split at h] <;> cases h <;> simp_all

theorem bestEntry_sorted {x : Int} {e : LineEntry} {es : List LineEntry} (hs : Sorted (e :: es)) :
    bestEntry x (e :: es) =
      (bestEntry x es).elim (if e.startLocation ≤ x then some e else none) some := by
  have hle := (List.sorted_cons.mp hs).1
  simp only [bestEntry]
  split
  · next b hb => rw [if_neg (by have := hle b (bestEntry_mem hb); omega), hb]; rfl
  · next hb => rw [hb]; rfl

theorem lookupLine_sorted {bci : Int} {e : LineEntry} {es : List LineEntry} (hs : Sorted (e :: es))
    (hb : e.startLocation ≤ bci) : lookupLine bci (e :: es) = lineOf bci (e :: es) := by
  induction es generalizing e with
  | nil => simp [lookupLine, lineOf, bestEntry, hb]
  | cons e' es ih =>
    have hs' := (List.sorted_cons.mp hs).2
    rw [lookupLine, lineOf, bestEntry_sorted hs]
    split
    · next hlt =>
      have hnone : bestEntry bci (e' :: es) = none := bestEntry_eq_none fun e'' m => by
        rcases List.mem_cons.mp m with rfl | m
        · exact hlt
        · have := (List.sorted_cons.mp hs').1 e'' m; omega
      simp [hnone, hb]
    · next hge =>
      obtain ⟨b, hbe⟩ := Option.isSome_iff_exists.mp (bestEntry_isSome es (by omega : e'.startLocation ≤ bci))
      rw [ih hs' (by omega), lineOf, hbe]
      rfl

theorem inRanges_sorted (lineno : Int) {table : List LineEntry} (hs : Sorted table) {x : Int}
    (hx : x ≤ maxBci) :
    ((locationRanges lineno table).any fun r => decide (r.1 ≤ x) && decide (x < r.2)) = true ↔
      lineOf x table = some lineno := by
  induction table with
  | nil => simp [locationRanges, lineOf, bestEntry]
  | cons e es ih =>
    cases es with
    | nil =>
      have hx1 : x < maxBci + 1 := by omega
      simp only [locationRanges, lineOf, bestEntry]
      by_cases hl : e.lineNumber = lineno <;> by_cases hx' : e.startLocation ≤ x <;>
        simp [hl, hx', hx1]
    | cons e' es =>
      have hs' := (List.sorted_cons.mp hs).2
      have hee' := (List.sorted_cons.mp hs).1 e' (by simp)
      rw [locationRanges, List.any_append, Bool.or_eq_true, ih hs']
      simp only [lineOf, bestEntry_sorted hs]
      by_cases hlt : x < e'.startLocation
      · have hnone : bestEntry x (e' :: es) = none := bestEntry_eq_none fun e'' m => by
          rcases List.mem_cons.mp m with rfl | m
          · exact hlt
          · have := (List.sorted_cons.mp hs').1 e'' m; omega
        simp only [hnone, Option.elim, Option.map_none', lineOf]
        by_cases hl : e.lineNumber = lineno <;> by_cases hx' : e.startLocation ≤ x <;>
          simp [hl, hx', hlt]
      · obtain ⟨b, hbe⟩ := Option.isSome_iff_exists.mp
          (bestEntry_isSome es (by omega : e'.startLocation ≤ x))
        by_cases hl : e.lineNumber = lineno <;> simp [hl, hlt, hbe]

/-- For a sorted line-number table and a sampled index with a line, the experiment's `lineno`
is that line, and on every index up to `MAX_BCI` the target test holds exactly on that line;
in particular on the sampled frame itself. -/
theorem selectTarget_sorted (table : List LineEntry) (hs : Sorted table) (f : CallFrame)
    (hb : ∃ e ∈ table, e.startLocation ≤ f.lineno) (hmax : f.lineno ≤ maxBci) (oldLineno : Int) :
    lineOf f.lineno table = some (selectTarget f table oldLineno).lineno ∧
    (∀ x, x ≤ maxBci →
      (inExperiment (selectTarget f table oldLineno) ⟨f.methodId, x⟩ = true ↔
        lineOf x table = some (selectTarget f table oldLineno).lineno)) ∧
    inExperiment (selectTarget f table oldLineno) f = true := by
  obtain ⟨e, es, rfl⟩ : ∃ e es, table = e :: es := by
    obtain ⟨e', m, -⟩ := hb
    exact List.exists_cons_of_ne_nil (List.ne_nil_of_mem m)
  have hhead : e.startLocation ≤ f.lineno := by
    obtain ⟨e', m, h⟩ := hb
    rcases List.mem_cons.mp m with rfl | m
    · exact h
    · have := (List.sorted_cons.mp hs).1 e' m; omega
  obtain ⟨L, hL⟩ := Option.isSome_iff_exists.mp (bestEntry_isSome es hhead)
  have hline : lookupLine f.lineno (e :: es) = some L.lineNumber := by
    rw [lookupLine_sorted hs hhead, lineOf, hL]; rfl
  have hsel : (selectTarget f (e :: es) oldLineno).lineno = L.lineNumber := by
    simp [selectTarget, hline]
  have hin (x : Int) (hx : x ≤ maxBci) :
      inExperiment (selectTarget f (e :: es) oldLineno) ⟨f.methodId, x⟩ = true ↔
        lineOf x (e :: es) = some (selectTarget f (e :: es) oldLineno).lineno := by
    simp only [inExperiment, selectTarget, hline, Option.getD_some, beq_self_eq_true,
      Bool.true_and]
    exact inRanges_sorted _ hs hx
  have hself : lineOf f.lineno (e :: es) = some (selectTarget f (e :: es) oldLineno).lineno := by
    rw [hsel, lineOf, hL]; rfl
  exact ⟨hself, hin, (hin f.lineno hmax).mpr hself⟩

def sortedTable : List LineEntry := [⟨0, 1⟩, ⟨4, 2⟩, ⟨9, 1⟩]

theorem selectTarget_sorted_at_sortedTable :
    (Sorted sortedTable ∧ (∃ e ∈ sortedTable, e.startLocation ≤ 10) ∧ (10 : Int) ≤ maxBci) ∧
    lineOf 10 sortedTable = some (selectTarget ⟨1, 10⟩ sortedTable 0).lineno ∧
    (∀ x, x ≤ maxBci → (inExperiment (selectTarget ⟨1, 10⟩ sortedTable 0) ⟨1, x⟩ = true ↔
      lineOf x sortedTable = some (selectTarget ⟨1, 10⟩ sortedTable 0).lineno)) ∧
    inExperiment (selectTarget ⟨1, 10⟩ sortedTable 0) ⟨1, 10⟩ = true :=
  have h : Sorted sortedTable := by decide
  have hb : ∃ e ∈ sortedTable, e.startLocation ≤ (⟨1, 10⟩ : CallFrame).lineno := ⟨⟨0, 1⟩, by decide, by decide⟩
  have hm : (⟨1, 10⟩ : CallFrame).lineno ≤ maxBci := by decide
  ⟨⟨h, hb, hm⟩, selectTarget_sorted sortedTable h ⟨1, 10⟩ hb hm 0⟩

/-- An unsorted table whose sampled index lies after an out-of-order entry: the lookup stops
at the first larger start and picks line 1, while index 7 is on line 3 and still tests inside. -/
def unsortedTable : List LineEntry := [⟨0, 1⟩, ⟨10, 2⟩, ⟨5, 3⟩]

theorem selectTarget_unsorted :
    lineOf 7 unsortedTable = some 3 ∧ (selectTarget ⟨1, 7⟩ unsortedTable 0).lineno = 1 ∧
      inExperiment (selectTarget ⟨1, 7⟩ unsortedTable 0) ⟨1, 7⟩ = true := by
  decide

end JCoz.LineTable
