import JCoz.Scope
import JCoz.LineTable

/-! The class tests of `CreateJMethodIDsForClass` and `addProgressPoint`. The literal `"\0"`
is an empty C string, so the `replace` drops the signature's last character. -/
namespace JCoz.ClassPrepare
open Scope LineTable

def sizeMod : Nat := 18446744073709551616

/-- `str.replace(pos, count, s)` for a C string `s`: `none` is the `std::out_of_range` it
throws when `pos > size()`; otherwise the at most `count` characters from `pos` become `s`. -/
def replace (str : List Char) (pos count : Nat) (s : List Char) : Option (List Char) :=
  if str.length < pos then none else some (str.take pos ++ s ++ str.drop (pos + count))

def isProgressClass (progressClass klassSig : List Char) : Option Bool :=
  if strstr progressClass klassSig = some 0 then
    (replace klassSig ((klassSig.length + (sizeMod - 1)) % sizeMod) 1 []).map (· == progressClass)
  else some false

/-- What `CreateJMethodIDsForClass` decides for a class whose `GetClassMethods` succeeded:
whether `addInScopeMethods` runs, and whether `addProgressPoint` does. These are the flags of
the system's class-preparation event. -/
def createJMethodIDsForClass (search ignored : List (List Char)) (progressClass klassSig : List Char) :
    Bool × Option Bool :=
  (isInAllowedScope search ignored klassSig, isProgressClass progressClass klassSig)

theorem replace_last {str : List Char} (hne : str ≠ []) (hlen : str.length < sizeMod) :
    replace str ((str.length + (sizeMod - 1)) % sizeMod) 1 [] = some str.dropLast := by
  have hpos : (str.length + (sizeMod - 1)) % sizeMod = str.length - 1 := by
    have : 0 < str.length := List.length_pos.mpr hne
    rw [show str.length + (sizeMod - 1) = (str.length - 1) + sizeMod by simp only [sizeMod]; omega,
      Nat.add_mod_right, Nat.mod_eq_of_lt (by omega)]
  rw [hpos, replace, if_neg (by omega), List.dropLast_eq_take, List.append_nil,
    List.drop_of_length_le (by omega), List.append_nil]

theorem isProgressClass_eq (progressClass klassSig : List Char) (hlen : klassSig.length < sizeMod) :
    isProgressClass progressClass klassSig =
      if klassSig = [] ∧ progressClass = [] then none
      else some (decide (klassSig ≠ [] ∧ klassSig.dropLast = progressClass)) := by
  cases klassSig with
  | nil =>
    cases progressClass with
    | nil => simp [isProgressClass, strstr, replace, sizeMod]
    | cons c cs => simp [isProgressClass, strstr]
  | cons c cs =>
    rw [isProgressClass, replace_last (List.cons_ne_nil c cs) hlen]
    by_cases hp : progressClass <+: c :: cs
    · simp [strstr_eq_zero.mpr hp, Bool.beq_eq_decide_eq]
    · have hne : (c :: cs).dropLast ≠ progressClass := fun h => hp (h ▸ List.dropLast_prefix _)
      simp [mt strstr_eq_zero.mp hp, hne]

/-- The prefix test never rejects the class the comparison accepts, so the two tests are one
comparison of the signature, less its last character, with the progress class. The replace
throws only on an empty signature, which passes the prefix test only for an empty progress
class. For the signature `L<name>;` of a class the test holds exactly for the progress class
`L<name>`: the prefix match the source comment mentions (a class `AA` for a progress class `A`)
never reaches `addProgressPoint`. -/
theorem progressClass_test_exact (progressClass : List Char) :
    (∀ klassSig : List Char, klassSig.length < sizeMod →
      isProgressClass progressClass klassSig =
        if klassSig = [] ∧ progressClass = [] then none
        else some (decide (klassSig ≠ [] ∧ klassSig.dropLast = progressClass))) ∧
    ∀ name : List Char, (classSig name).length < sizeMod →
      isProgressClass progressClass (classSig name) = some (decide (progressClass = 'L' :: name)) := by
  refine ⟨isProgressClass_eq progressClass, fun name hlen => ?_⟩
  rw [isProgressClass_eq progressClass _ hlen, classSig, if_neg (by simp), ← List.cons_append,
    List.dropLast_concat]
  exact congrArg some (decide_eq_decide.mpr ⟨fun h => h.2.symm, fun h => ⟨List.cons_ne_nil _ _, h.symm⟩⟩)

theorem progressClass_test_exact_at_main :
    "LMain;".toList.length < sizeMod ∧ (classSig "MainX".toList).length < sizeMod ∧
      isProgressClass "LMain".toList "LMain;".toList = some true ∧
      isProgressClass "LMain".toList (classSig "MainX".toList) = some false :=
  have h₁ : "LMain;".toList.length < sizeMod := by decide
  have h₂ : (classSig "MainX".toList).length < sizeMod := by decide
  ⟨h₁, h₂, ((progressClass_test_exact _).1 _ h₁).trans (by decide),
    ((progressClass_test_exact _).2 _ h₂).trans (by decide)⟩

/-! ### `addProgressPoint` -/

structure ProgressPoint where
  lineno : Int
  methodId : Option Nat := none
  location : Int := 0
  deriving DecidableEq, Repr

def findProgressLine (lineno : Int) : List (Nat × Option (List LineEntry)) → Option (Nat × LineEntry)
  | [] => none
  | (_, none) :: ms => findProgressLine lineno ms
  | (m, some table) :: ms =>
    match table.find? (·.lineNumber == lineno) with
    | some e => some (m, e)
    | none => findProgressLine lineno ms

/-- `addProgressPoint`: nothing once the point is set or in end-to-end mode; otherwise the
breakpoint goes to the first entry on the progress line, and `none` is the `exit(1)` taken
when no method has one. -/
def addProgressPoint (endToEnd : Bool) (pp : ProgressPoint)
    (methods : List (Nat × Option (List LineEntry))) : Option ProgressPoint :=
  if endToEnd || pp.methodId.isSome then some pp
  else (findProgressLine pp.lineno methods).map fun me =>
    { pp with methodId := some me.1, location := me.2.startLocation }

def NoLine (lineno : Int) (methods : List (Nat × Option (List LineEntry))) : Prop :=
  ∀ m table, (m, some table) ∈ methods → ∀ e ∈ table, e.lineNumber ≠ lineno

theorem noLine_cons {lineno : Int} {m : Nat} {t : Option (List LineEntry)}
    {ms : List (Nat × Option (List LineEntry))} :
    NoLine lineno ((m, t) :: ms) ↔ (∀ table, t = some table → ∀ e ∈ table, e.lineNumber ≠ lineno) ∧
      NoLine lineno ms := by
  simp only [NoLine, List.mem_cons, Prod.mk.injEq]
  constructor
  · exact fun h => ⟨fun table ht => h m table (.inl ⟨rfl, ht ▸ rfl⟩), fun m' t' h' => h m' t' (.inr h')⟩
  · rintro ⟨h, h'⟩ m' t' (⟨rfl, ht⟩ | ht)
    · exact h t' ht.symm
    · exact h' m' t' ht

theorem find?_line_none {lineno : Int} {table : List LineEntry} :
    table.find? (·.lineNumber == lineno) = none ↔ ∀ e ∈ table, e.lineNumber ≠ lineno := by
  simp

theorem findProgressLine_eq_none {lineno : Int} {methods : List (Nat × Option (List LineEntry))} :
    findProgressLine lineno methods = none ↔ NoLine lineno methods := by
  induction methods with
  | nil => simp [findProgressLine, NoLine]
  | cons me ms ih =>
    obtain ⟨m, _ | table⟩ := me
    · simp [findProgressLine, noLine_cons, ih]
    · rw [findProgressLine, noLine_cons]
      split
      · next e he =>
        have hline : e.lineNumber = lineno := by simpa using List.find?_some he
        exact iff_of_false (by simp) fun ⟨h, _⟩ => h table rfl e (List.mem_of_find?_eq_some he) hline
      · next he =>
        rw [ih]
        exact ⟨fun h => ⟨by rintro t ⟨⟩; exact find?_line_none.1 he, h⟩, And.right⟩

theorem findProgressLine_eq_some {lineno : Int} {methods : List (Nat × Option (List LineEntry))}
    {m : Nat} {e : LineEntry} (h : findProgressLine lineno methods = some (m, e)) :
    ∃ pre table post, methods = pre ++ (m, some table) :: post ∧ NoLine lineno pre ∧
      table.find? (·.lineNumber == lineno) = some e := by
  induction methods with
  | nil => cases h
  | cons me ms ih =>
    obtain ⟨m', _ | table⟩ := me
    · obtain ⟨pre, table, post, rfl, hpre, hf⟩ := ih h
      exact ⟨(m', none) :: pre, table, post, rfl, noLine_cons.2 ⟨nofun, hpre⟩, hf⟩
    · rw [findProgressLine] at h
      split at h
      · next e' he => cases h; exact ⟨[], table, ms, rfl, nofun, he⟩
      · next he =>
        obtain ⟨pre, table', post, rfl, hpre, hf⟩ := ih h
        refine ⟨(m', some table) :: pre, table', post, rfl, noLine_cons.2 ⟨?_, hpre⟩, hf⟩
        rintro t ⟨⟩
        exact find?_line_none.1 he

abbrev StrictlySorted (table : List LineEntry) : Prop :=
  table.Sorted fun a b => a.startLocation < b.startLocation

theorem bestEntry_strict {table : List LineEntry} (hs : StrictlySorted table) {e : LineEntry}
    (he : e ∈ table) : bestEntry e.startLocation table = some e := by
  induction table with
  | nil => cases he
  | cons h t ih =>
    have hs' := List.sorted_cons.1 hs
    rw [bestEntry_sorted (hs.imp le_of_lt)]
    rcases List.mem_cons.1 he with rfl | he
    · rw [bestEntry_eq_none fun e' he' => hs'.1 e' he']
      simp
    · rw [ih hs'.2 he]
      rfl

theorem lookupLine_at_entry {table : List LineEntry} (hs : StrictlySorted table) {e : LineEntry}
    (he : e ∈ table) : lookupLine e.startLocation table = some e.lineNumber := by
  obtain ⟨h, hs'⟩ : ∃ h : LineEntry, ∃ t, table = h :: t := List.exists_cons_of_ne_nil (List.ne_nil_of_mem he)
  obtain ⟨t, rfl⟩ := hs'
  have hle : Sorted (h :: t) := hs.imp le_of_lt
  have hb : h.startLocation ≤ e.startLocation := by
    rcases List.mem_cons.1 he with rfl | he
    · exact le_refl _
    · exact le_of_lt ((List.sorted_cons.1 hs).1 e he)
  rw [lookupLine_sorted hle hb, lineOf, bestEntry_strict hs he]
  rfl

/-- Once `addProgressPoint` returns, `method_id` is set unless the run is end to end: the
system's class-preparation step sets its breakpoint flag the same way. Unless the point is
already set, `addProgressPoint` exits exactly when no readable table of the class has the
progress line; otherwise the breakpoint goes to the first entry on the line, in the first method
whose table has one, and on a table of strictly increasing starts the line lookup of
`runAgentThread` maps the breakpoint's location back to the progress line. -/
theorem addProgressPoint_breakpoint (methods : List (Nat × Option (List LineEntry))) :
    (∀ endToEnd pp pp', addProgressPoint endToEnd pp methods = some pp' →
      pp'.methodId.isSome = (!endToEnd || pp.methodId.isSome)) ∧
    ∀ pp : ProgressPoint, pp.methodId = none →
      (addProgressPoint false pp methods = none ↔ NoLine pp.lineno methods) ∧
      ∀ pp', addProgressPoint false pp methods = some pp' →
        ∃ pre m table post e, methods = pre ++ (m, some table) :: post ∧ NoLine pp.lineno pre ∧
          table.find? (·.lineNumber == pp.lineno) = some e ∧
          pp' = { pp with methodId := some m, location := e.startLocation } ∧
          (StrictlySorted table → lookupLine pp'.location table = some pp.lineno) := by
  refine ⟨fun endToEnd pp pp' h => ?_, fun pp hnew => ?_⟩
  · unfold addProgressPoint at h
    split at h
    · next hg => cases h; cases endToEnd <;> simp_all
    · next hg =>
      obtain ⟨_, -, rfl⟩ := Option.map_eq_some'.1 h
      simp_all
  have hgo : addProgressPoint false pp methods = (findProgressLine pp.lineno methods).map fun me =>
      { pp with methodId := some me.1, location := me.2.startLocation } := by
    simp [addProgressPoint, hnew]
  refine ⟨by rw [hgo, Option.map_eq_none', findProgressLine_eq_none], fun pp' h => ?_⟩
  rw [hgo] at h
  obtain ⟨⟨m, e⟩, hf, rfl⟩ := Option.map_eq_some'.1 h
  obtain ⟨pre, table, post, rfl, hpre, he⟩ := findProgressLine_eq_some hf
  have hline : e.lineNumber = pp.lineno := by simpa using List.find?_some he
  exact ⟨pre, m, table, post, e, rfl, hpre, he, rfl,
    fun hs => hline ▸ lookupLine_at_entry hs (List.mem_of_find?_eq_some he)⟩

/-- A class whose first method has no table, whose second has none on line 7, and whose third
has two entries on it. -/
def sampleMethods : List (Nat × Option (List LineEntry)) :=
  [(1, none), (2, some [⟨0, 5⟩, ⟨3, 6⟩]), (3, some [⟨0, 6⟩, ⟨4, 7⟩, ⟨9, 7⟩])]

theorem addProgressPoint_breakpoint_at_sample :
    ({ lineno := 7 } : ProgressPoint).methodId = none ∧
      (addProgressPoint false { lineno := 7 } sampleMethods = none ↔ NoLine 7 sampleMethods) :=
  ⟨rfl, ((addProgressPoint_breakpoint sampleMethods).2 _ rfl).1⟩

example : addProgressPoint false { lineno := 7 } sampleMethods =
    some { lineno := 7, methodId := some 3, location := 4 } := by
  decide

end JCoz.ClassPrepare
