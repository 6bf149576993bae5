import JCoz.Scope
import Mathlib.Data.Nat.Digits

/-! `Profiler::ParseOptions`. `args.h`, with the option names, `from_string` and
`report_error`, is not part of the sources: the name table is a parameter, and `report_error`
ends the program. -/
namespace JCoz.Options
open Scope

inductive AgentArg where
  | unknown | searchScopes | ignoredScopes | progressPoint | loggingLevel | outputFile
  | endToEnd | warmup | fixExp
  deriving DecidableEq, Repr

/-- The profiler's statics that `ParseOptions` sets, the "Profiler arguments" it logs, with
their initial values. The logging level is the raw value given to `parse_logging_level`, and
`outputFile` is `kOutputFile`, `none` until an item or the default sets it. -/
structure ProfilerArgs where
  searchScopes : List (List Char) := []
  ignoredScopes : List (List Char) := []
  progressClass : List Char := []
  lineno : Int := -1
  loggingLevel : Option (List Char) := none
  outputFile : Option (List Char) := none
  endToEnd : Bool := false
  warmupTime : Nat := 0
  fixExp : Bool := false
  deriving DecidableEq, Repr

/-- How `ParseOptions` fails to return: `report_error` with its message, the exception
`std::stoi` or `std::stol` throws, or a warmup whose `* 1000` overflows a `long`, which C++
leaves undefined. -/
inductive ParseError where
  | reportError (msg : String)
  | stoiThrows
  | stolThrows
  | warmupOverflow
  deriving DecidableEq, Repr

/-- The items of a `while (std::getline(stream, item, delim))` loop: the pieces between the
delimiters, where a final delimiter ends the last item and starts none. -/
def getline (delim : Char) (s : List Char) : List (List Char) :=
  let pieces := s.splitOn delim
  if pieces.getLast? = some [] then pieces.dropLast else pieces

/-- `i->find('=')` and the two `substr` calls. Without `=`, `find` gives `npos`: the option is
the whole item, and `npos + 1` wraps to `0`, so the value is the whole item too. -/
def splitOption (item : List Char) : List Char × List Char :=
  match item.findIdx? (· == '=') with
  | some i => (item.take i, item.drop (i + 1))
  | none => (item, item)

def isSpace (c : Char) : Bool :=
  c == ' ' || c == '\t' || c == '\n' || c == '\x0b' || c == '\x0c' || c == '\r'

def digitsValue (ds : List Char) : Nat := ds.foldl (fun n d => 10 * n + (d.toNat - '0'.toNat)) 0

def readSign : List Char → Bool × List Char
  | '-' :: rest => (true, rest)
  | '+' :: rest => (false, rest)
  | rest => (false, rest)

/-- `strtol(str, &end, 10)` as `std::stoi` and `std::stol` call it, before their range check:
white space, an optional sign, then the longest run of digits, whose value is exact; `none`
when no digit follows, where they throw `std::invalid_argument`. The rest is ignored. -/
def strtol (str : List Char) : Option Int :=
  let (neg, rest) := readSign (str.dropWhile isSpace)
  let ds := rest.takeWhile Char.isDigit
  if ds = [] then none else some (if neg then -(digitsValue ds : Int) else digitsValue ds)

def stoi (str : List Char) : Option Int :=
  (strtol str).filter fun n => decide (-2147483648 ≤ n ∧ n ≤ 2147483647)

def stol (str : List Char) : Option Int :=
  (strtol str).filter fun n => decide (-9223372036854775808 ≤ n ∧ n ≤ 9223372036854775807)

def ulongMod : Int := 18446744073709551616

def store (arg : AgentArg) (option value : List Char) (o : ProfilerArgs) : Except ParseError ProfilerArgs :=
  match arg with
  | .unknown => .error (.reportError ("Unknown option: " ++ String.mk option))
  | .searchScopes => .ok { o with searchScopes := o.searchScopes ++ parseScopes value }
  | .ignoredScopes => .ok { o with ignoredScopes := o.ignoredScopes ++ parseScopes value }
  | .progressPoint =>
    match value.findIdx? (· == ':') with
    | none => .error (.reportError "Missing progress point")
    | some colon =>
      match stoi (value.drop (colon + 1)) with
      | none => .error .stoiThrows
      | some lineno => .ok { o with progressClass := value.take colon, lineno := lineno }
  | .loggingLevel => .ok { o with loggingLevel := some value }
  | .outputFile => .ok { o with outputFile := some value }
  | .endToEnd => .ok { o with endToEnd := true }
  | .warmup =>
    -- `std::stol(value) * 1000` is a `long` product, stored in an `unsigned long`
    match stol value with
    | none => .error .stolThrows
    | some v =>
      if -9223372036854775808 ≤ v * 1000 ∧ v * 1000 ≤ 9223372036854775807 then
        .ok { o with warmupTime := ((v * 1000) % ulongMod).toNat }
      else .error .warmupOverflow
  | .fixExp => .ok { o with fixExp := true }

def applyOption (fromString : List Char → AgentArg) (o : ProfilerArgs) (item : List Char) :
    Except ParseError ProfilerArgs :=
  let (option, value) := splitOption item
  store (fromString option) option value o

def withDefaultOutput (o : ProfilerArgs) : ProfilerArgs :=
  if o.outputFile = none then { o with outputFile := some "jcoz-output.csv".toList } else o

def missingRequired (o : ProfilerArgs) : Bool :=
  o.searchScopes = [] ∨ (o.endToEnd = false ∧ (o.progressClass = [] ∨ o.lineno = -1))

def parseOptions (fromString : List Char → AgentArg) :
    Option (List Char) → Except ParseError ProfilerArgs
  | none => .error (.reportError "Missing options")
  | some options => do
    let o ← (getline '_' options).foldlM (applyOption fromString) {}
    let o := withDefaultOutput o
    if missingRequired o then .error (.reportError "Missing package, progress class, or progress point")
    else .ok o

/-! ### The pieces of a `getline` loop -/

theorem splitOn_cons (d x : Char) (xs : List Char) :
    (x :: xs).splitOn d =
      if x = d then [] :: xs.splitOn d else (xs.splitOn d).modifyHead (x :: ·) := by
  simp only [List.splitOn, List.splitOnP_cons, beq_iff_eq]

theorem mem_of_mem_splitOn {d : Char} {s it : List Char} (hit : it ∈ s.splitOn d) {c : Char}
    (hc : c ∈ it) : c ∈ s ∧ c ≠ d := by
  induction s generalizing it with
  | nil => simp_all [List.splitOn_nil]
  | cons x xs ih =>
    rw [splitOn_cons] at hit
    split at hit
    · rcases List.mem_cons.1 hit with rfl | hit
      · cases hc
      · exact ⟨List.mem_cons_of_mem x (ih hit hc).1, (ih hit hc).2⟩
    · next hx =>
      obtain ⟨p, ps, hps⟩ := List.exists_cons_of_ne_nil (List.splitOnP_ne_nil _ xs)
      rw [List.splitOn, hps, List.modifyHead_cons] at hit
      rw [List.splitOn] at ih
      rcases List.mem_cons.1 hit with rfl | hit
      · rcases List.mem_cons.1 hc with rfl | hc
        · exact ⟨List.mem_cons_self _ _, hx⟩
        · have := ih (hps ▸ List.mem_cons_self p ps) hc
          exact ⟨List.mem_cons_of_mem x this.1, this.2⟩
      · have := ih (hps ▸ List.mem_cons_of_mem p hit) hc
        exact ⟨List.mem_cons_of_mem x this.1, this.2⟩

theorem mem_of_mem_getline {d : Char} {s it : List Char} (hit : it ∈ getline d s) {c : Char}
    (hc : c ∈ it) : c ∈ s ∧ c ≠ d := by
  simp only [getline] at hit
  split at hit
  · exact mem_of_mem_splitOn (List.mem_of_mem_dropLast hit) hc
  · exact mem_of_mem_splitOn hit hc

theorem getline_intercalate {d : Char} {items : List (List Char)}
    (h : ∀ it ∈ items, it ≠ [] ∧ d ∉ it) : getline d ([d].intercalate items) = items := by
  rcases items.eq_nil_or_concat with rfl | ⟨init, last, rfl⟩
  · rfl
  · rw [getline, List.splitOn_intercalate _ d (fun l hl => (h l hl).2) (by simp), if_neg]
    simpa using (h last (by simp)).1

theorem mem_intersperse {α : Type} {sep y : α} {l : List α} (h : y ∈ l.intersperse sep) : y = sep ∨ y ∈ l := by
  induction l with
  | nil => cases h
  | cons x xs ih =>
    cases xs with
    | nil => exact .inr h
    | cons x' xs =>
      simp only [List.intersperse_cons₂, List.mem_cons] at h ih ⊢
      rcases h with rfl | rfl | h
      · exact .inr (.inl rfl)
      · exact .inl rfl
      · rcases ih h with h | h | h <;> simp [h]

theorem mem_intercalate {d c : Char} {l : List (List Char)} (h : c ∈ [d].intercalate l) :
    c = d ∨ ∃ x ∈ l, c ∈ x := by
  obtain ⟨x, hx, hc⟩ := List.mem_flatten.1 h
  rcases mem_intersperse hx with rfl | hx
  · exact .inl (List.mem_singleton.1 hc)
  · exact .inr ⟨x, hx, hc⟩

theorem findIdx?_take {p : Char → Bool} {l : List Char} {i : Nat} (h : l.findIdx? p = some i) :
    ∀ c ∈ l.take i, p c = false := by
  induction l generalizing i with
  | nil => cases h
  | cons x xs ih =>
    rw [List.findIdx?_cons, List.findIdx?_succ] at h
    split at h
    · cases h; simp
    · obtain ⟨j, hj, rfl⟩ := Option.map_eq_some'.1 h
      simp only [List.take_succ_cons, List.mem_cons]
      rintro c (rfl | hc)
      · simpa using ‹¬p c = true›
      · exact ih hj c hc

theorem findIdx?_append_cons {x : Char} {n : List Char} (h : x ∉ n) (v : List Char) :
    (n ++ x :: v).findIdx? (· == x) = some n.length := by
  rw [List.findIdx?_append, List.findIdx?_eq_none_iff.2 fun c hc => by
    simpa using fun he : c = x => h (he ▸ hc)]
  simp

theorem splitOption_append {n : List Char} (h : '=' ∉ n) (v : List Char) :
    splitOption (n ++ '=' :: v) = (n, v) := by
  simp [splitOption, findIdx?_append_cons h]

theorem splitOption_flag {n : List Char} (h : '=' ∉ n) : splitOption n = (n, n) := by
  rw [splitOption, List.findIdx?_eq_none_iff.2 fun c hc => by
    simpa using fun he : c = '=' => h (he ▸ hc)]

theorem snd_splitOption_subset (item : List Char) : ∀ c ∈ (splitOption item).2, c ∈ item := by
  unfold splitOption
  split
  · exact fun c hc => List.mem_of_mem_drop hc
  · exact fun c hc => hc

/-! ### Numbers -/

def natDecimal (n : Nat) : List Char :=
  if n = 0 then ['0'] else (Nat.digits 10 n).reverse.map Nat.digitChar

def decimal (n : Int) : List Char :=
  if n < 0 then '-' :: natDecimal n.natAbs else natDecimal n.natAbs

theorem digitChar_digit : ∀ d < 10, (Nat.digitChar d).isDigit = true ∧
    (Nat.digitChar d).toNat - '0'.toNat = d ∧ isSpace (Nat.digitChar d) = false ∧
    Nat.digitChar d ≠ '-' ∧ Nat.digitChar d ≠ '+' ∧ Nat.digitChar d ≠ '_' := by
  decide

theorem digitsValue_map {l : List Nat} (h : ∀ d ∈ l, d < 10) (acc : Nat) :
    (l.map Nat.digitChar).foldl (fun n d => 10 * n + (d.toNat - '0'.toNat)) acc =
      l.foldl (fun n d => 10 * n + d) acc := by
  induction l generalizing acc with
  | nil => rfl
  | cons d l ih =>
    simp only [List.map_cons, List.foldl_cons, (digitChar_digit d (h d (List.mem_cons_self d l))).2.1]
    exact ih (fun e he => h e (List.mem_cons_of_mem d he)) _

theorem natDecimal_spec (n : Nat) : ∃ l : List Nat, l ≠ [] ∧ (∀ d ∈ l, d < 10) ∧
    natDecimal n = l.map Nat.digitChar ∧ l.foldl (fun m d => 10 * m + d) 0 = n := by
  by_cases hn : n = 0
  · exact ⟨[0], by simp, by simp, by simp [natDecimal, hn]; rfl, by simp [hn]⟩
  · refine ⟨(Nat.digits 10 n).reverse, by simpa using Nat.digits_ne_nil_iff_ne_zero.2 hn,
      fun d hd => Nat.digits_lt_base (by norm_num) (List.mem_reverse.1 hd),
      by simp [natDecimal, hn], ?_⟩
    conv_rhs => rw [← Nat.ofDigits_digits 10 n, Nat.ofDigits_eq_foldr]
    simp only [List.foldl_reverse, Nat.cast_id]
    exact congrArg (List.foldr · 0 _) (funext₂ fun _ _ => Nat.add_comm _ _)

theorem strtol_digits {ds : List Char} (hne : ds ≠ []) (hd : ∀ c ∈ ds, c.isDigit = true)
    (hs : ∀ c ∈ ds.head?, isSpace c = false ∧ c ≠ '-' ∧ c ≠ '+') :
    strtol ds = some ((digitsValue ds : Nat) : Int) ∧ strtol ('-' :: ds) = some (-(digitsValue ds : Int)) := by
  have hall : ds.takeWhile Char.isDigit = ds := List.takeWhile_eq_self_iff.2 hd
  obtain ⟨c, cs, rfl⟩ := List.exists_cons_of_ne_nil hne
  obtain ⟨hsp, hm, hp⟩ := hs c rfl
  have hread : readSign (c :: cs) = (false, c :: cs) := by simp [readSign, hm, hp]
  constructor
  · simp only [strtol, List.dropWhile_cons_of_neg (by simpa using hsp), hread, hall, if_neg hne]; rfl
  · simp only [strtol, List.dropWhile_cons_of_neg (show ¬isSpace '-' = true by decide), readSign,
      hall, if_neg hne]; rfl

theorem natDecimal_digits (n : Nat) :
    natDecimal n ≠ [] ∧ (∀ c ∈ natDecimal n, c.isDigit = true ∧ c ≠ '_') ∧
    (∀ c ∈ (natDecimal n).head?, isSpace c = false ∧ c ≠ '-' ∧ c ≠ '+') ∧
    digitsValue (natDecimal n) = n := by
  obtain ⟨l, hne, hl, hd, hv⟩ := natDecimal_spec n
  have hmem : ∀ c ∈ natDecimal n, ∃ d < 10, c = Nat.digitChar d := fun c hc => by
    rw [hd] at hc
    obtain ⟨d, hd, rfl⟩ := List.mem_map.1 hc
    exact ⟨d, hl d hd, rfl⟩
  refine ⟨by simpa [hd] using hne, fun c hc => ?_, fun c hc => ?_, by rw [hd, digitsValue, digitsValue_map hl, hv]⟩
  · obtain ⟨d, hd, rfl⟩ := hmem c hc
    exact ⟨(digitChar_digit d hd).1, (digitChar_digit d hd).2.2.2.2.2⟩
  · obtain ⟨d, hd, rfl⟩ := hmem c (List.mem_of_mem_head? hc)
    exact ⟨(digitChar_digit d hd).2.2.1, (digitChar_digit d hd).2.2.2.1, (digitChar_digit d hd).2.2.2.2.1⟩

theorem strtol_decimal (n : Int) : strtol (decimal n) = some n := by
  obtain ⟨hne, hd, hs, hv⟩ := natDecimal_digits n.natAbs
  have h := strtol_digits hne (fun c hc => (hd c hc).1) hs
  unfold decimal
  split
  · rw [h.2, hv]; exact congrArg some (by omega)
  · rw [h.1, hv]; exact congrArg some (by omega)

/-! ### What an accepted option string gives -/

/-- An option table for the examples: the profiler's own names are in `args.h`. -/
def sampleName : AgentArg → List Char
  | .unknown => "unknown".toList
  | .searchScopes => "pkg".toList
  | .ignoredScopes => "ignore".toList
  | .progressPoint => "progress".toList
  | .loggingLevel => "logging".toList
  | .outputFile => "output".toList
  | .endToEnd => "end-to-end".toList
  | .warmup => "warmup".toList
  | .fixExp => "fix-exp".toList

def sampleFromString (option : List Char) : AgentArg :=
  ([AgentArg.searchScopes, .ignoredScopes, .progressPoint, .loggingLevel, .outputFile, .endToEnd,
    .warmup, .fixExp].find? (sampleName · == option)).getD .unknown

/-- What `ParseOptions` gives for
`pkg=org.foo|org.bar_progress=Lorg/foo/Main:12_fix-exp` under `sampleName`. -/
def sampleAccepted : ProfilerArgs :=
  { searchScopes := ["org/foo".toList, "org/bar".toList], progressClass := "Lorg/foo/Main".toList,
    lineno := 12, outputFile := some "jcoz-output.csv".toList, fixExp := true }


@[simp] theorem ok_bind {α β : Type} (a : α) (f : α → Except ParseError β) :
    (Except.ok a >>= f) = f a := rfl

theorem applyOption_eq (fromString : List Char → AgentArg) (o : ProfilerArgs) (item : List Char) :
    applyOption fromString o item =
      store (fromString (splitOption item).1) (splitOption item).1 (splitOption item).2 o := rfl

def Prepared (sc : List Char) : Prop := ∀ c ∈ sc, c ≠ '.' ∧ c ≠ '|' ∧ c ≠ '_'

instance : DecidablePred Prepared := fun _ => inferInstanceAs (Decidable (∀ c ∈ _, _))

/-- What every item of the loop keeps: no value holds a `_`, the scopes are prepared, the
progress class holds no `:`, and the line number fits an `int`. -/
structure Clean (o : ProfilerArgs) : Prop where
  searchScopes : ∀ sc ∈ o.searchScopes, Prepared sc
  ignoredScopes : ∀ sc ∈ o.ignoredScopes, Prepared sc
  progressClass : '_' ∉ o.progressClass ∧ ':' ∉ o.progressClass
  lineno : -2147483648 ≤ o.lineno ∧ o.lineno ≤ 2147483647
  loggingLevel : ∀ l, o.loggingLevel = some l → '_' ∉ l
  outputFile : ∀ f, o.outputFile = some f → '_' ∉ f

theorem clean_init : Clean {} :=
  ⟨nofun, nofun, by simp, by decide, nofun, nofun⟩

theorem prepared_parseScopes {value : List Char} (hv : '_' ∉ value) :
    ∀ sc ∈ parseScopes value, Prepared sc := by
  intro sc hsc c hc
  obtain ⟨x, hx, rfl⟩ := List.mem_map.1 hsc
  obtain ⟨c', hc', rfl⟩ := List.mem_map.1 hc
  obtain ⟨hin, hbar⟩ := mem_of_mem_getline (d := '|') hx hc'
  have hu : c' ≠ '_' := fun h => hv (h ▸ hin)
  by_cases hdot : c' = '.' <;> simp [hdot, hbar, hu]

theorem Clean.store {o o' : ProfilerArgs} (hc : Clean o) {arg : AgentArg} {option value : List Char}
    (hv : '_' ∉ value) (h : store arg option value o = .ok o') : Clean o' := by
  cases arg with
  | unknown => cases h
  | searchScopes =>
    cases h
    exact { hc with searchScopes := fun sc hsc =>
      (List.mem_append.1 hsc).elim (hc.searchScopes sc) (prepared_parseScopes hv sc) }
  | ignoredScopes =>
    cases h
    exact { hc with ignoredScopes := fun sc hsc =>
      (List.mem_append.1 hsc).elim (hc.ignoredScopes sc) (prepared_parseScopes hv sc) }
  | progressPoint =>
    simp only [JCoz.Options.store] at h
    split at h
    · cases h
    · next colon hcolon =>
      split at h
      · cases h
      · next lineno hl =>
        cases h
        obtain ⟨-, hr⟩ := Option.filter_eq_some.1 hl
        refine ⟨hc.searchScopes, hc.ignoredScopes, ⟨fun hu => hv (List.mem_of_mem_take hu),
          fun hcl => ?_⟩, by simpa using hr, hc.loggingLevel, hc.outputFile⟩
        simpa using findIdx?_take hcolon _ hcl
  | loggingLevel => cases h; exact { hc with loggingLevel := fun l hl => by cases hl; exact hv }
  | outputFile => cases h; exact { hc with outputFile := fun f hf => by cases hf; exact hv }
  | endToEnd => cases h; exact { hc with }
  | warmup =>
    simp only [JCoz.Options.store] at h
    split at h
    · cases h
    · split at h
      · cases h; exact { hc with }
      · cases h
  | fixExp => cases h; exact { hc with }

theorem Clean.foldlM {fromString : List Char → AgentArg} {items : List (List Char)}
    (hi : ∀ it ∈ items, '_' ∉ it) {o o' : ProfilerArgs} (hc : Clean o)
    (h : items.foldlM (applyOption fromString) o = .ok o') : Clean o' := by
  induction items generalizing o with
  | nil => cases h; exact hc
  | cons it items ih =>
    rw [List.foldlM_cons] at h
    cases ha : applyOption fromString o it with
    | error e => rw [ha] at h; cases h
    | ok o₁ =>
      rw [ha, ok_bind] at h
      rw [applyOption_eq] at ha
      exact ih (fun it' h' => hi it' (List.mem_cons_of_mem it h'))
        (hc.store (fun hu => hi it (List.mem_cons_self it items) (snd_splitOption_subset it _ hu)) ha) h

theorem Clean.withDefaultOutput {o : ProfilerArgs} (hc : Clean o) : Clean (withDefaultOutput o) := by
  unfold JCoz.Options.withDefaultOutput
  split
  · exact { hc with outputFile := fun f hf => by cases hf; decide }
  · exact hc

theorem withDefaultOutput_ne_none (o : ProfilerArgs) : (withDefaultOutput o).outputFile ≠ none := by
  unfold withDefaultOutput
  split <;> simp_all

/-- Every setting `ParseOptions` accepts is clean (no `_` in a value, scopes prepared, the
progress class without `:`, the line number an `int`), has an output file, and passes the final
check: search scopes, and a progress point unless the run is end to end. In particular no scope,
class or file name with `_` can be given. -/
theorem parseOptions_accepts_clean {fromString : List Char → AgentArg} {options : List Char}
    {o : ProfilerArgs} (h : parseOptions fromString (some options) = .ok o) :
    Clean o ∧ o.searchScopes ≠ [] ∧ (o.endToEnd = true ∨ o.progressClass ≠ [] ∧ o.lineno ≠ -1) ∧
      o.outputFile ≠ none := by
  simp only [parseOptions] at h
  cases hf : (getline '_' options).foldlM (applyOption fromString) {} with
  | error e => rw [hf] at h; cases h
  | ok o₁ =>
    rw [hf, ok_bind] at h
    split at h
    · cases h
    · next hm =>
      cases h
      have hc := (clean_init.foldlM (fun it hit hu => (mem_of_mem_getline hit hu).2 rfl) hf).withDefaultOutput
      simp only [missingRequired, decide_eq_true_eq, not_or, not_and, Bool.not_eq_false] at hm
      refine ⟨hc, hm.1, ?_, withDefaultOutput_ne_none o₁⟩
      by_cases he : (withDefaultOutput o₁).endToEnd = true
      · exact .inl he
      · exact .inr (hm.2 (by simpa using he))

theorem parseOptions_accepts_clean_at_sample :
    parseOptions sampleFromString (some "pkg=org.foo|org.bar_progress=Lorg/foo/Main:12_fix-exp".toList) =
        .ok sampleAccepted ∧ Clean sampleAccepted :=
  have h : parseOptions sampleFromString
      (some "pkg=org.foo|org.bar_progress=Lorg/foo/Main:12_fix-exp".toList) = .ok sampleAccepted := by
    rfl
  ⟨h, (parseOptions_accepts_clean h).1⟩

/-! ### Writing the options back -/

structure NameTable (fromString : List Char → AgentArg) (name : AgentArg → List Char) : Prop where
  read : ∀ a, fromString (name a) = a
  nonempty : ∀ a, name a ≠ []
  underscore : ∀ a, '_' ∉ name a
  equals : ∀ a, '=' ∉ name a

/-- The settings an option string can give: clean, with nonempty scopes, a warmup that
`std::stol(value) * 1000` produces without overflowing a `long`, and what the final check asks
for. -/
structure WellFormed (o : ProfilerArgs) extends Clean o : Prop where
  scopesNonempty : (∀ sc ∈ o.searchScopes, sc ≠ []) ∧ ∀ sc ∈ o.ignoredScopes, sc ≠ []
  required : o.searchScopes ≠ [] ∧ (o.endToEnd = true ∨ o.progressClass ≠ [] ∧ o.lineno ≠ -1)
  outputFileSet : o.outputFile ≠ none
  warmup : 1000 ∣ o.warmupTime ∧ o.warmupTime ≤ 9223372036854775000

def item (name : AgentArg → List Char) (a : AgentArg) (value : List Char) : List Char :=
  name a ++ '=' :: value

def renderItems (name : AgentArg → List Char) (o : ProfilerArgs) : List (List Char) :=
  [item name .searchScopes (['|'].intercalate o.searchScopes),
    item name .ignoredScopes (['|'].intercalate o.ignoredScopes),
    item name .progressPoint (o.progressClass ++ ':' :: decimal o.lineno)] ++
  (o.loggingLevel.map (item name .loggingLevel)).toList ++
  (o.outputFile.map (item name .outputFile)).toList ++
  (if o.endToEnd then [name .endToEnd] else []) ++
  [item name .warmup (natDecimal (o.warmupTime / 1000))] ++
  (if o.fixExp then [name .fixExp] else [])

def render (name : AgentArg → List Char) (o : ProfilerArgs) : List Char :=
  ['_'].intercalate (renderItems name o)

section Render
variable {fromString : List Char → AgentArg} {name : AgentArg → List Char}
  (hn : NameTable fromString name)
include hn

theorem applyOption_item (a : AgentArg) (o : ProfilerArgs) (v : List Char) :
    applyOption fromString o (item name a v) = store a (name a) v o := by
  rw [applyOption_eq, item, splitOption_append (hn.equals a), hn.read a]

theorem applyOption_flag (a : AgentArg) (o : ProfilerArgs) :
    applyOption fromString o (name a) = store a (name a) (name a) o := by
  rw [applyOption_eq, splitOption_flag (hn.equals a), hn.read a]

theorem item_clean {a : AgentArg} {v : List Char} (hv : '_' ∉ v) :
    item name a v ≠ [] ∧ '_' ∉ item name a v := by
  refine ⟨by simp [item, hn.nonempty a], fun h => ?_⟩
  rcases List.mem_append.1 h with h | h
  · exact hn.underscore a h
  · rcases List.mem_cons.1 h with h | h
    · cases h
    · exact hv h

end Render

theorem parseScopes_intercalate {scs : List (List Char)} (h : ∀ sc ∈ scs, sc ≠ [] ∧ Prepared sc) :
    parseScopes (['|'].intercalate scs) = scs := by
  rw [parseScopes, show getlineItems = getline '|' from rfl,
    getline_intercalate fun sc hsc => ⟨(h sc hsc).1, fun hb => ((h sc hsc).2 _ hb).2.1 rfl⟩]
  exact (List.map_congr_left fun sc hsc => List.map_congr_left fun c hc =>
    if_neg ((h sc hsc).2 c hc).1).trans (by simp)

theorem intercalate_no_underscore {scs : List (List Char)} (h : ∀ sc ∈ scs, Prepared sc) :
    '_' ∉ ['|'].intercalate scs := fun hu =>
  (mem_intercalate hu).elim (by decide) fun ⟨sc, hsc, hc⟩ => (h sc hsc _ hc).2.2 rfl

theorem decimal_no_underscore (n : Int) : '_' ∉ decimal n := by
  have hd : '_' ∉ natDecimal n.natAbs := fun h => ((natDecimal_digits _).2.1 _ h).2 rfl
  unfold decimal
  split
  · simpa using hd
  · exact hd

theorem store_progressPoint {cls : List Char} (hc : ':' ∉ cls) {n : Int}
    (hr : -2147483648 ≤ n ∧ n ≤ 2147483647) (option : List Char) (o : ProfilerArgs) :
    store .progressPoint option (cls ++ ':' :: decimal n) o =
      .ok { o with progressClass := cls, lineno := n } := by
  simp [store, findIdx?_append_cons hc, stoi, strtol_decimal, Option.filter_some, hr.1, hr.2]

theorem store_warmup {w : Nat} (hw : 1000 ∣ w ∧ w ≤ 9223372036854775000) (option : List Char)
    (o : ProfilerArgs) : store .warmup option (natDecimal (w / 1000)) o = .ok { o with warmupTime := w } := by
  obtain ⟨hne, hd, hs, hv⟩ := natDecimal_digits (w / 1000)
  have hs := (strtol_digits hne (fun c hc => (hd c hc).1) hs).1
  rw [hv] at hs
  have hw' : ((w / 1000 : Nat) : Int) * 1000 % ulongMod = w := by
    rw [ulongMod]; omega
  simp only [store, stol, hs, Option.filter_some]
  rw [if_pos (by simp only [decide_eq_true_eq]; omega)]
  simp only [hw', Int.toNat_ofNat]
  exact if_pos (by omega)

theorem foldlM_renderItems {fromString : List Char → AgentArg} {name : AgentArg → List Char}
    (hn : NameTable fromString name) {o : ProfilerArgs} (hw : WellFormed o) :
    (renderItems name o).foldlM (applyOption fromString) {} = .ok o := by
  obtain ⟨⟨hs, hi, hpc, hl, -, -⟩, ⟨hsn, hin⟩, -, -, hwu⟩ := hw
  have hss := parseScopes_intercalate fun sc h => ⟨hsn sc h, hs sc h⟩
  have his := parseScopes_intercalate fun sc h => ⟨hin sc h, hi sc h⟩
  rcases o with ⟨ss, is, pc, ln, _ | ll, _ | of, _ | _, w, _ | _⟩ <;>
  simp only [renderItems, List.foldlM_append, List.foldlM_cons, List.foldlM_nil, Option.map,
    Option.toList, if_true, if_false, applyOption_item hn, applyOption_flag hn,
    store_progressPoint hpc.2 hl, store_warmup hwu] at hss his ⊢ <;>
  simp only [store, hss, his, ok_bind, List.nil_append] <;> rfl

theorem mem_flag {b : Bool} {x it : List Char} (h : it ∈ if b then [x] else []) : it = x := by
  split at h <;> simp_all

/-- The option string `render` writes for a well-formed setting is read back as that setting:
the `_`-separated items, the `=` in each, the `|`-separated scope lists, the `class:line`
progress point and the numbers all cut where they were joined. -/
theorem parseOptions_render {fromString : List Char → AgentArg} {name : AgentArg → List Char}
    (hn : NameTable fromString name) {o : ProfilerArgs} (hw : WellFormed o) :
    parseOptions fromString (some (render name o)) = .ok o := by
  have hitems : ∀ it ∈ renderItems name o, it ≠ [] ∧ '_' ∉ it := by
    intro it hit
    simp only [renderItems, List.mem_append, List.mem_cons, List.mem_singleton, List.not_mem_nil,
      or_false, Option.mem_toList, Option.mem_def, Option.map_eq_some'] at hit
    rcases hit with ((((((rfl | rfl | rfl) | ⟨l, hl, rfl⟩) | ⟨f, hf, rfl⟩) | h) | rfl) | h)
    · exact item_clean hn (intercalate_no_underscore hw.searchScopes)
    · exact item_clean hn (intercalate_no_underscore hw.ignoredScopes)
    · refine item_clean hn fun h => ?_
      rcases List.mem_append.1 h with h | h
      · exact hw.progressClass.1 h
      · exact (List.mem_cons.1 h).elim (by decide) (decimal_no_underscore _)
    · exact item_clean hn (hw.loggingLevel l hl)
    · exact item_clean hn (hw.outputFile f hf)
    · rw [mem_flag h]; exact ⟨hn.nonempty _, hn.underscore _⟩
    · exact item_clean hn fun h => ((natDecimal_digits _).2.1 _ h).2 rfl
    · rw [mem_flag h]; exact ⟨hn.nonempty _, hn.underscore _⟩
  have hdef : withDefaultOutput o = o := if_neg hw.outputFileSet
  have hm : missingRequired o = false := by
    obtain ⟨hs, hp⟩ := hw.required
    simp only [missingRequired, hs, false_or, decide_eq_false_iff_not, not_and, not_or]
    rcases hp with hp | hp
    · simp [hp]
    · exact fun _ => hp
  simp only [parseOptions, render, getline_intercalate hitems, foldlM_renderItems hn hw, ok_bind,
    hdef, hm]
  rfl

def sampleArgs : ProfilerArgs :=
  { searchScopes := ["org/foo".toList], ignoredScopes := ["org/foo/test".toList],
    progressClass := "Lorg/foo/Main".toList, lineno := 12, outputFile := some "out.csv".toList,
    warmupTime := 5000, fixExp := true }

theorem parseOptions_render_at_sample :
    NameTable sampleFromString sampleName ∧ WellFormed sampleArgs ∧
      parseOptions sampleFromString (some (render sampleName sampleArgs)) = .ok sampleArgs :=
  have hn : NameTable sampleFromString sampleName :=
    ⟨fun a => by cases a <;> rfl, fun a => by cases a <;> decide, fun a => by cases a <;> decide,
      fun a => by cases a <;> decide⟩
  have hw : WellFormed sampleArgs :=
    ⟨⟨by decide, by decide, by decide, by decide, nofun, fun f hf => by cases hf; decide⟩,
      by decide, by decide, by decide, by decide⟩
  ⟨hn, hw, parseOptions_render hn hw⟩

end JCoz.Options
