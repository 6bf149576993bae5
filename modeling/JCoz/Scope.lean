import Mathlib.Data.List.Infix

/-! The scope filter of `OnClassPrepare`: `is_class_fqn_prefix` tests a scope against the
signature `L<name>;` with `strstr`. A C string is the list of its characters. -/
namespace JCoz.Scope

/-- `strstr(haystack, needle)`: the offset of the first occurrence of `needle`; the empty
needle occurs at offset 0. -/
def strstr (needle : List Char) : List Char → Option Nat
  | [] => if needle.isPrefixOf [] then some 0 else none
  | c :: hay => if needle.isPrefixOf (c :: hay) then some 0 else (strstr needle hay).map (· + 1)

def isClassFqnPrefix (pre classSig : List Char) : Bool := strstr pre classSig == some 1

def containsClassFqnPrefix (elements : List (List Char)) (classSig : List Char) : Bool :=
  elements.any fun scope => isClassFqnPrefix scope classSig

def isInAllowedScope (search ignored : List (List Char)) (classSig : List Char) : Bool :=
  !containsClassFqnPrefix ignored classSig && containsClassFqnPrefix search classSig

def classSig (name : List Char) : List Char := 'L' :: (name ++ [';'])

def prepareScope (scope : List Char) : List Char := scope.map fun c => if c = '.' then '/' else c

def getlineItems (value : List Char) : List (List Char) :=
  let pieces := value.splitOn '|'
  if pieces.getLast? = some [] then pieces.dropLast else pieces

def parseScopes (value : List Char) : List (List Char) := (getlineItems value).map prepareScope

/-- A prefix scan of the name: some search scope is a prefix of it and no ignored scope is. -/
def referenceInScope (search ignored : List (List Char)) (name : List Char) : Bool :=
  search.any (·.isPrefixOf name) && !ignored.any (·.isPrefixOf name)

theorem strstr_eq_zero {needle hay : List Char} : strstr needle hay = some 0 ↔ needle <+: hay := by
  cases hay <;> simp only [strstr] <;> split <;> simp_all [List.isPrefixOf_iff_prefix]

theorem isClassFqnPrefix_classSig (pre name : List Char) :
    isClassFqnPrefix pre (classSig name) = true ↔
      pre <+: name ++ [';'] ∧ ¬pre <+: classSig name := by
  unfold isClassFqnPrefix
  rw [classSig, strstr, ← classSig]
  by_cases h : pre <+: classSig name
  · simp [List.isPrefixOf_iff_prefix.mpr h, h]
  · rw [if_neg (by rwa [List.isPrefixOf_iff_prefix])]
    simp [h, ← strstr_eq_zero]

theorem isInAllowedScope_classSig (search ignored : List (List Char)) (name : List Char) :
    isInAllowedScope search ignored (classSig name) = true ↔
      (∃ p ∈ search, p <+: name ++ [';'] ∧ ¬p <+: classSig name) ∧
        ¬∃ p ∈ ignored, p <+: name ++ [';'] ∧ ¬p <+: classSig name := by
  simp [isInAllowedScope, containsClassFqnPrefix, isClassFqnPrefix_classSig, and_comm]

/-- `search_scopes=L|org.Foo` and `search_scopes=|org.Foo`. The scope `L` names every class
whose name starts with `L`, and the empty scope names every class; the scan finds both at the
signature's own `L` and counts neither. -/
theorem allowedScope_misses_leading_scopes :
    parseScopes "L|org.Foo".toList = ["L".toList, "org/Foo".toList] ∧
    referenceInScope (parseScopes "L|org.Foo".toList) [] "Loader".toList = true ∧
    isInAllowedScope (parseScopes "L|org.Foo".toList) [] (classSig "Loader".toList) = false ∧
    parseScopes "|org.Foo".toList = [[], "org/Foo".toList] ∧
    referenceInScope (parseScopes "|org.Foo".toList) [] "com/Bar".toList = true ∧
    isInAllowedScope (parseScopes "|org.Foo".toList) [] (classSig "com/Bar".toList) = false := by
  decide

def Plain (p : List Char) : Prop := p ≠ [] ∧ p.head? ≠ some 'L' ∧ ';' ∉ p

instance : DecidablePred Plain := fun _ => inferInstanceAs (Decidable (_ ∧ _ ∧ _))

theorem prefix_append_semicolon {p name : List Char} (hp : ';' ∉ p) :
    p <+: name ++ [';'] ↔ p <+: name := by
  induction p generalizing name with
  | nil => simp
  | cons c p ih =>
    cases name with
    | nil => simp_all [eq_comm]
    | cons d name =>
      simp only [List.cons_append, List.cons_prefix_cons]
      rw [ih fun h => hp (List.mem_cons_of_mem c h)]

theorem isClassFqnPrefix_plain {p : List Char} (hp : Plain p) (name : List Char) :
    isClassFqnPrefix p (classSig name) = p.isPrefixOf name := by
  obtain ⟨hne, hL, hsc⟩ := hp
  obtain ⟨c, p, rfl⟩ := List.exists_cons_of_ne_nil hne
  have hc : c ≠ 'L' := fun h => hL (by rw [h]; rfl)
  rw [Bool.eq_iff_iff, isClassFqnPrefix_classSig, List.isPrefixOf_iff_prefix,
    prefix_append_semicolon hsc, classSig]
  simp [List.cons_prefix_cons, hc]

/-- With plain scopes only, `is_in_allowed_scope` is the naive prefix scan. -/
theorem isInAllowedScope_plain (search ignored : List (List Char)) (hs : ∀ p ∈ search, Plain p)
    (hi : ∀ p ∈ ignored, Plain p) (name : List Char) :
    isInAllowedScope search ignored (classSig name) = referenceInScope search ignored name := by
  have scan (l : List (List Char)) (hl : ∀ p ∈ l, Plain p) :
      (l.any fun p => isClassFqnPrefix p (classSig name)) = l.any (·.isPrefixOf name) := by
    induction l with
    | nil => rfl
    | cons p l ih =>
      simp only [List.any_cons, isClassFqnPrefix_plain (hl p (List.mem_cons_self p l)),
        ih fun q hq => hl q (List.mem_cons_of_mem p hq)]
  simp only [isInAllowedScope, containsClassFqnPrefix, referenceInScope, scan search hs,
    scan ignored hi, Bool.and_comm]

theorem isInAllowedScope_plain_at_orgFoo :
    ((∀ p ∈ parseScopes "org.foo|com.bar".toList, Plain p) ∧
      ∀ p ∈ parseScopes "org.foo.internal".toList, Plain p) ∧
    isInAllowedScope (parseScopes "org.foo|com.bar".toList) (parseScopes "org.foo.internal".toList)
        (classSig "org/foo/Main".toList) =
      referenceInScope (parseScopes "org.foo|com.bar".toList) (parseScopes "org.foo.internal".toList)
        "org/foo/Main".toList :=
  have hs : ∀ p ∈ parseScopes "org.foo|com.bar".toList, Plain p := by decide
  have hi : ∀ p ∈ parseScopes "org.foo.internal".toList, Plain p := by decide
  ⟨⟨hs, hi⟩, isInAllowedScope_plain _ _ hs hi _⟩

end JCoz.Scope
