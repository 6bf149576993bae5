import Mathlib.Data.List.Basic
import Mathlib.Algebra.Group.Nat.Basic
import Mathlib.Algebra.Group.Int

/-! `Profiler::cleanSignature`, in place on a buffer: the string's bytes, its terminator and
whatever memory follows; `strlen` is stored in an `int`. -/
namespace JCoz.Signature

def nul : Char := '\x00'

def cstr (buf : List Char) : List Char := buf.takeWhile (· != nul)

/-- `int sig_len = strlen(sig)`: the conversion to a 32-bit `int` keeps the value modulo
`2^32`. -/
def toInt32 (n : Nat) : Int :=
  if n % 2 ^ 32 < 2 ^ 31 then (n % 2 ^ 32 : Nat) else ((n % 2 ^ 32 : Nat) : Int) - 2 ^ 32

def shiftLoop : Nat → Nat → List Char → List Char
  | _, 0, buf => buf
  | i, n + 1, buf => shiftLoop (i + 1) n (buf.set i (buf.getD (i + 1) nul))

/-- The second loop, `n` iterations from index `i`: `/` becomes `.`, and the first `$` ends
the string and the function. -/
def rewriteLoop : Nat → Nat → List Char → List Char
  | _, 0, buf => buf
  | i, n + 1, buf =>
    if buf.getD i nul = '/' then rewriteLoop (i + 1) n (buf.set i '.')
    else if buf.getD i nul = '$' then buf.set i nul
    else rewriteLoop (i + 1) n buf

def cleanSignature (sig : List Char) : List Char :=
  let sigLen := toInt32 (cstr sig).length
  if sigLen < 3 then sig
  else
    rewriteLoop 0 (sigLen - 2).toNat
      ((shiftLoop 0 (sigLen - 1).toNat sig).set (sigLen - 2).toNat nul)

def dot (c : Char) : Char := if c = '/' then '.' else c

/-- Drop the first and last characters, turn every `/` into `.`, and cut at the first `$`. -/
def reference (s : List Char) : List Char := ((s.drop 1).dropLast.map dot).takeWhile (· != '$')

theorem cstr_append {s : List Char} (hs : nul ∉ s) (rest : List Char) :
    cstr (s ++ nul :: rest) = s := by
  rw [cstr, List.takeWhile_append_of_pos fun c hc => bne_iff_ne.mpr (by rintro rfl; exact hs hc)]
  simp [List.takeWhile_cons]

theorem toInt32_of_lt {n : Nat} (h : n < 2 ^ 31) : toInt32 n = n := by
  rw [toInt32, Nat.mod_eq_of_lt (by omega), if_pos h]

theorem toInt32_le (n : Nat) : toInt32 n ≤ n := by
  unfold toInt32
  split <;> omega

theorem getD_append_cons (pre rest : List Char) (c d : Char) :
    (pre ++ c :: rest).getD pre.length d = c := by
  rw [List.getD_eq_getElem?_getD, List.getElem?_append_right le_rfl, Nat.sub_self,
    List.getElem?_cons_zero, Option.getD_some]

theorem set_append_cons (pre rest : List Char) (c x : Char) :
    (pre ++ c :: rest).set pre.length x = pre ++ x :: rest := by
  rw [List.set_append_right _ _ le_rfl, Nat.sub_self, List.set_cons_zero]

theorem shiftLoop_append (pre m rest : List Char) (a : Char) :
    shiftLoop pre.length m.length (pre ++ a :: (m ++ rest)) =
      pre ++ m ++ (a :: m).getLast (List.cons_ne_nil a m) :: rest := by
  induction m generalizing pre a with
  | nil => simp [shiftLoop]
  | cons b m ih =>
    have h := ih (pre ++ [b]) b
    simp only [List.length_append, List.length_singleton, List.append_assoc, List.singleton_append]
      at h
    rw [List.length_cons, shiftLoop, List.cons_append,
      show pre.length + 1 = (pre ++ [a]).length by simp,
      show pre ++ a :: b :: (m ++ rest) = (pre ++ [a]) ++ b :: (m ++ rest) by simp,
      getD_append_cons, show (pre ++ [a]).length = pre.length + 1 by simp,
      show (pre ++ [a]) ++ b :: (m ++ rest) = pre ++ a :: (b :: (m ++ rest)) by simp,
      set_append_cons, h, List.getLast_cons (List.cons_ne_nil b m)]
    simp

theorem rewriteLoop_cstr (pre m tail : List Char) (hpre : nul ∉ pre) (hm : nul ∉ m) :
    cstr (rewriteLoop pre.length m.length (pre ++ m ++ nul :: tail)) =
      pre ++ (m.map dot).takeWhile (· != '$') := by
  induction m generalizing pre with
  | nil => simpa [rewriteLoop] using cstr_append hpre tail
  | cons c m ih =>
    have hc : c ≠ nul := fun h => hm (h ▸ List.mem_cons_self c m)
    have hm' : nul ∉ m := fun h => hm (List.mem_cons_of_mem c h)
    rw [List.length_cons, rewriteLoop, List.append_assoc, List.cons_append, getD_append_cons]
    by_cases hs : c = '/'
    · rw [if_pos hs, set_append_cons,
        show pre ++ '.' :: (m ++ nul :: tail) = (pre ++ ['.']) ++ m ++ nul :: tail by simp,
        show pre.length + 1 = (pre ++ ['.']).length by simp,
        ih _ (List.not_mem_append hpre (by decide)) hm']
      simp [dot, hs]
    · rw [if_neg hs]
      by_cases hd : c = '$'
      · rw [if_pos hd, set_append_cons, cstr_append hpre]
        simp [dot, hd]
      · rw [if_neg hd,
          show pre ++ c :: (m ++ nul :: tail) = (pre ++ [c]) ++ m ++ nul :: tail by simp,
          show pre.length + 1 = (pre ++ [c]).length by simp,
          ih _ (List.not_mem_append hpre fun h => hc (List.mem_singleton.mp h).symm) hm']
        simp [dot, hs, hd]

theorem length_shiftLoop (i n : Nat) (buf : List Char) : (shiftLoop i n buf).length = buf.length := by
  induction n generalizing i buf with
  | zero => rfl
  | succ n ih => rw [shiftLoop, ih, List.length_set]

theorem length_rewriteLoop (i n : Nat) (buf : List Char) :
    (rewriteLoop i n buf).length = buf.length := by
  induction n generalizing i buf with
  | zero => rfl
  | succ n ih =>
    rw [rewriteLoop]
    split
    · rw [ih, List.length_set]
    · split
      · rw [List.length_set]
      · rw [ih]

theorem shiftLoop_getElem? {i n j : Nat} (h : i + n ≤ j) (buf : List Char) :
    (shiftLoop i n buf)[j]? = buf[j]? := by
  induction n generalizing i buf with
  | zero => rfl
  | succ n ih => rw [shiftLoop, ih (by omega), List.getElem?_set_ne (by omega)]

theorem rewriteLoop_getElem? {i n j : Nat} (h : i + n ≤ j) (buf : List Char) :
    (rewriteLoop i n buf)[j]? = buf[j]? := by
  induction n generalizing i buf with
  | zero => rfl
  | succ n ih =>
    rw [rewriteLoop]
    split
    · rw [ih (by omega), List.getElem?_set_ne (by omega)]
    · split
      · rw [List.getElem?_set_ne (by omega)]
      · rw [ih (by omega)]

theorem reference_length_le (s : List Char) : (reference s).length ≤ s.length - 2 := by
  have := (List.takeWhile_sublist (· != '$') (l := (s.drop 1).dropLast.map dot)).length_le
  simp only [List.length_map, List.length_dropLast, List.length_drop] at this
  rw [reference]; omega

theorem cleanSignature_of_lt {sig : List Char} (h : toInt32 (cstr sig).length < 3) :
    cleanSignature sig = sig := if_pos h

theorem length_cleanSignature (sig : List Char) : (cleanSignature sig).length = sig.length := by
  simp only [cleanSignature]
  split
  · rfl
  · rw [length_rewriteLoop, List.length_set, length_shiftLoop]

theorem cleanSignature_getElem?_of_le {sig : List Char} {i : Nat} (hi : (cstr sig).length ≤ i) :
    (cleanSignature sig)[i]? = sig[i]? := by
  have hle := toInt32_le (cstr sig).length
  simp only [cleanSignature]
  split
  · rfl
  · rw [rewriteLoop_getElem? (by omega), List.getElem?_set_ne (by omega),
      shiftLoop_getElem? (by omega)]

theorem cstr_cleanSignature {c z : Char} {m : List Char} (hs : nul ∉ c :: (m ++ [z]))
    (h3 : 0 < m.length) (h31 : m.length + 2 < 2 ^ 31) (rest : List Char) :
    cstr (cleanSignature (c :: (m ++ [z]) ++ nul :: rest)) = (m.map dot).takeWhile (· != '$') := by
  have hm : nul ∉ m := fun h => hs (List.mem_cons_of_mem c (List.mem_append_left _ h))
  have hl : (c :: (m ++ [z])).length = m.length + 2 := by simp
  have hsig : toInt32 (cstr (c :: (m ++ [z]) ++ nul :: rest)).length = ((m.length + 2 : Nat) : Int) := by
    rw [cstr_append hs, hl, toInt32_of_lt h31]
  simp only [cleanSignature, hsig]
  rw [if_neg (by omega),
    show ((m.length + 2 : Nat) - 1 : Int).toNat = (m ++ [z]).length by
      rw [List.length_append, List.length_singleton]; omega,
    show ((m.length + 2 : Nat) - 2 : Int).toNat = m.length by omega,
    show c :: (m ++ [z]) ++ nul :: rest = [] ++ c :: ((m ++ [z]) ++ nul :: rest) from rfl,
    show (0 : Nat) = ([] : List Char).length from rfl, shiftLoop_append, List.nil_append,
    List.append_assoc, List.singleton_append, set_append_cons,
    show m ++ nul :: _ = [] ++ m ++ nul :: _ from rfl,
    rewriteLoop_cstr [] _ _ (List.not_mem_nil _) hm]
  rfl

/-- For a string of 3 to `INT_MAX` bytes the result is `reference`; a shorter
string is left alone; and no byte at or past the terminator is written. -/
theorem cleanSignature_spec (s rest : List Char) (hs : nul ∉ s) :
    (3 ≤ s.length → s.length < 2 ^ 31 → cstr (cleanSignature (s ++ nul :: rest)) = reference s) ∧
    (s.length < 3 → cleanSignature (s ++ nul :: rest) = s ++ nul :: rest) ∧
    (cleanSignature (s ++ nul :: rest)).length = s.length + 1 + rest.length ∧
    ∀ i, s.length ≤ i → (cleanSignature (s ++ nul :: rest))[i]? = (s ++ nul :: rest)[i]? := by
  have hlen : (cstr (s ++ nul :: rest)).length = s.length := by rw [cstr_append hs]
  refine ⟨fun h3 h31 => ?_, fun h3 => cleanSignature_of_lt ?_, ?_,
    fun i hi => cleanSignature_getElem?_of_le (hlen ▸ hi)⟩
  · obtain ⟨c, s, rfl⟩ := List.exists_cons_of_ne_nil (List.ne_nil_of_length_pos (show 0 < s.length by omega))
    obtain ⟨m, z, rfl⟩ := (List.eq_nil_or_concat s).resolve_left (by rintro rfl; simp at h3)
    rw [List.concat_eq_append] at *
    rw [cstr_cleanSignature hs (by simp at h3; omega) (by simp at h31; omega), reference, List.drop_one, List.tail_cons,
      List.dropLast_concat]
  · rw [hlen, toInt32_of_lt (by omega)]; omega
  · rw [length_cleanSignature, List.length_append, List.length_cons]; omega

theorem cleanSignature_spec_at_inner :
    nul ∉ "Lcom/foo/Bar$Inner;".toList ∧
    (3 ≤ "Lcom/foo/Bar$Inner;".toList.length → "Lcom/foo/Bar$Inner;".toList.length < 2 ^ 31 →
      cstr (cleanSignature ("Lcom/foo/Bar$Inner;".toList ++ nul :: [])) =
        reference "Lcom/foo/Bar$Inner;".toList) ∧
    cstr (cleanSignature ("Lcom/foo/Bar$Inner;".toList ++ nul :: [])) = "com.foo.Bar".toList :=
  have hs : nul ∉ "Lcom/foo/Bar$Inner;".toList := by decide
  ⟨hs, (cleanSignature_spec _ [] hs).1, by decide⟩

/-- At `strlen = 2^31` the `int` wraps to `INT_MIN`, below 3, so the function returns at once: a
string of `2^31` bytes keeps its first and last characters. -/
theorem cleanSignature_skips_at_int_overflow :
    cleanSignature (List.replicate (2 ^ 31) 'a' ++ [nul]) = List.replicate (2 ^ 31) 'a' ++ [nul] ∧
    cstr (cleanSignature (List.replicate (2 ^ 31) 'a' ++ [nul])) ≠
      reference (List.replicate (2 ^ 31) 'a') := by
  have hs : nul ∉ List.replicate (2 ^ 31) 'a' := fun h => absurd (List.eq_of_mem_replicate h) (by decide)
  have hskip : cleanSignature (List.replicate (2 ^ 31) 'a' ++ [nul]) =
      List.replicate (2 ^ 31) 'a' ++ [nul] :=
    cleanSignature_of_lt (by rw [cstr_append hs, List.length_replicate]; decide)
  refine ⟨hskip, fun h => ?_⟩
  have hle := reference_length_le (List.replicate (2 ^ 31) 'a')
  rw [← h, hskip, cstr_append hs, List.length_replicate] at hle
  omega

end JCoz.Signature
