/-
Letters and digits among the first characters.

The tables of letters and digits are long, and what they say is found by a search. The search is right because
the tables are sorted. Below 128 only a few entries matter, and they say what is decided there without them.

* `CodePointSet.countUpTo_eq`: the search counts the entries up to a number;
* `CodePointSet.contains_of_first`: what the entries below 128 say;
* `isLetter_eq_contains`, `isDecimalDigit_eq_contains`: the tables are right for all characters.
-/
import TapeMachine.Text.Letter

namespace TapeMachine

namespace CodePointSet

/-- The search counts the entries up to `n`, in a table whose entries up to `n` are the first `k`. -/
theorem countUpTo_eq {a : Array Nat} {n k lo hi : Nat} (hlo : lo ≤ k) (hhi : k ≤ hi) (hsize : hi ≤ a.size)
    (hk : ∀ i (h : i < a.size), a[i] ≤ n ↔ i < k) : countUpTo a n lo hi = k := by
  fun_induction countUpTo a n lo hi with
  | case1 lo hi hle => omega
  | case2 lo hi hlt mid hsmall ih =>
    have hmid : mid < a.size := by omega
    rw [Array.getElem?_eq_getElem hmid, Option.any_some, decide_eq_true_eq, hk] at hsmall
    exact ih (by omega) hhi hsize
  | case3 lo hi hlt mid hlarge ih =>
    have hmid : mid < a.size := by omega
    rw [Array.getElem?_eq_getElem hmid, Option.any_some, decide_eq_true_eq, hk] at hlarge
    exact ih hlo (by omega) (by omega)

theorem toList_changes_ofParts (parts : List (Array Nat)) :
    (ofParts parts).changes.toList = parts.flatMap Array.toList := by
  have hfold (done : Array Nat) :
      (parts.foldl (· ++ ·) done).toList = done.toList ++ parts.flatMap Array.toList := by
    induction parts generalizing done with
    | nil => simp
    | cons part parts ih => simp [ih]
  exact hfold #[]

/-- Membership is decided by how many entries are up to the character. -/
theorem contains_eq {s : CodePointSet} {below above : List Nat} {c : Char}
    (h : s.changes.toList = below ++ above) (hbelow : ∀ x ∈ below, x ≤ c.toNat)
    (habove : ∀ x ∈ above, c.toNat < x) : s.contains c = decide (below.length % 2 = 1) := by
  have hsize : s.changes.size = below.length + above.length := by
    rw [← Array.length_toList, h, List.length_append]
  have hcount (i : Nat) (hi : i < s.changes.size) : s.changes[i] ≤ c.toNat ↔ i < below.length := by
    have hget : (below ++ above)[i]? = some s.changes[i] := by
      rw [← h, Array.getElem?_toList, Array.getElem?_eq_getElem hi]
    by_cases hin : i < below.length
    · rw [List.getElem?_append_left hin] at hget
      exact iff_of_true (hbelow _ (List.mem_of_getElem? hget)) hin
    · rw [List.getElem?_append_right (Nat.le_of_not_lt hin)] at hget
      exact iff_of_false (Nat.not_le.mpr (habove _ (List.mem_of_getElem? hget))) hin
  rw [contains, countUpTo_eq (Nat.zero_le _) (by omega) (Nat.le_refl _) hcount]

/-- Below 128 the first entries decide, if all others are at least that. -/
theorem contains_of_first {s : CodePointSet} {first later : List Nat} {c : Char} (h : c.toNat < 0x80)
    (hlist : s.changes.toList = first ++ later) (hlater : ∀ x ∈ later, 0x80 ≤ x)
    (hsorted : ∀ n < 0x80, first = first.filter (· ≤ n) ++ first.filter (n < ·)) :
    s.contains c = decide ((first.filter (· ≤ c.toNat)).length % 2 = 1) := by
  rw [hsorted c.toNat h, List.append_assoc] at hlist
  have habove : ∀ x ∈ first.filter (c.toNat < ·) ++ later, c.toNat < x := by
    refine List.forall_mem_append.mpr ⟨fun x hx => ?_, fun x hx => Nat.lt_of_lt_of_le h (hlater x hx)⟩
    exact of_decide_eq_true (List.mem_filter.mp hx).2
  have hbelow : ∀ x ∈ first.filter (· ≤ c.toNat), x ≤ c.toNat :=
    fun x hx => of_decide_eq_true (List.mem_filter.mp hx).2
  exact contains_eq hlist hbelow habove

end CodePointSet

namespace Letter

/-- The entries of the letters below 128. -/
def firstLetters : List Nat := [0x41, 0x5b, 0x61, 0x7b]

/-- The entries of the digits below 128. -/
def firstDigits : List Nat := [0x30, 0x3a]

theorem exists_changes_letters : ∃ later, letters.changes.toList = firstLetters ++ later ∧
    ∀ x ∈ later, 0x80 ≤ x := by
  refine ⟨letters.changes.toList.drop 4, ?_, ?_⟩
  · rw [letters, CodePointSet.toList_changes_ofParts]
    decide +kernel
  · rw [letters, CodePointSet.toList_changes_ofParts]
    decide +kernel

theorem exists_changes_digits : ∃ later, digits.changes.toList = firstDigits ++ later ∧
    ∀ x ∈ later, 0x80 ≤ x := by
  refine ⟨digits.changes.toList.drop 2, ?_, ?_⟩
  · rw [digits, CodePointSet.toList_changes_ofParts]
    decide +kernel
  · rw [digits, CodePointSet.toList_changes_ofParts]
    decide +kernel

end Letter

/-- The letters below 128 are those of the alphabet. -/
theorem isLetter_eq_isAlpha {c : Char} (h : c.toNat < 0x80) : isLetter c = c.isAlpha :=
  if_pos h

/-- **The letters are those of the table**, below 128 too. -/
theorem isLetter_eq_contains (c : Char) : isLetter c = Letter.letters.contains c := by
  by_cases h : c.toNat < 0x80
  · obtain ⟨later, hlist, hlater⟩ := Letter.exists_changes_letters
    have hodd : ∀ n < 0x80, decide ((Letter.firstLetters.filter (· ≤ n)).length % 2 = 1)
        = (Char.ofNat n).isAlpha := by decide
    rw [isLetter_eq_isAlpha h, CodePointSet.contains_of_first h hlist hlater (by decide), hodd c.toNat h,
      Char.ofNat_toNat]
  · exact if_neg h

/-- **The digits are those of the table**, below 128 too. -/
theorem isDecimalDigit_eq_contains (c : Char) : isDecimalDigit c = Letter.digits.contains c := by
  by_cases h : c.toNat < 0x80
  · obtain ⟨later, hlist, hlater⟩ := Letter.exists_changes_digits
    have hodd : ∀ n < 0x80, decide ((Letter.firstDigits.filter (· ≤ n)).length % 2 = 1)
        = (Char.ofNat n).isDigit := by decide
    rw [isDecimalDigit, if_pos h, CodePointSet.contains_of_first h hlist hlater (by decide), hodd c.toNat h,
      Char.ofNat_toNat]
  · exact if_neg h

end TapeMachine
