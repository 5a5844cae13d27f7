/-
Balanced command sequences.

A `[` opens a loop and a `]` closes one; all other commands leave the nesting alone.

* `Covered`: no part from the start on closes more loops than it opens;
* `Balanced`: moreover every loop is closed in the end;
* `Matching`: two brackets are partners, which means that what stands between them is balanced;
* `Matching.right_unique`, `Matching.left_unique`: a bracket has at most one partner.

Most proofs use a matching pair through `matching_iff`, which cuts the commands into the part before
the pair, the part inside and the part behind.
-/
import TapeMachine.Program.Command

namespace TapeMachine.Brackets

/-- How many loops the commands open. -/
def opened (cs : List Command) : Nat :=
  cs.count .loopStart

/-- How many loops the commands close. -/
def closed (cs : List Command) : Nat :=
  cs.count .loopEnd

@[simp] theorem opened_nil : opened [] = 0 := rfl

@[simp] theorem closed_nil : closed [] = 0 := rfl

@[simp] theorem opened_append (a b : List Command) : opened (a ++ b) = opened a + opened b :=
  List.count_append

@[simp] theorem closed_append (a b : List Command) : closed (a ++ b) = closed a + closed b :=
  List.count_append

@[simp] theorem opened_cons_loopStart (cs : List Command) :
    opened (.loopStart :: cs) = opened cs + 1 :=
  List.count_cons_self

@[simp] theorem closed_cons_loopStart (cs : List Command) :
    closed (.loopStart :: cs) = closed cs :=
  List.count_cons_of_ne (by decide)

@[simp] theorem opened_cons_loopEnd (cs : List Command) : opened (.loopEnd :: cs) = opened cs :=
  List.count_cons_of_ne (by decide)

@[simp] theorem closed_cons_loopEnd (cs : List Command) :
    closed (.loopEnd :: cs) = closed cs + 1 :=
  List.count_cons_self

/-- The commands that are not brackets. -/
def IsPlain (c : Command) : Prop :=
  c ≠ .loopStart ∧ c ≠ .loopEnd

theorem opened_cons_of_isPlain {c : Command} (hc : IsPlain c) (cs : List Command) :
    opened (c :: cs) = opened cs :=
  List.count_cons_of_ne hc.1

theorem closed_cons_of_isPlain {c : Command} (hc : IsPlain c) (cs : List Command) :
    closed (c :: cs) = closed cs :=
  List.count_cons_of_ne hc.2

/-! ### Covered sequences -/

/-- No part of the commands from the start on closes more loops than it opens. -/
def Covered (cs : List Command) : Prop :=
  ∀ n, closed (cs.take n) ≤ opened (cs.take n)

theorem Covered.closed_le {cs : List Command} (h : Covered cs) : closed cs ≤ opened cs := by
  have hall := h cs.length
  rwa [List.take_length] at hall

theorem covered_nil : Covered [] := by
  intro n
  simp

theorem Covered.append {a b : List Command} (ha : Covered a) (hb : Covered b) :
    Covered (a ++ b) := by
  intro n
  have h1 := ha n
  have h2 := hb (n - a.length)
  rw [List.take_append, closed_append, opened_append]
  omega

theorem Covered.of_append {a b : List Command} (h : Covered (a ++ b)) : Covered a := by
  intro n
  have hn := h (min n a.length)
  rw [List.take_append, show min n a.length - a.length = 0 by omega, List.take_zero,
    List.append_nil, List.take_eq_take_min.symm] at hn
  exact hn

theorem covered_loopStart : Covered [.loopStart] := by
  intro n
  rcases n with _ | n
  · simp
  · rw [List.take_succ_cons, List.take_nil]
    simp

theorem covered_singleton_of_isPlain {c : Command} (hc : IsPlain c) : Covered [c] := by
  intro n
  rcases n with _ | n
  · simp
  · rw [List.take_succ_cons, List.take_nil, closed_cons_of_isPlain hc]
    simp

/-- A further `]` is covered if a loop is still open. -/
theorem Covered.snoc_loopEnd {cs : List Command} (h : Covered cs) (hlt : closed cs < opened cs) :
    Covered (cs ++ [.loopEnd]) := by
  intro n
  by_cases hn : n ≤ cs.length
  · rw [List.take_append_of_le_length hn]
    exact h n
  · rw [List.take_of_length_le (by simp; omega), closed_append, opened_append]
    simp
    omega

/-- A `]` behind a part that closes all its loops is not covered. -/
theorem not_covered_of_loopEnd {a d : List Command} (h : opened a = closed a) :
    ¬ Covered (a ++ .loopEnd :: d) := by
  intro hcov
  have hn := (show Covered ((a ++ [.loopEnd]) ++ d) by simpa using hcov).of_append.closed_le
  simp at hn
  omega

/-! ### Balanced sequences -/

/-- No part from the start on closes more loops than it opens, and the whole closes as many. -/
structure Balanced (cs : List Command) : Prop where
  covered : Covered cs
  even : opened cs = closed cs

theorem balanced_nil : Balanced [] :=
  ⟨covered_nil, rfl⟩

theorem Balanced.append {a b : List Command} (ha : Balanced a) (hb : Balanced b) :
    Balanced (a ++ b) := by
  refine ⟨ha.covered.append hb.covered, ?_⟩
  rw [opened_append, closed_append, ha.even, hb.even]

theorem balanced_singleton_of_isPlain {c : Command} (hc : IsPlain c) : Balanced [c] := by
  refine ⟨covered_singleton_of_isPlain hc, ?_⟩
  rw [opened_cons_of_isPlain hc, closed_cons_of_isPlain hc, opened_nil, closed_nil]

/-- A loop is balanced if its body is. -/
theorem Balanced.loop {b : List Command} (hb : Balanced b) :
    Balanced (.loopStart :: (b ++ [.loopEnd])) := by
  have heven := hb.even
  have hcov : Covered ([.loopStart] ++ b) := covered_loopStart.append hb.covered
  refine ⟨?_, by simp; omega⟩
  have hlt : closed ([.loopStart] ++ b) < opened ([.loopStart] ++ b) := by
    simp
    omega
  simpa using hcov.snoc_loopEnd hlt

/-! ### Matching brackets -/

/-- The brackets at `i` and `j` are partners. -/
structure Matching (cs : List Command) (i j : Nat) : Prop where
  lt : i < j
  start : cs[i]? = some .loopStart
  stop : cs[j]? = some .loopEnd
  balanced : Balanced ((cs.take j).drop (i + 1))

/-- Cuts a list at one of its positions. -/
theorem eq_take_append_drop {α : Type} {l : List α} {i : Nat} {a : α} (h : l[i]? = some a) :
    l = l.take i ++ a :: l.drop (i + 1) := by
  obtain ⟨hi, ha⟩ := List.getElem?_eq_some_iff.mp h
  rw [← ha, ← List.drop_eq_getElem_cons hi, List.take_append_drop]

theorem matching_iff {cs : List Command} {i j : Nat} :
    Matching cs i j ↔ ∃ a b d, cs = a ++ .loopStart :: (b ++ .loopEnd :: d) ∧ Balanced b ∧
      a.length = i ∧ a.length + b.length + 1 = j := by
  constructor
  · intro h
    have hlt := h.lt
    obtain ⟨hj, -⟩ := List.getElem?_eq_some_iff.mp h.stop
    have hi : (cs.take j)[i]? = some .loopStart := by
      rw [List.getElem?_take_of_lt hlt]
      exact h.start
    refine ⟨(cs.take j).take i, (cs.take j).drop (i + 1), cs.drop (j + 1), ?_, h.balanced, ?_, ?_⟩
    · -- cut at the `]` first, and what is before it at the `[`
      have hleft := eq_take_append_drop hi
      have hright := eq_take_append_drop h.stop
      rw [← List.cons_append, ← List.append_assoc, ← hleft, ← hright]
    · simp
      omega
    · simp
      omega
  · rintro ⟨a, b, d, rfl, hb, rfl, rfl⟩
    refine ⟨by omega, by simp, ?_, ?_⟩
    · rw [List.getElem?_append_right (by omega),
        show a.length + b.length + 1 - a.length = b.length + 1 by omega, List.getElem?_cons_succ]
      simp
    · have hcut : (a ++ .loopStart :: (b ++ .loopEnd :: d)).take (a.length + b.length + 1)
          = a ++ .loopStart :: b := by
        rw [List.take_append, List.take_of_length_le (by omega),
          show a.length + b.length + 1 - a.length = b.length + 1 by omega, List.take_succ_cons]
        simp
      rw [hcut, List.drop_append, List.drop_of_length_le (by omega)]
      simpa using hb

theorem Matching.append_right {cs : List Command} {i j : Nat} (h : Matching cs i j)
    (d : List Command) : Matching (cs ++ d) i j := by
  obtain ⟨a, b, e, rfl, hb, hi, hj⟩ := matching_iff.mp h
  exact matching_iff.mpr ⟨a, b, e ++ d, by simp, hb, hi, hj⟩

/-- The first `]` that is not covered is determined by the commands. -/
theorem eq_of_append_loopEnd_eq {b b' d d' : List Command} (hb : Balanced b) (hb' : Balanced b')
    (h : b ++ .loopEnd :: d = b' ++ .loopEnd :: d') : b = b' := by
  rcases List.append_eq_append_iff.mp h with ⟨e, rfl, he⟩ | ⟨e, rfl, he⟩
  · rcases e with _ | ⟨c, e⟩
    · simp
    · rw [List.cons_append, List.cons.injEq] at he
      rw [← he.1] at hb'
      exact absurd hb'.covered (not_covered_of_loopEnd hb.even)
  · rcases e with _ | ⟨c, e⟩
    · simp
    · rw [List.cons_append, List.cons.injEq] at he
      rw [← he.1] at hb
      exact absurd hb.covered (not_covered_of_loopEnd hb'.even)

theorem Matching.right_unique {cs : List Command} {i j j' : Nat} (h : Matching cs i j)
    (h' : Matching cs i j') : j = j' := by
  obtain ⟨a, b, d, rfl, hb, rfl, rfl⟩ := matching_iff.mp h
  obtain ⟨a', b', d', heq, hb', hlen, rfl⟩ := matching_iff.mp h'
  obtain ⟨rfl, htail⟩ := List.append_inj heq hlen.symm
  rw [List.cons.injEq] at htail
  rw [eq_of_append_loopEnd_eq hb hb' htail.2]

/-- Behind a balanced part there is one `[` only that its end can belong to. -/
theorem eq_of_append_loopStart_eq {a a' b b' : List Command} (hb : Balanced b) (hb' : Balanced b')
    (h : a ++ .loopStart :: b = a' ++ .loopStart :: b') : a = a' := by
  -- If one `[` stood before the other, the part between them would close a loop too many.
  have key : ∀ {e b b' : List Command}, Balanced b → Balanced b' →
      .loopStart :: b = e ++ .loopStart :: b' → e = [] := by
    intro e b b' hb hb' he
    rcases e with _ | ⟨c, e⟩
    · rfl
    · rw [List.cons_append, List.cons.injEq] at he
      obtain ⟨-, rfl⟩ := he
      have h1 := hb.covered.of_append.closed_le
      have h2 := hb.even
      have h3 := hb'.even
      simp at h2
      omega
  rcases List.append_eq_append_iff.mp h with ⟨e, rfl, he⟩ | ⟨e, rfl, he⟩
  · rw [key hb hb' he, List.append_nil]
  · rw [key hb' hb he, List.append_nil]

theorem Matching.left_unique {cs : List Command} {i i' j : Nat} (h : Matching cs i j)
    (h' : Matching cs i' j) : i = i' := by
  obtain ⟨a, b, d, rfl, hb, rfl, rfl⟩ := matching_iff.mp h
  obtain ⟨a', b', d', heq, hb', rfl, hlen⟩ := matching_iff.mp h'
  rw [← List.cons_append, ← List.append_assoc, ← List.cons_append, ← List.append_assoc] at heq
  obtain ⟨hinit, -⟩ := List.append_inj heq (by simp; omega)
  rw [eq_of_append_loopStart_eq hb hb' hinit]

/-- A `[` behind which all is covered has no partner. -/
theorem not_matching_of_covered {cs : List Command} {i j : Nat} (h : Covered (cs.drop (i + 1))) :
    ¬ Matching cs i j := by
  intro hm
  obtain ⟨a, b, d, rfl, hb, rfl, -⟩ := matching_iff.mp hm
  refine not_covered_of_loopEnd (d := d) hb.even ?_
  rw [List.drop_append, List.drop_of_length_le (by omega)] at h
  simpa using h

/-- A further command adds at most the pair that it closes. -/
theorem matching_snoc_iff {cs : List Command} {c : Command} {i j : Nat} :
    Matching (cs ++ [c]) i j ↔ Matching cs i j ∨
      (c = .loopEnd ∧ j = cs.length ∧ cs[i]? = some .loopStart ∧ Balanced (cs.drop (i + 1))) := by
  constructor
  · intro h
    have hlt := h.lt
    obtain ⟨hj, hend⟩ := List.getElem?_eq_some_iff.mp h.stop
    rw [List.length_append, List.length_singleton] at hj
    have hstart := h.start
    have hbal := h.balanced
    rw [List.getElem?_append_left (by omega)] at hstart
    rw [List.take_append_of_le_length (by omega)] at hbal
    -- the `]` of the pair is the new command, or the pair was there before
    by_cases hlast : j = cs.length
    · right
      subst hlast
      rw [List.take_length] at hbal
      refine ⟨?_, rfl, hstart, hbal⟩
      simpa using hend
    · left
      have hstop := h.stop
      rw [List.getElem?_append_left (by omega)] at hstop
      exact ⟨hlt, hstart, hstop, hbal⟩
  · rintro (h | ⟨rfl, rfl, hstart, hbal⟩)
    · exact h.append_right [c]
    · obtain ⟨hi, -⟩ := List.getElem?_eq_some_iff.mp hstart
      refine ⟨hi, ?_, by simp, ?_⟩
      · rw [List.getElem?_append_left hi]
        exact hstart
      · rw [List.take_append_of_le_length (by omega), List.take_length]
        exact hbal

end TapeMachine.Brackets
