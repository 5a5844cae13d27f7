/-
Resolving brackets by one scan from left to right.

`Program.matchBrackets` keeps the places of the open brackets, newest first, and the table of the
partners found so far. Two invariants carry the scan:

* `Nested cs pending`: the positions in `pending` cut the commands into balanced parts, each behind
  the `[` at the position before it;
* `Resolving scanned pending partners`: moreover the table holds exactly the matching pairs of the
  commands scanned so far, and every bracket is in the table or pending.

The main statement is `verdict_matchBrackets`: the scan resolves all brackets, or blames the first
`]` without a `[` before it, or the oldest `[` that is left.
-/
import TapeMachine.Program.Basic
import TapeMachine.Proofs.Program.Balance
import Mathlib.Tactic.Tauto

namespace TapeMachine.Brackets

/-! ### Nesting -/

/-- The commands are balanced but for the open brackets at the positions `pending`, newest first. -/
inductive Nested : List Command → List Nat → Prop
  | outside {cs : List Command} (h : Balanced cs) : Nested cs []
  | inside {cs b : List Command} {pending : List Nat} (outer : Nested cs pending) (h : Balanced b) :
      Nested (cs ++ .loopStart :: b) (cs.length :: pending)

theorem Nested.balanced {cs : List Command} (h : Nested cs []) : Balanced cs := by
  cases h with
  | outside h => exact h

theorem Nested.append {cs b : List Command} {pending : List Nat} (h : Nested cs pending)
    (hb : Balanced b) : Nested (cs ++ b) pending := by
  cases h with
  | outside hcs => exact .outside (hcs.append hb)
  | inside outer hinner =>
    rw [List.append_assoc, List.cons_append]
    exact .inside outer (hinner.append hb)

theorem Nested.snoc_loopStart {cs : List Command} {pending : List Nat} (h : Nested cs pending) :
    Nested (cs ++ [.loopStart]) (cs.length :: pending) :=
  .inside h balanced_nil

theorem Nested.snoc_loopEnd {cs : List Command} {pending : List Nat} {i : Nat}
    (h : Nested cs (i :: pending)) : Nested (cs ++ [.loopEnd]) pending := by
  cases h with
  | inside outer hinner =>
    rw [List.append_assoc, List.cons_append]
    exact outer.append hinner.loop

theorem Nested.covered {cs : List Command} {pending : List Nat} (h : Nested cs pending) :
    Covered cs := by
  induction h with
  | outside h => exact h.covered
  | inside _ h ih => exact ih.append (covered_loopStart.append h.covered)

/-- As many loops are open as there are pending positions. -/
theorem Nested.opened_eq {cs : List Command} {pending : List Nat} (h : Nested cs pending) :
    opened cs = closed cs + pending.length := by
  induction h with
  | outside h => exact h.even
  | inside _ h ih =>
    have heven := h.even
    simp
    omega

/-- The newest pending position belongs to a `[` with a balanced part behind it. -/
theorem Nested.head {cs : List Command} {pending : List Nat} {i : Nat}
    (h : Nested cs (i :: pending)) :
    cs[i]? = some .loopStart ∧ Balanced (cs.drop (i + 1)) := by
  cases h with
  | inside outer hinner =>
    refine ⟨by simp, ?_⟩
    rw [List.drop_append, List.drop_of_length_le (by omega)]
    simpa using hinner

theorem Nested.lt_length {cs : List Command} {pending : List Nat} (h : Nested cs pending) :
    ∀ i ∈ pending, i < cs.length := by
  induction h with
  | outside h => simp
  | inside _ h ih =>
    intro i hi
    rw [List.length_append, List.length_cons]
    rcases List.mem_cons.mp hi with rfl | hi
    · omega
    · have := ih i hi
      omega

theorem Nested.pairwise {cs : List Command} {pending : List Nat} (h : Nested cs pending) :
    pending.Pairwise (· > ·) := by
  induction h with
  | outside h => exact .nil
  | inside outer h ih => exact .cons outer.lt_length ih

/-- A pending position belongs to a `[` behind which all is covered. -/
theorem Nested.covered_drop {cs : List Command} {pending : List Nat} (h : Nested cs pending) :
    ∀ i ∈ pending, cs[i]? = some .loopStart ∧ Covered (cs.drop (i + 1)) := by
  induction h with
  | outside h => simp
  | @inside cs b pending outer h ih =>
    intro i hi
    rcases List.mem_cons.mp hi with rfl | hi
    · have hhead := (Nested.inside outer h).head
      exact ⟨hhead.1, hhead.2.covered⟩
    · have hlt := outer.lt_length i hi
      obtain ⟨hstart, hcov⟩ := ih i hi
      rw [List.getElem?_append_left hlt, List.drop_append_of_le_length (by omega)]
      exact ⟨hstart, hcov.append (covered_loopStart.append h.covered)⟩

/-! ### Partners -/

/-- The brackets at `i` and `j` are partners, in either order. -/
def Matched (cs : List Command) (i j : Nat) : Prop :=
  Matching cs i j ∨ Matching cs j i

theorem Matching.right_lt_length {cs : List Command} {i j : Nat} (h : Matching cs i j) :
    j < cs.length :=
  (List.getElem?_eq_some_iff.mp h.stop).choose

theorem Matched.lt_length {cs : List Command} {i j : Nat} (h : Matched cs i j) :
    i < cs.length := by
  rcases h with h | h
  · exact Nat.lt_trans h.lt h.right_lt_length
  · exact h.right_lt_length

/-- A pending bracket has no partner yet. -/
theorem Nested.not_matched {cs : List Command} {pending : List Nat} (h : Nested cs pending)
    {i j : Nat} (hi : i ∈ pending) : ¬ Matched cs i j := by
  obtain ⟨hstart, hcov⟩ := h.covered_drop i hi
  rintro (hm | hm)
  · exact not_matching_of_covered hcov hm
  · have hstop := hm.stop
    rw [hstart] at hstop
    cases hstop

theorem matched_snoc_iff_of_ne {cs : List Command} {c : Command} (hc : c ≠ .loopEnd) {i j : Nat} :
    Matched (cs ++ [c]) i j ↔ Matched cs i j := by
  unfold Matched
  rw [matching_snoc_iff, matching_snoc_iff]
  simp [hc]

/-- A `]` is the partner of the newest pending bracket, and no other pair is new. -/
theorem Nested.matched_snoc_loopEnd_iff {cs : List Command} {pending : List Nat} {a : Nat}
    (h : Nested cs (a :: pending)) {i j : Nat} :
    Matched (cs ++ [.loopEnd]) i j ↔
      Matched cs i j ∨ (i = a ∧ j = cs.length) ∨ (i = cs.length ∧ j = a) := by
  have hpair : Matching (cs ++ [.loopEnd]) a cs.length :=
    matching_snoc_iff.mpr (.inr ⟨rfl, rfl, h.head⟩)
  have key : ∀ {i j : Nat}, Matching (cs ++ [.loopEnd]) i j ↔
      Matching cs i j ∨ (i = a ∧ j = cs.length) := by
    intro i j
    constructor
    · intro hm
      rcases matching_snoc_iff.mp hm with hm' | ⟨-, rfl, -⟩
      · exact .inl hm'
      · exact .inr ⟨hm.left_unique hpair, rfl⟩
    · rintro (hm | ⟨rfl, rfl⟩)
      · exact hm.append_right _
      · exact hpair
  unfold Matched
  rw [key, key]
  tauto

/-! ### The scan -/

/-- The commands of a scanned source, without their offsets. -/
def commandsIn (scanned : List (Command × Nat)) : List Command :=
  scanned.map Prod.fst

@[simp] theorem length_commandsIn (scanned : List (Command × Nat)) :
    (commandsIn scanned).length = scanned.length :=
  List.length_map _

@[simp] theorem commandsIn_snoc (scanned : List (Command × Nat)) (c : Command) (k : Nat) :
    commandsIn (scanned ++ [(c, k)]) = commandsIn scanned ++ [c] :=
  List.map_append

/-- What the scan knows after some commands. -/
structure Resolving (scanned : List (Command × Nat)) (pending : List Place)
    (partners : Array (Option Nat)) : Prop where
  nested : Nested (commandsIn scanned) (pending.map Place.position)
  place : ∀ q ∈ pending, scanned[q.position]? = some (.loopStart, q.offset)
  partner : ∀ i j, partners[i]?.join = some j ↔ Matched (commandsIn scanned) i j
  starts : ∀ i, (commandsIn scanned)[i]? = some .loopStart →
    i ∈ pending.map Place.position ∨ ∃ j, Matching (commandsIn scanned) i j
  stops : ∀ j, (commandsIn scanned)[j]? = some .loopEnd → ∃ i, Matching (commandsIn scanned) i j

theorem resolving_nil (n : Nat) : Resolving [] [] (Array.replicate n none) where
  nested := .outside balanced_nil
  place := by simp
  partner := by
    intro i j
    have hnone : (Array.replicate n (none : Option Nat))[i]?.join = none := by
      rw [Array.getElem?_replicate]
      split <;> rfl
    rw [hnone]
    constructor
    · intro h
      cases h
    · intro h
      exact absurd h.lt_length (Nat.not_lt_zero i)
  starts := by simp [commandsIn]
  stops := by simp [commandsIn]

/-- What a list holds with one more element is what it held before, or the new element. -/
theorem getElem?_snoc_eq_some {α : Type} {l : List α} {a b : α} {i : Nat}
    (h : (l ++ [a])[i]? = some b) : l[i]? = some b ∨ (i = l.length ∧ a = b) := by
  by_cases hi : i < l.length
  · left
    rwa [List.getElem?_append_left hi] at h
  · right
    rw [List.getElem?_append_right (by omega)] at h
    obtain ⟨hlt, hab⟩ := List.getElem?_eq_some_iff.mp h
    rw [List.length_singleton] at hlt
    refine ⟨by omega, ?_⟩
    simpa using hab

section Steps

variable {scanned : List (Command × Nat)} {pending : List Place} {partners : Array (Option Nat)}

theorem Resolving.place_snoc (h : Resolving scanned pending partners) (e : Command × Nat) :
    ∀ q ∈ pending, (scanned ++ [e])[q.position]? = some (.loopStart, q.offset) := by
  intro q hq
  have hplace := h.place q hq
  obtain ⟨hlt, -⟩ := List.getElem?_eq_some_iff.mp hplace
  rwa [List.getElem?_append_left hlt]

/-- A `[` of the longer part is pending, has a partner, or is the new command. -/
theorem Resolving.starts_snoc (h : Resolving scanned pending partners) {c : Command} {i : Nat}
    (hi : (commandsIn scanned ++ [c])[i]? = some .loopStart) :
    i ∈ pending.map Place.position ∨ (∃ j, Matching (commandsIn scanned ++ [c]) i j) ∨
      (i = scanned.length ∧ c = .loopStart) := by
  rcases getElem?_snoc_eq_some hi with hold | ⟨hlast, hnew⟩
  · rcases h.starts i hold with hpending | ⟨j, hj⟩
    · exact .inl hpending
    · exact .inr (.inl ⟨j, hj.append_right _⟩)
  · rw [length_commandsIn] at hlast
    exact .inr (.inr ⟨hlast, hnew⟩)

/-- A `]` of the longer part has a partner or is the new command. -/
theorem Resolving.stops_snoc (h : Resolving scanned pending partners) {c : Command} {j : Nat}
    (hj : (commandsIn scanned ++ [c])[j]? = some .loopEnd) :
    (∃ i, Matching (commandsIn scanned ++ [c]) i j) ∨ (j = scanned.length ∧ c = .loopEnd) := by
  rcases getElem?_snoc_eq_some hj with hold | ⟨hlast, hnew⟩
  · obtain ⟨i, hi⟩ := h.stops j hold
    exact .inl ⟨i, hi.append_right _⟩
  · rw [length_commandsIn] at hlast
    exact .inr ⟨hlast, hnew⟩

theorem Resolving.plain (h : Resolving scanned pending partners) {c : Command} (hc : IsPlain c)
    (k : Nat) : Resolving (scanned ++ [(c, k)]) pending partners where
  nested := by
    rw [commandsIn_snoc]
    exact h.nested.append (balanced_singleton_of_isPlain hc)
  place := h.place_snoc _
  partner := by
    intro i j
    rw [commandsIn_snoc, matched_snoc_iff_of_ne hc.2]
    exact h.partner i j
  starts := by
    intro i hi
    rw [commandsIn_snoc] at hi ⊢
    rcases h.starts_snoc hi with hpending | hmatched | ⟨-, hnew⟩
    · exact .inl hpending
    · exact .inr hmatched
    · exact absurd hnew hc.1
  stops := by
    intro j hj
    rw [commandsIn_snoc] at hj ⊢
    rcases h.stops_snoc hj with hmatched | ⟨-, hnew⟩
    · exact hmatched
    · exact absurd hnew hc.2

theorem Resolving.loopStart (h : Resolving scanned pending partners) (k : Nat) :
    Resolving (scanned ++ [(.loopStart, k)]) (⟨scanned.length, k⟩ :: pending) partners where
  nested := by
    have hnested := h.nested.snoc_loopStart
    rwa [length_commandsIn, ← commandsIn_snoc _ _ k] at hnested
  place := by
    intro q hq
    rcases List.mem_cons.mp hq with rfl | hq
    · simp
    · exact h.place_snoc _ q hq
  partner := by
    intro i j
    rw [commandsIn_snoc, matched_snoc_iff_of_ne (by decide)]
    exact h.partner i j
  starts := by
    intro i hi
    rw [commandsIn_snoc] at hi ⊢
    rw [List.map_cons, List.mem_cons]
    rcases h.starts_snoc hi with hpending | hmatched | ⟨hlast, -⟩
    · exact .inl (.inr hpending)
    · exact .inr hmatched
    · exact .inl (.inl hlast)
  stops := by
    intro j hj
    rw [commandsIn_snoc] at hj ⊢
    rcases h.stops_snoc hj with hmatched | ⟨-, hnew⟩
    · exact hmatched
    · cases hnew

/-- The entry of a table after a pair of partners was put into it. -/
theorem join_getElem?_set_pair {ps : Array (Option Nat)} {a b : Nat} (hab : a < b)
    (hb : b < ps.size) (i : Nat) :
    ((ps.setIfInBounds a (some b)).setIfInBounds b (some a))[i]?.join
      = if i = b then some a else if i = a then some b else ps[i]?.join := by
  rw [Array.getElem?_setIfInBounds, Array.getElem?_setIfInBounds, Array.size_setIfInBounds]
  by_cases hib : i = b
  · subst hib
    simp [hb]
  · by_cases hia : i = a
    · subst hia
      simp [hib, Ne.symm hib, Nat.lt_trans hab hb]
    · simp [hib, hia, Ne.symm hib, Ne.symm hia]

/-- With the new pair put into it, the table still holds exactly the pairs of partners. -/
theorem Resolving.partner_loopEnd {q : Place} (h : Resolving scanned (q :: pending) partners)
    (hlt : q.position < scanned.length) (hsize : scanned.length < partners.size) (i j : Nat) :
    ((partners.setIfInBounds q.position (some scanned.length)).setIfInBounds scanned.length
        (some q.position))[i]?.join = some j ↔ Matched (commandsIn scanned ++ [.loopEnd]) i j := by
  have hnested : Nested (commandsIn scanned) (q.position :: pending.map Place.position) := h.nested
  rw [hnested.matched_snoc_loopEnd_iff, join_getElem?_set_pair hlt hsize, length_commandsIn]
  by_cases hlast : i = scanned.length
  · -- the new bracket had no partner before
    have hold : ¬ Matched (commandsIn scanned) i j := by
      intro hm
      have := hm.lt_length
      rw [length_commandsIn] at this
      omega
    rw [if_pos hlast, Option.some_inj]
    constructor
    · rintro rfl
      exact .inr (.inr ⟨hlast, rfl⟩)
    · rintro (hm | ⟨hi, -⟩ | ⟨-, hj⟩)
      · exact absurd hm hold
      · omega
      · exact hj.symm
  · rw [if_neg hlast]
    by_cases hopen : i = q.position
    · -- nor had the pending one
      have hold : ¬ Matched (commandsIn scanned) i j := by
        rw [hopen]
        exact hnested.not_matched List.mem_cons_self
      rw [if_pos hopen, Option.some_inj]
      constructor
      · rintro rfl
        exact .inr (.inl ⟨hopen, rfl⟩)
      · rintro (hm | ⟨-, hj⟩ | ⟨hi, -⟩)
        · exact absurd hm hold
        · exact hj.symm
        · exact absurd hi hlast
    · rw [if_neg hopen, h.partner]
      simp [hlast, hopen]

theorem Resolving.loopEnd {q : Place} (h : Resolving scanned (q :: pending) partners)
    (hsize : scanned.length < partners.size) (k : Nat) :
    Resolving (scanned ++ [(.loopEnd, k)]) pending
      ((partners.setIfInBounds q.position (some scanned.length)).setIfInBounds scanned.length
        (some q.position)) := by
  have hnested : Nested (commandsIn scanned) (q.position :: pending.map Place.position) := h.nested
  have hlt : q.position < scanned.length := by
    have := hnested.lt_length q.position List.mem_cons_self
    rwa [length_commandsIn] at this
  have hpair : Matched (commandsIn scanned ++ [.loopEnd]) q.position scanned.length :=
    hnested.matched_snoc_loopEnd_iff.mpr (.inr (.inl ⟨rfl, (length_commandsIn _).symm⟩))
  -- of the two, the one that was pending stands in front
  have hmatching : Matching (commandsIn scanned ++ [.loopEnd]) q.position scanned.length :=
    hpair.resolve_right fun hm => absurd hm.lt (by omega)
  refine ⟨?_, ?_, ?_, ?_, ?_⟩
  · rw [commandsIn_snoc]
    exact hnested.snoc_loopEnd
  · intro q' hq'
    exact h.place_snoc _ q' (List.mem_cons_of_mem q hq')
  · intro i j
    rw [commandsIn_snoc]
    exact h.partner_loopEnd hlt hsize i j
  · intro i hi
    rw [commandsIn_snoc] at hi ⊢
    rcases h.starts_snoc hi with hpending | hmatched | ⟨-, hnew⟩
    · rw [List.map_cons, List.mem_cons] at hpending
      rcases hpending with rfl | hpending
      · exact .inr ⟨_, hmatching⟩
      · exact .inl hpending
    · exact .inr hmatched
    · cases hnew
  · intro j hj
    rw [commandsIn_snoc] at hj ⊢
    rcases h.stops_snoc hj with hmatched | ⟨hlast, -⟩
    · exact hmatched
    · exact ⟨_, hlast ▸ hmatching⟩

end Steps

/-- What the outcome of a scan says about the commands. -/
def Verdict (scanned : List (Command × Nat)) : Except Unmatched (Array (Option Nat)) → Prop
  | .ok partners => Resolving scanned [] partners
  | .error (.closeBracket q) => scanned[q.position]? = some (.loopEnd, q.offset) ∧
      Balanced ((commandsIn scanned).take q.position)
  | .error (.openBracket q) => ∃ pending partners,
      Resolving scanned pending partners ∧ pending.getLast? = some q

theorem verdict_matchBrackets (rest : List (Command × Nat)) :
    ∀ {scanned : List (Command × Nat)} {pending : List Place} {partners : Array (Option Nat)},
      Resolving scanned pending partners → partners.size = scanned.length + rest.length →
      Verdict (scanned ++ rest)
        (Program.matchBrackets rest scanned.length pending partners) := by
  induction rest with
  | nil =>
    intro scanned pending partners h _
    rw [List.append_nil, Program.matchBrackets]
    rcases hlast : pending.getLast? with _ | oldest
    · rw [List.getLast?_eq_none_iff.mp hlast] at h
      exact h
    · exact ⟨pending, partners, h, hlast⟩
  | cons e rest ih =>
    intro scanned pending partners h hsize
    obtain ⟨c, k⟩ := e
    rw [List.length_cons] at hsize
    -- The scan goes on behind the command, with the invariant of the longer part.
    have next : ∀ {pending' : List Place} {partners' : Array (Option Nat)},
        Resolving (scanned ++ [(c, k)]) pending' partners' → partners'.size = partners.size →
        Verdict (scanned ++ (c, k) :: rest)
          (Program.matchBrackets rest (scanned.length + 1) pending' partners') := by
      intro pending' partners' h' hsize'
      have hnext := ih h' (by simp; omega)
      rwa [List.length_append, List.length_singleton, List.append_assoc,
        List.singleton_append] at hnext
    cases c with
    | loopStart =>
      rw [Program.matchBrackets]
      exact next (h.loopStart k) rfl
    | loopEnd =>
      cases pending with
      | nil =>
        rw [Program.matchBrackets]
        have hbal : Balanced (commandsIn scanned) := h.nested.balanced
        refine ⟨by simp, ?_⟩
        rw [commandsIn, List.map_append, ← commandsIn, List.take_append_of_le_length (by simp),
          ← length_commandsIn, List.take_length]
        exact hbal
      | cons q pending =>
        rw [Program.matchBrackets]
        exact next (h.loopEnd (by omega) k) (by simp)
    | moveRight | moveLeft | increment | decrement | write | read =>
      simp only [Program.matchBrackets]
      exact next (h.plain ⟨by decide, by decide⟩ k) rfl

end TapeMachine.Brackets
