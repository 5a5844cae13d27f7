/-
Command lines one behind the other.

What a command line has executed bears on the words behind it in three ways: in the state, through the sub
directives that can be used from then on, and through an argument that is left out because the line ends
there. Where there is nothing of the last two, two command lines can be joined into one.

* `Segment.Closed`: a segment that leaves no argument out and has no sub directives;
* `Splits.table_eq`: segments that leave the table as it is;
* `splits_after`, `at_end`: the segments of a command line, and where they lead if it succeeds;
* `Executor.calls`: the calls that a command line makes;
* `joined_lines_compose`: a joined command line does what its parts do.
-/
import Mathlib
import TapeMachine.Proofs.CommandLine.Segments

namespace TapeMachine.CommandLine

variable {σ ε : Type}

/-- A segment with a word for each argument, and without sub directives. -/
structure Segment.Closed (seg : Segment σ ε) : Prop where
  length_taken : seg.taken.length = seg.params.length
  subs_eq_nil : seg.subs = []

/-- A turn without sub directives leaves the table as it is. -/
theorem Uses.table_eq {unknown : Fallback σ ε} {table : Table σ ε} {s : σ} {rest used : List Bytes}
    {calls : List (Invocation σ ε)} {seg : Segment σ ε} {q : Position σ ε}
    (h : Uses unknown table s rest used calls (.executed seg q)) (hnone : seg.subs = []) :
    q.table = table := by
  cases h with
  | passed => rfl
  | @executed word d taken values s' table' hname htaken hrun hsubs =>
    have hd : d.subs = [] := hnone
    rw [hd, Executor.addSubs] at hsubs
    exact (Except.ok.inj hsubs).symm

theorem Splits.table_eq {unknown : Fallback σ ε} {p last : Position σ ε} {segs : List (Segment σ ε)}
    (h : Splits unknown p segs last) (hnone : ∀ seg ∈ segs, seg.subs = []) :
    last.table = p.table := by
  induction h with
  | nil => rfl
  | @cons table s seg segs p last huses h ih =>
    have hrest := ih fun seg hseg => hnone seg (List.mem_cons_of_mem _ hseg)
    exact hrest.trans (huses.table_eq (hnone seg List.mem_cons_self))

/-! ### The segments of a command line -/

theorem uses_of_executed {unknown : Fallback σ ε} {p q : Position σ ε} {seg : Segment σ ε}
    (h : p.turn unknown = .executed seg q) :
    Uses unknown p.table p.state q.words seg.words seg.calls (.executed seg q) := by
  obtain ⟨table, words, s⟩ := p
  have hwords : words ≠ [] := by
    have happend := (turn_executed h).words_eq
    dsimp only at happend
    rw [happend]
    exact List.cons_ne_nil _ _
  obtain ⟨used, rest, calls, turn, rfl, -, huses, -⟩ := exists_uses unknown table s hwords
  -- the turn that uses these words is the one that was executed
  have hturn : turn = .executed seg q := huses.turn_eq.symm.trans h
  subst hturn
  obtain ⟨rfl, rfl, rfl⟩ := huses.segment
  exact huses

theorem splits_turns (unknown : Fallback σ ε) (n : Nat) : ∀ p : Position σ ε,
    Splits unknown p (turns unknown n p).1 (turns unknown n p).2 := by
  induction n with
  | zero => exact .nil
  | succ n ih =>
    intro p
    rcases turn_cases unknown p with ⟨seg, q, hturn, hexecuted⟩ | ⟨r, hresult⟩
    · have hcons := Splits.cons (uses_of_executed hturn) (ih q)
      rw [← hexecuted.words_eq] at hcons
      rw [turns_of_executed hturn]
      exact hcons
    · rw [turns_of_result hresult]
      exact .nil p

theorem Uses.splits {unknown : Fallback σ ε} {table : Table σ ε} {s : σ} {rest used : List Bytes}
    {calls : List (Invocation σ ε)} {seg : Segment σ ε} {q : Position σ ε}
    (h : Uses unknown table s rest used calls (.executed seg q)) :
    Splits unknown ⟨table, used ++ rest, s⟩ [seg] q := by
  obtain ⟨rfl, rfl, rfl⟩ := h.segment
  exact .cons h (.nil q)

theorem Splits.append {unknown : Fallback σ ε} {p q last : Position σ ε} {segs more : List (Segment σ ε)}
    (h : Splits unknown p segs q) (hmore : Splits unknown q more last) :
    Splits unknown p (segs ++ more) last := by
  induction h with
  | nil => exact hmore
  | cons huses _ ih => exact .cons huses (ih hmore)

theorem Splits.turns_eq {unknown : Fallback σ ε} {p last : Position σ ε} {segs : List (Segment σ ε)}
    (h : Splits unknown p segs last) : turns unknown segs.length p = (segs, last) := by
  induction h with
  | nil => rfl
  | cons huses _ ih => rw [List.length_cons, turns_of_executed huses.turn_eq, ih]

/-- Segments that use all words are the ones that are executed. -/
theorem Splits.executed_eq {e : Executor σ ε} {words : List Bytes} {s : σ} {segs : List (Segment σ ε)}
    {last : Position σ ε} (h : Splits e.unknown ⟨e.table, words, s⟩ segs last) (hlast : last.words = []) :
    e.executed words s = segs := by
  have hlength : segs.length ≤ words.length := by
    have hwords : words = segs.flatMap Segment.words ++ last.words := h.words_eq
    rw [hwords, hlast, List.append_nil, List.length_flatMap]
    refine (segs.length_map (f := fun seg => seg.words.length)).ge.trans ?_
    refine List.length_le_sum_of_one_le _ fun n hn => ?_
    obtain ⟨seg, -, rfl⟩ := List.mem_map.mp hn
    exact Nat.succ_pos _
  have hfinished : (last.turn e.unknown).result? last.state = some (last.state, none) := by
    rw [Position.turn, hlast]
    rfl
  rw [Executor.executed, Executor.after, ← Nat.add_sub_cancel' hlength, turns_add, h.turns_eq,
    turns_of_result hfinished, List.append_nil]

theorem splits_after (e : Executor σ ε) (words : List Bytes) (s : σ) (n : Nat) :
    Splits e.unknown ⟨e.table, words, s⟩ (e.after words s n).1 (e.after words s n).2 :=
  splits_turns e.unknown n _

/-- A command line that succeeds is executed up to its end. -/
theorem at_end {e : Executor σ ε} {words : List Bytes} {s : σ} (h : (e.execute words s).2 = none) :
    (e.after words s words.length).2.words = [] ∧
      (e.after words s words.length).2.state = (e.execute words s).1 := by
  have hwords : (e.after words s words.length).2.words = [] := by
    have hleft := words_after e words s words.length
    have hall := words_of_execute_eq_none h
    rw [Executor.executed] at hall
    exact List.append_right_eq_self.mp (hleft.symm.trans hall)
  exact ⟨hwords, (congrArg Prod.fst ((splits_after e words s words.length).execute_of_end hwords)).symm⟩

/-! ### The calls of a command line -/

/-- The calls that a command line makes, in their order. -/
def Executor.calls (e : Executor σ ε) (words : List Bytes) (s : σ) : List (Invocation σ ε) :=
  (e.noting.execute words (s, [])).1.2

theorem exists_calls (e : Executor σ ε) (words : List Bytes) (s : σ) : ∃ calls, ∀ log,
    e.noting.execute words (s, log)
      = (((e.execute words s).1, log ++ calls), (e.execute words s).2) := by
  obtain ⟨segs, last, hsplits, hlast⟩ :=
    exists_splits e.unknown words.length ⟨e.table, words, s⟩ (Nat.le_refl _)
  -- the words split alike whatever was noted before
  rcases hlast with hend | ⟨used, rest, calls, s', error, hwords, huses⟩
  · refine ⟨segs.flatMap Segment.calls, fun log => ?_⟩
    rw [hsplits.execute_of_end hend]
    exact Splits.execute_of_end (e := e.noting) (hsplits.noting log) hend
  · refine ⟨segs.flatMap Segment.calls ++ calls, fun log => ?_⟩
    obtain ⟨calls', huses'⟩ := huses.noting (log ++ segs.flatMap Segment.calls)
    rw [hsplits.execute_of_failed hwords huses, ← List.append_assoc]
    exact Splits.execute_of_failed (e := e.noting) (hsplits.noting log) hwords huses'

theorem noting_execute (e : Executor σ ε) (words : List Bytes) (s : σ)
    (log : List (Invocation σ ε)) : e.noting.execute words (s, log)
      = (((e.execute words s).1, log ++ e.calls words s), (e.execute words s).2) := by
  obtain ⟨calls, hcalls⟩ := exists_calls e words s
  rw [Executor.calls, hcalls, hcalls, List.nil_append]

/-- The calls of a command line that succeeds are those of its segments. -/
theorem calls_of_execute_eq_none {e : Executor σ ε} {words : List Bytes} {s : σ}
    (h : (e.execute words s).2 = none) :
    e.calls words s = (e.executed words s).flatMap Segment.calls := by
  obtain ⟨hend, -⟩ := at_end h
  have hnoted := (splits_after e words s words.length).noting []
  have hexecute := Splits.execute_of_end (e := e.noting) hnoted hend
  rw [Executor.calls, hexecute]
  rfl

/-! ### Joined command lines -/

section

variable {e : Executor σ ε} {first : List Bytes} {s : σ}

theorem splits_append (hsuccess : (e.execute first s).2 = none)
    (hclosed : ∀ seg ∈ e.executed first s, seg.Closed) (second : List Bytes) :
    Splits e.unknown ⟨e.table, first ++ second, s⟩ (e.executed first s)
      ⟨e.table, second, (e.execute first s).1⟩ := by
  have hsplits := splits_after e first s first.length
  have htable := hsplits.table_eq fun seg hseg => (hclosed seg hseg).subs_eq_nil
  obtain ⟨-, hstate⟩ := at_end hsuccess
  have hjoined := hsplits.behind (.inr fun seg hseg => (hclosed seg hseg).length_taken) second
  have hwords := words_of_execute_eq_none hsuccess
  rw [Executor.executed] at hwords
  rw [htable, hstate, ← hwords] at hjoined
  exact hjoined

/-- **Command lines compose.** If a command line succeeds and leaves no argument out for want of words, and
none of the directives that it executes has sub directives, then it can be joined with any command line
behind it: the joined line makes the calls of the first and then those of the second, with the same
arguments in the same order, and comes to the same state and the same error as the second one executed
behind the first. -/
theorem joined_lines_compose (hsuccess : (e.execute first s).2 = none)
    (hclosed : ∀ seg ∈ e.executed first s, seg.Closed) (second : List Bytes) :
    e.calls (first ++ second) s = e.calls first s ++ e.calls second (e.execute first s).1 ∧
      e.execute (first ++ second) s = e.execute second (e.execute first s).1 := by
  have hjoined := splits_append hsuccess hclosed second
  refine ⟨?_, hjoined.executeWith_eq⟩
  -- the same segments, with a log in which the calls of the first line are noted
  have hnoted := (hjoined.noting []).executeWith_eq
  have hexecute : e.noting.execute (first ++ second) (s, [])
      = e.noting.execute second ((e.execute first s).1, e.calls first s) := by
    rw [calls_of_execute_eq_none hsuccess]
    exact hnoted
  rw [Executor.calls, hexecute, noting_execute]

end

/-- A directive with an optional argument that can be called only once. Its first call is given in full; the
second one leaves the argument out, and fails. -/
theorem joined_lines_compose_before_omission :
    ∃ e : Executor (List ArgValue) Unit,
      (e.execute [[97], [49], [50]] []).2 = none ∧
      (∀ seg ∈ e.executed [[97], [49], [50]] [], seg.Closed) ∧
      e.calls ([[97], [49], [50]] ++ [[97], [51]]) []
        = e.calls [[97], [49], [50]] []
          ++ e.calls [[97], [51]] (e.execute [[97], [49], [50]] []).1 ∧
      e.execute ([[97], [49], [50]] ++ [[97], [51]]) []
        = e.execute [[97], [51]] (e.execute [[97], [49], [50]] []).1 ∧
      e.execute [[97], [51]] (e.execute [[97], [49], [50]] []).1
        = ([.text [49], .reference (.text [50]), .text [51], .reference (.text [])],
          some (.handler [97] ())) := by
  obtain ⟨d, hd⟩ : ∃ d : Directive (List ArgValue) Unit, d = .mk { id := 1 } (some
    ⟨[.text, .optional .text], fun values s => (s ++ values, if s.isEmpty then none else some ())⟩) [] :=
    ⟨_, rfl⟩
  obtain ⟨e, he⟩ : ∃ e : Executor (List ArgValue) Unit, e = { table := [([97], some d)] } := ⟨_, rfl⟩
  have hsuccess : (e.execute [[97], [49], [50]] []).2 = none := by
    subst he hd
    cbv
  have hsegs : e.executed [[97], [49], [50]] []
      = [⟨[97], some d, [[49], [50]], [.text [49], .reference (.text [50])]⟩] := by
    subst he hd
    cbv
  have hclosed : ∀ seg ∈ e.executed [[97], [49], [50]] [], seg.Closed := by
    intro seg hseg
    rw [hsegs] at hseg
    obtain rfl := List.mem_singleton.mp hseg
    subst hd
    exact ⟨rfl, rfl⟩
  obtain ⟨hcalls, hexecute⟩ := joined_lines_compose hsuccess hclosed [[97], [51]]
  refine ⟨e, hsuccess, hclosed, hcalls, hexecute, ?_⟩
  subst he hd
  cbv

/-- An argument that was left out on the first line would be read from the second one. -/
example : ∃ e : Executor (List ArgValue) Unit,
    e.execute [[98]] (e.execute [[97]] []).1 = ([.reference (.text []), .text [98]], none) ∧
      e.execute ([[97]] ++ [[98]]) [] = ([.reference (.text [98])], none) :=
  ⟨{ table := [([97], some (.mk { id := 1 } (some
      ⟨[.optional .text], fun values s => (s ++ values, none)⟩) []))]
     unknown := some fun word s => (s ++ [.text word], none) }, by cbv, by cbv⟩

end TapeMachine.CommandLine
