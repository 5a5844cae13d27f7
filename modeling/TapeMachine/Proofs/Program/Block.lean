/-
Programs as trees.

Balanced commands are those of a tree of loops, in which each node knows its position.

* `Block`: a sequence of plain commands and loops;
* `Block.parse`: the tree of some commands, built from the last command to the first;
* `Block.parse_of_balanced`: balanced commands have a tree, and it is a tree of exactly them;
* `Block.balanced`: the commands of a tree are balanced.
-/
import TapeMachine.Proofs.Program.Balance

namespace TapeMachine

open Brackets

theorem Brackets.isPlain_of_ne {c : Command} (hstart : c ≠ .loopStart) (hend : c ≠ .loopEnd) :
    IsPlain c :=
  ⟨hstart, hend⟩

/-- A sequence of plain commands and loops, each with its position in the program. The position of a
loop is that of its `[`. -/
inductive Block where
  | nil
  | command (c : Command) (plain : IsPlain c) (pos : Nat) (rest : Block)
  | loop (pos : Nat) (body rest : Block)

namespace Block

/-- The commands of a tree, from left to right. -/
def commands : Block → List Command
  | nil => []
  | command c _ _ rest => c :: rest.commands
  | loop _ body rest => .loopStart :: (body.commands ++ .loopEnd :: rest.commands)

/-- How many commands a tree has. -/
def size (b : Block) : Nat :=
  b.commands.length

@[simp] theorem size_nil : nil.size = 0 := rfl

@[simp] theorem size_command (c : Command) (hc : IsPlain c) (pos : Nat) (rest : Block) :
    (command c hc pos rest).size = rest.size + 1 := rfl

@[simp] theorem size_loop (pos : Nat) (body rest : Block) :
    (loop pos body rest).size = body.size + rest.size + 2 := by
  simp only [size, commands, List.length_cons, List.length_append]
  omega

/-- The nodes of the tree know their positions, if its first command has the position `k`. -/
def PlacedAt : Block → Nat → Prop
  | nil, _ => True
  | command _ _ pos rest, k => pos = k ∧ rest.PlacedAt (k + 1)
  | loop pos body rest, k =>
    pos = k ∧ body.PlacedAt (k + 1) ∧ rest.PlacedAt (k + body.size + 2)

/-- The commands of a tree are balanced. -/
theorem balanced (b : Block) : Balanced b.commands := by
  induction b with
  | nil => exact balanced_nil
  | command c hc pos rest ih => exact (balanced_singleton_of_isPlain hc).append ih
  | loop pos body rest ihbody ihrest =>
    have happend := ihbody.loop.append ihrest
    rwa [List.cons_append, List.append_assoc, List.singleton_append] at happend

/-! ### Parsing -/

/-- The tree of the commands from position `k` on up to the first `]` that closes no loop among them,
and the trees behind that `]` and behind each further one. -/
def parseFrom : List Command → Nat → Option (Block × List Block)
  | [], _ => some (nil, [])
  | c :: cs, k =>
    if hstart : c = .loopStart then
      match parseFrom cs (k + 1) with
      | some (body, rest :: outer) => some (loop k body rest, outer)
      | _ => none
    else if hend : c = .loopEnd then
      (parseFrom cs (k + 1)).map fun (rest, outer) => (nil, rest :: outer)
    else
      (parseFrom cs (k + 1)).map fun (rest, outer) =>
        (command c (isPlain_of_ne hstart hend) k rest, outer)

/-- The tree of some commands, if they are balanced. -/
def parse (cs : List Command) : Option Block :=
  match parseFrom cs 0 with
  | some (b, []) => some b
  | _ => none

/-- The commands of a tree, and of further ones behind the `]` that ends the one before. -/
def commandsWith (b : Block) : List Block → List Command
  | [] => b.commands
  | rest :: outer => b.commands ++ .loopEnd :: commandsWith rest outer

/-- The nodes of a tree and of further ones know their positions. -/
def PlacedWith (b : Block) : List Block → Nat → Prop
  | [], k => b.PlacedAt k
  | rest :: outer, k => b.PlacedAt k ∧ PlacedWith rest outer (k + b.size + 1)

theorem commandsWith_nil (outer : List Block) (rest : Block) :
    commandsWith nil (rest :: outer) = .loopEnd :: commandsWith rest outer := rfl

theorem commandsWith_command (c : Command) (hc : IsPlain c) (pos : Nat) (rest : Block)
    (outer : List Block) :
    commandsWith (command c hc pos rest) outer = c :: commandsWith rest outer := by
  cases outer <;> rfl

theorem commandsWith_loop (pos : Nat) (body rest : Block) (outer : List Block) :
    commandsWith (loop pos body rest) outer
      = .loopStart :: commandsWith body (rest :: outer) := by
  cases outer with
  | nil => rfl
  | cons next outer => simp only [commandsWith, commands, List.cons_append, List.append_assoc]

theorem placedWith_command {c : Command} {hc : IsPlain c} {k : Nat} {rest : Block}
    {outer : List Block} (h : PlacedWith rest outer (k + 1)) :
    PlacedWith (command c hc k rest) outer k := by
  cases outer with
  | nil => exact ⟨rfl, h⟩
  | cons next outer =>
    refine ⟨⟨rfl, h.1⟩, ?_⟩
    rw [size_command, show k + (rest.size + 1) + 1 = k + 1 + rest.size + 1 by omega]
    exact h.2

theorem placedWith_loop {k : Nat} {body rest : Block} {outer : List Block}
    (h : PlacedWith body (rest :: outer) (k + 1)) : PlacedWith (loop k body rest) outer k := by
  obtain ⟨hbody, hrest⟩ := h
  rw [show k + 1 + body.size + 1 = k + body.size + 2 by omega] at hrest
  cases outer with
  | nil => exact ⟨rfl, hbody, hrest⟩
  | cons next outer =>
    refine ⟨⟨rfl, hbody, hrest.1⟩, ?_⟩
    rw [size_loop, show k + (body.size + rest.size + 2) + 1 = k + body.size + 2 + rest.size + 1
      by omega]
    exact hrest.2

/-- A parsed tree is a tree of exactly the commands that were parsed. -/
theorem of_parseFrom (cs : List Command) : ∀ {k : Nat} {b : Block} {outer : List Block},
    parseFrom cs k = some (b, outer) → commandsWith b outer = cs ∧ PlacedWith b outer k := by
  induction cs with
  | nil =>
    intro k b outer h
    rw [parseFrom] at h
    cases h
    exact ⟨rfl, trivial⟩
  | cons c cs ih =>
    intro k b outer h
    rw [parseFrom] at h
    by_cases hstart : c = .loopStart
    · rw [dif_pos hstart] at h
      rcases hcs : parseFrom cs (k + 1) with _ | ⟨body, _ | ⟨rest, outer'⟩⟩
      · rw [hcs] at h
        cases h
      · rw [hcs] at h
        cases h
      · rw [hcs] at h
        cases h
        -- the tree behind the `]` that ends the body is the rest of the loop
        obtain ⟨hcommands, hplaced⟩ := ih hcs
        rw [commandsWith_loop, hcommands, hstart]
        exact ⟨rfl, placedWith_loop hplaced⟩
    · rw [dif_neg hstart] at h
      by_cases hend : c = .loopEnd
      · rw [dif_pos hend] at h
        obtain ⟨⟨rest, outer'⟩, hcs, hb⟩ := Option.map_eq_some_iff.mp h
        cases hb
        obtain ⟨hcommands, hplaced⟩ := ih hcs
        rw [commandsWith_nil, hcommands, hend]
        exact ⟨rfl, trivial, hplaced⟩
      · rw [dif_neg hend] at h
        obtain ⟨⟨rest, outer'⟩, hcs, hb⟩ := Option.map_eq_some_iff.mp h
        cases hb
        obtain ⟨hcommands, hplaced⟩ := ih hcs
        rw [commandsWith_command, hcommands]
        exact ⟨rfl, placedWith_command hplaced⟩

/-- Commands are parsed if from no place on they open more loops than they close. -/
theorem exists_parseFrom (cs : List Command)
    (h : ∀ n, opened (cs.drop n) ≤ closed (cs.drop n)) (k : Nat) :
    ∃ b outer, parseFrom cs k = some (b, outer) ∧ outer.length + opened cs = closed cs := by
  induction cs generalizing k with
  | nil => exact ⟨nil, [], rfl, rfl⟩
  | cons c cs ih =>
    obtain ⟨rest, outer, hcs, hcount⟩ := ih (fun n => h (n + 1)) (k + 1)
    rw [parseFrom, hcs]
    by_cases hstart : c = .loopStart
    · have hall := h 0
      rw [List.drop_zero, hstart, opened_cons_loopStart, closed_cons_loopStart] at hall
      rcases outer with _ | ⟨next, outer⟩
      · -- without such a `]` more loops would be opened here than are closed
        rw [List.length_nil] at hcount
        omega
      · refine ⟨loop k rest next, outer, dif_pos hstart, ?_⟩
        rw [hstart, opened_cons_loopStart, closed_cons_loopStart]
        rw [List.length_cons] at hcount
        omega
    · by_cases hend : c = .loopEnd
      · refine ⟨nil, rest :: outer, by rw [dif_neg hstart, dif_pos hend]; rfl, ?_⟩
        rw [hend, opened_cons_loopEnd, closed_cons_loopEnd, List.length_cons]
        omega
      · refine ⟨command c (isPlain_of_ne hstart hend) k rest, outer,
          by rw [dif_neg hstart, dif_neg hend]; rfl, ?_⟩
        rw [opened_cons_of_isPlain ⟨hstart, hend⟩, closed_cons_of_isPlain ⟨hstart, hend⟩]
        exact hcount

/-- From no place on do balanced commands open more loops than they close. -/
theorem opened_drop_le {cs : List Command} (h : Balanced cs) (n : Nat) :
    opened (cs.drop n) ≤ closed (cs.drop n) := by
  have hcut := List.take_append_drop n cs
  have hopened := opened_append (cs.take n) (cs.drop n)
  have hclosed := closed_append (cs.take n) (cs.drop n)
  rw [hcut] at hopened hclosed
  have hcov := h.covered n
  have heven := h.even
  omega

/-- **Balanced commands have a tree**, which is a tree of exactly them. -/
theorem parse_of_balanced {cs : List Command} (h : Balanced cs) :
    ∃ b, parse cs = some b ∧ b.commands = cs ∧ b.PlacedAt 0 := by
  obtain ⟨b, outer, hparse, hcount⟩ := exists_parseFrom cs (opened_drop_le h) 0
  have heven := h.even
  obtain rfl : outer = [] := List.eq_nil_of_length_eq_zero (by omega)
  obtain ⟨hcommands, hplaced⟩ := of_parseFrom cs hparse
  exact ⟨b, by rw [parse, hparse], hcommands, hplaced⟩

end Block

end TapeMachine
