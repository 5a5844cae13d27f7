/-
The machine executes loops.

The machine knows positions and jumps only. What it does is nevertheless what the tree of its program
says: a loop repeats its body while the cell under the pointer is not zero.

* `Block.Runs`: the execution of a tree, with the number of its steps;
* `Block.LiesAt`: where in a program the commands of a tree are, and where its brackets jump to;
* `Block.Runs.simulated`: the machine takes exactly the steps of the execution of a tree;
* `Block.exists_runs`: if the machine comes to a halt, then the execution of the tree does;
* `run_refines_loops`: so the two halt for the same inputs, after the same number of steps, in the
  same way and with the same result.
-/
import TapeMachine.Proofs.Machine.Run
import TapeMachine.Proofs.Machine.World
import TapeMachine.Proofs.Program.Block
import TapeMachine.Proofs.Program.Load

namespace TapeMachine

open Brackets

/-- How the execution of a tree ends. -/
inductive Ending where
  | ended
  /-- The command at the position moved the pointer below cell 0. -/
  | faulted (pos : Nat)

/-- The reason for which a run halts then. -/
def Ending.halt : Ending → HaltReason
  | ended => .programEnded
  | faulted _ => .faulted

/-- What stops a run then. -/
def Ending.stop : Ending → Option Stop
  | ended => none
  | faulted pos => some (.fault ⟨pos⟩)

namespace Block

/-- The execution of a tree in some surroundings, with the number of its steps. Each command that is
executed counts for one step. A loop counts for one step with the test on entry, which is counted
where the loop is left, and for one more with the test at the end of each pass through its body. -/
inductive Runs : Block → World → Nat → Ending → World → Prop
  | nil (w : World) : Runs nil w 0 .ended w
  | perform {c : Command} {plain : IsPlain c} {pos n : Nat} {rest : Block} {e : Ending}
      {w w₁ w₂ : World} (hw : w.perform c = some w₁) (hrest : Runs rest w₁ n e w₂) :
      Runs (command c plain pos rest) w (n + 1) e w₂
  | underflow {c : Command} {plain : IsPlain c} {pos : Nat} {rest : Block} {w : World}
      (hw : w.perform c = none) : Runs (command c plain pos rest) w 0 (.faulted pos) w
  | leave {pos n : Nat} {body rest : Block} {e : Ending} {w w₁ : World} (hcell : w.cell = 0)
      (hrest : Runs rest w n e w₁) : Runs (loop pos body rest) w (1 + n) e w₁
  | pass {pos n n' : Nat} {body rest : Block} {e : Ending} {w w₁ w₂ : World} (hcell : w.cell ≠ 0)
      (hbody : Runs body w n .ended w₁) (hloop : Runs (loop pos body rest) w₁ n' e w₂) :
      Runs (loop pos body rest) w (n + 1 + n') e w₂
  | passFault {pos n q : Nat} {body rest : Block} {w w₁ : World} (hcell : w.cell ≠ 0)
      (hbody : Runs body w n (.faulted q) w₁) :
      Runs (loop pos body rest) w (1 + n) (.faulted q) w₁

/-! ### Trees in programs -/

/-- The commands of a tree are those of the program from position `k` on, and its brackets are
partners of each other. -/
def LiesAt (p : Program) : Block → Nat → Prop
  | nil, _ => True
  | command c _ pos rest, k => pos = k ∧ p.at? k = some c ∧ rest.LiesAt p (k + 1)
  | loop _ body rest, k =>
    p.at? k = some .loopStart ∧ p.at? (k + body.size + 1) = some .loopEnd ∧
      p.partner? k = some (k + body.size + 1) ∧ p.partner? (k + body.size + 1) = some k ∧
      body.LiesAt p (k + 1) ∧ rest.LiesAt p (k + body.size + 2)

theorem liesAt_of_load {src : Bytes} {p : Program} (h : Program.load src = .ok p) (b : Block) :
    ∀ {a d : List Command}, Program.commandsOf src = a ++ (b.commands ++ d) →
      b.PlacedAt a.length → b.LiesAt p a.length := by
  induction b with
  | nil =>
    intro a d _ _
    trivial
  | command c plain pos rest ih =>
    intro a d hsrc hplaced
    obtain ⟨hpos, hrest⟩ := hplaced
    have hlen : (a ++ [c]).length = a.length + 1 := by simp
    refine ⟨hpos, ?_, ?_⟩
    · rw [Program.at?_of_load h, hsrc, List.getElem?_append_right (Nat.le_refl _), Nat.sub_self]
      rfl
    · rw [← hlen] at hrest ⊢
      refine ih (d := d) ?_ hrest
      rw [hsrc, List.append_assoc]
      rfl
  | loop pos body rest ihbody ihrest =>
    intro a d hsrc hplaced
    obtain ⟨-, hbody, hrest⟩ := hplaced
    have hsplit : Program.commandsOf src = a ++ .loopStart ::
        (body.commands ++ .loopEnd :: (rest.commands ++ d)) := by
      rw [hsrc, commands]
      simp
    -- the body is balanced, so the brackets around it are partners
    have hmatching : Matching (Program.commandsOf src) a.length
        (a.length + body.size + 1) :=
      matching_iff.mpr ⟨_, _, _, hsplit, body.balanced, rfl, rfl⟩
    refine ⟨?_, ?_, ?_, ?_, ?_, ?_⟩
    · rw [Program.at?_of_load h]
      exact hmatching.start
    · rw [Program.at?_of_load h]
      exact hmatching.stop
    · exact (Program.partner?_eq_some_iff h).mpr (.inl hmatching)
    · exact (Program.partner?_eq_some_iff h).mpr (.inr hmatching)
    · have hlen : (a ++ [Command.loopStart]).length = a.length + 1 := by simp
      rw [← hlen] at hbody ⊢
      refine ihbody (d := .loopEnd :: (rest.commands ++ d)) ?_ hbody
      rw [hsplit, List.append_assoc]
      rfl
    · have hlen : (a ++ Command.loopStart :: (body.commands ++ [Command.loopEnd])).length
          = a.length + body.size + 2 := by
        simp [size]
        omega
      rw [← hlen] at hrest ⊢
      refine ihrest (d := d) ?_ hrest
      rw [hsplit]
      simp

/-- Where the execution of a tree may begin whose first command has the position `k`. A loop tests the
cell in the same way at both of its brackets. -/
def Entry : Block → Nat → Nat → Prop
  | nil, k, pc | command .., k, pc => pc = k
  | loop _ body _, k, pc => pc = k ∨ pc = k + body.size + 1

theorem entry_of_eq (b : Block) {k pc : Nat} (h : pc = k) : b.Entry k pc := by
  cases b with
  | nil | command => exact h
  | loop => exact .inl h

/-- The body ends in front of the `]`, where the loop goes on with its next test. -/
theorem entry_of_eq_end (pos : Nat) (body rest : Block) {k pc : Nat} (h : pc = k + 1 + body.size) :
    (loop pos body rest).Entry k pc := by
  right
  rw [h]
  omega

end Block

/-! ### Steps of the machine -/

/-- The machine executes the program in the given surroundings, and has not faulted. -/
structure Machine.Running (p : Program) (w : World) (m : Machine) : Prop where
  program : m.program = p
  world : m.world = w
  fault : m.fault = none
  onTape : m.OnTape

namespace Machine

variable {p : Program} {w w₁ : World} {m : Machine} {c : Command}

theorem running_start (p : Program) {length : Nat} (h : 1 ≤ length) (input : Bytes) :
    (start p length input).Running p (.start input) :=
  ⟨rfl, world_start p length input, rfl, onTape_start p h input⟩

theorem Running.cell_eq (h : m.Running p w) : m.state.cell = w.cell := by
  rw [← h.world]
  rfl

/-- A command that has an effect is executed. -/
theorem Running.stepped (h : m.Running p w) (hc : p.at? m.state.pc = some c)
    (hw : w.perform c = some w₁) :
    m.attempt = (.stepped c m.state.pc, m.advance c) ∧ (m.advance c).Running p w₁ := by
  rw [← h.program] at hc
  rw [← h.world] at hw
  rcases hu : underflows c m.state with _ | _
  · rw [perform_world h.onTape hu, Option.some_inj] at hw
    exact ⟨attempt_of_command h.fault hc hu, h.program, hw, rfl, h.onTape.advance c⟩
  · rw [perform_world_of_underflow hu] at hw
    cases hw

/-- A command that has no effect is a fault. -/
theorem Running.underflow (h : m.Running p w) (hc : p.at? m.state.pc = some c)
    (hw : w.perform c = none) :
    m.attempt = (.faulted ⟨m.state.pc⟩, { m with fault := some ⟨m.state.pc⟩ }) := by
  rw [← h.program] at hc
  rw [← h.world] at hw
  rcases hu : underflows c m.state with _ | _
  · rw [perform_world h.onTape hu] at hw
    cases hw
  · exact attempt_of_underflow h.fault hc hu

/-- **One test of a loop**, at either of its brackets: the machine leaves the loop if the cell under
the pointer is zero, and comes to the start of the body if not. -/
theorem Running.test (h : m.Running p w) {pos k : Nat} {body rest : Block}
    (hb : (Block.loop pos body rest).LiesAt p k)
    (hpc : (Block.loop pos body rest).Entry k m.state.pc) :
    ∃ c m₁, m.attempt = (.stepped c m.state.pc, m₁) ∧ m₁.Running p w ∧
      m₁.state.pc = if w.cell = 0 then k + body.size + 2 else k + 1 := by
  obtain ⟨hstart, hend, hforth, hback, -, -⟩ := hb
  rcases hpc with hpc | hpc
  · rw [← hpc] at hstart
    obtain ⟨hattempt, hrunning⟩ := h.stepped hstart rfl
    refine ⟨_, _, hattempt, hrunning, ?_⟩
    rw [pc_advance, h.program, h.cell_eq, hpc, nextPc, hforth]
    rfl
  · rw [← hpc] at hend
    obtain ⟨hattempt, hrunning⟩ := h.stepped hend rfl
    refine ⟨_, _, hattempt, hrunning, ?_⟩
    rw [pc_advance, h.program, h.cell_eq, hpc, nextPc, hback]
    rfl

/-- Where the cell is zero, the machine goes on behind the loop. -/
theorem Running.leave (h : m.Running p w) {pos k : Nat} {body rest : Block}
    (hb : (Block.loop pos body rest).LiesAt p k)
    (hpc : (Block.loop pos body rest).Entry k m.state.pc) (hcell : w.cell = 0) :
    ∃ c m₁, m.attempt = (.stepped c m.state.pc, m₁) ∧ m₁.Running p w ∧
      rest.LiesAt p (k + body.size + 2) ∧ rest.Entry (k + body.size + 2) m₁.state.pc := by
  obtain ⟨c, m₁, hattempt, hm₁, hpc₁⟩ := h.test hb hpc
  obtain ⟨-, -, -, -, -, hrest⟩ := hb
  rw [if_pos hcell] at hpc₁
  exact ⟨c, m₁, hattempt, hm₁, hrest, Block.entry_of_eq rest hpc₁⟩

/-- Where the cell is not zero, the machine goes on with the body of the loop. -/
theorem Running.enter (h : m.Running p w) {pos k : Nat} {body rest : Block}
    (hb : (Block.loop pos body rest).LiesAt p k)
    (hpc : (Block.loop pos body rest).Entry k m.state.pc) (hcell : w.cell ≠ 0) :
    ∃ c m₁, m.attempt = (.stepped c m.state.pc, m₁) ∧ m₁.Running p w ∧
      body.LiesAt p (k + 1) ∧ body.Entry (k + 1) m₁.state.pc := by
  obtain ⟨c, m₁, hattempt, hm₁, hpc₁⟩ := h.test hb hpc
  obtain ⟨-, -, -, -, hbody, -⟩ := hb
  rw [if_neg hcell] at hpc₁
  exact ⟨c, m₁, hattempt, hm₁, hbody, Block.entry_of_eq body hpc₁⟩

theorem pc_advance_of_isPlain (hc : Brackets.IsPlain c) :
    (m.advance c).state.pc = m.state.pc + 1 := by
  rw [pc_advance]
  cases c with
  | loopStart => exact absurd rfl hc.1
  | loopEnd => exact absurd rfl hc.2
  | moveRight | moveLeft | increment | decrement | write | read => rfl

end Machine

/-! ### The simulation -/

/-- What the machine is about to do after the execution of a tree that stops in front of position
`stop`: to go on from there, or to fault. -/
def Ending.Shown (stop : Nat) (m : Machine) : Ending → Prop
  | ended => m.state.pc = stop
  | faulted pos => m.attempt = (.faulted ⟨pos⟩, { m with fault := some ⟨pos⟩ })

namespace Block

variable {p : Program}

/-- **The machine takes exactly the steps of the execution of a tree.** -/
theorem Runs.simulated {b : Block} {n : Nat} {e : Ending} {w w' : World} (h : b.Runs w n e w') :
    ∀ {k : Nat} {m : Machine}, b.LiesAt p k → b.Entry k m.state.pc → m.Running p w →
      ∃ last, Machine.after? n m = some last ∧ last.Running p w' ∧
        e.Shown (k + b.size) last := by
  induction h with
  | nil w =>
    intro k m _ hpc hm
    exact ⟨m, rfl, hm, hpc⟩
  | @perform c plain pos n rest e w w₁ w₂ hw hrest ih =>
    intro k m hb hpc hm
    obtain ⟨-, hc, hlies⟩ := hb
    rw [← show m.state.pc = k from hpc] at hc
    obtain ⟨hattempt, hm₁⟩ := hm.stepped hc hw
    have hpc₁ : (m.advance c).state.pc = k + 1 := by
      rw [Machine.pc_advance_of_isPlain plain, show m.state.pc = k from hpc]
    obtain ⟨last, hlast, hrunning, hshown⟩ := ih hlies (entry_of_eq rest hpc₁) hm₁
    refine ⟨last, ?_, hrunning, ?_⟩
    · rw [Machine.after?_succ_of_stepped hattempt, hlast]
    · rwa [size_command, show k + (rest.size + 1) = k + 1 + rest.size by omega]
  | @underflow c plain pos rest w hw =>
    intro k m hb hpc hm
    obtain ⟨hpos, hc, -⟩ := hb
    rw [← show m.state.pc = k from hpc] at hc hpos
    refine ⟨m, rfl, hm, ?_⟩
    rw [hpos]
    exact hm.underflow hc hw
  | @leave pos n body rest e w w₁ hcell hrest ih =>
    intro k m hb hpc hm
    obtain ⟨c, m₁, hattempt, hm₁, hlies, hentry⟩ := hm.leave hb hpc hcell
    obtain ⟨last, hlast, hrunning, hshown⟩ := ih hlies hentry hm₁
    refine ⟨last, ?_, hrunning, ?_⟩
    · rw [Nat.add_comm, Machine.after?_succ_of_stepped hattempt, hlast]
    · rwa [size_loop,
        show k + (body.size + rest.size + 2) = k + body.size + 2 + rest.size by omega]
  | @pass pos n n' body rest e w w₁ w₂ hcell hbody hloop ihbody ihloop =>
    intro k m hb hpc hm
    obtain ⟨c, m₁, hattempt, hm₁, hlies, hentry⟩ := hm.enter hb hpc hcell
    obtain ⟨m₂, hm₂, hrunning₂, hpc₂⟩ := ihbody hlies hentry hm₁
    obtain ⟨last, hlast, hrunning, hshown⟩ :=
      ihloop hb (entry_of_eq_end pos body rest hpc₂) hrunning₂
    refine ⟨last, ?_, hrunning, hshown⟩
    have hfirst : Machine.after? (n + 1) m = some m₂ := by
      rw [Machine.after?_succ_of_stepped hattempt, hm₂]
    exact Machine.after?_trans hfirst hlast
  | @passFault pos n q body rest w w₁ hcell hbody ih =>
    intro k m hb hpc hm
    obtain ⟨c, m₁, hattempt, hm₁, hlies, hentry⟩ := hm.enter hb hpc hcell
    obtain ⟨last, hlast, hrunning, hshown⟩ := ih hlies hentry hm₁
    refine ⟨last, ?_, hrunning, hshown⟩
    rw [Nat.add_comm, Machine.after?_succ_of_stepped hattempt, hlast]

/-- **If the machine comes to a halt, then the execution of the tree does.** -/
theorem exists_runs (steps : Nat) : ∀ {b : Block} {k : Nat} {m last : Machine} {w : World},
    b.LiesAt p k → b.Entry k m.state.pc → m.Running p w → Machine.after? steps m = some last →
      last.next? = none → ∃ n e w', b.Runs w n e w' := by
  -- every part of the tree is reached by a step at least, so the induction is on the steps left
  induction steps using Nat.strongRecOn with
  | ind steps ih =>
    intro b k m last w hb hpc hm hlast hhalt
    have hless : ∀ {c : Command} {pos : Nat} {m₁ : Machine},
        m.attempt = (.stepped c pos, m₁) → ∃ left < steps, Machine.after? left m₁ = some last := by
      intro c pos m₁ hattempt
      have hfirst : Machine.after? 1 m = some m₁ := by
        rw [Machine.after?_succ_of_stepped hattempt, Machine.after?]
      obtain ⟨left, hsteps, hleft⟩ := Machine.after?_cut hfirst hlast hhalt
      exact ⟨left, by omega, hleft⟩
    cases b with
    | nil => exact ⟨0, .ended, w, .nil w⟩
    | command c plain pos rest =>
      obtain ⟨-, hc, hlies⟩ := hb
      rw [← show m.state.pc = k from hpc] at hc hlies
      rcases hw : w.perform c with _ | w₁
      · exact ⟨0, .faulted pos, w, .underflow hw⟩
      · obtain ⟨hattempt, hm₁⟩ := hm.stepped hc hw
        obtain ⟨left, hlt, hleft⟩ := hless hattempt
        have hpc₁ : (m.advance c).state.pc = m.state.pc + 1 := Machine.pc_advance_of_isPlain plain
        obtain ⟨n, e, w', hruns⟩ := ih left hlt hlies (entry_of_eq rest hpc₁) hm₁ hleft hhalt
        exact ⟨n + 1, e, w', .perform hw hruns⟩
    | loop pos body rest =>
      by_cases hcell : w.cell = 0
      · obtain ⟨c, m₁, hattempt, hm₁, hlies, hentry⟩ := hm.leave hb hpc hcell
        obtain ⟨left, hlt, hleft⟩ := hless hattempt
        obtain ⟨n, e, w', hruns⟩ := ih left hlt hlies hentry hm₁ hleft hhalt
        exact ⟨1 + n, e, w', .leave hcell hruns⟩
      · obtain ⟨c, m₁, hattempt, hm₁, hlies, hentry⟩ := hm.enter hb hpc hcell
        obtain ⟨left, hlt, hleft⟩ := hless hattempt
        obtain ⟨n, e, w₁, hpass⟩ := ih left hlt hlies hentry hm₁ hleft hhalt
        obtain ⟨m₂, hm₂, hrunning₂, hshown⟩ := hpass.simulated hlies hentry hm₁
        cases e with
        | ended =>
          -- one pass is over: the machine is at the `]`, with fewer steps left
          obtain ⟨left', hsum, hleft'⟩ := Machine.after?_cut hm₂ hleft hhalt
          obtain ⟨n', e, w', hloop⟩ := ih left' (by omega) hb (entry_of_eq_end pos body rest hshown)
            hrunning₂ hleft' hhalt
          exact ⟨n + 1 + n', e, w', .pass hcell hpass hloop⟩
        | faulted q => exact ⟨1 + n, .faulted q, w₁, .passFault hcell hpass⟩

end Block

/-! ### Runs -/

/-- The machine is at the start of the program, and the tree is that of the program. -/
structure Block.Begins (b : Block) (p : Program) (w : World) (m : Machine) : Prop where
  lies : b.LiesAt p 0
  size : b.size = p.length
  running : m.Running p w
  pc : m.state.pc = 0

/-- What an attempt to take a step comes to when the execution of the whole tree has ended so. -/
def Ending.attempt (m : Machine) : Ending → Attempt × Machine
  | ended => (.ended, m)
  | faulted pos => (.faulted ⟨pos⟩, { m with fault := some ⟨pos⟩ })

namespace Block.Begins

variable {b : Block} {p : Program} {w w' : World} {m : Machine} {n : Nat} {e : Ending}

/-- The execution of the whole tree leads the machine to a halt. -/
theorem halts (h : b.Begins p w m) (hruns : b.Runs w n e w') :
    ∃ last, Machine.after? n m = some last ∧ last.Running p w' ∧
      last.attempt = e.attempt last := by
  obtain ⟨last, hlast, hrunning, hshown⟩ :=
    hruns.simulated h.lies (entry_of_eq b h.pc) h.running
  refine ⟨last, hlast, hrunning, ?_⟩
  cases e with
  | ended =>
    have hpc : last.state.pc = p.length := by
      rw [show last.state.pc = 0 + b.size from hshown, Nat.zero_add, h.size]
    refine Machine.attempt_of_end hrunning.fault ?_
    rw [hrunning.program, hpc]
    exact Array.getElem?_eq_none (Nat.le_refl _)
  | faulted pos => exact hshown

end Block.Begins

theorem Ending.next?_eq_none {e : Ending} {m : Machine} (h : m.attempt = e.attempt m) :
    m.next? = none := by
  cases e with
  | ended => exact Machine.next?_of_ended h
  | faulted pos => exact Machine.next?_of_faulted h

namespace Machine

variable {budget executed n : Nat} {signal : Signal} {last : Machine} {result : Summary × Machine}

/-- A machine without a fault that does not go on is at the end of its program. -/
theorem attempt_of_haltReason (hf : last.fault = none)
    (h : last.haltReason = .programEnded ∨ last.haltReason = .faulted) :
    last.haltReason = .programEnded ∧ last.attempt = (.ended, last) := by
  by_cases hpc : last.program.length ≤ last.state.pc
  · exact ⟨haltReason_of_end hf hpc, attempt_of_end hf (Array.getElem?_eq_none hpc)⟩
  · have hexhausted : last.haltReason = .budgetExhausted := by
      rw [haltReason, hf, if_neg (by simp), if_neg hpc]
    rw [hexhausted] at h
    rcases h with h | h <;> cases h

/-- A run that is not broken off has brought the machine to a halt. -/
theorem RunEnd.next?_eq_none (h : RunEnd budget signal executed n last result)
    (hhalt : result.1.halt = .programEnded ∨ result.1.halt = .faulted) : last.next? = none := by
  cases h with
  | exhausted =>
    rcases hf : last.fault with _ | f
    · exact next?_of_ended (attempt_of_haltReason hf hhalt).2
    · exact next?_of_faulted (attempt_of_fault hf)
  | interrupted cause => rcases hhalt with h | h <;> cases h
  | ended _ hlast => exact next?_of_ended hlast
  | faulted f last' _ hlast => exact next?_of_faulted hlast

/-- What a run reports that brought the machine to the halt of the execution of a tree. -/
theorem RunEnd.eq_of_attempt {e : Ending} {p : Program} {w : World}
    (h : RunEnd budget .never 0 n last result)
    (hhalt : result.1.halt = .programEnded ∨ result.1.halt = .faulted) (hlast : last.Running p w)
    (hattempt : last.attempt = e.attempt last) :
    result.1 = ⟨n, w.output, e.halt, e.stop⟩ ∧ result.2.world = w := by
  have houtput : last.output = w.output := congrArg World.output hlast.world
  cases h with
  | exhausted =>
    -- with its budget used up, a run without a fault halts at the end of the program only
    obtain ⟨hreason, hended⟩ := attempt_of_haltReason hlast.fault hhalt
    rw [hended] at hattempt
    cases e with
    | ended =>
      refine ⟨?_, hlast.world⟩
      rw [hreason, hlast.fault, Nat.zero_add, summarize, houtput]
      rfl
    | faulted pos => cases hattempt
  | interrupted cause _ hsignal => cases hsignal
  | ended _ hended =>
    rw [hended] at hattempt
    cases e with
    | ended =>
      refine ⟨?_, hlast.world⟩
      rw [Nat.zero_add, summarize, houtput]
      rfl
    | faulted pos => cases hattempt
  | faulted f last' _ hfaulted =>
    rw [hfaulted] at hattempt
    cases e with
    | ended => cases hattempt
    | faulted pos =>
      cases hattempt
      refine ⟨?_, hlast.world⟩
      rw [Nat.zero_add, summarize]
      exact congrArg (Summary.mk n · .faulted (some (.fault ⟨pos⟩))) houtput

end Machine

namespace Block.Begins

variable {b : Block} {p : Program} {w w' : World} {m : Machine} {n : Nat} {e : Ending}

/-- A run with a budget that is large enough ends as the execution of the tree does. -/
theorem exists_budget (h : b.Begins p w m) (hruns : b.Runs w n e w') :
    ∃ budget, (m.run budget).1.halt = e.halt := by
  obtain ⟨last, hlast, -, hattempt⟩ := h.halts hruns
  refine ⟨(n + 1 : Nat), ?_⟩
  rw [Machine.run, Int.toNat_natCast, Machine.runFrom_add n hlast 1 0, Machine.runFrom,
    Signal.poll, hattempt]
  cases e with
  | ended => rfl
  | faulted pos => rfl

/-- A run that is not broken off reports the execution of the tree. -/
theorem run_eq (h : b.Begins p w m) (hruns : b.Runs w n e w') {budget : Int}
    (hhalt : (m.run budget).1.halt = .programEnded ∨ (m.run budget).1.halt = .faulted) :
    (m.run budget).1 = ⟨n, w'.output, e.halt, e.stop⟩ ∧ (m.run budget).2.world = w' := by
  obtain ⟨last, hlast, hrunning, hattempt⟩ := h.halts hruns
  obtain ⟨n', last', -, hlast', hend⟩ := m.run_runEnd budget .never
  obtain ⟨rfl, rfl⟩ := Machine.after?_halt_unique hlast' hlast (hend.next?_eq_none hhalt)
    (Ending.next?_eq_none hattempt)
  exact hend.eq_of_attempt hhalt hrunning hattempt

/-- If a run is not broken off, then the execution of the tree ends as it does. -/
theorem exists_runs_of_halt (h : b.Begins p w m) {budget : Int}
    (hhalt : (m.run budget).1.halt = .programEnded ∨ (m.run budget).1.halt = .faulted) :
    ∃ n e w', b.Runs w n e w' ∧ (m.run budget).1.halt = e.halt := by
  obtain ⟨n, last, -, hlast, hend⟩ := m.run_runEnd budget .never
  obtain ⟨n', e, w', hruns⟩ := Block.exists_runs n h.lies (entry_of_eq b h.pc) h.running hlast
    (hend.next?_eq_none hhalt)
  refine ⟨n', e, w', hruns, ?_⟩
  rw [(h.run_eq hruns hhalt).1]

end Block.Begins

theorem begins_of_load {src : Bytes} {p : Program} (hload : Program.load src = .ok p) {b : Block}
    (hcommands : b.commands = Program.commandsOf src) (hplaced : b.PlacedAt 0) {length : Nat}
    (hlength : 1 ≤ length) (input : Bytes) :
    b.Begins p (.start input) (.start p length input) where
  lies := by
    refine Block.liesAt_of_load hload b (a := []) (d := []) ?_ hplaced
    rw [List.nil_append, List.append_nil, hcommands]
  size := by rw [Block.size, hcommands, Program.length_of_load hload]
  running := Machine.running_start p hlength input
  pc := rfl

/-- **The machine executes loops.**  A loaded program has a tree, and for every positive tape length
and every input a run of the machine comes to the end of the program if and only if the execution of
the tree does, and faults if and only if it does. In both cases the two take the same number of steps
and leave the same pointer, the same cells, the same output and the same input, and the fault is at
the same position. -/
theorem run_refines_loops {src : Bytes} {p : Program} (hload : Program.load src = .ok p)
    {length : Int} (hlength : 1 ≤ length) (input : Bytes) :
    ∃ b m, Block.parse (Program.commandsOf src) = some b ∧
      b.commands = Program.commandsOf src ∧ b.PlacedAt 0 ∧
      Machine.new? p length input = some m ∧
      ((∃ budget, (m.run budget).1.halt = .programEnded) ↔
        ∃ n w, b.Runs (.start input) n .ended w) ∧
      ((∃ budget, (m.run budget).1.halt = .faulted) ↔
        ∃ n pos w, b.Runs (.start input) n (.faulted pos) w) ∧
      ∀ n e w, b.Runs (.start input) n e w → ∀ budget,
        (m.run budget).1.halt = .programEnded ∨ (m.run budget).1.halt = .faulted →
          (m.run budget).1 = ⟨n, w.output, e.halt, e.stop⟩ ∧ (m.run budget).2.world = w := by
  obtain ⟨b, hparse, hcommands, hplaced⟩ := Block.parse_of_balanced (Program.balanced_of_load hload)
  have hbegins := begins_of_load hload hcommands hplaced (show 1 ≤ length.toNat by omega) input
  -- each half: a halt of the run is one of the tree, and a budget of one step more shows it
  refine ⟨b, .start p length.toNat input, hparse, hcommands, hplaced,
    Machine.new?_of_pos hlength p input, ⟨?_, ?_⟩, ⟨?_, ?_⟩, ?_⟩
  · rintro ⟨budget, hhalt⟩
    obtain ⟨n, e, w, hruns, hsame⟩ := hbegins.exists_runs_of_halt (.inl hhalt)
    rw [hhalt] at hsame
    cases e with
    | ended => exact ⟨n, w, hruns⟩
    | faulted pos => cases hsame
  · rintro ⟨n, w, hruns⟩
    exact hbegins.exists_budget hruns
  · rintro ⟨budget, hhalt⟩
    obtain ⟨n, e, w, hruns, hsame⟩ := hbegins.exists_runs_of_halt (.inr hhalt)
    rw [hhalt] at hsame
    cases e with
    | ended => cases hsame
    | faulted pos => exact ⟨n, pos, w, hruns⟩
  · rintro ⟨n, pos, w, hruns⟩
    exact hbegins.exists_budget hruns
  · intro n e w hruns budget hhalt
    exact hbegins.run_eq hruns hhalt

/-- A program that reads a byte and counts it down, with the input 2: two passes of two steps, behind
the step that reads and the test on entry. -/
theorem run_refines_loops_of_countdown :
    ∃ p b m, Program.load [44, 91, 45, 93] = .ok p ∧
      Block.parse (Program.commandsOf [44, 91, 45, 93]) = some b ∧
      Machine.new? p 1 [2] = some m ∧ (m.run 100).1.halt = .programEnded ∧
      b.Runs (.start [2]) 6 .ended (m.run 100).2.world := by
  have hload : Program.load [44, 91, 45, 93] = .ok
      ⟨#[.read, .loopStart, .decrement, .loopEnd], #[0, 1, 2, 3],
        #[none, some 3, none, some 1]⟩ := rfl
  obtain ⟨b, m, hparse, -, -, hm, hended, -, hsame⟩ :=
    run_refines_loops hload (show (1 : Int) ≤ 1 by decide) [2]
  have hhalt : (m.run 100).1.halt = .programEnded := by
    cases hm
    rfl
  obtain ⟨n, w, hruns⟩ := hended.mp ⟨100, hhalt⟩
  obtain ⟨hsummary, hworld⟩ := hsame n .ended w hruns 100 (.inl hhalt)
  have hsteps : (m.run 100).1.steps = 6 := by
    cases hm
    rfl
  rw [hsummary] at hsteps
  rw [show n = 6 from hsteps, ← hworld] at hruns
  exact ⟨_, b, m, hload, hparse, hm, hhalt, hruns⟩

end TapeMachine
