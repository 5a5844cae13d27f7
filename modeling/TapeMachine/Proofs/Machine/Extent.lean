/-
How far a tape reaches cannot be told.

Two machines that differ only in how many zeros their tapes hold past a common part are alike: what
one of them does, the other does, and the reports of it are alike too.

* `Machine.Alike`: two machines with the same cells, of which the tapes need not be equally long;
* `Machine.Twins`: moreover both have their pointer on the tape, so that they stay alike;
* `Twins.performAll`: calls that show no state to an observer leave twins twins;
* `length_of_path`: a tape reaches as far as at the start, or up to the farthest cell visited;
* `tape_length_unobservable`: the length of the tape at the start makes no other difference.
-/
import TapeMachine.Proofs.Machine.Call
import TapeMachine.Proofs.Machine.World
import TapeMachine.Script.Host
import Mathlib.Data.List.Forall2

namespace TapeMachine

/-! ### What is alike -/

/-- Two states that differ in the length of their tapes at most. -/
structure State.Alike (s t : State) : Prop where
  pointer : s.pointer = t.pointer
  pc : s.pc = t.pc
  output : s.output = t.output
  cell : ∀ i, s.tape.cell i = t.tape.cell i

/-- Two steps that execute the same command between states that are alike. -/
structure StepRecord.Alike (r q : StepRecord) : Prop where
  command : r.command = q.command
  position : r.position = q.position
  before : r.before.Alike q.before
  after : r.after.Alike q.after

/-- Two events of one kind that are alike. -/
inductive Event.Alike : Event → Event → Prop
  | stepped {r q : StepRecord} (h : r.Alike q) : Event.Alike (.stepped r) (.stepped q)
  | fed (bytes : Bytes) : Event.Alike (.fed bytes) (.fed bytes)

/-- Two reports with the same fault and summary, of events that are alike. -/
structure Report.Alike (r q : Report) : Prop where
  events : List.Forall₂ Event.Alike r.events q.events
  fault : r.fault = q.fault
  summary : r.summary = q.summary

/-- Two machines that differ in the length of their tapes at most. -/
structure Machine.Alike (m n : Machine) : Prop where
  program : m.program = n.program
  state : m.state.Alike n.state
  input : m.input = n.input
  steps : m.steps = n.steps
  fault : m.fault = n.fault

namespace Machine

/-- Two machines that are alike and will stay so. -/
structure Twins (m n : Machine) : Prop extends Alike m n where
  left : m.OnTape
  right : n.OnTape

variable {m n : Machine}

theorem Alike.world (h : Alike m n) : m.world = n.world := by
  refine World.ext h.state.pointer ?_ h.state.output h.input
  funext i
  exact h.state.cell i

theorem alike_of_world (hprogram : m.program = n.program) (hworld : m.world = n.world)
    (hpc : m.state.pc = n.state.pc) (hsteps : m.steps = n.steps) (hfault : m.fault = n.fault) :
    Alike m n where
  program := hprogram
  state := {
    pointer := congrArg World.pointer hworld
    pc := hpc
    output := congrArg World.output hworld
    cell := congrFun (congrArg World.cells hworld) }
  input := congrArg World.input hworld
  steps := hsteps
  fault := hfault

theorem twins_start (p : Program) (input : Bytes) {a b : Nat} (ha : 1 ≤ a) (hb : 1 ≤ b) :
    Twins (start p a input) (start p b input) where
  toAlike := alike_of_world rfl (by rw [world_start, world_start]) rfl rfl rfl
  left := onTape_start p ha input
  right := onTape_start p hb input

/-! ### Steps of twins -/

theorem Alike.underflows_eq (h : Alike m n) (c : Command) :
    underflows c m.state = underflows c n.state := by
  rw [underflows, underflows, h.state.pointer]

theorem Alike.cell_eq (h : Alike m n) : m.state.cell = n.state.cell := by
  rw [State.cell, State.cell, h.state.pointer, h.state.cell]

theorem Twins.advance (h : Twins m n) {c : Command} (hu : underflows c m.state = false) :
    Twins (m.advance c) (n.advance c) := by
  have hu' : underflows c n.state = false := by rw [← h.underflows_eq, hu]
  have hm := perform_world h.left hu
  have hn := perform_world h.right hu'
  rw [h.world, hn, Option.some_inj] at hm
  refine ⟨alike_of_world h.program hm.symm ?_ ?_ rfl, h.left.advance c, h.right.advance c⟩
  · rw [pc_advance, pc_advance, h.program, h.state.pc, h.cell_eq]
  · rw [steps_advance, steps_advance, h.steps]

/-- **What one twin attempts, the other attempts**, and they are twins afterwards. -/
theorem Twins.attempt_cases (h : Twins m n) :
    (m.attempt = (.ended, m) ∧ n.attempt = (.ended, n)) ∨
    (∃ f m' n', m.attempt = (.faulted f, m') ∧ n.attempt = (.faulted f, n') ∧ Twins m' n') ∨
    (∃ c pos m' n', m.attempt = (.stepped c pos, m') ∧ n.attempt = (.stepped c pos, n') ∧
      Twins m' n') := by
  -- twins have the fault, the command and the pointer in common, which decide the case
  rcases m.attempt_cases with ⟨f, hf, ha⟩ | ⟨hf, hc, ha⟩ | ⟨hf, hc, hp, ha⟩ | ⟨c, hf, hc, hu, ha⟩
  · rw [h.fault] at hf
    exact .inr (.inl ⟨f, m, n, ha, attempt_of_fault hf, h⟩)
  · rw [h.fault] at hf
    rw [h.program, h.state.pc] at hc
    exact .inl ⟨ha, attempt_of_end hf hc⟩
  · have hu : underflows .moveLeft n.state = true := by
      rw [← h.underflows_eq]
      simp [underflows, hp]
    rw [h.fault] at hf
    rw [h.program, h.state.pc] at hc
    rw [h.state.pc] at ha
    refine .inr (.inl ⟨_, _, _, ha, attempt_of_underflow hf hc hu, ?_⟩)
    exact ⟨⟨h.program, h.state, h.input, h.steps, rfl⟩, h.left, h.right⟩
  · have hnext := h.advance hu
    rw [h.underflows_eq] at hu
    rw [h.fault] at hf
    rw [h.program, h.state.pc] at hc
    rw [h.state.pc] at ha
    exact .inr (.inr ⟨c, _, _, _, ha, attempt_of_command hf hc hu, hnext⟩)

theorem Twins.feed (h : Twins m n) (bytes : Bytes) : Twins (m.feed bytes) (n.feed bytes) := by
  refine ⟨⟨h.program, h.state, ?_, h.steps, h.fault⟩, h.left, h.right⟩
  rw [Machine.feed, Machine.feed, h.input]

/-- Recorded steps of twins are alike, or both twins end, or both fault. -/
theorem Twins.step_cases (h : Twins m n) :
    (m.step = (.ended, m) ∧ n.step = (.ended, n)) ∨
    (∃ f m' n', m.step = (.faulted f, m') ∧ n.step = (.faulted f, n') ∧ Twins m' n') ∨
    (∃ r q m' n', m.step = (.stepped r, m') ∧ n.step = (.stepped q, n') ∧ r.Alike q ∧
      Twins m' n') := by
  rcases h.attempt_cases with ⟨hm, hn⟩ | ⟨f, m', n', hm, hn, h'⟩ | ⟨c, pos, m', n', hm, hn, h'⟩
  · exact .inl ⟨step_of_ended hm, step_of_ended hn⟩
  · exact .inr (.inl ⟨f, m', n', step_of_faulted hm, step_of_faulted hn, h'⟩)
  · exact .inr (.inr ⟨_, _, m', n', step_of_stepped hm, step_of_stepped hn,
      ⟨rfl, rfl, h.state, h'.state⟩, h'⟩)

/-! ### Runs of twins -/

theorem Twins.takeSteps (k : Nat) : ∀ {m n : Machine}, Twins m n →
    List.Forall₂ StepRecord.Alike (m.takeSteps k).1 (n.takeSteps k).1 ∧
      (m.takeSteps k).2.1 = (n.takeSteps k).2.1 ∧
      Twins (m.takeSteps k).2.2 (n.takeSteps k).2.2 := by
  induction k with
  | zero =>
    intro m n h
    exact ⟨.nil, rfl, h⟩
  | succ k ih =>
    intro m n h
    rcases h.step_cases with ⟨hm, hn⟩ | ⟨f, m', n', hm, hn, h'⟩ | ⟨r, q, m', n', hm, hn, halike, h'⟩
    · rw [takeSteps_of_ended hm, takeSteps_of_ended hn]
      exact ⟨.nil, rfl, h⟩
    · rw [takeSteps_of_faulted hm, takeSteps_of_faulted hn]
      exact ⟨.nil, rfl, h'⟩
    · rw [takeSteps_of_stepped hm, takeSteps_of_stepped hn]
      obtain ⟨hrecords, hfault, hlast⟩ := ih h'
      exact ⟨.cons halike hrecords, hfault, hlast⟩

theorem Alike.summarize_eq (h : Alike m n) (steps : Nat) (halt : HaltReason) (stop : Option Stop) :
    m.summarize steps halt stop = n.summarize steps halt stop := by
  have houtput : m.output = n.output := h.state.output
  rw [summarize, summarize, houtput]

theorem Alike.haltReason_eq (h : Alike m n) : m.haltReason = n.haltReason := by
  rw [haltReason, haltReason, h.fault, h.program, h.state.pc]

theorem Twins.runFrom (budget : Nat) : ∀ {m n : Machine}, Twins m n →
    ∀ (signal : Signal) (executed : Nat),
      (m.runFrom budget signal executed).1 = (n.runFrom budget signal executed).1 ∧
        Twins (m.runFrom budget signal executed).2 (n.runFrom budget signal executed).2 := by
  induction budget with
  | zero =>
    intro m n h signal executed
    rw [Machine.runFrom, Machine.runFrom, h.fault, h.haltReason_eq, h.summarize_eq]
    exact ⟨rfl, h⟩
  | succ budget ih =>
    intro m n h signal executed
    rw [Machine.runFrom, Machine.runFrom]
    rcases signal.poll with cause | signal'
    · exact ⟨h.summarize_eq _ _ _, h⟩
    · rcases h.attempt_cases with ⟨hm, hn⟩ | ⟨f, m', n', hm, hn, h'⟩ | ⟨c, pos, m', n', hm, hn, h'⟩
      · rw [hm, hn]
        exact ⟨h.summarize_eq _ _ _, h⟩
      · rw [hm, hn]
        exact ⟨h'.summarize_eq _ _ _, h'⟩
      · rw [hm, hn]
        exact ih h' signal' (executed + 1)

end Machine

/-! ### Calls on twins -/

/-- The calls that show no state to an observer. -/
def Call.Unobserved : Call → Prop
  | observe .. => False
  | step | steps _ | run _ _ | feed _ => True

theorem forall₂_map_stepped {rs qs : List StepRecord} (h : List.Forall₂ StepRecord.Alike rs qs) :
    List.Forall₂ Event.Alike (rs.map .stepped) (qs.map .stepped) := by
  rw [List.forall₂_map_left_iff, List.forall₂_map_right_iff]
  exact h.imp fun r q hrq => .stepped hrq

theorem Machine.Twins.perform {m n : Machine} (h : Twins m n) {call : Call}
    (hcall : call.Unobserved) :
    (call.perform m).1.Alike (call.perform n).1 ∧
      Twins (call.perform m).2 (call.perform n).2 := by
  cases call with
  | step =>
    rw [Call.perform, Call.perform]
    rcases h.step_cases with ⟨hm, hn⟩ | ⟨f, m', n', hm, hn, h'⟩ | ⟨r, q, m', n', hm, hn, halike, h'⟩
    · rw [hm, hn]
      exact ⟨⟨.nil, rfl, rfl⟩, h⟩
    · rw [hm, hn]
      exact ⟨⟨.nil, rfl, rfl⟩, h'⟩
    · rw [hm, hn]
      exact ⟨⟨.cons (.stepped halike) .nil, rfl, rfl⟩, h'⟩
  | steps limit =>
    obtain ⟨hrecords, hfault, h'⟩ := h.takeSteps limit
    exact ⟨⟨forall₂_map_stepped hrecords, hfault, rfl⟩, h'⟩
  | run budget signal =>
    obtain ⟨hsummary, h'⟩ := h.runFrom budget.toNat signal 0
    have hsteps := congrArg Summary.steps hsummary
    -- both runs take the same number of steps, and these steps are alike
    obtain ⟨hrecords, -, -⟩ := h.takeSteps (m.run budget signal).1.steps
    refine ⟨⟨?_, rfl, congrArg some hsummary⟩, h'⟩
    show List.Forall₂ Event.Alike ((m.takeSteps (m.run budget signal).1.steps).1.map .stepped)
      ((n.takeSteps (n.run budget signal).1.steps).1.map .stepped)
    rw [show (n.run budget signal).1.steps = (m.run budget signal).1.steps from hsteps.symm]
    exact forall₂_map_stepped hrecords
  | observe budget signal observer s => exact hcall.elim
  | feed bytes => exact ⟨⟨.cons (.fed bytes) .nil, rfl, rfl⟩, h.feed bytes⟩

/-- **Calls leave twins twins**, and their reports are alike. -/
theorem Machine.Twins.performAll {calls : List Call} (hcalls : ∀ call ∈ calls, call.Unobserved) :
    ∀ {m n : Machine}, Twins m n →
      List.Forall₂ Report.Alike (performAll calls m).1 (performAll calls n).1 ∧
        Twins (performAll calls m).2 (performAll calls n).2 := by
  induction calls with
  | nil =>
    intro m n h
    exact ⟨.nil, h⟩
  | cons call calls ih =>
    intro m n h
    obtain ⟨hreport, h'⟩ := h.perform (hcalls call List.mem_cons_self)
    obtain ⟨hreports, hlast⟩ := ih (fun c hc => hcalls c (List.mem_cons_of_mem call hc)) h'
    exact ⟨.cons hreport hreports, hlast⟩

/-! ### The length of the tape -/

/-- The largest pointer that the steps lead to, zero if there are none. -/
def farthest : List StepRecord → Nat
  | [] => 0
  | r :: rs => max r.after.pointer (farthest rs)

theorem farthest_append (rs qs : List StepRecord) :
    farthest (rs ++ qs) = max (farthest rs) (farthest qs) := by
  induction rs with
  | nil => simp [farthest]
  | cons r rs ih => rw [List.cons_append, farthest, farthest, ih, Nat.max_assoc]

/-- **A tape reaches as far as at the start, or up to the farthest cell visited.** -/
theorem length_of_path {m m' : Machine} {es : List Event} (h : Path m es m') (hm : m.OnTape) :
    m'.state.tape.length = max m.state.tape.length (1 + farthest (records es)) := by
  induction h with
  | refl =>
    have hpos : m.state.pointer < m.state.tape.length := hm
    rw [records_nil, farthest]
    omega
  | @stepped m₁ m₂ es r h hstep ih =>
    have hon : m₁.OnTape := h.preserves (P := Machine.OnTape) (fun _ => Machine.OnTape.attempt)
      (fun _ _ hm => hm) hm
    obtain ⟨-, -, -, hm₂, hr⟩ := Machine.of_step_eq_stepped hstep
    -- the tape grows up to the pointer at most, which the record of the step counts
    have hlength := Machine.length_advance r.command hon
    rw [← hm₂, ih] at hlength
    have hafter : r.after.pointer = m₂.state.pointer := by rw [hr]
    rw [hlength, records_append, records_stepped, farthest_append, farthest, farthest, hafter]
    omega
  | faulted h hstep ih =>
    rw [Machine.of_step_eq_faulted hstep]
    exact ih
  | fed h bytes ih =>
    rw [records_append, records_fed, List.append_nil]
    exact ih

theorem length_performAll {p : Program} {length : Nat} (h : 1 ≤ length) (input : Bytes)
    (calls : List Call) :
    (performAll calls (.start p length input)).2.state.tape.length = max length
      (1 + farthest (records (eventsOf (performAll calls (.start p length input)).1))) := by
  have hlength := length_of_path (path_performAll calls (.start p length input))
    (Machine.onTape_start p h input)
  rwa [show (Machine.start p length input).state.tape.length = length from
    Tape.length_blank length] at hlength

/-! ### Scripts -/

theorem Machine.Alike.cellAt_eq {m n : Machine} (h : Alike m n) (cells i : Int) :
    Script.cellAt (m.snapshot cells).state.tape i
      = Script.cellAt (n.snapshot cells).state.tape i := by
  have hcell : ∀ k,
      (m.snapshot cells).state.tape.cell k = (n.snapshot cells).state.tape.cell k := by
    intro k
    rw [tape_snapshot, tape_snapshot, Tape.cell_window, Tape.cell_window, h.state.cell]
  unfold Script.cellAt
  split
  · rfl
  · exact congrArg (fun b : UInt8 => (b.toNat : Int)) (hcell i.toNat)

/-- Scripts see the difference in no other variable than the tape itself. -/
theorem Machine.Alike.lookup_globals {m n : Machine} (h : Alike m n) (cells : Int) (p : Program)
    {name : String} (hname : name ≠ "tape") :
    (Script.globals (m.snapshot cells) p).lookup name
      = (Script.globals (n.snapshot cells) p).lookup name := by
  have hcell := funext (h.cellAt_eq cells)
  have hdone : m.done = n.done := by rw [done, done, h.fault, h.program, h.state.pc]
  have hrest : (Script.globals (m.snapshot cells) p).tail
      = (Script.globals (n.snapshot cells) p).tail := by
    simp only [Script.globals, List.tail_cons, hcell]
    simp only [snapshot, State.output, hdone, h.state.pointer, h.state.pc, h.steps, h.fault]
    rw [show m.state.written.reverse = n.state.written.reverse from h.state.output]
  have hskip : ∀ s : Snapshot, (Script.globals s p).lookup name
      = (Script.globals s p).tail.lookup name := by
    intro s
    rw [Script.globals, List.lookup_cons, beq_eq_false_iff_ne.mpr hname, List.tail_cons]
  rw [hskip, hskip, hrest]

/-- **The length of the tape at the start cannot be told** from anything but the tape itself. For
every program, every input, two positive lengths and the same calls, the reports are alike and so are
the machines afterwards; a script reads the same values, the cells included; and the tape of each
machine reaches as far as at the start, or up to the farthest cell visited. -/
theorem tape_length_unobservable (p : Program) (input : Bytes) {a b : Int} (ha : 1 ≤ a)
    (hb : 1 ≤ b) {calls : List Call} (hcalls : ∀ call ∈ calls, call.Unobserved) :
    ∃ m n, Machine.new? p a input = some m ∧ Machine.new? p b input = some n ∧
      List.Forall₂ Report.Alike (performAll calls m).1 (performAll calls n).1 ∧
      (performAll calls m).2.Alike (performAll calls n).2 ∧
      (∀ cells i, Script.cellAt ((performAll calls m).2.snapshot cells).state.tape i
        = Script.cellAt ((performAll calls n).2.snapshot cells).state.tape i) ∧
      (∀ cells name, name ≠ "tape" →
        (Script.globals ((performAll calls m).2.snapshot cells) p).lookup name
          = (Script.globals ((performAll calls n).2.snapshot cells) p).lookup name) ∧
      (performAll calls m).2.state.tape.length
        = max a.toNat (1 + farthest (records (eventsOf (performAll calls m).1))) ∧
      (performAll calls n).2.state.tape.length
        = max b.toNat (1 + farthest (records (eventsOf (performAll calls n).1))) := by
  have ha' : 1 ≤ a.toNat := by omega
  have hb' : 1 ≤ b.toNat := by omega
  obtain ⟨hreports, htwins⟩ := (Machine.twins_start p input ha' hb').performAll hcalls
  refine ⟨.start p a.toNat input, .start p b.toNat input, Machine.new?_of_pos ha p input,
    Machine.new?_of_pos hb p input, hreports, htwins.toAlike, htwins.cellAt_eq, ?_,
    length_performAll ha' input calls, length_performAll hb' input calls⟩
  intro cells name hname
  exact htwins.lookup_globals cells p hname

/-- A program that moves right over the end of a single cell and not over that of three. -/
theorem tape_length_unobservable_of_move_loop :
    ∃ p m n, Program.load [43, 91, 62, 43, 62, 93] = .ok p ∧
      Machine.new? p 1 [] = some m ∧ Machine.new? p 3 [] = some n ∧
      List.Forall₂ Report.Alike (performAll [.step, .feed [7], .run 100 .never] m).1
        (performAll [.step, .feed [7], .run 100 .never] n).1 ∧
      (performAll [.step, .feed [7], .run 100 .never] m).2.Alike
        (performAll [.step, .feed [7], .run 100 .never] n).2 := by
  have hload : Program.load [43, 91, 62, 43, 62, 93] = .ok
      ⟨#[.increment, .loopStart, .moveRight, .increment, .moveRight, .loopEnd],
        #[0, 1, 2, 3, 4, 5], #[none, some 5, none, none, none, some 1]⟩ := rfl
  obtain ⟨m, n, hm, hn, hreports, halike, -⟩ := tape_length_unobservable
    ⟨#[.increment, .loopStart, .moveRight, .increment, .moveRight, .loopEnd],
      #[0, 1, 2, 3, 4, 5], #[none, some 5, none, none, none, some 1]⟩ []
    (show (1 : Int) ≤ 1 by decide) (show (1 : Int) ≤ 3 by decide)
    (show ∀ call ∈ [Call.step, .feed [7], .run 100 .never], call.Unobserved by
      simp [Call.Unobserved])
  exact ⟨_, m, n, hload, hm, hn, hreports, halike⟩

end TapeMachine
