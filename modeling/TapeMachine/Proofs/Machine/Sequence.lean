/-
One program behind the other.

A program that consists of two runs as the first of them, and from its end on as the second one, which
finds the tape, the input and the output that the first one left.

* `Program.LiesIn`: a program lies in a longer one;
* `Machine.within`: a machine in the middle of a longer program;
* `Machine.Inside`: unless the longer program has ended too, the machine is not at the end of its own;
* `translates_within`: inside the longer program a machine attempts what it attempts alone;
* `performAll_within`: so it does the same in all calls;
* `sources_run_in_sequence`: what this says about two sources one behind the other.
-/
import TapeMachine.Proofs.Machine.Range
import TapeMachine.Proofs.Machine.Translation
import TapeMachine.Proofs.Program.Append

namespace TapeMachine

/-! ### A program in the middle of another one -/

namespace Program

/-- The program `p`, of which all brackets have partners, lies in the program `r`, `k` commands further
on. -/
structure LiesIn (p r : Program) (k : Nat) : Prop where
  command : ∀ i c, p.at? i = some c → r.at? (i + k) = some c
  partner : ∀ i j, p.partner? i = some j → r.partner? (i + k) = some (j + k)
  resolved : ∀ i, p.at? i = some .loopStart ∨ p.at? i = some .loopEnd → ∃ j, p.partner? i = some j

variable {a b : Bytes} {p q : Program}

theorem length_append (p q : Program) (size : Nat) :
    (p.append q size).length = p.length + q.length :=
  Array.size_append

theorem liesIn_append_left (ha : load a = .ok p) (q : Program) (size : Nat) :
    p.LiesIn (p.append q size) 0 where
  command := by
    intro i c hc
    have hi : i < p.commands.size := lt_length_of_at? hc
    rw [at?, append, Nat.add_zero, Array.getElem?_append_left hi]
    exact hc
  partner := by
    intro i j hj
    have hi : i < p.partners.size := by
      by_contra hout
      rw [partner?, Array.getElem?_eq_none (by omega)] at hj
      cases hj
    rw [partner?, append, Nat.add_zero, Nat.add_zero, Array.getElem?_append_left hi]
    exact hj
  resolved := by
    intro i hc
    obtain ⟨j, -, hj⟩ := exists_partner_of_load ha hc
    exact ⟨j, hj⟩

theorem liesIn_append_right (ha : load a = .ok p) (hb : load b = .ok q) (size : Nat) :
    q.LiesIn (p.append q size) p.length where
  command := by
    intro i c hc
    have hbehind : p.commands.size ≤ i + p.length := Nat.le_add_left ..
    have hindex : i + p.length - p.commands.size = i := Nat.add_sub_cancel ..
    rw [at?, append, Array.getElem?_append_right hbehind, hindex]
    exact hc
  partner := by
    intro i j hj
    have hsize := size_partners_of_load ha
    rw [partner?, append, Array.getElem?_append_right (by omega), Array.getElem?_map,
      show i + p.length - p.partners.size = i by omega, Option.join_map_eq_map_join]
    rw [partner?] at hj
    rw [hj]
    rfl
  resolved := by
    intro i hc
    obtain ⟨j, -, hj⟩ := exists_partner_of_load hb hc
    exact ⟨j, hj⟩

end Program

namespace Machine

/-- The machine in the middle of the program `r`, `k` commands further on. -/
def within (r : Program) (k : Nat) (m : Machine) : Machine where
  program := r
  state := m.state.shift k
  input := m.input
  steps := m.steps
  fault := m.fault.map (Fault.shift k)

/-- The program has ended. -/
def Ended (m : Machine) : Prop :=
  m.fault = none ∧ m.program.length ≤ m.state.pc

/-- The machine executes the program `p`, and if that has ended, then so has the program `r` in which it
lies, `k` commands further on. -/
structure Inside (p r : Program) (k : Nat) (m : Machine) : Prop where
  program : m.program = p
  ended : m.Ended → r.length ≤ m.state.pc + k

variable {p r : Program} {k : Nat} {m m' : Machine}

theorem within_zero (r : Program) (m : Machine) : m.within r 0 = { m with program := r } := by
  rw [within, Fault.map_shift_zero]
  rfl

/-! ### One attempt -/

theorem not_ended {c : Command} (hc : m.program.at? m.state.pc = some c) : ¬ m.Ended := by
  rintro ⟨-, hpc⟩
  have hlt := Program.lt_length_of_at? hc
  omega

theorem nextPc_within (h : p.LiesIn r k) {c : Command} {pos : Nat} (hc : p.at? pos = some c)
    (cell : UInt8) : nextPc r c (pos + k) cell = nextPc p c pos cell + k := by
  cases c with
  | loopStart =>
    obtain ⟨j, hj⟩ := h.resolved pos (.inl hc)
    rw [nextPc, nextPc, hj, h.partner pos j hj, Option.getD_some, Option.getD_some]
    split <;> omega
  | loopEnd =>
    obtain ⟨j, hj⟩ := h.resolved pos (.inr hc)
    rw [nextPc, nextPc, hj, h.partner pos j hj, Option.getD_some, Option.getD_some]
    split <;> omega
  | moveRight | moveLeft | increment | decrement | write | read =>
    simp only [nextPc]
    omega

theorem perform_shift (c : Command) (s : State) (input : Bytes) :
    perform c (s.shift k) input = ((perform c s input).1.shift k, (perform c s input).2) := by
  cases c with
  | moveRight =>
    by_cases hend : s.pointer + 1 < s.tape.length
    · simp [perform, State.right, State.shift, hend]
    · simp [perform, State.right, State.shift, hend]
  | read => rcases input with _ | ⟨b, rest⟩ <;> rfl
  | moveLeft | increment | decrement | write | loopStart | loopEnd => rfl

theorem advance_within (h : p.LiesIn r k) (hp : m.program = p) {c : Command}
    (hc : m.program.at? m.state.pc = some c) :
    (m.within r k).advance c = (m.advance c).within r k := by
  have hpc : nextPc r c (m.state.pc + k) m.state.cell
      = nextPc m.program c m.state.pc m.state.cell + k := by
    rw [hp] at hc ⊢
    exact nextPc_within h hc m.state.cell
  rw [advance, within, advance, within]
  simp only [perform_shift]
  rw [show nextPc r c (m.state.shift k).pc (m.state.shift k).cell = _ from hpc]
  rfl

/-- **Inside a longer program a machine attempts what it attempts alone.** -/
theorem translates_within (h : p.LiesIn r k) : Translates k (within r k) (Inside p r k) where
  state _ := rfl
  fault _ := rfl
  attempt m hm := by
    have hcommand : ∀ {c}, m.program.at? m.state.pc = some c →
        r.at? (m.state.pc + k) = some c := by
      intro c hc
      rw [hm.program] at hc
      exact h.command _ _ hc
    rcases m.attempt_cases with ⟨f, hf, ha⟩ | ⟨hf, hc, ha⟩ | ⟨hf, hc, hp, ha⟩ | ⟨c, hf, hc, hu, ha⟩
    · rw [ha]
      exact attempt_of_fault (by rw [within, hf]; rfl)
    · have hend := hm.ended ⟨hf, Array.getElem?_eq_none_iff.mp hc⟩
      rw [ha]
      exact attempt_of_end (by rw [within, hf]; rfl) (Array.getElem?_eq_none hend)
    · rw [ha]
      exact attempt_of_underflow (by rw [within, hf]; rfl) (hcommand hc)
        (by simp [underflows, within, State.shift, hp])
    · rw [ha, ← advance_within h hm.program hc]
      exact attempt_of_command (by rw [within, hf]; rfl) (hcommand hc) hu

theorem haltReason_within (h : p.LiesIn r k) (hm : m.Inside p r k) :
    (m.within r k).haltReason = m.haltReason := by
  rcases hf : m.fault with _ | f
  · by_cases hend : m.program.length ≤ m.state.pc
    · rw [haltReason_of_end hf hend]
      exact haltReason_of_end (by rw [within, hf]; rfl) (hm.ended ⟨hf, hend⟩)
    · -- the command at the program counter is found in the longer program as well
      obtain ⟨c, hc⟩ : ∃ c, m.program.at? m.state.pc = some c :=
        ⟨_, Array.getElem?_eq_getElem (Nat.lt_of_not_le hend)⟩
      rw [hm.program] at hc
      have hlt := Program.lt_length_of_at? (h.command _ _ hc)
      have hwithin : ¬ (m.within r k).program.length ≤ (m.within r k).state.pc :=
        Nat.not_le.mpr hlt
      rw [haltReason, haltReason, if_neg hend, if_neg hwithin, within, hf]
      rfl
  · rw [haltReason_of_fault hf]
    exact haltReason_of_fault (by rw [within, hf]; rfl)

/-! ### Paths -/

/-- A machine at the end of its program is left as it is, so that an attempt does not lead inside. -/
theorem Inside.of_attempt (h : m.attempt.2.Inside p r k) : m.Inside p r k := by
  rcases m.attempt_cases with ⟨f, -, ha⟩ | ⟨-, -, ha⟩ | ⟨hf, hc, -, ha⟩ | ⟨c, -, hc, -, ha⟩
  · rwa [ha] at h
  · rwa [ha] at h
  · rw [ha] at h
    exact ⟨h.program, fun hend => absurd hend (not_ended hc)⟩
  · rw [ha] at h
    exact ⟨h.program, fun hend => absurd hend (not_ended hc)⟩

theorem Inside.of_path {es : List Event} (h : Path m es m') (hm' : m'.Inside p r k) :
    m.Inside p r k := by
  induction h with
  | refl => exact hm'
  | @stepped m₁ m₂ es s h hstep ih =>
    have hattempt : m₁.attempt.2 = m₂ := by rw [← step_snd, hstep]
    rw [← hattempt] at hm'
    exact ih hm'.of_attempt
  | @faulted m₁ m₂ es f h hstep ih =>
    have hattempt : m₁.attempt.2 = m₂ := by rw [← step_snd, hstep]
    rw [← hattempt] at hm'
    exact ih hm'.of_attempt
  | fed h bytes ih => exact ih ⟨hm'.program, hm'.ended⟩

end Machine

/-! ### Calls -/

theorem perform_within {p r : Program} {k : Nat} (h : p.LiesIn r k) {call : Call}
    (hcall : call.Unobserved) {m : Machine} (hm : ∀ a ∈ call.attempted m, a.Inside p r k) :
    (call.perform (m.within r k)).2 = (call.perform m).2.within r k ∧
      (call.perform (m.within r k)).1.events = (call.perform m).1.events.map (Event.shift k) ∧
      ((call.perform m).2.Inside p r k →
        (call.perform (m.within r k)).1 = (call.perform m).1.shift k) := by
  rcases hfeed : call.isFeed with _ | _
  · obtain ⟨hmachine, hevents, hreport⟩ := (Machine.translates_within h).perform hcall hfeed hm
    exact ⟨hmachine, hevents, fun hlast => hreport (Machine.haltReason_within h hlast)⟩
  · cases call with
    | feed bytes => exact ⟨rfl, rfl, fun _ => rfl⟩
    | step | steps | run | observe => cases hfeed

/-- **Inside a longer program calls do what they do alone**, further on. The reports are the same unless
the calls leave the machine at the end of its own program. -/
theorem performAll_within {p r : Program} {k : Nat} (h : p.LiesIn r k) {calls : List Call}
    (hcalls : ∀ call ∈ calls, call.Unobserved) : ∀ {m : Machine},
      (∀ a ∈ attemptedAll calls m, a.Inside p r k) →
      (performAll calls (m.within r k)).2 = (performAll calls m).2.within r k ∧
      eventsOf (performAll calls (m.within r k)).1
        = (eventsOf (performAll calls m).1).map (Event.shift k) ∧
      ((performAll calls m).2.Inside p r k →
        (performAll calls (m.within r k)).1 = (performAll calls m).1.map (Report.shift k)) := by
  induction calls with
  | nil =>
    intro m _
    exact ⟨rfl, rfl, fun _ => rfl⟩
  | cons call calls ih =>
    intro m hm
    rw [attemptedAll, List.forall_mem_append] at hm
    obtain ⟨hmachine, hevents, hreport⟩ := perform_within h (hcalls call List.mem_cons_self) hm.1
    obtain ⟨hmachine', hevents', hreports⟩ :=
      ih (fun c hc => hcalls c (List.mem_cons_of_mem call hc)) hm.2
    rw [performAll_cons, performAll_cons, hmachine]
    refine ⟨hmachine', ?_, ?_⟩
    · rw [eventsOf, eventsOf, List.flatMap_cons, List.flatMap_cons, hevents, List.map_append]
      exact congrArg (_ ++ ·) hevents'
    · intro hlast
      -- the machine is inside after the first call if it is after the last
      have hfirst := Machine.Inside.of_path (path_performAll calls (call.perform m).2) hlast
      rw [hreport hfirst, hreports hlast, List.map_cons]

theorem performAll_within_of_inside {p r : Program} {k : Nat} (h : p.LiesIn r k)
    {calls : List Call} (hcalls : ∀ call ∈ calls, call.Unobserved) {m : Machine}
    (hlast : (performAll calls m).2.Inside p r k) :
    performAll calls (m.within r k)
      = ((performAll calls m).1.map (Report.shift k), (performAll calls m).2.within r k) := by
  have hattempted : ∀ a ∈ attemptedAll calls m, a.Inside p r k := by
    intro a ha
    obtain ⟨-, behind, -, hbehind⟩ := (trail_performAll calls m).exists_path ha
    exact Machine.Inside.of_path hbehind hlast
  obtain ⟨hmachine, -, hreports⟩ := performAll_within h hcalls hattempted
  exact Prod.ext (hreports hlast) hmachine

/-! ### The first program -/

namespace Machine

section First

variable {a : Bytes} {p q : Program} {size : Nat} {calls : List Call} {m : Machine}

/-- **As long as the first program has not ended**, calls do the same with another one behind it. -/
theorem performAll_of_not_ended (ha : Program.load a = .ok p) (hp : m.program = p)
    (hcalls : ∀ call ∈ calls, call.Unobserved) (hgoing : ¬ (performAll calls m).2.Ended) :
    performAll calls { m with program := p.append q size }
      = ((performAll calls m).1, { (performAll calls m).2 with program := p.append q size }) := by
  have hlast : (performAll calls m).2.Inside p (p.append q size) 0 :=
    ⟨(path_performAll calls m).program_eq.trans hp, fun hend => absurd hend hgoing⟩
  have hsame := performAll_within_of_inside (Program.liesIn_append_left ha q size) hcalls hlast
  rwa [within_zero, within_zero, List.map_id'' Report.shift_zero] at hsame

/-- A machine that executes the program `p` is inside until it attempts a step at the end of it. -/
theorem inside_of_trail {m' : Machine} {as : List Machine} {es : List Event}
    (h : Trail m as es m') (hp : m.program = p) (hgoing : ∀ x ∈ as, ¬ x.Ended) (r : Program)
    (k : Nat) : ∀ x ∈ as, x.Inside p r k := by
  intro x hx
  obtain ⟨before, -, hbefore, -⟩ := h.exists_path hx
  exact ⟨hbefore.program_eq.trans hp, fun hend => absurd hend (hgoing x hx)⟩

/-- Up to the end of the first program calls take the same steps with another one behind it. -/
theorem performAll_up_to_end (ha : Program.load a = .ok p) (hp : m.program = p)
    (hcalls : ∀ call ∈ calls, call.Unobserved) (hgoing : ∀ x ∈ attemptedAll calls m, ¬ x.Ended) :
    eventsOf (performAll calls { m with program := p.append q size }).1
        = eventsOf (performAll calls m).1 ∧
      (performAll calls { m with program := p.append q size }).2
        = { (performAll calls m).2 with program := p.append q size } := by
  obtain ⟨hmachine, hevents, -⟩ := performAll_within (Program.liesIn_append_left ha q size) hcalls
    (inside_of_trail (trail_performAll calls m) hp hgoing (p.append q size) 0)
  rw [within_zero, within_zero] at hmachine
  rw [within_zero, List.map_id'' Event.shift_zero] at hevents
  exact ⟨hevents, hmachine⟩

/-- A run that executes as many steps as its budget allows attempts none at the end of the program. -/
theorem not_ended_of_attemptedFrom (k : Nat) : ∀ {executed : Nat} {m : Machine},
    (runFrom k .never executed m).1.steps = executed + k →
      ∀ x ∈ attemptedFrom .idle k .never executed m (), ¬ x.Ended := by
  induction k with
  | zero =>
    intro executed m _ x hx
    cases hx
  | succ k ih =>
    intro executed m hsteps
    rw [runFrom, Signal.poll] at hsteps
    rcases ha : m.attempt with ⟨_ | f | ⟨c, pos⟩, m'⟩ <;> rw [ha] at hsteps
    · dsimp only [summarize] at hsteps
      omega
    · dsimp only [summarize] at hsteps
      omega
    · obtain ⟨-, hc, -, -, -⟩ := of_step_eq_stepped (step_of_stepped ha)
      rw [attemptedFrom_idle_of_stepped rfl (step_of_stepped ha), List.forall_mem_cons]
      dsimp only at hsteps
      exact ⟨not_ended hc, ih (by omega)⟩

end First

/-! ### The second program -/

/-- The machine goes on with the program `q` from its start, with the tape, the pointer, the input and
the output that it has. -/
def handOver (q : Program) (m : Machine) : Machine :=
  { m with program := q, state := { m.state with pc := 0 }, fault := none }

/-- Whatever calls are made that nobody watches, the machine `n` does in the program `r` what the machine
`m` does in its own, `k` commands further on. -/
def Follows (r : Program) (k : Nat) (n m : Machine) : Prop :=
  ∀ calls : List Call, (∀ call ∈ calls, call.Unobserved) →
    performAll calls n
      = ((performAll calls m).1.map (Report.shift k), (performAll calls m).2.within r k)

section Second

variable {a b : Bytes} {p q : Program} {m : Machine}

theorem InRange.pc_of_ended {length : Nat} (hm : InRange p length m) (hend : m.Ended) :
    m.state.pc = p.length := by
  have hle := hend.2
  rw [hm.program] at hle
  exact Nat.le_antisymm hm.pc_le hle

/-- **At the end of the first program the second one takes over.** -/
theorem follows_handOver (ha : Program.load a = .ok p) (hb : Program.load b = .ok q) (size : Nat)
    (hend : m.Ended) (hpc : m.state.pc = p.length) :
    Follows (p.append q size) p.length { m with program := p.append q size } (m.handOver q) := by
  intro calls hcalls
  have hseam : (m.handOver q).within (p.append q size) p.length
      = { m with program := p.append q size } := by
    rw [within, handOver, State.shift]
    dsimp only
    rw [Nat.zero_add, ← hpc, hend.1]
    rfl
  have hlast : (performAll calls (m.handOver q)).2.Inside q (p.append q size) p.length := by
    have hprogram := (path_performAll calls (m.handOver q)).program_eq
    refine ⟨hprogram, ?_⟩
    rintro ⟨-, hlength⟩
    rw [hprogram] at hlength
    rw [Program.length_append]
    have hq : (m.handOver q).program.length = q.length := rfl
    omega
  rw [← hseam]
  exact performAll_within_of_inside (Program.liesIn_append_right ha hb size) hcalls hlast

theorem Follows.run {r : Program} {k : Nat} {n m : Machine} (h : Follows r k n m) (budget : Nat) :
    n.run budget = ((m.run budget).1.shift k, (m.run budget).2.within r k) := by
  have hcall := h [.run budget .never] (by simp [Call.Unobserved])
  have hsummary : some (n.run budget).1 = some ((m.run budget).1.shift k) :=
    congrArg (fun result => result.1.head?.bind Report.summary) hcall
  have hmachine : (n.run budget).2 = (m.run budget).2.within r k := congrArg Prod.snd hcall
  exact Prod.ext (Option.some.inj hsummary) hmachine

/-- **A run goes on over the end of the first program.** -/
theorem run_over_end (ha : Program.load a = .ok p) (hb : Program.load b = .ok q) (size : Nat)
    (hp : m.program = p) {k : Nat} (hsteps : (m.run k).1.steps = k) (hend : (m.run k).2.Ended)
    (hpc : (m.run k).2.state.pc = p.length) (l : Nat) :
    ({ m with program := p.append q size } : Machine).run (k + l)
      = ({ (((m.run k).2.handOver q).run l).1.shift p.length with
            steps := k + (((m.run k).2.handOver q).run l).1.steps },
        (((m.run k).2.handOver q).run l).2.within (p.append q size) p.length) := by
  have hgoing : ∀ x ∈ attemptedFrom .idle k .never 0 m (), ¬ x.Ended :=
    not_ended_of_attemptedFrom k (by rw [Nat.zero_add]; exact hsteps)
  -- the first part of the run takes the same steps as without the second program
  obtain ⟨n, hn, hn', hlast, -, -⟩ := (translates_within (Program.liesIn_append_left ha q size)).runFrom
    k .never 0 m (inside_of_trail (m.trail_run k .never) hp hgoing (p.append q size) 0)
  rw [within_zero] at hn' hlast
  rw [within_zero] at hlast
  have hmachine : (({ m with program := p.append q size } : Machine).run k).2
      = { (m.run k).2 with program := p.append q size } := hlast
  have hcount : (({ m with program := p.append q size } : Machine).run k).1.steps = k :=
    (hn'.trans hn.symm).trans hsteps
  rw [run_cut, hmachine, hcount, (follows_handOver ha hb size hend hpc).run l]
  rfl

end Second

end Machine

/-- **Two sources one behind the other run in sequence.** If both load, they load together: to the
commands of the first and behind them those of the second, with the offsets and the jump table of the
second further on. Let a machine be started on the first source, and one on both, with the same tape
length and input, and let both be moved by the same calls.

As long as the first machine has not ended, the second one reports the same and is in the same state. It
takes the same steps up to the end as well, if none of the calls asks for a step there.

From that end on it does what a machine does that takes the tape, the pointer, the input and the output
over, and executes the second source from its start, only further on in the program. And a run that comes
to the end of the first source after `k` steps goes on over it: with `l` more steps of the second one. -/
theorem sources_run_in_sequence {a b : Bytes} {p q : Program} (ha : Program.load a = .ok p)
    (hb : Program.load b = .ok q) :
    ∃ r, Program.load (a ++ b) = .ok r ∧
      r.commands = p.commands ++ q.commands ∧
      r.offsets = p.offsets ++ q.offsets.map (· + a.length) ∧
      r.jumpTable = p.jumpTable ++ q.jumpTable.map (Prod.map (· + p.length) (· + p.length)) ∧
      ∀ length input m, Machine.new? p length input = some m →
        Machine.new? r length input = some { m with program := r } ∧
        ∀ calls : List Call, (∀ call ∈ calls, call.Unobserved) →
          ∀ m₀, (performAll calls m).2 = m₀ →
          (¬ m₀.Ended → performAll calls { m with program := r }
            = ((performAll calls m).1, { m₀ with program := r })) ∧
          ((∀ x ∈ attemptedAll calls m, ¬ x.Ended) →
            eventsOf (performAll calls { m with program := r }).1
                = eventsOf (performAll calls m).1 ∧
              (performAll calls { m with program := r }).2 = { m₀ with program := r }) ∧
          (m₀.Ended →
            Machine.Follows r p.length { m₀ with program := r } (m₀.handOver q)) ∧
          ∀ k l : Nat, (m₀.run k).1.steps = k → (m₀.run k).2.Ended →
            ({ m₀ with program := r } : Machine).run (k + l)
              = ({ (((m₀.run k).2.handOver q).run l).1.shift p.length with
                    steps := k + (((m₀.run k).2.handOver q).run l).1.steps },
                (((m₀.run k).2.handOver q).run l).2.within r p.length) := by
  have hjumps := Program.jumpTable_append (q := q) (Program.size_partners_of_load ha) a.length
  refine ⟨p.append q a.length, Program.load_append ha hb, rfl, rfl, hjumps, ?_⟩
  intro length input m hstart
  have hrange := Machine.inRange_of_new? hstart
  have hboth : Machine.new? (p.append q a.length) length input
      = some { m with program := p.append q a.length } := by
    rw [Machine.new?_of_pos (Machine.pos_of_new? hstart), Machine.eq_start_of_new? hstart]
    rfl
  refine ⟨hboth, ?_⟩
  rintro calls hcalls m₀ rfl
  have hpath := path_performAll calls m
  have hprogram := hpath.program_eq.trans hrange.program
  -- in the range of its program, the first machine ends right behind it
  have hrange₀ := hpath.preserves (Machine.InRange.attempt ha) Machine.InRange.feed hrange
  refine ⟨Machine.performAll_of_not_ended ha hrange.program hcalls,
    Machine.performAll_up_to_end ha hrange.program hcalls, ?_, ?_⟩
  · intro hend
    exact Machine.follows_handOver ha hb a.length hend (hrange₀.pc_of_ended hend)
  · intro k l hsteps hend
    have hrange₁ := (Machine.path_run _ k .never).preserves (Machine.InRange.attempt ha)
      Machine.InRange.feed hrange₀
    exact Machine.run_over_end ha hb a.length hprogram hsteps hend (hrange₁.pc_of_ended hend) l

/-- A program that reads a byte, moves it one cell to the right and has a comment in it. Behind it
another one that writes that cell and then moves the pointer below cell 0. -/
theorem sources_run_in_sequence_into_fault :
    ∃ p q r m, Program.load [44, 35, 91, 62, 43, 60, 45, 93] = .ok p ∧
      Program.load [62, 46, 60, 60] = .ok q ∧
      Program.load ([44, 35, 91, 62, 43, 60, 45, 93] ++ [62, 46, 60, 60]) = .ok r ∧
      r.offsets = #[0, 2, 3, 4, 5, 6, 7, 8, 9, 10, 11] ∧ r.jumpTable = [(1, 6), (6, 1)] ∧
      Machine.new? p 1 [2] = some m ∧
      performAll [.step, .steps 3] { m with program := r }
        = ((performAll [.step, .steps 3] m).1,
          { (performAll [.step, .steps 3] m).2 with program := r }) ∧
      (({ m with program := r } : Machine).run (12 + 5)).1
        = ⟨15, [2], .faulted, some (.fault ⟨10⟩)⟩ := by
  have ha : Program.load [44, 35, 91, 62, 43, 60, 45, 93] = .ok
      ⟨#[.read, .loopStart, .moveRight, .increment, .moveLeft, .decrement, .loopEnd],
        #[0, 2, 3, 4, 5, 6, 7], #[none, some 6, none, none, none, none, some 1]⟩ := rfl
  have hb : Program.load [62, 46, 60, 60] = .ok
      ⟨#[.moveRight, .write, .moveLeft, .moveLeft], #[0, 1, 2, 3], #[none, none, none, none]⟩ := rfl
  obtain ⟨r, hr, -, hoffsets, hjumps, hmachines⟩ := sources_run_in_sequence ha hb
  obtain ⟨-, hcalls⟩ := hmachines 1 [2] _ rfl
  obtain ⟨hgoing, -, -, -⟩ := hcalls [.step, .steps 3] (by simp [Call.Unobserved]) _ rfl
  have hsame := hgoing (by rintro ⟨-, hpc⟩; exact absurd hpc (by decide))
  obtain ⟨-, -, -, hover⟩ := hcalls [] (by simp) _ rfl
  have hrun := hover 12 5 rfl ⟨rfl, by decide⟩
  exact ⟨_, _, r, _, ha, hb, hr, by simpa using hoffsets, hjumps, rfl, hsame, congrArg Prod.fst hrun⟩

end TapeMachine
