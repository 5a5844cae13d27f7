/-
Autoplay has one chain of ticks.

While the viewer plays, every tick that it answers asks for the next one. Keys pause and go on while ticks
are still on their way, and these may arrive late and in any order. Still no two chains ever go on beside
each other, because a tick knows its stretch of play.

* `Viewing`: a viewer with the ticks on their way to it;
* `Viewing.Step`: a key is pressed, the window is resized, or one of the ticks arrives;
* `Model.update_cases`, `Model.updateTick_cases`: all that an answer does to the play;
* `Viewing.OneChain`: the invariant, kept by every step;
* `one_chain_of_ticks`: it holds of every viewer that can be reached.
-/
import Mathlib.Data.Multiset.AddSub
import Mathlib.Logic.Relation
import TapeMachine.Proofs.Machine.Step
import TapeMachine.Viewer.Model

namespace TapeMachine.Viewer

/-- A viewer and the stretches of play of the ticks that are on their way to it. -/
structure Viewing where
  model : Model
  ticks : Multiset Nat

/-- The ticks that an effect puts on their way. -/
def Effect.ticks : Option Effect → Multiset Nat
  | some (.tick generation) => {generation}
  | some .quit | some .crash | none => 0

namespace Viewing

/-- A viewer that shows a machine, with no tick on its way. -/
def start (machine : Machine) (cells : Int) (delay : Int64) : Viewing where
  model := .new machine cells delay
  ticks := 0

/-- The viewer answers a message, which may put a tick on its way. -/
def receive (v : Viewing) (message : Message) : Viewing where
  model := (v.model.update message).1
  ticks := v.ticks + Effect.ticks (v.model.update message).2

/-- What happens next to a viewer. Of the ticks on their way any one may be the next to arrive. -/
inductive Step : Viewing → Viewing → Prop
  | press (v : Viewing) (k : KeyPress) : Step v (v.receive (.key k))
  | resize (v : Viewing) (width : Int) : Step v (v.receive (.width width))
  | arrive (v : Viewing) (g : Nat) (h : g ∈ v.ticks) :
      Step v (receive { v with ticks := v.ticks.erase g } (.tick g))

end Viewing

/-! ### Answers -/

namespace Model

variable {m m' : Model} {effect : Option Effect}

/-- An answer asks for no tick and does not begin to play. -/
structure Idle (m : Model) (answer : Model × Option Effect) : Prop where
  ticks : Effect.ticks answer.2 = 0
  generation : answer.1.generation = m.generation
  playing : answer.1.playing = true → m.playing = true

/-- An answer begins a stretch of play, with a tick of its own. -/
structure Begins (m : Model) (answer : Model × Option Effect) : Prop where
  ticks : Effect.ticks answer.2 = {answer.1.generation}
  generation : answer.1.generation = m.generation + 1

theorem generation_step (m : Model) : m.step.generation = m.generation := by
  rw [step]
  split <;> rfl

theorem playing_step (h : m.step.playing = true) : m.playing = true := by
  rw [step] at h
  split at h
  · exact h
  · cases h

theorem machine_step (m : Model) : m.step.machine = m.machine.step.2 := by
  rw [step]
  split <;> simp [*]

theorem togglePlay_cases (m : Model) : Idle m m.togglePlay ∨ Begins m m.togglePlay := by
  rw [togglePlay]
  split
  · exact .inl ⟨rfl, rfl, fun h => nomatch h⟩
  · exact .inr ⟨rfl, rfl⟩

theorem act_cases (m : Model) (a : Action) : Idle m (m.act a) ∨ Begins m (m.act a) := by
  cases a with
  | play => exact m.togglePlay_cases
  | step =>
    -- a single step pauses, whatever becomes of the tick on its way
    exact .inl ⟨rfl, generation_step _, fun h => nomatch playing_step h⟩
  | quit | faster | slower | input | help => exact .inl ⟨rfl, rfl, id⟩

theorem idle_submit (m : Model) : Idle m (m.submit, none) := by
  rw [submit]
  split <;> exact ⟨rfl, rfl, id⟩

theorem idle_updateInput (m : Model) (k : KeyPress) : Idle m (m.updateInput k) := by
  rw [updateInput]
  split
  · exact m.idle_submit
  · exact ⟨rfl, rfl, id⟩
  · exact ⟨rfl, rfl, id⟩
  · split <;> exact ⟨rfl, rfl, id⟩

/-- **All that a key does to the play.** -/
theorem update_key_cases (m : Model) (k : KeyPress) :
    Idle m (m.update (.key k)) ∨ Begins m (m.update (.key k)) := by
  rw [update]
  split
  · exact .inl (m.idle_updateInput k)
  · split
    · exact m.act_cases _
    · exact .inl ⟨rfl, rfl, id⟩

/-- A tick of another stretch of play, or one that arrives while nothing plays, does nothing. -/
theorem updateTick_of_stale {g : Nat} (h : g ≠ m.generation ∨ m.playing = false) :
    m.updateTick g = (m, none) := by
  rw [updateTick, if_pos (by simpa using h)]

/-- **All that the tick of the present stretch of play does to the play.** It asks for the next tick, or
the play is over. -/
theorem updateTick_cases (h : m.playing = true) :
    (m.updateTick m.generation).1.generation = m.generation ∧
      (m.updateTick m.generation).1.machine = m.machine.step.2 ∧
      (Effect.ticks (m.updateTick m.generation).2 = {m.generation} ∨
        Effect.ticks (m.updateTick m.generation).2 = 0 ∧
          (m.updateTick m.generation).1.playing = false) := by
  rw [updateTick, if_neg (by simp [h])]
  dsimp only
  split
  · exact ⟨m.generation_step, m.machine_step, .inr ⟨rfl, rfl⟩⟩
  · have hticks : Effect.ticks (some (.tick m.step.generation)) = {m.generation} := by
      rw [m.generation_step]
      rfl
    exact ⟨m.generation_step, m.machine_step, .inl hticks⟩

end Model

/-! ### The invariant -/

/-- No tick on its way is of a later stretch of play, at most one is of the present stretch, and exactly
one is if the viewer plays. -/
structure Viewing.OneChain (v : Viewing) : Prop where
  generation_le : ∀ g ∈ v.ticks, g ≤ v.model.generation
  count_le : v.ticks.count v.model.generation ≤ 1
  count_of_playing : v.model.playing = true → v.ticks.count v.model.generation = 1

namespace Viewing

variable {v w : Viewing}

theorem oneChain_start (machine : Machine) (cells : Int) (delay : Int64) :
    (start machine cells delay).OneChain where
  generation_le := by
    intro g hg
    exact absurd hg (Multiset.notMem_zero g)
  count_le := Nat.zero_le 1
  count_of_playing := by
    intro h
    cases h

theorem OneChain.receive_of_idle (h : v.OneChain) {message : Message}
    (hidle : Model.Idle v.model (v.model.update message)) : (v.receive message).OneChain := by
  obtain ⟨hticks, hgeneration, hplaying⟩ := hidle
  refine ⟨?_, ?_, ?_⟩
  · intro g hg
    rw [receive, hticks, Multiset.add_zero] at hg
    rw [receive, hgeneration]
    exact h.generation_le g hg
  · rw [receive, hticks, Multiset.add_zero, hgeneration]
    exact h.count_le
  · intro hp
    rw [receive, hticks, Multiset.add_zero, hgeneration]
    exact h.count_of_playing (hplaying hp)

theorem OneChain.receive_of_begins (h : v.OneChain) {message : Message}
    (hbegins : Model.Begins v.model (v.model.update message)) : (v.receive message).OneChain := by
  obtain ⟨hticks, hgeneration⟩ := hbegins
  -- all ticks on their way are left over from earlier stretches
  have hleft : v.ticks.count (v.model.update message).1.generation = 0 := by
    rw [Multiset.count_eq_zero, hgeneration]
    intro hg
    have hle := h.generation_le _ hg
    omega
  have hcount : (v.receive message).ticks.count (v.receive message).model.generation = 1 := by
    rw [receive, Multiset.count_add, hticks, hleft, Multiset.count_singleton_self]
  refine ⟨?_, by omega, fun _ => hcount⟩
  intro g hg
  rw [receive, Multiset.mem_add, hticks, Multiset.mem_singleton] at hg
  rcases hg with hold | hnew
  · have hle := h.generation_le g hold
    show g ≤ (v.model.update message).1.generation
    omega
  · exact Nat.le_of_eq hnew

/-- A tick arrives that does nothing. -/
theorem OneChain.arrive_of_stale (h : v.OneChain) {g : Nat}
    (hstale : g ≠ v.model.generation ∨ v.model.playing = false) :
    (receive { v with ticks := v.ticks.erase g } (.tick g)).OneChain := by
  have hanswer : v.model.update (.tick g) = (v.model, none) := Model.updateTick_of_stale hstale
  rw [receive, hanswer, Effect.ticks, Multiset.add_zero]
  refine ⟨?_, ?_, ?_⟩
  · intro k hk
    exact h.generation_le k (Multiset.mem_of_mem_erase hk)
  · have hle := Multiset.count_le_of_le v.model.generation (Multiset.erase_le g v.ticks)
    exact Nat.le_trans hle h.count_le
  · intro hplaying
    have hne : v.model.generation ≠ g := by
      rcases hstale with hne | hpaused
      · exact hne.symm
      · rw [hpaused] at hplaying
        cases hplaying
    rw [Multiset.count_erase_of_ne hne]
    exact h.count_of_playing hplaying

/-- The tick of the present stretch of play arrives. -/
theorem OneChain.arrive_of_playing (h : v.OneChain) (hplaying : v.model.playing = true) :
    (receive { v with ticks := v.ticks.erase v.model.generation }
      (.tick v.model.generation)).OneChain := by
  obtain ⟨hgeneration, -, hticks⟩ := Model.updateTick_cases hplaying
  -- it was the only one of its stretch
  have hleft : (v.ticks.erase v.model.generation).count v.model.generation = 0 := by
    rw [Multiset.count_erase_self, h.count_of_playing hplaying]
  rw [receive, Model.update]
  rcases hticks with hnext | ⟨hnone, hover⟩
  · refine ⟨?_, ?_, ?_⟩
    · intro g hg
      rw [hnext, Multiset.mem_add, Multiset.mem_singleton] at hg
      rw [hgeneration]
      rcases hg with hold | rfl
      · exact h.generation_le g (Multiset.mem_of_mem_erase hold)
      · exact Nat.le_refl _
    · rw [hgeneration, hnext, Multiset.count_add, hleft, Multiset.count_singleton_self]
    · intro _
      rw [hgeneration, hnext, Multiset.count_add, hleft, Multiset.count_singleton_self]
  · refine ⟨?_, ?_, ?_⟩
    · intro g hg
      rw [hnone, Multiset.add_zero] at hg
      rw [hgeneration]
      exact h.generation_le g (Multiset.mem_of_mem_erase hg)
    · rw [hgeneration, hnone, Multiset.add_zero, hleft]
      exact Nat.zero_le 1
    · intro hplays
      rw [hover] at hplays
      cases hplays

/-- **Every step keeps the invariant.** -/
theorem OneChain.step (h : v.OneChain) (hstep : Step v w) : w.OneChain := by
  cases hstep with
  | press k =>
    rcases v.model.update_key_cases k with hidle | hbegins
    · exact h.receive_of_idle hidle
    · exact h.receive_of_begins hbegins
  | resize width => exact h.receive_of_idle ⟨rfl, rfl, id⟩
  | arrive g hg =>
    by_cases hlive : g = v.model.generation ∧ v.model.playing = true
    · obtain ⟨rfl, hplaying⟩ := hlive
      exact h.arrive_of_playing hplaying
    · refine h.arrive_of_stale ?_
      rw [not_and_or, Bool.not_eq_true] at hlive
      exact hlive

theorem OneChain.steps (h : v.OneChain) (hsteps : Relation.ReflTransGen Step v w) :
    w.OneChain := by
  induction hsteps with
  | refl => exact h
  | tail _ hstep ih => exact ih.step hstep

end Viewing

/-- **There is one chain of ticks at most.** In whatever order keys are pressed, the window is resized
and the ticks on their way arrive: no tick on its way is of a later stretch of play than the present one,
at most one is of the present stretch, and exactly one is while the viewer plays. A tick of another
stretch, or one that arrives while the viewer is paused, changes nothing and asks for nothing; and no tick
moves the machine by more than a single step. -/
theorem one_chain_of_ticks {machine : Machine} {cells : Int} {delay : Int64} {v : Viewing}
    (h : Relation.ReflTransGen Viewing.Step (.start machine cells delay) v) :
    (∀ g ∈ v.ticks, g ≤ v.model.generation) ∧
      v.ticks.count v.model.generation ≤ 1 ∧
      (v.model.playing = true → v.ticks.count v.model.generation = 1) ∧
      ∀ g, (g ≠ v.model.generation ∨ v.model.playing = false →
          v.model.update (.tick g) = (v.model, none)) ∧
        ((v.model.update (.tick g)).1.machine = v.model.machine ∨
          (v.model.update (.tick g)).1.machine = v.model.machine.step.2) ∧
        (v.model.update (.tick g)).1.machine.steps ≤ v.model.machine.steps + 1 := by
  have hchain := (Viewing.oneChain_start machine cells delay).steps h
  refine ⟨hchain.generation_le, hchain.count_le, hchain.count_of_playing, ?_⟩
  intro g
  refine ⟨Model.updateTick_of_stale, ?_⟩
  by_cases hlive : g = v.model.generation ∧ v.model.playing = true
  · obtain ⟨rfl, hplaying⟩ := hlive
    obtain ⟨-, hmachine, -⟩ := Model.updateTick_cases hplaying
    refine ⟨.inr hmachine, ?_⟩
    rw [Model.update, hmachine, Machine.step_snd]
    exact Machine.steps_attempt_le _
  · rw [not_and_or, Bool.not_eq_true] at hlive
    rw [Model.update, Model.updateTick_of_stale hlive]
    exact ⟨.inl rfl, Nat.le_succ _⟩

/-- A viewer that plays, pauses and plays again before the first tick has arrived, so that two are on
their way. -/
theorem one_chain_of_ticks_after_pause :
    ∃ p m v, Program.load [43, 43] = .ok p ∧ Machine.new? p 1 [] = some m ∧
      Relation.ReflTransGen Viewing.Step (.start m 8 0) v ∧ v.model.generation = 2 ∧
      v.ticks.count 1 = 1 ∧ v.ticks.count v.model.generation = 1 ∧
      v.model.update (.tick 1) = (v.model, none) := by
  have hload : Program.load [43, 43] = .ok ⟨#[.increment, .increment], #[0, 1], #[none, none]⟩ := rfl
  have hsteps := ((Relation.ReflTransGen.single (Viewing.Step.press
    (.start (.start ⟨#[.increment, .increment], #[0, 1], #[none, none]⟩ 1 []) 8 0)
    ⟨.characters ['p'] false, false⟩)).tail (.press _ ⟨.space, false⟩)).tail
    (.press _ ⟨.space, false⟩)
  obtain ⟨-, -, hplaying, hticks⟩ := one_chain_of_ticks hsteps
  exact ⟨_, _, _, hload, rfl, hsteps, rfl, rfl, hplaying rfl, (hticks 1).1 (.inl (by decide))⟩

end TapeMachine.Viewer
