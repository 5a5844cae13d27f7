/-
The input queue.

Input is taken from the front of a queue, one byte for each read, and fed to its end. No byte is lost,
doubled or overtaken on the way, whatever calls are made and wherever in a run something is fed.

* `Machine.taken?`: the byte that an attempt takes from the queue and stores;
* `Machine.Queueing`: all that an attempt does to the queue;
* `Machine.taken?_append_input`: one attempt takes no byte but the first of the queue;
* `Trail.taken_append_input`: what is taken on a trail and what is left is what there was and what was
  fed;
* `queue_is_lossless`: so it is for all calls from the start of a program.
-/
import TapeMachine.Proofs.Machine.Trail

namespace TapeMachine

namespace Machine

variable {m : Machine}

/-- The byte that an attempt takes from the queue, read back from the cell where it is stored: there is
one if a read is executed on a queue that is not empty. -/
def taken? (m : Machine) : Option UInt8 :=
  match m.input, m.attempt with
  | _ :: _, (.stepped .read _, m') => some m'.state.cell
  | _, _ => none

/-- All that an attempt to take a step does to the queue. A read takes the first byte and stores it, or
stores zero if there is none; nothing else touches the queue. -/
structure Queueing (m : Machine) : Prop where
  taken : ∀ pos m' b rest, m.attempt = (.stepped .read pos, m') → m.input = b :: rest →
    m'.state.cell = b ∧ m'.input = rest
  starved : ∀ pos m', m.attempt = (.stepped .read pos, m') → m.input = [] →
    m'.state.cell = 0 ∧ m'.input = []
  other : ∀ c pos m', m.attempt = (.stepped c pos, m') → c ≠ .read → m'.input = m.input
  faulted : ∀ f m', m.attempt = (.faulted f, m') → m'.input = m.input
  ended : ∀ m', m.attempt = (.ended, m') → m'.input = m.input

/-! ### One attempt -/

/-- A value that was stored under the pointer is found there. -/
theorem cell_of_store (h : m.OnTape) (b : UInt8) : (m.state.store b).cell = b := by
  have hcell := Tape.cell_set h b m.state.pointer
  rwa [if_pos rfl] at hcell

theorem advance_read_of_cons (h : m.OnTape) {b : UInt8} {rest : Bytes} (hi : m.input = b :: rest) :
    (m.advance .read).state.cell = b ∧ (m.advance .read).input = rest := by
  simp only [advance, perform, hi, and_true]
  exact cell_of_store h b

theorem advance_read_of_nil (h : m.OnTape) (hi : m.input = []) :
    (m.advance .read).state.cell = 0 ∧ (m.advance .read).input = [] := by
  simp only [advance, perform, hi, and_true]
  exact cell_of_store h 0

theorem input_advance {c : Command} (hc : c ≠ .read) : (m.advance c).input = m.input := by
  cases c with
  | read => exact absurd rfl hc
  | moveRight | moveLeft | increment | decrement | write | loopStart | loopEnd => rfl

/-- **What an attempt does to the queue**, if the pointer is on the tape. -/
theorem OnTape.queueing (h : m.OnTape) : m.Queueing where
  taken := by
    intro pos m' b rest ha hi
    rw [eq_advance_of_attempt ha]
    exact advance_read_of_cons h hi
  starved := by
    intro pos m' ha hi
    rw [eq_advance_of_attempt ha]
    exact advance_read_of_nil h hi
  other := by
    intro c pos m' ha hc
    rw [eq_advance_of_attempt ha]
    exact input_advance hc
  faulted := by
    intro f m' ha
    rw [of_step_eq_faulted (step_of_faulted ha)]
  ended := by
    intro m' ha
    rw [attempt_eq_ended ha]

theorem taken?_of_ne {c : Command} {pos : Nat} {m' : Machine}
    (h : m.attempt = (.stepped c pos, m')) (hc : c ≠ .read) : m.taken? = none := by
  rw [taken?, h]
  cases c with
  | read => exact absurd rfl hc
  | moveRight | moveLeft | increment | decrement | write | loopStart | loopEnd =>
    rcases m.input with _ | ⟨b, rest⟩ <;> rfl

/-- **No byte but the first of the queue is taken**, and it is the one that is stored. -/
theorem taken?_append_input (h : m.OnTape) : m.taken?.toList ++ m.attempt.2.input = m.input := by
  have hq := h.queueing
  rcases ha : m.attempt with ⟨_ | f | ⟨c, pos⟩, m'⟩
  · dsimp only
    rw [hq.ended m' ha, taken?, ha]
    rcases m.input with _ | ⟨b, rest⟩ <;> rfl
  · dsimp only
    rw [hq.faulted f m' ha, taken?, ha]
    rcases m.input with _ | ⟨b, rest⟩ <;> rfl
  · dsimp only
    by_cases hc : c = .read
    · subst hc
      rcases hi : m.input with _ | ⟨b, rest⟩
      · rw [taken?, ha, hi, (hq.starved pos m' ha hi).2]
        rfl
      · obtain ⟨hcell, hinput⟩ := hq.taken pos m' b rest ha hi
        rw [taken?, ha, hi, hinput]
        exact congrArg (· :: rest) hcell
    · rw [taken?_of_ne ha hc, hq.other c pos m' ha hc]
      rfl

end Machine

/-! ### Trails -/

/-- **What is taken on a trail, followed by what is left, is what there was, followed by what was
fed.** -/
theorem Trail.taken_append_input {m m' : Machine} {as : List Machine} {es : List Event}
    (h : Trail m as es m') (hm : m.OnTape) :
    as.filterMap Machine.taken? ++ m'.input = m.input ++ fedIn es := by
  induction h with
  | refl => simp
  | @attempted a as es h ih =>
    have hon : a.OnTape := h.path.preserves (P := Machine.OnTape) (fun _ => Machine.OnTape.attempt)
      (fun _ _ ha => ha) hm
    have hfed : fedIn a.recorded = [] := fedIn_map_stepped _
    have hlast : [a].filterMap Machine.taken? = a.taken?.toList := by
      rcases hb : a.taken? with _ | b <;> simp [hb]
    rw [List.filterMap_append, hlast, List.append_assoc, Machine.taken?_append_input hon, ih,
      fedIn_append, hfed, List.append_nil]
  | @fed a as es _ bytes ih =>
    rw [fedIn_append, fedIn_fed, ← List.append_assoc, ← ih, List.append_assoc]
    rfl

/-- **The input queue is lossless and keeps its order.** Whatever calls are made from the start of a
program, and whatever observers feed in the middle of their runs: the bytes that reads have taken from
the queue and stored, in the order of the steps, followed by the bytes still pending, are the initial
input followed by all fed bytes. So it is after the calls, and at every attempt to take a step in the
middle of them. The reads are found among these attempts, and those of them that executed a command are
the steps that the calls report. Each attempt takes the first byte of the queue if it executes a read, or
stores zero if there is none and leaves the queue empty; an attempt that executes another command,
faults, or finds the program ended leaves the queue as it is. -/
theorem queue_is_lossless {p : Program} {length : Int} {input : Bytes} {m : Machine}
    (hstart : Machine.new? p length input = some m) (calls : List Call) :
    (attemptedAll calls m).filterMap Machine.taken? ++ (performAll calls m).2.input
        = input ++ fedIn (eventsOf (performAll calls m).1) ∧
      (∀ before a behind, attemptedAll calls m = before ++ a :: behind →
        ∃ es fs, eventsOf (performAll calls m).1 = es ++ fs ∧
          records es = before.filterMap Machine.record? ∧
          before.filterMap Machine.taken? ++ a.input = input ++ fedIn es) ∧
      records (eventsOf (performAll calls m).1)
        = (attemptedAll calls m).filterMap Machine.record? ∧
      ∀ a ∈ attemptedAll calls m, a.Queueing := by
  have htrail := trail_performAll calls m
  have hinput : m.input = input := by rw [Machine.eq_start_of_new? hstart, Machine.start]
  have hon : m.OnTape := Machine.onTape_of_new? hstart
  refine ⟨?_, ?_, htrail.records_eq, ?_⟩
  · rw [htrail.taken_append_input hon, hinput]
  · intro before a behind hsplit
    obtain ⟨es, fs, hevents, hbefore, -⟩ := htrail.cut hsplit
    refine ⟨es, fs, hevents, hbefore.records_eq, ?_⟩
    rw [hbefore.taken_append_input hon, hinput]
  · intro a ha
    exact (htrail.forall_attempted (P := Machine.OnTape) (fun _ => Machine.OnTape.attempt)
      (fun _ _ hb => hb) hon a ha).queueing

/-- A program that reads in a loop and writes what it read. It is started with one byte, is fed another
one in the middle of the run by an observer, and a third one afterwards; the last read finds the queue
empty. -/
theorem queue_is_lossless_under_feeding_observer :
    ∃ p m calls, Program.load [43, 91, 44, 46, 93] = .ok p ∧ Machine.new? p 1 [7] = some m ∧
      calls = [Call.observe (ε := Empty) 5 .never
        (fun n _ s => { state := s, feed := if n = 3 then [8] else [] }) (), .step, .feed [9],
        .run 100 .never] ∧
      (attemptedAll calls m).filterMap Machine.taken? ++ (performAll calls m).2.input = [7, 8, 9] ∧
      (performAll calls m).2.output = [7, 8, 9, 0] ∧ ∀ a ∈ attemptedAll calls m, a.Queueing := by
  have hload : Program.load [43, 91, 44, 46, 93] = .ok
      ⟨#[.increment, .loopStart, .read, .write, .loopEnd], #[0, 1, 2, 3, 4],
        #[none, some 4, none, none, some 1]⟩ := rfl
  obtain ⟨hqueue, -, -, hattempts⟩ := queue_is_lossless
    (show Machine.new? ⟨#[.increment, .loopStart, .read, .write, .loopEnd], #[0, 1, 2, 3, 4],
      #[none, some 4, none, none, some 1]⟩ 1 [7] = some _ from rfl)
    [Call.observe (ε := Empty) 5 .never
      (fun n _ s => { state := s, feed := if n = 3 then [8] else [] }) (), .step, .feed [9],
      .run 100 .never]
  exact ⟨_, _, _, hload, rfl, rfl, hqueue, rfl, hattempts⟩

end TapeMachine
