/-
The viewer follows its machine.

Keys and ticks move the machine, the prompt feeds it, and several answers write down what became of it. In
whatever order the messages come, the viewer has the machine that the calls of the messages make, shows the
latest executed step of it, and does not play when it is done.

* `KeyPress.action?_eq_some_iff`: the name of a key belongs to one binding only;
* `Model.TakesStep`, `Model.fed?`, `Model.calls`: what a message calls on the machine;
* `Model.answered_update`: all that an answer does to the machine and to what the viewer holds of it;
* `Model.Follows`: the invariant, kept by every answer;
* `Model.InPrompt`: what keys do while the prompt is open;
* `viewer_follows_machine`: it holds after every sequence of messages.
-/
import TapeMachine.Proofs.Machine.Chain
import TapeMachine.Proofs.Machine.Trail
import TapeMachine.Proofs.Viewer.Autoplay

namespace TapeMachine

/-! ### Counted and recorded steps -/

/-- **The steps on a path are counted.** -/
theorem steps_of_path {m m' : Machine} {es : List Event} (h : Path m es m') :
    m'.steps = m.steps + (records es).length := by
  induction h with
  | refl => rfl
  | @stepped m₁ m₂ es r _ hstep ih =>
    obtain ⟨-, -, -, hm₂, -⟩ := Machine.of_step_eq_stepped hstep
    rw [hm₂, Machine.steps_advance, ih, records_append, records_stepped, List.length_append,
      List.length_singleton, Nat.add_assoc]
  | faulted _ hstep ih =>
    rw [Machine.of_step_eq_faulted hstep]
    exact ih
  | fed _ bytes ih =>
    rw [records_append, records_fed, List.append_nil]
    exact ih

theorem records_perform_step (m : Machine) :
    records (Call.perform m .step).1.events = m.record?.toList := by
  rw [Call.perform, Machine.record?]
  rcases m.step with ⟨_ | f | r, m'⟩ <;> rfl

theorem perform_step_snd (m : Machine) : (Call.perform m .step).2 = m.step.2 := by
  rw [Call.perform]
  rcases m.step with ⟨_ | f | r, m'⟩ <;> rfl

namespace Viewer

/-! ### Keys -/

/-- **The name of a key belongs to one binding only**, so that a key does what the binding of its name
says. -/
theorem KeyPress.action?_eq_some_iff {k : KeyPress} {b : Binding} (hb : b ∈ Binding.all) :
    k.action? = some b.action ↔ k.name ∈ b.names := by
  -- the bindings are a small table: no two of them share an action or a name
  have hactions : ∀ b ∈ Binding.all, ∀ c ∈ Binding.all, b.action = c.action → b = c := by decide
  have hnames : ∀ b ∈ Binding.all, ∀ n ∈ b.names, ∀ c ∈ Binding.all, n ∈ c.names → b = c := by
    decide
  rw [action?, Option.map_eq_some_iff]
  constructor
  · rintro ⟨c, hfound, hc⟩
    have hname := List.find?_some hfound
    rw [hactions b hb c (List.mem_of_find?_eq_some hfound) hc.symm]
    exact List.contains_iff_mem.mp hname
  · intro hname
    rcases hfound : Binding.all.find? fun c => c.names.contains k.name with _ | c
    · have hnone := List.find?_eq_none.mp hfound b hb
      exact absurd (List.contains_iff_mem.mpr hname) hnone
    · have hfirst := List.find?_some hfound
      rw [hnames b hb k.name hname c (List.mem_of_find?_eq_some hfound)
        (List.contains_iff_mem.mp hfirst)]
      exact ⟨c, hfound, rfl⟩

namespace Model

/-! ### Calls on the machine -/

/-- The messages that take a step: the step key while the prompt is closed, and the tick of the present
stretch of play while the viewer plays. -/
def TakesStep (m : Model) : Message → Prop
  | .key k => m.inputting = false ∧ k.name ∈ Binding.step.names
  | .tick generation => generation = m.generation ∧ m.playing = true
  | .width _ => False

instance (m : Model) (message : Message) : Decidable (m.TakesStep message) := by
  cases message <;> unfold TakesStep <;> infer_instance

/-- The bytes that the typed text stands for, unless it has a wrong escape. -/
def typed? (m : Model) : Option Bytes :=
  (Escapes.decode (utf8 (String.ofList m.prompt.value))).toOption

/-- The bytes that a message feeds: those of the typed text, if it is the enter key while the prompt is
open. -/
def fed? (m : Model) : Message → Option Bytes
  | .key k => if m.inputting = true ∧ k.key = .enter then m.typed? else none
  | .tick _ | .width _ => none

/-- The calls of a message on the machine. -/
def calls (m : Model) (message : Message) : List Call :=
  if m.TakesStep message then [.step] else (m.fed? message).toList.map .feed

/-- The viewer behind its answers to messages, one after the other. -/
def answerAll (m : Model) : List Message → Model
  | [] => m
  | message :: messages => (m.update message).1.answerAll messages

/-- The calls of messages on the machine, in order. -/
def callsOfAll (m : Model) : List Message → List Call
  | [] => []
  | message :: messages => m.calls message ++ (m.update message).1.callsOfAll messages

/-! ### Answers -/

/-- The viewer plays only while its machine can go on, and shows a wrong escape only while the prompt is
open. -/
structure Coherent (m : Model) : Prop where
  playing : m.playing = true → m.machine.done = false
  inputError : m.inputError ≠ none → m.inputting = true

/-- What an answer does that makes some calls on the machine: the viewer has the machine behind them, and
shows the latest step that they execute, if they execute any. The number of cells is never changed. -/
structure Answered (later : List Call) (m m' : Model) : Prop where
  machine : m'.machine = (performAll later m.machine).2
  last : m'.last = (records (eventsOf (performAll later m.machine).1)).getLast?.or m.last
  cells : m'.cells = m.cells
  coherent : m.Coherent → m'.Coherent

variable {m m' : Model}

theorem answered_nil (hmachine : m'.machine = m.machine) (hlast : m'.last = m.last)
    (hcells : m'.cells = m.cells) (hcoherent : m.Coherent → m'.Coherent) : Answered [] m m' :=
  ⟨hmachine, hlast, hcells, hcoherent⟩

theorem answered_step (hmachine : m'.machine = m.machine.step.2)
    (hlast : m'.last = m.machine.record?.or m.last) (hcells : m'.cells = m.cells)
    (hcoherent : m.Coherent → m'.Coherent) : Answered [.step] m m' := by
  refine ⟨hmachine.trans (perform_step_snd _).symm, ?_, hcells, hcoherent⟩
  have hevents : eventsOf (performAll [.step] m.machine).1 = (Call.perform m.machine .step).1.events :=
    List.append_nil _
  rw [hevents, records_perform_step, hlast]
  rcases m.machine.record? with _ | r <;> rfl

theorem last_step (m : Model) : m.step.last = m.machine.record?.or m.last := by
  rw [step, Machine.record?]
  rcases m.machine.step with ⟨_ | f | r, machine⟩ <;> rfl

theorem cells_step (m : Model) : m.step.cells = m.cells := by
  rw [step]
  split <;> rfl

theorem inputError_step (h : m.Coherent) : m.step.inputError ≠ none → m.step.inputting = true := by
  rw [step]
  split <;> exact h.inputError

theorem answered_act_step (m : Model) : Answered [.step] m (m.act .step).1 := by
  -- the play is over before the step is taken
  let paused : Model := { m with playing := false }
  refine answered_step paused.machine_step paused.last_step paused.cells_step fun h => ⟨?_, ?_⟩
  · intro hplaying
    exact nomatch paused.playing_step hplaying
  · exact inputError_step (m := paused) ⟨nofun, h.inputError⟩

theorem answered_updateTick (h : m.playing = true) :
    Answered [.step] m (m.updateTick m.generation).1 := by
  rw [updateTick, if_neg (by simp [h])]
  dsimp only
  split
  · exact answered_step m.machine_step m.last_step m.cells_step fun h =>
      ⟨fun hplaying => absurd hplaying Bool.false_ne_true, inputError_step h⟩
  · next hdone =>
    rw [Bool.not_eq_true] at hdone
    exact answered_step m.machine_step m.last_step m.cells_step fun h =>
      ⟨fun _ => hdone, inputError_step h⟩

theorem answered_act {a : Action} (h : a ≠ .step) : Answered [] m (m.act a).1 := by
  cases a with
  | step => exact absurd rfl h
  | play =>
    rw [act, togglePlay]
    split
    · exact answered_nil rfl rfl rfl fun h =>
        ⟨fun hplaying => absurd hplaying Bool.false_ne_true, h.inputError⟩
    · next hidle =>
      -- it begins to play because the machine is not done
      rw [Bool.or_eq_true, not_or, Bool.not_eq_true, Bool.not_eq_true] at hidle
      exact answered_nil rfl rfl rfl fun h => ⟨fun _ => hidle.2, h.inputError⟩
  | input => exact answered_nil rfl rfl rfl fun h => ⟨h.playing, fun _ => rfl⟩
  | quit | faster | slower | help =>
    exact answered_nil rfl rfl rfl fun h => ⟨h.playing, h.inputError⟩

theorem answered_closeInput (m : Model) : Answered [] m m.closeInput :=
  answered_nil rfl rfl rfl fun h => ⟨h.playing, fun herror => absurd rfl herror⟩

theorem answered_submit (h : m.inputting = true) :
    Answered (m.typed?.toList.map .feed) m m.submit := by
  rw [submit, typed?]
  rcases Escapes.decode (utf8 (String.ofList m.prompt.value)) with rest | bytes
  · exact answered_nil rfl rfl rfl fun hm => ⟨hm.playing, fun _ => h⟩
  · exact ⟨rfl, rfl, rfl, fun hm => ⟨hm.playing, fun herror => absurd rfl herror⟩⟩

theorem answered_updateInput (h : m.inputting = true) (k : KeyPress) :
    Answered ((m.fed? (.key k)).toList.map .feed) m (m.updateInput k).1 := by
  rw [updateInput]
  split
  · next henter =>
    rw [fed?, if_pos ⟨h, henter⟩]
    exact answered_submit h
  · next hescape =>
    rw [fed?, if_neg (by simp [hescape])]
    exact m.answered_closeInput
  · next hinterrupt =>
    rw [fed?, if_neg (by simp [hinterrupt])]
    exact answered_nil rfl rfl rfl id
  · next henter _ _ =>
    rw [fed?, if_neg fun hk => henter hk.2]
    split <;> exact answered_nil rfl rfl rfl fun hm => ⟨hm.playing, hm.inputError⟩

theorem answered_update_key {k : KeyPress} (h : ¬ m.TakesStep (.key k)) :
    Answered ((m.fed? (.key k)).toList.map .feed) m (m.update (.key k)).1 := by
  rw [update]
  split
  · next hopen => exact answered_updateInput hopen k
  · next hclosed =>
    rw [fed?, if_neg fun hk => hclosed hk.1]
    rw [Bool.not_eq_true] at hclosed
    split
    · next a ha =>
      refine answered_act fun hstep => h ⟨hclosed, ?_⟩
      rw [hstep] at ha
      exact (KeyPress.action?_eq_some_iff (b := .step) (by decide)).mp ha
    · exact answered_nil rfl rfl rfl id

/-- **All that an answer does to the machine** and to what the viewer holds of it. -/
theorem answered_update (m : Model) (message : Message) :
    Answered (m.calls message) m (m.update message).1 := by
  rw [calls]
  -- a message makes calls exactly if it takes a step; a tick of an older generation takes none
  split
  · next h =>
    cases message with
    | key k =>
      have haction := (KeyPress.action?_eq_some_iff (b := .step) (by decide)).mpr h.2
      rw [update, h.1, haction]
      exact m.answered_act_step
    | tick generation =>
      rw [update, h.1]
      exact answered_updateTick h.2
    | width width => exact h.elim
  · next h =>
    cases message with
    | key k => exact answered_update_key h
    | tick generation =>
      have hstale : generation ≠ m.generation ∨ m.playing = false := by
        rw [TakesStep, not_and_or, Bool.not_eq_true] at h
        exact h
      rw [update, updateTick_of_stale hstale]
      exact answered_nil rfl rfl rfl id
    | width width => exact answered_nil rfl rfl rfl fun hm => ⟨hm.playing, hm.inputError⟩

/-! ### The invariant -/

/-- The viewer follows a machine through some calls: it has the machine behind them, and shows the latest
step that they execute. -/
structure Follows (first : Machine) (calls : List Call) (m : Model) : Prop where
  machine : m.machine = (performAll calls first).2
  last : m.last = (records (eventsOf (performAll calls first).1)).getLast?
  coherent : m.Coherent

variable {first : Machine} {earlier : List Call}

theorem follows_new (first : Machine) (cells : Int) (delay : Int64) :
    Follows first [] (new first cells delay) :=
  ⟨rfl, rfl, nofun, fun herror => absurd rfl herror⟩

/-- An answer makes its calls behind the earlier ones. -/
theorem Follows.answered {later : List Call} (h : Follows first earlier m)
    (hanswer : Answered later m m') : Follows first (earlier ++ later) m' := by
  refine ⟨?_, ?_, hanswer.coherent h.coherent⟩
  · rw [hanswer.machine, h.machine, performAll_append]
  · rw [hanswer.last, h.last, h.machine, performAll_append, eventsOf, eventsOf, eventsOf,
      List.flatMap_append, records_append, List.getLast?_append]

/-- **The invariant holds behind all answers.** -/
theorem Follows.answerAll (messages : List Message) : ∀ {earlier : List Call} {m : Model},
    Follows first earlier m →
      Follows first (earlier ++ m.callsOfAll messages) (m.answerAll messages) := by
  induction messages with
  | nil =>
    intro earlier m h
    rw [callsOfAll, List.append_nil]
    exact h
  | cons message messages ih =>
    intro earlier m h
    -- the calls of the first message are earlier ones for all messages behind it
    rw [callsOfAll, ← List.append_assoc]
    exact ih (h.answered (m.answered_update message))

theorem follows_answerAll (first : Machine) (cells : Int) (delay : Int64) (messages : List Message) :
    Follows first ((new first cells delay).callsOfAll messages)
      ((new first cells delay).answerAll messages) :=
  (follows_new first cells delay).answerAll messages

/-- The latest step that a viewer shows ended in the state in which its machine is, and it shows none iff
its machine has executed none. -/
theorem Follows.last_cases (h : Follows first earlier m) (hfirst : first.steps = 0) :
    (m.last = none ↔ m.machine.steps = 0) ∧ ∀ r, m.last = some r → r.after = m.machine.state := by
  -- along the path of the calls every executed step is counted, and it joins on to the one before
  have hpath := path_performAll earlier first
  rw [← h.machine] at hpath
  rw [h.last]
  constructor
  · rw [steps_of_path hpath, hfirst, Nat.zero_add, List.getLast?_eq_none_iff, List.length_eq_zero_iff]
  · intro r hr
    obtain ⟨before, hrecords⟩ := List.getLast?_eq_some_iff.mp hr
    have hjoined := joined_of_path hpath
    rw [hrecords] at hjoined
    exact hjoined.after_eq

theorem cells_answerAll (messages : List Message) : ∀ m : Model,
    (m.answerAll messages).cells = m.cells := by
  induction messages with
  | nil => exact fun _ => rfl
  | cons message messages ih => exact fun m => (ih _).trans (m.answered_update message).cells

/-! ### Keys and ticks -/

theorem machine_of_takesStep {message : Message} (h : m.TakesStep message) :
    (m.update message).1.machine = m.machine.step.2 := by
  rw [(m.answered_update message).machine, calls, if_pos h]
  exact perform_step_snd _

/-- A message that takes no step leaves all but the pending input as it is. -/
theorem machine_of_not_takesStep {message : Message} (h : ¬ m.TakesStep message) :
    (m.update message).1.machine = m.machine.feed ((m.fed? message).getD []) := by
  rw [(m.answered_update message).machine, calls, if_neg h]
  rcases m.fed? message with _ | bytes
  · exact (Machine.feed_nil _).symm
  · rfl

theorem not_takesStep_of_inputting (h : m.inputting = true) (k : KeyPress) :
    ¬ m.TakesStep (.key k) := by
  rintro ⟨hclosed, -⟩
  rw [hclosed] at h
  cases h

/-- All that an answer may change while the prompt is open. -/
theorem exists_updateInput_eq (m : Model) (k : KeyPress) :
    ∃ machine prompt inputting inputError,
      (m.updateInput k).1 = { m with machine, prompt, inputting, inputError } := by
  rw [updateInput]
  split
  · rw [submit]
    split <;> exact ⟨_, _, _, _, rfl⟩
  · exact ⟨_, _, _, _, rfl⟩
  · exact ⟨_, _, _, _, rfl⟩
  · split <;> exact ⟨_, _, _, _, rfl⟩

theorem submit_of_ok {bytes : Bytes}
    (h : Escapes.decode (utf8 (String.ofList m.prompt.value)) = .ok bytes) :
    m.submit = ({ m with machine := m.machine.feed bytes } : Model).closeInput := by
  rw [submit, h]

theorem submit_of_error {rest : Bytes}
    (h : Escapes.decode (utf8 (String.ofList m.prompt.value)) = .error rest) :
    m.submit = { m with inputError := some rest } := by
  rw [submit, h]

/-- What an answer to a key does while the prompt is open: it goes on or pauses as before, and only the
enter key may change the machine, which it feeds the bytes of the typed text. -/
structure InPrompt (m : Model) (k : KeyPress) (m' : Model) : Prop where
  playing : m'.playing = m.playing
  enter : k.key = .enter →
    ∀ bytes, Escapes.decode (utf8 (String.ofList m.prompt.value)) = .ok bytes →
      m'.machine = m.machine.feed bytes ∧ m'.inputting = false
  wrongEscape : k.key = .enter →
    ∀ rest, Escapes.decode (utf8 (String.ofList m.prompt.value)) = .error rest →
      m'.machine = m.machine
  escape : k.key = .escape → m'.machine = m.machine ∧ m'.inputting = false
  other : k.key ≠ .enter → m'.machine = m.machine

theorem inPrompt_update (h : m.inputting = true) (k : KeyPress) :
    InPrompt m k (m.update (.key k)).1 := by
  have hupdate : m.update (.key k) = m.updateInput k := if_pos h
  have henter : k.key = .enter → (m.updateInput k).1 = m.submit := by
    intro hk
    rw [updateInput, hk]
  rw [hupdate]
  refine { playing := ?_, enter := ?_, wrongEscape := ?_, escape := ?_, other := ?_ }
  · obtain ⟨machine, prompt, inputting, inputError, hkept⟩ := m.exists_updateInput_eq k
    rw [hkept]
  · intro hk bytes hbytes
    rw [henter hk, submit_of_ok hbytes]
    exact ⟨rfl, rfl⟩
  · intro hk rest hrest
    rw [henter hk, submit_of_error hrest]
  · intro hk
    rw [updateInput, hk]
    exact ⟨rfl, rfl⟩
  · intro hk
    -- no field of `updateInput` has to be looked at: a key that feeds nothing leaves the machine
    have hfed : m.fed? (.key k) = none := if_neg fun hfeeds => hk hfeeds.2
    rw [← hupdate, machine_of_not_takesStep (not_takesStep_of_inputting h k), hfed]
    exact Machine.feed_nil _

end Model

/-- **The viewer follows its machine.** In whatever order keys are pressed, the window is resized and ticks
arrive, the viewer has the machine that the calls of these messages make of the one it began with, each
step key and each tick of the present stretch of play calling for one step; it shows the latest step that
was executed, which ended in the present state, and none iff none was executed; while it plays, the machine
is not done; and a wrong escape is shown in an open prompt only. While the prompt is open no key takes a
step or changes whether the viewer plays, the enter key feeds exactly the bytes of the typed text and
closes the prompt, and the machine is left as it is if the text has a wrong escape or the escape key is
pressed. Messages that take no step change nothing of the machine but its pending input. -/
theorem viewer_follows_machine {p : Program} {length : Int} {input : Bytes} {first : Machine}
    (hstart : Machine.new? p length input = some first) (cells : Int) (delay : Int64)
    (messages : List Message) {m : Model}
    (hm : (Model.new first cells delay).answerAll messages = m) :
    m.Follows first ((Model.new first cells delay).callsOfAll messages) ∧
      (m.last = none ↔ m.machine.steps = 0) ∧
      (∀ r, m.last = some r → r.after = m.machine.state) ∧
      (∀ k, m.inputting = true → ¬ m.TakesStep (.key k) ∧ m.InPrompt k (m.update (.key k)).1) ∧
      ∀ message,
        (m.TakesStep message → (m.update message).1.machine = m.machine.step.2) ∧
        (¬ m.TakesStep message → (m.update message).1.machine.program = m.machine.program ∧
          (m.update message).1.machine.state = m.machine.state ∧
          (m.update message).1.machine.steps = m.machine.steps ∧
          (m.update message).1.machine.fault = m.machine.fault) := by
  have hfollows := Model.follows_answerAll first cells delay messages
  have hfirst : first.steps = 0 := by
    rw [Machine.eq_start_of_new? hstart]
    rfl
  rw [hm] at hfollows
  obtain ⟨hnone, hlast⟩ := hfollows.last_cases hfirst
  refine ⟨hfollows, hnone, hlast, ?_, ?_⟩
  · intro k hopen
    exact ⟨Model.not_takesStep_of_inputting hopen k, Model.inPrompt_update hopen k⟩
  · intro message
    refine ⟨Model.machine_of_takesStep, fun hstep => ?_⟩
    rw [Model.machine_of_not_takesStep hstep]
    exact ⟨rfl, rfl, rfl, rfl⟩

/-- A program that moves off the tape in its second step. The step key typed into the prompt takes no step,
and behind the fault the step before it is still the latest one. -/
theorem viewer_follows_machine_behind_fault :
    ∃ p first m, Program.load [43, 60] = .ok p ∧ Machine.new? p 1 [] = some first ∧
      (Model.new first 0 100000000).answerAll
        [.key ⟨.characters ['n'] false, false⟩, .key ⟨.characters ['i'] false, false⟩,
          .key ⟨.characters ['n'] false, false⟩, .key ⟨.escape, false⟩,
          .key ⟨.characters ['n'] false, false⟩] = m ∧
      m.machine.fault = some ⟨1⟩ ∧ m.machine.steps = 1 ∧ m.last.map (·.position) = some 0 ∧
      ∀ r, m.last = some r → r.after = m.machine.state := by
  have hload : Program.load [43, 60] = .ok ⟨#[.increment, .moveLeft], #[0, 1], #[none, none]⟩ := rfl
  have hstart : Machine.new? ⟨#[.increment, .moveLeft], #[0, 1], #[none, none]⟩ 1 [] =
      some (.start ⟨#[.increment, .moveLeft], #[0, 1], #[none, none]⟩ 1 []) := rfl
  refine ⟨_, _, _, hload, hstart, rfl, rfl, rfl, rfl, ?_⟩
  obtain ⟨-, -, hafter, -⟩ := viewer_follows_machine hstart 0 100000000 _ rfl
  exact hafter

end Viewer

end TapeMachine
