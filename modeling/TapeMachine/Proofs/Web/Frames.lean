/-
The frames of a stream are the run.

A stream runs a machine of its own and sends a frame for each step and one for the end. What it sends is
what a run of that machine comes to, step by step; and the cells that a frame shows are those that every
other display of the same tape shows.

* `Tape.shown`: the cells that a display shows;
* `stepMessage`, `haltMessage`: what a visitor is told of a step and of the end of a run;
* `Stream.rest_eq`: the frames from a machine on are the run from there on;
* `Handler.Told`: what a handler has sent and what it has yet to send make up the stream;
* `receive_streaming`: a visitor who reads a stream gets its frames;
* `stream_is_the_run`: every stream that nobody breaks off is the run, frame by frame.
-/
import TapeMachine.Proofs.Display.Columns
import TapeMachine.Proofs.Machine.Cut
import TapeMachine.Proofs.Machine.Trail
import TapeMachine.Proofs.Trace.Stream
import TapeMachine.Proofs.Web.Server

namespace TapeMachine

/-! ### The cells that are shown -/

/-- The first cells of a tape, as many as are asked for: all of them if no cell is asked for, fewer than
none or more than there are. -/
def Tape.shown (t : Tape) (cells : Int) : Bytes :=
  if cells ≤ 0 ∨ (t.length : Int) < cells then t.toList else t.toList.take cells.toNat

theorem Tape.toList_window_eq_shown (t : Tape) (cells : Int) :
    (t.window cells).toList = t.shown cells := by
  rw [toList_window, shown, windowLength]
  have hall : t.toList.take t.length = t.toList := List.take_length
  by_cases hnone : cells ≤ 0
  · rw [if_pos hnone, if_pos (.inl hnone), hall]
  · by_cases hmore : (t.length : Int) < cells
    · rw [if_neg hnone, if_pos (.inr hmore), Nat.min_eq_right (by omega), hall]
    · rw [if_neg hnone, if_neg (by omega), Nat.min_eq_left (by omega)]

namespace Web

/-! ### What a visitor is told -/

/-- The fields that show a state. -/
def stateFields (cells : Int) (s : State) : List (String × String) :=
  [("tape", Frame.tapeJson (some (s.tape.shown cells))),
    ("pointer", decimal s.pointer),
    ("pc", decimal s.pc),
    ("output", JsonString.quote (Display.output s.output))]

/-- What a visitor is told of step `n`: the command, and the state after it. -/
def stepMessage (cells : Int) (n : Nat) (r : StepRecord) : List (String × String) :=
  [("step", decimal n),
    ("command", JsonString.quote r.command.symbol),
    ("position", decimal r.position)] ++
    stateFields cells r.after

/-- What a visitor is told of the end of a run in a state. -/
def haltMessage (cells : Int) (summary : Summary) (last : State) : List (String × String) :=
  [("step", decimal summary.steps), ("position", "-1")] ++ stateFields cells last ++
    [("halt", JsonString.quote summary.halt.name)] ++
    (summary.stop.map fun stop => ("fault", JsonString.quote stop.message)).toList

theorem tapeWindow_eq (t : Tape) (cells : Int) : Frame.tapeWindow t cells = t.shown cells := by
  rw [← Tape.toList_window_eq_shown]
  exact congrArg Tape.toList (t.first_eq_window cells)

/-- The frame of a halt shows all cells of a snapshot, which are those that the limits ask for. -/
theorem tapeWindow_snapshot (m : Machine) (cells : Int) :
    Frame.tapeWindow (m.snapshot cells).state.tape 0 = m.state.tape.shown cells := by
  rw [tapeWindow_eq, Tape.shown, if_pos (.inl (Int.le_refl 0)), m.tape_snapshot,
    Tape.toList_window_eq_shown]

theorem fields_ofStep (n : Nat) (r : StepRecord) (cells : Int) :
    (Frame.ofStep n r cells).fields = stepMessage cells n r := by
  rw [stepMessage, stateFields, ← tapeWindow_eq]
  rfl

theorem fields_ofHalt {m : Machine} {summary : Summary} (hsteps : m.steps = summary.steps)
    (cells : Int) :
    (Frame.ofHalt (m.snapshot cells) summary).fields = haltMessage cells summary m.state := by
  rw [haltMessage, stateFields, ← tapeWindow_snapshot, ← hsteps]
  rfl

/-- No run halts without a name. -/
theorem name_ne_empty (reason : HaltReason) : reason.name ≠ "" := by
  cases reason <;> decide

/-! ### The frames of a run -/

theorem natCast_positiveOr {fallback : Int} (h : 0 ≤ fallback) (n : Int) :
    (positiveOr fallback n : Int) = if n ≤ 0 then fallback else n := by
  rw [positiveOr]
  split
  · exact Int.toNat_of_nonneg h
  · exact Int.toNat_of_nonneg (by omega)

namespace Stream

/-- The frames from a machine on. -/
def rest (l : Limits) (m : Machine) : List Frame :=
  framesFrom l (l.maxSteps - m.steps + 1) m

theorem frames_eq_rest (l : Limits) (program : Program) (input : Bytes) :
    frames l program input = rest l (.start program l.tapeLength input) :=
  rfl

/-- The next frame that is due, and the frames behind it. -/
theorem rest_eq_next (l : Limits) (m : Machine) :
    rest l m = (next l false m).1 :: (next l false m).2.elim [] (rest l) := by
  rw [rest, framesFrom]
  rcases hnext : next l false m with ⟨frame, _ | m'⟩
  · rfl
  · -- a frame with others behind it is that of a step
    rw [next] at hnext
    split at hnext
    · cases hnext
    · next hbudget =>
      rw [if_neg Bool.false_ne_true] at hnext
      split at hnext
      · cases hnext
      · cases hnext
      · next r m'' hstep =>
        cases hnext
        obtain ⟨-, -, -, hm', -⟩ := Machine.of_step_eq_stepped hstep
        have hsteps : m'.steps = m.steps + 1 := by
          rw [hm', Machine.steps_advance]
        -- the step that was taken is one that the fuel counts down
        show _ = _ :: framesFrom l (l.maxSteps - m'.steps + 1) m'
        rw [show l.maxSteps - m.steps = l.maxSteps - m'.steps + 1 by omega]

/-- The frames of steps in a row, counted from a number on. -/
def stepFrames (cells : Int) (first : Nat) (rs : List StepRecord) : List Frame :=
  (rs.zipIdx first).map fun (r, n) => .ofStep n r cells

/-- **The frames from a machine on are the run from there on**: one for each step, and one for the end. -/
theorem rest_eq (l : Limits) (budget : Nat) : ∀ {m : Machine}, l.maxSteps - m.steps = budget →
    rest l m = stepFrames l.cells (m.steps + 1) (m.takeSteps budget).1 ++
        [.ofHalt ((Machine.runFrom budget .never m.steps m).2.snapshot l.cells)
          (Machine.runFrom budget .never m.steps m).1] ∧
      (Machine.runFrom budget .never m.steps m).2.steps
        = (Machine.runFrom budget .never m.steps m).1.steps := by
  induction budget with
  | zero =>
    intro m hbudget
    rw [rest_eq_next, next, if_pos (by omega)]
    exact ⟨rfl, rfl⟩
  | succ budget ih =>
    intro m hbudget
    rw [rest_eq_next, next, if_neg (by omega), if_neg Bool.false_ne_true, Machine.runFrom, Signal.poll]
    -- one attempt tells at once what the frame is, whether the run goes on, and what is recorded
    rcases ha : m.attempt with ⟨_ | f | ⟨c, pos⟩, m'⟩
    · rw [Machine.step_of_ended ha, Machine.takeSteps_of_ended (Machine.step_of_ended ha),
        Machine.attempt_eq_ended ha]
      exact ⟨rfl, rfl⟩
    · have hstep := Machine.step_of_faulted ha
      have hsteps : m'.steps = m.steps := by
        rw [Machine.of_step_eq_faulted hstep]
      rw [hstep, Machine.takeSteps_of_faulted hstep, ← hsteps]
      exact ⟨rfl, rfl⟩
    · have hstep := Machine.step_of_stepped ha
      have hsteps : m'.steps = m.steps + 1 := by
        rw [Machine.eq_advance_of_attempt ha, Machine.steps_advance]
      obtain ⟨hrest, hlast⟩ := ih (m := m') (by omega)
      rw [hstep, Machine.takeSteps_of_stepped hstep, ← hsteps]
      refine ⟨?_, hlast⟩
      show _ :: rest l m' = _
      rw [hrest]
      rfl

/-- No stream has more frames than its machine may take steps, and one. -/
theorem length_framesFrom_le (l : Limits) (fuel : Nat) : ∀ m : Machine,
    (framesFrom l fuel m).length ≤ fuel := by
  induction fuel with
  | zero => exact fun _ => Nat.le_refl 0
  | succ fuel ih =>
    intro m
    rw [framesFrom]
    split
    · exact Nat.succ_le_succ (Nat.zero_le fuel)
    · exact Nat.succ_le_succ (ih _)

end Stream

/-- A run ends in the state after its last step. -/
theorem state_run (m : Machine) (budget : Int) : (m.run budget).2.state
    = ((m.takeSteps (m.run budget).1.steps).1.getLast?.map StepRecord.after).getD m.state := by
  have hjoined := joined_of_path (m.path_run budget .never)
  rw [records_map_stepped] at hjoined
  generalize (m.takeSteps (m.run budget).1.steps).1 = rs at hjoined
  rcases List.eq_nil_or_concat rs with rfl | ⟨rs, r, rfl⟩
  · exact hjoined.symm
  · rw [List.concat_eq_append] at hjoined ⊢
    rw [List.getLast?_concat]
    exact hjoined.after_eq.symm

/-- **The frames of a stream are the run of its machine.** -/
theorem fields_frames {o : Options} {program : Program} {input : Bytes} {m : Machine}
    (hm : Machine.start program o.limits.tapeLength input = m) {rs : List StepRecord}
    (hrs : (m.takeSteps (m.run o.limits.maxSteps).1.steps).1 = rs) :
    rs.length = (m.run o.limits.maxSteps).1.steps ∧
      (Stream.frames o.limits program input).map Frame.fields
        = (rs.zipIdx 1).map (fun (r, n) => stepMessage o.cells n r) ++
          [haltMessage o.cells (m.run o.limits.maxSteps).1
            ((rs.getLast?.map StepRecord.after).getD m.state)] := by
  have hstart : m.steps = 0 := by
    rw [← hm]
    rfl
  have hframes : Stream.frames o.limits program input = Stream.rest o.limits m := by
    rw [Stream.frames_eq_rest, hm]
  obtain ⟨hrest, hlast⟩ := Stream.rest_eq o.limits o.limits.maxSteps (m := m) (by omega)
  rw [hstart] at hrest hlast
  have hrun : m.run o.limits.maxSteps = Machine.runFrom o.limits.maxSteps .never 0 m := by
    rw [Machine.run, Int.toNat_natCast]
  have hstate := state_run m o.limits.maxSteps
  have hlength := (Machine.takeSteps_eq_runFrom o.limits.maxSteps 0 m).1
  rw [hrs, hrun] at hstate
  rw [hrun, ← hlength, Nat.zero_add, Machine.takeSteps_length] at hrs
  rw [hrs, Nat.zero_add] at hlength
  rw [hrun, hframes, hrest, List.map_append, Stream.stepFrames, List.map_map, hrs,
    List.map_singleton, fields_ofHalt hlast, hstate]
  refine ⟨hlength, congrArg (· ++ _) (List.map_congr_left ?_)⟩
  rintro ⟨r, n⟩ -
  exact fields_ofStep n r o.cells

/-! ### The frames that a handler sends -/

/-- The frames that a handler sent. -/
def sentBy (acts : List Act) : List Frame :=
  acts.filterMap fun
    | .sent frame => some frame
    | _ => none

@[simp] theorem sentBy_append (acts more : List Act) :
    sentBy (acts ++ more) = sentBy acts ++ sentBy more :=
  List.filterMap_append

@[simp] theorem sentBy_map_sent (frames : List Frame) : sentBy (frames.map .sent) = frames := by
  simp [sentBy, List.filterMap_map]

/-- The frames that a handler has yet to send if nobody interrupts it; one that waits has all of them
before it. -/
def Stage.rest (l : Limits) (whole : List Frame) : Stage → List Frame
  | waiting => whole
  | running m => Stream.rest l m
  | sending frame behind => frame :: behind.elim [] (Stream.rest l)
  | leaving | finished | refused | dismissed => []

/-- What a handler has sent and what it has yet to send make up the stream, unless it was interrupted,
found no place, or could not send a frame. -/
def Handler.Told (l : Limits) (whole : List Frame) (h : Handler) (past : List Act) : Prop :=
  h.interrupted = false → .gaveUp ∉ past → .failed ∉ past →
    sentBy past ++ h.stage.rest l whole = whole

namespace Handler

variable {l : Limits} {program : Program} {input : Bytes} {h h' : Handler} {past acts : List Act}
variable {whole : List Frame}

theorem Told.does (htold : h.Told l whole past) (hpast : h.stage.Past past)
    (hdoes : h.Does l acts h') : h'.Told l whole (past ++ acts) := by
  intro hinterrupted hgaveUp hfailed
  rw [List.mem_append, not_or] at hgaveUp hfailed
  -- only what sends a frame moves one from those yet to come to those sent; what leaves early
  -- contradicts what is assumed of the handler
  cases hdoes with
  | interrupt => cases hinterrupted
  | giveUp => simp at hgaveUp
  | fail => simp at hfailed
  | failBusy => simp at hfailed
  | stop _ hdone =>
    rw [show h.interrupted = false from hinterrupted] at hdone
    cases hdone
  | expire =>
    rw [List.append_nil]
    exact htold hinterrupted hgaveUp.1 hfailed.1
  | run hstage =>
    have hold := htold hinterrupted hgaveUp.1 hfailed.1
    rw [hstage, Stage.rest, Stream.rest_eq_next] at hold
    rw [List.append_nil, show h.interrupted = false from hinterrupted]
    exact hold
  | send hstage =>
    have hold := htold hinterrupted hgaveUp.1 hfailed.1
    rw [hstage] at hold
    rw [sentBy_append, List.append_assoc]
    exact hold
  | sendLast hstage =>
    have hold := htold hinterrupted hgaveUp.1 hfailed.1
    rw [hstage] at hold
    rw [sentBy_append, List.append_assoc]
    exact hold
  | dismiss hstage =>
    rw [hstage] at hpast
    rw [show past = [.arrived, .gaveUp] from hpast] at hgaveUp
    simp at hgaveUp

theorem Told.moves (htold : h.Told l (Stream.frames l program input) past) (hpast : h.stage.Past past)
    (hmoves : h.Moves l program input acts h') :
    h'.Told l (Stream.frames l program input) (past ++ acts) := by
  cases hmoves with
  | does hdoes => exact htold.does hpast hdoes
  | acquire hstage =>
    intro hinterrupted hgaveUp hfailed
    have hold := htold hinterrupted (by simpa using hgaveUp) (by simpa using hfailed)
    rw [hstage] at hold
    rw [sentBy_append]
    exact (congrArg (· ++ _) (List.append_nil _)).trans hold
  | release hstage =>
    intro hinterrupted hgaveUp hfailed
    have hold := htold hinterrupted (by simpa using hgaveUp) (by simpa using hfailed)
    rw [hstage] at hold
    rw [sentBy_append, List.append_assoc]
    exact hold

/-- A handler whose machine runs can send all its frames, one after the other. -/
theorem doesAll_rest (l : Limits) (expired : Bool) (n : Nat) : ∀ {m : Machine},
    (Stream.rest l m).length = n →
      DoesAll l ⟨.running m, expired, false⟩ ((Stream.rest l m).map .sent)
        ⟨.leaving, expired, false⟩ := by
  induction n with
  | zero =>
    intro m hlength
    rw [Stream.rest_eq_next] at hlength
    cases hlength
  | succ n ih =>
    intro m hlength
    have hrun := Does.run (l := l) (h := ⟨.running m, expired, false⟩) rfl
    rw [Stream.rest_eq_next] at hlength ⊢
    rcases hnext : Stream.next l false m with ⟨frame, _ | m'⟩
    · rw [hnext] at hrun
      exact .cons hrun (.one (.sendLast rfl))
    · rw [hnext] at hrun hlength
      exact .cons hrun (.cons (.send rfl) (ih (Nat.succ_inj.mp hlength)))

/-- A handler that has a place and is not interrupted can send all that it has yet to send. -/
theorem doesAll_to_end (hplace : h.stage.hasPlace = true) (hinterrupted : h.interrupted = false)
    (whole : List Frame) :
    h.DoesAll l ((h.stage.rest l whole).map .sent) { h with stage := .leaving } := by
  obtain ⟨stage, expired, interrupted⟩ := h
  cases hinterrupted
  cases stage with
  | waiting | finished | refused | dismissed => cases hplace
  | running m => exact doesAll_rest l expired _ rfl
  | leaving => exact .refl _
  | sending frame behind =>
    rcases behind with _ | m
    · exact .one (.sendLast rfl)
    · exact .cons (.send rfl) (doesAll_rest l expired _ rfl)

end Handler

namespace Handlers

variable {s : Handlers} {es : List (Nat × Act)} {i : Nat} {h : Handler}
variable {o : Options} {program : Program} {input : Bytes}

/-- **What a handler has sent and what it has yet to send make up the stream.** -/
theorem Steps.told (hsteps : Steps (start o program input) es s) (hi : s.all[i]? = some h) :
    h.Told o.limits (Stream.frames o.limits program input) (pastOf i es) := by
  have hboth := hsteps.each
    (P := fun h past => h.stage.Past past ∧
      h.Told o.limits (Stream.frames o.limits program input) past)
    ⟨rfl, fun _ _ _ => rfl⟩
    (fun hold hmoves => ⟨hmoves.keeps_past hold.1, hold.2.moves hold.1 hmoves⟩) hi
  exact hboth.2

/-- A handler that had a place and has it no more has nothing left to send. -/
theorem Steps.rest_eq_nil (hsteps : Steps (start o program input) es s) (hi : s.all[i]? = some h)
    (hacquired : .acquired ∈ pastOf i es) (hplace : h.stage.hasPlace = false) (whole : List Frame) :
    h.stage.rest o.limits whole = [] := by
  have hpast := hsteps.keeps_past hi
  cases hstage : h.stage with
  | running | sending | leaving =>
    rw [hstage] at hplace
    cases hplace
  | waiting =>
    rw [hstage] at hpast
    rw [show pastOf i es = [.arrived] from hpast] at hacquired
    simp at hacquired
  | finished | refused | dismissed => rfl

end Handlers

/-! ### A visitor who reads a stream -/

namespace Server

variable {s : Server} {i time : Nat} {m : Machine}

/-- What a server keeps to, and whether it has ended, is nothing that happens by itself. -/
theorem same_seat (s : Server) : s.seat.limits = s.limits ∧ s.seat.canceled = s.canceled := by
  rw [seat]
  split <;> exact ⟨rfl, rfl⟩

theorem same_fire (s : Server) (time i : Nat) :
    (s.fire time i).limits = s.limits ∧ (s.fire time i).canceled = s.canceled := by
  rw [fire]
  dsimp only
  split
  · exact ⟨rfl, rfl⟩
  · split
    · exact ⟨rfl, rfl⟩
    · exact same_seat _
    · exact same_seat _
    · exact ⟨rfl, rfl⟩
    · exact ⟨rfl, rfl⟩

theorem same_settleUntil (time fuel : Nat) : ∀ s : Server,
    (settleUntil time fuel s).limits = s.limits ∧
      (settleUntil time fuel s).canceled = s.canceled := by
  induction fuel with
  | zero => exact fun _ => ⟨rfl, rfl⟩
  | succ fuel ih =>
    intro s
    rw [settleUntil]
    split
    · exact ⟨rfl, rfl⟩
    · next due j _ =>
      split
      · exact ⟨rfl, rfl⟩
      · obtain ⟨hlimits, hcanceled⟩ := ih (s.fire due j)
        exact ⟨hlimits.trans (same_fire s due j).1, hcanceled.trans (same_fire s due j).2⟩

/-- A connection that does not wait is not waited for. -/
theorem awaitPlace_of_seated {c : Connection} (hc : s.connections[i]? = some c)
    (hseated : c.phase.isWaiting = false) (fuel : Nat) : awaitPlace i fuel s = s := by
  rcases fuel with _ | fuel
  · rfl
  · rw [awaitPlace, hc, Option.any_some, hseated, if_neg Bool.false_ne_true]

/-- A visitor who is there reads what the phase of the connection offers. -/
theorem receiveOne_of_seated {c : Connection} (hc : s.connections[i]? = some c)
    (hdropped : c.dropped = false) (hseated : c.phase.isWaiting = false) :
    s.receiveOne i = s.take i c.phase := by
  rw [receiveOne, hc]
  dsimp only
  rw [hdropped, if_neg Bool.false_ne_true, awaitPlace_of_seated hc hseated, hc]

/-- There is nothing to read behind the end of a stream. -/
theorem receive_of_ended {c : Connection} (hc : s.connections[i]? = some c)
    (hdropped : c.dropped = false) (hphase : c.phase = .ended) (count : Nat) :
    (receive i count s).1 = [] ∧ (receive i count s).2.1 = decide (0 < count) := by
  rcases count with _ | count
  · exact ⟨rfl, rfl⟩
  · have hone := receiveOne_of_seated hc hdropped (by rw [hphase]; rfl)
    rw [hphase, take] at hone
    rw [receive, hone]
    exact ⟨rfl, (decide_eq_true (Nat.succ_pos count)).symm⟩

/-- **A visitor who reads a stream gets its frames**, and is told when there are no more. -/
theorem receive_streaming (i count : Nat) : ∀ {s : Server} {time : Nat} {m : Machine},
    s.connections[i]? = some { phase := .streaming time m } → s.canceled = false →
      (receive i count s).1 = (Stream.rest s.limits m).take count ∧
        (receive i count s).2.1 = decide ((Stream.rest s.limits m).length < count) := by
  induction count with
  | zero =>
    intro s time m _ _
    exact ⟨rfl, rfl⟩
  | succ count ih =>
    intro s time m hc hcanceled
    obtain ⟨hlimits, hcanceled'⟩ := same_settleUntil time s.fuel s
    -- to wait until the frame is due settles others, and leaves this connection as it is
    have hkept : (s.advance time).connections[i]? = some { phase := .streaming time m } :=
      getElem?_advance hc rfl rfl time
    have hone : s.receiveOne i = s.take i (.streaming time m) := receiveOne_of_seated hc rfl rfl
    rw [receive, hone, take, Stream.rest_eq_next]
    rw [show (s.advance time).limits = s.limits from hlimits,
      show (s.advance time).canceled = false from hcanceled'.trans hcanceled]
    rcases hnext : Stream.next s.limits false m with ⟨frame, _ | m'⟩
    · -- the frame is the last one, so the connection ends with it, and gives its place back
      have hended : ((s.advance time).move i .ended).connections[i]? = some { phase := .ended } := by
        rw [getElem?_move, if_pos rfl, hkept]
        rfl
      have hfinished : ((s.advance time).finish i).connections[i]? = some { phase := .ended } :=
        getElem?_seat hended rfl
      obtain ⟨hframes, hover⟩ := receive_of_ended hfinished rfl rfl count
      dsimp only
      rw [hframes, hover]
      simp
    · -- there are frames behind it, which are due one by one after a delay
      have hmoved : ((s.advance time).move i
          (.streaming ((s.advance time).now + s.limits.delay) m')).connections[i]?
            = some { phase := .streaming ((s.advance time).now + s.limits.delay) m' } := by
        rw [getElem?_move, if_pos rfl, hkept]
        rfl
      obtain ⟨hframes, hover⟩ := ih hmoved (hcanceled'.trans hcanceled)
      dsimp only
      rw [hframes, hover]
      rw [show ((s.advance time).move i _).limits = s.limits from hlimits]
      simp

end Server

open Handlers in
/-- **A stream is the run.** A handler that has a place, whose connection takes every frame and is not done
sends the frames of one list, in order; it can always go on to the end of the list, and has sent all of it
when it gives its place back. The list holds a frame for each step of a run of a fresh machine, with the
command, its position and the state after it, and behind them one that tells how the run halted, in the
state after the last step. A visitor of the server who reads such a connection to its end reads this list.

All displays show the same cells of a tape, each by a test of its own of the number of cells that is asked
for; the last frame shows all cells of a copy that holds them. -/
theorem stream_is_the_run (o : Options) (program : Program) (input : Bytes) :
    (∃ (m : Machine) (budget : Int) (rs : List StepRecord) (frames : List Frame),
      Machine.new? program
        (if o.tapeLength ≤ 0 then Settings.defaultTapeLength else o.tapeLength) input = some m ∧
      budget = (if o.maxSteps ≤ 0 then Settings.defaultMaxSteps else o.maxSteps) ∧
      (m.takeSteps (m.run budget).1.steps).1 = rs ∧ rs.length = (m.run budget).1.steps ∧
      frames.map Frame.fields = (rs.zipIdx 1).map (fun (r, n) => stepMessage o.cells n r) ++
        [haltMessage o.cells (m.run budget).1 ((rs.getLast?.map StepRecord.after).getD m.state)] ∧
      (∀ n r, (stepMessage o.cells n r).lookup "halt" = none) ∧ (m.run budget).1.halt.name ≠ "" ∧
      (∀ (es : List (Nat × Act)) (s : Handlers) (i : Nat) (h : Handler),
        Steps (.start o program input) es s → s.all[i]? = some h → .acquired ∈ pastOf i es →
        .failed ∉ pastOf i es → h.interrupted = false →
        sentBy (pastOf i es) <+: frames ∧
        (h.stage.hasPlace = false → sentBy (pastOf i es) = frames) ∧
        (h.stage.hasPlace = true → ∃ acts t, Steps s (acts.map (i, ·)) t ∧ .failed ∉ acts ∧
          t.all[i]? = some { h with stage := .finished } ∧
          sentBy (pastOf i es ++ acts) = frames)) ∧
      ∀ (s : Server) (i time : Nat), s.limits = o.limits → s.canceled = false →
        s.connections[i]? = some { phase := .streaming time m } →
        (s.receiveAll i).1 = frames ∧ (s.receiveAll i).2.1 = true) ∧
    ∀ (cells : Int) (m : Machine) (l : Limits) (n : Nat) (r : StepRecord) (reason : HaltReason)
      (stop : Option Stop) (s : State),
      (m.snapshot cells).state.tape.toList = m.state.tape.shown cells ∧
      (Frame.ofStep n r cells).tape = some (r.after.tape.shown cells) ∧
      (Stream.halt l m reason stop).tape = some (m.state.tape.shown l.cells) ∧
      (Trace.state cells s).field? "tape" = some (.row ((s.tape.shown cells).map UInt8.toNat)) ∧
      Display.tapeLine s.tape cells
        = Display.spaced ((s.tape.shown cells).map fun b => padLeft 3 (decimal b.toNat)) := by
  refine ⟨?_, ?_⟩
  · generalize hm : Machine.start program o.limits.tapeLength input = m
    generalize hrs : (m.takeSteps (m.run o.limits.maxSteps).1.steps).1 = rs
    obtain ⟨hlength, hfields⟩ := fields_frames hm hrs
    have htape : (o.limits.tapeLength : Int)
        = if o.tapeLength ≤ 0 then Settings.defaultTapeLength else o.tapeLength :=
      natCast_positiveOr (by decide) _
    have hbudget : (o.limits.maxSteps : Int)
        = if o.maxSteps ≤ 0 then Settings.defaultMaxSteps else o.maxSteps :=
      natCast_positiveOr (by decide) _
    have hnew : Machine.new? program o.limits.tapeLength input = some m := by
      rw [Machine.new?_of_pos (by rw [htape]; split <;> [decide; omega]), Int.toNat_natCast, hm]
    refine ⟨m, o.limits.maxSteps, rs, Stream.frames o.limits program input, htape ▸ hnew, hbudget,
      hrs, hlength, hfields, fun _ _ => rfl, name_ne_empty _, ?_, ?_⟩
    · -- a handler with a place: what it sent and what it has yet to send are the list
      intro es s i h hsteps hi hacquired hfailed hinterrupted
      obtain ⟨hgaveUp, -, -⟩ := (hsteps.keeps_past hi).place
      have htold := hsteps.told hi hinterrupted (fun hmem => hgaveUp hmem hacquired) hfailed
      refine ⟨⟨_, htold⟩, ?_, ?_⟩
      · intro hplace
        rw [hsteps.rest_eq_nil hi hacquired hplace, List.append_nil] at htold
        exact htold
      · intro hplace
        obtain ⟨hlt, -⟩ := List.getElem?_eq_some_iff.mp hi
        have hleave := steps_leave (Handler.doesAll_to_end hplace hinterrupted
          (Stream.frames o.limits program input)) hi rfl
        rw [hsteps.same.1] at hleave
        refine ⟨_, _, hleave, by simp, List.getElem?_set_self hlt, ?_⟩
        rw [sentBy_append, sentBy_append, sentBy_map_sent]
        exact (congrArg (_ ++ ·) (List.append_nil _)).trans htold
    · -- a visitor: the server asks for more frames than the list has, so nothing of it is cut off
      intro s i time hlimits hcanceled hc
      have hframes : Stream.frames o.limits program input = Stream.rest s.limits m := by
        rw [hlimits, Stream.frames_eq_rest, hm]
      obtain ⟨hread, hover⟩ := Server.receive_streaming i (s.limits.maxSteps + 2) hc hcanceled
      have hlength := Stream.length_framesFrom_le s.limits (s.limits.maxSteps - m.steps + 1) m
      rw [← Stream.rest] at hlength
      rw [List.take_of_length_le (by omega)] at hread
      rw [decide_eq_true (by omega)] at hover
      exact ⟨hread.trans hframes.symm, hover⟩
  · intro cells m l n r reason stop s
    refine ⟨?_, congrArg some (tapeWindow_eq _ _), congrArg some (tapeWindow_snapshot _ _), ?_, ?_⟩
    · rw [m.tape_snapshot, Tape.toList_window_eq_shown]
    · rw [← Tape.toList_window_eq_shown, Tape.window_eq_ite]
      rfl
    · rw [Display.tapeLine, Display.lineCells_eq, Tape.toList_window_eq_shown]

open Handlers in
/-- A stream of a program that moves onto a new cell, of which one cell is shown: behind its first frame, at
its end, and read from the server. -/
theorem stream_is_the_run_onto_new_cell :
    ∃ p es fs s t frames, Program.load [43, 62] = .ok p ∧
      Steps (.start { tapeLength := 1, cells := 1, maxStreams := 1 } p []) es s ∧
      sentBy (pastOf 0 es) <+: frames ∧
      (∃ acts u, Steps s (acts.map (0, ·)) u ∧ sentBy (pastOf 0 es ++ acts) = frames) ∧
      Steps (.start { tapeLength := 1, cells := 1, maxStreams := 1 } p []) fs t ∧
      sentBy (pastOf 0 fs) = frames ∧
      ((Server.new { tapeLength := 1, cells := 1, maxStreams := 1 } p []).connect.receiveAll 0).1
        = frames ∧
      frames.map (·.step) = [1, 2, 2] := by
  have hload : Program.load [43, 62] = .ok ⟨#[.increment, .moveRight], #[0, 1], #[none, none]⟩ := rfl
  have hfirst := ((((Steps.refl (s := .start { tapeLength := 1, cells := 1, maxStreams := 1 }
    ⟨#[.increment, .moveRight], #[0, 1], #[none, none]⟩ [])).snoc .arrive).snoc
    (.acquire (i := 0) rfl rfl rfl)).snoc (.act (i := 0) rfl (.run rfl))).snoc
    (.act (i := 0) rfl (.send rfl))
  have hlast := ((((hfirst.snoc (.act (i := 0) rfl (.run rfl))).snoc
    (.act (i := 0) rfl (.send rfl))).snoc (.act (i := 0) rfl (.run rfl))).snoc
    (.act (i := 0) rfl (.sendLast rfl))).snoc (.release (i := 0) rfl rfl)
  obtain ⟨⟨m, budget, rs, frames, hm, -, -, -, -, -, -, hsent, hread⟩, -⟩ :=
    stream_is_the_run { tapeLength := 1, cells := 1, maxStreams := 1 }
      ⟨#[.increment, .moveRight], #[0, 1], #[none, none]⟩ []
  cases hm
  obtain ⟨hpart, -, hon⟩ := hsent _ _ 0 _ hfirst rfl (by decide) (by decide) rfl
  obtain ⟨acts, u, hsteps, -, -, hall⟩ := hon rfl
  obtain ⟨-, hover, -⟩ := hsent _ _ 0 _ hlast rfl (by decide) (by decide) rfl
  have hwhole := hover rfl
  have hseated : (Server.new { tapeLength := 1, cells := 1, maxStreams := 1 }
      ⟨#[.increment, .moveRight], #[0, 1], #[none, none]⟩ []).connect.connections[0]?
        = some { phase := .streaming 0 (.start
          ⟨#[.increment, .moveRight], #[0, 1], #[none, none]⟩ 1 []) } := by
    cbv
  obtain ⟨hframes, -⟩ := hread _ 0 0 (by cbv) (by cbv) hseated
  exact ⟨_, _, _, _, _, frames, hload, hfirst, hpart, ⟨acts, u, hsteps, hall⟩, hlast, hwhole, hframes,
    hwhole ▸ rfl⟩

end Web

end TapeMachine
