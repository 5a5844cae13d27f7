/-
What the page shows of the frames that are sent.

The page draws the cells of a message before it looks whether this is the end. Frames of steps and of runs that
halted have a tape, so it draws them. The busy frame has none: there the script fails, and a visitor who found
no place is not told so.

* `Frame.members`, `Frame.parse?_json`: the members of the text of a frame;
* `Frame.screen?`, `receive?_json`: what the page makes of them;
* `Handler.SendsTapes`, `Steps.sent_cases`: which frames a handler sends;
* `page_shows_every_frame_but_busy`: what the page shows of all frames that are sent.
-/
import TapeMachine.Proofs.Text.Json
import TapeMachine.Proofs.Web.Json
import TapeMachine.Proofs.Web.Server
import TapeMachine.Web.Screen

namespace TapeMachine

namespace Web

open JsonString (quote)

namespace Frame

/-! ### The text of a frame -/

/-- What stopped the run of a frame, if anything did. -/
def stop? (f : Frame) : Option Stop :=
  match f.ending with
  | some (.halted _ stop) => stop
  | _ => none

/-- The cells of a frame, which are an array if there are any. -/
def tapeValue : Option Bytes → Json
  | none => .null
  | some cells => .array (cells.map fun b => .number b.toNat)

/-- The position of a frame. -/
def position (f : Frame) : Int :=
  f.action.elim (-1) fun (_, position) => position

/-- The members of a frame, in order. -/
def members (f : Frame) : List (String × Json) :=
  [("step", .number f.step)] ++
    (f.action.map fun (c, _) => ("command", .text c.symbol)).toList ++
    [("position", .number f.position),
      ("tape", tapeValue f.tape),
      ("pointer", .number f.pointer),
      ("pc", .number f.pc),
      ("output", .text (Display.output f.output))] ++
    (f.ending.map fun e => ("halt", .text e.name)).toList ++
    (f.stop?.map fun s => ("fault", .text s.message)).toList

theorem reads_tapeJson (tape : Option Bytes) : Json.Reads 2 (tapeJson tape).toList (tapeValue tape) := by
  rcases tape with _ | cells
  · exact Json.reads_null.mono (by decide)
  · have htext : (tapeJson (some cells)).toList
        = '[' :: ([','].intercalate (cells.map fun b => (decimal b.toNat).toList) ++ [']']) := by
      rw [tapeJson, String.toList_append, String.toList_append, String.toList_intercalate, List.map_map]
      rfl
    rw [htext]
    refine Json.reads_array ?_
    rw [List.forall₂_map_left_iff, List.forall₂_map_right_iff, List.forall₂_same]
    exact fun b _ => Json.reads_decimal b.toNat

/-- A field of the text, and the member that it is read as. -/
def IsMember (field : String × String) (member : String × Json) : Prop :=
  field.1 = member.1 ∧ Json.Reads 2 field.2.toList member.2

theorem forall₂_fields (f : Frame) : List.Forall₂ IsMember f.fields f.members := by
  have hnumber : ∀ n, Json.Reads 2 (decimal n).toList (.number n) := fun n =>
    (Json.reads_decimal n).mono (by decide)
  have hminus : Json.Reads 2 ['-', '1'] (.number (-1)) := (Json.reads_decimalInt (-1)).mono (by decide)
  have htext : ∀ s, Json.Reads 2 (quote s).toList (.text s) := fun s => (Json.reads_quote s).mono (by decide)
  have htape := reads_tapeJson f.tape
  unfold fields members stop? position
  rcases f.action with _ | ⟨c, position⟩ <;> rcases f.ending with _ | ⟨reason, _ | stop⟩ | _ <;>
    simp [IsMember, hnumber, hminus, htext, htape]

/-- **A frame is read back** from its text. -/
theorem parse?_json (f : Frame) : Json.parse? f.json = some (.object f.members) := by
  have hmembers : List.Forall₂ (fun t member => ∃ v,
      t = (quote member.1).toList ++ ':' :: v ∧ Json.Reads 2 v member.2) (f.fields.map member) f.members := by
    rw [List.forall₂_map_left_iff]
    refine f.forall₂_fields.imp ?_
    rintro ⟨name, text⟩ ⟨_, j⟩ ⟨rfl, hreads⟩
    refine ⟨text.toList, ?_, hreads⟩
    rw [member, String.toList_append, String.toList_append, List.append_assoc]
    rfl
  have hreads := Json.reads_object hmembers
  rw [← toList_json_eq] at hreads
  refine hreads.parse? ?_
  have hlength := congrArg List.length f.toList_json_eq
  rw [String.length_toList, List.length_cons, List.length_append, List.length_singleton] at hlength
  omega

theorem nodup_names_members (f : Frame) : (f.members.map Prod.fst).Nodup := by
  unfold members stop? position
  rcases f.action with _ | ⟨c, position⟩ <;> rcases f.ending with _ | ⟨reason, _ | stop⟩ | _ <;> simp

theorem member?_eq_some_iff {f : Frame} {name : String} {j : Json} :
    Json.member? name (.object f.members) = some j ↔ (name, j) ∈ f.members :=
  Json.member?_object_eq_some_iff f.nodup_names_members

/-! ### What the page shows -/

/-- The line about a frame. -/
def line (f : Frame) : Line :=
  match f.ending with
  | none =>
    .step (some (.number f.step)) (f.action.map fun (c, _) => .text c.symbol) (some (.number f.position))
      (some (.number f.pc))
  | some e => .halt (some (.number f.step)) (some (.text e.name)) (f.stop?.map fun s => .text s.message)

/-- What the page shows of a frame, if it has cells. -/
def screen? (f : Frame) : Option Screen :=
  f.tape.map fun cells =>
    { cells := cells.zipIdx.map fun (b, i) =>
        ⟨.number b.toNat, Screen.sign (.number b.toNat), decide (f.pointer = i)⟩
      output := some (.text (Display.output f.output))
      line := f.line }

theorem isTrue_name (e : Ending) : Screen.isTrue (some (.text e.name)) = true := by
  cases e with
  | halted reason => cases reason <;> rfl
  | busy => rfl

/-- The line tells of a step, or of the end and of what stopped the run. -/
theorem lineOf_members (f : Frame) : Screen.lineOf (.object f.members) = f.line := by
  have hstep : Json.member? "step" (.object f.members) = some (.number f.step) :=
    member?_eq_some_iff.mpr (by simp [members])
  have hposition : Json.member? "position" (.object f.members) = some (.number f.position) :=
    member?_eq_some_iff.mpr (by simp [members])
  have hpc : Json.member? "pc" (.object f.members) = some (.number f.pc) :=
    member?_eq_some_iff.mpr (by simp [members])
  have hcommand : Json.member? "command" (.object f.members) = f.action.map fun (c, _) => .text c.symbol :=
    Option.ext fun j => member?_eq_some_iff.trans (by simp [members, eq_comm])
  have hhalt : Json.member? "halt" (.object f.members) = f.ending.map fun e => .text e.name :=
    Option.ext fun j => member?_eq_some_iff.trans (by simp [members, eq_comm])
  have hfault : Json.member? "fault" (.object f.members) = f.stop?.map fun s => .text s.message :=
    Option.ext fun j => member?_eq_some_iff.trans (by simp [members, eq_comm])
  rw [Screen.lineOf, hstep, hposition, hpc, hcommand, hhalt, hfault, line]
  rcases f.ending with _ | e
  · rfl
  · rw [Option.map_some, isTrue_name, if_pos rfl]

theorem cells?_members (f : Frame) : Screen.cells? (.object f.members) = f.tape.map fun cells =>
    cells.zipIdx.map fun (b, i) =>
      ⟨.number b.toNat, Screen.sign (.number b.toNat), decide (f.pointer = i)⟩ := by
  have htape : Json.member? "tape" (.object f.members) = some (tapeValue f.tape) :=
    member?_eq_some_iff.mpr (by simp [members])
  have hpointer : Json.member? "pointer" (.object f.members) = some (.number f.pointer) :=
    member?_eq_some_iff.mpr (by simp [members])
  rw [Screen.cells?, htape, hpointer]
  rcases f.tape with _ | cells
  · rfl
  · have hindex : ∀ i, Screen.isIndex i (some (.number f.pointer)) = decide (f.pointer = i) := fun i =>
      decide_eq_decide.mpr Int.ofNat_inj
    rw [tapeValue, Option.map_some]
    dsimp only
    rw [List.zipIdx_map, List.map_map]
    simp only [hindex]
    rfl

/-- **The page shows the cells, the output and the line of a frame**, and fails if it has no cells. -/
theorem receive?_json (f : Frame) : Screen.receive? f.json = f.screen? := by
  have houtput : Json.member? "output" (.object f.members) = some (.text (Display.output f.output)) :=
    member?_eq_some_iff.mpr (by simp [members])
  rw [Screen.receive?, f.parse?_json]
  dsimp only [Option.bind_eq_bind, Option.bind_some]
  rw [f.cells?_members, f.lineOf_members, houtput, screen?]
  cases f.tape <;> rfl

end Frame

/-! ### The frames that are sent -/

/-- Every frame of a stream has a tape. -/
theorem Stream.tape_next_ne (l : Limits) (canceled : Bool) (m : Machine) :
    (Stream.next l canceled m).1.tape ≠ none := by
  rw [next]
  split
  · exact Option.some_ne_none _
  · split
    · exact Option.some_ne_none _
    · split <;> exact Option.some_ne_none _

/-- Every frame that a handler has sent or is sending has a tape, the busy one apart. -/
structure Handler.SendsTapes (h : Handler) (past : List Act) : Prop where
  sent : ∀ f, .sent f ∈ past → f = .busy ∨ f.tape ≠ none
  sending : ∀ f rest, h.stage = .sending f rest → f.tape ≠ none

namespace Handler

variable {l : Limits} {program : Program} {input : Bytes} {h h' : Handler} {past acts : List Act}

theorem sendsTapes_arrived : SendsTapes {} [.arrived] where
  sent _ hf := nomatch List.mem_singleton.mp hf
  sending _ _ hstage := Stage.noConfusion hstage

theorem SendsTapes.append (hsends : h.SendsTapes past)
    (hsent : ∀ f, .sent f ∈ acts → f = .busy ∨ f.tape ≠ none)
    (hsending : ∀ f rest, h'.stage = .sending f rest → f.tape ≠ none) : h'.SendsTapes (past ++ acts) where
  sent f hf := (List.mem_append.mp hf).elim (hsends.sent f) (hsent f)
  sending := hsending

/-- **No move sends a frame without a tape**, the busy one apart. -/
theorem SendsTapes.moves (hsends : h.SendsTapes past) (hmoves : h.Moves l program input acts h') :
    h'.SendsTapes (past ++ acts) := by
  cases hmoves with
  | acquire | release => exact hsends.append (by simp) fun _ _ hstage => Stage.noConfusion hstage
  | does hdoes =>
    cases hdoes with
    | expire | interrupt => exact hsends.append (by simp) hsends.sending
    | giveUp | stop | fail | failBusy => exact hsends.append (by simp) fun _ _ hstage => Stage.noConfusion hstage
    | run =>
      refine hsends.append (by simp) fun f rest hstage => ?_
      cases hstage
      exact Stream.tape_next_ne l _ _
    | send hstage | sendLast hstage =>
      refine hsends.append (fun f hf => ?_) fun _ _ hstage => Stage.noConfusion hstage
      cases List.mem_singleton.mp hf
      exact .inr (hsends.sending _ _ hstage)
    | dismiss =>
      refine hsends.append (fun f hf => ?_) fun _ _ hstage => Stage.noConfusion hstage
      cases List.mem_singleton.mp hf
      exact .inl rfl

end Handler

namespace Handlers

variable {o : Options} {program : Program} {input : Bytes} {s : Handlers} {es : List (Nat × Act)}
variable {i : Nat} {h : Handler} {f : Frame}

theorem Steps.sendsTapes (hsteps : Steps (start o program input) es s) (hi : s.all[i]? = some h) :
    h.SendsTapes (pastOf i es) :=
  hsteps.each (P := Handler.SendsTapes) Handler.sendsTapes_arrived
    (fun hsends hmoves => hsends.moves hmoves) hi

/-- **A handler that has a place sends frames with a tape**, and one that gave up sends the busy frame. -/
theorem Steps.sent_cases (hsteps : Steps (start o program input) es s) (hi : s.all[i]? = some h)
    (hf : .sent f ∈ pastOf i es) :
    (.acquired ∈ pastOf i es ∧ ∃ cells, f.tape = some cells) ∨ (.gaveUp ∈ pastOf i es ∧ f = .busy) := by
  have hsent := (hsteps.sendsTapes hi).sent f hf
  -- of all pasts two hold a frame that was sent: that of a handler with a place, and that of one turned away
  rcases (hsteps.keeps_past hi).cases with ⟨tail, ⟨frames, hframes, hpast⟩, htail, -⟩ | hpast | hpast |
    hpast | hpast
  · rw [hpast] at hf ⊢
    have hmem : f ∈ frames := by
      have hother : Act.sent f ∉ tail := fun hmem => by simpa using htail _ hmem
      simpa [hother] using hf
    have hbusy : f ≠ .busy := by
      rintro rfl
      exact hframes _ hmem rfl
    exact .inl ⟨by simp, Option.ne_none_iff_exists'.mp (hsent.resolve_left hbusy)⟩
  · rw [hpast] at hf
    simp at hf
  · rw [hpast] at hf
    simp at hf
  · rw [hpast] at hf ⊢
    exact .inr ⟨by simp, by simpa using hf⟩
  · rw [hpast] at hf
    simp at hf

theorem sent_mem_pastOf (hf : (i, f) ∈ sentIn es) : .sent f ∈ pastOf i es := by
  obtain ⟨⟨j, act⟩, hmem, heq⟩ := List.mem_filterMap.mp hf
  cases act with
  | sent frame =>
    cases heq
    exact List.mem_filterMap.mpr ⟨(i, .sent f), hmem, if_pos rfl⟩
  | arrived | acquired | gaveUp | failed | released => cases heq

theorem Steps.exists_handler (hsteps : Steps (start o program input) es s) (hf : .sent f ∈ pastOf i es) :
    ∃ h, s.all[i]? = some h := by
  rcases hi : s.all[i]? with _ | h
  · rw [hsteps.pastOf_of_le (List.getElem?_eq_none_iff.mp hi)] at hf
    cases hf
  · exact ⟨h, rfl⟩

end Handlers

open Handlers in
/-- **The page shows every frame but the busy one.** Whatever is done by any number of handlers, and in whatever
order: the text of each frame that is sent is read back. A handler that has a place sends frames whose tape is
the array of their cells, and the page shows their cells, output and line. A handler that gave up sends the busy
frame, whose tape is null; the page fails at it, before it comes to the reason. The same holds of the frames
that are read by visitors, whatever these do, and every server may come to send the busy frame. -/
theorem page_shows_every_frame_but_busy (o : Options) (program : Program) (input : Bytes) :
    (∀ (es : List (Nat × Act)) (s : Handlers), Steps (.start o program input) es s →
      ∀ (i : Nat) (h : Handler), s.all[i]? = some h → ∀ f, .sent f ∈ pastOf i es →
        ∃ message, Json.parse? f.json = some message ∧
          ((.acquired ∈ pastOf i es ∧ ∃ cells screen, f.tape = some cells ∧ f.screen? = some screen ∧
              message.member? "tape" = some (.array (cells.map fun b => .number b.toNat)) ∧
              Screen.receive? f.json = some screen) ∨
            (.gaveUp ∈ pastOf i es ∧ f = .busy ∧ message.member? "tape" = some .null ∧
              message.member? "halt" = some (.text "busy") ∧ Screen.receive? f.json = none))) ∧
    (∀ (vs : List Visit) (i : Nat) (f : Frame), (i, f) ∈ (Server.visitAll vs (.new o program input)).1 →
      (Screen.receive? f.json = none ↔ f = .busy)) ∧
    ∃ es s, Steps (.start o program input) es s ∧ .sent .busy ∈ pastOf 0 es := by
  refine ⟨fun es s hsteps i h hi f hf => ⟨_, f.parse?_json, ?_⟩, fun vs i f hf => ?_, ?_⟩
  · have htape : Json.member? "tape" (.object f.members) = some (Frame.tapeValue f.tape) :=
      Frame.member?_eq_some_iff.mpr (by simp [Frame.members])
    rcases hsteps.sent_cases hi hf with ⟨hacquired, cells, hcells⟩ | ⟨hgaveUp, rfl⟩
    · obtain ⟨screen, hscreen⟩ : ∃ screen, f.screen? = some screen := by
        rw [Frame.screen?, hcells]
        exact ⟨_, rfl⟩
      rw [hcells] at htape
      exact .inl ⟨hacquired, cells, screen, hcells, hscreen, htape, f.receive?_json.trans hscreen⟩
    · have hhalt : Json.member? "halt" (.object Frame.busy.members) = some (.text "busy") :=
        Frame.member?_eq_some_iff.mpr (by simp [Frame.members, Frame.busy, Ending.name])
      exact .inr ⟨hgaveUp, rfl, htape, hhalt, Frame.receive?_json .busy⟩
  · obtain ⟨es, s, hsteps, hsent, -⟩ := Server.mimics_visitAll vs _ _ (accounted_start o program input)
      (Server.shows_new o program input)
    rw [← hsent] at hf
    -- a frame that is read was sent by some handler, so one of the two cases above holds
    have hpast := sent_mem_pastOf hf
    obtain ⟨h, hi⟩ := hsteps.exists_handler hpast
    rw [f.receive?_json]
    rcases hsteps.sent_cases hi hpast with ⟨-, cells, hcells⟩ | ⟨-, rfl⟩
    · rw [Frame.screen?, hcells]
      refine ⟨nofun, ?_⟩
      rintro rfl
      cases hcells
    · exact ⟨fun _ => rfl, fun _ => rfl⟩
  · -- a handler that waits too long is sent the busy frame
    have hsteps := ((((Steps.refl (s := .start o program input)).snoc .arrive).snoc
      (.act (i := 0) rfl (.expire _))).snoc (.act (i := 0) rfl (.giveUp rfl (.inl rfl)))).snoc
      (.act (i := 0) rfl (.dismiss rfl))
    exact ⟨_, _, hsteps, by simp [pastOf]⟩

/-- Two visitors of a server with one place. The page shows the first one a step, and nothing to the second
one, who waits in vain. -/
theorem page_shows_every_frame_but_busy_to_second_visitor :
    ∃ p f, Program.load [43] = .ok p ∧
      (Server.visitAll [.connect, .connect, .receive 0 1, .receive 1 1]
        (.new { tapeLength := 2, maxSteps := 1, maxStreams := 1, queueTimeout := 20, cells := 1 } p [])).1
          = [(0, f), (1, .busy)] ∧
      Screen.receive? f.json ≠ none ∧ Screen.receive? Frame.busy.json = none := by
  have hload : Program.load [43] = .ok ⟨#[.increment], #[0], #[none]⟩ := rfl
  have hvisits : (Server.visitAll [.connect, .connect, .receive 0 1, .receive 1 1]
      (.new { tapeLength := 2, maxSteps := 1, maxStreams := 1, queueTimeout := 20, cells := 1 }
        ⟨#[.increment], #[0], #[none]⟩ [])).1
          = [(0, { step := 1, action := some (.increment, 0), tape := some [1], pc := 1 }), (1, .busy)] := by
    decide +kernel
  obtain ⟨-, hshown, -⟩ := page_shows_every_frame_but_busy
    { tapeLength := 2, maxSteps := 1, maxStreams := 1, queueTimeout := 20, cells := 1 }
    ⟨#[.increment], #[0], #[none]⟩ []
  have hfirst := hshown [.connect, .connect, .receive 0 1, .receive 1 1] 0 _
    (hvisits ▸ List.mem_cons_self)
  have hsecond := hshown [.connect, .connect, .receive 0 1, .receive 1 1] 1 .busy
    (hvisits ▸ List.mem_cons_of_mem _ List.mem_cons_self)
  exact ⟨_, _, hload, hvisits, fun hnone => absurd (hfirst.mp hnone) (by decide), hsecond.mpr rfl⟩

end Web

end TapeMachine
