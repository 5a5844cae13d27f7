/-
The server runs its handlers in one of their interleavings.

It keeps the connections in one table, lets the clock decide what happens next, and gives a free place to the
connection that has waited longest. All that it does can be told of handlers that run side by side, act by
act, with the frames in the order in which they are read.

* `Visit`, `Server.visitAll`: what visitors, the clock and the end of the server do;
* `Phase.ShownBy`, `Server.Shows`: a state of the handlers that a state of the server stands for;
* `Server.Mimics`: the handlers can follow the server from one state to another;
* `mimics_visitAll`: they can, whatever is done;
* `places_are_never_leaked`: so the server keeps to its number of places, and loses none.
-/
import TapeMachine.Proofs.Web.Handlers
import TapeMachine.Web.Server

namespace TapeMachine.Web

/-- A server has a place at least. -/
theorem one_le_maxStreams (o : Options) : 1 ≤ o.limits.maxStreams := by
  show 1 ≤ positiveOr defaultMaxStreams o.maxStreams
  rw [positiveOr]
  split
  · decide
  · omega

/-- What visitors, the clock and the end of the server do. -/
inductive Visit where
  | connect
  | leave (i : Nat)
  | advance (time : Nat)
  | cancel
  /-- A visitor reads frames, and waits for those that are not there yet. -/
  | receive (i count : Nat)

namespace Server

/-- Does what a visit asks for; the frames that were read, with the connection that they were read from. -/
def visit (s : Server) : Visit → List (Nat × Frame) × Server
  | .connect => ([], s.connect)
  | .leave i => ([], s.leave i)
  | .advance time => ([], s.advance time)
  | .cancel => ([], s.cancel)
  | .receive i count => ((receive i count s).1.map (i, ·), (receive i count s).2.2)

/-- Visits one after the other. -/
def visitAll : List Visit → Server → List (Nat × Frame) × Server
  | [], s => ([], s)
  | v :: vs, s => ((s.visit v).1 ++ (visitAll vs (s.visit v).2).1, (visitAll vs (s.visit v).2).2)

end Server

/-! ### Acts of one handler in a row -/

/-- Acts of one handler by itself, one after the other. -/
inductive Handler.DoesAll (l : Limits) : Handler → List Act → Handler → Prop
  | refl (h : Handler) : DoesAll l h [] h
  | cons {h h' h'' : Handler} {acts more : List Act} (hdoes : h.Does l acts h')
      (hrest : DoesAll l h' more h'') : DoesAll l h (acts ++ more) h''

theorem Handler.DoesAll.one {l : Limits} {h h' : Handler} {acts : List Act} (hdoes : h.Does l acts h') :
    h.DoesAll l acts h' := by
  have hall := Handler.DoesAll.cons hdoes (.refl h')
  rwa [List.append_nil] at hall

namespace Handlers

variable {s t u : Handlers} {es fs : List (Nat × Act)} {i : Nat} {h h' : Handler} {acts : List Act}

/-- The frames that were sent, with the handlers that sent them. -/
def sentIn (es : List (Nat × Act)) : List (Nat × Frame) :=
  es.filterMap fun
    | (i, .sent frame) => some (i, frame)
    | _ => none

@[simp] theorem sentIn_nil : sentIn [] = [] := rfl

@[simp] theorem sentIn_append (es fs : List (Nat × Act)) :
    sentIn (es ++ fs) = sentIn es ++ sentIn fs :=
  List.filterMap_append

/-- Handlers of which one has moved. -/
def put (s : Handlers) (i : Nat) (h : Handler) : Handlers :=
  { s with all := s.all.set i h }

theorem put_put (s : Handlers) (i : Nat) (h h' : Handler) : (s.put i h).put i h' = s.put i h' := by
  rw [put, put, put, List.set_set]

theorem put_self (hi : s.all[i]? = some h) : s.put i h = s := by
  obtain ⟨hlt, rfl⟩ := List.getElem?_eq_some_iff.mp hi
  rw [put, List.set_getElem_self]

theorem get_put (hi : s.all[i]? = some h) (h' : Handler) : (s.put i h').all[i]? = some h' := by
  obtain ⟨hlt, -⟩ := List.getElem?_eq_some_iff.mp hi
  exact List.getElem?_set_self hlt

/-- No step changes the number of places. -/
theorem Steps.capacity_eq (hsteps : Steps s es t) : t.slots.capacity = s.slots.capacity := by
  induction hsteps with
  | refl => rfl
  | snoc _ hstep ih =>
    refine Eq.trans ?_ ih
    cases hstep with
    | arrive | act => rfl
    | acquire _ _ hfree =>
      rw [Slots.acquire?] at hfree
      split at hfree
      · cases hfree
        rfl
      · cases hfree
    | release =>
      rw [Slots.release?]
      split <;> rfl

/-- What a handler does by itself it can do among the others. -/
theorem steps_put (hdoes : h.DoesAll s.limits acts h') (hi : s.all[i]? = some h) :
    Steps s (acts.map (i, ·)) (s.put i h') := by
  generalize hl : s.limits = l at hdoes
  induction hdoes generalizing s with
  | refl h =>
    rw [put_self hi]
    exact .refl
  | @cons h h' h'' acts more hdoes _ ih =>
    subst hl
    have hfirst : Steps s (acts.map (i, ·)) (s.put i h') := .single (.act hi hdoes)
    have hrest := ih (get_put hi h') rfl
    rw [put_put] at hrest
    rw [List.map_append]
    exact hfirst.trans hrest

/-- A handler that comes to leave gives its place back. -/
theorem steps_leave (hdoes : h.DoesAll s.limits acts h') (hi : s.all[i]? = some h)
    (hstage : h'.stage = .leaving) :
    Steps s ((acts ++ [Act.released]).map (i, ·))
      { s.put i { h' with stage := .finished } with slots := s.slots.release?.getD s.slots } := by
  have hrelease := Step.release (get_put hi h') hstage
  have hset : (s.put i h').all.set i { h' with stage := .finished }
      = s.all.set i { h' with stage := .finished } := List.set_set ..
  rw [hset] at hrelease
  rw [List.map_append]
  exact (steps_put hdoes hi).snoc hrelease

end Handlers

/-! ### The handlers behind a server -/

/-- A phase of a connection stands for the stage of its handler. -/
def Phase.ShownBy (canceled : Bool) (h : Handler) : Phase → Prop
  | waiting _ => h.stage = .waiting ∧ h.interrupted = canceled
  | streaming _ machine => h.stage = .running machine ∧ h.interrupted = canceled
  | cutOff frame => (∃ rest, h.stage = .sending frame rest) ∧ h.interrupted = true
  | refused => h.stage = .refused
  | ended => h.stage = .finished ∨ h.stage = .dismissed

/-- A connection that streams does not wait. -/
theorem Phase.isWaiting_of_isStreaming {p : Phase} (h : p.isStreaming = true) :
    p.isWaiting = false := by
  cases p with
  | waiting => cases h
  | streaming | cutOff | refused | ended => rfl

theorem Phase.ShownBy.hasPlace_eq {p : Phase} {canceled : Bool} {h : Handler}
    (hp : p.ShownBy canceled h) : h.stage.hasPlace = p.isStreaming := by
  cases p with
  | waiting | streaming =>
    rw [hp.1]
    rfl
  | cutOff =>
    obtain ⟨⟨rest, hstage⟩, -⟩ := hp
    rw [hstage]
    rfl
  | refused =>
    rw [show h.stage = .refused from hp]
    rfl
  | ended => rcases hp with hstage | hstage <;> (rw [hstage]; rfl)

namespace Server

open Handlers

/-- A state of the server stands for a state of its handlers. -/
structure Shows (s : Server) (hs : Handlers) : Prop where
  limits : hs.limits = s.limits
  program : hs.program = s.program
  input : hs.input = s.input
  slots : hs.slots = s.slots
  size : hs.all.length = s.connections.size
  phase : ∀ (i : Nat) (c : Connection), s.connections[i]? = some c →
    ∃ h, hs.all[i]? = some h ∧ c.phase.ShownBy s.canceled h

variable {s t u : Server} {hs : Handlers} {i : Nat} {c : Connection} {h h' : Handler} {p : Phase}
variable {frames more : List (Nat × Frame)}

theorem shows_new (o : Options) (program : Program) (input : Bytes) :
    (new o program input).Shows (.start o program input) where
  limits := rfl
  program := rfl
  input := rfl
  slots := rfl
  size := rfl
  phase := fun _ _ hi => nomatch hi

theorem getElem?_move (s : Server) (i j : Nat) (p : Phase) : (s.move i p).connections[j]?
    = if i = j then s.connections[j]?.map fun c => { c with phase := p } else s.connections[j]? :=
  Array.getElem?_modify

theorem size_move (s : Server) (i : Nat) (p : Phase) :
    (s.move i p).connections.size = s.connections.size :=
  Array.size_modify

/-- A connection moves, and its handler with it. -/
theorem Shows.move (hshows : s.Shows hs) (hi : hs.all[i]? = some h) (hp : p.ShownBy s.canceled h')
    (slots : Slots) :
    (move { s with slots } i p).Shows { hs.put i h' with slots } where
  limits := hshows.limits
  program := hshows.program
  input := hshows.input
  slots := rfl
  size := by
    rw [size_move, put, List.length_set]
    exact hshows.size
  phase := by
    intro j c hc
    rw [getElem?_move] at hc
    split at hc
    · next hij =>
      subst hij
      obtain ⟨c', -, rfl⟩ := Option.map_eq_some_iff.mp hc
      exact ⟨h', get_put hi h', hp⟩
    · next hij =>
      obtain ⟨k, hk, hshown⟩ := hshows.phase j c hc
      exact ⟨k, (List.getElem?_set_ne hij).trans hk, hshown⟩

/-- The places in use are those of the connections that stream. -/
theorem Shows.streaming_eq (hshows : s.Shows hs) :
    hs.streaming = (s.connections.filter (·.phase.isStreaming)).size := by
  have hmap : hs.all.map (·.stage.hasPlace) = s.connections.toList.map (·.phase.isStreaming) := by
    refine List.ext_getElem? fun i => ?_
    rw [List.getElem?_map, List.getElem?_map, Array.getElem?_toList]
    rcases hc : s.connections[i]? with _ | c
    · rw [Array.getElem?_eq_none_iff, ← hshows.size] at hc
      rw [List.getElem?_eq_none hc]
      rfl
    · obtain ⟨h, hh, hshown⟩ := hshows.phase i c hc
      rw [hh, Option.map_some, Option.map_some, hshown.hasPlace_eq]
  have hcount := congrArg (List.countP id) hmap
  rw [List.countP_map, List.countP_map] at hcount
  rw [← Array.countP_eq_size_filter, ← Array.countP_toList]
  exact hcount

/-- The handlers can follow the server from one state to another, and send the frames. -/
def Mimics (frames : List (Nat × Frame)) (s t : Server) : Prop :=
  ∀ hs : Handlers, hs.Accounted → s.Shows hs →
    ∃ es ht, Steps hs es ht ∧ sentIn es = frames ∧ t.Shows ht

theorem Mimics.refl (s : Server) : Mimics [] s s :=
  fun hs _ hshows => ⟨[], hs, .refl, rfl, hshows⟩

theorem Mimics.trans (hst : Mimics frames s t) (htu : Mimics more t u) :
    Mimics (frames ++ more) s u := by
  intro hs haccounted hshows
  obtain ⟨es, ht, hsteps, hsent, hshows'⟩ := hst hs haccounted hshows
  obtain ⟨fs, hu, hsteps', hsent', hshows''⟩ := htu ht (hsteps.accounted haccounted) hshows'
  refine ⟨es ++ fs, hu, hsteps.trans hsteps', ?_, hshows''⟩
  rw [sentIn_append, hsent, hsent']

/-- What sends nothing may come first. -/
theorem Mimics.then (hst : Mimics [] s t) (htu : Mimics frames t u) : Mimics frames s u :=
  hst.trans htu

/-- The clock is nothing that handlers know of, and neither is who has left. -/
theorem Mimics.of_shows (hshown : ∀ hs, s.Shows hs → t.Shows hs) : Mimics [] s t :=
  fun hs _ hshows => ⟨[], hs, .refl, rfl, hshown hs hshows⟩

/-- A connection moves because of what its handler does by itself. -/
theorem mimics_move (hc : s.connections[i]? = some c)
    (hdoes : ∀ h, c.phase.ShownBy s.canceled h →
      ∃ acts h', h.DoesAll s.limits acts h' ∧ sentIn (acts.map (i, ·)) = frames ∧
        p.ShownBy s.canceled h') : Mimics frames s (s.move i p) := by
  intro hs _ hshows
  obtain ⟨h, hi, hshown⟩ := hshows.phase i c hc
  obtain ⟨acts, h', hacts, hsent, hp⟩ := hdoes h hshown
  rw [← hshows.limits] at hacts
  have hmoved := hshows.move hi hp s.slots
  have hsame : { hs.put i h' with slots := s.slots } = hs.put i h' := by
    rw [← hshows.slots]
    rfl
  rw [hsame] at hmoved
  exact ⟨_, _, steps_put hacts hi, hsent, hmoved⟩

/-! ### Places -/

/-- A free place goes to the connection that has waited longest. -/
theorem mimics_seat (s : Server) : Mimics [] s s.seat := by
  rw [seat]
  split
  · next slots i hfree hfind =>
    intro hs _ hshows
    obtain ⟨hlt, hwaiting, -⟩ := Array.findIdx?_eq_some_iff_getElem.mp hfind
    obtain ⟨h, hi, hshown⟩ := hshows.phase i s.connections[i] (Array.getElem?_eq_getElem hlt)
    cases hphase : s.connections[i].phase with
    | waiting deadline =>
      rw [hphase] at hshown
      rw [← hshows.slots] at hfree
      -- the place is free for the handler too, since both count the same places
      have hacquire := Step.acquire hi hshown.1 hfree
      have hmachine : Machine.start hs.program hs.limits.tapeLength hs.input
          = .start s.program s.limits.tapeLength s.input := by
        rw [hshows.program, hshows.limits, hshows.input]
      rw [hmachine] at hacquire
      have hp : Phase.ShownBy s.canceled
          { h with stage := .running (.start s.program s.limits.tapeLength s.input) }
          (.streaming s.now (.start s.program s.limits.tapeLength s.input)) := ⟨rfl, hshown.2⟩
      exact ⟨_, _, .single hacquire, rfl, hshows.move hi hp slots⟩
    | streaming | cutOff | refused | ended =>
      rw [hphase] at hwaiting
      cases hwaiting
  · exact .refl s

/-- A stream ends, and its place goes to the next connection. -/
theorem mimics_finish (hc : s.connections[i]? = some c)
    (hdoes : ∀ h, c.phase.ShownBy s.canceled h →
      ∃ acts h', h.DoesAll s.limits acts h' ∧ sentIn (acts.map (i, ·)) = frames ∧
        h'.stage = .leaving) : Mimics frames s (s.finish i) := by
  have hended : Mimics frames s
      { s.move i .ended with slots := s.slots.release?.getD s.slots } := by
    intro hs _ hshows
    obtain ⟨h, hi, hshown⟩ := hshows.phase i c hc
    obtain ⟨acts, h', hacts, hsent, hstage⟩ := hdoes h hshown
    rw [← hshows.limits] at hacts
    have hleave := steps_leave hacts hi hstage
    rw [hshows.slots] at hleave
    have hp : Phase.ShownBy s.canceled { h' with stage := .finished } .ended := .inl rfl
    refine ⟨_, _, hleave, ?_, hshows.move hi hp _⟩
    rw [List.map_append, sentIn_append, hsent]
    exact List.append_nil _
  have hseat := mimics_seat { s.move i .ended with slots := s.slots.release?.getD s.slots }
  have hboth := hended.trans hseat
  rw [List.append_nil] at hboth
  exact hboth

end Server

/-! ### What the handler of a connection can do -/

namespace Phase.ShownBy

variable {l : Limits} {h : Handler} {canceled : Bool}

/-- A handler that waits gives up when its time is over. -/
theorem expires {deadline : Nat} (hp : (waiting deadline).ShownBy canceled h) :
    ∃ h', h.DoesAll l [.gaveUp] h' ∧ refused.ShownBy canceled h' :=
  ⟨_, .cons (.expire h) (.one (.giveUp hp.1 (.inl rfl))), rfl⟩

/-- A handler that streams leaves when its frame cannot be sent. -/
theorem breaks {p : Phase} (hp : p.ShownBy canceled h) (hstreaming : p.isStreaming = true) :
    ∃ h', h.DoesAll l [.failed] h' ∧ h'.stage = .leaving := by
  cases p with
  | streaming time machine => exact ⟨_, .cons (.run hp.1) (.one (.fail rfl)), rfl⟩
  | cutOff frame =>
    obtain ⟨⟨rest, hstage⟩, -⟩ := hp
    exact ⟨_, .one (.fail hstage), rfl⟩
  | waiting | refused | ended => cases hstreaming

/-- A handler sends the next frame of its stream and goes on. -/
theorem sends {time : Nat} {m m' : Machine} {frame : Frame}
    (hp : (streaming time m).ShownBy canceled h)
    (hnext : Stream.next l canceled m = (frame, some m')) (time' : Nat) :
    ∃ h', h.DoesAll l [.sent frame] h' ∧ (streaming time' m').ShownBy canceled h' := by
  obtain ⟨hstage, rfl⟩ := hp
  have hrun := Handler.Does.run (l := l) hstage
  rw [hnext] at hrun
  exact ⟨_, .cons hrun (.one (.send rfl)), ⟨rfl, rfl⟩⟩

/-- A handler sends the last frame of its stream and leaves. -/
theorem sendsLast {time : Nat} {m : Machine} {frame : Frame}
    (hp : (streaming time m).ShownBy canceled h)
    (hnext : Stream.next l canceled m = (frame, none)) :
    ∃ h', h.DoesAll l [.sent frame] h' ∧ h'.stage = .leaving := by
  obtain ⟨hstage, rfl⟩ := hp
  have hrun := Handler.Does.run (l := l) hstage
  rw [hnext] at hrun
  exact ⟨_, .cons hrun (.one (.sendLast rfl)), rfl⟩

/-- A handler that was interrupted while it sent a frame leaves behind it. -/
theorem sendsCutOff {frame : Frame} (hp : (cutOff frame).ShownBy canceled h) :
    ∃ h', h.DoesAll l [.sent frame] h' ∧ h'.stage = .leaving := by
  obtain ⟨⟨rest, hstage⟩, hinterrupted⟩ := hp
  cases rest with
  | none => exact ⟨_, .one (.sendLast hstage), rfl⟩
  | some m => exact ⟨_, .cons (.send hstage) (.one (.stop rfl hinterrupted)), rfl⟩

end Phase.ShownBy

namespace Server

open Handlers

variable {s t u : Server} {i : Nat} {c : Connection}

/-! ### What happens by itself -/

/-- Nobody reads the frame that is due, so the handler fails to send it and leaves. -/
theorem mimics_break (hc : s.connections[i]? = some c) (hstreaming : c.phase.isStreaming = true) :
    Mimics [] s (s.finish i) := by
  refine mimics_finish hc fun h hshown => ?_
  obtain ⟨h', hacts, hstage⟩ := hshown.breaks hstreaming
  exact ⟨_, h', hacts, rfl, hstage⟩

theorem mimics_fire (s : Server) (time i : Nat) : Mimics [] s (s.fire time i) := by
  rw [fire]
  refine Mimics.then (t := { s with now := max s.now time })
    (.of_shows fun hs hshows => ⟨hshows.1, hshows.2, hshows.3, hshows.4, hshows.5, hshows.6⟩) ?_
  dsimp only
  split
  · exact .refl _
  · next c hc =>
    split
    · next deadline hphase =>
      refine mimics_move hc fun h hshown => ?_
      rw [hphase] at hshown
      obtain ⟨h', hacts, hp⟩ := hshown.expires
      exact ⟨_, h', hacts, rfl, hp⟩
    · next hphase => exact mimics_break hc (by rw [hphase]; rfl)
    · next hphase => exact mimics_break hc (by rw [hphase]; rfl)
    · exact .refl _
    · exact .refl _

theorem mimics_settleUntil (time fuel : Nat) : ∀ s : Server, Mimics [] s (settleUntil time fuel s) := by
  induction fuel with
  | zero => exact .refl
  | succ fuel ih =>
    intro s
    rw [settleUntil]
    split
    · exact .refl s
    · next due i _ =>
      split
      · exact .refl s
      · exact (mimics_fire s due i).then (ih _)

theorem mimics_advance (s : Server) (time : Nat) : Mimics [] s (s.advance time) :=
  (mimics_settleUntil time s.fuel s).then
    (.of_shows fun _ hshows => ⟨hshows.1, hshows.2, hshows.3, hshows.4, hshows.5, hshows.6⟩)

theorem mimics_leave (s : Server) (i : Nat) : Mimics [] s (s.leave i) := by
  refine .of_shows fun hs hshows =>
    ⟨hshows.1, hshows.2, hshows.3, hshows.4, hshows.5.trans Array.size_modify.symm, ?_⟩
  intro j c hc
  rw [leave, Array.getElem?_modify] at hc
  split at hc
  · obtain ⟨c', hc', rfl⟩ := Option.map_eq_some_iff.mp hc
    exact hshows.phase j c' hc'
  · exact hshows.phase j c hc

theorem mimics_awaitPlace (i fuel : Nat) : ∀ s : Server, Mimics [] s (awaitPlace i fuel s) := by
  induction fuel with
  | zero => exact .refl
  | succ fuel ih =>
    intro s
    rw [awaitPlace]
    split
    · split
      · exact .refl s
      · next time j _ => exact (mimics_fire s time j).then (ih _)
    · exact .refl s

/-! ### Streams that are read -/

/-- A fold that keeps what it has or takes what it comes to ends with one of these. -/
theorem eq_or_mem_of_foldl {α : Type} {choose : Option α → α → Option α}
    (hchoose : ∀ first a, choose first a = first ∨ choose first a = some a) (as : List α) :
    ∀ {first : Option α} {a : α}, as.foldl choose first = some a → first = some a ∨ a ∈ as := by
  induction as with
  | nil =>
    intro first a h
    exact .inl h
  | cons b as ih =>
    intro first a h
    rw [List.foldl_cons] at h
    rcases ih h with hfirst | hrest
    · rcases hchoose first b with hkept | htaken
      · exact .inl (hkept ▸ hfirst)
      · rw [htaken, Option.some_inj] at hfirst
        exact .inr (hfirst ▸ List.mem_cons_self)
    · exact .inr (List.mem_cons_of_mem b hrest)

/-- The connection that is next is one to which something happens by itself. -/
theorem exists_due_of_next? {time : Nat} (h : s.next? = some (time, i)) :
    ∃ c, s.connections[i]? = some c ∧ c.due? = some time := by
  rw [next?] at h
  have hchosen := eq_or_mem_of_foldl (by
    rintro (_ | f) a
    · exact .inr rfl
    · dsimp only
      split
      · exact .inr rfl
      · exact .inl rfl) _ h
  rcases hchosen with hnone | hfound
  · cases hnone
  · obtain ⟨⟨c, j⟩, hc, hdue⟩ := List.mem_filterMap.mp hfound
    obtain ⟨time', hdue', heq⟩ := Option.map_eq_some_iff.mp hdue
    cases heq
    rw [List.mk_mem_zipIdx_iff_getElem?, Array.getElem?_toList] at hc
    exact ⟨c, hc, hdue'⟩

/-- Nothing happens by itself to a connection that streams and whose visitor is there. -/
theorem ne_of_next? {time j : Nat} (hc : s.connections[i]? = some c)
    (hstreaming : c.phase.isStreaming = true) (hdropped : c.dropped = false)
    (h : s.next? = some (time, j)) : i ≠ j := by
  rintro rfl
  obtain ⟨c', hc', hdue⟩ := exists_due_of_next? h
  rw [hc, Option.some_inj] at hc'
  subst hc'
  cases hphase : c.phase with
  | waiting | refused | ended =>
    rw [hphase] at hstreaming
    cases hstreaming
  | streaming | cutOff =>
    rw [Connection.due?, hphase, hdropped] at hdue
    cases hdue

/-- A place is given to a connection that waits. -/
theorem getElem?_seat (hc : s.connections[i]? = some c) (hseated : c.phase.isWaiting = false) :
    s.seat.connections[i]? = some c := by
  rw [seat]
  split
  · next slots j _ hfind =>
    obtain ⟨hlt, hwaiting, -⟩ := Array.findIdx?_eq_some_iff_getElem.mp hfind
    have hne : j ≠ i := by
      rintro rfl
      rw [Array.getElem?_eq_getElem hlt, Option.some_inj] at hc
      rw [hc, hseated] at hwaiting
      cases hwaiting
    rw [getElem?_move, if_neg hne]
    exact hc
  · exact hc

/-- What happens to other connections leaves a stream alone. -/
theorem getElem?_fire {time j : Nat} (hc : s.connections[i]? = some c)
    (hstreaming : c.phase.isStreaming = true) (hne : i ≠ j) :
    (s.fire time j).connections[i]? = some c := by
  have hmoved : ∀ (u : Server) (p : Phase), u.connections[i]? = some c →
      (u.move j p).connections[i]? = some c := by
    intro u p hu
    rw [getElem?_move, if_neg hne.symm]
    exact hu
  rw [fire]
  dsimp only
  split
  · exact hc
  · split
    · exact hmoved _ _ hc
    · exact getElem?_seat (hmoved _ _ hc) (Phase.isWaiting_of_isStreaming hstreaming)
    · exact getElem?_seat (hmoved _ _ hc) (Phase.isWaiting_of_isStreaming hstreaming)
    · exact hc
    · exact hc

theorem getElem?_settleUntil (time fuel : Nat) (hstreaming : c.phase.isStreaming = true)
    (hdropped : c.dropped = false) : ∀ s : Server, s.connections[i]? = some c →
      (settleUntil time fuel s).connections[i]? = some c := by
  induction fuel with
  | zero => exact fun _ hc => hc
  | succ fuel ih =>
    intro s hc
    rw [settleUntil]
    split
    · exact hc
    · next due j hnext =>
      split
      · exact hc
      · exact ih _ (getElem?_fire hc hstreaming (ne_of_next? hc hstreaming hdropped hnext))

theorem getElem?_advance (hc : s.connections[i]? = some c) (hstreaming : c.phase.isStreaming = true)
    (hdropped : c.dropped = false) (time : Nat) : (s.advance time).connections[i]? = some c :=
  getElem?_settleUntil time s.fuel hstreaming hdropped s hc

/-- A frame that is read is the next one that the handler of the connection sends. -/
theorem mimics_take (hc : s.connections[i]? = some c) (hdropped : c.dropped = false) :
    Mimics ((s.take i c.phase).1.toList.map (i, ·)) s (s.take i c.phase).2 := by
  cases hphase : c.phase with
  | waiting | ended => exact .refl s
  | refused =>
    refine mimics_move hc fun h hshown => ?_
    rw [hphase] at hshown
    exact ⟨_, _, .one (.dismiss hshown), rfl, .inr rfl⟩
  | cutOff frame =>
    refine mimics_finish hc fun h hshown => ?_
    rw [hphase] at hshown
    obtain ⟨h', hacts, hstage⟩ := hshown.sendsCutOff
    exact ⟨_, h', hacts, rfl, hstage⟩
  | streaming time machine =>
    -- the frame is due first: until then others may expire or end, but not this connection
    have hkept : (s.advance time).connections[i]? = some c :=
      getElem?_advance hc (by rw [hphase]; rfl) hdropped time
    rw [take]
    refine Mimics.then (mimics_advance s time) ?_
    generalize s.advance time = s' at hkept
    rcases hnext : Stream.next s'.limits s'.canceled machine with ⟨frame, _ | rest⟩
    · refine mimics_finish hkept fun h hshown => ?_
      rw [hphase] at hshown
      obtain ⟨h', hacts, hstage⟩ := hshown.sendsLast hnext
      exact ⟨_, h', hacts, rfl, hstage⟩
    · refine mimics_move hkept fun h hshown => ?_
      rw [hphase] at hshown
      obtain ⟨h', hacts, hp⟩ := hshown.sends hnext (s'.now + s'.limits.delay)
      exact ⟨_, h', hacts, rfl, hp⟩

/-- Whether its visitor left is nothing that happens to a connection by itself. -/
theorem dropped_move (s : Server) (i j : Nat) (p : Phase) :
    (s.move j p).connections[i]?.map Connection.dropped = s.connections[i]?.map Connection.dropped := by
  rw [getElem?_move]
  split
  · rw [Option.map_map]
    rfl
  · rfl

theorem dropped_seat (s : Server) (i : Nat) :
    s.seat.connections[i]?.map Connection.dropped = s.connections[i]?.map Connection.dropped := by
  rw [seat]
  split
  · exact dropped_move _ _ _ _
  · rfl

theorem dropped_fire (s : Server) (time i j : Nat) : (s.fire time j).connections[i]?.map
    Connection.dropped = s.connections[i]?.map Connection.dropped := by
  rw [fire]
  dsimp only
  split
  · rfl
  · split
    · exact dropped_move _ _ _ _
    · exact (dropped_seat _ _).trans (dropped_move _ _ _ _)
    · exact (dropped_seat _ _).trans (dropped_move _ _ _ _)
    · rfl
    · rfl

theorem dropped_awaitPlace (i fuel : Nat) : ∀ s : Server, (awaitPlace i fuel s).connections[i]?.map
    Connection.dropped = s.connections[i]?.map Connection.dropped := by
  induction fuel with
  | zero => exact fun _ => rfl
  | succ fuel ih =>
    intro s
    rw [awaitPlace]
    split
    · split
      · rfl
      · exact (ih _).trans (dropped_fire ..)
    · rfl

theorem mimics_receiveOne (s : Server) (i : Nat) :
    Mimics ((s.receiveOne i).1.toList.map (i, ·)) s (s.receiveOne i).2 := by
  rw [receiveOne]
  split
  · exact .refl s
  · next c hc =>
    split
    · exact .refl s
    · next hdropped =>
      have hsame := dropped_awaitPlace i s.fuel s
      dsimp only
      refine Mimics.then (mimics_awaitPlace i s.fuel s) ?_
      generalize awaitPlace i s.fuel s = s' at hsame
      split
      · exact .refl s'
      · next c' hc' =>
        rw [hc, hc', Option.map_some, Option.map_some, Option.some_inj] at hsame
        exact mimics_take hc' (hsame.trans (Bool.not_eq_true _ ▸ hdropped))

theorem mimics_receive (i count : Nat) : ∀ s : Server,
    Mimics ((receive i count s).1.map (i, ·)) s (receive i count s).2.2 := by
  induction count with
  | zero => exact .refl
  | succ count ih =>
    intro s
    have hone := mimics_receiveOne s i
    rw [receive]
    generalize s.receiveOne i = r at hone
    obtain ⟨_ | frame, s'⟩ := r
    · exact hone
    · exact hone.trans (ih s')

/-! ### Connections that arrive, and the end of the server -/

theorem mimics_arrive (s : Server) (deadline : Nat) : Mimics [] s
    { s with connections := s.connections.push { phase := .waiting deadline } } := by
  intro hs _ hshows
  have harrive : Steps hs [(hs.all.length, .arrived)] { hs with all := hs.all ++ [{}] } :=
    .single .arrive
  have hlast : (hs.all ++ [({} : Handler)])[hs.all.length]? = some {} := by simp
  -- where the server has ended, the connection is done from its first moment on
  have hsteps : ∃ es, Steps hs es { hs with all := hs.all ++ [{ interrupted := s.canceled }] } ∧
      sentIn es = [] := by
    cases s.canceled with
    | false => exact ⟨_, harrive, rfl⟩
    | true =>
      have hput := steps_put (s := { hs with all := hs.all ++ [{}] }) (.one (.interrupt {})) hlast
      rw [put, List.set_append_right _ _ (Nat.le_refl _), Nat.sub_self] at hput
      exact ⟨_, harrive.trans hput, rfl⟩
  obtain ⟨es, hsteps, hsent⟩ := hsteps
  refine ⟨es, _, hsteps, hsent, hshows.1, hshows.2, hshows.3, hshows.4, ?_, ?_⟩
  · rw [List.length_append, hshows.size, Array.size_push]
    rfl
  · intro j c hc
    rw [Array.getElem?_push, ← hshows.size] at hc
    split at hc
    · next hj =>
      cases hc
      subst hj
      exact ⟨{ interrupted := s.canceled }, by simp, rfl, rfl⟩
    · obtain ⟨h, hh, hshown⟩ := hshows.phase j c hc
      obtain ⟨hlt, -⟩ := List.getElem?_eq_some_iff.mp hh
      exact ⟨h, (List.getElem?_append_left hlt).trans hh, hshown⟩

theorem mimics_connect (s : Server) : Mimics [] s s.connect := by
  rw [connect]
  refine Mimics.then (mimics_arrive s (s.now + s.limits.queueTimeout)) (Mimics.then (mimics_seat _) ?_)
  generalize seat _ = s'
  split
  · next c hc =>
    split
    · next hboth =>
      rw [Bool.and_eq_true] at hboth
      refine mimics_move hc fun h hshown => ?_
      cases hphase : c.phase with
      | waiting deadline =>
        rw [hphase] at hshown
        exact ⟨_, _, .one (.giveUp hshown.1 (.inr (hshown.2.trans hboth.1))), rfl, rfl⟩
      | streaming | cutOff | refused | ended =>
        rw [hphase] at hboth
        cases hboth.2
    · exact .refl s'
  · exact .refl s'

theorem phase_cutShort (s : Server) (c : Connection) : (s.cutShort c).phase
    = match c.phase with
      | .waiting _ => .refused
      | .streaming time machine =>
        if time ≤ s.now then .cutOff (Stream.next s.limits s.canceled machine).1 else .ended
      | p => p := by
  rw [cutShort]
  rcases c with ⟨_ | ⟨time, machine⟩ | _ | _ | _, dropped⟩
  case streaming =>
    dsimp only
    split <;> rfl
  all_goals rfl

/-- When the server ends, the handler of each connection can follow: it sends nothing, and comes to a frame
that is its last one, or to the end of its stream, or gives up to wait. -/
theorem exists_steps_cutShort (hs : Handlers) {h : Handler} (hi : hs.all[i]? = some h)
    (hlimits : hs.limits = s.limits) (hp : c.phase.ShownBy s.canceled h) :
    ∃ es h' slots, Steps hs es { hs.put i h' with slots } ∧ sentIn es = [] ∧
      (s.cutShort c).phase.ShownBy true h' := by
  -- only a handler that leaves gives a place back; the others act on their own, and the places stay
  have halone : ∀ {p : Phase} {acts : List Act} {h' : Handler}, h.DoesAll s.limits acts h' →
      sentIn (acts.map (i, ·)) = [] → p.ShownBy true h' →
      ∃ es h' slots, Steps hs es { hs.put i h' with slots } ∧ sentIn es = [] ∧
        p.ShownBy true h' := by
    intro p acts h' hdoes hsent hshown
    rw [← hlimits] at hdoes
    exact ⟨_, h', hs.slots, steps_put hdoes hi, hsent, hshown⟩
  rw [phase_cutShort]
  generalize c.phase = p at hp
  cases p with
  | waiting deadline => exact halone (.cons (.interrupt h) (.one (.giveUp hp.1 (.inr rfl)))) rfl rfl
  | streaming time machine =>
    obtain ⟨hstage, hcanceled⟩ := hp
    rw [← hcanceled]
    dsimp only
    split
    · -- its frame is due: the machine runs for it, and is interrupted behind it
      exact halone (.cons (.run hstage) (.one (.interrupt _))) rfl ⟨⟨_, rfl⟩, rfl⟩
    · have hdoes : h.DoesAll s.limits []
          { h with stage := .leaving, interrupted := true } :=
        .cons (.interrupt h) (.one (.stop hstage rfl))
      rw [← hlimits] at hdoes
      exact ⟨_, _, _, steps_leave hdoes hi rfl, rfl, .inl rfl⟩
  | cutOff | refused | ended => exact halone (.refl h) rfl hp

/-- The handlers of the first connections follow one after the other. -/
theorem exists_steps_cutShort_all {hs : Handlers} (hshows : s.Shows hs) (n : Nat) :
    ∃ es slots all, Steps hs es { hs with slots, all } ∧ sentIn es = [] ∧
      all.length = hs.all.length ∧
      ∀ (j : Nat) (c : Connection), s.connections[j]? = some c → ∃ h, all[j]? = some h ∧
        (j < n → (s.cutShort c).phase.ShownBy true h) ∧
        (n ≤ j → c.phase.ShownBy s.canceled h) := by
  -- by induction on how many have followed: those before `n` are where the server has left them, those
  -- from `n` on where they were
  induction n with
  | zero =>
    refine ⟨[], hs.slots, hs.all, .refl, rfl, rfl, ?_⟩
    intro j c hj
    obtain ⟨h, hh, hshown⟩ := hshows.phase j c hj
    exact ⟨h, hh, fun hlt => absurd hlt (Nat.not_lt_zero j), fun _ => hshown⟩
  | succ n ih =>
    obtain ⟨es, slots, all, hsteps, hsent, hlength, hall⟩ := ih
    rcases hc : s.connections[n]? with _ | c
    · refine ⟨es, slots, all, hsteps, hsent, hlength, ?_⟩
      intro j c hj
      -- there is no such connection, so nothing is left to be done
      have hne : j ≠ n := by
        rintro rfl
        rw [hc] at hj
        cases hj
      obtain ⟨h, hh, hbefore, hafter⟩ := hall j c hj
      exact ⟨h, hh, fun hlt => hbefore (by omega), fun hle => hafter (by omega)⟩
    · obtain ⟨h, hh, -, hshown⟩ := hall n c hc
      obtain ⟨fs, h', slots', hmore, hsent', hshown'⟩ := exists_steps_cutShort
        { hs with slots, all } hh hshows.limits (hshown (Nat.le_refl n))
      refine ⟨es ++ fs, slots', all.set n h', hsteps.trans hmore, ?_, ?_, ?_⟩
      · rw [sentIn_append, hsent, hsent']
        rfl
      · rw [List.length_set, hlength]
      · intro j c' hj
        by_cases hjn : n = j
        · subst hjn
          rw [hc, Option.some_inj] at hj
          subst hj
          obtain ⟨hlt, -⟩ := List.getElem?_eq_some_iff.mp hh
          exact ⟨h', List.getElem?_set_self hlt, fun _ => hshown', fun hle => by omega⟩
        · obtain ⟨k, hk, hbefore, hafter⟩ := hall j c' hj
          exact ⟨k, (List.getElem?_set_ne hjn).trans hk, fun hlt => hbefore (by omega),
            fun hle => hafter (by omega)⟩

theorem mimics_cancel (s : Server) : Mimics [] s s.cancel := by
  rw [cancel]
  refine Mimics.then (mimics_advance s s.now) ?_
  generalize s.advance s.now = s
  intro hs haccounted hshows
  obtain ⟨es, slots, all, hsteps, hsent, hlength, hall⟩ :=
    exists_steps_cutShort_all hshows s.connections.size
  have hshown : Shows
      { s with canceled := true, connections := s.connections.map s.cutShort, slots }
      { hs with slots, all } := by
    refine ⟨hshows.1, hshows.2, hshows.3, rfl, ?_, ?_⟩
    · rw [Array.size_map]
      exact hlength.trans hshows.size
    · intro j c hc
      rw [Array.getElem?_map] at hc
      obtain ⟨c', hc', rfl⟩ := Option.map_eq_some_iff.mp hc
      obtain ⟨hlt, -⟩ := Array.getElem?_eq_some_iff.mp hc'
      obtain ⟨h, hh, hbefore, -⟩ := hall j c' hc'
      exact ⟨h, hh, hbefore hlt⟩
  -- the places that the handlers gave back one by one are those that the server counts anew
  have hslots : slots = { s.slots with
      used := ((s.connections.map s.cutShort).filter (·.phase.isStreaming)).size } := by
    have hused := (hsteps.accounted haccounted).used_eq
    have hcapacity := hsteps.capacity_eq
    rw [hshown.streaming_eq] at hused
    rw [hshows.slots] at hcapacity
    dsimp only at hused hcapacity
    rw [← hused]
    show slots = ⟨s.slots.capacity, slots.used⟩
    rw [← hcapacity]
  rw [← hslots]
  exact ⟨es, _, hsteps, hsent, hshown⟩

theorem mimics_visit (s : Server) (v : Visit) : Mimics (s.visit v).1 s (s.visit v).2 := by
  cases v with
  | connect => exact mimics_connect s
  | leave i => exact mimics_leave s i
  | advance time => exact mimics_advance s time
  | cancel => exact mimics_cancel s
  | receive i count => exact mimics_receive i count s

/-- **Whatever is done, the handlers can follow the server.** -/
theorem mimics_visitAll (vs : List Visit) : ∀ s : Server,
    Mimics (visitAll vs s).1 s (visitAll vs s).2 := by
  induction vs with
  | nil => exact .refl
  | cons v vs ih =>
    intro s
    exact (mimics_visit s v).trans (ih _)

end Server

open Handlers in
/-- **Streams never exceed the limit, and no place is leaked.** Whatever is done by any number of handlers,
and in whatever order: the places in use are those of the handlers that stream, and no more than there
are; a handler that gave up to wait never takes a place, and only one that took a place gives one back; one
that took a place took it once, and has given it back once when it streams no more; a place that is given
back is one of those in use; where all handlers are done no place is in use; and nobody is sent the busy
frame and another one.

Whatever visitors do, the server does what its handlers do in one of these orders, act by act, and the
frames that are read are those that they send. -/
theorem places_are_never_leaked (o : Options) (program : Program) (input : Bytes) :
    (∀ (es : List (Nat × Act)) (s : Handlers), Steps (.start o program input) es s →
      1 ≤ s.slots.capacity ∧ s.slots.capacity = o.limits.maxStreams ∧
      s.slots.used = s.streaming ∧ s.streaming ≤ s.slots.capacity ∧
      (∀ (i : Nat) (h : Handler), s.all[i]? = some h →
        (.gaveUp ∈ pastOf i es → .acquired ∉ pastOf i es) ∧
        (.released ∈ pastOf i es → .acquired ∈ pastOf i es) ∧
        (.acquired ∈ pastOf i es → (pastOf i es).count .acquired = 1 ∧
          (pastOf i es).count .released = if h.stage.hasPlace then 0 else 1) ∧
        (∀ f g, .sent f ∈ pastOf i es → .sent g ∈ pastOf i es → f.ending = some .busy →
          g.ending = some .busy)) ∧
      (∀ (i : Nat) (t : Handlers), s.Step i [.released] t → s.slots.release?.isSome = true) ∧
      ((∀ h ∈ s.all, h.stage = .finished ∨ h.stage = .dismissed) → s.slots.used = 0)) ∧
    ∀ vs : List Visit, ∃ es s, Steps (.start o program input) es s ∧
      sentIn es = (Server.visitAll vs (.new o program input)).1 ∧
      (Server.visitAll vs (.new o program input)).2.Shows s := by
  refine ⟨?_, ?_⟩
  · intro es s hsteps
    have haccounted := hsteps.accounted (accounted_start o program input)
    have hcapacity := hsteps.capacity_eq
    have hused := haccounted.used_eq
    refine ⟨?_, hcapacity, hused, hused ▸ haccounted.used_le, ?_, ?_, ?_⟩
    · rw [hcapacity]
      exact one_le_maxStreams o
    · intro i h hi
      have hpast := hsteps.keeps_past hi
      obtain ⟨hgaveUp, hreleased, hacquired⟩ := hpast.place
      exact ⟨hgaveUp, hreleased, hacquired, fun f g hf hg => hpast.busy hf hg⟩
    · intro i t hstep
      -- of all steps only one gives a place back, and it is taken in a stage that has a place
      generalize hacts : [Act.released] = acts at hstep
      cases hstep with
      | arrive => cases hacts
      | acquire => cases hacts
      | act _ hdoes => cases hdoes <;> cases hacts
      | release hi hstage =>
        obtain ⟨hrelease, -⟩ := haccounted.release?_ne_none hi (by rw [hstage]; rfl)
        rw [hrelease]
        rfl
    · intro hover
      -- the places in use are counted by the stages, and these two have none
      rw [hused, streaming, List.countP_eq_zero]
      intro h hh
      rcases hover h hh with hstage | hstage <;> simp [hstage, Stage.hasPlace]
  · intro vs
    exact Server.mimics_visitAll vs _ _ (accounted_start o program input)
      (Server.shows_new o program input)

open Handlers in
/-- Two visitors of a server with one place: while the first one streams, the second one waits in vain and
is sent the busy frame. -/
theorem places_are_never_leaked_to_second_visitor :
    ∃ p es fs s t, Program.load [43] = .ok p ∧
      Steps (.start { maxSteps := 1, maxStreams := 1 } p []) es s ∧ s.slots.used = 1 ∧
      .acquired ∉ pastOf 1 es ∧ (∀ f, .sent f ∈ pastOf 1 es → f.ending = some .busy) ∧
      Steps (.start { maxSteps := 1, maxStreams := 1 } p []) fs t ∧
      (pastOf 0 fs).count .released = 1 ∧ t.slots.used = 0 := by
  have hload : Program.load [43] = .ok ⟨#[.increment], #[0], #[none]⟩ := rfl
  have hfirst := ((((((Steps.refl (s := .start { maxSteps := 1, maxStreams := 1 }
    ⟨#[.increment], #[0], #[none]⟩ [])).snoc .arrive).snoc .arrive).snoc
    (.acquire (i := 0) rfl rfl rfl)).snoc (.act (i := 1) rfl (.expire _))).snoc
    (.act (i := 1) rfl (.giveUp rfl (.inl rfl)))).snoc (.act (i := 1) rfl (.dismiss rfl))
  have hlast := ((((hfirst.snoc (.act (i := 0) rfl (.run rfl))).snoc
    (.act (i := 0) rfl (.send rfl))).snoc (.act (i := 0) rfl (.run rfl))).snoc
    (.act (i := 0) rfl (.sendLast rfl))).snoc (.release (i := 0) rfl rfl)
  obtain ⟨-, -, hused, -, hsecond, -, -⟩ := (places_are_never_leaked _ _ _).1 _ _ hfirst
  obtain ⟨hgaveUp, -, -, hbusy⟩ := hsecond 1 _ rfl
  obtain ⟨-, -, -, -, hdone, -, hover⟩ := (places_are_never_leaked _ _ _).1 _ _ hlast
  obtain ⟨-, -, hacquired, -⟩ := hdone 0 _ rfl
  refine ⟨_, _, _, _, _, hload, hfirst, hused, hgaveUp (by decide), ?_, hlast,
    (hacquired (by decide)).2, hover ?_⟩
  · intro f hf
    exact hbusy .busy f (by decide) hf rfl
  · intro h hh
    rcases List.mem_cons.mp hh with rfl | hh
    · exact .inl rfl
    · rcases List.mem_singleton.mp hh with rfl
      exact .inr rfl

end TapeMachine.Web
