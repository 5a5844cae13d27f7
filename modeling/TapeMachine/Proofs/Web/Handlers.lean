/-
Handlers of connections share the places of a server.

Every connection has a handler of its own. It waits for a place; it gets one and streams, or its patience
ends and it sends the busy frame. Handlers run side by side, and what one of them does may come between any
two acts of another.

* `Handler.Does`: what a handler may do by itself;
* `Handlers.Step`: what may happen next among all handlers, a connection that arrives included;
* `Handlers.Accounted`: the places in use are those of the handlers that have one, and no step changes
  that;
* `Handlers.Steps.each`: what holds of every handler and its past;
* `Stage.Past`: all that a handler at a stage can have done, in the order in which it did it;
* `Handlers.Steps.keeps_past`: every handler has the past of its stage.
-/
import Mathlib.Data.List.Basic
import TapeMachine.Web.Slots
import TapeMachine.Web.Stream

namespace TapeMachine.Web

/-- Where a handler is. -/
inductive Stage where
  /-- It waits for a place. -/
  | waiting
  /-- It has a place and its machine is about to take a step. -/
  | running (machine : Machine)
  /-- It has a place and sends a frame; behind it the machine goes on, if there is one left. -/
  | sending (frame : Frame) (rest : Option Machine)
  /-- It has a place, and has nothing more to send. -/
  | leaving
  /-- It has given its place back. -/
  | finished
  /-- It found no place, and has not yet sent the busy frame. -/
  | refused
  /-- It found no place, and is done. -/
  | dismissed

/-- Whether a handler has a place. -/
def Stage.hasPlace : Stage → Bool
  | running _ | sending _ _ | leaving => true
  | waiting | finished | refused | dismissed => false

/-- The handler of a connection. -/
structure Handler where
  stage : Stage := .waiting
  /-- Whether the time to wait for a place is over. -/
  expired : Bool := false
  /-- Whether the context of the connection is done. -/
  interrupted : Bool := false

/-- What is noted of a handler. -/
inductive Act where
  | arrived
  | acquired
  | gaveUp
  | sent (frame : Frame)
  /-- The connection did not take a frame. -/
  | failed
  | released
deriving DecidableEq

/-- What a handler may do by itself, with what is noted of it. Waiting ends without a place only if its
time is over or the connection is done; a stream ends behind its last frame, at a frame that cannot be
sent, and at any time if the connection is done. -/
inductive Handler.Does (l : Limits) : Handler → List Act → Handler → Prop
  | expire (h : Handler) : Does l h [] { h with expired := true }
  | interrupt (h : Handler) : Does l h [] { h with interrupted := true }
  | giveUp {h : Handler} (hstage : h.stage = .waiting)
      (hdone : h.expired = true ∨ h.interrupted = true) :
      Does l h [.gaveUp] { h with stage := .refused }
  | run {h : Handler} {m : Machine} (hstage : h.stage = .running m) :
      Does l h [] { h with
        stage := .sending (Stream.next l h.interrupted m).1 (Stream.next l h.interrupted m).2 }
  | stop {h : Handler} {m : Machine} (hstage : h.stage = .running m)
      (hdone : h.interrupted = true) : Does l h [] { h with stage := .leaving }
  | send {h : Handler} {frame : Frame} {m : Machine}
      (hstage : h.stage = .sending frame (some m)) :
      Does l h [.sent frame] { h with stage := .running m }
  | sendLast {h : Handler} {frame : Frame} (hstage : h.stage = .sending frame none) :
      Does l h [.sent frame] { h with stage := .leaving }
  | fail {h : Handler} {frame : Frame} {rest : Option Machine}
      (hstage : h.stage = .sending frame rest) : Does l h [.failed] { h with stage := .leaving }
  | dismiss {h : Handler} (hstage : h.stage = .refused) :
      Does l h [.sent .busy] { h with stage := .dismissed }
  | failBusy {h : Handler} (hstage : h.stage = .refused) :
      Does l h [.failed] { h with stage := .dismissed }

/-- What may become of a handler among the others: what it does by itself, and that it takes a place or
gives its place back. -/
inductive Handler.Moves (l : Limits) (program : Program) (input : Bytes) :
    Handler → List Act → Handler → Prop
  | does {h h' : Handler} {acts : List Act} (hdoes : h.Does l acts h') :
      Moves l program input h acts h'
  | acquire {h : Handler} (hstage : h.stage = .waiting) : Moves l program input h [.acquired]
      { h with stage := .running (.start program l.tapeLength input) }
  | release {h : Handler} (hstage : h.stage = .leaving) :
      Moves l program input h [.released] { h with stage := .finished }

/-- The handlers of a server, in the order in which their connections arrived, with the places that they
share. -/
structure Handlers where
  limits : Limits
  program : Program
  input : Bytes
  slots : Slots
  all : List Handler

namespace Handlers

/-- A server that nobody has visited. -/
def start (o : Options) (program : Program) (input : Bytes) : Handlers where
  limits := o.limits
  program
  input
  slots := { capacity := o.limits.maxStreams }
  all := []

/-- What may happen next to the handler with a number. A place is taken only if one is free; a place is
given back by a handler that leaves. -/
inductive Step (s : Handlers) : Nat → List Act → Handlers → Prop
  | arrive : Step s s.all.length [.arrived] { s with all := s.all ++ [{}] }
  | act {i : Nat} {h h' : Handler} {acts : List Act} (hi : s.all[i]? = some h)
      (hdoes : h.Does s.limits acts h') : Step s i acts { s with all := s.all.set i h' }
  | acquire {i : Nat} {h : Handler} {slots : Slots} (hi : s.all[i]? = some h)
      (hstage : h.stage = .waiting) (hfree : s.slots.acquire? = some slots) :
      Step s i [.acquired] { s with
        slots
        all := s.all.set i
          { h with stage := .running (.start s.program s.limits.tapeLength s.input) } }
  | release {i : Nat} {h : Handler} (hi : s.all[i]? = some h) (hstage : h.stage = .leaving) :
      Step s i [.released] { s with
        slots := s.slots.release?.getD s.slots
        all := s.all.set i { h with stage := .finished } }

/-- Handlers come from one state to another while things are noted of them. -/
inductive Steps (s : Handlers) : List (Nat × Act) → Handlers → Prop
  | refl : Steps s [] s
  | snoc {es : List (Nat × Act)} {t u : Handlers} {i : Nat} {acts : List Act}
      (h : Steps s es t) (hstep : t.Step i acts u) : Steps s (es ++ acts.map (i, ·)) u

variable {s t u : Handlers} {es fs : List (Nat × Act)}

theorem Steps.single {i : Nat} {acts : List Act} (h : s.Step i acts t) :
    Steps s (acts.map (i, ·)) t :=
  Steps.refl.snoc h

theorem Steps.trans (h : Steps s es t) (h' : Steps t fs u) : Steps s (es ++ fs) u := by
  induction h' with
  | refl =>
    rw [List.append_nil]
    exact h
  | snoc _ hstep ih =>
    rw [← List.append_assoc]
    exact ih.snoc hstep

/-- What was noted of the handler with a number. -/
def pastOf (i : Nat) (es : List (Nat × Act)) : List Act :=
  es.filterMap fun e => if e.1 = i then some e.2 else none

@[simp] theorem pastOf_nil (i : Nat) : pastOf i [] = [] := rfl

@[simp] theorem pastOf_append (i : Nat) (es fs : List (Nat × Act)) :
    pastOf i (es ++ fs) = pastOf i es ++ pastOf i fs :=
  List.filterMap_append

@[simp] theorem pastOf_own (i : Nat) (acts : List Act) :
    pastOf i (acts.map (i, ·)) = acts := by
  simp [pastOf, List.filterMap_map]

theorem pastOf_other {i j : Nat} (h : i ≠ j) (acts : List Act) :
    pastOf j (acts.map (i, ·)) = [] := by
  simp [pastOf, List.filterMap_map, h]

end Handlers

/-! ### The past of a handler -/

/-- What is noted of a handler that streams: the frames that it sent, none of them the busy one, and
what came behind them. -/
def Streamed (tail past : List Act) : Prop :=
  ∃ frames : List Frame, (∀ f ∈ frames, f.ending ≠ some .busy) ∧
    past = .arrived :: .acquired :: (frames.map .sent ++ tail)

/-- What a handler at a stage has done. -/
def Stage.Past : Stage → List Act → Prop
  | waiting, past => past = [.arrived]
  | running _, past => Streamed [] past
  | sending frame _, past => frame.ending ≠ some .busy ∧ Streamed [] past
  | leaving, past => Streamed [] past ∨ Streamed [.failed] past
  | finished, past => Streamed [.released] past ∨ Streamed [.failed, .released] past
  | refused, past => past = [.arrived, .gaveUp]
  | dismissed, past => past = [.arrived, .gaveUp, .sent .busy] ∨ past = [.arrived, .gaveUp, .failed]

variable {past tail : List Act}

theorem Streamed.append (h : Streamed tail past) (more : List Act) :
    Streamed (tail ++ more) (past ++ more) := by
  obtain ⟨frames, hframes, rfl⟩ := h
  exact ⟨frames, hframes, by simp⟩

theorem Streamed.sent (h : Streamed [] past) {frame : Frame} (hframe : frame.ending ≠ some .busy) :
    Streamed [] (past ++ [.sent frame]) := by
  obtain ⟨frames, hframes, rfl⟩ := h
  refine ⟨frames ++ [frame], ?_, by simp⟩
  intro f hf
  rw [List.mem_append, List.mem_singleton] at hf
  rcases hf with hold | rfl
  · exact hframes f hold
  · exact hframe

/-- **All that a handler can have done.** It streamed, sent no busy frame, and gave its place back if it
has it no more; or it never had a place, and sent at most the busy frame. -/
theorem Stage.Past.cases {stage : Stage} (h : stage.Past past) :
    (∃ tail, Streamed tail past ∧ (∀ a ∈ tail, a = .failed ∨ a = .released) ∧
      tail.count .released = if stage.hasPlace then 0 else 1) ∨
    past = [.arrived] ∨ past = [.arrived, .gaveUp] ∨ past = [.arrived, .gaveUp, .sent .busy] ∨
      past = [.arrived, .gaveUp, .failed] := by
  cases stage with
  | waiting => exact .inr (.inl h)
  | running => exact .inl ⟨[], h, by simp, rfl⟩
  | sending => exact .inl ⟨[], h.2, by simp, rfl⟩
  | leaving =>
    rcases h with h | h
    · exact .inl ⟨[], h, by simp, rfl⟩
    · exact .inl ⟨[.failed], h, by simp, rfl⟩
  | finished =>
    rcases h with h | h
    · exact .inl ⟨[.released], h, by simp, rfl⟩
    · exact .inl ⟨[.failed, .released], h, by simp, rfl⟩
  | refused => exact .inr (.inr (.inl h))
  | dismissed => exact .inr (.inr (.inr h))

/-- A place is taken once, and given back once; a handler that gave up never had one. -/
theorem Stage.Past.place {stage : Stage} (h : stage.Past past) :
    (.gaveUp ∈ past → .acquired ∉ past) ∧ (.released ∈ past → .acquired ∈ past) ∧
      (.acquired ∈ past → past.count .acquired = 1 ∧
        past.count .released = if stage.hasPlace then 0 else 1) := by
  rcases h.cases with ⟨tail, ⟨frames, -, rfl⟩, htail, hcount⟩ | rfl | rfl | rfl | rfl
  · have hgaveUp : Act.gaveUp ∉ tail := fun hmem => by simpa using htail _ hmem
    have hacquired : Act.acquired ∉ tail := fun hmem => by simpa using htail _ hmem
    have hframes : ∀ a : Act, (∀ f, a ≠ .sent f) → (frames.map Act.sent).count a = 0 := by
      intro a ha
      rw [List.count_eq_zero, List.mem_map]
      rintro ⟨f, -, rfl⟩
      exact ha f rfl
    refine ⟨by simp [hgaveUp], by simp, fun _ => ⟨?_, ?_⟩⟩
    · rw [List.count_cons_of_ne (by decide), List.count_cons_self, List.count_append,
        hframes _ (by simp), List.count_eq_zero_of_not_mem hacquired]
    · rw [List.count_cons_of_ne (by decide), List.count_cons_of_ne (by decide), List.count_append,
        hframes _ (by simp), Nat.zero_add, hcount]
  all_goals simp

/-- A handler that sends the busy frame sends no other. -/
theorem Stage.Past.busy {stage : Stage} (h : stage.Past past) {f g : Frame}
    (hf : .sent f ∈ past) (hg : .sent g ∈ past) (hbusy : f.ending = some .busy) :
    g.ending = some .busy := by
  rcases h.cases with ⟨tail, ⟨frames, hframes, rfl⟩, htail, -⟩ | rfl | rfl | rfl | rfl
  · have hsent : Act.sent f ∉ tail := fun hmem => by simpa using htail _ hmem
    have hmem : f ∈ frames := by simpa [hsent] using hf
    exact absurd hbusy (hframes f hmem)
  · simp at hf
  · simp at hf
  · have hg : g = .busy := by simpa using hg
    rw [hg]
    rfl
  · simp at hf

/-- No frame of a stream is the busy one. -/
theorem Stream.ending_next_ne (l : Limits) (canceled : Bool) (m : Machine) :
    (Stream.next l canceled m).1.ending ≠ some .busy := by
  rw [next]
  split
  · exact fun h => nomatch h
  · split
    · exact fun h => nomatch h
    · split <;> exact fun h => nomatch h

namespace Handler

variable {l : Limits} {h h' : Handler} {acts : List Act}

/-- By itself no handler takes a place or gives one back. -/
theorem Does.hasPlace_eq (hdoes : Does l h acts h') : h'.stage.hasPlace = h.stage.hasPlace := by
  cases hdoes with
  | expire | interrupt => rfl
  | giveUp hstage | run hstage | stop hstage | send hstage | sendLast hstage | fail hstage
  | dismiss hstage | failBusy hstage =>
    rw [hstage]
    rfl

/-- What a handler does by itself leaves it with the past of its new stage. -/
theorem Does.keeps_past (hdoes : Does l h acts h') (hpast : h.stage.Past past) :
    h'.stage.Past (past ++ acts) := by
  -- each act is possible in one stage only, whose past is known; with the act behind it, it is the past of
  -- the next stage
  cases hdoes with
  | expire | interrupt =>
    rw [List.append_nil]
    exact hpast
  | giveUp hstage =>
    rw [hstage] at hpast
    rw [show past = [.arrived] from hpast]
    rfl
  | run hstage =>
    rw [hstage] at hpast
    rw [List.append_nil]
    exact ⟨Stream.ending_next_ne l _ _, hpast⟩
  | stop hstage =>
    rw [hstage] at hpast
    rw [List.append_nil]
    exact .inl hpast
  | send hstage =>
    rw [hstage] at hpast
    exact hpast.2.sent hpast.1
  | sendLast hstage =>
    rw [hstage] at hpast
    exact .inl (hpast.2.sent hpast.1)
  | fail hstage =>
    rw [hstage] at hpast
    exact .inr (hpast.2.append [.failed])
  | dismiss hstage =>
    rw [hstage] at hpast
    rw [show past = [.arrived, .gaveUp] from hpast]
    exact .inl rfl
  | failBusy hstage =>
    rw [hstage] at hpast
    rw [show past = [.arrived, .gaveUp] from hpast]
    exact .inr rfl

/-- Whatever becomes of a handler, it has the past of its stage. -/
theorem Moves.keeps_past {program : Program} {input : Bytes}
    (hmoves : Moves l program input h acts h') (hpast : h.stage.Past past) :
    h'.stage.Past (past ++ acts) := by
  cases hmoves with
  | does hdoes => exact hdoes.keeps_past hpast
  | acquire hstage =>
    rw [hstage] at hpast
    rw [show past = [.arrived] from hpast]
    exact ⟨[], fun f hf => absurd hf List.not_mem_nil, rfl⟩
  | release hstage =>
    rw [hstage] at hpast
    exact hpast.imp (fun hdone => hdone.append [.released]) fun hbroken => hbroken.append [.released]

end Handler

/-! ### The places -/

namespace Handlers

variable {s t : Handlers} {es : List (Nat × Act)} {i : Nat} {h h' : Handler} {acts : List Act}

/-- The number of handlers that have a place. -/
def streaming (s : Handlers) : Nat :=
  s.all.countP fun h => h.stage.hasPlace

/-- The places in use are those of the handlers that have one. -/
structure Accounted (s : Handlers) : Prop where
  used_eq : s.slots.used = s.streaming
  used_le : s.slots.used ≤ s.slots.capacity

/-- Moving one handler changes the number of those that have a place by its own only. -/
theorem streaming_set (s : Handlers) (hi : s.all[i]? = some h) (h' : Handler) (slots : Slots) :
    streaming { s with slots, all := s.all.set i h' } + (if h.stage.hasPlace then 1 else 0)
      = s.streaming + if h'.stage.hasPlace then 1 else 0 := by
  obtain ⟨hlt, hget⟩ := List.getElem?_eq_some_iff.mp hi
  have hmem : h ∈ s.all := List.mem_of_getElem? hi
  have hpos : h.stage.hasPlace = true → 0 < s.all.countP fun h => h.stage.hasPlace :=
    fun hplace => List.countP_pos_iff.mpr ⟨h, hmem, hplace⟩
  rw [streaming, streaming, List.countP_set hlt, hget]
  split
  · next hplace =>
    have := hpos hplace
    omega
  · omega

theorem Accounted.act (hs : s.Accounted) (hi : s.all[i]? = some h)
    (hdoes : h.Does s.limits acts h') : Accounted { s with all := s.all.set i h' } := by
  have hcount := s.streaming_set hi h' s.slots
  rw [hdoes.hasPlace_eq] at hcount
  exact ⟨hs.used_eq.trans (by omega), hs.used_le⟩

theorem Accounted.acquire (hs : s.Accounted) {slots : Slots} (hi : s.all[i]? = some h)
    (hstage : h.stage = .waiting) (hfree : s.slots.acquire? = some slots)
    (hplace : h'.stage.hasPlace = true) :
    Accounted { s with slots, all := s.all.set i h' } := by
  have hcount := s.streaming_set hi h' slots
  rw [hstage, hplace] at hcount
  rw [Slots.acquire?] at hfree
  split at hfree
  · next hlt =>
    cases hfree
    have hused := hs.used_eq
    rw [if_neg (by decide), if_pos rfl] at hcount
    exact ⟨by dsimp only; omega, hlt⟩
  · cases hfree

/-- A handler that leaves finds its place among those in use. -/
theorem Accounted.release?_ne_none (hs : s.Accounted) (hi : s.all[i]? = some h)
    (hplace : h.stage.hasPlace = true) :
    s.slots.release? = some ⟨s.slots.capacity, s.slots.used - 1⟩ ∧ 0 < s.slots.used := by
  have hpos : 0 < s.streaming :=
    List.countP_pos_iff.mpr ⟨h, List.mem_of_getElem? hi, hplace⟩
  have hused := hs.used_eq
  refine ⟨?_, by omega⟩
  rw [Slots.release?, if_neg (by omega)]

theorem Accounted.release (hs : s.Accounted) (hi : s.all[i]? = some h)
    (hstage : h.stage = .leaving) : Accounted { s with
      slots := s.slots.release?.getD s.slots
      all := s.all.set i { h with stage := .finished } } := by
  have hplace : h.stage.hasPlace = true := by
    rw [hstage]
    rfl
  obtain ⟨hrelease, hpos⟩ := hs.release?_ne_none hi hplace
  have hcount := s.streaming_set hi { h with stage := .finished }
    ⟨s.slots.capacity, s.slots.used - 1⟩
  have hused := hs.used_eq
  have hle := hs.used_le
  rw [hrelease, Option.getD_some]
  rw [if_pos hplace, if_neg (fun hgone => nomatch hgone)] at hcount
  exact ⟨by dsimp only; omega, by dsimp only; omega⟩

/-- Every step keeps the account. -/
theorem Accounted.step (hs : s.Accounted) (hstep : s.Step i acts t) : t.Accounted := by
  cases hstep with
  | arrive =>
    refine ⟨hs.used_eq.trans ?_, hs.used_le⟩
    rw [streaming, streaming, List.countP_append]
    rfl
  | act hi hdoes => exact hs.act hi hdoes
  | acquire hi hstage hfree => exact hs.acquire hi hstage hfree rfl
  | release hi hstage => exact hs.release hi hstage

theorem accounted_start (o : Options) (program : Program) (input : Bytes) :
    (start o program input).Accounted :=
  ⟨rfl, Nat.zero_le _⟩

/-- **The places are accounted for in every state that can be reached.** -/
theorem Steps.accounted (hsteps : Steps s es t) (hs : s.Accounted) : t.Accounted := by
  induction hsteps with
  | refl => exact hs
  | snoc _ hstep ih => exact ih.step hstep

/-! ### What holds of each handler -/

/-- What handlers share but their places stays as it was at the start. -/
theorem Steps.same (hsteps : Steps s es t) :
    t.limits = s.limits ∧ t.program = s.program ∧ t.input = s.input := by
  induction hsteps with
  | refl => exact ⟨rfl, rfl, rfl⟩
  | snoc _ hstep ih => cases hstep <;> exact ih

/-- A step lets one handler arrive or move, and leaves the others as they are. -/
theorem Step.moves (hstep : s.Step i acts t) :
    (i = s.all.length ∧ acts = [.arrived] ∧ t.all = s.all ++ [({} : Handler)]) ∨
      ∃ h h', s.all[i]? = some h ∧ h.Moves s.limits s.program s.input acts h' ∧
        t.all = s.all.set i h' := by
  cases hstep with
  | arrive => exact .inl ⟨rfl, rfl, rfl⟩
  | act hi hdoes => exact .inr ⟨_, _, hi, .does hdoes, rfl⟩
  | acquire hi hstage => exact .inr ⟨_, _, hi, .acquire hstage, rfl⟩
  | release hi hstage => exact .inr ⟨_, _, hi, .release hstage, rfl⟩

variable {o : Options} {program : Program} {input : Bytes}

/-- Nothing is noted of a handler before its connection arrives. -/
theorem Steps.pastOf_of_le (hsteps : Steps s es t) {j : Nat} (hj : t.all.length ≤ j) :
    pastOf j es = [] := by
  induction hsteps with
  | refl => rfl
  | snoc _ hstep ih =>
    rw [pastOf_append]
    rcases hstep.moves with ⟨rfl, -, hall⟩ | ⟨h, h', hi, -, hall⟩
    · rw [hall, List.length_append, List.length_singleton] at hj
      rw [ih (by omega), pastOf_other (by omega), List.append_nil]
    · obtain ⟨hlt, -⟩ := List.getElem?_eq_some_iff.mp hi
      rw [hall, List.length_set] at hj
      rw [ih hj, pastOf_other (by omega), List.append_nil]

/-- **What holds of every handler and its past**, if it holds of one that arrives and no move breaks
it. -/
theorem Steps.each {P : Handler → List Act → Prop} (harrive : P {} [.arrived])
    (hmove : ∀ {h h' : Handler} {past acts : List Act}, P h past →
      h.Moves o.limits program input acts h' → P h' (past ++ acts))
    (hsteps : Steps (start o program input) es s) {i : Nat} {h : Handler}
    (hi : s.all[i]? = some h) : P h (pastOf i es) := by
  induction hsteps generalizing i h with
  | refl => cases hi
  | @snoc es t u j acts hsteps hstep ih =>
    obtain ⟨hlimits, hprogram, hinput⟩ := hsteps.same
    rw [pastOf_append]
    rcases hstep.moves with ⟨rfl, rfl, hall⟩ | ⟨k, k', hk, hmoves, hall⟩
    · rw [hall, List.getElem?_append] at hi
      split at hi
      · next hlt =>
        rw [pastOf_other (by omega), List.append_nil]
        exact ih hi
      · next hle =>
        -- the handler that arrives is the last one, and starts with no past
        rw [List.getElem?_singleton] at hi
        split at hi
        · next hzero =>
          cases hi
          have hlast : i = t.all.length := by omega
          rw [hlast, pastOf_own, hsteps.pastOf_of_le (Nat.le_refl _)]
          exact harrive
        · cases hi
    · obtain ⟨hlt, -⟩ := List.getElem?_eq_some_iff.mp hk
      rw [hall, List.getElem?_set, if_pos hlt] at hi
      rw [hlimits, hprogram, hinput] at hmoves
      split at hi
      · next hji =>
        cases hji
        cases hi
        rw [pastOf_own]
        exact hmove (ih hk) hmoves
      · next hji =>
        rw [pastOf_other hji, List.append_nil]
        exact ih hi

/-- **Every handler has the past of its stage.** -/
theorem Steps.keeps_past (hsteps : Steps (start o program input) es s) (hi : s.all[i]? = some h) :
    h.stage.Past (pastOf i es) :=
  hsteps.each (P := fun h past => h.stage.Past past) rfl
    (fun hpast hmoves => hmoves.keeps_past hpast) hi

end Handlers

end TapeMachine.Web
