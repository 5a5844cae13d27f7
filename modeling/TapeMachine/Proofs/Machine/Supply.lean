/-
Early and late input.

When a byte is fed makes no difference to a program unless it had to read before the byte was there. So
all that is fed in the course of some calls can as well lie in the queue from the start.

* `Machine.Starved`: the next step reads from an empty queue;
* `attempt_feed`: no other attempt can tell how the queue goes on;
* `Call.unfed`: the same call with nothing to feed, from outside or by an observer;
* `performAll_unfed`: the calls with nothing to feed do the same if all is there beforehand;
* `eq_of_paths`: where nothing is fed, the number of steps and whether there is a fault decide where a
  machine comes to, whatever calls are made;
* `supply_time_unobservable`: all of this from the start of a program.
-/
import TapeMachine.Proofs.Machine.Translation

namespace TapeMachine

namespace Machine

/-- The next step reads from an empty queue. -/
def Starved (m : Machine) : Prop :=
  m.input = [] ∧ m.attempt.1 = .stepped .read m.state.pc

instance (m : Machine) : Decidable m.Starved :=
  inferInstanceAs (Decidable (_ ∧ _))

variable {m : Machine}

/-! ### One attempt -/

theorem perform_append_input {c : Command} {input : Bytes} (h : c = .read → input ≠ [])
    (s : State) (q : Bytes) :
    perform c s (input ++ q) = ((perform c s input).1, (perform c s input).2 ++ q) := by
  cases c with
  | read =>
    rcases input with _ | ⟨b, rest⟩
    · exact absurd rfl (h rfl)
    · rfl
  | moveRight | moveLeft | increment | decrement | write | loopStart | loopEnd => rfl

theorem advance_feed {c : Command} (h : c = .read → m.input ≠ []) (q : Bytes) :
    (m.feed q).advance c = (m.advance c).feed q := by
  rw [advance, advance, feed, feed]
  dsimp only
  rw [perform_append_input h]

/-- **An attempt cannot tell how the queue goes on**, unless it reads behind its end. -/
theorem attempt_feed (h : ¬ m.Starved) (q : Bytes) :
    (m.feed q).attempt = (m.attempt.1, m.attempt.2.feed q) := by
  rcases m.attempt_cases with ⟨f, hf, ha⟩ | ⟨hf, hc, ha⟩ | ⟨hf, hc, hp, ha⟩ | ⟨c, hf, hc, hu, ha⟩
  · rw [ha]
    exact attempt_of_fault hf
  · rw [ha]
    exact attempt_of_end hf hc
  · rw [ha]
    exact attempt_of_underflow hf hc (by simp [underflows, feed, hp])
  · have hread : c = .read → m.input ≠ [] := by
      rintro rfl hi
      exact h ⟨hi, by rw [ha]⟩
    rw [ha, ← advance_feed hread]
    exact attempt_of_command hf hc hu

theorem step_feed (h : ¬ m.Starved) (q : Bytes) :
    (m.feed q).step = (m.step.1, m.step.2.feed q) := by
  have hattempt := attempt_feed h q
  rcases ha : m.attempt with ⟨_ | f | ⟨c, pos⟩, m'⟩ <;> rw [ha] at hattempt
  · rw [step_of_ended ha, step_of_ended hattempt]
  · rw [step_of_faulted ha, step_of_faulted hattempt]
  · rw [step_of_stepped ha, step_of_stepped hattempt]
    rfl

theorem new?_append_input {p : Program} {length : Int} {input : Bytes}
    (h : new? p length input = some m) (q : Bytes) :
    new? p length (input ++ q) = some (m.feed q) := by
  rw [new?_of_pos (pos_of_new? h), eq_start_of_new? h]
  rfl

/-- A machine with more in its queue is an image of it. -/
theorem translates_feed (q : Bytes) : Translates 0 (·.feed q) (¬ ·.Starved) where
  state _ := rfl
  fault m := (Fault.map_shift_zero m.fault).symm
  attempt m h := by rw [attempt_feed h, Attempt.shift_zero]

end Machine

/-! ### Calls that feed nothing -/

/-- The same event, with nothing fed. -/
def Event.unfed : Event → Event
  | stepped r => stepped r
  | fed _ => fed []

/-- The same report, with nothing fed. -/
def Report.unfed (r : Report) : Report :=
  { r with events := r.events.map Event.unfed }

/-- The same observer, with nothing to feed. -/
def Observer.unfed {σ ε : Type} (observe : Observer σ ε) : Observer σ ε :=
  fun n r s => { observe n r s with feed := [] }

/-- The same call, with nothing to feed. -/
def Call.unfed : Call → Call
  | step => step
  | steps limit => steps limit
  | run budget signal => run budget signal
  | observe budget signal observer s => observe budget signal observer.unfed s
  | feed _ => feed []

theorem map_unfed_map_stepped (rs : List StepRecord) :
    (rs.map Event.stepped).map Event.unfed = rs.map .stepped := by
  rw [List.map_map]
  rfl

/-- A call that feeds nothing does the same with more in the queue, and leaves that there. -/
theorem perform_feed {call : Call} (hcall : call.Unobserved) (hfeed : call.isFeed = false)
    {m : Machine} (h : ∀ a ∈ call.attempted m, ¬ a.Starved) (q : Bytes) :
    call.perform (m.feed q) = ((call.perform m).1, (call.perform m).2.feed q) := by
  obtain ⟨hmachine, -, hreport⟩ := (Machine.translates_feed q).perform hcall hfeed h
  have hreport := hreport rfl
  rw [Report.shift_zero] at hreport
  exact Prod.ext hreport hmachine

theorem performAll_feed {calls : List Call}
    (hcalls : ∀ call ∈ calls, call.Unobserved ∧ call.isFeed = false) (q : Bytes) :
    ∀ {m : Machine}, (∀ a ∈ attemptedAll calls m, ¬ a.Starved) →
      performAll calls (m.feed q) = ((performAll calls m).1, (performAll calls m).2.feed q) := by
  induction calls with
  | nil =>
    intro m _
    rfl
  | cons call calls ih =>
    intro m h
    rw [attemptedAll, List.forall_mem_append] at h
    obtain ⟨hcall, hfeed⟩ := hcalls call List.mem_cons_self
    rw [performAll_cons, performAll_cons, perform_feed hcall hfeed h.1,
      ih (fun c hc => hcalls c (List.mem_cons_of_mem call hc)) h.2]

theorem fedIn_performAll {calls : List Call}
    (hcalls : ∀ call ∈ calls, call.Unobserved ∧ call.isFeed = false) :
    ∀ m : Machine, fedIn (eventsOf (performAll calls m).1) = [] := by
  induction calls with
  | nil =>
    intro m
    rfl
  | cons call calls ih =>
    intro m
    obtain ⟨hcall, hfeed⟩ := hcalls call List.mem_cons_self
    obtain ⟨rs, hevents⟩ := exists_events_eq hcall hfeed m
    have hrest := ih (fun c hc => hcalls c (List.mem_cons_of_mem call hc)) (call.perform m).2
    rw [performAll_cons, eventsOf, List.flatMap_cons, fedIn_append, hevents, fedIn_map_stepped]
    exact hrest

/-! ### Feeding beforehand -/

namespace Machine

/-- **An observer may as well feed beforehand.** The noted events are those of the run, with nothing
fed. -/
theorem runObservedFrom_unfed {σ ε : Type} (observe : Observer σ ε) (q : Bytes) (budget : Nat) :
    ∀ (signal : Signal) (executed : Nat) (m : Machine) (es es' : List Event) (s : σ),
      (∀ a ∈ attemptedFrom observe budget signal executed m s, ¬ a.Starved) → ∃ fs,
      (runObservedFrom observe.noting budget signal executed m (es, s)).state.1 = es ++ fs ∧
      runObservedFrom observe.unfed.noting budget signal executed (m.feed (fedIn fs ++ q)) (es', s)
        = ⟨(runObservedFrom observe budget signal executed m s).summary,
          (runObservedFrom observe budget signal executed m s).machine.feed q,
          (es' ++ fs.map Event.unfed, (runObservedFrom observe budget signal executed m s).state),
          (runObservedFrom observe budget signal executed m s).failure⟩ := by
  induction budget with
  | zero =>
    intro signal executed m es es' s _
    refine ⟨[], (List.append_nil es).symm, ?_⟩
    rw [List.map_nil, List.append_nil]
    rfl
  | succ budget ih =>
    intro signal executed m es es' s h
    rw [attemptedFrom] at h
    rw [runObservedFrom, runObservedFrom]
    rcases hpoll : signal.poll with cause | signal'
    · refine ⟨[], (List.append_nil es).symm, ?_⟩
      rw [runObservedFrom, hpoll, List.map_nil, List.append_nil]
      rfl
    · rw [hpoll] at h
      -- a machine that is not starved takes the same step with more in its queue
      have hfirst := step_feed (h m List.mem_cons_self)
      rcases hs : m.step with ⟨_ | f | r, m'⟩ <;> rw [hs] at h hfirst
      · refine ⟨[], (List.append_nil es).symm, ?_⟩
        rw [runObservedFrom, hpoll, hfirst, List.map_nil, List.append_nil]
        rfl
      · refine ⟨[], (List.append_nil es).symm, ?_⟩
        rw [runObservedFrom, hpoll, hfirst, List.map_nil, List.append_nil]
        rfl
      · dsimp only at h
        dsimp only [Observer.noting]
        generalize hreaction : observe (executed + 1) r s = reaction at h ⊢
        -- what the observer feeds now is in the queue of the other machine already
        have hnow : ∀ bytes, (m'.feed (reaction.feed ++ bytes)).feed []
            = (m'.feed reaction.feed).feed bytes := by
          intro bytes
          rw [feed_nil, feed, feed, feed, List.append_assoc]
        rcases hfailure : reaction.failure with _ | error
        · rw [hfailure] at h
          obtain ⟨fs, hnoted, hrest⟩ := ih signal' (executed + 1) (m'.feed reaction.feed)
            (es ++ [.stepped r, .fed reaction.feed]) (es' ++ [.stepped r, .fed []]) reaction.state
            (fun a ha => h a (List.mem_cons_of_mem m ha))
          refine ⟨[.stepped r, .fed reaction.feed] ++ fs, ?_, ?_⟩
          · rw [← List.append_assoc]
            exact hnoted
          · have hfed : fedIn ([.stepped r, .fed reaction.feed] ++ fs) ++ q
                = reaction.feed ++ (fedIn fs ++ q) := List.append_assoc reaction.feed (fedIn fs) q
            rw [hfed, runObservedFrom, hpoll, hfirst]
            dsimp only [Observer.noting, Observer.unfed]
            rw [hreaction, hfailure, hnow, List.map_append, ← List.append_assoc]
            exact hrest
        · refine ⟨[.stepped r, .fed reaction.feed], rfl, ?_⟩
          have hfed : fedIn [.stepped r, .fed reaction.feed] = reaction.feed :=
            List.append_nil reaction.feed
          rw [hfed, runObservedFrom, hpoll, hfirst]
          dsimp only [Observer.noting, Observer.unfed]
          rw [hreaction, hfailure, hnow]
          rfl

end Machine

/-- A call does the same if what it feeds is in the queue beforehand. -/
theorem perform_unfed (call : Call) {m : Machine} (h : ∀ a ∈ call.attempted m, ¬ a.Starved)
    (q : Bytes) : call.unfed.perform (m.feed (fedIn (call.perform m).1.events ++ q))
      = ((call.perform m).1.unfed, (call.perform m).2.feed q) := by
  -- a call that is neither watched nor feeds has steps only to report
  have hplain : call.Unobserved → call.isFeed = false →
      call.perform (m.feed (fedIn (call.perform m).1.events ++ q))
        = ((call.perform m).1.unfed, (call.perform m).2.feed q) := by
    intro hcall hfeed
    obtain ⟨rs, hevents⟩ := exists_events_eq hcall hfeed m
    rw [perform_feed hcall hfeed h, Report.unfed, hevents, fedIn_map_stepped, map_unfed_map_stepped,
      ← hevents]
    rfl
  cases call with
  | step => exact hplain trivial rfl
  | steps limit => exact hplain trivial rfl
  | run budget signal => exact hplain trivial rfl
  | observe budget signal observer s =>
    obtain ⟨fs, hnoted, hrun⟩ :=
      Machine.runObservedFrom_unfed observer q budget.toNat signal 0 m [] [] s h
    obtain ⟨gs, hnoting, -⟩ := Machine.runObservedFrom_noting observer.unfed budget.toNat signal 0
      (m.feed (fedIn fs ++ q)) [] s
    rw [hrun] at hnoting
    have hevents : (Call.perform m (.observe budget signal observer s)).1.events = fs := hnoted
    -- the run is not noted, but noting it changes neither its summary nor its machine
    have hsummary := congrArg ObservedRun.summary hnoting
    have hmachine := congrArg ObservedRun.machine hnoting
    dsimp only at hsummary hmachine
    rw [hevents, Report.unfed, hevents, Call.unfed, Call.perform, Call.perform, Machine.runObserved,
      Machine.runObserved, Machine.runObserved, ← hsummary, ← hmachine, hrun]
    rfl
  | feed bytes =>
    have hfed : fedIn (Call.perform m (.feed bytes)).1.events = bytes := fedIn_fed bytes
    have hmachine : (m.feed (bytes ++ q)).feed [] = (m.feed bytes).feed q := by
      rw [Machine.feed_nil, Machine.feed, Machine.feed, Machine.feed, List.append_assoc]
    rw [hfed]
    exact Prod.ext rfl hmachine

/-- **Calls do the same if all that they feed is in the queue beforehand.** -/
theorem performAll_unfed (calls : List Call) (q : Bytes) : ∀ {m : Machine},
    (∀ a ∈ attemptedAll calls m, ¬ a.Starved) →
      performAll (calls.map Call.unfed) (m.feed (fedIn (eventsOf (performAll calls m).1) ++ q))
        = ((performAll calls m).1.map Report.unfed, (performAll calls m).2.feed q) := by
  induction calls with
  | nil =>
    intro m _
    rfl
  | cons call calls ih =>
    intro m h
    rw [attemptedAll, List.forall_mem_append] at h
    have hfed : fedIn (eventsOf (performAll (call :: calls) m).1) ++ q
        = fedIn (call.perform m).1.events
          ++ (fedIn (eventsOf (performAll calls (call.perform m).2).1) ++ q) := by
      rw [performAll_cons, eventsOf, List.flatMap_cons, fedIn_append, List.append_assoc]
      rfl
    rw [hfed, List.map_cons, performAll_cons, perform_unfed call h.1, ih h.2]
    rfl

/-! ### Where a machine comes to -/

/-- Where nothing is fed, a path is some executed steps and perhaps a fault behind them. -/
theorem Path.exists_after? {m m' : Machine} {es : List Event} (h : Path m es m')
    (hfed : fedIn es = []) : ∃ k last, m'.steps = m.steps + k ∧ Machine.after? k m = some last ∧
      (m' = last ∨ ∃ f, last.attempt = (.faulted f, m')) := by
  induction h with
  | refl => exact ⟨0, _, rfl, rfl, .inl rfl⟩
  | @stepped m₁ m₂ es r h hstep ih =>
    rw [fedIn_append, List.append_eq_nil_iff] at hfed
    obtain ⟨hnone, -, -, hm₂, -⟩ := Machine.of_step_eq_stepped hstep
    obtain ⟨k, last, hsteps, hlast, rfl | ⟨f, hfault⟩⟩ := ih hfed.1
    · have hnext : Machine.after? 1 m₁ = some m₂ :=
        Machine.after?_succ_of_stepped (Machine.attempt_of_step_eq_stepped hstep) 0
      refine ⟨k + 1, m₂, ?_, Machine.after?_trans hlast hnext, .inl rfl⟩
      rw [hm₂, Machine.steps_advance, hsteps, Nat.add_assoc]
    · -- behind a fault no step is executed
      rw [Machine.fault_of_attempt hfault] at hnone
      cases hnone
  | @faulted m₁ m₂ es f h hstep ih =>
    have hattempt := Machine.attempt_of_step_eq_faulted hstep
    have hsame : m₂.steps = m₁.steps := by rw [Machine.of_step_eq_faulted hstep]
    obtain ⟨k, last, hsteps, hlast, rfl | ⟨g, hfault⟩⟩ := ih hfed
    · exact ⟨k, m₁, hsame.trans hsteps, hlast, .inr ⟨f, hattempt⟩⟩
    · rw [Machine.attempt_of_fault (Machine.fault_of_attempt hfault)] at hattempt
      cases hattempt
      exact ⟨k, last, hsteps, hlast, .inr ⟨f, hfault⟩⟩
  | @fed m₁ es h bytes ih =>
    rw [fedIn_append, fedIn_fed, List.append_eq_nil_iff] at hfed
    rw [hfed.2, Machine.feed_nil]
    exact ih hfed.1

/-- **Where a machine comes to** is decided by the number of steps and by whether there is a fault,
whatever is called to get there, as long as nothing is fed. -/
theorem eq_of_paths {m m₁ m₂ : Machine} {es fs : List Event} (h₁ : Path m es m₁)
    (h₂ : Path m fs m₂) (hes : fedIn es = []) (hfs : fedIn fs = []) (hsteps : m₁.steps = m₂.steps)
    (hfault : m₁.fault.isSome = m₂.fault.isSome) : m₁ = m₂ := by
  obtain ⟨k, last₁, hk, hlast₁, hm₁⟩ := h₁.exists_after? hes
  obtain ⟨l, last₂, hl, hlast₂, hm₂⟩ := h₂.exists_after? hfs
  have hkl : k = l := by omega
  rw [hkl, hlast₂, Option.some_inj] at hlast₁
  rw [← hlast₁] at hm₁
  -- a machine that has a fault already is left as it is by an attempt
  have hstays : ∀ {a b : Machine} {f : Fault}, a.attempt = (.faulted f, b) →
      a.fault.isSome = b.fault.isSome → a = b := by
    intro a b f hab hsome
    rw [Machine.fault_of_attempt hab] at hsome
    obtain ⟨g, hg⟩ := Option.isSome_iff_exists.mp hsome
    rw [Machine.attempt_of_fault hg] at hab
    exact congrArg Prod.snd hab
  rcases hm₁ with rfl | ⟨f, hf⟩ <;> rcases hm₂ with rfl | ⟨g, hg⟩
  · rfl
  · exact hstays hg hfault
  · exact (hstays hf hfault.symm).symm
  · rw [hf] at hg
    exact congrArg Prod.snd hg

/-- **When the input is fed makes no difference**, unless the program has to read before it is there.
Let a program be started with some input, and once more with the input that comes late appended to it.

Calls of any kind that feed nothing and never find the first machine starved do the same on both, and the
late input can be fed to the first machine after them: the two are equal then in every respect. It does
not matter whether the second machine is moved by the same calls or by others, if it has executed as many
steps and both have a fault or neither has.

And whatever calls feed the first machine the late input, from outside or by an observer, bit by bit: if
it is never starved in the course of them, the second machine does the same with nothing fed, and in the
end the two are equal. -/
theorem supply_time_unobservable {p : Program} {length : Int} {input : Bytes} {m : Machine}
    (hstart : Machine.new? p length input = some m) (late : Bytes) :
    ∃ n, Machine.new? p length (input ++ late) = some n ∧
      (∀ calls : List Call, (∀ call ∈ calls, call.Unobserved ∧ call.isFeed = false) →
        (∀ a ∈ attemptedAll calls m, ¬ a.Starved) →
        performAll calls n = ((performAll calls m).1, (performAll calls m).2.feed late) ∧
        ∀ others : List Call, fedIn (eventsOf (performAll others n).1) = [] →
          (performAll others n).2.steps = (performAll calls m).2.steps →
          (performAll others n).2.fault.isSome = (performAll calls m).2.fault.isSome →
          (performAll others n).2 = (performAll calls m).2.feed late) ∧
      ∀ calls : List Call, fedIn (eventsOf (performAll calls m).1) = late →
        (∀ a ∈ attemptedAll calls m, ¬ a.Starved) →
        performAll (calls.map Call.unfed) n
          = ((performAll calls m).1.map Report.unfed, (performAll calls m).2) := by
  refine ⟨m.feed late, Machine.new?_append_input hstart late, ?_, ?_⟩
  · intro calls hcalls hfull
    have hsame := performAll_feed hcalls late hfull
    refine ⟨hsame, ?_⟩
    intro others hothers hsteps hfault
    have hpath := path_performAll calls (m.feed late)
    rw [hsame] at hpath
    exact eq_of_paths (path_performAll others (m.feed late)) hpath hothers
      (fedIn_performAll hcalls m) hsteps hfault
  · intro calls hfed hfull
    have hsame := performAll_unfed calls [] hfull
    rwa [List.append_nil, hfed, Machine.feed_nil] at hsame

/-- A program that reads in a loop until it reads a zero, started with one byte. Two more come late,
behind the first four steps, or from an observer when it has seen them. -/
theorem supply_time_unobservable_in_loop :
    ∃ p m n calls, Program.load [43, 91, 44, 46, 93] = .ok p ∧ Machine.new? p 1 [7] = some m ∧
      Machine.new? p 1 [7, 8, 0] = some n ∧
      performAll [.steps 4] n
        = ((performAll [.steps 4] m).1, (performAll [.steps 4] m).2.feed [8, 0]) ∧
      (performAll [.run 3 .never, .step] n).2 = (performAll [.steps 4] m).2.feed [8, 0] ∧
      calls = [Call.observe (ε := Empty) 5 .never
        (fun n _ s => { state := s, feed := if n = 4 then [8, 0] else [] }) (), .run 100 .never] ∧
      (performAll (calls.map Call.unfed) n).2 = (performAll calls m).2 ∧
      (performAll calls m).2.output = [7, 8, 0] := by
  have hload : Program.load [43, 91, 44, 46, 93] = .ok
      ⟨#[.increment, .loopStart, .read, .write, .loopEnd], #[0, 1, 2, 3, 4],
        #[none, some 4, none, none, some 1]⟩ := rfl
  obtain ⟨n, hn, hcalls, hlate⟩ := supply_time_unobservable
    (show Machine.new? ⟨#[.increment, .loopStart, .read, .write, .loopEnd], #[0, 1, 2, 3, 4],
      #[none, some 4, none, none, some 1]⟩ 1 [7] = some _ from rfl) [8, 0]
  have hstart := Machine.eq_start_of_new? hn
  subst hstart
  obtain ⟨hsame, hothers⟩ := hcalls [.steps 4] (by simp [Call.Unobserved, Call.isFeed]) (by decide)
  have hmix := hothers [.run 3 .never, .step] rfl rfl rfl
  have hfed := hlate [Call.observe (ε := Empty) 5 .never
    (fun n _ s => { state := s, feed := if n = 4 then [8, 0] else [] }) (), .run 100 .never] rfl
    (by decide)
  have hlast := congrArg Prod.snd hfed
  exact ⟨_, _, _, _, hload, rfl, hn, hsame, hmix, rfl, hlast, rfl⟩

end TapeMachine
