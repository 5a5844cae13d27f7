/-
Command lines word by word.

A command line is executed in turns. A turn takes the next word and, if the word names a directive, the
arguments behind it; these words are the segment of the turn. It leaves a table with the sub directives
added, the words that are left, and a new state; or it fails, and the command line with it.

* `Position.turn`: one turn;
* `turn_taken`: all that a turn can do;
* `turns`: some turns in a row, with their segments;
* `words_turns`: the segments and the words that are left make up the command line;
* `Position.Lies`: the table of a position lies in a store;
* `leads_turn`: what a turn comes to with the store, whose tables it keeps;
* `execute_eq`: a command line does what its turns do;
* `Executor.executeAll`: command lines one after the other.
-/
import Mathlib.Data.List.Basic
import TapeMachine.Proofs.CommandLine.Store

namespace TapeMachine.CommandLine

variable {σ ε : Type}

/-- What is done with words that name no directive. -/
abbrev Fallback (σ ε : Type) := Option (Bytes → σ → σ × Option ε)

/-- How far a command line has come. -/
structure Position (σ ε : Type) where
  /-- The directives that the next word can name. -/
  table : Table σ ε
  words : List Bytes
  state : σ

/-- Words that are executed together: one that names a directive, with its arguments, or one that names
none. -/
structure Segment (σ ε : Type) where
  word : Bytes
  directive : Option (Directive σ ε) := none
  /-- The words that were read as arguments, and what they were read as. -/
  taken : List Bytes := []
  values : List ArgValue := []

namespace Segment

/-- The name that the first word stands for. -/
def name (seg : Segment σ ε) : Bytes :=
  Utf8.trim seg.word

/-- The words of the segment: the one that names it, and its arguments. -/
def words (seg : Segment σ ε) : List Bytes :=
  seg.word :: seg.taken

/-- The sub directives that can be used behind the segment. -/
def subs (seg : Segment σ ε) : List (Bytes × Option (Directive σ ε)) :=
  (seg.directive.map Directive.subs).getD []

end Segment

/-- What a turn comes to. -/
inductive Turn (σ ε : Type) where
  /-- There was no word left. -/
  | finished
  | failed (state : σ) (error : ExecuteError ε)
  | executed (segment : Segment σ ε) (next : Position σ ε)

/-- What becomes of a command line that a turn ends. -/
def Turn.result? (s : σ) : Turn σ ε → Option (σ × Option (ExecuteError ε))
  | finished => some (s, none)
  | failed s error => some (s, some error)
  | executed _ _ => none

/-- Takes a turn. -/
def Position.turn (unknown : Fallback σ ε) (p : Position σ ε) : Turn σ ε :=
  match p.words with
  | [] => .finished
  | word :: words =>
    let name := Utf8.trim word
    match p.table.lookup name with
    | none =>
      match unknown with
      | none => .failed p.state (.unknown name)
      | some handle =>
        if name.head? = some 45 then .failed p.state (.unknown name)
        else match handle name p.state with
          | (s, some error) => .failed s (.rejected error)
          | (s, none) => .executed { word } ⟨p.table, words, s⟩
    | some none => .failed p.state (.unbound name)
    | some (some d) =>
      match takeArguments d.params words with
      | .error error => .failed p.state (.argument name error)
      | .ok (values, rest) =>
        match d.run values p.state with
        | (s, some error) => .failed s (.handler name error)
        | (s, none) =>
          match Executor.addSubs d.subs p.table with
          | .error sub => .failed s (.duplicatedSub name sub)
          | .ok table =>
            .executed ⟨word, some d, words.take (words.length - rest.length), values⟩ ⟨table, rest, s⟩

/-- Runs words with the directives of a table, in a store that has no other one. -/
def Executor.executeWith (unknown : Fallback σ ε) (table : Table σ ε) (words : List Bytes) (s : σ) :
    σ × Option (ExecuteError ε) :=
  (runWords unknown 0 ⟨[table]⟩ words s).1

theorem execute_eq_executeWith (e : Executor σ ε) (words : List Bytes) (s : σ) :
    e.execute words s = Executor.executeWith e.unknown e.table words s :=
  rfl

/-- Takes some turns in a row, up to one that ends the command line. -/
def turns (unknown : Fallback σ ε) : Nat → Position σ ε → List (Segment σ ε) × Position σ ε
  | 0, p => ([], p)
  | n + 1, p =>
    match p.turn unknown with
    | .executed seg q => (seg :: (turns unknown n q).1, (turns unknown n q).2)
    | .finished | .failed _ _ => ([], p)

/-- The segments of the first turns of a command line, and how far it has come then. -/
def Executor.after (e : Executor σ ε) (words : List Bytes) (s : σ) (n : Nat) :
    List (Segment σ ε) × Position σ ε :=
  turns e.unknown n ⟨e.table, words, s⟩

/-- The segments of a command line that are executed, up to the end or to the first one that fails. -/
def Executor.executed (e : Executor σ ε) (words : List Bytes) (s : σ) : List (Segment σ ε) :=
  (e.after words s words.length).1

/-! ### Arguments -/

/-- Arguments are the words right behind the name, one for each type; only an optional argument may be
left out. -/
theorem of_takeArguments {types : List ArgType} {words rest : List Bytes} {values : List ArgValue}
    (h : takeArguments types words = .ok (values, rest)) :
    values.length = types.length ∧ rest = words.drop types.length := by
  induction types generalizing words values with
  | nil =>
    cases h
    exact ⟨rfl, rfl⟩
  | cons type types ih =>
    rw [takeArguments] at h
    split at h
    · cases h
    · split at h
      · cases h
      · next hrest =>
        cases h
        obtain ⟨hlength, hdrop⟩ := ih hrest
        refine ⟨congrArg (· + 1) hlength, ?_⟩
        rw [hdrop, List.drop_drop, List.length_cons, Nat.add_comm]

theorem append_of_takeArguments {types : List ArgType} {words rest : List Bytes}
    {values : List ArgValue} (h : takeArguments types words = .ok (values, rest)) :
    words = words.take (words.length - rest.length) ++ rest := by
  obtain ⟨-, hrest⟩ := of_takeArguments h
  have hdrop : words.drop (words.length - rest.length) = rest := by
    by_cases hle : types.length ≤ words.length
    · rw [hrest, List.length_drop, Nat.sub_sub_self hle]
    · rw [hrest, List.length_drop, List.drop_of_length_le (by omega),
        List.drop_of_length_le (by omega)]
  conv => lhs; rw [← List.take_append_drop (words.length - rest.length) words, hdrop]

/-- The words behind the arguments make no difference to them. -/
theorem taken_of_takeArguments {types : List ArgType} {taken rest : List Bytes}
    {values : List ArgValue} (h : takeArguments types (taken ++ rest) = .ok (values, rest)) :
    takeArguments types taken = .ok (values, []) := by
  induction types generalizing taken values with
  | nil =>
    obtain ⟨hvalues, hrest⟩ := Prod.mk.inj (Except.ok.inj h)
    rw [List.append_left_eq_self.mp hrest, ← hvalues]
    rfl
  | cons type types ih =>
    rcases taken with _ | ⟨word, taken⟩
    · -- only at the end of the command line may a word be missing
      obtain ⟨-, hrest⟩ := of_takeArguments h
      have hlength := congrArg List.length hrest
      rw [List.nil_append, List.length_drop, List.length_cons] at hlength
      obtain rfl : rest = [] := List.eq_nil_of_length_eq_zero (by omega)
      exact h
    · rw [takeArguments] at h ⊢
      have hparse : type.parse (word :: (taken ++ rest)) = type.parse (word :: taken) := by
        cases type <;> rfl
      rw [List.cons_append, hparse] at h
      rw [List.drop_succ_cons, List.drop_zero] at h ⊢
      split at h
      · cases h
      · split at h
        · cases h
        · next hrest =>
          cases h
          rw [ih hrest]

/-! ### One turn -/

variable {unknown : Fallback σ ε} {p q : Position σ ε} {seg : Segment σ ε}

/-- What an executed turn did. -/
inductive Executed (unknown : Fallback σ ε) (p : Position σ ε) : Segment σ ε → Position σ ε → Prop
  | unknown {word : Bytes} {rest : List Bytes} {handle : Bytes → σ → σ × Option ε} {s : σ}
      (hwords : p.words = word :: rest) (hname : p.table.lookup (Utf8.trim word) = none)
      (hunknown : unknown = some handle) (hhandle : handle (Utf8.trim word) p.state = (s, none)) :
      Executed unknown p { word } ⟨p.table, rest, s⟩
  | directive {word : Bytes} {taken rest : List Bytes} {d : Directive σ ε} {values : List ArgValue}
      {s : σ} {table : Table σ ε} (hwords : p.words = word :: (taken ++ rest))
      (hname : p.table.lookup (Utf8.trim word) = some (some d))
      (htake : takeArguments d.params (taken ++ rest) = .ok (values, rest))
      (hrun : d.run values p.state = (s, none))
      (hsubs : Executor.addSubs d.subs p.table = .ok table) :
      Executed unknown p ⟨word, some d, taken, values⟩ ⟨table, rest, s⟩

/-- What a failed turn did: it stopped at the word, or its function was called first. -/
inductive Failed (unknown : Fallback σ ε) (p : Position σ ε) : σ → ExecuteError ε → Prop
  | unknown {word : Bytes} {rest : List Bytes} (hwords : p.words = word :: rest)
      (hname : p.table.lookup (Utf8.trim word) = none)
      (hrefused : unknown = none ∨ (Utf8.trim word).head? = some 45) :
      Failed unknown p p.state (.unknown (Utf8.trim word))
  | rejected {word : Bytes} {rest : List Bytes} {handle : Bytes → σ → σ × Option ε} {s : σ} {error : ε}
      (hwords : p.words = word :: rest) (hname : p.table.lookup (Utf8.trim word) = none)
      (hunknown : unknown = some handle)
      (hhandle : handle (Utf8.trim word) p.state = (s, some error)) :
      Failed unknown p s (.rejected error)
  | unbound {word : Bytes} {rest : List Bytes} (hwords : p.words = word :: rest)
      (hname : p.table.lookup (Utf8.trim word) = some none) :
      Failed unknown p p.state (.unbound (Utf8.trim word))
  | argument {word : Bytes} {rest : List Bytes} {d : Directive σ ε} {error : ArgError}
      (hwords : p.words = word :: rest) (hname : p.table.lookup (Utf8.trim word) = some (some d))
      (htake : takeArguments d.params rest = .error error) :
      Failed unknown p p.state (.argument (Utf8.trim word) error)
  | handler {word : Bytes} {words rest : List Bytes} {d : Directive σ ε} {values : List ArgValue}
      {s : σ} {error : ε} (hwords : p.words = word :: words)
      (hname : p.table.lookup (Utf8.trim word) = some (some d))
      (htake : takeArguments d.params words = .ok (values, rest))
      (hrun : d.run values p.state = (s, some error)) :
      Failed unknown p s (.handler (Utf8.trim word) error)
  | duplicatedSub {word : Bytes} {words rest : List Bytes} {d : Directive σ ε}
      {values : List ArgValue} {s : σ} {sub : Bytes} (hwords : p.words = word :: words)
      (hname : p.table.lookup (Utf8.trim word) = some (some d))
      (htake : takeArguments d.params words = .ok (values, rest))
      (hrun : d.run values p.state = (s, none))
      (hsubs : Executor.addSubs d.subs p.table = .error sub) :
      Failed unknown p s (.duplicatedSub (Utf8.trim word) sub)

/-- What a turn did, whatever it came to. -/
inductive Taken (unknown : Fallback σ ε) (p : Position σ ε) : Turn σ ε → Prop
  | finished (h : p.words = []) : Taken unknown p .finished
  | failed {s : σ} {error : ExecuteError ε} (h : Failed unknown p s error) :
      Taken unknown p (.failed s error)
  | executed {seg : Segment σ ε} {q : Position σ ε} (h : Executed unknown p seg q) :
      Taken unknown p (.executed seg q)

/-- **All that a turn can have done.** -/
theorem turn_taken (unknown : Fallback σ ε) (p : Position σ ε) : Taken unknown p (p.turn unknown) := by
  rw [Position.turn]
  split
  · next hwords => exact .finished hwords
  · next word words hwords =>
    dsimp only
    split
    · -- the word names nothing, so it is for the handler if it looks like no flag
      next hname =>
      split
      · exact .failed (.unknown hwords hname (.inl rfl))
      · split
        · next hdash => exact .failed (.unknown hwords hname (.inr hdash))
        · split
          · next hhandle => exact .failed (.rejected hwords hname rfl hhandle)
          · next hhandle => exact .executed (.unknown hwords hname rfl hhandle)
    · next hname => exact .failed (.unbound hwords hname)
    · -- the arguments are read first, then the function is called, then the sub directives are added
      next d hname =>
      split
      · next htake => exact .failed (.argument hwords hname htake)
      · next values rest htake =>
        split
        · next hrun => exact .failed (.handler hwords hname htake hrun)
        · next hrun =>
          split
          · next hsubs => exact .failed (.duplicatedSub hwords hname htake hrun hsubs)
          · next table hsubs =>
            have hwords' := append_of_takeArguments htake
            exact .executed
              (.directive (hwords.trans (congrArg _ hwords')) hname (hwords' ▸ htake) hrun hsubs)

theorem turn_executed (h : p.turn unknown = .executed seg q) : Executed unknown p seg q := by
  have htaken := turn_taken unknown p
  rw [h] at htaken
  cases htaken with
  | executed hexecuted => exact hexecuted

theorem turn_failed {s : σ} {error : ExecuteError ε} (h : p.turn unknown = .failed s error) :
    Failed unknown p s error := by
  have htaken := turn_taken unknown p
  rw [h] at htaken
  cases htaken with
  | failed hfailed => exact hfailed

/-- Only a command line without words is finished. -/
theorem turn_finished (h : p.turn unknown = .finished) : p.words = [] := by
  have htaken := turn_taken unknown p
  rw [h] at htaken
  cases htaken with
  | finished hwords => exact hwords

/-- The words of an executed turn stand before those that it leaves. -/
theorem Executed.words_eq (h : Executed unknown p seg q) : p.words = seg.words ++ q.words := by
  cases h with
  | unknown hwords => exact hwords
  | directive hwords => exact hwords

/-! ### Turns in a store -/

/-- The table of a position lies in a store, at a place. -/
structure Position.Lies (p : Position σ ε) (place : Nat) (store : TableStore σ ε) : Prop where
  lt : place < store.tables.length
  get_eq : store.get place = p.table

/-- What words come to that begin with a turn: what it ends with, or what the words behind it come to. All
tables of the store are kept. -/
def Turn.Leads (unknown : Fallback σ ε) (s : σ) (store : TableStore σ ε)
    (r : (σ × Option (ExecuteError ε)) × TableStore σ ε) : Turn σ ε → Prop
  | finished => r = ((s, none), store)
  | failed s error => ∃ store', store.Keeps store' ∧ r = ((s, some error), store')
  | executed _ q => ∃ place store', store.Keeps store' ∧ q.Lies place store' ∧
      r = Executor.runWords unknown place store' q.words q.state

section Store

variable {place : Nat} {store : TableStore σ ε}

/-- The table of a position in a store of its own. -/
theorem Position.lies_singleton (p : Position σ ε) : p.Lies 0 ⟨[p.table]⟩ :=
  ⟨Nat.zero_lt_one, rfl⟩

/-- **One turn with the store.** -/
theorem leads_turn (unknown : Fallback σ ε) (hlies : p.Lies place store) :
    (p.turn unknown).Leads unknown p.state store
      (Executor.runWords unknown place store p.words p.state) := by
  obtain ⟨table, words, s⟩ := p
  obtain ⟨hlt, hget⟩ := hlies
  have hkeeps := TableStore.Keeps.refl store
  rcases words with _ | ⟨word, words⟩
  · rw [Executor.runWords.eq_def, Position.turn]
    rfl
  · rw [Executor.runWords.eq_def, Position.turn]
    dsimp only at hget ⊢
    rw [hget]
    -- both sides branch on the same things in the same order
    rcases table.lookup (Utf8.trim word) with _ | _ | d
    · rcases unknown with _ | handle
      · exact ⟨store, hkeeps, rfl⟩
      · dsimp only
        split
        · exact ⟨store, hkeeps, rfl⟩
        · rcases handle (Utf8.trim word) s with ⟨s', _ | error⟩
          · exact ⟨place, store, hkeeps, ⟨hlt, hget⟩, rfl⟩
          · exact ⟨store, hkeeps, rfl⟩
    · exact ⟨store, hkeeps, rfl⟩
    · dsimp only
      split
      · next htake =>
        rw [htake]
        exact ⟨store, hkeeps, rfl⟩
      · next values rest htake =>
        rw [htake]
        dsimp only
        rcases d.run values s with ⟨s', _ | error⟩
        · dsimp only
          rcases hsubs : Executor.addSubs d.subs table with sub | table'
          · obtain ⟨place', store', hreveal, hkeeps'⟩ := TableStore.reveal_of_error (hget ▸ hsubs)
            rw [hreveal]
            exact ⟨store', hkeeps', rfl⟩
          · obtain ⟨place', store', hreveal, hkeeps', hlt', hget'⟩ :=
              TableStore.reveal_of_ok hlt (hget ▸ hsubs)
            rw [hreveal]
            exact ⟨place', store', hkeeps', ⟨hlt', hget'⟩, rfl⟩
        · exact ⟨store, hkeeps, rfl⟩

/-- A command line goes on where a turn leaves it. -/
theorem runWords_of_executed (h : p.turn unknown = .executed seg q) (hlies : p.Lies place store) :
    ∃ place' store', store.Keeps store' ∧ q.Lies place' store' ∧
      Executor.runWords unknown place store p.words p.state
        = Executor.runWords unknown place' store' q.words q.state := by
  have hturn := leads_turn unknown hlies
  rwa [h] at hturn

/-- A turn that ends a command line tells how. -/
theorem runWords_of_result {r : σ × Option (ExecuteError ε)}
    (h : (p.turn unknown).result? p.state = some r) (hlies : p.Lies place store) :
    ∃ store', store.Keeps store' ∧
      Executor.runWords unknown place store p.words p.state = (r, store') := by
  have hturn := leads_turn unknown hlies
  cases hcomes : p.turn unknown with
  | finished =>
    rw [hcomes] at h hturn
    cases h
    exact ⟨store, .refl store, hturn⟩
  | failed s error =>
    rw [hcomes] at h hturn
    cases h
    exact hturn
  | executed =>
    rw [hcomes] at h
    cases h

end Store

/-! ### Turns in a row -/

/-- Where a turn ends the command line, no more are taken. -/
theorem turns_of_result {r : σ × Option (ExecuteError ε)}
    (h : (p.turn unknown).result? p.state = some r) (n : Nat) : turns unknown n p = ([], p) := by
  rcases n with _ | n
  · rfl
  · rw [turns]
    split
    · next hturn =>
      rw [hturn] at h
      cases h
    · rfl
    · rfl

/-- A turn is executed or ends the command line. -/
theorem turn_cases (unknown : Fallback σ ε) (p : Position σ ε) :
    (∃ seg q, p.turn unknown = .executed seg q ∧ Executed unknown p seg q) ∨
      ∃ r, (p.turn unknown).result? p.state = some r := by
  cases h : p.turn unknown with
  | finished => exact .inr ⟨_, rfl⟩
  | failed s error => exact .inr ⟨_, rfl⟩
  | executed seg q => exact .inl ⟨seg, q, rfl, turn_executed h⟩

theorem turns_of_executed (h : p.turn unknown = .executed seg q) (n : Nat) :
    turns unknown (n + 1) p = (seg :: (turns unknown n q).1, (turns unknown n q).2) := by
  rw [turns, h]

theorem turns_extend {P : List (Segment σ ε) → Position σ ε → Prop}
    (hstep : ∀ {segs : List (Segment σ ε)} {seg : Segment σ ε} {p q : Position σ ε}, P segs p →
      Executed unknown p seg q → P (segs ++ [seg]) q) (n : Nat) :
    ∀ {segs : List (Segment σ ε)} {p : Position σ ε}, P segs p →
      P (segs ++ (turns unknown n p).1) (turns unknown n p).2 := by
  induction n with
  | zero =>
    intro segs p h
    rw [turns, List.append_nil]
    exact h
  | succ n ih =>
    intro segs p h
    rcases turn_cases unknown p with ⟨seg, q, hturn, hexecuted⟩ | ⟨r, hresult⟩
    · have hrest := ih (hstep h hexecuted)
      rw [List.append_assoc] at hrest
      rw [turns_of_executed hturn]
      exact hrest
    · rw [turns_of_result hresult, List.append_nil]
      exact h

/-- **What holds of the segments and the position**, if it holds at the start and no turn breaks it. -/
theorem turns_induction {P : List (Segment σ ε) → Position σ ε → Prop} (h : P [] p)
    (hstep : ∀ {segs : List (Segment σ ε)} {seg : Segment σ ε} {p q : Position σ ε}, P segs p →
      Executed unknown p seg q → P (segs ++ [seg]) q) (n : Nat) :
    P (turns unknown n p).1 (turns unknown n p).2 :=
  turns_extend hstep n h

/-- Turns can be cut into two parts. -/
theorem turns_add (a b : Nat) : ∀ p : Position σ ε, turns unknown (a + b) p
    = ((turns unknown a p).1 ++ (turns unknown b (turns unknown a p).2).1,
      (turns unknown b (turns unknown a p).2).2) := by
  induction a with
  | zero =>
    intro p
    rw [Nat.zero_add]
    rfl
  | succ a ih =>
    intro p
    rcases turn_cases unknown p with ⟨seg, q, hturn, -⟩ | ⟨r, hresult⟩
    · rw [Nat.succ_add, turns_of_executed hturn, turns_of_executed hturn, ih]
      rfl
    · rw [turns_of_result hresult, turns_of_result hresult, turns_of_result hresult]
      rfl

/-- **The segments and the words that are left make up the command line.** -/
theorem words_turns (unknown : Fallback σ ε) (n : Nat) (p : Position σ ε) :
    p.words = (turns unknown n p).1.flatMap Segment.words ++ (turns unknown n p).2.words := by
  refine turns_induction (P := fun segs q => p.words = segs.flatMap Segment.words ++ q.words) rfl ?_ n
  intro segs seg q q' h hexecuted
  rw [h, hexecuted.words_eq, List.flatMap_append, List.flatMap_singleton, List.append_assoc]

/-- As many turns as there are words are enough. -/
theorem exists_result (unknown : Fallback σ ε) (n : Nat) : ∀ {p : Position σ ε}, p.words.length ≤ n → ∃ r,
    ((turns unknown n p).2.turn unknown).result? (turns unknown n p).2.state = some r := by
  induction n with
  | zero =>
    intro p hlength
    have hwords : p.words = [] := List.eq_nil_of_length_eq_zero (Nat.le_zero.mp hlength)
    rw [turns, Position.turn, hwords]
    exact ⟨_, rfl⟩
  | succ n ih =>
    intro p hlength
    rcases turn_cases unknown p with ⟨seg, q, hturn, hexecuted⟩ | ⟨r, hresult⟩
    · rw [hexecuted.words_eq, List.length_append, Segment.words, List.length_cons] at hlength
      rw [turns_of_executed hturn]
      exact ih (by omega)
    · rw [turns_of_result hresult]
      exact ⟨r, hresult⟩

/-- Turns in a row with the store: the table of the last position lies in one that keeps all tables. -/
theorem runWords_turns (unknown : Fallback σ ε) (n : Nat) : ∀ {p : Position σ ε} {place : Nat}
    {store : TableStore σ ε}, p.Lies place store →
      ∃ place' store', store.Keeps store' ∧ (turns unknown n p).2.Lies place' store' ∧
        Executor.runWords unknown place store p.words p.state
          = Executor.runWords unknown place' store' (turns unknown n p).2.words
            (turns unknown n p).2.state := by
  induction n with
  | zero => exact fun {p place store} hlies => ⟨place, store, .refl store, hlies, rfl⟩
  | succ n ih =>
    intro p place store hlies
    rcases turn_cases unknown p with ⟨seg, q, hturn, -⟩ | ⟨r, hresult⟩
    · obtain ⟨place', store', hkeeps, hlies', hrun⟩ := runWords_of_executed hturn hlies
      obtain ⟨place'', store'', hkeeps', hlies'', hrest⟩ := ih hlies'
      rw [turns_of_executed hturn]
      exact ⟨place'', store'', hkeeps.trans hkeeps', hlies'', hrun.trans hrest⟩
    · rw [turns_of_result hresult]
      exact ⟨place, store, .refl store, hlies, rfl⟩

theorem executeWith_of_result {r : σ × Option (ExecuteError ε)}
    (h : (p.turn unknown).result? p.state = some r) :
    Executor.executeWith unknown p.table p.words p.state = r := by
  obtain ⟨store', -, hrun⟩ := runWords_of_result h p.lies_singleton
  rw [Executor.executeWith, hrun]

/-- **Words with the store.** What they come to depends on the table at the place only, and all tables are
kept. -/
theorem exists_runWords (unknown : Fallback σ ε) {place : Nat} {store : TableStore σ ε}
    (hlies : p.Lies place store) : ∃ store', store.Keeps store' ∧
      Executor.runWords unknown place store p.words p.state
        = (Executor.executeWith unknown p.table p.words p.state, store') := by
  obtain ⟨r, hresult⟩ := exists_result unknown p.words.length (Nat.le_refl p.words.length)
  -- the same turns in any store that has the table end with the same result
  have hsame : ∀ {place : Nat} {store : TableStore σ ε}, p.Lies place store →
      ∃ store', store.Keeps store' ∧
        Executor.runWords unknown place store p.words p.state = (r, store') := by
    intro place store hlies
    obtain ⟨place', store', hkeeps, hlies', hrun⟩ := runWords_turns unknown p.words.length hlies
    obtain ⟨last, hkeeps', hlast⟩ := runWords_of_result hresult hlies'
    exact ⟨last, hkeeps.trans hkeeps', hrun.trans hlast⟩
  obtain ⟨alone, -, halone⟩ := hsame p.lies_singleton
  rw [Executor.executeWith, halone]
  exact hsame hlies

theorem executeWith_turns (unknown : Fallback σ ε) (n : Nat) (p : Position σ ε) :
    Executor.executeWith unknown p.table p.words p.state
      = Executor.executeWith unknown (turns unknown n p).2.table (turns unknown n p).2.words
        (turns unknown n p).2.state := by
  obtain ⟨place, store, -, hlies, hrun⟩ := runWords_turns unknown n p.lies_singleton
  obtain ⟨store', -, hrest⟩ := exists_runWords unknown hlies
  rw [Executor.executeWith, hrun, hrest]

/-- A command line goes on where a turn leaves it. -/
theorem executeWith_eq (unknown : Fallback σ ε) (p : Position σ ε) :
    Executor.executeWith unknown p.table p.words p.state
      = match p.turn unknown with
        | .finished => (p.state, none)
        | .failed s error => (s, some error)
        | .executed _ q => Executor.executeWith unknown q.table q.words q.state := by
  cases hturn : p.turn unknown with
  | finished | failed => exact executeWith_of_result (congrArg (Turn.result? p.state) hturn)
  | executed seg q =>
    have hone := executeWith_turns unknown 1 p
    rw [turns_of_executed hturn] at hone
    exact hone

theorem execute_eq_after (e : Executor σ ε) (words : List Bytes) (s : σ) (n : Nat) :
    e.execute words s = Executor.executeWith e.unknown (e.after words s n).2.table
      (e.after words s n).2.words (e.after words s n).2.state :=
  executeWith_turns e.unknown n ⟨e.table, words, s⟩

theorem words_after (e : Executor σ ε) (words : List Bytes) (s : σ) (n : Nat) :
    words = (e.after words s n).1.flatMap Segment.words ++ (e.after words s n).2.words :=
  words_turns e.unknown n ⟨e.table, words, s⟩

/-- **A command line does what its turns do**, and ends as the last of them. -/
theorem execute_eq (e : Executor σ ε) (words : List Bytes) (s : σ) :
    ((e.after words s words.length).2.turn e.unknown).result? (e.after words s words.length).2.state
      = some (e.execute words s) := by
  obtain ⟨r, hresult⟩ := exists_result e.unknown words.length
    (p := ⟨e.table, words, s⟩) (Nat.le_refl _)
  have hexecute : e.execute words s = r :=
    (execute_eq_after e words s words.length).trans (executeWith_of_result hresult)
  rw [hexecute]
  exact hresult

/-- A command line that succeeds is executed as a whole. -/
theorem words_of_execute_eq_none {e : Executor σ ε} {words : List Bytes} {s : σ}
    (h : (e.execute words s).2 = none) : words = (e.executed words s).flatMap Segment.words := by
  have hresult := execute_eq e words s
  cases hturn : (e.after words s words.length).2.turn e.unknown with
  | finished =>
    have hwords := words_after e words s words.length
    rw [turn_finished hturn, List.append_nil] at hwords
    exact hwords
  | failed =>
    rw [hturn, Turn.result?, Option.some_inj] at hresult
    rw [← hresult] at h
    cases h
  | executed =>
    rw [hturn] at hresult
    cases hresult

/-! ### Command lines in a row -/

/-- Executes command lines one after the other, whether they succeed or not. Returns what is executed of
each of them, and the last state. -/
def Executor.executeAll (e : Executor σ ε) : List (List Bytes) → σ → List (List (Segment σ ε)) × σ
  | [], s => ([], s)
  | words :: lines, s =>
    let rest := e.executeAll lines (e.execute words s).1
    (e.executed words s :: rest.1, rest.2)

/-- What is executed of a command line are the first of its words. -/
theorem forall₂_executeAll (e : Executor σ ε) (lines : List (List Bytes)) : ∀ s : σ,
    List.Forall₂ (fun words segs => segs.flatMap Segment.words <+: words) lines
      (e.executeAll lines s).1 := by
  induction lines with
  | nil => exact fun _ => .nil
  | cons words lines ih =>
    exact fun s => .cons ⟨_, (words_after e words s words.length).symm⟩ (ih _)

end TapeMachine.CommandLine
