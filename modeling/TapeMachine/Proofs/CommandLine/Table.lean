/-
What names mean to an executor.

The names that an executor knows are bound once and for all. A command line sees more names while it is
executed, those of the sub directives of what it has executed so far, and forgets them at its end.

* `Table.names`: the names that a table binds;
* `Extends`: a table with more bindings, in which no name is bound twice;
* `extends_define`, `extends_addSubs`: names are only added, one by one or with a directive;
* `table_after`: what a command line sees at any point;
* `run_snd`, `runWords_after`: the executor's own table is kept, to the end and at any point;
* `execute_of_executed`: no directive with sub directives is executed twice;
* `names_keep_their_meaning`: all this for every way to use an executor.
-/
import Mathlib
import TapeMachine.Proofs.CommandLine.Turn

namespace TapeMachine.CommandLine

variable {σ ε : Type}

/-! ### Tables that grow -/

namespace Table

/-- The names that a table binds. -/
def names (t : Table σ ε) : List Bytes :=
  t.map Prod.fst

theorem names_append (t u : Table σ ε) : names (t ++ u) = names t ++ names u :=
  List.map_append

theorem isSome_lookup_iff {t : Table σ ε} {name : Bytes} :
    (t.lookup name).isSome = true ↔ name ∈ names t := by
  rw [List.lookup_isSome_iff, names, List.mem_map]
  constructor
  · rintro ⟨p, hp, hname⟩
    exact ⟨p, hp, (eq_of_beq hname).symm⟩
  · rintro ⟨p, hp, rfl⟩
    exact ⟨p, hp, beq_self_eq_true _⟩

theorem mem_of_lookup {t : Table σ ε} {name : Bytes} {d : Option (Directive σ ε)}
    (h : t.lookup name = some d) : (name, d) ∈ t := by
  obtain ⟨before, behind, rfl, -⟩ := List.lookup_eq_some_iff.mp h
  exact List.mem_append_right before List.mem_cons_self

theorem eq_of_name {t : Table σ ε} (h : (names t).Nodup) {name : Bytes}
    {d d' : Option (Directive σ ε)} (hd : (name, d) ∈ t) (hd' : (name, d') ∈ t) : d = d' := by
  have heq := List.inj_on_of_nodup_map h hd hd' rfl
  exact congrArg Prod.snd heq

theorem lookup_eq_iff {t : Table σ ε} (h : (names t).Nodup) {name : Bytes}
    {d : Option (Directive σ ε)} : t.lookup name = some d ↔ (name, d) ∈ t := by
  constructor
  · exact mem_of_lookup
  · intro hmem
    obtain ⟨d', hlookup⟩ := Option.isSome_iff_exists.mp
      (isSome_lookup_iff.mpr (List.mem_map_of_mem hmem))
    rw [hlookup, eq_of_name h (mem_of_lookup hlookup) hmem]

/-- One more name is bound, which was not in use. -/
theorem nodup_names_snoc {t : Table σ ε} (h : (names t).Nodup) {name : Bytes}
    (hname : (t.lookup name).isSome = false) (d : Option (Directive σ ε)) :
    (names (t ++ [(name, d)])).Nodup := by
  have hfree : name ∉ names t := by
    rw [← isSome_lookup_iff, hname]
    exact Bool.false_ne_true
  rw [names_append, List.nodup_append]
  refine ⟨h, List.nodup_singleton name, ?_⟩
  rintro a ha b hb rfl
  have hsame : a = name := List.mem_singleton.mp hb
  exact hfree (hsame ▸ ha)

end Table

open Table (names)

/-- A table that binds what another one binds, and more; no name is bound twice. -/
structure Extends (t u : Table σ ε) : Prop where
  isPrefix : t <+: u
  nodup : (names u).Nodup

namespace Extends

variable {t u v : Table σ ε} {name : Bytes} {d : Option (Directive σ ε)}

theorem refl (h : (names t).Nodup) : Extends t t :=
  ⟨List.prefix_rfl, h⟩

theorem trans (h : Extends t u) (h' : Extends u v) : Extends t v :=
  ⟨h.isPrefix.trans h'.isPrefix, h'.nodup⟩

theorem snoc (h : Extends t u) (hname : (u.lookup name).isSome = false)
    (d : Option (Directive σ ε)) : Extends t (u ++ [(name, d)]) :=
  ⟨h.isPrefix.trans (List.prefix_append _ _), Table.nodup_names_snoc h.nodup hname d⟩

/-- **A name keeps its meaning.** -/
theorem lookup_eq (h : Extends t u) (hname : t.lookup name = some d) : u.lookup name = some d := by
  obtain ⟨more, rfl⟩ := h.isPrefix
  rw [List.lookup_append, hname, Option.some_or]

end Extends

theorem extends_bindAll (d : Directive σ ε) (more : List Bytes) : ∀ {t u : Table σ ε}, Extends t u →
    Extends t (Executor.bindAll d more u).2 := by
  induction more with
  | nil => exact fun h => h
  | cons name more ih =>
    intro t u h
    rw [Executor.bindAll]
    split
    · exact h
    · next hfree => exact ih (h.snoc (Bool.not_eq_true _ ▸ hfree) (some d))

/-- A directive is bound to free names only, also where it is refused because of one that is in use. -/
theorem extends_define {e : Executor σ ε} (h : (names e.table).Nodup) (name : Bytes)
    (d : Directive σ ε) : Extends e.table (e.define name d).2.table :=
  extends_bindAll d (name :: d.help.aliases) (.refl h)

theorem addSubs_eq_ok (subs : Table σ ε) : ∀ {t u : Table σ ε}, Executor.addSubs subs t = .ok u →
    (names t).Nodup → u = t ++ subs ∧ (names u).Nodup := by
  induction subs with
  | nil =>
    intro t u h hnodup
    cases h
    exact ⟨(List.append_nil t).symm, hnodup⟩
  | cons entry subs ih =>
    obtain ⟨name, d⟩ := entry
    intro t u h hnodup
    rw [Executor.addSubs] at h
    split at h
    · cases h
    · next hfree =>
      obtain ⟨hu, hnodup'⟩ := ih h (Table.nodup_names_snoc hnodup (Bool.not_eq_true _ ▸ hfree) d)
      rw [List.append_assoc] at hu
      exact ⟨hu, hnodup'⟩

/-- Sub directives whose names are in use are refused. -/
theorem addSubs_of_mem {subs t : Table σ ε} (hsome : subs ≠ [])
    (hused : ∀ name ∈ names subs, name ∈ names t) :
    ∃ sub ∈ names subs, Executor.addSubs subs t = .error sub := by
  rcases subs with _ | ⟨⟨name, d⟩, subs⟩
  · exact absurd rfl hsome
  · have hmem : name ∈ names ((name, d) :: subs) := List.mem_cons_self
    refine ⟨name, hmem, ?_⟩
    rw [Executor.addSubs, if_pos (Table.isSome_lookup_iff.mpr (hused name hmem))]

/-! ### What a command line sees -/

variable {e : Executor σ ε} {words : List Bytes} {s : σ}

/-- What an executed turn adds to the names that can be used. -/
theorem Executed.table_eq {unknown : Fallback σ ε} {p q : Position σ ε} {seg : Segment σ ε}
    (h : Executed unknown p seg q) (hnodup : (names p.table).Nodup) :
    q.table = p.table ++ seg.subs ∧ (names q.table).Nodup := by
  cases h with
  | unknown => exact ⟨(List.append_nil p.table).symm, hnodup⟩
  | directive _ _ _ _ hsubs => exact addSubs_eq_ok _ hsubs hnodup

/-- **What a command line sees at any point**: the names of its executor, and those of the sub directives
of what it has executed so far. No name comes twice. -/
theorem table_after (hnodup : (names e.table).Nodup) (words : List Bytes) (s : σ) (n : Nat) :
    (e.after words s n).2.table = e.table ++ (e.after words s n).1.flatMap Segment.subs ∧
      (names (e.after words s n).2.table).Nodup := by
  refine turns_induction
    (P := fun segs q => q.table = e.table ++ segs.flatMap Segment.subs ∧ (names q.table).Nodup)
    ⟨(List.append_nil e.table).symm, hnodup⟩ ?_ n
  rintro segs seg q q' ⟨htable, hunique⟩ hexecuted
  obtain ⟨htable', hunique'⟩ := hexecuted.table_eq hunique
  refine ⟨?_, hunique'⟩
  rw [htable', htable, List.flatMap_append, List.flatMap_singleton, List.append_assoc]

/-- **A command line leaves its executor as it is.** -/
theorem run_snd (e : Executor σ ε) (words : List Bytes) (s : σ) : (e.run words s).2 = e := by
  obtain ⟨store, hkeeps, hrun⟩ :=
    exists_runWords e.unknown (Position.lies_singleton ⟨e.table, words, s⟩)
  rw [Executor.run, hrun]
  exact congrArg (fun table => ({ e with table } : Executor σ ε)) (hkeeps.get_eq Nat.zero_lt_one)

/-- At any point, what a command line sees lies in a store that has the executor's own table as it was. -/
theorem runWords_after (e : Executor σ ε) (words : List Bytes) (s : σ) (n : Nat) :
    ∃ place store, store.get place = (e.after words s n).2.table ∧ store.get 0 = e.table ∧
      Executor.runWords e.unknown 0 ⟨[e.table]⟩ words s
        = Executor.runWords e.unknown place store (e.after words s n).2.words
          (e.after words s n).2.state := by
  obtain ⟨place, store, hkeeps, hlies, hrun⟩ :=
    runWords_turns e.unknown n (Position.lies_singleton ⟨e.table, words, s⟩)
  exact ⟨place, store, hlies.get_eq, hkeeps.get_eq Nat.zero_lt_one, hrun⟩

/-- The table of a command line only grows. -/
theorem extends_after (hnodup : (names e.table).Nodup) (words : List Bytes) (s : σ) (n k : Nat) :
    Extends (e.after words s n).2.table (e.after words s (n + k)).2.table := by
  obtain ⟨htable, -⟩ := table_after hnodup words s n
  obtain ⟨htable', hunique'⟩ := table_after hnodup words s (n + k)
  refine ⟨?_, hunique'⟩
  rw [htable, htable', Executor.after, Executor.after, turns_add, List.flatMap_append,
    ← List.append_assoc]
  exact List.prefix_append _ _

/-- Two segments of one command line have no sub directive in common. -/
theorem pairwise_after (hnodup : (names e.table).Nodup) (words : List Bytes) (s : σ) (n : Nat) :
    (e.after words s n).1.Pairwise fun a b => a.directive = b.directive → a.subs = [] := by
  obtain ⟨htable, hunique⟩ := table_after hnodup words s n
  rw [htable, Table.names_append, List.nodup_append] at hunique
  obtain ⟨-, hsubs, -⟩ := hunique
  rw [names, List.map_flatMap, List.nodup_flatMap] at hsubs
  refine hsubs.2.imp ?_
  intro a b hdisjoint hsame
  have hsubsame : a.subs = b.subs := by rw [Segment.subs, Segment.subs, hsame]
  rw [List.eq_nil_iff_forall_not_mem]
  intro entry hentry
  exact hdisjoint (List.mem_map_of_mem hentry) (List.mem_map_of_mem (hsubsame ▸ hentry))

/-- **A directive with sub directives that comes a second time ends the command line**, under whatever
name it comes: its function is called, and then one of the sub names is in use. -/
theorem execute_of_executed (hnodup : (names e.table).Nodup) {n : Nat} {segs : List (Segment σ ε)}
    {q : Position σ ε} (hafter : e.after words s n = (segs, q)) {seg : Segment σ ε}
    (hseg : seg ∈ segs) (hsome : seg.subs ≠ []) {word : Bytes} {rest left : List Bytes}
    {d : Directive σ ε} {values : List ArgValue} {s' : σ} (hwords : q.words = word :: rest)
    (hd : seg.directive = some d) (hname : q.table.lookup (Utf8.trim word) = some (some d))
    (htake : takeArguments d.params rest = .ok (values, left))
    (hrun : d.run values q.state = (s', none)) :
    ∃ sub ∈ names d.subs,
      e.execute words s = (s', some (.duplicatedSub (Utf8.trim word) sub)) := by
  have hsubs : seg.subs = d.subs := by rw [Segment.subs, hd, Option.map_some, Option.getD_some]
  obtain ⟨htable, -⟩ := table_after hnodup words s n
  rw [hafter] at htable
  have hused : ∀ name ∈ names d.subs, name ∈ names q.table := by
    intro name hmem
    obtain ⟨entry, hentry, rfl⟩ := List.mem_map.mp hmem
    rw [htable, Table.names_append]
    exact List.mem_append_right _ (List.mem_map_of_mem
      (List.mem_flatMap.mpr ⟨seg, hseg, hsubs ▸ hentry⟩))
  obtain ⟨sub, hsub, hadd⟩ := addSubs_of_mem (hsubs ▸ hsome) hused
  have hturn : q.turn e.unknown = .failed s' (.duplicatedSub (Utf8.trim word) sub) := by
    simp only [Position.turn, hwords, hname, htake, hrun, hadd]
  have hexecute := execute_eq_after e words s n
  rw [hafter] at hexecute
  refine ⟨sub, hsub, hexecute.trans (executeWith_of_result ?_)⟩
  rw [hturn]
  rfl

/-! ### Every use of an executor -/

/-- What is asked of an executor. -/
inductive Request (σ ε : Type) where
  /-- It binds a directive; what is bound before a name in use stays bound. -/
  | define (name : Bytes) (d : Directive σ ε)
  | onUnknown (unknown : Fallback σ ε)
  | execute (words : List Bytes)

namespace Request

/-- The executor and the state that a request leaves. -/
def perform : Executor σ ε × σ → Request σ ε → Executor σ ε × σ
  | (e, s), define name d => ((e.define name d).2, s)
  | (e, s), onUnknown unknown => ({ e with unknown }, s)
  | (e, s), execute words => ((e.run words s).2, (e.run words s).1.1)

/-- Requests one after the other. -/
def performAll (requests : List (Request σ ε)) (e : Executor σ ε) (s : σ) : Executor σ ε × σ :=
  requests.foldl perform (e, s)

theorem extends_perform {e : Executor σ ε} (h : (names e.table).Nodup) (s : σ)
    (request : Request σ ε) : Extends e.table (perform (e, s) request).1.table := by
  cases request with
  | define name d => exact extends_define h name d
  | onUnknown => exact .refl h
  | execute words =>
    rw [perform, run_snd]
    exact .refl h

/-- No request takes a name away or gives it another meaning. -/
theorem extends_performAll (requests : List (Request σ ε)) : ∀ {e : Executor σ ε},
    (names e.table).Nodup → ∀ s : σ, Extends e.table (performAll requests e s).1.table := by
  induction requests with
  | nil => exact fun h _ => .refl h
  | cons request requests ih =>
    intro e h s
    have hfirst := extends_perform h s request
    exact hfirst.trans (ih hfirst.nodup _)

end Request

theorem nodup_names_new (help : Handler σ ε) : (names (Executor.new help).table).Nodup :=
  (extends_define (e := { table := [] }) List.nodup_nil _ _).nodup

/-- **Names keep their meaning.** However an executor has been used: a name that it binds stays bound to the
same directive, whatever is asked of it later, and to execute a command line leaves it as it is. At any
point of a command line, the names that can be used are those of the executor and those of the sub
directives of what was executed before, none of them twice; a name that can be used can be used with the
same meaning to the end of the line. They are read from the store, in which the executor's own table is as it
was. So no directive with sub directives is executed twice; one that comes
a second time, under whatever name, ends the line with one of its sub names, if not with an error of its
own. A line that succeeds is executed as a whole. -/
theorem names_keep_their_meaning (help : Handler σ ε) (requests : List (Request σ ε)) (s₀ : σ)
    {e : Executor σ ε} {s : σ} (h : Request.performAll requests (.new help) s₀ = (e, s)) :
    (names e.table).Nodup ∧
    (∀ (later : List (Request σ ε)) (name : Bytes) (d : Option (Directive σ ε)),
      e.table.lookup name = some d →
        (Request.performAll later e s).1.table.lookup name = some d) ∧
    ∀ words : List Bytes,
      (Request.perform (e, s) (.execute words)).1 = e ∧
      ((e.execute words s).2 = none → words = (e.executed words s).flatMap Segment.words) ∧
      (e.executed words s).Pairwise (fun a b => a.directive = b.directive → a.subs = []) ∧
      ∀ (n : Nat) (segs : List (Segment σ ε)) (q : Position σ ε), e.after words s n = (segs, q) →
        words = segs.flatMap Segment.words ++ q.words ∧
        (∃ place store, store.get place = q.table ∧ store.get 0 = e.table ∧
          Executor.runWords e.unknown 0 ⟨[e.table]⟩ words s
            = Executor.runWords e.unknown place store q.words q.state) ∧
        q.table = e.table ++ segs.flatMap Segment.subs ∧ (names q.table).Nodup ∧
        (∀ (name : Bytes) (d : Option (Directive σ ε)), q.table.lookup name = some d →
          (e.table.lookup name = some d ∨ ∃ seg ∈ segs, (name, d) ∈ seg.subs) ∧
          ∀ k, (e.after words s (n + k)).2.table.lookup name = some d) ∧
        ∀ seg ∈ segs, seg.subs ≠ [] → ∀ (word : Bytes) (rest left : List Bytes) (d : Directive σ ε)
          (values : List ArgValue) (s' : σ), q.words = word :: rest → seg.directive = some d →
          q.table.lookup (Utf8.trim word) = some (some d) →
          takeArguments d.params rest = .ok (values, left) → d.run values q.state = (s', none) →
          ∃ sub ∈ names d.subs,
            e.execute words s = (s', some (.duplicatedSub (Utf8.trim word) sub)) := by
  have hnodup : (names e.table).Nodup := by
    have hextends := Request.extends_performAll requests (nodup_names_new help) s₀
    rw [h] at hextends
    exact hextends.nodup
  refine ⟨hnodup, fun later name d hname =>
    (Request.extends_performAll later hnodup s).lookup_eq hname, fun words =>
    ⟨run_snd e words s, words_of_execute_eq_none, pairwise_after hnodup words s words.length, ?_⟩⟩
  intro n segs q hafter
  obtain ⟨htable, hunique⟩ := table_after hnodup words s n
  have hwords := words_after e words s n
  have hextends := extends_after hnodup words s n
  have hstore := runWords_after e words s n
  rw [hafter] at htable hunique hwords hextends hstore
  refine ⟨hwords, hstore, htable, hunique, fun name d hname => ⟨?_, fun k => (hextends k).lookup_eq hname⟩, ?_⟩
  · rw [htable, List.lookup_append, Option.or_eq_some_iff] at hname
    refine hname.imp id fun hsub => ?_
    obtain ⟨seg, hseg, hmem⟩ := List.mem_flatMap.mp (Table.mem_of_lookup hsub.2)
    exact ⟨seg, hseg, hmem⟩
  · intro seg hseg hsome word rest left d values s' hleft hd hname htake hrun
    exact execute_of_executed hnodup hafter hseg hsome hleft hd hname htake hrun

/-- A directive that counts and has a sub directive, defined twice, and a line on which it comes a second
time under its alias. -/
theorem names_keep_their_meaning_under_alias :
    ∃ (d : Directive Nat Unit) (e : Executor Nat Unit),
      Request.performAll [.define [97] d, .define [97] d] (.new ⟨[], fun _ n => (n, none)⟩) 0 = (e, 0) ∧
      e.table.lookup [97] = some (some d) ∧
      (Request.performAll [.execute [[97]], .define [97] d] e 0).1.table.lookup [97]
        = some (some d) ∧
      (Request.perform (e, 0) (.execute [[97], [98]])).1 = e ∧
      ((e.execute [[97], [98]] 0).2 = none ∧
        [[97], [98]] = (e.executed [[97], [98]] 0).flatMap Segment.words) ∧
      (e.after [[97], [98], [99]] 0 3).2.table.lookup [98] = some (some (.mk { id := 2 } none [])) ∧
      ∃ sub ∈ names d.subs, e.execute [[97], [98], [99]] 0
        = (2, some (.duplicatedSub (Utf8.trim [99]) sub)) := by
  obtain ⟨d, hd⟩ : ∃ d : Directive Nat Unit, d = .mk { id := 1, aliases := [[99]] }
    (some ⟨[], fun _ n => (n + 1, none)⟩) [([98], some (.mk { id := 2 } none []))] := ⟨_, rfl⟩
  obtain ⟨e, he⟩ : ∃ e : Executor Nat Unit, Request.performAll [.define [97] d, .define [97] d]
    (.new ⟨[], fun _ n => (n, none)⟩) 0 = (e, 0) := ⟨_, rfl⟩
  obtain ⟨-, hkept, hlines⟩ := names_keep_their_meaning _ _ _ he
  have hbound : e.table.lookup [97] = some (some d) := by
    cases he
    subst hd
    rfl
  have hsuccess : (e.execute [[97], [98]] 0).2 = none := by
    cases he
    subst hd
    cbv
  obtain ⟨hsame, hwhole, -, -⟩ := hlines [[97], [98]]
  -- behind the first two words, the directive is called again under its other name
  have hsegs : (e.after [[97], [98], [99]] 0 2).1
      = [⟨[97], some d, [], []⟩, ⟨[98], some (.mk { id := 2 } none []), [], []⟩] := by
    cases he
    subst hd
    cbv
  have hname : (e.after [[97], [98], [99]] 0 2).2.table.lookup [98]
      = some (some (.mk { id := 2 } none [])) := by
    cases he
    subst hd
    cbv
  have hagain : (e.after [[97], [98], [99]] 0 2).2.table.lookup (Utf8.trim [99])
      = some (some d) := by
    cases he
    subst hd
    cbv
  have hleft : (e.after [[97], [98], [99]] 0 2).2.words = [[99]] := by
    cases he
    subst hd
    cbv
  have hrun : d.run [] (e.after [[97], [98], [99]] 0 2).2.state = (2, none) := by
    cases he
    subst hd
    cbv
  obtain ⟨-, -, -, hpoints⟩ := hlines [[97], [98], [99]]
  obtain ⟨-, -, -, -, hnames, htwice⟩ := hpoints 2 _ _ (Prod.ext hsegs rfl)
  refine ⟨d, e, he, hbound, hkept [.execute [[97]], .define [97] d] [97] (some d) hbound,
    hsame, ⟨hsuccess, hwhole hsuccess⟩, (hnames [98] _ hname).2 1,
    htwice _ List.mem_cons_self ?_ [99] [] [] d [] 2 hleft rfl hagain ?_ hrun⟩
  · subst hd
    exact List.cons_ne_nil _ _
  · subst hd
    rfl

end TapeMachine.CommandLine
