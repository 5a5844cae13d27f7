/-
Flags among other definitions.

The words of a flag are bound when it is defined, and its value is kept in a slot of its own. Nothing that is
defined before or later is bound to its words or writes its slot.

* `Definition`: what is defined on an executor;
* `Flags.Grows`: more names are bound, and more slots are in use;
* `Flags.mem_addAll`: what the names of an executor are bound to;
* `Flags.governs_addAll`: nothing but the words of a flag writes its slot;
* `flags_keep_last_write`: the value of a flag behind any number of command lines.
-/
import TapeMachine.Proofs.CommandLine.Flag

namespace TapeMachine.CommandLine

open Table (names)

variable {τ ε : Type}

/-- What is defined on an executor: a flag, or another directive. -/
inductive Definition (τ ε : Type) where
  | flag (f : Flag)
  | directive (name : Bytes) (d : Directive (FlagState τ) ε)

namespace Flags

/-- An executor without flags. -/
def new (help : Handler (FlagState τ) ε) (unknown : Fallback (FlagState τ) ε) : Flags τ ε where
  executor := { Executor.new help with unknown }

/-- Goes on behind a definition, also where it was refused because of a name in use. -/
def add (flags : Flags τ ε) : Definition τ ε → Flags τ ε
  | .flag f => (flags.define f).2
  | .directive name d => { flags with executor := (flags.executor.define name d).2 }

/-- Goes on behind definitions. -/
def addAll (definitions : List (Definition τ ε)) (flags : Flags τ ε) : Flags τ ε :=
  definitions.foldl add flags

/-! ### What a definition adds -/

/-- More names are bound, and more slots are in use. -/
structure Grows (flags flags' : Flags τ ε) : Prop where
  table : Extends flags.executor.table flags'.executor.table
  initial : flags.initial <+: flags'.initial
  unknown : flags'.executor.unknown = flags.executor.unknown

variable {flags flags' flags'' : Flags τ ε}

theorem Grows.refl (h : (names flags.executor.table).Nodup) : Grows flags flags :=
  ⟨.refl h, List.prefix_rfl, rfl⟩

theorem Grows.trans (h : Grows flags flags') (h' : Grows flags' flags'') : Grows flags flags'' :=
  ⟨h.table.trans h'.table, h.initial.trans h'.initial, h'.unknown.trans h.unknown⟩

/-- Binds one more name. -/
def bind (flags : Flags τ ε) (name : Bytes) (d : Directive (FlagState τ) ε) : Flags τ ε where
  executor := { flags.executor with table := flags.executor.table ++ [(name, some d)] }
  initial := flags.initial
  nextId := flags.nextId + 1

variable {name : Bytes} {d : Directive (FlagState τ) ε}

theorem grows_bind (h : (names flags.executor.table).Nodup) (hfree : name ∉ names flags.executor.table)
    (d : Directive (FlagState τ) ε) : Grows flags (flags.bind name d) where
  table := (Extends.refl h).snoc (Bool.eq_false_iff.mpr fun hused =>
    hfree (Table.isSome_lookup_iff.mp hused)) (some d)
  initial := List.prefix_rfl
  unknown := rfl

theorem lookup_bind (hfree : name ∉ names flags.executor.table) :
    (flags.bind name d).executor.table.lookup name = some (some d) := by
  have hnone : flags.executor.table.lookup name = none := by
    rw [← Option.not_isSome_iff_eq_none, Table.isSome_lookup_iff]
    exact hfree
  rw [bind, List.lookup_append, hnone, Option.none_or, List.lookup_cons_self]

/-- A word is bound if it is free, and else refused with all words behind it. -/
theorem bindWords_cons (w : Word τ ε) (ws : List (Word τ ε)) (flags : Flags τ ε) :
    w.1 ∈ names flags.executor.table ∧ bindWords (w :: ws) flags = (some w.1, flags) ∨
      w.1 ∉ names flags.executor.table ∧ ∃ d : Directive (FlagState τ) ε,
        d.handler = some w.2.1 ∧ d.subs = [] ∧
          bindWords (w :: ws) flags = bindWords ws (flags.bind w.1 d) := by
  obtain ⟨name, handler, description, argNames⟩ := w
  by_cases hused : name ∈ names flags.executor.table
  · refine .inl ⟨hused, ?_⟩
    rw [bindWords, Executor.define, Executor.bindAll, if_pos (Table.isSome_lookup_iff.mpr hused)]
  · refine .inr ⟨hused, .mk { id := flags.nextId, description, argNames } (some handler) [], rfl, rfl, ?_⟩
    rw [bindWords, Executor.define, Executor.bindAll,
      if_neg fun h => hused (Table.isSome_lookup_iff.mp h)]
    rfl

theorem grows_bindWords (ws : List (Word τ ε)) :
    ∀ {flags : Flags τ ε}, (names flags.executor.table).Nodup → Grows flags (bindWords ws flags).2 := by
  induction ws with
  | nil => exact fun h => .refl h
  | cons w ws ih =>
    intro flags h
    rcases bindWords_cons w ws flags with ⟨-, heq⟩ | ⟨hfree, d, -, -, heq⟩
    · rw [heq]
      exact .refl h
    · have hbind := grows_bind h hfree d
      rw [heq]
      exact hbind.trans (ih hbind.table.nodup)

/-- What is bound with words is made for one of them. -/
theorem mem_bindWords (ws : List (Word τ ε)) :
    ∀ {flags : Flags τ ε} {name : Bytes} {d : Directive (FlagState τ) ε},
      (name, some d) ∈ (bindWords ws flags).2.executor.table →
        (name, some d) ∈ flags.executor.table ∨
          ∃ w ∈ ws, w.1 = name ∧ d.handler = some w.2.1 ∧ d.subs = [] := by
  induction ws with
  | nil => exact fun h => .inl h
  | cons w ws ih =>
    intro flags name d h
    rcases bindWords_cons w ws flags with ⟨-, heq⟩ | ⟨-, d', hhandler, hsubs, heq⟩
    · rw [heq] at h
      exact .inl h
    · rw [heq] at h
      rcases ih h with hmem | ⟨w', hw, hmade⟩
      · rcases List.mem_append.mp hmem with hold | hnew
        · exact .inl hold
        · cases List.mem_singleton.mp hnew
          exact .inr ⟨w, List.mem_cons_self, rfl, hhandler, hsubs⟩
      · exact .inr ⟨w', List.mem_cons_of_mem w hw, hmade⟩

/-- Words that are bound without objection were free, and each is bound to what was made for it. -/
theorem of_bindWords (ws : List (Word τ ε)) :
    ∀ {flags : Flags τ ε}, (names flags.executor.table).Nodup → (bindWords ws flags).1 = none →
      ∀ w ∈ ws, w.1 ∉ names flags.executor.table ∧
        ∃ d, (bindWords ws flags).2.executor.table.lookup w.1 = some (some d) ∧
          d.handler = some w.2.1 ∧ d.subs = [] := by
  induction ws with
  | nil => exact fun _ _ w hw => absurd hw List.not_mem_nil
  | cons w ws ih =>
    intro flags hnodup h w' hw'
    rcases bindWords_cons w ws flags with ⟨-, heq⟩ | ⟨hfree, d, hhandler, hsubs, heq⟩
    · rw [heq] at h
      cases h
    · rw [heq] at h ⊢
      have hnew := (grows_bind hnodup hfree d).table
      rcases List.mem_cons.mp hw' with rfl | hw'
      · exact ⟨hfree, d, (grows_bindWords ws hnew.nodup).table.lookup_eq (lookup_bind hfree), hhandler,
          hsubs⟩
      · obtain ⟨hfree', hbound⟩ := ih hnew.nodup h w' hw'
        refine ⟨fun hmem => hfree' ?_, hbound⟩
        rw [bind, Table.names_append]
        exact List.mem_append_left _ hmem

/-! ### One definition -/

theorem initial_bindWords (ws : List (Word τ ε)) :
    ∀ flags : Flags τ ε, (bindWords ws flags).2.initial = flags.initial := by
  induction ws with
  | nil => exact fun _ => rfl
  | cons w ws ih =>
    intro flags
    rcases bindWords_cons w ws flags with ⟨-, heq⟩ | ⟨-, d, -, -, heq⟩
    · rw [heq]
    · rw [heq, ih]
      rfl

/-- A flag has the next slot, also if it is refused. -/
theorem initial_define (flags : Flags τ ε) (f : Flag) :
    (flags.define f).2.initial = flags.initial ++ [f.kind.initial] :=
  initial_bindWords _ _

/-- Gives a flag the next slot. -/
def reserve (flags : Flags τ ε) (f : Flag) : Flags τ ε :=
  { flags with initial := flags.initial ++ [f.kind.initial] }

theorem grows_define (h : (names flags.executor.table).Nodup) (f : Flag) :
    Grows flags (flags.define f).2 := by
  have hreserved : (names (flags.reserve f).executor.table).Nodup := h
  have hwords := grows_bindWords (words flags.initial.length f) hreserved
  exact ⟨hwords.table, (List.prefix_append _ _).trans hwords.initial, hwords.unknown⟩

/-- The words of a flag that is not refused were free, and are bound behind its definition. -/
theorem of_define {f : Flag} (h : (names flags.executor.table).Nodup)
    (hdefine : (flags.define f).1 = none) (hname : name ∈ f.names) :
    name ∉ names flags.executor.table ∧
      ∃ d, (flags.define f).2.executor.table.lookup name = some (some d) ∧
        d.WordOf flags.initial.length f name := by
  rw [← map_words (τ := τ) (ε := ε) flags.initial.length f] at hname
  obtain ⟨w, hw, rfl⟩ := List.mem_map.mp hname
  have hreserved : (names (flags.reserve f).executor.table).Nodup := h
  obtain ⟨hfree, d, hbound, hmade⟩ := of_bindWords (words flags.initial.length f) hreserved hdefine w hw
  exact ⟨hfree, d, hbound, w, hw, rfl, hmade⟩

theorem mem_bindAll {σ : Type} {name : Bytes} {d d' : Directive σ ε} (more : List Bytes) :
    ∀ {t : Table σ ε}, (name, some d') ∈ (Executor.bindAll d more t).2 → (name, some d') ∈ t ∨ d' = d := by
  induction more with
  | nil => exact fun h => .inl h
  | cons first more ih =>
    intro t h
    rw [Executor.bindAll] at h
    split at h
    · exact .inl h
    · refine (ih h).elim (fun hmem => ?_) .inr
      refine (List.mem_append.mp hmem).imp id fun hnew => ?_
      cases List.mem_singleton.mp hnew
      rfl

theorem mem_executor_define {σ : Type} {e : Executor σ ε} {name name' : Bytes} {d d' : Directive σ ε}
    (h : (name', some d') ∈ (e.define name d).2.table) : (name', some d') ∈ e.table ∨ d' = d :=
  mem_bindAll (name :: d.help.aliases) h

theorem grows_add (h : (names flags.executor.table).Nodup) (definition : Definition τ ε) :
    Grows flags (flags.add definition) := by
  cases definition with
  | flag f => exact grows_define h f
  | directive name d => exact ⟨extends_define h name d, List.prefix_rfl, rfl⟩

/-- What a definition binds is its directive, or a word of its flag with the next slot. -/
theorem mem_add {definition : Definition τ ε}
    (h : (name, some d) ∈ (flags.add definition).executor.table) :
    (name, some d) ∈ flags.executor.table ∨ (∃ name', definition = .directive name' d) ∨
      ∃ f, definition = .flag f ∧ d.WordOf flags.initial.length f name := by
  cases definition with
  | flag f => exact (mem_bindWords _ h).imp id fun hword => .inr ⟨f, rfl, hword⟩
  | directive name' d' =>
    refine (mem_executor_define h).imp id fun hd => ?_
    rw [hd]
    exact .inl ⟨name', rfl⟩

/-! ### Definitions in a row -/

theorem grows_addAll (definitions : List (Definition τ ε)) : ∀ {flags : Flags τ ε},
    (names flags.executor.table).Nodup → Grows flags (addAll definitions flags) := by
  induction definitions with
  | nil => exact fun h => .refl h
  | cons definition definitions ih =>
    intro flags h
    have hfirst := grows_add h definition
    exact hfirst.trans (ih hfirst.table.nodup)

theorem addAll_append (earlier : List (Definition τ ε)) (f : Flag) (later : List (Definition τ ε))
    (flags : Flags τ ε) : addAll (earlier ++ .flag f :: later) flags
      = addAll later ((addAll earlier flags).define f).2 :=
  List.foldl_append

/-- **What the names of an executor are bound to**, behind some more definitions: to what they were bound
to, to a directive that was defined, or to a word of a flag with a slot that was not in use. -/
theorem mem_addAll (definitions : List (Definition τ ε)) : ∀ {flags : Flags τ ε} {name : Bytes}
    {d : Directive (FlagState τ) ε}, (names flags.executor.table).Nodup →
    (name, some d) ∈ (addAll definitions flags).executor.table →
      (name, some d) ∈ flags.executor.table ∨ (∃ name', .directive name' d ∈ definitions) ∨
        ∃ slot f, d.WordOf slot f name ∧ flags.initial.length ≤ slot ∧
          slot < (addAll definitions flags).initial.length := by
  induction definitions with
  | nil => exact fun _ h => .inl h
  | cons definition definitions ih =>
    intro flags name d hnodup h
    have hfirst := grows_add hnodup definition
    rcases ih hfirst.table.nodup h with hmem | ⟨name', hname'⟩ | ⟨slot, f, hword, hle, hlt⟩
    · rcases mem_add hmem with hold | ⟨name', rfl⟩ | ⟨f, rfl, hword⟩
      · exact .inl hold
      · exact .inr (.inl ⟨name', List.mem_cons_self⟩)
      · have hrest := (grows_addAll definitions hfirst.table.nodup).initial.length_le
        rw [add, initial_define, List.length_append] at hrest
        exact .inr (.inr ⟨_, f, hword, Nat.le_refl _, hrest⟩)
    · exact .inr (.inl ⟨name', List.mem_cons_of_mem _ hname'⟩)
    · exact .inr (.inr ⟨slot, f, hword, Nat.le_trans hfirst.initial.length_le hle, hlt⟩)

/-- What else an executor was given leaves a slot as it is. -/
structure OthersSpare (slot : Nat) (help : Handler (FlagState τ) ε) (unknown : Fallback (FlagState τ) ε)
    (definitions : List (Definition τ ε)) : Prop where
  help : (Executor.helpDirective help).Spares slot
  unknown : unknown.Spares slot
  directives : ∀ name d, .directive name d ∈ definitions → d.Spares slot

/-- One of some definitions was that of a flag, which was not refused and has a slot. -/
def DefinedAt (help : Handler (FlagState τ) ε) (unknown : Fallback (FlagState τ) ε)
    (definitions : List (Definition τ ε)) (slot : Nat) (f : Flag) : Prop :=
  ∃ earlier later, definitions = earlier ++ .flag f :: later ∧
    slot = (addAll earlier (new help unknown)).initial.length ∧
    ((addAll earlier (new help unknown)).define f).1 = none

section

variable {help : Handler (FlagState τ) ε} {unknown : Fallback (FlagState τ) ε}
variable {definitions earlier later : List (Definition τ ε)} {slot slot' : Nat} {f g : Flag}

theorem nodup_new : (names (new help unknown).executor.table).Nodup :=
  nodup_names_new help

theorem mem_new (h : (name, some d) ∈ (new help unknown).executor.table) :
    d = Executor.helpDirective help := by
  have hmem : (name, some d) ∈ (Executor.define { table := [] } Executor.helpName
    (Executor.helpDirective help)).2.table := h
  exact (mem_executor_define hmem).elim (fun hnil => absurd hnil List.not_mem_nil) id

theorem nodup_addAll : (names (addAll definitions (new help unknown)).executor.table).Nodup :=
  (grows_addAll definitions nodup_new).table.nodup

/-- What a flag's definition leaves is kept behind all later ones. -/
theorem grows_later (help : Handler (FlagState τ) ε) (unknown : Fallback (FlagState τ) ε)
    (earlier : List (Definition τ ε)) (f : Flag) (later : List (Definition τ ε)) :
    Grows ((addAll earlier (new help unknown)).define f).2
      (addAll (earlier ++ .flag f :: later) (new help unknown)) := by
  rw [addAll_append]
  exact grows_addAll later (grows_define nodup_addAll f).table.nodup

/-- **Nothing but the words of a flag writes its slot**, words that are no directive apart. -/
theorem governs_addAll_of_spares (hdefined : DefinedAt help unknown definitions slot f)
    (hhelp : (Executor.helpDirective help).Spares slot)
    (hdirectives : ∀ name d, .directive name d ∈ definitions → d.Spares slot) :
    Governs slot f (addAll definitions (new help unknown)).executor.table := by
  obtain ⟨earlier, later, rfl, rfl, hdefine⟩ := hdefined
  have hlater := grows_later help unknown earlier f later
  refine ⟨hlater.table.nodup, fun name hname => ?_, fun name d hmem hname => ?_⟩
  · obtain ⟨-, d, hlookup, hword⟩ := of_define nodup_addAll hdefine hname
    exact ⟨d, hlater.table.lookup_eq hlookup, hword⟩
  · rw [addAll_append] at hmem
    rcases mem_addAll later (grows_define nodup_addAll f).table.nodup hmem with
      hmem | ⟨name', hname'⟩ | ⟨slot, g, hword, hle, -⟩
    · rcases mem_bindWords _ hmem with hmem | hword
      · rcases mem_addAll earlier nodup_new hmem with hmem | ⟨name', hname'⟩ | ⟨slot, g, hword, -, hlt⟩
        · rw [mem_new hmem]
          exact hhelp
        · exact hdirectives name' d (List.mem_append_left _ hname')
        · exact hword.spares (Nat.ne_of_lt hlt)
      · exact absurd (Directive.WordOf.mem_names hword) hname
    · exact hdirectives name' d (List.mem_append_right _ (List.mem_cons_of_mem _ hname'))
    · rw [initial_define, List.length_append] at hle
      exact hword.spares (Nat.ne_of_gt hle)

theorem governs_addAll (hdefined : DefinedAt help unknown definitions slot f)
    (hothers : OthersSpare slot help unknown definitions) :
    Governs slot f (addAll definitions (new help unknown)).executor.table :=
  governs_addAll_of_spares hdefined hothers.help hothers.directives

/-- The slot of a flag has its first value before the first command line. -/
theorem initial_addAll (hdefined : DefinedAt help unknown definitions slot f) :
    (addAll definitions (new help unknown)).initial[slot]? = some f.kind.initial := by
  obtain ⟨earlier, later, rfl, rfl, -⟩ := hdefined
  obtain ⟨more, hmore⟩ := (grows_later help unknown earlier f later).initial
  rw [← hmore, initial_define, List.append_assoc, List.getElem?_append_right (Nat.le_refl _), Nat.sub_self]
  rfl

/-- A flag that is defined behind another one has other words. -/
theorem disjoint_of_earlier
    (hf : ((addAll earlier (new help unknown)).define f).1 = none)
    (hg : ((addAll (earlier ++ .flag f :: later) (new help unknown)).define g).1 = none) :
    f.names.Disjoint g.names := by
  intro name hnamef hnameg
  obtain ⟨-, d, hlookup, -⟩ := of_define nodup_addAll hf hnamef
  obtain ⟨hfree, -⟩ := of_define nodup_addAll hg hnameg
  have hbound := (grows_later help unknown earlier f later).table.lookup_eq hlookup
  exact hfree (Table.isSome_lookup_iff.mp (Option.isSome_of_eq_some hbound))

/-- **Two flags have no word in common.** -/
theorem DefinedAt.disjoint (hf : DefinedAt help unknown definitions slot f)
    (hg : DefinedAt help unknown definitions slot' g) (hne : slot ≠ slot') :
    f.names.Disjoint g.names := by
  obtain ⟨earlier, later, rfl, rfl, hdefinef⟩ := hf
  obtain ⟨earlier', later', hsame, rfl, hdefineg⟩ := hg
  rcases List.append_eq_append_iff.mp hsame with ⟨more, rfl, hmore⟩ | ⟨more, rfl, hmore⟩
  · rcases more with _ | ⟨first, more⟩
    · exact absurd (congrArg (fun l => (addAll l (new help unknown)).initial.length)
        (List.append_nil earlier).symm) hne
    · cases hmore
      exact disjoint_of_earlier hdefinef hdefineg
  · rcases more with _ | ⟨first, more⟩
    · exact absurd (congrArg (fun l => (addAll l (new help unknown)).initial.length)
        (List.append_nil earlier')) hne
    · cases hmore
      exact List.disjoint_symm (disjoint_of_earlier hdefineg hdefinef)

end

end Flags

/-- **Flags keep what was written last.** A flag is defined among other flags and directives, and any
command lines are executed, to the end or to where they fail. Its value is then told by the segments that were
executed with one of its names, each with the argument that was read from the words behind the name: a
variable has the last argument since it was reset, a switch is on if it was set last, a collection has all the
arguments. What is executed of a command line are its first words, and all of them if it succeeds. Segments
with other names leave the flag as it is, and other flags have other names. -/
theorem flags_keep_last_write {help : Handler (FlagState τ) ε} {unknown : Fallback (FlagState τ) ε}
    {definitions : List (Definition τ ε)} {slot : Nat} {f : Flag}
    (hdefined : Flags.DefinedAt help unknown definitions slot f)
    (hothers : Flags.OthersSpare slot help unknown definitions) {flags : Flags τ ε}
    (hflags : Flags.addAll definitions (.new help unknown) = flags) (lines : List (List Bytes)) (rest : τ)
    {executed : List (List (Segment (FlagState τ) ε))} {s : FlagState τ}
    (hlines : flags.executor.executeAll lines ⟨flags.initial, rest⟩ = (executed, s)) :
    s.store[slot]? = some (f.valueAfter executed.flatten) ∧
    List.Forall₂ (fun words segs => segs.flatMap Segment.words <+: words) lines executed ∧
    (∀ seg ∈ executed.flatten, seg.name ∈ f.names →
      takeArguments (f.params seg.name) seg.taken = .ok (seg.values, [])) ∧
    (∀ words : List Bytes,
      ((flags.executor.execute words s).2 = none →
        words = (flags.executor.executed words s).flatMap Segment.words) ∧
      ∀ (n : Nat) (p q : Position (FlagState τ) ε) (seg : Segment (FlagState τ) ε),
        (flags.executor.after words s n).2 = p → p.turn flags.executor.unknown = .executed seg q →
        seg.name ∉ f.names → q.state.store[slot]? = p.state.store[slot]?) ∧
    ∀ (slot' : Nat) (g : Flag), Flags.DefinedAt help unknown definitions slot' g → slot ≠ slot' →
      f.names.Disjoint g.names := by
  subst hflags
  have hunknown : Fallback.Spares slot (Flags.addAll definitions (.new help unknown)).executor.unknown := by
    rw [(Flags.grows_addAll definitions Flags.nodup_new).unknown]
    exact hothers.unknown
  -- before the first line the store holds what the flag was defined with, and no segment has named it
  have hstart : Tells slot f [] ⟨(Flags.addAll definitions (.new help unknown)).executor.table, [],
      ⟨(Flags.addAll definitions (.new help unknown)).initial, rest⟩⟩ := by
    refine ⟨Flags.governs_addAll hdefined hothers, ?_, fun seg hseg => absurd hseg List.not_mem_nil⟩
    rw [Flag.valueAfter_nil]
    exact Flags.initial_addAll hdefined
  have hafter := fun words => hstart.executeAll hunknown lines words
  rw [hlines, List.nil_append] at hafter
  obtain ⟨-, hvalue, hreads⟩ := hafter []
  have hprefix := forall₂_executeAll (Flags.addAll definitions (.new help unknown)).executor lines
    ⟨(Flags.addAll definitions (.new help unknown)).initial, rest⟩
  rw [hlines] at hprefix
  refine ⟨hvalue, hprefix, hreads, fun words => ⟨words_of_execute_eq_none, ?_⟩,
    fun slot' g hg hne => hdefined.disjoint hg hne⟩
  intro n p q seg hp hturn hother
  -- what the store tells holds after each turn of a line, not only behind the last one
  have hpoint := (hafter words).after hunknown n
  rw [hp] at hpoint
  have hnext := (hpoint.executed hunknown (turn_executed hturn)).value
  rw [Flag.valueAfter_snoc_of_not_mem hother] at hnext
  exact hnext.trans hpoint.value.symm

/-- A number that is set, reset and set again on two lines, the first of which fails. A word that could reset
it is an argument of another flag. -/
theorem flags_keep_last_write_across_lines :
    ∃ (help : Handler (FlagState Unit) Unit) (f g : Flag) (flags : Flags Unit Unit)
      (executed : List (List (Segment (FlagState Unit) Unit))) (s : FlagState Unit),
      Flags.addAll [.flag f, .flag g] (.new help none) = flags ∧
      flags.executor.executeAll [["n", "3", "n.", "-"].map utf8, ["n", "5", "all", "n.", "n"].map utf8]
        ⟨flags.initial, ()⟩ = (executed, s) ∧
      s.store[0]? = some (f.valueAfter executed.flatten) ∧
      f.valueAfter executed.flatten = .one (.int 5) ∧
      f.names.Disjoint g.names := by
  obtain ⟨help, hhelp⟩ : ∃ help : Handler (FlagState Unit) Unit,
    help = ⟨[], fun _ s => (s, none)⟩ := ⟨_, rfl⟩
  obtain ⟨f, hf⟩ : ∃ f : Flag, f = ⟨.single (.int 8), utf8 "n", []⟩ := ⟨_, rfl⟩
  obtain ⟨g, hg⟩ : ∃ g : Flag, g = ⟨.collection .text, utf8 "all", []⟩ := ⟨_, rfl⟩
  obtain ⟨flags, hflags⟩ : ∃ flags : Flags Unit Unit,
    Flags.addAll [.flag f, .flag g] (.new help none) = flags := ⟨_, rfl⟩
  obtain ⟨⟨executed, s⟩, hlines⟩ : ∃ r, flags.executor.executeAll
    [["n", "3", "n.", "-"].map utf8, ["n", "5", "all", "n.", "n"].map utf8] ⟨flags.initial, ()⟩ = r :=
    ⟨_, rfl⟩
  have hf_defined : Flags.DefinedAt help none [.flag f, .flag g] 0 f := by
    refine ⟨[], [.flag g], rfl, rfl, ?_⟩
    subst hf
    rfl
  have hg_defined : Flags.DefinedAt help none [.flag f, .flag g] 1 g := by
    subst hf hg
    exact ⟨[.flag _], [], rfl, rfl, rfl⟩
  have hothers : Flags.OthersSpare 0 help none [.flag f, .flag g] := by
    subst hhelp
    refine ⟨.mk (fun _ _ => rfl) fun _ _ hsub => absurd hsub List.not_mem_nil, (fun _ h => nomatch h), ?_⟩
    intro name d hmem
    simp at hmem
  obtain ⟨hvalue, -, -, -, hdisjoint⟩ :=
    flags_keep_last_write hf_defined hothers hflags _ () hlines
  refine ⟨help, f, g, flags, executed, s, hflags, hlines, hvalue, ?_,
    hdisjoint 1 g hg_defined Nat.zero_ne_one⟩
  have hexecuted : _ = executed := congrArg Prod.fst hlines
  subst hexecuted hflags hf hg hhelp
  cbv

end TapeMachine.CommandLine
