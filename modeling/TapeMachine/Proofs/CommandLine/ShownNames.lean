/-
The names in the usage text, and the names that work.

A directive is defined under a name and its aliases. The usage text shows the aliases, and the first of all
names in front of them; so a directive that was defined under a name behind one of its aliases is not shown
under this name. And an alias that is shown works only if it is bound, which a definition does and a table
of sub directives does not do by itself.

* `Executor.defineAll?`: definitions without objection;
* `table_defineAll?`: the names that they bind;
* `usage_names_shown`: which of the names that work the usage text shows;
* `Position.Resolves`: a word that names a directive at some point of a command line;
* `shown_names_resolve`: which of the names that the usage text shows work.
-/
import TapeMachine.Proofs.CommandLine.Usage

namespace TapeMachine.CommandLine

open Table (names)

variable {σ ε : Type}

/-! ### Definitions in a row -/

/-- The names that a definition binds. -/
def Directive.bindings (name : Bytes) (d : Directive σ ε) : Table σ ε :=
  (name :: d.help.aliases).map (·, some d)

/-- Defines directives one by one, unless a name is in use. -/
def Executor.defineAll? (e : Executor σ ε) : List (Bytes × Directive σ ε) → Option (Executor σ ε)
  | [] => some e
  | (name, d) :: definitions =>
    match e.define name d with
    | (none, e) => e.defineAll? definitions
    | (some _, _) => none

theorem table_bindAll (d : Directive σ ε) (more : List Bytes) : ∀ {t : Table σ ε},
    (Executor.bindAll d more t).1 = none → (Executor.bindAll d more t).2 = t ++ more.map (·, some d) := by
  induction more with
  | nil => exact fun {t} _ => (List.append_nil t).symm
  | cons name more ih =>
    intro t h
    rw [Executor.bindAll] at h ⊢
    split at h
    · cases h
    · next hfree =>
      rw [if_neg hfree, ih h, List.append_assoc]
      rfl

/-- A definition without objection binds all its names. -/
theorem define_eq {e e' : Executor σ ε} {name : Bytes} {d : Directive σ ε}
    (h : e.define name d = (none, e')) : e'.table = e.table ++ d.bindings name := by
  rw [Executor.define] at h
  obtain ⟨hnone, rfl⟩ := Prod.mk.inj h
  exact table_bindAll d (name :: d.help.aliases) hnone

theorem table_new (help : Handler σ ε) :
    (Executor.new help).table = (Executor.helpDirective help).bindings Executor.helpName :=
  rfl

theorem table_defineAll? (definitions : List (Bytes × Directive σ ε)) : ∀ {e e' : Executor σ ε},
    e.defineAll? definitions = some e' → (names e.table).Nodup →
      e'.table = e.table ++ definitions.flatMap (fun definition => definition.2.bindings definition.1) ∧
        (names e'.table).Nodup := by
  induction definitions with
  | nil =>
    intro e e' h hnodup
    cases h
    exact ⟨(List.append_nil _).symm, hnodup⟩
  | cons definition definitions ih =>
    intro e e' h hnodup
    obtain ⟨name, d⟩ := definition
    rw [Executor.defineAll?] at h
    split at h
    · next e₁ hdefine =>
      have hfirst := extends_define hnodup name d
      rw [hdefine] at hfirst
      obtain ⟨htable, hunique⟩ := ih h hfirst.nodup
      refine ⟨?_, hunique⟩
      rw [htable, define_eq hdefine, List.append_assoc]
      rfl
    · cases h

section

variable {help : Handler σ ε} {definitions : List (Bytes × Directive σ ε)} {e : Executor σ ε}

theorem table_eq (h : (Executor.new help).defineAll? definitions = some e) :
    e.table = ((Executor.helpName, Executor.helpDirective help) :: definitions).flatMap
      fun definition => definition.2.bindings definition.1 := by
  obtain ⟨htable, -⟩ := table_defineAll? definitions h (nodup_names_new help)
  rw [htable, table_new]
  rfl

/-- **What is bound behind some definitions**: each directive to the name that it was defined under and to
its aliases. -/
theorem mem_table_iff (h : (Executor.new help).defineAll? definitions = some e) {name : Bytes}
    {d : Directive σ ε} : (name, some d) ∈ e.table ↔
      ∃ primary, (primary, d) ∈ (Executor.helpName, Executor.helpDirective help) :: definitions ∧
        (name = primary ∨ name ∈ d.help.aliases) := by
  rw [table_eq h, List.mem_flatMap]
  constructor
  · rintro ⟨⟨primary, d'⟩, hmem, hbound⟩
    obtain ⟨other, hother, heq⟩ := List.mem_map.mp hbound
    cases heq
    exact ⟨primary, hmem, List.mem_cons.mp hother⟩
  · rintro ⟨primary, hmem, hname⟩
    exact ⟨(primary, d), hmem, List.mem_map_of_mem (List.mem_cons.mpr hname)⟩

theorem not_mem_aliases (h : (Executor.new help).defineAll? definitions = some e) {primary : Bytes}
    {d : Directive σ ε}
    (hmem : (primary, d) ∈ (Executor.helpName, Executor.helpDirective help) :: definitions) :
    primary ∉ d.help.aliases := by
  obtain ⟨-, hnodup⟩ := table_defineAll? definitions h (nodup_names_new help)
  rw [table_eq h, names, List.map_flatMap, List.nodup_flatMap] at hnodup
  have hbindings := hnodup.1 _ hmem
  rw [Directive.bindings, List.map_map] at hbindings
  exact (List.nodup_cons.mp (hbindings.of_map _)).1

/-- An executor is proper if its definitions and the tables below them are. -/
theorem proper_defineAll? (h : (Executor.new help).defineAll? definitions = some e)
    (hid : ∀ a ∈ (Executor.helpName, Executor.helpDirective help) :: definitions,
      ∀ b ∈ (Executor.helpName, Executor.helpDirective help) :: definitions,
        a.2.help.id = b.2.help.id → a.2 = b.2)
    (hsubs : ∀ definition ∈ definitions, Table.Proper definition.2.subs) : e.table.Proper := by
  obtain ⟨-, hnodup⟩ := table_defineAll? definitions h (nodup_names_new help)
  refine .intro hnodup (fun hd hd' hsame => ?_) fun hd => ?_
  · obtain ⟨primary, hmem, -⟩ := (mem_table_iff h).mp hd
    obtain ⟨primary', hmem', -⟩ := (mem_table_iff h).mp hd'
    exact hid _ hmem _ hmem' hsame
  · obtain ⟨primary, hmem, -⟩ := (mem_table_iff h).mp hd
    rcases List.mem_cons.mp hmem with heq | hmem
    · cases heq
      exact Table.proper_nil
    · exact hsubs _ hmem

end

/-! ### Names that are shown -/

/-- A directive of a table has one line for this table. -/
theorem Walk.exists_line {t : Table σ ε} {lines : List (UsageLine σ ε)} (h : Walk [] t lines)
    {name : Bytes} {d : Directive σ ε} (hbound : (name, some d) ∈ t) : ∃ line ∈ lines,
      (line.parents = [] ∧ line.directive = d ∧ IsHead t line.name d) ∧
        ∀ other ∈ lines, other.parents = [] → other.directive = d → other = line := by
  have hlines : ∀ line : UsageLine σ ε, line.parents = [] →
      (line ∈ lines ↔ IsHead t line.name line.directive) := by
    intro line hparents
    rw [h.mem_iff]
    constructor
    · rintro ⟨parents, u, hparents', hleads, hhead⟩
      rw [hparents, List.nil_append] at hparents'
      subst hparents'
      cases hleads
      exact hhead
    · intro hhead
      exact ⟨[], t, hparents, .nil t, hhead⟩
  obtain ⟨head, hhead⟩ := exists_isHead hbound
  refine ⟨⟨[], head, d⟩, (hlines _ rfl).mpr hhead, ⟨rfl, rfl, hhead⟩, ?_⟩
  rintro ⟨parents, name', d'⟩ hother hparents rfl
  have hname := ((hlines _ hparents).mp hother).unique hhead
  dsimp only at hparents hname
  rw [hparents, hname]

/-- **The usage text shows the names that work, up to one for each definition.** Behind any definitions on a
new executor, each directive has one line that is not indented, with the first of its names in front and its
aliases in parentheses. All names that are bound to the directive stand there but for a name that it was
defined under and that comes behind another one of its names. -/
theorem bound_names_are_shown {help : Handler σ ε} {definitions : List (Bytes × Directive σ ε)}
    {e : Executor σ ε} (hdefine : (Executor.new help).defineAll? definitions = some e)
    (hproper : e.table.Proper) : ∃ lines, Walk [] e.table lines ∧
      (usage e.table = lines.flatMap fun line => line.text ++ [10]) ∧
      (∀ line ∈ lines, ∃ arguments description, line.text
        = List.replicate (2 * line.parents.length) 32 ++ line.name ++ arguments ++ line.aliasText
          ++ description) ∧
      ∀ name d, e.table.lookup name = some (some d) → ∃ line ∈ lines,
        (line.parents = [] ∧ line.directive = d) ∧
        (∀ other ∈ lines, other.parents = [] → other.directive = d → other = line) ∧
        (name ∈ line.names ↔
          ((name, d) ∈ (Executor.helpName, Executor.helpDirective help) :: definitions →
            ∀ other, e.table.lookup other = some (some d) → name ≤ other)) := by
  obtain ⟨lines, hwalk, husage⟩ := exists_lines hproper
  have hlookup : ∀ (name : Bytes) (d : Option (Directive σ ε)),
      e.table.lookup name = some d ↔ (name, d) ∈ e.table :=
    fun _ _ => Table.lookup_eq_iff hproper.nodup_names
  refine ⟨lines, hwalk, husage, fun line _ => line.text_eq, fun name d hname => ?_⟩
  have hbound := (hlookup name _).mp hname
  obtain ⟨line, hline, ⟨hparents, hdirective, hhead⟩, hunique⟩ := hwalk.exists_line hbound
  refine ⟨line, hline, ⟨hparents, hdirective⟩, hunique, ?_⟩
  rw [UsageLine.names, List.mem_cons, hdirective]
  constructor
  · rintro (rfl | halias) hdefined other hother
    · exact hhead.first other ((hlookup other _).mp hother)
    · exact absurd halias (not_mem_aliases hdefine hdefined)
  · intro hfirst
    obtain ⟨primary, hdefined, rfl | halias⟩ := (mem_table_iff hdefine).mp hbound
    · -- the name comes before the first one, so it is the first one
      have hle := hfirst hdefined line.name ((hlookup _ _).mpr hhead.bound)
      exact .inl (List.le_antisymm hle (hhead.first name hbound))
    · exact .inr halias

/-- A directive that is defined under the first of its names, behind the one that prints the usage, which is
not shown under its own name. -/
theorem bound_names_are_shown_but_for_help : ∃ (help : Handler Nat Unit) (d : Directive Nat Unit)
    (e : Executor Nat Unit), (Executor.new help).defineAll? [([97], d)] = some e ∧ e.table.Proper ∧
      (usage e.table = utf8 "--help (help, -help, --help)     print this usage\na (b)\n") ∧
      ∃ lines, Walk [] e.table lines ∧
        (∃ line ∈ lines, line.directive = d ∧ [97] ∈ line.names) ∧
        ∃ line ∈ lines, line.directive = Executor.helpDirective help ∧ Executor.helpName ∉ line.names := by
  obtain ⟨help, -⟩ : ∃ help : Handler Nat Unit, help = ⟨[], fun _ n => (n, none)⟩ := ⟨_, rfl⟩
  obtain ⟨d, hd⟩ : ∃ d : Directive Nat Unit, d = .mk { id := 1, aliases := [[98]] } none [] := ⟨_, rfl⟩
  obtain ⟨e, hdefine⟩ : ∃ e, (Executor.new help).defineAll? [([97], d)] = some e := by
    subst hd
    exact ⟨_, rfl⟩
  have hproper : e.table.Proper := by
    refine proper_defineAll? hdefine ?_ ?_
    · subst hd
      simp [Executor.helpDirective, Directive.help]
    · subst hd
      simp [Directive.subs, Table.proper_nil]
  obtain ⟨lines, hwalk, -, -, hnames⟩ := bound_names_are_shown hdefine hproper
  refine ⟨help, d, e, hdefine, hproper, ?_, lines, hwalk, ?_, ?_⟩
  · subst hd
    cases hdefine
    cbv
  · obtain ⟨line, hline, ⟨-, hdirective⟩, -, hshown⟩ := hnames [97] d (by
      subst hd
      cases hdefine
      rfl)
    refine ⟨line, hline, hdirective, hshown.mpr fun _ other hother => ?_⟩
    obtain ⟨primary, hmem, hname⟩ := (mem_table_iff hdefine).mp (Table.mem_of_lookup hother)
    subst hd
    simp only [List.mem_cons, List.not_mem_nil, or_false, Prod.mk.injEq] at hmem
    rcases hmem with ⟨-, hhelp⟩ | ⟨rfl, -⟩
    · cases hhelp
    · rcases hname with rfl | halias
      · exact List.le_refl _
      · rw [List.mem_singleton.mp halias]
        decide
  · obtain ⟨line, hline, ⟨-, hdirective⟩, -, hshown⟩ :=
      hnames Executor.helpName (Executor.helpDirective help) (by
        subst hd
        cases hdefine
        rfl)
    refine ⟨line, hline, hdirective, fun hmem => ?_⟩
    -- the alias with two dashes comes before the name with one
    have hle := hshown.mp hmem List.mem_cons_self (utf8 "--help") (by
      subst hd
      cases hdefine
      rfl)
    exact absurd hle (by decide)

/-! ### Names that work -/

/-- A word names a directive at some point of a command line. -/
def Position.Resolves (q : Position σ ε) (word : Bytes) (d : Directive σ ε) : Prop :=
  q.table.lookup (Utf8.trim word) = some (some d)

section

variable {e : Executor σ ε} {words : List Bytes} {s : σ} {n : Nat} {segs : List (Segment σ ε)}
  {q : Position σ ε}

/-- **What a word names**: what the executor binds it to, or a directive that was executed. -/
theorem resolves_iff (hnodup : (names e.table).Nodup) (hafter : e.after words s n = (segs, q))
    (word : Bytes) (d : Directive σ ε) : q.Resolves word d ↔
      ∃ t ∈ e.table :: segs.map Segment.subs, (Utf8.trim word, some d) ∈ t := by
  obtain ⟨htable, hunique⟩ := table_after hnodup words s n
  rw [hafter] at htable hunique
  rw [Position.Resolves, Table.lookup_eq_iff hunique, htable, List.mem_append, List.mem_flatMap]
  constructor
  · rintro (hbound | ⟨seg, hseg, hbound⟩)
    · exact ⟨e.table, List.mem_cons_self, hbound⟩
    · exact ⟨seg.subs, List.mem_cons_of_mem _ (List.mem_map_of_mem hseg), hbound⟩
  · rintro ⟨t, ht, hbound⟩
    rcases List.mem_cons.mp ht with rfl | ht
    · exact .inl hbound
    · obtain ⟨seg, hseg, rfl⟩ := List.mem_map.mp ht
      exact .inr ⟨seg, hseg, hbound⟩

theorem Table.Leads.cases {t u : Table σ ε} {parents : List (Directive σ ε)} (h : t.Leads parents u) :
    u = t ∨ ∃ d ∈ parents, u = d.subs := by
  induction h with
  | nil => exact .inl rfl
  | @cons t u name d parents hbound h ih =>
    rcases ih with rfl | ⟨d', hmem, rfl⟩
    · exact .inr ⟨d, List.mem_cons_self, rfl⟩
    · exact .inr ⟨d', List.mem_cons_of_mem _ hmem, rfl⟩

/-- The table that a line stands in can be used once the directives above the line were executed. -/
theorem mem_visible {u : Table σ ε} {parents : List (Directive σ ε)} (h : e.table.Leads parents u)
    (hparents : (parents.map some).Sublist (segs.map Segment.directive)) :
    u ∈ e.table :: segs.map Segment.subs := by
  rcases h.cases with rfl | ⟨d, hmem, rfl⟩
  · exact List.mem_cons_self
  · obtain ⟨seg, hseg, hd⟩ := List.mem_map.mp (hparents.subset (List.mem_map_of_mem hmem))
    have hsubs : seg.subs = d.subs := by rw [Segment.subs, hd, Option.map_some, Option.getD_some]
    exact List.mem_cons_of_mem _ (hsubs ▸ List.mem_map_of_mem hseg)

/-- **The usage text shows names that work where they are bound.** Once the directives of the lines above a
line were executed, a name names the directive of the line just if the executor or an executed directive
binds it to this directive, without the blanks around it. So the name in front of a line works, if there are
no blanks around it, and so does an alias that is bound in the table of the line; all aliases of lines that
are not indented are, on an executor made by definitions. -/
theorem shown_names_resolve (hproper : e.table.Proper) : ∃ lines, Walk [] e.table lines ∧
    (usage e.table = lines.flatMap fun line => line.text ++ [10]) ∧
    (∀ line ∈ lines, ∃ arguments description, line.text
      = List.replicate (2 * line.parents.length) 32 ++ line.name ++ arguments ++ line.aliasText
        ++ description) ∧
    ∀ line ∈ lines, ∀ (words : List Bytes) (s : σ) (n : Nat) (segs : List (Segment σ ε))
      (q : Position σ ε), e.after words s n = (segs, q) →
        (line.parents.map some).Sublist (segs.map Segment.directive) →
        (∀ name, q.Resolves name line.directive ↔
          ∃ t ∈ e.table :: segs.map Segment.subs, (Utf8.trim name, some line.directive) ∈ t) ∧
        (∃ u, e.table.Leads line.parents u ∧ (line.name, some line.directive) ∈ u ∧
          ∀ name, Utf8.trim name = name → (name, some line.directive) ∈ u →
            q.Resolves name line.directive) ∧
        ∀ (help : Handler σ ε) (definitions : List (Bytes × Directive σ ε)),
          (Executor.new help).defineAll? definitions = some e → line.parents = [] →
          ∀ name ∈ line.names, Utf8.trim name = name → q.Resolves name line.directive := by
  obtain ⟨lines, hwalk, husage⟩ := exists_lines hproper
  refine ⟨lines, hwalk, husage, fun line _ => line.text_eq, ?_⟩
  intro line hline words s n segs q hafter hparents
  have hresolves := fun name => resolves_iff hproper.nodup_names hafter name line.directive
  obtain ⟨parents, u, hpath, hleads, hhead⟩ := hwalk.mem_iff.mp hline
  rw [List.nil_append] at hpath
  subst hpath
  have hown : ∀ name, Utf8.trim name = name → (name, some line.directive) ∈ u →
      q.Resolves name line.directive := by
    intro name htrim hbound
    rw [hresolves, htrim]
    exact ⟨u, mem_visible hleads hparents, hbound⟩
  refine ⟨hresolves, ⟨u, hleads, hhead.bound, hown⟩, ?_⟩
  intro help definitions hdefine htop name hname htrim
  -- at the top the table is that of the executor, and definitions bind the aliases as well
  have hu : u = e.table := by
    rw [htop] at hleads
    cases hleads
    rfl
  subst hu
  rcases List.mem_cons.mp hname with rfl | halias
  · exact hown _ htrim hhead.bound
  · obtain ⟨primary, hmem, -⟩ := (mem_table_iff hdefine).mp hhead.bound
    exact hown name htrim ((mem_table_iff hdefine).mpr ⟨primary, hmem, .inr halias⟩)

end

/-- A directive with an alias, and a sub directive with an alias. Behind the directive the name of the sub
directive works, and its alias does not. -/
theorem shown_names_resolve_but_for_sub_alias : ∃ (e : Executor Nat Unit) (d sub : Directive Nat Unit),
    e.table.Proper ∧
      (usage e.table
        = utf8 "--help (help, -help, --help)     print this usage\na (b)\n  c (d)\n") ∧
      ∃ lines, Walk [] e.table lines ∧ ∃ line ∈ lines, line.parents = [d] ∧ line.directive = sub ∧
        line.names = [[99], [100]] ∧ ∃ segs q, e.after [[98]] 0 1 = (segs, q) ∧
          segs.map Segment.directive = [some d] ∧ q.Resolves [99] sub ∧ ¬q.Resolves [100] sub := by
  obtain ⟨sub, hsub⟩ : ∃ sub : Directive Nat Unit, sub = .mk { id := 2, aliases := [[100]] } none [] :=
    ⟨_, rfl⟩
  obtain ⟨d, hd⟩ : ∃ d : Directive Nat Unit,
    d = .mk { id := 1, aliases := [[98]] } none [([99], some sub)] := ⟨_, rfl⟩
  obtain ⟨e, hdefine⟩ : ∃ e, (Executor.new (⟨[], fun _ n => (n, none)⟩ : Handler Nat Unit)).defineAll?
      [([97], d)] = some e := by
    subst hd
    exact ⟨_, rfl⟩
  have hsubs : d.subs = [([99], some sub)] := by
    subst hd
    rfl
  have hproper : e.table.Proper := by
    refine proper_defineAll? hdefine ?_ ?_
    · subst hd
      simp [Executor.helpDirective, Directive.help]
    · intro definition hmem
      rw [List.mem_singleton.mp hmem, hsubs, hsub]
      exact Table.proper_singleton Table.proper_nil
  obtain ⟨segs, q, hafter⟩ : ∃ segs q, e.after [[98]] 0 1 = (segs, q) := ⟨_, _, rfl⟩
  have hsegs : segs.map Segment.directive = [some d] := by
    have hrun : (e.after [[98]] 0 1).1.map Segment.directive = [some d] := by
      subst hd hsub
      cases hdefine
      cbv
    rwa [hafter] at hrun
  have hnone : q.table.lookup (Utf8.trim [100]) = none := by
    have hrun : (e.after [[98]] 0 1).2.table.lookup (Utf8.trim [100]) = none := by
      subst hd hsub
      cases hdefine
      cbv
    rwa [hafter] at hrun
  -- the line of the sub directive
  obtain ⟨lines, hwalk, -, -, hlines⟩ := shown_names_resolve hproper
  have hbound : ([97], some d) ∈ e.table := (mem_table_iff hdefine).mpr
    ⟨[97], List.mem_cons_of_mem _ List.mem_cons_self, .inl rfl⟩
  obtain ⟨line, hline, hparents, hdirective⟩ := (hwalk.exists_line_iff [d] sub).mpr
    ⟨d.subs, [99], .cons hbound (.nil _), hsubs ▸ List.mem_cons_self⟩
  obtain ⟨-, ⟨u, hleads, hname, hown⟩, -⟩ := hlines line hline [[98]] 0 1 segs q hafter (by
    rw [hparents, hsegs]
    exact List.Sublist.refl _)
  obtain rfl : u = d.subs := by
    rw [hparents] at hleads
    cases hleads with
    | cons _ h =>
      cases h
      rfl
  rw [hdirective, hsubs] at hown hname
  refine ⟨e, d, sub, hproper, ?_, lines, hwalk, line, hline, hparents, hdirective, ?_, segs, q, hafter,
    hsegs, hown [99] (by cbv) List.mem_cons_self, ?_⟩
  · subst hd hsub
    cases hdefine
    cbv
  · rw [UsageLine.names, (Prod.mk.inj (List.mem_singleton.mp hname)).1, hdirective, hsub]
    rfl
  · rw [Position.Resolves, hnone]
    exact (Option.some_ne_none (some sub)).symm

end TapeMachine.CommandLine
