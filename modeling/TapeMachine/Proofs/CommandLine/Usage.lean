/-
The tree of directives in the usage text.

The usage text is a walk through the tree of directives. Each directive of a table has one line, under the
first of its names, and behind it stand the lines of its sub directives.

* `Table.Proper`: a table in which a name and an id stand for one directive each;
* `IsHead`, `Heads`: the first names of the directives of a table, in their order;
* `UsageLine`, `Walk`: the lines for a table and for all tables below it;
* `mem_firstOfEach`, `exists_heads`: which entries of a table have a line;
* `exists_walk`: the usage text is the text of a walk;
* `Table.Leads`, `Walk.mem_iff`, `Walk.nodup_paths`: each directive has one line where it stands in the tree;
* `usage_walks_the_tree`: what holds of the usage text of an executor.
-/
import TapeMachine.CommandLine.Usage
import TapeMachine.Proofs.CommandLine.Table

namespace TapeMachine.CommandLine

open Table (names)

variable {σ ε : Type}

/-! ### Tables and their names -/

namespace Table

/-- A table as a program has it: no name is bound twice, an id stands for one directive, and the same holds
of the tables of sub directives. -/
inductive Proper : Table σ ε → Prop
  | intro {t : Table σ ε} (nodup_names : (names t).Nodup)
      (eq_of_id : ∀ {name name' : Bytes} {d d' : Directive σ ε}, (name, some d) ∈ t →
        (name', some d') ∈ t → d.help.id = d'.help.id → d = d')
      (subs : ∀ {name : Bytes} {d : Directive σ ε}, (name, some d) ∈ t → Proper d.subs) : Proper t

theorem proper_nil : Proper ([] : Table σ ε) :=
  .intro List.nodup_nil (fun h => absurd h List.not_mem_nil) fun h => absurd h List.not_mem_nil

theorem proper_singleton {name : Bytes} {d : Directive σ ε} (h : Proper d.subs) :
    Proper [(name, some d)] := by
  refine .intro (List.nodup_singleton name) (fun hd hd' _ => ?_) fun hd => ?_
  · cases List.mem_singleton.mp hd
    cases List.mem_singleton.mp hd'
    rfl
  · cases List.mem_singleton.mp hd
    exact h

theorem Proper.nodup_names {t : Table σ ε} (h : t.Proper) : (names t).Nodup := by
  cases h with
  | intro hnames => exact hnames

/-- The names that are bound to directives, and the directives. -/
def directives (t : Table σ ε) : List (Bytes × Directive σ ε) :=
  t.filterMap fun binding => binding.2.map (binding.1, ·)

end Table

/-- The name of a directive that comes before all its other names in a table. -/
structure IsHead (t : Table σ ε) (name : Bytes) (d : Directive σ ε) : Prop where
  bound : (name, some d) ∈ t
  first : ∀ other, (other, some d) ∈ t → name ≤ other

/-- The directives of a table, each under its head, in the order of the heads. -/
structure Heads (t : Table σ ε) (heads : List (Bytes × Directive σ ε)) : Prop where
  ordered : heads.Pairwise fun a b => a.1 < b.1
  mem_iff : ∀ name d, (name, d) ∈ heads ↔ IsHead t name d

/-! ### Lines -/

/-- A line of a usage text: a directive under one of its names, behind the lines of the directives that it
is below, the outermost first. -/
structure UsageLine (σ ε : Type) where
  parents : List (Directive σ ε)
  name : Bytes
  directive : Directive σ ε

namespace UsageLine

/-- Where the directive stands in the tree. -/
def path (line : UsageLine σ ε) : List (Directive σ ε) :=
  line.parents ++ [line.directive]

/-- The names that a line shows. -/
def names (line : UsageLine σ ε) : List Bytes :=
  line.name :: line.directive.help.aliases

/-- The line as it is printed. -/
def text (line : UsageLine σ ε) : Bytes :=
  UsageEntry.line line.parents.length ⟨line.name, line.directive.help, []⟩

theorem line_entry (parents : List (Directive σ ε)) (name : Bytes) (d : Directive σ ε) :
    (d.entry parents.length name).line parents.length = (mk parents name d).text := by
  cases d
  rfl

/-- The aliases in parentheses, with commas between them. -/
def aliasText (line : UsageLine σ ε) : Bytes :=
  if line.directive.help.aliases.isEmpty then []
  else utf8 " (" ++ Bytes.joinWith (utf8 ", ") line.directive.help.aliases ++ utf8 ")"

/-- A line is indented by two spaces for each line that it is below. Its name leads, and the aliases stand
behind the arguments. -/
theorem text_eq (line : UsageLine σ ε) : ∃ arguments description,
    line.text = List.replicate (2 * line.parents.length) 32 ++ line.name ++ arguments ++ line.aliasText
      ++ description := by
  refine ⟨line.directive.help.argNames.flatMap (fun arg => utf8 " <" ++ arg ++ utf8 ">"), ?_⟩
  rw [text, UsageEntry.line, aliasText]
  dsimp only
  split
  · exact ⟨[], (List.append_nil _).symm⟩
  · rw [UsageEntry.padTo, List.append_assoc]
    exact ⟨_, rfl⟩

end UsageLine

/-- The lines for a table: for each directive, in the order of the heads, its own line and then the lines
for its sub directives. -/
inductive Walk : List (Directive σ ε) → Table σ ε → List (UsageLine σ ε) → Prop
  | intro {parents : List (Directive σ ε)} {t : Table σ ε} {heads : List (Bytes × Directive σ ε)}
      {below : Bytes × Directive σ ε → List (UsageLine σ ε)} (hheads : Heads t heads)
      (hbelow : ∀ head ∈ heads, Walk (parents ++ [head.2]) head.2.subs (below head)) :
      Walk parents t (heads.flatMap fun head => ⟨parents, head.1, head.2⟩ :: below head)

/-! ### Heads -/

theorem bytesLe_iff (s : Bytes) : ∀ t : Bytes, bytesLe s t = true ↔ s ≤ t := by
  induction s with
  | nil => simp [bytesLe]
  | cons a s ih =>
    intro t
    rcases t with _ | ⟨b, t⟩
    · simp [bytesLe]
    · rw [bytesLe, List.cons_le_cons_iff, ← ih]
      simp

theorem Table.mem_directives {t : Table σ ε} {name : Bytes} {d : Directive σ ε} :
    (name, d) ∈ t.directives ↔ (name, some d) ∈ t := by
  rw [directives, List.mem_filterMap]
  constructor
  · rintro ⟨⟨name', d'⟩, hmem, heq⟩
    obtain ⟨d'', rfl, hpair⟩ := Option.map_eq_some_iff.mp heq
    cases hpair
    exact hmem
  · intro hmem
    exact ⟨_, hmem, rfl⟩

theorem Table.names_directives_sublist (t : Table σ ε) :
    (t.directives.map Prod.fst).Sublist (names t) := by
  induction t with
  | nil => exact .slnil
  | cons binding t ih =>
    obtain ⟨name, _ | d⟩ := binding
    · exact ih.cons name
    · exact ih.cons_cons name

theorem tableEntries_eq (depth : Nat) (t : Table σ ε) :
    tableEntries depth t = t.directives.map fun head => head.2.entry depth head.1 := by
  induction t with
  | nil => rfl
  | cons binding t ih =>
    obtain ⟨name, _ | d⟩ := binding
    · exact ih
    · exact congrArg (d.entry depth name :: ·) ih

theorem Directive.name_entry (depth : Nat) (name : Bytes) (d : Directive σ ε) :
    (d.entry depth name).name = name := by
  cases d
  rfl

theorem Directive.help_entry (depth : Nat) (name : Bytes) (d : Directive σ ε) :
    (d.entry depth name).help = d.help := by
  cases d
  rfl

theorem Directive.below_entry (depth : Nat) (name : Bytes) (d : Directive σ ε) :
    (d.entry depth name).below = layout (depth + 1) (tableEntries (depth + 1) d.subs) := by
  cases d
  rfl

theorem firstOfEach_sublist (entries : List UsageEntry) : ∀ seen : List Nat,
    (firstOfEach seen entries).Sublist entries := by
  induction entries with
  | nil => exact fun _ => .slnil
  | cons entry entries ih =>
    intro seen
    rw [firstOfEach]
    split
    · exact (ih seen).cons entry
    · exact (ih _).cons_cons entry

/-- **Of entries in order, those are kept that come before all others of their directive.** -/
theorem mem_firstOfEach (kept : UsageEntry) {entries : List UsageEntry}
    (h : entries.Pairwise fun a b => a.name < b.name) : ∀ seen : List Nat,
    kept ∈ firstOfEach seen entries ↔ kept ∈ entries ∧ kept.help.id ∉ seen ∧
      ∀ other ∈ entries, other.help.id = kept.help.id → kept.name ≤ other.name := by
  induction entries with
  | nil => simp [firstOfEach]
  | cons entry entries ih =>
    intro seen
    obtain ⟨hentry, hentries⟩ := List.pairwise_cons.mp h
    rw [firstOfEach]
    split
    · next hseen =>
      have hused : entry.help.id ∈ seen := List.contains_iff_mem.mp hseen
      rw [ih hentries seen, List.mem_cons, List.forall_mem_cons]
      constructor
      · rintro ⟨hmem, hnew, hfirst⟩
        exact ⟨.inr hmem, hnew, fun hid => absurd (hid ▸ hused) hnew, hfirst⟩
      · rintro ⟨rfl | hmem, hnew, -, hfirst⟩
        · exact absurd hused hnew
        · exact ⟨hmem, hnew, hfirst⟩
    · next hseen =>
      have hfree : entry.help.id ∉ seen := fun hmem => hseen (List.contains_iff_mem.mpr hmem)
      rw [List.mem_cons, ih hentries, List.mem_cons, List.forall_mem_cons, List.mem_cons, not_or]
      constructor
      · rintro (rfl | ⟨hmem, ⟨hother, hnew⟩, hfirst⟩)
        · exact ⟨.inl rfl, hfree, fun _ => List.le_refl _, fun other hmem _ =>
            List.le_of_lt (hentry other hmem)⟩
        · exact ⟨.inr hmem, hnew, fun hid => absurd hid.symm hother, hfirst⟩
      · rintro ⟨rfl | hmem, hnew, hbefore, hfirst⟩
        · exact .inl rfl
        · -- an entry of the same directive in front would have to come behind
          refine .inr ⟨hmem, ⟨fun hid => ?_, hnew⟩, hfirst⟩
          exact List.not_le.mpr (hentry kept hmem) (hbefore hid.symm)

namespace Table

/-- The directives of a table under all their names, in the order of the names. -/
def sorted (t : Table σ ε) : List (Bytes × Directive σ ε) :=
  t.directives.mergeSort fun a b => bytesLe a.1 b.1

theorem mem_sorted {t : Table σ ε} {name : Bytes} {d : Directive σ ε} :
    (name, d) ∈ t.sorted ↔ (name, some d) ∈ t := by
  rw [sorted, (List.mergeSort_perm _ _).mem_iff, mem_directives]

theorem pairwise_sorted {t : Table σ ε} (h : (names t).Nodup) :
    t.sorted.Pairwise fun a b => a.1 < b.1 := by
  have hle : t.sorted.Pairwise fun a b => bytesLe a.1 b.1 := by
    refine List.pairwise_mergeSort (fun a b c => ?_) (fun a b => ?_) _
    · simp only [bytesLe_iff]
      exact List.le_trans
    · simp only [Bool.or_eq_true, bytesLe_iff]
      exact List.le_total _ _
  have hne : t.sorted.Pairwise fun a b => a.1 ≠ b.1 := by
    have hperm := (List.mergeSort_perm t.directives fun a b => bytesLe a.1 b.1).map Prod.fst
    exact List.pairwise_map.mp (hperm.nodup_iff.mpr ((names_directives_sublist t).nodup h))
  exact hle.imp₂ (fun a b h h' => Std.lt_of_le_of_ne ((bytesLe_iff _ _).mp h) h') hne

theorem mergeSort_entries (depth : Nat) (t : Table σ ε) :
    (tableEntries depth t).mergeSort (fun a b => bytesLe a.name b.name)
      = t.sorted.map fun head => head.2.entry depth head.1 := by
  rw [tableEntries_eq, sorted]
  refine (List.map_mergeSort fun a _ b _ => ?_).symm
  rw [Directive.name_entry, Directive.name_entry]

end Table

/-- An entry comes before all others of its directive if its name is the head of the directive. -/
theorem isHead_iff {t : Table σ ε} (h : t.Proper) (depth : Nat) {name : Bytes} {d : Directive σ ε}
    (hbound : (name, some d) ∈ t) :
    IsHead t name d ↔ ∀ other ∈ t.sorted.map (fun head => head.2.entry depth head.1),
      other.help.id = d.help.id → name ≤ other.name := by
  obtain ⟨-, hid, -⟩ := h
  constructor
  · intro hhead other hother hsame
    obtain ⟨⟨name', d'⟩, hmem, rfl⟩ := List.mem_map.mp hother
    rw [Directive.help_entry] at hsame
    have hbound' := Table.mem_sorted.mp hmem
    rw [Directive.name_entry]
    exact hhead.first name' (hid hbound' hbound hsame ▸ hbound')
  · intro hfirst
    refine ⟨hbound, fun other hother => ?_⟩
    have hle := hfirst _ (List.mem_map_of_mem (Table.mem_sorted.mpr hother)) (by rw [Directive.help_entry])
    rwa [Directive.name_entry] at hle

/-- **The entries that have a line are those of the heads.** -/
theorem exists_heads {t : Table σ ε} (h : t.Proper) (depth : Nat) : ∃ heads, Heads t heads ∧
    firstOfEach [] ((tableEntries depth t).mergeSort fun a b => bytesLe a.name b.name)
      = heads.map fun head => head.2.entry depth head.1 := by
  have hnames := h.nodup_names
  have hordered := Table.pairwise_sorted hnames
  have hentries : (t.sorted.map fun head => head.2.entry depth head.1).Pairwise
      fun a b => a.name < b.name := by
    refine List.pairwise_map.mpr (hordered.imp fun {a b} hlt => ?_)
    rw [Directive.name_entry, Directive.name_entry]
    exact hlt
  rw [Table.mergeSort_entries]
  obtain ⟨heads, hheads, hkept⟩ := List.sublist_map_iff.mp (firstOfEach_sublist
    (t.sorted.map fun head => head.2.entry depth head.1) [])
  refine ⟨heads, ⟨hordered.sublist hheads, fun name d => ?_⟩, hkept⟩
  have hmem := mem_firstOfEach (d.entry depth name) hentries []
  rw [hkept, Directive.help_entry, Directive.name_entry] at hmem
  constructor
  · intro hhead
    have hbound := Table.mem_sorted.mp (hheads.mem hhead)
    exact (isHead_iff h depth hbound).mpr (hmem.mp (List.mem_map_of_mem hhead)).2.2
  · intro hhead
    have hline := hmem.mpr ⟨List.mem_map_of_mem (Table.mem_sorted.mpr hhead.bound), List.not_mem_nil,
      (isHead_iff h depth hhead.bound).mp hhead⟩
    -- entries of the same name are those of one directive
    obtain ⟨⟨name', d'⟩, hmem', heq⟩ := List.mem_map.mp hline
    have hname : name' = name := by
      have := congrArg UsageEntry.name heq
      rwa [Directive.name_entry, Directive.name_entry] at this
    subst hname
    have hsame := Table.eq_of_name hnames (Table.mem_sorted.mp (hheads.mem hmem')) hhead.bound
    cases hsame
    exact hmem'

theorem IsHead.unique {t : Table σ ε} {name name' : Bytes} {d : Directive σ ε} (h : IsHead t name d)
    (h' : IsHead t name' d) : name = name' :=
  List.le_antisymm (h.first name' h'.bound) (h'.first name h.bound)

/-! ### Walks -/

theorem Heads.unique {t : Table σ ε} {heads heads' : List (Bytes × Directive σ ε)} (h : Heads t heads)
    (h' : Heads t heads') : heads = heads' := by
  have : Std.Irrefl fun a b : Bytes × Directive σ ε => a.1 < b.1 := ⟨fun a => List.lt_irrefl a.1⟩
  have : Std.Antisymm fun a b : Bytes × Directive σ ε => a.1 < b.1 :=
    ⟨fun a b hlt hgt => absurd hgt (List.lt_asymm hlt)⟩
  refine h.ordered.eq_of_mem_iff h'.ordered fun head => ?_
  rw [h.mem_iff, h'.mem_iff]

theorem Walk.unique {parents : List (Directive σ ε)} {t : Table σ ε} {lines : List (UsageLine σ ε)}
    (h : Walk parents t lines) : ∀ {lines' : List (UsageLine σ ε)}, Walk parents t lines' →
      lines' = lines := by
  induction h with
  | intro hheads hbelow ih =>
    intro lines' h'
    cases h' with
    | intro hheads' hbelow' =>
      obtain rfl := hheads.unique hheads'
      refine List.flatMap_congr fun head hhead => ?_
      rw [ih head hhead (hbelow' head hhead)]

/-- **The lines of a table are those of a walk.** -/
theorem exists_walk {t : Table σ ε} (h : t.Proper) : ∀ parents : List (Directive σ ε), ∃ lines,
    Walk parents t lines ∧
      layout parents.length (tableEntries parents.length t) = lines.map UsageLine.text := by
  induction h with
  | @intro t hnames hid hsubs ih =>
    intro parents
    obtain ⟨heads, hheads, hkept⟩ := exists_heads (.intro hnames hid hsubs) parents.length
    -- the lines below a head are chosen one head at a time, and there are none to choose for what is no head
    have hexists : ∀ head : Bytes × Directive σ ε, ∃ lines, head ∈ heads →
        Walk (parents ++ [head.2]) head.2.subs lines ∧
          layout (parents.length + 1) (tableEntries (parents.length + 1) head.2.subs)
            = lines.map UsageLine.text := by
      intro head
      by_cases hhead : head ∈ heads
      · have hbound := ((hheads.mem_iff head.1 head.2).mp hhead).bound
        obtain ⟨lines, hwalk, hlines⟩ := ih hbound (parents ++ [head.2])
        rw [List.length_append, List.length_singleton] at hlines
        exact ⟨lines, fun _ => ⟨hwalk, hlines⟩⟩
      · exact ⟨[], fun hmem => absurd hmem hhead⟩
    choose below hbelow using hexists
    refine ⟨_, .intro hheads fun head hhead => (hbelow head hhead).1, ?_⟩
    rw [layout, hkept, List.flatMap_map, List.map_flatMap]
    refine List.flatMap_congr fun head hhead => ?_
    rw [Directive.below_entry, (hbelow head hhead).2, List.map_cons, UsageLine.line_entry]

theorem exists_lines {t : Table σ ε} (h : t.Proper) : ∃ lines, Walk [] t lines ∧
    usage t = lines.flatMap fun line => line.text ++ [10] := by
  obtain ⟨lines, hwalk, hlines⟩ := exists_walk h []
  refine ⟨lines, hwalk, ?_⟩
  rw [List.length_nil] at hlines
  rw [usage, hlines, List.flatMap_map]

/-! ### The tree of directives -/

/-- The table that the sub directives of some directives, one below the other, lead to. -/
inductive Table.Leads : Table σ ε → List (Directive σ ε) → Table σ ε → Prop
  | nil (t : Table σ ε) : Leads t [] t
  | cons {t u : Table σ ε} {name : Bytes} {d : Directive σ ε} {parents : List (Directive σ ε)}
      (hbound : (name, some d) ∈ t) (h : Leads d.subs parents u) : Leads t (d :: parents) u

/-- Whether a directive stands in the tree of directives, below some others. -/
def Table.Holds (t : Table σ ε) (parents : List (Directive σ ε)) (d : Directive σ ε) : Prop :=
  ∃ u name, t.Leads parents u ∧ (name, some d) ∈ u

/-- Of the names with a property there is a first one. -/
theorem exists_first {P : Bytes → Prop} {all : List Bytes} (h : ∃ name ∈ all, P name) :
    ∃ name ∈ all, P name ∧ ∀ other ∈ all, P other → name ≤ other := by
  induction all with
  | nil => simp at h
  | cons name all ih =>
    by_cases hrest : ∃ other ∈ all, P other
    · obtain ⟨first, hmem, hP, hfirst⟩ := ih hrest
      by_cases hbefore : P name ∧ name ≤ first
      · refine ⟨name, List.mem_cons_self, hbefore.1, List.forall_mem_cons.mpr ⟨fun _ => List.le_refl _, ?_⟩⟩
        exact fun other hother hother' => List.le_trans hbefore.2 (hfirst other hother hother')
      · refine ⟨first, List.mem_cons_of_mem _ hmem, hP, List.forall_mem_cons.mpr ⟨fun hname => ?_, hfirst⟩⟩
        exact (List.le_total first name).resolve_right fun hle => hbefore ⟨hname, hle⟩
    · obtain ⟨other, hmem, hother⟩ := h
      rcases List.mem_cons.mp hmem with rfl | hmem
      · refine ⟨other, List.mem_cons_self, hother, List.forall_mem_cons.mpr ⟨fun _ => List.le_refl _, ?_⟩⟩
        exact fun later hlater hlater' => absurd ⟨later, hlater, hlater'⟩ hrest
      · exact absurd ⟨other, hmem, hother⟩ hrest

theorem exists_isHead {t : Table σ ε} {name : Bytes} {d : Directive σ ε} (h : (name, some d) ∈ t) :
    ∃ head, IsHead t head d := by
  have hname : name ∈ names t := List.mem_map_of_mem h
  obtain ⟨head, -, hbound, hfirst⟩ := exists_first (P := fun other => (other, some d) ∈ t) ⟨name, hname, h⟩
  exact ⟨head, hbound, fun other hother => hfirst other (List.mem_map_of_mem hother) hother⟩

variable {base : List (Directive σ ε)} {t : Table σ ε} {lines : List (UsageLine σ ε)}
  {line : UsageLine σ ε}

/-- **The lines of a walk are those of the heads of all tables in the tree.** -/
theorem Walk.mem_iff (h : Walk base t lines) : line ∈ lines ↔ ∃ parents u,
    line.parents = base ++ parents ∧ t.Leads parents u ∧ IsHead u line.name line.directive := by
  induction h generalizing line with
  | @intro base t heads below hheads hbelow ih =>
    rw [List.mem_flatMap]
    constructor
    · rintro ⟨⟨name, d⟩, hhead, hline⟩
      have hname := (hheads.mem_iff name d).mp hhead
      rcases List.mem_cons.mp hline with rfl | hline
      · exact ⟨[], t, (List.append_nil base).symm, .nil t, hname⟩
      · obtain ⟨parents, u, hparents, hleads, hu⟩ := (ih (name, d) hhead).mp hline
        rw [List.append_assoc] at hparents
        exact ⟨d :: parents, u, hparents, .cons hname.bound hleads, hu⟩
    · rintro ⟨parents, u, hparents, hleads, hname⟩
      cases hleads with
      | nil =>
        rw [List.append_nil] at hparents
        refine ⟨(line.name, line.directive), (hheads.mem_iff _ _).mpr hname, ?_⟩
        rw [← hparents]
        exact List.mem_cons_self
      | @cons _ _ name d parents hbound hleads =>
        -- the directive is listed under its head, whatever name led to it
        obtain ⟨head, hhead⟩ := exists_isHead hbound
        have hmem := (hheads.mem_iff head d).mpr hhead
        refine ⟨(head, d), hmem, List.mem_cons_of_mem _ ((ih (head, d) hmem).mpr ?_)⟩
        exact ⟨parents, u, by rw [hparents, List.append_assoc]; rfl, hleads, hname⟩

theorem Walk.path_eq (h : Walk base t lines) (hline : line ∈ lines) :
    ∃ rest, rest ≠ [] ∧ line.path = base ++ rest := by
  obtain ⟨parents, u, hparents, -, -⟩ := h.mem_iff.mp hline
  refine ⟨parents ++ [line.directive], by simp, ?_⟩
  rw [UsageLine.path, hparents, List.append_assoc]

/-- **No directive has two lines for one place in the tree.** -/
theorem Walk.nodup_paths (h : Walk base t lines) : (lines.map UsageLine.path).Nodup := by
  induction h with
  | @intro base t heads below hheads hbelow ih =>
    rw [List.map_flatMap, List.nodup_flatMap]
    -- all lines for a directive of the table and below it have their places behind it
    have hpath : ∀ head ∈ heads, ∀ path ∈ List.map UsageLine.path (⟨base, head.1, head.2⟩ :: below head),
        base ++ [head.2] <+: path := by
      intro head hhead path hpath
      rw [List.map_cons, List.mem_cons] at hpath
      rcases hpath with rfl | hpath
      · exact List.prefix_rfl
      · obtain ⟨line, hline, rfl⟩ := List.mem_map.mp hpath
        obtain ⟨rest, -, hrest⟩ := (hbelow head hhead).path_eq hline
        exact ⟨rest, hrest.symm⟩
    constructor
    · intro head hhead
      rw [List.map_cons, List.nodup_cons]
      refine ⟨fun hmem => ?_, ih head hhead⟩
      obtain ⟨line, hline, hsame⟩ := List.mem_map.mp hmem
      obtain ⟨rest, hne, hrest⟩ := (hbelow head hhead).path_eq hline
      exact hne (List.append_right_eq_self.mp (hrest.symm.trans hsame))
    · refine hheads.ordered.imp_of_mem fun {a b} ha hb hlt path hpa hpb => ?_
      obtain ⟨rest, hrest⟩ := hpath a ha path hpa
      obtain ⟨rest', hrest'⟩ := hpath b hb path hpb
      have hsame : a.2 = b.2 := by
        have heq := hrest.trans hrest'.symm
        rw [List.append_assoc, List.append_assoc, List.append_cancel_left_eq] at heq
        exact (List.cons.inj heq).1
      have hfirst := ((hheads.mem_iff b.1 b.2).mp hb).first a.1
      rw [← hsame] at hfirst
      exact List.not_le.mpr hlt (hfirst ((hheads.mem_iff a.1 a.2).mp ha).bound)

/-- A directive has a line where it stands in the tree, and nowhere else. -/
theorem Walk.exists_line_iff (h : Walk [] t lines) (parents : List (Directive σ ε)) (d : Directive σ ε) :
    (∃ line ∈ lines, line.parents = parents ∧ line.directive = d) ↔ t.Holds parents d := by
  constructor
  · rintro ⟨line, hline, rfl, rfl⟩
    obtain ⟨parents, u, hparents, hleads, hhead⟩ := h.mem_iff.mp hline
    rw [List.nil_append] at hparents
    exact ⟨u, line.name, hparents ▸ hleads, hhead.bound⟩
  · rintro ⟨u, name, hleads, hbound⟩
    obtain ⟨head, hhead⟩ := exists_isHead hbound
    exact ⟨⟨parents, head, d⟩, h.mem_iff.mpr ⟨parents, u, rfl, hleads, hhead⟩, rfl, rfl⟩

theorem Walk.nodup_directives (h : Walk [] t lines)
    (hplaces : ∀ parents parents' d, t.Holds parents d → t.Holds parents' d → parents = parents') :
    (lines.map UsageLine.directive).Nodup := by
  have hpaths := List.pairwise_map.mp h.nodup_paths
  refine List.pairwise_map.mpr (hpaths.imp_of_mem fun {a b} ha hb hne hsame => hne ?_)
  have hholds := (h.exists_line_iff a.parents a.directive).mp ⟨a, ha, rfl, rfl⟩
  have hholds' := (h.exists_line_iff b.parents b.directive).mp ⟨b, hb, rfl, rfl⟩
  rw [UsageLine.path, UsageLine.path, hplaces _ _ _ hholds (hsame ▸ hholds'), hsame]

/-- **The usage text is the walk through the tree of directives.** Its lines are those of one walk, in which
each table has a line for each directive in it, in the order of the first names of the directives, each
followed by the lines for its sub directives; and no other lines make a walk. A line is indented by two
spaces for each line that it is below, and begins with the first of the names that its table binds to the
directive. A directive has a line for each place where it stands in the tree, and no place has two lines,
however many names lead to it; so a directive that stands in one place only has one line. -/
theorem usage_walks_the_tree {e : Executor σ ε} (hproper : e.table.Proper) : ∃ lines,
    Walk [] e.table lines ∧ (∀ lines', Walk [] e.table lines' → lines' = lines) ∧
      (usage e.table = lines.flatMap fun line => line.text ++ [10]) ∧
      (∀ line ∈ lines,
        List.replicate (2 * line.parents.length) 32 ++ line.name <+: line.text) ∧
      (∀ parents d, (∃ line ∈ lines, line.parents = parents ∧ line.directive = d)
        ↔ e.table.Holds parents d) ∧
      (lines.map UsageLine.path).Nodup ∧
      ((∀ parents parents' d, e.table.Holds parents d → e.table.Holds parents' d → parents = parents') →
        (lines.map UsageLine.directive).Nodup) := by
  obtain ⟨lines, hwalk, husage⟩ := exists_lines hproper
  refine ⟨lines, hwalk, fun lines' h' => hwalk.unique h', husage, fun line _ => ?_,
    hwalk.exists_line_iff, hwalk.nodup_paths, hwalk.nodup_directives⟩
  obtain ⟨arguments, description, htext⟩ := line.text_eq
  rw [htext, List.append_assoc, List.append_assoc]
  exact List.prefix_append _ _


/-- A directive with two names and a sub directive, beside a name that is bound to nothing. -/
theorem usage_walks_the_tree_under_alias : ∃ (e : Executor Nat Unit) (d sub : Directive Nat Unit),
    e.table.Proper ∧ ∃ lines, Walk [] e.table lines ∧
      (usage e.table = lines.flatMap fun line => line.text ++ [10]) ∧
      (lines.map UsageLine.path).Nodup ∧
      (∃ line ∈ lines, line.parents = [] ∧ line.directive = d) ∧
      (∃ line ∈ lines, line.parents = [d] ∧ line.directive = sub) ∧
      usage e.table = utf8 "a (a)\n  d\n" := by
  obtain ⟨sub, hsub⟩ : ∃ sub : Directive Nat Unit, sub = .mk { id := 2 } none [] := ⟨_, rfl⟩
  obtain ⟨d, hd⟩ : ∃ d : Directive Nat Unit,
    d = .mk { id := 1, aliases := [[97]] } none [([100], some sub)] := ⟨_, rfl⟩
  obtain ⟨e, he⟩ : ∃ e : Executor Nat Unit,
    e = { table := [([98], some d), ([97], some d), ([99], none)] } := ⟨_, rfl⟩
  have hsubs : d.subs = [([100], some sub)] := by
    subst hd
    rfl
  have hproper : e.table.Proper := by
    have honly : ∀ {name : Bytes} {d' : Directive Nat Unit}, (name, some d') ∈ e.table → d' = d := by
      subst he
      intro name d' hmem
      simp only [List.mem_cons, Prod.mk.injEq, Option.some.injEq, reduceCtorEq, and_false, or_false,
        List.not_mem_nil] at hmem
      rcases hmem with ⟨-, rfl⟩ | ⟨-, rfl⟩ <;> rfl
    refine .intro ?_ (fun hmem hmem' _ => (honly hmem).trans (honly hmem').symm) fun hmem => ?_
    · subst he
      simp [names]
    · rw [honly hmem, hsubs, hsub]
      exact Table.proper_singleton Table.proper_nil
  obtain ⟨lines, hwalk, -, husage, -, hlines, hpaths, -⟩ := usage_walks_the_tree hproper
  have hbound : ([98], some d) ∈ e.table := by
    subst he
    exact List.mem_cons_self
  refine ⟨e, d, sub, hproper, lines, hwalk, husage, hpaths, ?_, ?_, ?_⟩
  · exact (hlines [] d).mpr ⟨e.table, [98], .nil _, hbound⟩
  · exact (hlines [d] sub).mpr ⟨d.subs, [100], .cons hbound (.nil _), hsubs ▸ List.mem_cons_self⟩
  · subst he hd hsub
    cbv

end TapeMachine.CommandLine
