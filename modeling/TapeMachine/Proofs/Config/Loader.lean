/-
Looking a path up in settings files, by the files themselves.

A path is skipped where no file is. A file that is there is usable, or it is bad: it cannot be read, it is
not well formed, or the schema refuses it. The first bad file is the answer to every question. Without one,
the first file that has a value at a path is the only one that is asked for it.

* `Usable` and `Bad`: what is at a path; `Loads` and `FirstBad`: the same for a list of paths;
* `exists_roots_of_loads` and `FirstBad.loadFiles`: what is loaded;
* `Answers` and `Fails`: what the look-ups say;
* `first_file_answers`: they say so in every language, for every schema and every list of paths.
-/
import TapeMachine.Config.Loader

namespace TapeMachine.Config.Loader

/-- No file is at a path, as reading it reports. A path that leads through a file is not missing: it cannot
be read. -/
def missing (files : FileTree) (path : Bytes) : Bool :=
  match files.read path with
  | .error e => e.cause = .notFound
  | .ok _ => false

variable {L : Language}

/-- The file at a path can be read, it has a value, and the schema allows it. -/
inductive Usable (schema : Option L.Value) (files : FileTree) (path : Bytes) (value : L.Value) : Prop
  | intro (content : Bytes) (read : files.read path = .ok content)
      (compiled : L.compileBytes path content = .ok value)
      (allowed : ∀ s ∈ schema, L.validate (L.unify s value) = .ok ())

/-- What is wrong with what is at a path. -/
inductive Bad (schema : Option L.Value) (files : FileTree) (path : Bytes) : LoadError L.Error → Prop
  | unreadable {e : FileError} (read : files.read path = .error e) (cause : e.cause ≠ .notFound) :
      Bad schema files path (.file e)
  | malformed {content : Bytes} {e : L.Error} (read : files.read path = .ok content)
      (compiled : L.compileBytes path content = .error e) : Bad schema files path (.config e)
  | refused {content : Bytes} {value s : L.Value} {e : L.Error} (read : files.read path = .ok content)
      (compiled : L.compileBytes path content = .ok value) (given : s ∈ schema)
      (refused : L.validate (L.unify s value) = .error e) : Bad schema files path (.config e)

variable {schema : Option L.Value} {files : FileTree} {path : Bytes} {paths more : List Bytes}
variable {value : L.Value} {e : LoadError L.Error}

/-! ### One file -/

theorem loadFile_of_missing (h : missing files path) : loadFile schema files path = .ok none := by
  unfold missing at h
  split at h
  · next e hread =>
    rw [loadFile, hread]
    exact if_pos (of_decide_eq_true h)
  · cases h

theorem Usable.loadFile (h : Usable schema files path value) :
    loadFile schema files path = .ok (some ⟨path, value⟩) := by
  obtain ⟨content, hread, hcompiled, hallowed⟩ := h
  cases schema with
  | none => simp only [Loader.loadFile, hread, hcompiled, Option.map_none]
  | some s => simp only [Loader.loadFile, hread, hcompiled, Option.map_some, hallowed s rfl]

theorem Bad.loadFile (h : Bad schema files path e) : loadFile schema files path = .error e := by
  cases h with
  | unreadable hread hcause => simp only [Loader.loadFile, hread, if_neg hcause]
  | malformed hread hcompiled => simp only [Loader.loadFile, hread, hcompiled]
  | refused hread hcompiled hgiven hrefused =>
    cases hgiven
    simp only [Loader.loadFile, hread, hcompiled, Option.map_some, hrefused]

/-- At a path is no file, a usable one or a bad one. -/
theorem missing_or_usable_or_bad (schema : Option L.Value) (files : FileTree) (path : Bytes) :
    missing files path ∨ (∃ value, Usable schema files path value) ∨ ∃ e, Bad schema files path e := by
  cases hread : files.read path with
  | error e =>
    by_cases hcause : e.cause = .notFound
    · exact .inl (by rw [missing, hread]; exact decide_eq_true hcause)
    · exact .inr (.inr ⟨_, .unreadable hread hcause⟩)
  | ok content =>
    cases hcompiled : L.compileBytes path content with
    | error e => exact .inr (.inr ⟨_, .malformed hread hcompiled⟩)
    | ok value =>
      by_cases hrefused : ∃ s ∈ schema, ∃ e, L.validate (L.unify s value) = .error e
      · obtain ⟨s, hgiven, e, hrefused⟩ := hrefused
        exact .inr (.inr ⟨_, .refused hread hcompiled hgiven hrefused⟩)
      · refine .inr (.inl ⟨value, content, hread, hcompiled, fun s hgiven => ?_⟩)
        cases hvalid : L.validate (L.unify s value) with
        | ok => rfl
        | error e => exact absurd ⟨s, hgiven, e, hvalid⟩ hrefused

theorem Usable.not_missing (h : Usable schema files path value) : missing files path = false := by
  obtain ⟨content, hread, -, -⟩ := h
  rw [missing, hread]

/-- A file has one value. -/
theorem Usable.unique {other : L.Value} (h : Usable schema files path value)
    (hother : Usable schema files path other) : value = other := by
  obtain ⟨content, hread, hcompiled, -⟩ := h
  obtain ⟨content', hread', hcompiled', -⟩ := hother
  cases hread.symm.trans hread'
  cases hcompiled.symm.trans hcompiled'
  rfl

/-! ### A list of files -/

/-- Every file that is there is usable. -/
def Loads (schema : Option L.Value) (files : FileTree) (paths : List Bytes) : Prop :=
  ∀ path ∈ paths, missing files path ∨ ∃ value, Usable schema files path value

/-- The error of the first bad file. -/
def FirstBad (schema : Option L.Value) (files : FileTree) (paths : List Bytes) (e : LoadError L.Error) : Prop :=
  ∃ before path after, paths = before ++ path :: after ∧ Loads schema files before ∧
    Bad schema files path e

theorem loads_nil (schema : Option L.Value) (files : FileTree) : Loads schema files [] :=
  fun _ h => nomatch h

/-- There is a first bad file, or none. -/
theorem loads_or_firstBad (schema : Option L.Value) (files : FileTree) (paths : List Bytes) :
    Loads schema files paths ∨ ∃ e, FirstBad schema files paths e := by
  induction paths with
  | nil => exact .inl (loads_nil schema files)
  | cons path paths ih =>
    -- a bad file at the head is the first one, whatever the others are
    rcases or_assoc.mpr (missing_or_usable_or_bad schema files path) with hgood | ⟨e, hbad⟩
    · rcases ih with hloads | ⟨e, before, bad, after, rfl, hbefore, hbad⟩
      · exact .inl (List.forall_mem_cons.mpr ⟨hgood, hloads⟩)
      · exact .inr ⟨e, path :: before, bad, after, rfl, List.forall_mem_cons.mpr ⟨hgood, hbefore⟩, hbad⟩
    · exact .inr ⟨e, [], path, paths, rfl, loads_nil schema files, hbad⟩

theorem Loads.append (h : Loads schema files paths) (hmore : Loads schema files more) :
    Loads schema files (paths ++ more) :=
  List.forall_mem_append.mpr ⟨h, hmore⟩

/-- Files that are not there are skipped. -/
theorem loadFiles_filter (schema : Option L.Value) (files : FileTree) (paths : List Bytes) :
    loadFiles schema files (paths.filter (!missing files ·)) = loadFiles schema files paths := by
  induction paths with
  | nil => rfl
  | cons path paths ih =>
    cases hmissing : missing files path with
    | false => rw [List.filter_cons_of_pos (by simp [hmissing]), loadFiles, loadFiles, ih]
    | true =>
      rw [List.filter_cons_of_neg (by simp [hmissing]), ih, loadFiles, loadFile_of_missing hmissing]
      cases loadFiles schema files paths <;> rfl

theorem loadFiles_append (schema : Option L.Value) (files : FileTree) (paths more : List Bytes) :
    loadFiles schema files (paths ++ more) = do
      let roots ← loadFiles schema files paths
      let rest ← loadFiles schema files more
      return roots ++ rest := by
  induction paths with
  | nil => cases h : loadFiles schema files more <;> simp [loadFiles, h, bind, Except.bind, pure, Except.pure]
  | cons path paths ih =>
    rw [List.cons_append, loadFiles, ih, loadFiles]
    simp only [bind_assoc, pure_bind, List.append_assoc]

/-- **What is loaded**: the files that are there, each with its value. -/
theorem exists_roots_of_loads (h : Loads schema files paths) :
    ∃ roots, loadFiles schema files paths = .ok roots ∧
      roots.map (·.path) = paths.filter (!missing files ·) ∧
      ∀ root ∈ roots, Usable schema files root.path root.value := by
  induction paths with
  | nil => exact ⟨[], rfl, rfl, fun _ h => nomatch h⟩
  | cons path paths ih =>
    obtain ⟨hgood, hrest⟩ := List.forall_mem_cons.mp h
    obtain ⟨roots, hroots, hpaths, husable⟩ := ih hrest
    rcases hgood with hmissing | ⟨value, hvalue⟩
    · refine ⟨roots, ?_, ?_, husable⟩
      · rw [loadFiles, loadFile_of_missing hmissing, hroots]
        rfl
      · rw [hpaths, List.filter_cons_of_neg (by simp [hmissing])]
    · refine ⟨⟨path, value⟩ :: roots, ?_, ?_, List.forall_mem_cons.mpr ⟨hvalue, husable⟩⟩
      · rw [loadFiles, hvalue.loadFile, hroots]
        rfl
      · rw [List.map_cons, hpaths, List.filter_cons_of_pos (by simp [hvalue.not_missing])]

/-- The first bad file fails them all. -/
theorem FirstBad.loadFiles (h : FirstBad schema files paths e) : loadFiles schema files paths = .error e := by
  obtain ⟨before, path, after, rfl, hbefore, hbad⟩ := h
  obtain ⟨roots, hroots, -, -⟩ := exists_roots_of_loads hbefore
  rw [loadFiles_append, hroots, Loader.loadFiles, hbad.loadFile]
  rfl

/-- Loading succeeds only without a bad file. -/
theorem loads_of_loadFiles_eq_ok {roots : List (Root L)} (h : loadFiles schema files paths = .ok roots) :
    Loads schema files paths := by
  refine (loads_or_firstBad schema files paths).resolve_right fun ⟨e, hbad⟩ => ?_
  rw [hbad.loadFiles] at h
  cases h

/-- The loaded files are there, and usable. -/
theorem usable_of_mem_roots {roots : List (Root L)} (h : loadFiles schema files paths = .ok roots)
    {root : Root L} (hroot : root ∈ roots) : root.path ∈ paths ∧ Usable schema files root.path root.value := by
  obtain ⟨roots', hroots, hpaths, husable⟩ := exists_roots_of_loads (loads_of_loadFiles_eq_ok h)
  cases h.symm.trans hroots
  have hmem : root.path ∈ roots.map (·.path) := List.mem_map_of_mem hroot
  rw [hpaths] at hmem
  exact ⟨(List.mem_filter.mp hmem).1, husable root hroot⟩

/-! ### Values at a name -/

/-- No usable file has a value at a name. An error in its place is none. -/
def NoneDefines (schema : Option L.Value) (files : FileTree) (paths : List Bytes) (name : String) : Prop :=
  ∀ path ∈ paths, ∀ whole, Usable schema files path whole →
    ∀ value, L.lookupPath whole name ≠ some (.ok value)

/-- The first file that has a value at a name: it is `whole` as a whole, and `value` there. -/
def FirstDefines (schema : Option L.Value) (files : FileTree) (paths : List Bytes) (name : String)
    (whole value : L.Value) : Prop :=
  ∃ before path after, paths = before ++ path :: after ∧ NoneDefines schema files before name ∧
    Usable schema files path whole ∧ L.lookupPath whole name = some (.ok value)

variable {name : String} {whole : L.Value}

theorem valueAt?_eq_some_iff : valueAt? whole name = some value ↔ L.lookupPath whole name = some (.ok value) := by
  rcases h : L.lookupPath whole name with _ | (e | found) <;> simp [valueAt?, h]

theorem noneDefines_nil (schema : Option L.Value) (files : FileTree) (name : String) :
    NoneDefines schema files [] name :=
  fun _ h => nomatch h

/-- A file has a value at a name, or none has. -/
theorem firstDefines_or_noneDefines (schema : Option L.Value) (files : FileTree) (paths : List Bytes)
    (name : String) :
    (∃ whole value, FirstDefines schema files paths name whole value) ∨
      NoneDefines schema files paths name := by
  induction paths with
  | nil => exact .inr (noneDefines_nil schema files name)
  | cons path paths ih =>
    by_cases h : ∃ whole value, Usable schema files path whole ∧ L.lookupPath whole name = some (.ok value)
    · obtain ⟨whole, value, husable, hget⟩ := h
      exact .inl ⟨whole, value, [], path, paths, rfl, noneDefines_nil schema files name, husable, hget⟩
    · have hpath : ∀ whole, Usable schema files path whole →
          ∀ value, L.lookupPath whole name ≠ some (.ok value) :=
        fun whole husable value hget => h ⟨whole, value, husable, hget⟩
      rcases ih with ⟨whole, value, before, found, after, rfl, hnone, husable, hget⟩ | hnone
      · exact .inl ⟨whole, value, path :: before, found, after, rfl,
          List.forall_mem_cons.mpr ⟨hpath, hnone⟩, husable, hget⟩
      · exact .inr (List.forall_mem_cons.mpr ⟨hpath, hnone⟩)

/-- There is one first file that has a value, and one value in it. -/
theorem FirstDefines.unique {whole' value' : L.Value} (h : FirstDefines schema files paths name whole value)
    (h' : FirstDefines schema files paths name whole' value') : whole = whole' ∧ value = value' := by
  -- a file that stands in front of the first one has no value
  have hfirst : ∀ {before after more path found} {v : L.Value}, NoneDefines schema files before name →
      before = after ++ path :: more → Usable schema files path found →
        L.lookupPath found name ≠ some (.ok v) := by
    rintro before after more path found v hnone rfl husable
    exact hnone path (List.mem_append_right _ List.mem_cons_self) found husable v
  obtain ⟨before, path, after, hpaths, hnone, husable, hget⟩ := h
  obtain ⟨before', path', after', hpaths', hnone', husable', hget'⟩ := h'
  rcases List.append_eq_append_iff.mp (hpaths.symm.trans hpaths') with ⟨gap, hgap, htail⟩ | ⟨gap, hgap, htail⟩
  · rcases gap with _ | ⟨found, gap⟩
    · cases htail
      cases husable.unique husable'
      cases hget.symm.trans hget'
      exact ⟨rfl, rfl⟩
    · cases htail
      exact absurd hget (hfirst hnone' hgap husable)
  · rcases gap with _ | ⟨found, gap⟩
    · cases htail
      cases husable.unique husable'
      cases hget.symm.trans hget'
      exact ⟨rfl, rfl⟩
    · cases htail
      exact absurd hget' (hfirst hnone hgap husable')

theorem values_load {roots : List (Root L)} (h : loadFiles schema files paths = .ok roots) (name : String) :
    (load schema files paths).values name = .ok (roots.filterMap fun root => valueAt? root.value name) := by
  rw [values, load, h]
  rfl

theorem NoneDefines.filterMap_eq_nil {roots : List (Root L)} (h : NoneDefines schema files paths name)
    (hroots : loadFiles schema files paths = .ok roots) :
    (roots.filterMap fun root => valueAt? root.value name) = [] := by
  refine List.filterMap_eq_nil_iff.mpr fun root hroot => ?_
  obtain ⟨hmem, husable⟩ := usable_of_mem_roots hroots hroot
  exact Option.eq_none_iff_forall_ne_some.mpr fun value hvalue =>
    h root.path hmem root.value husable value (valueAt?_eq_some_iff.mp hvalue)

/-- The first value is that of the first file that has one. -/
theorem FirstDefines.values_eq_cons (h : FirstDefines schema files paths name whole value)
    (hloads : Loads schema files paths) :
    ∃ others, (load schema files paths).values name = .ok (value :: others) := by
  obtain ⟨before, path, after, rfl, hnone, husable, hget⟩ := h
  obtain ⟨hbefore, hafter⟩ := List.forall_mem_append.mp hloads
  obtain ⟨skipped, hskipped, -, -⟩ := exists_roots_of_loads hbefore
  obtain ⟨rest, hrest, -, -⟩ := exists_roots_of_loads (List.forall_mem_cons.mp hafter).2
  -- what is loaded before it has nothing at the name, so it gives no value
  have hroots : loadFiles schema files (before ++ path :: after) = .ok (skipped ++ ⟨path, whole⟩ :: rest) := by
    rw [loadFiles_append, hskipped, Loader.loadFiles, husable.loadFile, hrest]
    rfl
  refine ⟨rest.filterMap fun root => valueAt? root.value name, ?_⟩
  rw [values_load hroots, List.filterMap_append, hnone.filterMap_eq_nil hskipped, List.nil_append]
  exact congrArg Except.ok (List.filterMap_cons_some (valueAt?_eq_some_iff.mpr hget))

/-- There is no value iff no file has one. -/
theorem values_eq_nil_iff (hloads : Loads schema files paths) :
    (load schema files paths).values name = .ok [] ↔ NoneDefines schema files paths name := by
  constructor
  · intro h
    refine (firstDefines_or_noneDefines schema files paths name).resolve_left fun ⟨whole, value, hdefines⟩ => ?_
    obtain ⟨others, hothers⟩ := hdefines.values_eq_cons hloads
    cases h.symm.trans hothers
  · intro hnone
    obtain ⟨roots, hroots, -, -⟩ := exists_roots_of_loads hloads
    rw [values_load hroots, hnone.filterMap_eq_nil hroots]

/-! ### Look-ups -/

/-- What a value is read as. -/
def decoded {ε α : Type} : Option α → Except (LookupError ε) α
  | some a => .ok a
  | none => .error .wrongType

/-- Every look-up fails with one error. -/
structure Fails (l : Loader L) (e : LoadError L.Error) : Prop where
  paths : l.paths = .error e
  values (name : String) : l.values name = .error e
  assignFirst {α : Type} (name : String) (read? : L.Value → Option α) :
    l.assignFirst name read? = .error (.load e)
  lookup {α : Type} (name : String) (read? : L.Value → Option α) : l.lookup name read? = .error (.load e)

/-- The look-ups ask the first file that has a value, and no other. -/
structure Answers (schema : Option L.Value) (files : FileTree) (paths : List Bytes) (l : Loader L) : Prop where
  listed : l.paths = .ok (paths.filter (!missing files ·))
  first {name : String} {whole value : L.Value} (h : FirstDefines schema files paths name whole value)
    {α : Type} (read? : L.Value → Option α) :
    (∃ others, l.values name = .ok (value :: others)) ∧ l.assignFirst name read? = decoded (read? value) ∧
      l.lookup name read? = (decoded (read? value)).map some
  notFound {α : Type} (name : String) (read? : L.Value → Option α) :
    (l.values name = .ok [] ↔ NoneDefines schema files paths name) ∧
      (l.assignFirst name read? = .error .notFound ↔ NoneDefines schema files paths name) ∧
      (l.lookup name read? = .ok none ↔ NoneDefines schema files paths name)

section

variable {l : Loader L} {α : Type} {read? : L.Value → Option α}

/-- The first value is read, and no other one. -/
theorem assignFirst_of_values_cons {others : List L.Value} (h : l.values name = .ok (value :: others)) :
    l.assignFirst name read? = decoded (read? value) := by
  simp only [assignFirst, h]
  cases read? value <;> rfl

/-- A value that cannot be read is not the same as none. -/
theorem assignFirst_eq_notFound_iff : l.assignFirst name read? = .error .notFound ↔ l.values name = .ok [] := by
  rcases h : l.values name with e | - | ⟨value, others⟩
  · simp [assignFirst, h]
  · simp [assignFirst, h]
  · rw [assignFirst_of_values_cons h]
    cases read? value <;> simp [decoded]

theorem lookup_eq_decoded_iff {o : Option α} :
    l.lookup name read? = (decoded o).map some ↔ l.assignFirst name read? = decoded o := by
  rw [lookup]
  rcases l.assignFirst name read? with (e | - | -) | a <;> cases o <;> simp [decoded, Except.map]

theorem lookup_eq_none_iff : l.lookup name read? = .ok none ↔ l.assignFirst name read? = .error .notFound := by
  rw [lookup]
  rcases l.assignFirst name read? with (e | - | -) | a <;> simp

end

/-- The error of loading is the error of every look-up. -/
theorem fails_of_roots {l : Loader L} (h : l.roots = .error e) : Fails l e := by
  have hvalues (name : String) : l.values name = .error e := by
    rw [values, h]
    rfl
  have hfirst {α : Type} (name : String) (read? : L.Value → Option α) :
      l.assignFirst name read? = .error (.load e) := by
    rw [assignFirst, hvalues]
  refine ⟨?_, hvalues, hfirst, fun name read? => ?_⟩
  · rw [Loader.paths, h]
    rfl
  · rw [lookup, hfirst]

/-- **Without a bad file the look-ups ask the first file that has a value.** -/
theorem Loads.answers (h : Loads schema files paths) : Answers schema files paths (load schema files paths) := by
  refine ⟨?_, fun hdefines _ read? => ?_, fun name read? => ⟨values_eq_nil_iff h, ?_, ?_⟩⟩
  · obtain ⟨roots, hroots, hpaths, -⟩ := exists_roots_of_loads h
    rw [Loader.paths, load, hroots, ← hpaths]
    rfl
  · obtain ⟨others, hothers⟩ := hdefines.values_eq_cons h
    have hread : (load schema files paths).assignFirst _ read? = decoded (read? _) :=
      assignFirst_of_values_cons hothers
    exact ⟨⟨others, hothers⟩, hread, lookup_eq_decoded_iff.mpr hread⟩
  · rw [assignFirst_eq_notFound_iff, values_eq_nil_iff h]
  · rw [lookup_eq_none_iff, assignFirst_eq_notFound_iff, values_eq_nil_iff h]

/-- **Files behind others do not matter to what was found.** -/
theorem FirstDefines.append (h : FirstDefines schema files paths name whole value) (more : List Bytes) :
    FirstDefines schema files (paths ++ more) name whole value := by
  obtain ⟨before, path, after, rfl, hnone, husable, hget⟩ := h
  exact ⟨before, path, after ++ more, by simp, hnone, husable, hget⟩

/-- What the text of a schema stands for: an empty one for no schema, any other one for a closed record of
which it is the inside. -/
inductive Compiles : String → Option L.Value → Prop
  | empty : Compiles "" none
  | text {text : String} {s : L.Value} (given : text ≠ "")
      (compiled : L.compileString ("close(\x7b" ++ text ++ "\x7d)") = .ok s) : Compiles text (some s)

theorem Compiles.of_some {text : String} {s : L.Value} (h : Compiles text (some s)) :
    text ≠ "" ∧ L.compileString ("close(\x7b" ++ text ++ "\x7d)") = .ok s := by
  cases h with
  | text given compiled => exact ⟨given, compiled⟩

theorem loadWith_of_compiles {text : String} (h : Compiles text schema) (files : FileTree)
    (paths : List Bytes) : loadWith text files paths L = load schema files paths := by
  cases h with
  | empty => rfl
  | text given compiled =>
    have hgiven : ¬text.isEmpty := fun hempty => given (String.isEmpty_iff.mp hempty)
    rw [loadWith, schema?, if_neg hgiven, closedText, compiled]
    rfl

/-- **Look-ups ask the first file that has a value.** Without a bad file they answer so; the first bad file
fails them all. Paths at which no file is do not matter, and neither do usable files behind the one that
was asked, whether its value could be read or not. -/
theorem first_file_answers {text : String} (h : Compiles text schema) (files : FileTree)
    (paths : List Bytes) :
    (Loads schema files paths → Answers schema files paths (loadWith text files paths L)) ∧
      (∀ e, FirstBad schema files paths e → Fails (loadWith text files paths L) e) ∧
      (Loads schema files paths ∨ ∃ e, FirstBad schema files paths e) ∧
      (∀ others, others.filter (!missing files ·) = paths.filter (!missing files ·) →
        loadWith text files others L = loadWith text files paths L) ∧
      ∀ more, Loads schema files more → ∀ name {α : Type} (read? : L.Value → Option α) (o : Option α),
        ((loadWith text files paths L).assignFirst name read? = decoded o →
          (loadWith text files (paths ++ more) L).assignFirst name read? = decoded o) ∧
        ((loadWith text files paths L).lookup name read? = (decoded o).map some →
          (loadWith text files (paths ++ more) L).lookup name read? = (decoded o).map some) := by
  simp only [loadWith_of_compiles h, lookup_eq_decoded_iff, and_self]
  refine ⟨Loads.answers, fun e hbad => fails_of_roots hbad.loadFiles, loads_or_firstBad schema files paths,
    fun others hsame => ?_, fun more hmore name α read? o hfound => ?_⟩
  · rw [load, load, ← loadFiles_filter, hsame, loadFiles_filter]
  · -- something was found, so no file is bad, and some file has a value
    have hloads : Loads schema files paths := by
      refine (loads_or_firstBad schema files paths).resolve_right fun ⟨e, hbad⟩ => ?_
      rw [(fails_of_roots (l := load schema files paths) hbad.loadFiles).assignFirst] at hfound
      cases o <;> cases hfound
    rcases firstDefines_or_noneDefines schema files paths name with ⟨whole, value, hdefines⟩ | hnone
    · obtain ⟨-, hread, -⟩ := hloads.answers.first hdefines read?
      obtain ⟨-, hread', -⟩ := (hloads.append hmore).answers.first (hdefines.append more) read?
      exact hread'.trans (hread.symm.trans hfound)
    · rw [(hloads.answers.notFound name read?).2.1.mpr hnone] at hfound
      cases o <;> cases hfound

theorem eq_ok_of_toOption {ε α : Type} {x : Except ε α} {a : α} (h : x.toOption = some a) :
    x = .ok a := by
  cases x with
  | error e => cases h
  | ok b => exact congrArg Except.ok (Option.some.inj h)

/-- A path without a file, and a file with a field that the schema names. -/
theorem second_file_answers :
    (loadWith "n?: int" { entries := [([utf8 "b"], .file (utf8 "n: 2"))] } [utf8 "/a", utf8 "/b"]).lookup "n"
      Value.int? = .ok (some 2) := by
  let files : FileTree := { entries := [([utf8 "b"], .file (utf8 "n: 2"))] }
  -- the schema and the file are read, they go together, and the file has a number at the name
  have hread : ((language.compileString ("close(\x7b" ++ "n?: int" ++ "\x7d)")).toOption.bind fun schema =>
      (language.compileBytes (utf8 "/b") (utf8 "n: 2")).toOption.bind fun whole =>
      (language.validate (schema.unify whole)).toOption.bind fun _ =>
      (valueAt? (L := language) whole "n").bind Value.int?) = some 2 := by decide +kernel
  obtain ⟨schema, hschema, hread⟩ := Option.bind_eq_some_iff.mp hread
  obtain ⟨whole, hwhole, hread⟩ := Option.bind_eq_some_iff.mp hread
  obtain ⟨_, hallowed, hread⟩ := Option.bind_eq_some_iff.mp hread
  obtain ⟨value, hvalue, hint⟩ := Option.bind_eq_some_iff.mp hread
  have hcompiled : Compiles (L := language) "n?: int" (some schema) :=
    .text (by decide) (eq_ok_of_toOption hschema)
  have husable : Usable (L := language) (some schema) files (utf8 "/b") whole := by
    refine ⟨utf8 "n: 2", rfl, eq_ok_of_toOption hwhole, fun s hs => ?_⟩
    cases hs
    exact eq_ok_of_toOption hallowed
  have hmissing : missing files (utf8 "/a") = true := by decide
  have hloads : Loads (L := language) (some schema) files [utf8 "/a", utf8 "/b"] :=
    List.forall_mem_cons.mpr ⟨.inl hmissing, List.forall_mem_singleton.mpr (.inr ⟨whole, husable⟩)⟩
  have hdefines : FirstDefines (L := language) (some schema) files [utf8 "/a", utf8 "/b"] "n" whole value := by
    refine ⟨[utf8 "/a"], utf8 "/b", [], rfl, ?_, husable, valueAt?_eq_some_iff.mp hvalue⟩
    intro path hpath other hother
    rw [List.mem_singleton.mp hpath] at hother
    rw [hother.not_missing] at hmissing
    cases hmissing
  obtain ⟨hanswers, -⟩ := first_file_answers hcompiled files [utf8 "/a", utf8 "/b"]
  rw [((hanswers hloads).first hdefines Value.int?).2.2, hint]
  rfl

end TapeMachine.Config.Loader
