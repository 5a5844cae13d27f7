/-
The flags of the tool.

Every flag of the tool has the slot that is its place in the list. Nothing but its own words writes this slot;
only the first slot, that of the program file, is also written by words that are no directive. So the value of
every other flag is told by the segments of a command line.

* `Options.governs`: no directive but the words of a flag writes its slot;
* `Options.tells_parse`: the value of a flag behind a command line;
* `Options.exists_int_of_parse`, `Options.int?_of_parse`: the same of whole numbers.
-/
import TapeMachine.Proofs.CommandLine.Definition
import TapeMachine.Tool.Options

namespace TapeMachine

namespace CommandLine

variable {τ ε : Type} {slot : Nat} {f : Flag} {type : ArgType} {bits : Nat} {value : ArgValue}

/-- A command line that begins with the first value of a flag leaves the one that its segments tell. -/
theorem Governs.tells_execute {e : Executor (FlagState τ) ε} {s : FlagState τ} (h : Governs slot f e.table)
    (hunknown : Fallback.Spares slot e.unknown) (hfirst : s.store[slot]? = some f.kind.initial)
    (words : List Bytes) : Tells slot f (e.executed words s) ⟨e.table, [], (e.execute words s).1⟩ := by
  have hstart : Tells slot f [] ⟨e.table, words, s⟩ := by
    refine ⟨h, ?_, fun seg hseg => absurd hseg List.not_mem_nil⟩
    rw [Flag.valueAfter_nil]
    exact hfirst
  exact hstart.execute hunknown []

/-- A variable has the first value of its type, or one that was read by it. -/
theorem Tells.exists_one {segs : List (Segment (FlagState τ) ε)} {p : Position (FlagState τ) ε}
    (h : Tells slot f segs p) (hkind : f.kind = .single type) :
    ∃ value, f.valueAfter segs = .one value ∧
      (value = type.zero ∨ ∃ words, type.parse words = .ok value) := by
  rw [Flag.valueAfter, hkind]
  dsimp only
  cases hfind : (segs.reverse.takeWhile fun seg => seg.name ≠ f.name ++ utf8 ".").find?
      fun seg => seg.name = f.name with
  | none => exact ⟨_, rfl, .inl rfl⟩
  | some seg =>
    -- it is the last segment with the name of the flag, and its value was read from its own words
    have hmem : seg ∈ segs :=
      List.mem_reverse.mp ((List.takeWhile_sublist _).mem (List.mem_of_find?_eq_some hfind))
    have hname : seg.name = f.name := by simpa using List.find?_some hfind
    have hreads := h.reads seg hmem (by rw [Flag.names, hkind, hname]; exact List.mem_cons_self)
    have hparams : f.params seg.name = [type] := by
      rw [Flag.params, hkind, hname]
      exact if_pos rfl
    rw [hparams, takeArguments] at hreads
    split at hreads
    · cases hreads
    · next value hparse =>
      have hvalues : [value] = seg.values := congrArg Prod.fst (Except.ok.inj hreads)
      exact ⟨value, by rw [Option.elim_some, ← hvalues, List.headD_cons], .inr ⟨seg.taken, hparse⟩⟩

theorem ArgType.exists_int {words : List Bytes} (h : (ArgType.int bits).parse words = .ok value) :
    ∃ n, value = .int n := by
  rcases words with _ | ⟨word, words⟩
  · cases h
  · rw [parse, parseWord] at h
    split at h <;> cases h
    exact ⟨_, rfl⟩

theorem ArgType.exists_reference {words : List Bytes}
    (h : (ArgType.optional (.int bits)).parse words = .ok value) : ∃ n, value = .reference (.int n) := by
  rcases words with _ | ⟨word, words⟩
  · cases h
    exact ⟨0, rfl⟩
  · rw [parse, parseWord] at h
    split at h
    · next v hv =>
      cases h
      have hparse : (ArgType.int bits).parse [word] = .ok v := hv
      obtain ⟨n, rfl⟩ := ArgType.exists_int hparse
      exact ⟨n, rfl⟩
    · cases h

end CommandLine

namespace Tool.Options

open CommandLine
open Flags (DefinedAt OthersSpare addAll)

/-- The directive for the usage text stops the command line. -/
def helpHandler : Handler State Refusal where
  params := []
  call _ s := (s, some .usage)

/-- The flags without the directives for levels. -/
def ownFlags : Flags Log.Level Refusal :=
  addAll (all.map .flag) (.new helpHandler (some takeFile))

theorem flags_eq : flags = levels.foldl (fun flags (name, level) => defineLevel flags name level) ownFlags := by
  rw [ownFlags, addAll, List.foldl_map]
  rfl

/-! ### Slots -/

/-- Flags in a row have slots in a row. -/
theorem initial_addAll_map {τ ε : Type} (fs : List Flag) (flags : Flags τ ε) :
    (addAll (fs.map .flag) flags).initial = flags.initial ++ fs.map (·.kind.initial) := by
  induction fs generalizing flags with
  | nil => exact (List.append_nil _).symm
  | cons f fs ih =>
    rw [List.map_cons, addAll, List.foldl_cons, ← addAll, ih, Flags.add, Flags.initial_define,
      List.append_assoc]
    rfl

/-- No flag is refused. -/
theorem define_eq_none : ∀ k : Fin 14,
    ((addAll ((all.take k).map .flag) (.new helpHandler (some takeFile))).define (all.get k)).1 = none := by
  decide +kernel

theorem definedAt {slot : Nat} {f : Flag} (hf : all[slot]? = some f) :
    DefinedAt helpHandler (some takeFile) (all.map .flag) slot f := by
  obtain ⟨hlt, hget⟩ := List.getElem?_eq_some_iff.mp hf
  -- the flags before it have the slots before its own
  refine ⟨(all.take slot).map .flag, (all.drop (slot + 1)).map .flag, ?_, ?_, ?_⟩
  · rw [← List.map_cons, ← List.map_append, ← hget, List.getElem_cons_drop, List.take_append_drop]
  · rw [initial_addAll_map, List.length_append, List.length_map, List.length_take]
    show slot = 0 + min slot all.length
    omega
  · rw [← hget]
    exact define_eq_none ⟨slot, hlt⟩

theorem help_spares (slot : Nat) : (Executor.helpDirective helpHandler).Spares slot :=
  .mk (fun _ _ => rfl) fun _ _ hsub => absurd hsub List.not_mem_nil

/-- The tool has no other directives beside its flags. -/
theorem not_mem_directives (name : Bytes) (d : Directive State Refusal) :
    .directive name d ∉ all.map (Definition.flag (τ := Log.Level) (ε := Refusal)) := by
  intro hmem
  obtain ⟨f, -, heq⟩ := List.mem_map.mp hmem
  cases heq

/-- A word that is no directive writes the first slot only. -/
theorem othersSpare {slot : Nat} (hslot : slot ≠ 0) :
    OthersSpare slot helpHandler (some takeFile) (all.map .flag) where
  help := help_spares slot
  unknown := by
    intro handle hhandle name s
    cases hhandle
    unfold takeFile
    dsimp only
    split
    · exact List.getElem?_set_ne hslot.symm
    · rfl
  directives name d hmem := absurd hmem (not_mem_directives name d)

/-! ### Levels -/

variable {slot : Nat} {f : Flag}

/-- A directive for a level leaves every slot as it is. -/
theorem governs_defineLevel {flags : Flags Log.Level Refusal} (h : Governs slot f flags.executor.table)
    (name : String) (level : Log.Level) : Governs slot f (defineLevel flags name level).executor.table := by
  refine h.extend (extends_define h.nodup _ _) fun name' d hmem => ?_
  refine (Flags.mem_executor_define hmem).imp id fun hd => ?_
  rw [hd]
  exact .mk (fun _ _ => rfl) fun _ _ hsub => absurd hsub List.not_mem_nil

theorem governs_foldl_defineLevel (levels : List (String × Log.Level)) :
    ∀ {flags : Flags Log.Level Refusal}, Governs slot f flags.executor.table →
      Governs slot f
        (levels.foldl (fun flags (name, level) => defineLevel flags name level) flags).executor.table := by
  induction levels with
  | nil => exact fun h => h
  | cons first levels ih => exact fun h => ih (governs_defineLevel h first.1 first.2)

theorem initial_foldl_defineLevel (levels : List (String × Log.Level)) :
    ∀ flags : Flags Log.Level Refusal,
      (levels.foldl (fun flags (name, level) => defineLevel flags name level) flags).initial = flags.initial := by
  induction levels with
  | nil => exact fun _ => rfl
  | cons first levels ih => exact fun flags => ih (defineLevel flags first.1 first.2)

theorem unknown_foldl_defineLevel (levels : List (String × Log.Level)) :
    ∀ flags : Flags Log.Level Refusal,
      (levels.foldl (fun flags (name, level) => defineLevel flags name level) flags).executor.unknown
        = flags.executor.unknown := by
  induction levels with
  | nil => exact fun _ => rfl
  | cons first levels ih => exact fun flags => ih (defineLevel flags first.1 first.2)

/-- **No directive but the words of a flag writes its slot.** -/
theorem governs (hf : all[slot]? = some f) : Governs slot f flags.executor.table := by
  rw [flags_eq]
  exact governs_foldl_defineLevel _ (Flags.governs_addAll_of_spares (definedAt hf) (help_spares slot)
    fun name d hmem => absurd hmem (not_mem_directives name d))

theorem initial_flags (hf : all[slot]? = some f) : flags.initial[slot]? = some f.kind.initial := by
  rw [flags_eq, initial_foldl_defineLevel]
  exact Flags.initial_addAll (definedAt hf)

theorem unknown_flags : flags.executor.unknown = some takeFile := by
  rw [flags_eq, unknown_foldl_defineLevel]
  exact (Flags.grows_addAll _ Flags.nodup_new).unknown

/-- The segments of a command line that are executed. -/
def executed (words : List Bytes) : List (Segment State Refusal) :=
  flags.executor.executed words initial

/-- **The value of a flag is told by its own words**, whether the command line succeeds or not. -/
theorem tells_parse (hf : all[slot]? = some f) (hslot : slot ≠ 0) (words : List Bytes) :
    Tells slot f (executed words) ⟨flags.executor.table, [], (flags.executor.execute words initial).1⟩ := by
  refine (governs hf).tells_execute ?_ (initial_flags hf) words
  rw [unknown_flags]
  exact (othersSpare hslot).unknown

/-- The value of a flag that is a whole number. -/
theorem exists_int_of_parse {bits : Nat} (hf : all[slot]? = some f) (hslot : slot ≠ 0)
    (hkind : f.kind = .single (.int bits)) (words : List Bytes) :
    ∃ n, f.valueAfter (executed words) = .one (.int n) ∧
      int (flags.executor.execute words initial).1.store slot = n := by
  have htells := tells_parse hf hslot words
  obtain ⟨value, hvalue, hread⟩ := htells.exists_one hkind
  obtain ⟨n, rfl⟩ : ∃ n, value = .int n := by
    rcases hread with rfl | ⟨taken, hparse⟩
    · exact ⟨0, rfl⟩
    · exact ArgType.exists_int hparse
  have hstore := htells.value
  rw [hvalue] at hstore
  exact ⟨n, hvalue, by rw [int, hstore]⟩

/-- The value of a flag that is a whole number or was not given. -/
theorem int?_of_parse {bits : Nat} (hf : all[slot]? = some f) (hslot : slot ≠ 0)
    (hkind : f.kind = .single (.optional (.int bits))) (words : List Bytes) :
    f.valueAfter (executed words) = .one .absent ∧
        int? (flags.executor.execute words initial).1.store slot = none ∨
      ∃ n, f.valueAfter (executed words) = .one (.reference (.int n)) ∧
        int? (flags.executor.execute words initial).1.store slot = some n := by
  have htells := tells_parse hf hslot words
  obtain ⟨value, hvalue, hread⟩ := htells.exists_one hkind
  have hstore := htells.value
  rw [hvalue] at hstore
  rcases hread with rfl | ⟨taken, hparse⟩
  · exact .inl ⟨hvalue, by rw [int?, hstore]; rfl⟩
  · obtain ⟨n, rfl⟩ := ArgType.exists_reference hparse
    exact .inr ⟨n, hvalue, by rw [int?, hstore]⟩

/-- A command line that succeeds is executed to its end. -/
theorem words_of_parse {words : List Bytes} (h : (parse words).2 = none) :
    words = (executed words).flatMap Segment.words :=
  words_of_execute_eq_none h

end Tool.Options

end TapeMachine
