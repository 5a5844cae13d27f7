/-
Which settings are in effect.

A number on the command line counts if it is positive. Else the first settings file that has the number
decides, and without one the default does. What is tested against the schema is the file and the schema in one,
and what is read is the file alone. Where the two have the same number the numbers in effect are positive; where
they do not, as with a choice whose preferred value the schema excludes, they need not be.

The delay is counted in milliseconds and kept in nanoseconds, in a word of 64 bits. It is what was asked for, and
longer for more, up to the last number of milliseconds that such a word holds.

* `FirstInt`: the number that the first file with a value has there;
* `AsTested`: where it is the number that was tested, and so within the bounds of the schema;
* `NumberSetting`: the settings that are numbers;
* `number_setting_precedence`: their values in effect;
* `toInt_milliseconds`: milliseconds in a word;
* `Requested`: the delay that was asked for;
* `step_delay_means_what_was_asked`: the delay in effect.

The language of the files is a parameter that is assumed to keep to the schema; `NumberSetting.enforces` and
`enforces_step_delay` say that the one that is spoken here does.
-/
import Mathlib.Algebra.Order.Ring.Rat
import TapeMachine.Machine.Run
import TapeMachine.Proofs.Config.Loader
import TapeMachine.Proofs.Config.Schema
import TapeMachine.Proofs.Tool.Options
import TapeMachine.Proofs.Web.Frames

namespace TapeMachine

namespace Config

namespace Comparison

theorem holds_orderNumbers_greater {a b : Rat} : greater.holds (Atom.orderNumbers a b) ↔ b < a := by
  rw [Atom.orderNumbers]
  split_ifs with hlt heq
  · exact iff_of_false nofun (lt_asymm hlt)
  · exact iff_of_false nofun heq.not_gt
  · exact iff_of_true rfl ((not_lt.mp hlt).lt_of_ne' heq)

theorem holds_orderNumbers_atLeast {a b : Rat} : atLeast.holds (Atom.orderNumbers a b) ↔ b ≤ a := by
  rw [Atom.orderNumbers]
  split_ifs with hlt heq
  · exact iff_of_false nofun hlt.not_ge
  · exact iff_of_true rfl heq.ge
  · exact iff_of_true rfl (not_lt.mp hlt)

/-- What comparisons with zero say of whole numbers. -/
theorem admits_greater_iff {n : Int} : greater.admits (.int n) (.int 0) ↔ 0 < n :=
  holds_orderNumbers_greater.trans Int.cast_lt

theorem admits_atLeast_iff {n : Int} : atLeast.admits (.int n) (.int 0) ↔ 0 ≤ n :=
  holds_orderNumbers_atLeast.trans Int.cast_le

end Comparison

end Config

namespace Settings

open Config
open Config.Loader (Loads Usable FirstDefines NoneDefines Compiles loadWith loadWith_of_compiles)
open CommandLine (Flag Segment)
open Tool (Options)

variable {L : Language} {s : L.Value} {files : FileTree} {paths : List Bytes} {name : String}
variable {first : Option Int} {bound : Int → Prop}

/-- The whole number that the first file with a value has there, if a file has a value. -/
inductive FirstInt (s : L.Value) (files : FileTree) (paths : List Bytes) (name : String) :
    Option Int → Prop
  | none (h : NoneDefines (some s) files paths name) : FirstInt s files paths name none
  | some {whole value : L.Value} {n : Int} (h : FirstDefines (some s) files paths name whole value)
      (read : L.int? value = some n) : FirstInt s files paths name (some n)

theorem fromFiles_of_firstInt (hloads : Loads (some s) files paths) (h : FirstInt s files paths name first) :
    fromFiles (.load (some s) files paths) name = .ok first := by
  cases h with
  | none hnone =>
    obtain ⟨-, -, hlookup⟩ := hloads.answers.notFound name L.int?
    rw [fromFiles, hlookup.mpr hnone]
  | some hfirst hread =>
    obtain ⟨-, -, hlookup⟩ := hloads.answers.first hfirst L.int?
    rw [fromFiles, hlookup, hread]
    rfl

/-! ### What the schema says -/

/-- The number that is read from the first file with a value is the one that was tested: that of the file and
the schema in one. -/
def AsTested (s : L.Value) (files : FileTree) (paths : List Bytes) (name : String) : Prop :=
  ∀ whole value n, FirstDefines (some s) files paths name whole value → L.int? value = some n →
    L.HasInt (L.unify s whole) name n

theorem asTested_of_firstDefines {whole value : L.Value} {n : Int}
    (h : FirstDefines (some s) files paths name whole value) (hread : L.int? value = some n)
    (htested : L.HasInt (L.unify s whole) name n) : AsTested s files paths name := by
  intro whole' value' n' h' hread'
  obtain ⟨rfl, rfl⟩ := h.unique h'
  cases hread.symm.trans hread'
  exact htested

/-- **What the schema says of the number that decides**, if that is the one that was tested. -/
theorem bound_of_asTested (henforces : L.Enforces s name bound) (htested : AsTested s files paths name)
    (h : FirstInt s files paths name first) : ∀ n ∈ first, bound n := by
  intro n hn
  cases h with
  | none => cases hn
  | @some whole value m hfirst hread =>
    cases hn
    obtain ⟨before, path, after, -, -, ⟨content, -, -, hallowed⟩, -⟩ := id hfirst
    exact henforces whole (hallowed s rfl) n (htested whole value n hfirst hread)

/-- The fields of settings files, each with how its number compares with zero. -/
def comparisons : List (String × Comparison) :=
  [("tape_length", .greater), ("max_steps", .greater), ("preview_cells", .greater), ("step_delay_ms", .atLeast)]

/-- Every field is a path. -/
theorem parse?_of_mem_comparisons {c : Comparison} (h : (name, c) ∈ comparisons) :
    Path.parse? name = some [.field name] := by
  have hplain : ∀ field ∈ comparisons, Plain field.1.toList ∧ Reader.constant? field.1 = none := by
    decide +kernel
  obtain ⟨hplain, hname⟩ := hplain _ h
  exact Path.parse?_of_plain hplain hname

/-- **The schema is enforced** in the language that is spoken here. -/
theorem enforces_of_mem_comparisons {s : Value} (hschema : Compiles (L := language) schema (some s))
    {c : Comparison} (h : (name, c) ∈ comparisons) :
    language.Enforces s name fun n => c.admits (.int n) (.int 0) := by
  have hall : (language.compileString ("close(\x7b" ++ schema ++ "\x7d)")).toOption.all (fun s =>
      comparisons.all fun field => s.boundsAt? field.1 = some [⟨field.2, .int 0⟩]) = true := by decide +kernel
  obtain ⟨-, hcompiled⟩ := hschema.of_some
  rw [hcompiled] at hall
  have hbound := of_decide_eq_true (List.all_eq_true.mp hall _ h)
  intro value hallowed n hn
  have hadmits := language_enforces (parse?_of_mem_comparisons h) hbound value hallowed n hn _
    List.mem_cons_self
  rw [Bound.admits, Bool.and_eq_true] at hadmits
  exact hadmits.2

/-! ### Numbers -/

/-- The number in effect: the one that was asked for if it is positive, else the one of the first file that
has it, else the default. A zero counts as none. -/
def effective (asked fallback : Int) : Option Int → Int
  | none => if 0 < asked then asked else fallback
  | some n => if 0 < asked then asked else if n = 0 then fallback else n

theorem firstNonzero_eq (asked fallback : Int) (first : Option Int) :
    firstNonzero [max asked 0, first.getD 0, fallback] = effective asked fallback first := by
  have hlast : firstNonzero [fallback] = fallback := by
    rw [firstNonzero]
    split_ifs with h
    · exact h.symm
    · rfl
  by_cases hasked : 0 < asked
  · rw [max_eq_left hasked.le, firstNonzero, if_neg hasked.ne']
    cases first <;> exact (if_pos hasked).symm
  · rw [max_eq_right (not_lt.mp hasked), firstNonzero, if_pos rfl, firstNonzero, hlast]
    cases first <;> exact (if_neg hasked).symm

theorem number_of_firstInt (hloads : Loads (some s) files paths) (h : FirstInt s files paths name first)
    (asked fallback : Int) :
    number (.load (some s) files paths) name asked fallback = .ok (effective asked fallback first) := by
  rw [number, fromFiles_of_firstInt hloads h]
  exact congrArg Except.ok (firstNonzero_eq asked fallback first)

/-- The number in effect is positive unless the files decide, and have a negative one. -/
theorem one_le_effective_iff {asked fallback : Int} (hfallback : 1 ≤ fallback) :
    1 ≤ effective asked fallback first ↔ 0 < asked ∨ ∀ n ∈ first, 0 ≤ n := by
  cases first with
  | none =>
    rw [effective]
    split_ifs with hasked
    · exact iff_of_true hasked (.inl hasked)
    · exact iff_of_true hfallback (.inr nofun)
  | some n =>
    have hmem : (∀ m ∈ some n, 0 ≤ m) ↔ 0 ≤ n := by simp
    rw [effective, hmem]
    split_ifs <;> omega

theorem effective_of_pos {asked fallback : Int} (h : ∀ n ∈ first, 0 < n) :
    effective asked fallback first = if 0 < asked then asked else first.getD fallback := by
  cases first with
  | none => rfl
  | some n =>
    have hpos : 0 < n := h n rfl
    rw [effective, if_neg hpos.ne', Option.getD_some]

/-- The settings that are numbers. -/
inductive NumberSetting where
  | tapeLength
  | maxSteps
  | previewCells

namespace NumberSetting

/-- The path in settings files. -/
def path : NumberSetting → String
  | tapeLength => "tape_length"
  | maxSteps => "max_steps"
  | previewCells => "preview_cells"

/-- The flag on the command line. -/
def flag : NumberSetting → Flag
  | tapeLength => Options.intFlag "-tape-length" "initial number of tape cells"
  | maxSteps => Options.intFlag "-max-steps" "step budget of a run"
  | previewCells => Options.intFlag "-preview" "number of tape cells shown by viewers"

/-- The slot of the flag. -/
def slot : NumberSetting → Nat
  | tapeLength => 10
  | maxSteps => 11
  | previewCells => 12

/-- The default. -/
def fallback : NumberSetting → Int
  | tapeLength => defaultTapeLength
  | maxSteps => defaultMaxSteps
  | previewCells => defaultPreviewCells

/-- The value in effect. -/
def value : NumberSetting → Loader L → Request → Except (Failure L.Error) Int
  | tapeLength => Settings.tapeLength
  | maxSteps => Settings.maxSteps
  | previewCells => Settings.previewCells

theorem getElem?_all (k : NumberSetting) : Options.all[k.slot]? = some k.flag := by
  cases k <;> rfl

theorem one_le_fallback (k : NumberSetting) : 1 ≤ k.fallback := by
  cases k <;> decide

/-- The schema keeps the number positive, in the language that is spoken here. -/
theorem enforces (k : NumberSetting) {s : Value} (hschema : Compiles (L := language) schema (some s)) :
    language.Enforces s k.path (0 < ·) := by
  have hfield : (k.path, Comparison.greater) ∈ comparisons := by cases k <;> decide
  intro value hallowed n hn
  exact Comparison.admits_greater_iff.mp (enforces_of_mem_comparisons hschema hfield value hallowed n hn)

/-- What a command line asks for is told by the words of the flag. -/
theorem exists_asked (k : NumberSetting) (words : List Bytes) : ∃ asked,
    k.flag.valueAfter (Options.executed words) = .one (.int asked) ∧
      ∀ l : Loader L, k.value l (Options.parse words).1.settings = number l k.path asked k.fallback := by
  have hslot : k.slot ≠ 0 := by cases k <;> exact nofun
  obtain ⟨bits, hkind⟩ : ∃ bits, k.flag.kind = .single (.int bits) := by cases k <;> exact ⟨64, rfl⟩
  obtain ⟨asked, hasked, hstore⟩ := Options.exists_int_of_parse k.getElem?_all hslot hkind words
  refine ⟨asked, hasked, fun l => ?_⟩
  subst hstore
  cases k <;> rfl

end NumberSetting

/-- A positive number makes a machine, and is no limit that a server replaces. -/
theorem usable_of_one_le {n : Int} (h : 1 ≤ n) :
    (∀ program input, (Machine.new? program n input).isSome) ∧
      ∀ o : Web.Options, (o.tapeLength = n → (o.limits.tapeLength : Int) = n) ∧
        (o.maxSteps = n → (o.limits.maxSteps : Int) = n) := by
  refine ⟨fun program input => ?_, fun o => ⟨fun ho => ?_, fun ho => ?_⟩⟩
  · rw [Machine.new?_of_pos h]
    rfl
  · rw [Web.Options.limits, Web.natCast_positiveOr (by decide), ho, if_neg (not_le.mpr h)]
  · rw [Web.Options.limits, Web.natCast_positiveOr (by decide), ho, if_neg (not_le.mpr h)]

/-- **Which numbers are in effect.** Of every command line and all settings files that are allowed and have a
whole number where they have a value: what the last word of the flag asks for since it was reset is in effect if
it is positive, else the number of the first file that has one, if it is not zero, else the default. It is
positive, so that it makes a machine and is no limit that a server replaces, unless the command line does not
decide and the file's number is negative. Where the file's number is the one that was tested it is positive. -/
theorem number_setting_precedence (k : NumberSetting) (words : List Bytes)
    (hschema : Compiles schema (some s)) (henforces : L.Enforces s k.path (0 < ·))
    (hloads : Loads (some s) files paths) (hfirst : FirstInt s files paths k.path first) :
    ∃ asked n, k.flag.valueAfter (Options.executed words) = .one (.int asked) ∧
      k.value (loadWith schema files paths L) (Options.parse words).1.settings = .ok n ∧
      n = effective asked k.fallback first ∧
      (1 ≤ n ↔ 0 < asked ∨ ∀ m ∈ first, 0 ≤ m) ∧
      (1 ≤ n → (∀ program input, (Machine.new? program n input).isSome) ∧
        ∀ o : Web.Options, (o.tapeLength = n → (o.limits.tapeLength : Int) = n) ∧
          (o.maxSteps = n → (o.limits.maxSteps : Int) = n)) ∧
      (AsTested s files paths k.path →
        n = (if 0 < asked then asked else first.getD k.fallback) ∧ 1 ≤ n) ∧
      ((Options.parse words).2 = none → words = (Options.executed words).flatMap Segment.words) := by
  obtain ⟨asked, hasked, hvalue⟩ := k.exists_asked words
  refine ⟨asked, _, hasked, ?_, rfl, one_le_effective_iff k.one_le_fallback, usable_of_one_le,
    fun htested => ?_, Options.words_of_parse⟩
  · rw [hvalue, loadWith_of_compiles hschema, number_of_firstInt hloads hfirst]
  · have hpos : ∀ m ∈ first, 0 < m := bound_of_asTested henforces htested hfirst
    exact ⟨effective_of_pos hpos, (one_le_effective_iff k.one_le_fallback).mpr (.inr fun m hm => (hpos m hm).le)⟩

/-! ### Single files -/

/-- What there is to a settings file, in the language that is spoken here: the number at a name, if there is
something, and the number that was tested. There is nothing to one that is bad. -/
def said? (s : Value) (path content : Bytes) (name : String) : Option (Option (Option Int) × Option Int) :=
  (language.compileBytes path content).toOption.bind fun whole =>
    (language.validate (s.unify whole)).toOption.map fun _ =>
      ((whole.get? name).map Value.int?, ((s.unify whole).get? name).bind Value.int?)

theorem exists_usable_of_said? {s : Value} {path content : Bytes} {found : Option (Option Int)}
    {tested : Option Int} (h : said? s path content name = some (found, tested))
    (hread : files.read path = .ok content) :
    ∃ whole, Usable (L := language) (some s) files path whole ∧ (whole.get? name).map Value.int? = found ∧
      ∀ n ∈ tested, language.HasInt (s.unify whole) name n := by
  obtain ⟨whole, hwhole, h⟩ := Option.bind_eq_some_iff.mp h
  obtain ⟨_, hallowed, hsaid⟩ := Option.map_eq_some_iff.mp h
  rw [Prod.mk.injEq] at hsaid
  obtain ⟨hfound, htested⟩ := hsaid
  refine ⟨whole, ⟨content, hread, Loader.eq_ok_of_toOption hwhole, fun s' hs' => ?_⟩, hfound, fun n hn => ?_⟩
  · cases hs'
    exact Loader.eq_ok_of_toOption hallowed
  · obtain ⟨value, hvalue, hint⟩ := Option.bind_eq_some_iff.mp (htested.trans hn)
    exact ⟨value, lookupPath_language_eq_iff.mpr hvalue, hint⟩

/-- The schema can be read, and what is checked of it holds. -/
theorem exists_schema (check : Value → Bool)
    (h : (language.compileString ("close(\x7b" ++ schema ++ "\x7d)")).toOption.any check = true) :
    ∃ s, Compiles (L := language) schema (some s) ∧ check s = true := by
  obtain ⟨s, hs, hcheck⟩ := (Option.any_eq_true _ _).mp h
  exact ⟨s, .text (by decide) (Loader.eq_ok_of_toOption hs), hcheck⟩

/-- Three places for settings files, of which two have one. -/
def twoFiles : FileTree where
  entries := [([utf8 "a"], .file (utf8 "max_steps: 7")), ([utf8 "b"], .file (utf8 "tape_length: 5"))]

/-- A negative number that is asked for, a file that says nothing of it, and one that decides. -/
theorem number_setting_precedence_of_second_file :
    tapeLength (loadWith schema twoFiles [utf8 "/a", utf8 "/b", utf8 "/c"])
      (Options.parse [utf8 "-tape-length", utf8 "-3"]).1.settings = .ok 5 := by
  obtain ⟨s, hschema, hsaid⟩ := exists_schema (fun s =>
    said? s (utf8 "/a") (utf8 "max_steps: 7") "tape_length" = some (none, none) &&
    said? s (utf8 "/b") (utf8 "tape_length: 5") "tape_length" = some (some (some 5), some 5))
    (by decide +kernel)
  rw [Bool.and_eq_true, decide_eq_true_eq, decide_eq_true_eq] at hsaid
  obtain ⟨hother, hdecides⟩ := hsaid
  obtain ⟨a, ha, hnone, -⟩ := exists_usable_of_said? hother (show twoFiles.read (utf8 "/a") = .ok _ from rfl)
  obtain ⟨b, hb, hfound, htested⟩ :=
    exists_usable_of_said? hdecides (show twoFiles.read (utf8 "/b") = .ok _ from rfl)
  obtain ⟨value, hget, hint⟩ := Option.map_eq_some_iff.mp hfound
  have hmissing : Loader.missing twoFiles (utf8 "/c") = true := by decide
  have hloads : Loads (L := language) (some s) twoFiles [utf8 "/a", utf8 "/b", utf8 "/c"] :=
    List.forall_mem_cons.mpr ⟨.inr ⟨a, ha⟩, List.forall_mem_cons.mpr ⟨.inr ⟨b, hb⟩,
      List.forall_mem_singleton.mpr (.inl hmissing)⟩⟩
  have hfirst : FirstDefines (L := language) (some s) twoFiles [utf8 "/a", utf8 "/b", utf8 "/c"] "tape_length"
      b value := by
    refine ⟨[utf8 "/a"], utf8 "/b", [utf8 "/c"], rfl, ?_, hb, lookupPath_language_eq_iff.mpr hget⟩
    refine List.forall_mem_singleton.mpr fun other hother found hfound => ?_
    rw [hother.unique ha, lookupPath_language_eq_iff, Option.map_eq_none_iff.mp hnone] at hfound
    cases hfound
  obtain ⟨asked, n, hasked, hvalue, -, -, -, hn, -⟩ :=
    number_setting_precedence .tapeLength [utf8 "-tape-length", utf8 "-3"] hschema
      (NumberSetting.tapeLength.enforces hschema) hloads (.some hfirst hint)
  have hnegative : NumberSetting.tapeLength.flag.valueAfter
      (Options.executed [utf8 "-tape-length", utf8 "-3"]) = .one (.int (-3)) := by decide +kernel
  rw [hnegative] at hasked
  cases hasked
  obtain ⟨rfl, -⟩ := hn (asTested_of_firstDefines hfirst hint (htested 5 rfl))
  exact hvalue

/-- The schema allows a choice for one of its values, and another one is read. -/
example : (tapeLength (loadWith schema { entries := [([utf8 "a"], .file (utf8 "tape_length: *-1 | 5"))] }
    [utf8 "/a"]) {}).toOption = some (-1) := by
  decide +kernel

/-! ### The delay -/

/-- The flag for the delay. -/
def delayFlag : Flag :=
  ⟨.single (.optional (.int 64)), utf8 "-delay", utf8 "milliseconds between animated steps"⟩

theorem getElem?_all_delayFlag : Options.all[13]? = some delayFlag :=
  rfl

/-- The longest delay that fits a word, in milliseconds. -/
def longestDelay : Int := 9223372036854

/-- **Milliseconds in a word** wrap around. -/
theorem toInt_milliseconds (ms : Int) : (milliseconds ms).toInt = (ms * 1000000).bmod (2 ^ 64) := by
  have hmillion : (1000000 : Int64).toInt = 1000000 := by decide
  rw [milliseconds, Int64.toInt_mul, Int64.toInt_ofInt, hmillion]
  exact Int.bmod_mul_bmod

/-- Up to the longest delay they do not, and behind it they do. -/
theorem toInt_milliseconds_eq_iff {ms : Int} (h : 0 ≤ ms) :
    (milliseconds ms).toInt = ms * 1000000 ↔ ms ≤ longestDelay := by
  have hlt := (milliseconds ms).toInt_lt
  unfold longestDelay
  constructor
  · -- the product is no more than the last number in a word
    intro heq
    omega
  · intro hle
    rw [toInt_milliseconds]
    exact Int.bmod_eq_of_le (by omega) (by omega)

example : milliseconds (longestDelay + 1) < 0 := by decide

/-- The schema keeps the delay from being negative, in the language that is spoken here. -/
theorem enforces_step_delay {s : Value} (hschema : Compiles (L := language) schema (some s)) :
    language.Enforces s "step_delay_ms" (0 ≤ ·) := by
  have hfield : ("step_delay_ms", Comparison.atLeast) ∈ comparisons := by decide
  intro value hallowed n hn
  exact Comparison.admits_atLeast_iff.mp (enforces_of_mem_comparisons hschema hfield value hallowed n hn)

/-- The delay that a command line and files ask for, in milliseconds: a negative number on the command line
counts as 0, and the number of a file is the one that was tested. -/
inductive Requested (s : L.Value) (words : List Bytes) (files : FileTree) (paths : List Bytes) : Int → Prop
  | flag {asked : Int} (h : delayFlag.valueAfter (Options.executed words) = .one (.reference (.int asked))) :
      Requested s words files paths (max asked 0)
  | file {n : Int} (hflag : delayFlag.valueAfter (Options.executed words) = .one .absent)
      (h : FirstInt s files paths "step_delay_ms" (some n)) (tested : AsTested s files paths "step_delay_ms") :
      Requested s words files paths n

variable {words : List Bytes} {ms : Int}

theorem Requested.nonneg (henforces : L.Enforces s "step_delay_ms" (0 ≤ ·))
    (h : Requested s words files paths ms) : 0 ≤ ms := by
  cases h with
  | flag => exact le_max_right _ _
  | file hflag hfirst htested => exact bound_of_asTested henforces htested hfirst ms rfl

/-- A flag that was given decides, whatever the files are. -/
theorem stepDelay_of_flag {asked : Int}
    (h : delayFlag.valueAfter (Options.executed words) = .one (.reference (.int asked))) (l : Loader L) :
    stepDelay l (Options.parse words).1.settings = .ok (milliseconds (max asked 0)) := by
  have hdelay : (Options.parse words).1.settings.delay = some asked := by
    rcases Options.int?_of_parse getElem?_all_delayFlag nofun rfl words with ⟨habsent, -⟩ | ⟨n, hn, hstore⟩
    · rw [habsent] at h
      cases h
    · rw [hn] at h
      cases h
      exact hstore
  rw [stepDelay, hdelay]

/-- A flag that was not given leaves it to the files. -/
theorem stepDelay_of_absent (h : delayFlag.valueAfter (Options.executed words) = .one .absent)
    (hloads : Loads (some s) files paths) (hfirst : FirstInt s files paths "step_delay_ms" first) :
    stepDelay (.load (some s) files paths) (Options.parse words).1.settings
      = .ok (first.elim defaultStepDelay milliseconds) := by
  have hdelay : (Options.parse words).1.settings.delay = none := by
    rcases Options.int?_of_parse getElem?_all_delayFlag nofun rfl words with ⟨-, hstore⟩ | ⟨n, hn, -⟩
    · exact hstore
    · rw [hn] at h
      cases h
  rw [stepDelay, hdelay]
  dsimp only
  rw [fromFiles_of_firstInt hloads hfirst]
  cases first <;> rfl

theorem Requested.stepDelay_eq (h : Requested s words files paths ms) (hloads : Loads (some s) files paths) :
    stepDelay (.load (some s) files paths) (Options.parse words).1.settings = .ok (milliseconds ms) := by
  cases h with
  | flag hflag => exact stepDelay_of_flag hflag _
  | file hflag hfirst => exact stepDelay_of_absent hflag hloads hfirst

theorem milliseconds_le_iff {ms ms' : Int} (h : 0 ≤ ms) (hms : ms ≤ longestDelay) (h' : 0 ≤ ms')
    (hms' : ms' ≤ longestDelay) : milliseconds ms ≤ milliseconds ms' ↔ ms ≤ ms' := by
  rw [Int64.le_iff_toInt_le, (toInt_milliseconds_eq_iff h).mpr hms, (toInt_milliseconds_eq_iff h').mpr hms']
  omega

/-- **The delay means what was asked for**, up to the longest one. A flag that was given decides, 0 included, and
whatever the files are; else the first file with a value does. The delay is the milliseconds that were asked
for exactly iff they are no more than the longest delay. Up to there it is never negative, and longer for more;
behind it the nanoseconds wrap around. -/
theorem step_delay_means_what_was_asked (hschema : Compiles schema (some s))
    (henforces : L.Enforces s "step_delay_ms" (0 ≤ ·)) (hloads : Loads (some s) files paths)
    (h : Requested s words files paths ms) :
    ∃ d, stepDelay (loadWith schema files paths L) (Options.parse words).1.settings = .ok d ∧
      0 ≤ ms ∧ d.toInt = (ms * 1000000).bmod (2 ^ 64) ∧
      (d.toInt = ms * 1000000 ↔ ms ≤ longestDelay) ∧
      (ms ≤ longestDelay → 0 ≤ d) ∧
      (∀ words' files' paths' ms', Loads (some s) files' paths' → Requested s words' files' paths' ms' →
        ms ≤ ms' → ms' ≤ longestDelay →
        ∃ d', stepDelay (loadWith schema files' paths' L) (Options.parse words').1.settings = .ok d' ∧
          d ≤ d') ∧
      ∀ asked, delayFlag.valueAfter (Options.executed words) = .one (.reference (.int asked)) →
        ms = max asked 0 ∧ ∀ l : Loader L, stepDelay l (Options.parse words).1.settings = .ok d := by
  have hnonneg := h.nonneg henforces
  simp only [loadWith_of_compiles hschema]
  refine ⟨milliseconds ms, h.stepDelay_eq hloads, hnonneg, toInt_milliseconds ms,
    toInt_milliseconds_eq_iff hnonneg, fun hms => ?_, ?_, ?_⟩
  · rw [Int64.le_iff_toInt_le, (toInt_milliseconds_eq_iff hnonneg).mpr hms]
    have hzero : (0 : Int64).toInt = 0 := by decide
    omega
  · intro words' files' paths' ms' hloads' h' hle hms'
    exact ⟨_, h'.stepDelay_eq hloads',
      (milliseconds_le_iff hnonneg (hle.trans hms') (h'.nonneg henforces) hms').mpr hle⟩
  · intro asked hasked
    have hms : ms = max asked 0 := by
      cases h with
      | flag hflag =>
        rw [hflag] at hasked
        cases hasked
        rfl
      | file hflag =>
        rw [hflag] at hasked
        cases hasked
    exact ⟨hms, fun l => by rw [hms]; exact stepDelay_of_flag hasked l⟩

/-- A settings file, and no other one. -/
def soleFile (content : Bytes) : FileTree where
  entries := [([utf8 "a"], .file content)]

theorem of_soleFile {s : Value} {content : Bytes} {n : Int}
    (h : said? s (utf8 "/a") content name = some (some (some n), some n)) :
    Loads (L := language) (some s) (soleFile content) [utf8 "/a"] ∧
      FirstInt (L := language) s (soleFile content) [utf8 "/a"] name (some n) ∧
      AsTested (L := language) s (soleFile content) [utf8 "/a"] name := by
  obtain ⟨whole, husable, hfound, htested⟩ :=
    exists_usable_of_said? h (show (soleFile content).read (utf8 "/a") = .ok content from rfl)
  obtain ⟨value, hget, hint⟩ := Option.map_eq_some_iff.mp hfound
  have hfirst : FirstDefines (L := language) (some s) (soleFile content) [utf8 "/a"] name whole value :=
    ⟨[], utf8 "/a", [], rfl, Loader.noneDefines_nil _ _ _, husable, lookupPath_language_eq_iff.mpr hget⟩
  exact ⟨List.forall_mem_singleton.mpr (.inr ⟨whole, husable⟩), .some hfirst hint,
    asTested_of_firstDefines hfirst hint (htested n rfl)⟩

/-- A delay in a file that a word holds, one that wraps around, and no delay, which is asked for and wins over
the file. -/
theorem step_delay_means_what_was_asked_of_file :
    stepDelay (loadWith schema (soleFile (utf8 "step_delay_ms: 250")) [utf8 "/a"])
      (Options.parse []).1.settings = .ok 250000000 ∧
    stepDelay (loadWith schema (soleFile (utf8 "step_delay_ms: 9300000000000")) [utf8 "/a"])
      (Options.parse []).1.settings = .ok (-9146744073709551616) ∧
    stepDelay (loadWith schema (soleFile (utf8 "step_delay_ms: 250")) [utf8 "/a"])
      (Options.parse [utf8 "-delay", utf8 "0"]).1.settings = .ok 0 := by
  obtain ⟨s, hschema, hsaid⟩ := exists_schema (fun s =>
    said? s (utf8 "/a") (utf8 "step_delay_ms: 250") "step_delay_ms" = some (some (some 250), some 250) &&
    said? s (utf8 "/a") (utf8 "step_delay_ms: 9300000000000") "step_delay_ms"
      = some (some (some 9300000000000), some 9300000000000))
    (by decide +kernel)
  rw [Bool.and_eq_true, decide_eq_true_eq, decide_eq_true_eq] at hsaid
  obtain ⟨hloads, hfirst, htested⟩ := of_soleFile hsaid.1
  obtain ⟨hloads', hfirst', htested'⟩ := of_soleFile hsaid.2
  have henforces := enforces_step_delay hschema
  have habsent : delayFlag.valueAfter (Options.executed []) = .one .absent := by decide +kernel
  have hzero : delayFlag.valueAfter (Options.executed [utf8 "-delay", utf8 "0"])
      = .one (.reference (.int 0)) := by decide +kernel
  refine ⟨?_, ?_, ?_⟩
  · obtain ⟨d, hd, -, hint, -⟩ :=
      step_delay_means_what_was_asked hschema henforces hloads (.file habsent hfirst htested)
    obtain rfl : d = 250000000 := Int64.toInt_inj.mp (hint.trans (by decide))
    exact hd
  · obtain ⟨d, hd, -, hint, -⟩ :=
      step_delay_means_what_was_asked hschema henforces hloads' (.file habsent hfirst' htested')
    obtain rfl : d = -9146744073709551616 := Int64.toInt_inj.mp (hint.trans (by decide))
    exact hd
  · obtain ⟨d, hd, -, hint, -⟩ := step_delay_means_what_was_asked hschema henforces hloads (.flag hzero)
    obtain rfl : d = 0 := Int64.toInt_inj.mp (hint.trans (by decide))
    exact hd

end Settings

end TapeMachine
