/-
The program file of the tool.

A bare word and the flag for the program file both name one, and they are not treated alike. A bare word is
refused where a file is named already; the flag takes the place of the file that was named before it. So it
depends on the order whether a second file is refused.

* `file?`, `fileAfter`: what segments leave as the program file; `namedFiles`: the files that they name;
* `Named`: what is known of the program file at any point of a command line;
* `Named.executed`, `Named.failed`: one turn; `named_stop`, `store_execute`: a command line;
* `moreFiles_iff`: which command lines are refused because of a second file;
* `namedFiles_eq`: at most one file is named if the flag comes where none is;
* `parse_append_flag`, `parse_append_bare`: a further file behind a command line;
* `second_program_file_is_refused_as_bare_word`: all of this.
-/
import TapeMachine.Proofs.CommandLine.Join
import TapeMachine.Proofs.Tool.Options

namespace TapeMachine.Tool.Options

open CommandLine

/-- The flag for the program file. -/
def fileFlag : Flag :=
  textFlag "-file" "program file, a bare path also works"

/-- The word that resets the program file. -/
def fileReset : Bytes :=
  utf8 "-file."

/-- A name that is no directive, and does not look like one. -/
def IsBare (name : Bytes) : Prop :=
  flags.executor.table.lookup name = none ∧ name.head? ≠ some 45

/-- What a segment leaves as the program file, if it writes it: a bare word, or the word behind the flag. -/
def file? (seg : Segment State Refusal) : Option Bytes :=
  if seg.directive.isNone then some seg.name
  else if seg.name = fileFlag.name then some (seg.taken.headD [])
  else if seg.name = fileReset then some []
  else none

/-- The program file behind segments. -/
def fileAfter (segs : List (Segment State Refusal)) : Bytes :=
  ((segs.filterMap file?).getLast?).getD []

/-- The program files that segments name, in their order. -/
def namedFiles (segs : List (Segment State Refusal)) : List Bytes :=
  (segs.filterMap file?).filter (· ≠ [])

variable {seg : Segment State Refusal} {segs : List (Segment State Refusal)} {p q : Position State Refusal}
variable {words : List Bytes}

theorem fileAfter_snoc (segs : List (Segment State Refusal)) (seg : Segment State Refusal) :
    fileAfter (segs ++ [seg]) = (file? seg).getD (fileAfter segs) := by
  rw [fileAfter, fileAfter, List.filterMap_append]
  rcases hfile : file? seg with _ | path <;> simp [hfile]

theorem namedFiles_snoc (segs : List (Segment State Refusal)) (seg : Segment State Refusal) :
    namedFiles (segs ++ [seg]) = namedFiles segs ++ (file? seg).toList.filter (· ≠ []) := by
  rw [namedFiles, namedFiles, List.filterMap_append, List.filter_append]
  rcases hfile : file? seg with _ | path <;> simp [hfile]

theorem file?_of_flag (hdirective : seg.directive ≠ none) (hname : seg.name = fileFlag.name) :
    file? seg = some (seg.taken.headD []) := by
  rw [file?, if_neg (by rwa [Option.isNone_iff_eq_none]), if_pos hname]

/-! ### Turns -/

theorem getElem?_all_fileFlag : all[0]? = some fileFlag :=
  rfl

theorem names_fileFlag : fileFlag.names = [fileFlag.name, fileReset] := by
  decide

theorem params_fileFlag : fileFlag.params fileFlag.name = [.text] := by
  decide

/-- No directive of the tool has sub directives. -/
theorem subs_of_lookup {name : Bytes} {d : Directive State Refusal}
    (h : flags.executor.table.lookup name = some (some d)) : d.subs = [] := by
  have hall : flags.executor.table.all fun entry => entry.2.all (·.subs.isEmpty) := by decide +kernel
  have hentry := List.all_eq_true.mp hall _ (Table.mem_of_lookup h)
  exact List.isEmpty_iff.mp hentry

/-- A text argument is one word. -/
theorem of_takeArguments_text {taken rest : List Bytes} {values : List ArgValue}
    (h : takeArguments [.text] (taken ++ rest) = .ok (values, rest)) :
    ∃ path, taken = [path] ∧ values = [.text path] := by
  have htaken := taken_of_takeArguments h
  rcases taken with _ | ⟨path, taken⟩
  · cases htaken
  · have hread : takeArguments [.text] (path :: taken) = .ok ([.text path], taken) := rfl
    rw [hread] at htaken
    cases htaken
    exact ⟨path, rfl, rfl⟩

theorem text_eq {store : FlagStore} {slot : Nat} {path : Bytes} (h : store[slot]? = some (.one (.text path))) :
    text store slot = path := by
  rw [text, h]

/-- A bare word is the program file, if there is none. -/
theorem takeFile_eq (name : Bytes) {s : State} {path : Bytes} (h : s.store[0]? = some (.one (.text path))) :
    takeFile name s = if path = [] then ({ s with store := s.store.put 0 (.one (.text name)) }, none)
      else (s, some (.moreFiles path name)) := by
  rw [takeFile, text_eq h]
  exact if_congr List.isEmpty_iff rfl rfl

theorem getElem?_put {store : FlagStore} {slot : Nat} {old : FlagValue} (h : store[slot]? = some old)
    (value : FlagValue) : (store.put slot value)[slot]? = some value := by
  obtain ⟨hlt, -⟩ := List.getElem?_eq_some_iff.mp h
  rw [FlagStore.put, List.getElem?_set_self hlt]

/-- What is known of the program file at a point of a command line: the segments tell it, and bare words
come only where there is none. The directives are the same all the time. -/
structure Named (segs : List (Segment State Refusal)) (p : Position State Refusal) : Prop where
  table : p.table = flags.executor.table
  subs : ∀ seg ∈ segs, seg.subs = []
  file : p.state.store[0]? = some (.one (.text (fileAfter segs)))
  bare : ∀ before seg after, segs = before ++ seg :: after → seg.directive = none → fileAfter before = []

theorem Named.snoc (h : Named segs p) (htable : q.table = flags.executor.table) (hsubs : seg.subs = [])
    (hfile : q.state.store[0]? = some (.one (.text ((file? seg).getD (fileAfter segs)))))
    (hbare : seg.directive = none → fileAfter segs = []) : Named (segs ++ [seg]) q := by
  refine ⟨htable, List.forall_mem_append.mpr ⟨h.subs, List.forall_mem_singleton.mpr hsubs⟩,
    by rw [fileAfter_snoc]; exact hfile, fun before seg' after heq => ?_⟩
  rcases List.eq_nil_or_concat after with rfl | ⟨after, last, rfl⟩
  · obtain ⟨rfl, hlast⟩ := List.append_inj' heq rfl
    cases hlast
    exact hbare
  · rw [List.concat_eq_append, ← List.cons_append, ← List.append_assoc] at heq
    obtain ⟨hsegs, -⟩ := List.append_inj' heq rfl
    exact h.bare before seg' after hsegs

/-- **The words of the flag write the program file.** -/
theorem file_of_wordOf (seg : Segment State Refusal) {d : Directive State Refusal} {rest : List Bytes}
    {s s' : State} {old : FlagValue} (hd : seg.directive = some d) (hword : d.WordOf 0 fileFlag seg.name)
    (htake : takeArguments d.params (seg.taken ++ rest) = .ok (seg.values, rest))
    (hrun : d.run seg.values s = (s', none)) (hslot : s.store[0]? = some old) :
    ∃ path, file? seg = some path ∧ s'.store[0]? = some (.one (.text path)) := by
  have hparams := hword.params_eq
  obtain ⟨w, hw, hname, hhandler, -⟩ := hword
  rw [Directive.run, hhandler] at hrun
  dsimp only at hrun
  have hsome : seg.directive ≠ none := Option.ne_none_iff_exists'.mpr ⟨d, hd⟩
  -- the flag is no switch and takes one file, so it is assigned or reset
  cases Flags.writes_of_mem hw with
  | assign hkind hflag hhandler =>
    cases hkind
    have hread : fileFlag.params seg.name = [.text] := if_pos (hname.symm.trans hflag)
    rw [hparams, hread] at htake
    obtain ⟨path, htaken, hvalues⟩ := of_takeArguments_text htake
    rw [hhandler, hvalues] at hrun
    cases hrun
    refine ⟨path, ?_, getElem?_put hslot _⟩
    rw [file?_of_flag hsome (hname.symm.trans hflag), htaken, List.headD_cons]
  | reset hkind hreset hhandler =>
    cases hkind
    rw [hhandler] at hrun
    cases hrun
    have hdot : seg.name = fileReset := hname.symm.trans hreset
    refine ⟨[], ?_, getElem?_put hslot _⟩
    rw [file?, if_neg (by rwa [Option.isNone_iff_eq_none]), if_neg (by rw [hdot]; decide), if_pos hdot]
  | switchOn hkind | switchOff hkind | append hkind => cases hkind

/-- **An executed turn leaves the program file that the segments tell.** -/
theorem Named.executed (h : Named segs p) (hexecuted : Executed (some takeFile) p seg q) :
    Named (segs ++ [seg]) q := by
  cases hexecuted with
  | @unknown word rest handle s hwords hname hunknown hhandle =>
    -- a word that is no command names the program file, if there is none yet
    cases hunknown
    rw [takeFile_eq _ h.file] at hhandle
    split at hhandle
    · next hnone =>
      cases hhandle
      exact h.snoc h.table rfl (getElem?_put h.file _) fun _ => hnone
    · cases hhandle
  | @directive word taken rest d values s table hwords hname htake hrun hsubs =>
    rw [h.table] at hname
    -- no command of this table opens another table, so the table stays
    have hnosubs := subs_of_lookup hname
    rw [hnosubs] at hsubs
    cases hsubs
    refine h.snoc h.table hnosubs ?_ nofun
    rcases (governs getElem?_all_fileFlag).of_lookup hname with hword | ⟨hother, hspares⟩
    · -- the command is one of the flag, or it leaves the flag alone
      obtain ⟨path, hfile, hslot⟩ :=
        file_of_wordOf ⟨word, some d, taken, values⟩ rfl hword htake hrun h.file
      rw [hfile]
      exact hslot
    · rw [names_fileFlag, List.mem_cons, List.mem_singleton, not_or] at hother
      have hnone : file? ⟨word, some d, taken, values⟩ = none :=
        (if_neg Bool.false_ne_true).trans ((if_neg hother.1).trans (if_neg hother.2))
      rw [hnone]
      exact (hspares.of_run hrun).trans h.file

/-- A failed turn leaves the program file as it is. -/
theorem Named.failed {s : State} {error : ExecuteError Refusal} (h : Named segs p)
    (hfailed : Failed (some takeFile) p s error) : s.store[0]? = p.state.store[0]? := by
  cases hfailed with
  | unknown | unbound | argument => rfl
  | @rejected word rest handle s error hwords hname hunknown hhandle =>
    cases hunknown
    rw [takeFile_eq _ h.file] at hhandle
    split at hhandle <;> cases hhandle
    rfl
  | @handler word words rest d values s error hwords hname htake hrun =>
    rw [h.table] at hname
    rcases (governs getElem?_all_fileFlag).of_lookup hname with ⟨w, hw, -, hhandler, -⟩ | ⟨-, hspares⟩
    · -- no word of the flag fails
      rw [Directive.run, hhandler] at hrun
      dsimp only at hrun
      cases Flags.writes_of_mem hw <;> simp_all [Flags.writer]
    · exact hspares.of_run hrun
  | @duplicatedSub word words rest d values s sub hwords hname htake hrun hsubs =>
    rw [h.table] at hname
    rw [subs_of_lookup hname] at hsubs
    cases hsubs

/-- **A bare word is the program file, or refused if there is one.** -/
theorem Named.turn_eq {word : Bytes} {rest : List Bytes} (h : Named segs p) (hwords : p.words = word :: rest)
    (hbare : IsBare (Utf8.trim word)) : p.turn (some takeFile) =
      if fileAfter segs = [] then
        .executed { word } ⟨p.table, rest,
          { p.state with store := p.state.store.put 0 (.one (.text (Utf8.trim word))) }⟩
      else .failed p.state (.rejected (.moreFiles (fileAfter segs) (Utf8.trim word))) := by
  rw [Position.turn, hwords, h.table]
  dsimp only
  rw [hbare.1]
  dsimp only
  rw [if_neg hbare.2, takeFile_eq _ h.file]
  split_ifs <;> rfl

/-! ### Command lines -/

theorem named_nil (words : List Bytes) : Named [] ⟨flags.executor.table, words, initial⟩ where
  table := by dsimp only
  subs _ hseg := absurd hseg List.not_mem_nil
  file := by
    rw [initial, initial_flags getElem?_all_fileFlag]
    rfl
  bare before seg after h := by simp at h

/-- Where a command line has come after all turns that are executed. -/
def stop (words : List Bytes) : Position State Refusal :=
  (flags.executor.after words initial words.length).2

theorem named_stop (words : List Bytes) : Named (executed words) (stop words) := by
  refine turns_induction (P := Named) (named_nil words) (fun h hexecuted => ?_) words.length
  rw [unknown_flags] at hexecuted
  exact h.executed hexecuted

theorem result_stop (words : List Bytes) : ((stop words).turn (some takeFile)).result? (stop words).state
    = some (flags.executor.execute words initial) := by
  have hresult := execute_eq flags.executor words initial
  rw [unknown_flags] at hresult
  exact hresult

theorem parse_snd (words : List Bytes) : (parse words).2 = (flags.executor.execute words initial).2 :=
  rfl

/-- A command line fails with the turn that it stops at. -/
theorem parse_eq_error_iff {error : ExecuteError Refusal} :
    (parse words).2 = some error ↔ ∃ s, (stop words).turn (some takeFile) = .failed s error := by
  have hresult := result_stop words
  rw [parse_snd]
  cases hturn : (stop words).turn (some takeFile) with
  | finished | failed =>
    rw [hturn, Turn.result?, Option.some_inj] at hresult
    rw [← hresult]
    simp
  | executed =>
    rw [hturn] at hresult
    cases hresult

/-- **The program file is told by the segments**, whether the command line succeeds or not. -/
theorem store_execute (words : List Bytes) :
    (flags.executor.execute words initial).1.store[0]? = some (.one (.text (fileAfter (executed words)))) := by
  have hstop := named_stop words
  have hresult := result_stop words
  cases hturn : (stop words).turn (some takeFile) with
  | finished =>
    rw [hturn, Turn.result?, Option.some_inj] at hresult
    rw [← hresult]
    exact hstop.file
  | failed s error =>
    rw [hturn, Turn.result?, Option.some_inj] at hresult
    rw [← hresult]
    exact (hstop.failed (turn_failed hturn)).trans hstop.file
  | executed =>
    rw [hturn] at hresult
    cases hresult

theorem named_behind (words more : List Bytes) : Named (executed words)
    ⟨flags.executor.table, more, (flags.executor.execute words initial).1⟩ where
  table := by dsimp only
  subs := (named_stop words).subs
  file := store_execute words
  bare := (named_stop words).bare

theorem file_parse (words : List Bytes) : (parse words).1.file = fileAfter (executed words) :=
  text_eq (store_execute words)

/-- Only a bare word is refused because of what it names. -/
theorem isBare_of_rejected {s : State} {refusal : Refusal} (htable : p.table = flags.executor.table)
    (h : p.turn (some takeFile) = .failed s (.rejected refusal)) :
    ∃ word rest, p.words = word :: rest ∧ IsBare (Utf8.trim word) := by
  rw [Position.turn] at h
  split at h
  · cases h
  next word rest hwords =>
  dsimp only at h
  split at h
  · next hname =>
    split at h
    · cases h
    · next hdash => exact ⟨word, rest, hwords, htable ▸ hname, hdash⟩
  · cases h
  · split at h
    · cases h
    · split at h
      · cases h
      · split at h <;> cases h

/-- **Which command lines are refused because of a second program file**: those that go on with a bare word
behind a segment that names one. -/
theorem moreFiles_iff {first second : Bytes} :
    (parse words).2 = some (.rejected (.moreFiles first second)) ↔
      first ≠ [] ∧ first = fileAfter (executed words) ∧ IsBare second ∧ ∃ word rest,
        words = (executed words).flatMap Segment.words ++ word :: rest ∧ Utf8.trim word = second := by
  have hstop := named_stop words
  have hwords : words = (executed words).flatMap Segment.words ++ (stop words).words :=
    words_after flags.executor words initial words.length
  rw [parse_eq_error_iff]
  constructor
  · rintro ⟨s, hturn⟩
    obtain ⟨word, rest, hleft, hbare⟩ := isBare_of_rejected hstop.table hturn
    rw [hstop.turn_eq hleft hbare] at hturn
    split at hturn
    · cases hturn
    · next hfile =>
      cases hturn
      exact ⟨hfile, rfl, hbare, word, rest, hleft ▸ hwords, rfl⟩
  · rintro ⟨hne, rfl, hbare, word, rest, hsplit, rfl⟩
    have hleft : (stop words).words = word :: rest := List.append_cancel_left (hwords.symm.trans hsplit)
    exact ⟨_, by rw [hstop.turn_eq hleft hbare, if_neg hne]⟩

/-- **At most one program file is named**, if the flag, too, comes only where there is none. -/
theorem namedFiles_eq (segs : List (Segment State Refusal))
    (hreset : ∀ seg ∈ segs, seg.name ≠ fileReset)
    (hfirst : ∀ before seg after, segs = before ++ seg :: after →
      seg.directive = none ∨ seg.name = fileFlag.name → fileAfter before = []) :
    namedFiles segs = [fileAfter segs].filter (· ≠ []) := by
  induction segs using List.reverseRecOn with
  | nil => rfl
  | append_singleton segs seg ih =>
    have hrest := ih (fun seg hseg => hreset seg (List.mem_append_left _ hseg))
      fun before seg' after heq => hfirst before seg' (after ++ [seg]) (by rw [heq]; simp)
    rw [namedFiles_snoc, fileAfter_snoc, hrest]
    rcases hfile : file? seg with _ | path
    · simp
    · -- a segment that writes the program file comes where there is none
      have hnone : fileAfter segs = [] := by
        refine hfirst segs seg [] rfl ?_
        have hdot := hreset seg (List.mem_append_right _ (List.mem_singleton.mpr rfl))
        rw [file?, if_neg hdot] at hfile
        split at hfile
        · next hbare => exact .inl (Option.isNone_iff_eq_none.mp hbare)
        · split at hfile
          · next hflag => exact .inr hflag
          · cases hfile
      rw [hnone]
      rfl

/-! ### A further program file -/

theorem executeWith_of_failed {unknown : Fallback State Refusal} {s : State} {error : ExecuteError Refusal}
    (h : p.turn unknown = .failed s error) :
    Executor.executeWith unknown p.table p.words p.state = (s, some error) :=
  executeWith_of_result (by rw [h]; rfl)

/-- The flag takes any word and makes it the program file. -/
theorem exists_fileDirective : ∃ d : Directive State Refusal,
    flags.executor.table.lookup fileFlag.name = some (some d) ∧ d.params = [.text] ∧
      ∀ path s, d.run [.text path] s = ({ s with store := s.store.put 0 (.one (.text path)) }, none) := by
  obtain ⟨d, hlookup, hword⟩ := (governs getElem?_all_fileFlag).own fileFlag.name
    (by rw [names_fileFlag]; exact List.mem_cons_self)
  refine ⟨d, hlookup, hword.params_eq.trans params_fileFlag, fun path s => ?_⟩
  obtain ⟨w, hw, hname, hhandler, -⟩ := hword
  rw [Directive.run, hhandler]
  cases Flags.writes_of_mem hw with
  | assign hkind _ hhandler =>
    cases hkind
    rw [hhandler]
    rfl
  | reset _ hreset =>
    rw [hname] at hreset
    exact absurd hreset (by decide)
  | switchOn hkind | switchOff hkind | append hkind => cases hkind

/-- The flag and a word are a segment. -/
theorem splits_fileFlag (path : Bytes) (s : State) : ∃ seg, file? seg = some path ∧
    Splits flags.executor.unknown ⟨flags.executor.table, [fileFlag.name, path], s⟩ [seg]
      ⟨flags.executor.table, [], { s with store := s.store.put 0 (.one (.text path)) }⟩ := by
  obtain ⟨d, hlookup, hparams, hrun⟩ := exists_fileDirective
  have htrim : Utf8.trim fileFlag.name = fileFlag.name := by decide +kernel
  have hreads : Reads [] d.params [path] [.text path] := by
    rw [hparams]
    exact .word rfl .nil
  have huses : Uses flags.executor.unknown flags.executor.table s [] [fileFlag.name, path]
      (d.calls [.text path]) (.executed ⟨fileFlag.name, some d, [path], [.text path]⟩
        ⟨flags.executor.table, [], { s with store := s.store.put 0 (.one (.text path)) }⟩) :=
    .executed (by rw [htrim, hlookup]) hreads (hrun path s) (by rw [subs_of_lookup hlookup, Executor.addSubs])
  exact ⟨⟨fileFlag.name, some d, [path], [.text path]⟩,
    file?_of_flag (Option.some_ne_none d) htrim, huses.splits⟩

theorem ofState_put {s : State} {old : FlagValue} (h : s.store[0]? = some old) (path : Bytes) :
    ofState { s with store := s.store.put 0 (.one (.text path)) } = { ofState s with file := path } := by
  have hothers : ∀ slot ≠ 0, (s.store.put 0 (.one (.text path)))[slot]? = s.store[slot]? := fun slot hslot =>
    List.getElem?_set_ne hslot.symm
  simp [ofState, text, int, switch, texts, int?, getElem?_put h, hothers]

section

variable (haccepted : (parse words).2 = none)
variable (hfull : ∀ seg ∈ executed words, seg.taken.length = seg.params.length)
include haccepted hfull

theorem splits_behind (more : List Bytes) : Splits flags.executor.unknown
    ⟨flags.executor.table, words ++ more, initial⟩ (executed words)
    ⟨flags.executor.table, more, (flags.executor.execute words initial).1⟩ :=
  @splits_append _ _ flags.executor words initial haccepted
    (fun seg hseg => ⟨hfull seg hseg, (named_stop words).subs seg hseg⟩) more

/-- **Behind a command line that is accepted, the flag is accepted as well**, and takes the place of the
program file that was named. -/
theorem parse_append_flag (path : Bytes) :
    parse (words ++ [fileFlag.name, path]) = ({ (parse words).1 with file := path }, none) ∧
      namedFiles (executed (words ++ [fileFlag.name, path]))
        = namedFiles (executed words) ++ [path].filter (· ≠ []) := by
  obtain ⟨seg, hfile, hlast⟩ := splits_fileFlag path (flags.executor.execute words initial).1
  have hsplits := (splits_behind haccepted hfull [fileFlag.name, path]).append hlast
  refine ⟨?_, ?_⟩
  · rw [parse, hsplits.execute_of_end rfl]
    exact congrArg (·, none) (ofState_put (store_execute words) path)
  · rw [executed, hsplits.executed_eq rfl, namedFiles_snoc, hfile]
    rfl

/-- **Behind a command line that names a program file, a bare word is refused.** -/
theorem parse_append_bare {word : Bytes} (hbare : IsBare (Utf8.trim word))
    (hfile : (parse words).1.file ≠ []) : (parse (words ++ [word])).2
      = some (.rejected (.moreFiles (parse words).1.file (Utf8.trim word))) := by
  have hturn := (named_behind words [word]).turn_eq rfl hbare
  rw [file_parse] at hfile ⊢
  rw [if_neg hfile, ← unknown_flags] at hturn
  have hexecute := (splits_behind haccepted hfull [word]).executeWith_eq
  have hlast := hexecute.trans (executeWith_of_failed hturn)
  dsimp only at hlast
  rw [parse_snd, execute_eq_executeWith, hlast]

end

/-- **A second program file is refused as a bare word only.** The program file is told by the segments that are
executed, and bare words come only where none is named; a command line that goes on with one behind a segment
that names a file is refused with both, and no other is. So a command line that is accepted names one file at
most, unless it resets the file or the flag comes where one is named. The flag is not refused there: it takes
the place of the file that was named. -/
theorem second_program_file_is_refused_as_bare_word (words : List Bytes) :
    (parse words).1.file = fileAfter (executed words) ∧
    (∀ before seg after, executed words = before ++ seg :: after → seg.directive = none →
      fileAfter before = []) ∧
    (∀ first second, (parse words).2 = some (.rejected (.moreFiles first second)) ↔
      first ≠ [] ∧ first = fileAfter (executed words) ∧ IsBare second ∧ ∃ word rest,
        words = (executed words).flatMap Segment.words ++ word :: rest ∧ Utf8.trim word = second) ∧
    ((parse words).2 = none →
      words = (executed words).flatMap Segment.words ∧
      ((∀ seg ∈ executed words, seg.name ≠ fileReset) →
        (∀ before seg after, executed words = before ++ seg :: after → seg.name = fileFlag.name →
          fileAfter before = []) →
        namedFiles (executed words) = [(parse words).1.file].filter (· ≠ [])) ∧
      ((∀ seg ∈ executed words, seg.taken.length = seg.params.length) →
        (∀ path, parse (words ++ [fileFlag.name, path]) = ({ (parse words).1 with file := path }, none) ∧
          namedFiles (executed (words ++ [fileFlag.name, path]))
            = namedFiles (executed words) ++ [path].filter (· ≠ [])) ∧
        ∀ word, IsBare (Utf8.trim word) → (parse words).1.file ≠ [] →
          (parse (words ++ [word])).2
            = some (.rejected (.moreFiles (parse words).1.file (Utf8.trim word))))) := by
  have hbare := (named_stop words).bare
  refine ⟨file_parse words, hbare, fun first second => moreFiles_iff, fun haccepted =>
    ⟨words_of_parse haccepted, fun hreset hflag => ?_, fun hfull =>
      ⟨parse_append_flag haccepted hfull, fun word => parse_append_bare haccepted hfull⟩⟩⟩
  rw [file_parse]
  exact namedFiles_eq _ hreset fun before seg after heq hwrites =>
    hwrites.elim (hbare before seg after heq) (hflag before seg after heq)

/-- Two files, of which the first one is dropped in one order and the second one is refused in the other. -/
theorem second_program_file_is_refused_as_bare_word_of_two :
    parse (["a.bf", "-file", "b.bf"].map utf8) = ({ file := utf8 "b.bf" }, none) ∧
      namedFiles (executed (["a.bf", "-file", "b.bf"].map utf8)) = ["a.bf", "b.bf"].map utf8 ∧
      (parse (["-file", "b.bf", "a.bf"].map utf8)).2
        = some (.rejected (.moreFiles (utf8 "b.bf") (utf8 "a.bf"))) := by
  have hlast : ["a.bf", "-file", "b.bf"].map utf8 = [utf8 "a.bf"] ++ [fileFlag.name, utf8 "b.bf"] := rfl
  have hfirst : ["-file", "b.bf", "a.bf"].map utf8 = [fileFlag.name, utf8 "b.bf"] ++ [utf8 "a.bf"] := rfl
  have htrim : Utf8.trim (utf8 "a.bf") = utf8 "a.bf" := by decide +kernel
  have hbare : IsBare (utf8 "a.bf") := ⟨Option.isNone_iff_eq_none.mp (by decide +kernel), by decide +kernel⟩
  have hword : parse [utf8 "a.bf"] = ({ file := utf8 "a.bf" }, none) := by decide +kernel
  have hnamed : namedFiles (executed [utf8 "a.bf"]) = [utf8 "a.bf"] := by decide +kernel
  have hflag : parse [fileFlag.name, utf8 "b.bf"] = ({ file := utf8 "b.bf" }, none) := by decide +kernel
  refine ⟨?_, ?_, ?_⟩
  · obtain ⟨-, -, -, haccepted⟩ := second_program_file_is_refused_as_bare_word [utf8 "a.bf"]
    obtain ⟨-, -, hbehind⟩ := haccepted (by rw [hword])
    obtain ⟨hparse, -⟩ := (hbehind (by decide +kernel)).1 (utf8 "b.bf")
    rw [hlast, hparse, hword]
  · obtain ⟨-, -, -, haccepted⟩ := second_program_file_is_refused_as_bare_word [utf8 "a.bf"]
    obtain ⟨-, -, hbehind⟩ := haccepted (by rw [hword])
    obtain ⟨-, hmore⟩ := (hbehind (by decide +kernel)).1 (utf8 "b.bf")
    rw [hlast, hmore, hnamed]
    decide
  · obtain ⟨-, -, -, haccepted⟩ := second_program_file_is_refused_as_bare_word [fileFlag.name, utf8 "b.bf"]
    obtain ⟨-, -, hbehind⟩ := haccepted (by rw [hflag])
    have hrefused := (hbehind (by decide +kernel)).2 (utf8 "a.bf") (by rwa [htrim])
    rw [hflag, htrim] at hrefused
    rw [hfirst]
    exact hrefused (by decide)

end TapeMachine.Tool.Options
