/-
The value of a flag.

A flag is written by words of its own, among the words of other flags, other directives and arguments. Its
value is told by the segments with its own names, whatever else is executed and wherever command lines fail.

* `Flag.names`, `Flag.params`: the words of a flag, and the arguments that they take;
* `Flag.valueAfter`: the value of a flag behind segments that were executed;
* `Flags.Writes`: all that the words of a flag can do;
* `Directive.Spares`: a directive that leaves a slot as it is;
* `Governs`: a table in which nothing but the words of a flag writes its slot;
* `Tells`: the segments of a command line tell the value of a flag;
* `Tells.executed`, `Tells.failed`: one turn; `Tells.execute`, `Tells.executeAll`: command lines.
-/
import TapeMachine.CommandLine.Flag
import TapeMachine.Proofs.CommandLine.Table

namespace TapeMachine.CommandLine

variable {σ τ ε : Type}

/-! ### The value of a flag -/

namespace Flag

/-- The words that a flag is written by. -/
def names (f : Flag) : List Bytes :=
  match f.kind with
  | .single _ => [f.name, f.name ++ utf8 "."]
  | .switch => [f.name, utf8 "!" ++ f.name]
  | .collection _ => [f.name]

/-- The types of the arguments that a word of the flag takes. -/
def params (f : Flag) (name : Bytes) : List ArgType :=
  match f.kind with
  | .single type => if name = f.name then [type] else []
  | .switch => []
  | .collection type => [type]

/-- The value of a flag behind segments that were executed. A variable has the argument of its last segment
behind the last one that reset it; a switch is on if the last of its words set it; a collection has the
arguments of all its segments. -/
def valueAfter (f : Flag) (segs : List (Segment σ ε)) : FlagValue :=
  match f.kind with
  | .single type =>
    let sinceReset := segs.reverse.takeWhile fun seg => seg.name ≠ f.name ++ utf8 "."
    .one ((sinceReset.find? fun seg => seg.name = f.name).elim type.zero
      fun seg => seg.values.headD type.zero)
  | .switch =>
    let last? := segs.reverse.find? fun seg => seg.name = f.name ∨ seg.name = utf8 "!" ++ f.name
    .switch (last?.any fun seg => seg.name = f.name)
  | .collection type =>
    .many ((segs.filter fun seg => seg.name = f.name).map fun seg => seg.values.headD type.zero)

theorem dot_ne_nil : utf8 "." ≠ [] := by decide

theorem bang_ne_nil : utf8 "!" ≠ [] := by decide

variable {f : Flag} {seg : Segment σ ε}

/-- A flag that no word has written has its first value. -/
theorem valueAfter_nil (f : Flag) : f.valueAfter ([] : List (Segment σ ε)) = f.kind.initial := by
  rw [valueAfter]
  cases f.kind <;> rfl

/-- The words of others do not count. -/
theorem valueAfter_snoc_of_not_mem (h : seg.name ∉ f.names) (segs : List (Segment σ ε)) :
    f.valueAfter (segs ++ [seg]) = f.valueAfter segs := by
  rw [names] at h
  rw [valueAfter, valueAfter]
  cases hkind : f.kind with
  | single type =>
    rw [hkind] at h
    simp only [List.mem_cons, List.not_mem_nil, or_false, not_or] at h
    simp [h.1, h.2]
  | switch =>
    rw [hkind] at h
    simp only [List.mem_cons, List.not_mem_nil, or_false, not_or] at h
    simp [h.1, h.2]
  | collection type =>
    rw [hkind] at h
    simp only [List.mem_cons, List.not_mem_nil, or_false] at h
    simp [h]

end Flag

namespace Flags

/-- A word of a flag: its name, its function, and what the usage text says about it. -/
abbrev Word (τ ε : Type) := Bytes × Handler (FlagState τ) ε × Bytes × List Bytes

/-- The words of a flag are bound under its names. -/
theorem map_words (slot : Nat) (f : Flag) :
    (words (τ := τ) (ε := ε) slot f).map (·.1) = f.names := by
  rw [words, Flag.names]
  cases f.kind <;> rfl

/-- What a word of a flag does. -/
inductive Writes (slot : Nat) (f : Flag) (name : Bytes) (handler : Handler (FlagState τ) ε) : Prop
  | assign {type : ArgType} (hkind : f.kind = .single type) (hname : name = f.name)
      (hhandler : handler = writer [type]
        fun values store => store.put slot (.one (values.headD type.zero)))
  | reset {type : ArgType} (hkind : f.kind = .single type) (hname : name = f.name ++ utf8 ".")
      (hhandler : handler = writer [] fun _ store => store.put slot (.one type.zero))
  | switchOn (hkind : f.kind = .switch) (hname : name = f.name)
      (hhandler : handler = writer [] fun _ store => store.put slot (.switch true))
  | switchOff (hkind : f.kind = .switch) (hname : name = utf8 "!" ++ f.name)
      (hhandler : handler = writer [] fun _ store => store.put slot (.switch false))
  | append {type : ArgType} (hkind : f.kind = .collection type) (hname : name = f.name)
      (hhandler : handler = writer [type]
        fun values store => store.append slot (values.headD type.zero))

/-- **All that the words of a flag can do.** -/
theorem writes_of_mem {slot : Nat} {f : Flag} {w : Word τ ε} (hw : w ∈ words slot f) :
    Writes slot f w.1 w.2.1 := by
  rw [words] at hw
  cases hkind : f.kind with
  | single type =>
    rw [hkind] at hw
    simp only [List.mem_cons, List.not_mem_nil, or_false] at hw
    rcases hw with rfl | rfl
    · exact .assign hkind rfl rfl
    · exact .reset hkind rfl rfl
  | switch =>
    rw [hkind] at hw
    simp only [List.mem_cons, List.not_mem_nil, or_false] at hw
    rcases hw with rfl | rfl
    · exact .switchOn hkind rfl rfl
    · exact .switchOff hkind rfl rfl
  | collection type =>
    rw [hkind] at hw
    obtain rfl := List.mem_singleton.mp hw
    exact .append hkind rfl rfl

namespace Writes

variable {slot : Nat} {f : Flag} {name : Bytes} {handler : Handler (FlagState τ) ε}

theorem params_eq (h : Writes slot f name handler) : handler.params = f.params name := by
  cases h with
  | assign hkind hname hhandler =>
    rw [hhandler, Flag.params, hkind, hname]
    exact (if_pos rfl).symm
  | reset hkind hname hhandler =>
    have hne : f.name ++ utf8 "." ≠ f.name := fun h =>
      Flag.dot_ne_nil (List.append_right_eq_self.mp h)
    rw [hhandler, Flag.params, hkind, hname]
    exact (if_neg hne).symm
  | switchOn hkind hname hhandler | switchOff hkind hname hhandler | append hkind hname hhandler =>
    rw [hhandler, Flag.params, hkind]
    rfl

/-- **A word of a flag writes its slot.** It does not fail, and leaves the value that the segments tell. -/
theorem call_eq {seg : Segment (FlagState τ) ε} (h : Writes slot f seg.name handler)
    {segs : List (Segment (FlagState τ) ε)} {s : FlagState τ}
    (hslot : s.store[slot]? = some (f.valueAfter segs)) :
    (handler.call seg.values s).2 = none ∧
      (handler.call seg.values s).1.store[slot]? = some (f.valueAfter (segs ++ [seg])) := by
  obtain ⟨hlt, hold⟩ := List.getElem?_eq_some_iff.mp hslot
  cases h with
  | assign hkind hname hhandler =>
    rw [hhandler, Flag.valueAfter, hkind]
    simp [writer, FlagStore.put, hlt, hname, Flag.dot_ne_nil]
  | reset hkind hname hhandler | switchOn hkind hname hhandler =>
    rw [hhandler, Flag.valueAfter, hkind]
    simp [writer, FlagStore.put, hlt, hname]
  | switchOff hkind hname hhandler =>
    rw [hhandler, Flag.valueAfter, hkind]
    simp [writer, FlagStore.put, hlt, hname, Flag.bang_ne_nil]
  | append hkind hname hhandler =>
    rw [Flag.valueAfter, hkind] at hold
    rw [hhandler, Flag.valueAfter, hkind]
    simp [writer, FlagStore.append, hold, hlt, hname]

/-- The other slots keep their values. -/
theorem getElem?_of_ne (h : Writes slot f name handler) {slot' : Nat} (hne : slot ≠ slot')
    (values : List ArgValue) (s : FlagState τ) :
    (handler.call values s).1.store[slot']? = s.store[slot']? := by
  cases h with
  | assign _ _ hhandler | reset _ _ hhandler | switchOn _ _ hhandler | switchOff _ _ hhandler =>
    rw [hhandler]
    exact List.getElem?_set_ne hne
  | append _ _ hhandler =>
    rw [hhandler]
    exact List.getElem?_modify_ne _ _ hne

end Writes

end Flags

/-! ### What writes a slot -/

/-- A directive that leaves a slot as it is, and so do its sub directives. -/
inductive Directive.Spares (slot : Nat) : Directive (FlagState τ) ε → Prop
  | mk {d : Directive (FlagState τ) ε}
      (hrun : ∀ values s, (d.run values s).1.store[slot]? = s.store[slot]?)
      (hsubs : ∀ name sub, (name, some sub) ∈ d.subs → Spares slot sub) : Spares slot d

/-- What is done with words that name no directive leaves a slot as it is. -/
def Fallback.Spares (slot : Nat) (unknown : Fallback (FlagState τ) ε) : Prop :=
  ∀ handle, unknown = some handle → ∀ name s, (handle name s).1.store[slot]? = s.store[slot]?

/-- A directive that was made for one of the words of a flag. -/
def Directive.WordOf (slot : Nat) (f : Flag) (name : Bytes) (d : Directive (FlagState τ) ε) : Prop :=
  ∃ w ∈ Flags.words slot f, w.1 = name ∧ d.handler = some w.2.1 ∧ d.subs = []

/-- The words of a flag are bound, and no other directive writes its slot. -/
structure Governs (slot : Nat) (f : Flag) (t : Table (FlagState τ) ε) : Prop where
  nodup : (Table.names t).Nodup
  own : ∀ name ∈ f.names, ∃ d, t.lookup name = some (some d) ∧ d.WordOf slot f name
  others : ∀ name d, (name, some d) ∈ t → name ∉ f.names → d.Spares slot

variable {slot : Nat} {f : Flag} {unknown : Fallback (FlagState τ) ε} {name : Bytes}
variable {d : Directive (FlagState τ) ε} {values : List ArgValue} {s s' : FlagState τ} {error? : Option ε}
variable {p q : Position (FlagState τ) ε} {seg : Segment (FlagState τ) ε}
variable {segs : List (Segment (FlagState τ) ε)} {t u : Table (FlagState τ) ε}

theorem Directive.Spares.of_run (h : d.Spares slot) (hrun : d.run values s = (s', error?)) :
    s'.store[slot]? = s.store[slot]? := by
  obtain ⟨hkept, -⟩ := h
  have hsame := hkept values s
  rw [hrun] at hsame
  exact hsame

namespace Directive.WordOf

/-- The name of such a directive is one of the names of the flag. -/
theorem mem_names (h : d.WordOf slot f name) : name ∈ f.names := by
  obtain ⟨w, hw, hname, -, -⟩ := h
  rw [← Flags.map_words (τ := τ) (ε := ε) slot f, ← hname]
  exact List.mem_map_of_mem hw

theorem params_eq (h : d.WordOf slot f name) : d.params = f.params name := by
  obtain ⟨w, hw, rfl, hhandler, -⟩ := h
  rw [Directive.params, hhandler]
  exact (Flags.writes_of_mem hw).params_eq

theorem of_run (h : d.WordOf slot f name) (seg : Segment (FlagState τ) ε) (hsegname : seg.name = name)
    (hslot : s.store[slot]? = some (f.valueAfter segs)) (hrun : d.run seg.values s = (s', error?)) :
    error? = none ∧ s'.store[slot]? = some (f.valueAfter (segs ++ [seg])) := by
  obtain ⟨w, hw, rfl, hhandler, -⟩ := h
  have hwrites := Flags.writes_of_mem hw
  rw [← hsegname] at hwrites
  have hcall := hwrites.call_eq hslot
  rw [Directive.run, hhandler] at hrun
  dsimp only at hrun
  rw [hrun] at hcall
  exact hcall

/-- The words of other flags leave a slot as it is. -/
theorem spares {slot' : Nat} (hne : slot' ≠ slot) (h : d.WordOf slot' f name) : d.Spares slot := by
  obtain ⟨w, hw, -, hhandler, hsubs⟩ := h
  refine .mk (fun values s => ?_) fun name sub hsub => ?_
  · rw [Directive.run, hhandler]
    exact (Flags.writes_of_mem hw).getElem?_of_ne hne values s
  · rw [hsubs] at hsub
    cases hsub

end Directive.WordOf

namespace Governs

/-- What a name is bound to is a word of the flag or leaves its slot alone. -/
theorem of_lookup (h : Governs slot f t) (hname : t.lookup name = some (some d)) :
    d.WordOf slot f name ∨ name ∉ f.names ∧ d.Spares slot := by
  by_cases hmem : name ∈ f.names
  · obtain ⟨d', hlookup, hword⟩ := h.own name hmem
    obtain rfl : d' = d := Option.some_inj.mp (Option.some_inj.mp (hlookup.symm.trans hname))
    exact .inl hword
  · exact .inr ⟨hmem, h.others name d (Table.mem_of_lookup hname) hmem⟩

/-- More directives that leave the slot alone change nothing. -/
theorem extend (h : Governs slot f t) (hextends : Extends t u)
    (hnew : ∀ name d, (name, some d) ∈ u → (name, some d) ∈ t ∨ d.Spares slot) :
    Governs slot f u where
  nodup := hextends.nodup
  own := fun name hname => by
    obtain ⟨d, hlookup, hword⟩ := h.own name hname
    exact ⟨d, hextends.lookup_eq hlookup, hword⟩
  others := fun name d hmem hname => (hnew name d hmem).elim (h.others name d · hname) id

end Governs

/-! ### Turns -/

/-- What is known of a flag at any point of a command line. -/
structure Tells (slot : Nat) (f : Flag) (segs : List (Segment (FlagState τ) ε))
    (p : Position (FlagState τ) ε) : Prop where
  governs : Governs slot f p.table
  value : p.state.store[slot]? = some (f.valueAfter segs)
  reads : ∀ seg ∈ segs, seg.name ∈ f.names →
    takeArguments (f.params seg.name) seg.taken = .ok (seg.values, [])

namespace Tells

theorem snoc (h : Tells slot f segs p) (hgoverns : Governs slot f q.table)
    (hvalue : q.state.store[slot]? = some (f.valueAfter (segs ++ [seg])))
    (hreads : seg.name ∈ f.names →
      takeArguments (f.params seg.name) seg.taken = .ok (seg.values, [])) :
    Tells slot f (segs ++ [seg]) q := by
  refine ⟨hgoverns, hvalue, fun seg' hseg => ?_⟩
  rcases List.mem_append.mp hseg with hold | hnew
  · exact h.reads seg' hold
  · obtain rfl := List.mem_singleton.mp hnew
    exact hreads

theorem snoc_of_not_mem (h : Tells slot f segs p) (hother : seg.name ∉ f.names)
    (hgoverns : Governs slot f q.table)
    (hsame : q.state.store[slot]? = p.state.store[slot]?) : Tells slot f (segs ++ [seg]) q := by
  refine h.snoc hgoverns ?_ fun hmem => absurd hmem hother
  rw [Flag.valueAfter_snoc_of_not_mem hother]
  exact hsame.trans h.value

/-- **An executed turn leaves the value that the segments tell.** -/
theorem executed (h : Tells slot f segs p) (hunknown : unknown.Spares slot)
    (hexecuted : Executed unknown p seg q) : Tells slot f (segs ++ [seg]) q := by
  cases hexecuted with
  | @unknown word rest handle s hwords hname hsome hhandle =>
    -- a word that names no directive is no word of the flag, and its handler spares the slot
    have hother : Utf8.trim word ∉ f.names := by
      intro hmem
      obtain ⟨d, hlookup, -⟩ := h.governs.own _ hmem
      rw [hlookup] at hname
      cases hname
    have hkept := hunknown handle hsome (Utf8.trim word) p.state
    rw [hhandle] at hkept
    exact h.snoc_of_not_mem hother h.governs hkept
  | @directive word taken rest d values s table hwords hname htake hrun hsubs =>
    obtain ⟨htable, hnodup⟩ := addSubs_eq_ok _ hsubs h.governs.nodup
    -- the directive is one of the flag, or one that spares the slot, as its sub directives do
    rcases h.governs.of_lookup hname with hword | ⟨hother, hspares⟩
    · obtain ⟨-, hvalue⟩ := hword.of_run ⟨word, some d, taken, values⟩ rfl h.value hrun
      have hparams := hword.params_eq
      obtain ⟨-, -, -, -, hnosubs⟩ := hword
      rw [hnosubs, List.append_nil] at htable
      rw [hparams] at htake
      exact h.snoc (htable ▸ h.governs) hvalue fun _ => taken_of_takeArguments htake
    · have hsame := hspares.of_run hrun
      obtain ⟨-, hsubspares⟩ := hspares
      refine h.snoc_of_not_mem hother
        (h.governs.extend ⟨htable ▸ List.prefix_append _ _, hnodup⟩ ?_) hsame
      intro name sub hsub
      rw [htable, List.mem_append] at hsub
      exact hsub.imp id (hsubspares name sub)

/-- **A failed turn leaves the slot as it is**: a word of the flag fails for want of an argument only. -/
theorem failed {error : ExecuteError ε} (h : Tells slot f segs p) (hunknown : unknown.Spares slot)
    (hfailed : Failed unknown p s error) : s.store[slot]? = p.state.store[slot]? := by
  cases hfailed with
  | unknown | unbound | argument => rfl
  | @rejected word rest handle s error hwords hname hsome hhandle =>
    have hkept := hunknown handle hsome (Utf8.trim word) p.state
    rw [hhandle] at hkept
    exact hkept
  | @handler word words rest d values s error hwords hname htake hrun =>
    rcases h.governs.of_lookup hname with hword | ⟨-, hspares⟩
    · obtain ⟨hnone, -⟩ := hword.of_run ⟨word, some d, [], values⟩ rfl h.value hrun
      cases hnone
    · exact hspares.of_run hrun
  | @duplicatedSub word words rest d values s sub hwords hname htake hrun hsubs =>
    -- a directive of the flag has no sub directives that could be refused
    rcases h.governs.of_lookup hname with ⟨-, -, -, -, hnosubs⟩ | ⟨-, hspares⟩
    · rw [hnosubs] at hsubs
      cases hsubs
    · exact hspares.of_run hrun

end Tells

/-! ### Command lines -/

namespace Tells

variable {e : Executor (FlagState τ) ε} {words : List Bytes}

theorem after (h : Tells slot f segs ⟨e.table, words, s⟩) (hunknown : Fallback.Spares slot e.unknown)
    (n : Nat) : Tells slot f (segs ++ (e.after words s n).1) (e.after words s n).2 :=
  turns_extend (P := Tells slot f) (fun h hexecuted => h.executed hunknown hexecuted) n h

/-- A command line leaves the value that its segments tell, whether it succeeds or not. -/
theorem execute (h : Tells slot f segs ⟨e.table, words, s⟩)
    (hunknown : Fallback.Spares slot e.unknown) (words' : List Bytes) :
    Tells slot f (segs ++ e.executed words s) ⟨e.table, words', (e.execute words s).1⟩ := by
  have hafter := h.after hunknown words.length
  refine ⟨h.governs, ?_, hafter.reads⟩
  have hresult := execute_eq e words s
  refine Eq.trans ?_ hafter.value
  cases hturn : (e.after words s words.length).2.turn e.unknown with
  | finished =>
    rw [hturn, Turn.result?, Option.some_inj] at hresult
    rw [← hresult]
  | failed s' error =>
    rw [hturn, Turn.result?, Option.some_inj] at hresult
    rw [← hresult]
    exact hafter.failed hunknown (turn_failed hturn)
  | executed =>
    rw [hturn] at hresult
    cases hresult

/-- **So do any number of command lines.** -/
theorem executeAll (hunknown : Fallback.Spares slot e.unknown) (lines : List (List Bytes)) :
    ∀ {segs : List (Segment (FlagState τ) ε)} {words : List Bytes} {s : FlagState τ},
      Tells slot f segs ⟨e.table, words, s⟩ → ∀ words' : List Bytes,
        Tells slot f (segs ++ (e.executeAll lines s).1.flatten)
          ⟨e.table, words', (e.executeAll lines s).2⟩ := by
  induction lines with
  | nil =>
    intro segs words s h words'
    rw [Executor.executeAll, List.flatten_nil, List.append_nil]
    exact ⟨h.governs, h.value, h.reads⟩
  | cons line lines ih =>
    intro segs words s h words'
    have hline : Tells slot f segs ⟨e.table, line, s⟩ := ⟨h.governs, h.value, h.reads⟩
    have hlines := ih (hline.execute hunknown []) words'
    rw [List.append_assoc] at hlines
    exact hlines

end Tells

end TapeMachine.CommandLine
