/-
Which words a command line uses, and for what.

A turn uses the word that it starts with and the words that it reads as arguments, and makes the call
that they ask for. It uses no word twice and leaves none out.

* `Reads`, `Misreads`: words that are read as arguments, and words of which the last one is not;
* `Uses`: a turn with the words that it uses and the calls that it makes;
* `Splits`: the words at a position split into the segments of turns;
* `Executor.noting`: an executor that does the same and notes the calls that it makes;
* `every_word_is_used_once`: what holds of whole command lines.
-/
import TapeMachine.Proofs.CommandLine.Turn

namespace TapeMachine.CommandLine

variable {σ ε : Type}

/-! ### Arguments -/

/-- The value of an argument that is left out. -/
def ArgType.omitted? : ArgType → Option ArgValue
  | optional type => some (.reference type.zero)
  | bool | text | int _ | unsigned _ | float _ | unsupported _ => none

/-- Words in front of `rest` are read as arguments, one for each type. An argument is left out only if
there is no word left, and if its type allows it. -/
inductive Reads (rest : List Bytes) : List ArgType → List Bytes → List ArgValue → Prop
  | nil : Reads rest [] [] []
  | word {type : ArgType} {types : List ArgType} {word : Bytes} {taken : List Bytes}
      {value : ArgValue} {values : List ArgValue} (hword : type.parseWord word = .ok value)
      (h : Reads rest types taken values) :
      Reads rest (type :: types) (word :: taken) (value :: values)
  | omitted {type : ArgType} {types : List ArgType} {value : ArgValue} {values : List ArgValue}
      (hrest : rest = []) (homitted : type.omitted? = some value) (h : Reads rest types [] values) :
      Reads rest (type :: types) [] (value :: values)

/-- Words in front of `rest` are read as arguments up to the last one, which does not fit; or all of them
are, and an argument is missing. -/
inductive Misreads (rest : List Bytes) : List ArgType → List Bytes → ArgError → Prop
  | refused {type : ArgType} {types : List ArgType} {word : Bytes} {error : ArgError}
      (hword : type.parseWord word = .error error) : Misreads rest (type :: types) [word] error
  | missing {type : ArgType} {types : List ArgType} (hrest : rest = [])
      (homitted : type.omitted? = none) : Misreads rest (type :: types) [] .missing
  | word {type : ArgType} {types : List ArgType} {word : Bytes} {taken : List Bytes}
      {value : ArgValue} {error : ArgError} (hword : type.parseWord word = .ok value)
      (h : Misreads rest types taken error) : Misreads rest (type :: types) (word :: taken) error
  | omitted {type : ArgType} {types : List ArgType} {value : ArgValue} {error : ArgError}
      (hrest : rest = []) (homitted : type.omitted? = some value) (h : Misreads rest types [] error) :
      Misreads rest (type :: types) [] error

theorem parse_cons (type : ArgType) (word : Bytes) (words : List Bytes) :
    type.parse (word :: words) = type.parseWord word := by
  cases type <;> rfl

theorem parse_of_omitted? {type : ArgType} {value : ArgValue} (h : type.omitted? = some value) :
    type.parse [] = .ok value := by
  cases type <;> cases h
  rfl

theorem parse_of_not_omitted? {type : ArgType} (h : type.omitted? = none) :
    type.parse [] = .error .missing := by
  cases type with
  | optional => cases h
  | bool | text | int | unsigned | float | unsupported => rfl

namespace Reads

variable {types : List ArgType} {rest taken : List Bytes} {values : List ArgValue}

theorem takeArguments_eq (h : Reads rest types taken values) :
    takeArguments types (taken ++ rest) = .ok (values, rest) := by
  induction h with
  | nil => rfl
  | word hword h ih =>
    rw [takeArguments, List.cons_append, parse_cons, hword, List.drop_succ_cons, List.drop_zero, ih]
  | omitted hrest homitted h ih =>
    -- no word is left, so those dropped for the argument are none
    subst hrest
    rw [List.append_nil] at ih ⊢
    rw [takeArguments, parse_of_omitted? homitted, List.drop_nil, ih]

/-- The words behind the arguments make no difference unless one is left out for want of them. -/
theorem behind (h : Reads rest types taken values)
    (hsame : rest ≠ [] ∨ taken.length = types.length) (rest' : List Bytes) :
    Reads rest' types taken values := by
  induction h with
  | nil => exact .nil
  | word hword h ih => exact .word hword (ih (hsame.imp id Nat.succ.inj))
  | omitted hnil =>
    rcases hsame with hrest | hlength
    · exact absurd hnil hrest
    · cases hlength

theorem replace (h : Reads rest types taken values) (hrest : rest ≠ []) (rest' : List Bytes) :
    Reads rest' types taken values :=
  h.behind (.inl hrest) rest'

end Reads

namespace Misreads

variable {types : List ArgType} {rest taken : List Bytes} {error : ArgError}

theorem takeArguments_eq (h : Misreads rest types taken error) :
    takeArguments types (taken ++ rest) = .error error := by
  induction h with
  | refused hword => rw [takeArguments, List.singleton_append, parse_cons, hword]
  | missing hrest homitted =>
    subst hrest
    rw [takeArguments, List.append_nil, parse_of_not_omitted? homitted]
  | word hword h ih =>
    rw [takeArguments, List.cons_append, parse_cons, hword, List.drop_succ_cons, List.drop_zero, ih]
  | omitted hrest homitted h ih =>
    subst hrest
    rw [List.append_nil] at ih ⊢
    rw [takeArguments, parse_of_omitted? homitted, List.drop_nil, ih]

theorem replace (h : Misreads rest types taken error) (hrest : rest ≠ []) (rest' : List Bytes) :
    Misreads rest' types taken error := by
  induction h with
  | refused hword => exact .refused hword
  | word hword h ih => exact .word hword ih
  | missing hnil | omitted hnil => exact absurd hnil hrest

end Misreads

/-- **Words are read as arguments or they are not.** -/
theorem reads_or_misreads (types : List ArgType) : ∀ words : List Bytes,
    (∃ taken rest values, words = taken ++ rest ∧ Reads rest types taken values) ∨
      ∃ taken rest error, words = taken ++ rest ∧ Misreads rest types taken error := by
  induction types with
  | nil => exact fun words => .inl ⟨[], words, [], rfl, .nil⟩
  | cons type types ih =>
    intro words
    rcases words with _ | ⟨word, words⟩
    · rcases homitted : type.omitted? with _ | value
      · exact .inr ⟨[], [], .missing, rfl, .missing rfl homitted⟩
      · -- all that follows is left out as well, or missing
        rcases ih [] with ⟨taken, rest, values, hnil, hreads⟩ | ⟨taken, rest, error, hnil, hmisreads⟩
        · obtain ⟨rfl, rfl⟩ := List.append_eq_nil_iff.mp hnil.symm
          exact .inl ⟨[], [], value :: values, rfl, .omitted rfl homitted hreads⟩
        · obtain ⟨rfl, rfl⟩ := List.append_eq_nil_iff.mp hnil.symm
          exact .inr ⟨[], [], error, rfl, .omitted rfl homitted hmisreads⟩
    · rcases hword : type.parseWord word with error | value
      · exact .inr ⟨[word], words, error, rfl, .refused hword⟩
      · rcases ih words with ⟨taken, rest, values, rfl, hreads⟩ | ⟨taken, rest, error, rfl, hmisreads⟩
        · exact .inl ⟨word :: taken, rest, value :: values, rfl, .word hword hreads⟩
        · exact .inr ⟨word :: taken, rest, error, rfl, .word hword hmisreads⟩

/-- The second argument is left out at the end of the line. -/
example : Reads [] [.text, .optional (.int 64)] [[97]] [.text [97], .reference (.int 0)] :=
  .word rfl (.omitted rfl rfl .nil)

/-! ### Turns and their words -/

/-- A call that a command line makes: of a function, or for a word that names no directive. -/
inductive Invocation (σ ε : Type) where
  | function (handler : Handler σ ε) (values : List ArgValue)
  | word (name : Bytes)

/-- The calls that a directive makes, which is one if it has a function. -/
def Directive.calls (d : Directive σ ε) (values : List ArgValue) : List (Invocation σ ε) :=
  d.handler.toList.map (.function · values)

/-- The types of the arguments of a segment; a word that names no directive has none. -/
def Segment.params (seg : Segment σ ε) : List ArgType :=
  (seg.directive.map Directive.params).getD []

/-- The calls that a segment makes: of its directive's function, or of what is done with other words. -/
def Segment.calls (seg : Segment σ ε) : List (Invocation σ ε) :=
  match seg.directive with
  | none => [.word seg.name]
  | some d => d.calls seg.values

/-- What a turn does in front of the words `rest`: the words that it uses, the calls that it makes, and
what it comes to. -/
inductive Uses (unknown : Fallback σ ε) (table : Table σ ε) (s : σ) (rest : List Bytes) :
    List Bytes → List (Invocation σ ε) → Turn σ ε → Prop
  | unknown {word : Bytes} (hname : table.lookup (Utf8.trim word) = none)
      (hrefused : unknown = none ∨ (Utf8.trim word).head? = some 45) :
      Uses unknown table s rest [word] [] (.failed s (.unknown (Utf8.trim word)))
  | rejected {word : Bytes} {handle : Bytes → σ → σ × Option ε} {s' : σ} {error : ε}
      (hname : table.lookup (Utf8.trim word) = none) (hdash : (Utf8.trim word).head? ≠ some 45)
      (hunknown : unknown = some handle) (hhandle : handle (Utf8.trim word) s = (s', some error)) :
      Uses unknown table s rest [word] [.word (Utf8.trim word)] (.failed s' (.rejected error))
  | passed {word : Bytes} {handle : Bytes → σ → σ × Option ε} {s' : σ}
      (hname : table.lookup (Utf8.trim word) = none) (hdash : (Utf8.trim word).head? ≠ some 45)
      (hunknown : unknown = some handle) (hhandle : handle (Utf8.trim word) s = (s', none)) :
      Uses unknown table s rest [word] [.word (Utf8.trim word)]
        (.executed { word } ⟨table, rest, s'⟩)
  | unbound {word : Bytes} (hname : table.lookup (Utf8.trim word) = some none) :
      Uses unknown table s rest [word] [] (.failed s (.unbound (Utf8.trim word)))
  | argument {word : Bytes} {d : Directive σ ε} {taken : List Bytes} {error : ArgError}
      (hname : table.lookup (Utf8.trim word) = some (some d))
      (htaken : Misreads rest d.params taken error) :
      Uses unknown table s rest (word :: taken) [] (.failed s (.argument (Utf8.trim word) error))
  | handler {word : Bytes} {d : Directive σ ε} {taken : List Bytes} {values : List ArgValue} {s' : σ}
      {error : ε} (hname : table.lookup (Utf8.trim word) = some (some d))
      (htaken : Reads rest d.params taken values) (hrun : d.run values s = (s', some error)) :
      Uses unknown table s rest (word :: taken) (d.calls values)
        (.failed s' (.handler (Utf8.trim word) error))
  | duplicatedSub {word : Bytes} {d : Directive σ ε} {taken : List Bytes} {values : List ArgValue}
      {s' : σ} {sub : Bytes} (hname : table.lookup (Utf8.trim word) = some (some d))
      (htaken : Reads rest d.params taken values) (hrun : d.run values s = (s', none))
      (hsubs : Executor.addSubs d.subs table = .error sub) :
      Uses unknown table s rest (word :: taken) (d.calls values)
        (.failed s' (.duplicatedSub (Utf8.trim word) sub))
  | executed {word : Bytes} {d : Directive σ ε} {taken : List Bytes} {values : List ArgValue} {s' : σ}
      {table' : Table σ ε} (hname : table.lookup (Utf8.trim word) = some (some d))
      (htaken : Reads rest d.params taken values) (hrun : d.run values s = (s', none))
      (hsubs : Executor.addSubs d.subs table = .ok table') :
      Uses unknown table s rest (word :: taken) (d.calls values)
        (.executed ⟨word, some d, taken, values⟩ ⟨table', rest, s'⟩)

/-- The same turn in front of other words. -/
def Turn.before (rest : List Bytes) : Turn σ ε → Turn σ ε
  | finished => finished
  | failed s error => failed s error
  | executed seg q => executed seg { q with words := rest }

namespace Uses

variable {unknown : Fallback σ ε} {table : Table σ ε} {s : σ} {rest used : List Bytes}
  {calls : List (Invocation σ ε)} {turn : Turn σ ε}

theorem turn_eq (h : Uses unknown table s rest used calls turn) :
    Position.turn unknown ⟨table, used ++ rest, s⟩ = turn := by
  cases h with
  | unknown hname hrefused =>
    rcases unknown with _ | handle
    · simp [Position.turn, hname]
    · have hdash := hrefused.resolve_left (by simp)
      simp [Position.turn, hname, hdash]
  | rejected hname hdash hunknown hhandle =>
    simp [Position.turn, hname, hdash, hunknown, hhandle]
  | passed hname hdash hunknown hhandle =>
    simp [Position.turn, hname, hdash, hunknown, hhandle]
  | unbound hname => simp [Position.turn, hname]
  | argument hname htaken => simp [Position.turn, hname, htaken.takeArguments_eq]
  | handler hname htaken hrun => simp [Position.turn, hname, htaken.takeArguments_eq, hrun]
  | duplicatedSub hname htaken hrun hsubs =>
    simp [Position.turn, hname, htaken.takeArguments_eq, hrun, hsubs]
  | executed hname htaken hrun hsubs =>
    simp [Position.turn, hname, htaken.takeArguments_eq, hrun, hsubs]

/-- **The words behind those that a turn uses make no difference to it**, if there are any. -/
theorem replace (h : Uses unknown table s rest used calls turn) (hrest : rest ≠ [])
    (rest' : List Bytes) : Uses unknown table s rest' used calls (turn.before rest') := by
  cases h with
  | unknown hname hrefused => exact .unknown hname hrefused
  | rejected hname hdash hunknown hhandle => exact .rejected hname hdash hunknown hhandle
  | passed hname hdash hunknown hhandle => exact .passed hname hdash hunknown hhandle
  | unbound hname => exact .unbound hname
  | argument hname htaken => exact .argument hname (htaken.replace hrest rest')
  | handler hname htaken hrun => exact .handler hname (htaken.replace hrest rest') hrun
  | duplicatedSub hname htaken hrun hsubs =>
    exact .duplicatedSub hname (htaken.replace hrest rest') hrun hsubs
  | executed hname htaken hrun hsubs =>
    exact .executed hname (htaken.replace hrest rest') hrun hsubs

theorem segment {seg : Segment σ ε} {q : Position σ ε}
    (h : Uses unknown table s rest used calls (.executed seg q)) :
    used = seg.words ∧ calls = seg.calls ∧ q.words = rest := by
  cases h with
  | passed | executed => exact ⟨rfl, rfl, rfl⟩

/-- An executed turn is the same in front of other words, unless an argument is left out. -/
theorem behind {seg : Segment σ ε} {q : Position σ ε}
    (h : Uses unknown table s rest used calls (.executed seg q))
    (hsame : rest ≠ [] ∨ seg.taken.length = seg.params.length) (rest' : List Bytes) :
    Uses unknown table s rest' used calls (.executed seg { q with words := rest' }) := by
  cases h with
  | passed hname hdash hunknown hhandle => exact .passed hname hdash hunknown hhandle
  | executed hname htaken hrun hsubs =>
    exact .executed hname (htaken.behind hsame rest') hrun hsubs

end Uses

/-- **Every turn uses some words**, as long as there are any. -/
theorem exists_uses (unknown : Fallback σ ε) (table : Table σ ε) (s : σ) {words : List Bytes}
    (hwords : words ≠ []) : ∃ used rest calls turn, words = used ++ rest ∧ used ≠ [] ∧
      Uses unknown table s rest used calls turn ∧ turn ≠ .finished := by
  obtain ⟨word, words, rfl⟩ := List.exists_cons_of_ne_nil hwords
  rcases hname : table.lookup (Utf8.trim word) with _ | _ | d
  · rcases hunknown : unknown with _ | handle
    · exact ⟨[word], words, _, _, rfl, by simp, .unknown hname (.inl rfl), nofun⟩
    · -- a word that looks like a flag is not passed on
      by_cases hdash : (Utf8.trim word).head? = some 45
      · exact ⟨[word], words, _, _, rfl, by simp, .unknown hname (.inr hdash), nofun⟩
      · rcases hhandle : handle (Utf8.trim word) s with ⟨s', _ | error⟩
        · exact ⟨[word], words, _, _, rfl, by simp, .passed hname hdash rfl hhandle, nofun⟩
        · exact ⟨[word], words, _, _, rfl, by simp, .rejected hname hdash rfl hhandle, nofun⟩
  · exact ⟨[word], words, _, _, rfl, by simp, .unbound hname, nofun⟩
  · rcases reads_or_misreads d.params words with
      ⟨taken, rest, values, rfl, htaken⟩ | ⟨taken, rest, error, rfl, htaken⟩
    · rcases hrun : d.run values s with ⟨s', _ | error⟩
      · rcases hsubs : Executor.addSubs d.subs table with sub | table'
        · exact ⟨word :: taken, rest, _, _, rfl, by simp, .duplicatedSub hname htaken hrun hsubs, nofun⟩
        · exact ⟨word :: taken, rest, _, _, rfl, by simp, .executed hname htaken hrun hsubs, nofun⟩
      · exact ⟨word :: taken, rest, _, _, rfl, by simp, .handler hname htaken hrun, nofun⟩
    · exact ⟨word :: taken, rest, _, _, rfl, by simp, .argument hname htaken, nofun⟩

/-! ### Turns in a row -/

/-- The words at a position split into segments, up to a later position. -/
inductive Splits (unknown : Fallback σ ε) :
    Position σ ε → List (Segment σ ε) → Position σ ε → Prop
  | nil (p : Position σ ε) : Splits unknown p [] p
  | cons {table : Table σ ε} {s : σ} {seg : Segment σ ε} {segs : List (Segment σ ε)}
      {p last : Position σ ε}
      (huses : Uses unknown table s p.words seg.words seg.calls (.executed seg p))
      (h : Splits unknown p segs last) :
      Splits unknown ⟨table, seg.words ++ p.words, s⟩ (seg :: segs) last

namespace Splits

variable {unknown : Fallback σ ε} {p last : Position σ ε} {segs : List (Segment σ ε)}

theorem words_eq (h : Splits unknown p segs last) :
    p.words = segs.flatMap Segment.words ++ last.words := by
  induction h with
  | nil => rfl
  | cons huses h ih => rw [ih, List.flatMap_cons, List.append_assoc]

theorem executeWith_eq (h : Splits unknown p segs last) :
    Executor.executeWith unknown p.table p.words p.state
      = Executor.executeWith unknown last.table last.words last.state := by
  induction h with
  | nil => rfl
  | @cons table s seg segs p last huses h ih =>
    have hturn := CommandLine.executeWith_eq unknown ⟨table, seg.words ++ p.words, s⟩
    rw [huses.turn_eq] at hturn
    exact hturn.trans ih

/-- The words behind segments make no difference to them, unless an argument is left out. -/
theorem behind (h : Splits unknown p segs last)
    (hsame : last.words ≠ [] ∨ ∀ seg ∈ segs, seg.taken.length = seg.params.length)
    (words' : List Bytes) :
    Splits unknown ⟨p.table, segs.flatMap Segment.words ++ words', p.state⟩ segs
      { last with words := words' } := by
  induction h with
  | nil => exact .nil _
  | @cons table s seg segs p last huses h ih =>
    -- behind this segment there are the later ones and the words that are replaced
    have hfirst : p.words ≠ [] ∨ seg.taken.length = seg.params.length := by
      refine hsame.imp (fun hwords => ?_) fun hall => hall seg List.mem_cons_self
      rw [h.words_eq]
      simp [hwords]
    have hrest := hsame.imp id fun hall seg hseg => hall seg (List.mem_cons_of_mem _ hseg)
    rw [List.flatMap_cons, List.append_assoc]
    exact .cons (huses.behind hfirst _) (ih hrest)

theorem replace (h : Splits unknown p segs last) (hwords : last.words ≠ []) (words' : List Bytes) :
    Splits unknown ⟨p.table, segs.flatMap Segment.words ++ words', p.state⟩ segs
      { last with words := words' } :=
  h.behind (.inl hwords) words'

end Splits

/-- **Every command line splits**, up to its end or to a word that fails. -/
theorem exists_splits (unknown : Fallback σ ε) (n : Nat) : ∀ p : Position σ ε, p.words.length ≤ n →
    ∃ segs last, Splits unknown p segs last ∧ (last.words = [] ∨
      ∃ used rest calls s error, last.words = used ++ rest ∧
        Uses unknown last.table last.state rest used calls (.failed s error)) := by
  induction n with
  | zero =>
    intro p hlength
    exact ⟨[], p, .nil p, .inl (List.eq_nil_of_length_eq_zero (Nat.le_zero.mp hlength))⟩
  | succ n ih =>
    intro p hlength
    by_cases hwords : p.words = []
    · exact ⟨[], p, .nil p, .inl hwords⟩
    · obtain ⟨used, rest, calls, turn, hsplit, hused, huses, hturn⟩ :=
        exists_uses unknown p.table p.state hwords
      cases turn with
      | finished => exact absurd rfl hturn
      | failed s error => exact ⟨[], p, .nil p, .inr ⟨used, rest, calls, s, error, hsplit, huses⟩⟩
      | executed seg q =>
        obtain ⟨rfl, rfl, rfl⟩ := huses.segment
        -- a segment has a word at least, so fewer are left behind it
        have hpos : 0 < seg.words.length := List.length_pos_iff.mpr hused
        rw [hsplit, List.length_append] at hlength
        obtain ⟨segs, last, hsplits, hlast⟩ := ih q (by omega)
        refine ⟨seg :: segs, last, ?_, hlast⟩
        have hcons := Splits.cons huses hsplits
        rwa [← hsplit] at hcons

/-! ### Noting the calls -/

/-- A state, and the calls that led to it. -/
abbrev Noted (σ ε : Type) := σ × List (Invocation σ ε)

/-- The function that does the same and notes its calls. -/
def Handler.noting (h : Handler σ ε) : Handler (Noted σ ε) ε where
  params := h.params
  call values s := (((h.call values s.1).1, s.2 ++ [.function h values]), (h.call values s.1).2)

/-- What is done with other words, with a note of each of them. -/
def Fallback.noting (unknown : Fallback σ ε) : Fallback (Noted σ ε) ε :=
  unknown.map fun handle name s =>
    (((handle name s.1).1, s.2 ++ [.word name]), (handle name s.1).2)

mutual

/-- The directive that does the same and notes its calls, as do all directives below it. -/
def Directive.noting : Directive σ ε → Directive (Noted σ ε) ε
  | .mk help handler subs => .mk help (handler.map Handler.noting) (Table.noting subs)

/-- The directives under the same names, each of which notes its calls. -/
def Table.noting : Table σ ε → Table (Noted σ ε) ε
  | [] => []
  | (name, none) :: rest => (name, none) :: Table.noting rest
  | (name, some d) :: rest => (name, some d.noting) :: Table.noting rest

end

/-- The executor that does the same and notes the calls that it makes. -/
def Executor.noting (e : Executor σ ε) : Executor (Noted σ ε) ε where
  table := Table.noting e.table
  unknown := Fallback.noting e.unknown

namespace Table

theorem noting_cons (name : Bytes) (d : Option (Directive σ ε)) (rest : Table σ ε) :
    noting ((name, d) :: rest) = (name, d.map Directive.noting) :: noting rest := by
  cases d <;> rfl

theorem noting_snoc (table : Table σ ε) (name : Bytes) (d : Option (Directive σ ε)) :
    noting (table ++ [(name, d)]) = noting table ++ [(name, d.map Directive.noting)] := by
  induction table with
  | nil => exact noting_cons name d []
  | cons entry table ih => rw [List.cons_append, noting_cons, noting_cons, ih, List.cons_append]

theorem lookup_noting (table : Table σ ε) (name : Bytes) :
    (noting table).lookup name = (table.lookup name).map (Option.map Directive.noting) := by
  induction table with
  | nil => rfl
  | cons entry table ih =>
    rw [noting_cons, List.lookup_cons, List.lookup_cons]
    by_cases hname : name == entry.1
    · simp [hname]
    · simp [hname, ih]

theorem addSubs_noting (subs : Table σ ε) : ∀ table : Table σ ε,
    Executor.addSubs (noting subs) (noting table)
      = (Executor.addSubs subs table).map noting := by
  induction subs with
  | nil => exact fun _ => rfl
  | cons entry subs ih =>
    intro table
    obtain ⟨name, d⟩ := entry
    rw [noting_cons, Executor.addSubs, Executor.addSubs, lookup_noting, Option.isSome_map]
    by_cases hname : (table.lookup name).isSome
    · simp [hname, Except.map]
    · simp [hname, ← noting_snoc, ih]

end Table

theorem Directive.params_noting (d : Directive σ ε) : d.noting.params = d.params := by
  obtain ⟨help, _ | h, subs⟩ := d <;> rfl

theorem Directive.subs_noting (d : Directive σ ε) : d.noting.subs = Table.noting d.subs := by
  cases d
  rfl

theorem Directive.run_noting (d : Directive σ ε) (values : List ArgValue) (s : σ)
    (log : List (Invocation σ ε)) : d.noting.run values (s, log)
      = (((d.run values s).1, log ++ d.calls values), (d.run values s).2) := by
  obtain ⟨help, _ | h, subs⟩ := d
  · simp [noting, run, calls, handler]
  · rfl

/-- The same words, with the directive that notes its calls. -/
def Segment.noting (seg : Segment σ ε) : Segment (Noted σ ε) ε :=
  { seg with directive := seg.directive.map Directive.noting }

/-- The same position, behind the calls of a log. -/
def Position.noting (log : List (Invocation σ ε)) (p : Position σ ε) : Position (Noted σ ε) ε :=
  ⟨Table.noting p.table, p.words, (p.state, log)⟩

/-- The same turn, behind the calls of a log. -/
def Turn.noting (log : List (Invocation σ ε)) : Turn σ ε → Turn (Noted σ ε) ε
  | finished => finished
  | failed s error => failed (s, log) error
  | executed seg q => executed seg.noting (q.noting log)

/-- **Noting the calls changes nothing**, and the calls that a turn makes are noted. -/
theorem Uses.noting {unknown : Fallback σ ε} {table : Table σ ε} {s : σ} {rest used : List Bytes}
    {calls : List (Invocation σ ε)} {turn : Turn σ ε} (h : Uses unknown table s rest used calls turn)
    (log : List (Invocation σ ε)) : ∃ calls', Uses (Fallback.noting unknown) (Table.noting table)
      (s, log) rest used calls' (turn.noting (log ++ calls)) := by
  cases h with
  | unknown hname hrefused =>
    -- no call is made before the word or its arguments are refused
    rw [List.append_nil]
    refine ⟨_, .unknown (by simp [Table.lookup_noting, hname]) (hrefused.imp_left ?_)⟩
    intro hnone
    simp [Fallback.noting, hnone]
  | rejected hname hdash hunknown hhandle =>
    exact ⟨_, .rejected (by simp [Table.lookup_noting, hname]) hdash
      (by rw [hunknown]; rfl) (by simp [hhandle])⟩
  | passed hname hdash hunknown hhandle =>
    exact ⟨_, .passed (by simp [Table.lookup_noting, hname]) hdash
      (by rw [hunknown]; rfl) (by simp [hhandle])⟩
  | unbound hname =>
    rw [List.append_nil]
    exact ⟨_, .unbound (by simp [Table.lookup_noting, hname])⟩
  | @argument word d taken error hname htaken =>
    rw [List.append_nil]
    rw [← d.params_noting] at htaken
    exact ⟨_, .argument (by simp [Table.lookup_noting, hname]) htaken⟩
  | @handler word d taken values s' error hname htaken hrun =>
    rw [← d.params_noting] at htaken
    exact ⟨_, .handler (by simp [Table.lookup_noting, hname]) htaken
      (by rw [d.run_noting, hrun])⟩
  | @duplicatedSub word d taken values s' sub hname htaken hrun hsubs =>
    rw [← d.params_noting] at htaken
    exact ⟨_, .duplicatedSub (by simp [Table.lookup_noting, hname]) htaken
      (by rw [d.run_noting, hrun]) (by rw [d.subs_noting, Table.addSubs_noting, hsubs]; rfl)⟩
  | @executed word d taken values s' table' hname htaken hrun hsubs =>
    rw [← d.params_noting] at htaken
    exact ⟨_, .executed (by simp [Table.lookup_noting, hname]) htaken
      (by rw [d.run_noting, hrun]) (by rw [d.subs_noting, Table.addSubs_noting, hsubs]; rfl)⟩

/-- The calls of the segments are noted in their order. -/
theorem Splits.noting {unknown : Fallback σ ε} {p last : Position σ ε} {segs : List (Segment σ ε)}
    (h : Splits unknown p segs last) (log : List (Invocation σ ε)) :
    Splits (Fallback.noting unknown) (p.noting log) (segs.map Segment.noting)
      (last.noting (log ++ segs.flatMap Segment.calls)) := by
  induction h generalizing log with
  | nil p =>
    rw [List.flatMap_nil, List.append_nil]
    exact .nil _
  | @cons table s seg segs p last huses h ih =>
    -- the calls of this segment are in the log with which the later ones begin
    have hnoted : Uses (Fallback.noting unknown) (Table.noting table) (s, log) p.words
        seg.noting.words seg.noting.calls (.executed seg.noting (p.noting (log ++ seg.calls))) := by
      obtain ⟨calls', huses'⟩ := huses.noting log
      obtain ⟨-, rfl, -⟩ := huses'.segment
      exact huses'
    rw [List.flatMap_cons, ← List.append_assoc]
    exact .cons hnoted (ih (log ++ seg.calls))

/-! ### Command lines -/

namespace Splits

variable {e : Executor σ ε} {words : List Bytes} {s : σ} {segs : List (Segment σ ε)}
  {last : Position σ ε}

theorem execute_of_end (h : Splits e.unknown ⟨e.table, words, s⟩ segs last)
    (hlast : last.words = []) : e.execute words s = (last.state, none) := by
  have hturn : last.turn e.unknown = .finished := by rw [Position.turn, hlast]
  rw [execute_eq_executeWith, h.executeWith_eq]
  exact executeWith_of_result (congrArg (Turn.result? last.state) hturn)

theorem execute_of_failed (h : Splits e.unknown ⟨e.table, words, s⟩ segs last)
    {used rest : List Bytes} {calls : List (Invocation σ ε)} {s' : σ} {error : ExecuteError ε}
    (hlast : last.words = used ++ rest)
    (huses : Uses e.unknown last.table last.state rest used calls (.failed s' error)) :
    e.execute words s = (s', some error) := by
  have hturn := CommandLine.executeWith_eq e.unknown ⟨last.table, used ++ rest, last.state⟩
  rw [huses.turn_eq] at hturn
  rw [execute_eq_executeWith, h.executeWith_eq, hlast]
  exact hturn

theorem noting_of_failed (h : Splits e.unknown ⟨e.table, words, s⟩ segs last)
    {used rest : List Bytes} {calls : List (Invocation σ ε)} {s' : σ} {error : ExecuteError ε}
    (hlast : last.words = used ++ rest)
    (huses : Uses e.unknown last.table last.state rest used calls (.failed s' error)) :
    e.noting.execute words (s, []) = ((s', segs.flatMap Segment.calls ++ calls), some error) := by
  have hsplits := h.noting []
  rw [List.nil_append] at hsplits
  obtain ⟨calls', huses'⟩ := huses.noting (segs.flatMap Segment.calls)
  exact execute_of_failed (e := e.noting) hsplits hlast huses'

end Splits

/-- **A command line uses every word once and stops cleanly.** The words of a command line split from left
to right into segments, each of them a word that names a directive with one word for each of its
parameters, fewer only at the end of the line and for optional parameters, or a word that names none and
does not start with a dash. If no word is left behind the segments the line succeeds, and the calls made
are those of the segments, in their order: one for each word that names a directive with a function, with
the values of just the words of its segment, and one for each word that names none.
Otherwise the line fails at the word behind them, with the words that were used to find this out. The
calls made are those of the segments and that of this word, which is made if it is the call that failed
or if its sub directives are refused behind it, and not if the word or its arguments are at fault. What
words come behind the used ones makes no difference then to the calls, the state and the error. -/
theorem every_word_is_used_once (e : Executor σ ε) (words : List Bytes) (s : σ) :
    ∃ segs last, Splits e.unknown ⟨e.table, words, s⟩ segs last ∧
      words = segs.flatMap Segment.words ++ last.words ∧
      ((last.words = [] ∧ e.execute words s = (last.state, none) ∧
          e.noting.execute words (s, [])
            = ((last.state, segs.flatMap Segment.calls), none)) ∨
        ∃ used rest calls s' error, last.words = used ++ rest ∧
          Uses e.unknown last.table last.state rest used calls (.failed s' error) ∧
          e.execute words s = (s', some error) ∧
          e.noting.execute words (s, [])
            = ((s', segs.flatMap Segment.calls ++ calls), some error) ∧
          (rest ≠ [] → ∀ rest',
            e.execute (segs.flatMap Segment.words ++ (used ++ rest')) s = (s', some error) ∧
            e.noting.execute (segs.flatMap Segment.words ++ (used ++ rest')) (s, [])
              = ((s', segs.flatMap Segment.calls ++ calls), some error))) := by
  obtain ⟨segs, last, hsplits, hlast⟩ :=
    exists_splits e.unknown words.length ⟨e.table, words, s⟩ (Nat.le_refl _)
  refine ⟨segs, last, hsplits, hsplits.words_eq, ?_⟩
  rcases hlast with hend | ⟨used, rest, calls, s', error, hwords, huses⟩
  · left
    have hnoting := hsplits.noting []
    rw [List.nil_append] at hnoting
    exact ⟨hend, hsplits.execute_of_end hend, Splits.execute_of_end (e := e.noting) hnoting hend⟩
  · right
    refine ⟨used, rest, calls, s', error, hwords, huses, hsplits.execute_of_failed hwords huses,
      hsplits.noting_of_failed hwords huses, ?_⟩
    -- other words behind the used ones split in the same way and fail at the same place
    intro hrest rest'
    have hleft : last.words ≠ [] := by simp [hwords, hrest]
    have hsplits' := hsplits.replace hleft (used ++ rest')
    have huses' := huses.replace hrest rest'
    exact ⟨hsplits'.execute_of_failed rfl huses', hsplits'.noting_of_failed rfl huses'⟩

end TapeMachine.CommandLine
