/-
The output in a frame.

The text of a frame has its fields behind each other, and only the name of the output field is followed by
what may be any text. The quotes in front of it tell the fields apart, so the output can be found in the
text, whatever the other fields are.

* `escape_append_inj`: the characters inside quotes are a code;
* `IsWord`, `isWord_word`: the fields in front of the output are a code, too;
* `toList_json`: the text of a frame in these words;
* `output_of_json`: the text of a frame determines its output.
-/
import TapeMachine.Proofs.Display.Columns
import TapeMachine.Proofs.Display.Output
import TapeMachine.Proofs.Text.Parts
import TapeMachine.Web.Frame

namespace TapeMachine.Web

open Display (IsShown isShown_of_mem_output)
open JsonString (escape quote)

/-! ### Quoted texts -/

/-- What stands behind the backslash for a character of an output that is escaped. -/
def escapes : List (Char × List Char) :=
  [('"', ['"']), ('\\', ['\\']), ('\n', ['n']), ('\t', ['t']), ('<', ['u', '0', '0', '3', 'c']),
    ('>', ['u', '0', '0', '3', 'e']), ('&', ['u', '0', '0', '2', '6'])]

theorem escape_cases {c : Char} (h : IsShown c) :
    (∃ t, (c, t) ∈ escapes ∧ escape c = '\\' :: t) ∨ (c ≠ '\\' ∧ c ≠ '"' ∧ escape c = [c]) := by
  by_cases hmem : ∃ t, (c, t) ∈ escapes
  · obtain ⟨t, ht⟩ := hmem
    have hall : ∀ p ∈ escapes, escape p.1 = '\\' :: p.2 := by decide
    exact .inl ⟨t, ht, hall _ ht⟩
  · -- what is shown and has no entry in the table is in the printable range, where nothing is escaped
    have hne : ∀ p ∈ escapes, c ≠ p.1 := by
      rintro ⟨d, t⟩ hp rfl
      exact hmem ⟨t, hp⟩
    simp only [escapes, List.forall_mem_cons] at hne
    obtain ⟨hquote, hback, hfeed, htab, hlt, hgt, hand, -⟩ := hne
    refine .inr ⟨hback, hquote, ?_⟩
    have hrange := (h.resolve_left hfeed).resolve_left htab
    have hreturn : c ≠ '\r' := by
      rintro rfl
      exact absurd hrange (by decide)
    have hplain : JsonString.isEscaped c = false := by
      simp only [JsonString.isEscaped, hlt, hgt, hand, decide_false, Bool.or_false,
        Bool.or_eq_false_iff, decide_eq_false_iff_not]
      omega
    rw [escape, if_neg hquote, if_neg hback, if_neg hfeed, if_neg hreturn, if_neg htab,
      if_neg (by omega), if_neg (by omega), hplain, if_neg Bool.false_ne_true]

/-- **A character inside quotes shows itself** and where it ends. -/
theorem escape_append_inj {a b : Char} (ha : IsShown a) (hb : IsShown b) {x y : List Char}
    (h : escape a ++ x = escape b ++ y) : a = b ∧ x = y := by
  have hcode : ∀ p ∈ escapes, ∀ q ∈ escapes, p.2 <+: q.2 → p = q := by decide
  rcases escape_cases ha with ⟨t, ht, hat⟩ | ⟨haback, -, hat⟩ <;>
    rcases escape_cases hb with ⟨u, hu, hbu⟩ | ⟨hbback, -, hbu⟩ <;>
    rw [hat, hbu] at h
  · have htail : t ++ x = u ++ y := (List.cons.inj h).2
    -- one of the two escapes begins with the other
    have hsame : (a, t) = (b, u) := by
      have hx : t <+: u ++ y := htail ▸ List.prefix_append t x
      rcases List.prefix_or_prefix_of_prefix hx (List.prefix_append u y) with htu | hut
      · exact hcode _ ht _ hu htu
      · exact (hcode _ hu _ ht hut).symm
    cases hsame
    exact ⟨rfl, List.append_cancel_left htail⟩
  · exact absurd (List.cons.inj h).1.symm hbback
  · exact absurd (List.cons.inj h).1 haback
  · exact List.cons.inj h

/-- No character inside quotes is their end. -/
theorem quote_ne_escape {c : Char} (h : IsShown c) (x u : List Char) : '"' :: x ≠ escape c ++ u := by
  rcases escape_cases h with ⟨t, -, hc⟩ | ⟨-, hne, hc⟩
  · rw [hc]
    exact fun heq => absurd (List.cons.inj heq).1 (by decide)
  · rw [hc]
    exact fun heq => hne (List.cons.inj heq).1.symm

/-! ### The fields in front of the output -/

/-- A field, its name behind the quote that opens it, with the quote that opens the name of the next
field. -/
def word (field : String × String) : List Char :=
  field.1.toList.flatMap escape ++ '"' :: ':' :: field.2.toList ++ [',', '"']

/-- The word of a field in front of the output: what is behind its name has no quotes, or is a command. -/
inductive IsWord : List Char → Prop
  | bare {name value : List Char} (hname : '"' ∉ name) (hvalue : '"' ∉ value)
    (hcommand : name ≠ "command".toList) (houtput : name ≠ "output".toList) :
    IsWord (name ++ '"' :: (value ++ ['"']))
  | command {symbol : List Char} (h : '"' ∉ symbol) :
    IsWord ("command".toList ++ '"' :: ([':'] ++ '"' :: (symbol ++ '"' :: ([','] ++ ['"']))))

/-- **A word shows itself** and where it ends. -/
theorem IsWord.append_inj {w w' x y : List Char} (hw : IsWord w) (hw' : IsWord w')
    (h : w ++ x = w' ++ y) : w = w' ∧ x = y := by
  -- a name ends at the first quote behind it, a value without quotes at the quote that opens the next
  -- name; only the value of the command is quoted itself
  have hcommand : '"' ∉ "command".toList := by decide
  cases hw with
  | @bare name value hname hvalue hne =>
    cases hw' with
    | @bare name' value' hname' hvalue' =>
      simp only [List.append_assoc, List.cons_append, List.nil_append] at h
      obtain ⟨rfl, hrest⟩ := append_cons_inj hname hname' h
      obtain ⟨rfl, hend⟩ := append_cons_inj hvalue hvalue' hrest
      exact ⟨rfl, hend⟩
    | command =>
      rw [List.append_assoc, List.append_assoc] at h
      exact absurd (append_cons_inj hname hcommand h).1 hne
  | @command symbol hsymbol =>
    cases hw' with
    | @bare name' _ hname' _ hne =>
      rw [List.append_assoc, List.append_assoc] at h
      exact absurd (append_cons_inj hcommand hname' h).1.symm hne
    | @command symbol' hsymbol' =>
      simp only [List.append_assoc, List.cons_append, List.nil_append] at h
      have hbehind := List.append_cancel_left h
      simp only [List.cons.injEq, true_and] at hbehind
      obtain ⟨rfl, hend⟩ := append_cons_inj hsymbol hsymbol' hbehind
      simp only [List.cons.injEq, true_and] at hend
      exact ⟨rfl, hend⟩

/-- The name of the output begins no word. -/
theorem IsWord.ne_output {w : List Char} (hw : IsWord w) (x u : List Char) :
    "output".toList ++ '"' :: x ≠ w ++ u := by
  have houtput : '"' ∉ "output".toList := by decide
  intro h
  cases hw with
  | bare hname _ _ hne =>
    rw [List.append_assoc] at h
    exact hne (append_cons_inj houtput hname h).1.symm
  | command =>
    rw [List.append_assoc] at h
    exact absurd (append_cons_inj houtput (by decide) h).1 (by decide)

theorem isWord_bare {name value : String}
    (h : '"' ∉ name.toList.flatMap escape ∧ name.toList.flatMap escape ≠ "command".toList ∧
      name.toList.flatMap escape ≠ "output".toList)
    (hvalue : '"' ∉ value.toList) : IsWord (word (name, value)) := by
  have hword : word (name, value) = name.toList.flatMap escape
      ++ '"' :: ((':' :: (value.toList ++ [','])) ++ ['"']) := by
    rw [word]
    simp only [List.append_assoc, List.cons_append, List.nil_append]
  rw [hword]
  refine .bare h.1 ?_ h.2.1 h.2.2
  simp only [List.mem_cons, List.mem_append, List.not_mem_nil, or_false, not_or]
  exact ⟨by decide, hvalue, by decide⟩

namespace Frame

/-- The fields in front of the output. -/
def leading (f : Frame) : List (String × String) :=
  ("step", decimal f.step) ::
    (f.action.map fun (c, _) => ("command", quote c.symbol)).toList ++
    [("position", match f.action with
        | some (_, position) => decimal position
        | none => "-1"),
      ("tape", tapeJson f.tape),
      ("pointer", decimal f.pointer),
      ("pc", decimal f.pc)]

theorem fields_eq (f : Frame) : ∃ trailing,
    f.fields = f.leading ++ ("output", quote (Display.output f.output)) :: trailing := by
  unfold fields leading
  simp only [List.append_assoc, List.cons_append, List.nil_append]
  exact ⟨_, rfl⟩

theorem quote_not_mem_decimal (n : Nat) : '"' ∉ (decimal n).toList := fun h =>
  absurd (isDigit_of_mem_decimal h) (by decide)

theorem quote_not_mem_tapeJson (tape : Option Bytes) : '"' ∉ (tapeJson tape).toList := by
  rcases tape with _ | cells
  · decide
  · have hcells : ∀ c ∈ [','].intercalate (cells.map fun b => (decimal b.toNat).toList), c ≠ '"' := by
      refine forall_mem_intercalate (List.forall_mem_singleton.mpr (by decide))
        (List.forall_mem_map.mpr fun b _ c hc hquote => ?_)
      exact quote_not_mem_decimal b.toNat (hquote ▸ hc)
    have hlist : (tapeJson (some cells)).toList
        = '[' :: ([','].intercalate (cells.map fun b => (decimal b.toNat).toList) ++ [']']) := by
      rw [tapeJson, String.toList_append, String.toList_append, String.toList_intercalate,
        List.map_map]
      rfl
    rw [hlist, List.mem_cons, List.mem_append, List.mem_singleton, not_or, not_or]
    exact ⟨by decide, fun h => hcells _ h rfl, by decide⟩

/-- **The fields in front of the output are words.** -/
theorem isWord_word {f : Frame} : ∀ field ∈ f.leading, IsWord (word field) := by
  have hposition : '"' ∉ (match f.action with
      | some (_, position) => decimal position
      | none => "-1" : String).toList := by
    rcases f.action with _ | ⟨c, position⟩
    · decide
    · exact quote_not_mem_decimal position
  intro field hfield
  simp only [leading, List.cons_append, List.mem_cons, List.mem_append, List.not_mem_nil, or_false]
    at hfield
  rcases hfield with rfl | hcommand | rfl | rfl | rfl | rfl
  · exact isWord_bare (by decide) (quote_not_mem_decimal _)
  · obtain ⟨⟨c, position⟩, -, rfl⟩ := Option.map_eq_some_iff.mp (Option.mem_toList.mp hcommand)
    have hsymbol : '"' ∉ c.symbol.toList.flatMap escape := by cases c <;> decide
    -- the command is the one quoted value among these fields
    have hword : word ("command", quote c.symbol) = "command".toList
        ++ '"' :: ([':'] ++ '"' :: (c.symbol.toList.flatMap escape ++ '"' :: ([','] ++ ['"']))) := by
      cases c <;> decide
    rw [hword]
    exact .command hsymbol
  · exact isWord_bare (by decide) hposition
  · exact isWord_bare (by decide) (quote_not_mem_tapeJson _)
  · exact isWord_bare (by decide) (quote_not_mem_decimal _)
  · exact isWord_bare (by decide) (quote_not_mem_decimal _)

/-- The text of a field. -/
def member (field : String × String) : List Char :=
  (quote field.1 ++ ":" ++ field.2).toList

theorem member_eq (field : String × String) :
    member field = '"' :: (field.1.toList.flatMap escape ++ '"' :: ':' :: field.2.toList) := by
  rw [member, quote]
  simp only [String.toList_append, String.toList_ofList, List.append_assoc]
  rfl

theorem toList_json_eq (f : Frame) :
    f.json.toList = '\x7b' :: ([','].intercalate (f.fields.map member) ++ ['\x7d']) := by
  rw [json, String.toList_append, String.toList_append, String.toList_intercalate, List.map_map]
  rfl

/-- The fields in front of another one are written as words. -/
theorem intercalate_members (fields rest : List (String × String)) (field : String × String) :
    ∃ tail, [','].intercalate ((fields ++ field :: rest).map member) = '"' :: (fields.flatMap word
      ++ (field.1.toList.flatMap escape ++ '"' :: ':' :: (field.2.toList ++ tail))) := by
  induction fields with
  | nil =>
    refine ⟨(rest.map member).flatMap (',' :: ·), ?_⟩
    rw [List.nil_append, List.map_cons, intercalate_cons, member_eq]
    simp only [List.append_assoc, List.cons_append]
    rfl
  | cons first fields ih =>
    obtain ⟨tail, htail⟩ := ih
    refine ⟨tail, ?_⟩
    obtain ⟨next, more, hnext⟩ := List.exists_cons_of_ne_nil
      (show (fields ++ field :: rest).map member ≠ [] by simp)
    rw [List.cons_append, List.map_cons, hnext, List.intercalate_cons_cons, ← hnext, htail, member_eq,
      List.flatMap_cons, word]
    simp only [List.append_assoc, List.cons_append, List.nil_append]

/-- **The text of a frame**, up to its output and behind it. -/
theorem toList_json (f : Frame) : ∃ tail, f.json.toList = '\x7b' :: '"' :: (f.leading.flatMap word
    ++ ("output".toList ++ '"' :: ([':', '"'] ++ ((Display.output f.output).toList.flatMap escape
      ++ '"' :: tail)))) := by
  obtain ⟨trailing, hfields⟩ := f.fields_eq
  obtain ⟨tail, htail⟩ := intercalate_members f.leading trailing
    ("output", quote (Display.output f.output))
  refine ⟨tail ++ ['\x7d'], ?_⟩
  have hname : "output".toList.flatMap escape = "output".toList := by decide
  rw [toList_json_eq, hfields, htail, hname, quote]
  simp only [String.toList_append, String.toList_ofList, List.append_assoc, List.cons_append,
    List.nil_append]
  rfl

/-- **The text of a frame determines its output**, if that has no backslash. -/
theorem output_of_json {f g : Frame} (hf : '\\'.toUInt8 ∉ f.output) (hg : '\\'.toUInt8 ∉ g.output)
    (h : f.json = g.json) : f.output = g.output := by
  obtain ⟨tail, hjson⟩ := f.toList_json
  obtain ⟨tail', hjson'⟩ := g.toList_json
  rw [h, hjson'] at hjson
  simp only [List.cons.injEq, true_and] at hjson
  -- the fields before the output can be told apart from each other and from it, so both objects have the
  -- output at the same place
  have hcode : ∀ a ∈ g.leading.map word, ∀ b ∈ f.leading.map word, ∀ u v,
      id a ++ u = id b ++ v → a = b ∧ u = v := by
    intro a ha b hb u v heq
    obtain ⟨field, hfield, rfl⟩ := List.mem_map.mp ha
    obtain ⟨field', hfield', rfl⟩ := List.mem_map.mp hb
    exact (isWord_word field hfield).append_inj (isWord_word field' hfield') heq
  have hends : ∀ (k : Frame) x, ∀ w ∈ k.leading.map word, ∀ u,
      "output".toList ++ '"' :: x ≠ id w ++ u := by
    intro k x w hw u
    obtain ⟨field, hfield, rfl⟩ := List.mem_map.mp hw
    exact (isWord_word field hfield).ne_output x u
  have hwords : ∀ k : Frame, k.leading.flatMap word = (k.leading.map word).flatMap id := fun k => by
    rw [List.flatMap_map]
    rfl
  rw [hwords, hwords] at hjson
  obtain ⟨-, hbehind⟩ := flatMap_append_inj hcode (hends f _) (hends g _) hjson
  -- within the quotes no character is escaped to the quote, so both outputs end with it
  have hquoted := List.append_cancel_left (List.cons.inj (List.append_cancel_left hbehind)).2
  obtain ⟨hchars, -⟩ := flatMap_append_inj
    (fun a ha b hb _ _ => escape_append_inj (isShown_of_mem_output ha) (isShown_of_mem_output hb))
    (fun b hb => quote_ne_escape (isShown_of_mem_output hb) _)
    (fun a ha => quote_ne_escape (isShown_of_mem_output ha) _) hquoted
  exact (Display.output_inj hg hf (String.toList_inj.mp hchars)).symm

end Frame

end TapeMachine.Web
