/-
Names as paths.

A name of letters and low lines is one word, and one label: as a path it leads to the field with this name.

* `Plain`: a letter, with letters and low lines behind it;
* `Token.scan?_of_plain`: such a text is one word;
* `Label.ofName_of_plain`: such a name is the label of a regular field;
* `Path.parse?_of_plain`: as a path it leads to this field.
-/
import Mathlib.Data.List.TakeDrop
import Mathlib.Data.List.TakeWhile
import TapeMachine.Config.Path
import TapeMachine.Proofs.Text.Letter

namespace TapeMachine.Config

/-- A letter of the alphabet, with letters and low lines behind it. -/
structure Plain (cs : List Char) : Prop where
  head : cs.head?.any Char.isAlpha
  all : cs.all fun c => c.isAlpha || c = '_'

instance (cs : List Char) : Decidable (Plain cs) :=
  decidable_of_iff (cs.head?.any Char.isAlpha ∧ cs.all fun c => c.isAlpha || c = '_')
    ⟨fun ⟨head, all⟩ => ⟨head, all⟩, fun h => ⟨h.head, h.all⟩⟩

theorem Plain.cases {cs : List Char} (h : Plain cs) {c : Char} (hc : c ∈ cs) : c.isAlpha ∨ c = '_' := by
  have hc := List.all_eq_true.mp h.all c hc
  rwa [Bool.or_eq_true, decide_eq_true_eq] at hc

namespace Token

theorem toNat_of_between {c : Char} {low high : UInt32} (h : low ≤ c.val ∧ c.val ≤ high) :
    low.toNat ≤ c.toNat ∧ c.toNat ≤ high.toNat :=
  h.imp UInt32.le_iff_toNat_le.mp UInt32.le_iff_toNat_le.mp

theorem toNat_of_isAlpha {c : Char} (h : c.isAlpha) : 0x41 ≤ c.toNat ∧ c.toNat < 0x80 := by
  rcases Bool.or_eq_true_iff.mp h with hupper | hlower
  · have hrange := toNat_of_between (of_decide_eq_true hupper)
    exact ⟨hrange.1, Nat.lt_of_le_of_lt hrange.2 (by decide)⟩
  · have hrange := toNat_of_between ((Bool.and_eq_true_iff.mp hlower).imp of_decide_eq_true of_decide_eq_true)
    exact ⟨Nat.le_trans (by decide) hrange.1, Nat.lt_of_le_of_lt hrange.2 (by decide)⟩

theorem isLetter_of_isAlpha {c : Char} (h : c.isAlpha) : isLetter c := by
  rw [isLetter_eq_isAlpha (toNat_of_isAlpha h).2, h]

theorem continuesName_of_plain {cs : List Char} (h : Plain cs) : ∀ c ∈ cs, continuesName c := by
  intro c hc
  rcases h.cases hc with halpha | hline
  · simp [continuesName, isLetter_of_isAlpha halpha]
  · simp only [continuesName, decide_eq_true hline, Bool.or_true, Bool.true_or]

/-- A letter is none of the characters with a meaning. -/
theorem ne_of_isAlpha {c d : Char} (h : c.isAlpha) (hd : d.isAlpha = false) : c ≠ d := by
  rintro rfl
  rw [h] at hd
  cases hd

theorem isDigit_of_isAlpha {c : Char} (h : c.isAlpha) : c.isDigit = false := by
  refine Bool.eq_false_iff.mpr fun hdigit => ?_
  have hrange := toNat_of_between ((Bool.and_eq_true_iff.mp hdigit).imp of_decide_eq_true of_decide_eq_true)
  exact absurd (Nat.le_trans (toNat_of_isAlpha h).1 hrange.2) (by decide)

theorem isForbidden_of_isAlpha {c : Char} (h : c.isAlpha) : isForbidden c = false := by
  have hrange := toNat_of_isAlpha h
  rw [isForbidden, Bool.or_eq_false_iff, decide_eq_false_iff_not, decide_eq_false_iff_not]
  omega

variable {c : Char} {cs : List Char}

/-- A plain name is a name, to its end. -/
theorem name_of_plain (h : Plain (c :: cs)) : name (c :: cs) = (c :: cs, []) := by
  have hline : c ≠ '_' := ne_of_isAlpha h.head rfl
  have hhash : c ≠ '#' := ne_of_isAlpha h.head rfl
  have htake : (c :: cs).takeWhile continuesName = c :: cs :=
    List.takeWhile_eq_self_iff.mpr (continuesName_of_plain h)
  have hdrop : (c :: cs).dropWhile continuesName = [] :=
    List.dropWhile_eq_nil_iff.mpr (continuesName_of_plain h)
  simp [name, hline, hhash, List.span_eq_takeWhile_dropWhile, htake, hdrop]

theorem wordOrSign?_of_plain (h : Plain (c :: cs)) :
    wordOrSign? (c :: cs) = some (.word (String.ofList (c :: cs)), []) := by
  have hc : c.isAlpha := h.head
  have hbegins : beginsName c := by simp [beginsName, isLetter_of_isAlpha hc]
  unfold wordOrSign?
  split
  · next heq => cases heq; cases hc
  · next heq => cases heq; cases hc
  · next heq => cases heq; cases hc
  · next heq =>
    cases heq
    rw [if_pos hbegins, name_of_plain h]
  · next heq => cases heq

/-- Nothing else begins with a letter. -/
theorem read?_of_plain (h : Plain (c :: cs)) (fuel : Nat) :
    read? (fuel + 1) (c :: cs) = some (.word (String.ofList (c :: cs)), []) := by
  have hhash : c ≠ '#' := ne_of_isAlpha h.head rfl
  have hquote : c ≠ '"' := ne_of_isAlpha h.head rfl
  have hapostrophe : c ≠ '\x27' := ne_of_isAlpha h.head rfl
  have hpoint : c ≠ '.' := ne_of_isAlpha h.head rfl
  have hdigit : c.isDigit = false := isDigit_of_isAlpha h.head
  have hopening : Quote.opening? (c :: cs) = none := by
    simp [Quote.opening?, hhash, hquote, hapostrophe]
  rw [read?, hopening]
  simp [hhash, hquote, hapostrophe, hpoint, hdigit, wordOrSign?_of_plain h]

/-- **A plain name is one word**, which the end of the text closes. -/
theorem scan?_of_plain {cs : List Char} (h : Plain cs) :
    scan? cs = some [.word (String.ofList cs), .comma false] := by
  rcases cs with _ | ⟨c, cs⟩
  · cases h.head
  have hbreak : c ≠ '\n' := ne_of_isAlpha h.head rfl
  have hslash : c ≠ '/' := ne_of_isAlpha h.head rfl
  have hspace : isSpace c = false := by
    simp [isSpace, hbreak, ne_of_isAlpha h.head (d := ' ') rfl, ne_of_isAlpha h.head (d := '\t') rfl,
      ne_of_isAlpha h.head (d := '\r') rfl]
  have hmark : ((c :: cs).head?.any fun c => c.toNat = 0xfeff) = false := by
    have hrange := toNat_of_isAlpha h.head
    simp; omega
  have hallowed : (c :: cs).any isForbidden = false := by
    refine List.any_eq_false.mpr fun d hd => ?_
    rcases h.cases hd with halpha | hline
    · rw [isForbidden_of_isAlpha halpha]
      exact Bool.false_ne_true
    · rw [hline]
      decide
  have hrest (fuel : Nat) : scanFrom (fuel + 1) none true [] = some ([.comma false], []) := rfl
  -- the bound of the scan leaves two rounds: one for the word, one for the end
  rw [scan?, hmark]
  simp only [Bool.false_eq_true, if_false, hallowed, List.length_cons]
  rw [show 2 * (cs.length + 1) + 4 = 2 * cs.length + 4 + 1 + 1 by omega, scanFrom]
  · rw [hspace, read?_of_plain h]
    simp [endsField, hrest]
  · exact hbreak
  · intro _ heq
    exact absurd heq hslash

end Token

/-- A word is a term. -/
theorem Term.readAll?_word (word : String) :
    readAll? (fun fuel => do let t ← Reader.term fuel; Reader.lineEnd; return t) [.word word, .comma false]
      = some (((Reader.constant? word).map Term.atom).getD (.name word)) :=
  rfl

/-- A plain name is the label of a regular field. -/
theorem Label.ofName_of_plain {name : String} (h : Plain name.toList) : ofName name = .field name := by
  have hstart {sign : String} {c : Char} (hsign : sign.toList = [c]) (hc : c.isAlpha = false) :
      name.startsWith sign = false := by
    rw [String.startsWith_string_eq_false_iff, hsign]
    rintro ⟨rest, hrest⟩
    have hhead := h.head
    rw [← hrest, List.singleton_append, List.head?_cons, Option.any_some, hc] at hhead
    cases hhead
  have hline : name.startsWith "_" = false := hstart rfl rfl
  have hhash : name.startsWith "#" = false := hstart rfl rfl
  simp only [ofName, hline, hhash, Bool.false_eq_true, if_false]

/-- **A plain name is a path** to the field with this name, if the word has no other meaning. -/
theorem Path.parse?_of_plain {path : String} (h : Plain path.toList) (hname : Reader.constant? path = none) :
    parse? path = some [.field path] := by
  have hne : ¬path.isEmpty := by
    intro hempty
    rw [String.isEmpty_iff] at hempty
    subst hempty
    cases h.head
  have hread : Term.parseOne? path.toList = some (.name path) := by
    rw [Term.parseOne?, Token.scan?_of_plain h, String.ofList_toList]
    exact (Term.readAll?_word path).trans (by rw [hname]; rfl)
  rw [parse?, if_neg hne, hread, Option.bind_some, labels?, Label.ofName_of_plain h]
  rfl

end TapeMachine.Config
