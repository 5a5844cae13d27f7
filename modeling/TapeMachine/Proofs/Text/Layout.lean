/-
Lines laid out in columns.

* `Printable`: lines with one byte to a column (`utf8_of_lt`), made of numbers, spaces and signs;
* `Aligned`: a number at the right end of a field;
* `drop_intercalate`, `intercalate_inj`: fields of one width with a separator between them stand at
  the multiples of a column, and can be read off.
-/
import Mathlib.Algebra.Group.Nat.Defs
import TapeMachine.Proofs.Text.Parts
import TapeMachine.Proofs.Text.Utf8

namespace TapeMachine

/-! ### Printable lines -/

/-- All characters of the line are printable ASCII. -/
def Printable (line : String) : Prop :=
  ∀ c ∈ line.toList, 32 ≤ c.toNat ∧ c.toNat ≤ 126

instance (line : String) : Decidable (Printable line) :=
  decidable_of_iff (line.toList.all fun c => 32 ≤ c.toNat ∧ c.toNat ≤ 126) (by
    simp only [Printable, List.all_eq_true, decide_eq_true_eq])

theorem toList_spaces (n : Nat) : (spaces n).toList = List.replicate n ' ' :=
  String.toList_ofList

theorem toList_padLeft (width : Nat) (s : String) :
    (padLeft width s).toList = List.replicate (width - s.length) ' ' ++ s.toList := by
  rw [padLeft, String.toList_append, toList_spaces]

theorem toList_decimal (n : Nat) : (decimal n).toList = Nat.toDigits 10 n :=
  String.toList_ofList

theorem printable_append {s t : String} (hs : Printable s) (ht : Printable t) : Printable (s ++ t) := by
  intro c hc
  rw [String.toList_append, List.mem_append] at hc
  exact hc.elim (hs c) (ht c)

theorem printable_spaces (n : Nat) : Printable (spaces n) := by
  intro c hc
  rw [toList_spaces] at hc
  rw [List.eq_of_mem_replicate hc]
  decide

theorem isDigit_of_mem_decimal {n : Nat} {c : Char} (h : c ∈ (decimal n).toList) :
    c.isDigit = true := by
  rw [toList_decimal] at h
  exact Nat.isDigit_of_mem_toDigits (by decide) (by decide) h

theorem printable_decimal (n : Nat) : Printable (decimal n) := by
  intro c hc
  obtain ⟨hle, hge⟩ := Char.isDigit_iff_toNat.mp (isDigit_of_mem_decimal hc)
  have hzero : '0'.toNat = 48 := rfl
  have hnine : '9'.toNat = 57 := rfl
  omega

theorem printable_decimalInt (n : Int) : Printable (decimalInt n) := by
  unfold decimalInt
  split
  · exact printable_append (by decide) (printable_decimal _)
  · exact printable_decimal _

theorem printable_padLeft {s : String} (h : Printable s) (width : Nat) : Printable (padLeft width s) :=
  printable_append (printable_spaces _) h

/-- A line of ASCII has one byte to a column. -/
theorem utf8_of_lt {s : String} (h : ∀ c ∈ s.toList, c.toNat < 128) :
    utf8 s = s.toList.map fun c => UInt8.ofNat c.toNat := by
  rw [utf8_eq, List.map_eq_flatMap, List.flatMap_def, List.flatMap_def]
  exact congrArg List.flatten (List.map_congr_left fun c hc => Utf8.encodeChar_of_lt (h c hc))

theorem utf8_of_printable {s : String} (h : Printable s) :
    utf8 s = s.toList.map fun c => UInt8.ofNat c.toNat := by
  refine utf8_of_lt fun c hc => ?_
  have hrange := h c hc
  omega

/-- A printable line is one line. -/
theorem feed_not_mem_utf8 {s : String} (h : Printable s) : 10 ∉ utf8 s := by
  rw [utf8_of_printable h, List.mem_map]
  rintro ⟨c, hc, hfeed⟩
  have hrange := h c hc
  have hvalue : c.toNat = 10 := by
    rw [← Utf8.toNat_ofNat_of_lt (n := c.toNat) (by omega), hfeed]
    rfl
  omega

/-! ### Numbers in fields -/

/-- The decimal digits of a number stand at the right end of a field, with nothing but spaces in
front of them. -/
def Aligned (width : Nat) (field : List Char) (n : Nat) : Prop :=
  field.length = width ∧ ∃ k, field = List.replicate k ' ' ++ Nat.toDigits 10 n

theorem aligned_padLeft {width n : Nat} (h : n < 10 ^ width) (hwidth : 0 < width) :
    Aligned width (padLeft width (decimal n)).toList n := by
  have hdigits : (Nat.toDigits 10 n).length ≤ width :=
    (Nat.length_toDigits_le_iff (by decide) hwidth).mpr h
  have hlength : (decimal n).length = (Nat.toDigits 10 n).length := by
    rw [← String.length_toList, toList_decimal]
  rw [toList_padLeft, toList_decimal, hlength]
  refine ⟨?_, _, rfl⟩
  rw [List.length_append, List.length_replicate]
  omega

/-- A field holds no two numbers. -/
theorem Aligned.unique {width m n : Nat} {field : List Char} (hm : Aligned width field m)
    (hn : Aligned width field n) : m = n := by
  -- no digit is a space
  have hdrop : ∀ k v : Nat,
      (List.replicate k ' ' ++ Nat.toDigits 10 v).dropWhile (· = ' ') = Nat.toDigits 10 v := by
    intro k v
    rw [List.dropWhile_append_of_pos (by simp)]
    rcases hdigits : Nat.toDigits 10 v with _ | ⟨d, ds⟩
    · rfl
    · have hdigit := Nat.isDigit_of_mem_toDigits (b := 10) (n := v) (c := d) (by decide) (by decide)
        (by rw [hdigits]; exact List.mem_cons_self)
      rw [List.dropWhile_cons_of_neg]
      rw [decide_eq_true_eq]
      rintro rfl
      exact absurd hdigit (by decide)
  obtain ⟨-, k, hk⟩ := hm
  obtain ⟨-, l, hl⟩ := hn
  have hdigits : Nat.toDigits 10 m = Nat.toDigits 10 n := by
    rw [← hdrop k m, ← hk, hl, hdrop]
  rw [← Nat.ofDigitChars_ten_toDigits (n := m), hdigits, Nat.ofDigitChars_ten_toDigits]

theorem getLast?_toDigits (n : Nat) : (Nat.toDigits 10 n).getLast? = some (Nat.digitChar (n % 10)) := by
  rcases Nat.lt_or_ge n 10 with h | h
  · rw [Nat.toDigits_of_lt_base h, Nat.mod_eq_of_lt h]
    rfl
  · rw [Nat.toDigits_of_base_le (by decide) h, List.getLast?_concat]

/-- The last digit of a number stands in the last column of its field. -/
theorem Aligned.getLast? {width n : Nat} {field : List Char} (h : Aligned width field n) :
    field.getLast? = some (Nat.digitChar (n % 10)) := by
  obtain ⟨-, k, rfl⟩ := h
  rw [List.getLast?_append, getLast?_toDigits]
  rfl

/-! ### Fields with a separator between them -/

section Fields

variable {α : Type}

theorem intercalate_cons (sep field : List α) (fields : List (List α)) :
    sep.intercalate (field :: fields) = field ++ fields.flatMap (sep ++ ·) := by
  induction fields generalizing field with
  | nil => rw [List.intercalate_singleton, List.flatMap_nil, List.append_nil]
  | cons next fields ih =>
    rw [List.intercalate_cons_cons, ih, List.flatMap_cons, List.append_assoc, List.append_assoc]

/-- What holds in the separator and in all fields holds in the line. -/
theorem forall_mem_intercalate {P : α → Prop} {sep : List α} {fields : List (List α)}
    (hsep : ∀ c ∈ sep, P c) (h : ∀ f ∈ fields, ∀ c ∈ f, P c) :
    ∀ c ∈ sep.intercalate fields, P c := by
  rcases fields with _ | ⟨first, fields⟩
  · exact nofun
  · intro c hc
    rw [intercalate_cons, List.mem_append, List.mem_flatMap] at hc
    rcases hc with hc | ⟨f, hf, hc⟩
    · exact h first List.mem_cons_self c hc
    · exact (List.mem_append.mp hc).elim (hsep c) (h f (List.mem_cons_of_mem _ hf) c)

variable {sep : α} {width : Nat}

/-- **A field and what follows it** stand behind as many columns as the fields before it take. -/
theorem drop_intercalate {fields : List (List α)} (hwidth : ∀ f ∈ fields, f.length = width)
    {i : Nat} {field : List α} (hi : fields[i]? = some field) :
    ([sep].intercalate fields).drop ((width + 1) * i)
      = field ++ (fields.drop (i + 1)).flatMap (sep :: ·) := by
  induction fields generalizing i with
  | nil => cases hi
  | cons first fields ih =>
    rcases i with _ | i
    · cases hi
      rw [Nat.mul_zero, List.drop_zero, intercalate_cons]
      rfl
    · rw [List.getElem?_cons_succ] at hi
      rcases fields with _ | ⟨next, fields⟩
      · cases hi
      have hfirst : (first ++ [sep]).length = width + 1 := by
        rw [List.length_append, hwidth first List.mem_cons_self]
        rfl
      rw [List.intercalate_cons_cons, Nat.mul_succ, Nat.add_comm, ← List.drop_drop,
        List.drop_left' hfirst]
      exact ih (fun f hf => hwidth f (List.mem_cons_of_mem _ hf)) hi

/-- A line is no longer than its fields and the separators between them. -/
theorem length_intercalate_le {fields : List (List α)} (hwidth : ∀ f ∈ fields, f.length = width) :
    ([sep].intercalate fields).length ≤ (width + 1) * fields.length := by
  induction fields with
  | nil => exact Nat.zero_le _
  | cons first fields ih =>
    obtain ⟨hfirst, hwidth⟩ := List.forall_mem_cons.mp hwidth
    rw [List.length_cons, Nat.mul_succ]
    rcases fields with _ | ⟨next, fields⟩
    · rw [List.intercalate_singleton, hfirst]
      omega
    · have hrest := ih hwidth
      rw [List.intercalate_cons_cons, List.length_append, List.length_append, hfirst,
        List.length_singleton]
      omega

/-- **Fields can be read off the line**, if they are not empty. -/
theorem intercalate_inj {fs gs : List (List α)} (hpos : 0 < width)
    (hf : ∀ f ∈ fs, f.length = width) (hg : ∀ g ∈ gs, g.length = width)
    (h : [sep].intercalate fs = [sep].intercalate gs) : fs = gs := by
  have hlength : ∀ f fs, f.length = width → ([sep].intercalate (f :: fs)).length ≠ 0 := by
    intro f fs hf
    rw [intercalate_cons, List.length_append, hf]
    omega
  rcases fs with _ | ⟨f, fs⟩ <;> rcases gs with _ | ⟨g, gs⟩
  · rfl
  · exact absurd (congrArg List.length h).symm (hlength g gs (hg g List.mem_cons_self))
  · exact absurd (congrArg List.length h) (hlength f fs (hf f List.mem_cons_self))
  · obtain ⟨hf, hfs⟩ := List.forall_mem_cons.mp hf
    obtain ⟨hg, hgs⟩ := List.forall_mem_cons.mp hg
    rw [intercalate_cons, intercalate_cons] at h
    obtain ⟨rfl, hrest⟩ := List.append_inj h (hf.trans hg.symm)
    -- behind the first field every field with the separator in front of it is a code word
    have hcode : ∀ a ∈ fs, ∀ b ∈ gs, ∀ u v, [sep] ++ a ++ u = [sep] ++ b ++ v → a = b ∧ u = v :=
      fun a ha b hb _ _ heq => List.append_inj (List.cons.inj heq).2 ((hfs a ha).trans (hgs b hb).symm)
    have hnil : ∀ (b u : List α), [] ≠ [sep] ++ b ++ u := fun _ _ => nofun
    obtain ⟨rfl, -⟩ := flatMap_append_inj hcode (fun b _ => hnil b) (fun a _ => hnil a)
      (congrArg (· ++ []) hrest)
    rfl

end Fields

end TapeMachine
