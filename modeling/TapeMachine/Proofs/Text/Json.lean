/-
What is written in the format is read back.

A number, a text or a list shows where it ends, so that what stands behind it makes no difference. Values are
read from the parts that they are written with.

* `integer?_decimalInt`: numbers; `chars?_escape`, `chars?_flatMap`: the characters of a text;
* `ReadsItem`, `list?_intercalate`: items with commas between them;
* `Reads`: a text that is read as a value, whatever stands behind it;
* `reads_array`, `reads_object`: values that are made of others;
* `Reads.parse?`: a whole text.
-/
import Mathlib.Data.List.Forall2
import Mathlib.Data.List.Nodup
import TapeMachine.Text.Json
import TapeMachine.Text.JsonString
import TapeMachine.Proofs.Text.Layout

namespace TapeMachine.Json

/-! ### Numbers -/

/-- A text that does not go on with a digit. -/
def Ends (rest : List Char) : Prop :=
  ∀ c ∈ rest.head?, c.isDigit = false

theorem takeWhile_isDigit_append {digits rest : List Char} (h : ∀ c ∈ digits, c.isDigit = true)
    (hrest : Ends rest) : (digits ++ rest).takeWhile Char.isDigit = digits ∧
      (digits ++ rest).dropWhile Char.isDigit = rest := by
  rw [List.takeWhile_append_of_pos h, List.dropWhile_append_of_pos h]
  rcases rest with _ | ⟨c, rest⟩
  · exact ⟨List.append_nil _, rfl⟩
  · have hc : ¬ c.isDigit = true := Bool.not_eq_true _ ▸ hrest c rfl
    rw [List.takeWhile_cons_of_neg hc, List.dropWhile_cons_of_neg hc, List.append_nil]
    exact ⟨rfl, rfl⟩

/-- Only zero is written with a zero in front. -/
theorem head?_toDigits_ne {n : Nat} (hpos : 0 < n) : (Nat.toDigits 10 n).head? ≠ some '0' := by
  induction n using Nat.strongRecOn with
  | ind n ih =>
    rw [Nat.toDigits_eq_if (by decide)]
    split
    · next hlt =>
      have hall : ∀ d : Fin 10, 0 < d.val → [Nat.digitChar d].head? ≠ some '0' := by decide
      exact hall ⟨n, hlt⟩ hpos
    · next hle =>
      have hfirst := ih (n / 10) (by omega) (by omega)
      obtain ⟨c, digits, hdigits⟩ := List.exists_cons_of_ne_nil (Nat.toDigits_ne_nil (n := n / 10) (b := 10))
      rw [hdigits] at hfirst ⊢
      exact hfirst

theorem natural?_decimal (n : Nat) {rest : List Char} (hrest : Ends rest) :
    natural? ((decimal n).toList ++ rest) = some (n, rest) := by
  obtain ⟨htake, hdrop⟩ := takeWhile_isDigit_append (fun _ => isDigit_of_mem_decimal (n := n)) hrest
  rw [natural?, htake, hdrop, toList_decimal, Nat.ofDigitChars_ten_toDigits]
  refine if_neg (not_or.mpr ⟨Nat.toDigits_ne_nil, fun ⟨hzero, hlength⟩ => ?_⟩)
  rcases Nat.eq_zero_or_pos n with rfl | hpos
  · rw [Nat.toDigits_zero] at hlength
    exact absurd hlength (by decide)
  · exact head?_toDigits_ne hpos hzero

theorem integer?_minus (rest : List Char) :
    integer? ('-' :: rest) = (natural? rest).map fun (n, rest) => (-n, rest) :=
  rfl

theorem integer?_decimalInt (n : Int) {rest : List Char} (hrest : Ends rest) :
    integer? ((decimalInt n).toList ++ rest) = some (n, rest) := by
  rw [decimalInt]
  split
  · next hneg =>
    have hvalue : -(n.natAbs : Int) = n := by omega
    have hminus : "-".toList = ['-'] := rfl
    rw [String.toList_append, hminus, List.append_assoc, List.singleton_append, integer?_minus,
      natural?_decimal _ hrest, Option.map_some]
    dsimp only
    rw [hvalue]
  · next hnonneg =>
    have hvalue : (n.natAbs : Int) = n := by omega
    have hread := natural?_decimal n.natAbs hrest
    obtain ⟨c, digits, hdigits⟩ := List.exists_cons_of_ne_nil (Nat.toDigits_ne_nil (n := n.natAbs) (b := 10))
    -- a number that is not negative starts with a digit, so it is not read as one with a minus
    have hsign : c ≠ '-' := by
      rintro rfl
      have hdigit := Nat.isDigit_of_mem_toDigits (b := 10) (by decide) (by decide)
        (hdigits ▸ List.mem_cons_self)
      exact absurd hdigit (by decide)
    rw [toList_decimal, hdigits, List.cons_append] at hread ⊢
    rw [integer?, hread]
    · rw [Option.map_some]
      dsimp only
      rw [hvalue]
    · rintro rest' heq
      exact hsign (List.cons.inj heq).1

/-! ### Texts -/

open JsonString (escape quote)

theorem hexValue?_hexDigit : ∀ d < 16, hexValue? (hexDigit d) = some d := by
  decide

/-- The digits of a character, the first of which counts most. -/
def nibbles (n : Nat) : List Nat :=
  [n / 4096 % 16, n / 256 % 16, n / 16 % 16, n / 1 % 16]

theorem hexPadded_four (n : Nat) : Quoted.hexPadded 4 n = (nibbles n).map hexDigit :=
  rfl

/-- Four digits are read back as the character that they were made of. -/
theorem hexEscape?_hexPadded {c : Char} (h : c.toNat < 0x10000) :
    hexEscape? (Quoted.hexPadded 4 c.toNat) = some c := by
  have hvalues : ((nibbles c.toNat).map hexDigit).mapM hexValue? = some (nibbles c.toNat) := by
    simp [nibbles, hexValue?_hexDigit, Nat.mod_lt]
  have hsum : (nibbles c.toNat).foldl (fun n d => n * 16 + d) 0 = c.toNat := by
    simp only [nibbles, List.foldl_cons, List.foldl_nil]
    omega
  have hvalid : c.toNat.isValidChar := c.valid
  rw [hexEscape?, hexPadded_four, hvalues, Option.bind_eq_bind, Option.bind_some, hsum, if_pos hvalid,
    Char.ofNat_toNat]

/-- Only characters of four digits are written with digits. -/
theorem lt_of_isEscaped {c : Char} (h : JsonString.isEscaped c = true) : c.toNat < 0x10000 := by
  simp only [JsonString.isEscaped, Bool.or_eq_true, decide_eq_true_eq] at h
  rcases h with ((((h | rfl) | rfl) | rfl) | h) | h
  all_goals first | omega | decide

theorem chars?_quote (rest : List Char) : chars? ('"' :: rest) = some ([], rest) :=
  rfl

theorem chars?_hex {a b c d e : Char} (h : hexEscape? [a, b, c, d] = some e) (t : List Char) :
    chars? ('\\' :: 'u' :: a :: b :: c :: d :: t) = (chars? t).map fun (s, rest) => (e :: s, rest) := by
  rw [chars?, h]

/-- A character that stands for itself. -/
theorem chars?_plain {c : Char} (hquote : c ≠ '"') (hback : c ≠ '\\') (hlow : ¬ c.toNat < 0x20)
    (t : List Char) : chars? (c :: t) = (chars? t).map fun (s, rest) => (c :: s, rest) := by
  rw [chars?]
  · rw [if_neg (not_or.mpr ⟨hback, hlow⟩)]
  · exact hquote
  · rintro _ _ _ _ _ rfl
    exact fun _ => hback rfl
  · rintro _ _ rfl
    exact fun _ => hback rfl

/-- The characters that are escaped by one letter. -/
def shorts : List Char :=
  ['"', '\\', '\n', '\r', '\t', Char.ofNat 8, Char.ofNat 12]

theorem escape_of_not_mem {c : Char} (h : c ∉ shorts) :
    escape c = if JsonString.isEscaped c then JsonString.unicodeEscape c else [c] := by
  simp only [shorts, List.mem_cons, List.not_mem_nil, or_false, not_or] at h
  obtain ⟨hquote, hback, hfeed, hreturn, htab, hback', hpage⟩ := h
  have hcode : ∀ {n : Nat}, c ≠ Char.ofNat n → c.toNat ≠ n := by
    rintro _ hne rfl
    exact hne (Char.ofNat_toNat c).symm
  rw [escape, if_neg hquote, if_neg hback, if_neg hfeed, if_neg hreturn, if_neg htab,
    if_neg (hcode hback'), if_neg (hcode hpage)]

/-- **A character between quotes is read back.** -/
theorem chars?_escape (c : Char) (t : List Char) :
    chars? (escape c ++ t) = (chars? t).map fun (s, rest) => (c :: s, rest) := by
  by_cases hshort : c ∈ shorts
  · simp only [shorts, List.mem_cons, List.not_mem_nil, or_false] at hshort
    rcases hshort with rfl | rfl | rfl | rfl | rfl | rfl | rfl <;> rfl
  rw [escape_of_not_mem hshort]
  split
  · next hescaped =>
    have hread := hexEscape?_hexPadded (lt_of_isEscaped hescaped)
    rw [JsonString.unicodeEscape]
    rw [hexPadded_four, nibbles, List.map_cons, List.map_cons, List.map_cons, List.map_singleton] at hread ⊢
    exact chars?_hex hread t
  · next hplain =>
    have hquote : c ≠ '"' := fun hc => hshort (hc ▸ by decide)
    have hback : c ≠ '\\' := fun hc => hshort (hc ▸ by decide)
    exact chars?_plain hquote hback (fun hlow => hplain (by simp [JsonString.isEscaped, hlow])) t

theorem chars?_flatMap (s rest : List Char) :
    chars? (s.flatMap escape ++ '"' :: rest) = some (s, rest) := by
  induction s with
  | nil => rw [List.flatMap_nil, List.nil_append, chars?_quote]
  | cons c s ih => rw [List.flatMap_cons, List.append_assoc, chars?_escape, ih, Option.map_some]

/-! ### Lists -/

section

variable {α : Type} {close : Char} {item? : Reader α} {texts : List (List Char)} {as : List α}

/-- A text is read as an item in front of a comma and of the closing sign. -/
def ReadsItem (close : Char) (item? : Reader α) (s : List Char) (a : α) : Prop :=
  ∀ c rest, c = ',' ∨ c = close → item? (s ++ c :: rest) = some (a, c :: rest)

theorem length_le_intercalate (texts : List (List Char)) :
    texts.length ≤ ([','].intercalate texts).length + 1 := by
  induction texts with
  | nil => exact Nat.zero_le _
  | cons t texts ih =>
    rcases texts with _ | ⟨u, texts⟩
    · simp
    · rw [List.intercalate_cons_cons, List.length_append, List.length_append, List.length_singleton,
        List.length_cons]
      omega

/-- **Items with commas between them are read one after the other.** -/
theorem items?_intercalate (hclose : close ≠ ',') (h : List.Forall₂ (ReadsItem close item?) texts as)
    (hne : texts ≠ []) (rest : List Char) : ∀ {fuel : Nat}, texts.length ≤ fuel →
      items? close item? fuel ([','].intercalate texts ++ close :: rest) = some (as, rest) := by
  induction h with
  | nil => exact absurd rfl hne
  | @cons t a texts as hitem hitems ih =>
    rintro (_ | fuel) hfuel
    · cases hfuel
    rcases texts with _ | ⟨u, texts⟩
    · cases hitems
      rw [List.intercalate_singleton, items?, hitem close rest (.inr rfl)]
      dsimp only
      rw [if_neg hclose, if_pos rfl]
    · have hmore := ih (List.cons_ne_nil _ _) (Nat.le_of_succ_le_succ hfuel)
      have happend : [','].intercalate (t :: u :: texts) ++ close :: rest
          = t ++ ',' :: ([','].intercalate (u :: texts) ++ close :: rest) := by
        rw [List.intercalate_cons_cons]
        simp only [List.append_assoc, List.cons_append, List.nil_append]
      rw [happend, items?, hitem ',' _ (.inl rfl)]
      dsimp only
      rw [if_pos rfl, hmore, Option.map_some]

theorem list?_intercalate (hclose : close ≠ ',') (hitem : ∀ rest, item? (close :: rest) = none)
    (h : List.Forall₂ (ReadsItem close item?) texts as) (rest : List Char) :
    list? close item? ([','].intercalate texts ++ close :: rest) = some (as, rest) := by
  have hread : texts ≠ [] → items? close item? ([','].intercalate texts ++ close :: rest).length
      ([','].intercalate texts ++ close :: rest) = some (as, rest) := by
    refine fun hne => items?_intercalate hclose h hne rest ?_
    have := length_le_intercalate texts
    rw [List.length_append, List.length_cons]
    omega
  cases h with
  | nil => exact if_pos rfl
  | @cons t a texts as hfirst hitems =>
    -- no item begins with the closing sign
    obtain ⟨c, t, rfl⟩ : ∃ c t', t = c :: t' := by
      refine List.exists_cons_of_ne_nil ?_
      rintro rfl
      have hnone := hfirst close [] (.inr rfl)
      rw [List.nil_append, hitem] at hnone
      cases hnone
    have hne : c ≠ close := by
      rintro rfl
      have hnone := hfirst ',' [] (.inl rfl)
      rw [List.cons_append, hitem] at hnone
      cases hnone
    have hhead : ([','].intercalate ((c :: t) :: texts) ++ close :: rest).head? ≠ some close := by
      rcases texts with _ | ⟨u, texts⟩
      · rw [List.intercalate_singleton]
        simpa using hne
      · rw [List.intercalate_cons_cons]
        simpa using hne
    rw [list?, if_neg hhead]
    exact hread (List.cons_ne_nil _ _)

end

/-! ### Values -/

theorem value?_quote (d : Nat) (rest : List Char) :
    value? (d + 1) ('"' :: rest) = (chars? rest).map fun (s, rest) => (text (String.ofList s), rest) :=
  rfl

theorem value?_bracket (d : Nat) (rest : List Char) :
    value? (d + 1) ('[' :: rest) = (list? ']' (value? d) rest).map fun (items, rest) => (array items, rest) :=
  rfl

theorem value?_brace (d : Nat) (rest : List Char) : value? (d + 1) ('\x7b' :: rest)
    = (list? '\x7d' (namedValue? (value? d)) rest).map fun (members, rest) => (object members, rest) :=
  rfl

/-- A text is read as a value of a depth, whatever stands behind it. -/
def Reads (depth : Nat) (s : List Char) (j : Json) : Prop :=
  ∀ d rest, depth ≤ d → Ends rest → value? d (s ++ rest) = some (j, rest)

variable {depth : Nat} {texts : List (List Char)}

theorem Reads.mono {depth' : Nat} {s : List Char} {j : Json} (h : Reads depth s j) (hle : depth ≤ depth') :
    Reads depth' s j :=
  fun d rest hdepth hrest => h d rest (Nat.le_trans hle hdepth) hrest

theorem reads_null : Reads 1 "null".toList null := by
  rintro (_ | d) rest hdepth -
  · cases hdepth
  · rfl

theorem reads_quote (s : String) : Reads 1 (quote s).toList (text s) := by
  rintro (_ | d) rest hdepth -
  · cases hdepth
  · have hquote : (quote s).toList ++ rest = '"' :: (s.toList.flatMap escape ++ '"' :: rest) := by
      rw [quote, String.toList_append, String.toList_append, String.toList_ofList]
      simp
    rw [hquote, value?_quote, chars?_flatMap, Option.map_some]
    dsimp only
    rw [String.ofList_toList]

/-- What begins like no other value is read as a number. -/
theorem value?_eq_integer? {c : Char} (h : c ∉ ['n', '"', '[', '\x7b']) (d : Nat) (rest : List Char) :
    value? (d + 1) (c :: rest) = (integer? (c :: rest)).map fun (n, rest) => (number n, rest) := by
  simp only [List.mem_cons, not_or] at h
  obtain ⟨hnull, htext, harray, hobject, -⟩ := h
  rw [value?]
  · exact fun _ heq => hnull (List.cons.inj heq).1
  · exact fun _ heq => htext (List.cons.inj heq).1
  · exact fun _ heq => harray (List.cons.inj heq).1
  · exact fun _ heq => hobject (List.cons.inj heq).1

/-- No value begins with a sign that ends a list. -/
theorem value?_of_close {close : Char} (h : close = ']' ∨ close = '\x7d') (d : Nat) (rest : List Char) :
    value? d (close :: rest) = none := by
  rcases d with _ | d
  · rfl
  · rcases h with rfl | rfl
    · rw [value?_eq_integer? (by decide)]
      rfl
    · rw [value?_eq_integer? (by decide)]
      rfl

theorem mem_decimalInt {n : Int} {c : Char} (h : c ∈ (decimalInt n).toList) : c.isDigit = true ∨ c = '-' := by
  rw [decimalInt] at h
  split at h
  · rw [String.toList_append, List.mem_append] at h
    exact h.symm.imp isDigit_of_mem_decimal (by simpa using ·)
  · exact .inl (isDigit_of_mem_decimal h)

theorem exists_cons_decimalInt (n : Int) : ∃ c digits, (decimalInt n).toList = c :: digits := by
  rw [decimalInt]
  split
  · exact ⟨'-', (decimal n.natAbs).toList, String.toList_append⟩
  · rw [toList_decimal]
    exact List.exists_cons_of_ne_nil Nat.toDigits_ne_nil

theorem reads_decimalInt (n : Int) : Reads 1 (decimalInt n).toList (number n) := by
  rintro (_ | d) rest hdepth hrest
  · cases hdepth
  · have hread := integer?_decimalInt n hrest
    obtain ⟨c, digits, hdigits⟩ := exists_cons_decimalInt n
    have hc : c ∉ ['n', '"', '[', '\x7b'] := by
      have hsign := mem_decimalInt (hdigits ▸ List.mem_cons_self)
      simp only [List.mem_cons, List.not_mem_nil, or_false]
      rintro (rfl | rfl | rfl | rfl) <;> exact absurd hsign (by decide)
    rw [hdigits, List.cons_append] at hread ⊢
    rw [value?_eq_integer? hc, hread]
    rfl

theorem Ends.cons {c : Char} (h : c.isDigit = false) (rest : List Char) : Ends (c :: rest) := by
  intro c' hc'
  cases hc'
  exact h

theorem decimalInt_natCast (n : Nat) : decimalInt n = decimal n :=
  if_neg (by omega)

theorem reads_decimal (n : Nat) : Reads 1 (decimal n).toList (number n) := by
  rw [← decimalInt_natCast]
  exact reads_decimalInt n

theorem reads_array {items : List Json} (h : List.Forall₂ (Reads depth) texts items) :
    Reads (depth + 1) ('[' :: ([','].intercalate texts ++ [']'])) (array items) := by
  rintro (_ | d) rest hdepth -
  · cases hdepth
  · have hitems : List.Forall₂ (ReadsItem ']' (value? d)) texts items := by
      refine h.imp fun t j hreads c rest hc => ?_
      refine hreads d _ (Nat.le_of_succ_le_succ hdepth) (.cons ?_ rest)
      rcases hc with rfl | rfl <;> rfl
    have hlist := list?_intercalate (by decide) (value?_of_close (.inl rfl) d) hitems rest
    rw [List.cons_append, List.append_assoc, List.singleton_append, value?_bracket, hlist]
    rfl

theorem reads_object {members : List (String × Json)} (h : List.Forall₂ (fun t member =>
      ∃ v, t = (quote member.1).toList ++ ':' :: v ∧ Reads depth v member.2) texts members) :
    Reads (depth + 1) ('\x7b' :: ([','].intercalate texts ++ ['\x7d'])) (object members) := by
  rintro (_ | d) rest hdepth -
  · cases hdepth
  · have hitems : List.Forall₂ (ReadsItem '\x7d' (namedValue? (value? d))) texts members := by
      refine h.imp ?_
      rintro t ⟨name, j⟩ ⟨v, ht, hreads⟩ c rest hc
      have hvalue := hreads d (c :: rest) (Nat.le_of_succ_le_succ hdepth)
        (.cons (by rcases hc with rfl | rfl <;> rfl) rest)
      have hquote : t ++ c :: rest
          = '"' :: (name.toList.flatMap escape ++ '"' :: ':' :: (v ++ c :: rest)) := by
        rw [ht, quote, String.toList_append, String.toList_append, String.toList_ofList]
        simp
      rw [hquote, namedValue?, chars?_flatMap]
      show (value? d (v ++ c :: rest)).map _ = _
      rw [hvalue, Option.map_some]
      dsimp only
      rw [String.ofList_toList]
    have hlist := list?_intercalate (by decide) (fun _ => rfl) hitems rest
    rw [List.cons_append, List.append_assoc, List.singleton_append, value?_brace, hlist]
    rfl

theorem Reads.parse? {s : String} {j : Json} (h : Reads depth s.toList j) (hdepth : depth ≤ s.length + 1) :
    parse? s = some j := by
  have hread := h (s.length + 1) [] hdepth nofun
  rw [List.append_nil] at hread
  rw [Json.parse?, hread]

/-! ### Members -/

/-- **Where no name comes twice, a member is what stands behind its name.** -/
theorem member?_object_eq_some_iff {members : List (String × Json)} (h : (members.map Prod.fst).Nodup)
    {name : String} {j : Json} : member? name (object members) = some j ↔ (name, j) ∈ members := by
  rw [member?, List.lookup_eq_some_iff, ← List.mem_reverse]
  constructor
  · rintro ⟨before, after, heq, -⟩
    rw [heq]
    exact List.mem_append_right _ List.mem_cons_self
  · intro hmem
    obtain ⟨before, after, heq⟩ := List.append_of_mem hmem
    refine ⟨before, after, heq, fun member hmember => ?_⟩
    have hnodup : (members.reverse.map Prod.fst).Nodup := by
      rw [List.map_reverse]
      exact List.nodup_reverse.mpr h
    rw [heq, List.map_append, List.map_cons] at hnodup
    have hne := (List.nodup_append.mp hnodup).2.2 member.1 (List.mem_map_of_mem hmember) name
      List.mem_cons_self
    exact bne_iff_ne.mpr hne.symm

end TapeMachine.Json
