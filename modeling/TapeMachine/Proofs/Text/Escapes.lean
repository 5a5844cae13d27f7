/-
The grammar of escapes.

A text is a sequence of items: bytes that stand for themselves, characters of several bytes, stray
bytes, and escapes. It is decoded item by item, up to the first backslash that begins no escape.

* `Numeral`, `Escape`, `Item`, `Items`: the grammar, and the bytes that its sentences stand for;
* `escape?_eq_some_iff`, `item?_eq_some_iff`: what is read first is what the grammar says;
* `Items.decode_eq`: the items at the front of a text are decoded, and then what is behind them;
* `exists_items`: every text begins with items, and has nothing behind them or no escape at a backslash;
* `Items.extend`: the items of a text of characters stay its items when more bytes follow;
* `decode_follows_grammar`: what a text is decoded to, where it is not, and how decoding composes.

Design note: which bytes are an item depends on those behind it, because a byte is only stray if no
character begins with it. So `Item` and `Items` have the bytes behind them as a parameter.
-/
import Mathlib.Data.Nat.Digits.Lemmas
import Mathlib.Tactic.IntervalCases
import TapeMachine.Proofs.Text.Utf8
import TapeMachine.Text.Escapes

namespace TapeMachine.Escapes

open Utf8 (encodeChar)

/-- The byte writes a digit in a base, in lower or upper case. -/
def IsDigit (base : Nat) (c : UInt8) (d : Nat) : Prop :=
  d < base ∧ (c = (Nat.digitChar d).toUInt8 ∨ c = (Nat.digitChar d).toUpper.toUInt8)

/-- The bytes write a number in a base, the highest digit first. -/
def Numeral (base : Nat) (t : Bytes) (n : Nat) : Prop :=
  ∃ ds, List.Forall₂ (IsDigit base) t ds ∧ n = Nat.ofDigits base ds.reverse

/-- The letters that stand for one byte behind a backslash. -/
def letters : List (Char × UInt8) :=
  [('a', 7), ('b', 8), ('f', 12), ('n', 10), ('r', 13), ('t', 9), ('v', 11), ('\\', 92)]

/-- What stands behind a backslash is an escape, and stands for some bytes. -/
inductive Escape : Bytes → Bytes → Prop
  | letter {c : Char} {b : UInt8} (h : (c, b) ∈ letters) : Escape [c.toUInt8] [b]
  | hexByte {t : Bytes} {n : Nat} (hlen : t.length = 2) (h : Numeral 16 t n) :
    Escape ('x'.toUInt8 :: t) [UInt8.ofNat n]
  | octalByte {t : Bytes} {n : Nat} (hlen : t.length = 3) (h : Numeral 8 t n) (hn : n ≤ 255) :
    Escape t [UInt8.ofNat n]
  | shortPoint {t : Bytes} {c : Char} (hlen : t.length = 4) (h : Numeral 16 t c.toNat) :
    Escape ('u'.toUInt8 :: t) (encodeChar c)
  | longPoint {t : Bytes} {c : Char} (hlen : t.length = 8) (h : Numeral 16 t c.toNat) :
    Escape ('U'.toUInt8 :: t) (encodeChar c)

/-- In front of the bytes `behind`, a text is one item, and stands for some bytes. -/
inductive Item (behind : Bytes) : Bytes → Bytes → Prop
  | plain {c : UInt8} (h : c < 0x80) (hne : c ≠ '\\'.toUInt8) : Item behind [c] [c]
  | char {c : Char} (h : 0x80 ≤ c.toNat) : Item behind (encodeChar c) (encodeChar c)
  | stray {c : UInt8} (h : 0x80 ≤ c) (hnone : ∀ d s, encodeChar d ++ s ≠ c :: behind) :
    Item behind [c] (encodeChar '\uFFFD')
  | escape {t b : Bytes} (h : Escape t b) : Item behind ('\\'.toUInt8 :: t) b

/-- In front of the bytes `behind`, a text is a sequence of items, and stands for their bytes. -/
inductive Items (behind : Bytes) : Bytes → Bytes → Prop
  | nil : Items behind [] []
  | cons {t b p bs : Bytes} (hitem : Item (p ++ behind) t b) (h : Items behind p bs) :
    Items behind (t ++ p) (b ++ bs)

/-- The bytes begin with a backslash, and no escape begins there. -/
def WrongEscape (s : Bytes) : Prop :=
  ∃ r, s = '\\'.toUInt8 :: r ∧ ∀ t b, Escape t b → ¬ t <+: r

/-! ### Digits -/

theorem isDigit_sixteen_iff {c : UInt8} {d : Nat} : IsDigit 16 c d ↔ hexValue? c = some d := by
  constructor
  · rintro ⟨hd, rfl | rfl⟩ <;> interval_cases d <;> rfl
  · intro h
    simp only [hexValue?, UInt8.le_iff_toNat_le, UInt8.reduceToNat] at h
    -- the byte is in one of the three ranges of digits, so it is known once its value is
    have hcases : (d < 10 ∧ c.toNat = d + 48) ∨
        ((10 ≤ d ∧ d < 16) ∧ (c.toNat = d + 87 ∨ c.toNat = d + 55)) := by
      grind
    rcases hcases with ⟨hd, hc⟩ | ⟨⟨hle, hd⟩, hc | hc⟩
    all_goals
      obtain rfl := (Utf8.ofNat_eq hc.symm).symm
      refine ⟨by omega, ?_⟩
      interval_cases d <;> decide

theorem isDigit_eight_iff {c : UInt8} {d : Nat} : IsDigit 8 c d ↔ octalValue? c = some d := by
  constructor
  · rintro ⟨hd, rfl | rfl⟩ <;> interval_cases d <;> rfl
  · intro h
    simp only [octalValue?, UInt8.le_iff_toNat_le, UInt8.reduceToNat] at h
    obtain ⟨hd, hc⟩ : d < 8 ∧ c.toNat = d + 48 := by
      grind
    obtain rfl := (Utf8.ofNat_eq hc.symm).symm
    refine ⟨hd, ?_⟩
    interval_cases d <;> decide

section Numerals

variable {value? : UInt8 → Option Nat} {base : Nat}

theorem digits?_eq_some_iff (hvalue : ∀ c d, IsDigit base c d ↔ value? c = some d)
    (count : Nat) : ∀ {n m : Nat} {s rest : Bytes},
    digits? value? base count n s = some (m, rest) ↔
      ∃ t ds, s = t ++ rest ∧ t.length = count ∧ List.Forall₂ (IsDigit base) t ds ∧
        m = ds.foldl (fun n d => n * base + d) n := by
  induction count with
  | zero =>
    intro n m s rest
    rw [digits?]
    constructor
    · rintro ⟨⟩
      exact ⟨[], [], rfl, rfl, .nil, rfl⟩
    · rintro ⟨t, ds, rfl, hlen, hds, rfl⟩
      obtain rfl := List.length_eq_zero_iff.mp hlen
      cases hds
      rfl
  | succ count ih =>
    intro n m s rest
    -- both sides need a first byte that writes a digit, and go on behind it
    rcases s with _ | ⟨c, s⟩
    · rw [digits?]
      constructor
      · exact nofun
      · rintro ⟨_ | ⟨c, t⟩, ds, h, hlen, -⟩
        · cases hlen
        · cases h
    · rw [digits?]
      constructor
      · intro h
        rcases hd : value? c with _ | d
        · rw [hd] at h
          cases h
        · rw [hd] at h
          obtain ⟨t, ds, rfl, rfl, hds, rfl⟩ := ih.mp h
          exact ⟨c :: t, d :: ds, rfl, rfl, .cons ((hvalue c d).mpr hd) hds, rfl⟩
      · rintro ⟨_ | ⟨c', t⟩, ds, h, hlen, hds, rfl⟩
        · cases hlen
        · cases h
          cases hds with
          | cons hd hds =>
            rw [(hvalue c _).mp hd]
            exact ih.mpr ⟨t, _, rfl, by simpa using hlen, hds, rfl⟩

theorem digits?_zero_eq_some_iff (hvalue : ∀ c d, IsDigit base c d ↔ value? c = some d)
    {count n : Nat} {s rest : Bytes} : digits? value? base count 0 s = some (n, rest) ↔
      ∃ t, s = t ++ rest ∧ t.length = count ∧ Numeral base t n := by
  rw [digits?_eq_some_iff hvalue]
  have hfold : ∀ ds : List Nat,
      ds.foldl (fun n d => n * base + d) 0 = Nat.ofDigits base ds.reverse := by
    intro ds
    rw [Nat.ofDigits_eq_foldr, List.foldr_reverse]
    simp only [Nat.cast_id, Nat.mul_comm base, Nat.add_comm]
  constructor
  · rintro ⟨t, ds, hs, hlen, hds, rfl⟩
    exact ⟨t, hs, hlen, ds, hds, hfold ds⟩
  · rintro ⟨t, hs, hlen, ds, hds, rfl⟩
    exact ⟨t, ds, hs, hlen, hds, (hfold ds).symm⟩

theorem byte?_eq_some_iff (hvalue : ∀ c d, IsDigit base c d ↔ value? c = some d)
    {count : Nat} {s b rest : Bytes} : byte? value? base count s = some (b, rest) ↔
      ∃ t n, s = t ++ rest ∧ t.length = count ∧ Numeral base t n ∧ n ≤ 255 ∧ b = [UInt8.ofNat n] := by
  rw [byte?]
  constructor
  · intro h
    split at h
    · cases h
    · next n r hdigits =>
      obtain ⟨t, rfl, hlen, hn⟩ := (digits?_zero_eq_some_iff hvalue).mp hdigits
      split at h
      · next hle =>
        cases h
        exact ⟨t, n, rfl, hlen, hn, hle, rfl⟩
      · cases h
  · rintro ⟨t, n, rfl, hlen, hn, hle, rfl⟩
    rw [(digits?_zero_eq_some_iff hvalue).mpr ⟨t, rfl, hlen, hn⟩]
    exact if_pos hle

end Numerals

theorem isCodePoint_iff {n : Nat} : isCodePoint n = true ↔ n.isValidChar := by
  simp only [isCodePoint, Nat.isValidChar, Bool.or_eq_true, Bool.and_eq_true, decide_eq_true_eq]
  omega

theorem codePoint?_eq_some_iff {count : Nat} {s b rest : Bytes} :
    codePoint? count s = some (b, rest) ↔
      ∃ t, ∃ c : Char, s = t ++ rest ∧ t.length = count ∧ Numeral 16 t c.toNat ∧ b = encodeChar c := by
  have hvalue : ∀ c d, IsDigit 16 c d ↔ hexValue? c = some d := fun _ _ => isDigit_sixteen_iff
  rw [codePoint?]
  constructor
  · intro h
    split at h
    · cases h
    · next n r hdigits =>
      obtain ⟨t, rfl, hlen, hn⟩ := (digits?_zero_eq_some_iff hvalue).mp hdigits
      split at h
      · next hvalid =>
        cases h
        have hchar : (Char.ofNat n).toNat = n := Utf8.toNat_val_ofNat (isCodePoint_iff.mp hvalid)
        exact ⟨t, Char.ofNat n, rfl, hlen, hchar.symm ▸ hn, rfl⟩
      · cases h
  · rintro ⟨t, c, rfl, hlen, hn, rfl⟩
    have hvalid : isCodePoint c.toNat = true := isCodePoint_iff.mpr c.valid
    rw [(digits?_zero_eq_some_iff hvalue).mpr ⟨t, rfl, hlen, hn⟩]
    dsimp only
    rw [if_pos hvalid, Char.ofNat_toNat]

theorem lt_of_isDigit {base : Nat} {t : Bytes} {ds : List Nat}
    (h : List.Forall₂ (IsDigit base) t ds) : ∀ d ∈ ds, d < base := by
  induction h with
  | nil => exact nofun
  | cons hd _ ih =>
    intro d hmem
    rcases List.mem_cons.mp hmem with rfl | hmem
    · exact hd.1
    · exact ih d hmem

theorem Numeral.lt_pow {base : Nat} {t : Bytes} {n : Nat} (h : Numeral base t n) (hbase : 1 < base) :
    n < base ^ t.length := by
  obtain ⟨ds, hds, rfl⟩ := h
  rw [hds.length_eq, ← List.length_reverse]
  exact Nat.ofDigits_lt_base_pow_length hbase fun d hd =>
    lt_of_isDigit hds d (List.mem_reverse.mp hd)

/-! ### Escapes and items -/

/-- The byte of a one-letter escape stands beside its letter. -/
theorem control?_eq_find? (c : UInt8) :
    control? c = (letters.find? fun p => c = p.1.toUInt8).map Prod.snd := by
  have hall : ∀ n < 256, control? (UInt8.ofNat n)
      = (letters.find? fun p => UInt8.ofNat n = p.1.toUInt8).map Prod.snd := by
    decide +kernel
  rw [← UInt8.ofNat_toNat (x := c)]
  exact hall c.toNat c.toNat_lt

theorem control?_eq_some_iff {c b : UInt8} :
    control? c = some b ↔ ∃ letter : Char, (letter, b) ∈ letters ∧ c = letter.toUInt8 := by
  constructor
  · intro h
    rw [control?_eq_find?] at h
    obtain ⟨⟨letter, _⟩, hfind, rfl⟩ := Option.map_eq_some_iff.mp h
    have hletter := List.find?_some hfind
    exact ⟨letter, List.mem_of_find?_eq_some hfind, of_decide_eq_true hletter⟩
  · rintro ⟨letter, hmem, rfl⟩
    have hall : ∀ p ∈ letters, control? p.1.toUInt8 = some p.2 := by decide
    exact hall _ hmem

theorem escape?_of_escape {t b : Bytes} (h : Escape t b) (rest : Bytes) :
    escape? (t ++ rest) = some (b, rest) := by
  cases h with
  | letter hmem =>
    rw [List.singleton_append, escape?, control?_eq_some_iff.mpr ⟨_, hmem, rfl⟩]
  | @hexByte t n hlen hn =>
    have hlt := hn.lt_pow (by decide)
    rw [hlen] at hlt
    exact (byte?_eq_some_iff fun _ _ => isDigit_sixteen_iff).mpr
      ⟨t, n, rfl, hlen, hn, by omega, rfl⟩
  | @octalByte t n hlen hn hle =>
    have hread : byte? octalValue? 8 3 (t ++ rest) = some ([UInt8.ofNat n], rest) :=
      (byte?_eq_some_iff fun _ _ => isDigit_eight_iff).mpr ⟨t, n, rfl, hlen, hn, hle, rfl⟩
    obtain ⟨ds, hds, -⟩ := hn
    cases hds with
    | nil => cases hlen
    | @cons c d t ds hd _ =>
      -- an octal digit is no letter of another escape
      have hc : c.toNat ≤ 55 := by
        have hvalue := isDigit_eight_iff.mp hd
        simp only [octalValue?, UInt8.le_iff_toNat_le, UInt8.reduceToNat] at hvalue
        grind
      have hnone : control? c = none := by
        rcases hcontrol : control? c with _ | b
        · rfl
        · obtain ⟨letter, hmem, rfl⟩ := control?_eq_some_iff.mp hcontrol
          have hall : ∀ p ∈ letters, 55 < p.1.toUInt8.toNat := by decide
          exact absurd hc (Nat.not_le_of_lt (hall _ hmem))
      have hne : ∀ x : UInt8, 55 < x.toNat → c ≠ x := by
        rintro x hx rfl
        omega
      rw [List.cons_append, escape?, hnone]
      dsimp only
      rw [if_neg (hne _ (by decide)), if_neg (hne _ (by decide)), if_neg (hne _ (by decide))]
      exact hread
  | @shortPoint t c hlen hn => exact codePoint?_eq_some_iff.mpr ⟨t, c, rfl, hlen, hn, rfl⟩
  | @longPoint t c hlen hn => exact codePoint?_eq_some_iff.mpr ⟨t, c, rfl, hlen, hn, rfl⟩

theorem escape?_eq_some_iff {s b rest : Bytes} :
    escape? s = some (b, rest) ↔ ∃ t, s = t ++ rest ∧ Escape t b := by
  constructor
  · intro h
    -- the branches of the reader, in its order
    rcases s with _ | ⟨c, s⟩
    · cases h
    rw [escape?] at h
    split at h
    · next hcontrol =>
      cases h
      obtain ⟨letter, hmem, rfl⟩ := control?_eq_some_iff.mp hcontrol
      exact ⟨[letter.toUInt8], rfl, .letter hmem⟩
    split at h
    · next hx =>
      subst hx
      obtain ⟨t, n, rfl, hlen, hn, -, rfl⟩ :=
        (byte?_eq_some_iff fun _ _ => isDigit_sixteen_iff).mp h
      exact ⟨'x'.toUInt8 :: t, rfl, .hexByte hlen hn⟩
    split at h
    · next hu =>
      subst hu
      obtain ⟨t, c, rfl, hlen, hn, rfl⟩ := codePoint?_eq_some_iff.mp h
      exact ⟨'u'.toUInt8 :: t, rfl, .shortPoint hlen hn⟩
    split at h
    · next hu =>
      subst hu
      obtain ⟨t, c, rfl, hlen, hn, rfl⟩ := codePoint?_eq_some_iff.mp h
      exact ⟨'U'.toUInt8 :: t, rfl, .longPoint hlen hn⟩
    · obtain ⟨t, n, hs, hlen, hn, hle, rfl⟩ :=
        (byte?_eq_some_iff fun _ _ => isDigit_eight_iff).mp h
      exact ⟨t, hs, .octalByte hlen hn hle⟩
  · rintro ⟨t, rfl, h⟩
    exact escape?_of_escape h rest

theorem item?_backslash (s : Bytes) : item? ('\\'.toUInt8 :: s) = escape? s := rfl

theorem item?_of_item {rest t b : Bytes} (h : Item rest t b) : item? (t ++ rest) = some (b, rest) := by
  cases h with
  | @plain c hlt hne =>
    have hbackslash : c ≠ 92 := hne
    rw [List.singleton_append, item?, if_neg hbackslash, if_pos hlt]
  | @char c hle =>
    have hnext := Utf8.next_encodeChar c rest
    rcases hbytes : encodeChar c with _ | ⟨a, u⟩
    · exact absurd hbytes String.utf8EncodeChar_ne_nil
    have ha : 128 ≤ a.toNat := by
      refine Utf8.le_of_mem_encodeChar hle ?_
      rw [hbytes]
      exact List.mem_cons_self
    -- the first byte of a longer character is no backslash and not below 128
    have hne : a ≠ 92 := by
      rintro rfl
      exact absurd ha (by decide)
    have hnot : ¬ a < 0x80 := by
      rw [UInt8.lt_iff_toNat_lt]
      exact Nat.not_lt_of_le ha
    rw [hbytes, List.cons_append] at hnext
    rw [List.cons_append, item?, if_neg hne, if_neg hnot, hnext, ← hbytes]
    rfl
  | @stray c hle hnone =>
    have hne : c ≠ 92 := by
      rintro rfl
      exact absurd hle (by decide)
    have hnext : Utf8.next (c :: rest) = some (.stray c, rest) := by
      -- no character begins with a stray byte, so the decoder takes it alone
      rcases hchar : Utf8.nextChar? (c :: rest) with _ | ⟨d, s⟩
      · rw [Utf8.next, hchar]
      · exact absurd (Utf8.encodeChar_of_nextChar? hchar) (hnone d s)
    rw [List.singleton_append, item?, if_neg hne, if_neg (UInt8.not_lt.mpr hle), hnext]
    rfl
  | @escape t b hescape =>
    rw [List.cons_append, item?_backslash]
    exact escape?_of_escape hescape rest

theorem item?_eq_some_iff {s b rest : Bytes} :
    item? s = some (b, rest) ↔ ∃ t, s = t ++ rest ∧ Item rest t b := by
  constructor
  · intro h
    rcases s with _ | ⟨c, s⟩
    · cases h
    rw [item?] at h
    split at h
    · next hc =>
      subst hc
      obtain ⟨t, rfl, hescape⟩ := escape?_eq_some_iff.mp h
      exact ⟨'\\'.toUInt8 :: t, rfl, .escape hescape⟩
    split at h
    · next hne hlt =>
      cases h
      exact ⟨[c], rfl, .plain hlt hne⟩
    · next hne hnot =>
      have hle : 0x80 ≤ c := UInt8.not_lt.mp hnot
      obtain ⟨⟨r, rest'⟩, hnext, heq⟩ := Option.map_eq_some_iff.mp h
      cases heq
      rw [Utf8.next] at hnext
      split at hnext
      · next d rest' hchar =>
        cases hnext
        have hbytes := Utf8.encodeChar_of_nextChar? hchar
        refine ⟨encodeChar d, hbytes.symm, .char ?_⟩
        -- a character that is one byte is that byte
        refine Nat.le_of_not_lt fun hlt => ?_
        rw [Utf8.encodeChar_of_lt hlt] at hbytes
        cases hbytes
        rw [UInt8.le_iff_toNat_le, Utf8.toNat_ofNat_of_lt (by omega)] at hle
        exact absurd hlt (Nat.not_lt_of_le hle)
      · next hchar =>
        cases hnext
        refine ⟨[c], rfl, .stray hle fun d u hbytes => ?_⟩
        rw [← hbytes, Utf8.nextChar?_encodeChar] at hchar
        cases hchar
  · rintro ⟨t, rfl, h⟩
    exact item?_of_item h

theorem wrongEscape_of_item? {s : Bytes} (hne : s ≠ []) (h : item? s = none) : WrongEscape s := by
  rcases s with _ | ⟨c, s⟩
  · exact absurd rfl hne
  rw [item?] at h
  split at h
  · next hc =>
    subst hc
    refine ⟨s, rfl, ?_⟩
    rintro t b hescape ⟨rest, rfl⟩
    rw [escape?_of_escape hescape] at h
    cases h
  split at h
  · cases h
  · rw [Option.map_eq_none_iff, Utf8.next] at h
    split at h <;> cases h

theorem WrongEscape.item?_eq {s : Bytes} (h : WrongEscape s) : item? s = none := by
  obtain ⟨r, rfl, hnone⟩ := h
  rw [item?_backslash]
  rcases hescape : escape? r with _ | ⟨b, rest⟩
  · rfl
  · obtain ⟨t, rfl, ht⟩ := escape?_eq_some_iff.mp hescape
    exact absurd (List.prefix_append t rest) (hnone t b ht)

/-! ### Decoding -/

theorem decode_nil : decode [] = .ok [] := by
  rw [decode]

theorem decode_of_item? {s b rest : Bytes} (h : item? s = some (b, rest)) :
    decode s = (decode rest).map (b ++ ·) := by
  rcases s with _ | ⟨c, s⟩
  · cases h
  rw [decode]
  split
  · next hnone =>
    rw [h] at hnone
    cases hnone
  · next hsome =>
    rw [h] at hsome
    cases hsome
    rfl

theorem WrongEscape.decode_eq {s : Bytes} (h : WrongEscape s) : decode s = .error s := by
  have hnone := h.item?_eq
  obtain ⟨r, rfl, -⟩ := h
  rw [decode]
  split
  · rfl
  · next hsome =>
    rw [hnone] at hsome
    cases hsome

/-- **The items at the front of a text are decoded**, and then what is behind them. -/
theorem Items.decode_eq {behind p b : Bytes} (h : Items behind p b) :
    decode (p ++ behind) = (decode behind).map (b ++ ·) := by
  induction h with
  | nil =>
    rw [List.nil_append]
    cases decode behind <;> rfl
  | @cons t b p bs hitem _ ih =>
    rw [List.append_assoc, decode_of_item? (item?_of_item hitem), ih]
    cases decode behind with
    | error rest => rfl
    | ok more =>
      simp only [Except.map, List.append_assoc]

/-- **Every text begins with items**, up to its end or up to a wrong escape. -/
theorem exists_items (s : Bytes) :
    ∃ p b rest, s = p ++ rest ∧ Items rest p b ∧ (rest = [] ∨ WrongEscape rest) := by
  fun_induction decode s with
  | case1 => exact ⟨[], [], [], rfl, .nil, .inl rfl⟩
  | case2 c s hnone =>
    exact ⟨[], [], c :: s, rfl, .nil, .inr (wrongEscape_of_item? (List.cons_ne_nil c s) hnone)⟩
  | case3 c s b rest hsome ih =>
    obtain ⟨p, bs, rest', rfl, hitems, hend⟩ := ih
    obtain ⟨t, hs, hitem⟩ := item?_eq_some_iff.mp hsome
    refine ⟨t ++ p, b ++ bs, rest', ?_, .cons hitem hitems, hend⟩
    rw [hs, List.append_assoc]

theorem decode_eq_ok_iff {s b : Bytes} : decode s = .ok b ↔ Items [] s b := by
  constructor
  · intro h
    obtain ⟨p, b', rest, rfl, hitems, rfl | hwrong⟩ := exists_items s
    · rw [hitems.decode_eq, decode_nil] at h
      cases h
      simpa using hitems
    · rw [hitems.decode_eq, hwrong.decode_eq] at h
      cases h
  · intro h
    have hdecode := h.decode_eq
    rw [List.append_nil, decode_nil] at hdecode
    rw [hdecode]
    exact congrArg Except.ok (List.append_nil b)

theorem decode_eq_error_iff {s rest : Bytes} :
    decode s = .error rest ↔ ∃ p b, s = p ++ rest ∧ Items rest p b ∧ WrongEscape rest := by
  constructor
  · intro h
    obtain ⟨p, b', rest', rfl, hitems, rfl | hwrong⟩ := exists_items s
    · rw [hitems.decode_eq, decode_nil] at h
      cases h
    · rw [hitems.decode_eq, hwrong.decode_eq] at h
      cases h
      exact ⟨p, b', rfl, hitems, hwrong⟩
  · rintro ⟨p, b, rfl, hitems, hwrong⟩
    rw [hitems.decode_eq, hwrong.decode_eq]
    rfl

/-! ### Texts with more behind them -/

theorem Numeral.lt_of_mem {base : Nat} {t : Bytes} {n : Nat} (h : Numeral base t n) (hbase : base ≤ 16) :
    ∀ c ∈ t, c.toNat < 128 := by
  obtain ⟨ds, hds, -⟩ := h
  induction hds with
  | nil => exact nofun
  | @cons c d t ds hd _ ih =>
    intro a ha
    rcases List.mem_cons.mp ha with rfl | ha
    · obtain ⟨hlt, hdigit⟩ := hd
      have hd : d < 16 := by omega
      rcases hdigit with rfl | rfl <;> interval_cases d <;> decide
    · exact ih a ha

/-- Escapes are made of characters of one byte. -/
theorem Escape.lt_of_mem {t b : Bytes} (h : Escape t b) : ∀ c ∈ t, c.toNat < 128 := by
  cases h with
  | letter hmem =>
    have hall : ∀ p ∈ letters, p.1.toUInt8.toNat < 128 := by decide
    exact List.forall_mem_singleton.mpr (hall _ hmem)
  | hexByte _ hn | shortPoint _ hn | longPoint _ hn =>
    exact List.forall_mem_cons.mpr ⟨by decide, hn.lt_of_mem (by decide)⟩
  | octalByte _ hn _ => exact hn.lt_of_mem (by decide)

/-- **The items of a text of characters stay its items** whatever follows, since none of them is stray. -/
theorem Items.extend {behind p b : Bytes} (h : Items behind p b) (hvalid : Utf8.Valid p)
    (more : Bytes) : Items more p b := by
  induction h with
  | nil => exact .nil
  | @cons t b p bs hitem _ ih =>
    cases hitem with
    | @plain c hlt hne =>
      -- a byte below 128 is a character of its own, so what is behind it is still a text
      refine .cons (.plain hlt hne) (ih (hvalid.of_append ?_))
      rw [List.forall_mem_singleton]
      exact UInt8.lt_iff_toNat_lt.mp hlt
    | char hle => exact .cons (.char hle) (ih (Utf8.valid_cons_iff.mp hvalid))
    | @stray c hle hnone =>
      obtain ⟨_ | ⟨d, cs⟩, hcs⟩ := hvalid
      · cases hcs
      · -- the byte begins the first character of the text
        have hchar : encodeChar d ++ (cs.flatMap encodeChar ++ behind) = c :: (p ++ behind) := by
          rw [← List.append_assoc, ← List.flatMap_cons, ← hcs]
          rfl
        exact absurd hchar (hnone _ _)
    | @escape t b hescape =>
      refine .cons (.escape hescape) (ih (hvalid.of_append ?_))
      exact List.forall_mem_cons.mpr ⟨by decide, hescape.lt_of_mem⟩

/-- **Decoding follows the grammar.** A text is decoded to some bytes iff it is a sequence of items that
stands for them. Otherwise it fails with the rest of the text from the first place on where there is a
backslash but no escape, that is, items stand in front of it and none begins there; the message quotes
this rest. Where a text of characters is decoded, whatever follows it is decoded by itself: the bytes of
the two stand behind each other, and the rest with which the second part fails is the one with which
both do. -/
theorem decode_follows_grammar (s : Bytes) :
    (∀ b, decode s = .ok b ↔ Items [] s b) ∧
    (∀ rest, decode s = .error rest ↔
      ∃ p b, s = p ++ rest ∧ Items rest p b ∧ WrongEscape rest) ∧
    (∀ rest, message rest
      = utf8 "decode escapes in " ++ Quoted.quote rest ++ utf8 ": invalid syntax") ∧
    (Utf8.Valid s → ∀ b, decode s = .ok b →
      ∀ more, decode (s ++ more) = (decode more).map (b ++ ·)) := by
  refine ⟨fun b => decode_eq_ok_iff, fun rest => decode_eq_error_iff, fun rest => rfl, ?_⟩
  intro hvalid b h more
  have hitems : Items [] s b := decode_eq_ok_iff.mp h
  exact (hitems.extend hvalid more).decode_eq

/-- A letter of two bytes and an escape for a byte, with a wrong escape behind them. -/
theorem decode_follows_grammar_before_wrong_escape :
    Utf8.Valid (utf8 "é\\x41") ∧ decode (utf8 "é\\x41") = .ok [0xC3, 0xA9, 0x41] ∧
      decode (utf8 "é\\x41" ++ utf8 "\\q") = .error (utf8 "\\q") := by
  have hdecode : decode (utf8 "é\\x41") = .ok [0xC3, 0xA9, 0x41] := by decide +kernel
  have hwrong : decode (utf8 "\\q") = .error (utf8 "\\q") := by decide +kernel
  have hvalid := valid_utf8 "é\\x41"
  refine ⟨hvalid, hdecode, ?_⟩
  rw [(decode_follows_grammar _).2.2.2 hvalid _ hdecode, hwrong]
  rfl

end TapeMachine.Escapes
