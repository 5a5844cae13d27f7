/-
Reading characters loses nothing.

A byte string that is read as characters and stray bytes is written back as it was, also where it is
malformed: the bytes that form a character are the bytes of that character.

* `encodeChar_of_nextChar?`: the first character has the bytes that it was read from;
* `encode_runes`: so has the whole byte string;
* `nextChar?_encodeChar`: a character is read wherever its bytes stand;
* `Valid`: the byte strings that are texts, and `replaceInvalid_flatMap_encodeChar` what is read from them.
-/
import TapeMachine.Text.Utf8

namespace TapeMachine

namespace Utf8

theorem toNat_of_isTail {b : UInt8} (h : isTail b = true) : 128 ≤ b.toNat ∧ b.toNat ≤ 191 := by
  simpa [isTail, UInt8.le_iff_toNat_le] using h

/-- The first bytes that admit fewer second bytes than the rest do leave out the spellings that are too
long, the surrogates and what is past the last code point. -/
theorem toNat_of_isSecond {a b : UInt8} (h : isSecond a b = true) :
    (128 ≤ b.toNat ∧ b.toNat ≤ 191) ∧ (a.toNat = 224 → 160 ≤ b.toNat) ∧
      (a.toNat = 237 → b.toNat ≤ 159) ∧ (a.toNat = 240 → 144 ≤ b.toNat) ∧
      (a.toNat = 244 → b.toNat ≤ 143) := by
  simp only [isSecond, isTail, ← UInt8.toNat_inj, UInt8.reduceToNat, UInt8.le_iff_toNat_le] at h
  -- one case for each of those first bytes, and one for the rest
  repeat' split at h
  all_goals
    simp only [Bool.and_eq_true, decide_eq_true_eq] at h
    omega

theorem isTail_of_toNat {b : UInt8} (h : 128 ≤ b.toNat ∧ b.toNat ≤ 191) : isTail b = true := by
  simpa [isTail, UInt8.le_iff_toNat_le] using h

theorem isSecond_of_toNat {a b : UInt8} (h : 128 ≤ b.toNat ∧ b.toNat ≤ 191)
    (hlong : (a.toNat = 224 → 160 ≤ b.toNat) ∧ (a.toNat = 240 → 144 ≤ b.toNat))
    (hpast : (a.toNat = 237 → b.toNat ≤ 159) ∧ (a.toNat = 244 → b.toNat ≤ 143)) :
    isSecond a b = true := by
  simp only [isSecond, isTail, ← UInt8.toNat_inj, UInt8.reduceToNat, UInt8.le_iff_toNat_le]
  repeat' split
  all_goals
    simp only [Bool.and_eq_true, decide_eq_true_eq]
    omega

theorem toNat_val_ofNat {n : Nat} (h : n.isValidChar) : (Char.ofNat n).val.toNat = n := by
  rw [Char.ofNat, dif_pos h]
  rfl

theorem ofNat_eq {n : Nat} {b : UInt8} (h : n = b.toNat) : UInt8.ofNat n = b := by
  rw [h, UInt8.ofNat_toNat]

/-- A character in one byte. -/
theorem encodeChar_one {a : UInt8} (ha : a.toNat < 128) : encodeChar (Char.ofNat a.toNat) = [a] := by
  have hvalid : a.toNat.isValidChar := .inl (by omega)
  rw [encodeChar, String.utf8EncodeChar, toNat_val_ofNat hvalid, if_pos (by omega),
    UInt8.ofNat_toNat]

/-- A character in two bytes. -/
theorem encodeChar_two {a b : UInt8} (ha : 194 ≤ a.toNat ∧ a.toNat ≤ 223)
    (hb : 128 ≤ b.toNat ∧ b.toNat ≤ 191) :
    encodeChar (Char.ofNat (a.toNat % 32 * 64 + low b)) = [a, b] := by
  unfold low
  have hvalid : (a.toNat % 32 * 64 + b.toNat % 64).isValidChar := .inl (by omega)
  rw [encodeChar, String.utf8EncodeChar, toNat_val_ofNat hvalid]
  rw [if_neg (by omega), if_pos (by omega), ofNat_eq (b := a) (by omega),
    ofNat_eq (b := b) (by omega)]

/-- A character in three bytes. -/
theorem encodeChar_three {a b c : UInt8} (ha : 224 ≤ a.toNat ∧ a.toNat ≤ 239)
    (hb : isSecond a b = true) (hc : 128 ≤ c.toNat ∧ c.toNat ≤ 191) :
    encodeChar (Char.ofNat (a.toNat % 16 * 4096 + low b * 64 + low c)) = [a, b, c] := by
  obtain ⟨hrange, hlong, hsurrogate, -, -⟩ := toNat_of_isSecond hb
  unfold low
  have hvalid : (a.toNat % 16 * 4096 + b.toNat % 64 * 64 + c.toNat % 64).isValidChar := by
    -- the surrogates lie between what the first bytes up to 237 and those from 238 on can spell
    rcases Nat.lt_or_ge a.toNat 238 with h | h
    · exact .inl (by omega)
    · exact .inr (by omega)
  rw [encodeChar, String.utf8EncodeChar, toNat_val_ofNat hvalid]
  rw [if_neg (by omega), if_neg (by omega), if_pos (by omega), ofNat_eq (b := a) (by omega),
    ofNat_eq (b := b) (by omega), ofNat_eq (b := c) (by omega)]

/-- A character in four bytes. -/
theorem encodeChar_four {a b c d : UInt8} (ha : 240 ≤ a.toNat ∧ a.toNat ≤ 244)
    (hb : isSecond a b = true) (hc : 128 ≤ c.toNat ∧ c.toNat ≤ 191)
    (hd : 128 ≤ d.toNat ∧ d.toNat ≤ 191) :
    encodeChar (Char.ofNat (a.toNat % 8 * 262144 + low b * 4096 + low c * 64 + low d))
      = [a, b, c, d] := by
  obtain ⟨hrange, -, -, hlong, hlast⟩ := toNat_of_isSecond hb
  unfold low
  have hvalid : (a.toNat % 8 * 262144 + b.toNat % 64 * 4096 + c.toNat % 64 * 64
      + d.toNat % 64).isValidChar := .inr (by omega)
  rw [encodeChar, String.utf8EncodeChar, toNat_val_ofNat hvalid]
  rw [if_neg (by omega), if_neg (by omega), if_neg (by omega), ofNat_eq (b := a) (by omega),
    ofNat_eq (b := b) (by omega), ofNat_eq (b := c) (by omega), ofNat_eq (b := d) (by omega)]

/-- **The first character has the bytes that it was read from.** -/
theorem encodeChar_of_nextChar? {s rest : Bytes} {c : Char} (h : nextChar? s = some (c, rest)) :
    encodeChar c ++ rest = s := by
  revert h
  -- one case for each length of a character, the rest of them are those in which none begins
  fun_cases nextChar? s with
  | case2 a s ha =>
    rintro ⟨⟩
    rw [encodeChar_one (UInt8.lt_iff_toNat_lt.mp ha)]
    rfl
  | case3 a _ ha b s hb =>
    rintro ⟨⟩
    rw [encodeChar_two (by simpa [UInt8.le_iff_toNat_le] using ha) (toNat_of_isTail hb)]
    rfl
  | case6 a _ _ ha b c s htail =>
    rintro ⟨⟩
    rw [Bool.and_eq_true] at htail
    rw [encodeChar_three (by simpa [UInt8.le_iff_toNat_le] using ha) htail.1
      (toNat_of_isTail htail.2)]
    rfl
  | case9 a _ _ _ ha b c d s htail =>
    rintro ⟨⟩
    rw [Bool.and_eq_true, Bool.and_eq_true] at htail
    rw [encodeChar_four (by simpa [UInt8.le_iff_toNat_le] using ha) htail.1.1
      (toNat_of_isTail htail.1.2) (toNat_of_isTail htail.2)]
    rfl
  | case1 | case4 | case5 | case7 | case8 | case10 | case11 | case12 => exact nofun

/-- The first character or stray byte has the bytes that it was read from. -/
theorem encodeRune_of_next {s rest : Bytes} {r : Rune} (h : next s = some (r, rest)) :
    encodeRune r ++ rest = s := by
  rcases s with _ | ⟨a, s⟩
  · cases h
  · rw [next] at h
    split at h
    · next c rest' hchar =>
      cases h
      exact encodeChar_of_nextChar? hchar
    · cases h
      rfl

theorem encode_append (rs qs : List Rune) : encode (rs ++ qs) = encode rs ++ encode qs :=
  List.flatMap_append

/-- **Reading a byte string as characters loses nothing.** -/
theorem encode_runes (s : Bytes) : encode (runes s) = s := by
  fun_induction runes s with
  | case1 s h =>
    rcases s with _ | ⟨a, s⟩
    · rfl
    · rw [next] at h
      split at h <;> cases h
  | case2 s r rest h ih =>
    rw [encode, List.flatMap_cons, ← encode, ih]
    exact encodeRune_of_next h

/-! ### Characters are read where they stand -/

theorem nextChar?_one {a : UInt8} (ha : a.toNat < 128) (s : Bytes) :
    nextChar? (a :: s) = some (Char.ofNat a.toNat, s) := by
  simp only [nextChar?]
  rw [if_pos (UInt8.lt_iff_toNat_lt.mpr ha)]

theorem nextChar?_two {a b : UInt8} (ha : 194 ≤ a.toNat ∧ a.toNat ≤ 223)
    (hb : 128 ≤ b.toNat ∧ b.toNat ≤ 191) (s : Bytes) :
    nextChar? (a :: b :: s) = some (Char.ofNat (a.toNat % 32 * 64 + low b), s) := by
  simp only [nextChar?, UInt8.lt_iff_toNat_lt, UInt8.le_iff_toNat_le, UInt8.reduceToNat]
  rw [if_neg (by omega), if_pos ha, isTail_of_toNat hb, if_pos rfl]

theorem nextChar?_three {a b c : UInt8} (ha : 224 ≤ a.toNat ∧ a.toNat ≤ 239)
    (hb : isSecond a b = true) (hc : 128 ≤ c.toNat ∧ c.toNat ≤ 191) (s : Bytes) :
    nextChar? (a :: b :: c :: s)
      = some (Char.ofNat (a.toNat % 16 * 4096 + low b * 64 + low c), s) := by
  simp only [nextChar?, UInt8.lt_iff_toNat_lt, UInt8.le_iff_toNat_le, UInt8.reduceToNat]
  rw [if_neg (by omega), if_neg (by omega), if_pos ha, hb, isTail_of_toNat hc, Bool.and_self,
    if_pos rfl]

theorem nextChar?_four {a b c d : UInt8} (ha : 240 ≤ a.toNat ∧ a.toNat ≤ 244)
    (hb : isSecond a b = true) (hc : 128 ≤ c.toNat ∧ c.toNat ≤ 191)
    (hd : 128 ≤ d.toNat ∧ d.toNat ≤ 191) (s : Bytes) :
    nextChar? (a :: b :: c :: d :: s)
      = some (Char.ofNat (a.toNat % 8 * 262144 + low b * 4096 + low c * 64 + low d), s) := by
  simp only [nextChar?, UInt8.lt_iff_toNat_lt, UInt8.le_iff_toNat_le, UInt8.reduceToNat]
  rw [if_neg (by omega), if_neg (by omega), if_neg (by omega), if_pos ha, hb, isTail_of_toNat hc,
    isTail_of_toNat hd, Bool.and_self, Bool.and_self, if_pos rfl]

theorem toNat_ofNat_of_lt {n : Nat} (h : n < 256) : (UInt8.ofNat n).toNat = n := by
  rw [UInt8.toNat_ofNat', Nat.mod_eq_of_lt h]

/-- **A character is read where its bytes stand**, whatever follows. -/
theorem nextChar?_encodeChar (c : Char) (s : Bytes) :
    nextChar? (encodeChar c ++ s) = some (c, s) := by
  have hvalid : c.val.toNat.isValidChar := c.valid
  have hc : Char.ofNat c.val.toNat = c := Char.ofNat_toNat c
  rw [encodeChar, String.utf8EncodeChar]
  generalize c.val.toNat = v at hvalid hc ⊢
  -- the surrogates are no characters, nor is what is past the last code point
  have hrange : v < 55296 ∨ 57343 < v ∧ v < 1114112 := hvalid
  split
  · have ha : (UInt8.ofNat v).toNat = v := toNat_ofNat_of_lt (by omega)
    rw [List.singleton_append, nextChar?_one (by omega), ha, hc]
  split
  · have ha := toNat_ofNat_of_lt (n := v / 64 % 32 + 192) (by omega)
    have hb := toNat_ofNat_of_lt (n := v % 64 + 128) (by omega)
    rw [List.cons_append, List.singleton_append, nextChar?_two (by omega) (by omega), ha, low, hb]
    rw [show (v / 64 % 32 + 192) % 32 * 64 + (v % 64 + 128) % 64 = v by omega, hc]
  split
  · have ha := toNat_ofNat_of_lt (n := v / 4096 % 16 + 224) (by omega)
    have hb := toNat_ofNat_of_lt (n := v / 64 % 64 + 128) (by omega)
    have hd := toNat_ofNat_of_lt (n := v % 64 + 128) (by omega)
    rw [List.cons_append, List.cons_append, List.singleton_append, nextChar?_three (by omega)
      (isSecond_of_toNat (by omega) (by omega) (by omega)) (by omega), ha, low, low, hb, hd]
    rw [show (v / 4096 % 16 + 224) % 16 * 4096 + (v / 64 % 64 + 128) % 64 * 64
      + (v % 64 + 128) % 64 = v by omega, hc]
  · have ha := toNat_ofNat_of_lt (n := v / 262144 % 8 + 240) (by omega)
    have hb := toNat_ofNat_of_lt (n := v / 4096 % 64 + 128) (by omega)
    have hd := toNat_ofNat_of_lt (n := v / 64 % 64 + 128) (by omega)
    have he := toNat_ofNat_of_lt (n := v % 64 + 128) (by omega)
    rw [List.cons_append, List.cons_append, List.cons_append, List.singleton_append,
      nextChar?_four (by omega) (isSecond_of_toNat (by omega) (by omega) (by omega)) (by omega)
        (by omega), ha, low, low, low, hb, hd, he]
    rw [show (v / 262144 % 8 + 240) % 8 * 262144 + (v / 4096 % 64 + 128) % 64 * 4096
      + (v / 64 % 64 + 128) % 64 * 64 + (v % 64 + 128) % 64 = v by omega, hc]

theorem next_encodeChar (c : Char) (s : Bytes) : next (encodeChar c ++ s) = some (.char c, s) := by
  have hread := nextChar?_encodeChar c s
  rcases hbytes : encodeChar c ++ s with _ | ⟨a, rest⟩
  · rw [hbytes] at hread
    cases hread
  · rw [hbytes] at hread
    rw [next, hread]

/-- Two characters with bytes behind them are the same if these are. -/
theorem encodeChar_append_inj {c d : Char} {s t : Bytes} (h : encodeChar c ++ s = encodeChar d ++ t) :
    c = d ∧ s = t := by
  have hread := nextChar?_encodeChar c s
  rw [h, nextChar?_encodeChar] at hread
  cases hread
  exact ⟨rfl, rfl⟩

theorem encodeChar_of_lt {c : Char} (h : c.toNat < 128) : encodeChar c = [UInt8.ofNat c.toNat] := by
  have hlt : c.val.toNat ≤ 127 := Nat.le_of_lt_succ h
  rw [encodeChar, String.utf8EncodeChar, if_pos hlt]
  rfl

/-- All bytes of a character that takes several are apart from those that are characters alone. -/
theorem le_of_mem_encodeChar {c : Char} (h : 128 ≤ c.toNat) {a : UInt8} (ha : a ∈ encodeChar c) :
    128 ≤ a.toNat := by
  have hlt : ¬ c.val.toNat ≤ 127 := Nat.not_le_of_lt h
  rw [encodeChar, String.utf8EncodeChar, if_neg hlt] at ha
  split at ha
  · simp only [List.mem_cons, List.not_mem_nil, or_false] at ha
    rcases ha with rfl | rfl <;> rw [toNat_ofNat_of_lt (by omega)] <;> omega
  · split at ha <;> simp only [List.mem_cons, List.not_mem_nil, or_false] at ha
    · rcases ha with rfl | rfl | rfl <;> rw [toNat_ofNat_of_lt (by omega)] <;> omega
    · rcases ha with rfl | rfl | rfl | rfl <;> rw [toNat_ofNat_of_lt (by omega)] <;> omega

/-! ### Texts -/

/-- The byte string is the text of some characters. -/
def Valid (s : Bytes) : Prop :=
  ∃ cs : List Char, s = cs.flatMap encodeChar

theorem valid_cons_iff {c : Char} {s : Bytes} : Valid (encodeChar c ++ s) ↔ Valid s := by
  constructor
  · rintro ⟨_ | ⟨d, cs⟩, h⟩
    · rw [List.flatMap_nil, List.append_eq_nil_iff] at h
      exact absurd h.1 String.utf8EncodeChar_ne_nil
    · rw [List.flatMap_cons] at h
      exact ⟨cs, (encodeChar_append_inj h).2⟩
  · rintro ⟨cs, rfl⟩
    exact ⟨c :: cs, rfl⟩

/-- What is behind bytes that are characters alone is a text if the whole is. -/
theorem Valid.of_append {s t : Bytes} (h : Valid (s ++ t)) (hs : ∀ a ∈ s, a.toNat < 128) : Valid t := by
  induction s with
  | nil => exact h
  | cons a s ih =>
    have ha : a.toNat < 128 := hs a List.mem_cons_self
    have hone : a :: s ++ t = encodeChar (Char.ofNat a.toNat) ++ (s ++ t) := by
      rw [encodeChar_one ha]
      rfl
    rw [hone, valid_cons_iff] at h
    exact ih h fun b hb => hs b (List.mem_cons_of_mem a hb)

theorem runes_flatMap_encodeChar (cs : List Char) :
    runes (cs.flatMap encodeChar) = cs.map Rune.char := by
  induction cs with
  | nil =>
    rw [List.flatMap_nil, runes]
    rfl
  | cons c cs ih =>
    rw [List.flatMap_cons, List.map_cons, runes, next_encodeChar]
    dsimp only
    rw [ih]

theorem replaceInvalid_flatMap_encodeChar (cs : List Char) :
    replaceInvalid (cs.flatMap encodeChar) = cs := by
  rw [replaceInvalid, runes_flatMap_encodeChar, List.map_map]
  exact List.map_id cs

end Utf8

theorem utf8_ofList (cs : List Char) : utf8 (String.ofList cs) = cs.flatMap Utf8.encodeChar := by
  rw [utf8, String.toUTF8_eq_toByteArray, String.toByteArray_ofList, List.utf8Encode,
    List.data_toByteArray]
  rfl

theorem utf8_eq (s : String) : utf8 s = s.toList.flatMap Utf8.encodeChar := by
  rw [← utf8_ofList, String.ofList_toList]

theorem utf8_append (s t : String) : utf8 (s ++ t) = utf8 s ++ utf8 t := by
  rw [utf8_eq, String.toList_append, List.flatMap_append, ← utf8_eq, ← utf8_eq]

/-- No two texts have the same bytes. -/
theorem utf8_inj {s t : String} (h : utf8 s = utf8 t) : s = t := by
  rw [utf8_eq, utf8_eq] at h
  have hchars := congrArg Utf8.replaceInvalid h
  rw [Utf8.replaceInvalid_flatMap_encodeChar, Utf8.replaceInvalid_flatMap_encodeChar] at hchars
  exact String.toList_inj.mp hchars

theorem valid_utf8 (s : String) : Utf8.Valid (utf8 s) :=
  ⟨s.toList, utf8_eq s⟩

end TapeMachine
