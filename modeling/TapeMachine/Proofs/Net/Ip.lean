/-
Internet addresses and their texts.

An address of 32 bits has one text, four octets between dots. One of 128 bits has many: groups between
colons, of which the last two may be written as four octets and a stretch of zeros as a double colon. An
address is local if it lies in one of six blocks.

* `Block`, `localBlocks`: addresses that agree in their first bits; `isLocal_iff`: the local ones;
* `octet?_eq_some_iff`, `parseV4?_eq_some_iff`: the texts of octets;
* `IsGroup`, `Groups`, `groups?_split_eq_some_iff`: the texts of groups;
* `Literal`, `parse?_eq_some_iff`: all texts of addresses, and that they are what is read;
* `parse?_mapped`: four octets are the same address behind the first groups of their block.
-/
import TapeMachine.Net.Ip
import TapeMachine.Proofs.Text.Layout

namespace TapeMachine.Ip

/-! ### Blocks -/

/-- The addresses that agree with the first of them in some of their first bits. -/
structure Block where
  first : Nat
  bits : Nat
deriving DecidableEq, Repr

/-- Whether an address lies in a block. -/
def Block.Holds (block : Block) (ip : Ip) : Prop :=
  ip.value / 2 ^ (128 - block.bits) = block.first / 2 ^ (128 - block.bits)

/-- The address of four octets. -/
def ofOctets (a b c d : UInt8) : Ip :=
  ⟨v4Block + (((a.toNat * 256 + b.toNat) * 256 + c.toNat) * 256 + d.toNat)⟩

/-- The block of the addresses of 32 bits that agree with one in their first bits. -/
def Block.v4 (a b c d : UInt8) (bits : Nat) : Block :=
  ⟨(ofOctets a b c d).value, 96 + bits⟩

/-- The blocks of the addresses of a host itself and of private networks. -/
def localBlocks : List Block :=
  [.v4 127 0 0 0 8, .v4 10 0 0 0 8, .v4 172 16 0 0 12, .v4 192 168 0 0 16, ⟨1, 128⟩,
    ⟨0xFC00 * 2 ^ 112, 7⟩]

theorem holds_localBlocks {n : Nat} : (∃ block ∈ localBlocks, block.Holds ⟨n⟩) ↔
    n / 2 ^ 24 = 0xFFFF7F ∨ n / 2 ^ 24 = 0xFFFF0A ∨ n / 2 ^ 20 = 0xFFFFAC1 ∨ n / 2 ^ 16 = 0xFFFFC0A8 ∨
      n = 1 ∨ n / 2 ^ 121 = 0x7E := by
  simp [localBlocks, Block.Holds, Block.v4, ofOctets, v4Block]

/-- **The local addresses are those of six blocks.** -/
theorem isLocal_iff {ip : Ip} : ip.isLocal = true ↔ ∃ block ∈ localBlocks, block.Holds ip := by
  obtain ⟨n⟩ := ip
  rw [holds_localBlocks, isLocal, isLoopback, isPrivate, v4?]
  simp only [Nat.pow_eq]
  by_cases h : n / 2 ^ 32 = 0xFFFF
  · -- an address of 32 bits is told by what is behind the first bits of its block
    rw [if_pos h]
    simp only [Bool.or_eq_true, decide_eq_true_eq]
    omega
  · rw [if_neg h]
    simp only [Bool.or_eq_true, decide_eq_true_eq]
    omega

/-! ### Octets -/

/-- The text of an octet: a decimal number without leading zeros. -/
def octetText (o : UInt8) : Bytes :=
  utf8 (decimal o.toNat)

/-- The text of four octets, with dots between them. -/
def dotted (a b c d : UInt8) : Bytes :=
  [46].intercalate ([a, b, c, d].map octetText)

/-- The bytes of a decimal number are those of its digits. -/
theorem utf8_decimal (n : Nat) :
    utf8 (decimal n) = (Nat.toDigits 10 n).map fun c => UInt8.ofNat c.toNat := by
  rw [utf8_of_printable (printable_decimal n), toList_decimal]

theorem octet?_octetText (o : UInt8) : octet? (octetText o) = some o.toNat := by
  have hall : ∀ n < 256, octet? ((Nat.toDigits 10 n).map fun c => UInt8.ofNat c.toNat) = some n := by
    decide +kernel
  rw [octetText, utf8_decimal]
  exact hall o.toNat o.toNat_lt

theorem isDigit_of_mem_octetText {o c : UInt8} (h : c ∈ octetText o) : Number.isDigit c = true := by
  rw [octetText, utf8_decimal] at h
  obtain ⟨d, hd, rfl⟩ := List.mem_map.mp h
  have hbetween : 48 ≤ d.toNat ∧ d.toNat ≤ 57 :=
    Char.isDigit_iff_toNat.mp (Nat.isDigit_of_mem_toDigits (by decide) (by decide) hd)
  have hbyte : (UInt8.ofNat d.toNat).toNat = d.toNat := Utf8.toNat_ofNat_of_lt (by omega)
  rw [Number.isDigit, Bool.and_eq_true, decide_eq_true_eq, decide_eq_true_eq, UInt8.le_iff_toNat_le,
    UInt8.le_iff_toNat_le, hbyte]
  exact hbetween

/-- The byte of a digit. -/
def digit (d : Nat) : UInt8 :=
  UInt8.ofNat (48 + d)

theorem exists_map_digit {s : Bytes} (h : ∀ c ∈ s, Number.isDigit c = true) :
    ∃ ds : List Nat, (∀ d ∈ ds, d < 10) ∧ ds.map digit = s := by
  have hbetween : ∀ c ∈ s, 48 ≤ c.toNat ∧ c.toNat ≤ 57 := fun c hc => by
    have hdigit := h c hc
    rwa [Number.isDigit, Bool.and_eq_true, decide_eq_true_eq, decide_eq_true_eq, UInt8.le_iff_toNat_le,
      UInt8.le_iff_toNat_le] at hdigit
  refine ⟨s.map fun c => c.toNat - 48, List.forall_mem_map.mpr fun c hc => ?_, ?_⟩
  · have := hbetween c hc
    omega
  · rw [List.map_map, List.map_congr_left (g := id), List.map_id]
    intro c hc
    show UInt8.ofNat (48 + (c.toNat - 48)) = c
    rw [Nat.add_sub_cancel' (hbetween c hc).1, UInt8.ofNat_toNat]

/-- Whether digits that are read as an octet are its text. -/
def isOwnText (ds : List Nat) : Bool :=
  (octet? (ds.map digit)).all fun n =>
    n < 256 && (Nat.toDigits 10 n).map (fun c => UInt8.ofNat c.toNat) == ds.map digit

/-- An octet is read from its text only. -/
theorem isOwnText_eq {ds : List Nat} (hdigits : ∀ d ∈ ds, d < 10) (hlength : ds.length ≤ 3) :
    isOwnText ds = true := by
  have hone : ∀ i < 10, isOwnText [i] = true := by decide +kernel
  have htwo : ∀ i < 10, ∀ j < 10, isOwnText [i, j] = true := by decide +kernel
  have hthree : ∀ i < 10, ∀ j < 10, ∀ k < 10, isOwnText [i, j, k] = true := by decide +kernel
  rcases ds with _ | ⟨i, _ | ⟨j, _ | ⟨k, _ | ⟨l, ds⟩⟩⟩⟩
  · rfl
  · exact hone i (hdigits i (by simp))
  · exact htwo i (hdigits i (by simp)) j (hdigits j (by simp))
  · exact hthree i (hdigits i (by simp)) j (hdigits j (by simp)) k (hdigits k (by simp))
  · rw [List.length_cons, List.length_cons, List.length_cons, List.length_cons] at hlength
    omega

/-- **What is read as an octet is its text.** -/
theorem octet?_eq_some_iff {s : Bytes} {n : Nat} :
    octet? s = some n ↔ ∃ o : UInt8, s = octetText o ∧ n = o.toNat := by
  constructor
  · intro h
    have hs : s.length ≤ 3 ∧ ∀ c ∈ s, Number.isDigit c = true := by
      rw [octet?] at h
      split at h
      · cases h
      · next hs =>
        simp only [Bool.or_eq_true, Bool.not_eq_true', decide_eq_true_eq, not_or, Nat.not_lt,
          Bool.not_eq_false, List.all_eq_true] at hs
        exact ⟨hs.1.1.2, hs.2⟩
    obtain ⟨ds, hdigits, rfl⟩ := exists_map_digit hs.2
    rw [List.length_map] at hs
    have hown := isOwnText_eq hdigits hs.1
    rw [isOwnText, h, Option.all_some, Bool.and_eq_true, decide_eq_true_eq, beq_iff_eq,
      ← utf8_decimal] at hown
    obtain ⟨hlt, htext⟩ := hown
    have hn : (UInt8.ofNat n).toNat = n := UInt8.toNat_ofNat_of_lt' hlt
    exact ⟨UInt8.ofNat n, by rw [octetText, hn, htext], hn.symm⟩
  · rintro ⟨o, rfl, rfl⟩
    exact octet?_octetText o

/-- **What is read as four octets is their text.** -/
theorem parseV4?_eq_some_iff {s : Bytes} {v : Nat} : parseV4? s = some v ↔
    ∃ a b c d, s = dotted a b c d ∧
      v = ((a.toNat * 256 + b.toNat) * 256 + c.toNat) * 256 + d.toNat := by
  have hdot : ∀ {o : UInt8}, 46 ∉ octetText o := fun h =>
    absurd (isDigit_of_mem_octetText h) (by decide)
  constructor
  · intro h
    rw [parseV4?] at h
    split at h
    · next p q r t hparts =>
      simp only [bind, Option.bind_eq_some_iff, octet?_eq_some_iff, pure, Option.some_inj] at h
      obtain ⟨_, ⟨a, rfl, rfl⟩, _, ⟨b, rfl, rfl⟩, _, ⟨c, rfl, rfl⟩, _, ⟨d, rfl, rfl⟩, rfl⟩ := h
      refine ⟨a, b, c, d, ?_, rfl⟩
      rw [Bytes.split_eq] at hparts
      rw [dotted, List.map_cons, List.map_cons, List.map_cons, List.map_singleton, ← hparts,
        List.intercalate_splitOn]
    · cases h
  · rintro ⟨a, b, c, d, rfl, rfl⟩
    have hparts : (dotted a b c d).split 46 = [a, b, c, d].map octetText := by
      rw [Bytes.split_eq, dotted, List.splitOn_intercalate 46 (List.forall_mem_map.mpr fun _ _ => hdot)
        (by simp)]
    rw [parseV4?, hparts]
    simp only [List.map_cons, List.map_nil, octet?_octetText]
    rfl

/-! ### Groups -/

/-- A group of one to four hexadecimal digits, of which the first counts most. -/
def IsGroup (s : Bytes) (g : Nat) : Prop :=
  ∃ ds : List Nat, s.map Number.digitValue? = ds.map some ∧ (∀ d ∈ ds, d < 16) ∧
    0 < ds.length ∧ ds.length ≤ 4 ∧ g = ds.foldl (fun n d => n * 16 + d) 0

/-- Groups with colons between them, of which the last two may be four octets if `v4Last`. -/
inductive Groups (v4Last : Bool) : Bytes → List Nat → Prop
  | one {s : Bytes} {g : Nat} (h : IsGroup s g) : Groups v4Last s [g]
  | octets (a b c d : UInt8) (h : v4Last = true) :
      Groups v4Last (dotted a b c d) [a.toNat * 256 + b.toNat, c.toNat * 256 + d.toNat]
  | cons {s rest : Bytes} {g : Nat} {gs : List Nat} (h : IsGroup s g) (hrest : Groups v4Last rest gs) :
      Groups v4Last (s ++ 58 :: rest) (g :: gs)

/-- Digits are read one after the other onto a number. -/
theorem foldlM_digits {read : Nat → UInt8 → Option Nat}
    (hread : ∀ n c m, read n c = some m ↔ ∃ d, Number.digitValue? c = some d ∧ d < 16 ∧ n * 16 + d = m)
    {g : Nat} (s : Bytes) : ∀ n : Nat, s.foldlM read n = some g ↔
      ∃ ds : List Nat, s.map Number.digitValue? = ds.map some ∧ (∀ d ∈ ds, d < 16) ∧
        g = ds.foldl (fun n d => n * 16 + d) n := by
  induction s with
  | nil =>
    intro n
    refine ⟨fun h => ⟨[], rfl, by simp, (Option.some_inj.mp h).symm⟩, ?_⟩
    rintro ⟨ds, hds, -, rfl⟩
    rw [List.map_nil, eq_comm, List.map_eq_nil_iff] at hds
    rw [hds]
    rfl
  | cons c s ih =>
    intro n
    rw [List.foldlM_cons, Option.bind_eq_bind, Option.bind_eq_some_iff]
    constructor
    · rintro ⟨m, hm, hrest⟩
      obtain ⟨ds, hds, hall, rfl⟩ := (ih m).mp hrest
      obtain ⟨d, hd, hlt, rfl⟩ := (hread n c m).mp hm
      exact ⟨d :: ds, by rw [List.map_cons, List.map_cons, hd, hds],
        List.forall_mem_cons.mpr ⟨hlt, hall⟩, rfl⟩
    · rintro ⟨_ | ⟨d, ds⟩, hds, hall, rfl⟩
      · cases hds
      · rw [List.map_cons, List.map_cons, List.cons.injEq] at hds
        rw [List.forall_mem_cons] at hall
        exact ⟨_, (hread n c _).mpr ⟨d, hds.1, hall.1, rfl⟩, (ih _).mpr ⟨ds, hds.2, hall.2, rfl⟩⟩

/-- **What is read as a group is a group.** -/
theorem group?_eq_some_iff {s : Bytes} {g : Nat} : group? s = some g ↔ IsGroup s g := by
  have hlength : ∀ ds : List Nat, s.map Number.digitValue? = ds.map some → s.length = ds.length := by
    intro ds hds
    have hmap := congrArg List.length hds
    rwa [List.length_map, List.length_map] at hmap
  rw [group?, IsGroup]
  split
  · next hwrong =>
    simp only [Bool.or_eq_true, List.isEmpty_iff_length_eq_zero, decide_eq_true_eq] at hwrong
    refine ⟨nofun, ?_⟩
    rintro ⟨ds, hds, -, hpos, hle, -⟩
    have := hlength ds hds
    omega
  · next hright =>
    simp only [Bool.or_eq_true, List.isEmpty_iff_length_eq_zero, decide_eq_true_eq, not_or] at hright
    rw [foldlM_digits]
    · refine exists_congr fun ds => and_congr_right fun hds => and_congr_right fun _ => ?_
      have := hlength ds hds
      exact ⟨fun h => ⟨by omega, by omega, h⟩, fun h => h.2.2⟩
    · intro n c m
      cases Number.digitValue? c <;> simp

theorem IsGroup.isSome_digitValue? {s : Bytes} {g : Nat} (h : IsGroup s g) {c : UInt8} (hc : c ∈ s) :
    (Number.digitValue? c).isSome = true := by
  obtain ⟨ds, hds, -⟩ := h
  have hmem : Number.digitValue? c ∈ ds.map some := hds ▸ List.mem_map_of_mem hc
  obtain ⟨d, -, hd⟩ := List.mem_map.mp hmem
  rw [← hd]
  rfl

theorem IsGroup.ne_nil {s : Bytes} {g : Nat} (h : IsGroup s g) : s ≠ [] := by
  obtain ⟨ds, hds, -, hpos, -⟩ := h
  rintro rfl
  rw [List.map_nil, eq_comm, List.map_eq_nil_iff] at hds
  rw [hds] at hpos
  cases hpos

theorem mem_dotted {a b c d x : UInt8} (h : x ∈ dotted a b c d) : Number.isDigit x = true ∨ x = 46 :=
  forall_mem_intercalate (P := fun x => Number.isDigit x = true ∨ x = 46)
    (List.forall_mem_singleton.mpr (.inr rfl))
    (List.forall_mem_map.mpr fun _ _ _ hx => .inl (isDigit_of_mem_octetText hx)) x h

theorem not_isGroup_dotted (a b c d : UInt8) (g : Nat) : ¬ IsGroup (dotted a b c d) g := by
  intro h
  have hmem : (46 : UInt8) ∈ dotted a b c d := by
    simp [dotted, List.intercalate_cons_cons]
  exact absurd (h.isSome_digitValue? hmem) (by decide)

theorem IsGroup.colon_not_mem {s : Bytes} {g : Nat} (h : IsGroup s g) : 58 ∉ s := fun hmem =>
  absurd (h.isSome_digitValue? hmem) (by decide)

theorem colon_not_mem_dotted (a b c d : UInt8) : 58 ∉ dotted a b c d := fun hmem =>
  (mem_dotted hmem).elim (fun h => absurd h (by decide)) (fun h => absurd h (by decide))

theorem split_of_not_mem {s : Bytes} {c : UInt8} (h : c ∉ s) : s.split c = [s] := by
  have hsplit : ([c].intercalate [s]).splitOn c = [s] :=
    List.splitOn_intercalate c (List.forall_mem_singleton.mpr h) (List.cons_ne_nil _ _)
  rwa [List.intercalate_singleton, ← Bytes.split_eq] at hsplit

theorem split_append_cons {s : Bytes} {c : UInt8} (h : c ∉ s) (rest : Bytes) :
    (s ++ c :: rest).split c = s :: rest.split c := by
  rw [Bytes.split_eq, List.splitOn_append_cons_self_of_not_mem h, Bytes.split_eq]

theorem groups?_cons {v4Last : Bool} (g : Bytes) {rest : List Bytes} (hrest : rest ≠ []) :
    groups? v4Last (g :: rest)
      = (group? g).bind fun g => (groups? v4Last rest).bind fun gs => some (g :: gs) := by
  rcases rest with _ | ⟨next, rest⟩
  · exact absurd rfl hrest
  · rw [groups?]
    · rfl
    · nofun

theorem groups_intercalate {v4Last : Bool} {parts : List Bytes} (hparts : parts ≠ []) :
    ∀ {gs : List Nat}, groups? v4Last parts = some gs → Groups v4Last ([58].intercalate parts) gs := by
  induction parts with
  | nil => exact absurd rfl hparts
  | cons part parts ih =>
    intro gs h
    rcases parts with _ | ⟨next, parts⟩
    · rw [List.intercalate_singleton]
      rw [groups?] at h
      split at h
      · next g hg =>
        cases h
        exact .one (group?_eq_some_iff.mp hg)
      · split at h
        · -- the last group may be written as four octets, which are two groups
          next hlast =>
          obtain ⟨v, hv, rfl⟩ := Option.map_eq_some_iff.mp h
          obtain ⟨a, b, c, d, rfl, rfl⟩ := parseV4?_eq_some_iff.mp hv
          have hc := c.toNat_lt
          have hd := d.toNat_lt
          rw [show (((a.toNat * 256 + b.toNat) * 256 + c.toNat) * 256 + d.toNat) / 65536
              = a.toNat * 256 + b.toNat by omega,
            show (((a.toNat * 256 + b.toNat) * 256 + c.toNat) * 256 + d.toNat) % 65536
              = c.toNat * 256 + d.toNat by omega]
          exact .octets a b c d hlast
        · cases h
    · rw [groups?_cons _ (List.cons_ne_nil _ _), Option.bind_eq_some_iff] at h
      obtain ⟨g, hg, h⟩ := h
      obtain ⟨rest, hrest, h⟩ := Option.bind_eq_some_iff.mp h
      cases h
      rw [List.intercalate_cons_cons]
      have hcons := Groups.cons (group?_eq_some_iff.mp hg) (ih (List.cons_ne_nil _ _) hrest)
      rwa [← List.append_cons]

/-- **What is read as groups are groups.** -/
theorem groups?_split_eq_some_iff {v4Last : Bool} {s : Bytes} {gs : List Nat} :
    groups? v4Last (s.split 58) = some gs ↔ Groups v4Last s gs := by
  have hne : ∀ s : Bytes, s.split 58 ≠ [] := fun s => by
    rw [Bytes.split_eq]
    exact List.splitOn_ne_nil 58 s
  constructor
  · intro h
    have hgroups := groups_intercalate (hne s) h
    rwa [Bytes.split_eq, List.intercalate_splitOn] at hgroups
  · intro h
    induction h with
    | one h => rw [split_of_not_mem h.colon_not_mem, groups?, group?_eq_some_iff.mpr h]
    | octets a b c d hlast =>
      have hgroup : group? (dotted a b c d) = none :=
        Option.eq_none_iff_forall_ne_some.mpr fun g hg =>
          not_isGroup_dotted a b c d g (group?_eq_some_iff.mp hg)
      have hc := c.toNat_lt
      have hd := d.toNat_lt
      rw [split_of_not_mem (colon_not_mem_dotted a b c d), groups?, hgroup, hlast,
        parseV4?_eq_some_iff.mpr ⟨a, b, c, d, rfl, rfl⟩]
      simp
      omega
    | cons h _ ih =>
      rw [split_append_cons h.colon_not_mem, groups?_cons _ (hne _), group?_eq_some_iff.mpr h, ih]
      rfl

/-! ### Double colons -/

theorem splitEllipsis_append {s : Bytes} (h : 58 ∉ s) (t : Bytes) :
    splitEllipsis (s ++ t) = (splitEllipsis t).map fun p => (s ++ p.1, p.2) := by
  induction s with
  | nil => simp
  | cons c s ih =>
    rw [List.mem_cons, not_or] at h
    rw [List.cons_append, splitEllipsis, ih h.2, Option.map_map]
    · rfl
    · rintro rest hc -
      exact h.1 hc.symm

/-- A colon with no other one behind it belongs to what is before a double colon. -/
theorem splitEllipsis_cons {c : UInt8} (h : c ≠ 58) (t : Bytes) :
    splitEllipsis (58 :: c :: t) = (splitEllipsis (c :: t)).map fun p => (58 :: p.1, p.2) := by
  rw [splitEllipsis.eq_2]
  rintro rest - hrest
  exact h (List.cons.inj hrest).1

/-- Groups begin with a sign of their own. -/
theorem Groups.exists_cons {v4Last : Bool} {s : Bytes} {gs : List Nat} (h : Groups v4Last s gs) :
    ∃ c t, s = c :: t ∧ c ≠ 58 := by
  have hfirst : ∀ {first rest : Bytes}, first ≠ [] → 58 ∉ first →
      ∃ c t, first ++ rest = c :: t ∧ c ≠ 58 := by
    intro first rest hne hcolon
    obtain ⟨c, t, rfl⟩ := List.exists_cons_of_ne_nil hne
    exact ⟨c, t ++ rest, rfl, fun hc => hcolon (hc ▸ List.mem_cons_self)⟩
  cases h with
  | one h =>
    rw [← s.append_nil]
    exact hfirst h.ne_nil h.colon_not_mem
  | octets a b c d =>
    rw [← (dotted a b c d).append_nil]
    exact hfirst (by simp [dotted, List.intercalate_cons_cons]) (colon_not_mem_dotted a b c d)
  | cons h => exact hfirst h.ne_nil h.colon_not_mem

/-- **Groups hold no double colon**, and end with none of its colons. -/
theorem Groups.splitEllipsis_append {v4Last : Bool} {s : Bytes} {gs : List Nat} (h : Groups v4Last s gs) :
    ∀ t, splitEllipsis (s ++ t) = (splitEllipsis t).map fun p => (s ++ p.1, p.2) := by
  induction h with
  | one h => exact Ip.splitEllipsis_append h.colon_not_mem
  | octets a b c d => exact Ip.splitEllipsis_append (colon_not_mem_dotted a b c d)
  | @cons s rest g gs h hrest ih =>
    intro t
    obtain ⟨c, more, rfl, hc⟩ := hrest.exists_cons
    rw [List.append_assoc, Ip.splitEllipsis_append h.colon_not_mem, List.cons_append, List.cons_append,
      splitEllipsis_cons hc, ← List.cons_append, ih, Option.map_map, Option.map_map]
    congr 1
    funext p
    simp

theorem eq_of_splitEllipsis {s a b : Bytes} (h : splitEllipsis s = some (a, b)) : s = a ++ 58 :: 58 :: b := by
  fun_induction splitEllipsis s generalizing a b with
  | case1 rest =>
    cases h
    rfl
  | case2 c rest _ ih =>
    obtain ⟨⟨a', b'⟩, hrest, heq⟩ := Option.map_eq_some_iff.mp h
    cases heq
    rw [ih hrest]
    rfl
  | case3 => cases h

/-! ### Addresses -/

/-- Groups, or none. -/
def Part (v4Last : Bool) (s : Bytes) (gs : List Nat) : Prop :=
  (s = [] ∧ gs = []) ∨ Groups v4Last s gs

/-- The address of eight groups. -/
def ofGroups (gs : List Nat) : Ip :=
  ⟨gs.foldl (fun n g => n * 65536 + g) 0⟩

/-- The texts of an address. A double colon stands for the groups of zero that are missing, one at least. -/
inductive Literal : Bytes → Ip → Prop
  | v4 (a b c d : UInt8) : Literal (dotted a b c d) (ofOctets a b c d)
  | full {s : Bytes} {gs : List Nat} (h : Groups true s gs) (hlength : gs.length = 8) :
      Literal s (ofGroups gs)
  | ellipsis {s t : Bytes} {gs hs : List Nat} (hbefore : Part false s gs) (hafter : Part true t hs)
      (hlength : gs.length + hs.length < 8) : Literal (s ++ 58 :: 58 :: t)
        (ofGroups (gs ++ List.replicate (8 - (gs.length + hs.length)) 0 ++ hs))

theorem partGroups?_eq_some_iff {v4Last : Bool} {s : Bytes} {gs : List Nat} :
    partGroups? v4Last s = some gs ↔ Part v4Last s gs := by
  rw [partGroups?, Part]
  rcases s with _ | ⟨c, s⟩
  · rw [List.isEmpty_nil, if_pos rfl, Option.some_inj]
    refine ⟨fun h => .inl ⟨rfl, h.symm⟩, ?_⟩
    rintro (⟨-, rfl⟩ | h)
    · rfl
    · obtain ⟨c, t, hnil, -⟩ := h.exists_cons
      cases hnil
  · rw [List.isEmpty_cons, if_neg Bool.false_ne_true, groups?_split_eq_some_iff]
    exact ⟨.inr, fun h => h.resolve_left fun hnil => nomatch hnil.1⟩

theorem Part.splitEllipsis_append {v4Last : Bool} {s : Bytes} {gs : List Nat} (h : Part v4Last s gs)
    (t : Bytes) : splitEllipsis (s ++ t) = (splitEllipsis t).map fun p => (s ++ p.1, p.2) := by
  rcases h with ⟨rfl, -⟩ | h
  · exact Ip.splitEllipsis_append List.not_mem_nil t
  · exact h.splitEllipsis_append t

/-- The texts of addresses without a double colon. -/
theorem parseV6?_of_full {s : Bytes} {gs : List Nat} (h : Groups true s gs) (hlength : gs.length = 8) :
    parseV6? s = some (ofGroups gs).value := by
  have hnone : splitEllipsis s = none := by
    have happend := h.splitEllipsis_append []
    rwa [List.append_nil] at happend
  rw [parseV6?, hnone]
  simp [partGroups?_eq_some_iff.mpr (.inr h), hlength, ofGroups]

/-- The texts of addresses with a double colon. -/
theorem parseV6?_of_ellipsis {s t : Bytes} {gs hs : List Nat} (hbefore : Part false s gs)
    (hafter : Part true t hs) (hlength : gs.length + hs.length < 8) :
    parseV6? (s ++ 58 :: 58 :: t)
      = some (ofGroups (gs ++ List.replicate (8 - (gs.length + hs.length)) 0 ++ hs)).value := by
  have hsplit : splitEllipsis (s ++ 58 :: 58 :: t) = some (s, t) := by
    rw [hbefore.splitEllipsis_append, splitEllipsis, Option.map_some, List.append_nil]
  rw [parseV6?, hsplit]
  simp [partGroups?_eq_some_iff.mpr hbefore, partGroups?_eq_some_iff.mpr hafter, hlength, ofGroups]

theorem literal_of_parseV6? {s : Bytes} {n : Nat} (h : parseV6? s = some n) : Literal s ⟨n⟩ := by
  rw [parseV6?] at h
  split at h
  · simp only [Option.bind_eq_bind, Option.bind_eq_some_iff, Option.bind_some, Option.bind_none,
      Option.pure_def, Option.ite_none_right_eq_some, Option.some_inj] at h
    obtain ⟨gs, hgs, hlength, rfl⟩ := h
    rcases partGroups?_eq_some_iff.mp hgs with ⟨-, rfl⟩ | hgroups
    · cases hlength
    · exact .full hgroups hlength
  · next before after hsplit =>
    simp only [Option.bind_eq_bind, Option.bind_eq_some_iff, Option.bind_some, Option.bind_none,
      Option.pure_def, Option.ite_none_right_eq_some, Option.some_inj] at h
    obtain ⟨gs, hgs, hs, hhs, hlength, rfl⟩ := h
    rw [eq_of_splitEllipsis hsplit]
    exact .ellipsis (partGroups?_eq_some_iff.mp hgs) (partGroups?_eq_some_iff.mp hhs) hlength

/-! ### Reading -/

/-- The signs of an address of 128 bits. -/
def IsSign (c : UInt8) : Prop :=
  (Number.digitValue? c).isSome = true ∨ c = 46 ∨ c = 58

theorem isSign_dotted {a b c d : UInt8} : ∀ x ∈ dotted a b c d, IsSign x := by
  intro x hx
  refine (mem_dotted hx).imp (fun hdigit => ?_) .inl
  rw [Number.isDigit, Bool.and_eq_true, decide_eq_true_eq, decide_eq_true_eq] at hdigit
  rw [Number.digitValue?, if_pos hdigit]
  rfl

theorem Groups.isSign {v4Last : Bool} {s : Bytes} {gs : List Nat} (h : Groups v4Last s gs) :
    ∀ c ∈ s, IsSign c := by
  induction h with
  | one h => exact fun c hc => .inl (h.isSome_digitValue? hc)
  | octets => exact isSign_dotted
  | cons h _ ih =>
    exact List.forall_mem_append.mpr ⟨fun c hc => .inl (h.isSome_digitValue? hc),
      List.forall_mem_cons.mpr ⟨.inr (.inr rfl), ih⟩⟩

theorem Part.isSign {v4Last : Bool} {s : Bytes} {gs : List Nat} (h : Part v4Last s gs) :
    ∀ c ∈ s, IsSign c := by
  rcases h with ⟨rfl, -⟩ | h
  · exact fun c hc => absurd hc List.not_mem_nil
  · exact h.isSign

/-- No text of an address holds a sign of another kind. -/
theorem Literal.isSign {s : Bytes} {ip : Ip} (h : Literal s ip) : ∀ c ∈ s, IsSign c := by
  cases h with
  | v4 => exact isSign_dotted
  | full h => exact h.isSign
  | ellipsis hbefore hafter =>
    exact List.forall_mem_append.mpr ⟨hbefore.isSign, List.forall_mem_cons.mpr ⟨.inr (.inr rfl),
      List.forall_mem_cons.mpr ⟨.inr (.inr rfl), hafter.isSign⟩⟩⟩

/-- A text whose first separator is a dot or a colon. -/
def FirstSeparator (c : UInt8) (s : Bytes) : Prop :=
  ∃ first rest, (46 ∉ first ∧ 58 ∉ first) ∧ s = first ++ c :: rest

theorem IsGroup.firstSeparator {s : Bytes} {g : Nat} (h : IsGroup s g) (rest : Bytes) :
    FirstSeparator 58 (s ++ 58 :: rest) :=
  ⟨s, rest, ⟨fun hmem => absurd (h.isSome_digitValue? hmem) (by decide), h.colon_not_mem⟩, rfl⟩

theorem Part.firstSeparator {s : Bytes} {gs : List Nat} (h : Part false s gs) (t : Bytes) :
    FirstSeparator 58 (s ++ 58 :: t) := by
  rcases h with ⟨rfl, -⟩ | h
  · exact ⟨[], t, ⟨List.not_mem_nil, List.not_mem_nil⟩, rfl⟩
  · cases h with
    | one h => exact h.firstSeparator t
    | octets _ _ _ _ hlast => cases hlast
    | cons h =>
      rw [List.append_assoc]
      exact h.firstSeparator _

theorem firstSeparator_dotted (a b c d : UInt8) : FirstSeparator 46 (dotted a b c d) := by
  have hdigits : ∀ x, Number.isDigit x = false → x ∉ octetText a := fun x hx hmem => by
    rw [isDigit_of_mem_octetText hmem] at hx
    cases hx
  refine ⟨octetText a, [46].intercalate ([b, c, d].map octetText),
    ⟨hdigits 46 (by decide), hdigits 58 (by decide)⟩, ?_⟩
  simp [dotted, List.intercalate_cons_cons]

/-- The first separator tells the two kinds of addresses apart. -/
theorem FirstSeparator.find?_eq {c : UInt8} {s : Bytes} (h : FirstSeparator c s) (hc : c = 46 ∨ c = 58) :
    s.find? (fun c => c = 46 || c = 58) = some c := by
  obtain ⟨first, rest, hfirst, rfl⟩ := h
  have hnone : first.find? (fun c => c = 46 || c = 58) = none := by
    rw [List.find?_eq_none]
    intro x hx hsep
    rw [Bool.or_eq_true, decide_eq_true_eq, decide_eq_true_eq] at hsep
    rcases hsep with rfl | rfl
    · exact hfirst.1 hx
    · exact hfirst.2 hx
  rw [List.find?_append, hnone, Option.none_or, List.find?_cons_of_pos (by simpa using hc)]

/-- **The texts of an address are what is read as it.** -/
theorem parse?_eq_some_iff {s : Bytes} {ip : Ip} : parse? s = some ip ↔ Literal s ip := by
  constructor
  · intro h
    rw [parse?] at h
    split at h
    · cases h
    · split at h
      · -- the first separator is a dot
        obtain ⟨v, hv, rfl⟩ := Option.map_eq_some_iff.mp h
        obtain ⟨a, b, c, d, rfl, rfl⟩ := parseV4?_eq_some_iff.mp hv
        exact .v4 a b c d
      · -- the first separator is a colon
        obtain ⟨n, hn, rfl⟩ := Option.map_eq_some_iff.mp h
        exact literal_of_parseV6? hn
      · cases h
  · intro h
    -- the sign of a zone is in no text of an address
    have hpercent : s.contains 37 ≠ true := fun hmem =>
      absurd (h.isSign 37 (List.contains_iff_mem.mp hmem)) (by unfold IsSign; decide)
    rw [parse?, if_neg hpercent]
    cases h with
    | v4 a b c d =>
      rw [(firstSeparator_dotted a b c d).find?_eq (.inl rfl)]
      rw [parseV4?_eq_some_iff.mpr ⟨a, b, c, d, rfl, rfl⟩]
      rfl
    | full h hlength =>
      have hfirst : FirstSeparator 58 s := by
        cases h with
        | one | octets => cases hlength
        | cons hgroup => exact hgroup.firstSeparator _
      rw [hfirst.find?_eq (.inr rfl)]
      rw [parseV6?_of_full h hlength]
      rfl
    | ellipsis hbefore hafter hlength =>
      rw [(hbefore.firstSeparator _).find?_eq (.inr rfl)]
      rw [parseV6?_of_ellipsis hbefore hafter hlength]
      rfl

/-- **Four octets are the same address behind the first groups of their block.** -/
theorem parse?_dotted (a b c d : UInt8) : parse? (dotted a b c d) = some (ofOctets a b c d) :=
  parse?_eq_some_iff.mpr (.v4 a b c d)

theorem parse?_mapped (a b c d : UInt8) :
    parse? (utf8 "::ffff:" ++ dotted a b c d) = some (ofOctets a b c d) := by
  have htext : utf8 "::ffff:" = 58 :: 58 :: (utf8 "ffff" ++ [58]) := by decide
  have hgroup : IsGroup (utf8 "ffff") 0xFFFF := group?_eq_some_iff.mp (by decide)
  have hliteral := Literal.ellipsis (.inl ⟨rfl, rfl⟩) (.inr (.cons hgroup (.octets a b c d rfl)))
    (by simp)
  have hvalue : ofGroups (List.replicate 5 0 ++
      [0xFFFF, a.toNat * 256 + b.toNat, c.toNat * 256 + d.toNat]) = ofOctets a b c d := by
    simp [ofGroups, ofOctets, v4Block]
    omega
  rw [htext, parse?_eq_some_iff, List.cons_append, List.cons_append, List.append_assoc, ← hvalue]
  exact hliteral

example : parse? (utf8 "192.168.0.1") = some (ofOctets 192 168 0 1) ∧
    parse? (utf8 "192.168.00.1") = none ∧ parse? (utf8 "::ffff:c0a8:1") = some (ofOctets 192 168 0 1) := by
  decide +kernel

end TapeMachine.Ip
