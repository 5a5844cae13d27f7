/-
Loading accepts exactly the balanced sources.

A source is read twice: `Program.scan` picks out its commands with their offsets, and
`Program.matchBrackets` resolves their brackets.

* `getElem?_scan_eq_some_iff`: what the first pass finds at a position;
* `resolved_of_load`: what a loaded program says about its source;
* `load_resolves_brackets`: which sources are accepted, how their brackets are paired, and which
  bracket is blamed in the others.
-/
import TapeMachine.Proofs.Program.Resolve

namespace TapeMachine.Program

open Brackets

/-- The commands of a source; all other bytes are comments. -/
def commandsOf (src : Bytes) : List Command :=
  src.filterMap Command.ofByte?

/-- The command number `i` of the source is `c`, and its byte has the offset `k`. -/
structure CommandAt (src : Bytes) (i : Nat) (c : Command) (k : Nat) : Prop where
  byte : src[k]? = some c.toByte
  before : (commandsOf (src.take k)).length = i

/-! ### The scan of a source -/

theorem commandsOf_cons_of_none {b : UInt8} (h : Command.ofByte? b = none) (src : Bytes) :
    commandsOf (b :: src) = commandsOf src :=
  List.filterMap_cons_none h

theorem commandsOf_cons_of_some {b : UInt8} {c : Command} (h : Command.ofByte? b = some c)
    (src : Bytes) : commandsOf (b :: src) = c :: commandsOf src :=
  List.filterMap_cons_some h

theorem commandAt_cons_of_none {b : UInt8} (h : Command.ofByte? b = none) {src : Bytes} {i k : Nat}
    {c : Command} :
    CommandAt (b :: src) i c k ↔ ∃ k', k = k' + 1 ∧ CommandAt src i c k' := by
  constructor
  · intro hat
    rcases k with _ | k
    · have hb := hat.byte
      rw [List.getElem?_cons_zero, Option.some_inj] at hb
      rw [hb, Command.ofByte?_toByte] at h
      cases h
    · have hbefore := hat.before
      rw [List.take_succ_cons, commandsOf_cons_of_none h] at hbefore
      exact ⟨k, rfl, by simpa using hat.byte, hbefore⟩
  · rintro ⟨k, rfl, hbyte, hbefore⟩
    refine ⟨by simpa using hbyte, ?_⟩
    rw [List.take_succ_cons, commandsOf_cons_of_none h]
    exact hbefore

theorem commandAt_cons_of_some {b : UInt8} {d : Command} (h : Command.ofByte? b = some d)
    {src : Bytes} {i k : Nat} {c : Command} :
    CommandAt (b :: src) i c k ↔
      (i = 0 ∧ k = 0 ∧ d = c) ∨ ∃ i' k', i = i' + 1 ∧ k = k' + 1 ∧ CommandAt src i' c k' := by
  constructor
  · intro hat
    have hbyte := hat.byte
    have hbefore := hat.before
    rcases k with _ | k
    · rw [List.getElem?_cons_zero, Option.some_inj] at hbyte
      rw [hbyte, Command.ofByte?_toByte, Option.some_inj] at h
      exact .inl ⟨hbefore.symm, rfl, h.symm⟩
    · rw [List.take_succ_cons, commandsOf_cons_of_some h, List.length_cons] at hbefore
      exact .inr ⟨_, k, hbefore.symm, rfl, by simpa using hbyte, rfl⟩
  · rintro (⟨rfl, rfl, rfl⟩ | ⟨i, k, rfl, rfl, hbyte, hbefore⟩)
    · refine ⟨?_, by simp [commandsOf]⟩
      rw [List.getElem?_cons_zero, Command.toByte_of_ofByte? h]
    · refine ⟨by simpa using hbyte, ?_⟩
      rw [List.take_succ_cons, commandsOf_cons_of_some h, List.length_cons, hbefore]

/-- The scan of a source whose first byte has the offset `n`. -/
def scanFrom (n : Nat) (src : Bytes) : List (Command × Nat) :=
  (src.zipIdx n).filterMap fun (b, i) => (Command.ofByte? b).map (·, i)

theorem scanFrom_cons_of_none {b : UInt8} (h : Command.ofByte? b = none) (n : Nat) (src : Bytes) :
    scanFrom n (b :: src) = scanFrom (n + 1) src := by
  rw [scanFrom, List.zipIdx_cons, List.filterMap_cons_none (by simp [h])]
  rfl

theorem scanFrom_cons_of_some {b : UInt8} {c : Command} (h : Command.ofByte? b = some c) (n : Nat)
    (src : Bytes) : scanFrom n (b :: src) = (c, n) :: scanFrom (n + 1) src := by
  rw [scanFrom, List.zipIdx_cons, List.filterMap_cons_some (b := (c, n)) (by simp [h])]
  rfl

theorem getElem?_scanFrom_eq_some_iff (src : Bytes) : ∀ {n i m : Nat} {c : Command},
    (scanFrom n src)[i]? = some (c, m) ↔ ∃ k, m = n + k ∧ CommandAt src i c k := by
  induction src with
  | nil =>
    intro n i m c
    constructor
    · intro h
      cases h
    · rintro ⟨k, -, hat⟩
      have hbyte := hat.byte
      cases hbyte
  | cons b src ih =>
    intro n i m c
    rcases hb : Command.ofByte? b with _ | d
    · -- a byte of a comment only moves the offsets
      rw [scanFrom_cons_of_none hb, ih]
      constructor
      · rintro ⟨k, rfl, hat⟩
        exact ⟨k + 1, by omega, (commandAt_cons_of_none hb).mpr ⟨k, rfl, hat⟩⟩
      · rintro ⟨k, rfl, hat⟩
        obtain ⟨k', rfl, hat'⟩ := (commandAt_cons_of_none hb).mp hat
        exact ⟨k', by omega, hat'⟩
    · -- a command byte is the first command, and the others move by one
      rw [scanFrom_cons_of_some hb]
      constructor
      · intro h
        rcases i with _ | i
        · rw [List.getElem?_cons_zero, Option.some_inj, Prod.mk.injEq] at h
          exact ⟨0, h.2.symm, (commandAt_cons_of_some hb).mpr (.inl ⟨rfl, rfl, h.1⟩)⟩
        · rw [List.getElem?_cons_succ, ih] at h
          obtain ⟨k, rfl, hat⟩ := h
          exact ⟨k + 1, by omega, (commandAt_cons_of_some hb).mpr (.inr ⟨i, k, rfl, rfl, hat⟩)⟩
      · rintro ⟨k, rfl, hat⟩
        rcases (commandAt_cons_of_some hb).mp hat with ⟨rfl, rfl, rfl⟩ | ⟨i', k', rfl, rfl, hat'⟩
        · rfl
        · rw [List.getElem?_cons_succ, ih]
          exact ⟨k', by omega, hat'⟩

theorem getElem?_scan_eq_some_iff {src : Bytes} {i k : Nat} {c : Command} :
    (scan src)[i]? = some (c, k) ↔ CommandAt src i c k := by
  rw [show scan src = scanFrom 0 src from rfl, getElem?_scanFrom_eq_some_iff]
  simp

theorem commandsIn_scanFrom (src : Bytes) :
    ∀ n, commandsIn (scanFrom n src) = commandsOf src := by
  induction src with
  | nil =>
    intro n
    rfl
  | cons b src ih =>
    intro n
    rcases hb : Command.ofByte? b with _ | c
    · rw [scanFrom_cons_of_none hb, commandsOf_cons_of_none hb, ih]
    · rw [scanFrom_cons_of_some hb, commandsOf_cons_of_some hb, commandsIn, List.map_cons,
        ← commandsIn, ih]

theorem commandsIn_scan (src : Bytes) : commandsIn (scan src) = commandsOf src :=
  commandsIn_scanFrom src 0

/-- A later command has the larger offset. -/
theorem CommandAt.offset_lt {src : Bytes} {i j k l : Nat} {c d : Command}
    (hi : CommandAt src i c k) (hj : CommandAt src j d l) (hlt : i < j) : k < l := by
  refine Nat.lt_of_not_le fun hle => ?_
  have hcut : src.take l <+: src.take k := List.take_prefix_take_left (by omega)
  have hlen := (hcut.filterMap Command.ofByte?).length_le
  have h1 := hi.before
  have h2 := hj.before
  unfold commandsOf at h1 h2
  omega

theorem map_toByte_commandsOf (src : Bytes) :
    (commandsOf src).map Command.toByte = src.filter Command.isCommand := by
  induction src with
  | nil => rfl
  | cons b src ih =>
    rcases hb : Command.ofByte? b with _ | c
    · rw [commandsOf_cons_of_none hb, List.filter_cons_of_neg (by simp [Command.isCommand, hb]), ih]
    · rw [commandsOf_cons_of_some hb, List.filter_cons_of_pos (by simp [Command.isCommand, hb]),
        List.map_cons, ih, Command.toByte_of_ofByte? hb]

/-! ### Loaded programs -/

/-- Command `i` closes more loops than are open, and no earlier one does. -/
structure FirstSurplus (cs : List Command) (i : Nat) : Prop where
  surplus : opened (cs.take (i + 1)) < closed (cs.take (i + 1))
  first : ∀ n ≤ i, closed (cs.take n) ≤ opened (cs.take n)

/-- Command `i` is a `[` without a partner, and every `[` before it has one. -/
structure LeftmostUnmatched (cs : List Command) (i : Nat) : Prop where
  start : cs[i]? = some .loopStart
  unmatched : ∀ j, ¬ Matching cs i j
  leftmost : ∀ k < i, cs[k]? = some .loopStart → ∃ j, Matching cs k j

/-- What a loaded program says about its source. -/
structure Resolved (src : Bytes) (p : Program) : Prop where
  length : p.length = (commandsOf src).length
  command : ∀ i, p.at? i = (commandsOf src)[i]?
  source : p.source = src.filter Command.isCommand
  offset_isSome : ∀ i, (p.offset? i).isSome ↔ i < p.length
  byte_at_offset : ∀ i k, p.offset? i = some k →
    ∃ c, p.at? i = some c ∧ src[k]? = some c.toByte
  offset_lt : ∀ i j k l, p.offset? i = some k → p.offset? j = some l → i < j → k < l
  offset_covers : ∀ k b, src[k]? = some b → Command.isCommand b → ∃ i, p.offset? i = some k
  partner_isSome : ∀ i,
    (p.partner? i).isSome ↔ p.at? i = some .loopStart ∨ p.at? i = some .loopEnd
  partner_loopStart : ∀ i, p.at? i = some .loopStart → ∃ j, p.partner? i = some j ∧
    p.partner? j = some i ∧ Matching (commandsOf src) i j ∧
    ∀ j', Matching (commandsOf src) i j' → j' = j
  jumpTable : ∀ i j, (i, j) ∈ p.jumpTable ↔ Matched (commandsOf src) i j
  jumpTable_sorted : (p.jumpTable.map Prod.fst).Pairwise (· < ·)

theorem load_eq (src : Bytes) :
    load src = (matchBrackets (scan src) 0 [] (Array.replicate (scan src).length none)).map
      fun partners => {
        commands := ((scan src).map (·.1)).toArray
        offsets := ((scan src).map (·.2)).toArray
        partners } := by
  unfold load
  simp only [bind, Except.bind, pure, Except.pure]
  split <;> simp_all [Except.map]

theorem verdict_scan (src : Bytes) : Verdict (scan src)
    (matchBrackets (scan src) 0 [] (Array.replicate (scan src).length none)) := by
  have h := verdict_matchBrackets (scan src) (resolving_nil (scan src).length) (by simp)
  rwa [List.nil_append] at h

/-- A program is loaded from a source whose brackets are all matched. -/
theorem matched_of_load {src : Bytes} {p : Program} (h : load src = .ok p) :
    matchBrackets (scan src) 0 [] (Array.replicate (scan src).length none) = .ok p.partners ∧
      p.commands = ((scan src).map (·.1)).toArray ∧ p.offsets = ((scan src).map (·.2)).toArray := by
  rw [load_eq] at h
  rcases hm : matchBrackets (scan src) 0 [] (Array.replicate (scan src).length none)
    with e | partners
  · rw [hm] at h
    cases h
  · rw [hm] at h
    cases h
    exact ⟨rfl, rfl, rfl⟩

/-- The error of a source that cannot be loaded is the one of its brackets. -/
theorem unmatched_of_load {src : Bytes} {e : Unmatched} (h : load src = .error e) :
    matchBrackets (scan src) 0 [] (Array.replicate (scan src).length none) = .error e := by
  rw [load_eq] at h
  rcases hm : matchBrackets (scan src) 0 [] (Array.replicate (scan src).length none)
    with e' | partners
  · rw [hm] at h
    cases h
    rfl
  · rw [hm] at h
    cases h

/-- A loaded program holds the scanned commands and offsets and their resolved brackets. -/
theorem resolving_of_load {src : Bytes} {p : Program} (h : load src = .ok p) :
    p.commands = (commandsOf src).toArray ∧ p.offsets = ((scan src).map Prod.snd).toArray ∧
      Resolving (scan src) [] p.partners := by
  obtain ⟨hmatch, hcommands, hoffsets⟩ := matched_of_load h
  have hverdict := verdict_scan src
  rw [hmatch] at hverdict
  refine ⟨?_, hoffsets, hverdict⟩
  rw [hcommands, ← commandsIn_scan]
  rfl

theorem closeBracket_of_load {src : Bytes} {q : Place}
    (h : load src = .error (.closeBracket q)) :
    CommandAt src q.position .loopEnd q.offset ∧
      Balanced ((commandsOf src).take q.position) := by
  have hverdict := verdict_scan src
  rw [unmatched_of_load h] at hverdict
  obtain ⟨hat, hbal⟩ := hverdict
  rw [commandsIn_scan] at hbal
  exact ⟨getElem?_scan_eq_some_iff.mp hat, hbal⟩

theorem openBracket_of_load {src : Bytes} {q : Place} (h : load src = .error (.openBracket q)) :
    ∃ pending partners, Resolving (scan src) pending partners ∧ pending.getLast? = some q := by
  have hverdict := verdict_scan src
  rw [unmatched_of_load h] at hverdict
  exact hverdict

theorem partner?_eq_some_iff {src : Bytes} {p : Program} (h : load src = .ok p) {i j : Nat} :
    p.partner? i = some j ↔ Matched (commandsOf src) i j := by
  obtain ⟨-, -, hres⟩ := resolving_of_load h
  rw [← commandsIn_scan]
  exact hres.partner i j

theorem at?_of_load {src : Bytes} {p : Program} (h : load src = .ok p) (i : Nat) :
    p.at? i = (commandsOf src)[i]? := by
  obtain ⟨hcommands, -, -⟩ := resolving_of_load h
  rw [at?, hcommands, List.getElem?_toArray]

theorem length_of_load {src : Bytes} {p : Program} (h : load src = .ok p) :
    p.length = (commandsOf src).length := by
  obtain ⟨hcommands, -, -⟩ := resolving_of_load h
  rw [length, hcommands, List.size_toArray]

theorem offset?_eq_some_iff {src : Bytes} {p : Program} (h : load src = .ok p) {i k : Nat} :
    p.offset? i = some k ↔ ∃ c, CommandAt src i c k := by
  obtain ⟨-, hoffsets, -⟩ := resolving_of_load h
  rw [offset?, hoffsets, List.getElem?_toArray, List.getElem?_map, Option.map_eq_some_iff]
  constructor
  · rintro ⟨⟨c, m⟩, hat, rfl⟩
    exact ⟨c, getElem?_scan_eq_some_iff.mp hat⟩
  · rintro ⟨c, hat⟩
    exact ⟨(c, k), getElem?_scan_eq_some_iff.mpr hat, rfl⟩

theorem CommandAt.command {src : Bytes} {i k : Nat} {c : Command} (h : CommandAt src i c k) :
    (commandsOf src)[i]? = some c := by
  have hscan := getElem?_scan_eq_some_iff.mpr h
  rw [← commandsIn_scan, commandsIn, List.getElem?_map, hscan]
  rfl

theorem exists_commandAt {src : Bytes} {i : Nat} {c : Command}
    (h : (commandsOf src)[i]? = some c) : ∃ k, CommandAt src i c k := by
  rw [← commandsIn_scan, commandsIn, List.getElem?_map, Option.map_eq_some_iff] at h
  obtain ⟨⟨d, k⟩, hat, rfl⟩ := h
  exact ⟨k, getElem?_scan_eq_some_iff.mp hat⟩

theorem exists_matching_of_loopStart {src : Bytes} {p : Program} (h : load src = .ok p) {i : Nat}
    (hi : p.at? i = some .loopStart) : ∃ j, Matching (commandsOf src) i j := by
  obtain ⟨-, -, hres⟩ := resolving_of_load h
  rw [at?_of_load h, ← commandsIn_scan] at hi
  rw [← commandsIn_scan]
  rcases hres.starts i hi with hpending | hj
  · exact absurd hpending (by simp)
  · exact hj

theorem exists_matching_of_loopEnd {src : Bytes} {p : Program} (h : load src = .ok p) {j : Nat}
    (hj : p.at? j = some .loopEnd) : ∃ i, Matching (commandsOf src) i j := by
  obtain ⟨-, -, hres⟩ := resolving_of_load h
  rw [at?_of_load h, ← commandsIn_scan] at hj
  rw [← commandsIn_scan]
  exact hres.stops j hj

theorem mem_jumpTable_iff {p : Program} {i j : Nat} :
    (i, j) ∈ p.jumpTable ↔ p.partner? i = some j := by
  rw [jumpTable, List.mem_filterMap, partner?, ← Array.getElem?_toList, Option.join_eq_some_iff]
  constructor
  · rintro ⟨⟨a, k⟩, hmem, hpair⟩
    obtain ⟨b, rfl, hb⟩ := Option.map_eq_some_iff.mp hpair
    cases hb
    exact List.mk_mem_zipIdx_iff_getElem?.mp hmem
  · intro hget
    exact ⟨(some j, i), List.mk_mem_zipIdx_iff_getElem?.mpr hget, rfl⟩

theorem pairwise_jumpTable (p : Program) : (p.jumpTable.map Prod.fst).Pairwise (· < ·) := by
  have hpositions : (p.partners.toList.zipIdx.map Prod.snd).Pairwise (· < ·) := by
    rw [List.zipIdx_map_snd]
    exact List.pairwise_lt_range'
  rw [List.pairwise_map] at hpositions ⊢
  rw [jumpTable, List.pairwise_filterMap]
  refine hpositions.imp ?_
  rintro ⟨a, k⟩ ⟨b, l⟩ hlt x hx y hy
  obtain ⟨i, -, rfl⟩ := Option.map_eq_some_iff.mp hx
  obtain ⟨j, -, rfl⟩ := Option.map_eq_some_iff.mp hy
  exact hlt

theorem resolved_of_load {src : Bytes} {p : Program} (h : load src = .ok p) :
    Resolved src p where
  length := length_of_load h
  command := at?_of_load h
  source := by
    obtain ⟨hcommands, -, -⟩ := resolving_of_load h
    rw [source, hcommands]
    exact map_toByte_commandsOf src
  offset_isSome := by
    intro i
    rw [Option.isSome_iff_exists, length_of_load h]
    constructor
    · rintro ⟨k, hk⟩
      obtain ⟨c, hat⟩ := (offset?_eq_some_iff h).mp hk
      exact (List.getElem?_eq_some_iff.mp hat.command).choose
    · intro hi
      obtain ⟨k, hat⟩ := exists_commandAt (List.getElem?_eq_getElem hi)
      exact ⟨k, (offset?_eq_some_iff h).mpr ⟨_, hat⟩⟩
  byte_at_offset := by
    intro i k hk
    obtain ⟨c, hat⟩ := (offset?_eq_some_iff h).mp hk
    rw [at?_of_load h]
    exact ⟨c, hat.command, hat.byte⟩
  offset_lt := by
    intro i j k l hk hl hij
    obtain ⟨c, hi⟩ := (offset?_eq_some_iff h).mp hk
    obtain ⟨d, hj⟩ := (offset?_eq_some_iff h).mp hl
    exact hi.offset_lt hj hij
  offset_covers := by
    intro k b hb hcommand
    obtain ⟨c, hc⟩ := Option.isSome_iff_exists.mp hcommand
    refine ⟨_, (offset?_eq_some_iff h).mpr ⟨c, ?_, rfl⟩⟩
    rw [hb, Command.toByte_of_ofByte? hc]
  partner_isSome := by
    intro i
    rw [Option.isSome_iff_exists]
    constructor
    · rintro ⟨j, hj⟩
      rw [at?_of_load h]
      exact ((partner?_eq_some_iff h).mp hj).imp Matching.start Matching.stop
    · rintro (hi | hi)
      · obtain ⟨j, hj⟩ := exists_matching_of_loopStart h hi
        exact ⟨j, (partner?_eq_some_iff h).mpr (.inl hj)⟩
      · obtain ⟨j, hj⟩ := exists_matching_of_loopEnd h hi
        exact ⟨j, (partner?_eq_some_iff h).mpr (.inr hj)⟩
  partner_loopStart := by
    intro i hi
    obtain ⟨j, hj⟩ := exists_matching_of_loopStart h hi
    exact ⟨j, (partner?_eq_some_iff h).mpr (.inl hj), (partner?_eq_some_iff h).mpr (.inr hj), hj,
      fun j' hj' => hj'.right_unique hj⟩
  jumpTable := by
    intro i j
    rw [mem_jumpTable_iff, partner?_eq_some_iff h]
  jumpTable_sorted := pairwise_jumpTable p

theorem balanced_of_load {src : Bytes} {p : Program} (h : load src = .ok p) :
    Balanced (commandsOf src) := by
  obtain ⟨-, -, hres⟩ := resolving_of_load h
  rw [← commandsIn_scan]
  exact hres.nested.balanced

/-! ### Blame -/

/-- The `]` behind a balanced part is the first surplus. -/
theorem firstSurplus_of_balanced {cs : List Command} {i : Nat} (hi : cs[i]? = some .loopEnd)
    (hbal : Balanced (cs.take i)) : FirstSurplus cs i := by
  have heven := hbal.even
  constructor
  · rw [List.take_add_one, hi, opened_append, closed_append]
    simp
    omega
  · intro n hn
    have hcov := hbal.covered n
    rwa [List.take_take, Nat.min_eq_left hn] at hcov

theorem FirstSurplus.not_covered {cs : List Command} {i : Nat} (h : FirstSurplus cs i) :
    ¬ Covered cs := by
  intro hcov
  exact absurd (hcov (i + 1)) (Nat.not_le_of_lt h.surplus)

/-- Of the brackets that a scan leaves pending, the oldest is the leftmost one without a partner. -/
theorem leftmostUnmatched_of_resolving {scanned : List (Command × Nat)} {pending : List Place}
    {partners : Array (Option Nat)} (h : Resolving scanned pending partners) {q : Place}
    (hq : pending.getLast? = some q) : LeftmostUnmatched (commandsIn scanned) q.position := by
  obtain ⟨newer, rfl⟩ := List.getLast?_eq_some_iff.mp hq
  have hmem : q.position ∈ (newer ++ [q]).map Place.position := by simp
  have hsorted := h.nested.pairwise
  rw [List.map_append, List.pairwise_append] at hsorted
  obtain ⟨-, -, hnewer⟩ := hsorted
  refine ⟨(h.nested.covered_drop _ hmem).1, ?_, ?_⟩
  · intro j hj
    exact h.nested.not_matched hmem (.inl hj)
  · intro k hk hstart
    rcases h.starts k hstart with hpending | hj
    · rw [List.map_append, List.mem_append] at hpending
      rcases hpending with hold | hlast
      · have hgt := hnewer k hold q.position (by simp)
        omega
      · rw [List.map_singleton, List.mem_singleton] at hlast
        omega
    · exact hj

/-- **Loading accepts exactly the balanced sources**, pairs their brackets, and blames in all other
sources the first `]` too many or else the leftmost `[` without a partner. -/
theorem load_resolves_brackets (src : Bytes) :
    ((∃ p, load src = .ok p) ↔ Balanced (commandsOf src)) ∧
    (∀ p, load src = .ok p → Resolved src p) ∧
    (¬ Covered (commandsOf src) → ∃ i k, FirstSurplus (commandsOf src) i ∧
      CommandAt src i .loopEnd k ∧ load src = .error (.closeBracket ⟨i, k⟩)) ∧
    (Covered (commandsOf src) → ¬ Balanced (commandsOf src) →
      ∃ i k, LeftmostUnmatched (commandsOf src) i ∧ CommandAt src i .loopStart k ∧
        load src = .error (.openBracket ⟨i, k⟩)) := by
  rcases hload : load src with e | p
  · rcases e with q | q
    · -- an open bracket is left: all is covered, and more is opened than closed
      obtain ⟨pending, partners, hres, hq⟩ := openBracket_of_load hload
      have hleft := leftmostUnmatched_of_resolving hres hq
      have hat := hres.place q (List.mem_of_getLast? hq)
      have hcov := hres.nested.covered
      have hopened := hres.nested.opened_eq
      have hpos : 0 < pending.length := List.length_pos_of_mem (List.mem_of_getLast? hq)
      rw [commandsIn_scan] at hleft hcov hopened
      rw [List.length_map] at hopened
      have hunbalanced : ¬ Balanced (commandsOf src) := by
        intro hbal
        have heven := hbal.even
        omega
      refine ⟨⟨?_, fun hbal => absurd hbal hunbalanced⟩, ?_, fun hncov => absurd hcov hncov, ?_⟩
      · rintro ⟨p, hp⟩
        cases hp
      · intro p hp
        cases hp
      · intro _ _
        exact ⟨q.position, q.offset, hleft, getElem?_scan_eq_some_iff.mp hat, rfl⟩
    · -- a bracket too many is closed: the part before it is balanced
      obtain ⟨hat, hbal⟩ := closeBracket_of_load hload
      have hfirst := firstSurplus_of_balanced hat.command hbal
      have hncov := hfirst.not_covered
      refine ⟨⟨?_, fun hbal => absurd hbal.covered hncov⟩, ?_, ?_, fun hcov => absurd hcov hncov⟩
      · rintro ⟨p, hp⟩
        cases hp
      · intro p hp
        cases hp
      · intro _
        exact ⟨q.position, q.offset, hfirst, hat, rfl⟩
  · have hbal := balanced_of_load hload
    refine ⟨⟨fun _ => hbal, fun _ => ⟨p, rfl⟩⟩, ?_, fun hncov => absurd hbal.covered hncov,
      fun _ hunbalanced => absurd hbal hunbalanced⟩
    intro p' hp'
    cases hp'
    exact resolved_of_load hload

-- `[x]]`: the third command, at offset 3, closes a loop too many.
example : load [91, 120, 93, 93] = .error (.closeBracket ⟨2, 3⟩) := rfl

end TapeMachine.Program
