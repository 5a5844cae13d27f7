/-
Sources one behind the other.

If two sources load, then one behind the other they load as well: to the program of the first, followed
by the program of the second with all its positions and offsets further on. No bracket of the one is the
partner of a bracket of the other, because none is open at the seam.

* `Program.append`: a program behind another one;
* `matchBrackets_append`: the scan comes to the second source as it comes to any source;
* `matchBrackets_within`: in the middle of a longer source brackets are resolved as they are alone;
* `load_append`: the sources one behind the other load to the programs one behind the other.
-/
import TapeMachine.Proofs.Program.Load

namespace TapeMachine

/-- The same place, `k` commands and `size` bytes further on. -/
def Place.shift (k size : Nat) (q : Place) : Place where
  position := q.position + k
  offset := q.offset + size

namespace Program

/-- The program `q` behind the program `p`, of which the source has `size` bytes. -/
def append (p q : Program) (size : Nat) : Program where
  commands := p.commands ++ q.commands
  offsets := p.offsets ++ q.offsets.map (· + size)
  partners := p.partners ++ q.partners.map (Option.map (· + p.length))

/-! ### The scan -/

theorem zipIdx_eq_map {α : Type} (l : List α) (n : Nat) :
    l.zipIdx n = l.zipIdx.map (Prod.map id (· + n)) := by
  rw [List.map_snd_add_zipIdx_eq_zipIdx, Nat.add_zero]

theorem scan_append (a b : Bytes) :
    scan (a ++ b) = scan a ++ (scan b).map (Prod.map id (· + a.length)) := by
  rw [scan, List.zipIdx_append, List.filterMap_append, Nat.zero_add, zipIdx_eq_map b,
    List.filterMap_map, scan, scan, List.map_filterMap]
  congr 2
  funext x
  obtain ⟨byte, i⟩ := x
  show (Command.ofByte? byte).map (·, i + a.length) = _
  rw [Option.map_map]
  rfl

/-! ### Brackets -/

/-- A scan succeeds at the end if no bracket is open. -/
theorem of_matchBrackets_nil {pos : Nat} {pending : List Place} {ps qs : Array (Option Nat)}
    (h : matchBrackets [] pos pending ps = .ok qs) : pending = [] ∧ qs = ps := by
  rw [matchBrackets] at h
  rcases hlast : pending.getLast? with _ | oldest
  · rw [hlast] at h
    cases h
    exact ⟨List.getLast?_eq_none_iff.mp hlast, rfl⟩
  · rw [hlast] at h
    cases h

theorem size_of_matchBrackets (xs : List (Command × Nat)) : ∀ {pos : Nat} {pending : List Place}
    {ps qs : Array (Option Nat)}, matchBrackets xs pos pending ps = .ok qs → qs.size = ps.size := by
  induction xs with
  | nil =>
    intro pos pending ps qs h
    rw [(of_matchBrackets_nil h).2]
  | cons x xs ih =>
    -- the table is written to, but never grows
    intro pos pending ps qs h
    obtain ⟨c, offset⟩ := x
    cases c with
    | loopStart =>
      rw [matchBrackets] at h
      exact ih h
    | loopEnd =>
      rcases pending with _ | ⟨opening, older⟩
      · rw [matchBrackets] at h
        cases h
      · rw [matchBrackets] at h
        simpa using ih h
    | moveRight | moveLeft | increment | decrement | write | read =>
      simp only [matchBrackets] at h
      exact ih h

/-- **Behind a balanced source the scan goes on with no bracket open.** -/
theorem matchBrackets_append (ys xs : List (Command × Nat)) : ∀ {pos : Nat} {pending : List Place}
    {ps qs : Array (Option Nat)}, matchBrackets xs pos pending ps = .ok qs →
      matchBrackets (xs ++ ys) pos pending ps = matchBrackets ys (pos + xs.length) [] qs := by
  induction xs with
  | nil =>
    intro pos pending ps qs h
    obtain ⟨rfl, rfl⟩ := of_matchBrackets_nil h
    rfl
  | cons x xs ih =>
    intro pos pending ps qs h
    obtain ⟨c, offset⟩ := x
    have hpos : pos + ((c, offset) :: xs).length = pos + 1 + xs.length := by
      rw [List.length_cons]
      omega
    rw [hpos, List.cons_append]
    cases c with
    | loopStart =>
      rw [matchBrackets] at h ⊢
      exact ih h
    | loopEnd =>
      rcases pending with _ | ⟨opening, older⟩
      · rw [matchBrackets] at h
        cases h
      · rw [matchBrackets] at h ⊢
        exact ih h
    | moveRight | moveLeft | increment | decrement | write | read =>
      simp only [matchBrackets] at h ⊢
      exact ih h

section Within

variable (front behind : Array (Option Nat)) {k : Nat}

/-- A partner is noted in the middle of a longer table. -/
theorem setIfInBounds_within (hk : front.size = k) {ps : Array (Option Nat)} {i : Nat}
    (hi : i < ps.size) (j : Nat) :
    (front ++ ps.map (Option.map (· + k)) ++ behind).setIfInBounds (i + k) (some (j + k))
      = front ++ (ps.setIfInBounds i (some j)).map (Option.map (· + k)) ++ behind := by
  have hlt : i + k < (front ++ ps.map (Option.map (· + k))).size := by
    rw [Array.size_append, Array.size_map]
    omega
  rw [Array.setIfInBounds_append_left hlt, Array.setIfInBounds_append_right (by omega),
    Array.map_setIfInBounds, show i + k - front.size = i by omega]
  rfl

/-- **In the middle of a longer source brackets are resolved as they are alone.** -/
theorem matchBrackets_within (hk : front.size = k) (size : Nat) (xs : List (Command × Nat)) :
    ∀ {pos : Nat} {pending : List Place} {ps qs : Array (Option Nat)},
      pos + xs.length ≤ ps.size → (∀ q ∈ pending, q.position < ps.size) →
      matchBrackets xs pos pending ps = .ok qs →
      matchBrackets (xs.map (Prod.map id (· + size))) (pos + k) (pending.map (Place.shift k size))
          (front ++ ps.map (Option.map (· + k)) ++ behind)
        = .ok (front ++ qs.map (Option.map (· + k)) ++ behind) := by
  induction xs with
  | nil =>
    intro pos pending ps qs _ _ h
    obtain ⟨rfl, rfl⟩ := of_matchBrackets_nil h
    rfl
  | cons x xs ih =>
    intro pos pending ps qs hsize hpending h
    obtain ⟨c, offset⟩ := x
    rw [List.length_cons] at hsize
    have hpos : pos + k + 1 = pos + 1 + k := by omega
    rw [List.map_cons]
    cases c with
    | loopStart =>
      -- the position that becomes pending lies in the table
      have hopened : ∀ q ∈ (⟨pos, offset⟩ : Place) :: pending, q.position < ps.size := by
        rw [List.forall_mem_cons]
        exact ⟨by dsimp only; omega, hpending⟩
      have hrest := ih (by omega) hopened h
      rw [← hpos] at hrest
      exact hrest
    | loopEnd =>
      rcases pending with _ | ⟨opening, older⟩
      · rw [matchBrackets] at h
        cases h
      · rw [matchBrackets] at h
        rw [List.forall_mem_cons] at hpending
        have hrest := ih (by simp; omega) (by simpa using hpending.2) h
        -- both entries of the new pair are written to the part in the middle
        have hclosing : pos < (ps.setIfInBounds opening.position (some pos)).size := by
          rw [Array.size_setIfInBounds]
          omega
        rw [← setIfInBounds_within front behind hk hclosing,
          ← setIfInBounds_within front behind hk hpending.1, ← hpos] at hrest
        exact hrest
    | moveRight | moveLeft | increment | decrement | write | read =>
      have hrest := ih (by omega) hpending h
      rw [← hpos] at hrest
      exact hrest

end Within

/-! ### Loading -/

variable {a b src : Bytes} {p q : Program}

theorem length_scan_of_load (h : load src = .ok p) : (scan src).length = p.length := by
  rw [length_of_load h, ← commandsIn_scan, Brackets.length_commandsIn]

/-- A loaded program has an entry for the partner of every command. -/
theorem size_partners_of_load (h : load src = .ok p) : p.partners.size = p.length := by
  rw [size_of_matchBrackets (scan src) (matched_of_load h).1, Array.size_replicate,
    length_scan_of_load h]

theorem load_append (ha : load a = .ok p) (hb : load b = .ok q) :
    load (a ++ b) = .ok (p.append q a.length) := by
  obtain ⟨hcommands, hoffsets, -⟩ := resolving_of_load ha
  obtain ⟨hcommands', hoffsets', -⟩ := resolving_of_load hb
  have hlength := length_scan_of_load ha
  -- the first part of the scan leaves the part of the table alone that belongs to the second
  have hfirst : matchBrackets (scan a) 0 []
      (Array.replicate (scan a).length none ++ Array.replicate (scan b).length none)
        = .ok (p.partners ++ Array.replicate (scan b).length none) := by
    have hsame : (scan a).map (Prod.map id (· + 0)) = scan a := List.map_id _
    have hwithin := matchBrackets_within #[] (Array.replicate (scan b).length none) rfl 0 (scan a)
      (by simp) (by simp) (matched_of_load ha).1
    rw [hsame] at hwithin
    simpa using hwithin
  have hsecond : matchBrackets ((scan b).map (Prod.map id (· + a.length))) (0 + (scan a).length) []
      (p.partners ++ Array.replicate (scan b).length none)
        = .ok (p.append q a.length).partners := by
    rw [hlength]
    simpa [append] using matchBrackets_within p.partners #[] (size_partners_of_load ha) a.length (scan b)
      (by simp) (by simp) (matched_of_load hb).1
  have hbothCommands : ((scan a ++ (scan b).map (Prod.map id (· + a.length))).map Prod.fst).toArray
      = p.commands ++ q.commands := by
    rw [hcommands, hcommands', List.append_toArray, ← commandsIn_scan a, ← commandsIn_scan b,
      List.map_append, List.map_map]
    rfl
  have hbothOffsets : ((scan a ++ (scan b).map (Prod.map id (· + a.length))).map Prod.snd).toArray
      = p.offsets ++ q.offsets.map (· + a.length) := by
    rw [hoffsets, hoffsets', List.map_toArray, List.append_toArray, List.map_append, List.map_map,
      List.map_map]
    rfl
  rw [load_eq, scan_append, List.length_append, List.length_map, ← Array.replicate_append_replicate,
    matchBrackets_append _ (scan a) hfirst, hsecond, Except.map, Except.ok.injEq,
    hbothCommands, hbothOffsets]
  rfl

/-! ### Jump tables -/

/-- **The jump table of a program behind another one** is further on as a whole. -/
theorem jumpTable_append (hp : p.partners.size = p.length) (size : Nat) :
    (p.append q size).jumpTable
      = p.jumpTable ++ q.jumpTable.map (Prod.map (· + p.length) (· + p.length)) := by
  rw [jumpTable, append, Array.toList_append, List.zipIdx_append, List.filterMap_append,
    Array.toList_map, List.zipIdx_map, Array.length_toList, hp, Nat.zero_add,
    zipIdx_eq_map q.partners.toList, List.map_map, List.filterMap_map, jumpTable, jumpTable,
    List.map_filterMap]
  congr 2
  funext x
  rcases x with ⟨_ | j, i⟩ <;> rfl

end Program

end TapeMachine
