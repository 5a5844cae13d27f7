/-
What a schema says of the files that it allows.

A file that is allowed and the schema can be one value. A whole number of it at the name of an optional field
is within the bounds of that field. A choice becomes one by its alternatives, of which those stay that are
within the bounds, so a preferred value is within them too.

* `Value.Within`: a value that is no whole number out of bounds;
* `Value.within_unifyWith_range`: what is one with a constraint is within its bounds;
* `Value.fieldWithin_unifyWith_record`: what is one with a record has its fields within their bounds, two records
  by `Value.fieldWithin_unifyWith_records`;
* `Language.HasInt`, `Language.Enforces`: the same in any language of settings files;
* `language_enforces`: a schema of optional fields, in the language that is spoken here.
-/
import TapeMachine.Config.Loader
import TapeMachine.Proofs.Config.Path

namespace TapeMachine.Config

namespace Value

variable {kinds : List Kind} {bounds : List Bound} {name : String}

/-! ### Choices -/

theorem mem_of_foldl_keep {P : Value → Prop} (l : List (Value × Bool)) : ∀ kept : List (Value × Bool),
    (∀ e ∈ kept, P e.1) → (∀ e ∈ l, P e.1) → ∀ e ∈ l.foldl (fun kept (v, preferred) =>
      if kept.any fun (w, _) => alike v w then
        kept.map fun (w, p) => (w, p || preferred && alike v w)
      else kept ++ [(v, preferred)]) kept, P e.1 := by
  induction l with
  | nil => exact fun _ hkept _ => hkept
  | cons entry l ih =>
    intro kept hkept hl
    obtain ⟨v, preferred⟩ := entry
    obtain ⟨hentry, hl⟩ := List.forall_mem_cons.mp hl
    rw [List.foldl_cons]
    refine ih _ ?_ hl
    dsimp only
    split
    · intro e he
      obtain ⟨e', he', rfl⟩ := List.mem_map.mp he
      exact hkept e' he'
    · exact List.forall_mem_append.mpr ⟨hkept, List.forall_mem_singleton.mpr hentry⟩

/-- **A choice is made of its alternatives**: it is none of them, the one that is left, or a choice between
those that are left. -/
theorem choose_cases {P : Value → Prop} {alternatives : List (Value × Bool)}
    (h : ∀ e ∈ alternatives, P e.1) : (∃ pending, choose alternatives = .absent pending) ∨
      P (choose alternatives) ∨
      ∃ kept, choose alternatives = .choice kept ∧ ∀ e ∈ kept, P e.1 := by
  have hkept := mem_of_foldl_keep (P := P) (alternatives.filter (·.1.isSome)) []
    (List.forall_mem_nil _) fun e he => h e (List.mem_filter.mp he).1
  rw [choose]
  generalize (alternatives.filter (·.1.isSome)).foldl _ [] = kept at hkept
  rcases kept with _ | ⟨⟨v, p⟩, _ | ⟨e, kept⟩⟩
  · exact .inl ⟨_, rfl⟩
  · have hone : P v := hkept _ List.mem_cons_self
    exact .inr (.inl hone)
  · exact .inr (.inr ⟨_, rfl, hkept⟩)

/-! ### Constraints -/

/-- The value is no whole number out of bounds. -/
def Within (bounds : List Bound) (value : Value) : Prop :=
  ∀ n, value.int? = some n → ∀ b ∈ bounds, b.admits (.int n)

theorem within_of_int?_eq_none {value : Value} (h : value.int? = none) : Within bounds value := by
  intro n hn
  rw [h] at hn
  cases hn

theorem within_conflict : Within bounds conflict :=
  within_of_int?_eq_none rfl

theorem within_ite {p : Prop} [Decidable p] {value : Value} (h : Within bounds value) :
    Within bounds (if p then value else conflict) := by
  split
  · exact h
  · exact within_conflict

theorem within_atom {a : Atom} (h : ∀ b ∈ bounds, b.admits a) : Within bounds (.atom a) := by
  have hpreferred : (Value.atom a).preferred = .atom a := rfl
  intro n hn
  rw [int?, hpreferred] at hn
  split at hn
  · next heq =>
    cases heq
    split at hn
    · cases hn
      exact h
    · cases hn
  · cases hn

theorem within_atom_within (a : Atom) : Within bounds (within a kinds bounds) := by
  rw [within]
  split
  · next h =>
    rw [Bool.and_eq_true, List.all_eq_true] at h
    exact within_atom h.2
  · exact within_conflict

/-- The preferred value of a choice is one of its alternatives. -/
theorem within_choice {kept : List (Value × Bool)} (h : ∀ e ∈ kept, Within bounds e.1) :
    Within bounds (.choice kept) := by
  intro n hn
  rw [int?] at hn
  split at hn
  · next m hpreferred =>
    rw [preferred] at hpreferred
    split at hpreferred
    · next v p hfilter =>
      have hmem : (v, p) ∈ kept.filter (·.2) := by
        rw [hfilter]
        exact List.mem_cons_self
      have hv : Within bounds v := h _ (List.mem_filter.mp hmem).1
      rw [hpreferred] at hv
      exact hv n hn
    · cases hpreferred
  · cases hn

theorem within_choose {alternatives : List (Value × Bool)} (h : ∀ e ∈ alternatives, Within bounds e.1) :
    Within bounds (choose alternatives) := by
  rcases choose_cases h with ⟨pending, hchoose⟩ | hchoose | ⟨kept, hchoose, hkept⟩
  · rw [hchoose]
    exact within_of_int?_eq_none rfl
  · exact hchoose
  · rw [hchoose]
    exact within_choice hkept

/-- A number that is alone within bounds is within them. -/
theorem within_simplify (kinds : List Kind) (bounds : List Bound) : Within bounds (simplify kinds bounds) := by
  have hrange : Within bounds (.range kinds bounds) := within_of_int?_eq_none rfl
  have honly : ∀ n : Rat, Within bounds (if n.den = 1 && kinds.contains .int then
      if bounds.all (·.admits (.int n.num)) then .atom (.int n.num) else conflict
      else .range kinds bounds) := by
    intro n
    split
    · split
      · next hall => exact within_atom (List.all_eq_true.mp hall)
      · exact within_conflict
    · exact hrange
  unfold simplify
  extract_lets only
  change ∀ n, Within bounds (only n) at honly
  clear_value only
  split
  · -- however far apart the two limits are, the result is one of three
    dsimp only
    repeat' split
    all_goals first | exact within_conflict | exact hrange | exact honly _
  · exact hrange

theorem within_constraint (kinds : List Kind) (bounds : List Bound) :
    Within bounds (constraint kinds bounds) := by
  rw [constraint]
  split
  · exact within_conflict
  · split
    · exact within_simplify _ _
    · exact within_of_int?_eq_none rfl

/-- **What is one with a constraint is within its bounds.** -/
theorem within_unifyWith_range (fuel : Nat) : ∀ value : Value,
    Within bounds (unifyWith fuel (.range kinds bounds) value) := by
  induction fuel with
  | zero =>
    intro value
    rw [unifyWith]
    exact within_conflict
  | succ fuel ih =>
    intro value
    rw [unifyWith.eq_def]
    cases value with
    | absent pending => exact within_of_int?_eq_none rfl
    | atom a => exact within_atom_within a
    | range kinds' bounds' =>
      intro n hn b hb
      exact within_constraint _ _ n hn b (List.mem_append_left _ hb)
    | list items more =>
      dsimp only
      split
      · exact within_of_int?_eq_none rfl
      · exact within_conflict
    | record fields patterns extent =>
      dsimp only
      split
      · exact within_of_int?_eq_none rfl
      · exact within_conflict
    | choice alternatives =>
      refine within_choose fun e he => ?_
      obtain ⟨⟨v, p⟩, -, rfl⟩ := List.mem_map.mp he
      exact ih v

/-! ### Records -/

/-- What is behind the name of a field is a field that is there, of a record. -/
theorem of_follow?_field {whole value : Value} (h : whole.follow? [.field name] = some value) :
    ∃ fields patterns extent, whole = .record fields patterns extent ∧
      field? fields (.field name) = some (.given, value) := by
  cases whole with
  | record fields patterns extent =>
    refine ⟨fields, patterns, extent, rfl, ?_⟩
    rw [follow?] at h
    split at h
    · next found hfound =>
      have hvalue : found = value := by
        cases found with
        | absent => cases h
        | _ => exact Option.some_inj.mp h
      rw [hfound, hvalue]
    · cases h
  | _ => cases h

/-- What is at a name of a value is within bounds. -/
def FieldWithin (bounds : List Bound) (name : String) (value : Value) : Prop :=
  ∀ found, value.follow? [.field name] = some found → Within bounds found

theorem fieldWithin_of_follow?_eq_none {value : Value} (h : value.follow? [.field name] = none) :
    FieldWithin bounds name value := by
  intro found hfound
  rw [h] at hfound
  cases hfound

theorem fieldWithin_conflict : FieldWithin bounds name conflict :=
  fieldWithin_of_follow?_eq_none rfl

theorem fieldWithin_choose {alternatives : List (Value × Bool)}
    (h : ∀ e ∈ alternatives, FieldWithin bounds name e.1) : FieldWithin bounds name (choose alternatives) := by
  rcases choose_cases h with ⟨pending, hchoose⟩ | hchoose | ⟨kept, hchoose, -⟩
  · rw [hchoose]
    exact fieldWithin_of_follow?_eq_none rfl
  · exact hchoose
  · -- nothing is found in a choice
    rw [hchoose]
    exact fieldWithin_of_follow?_eq_none rfl

variable {fields : List (Label × Presence × Value)} {patterns : List (Value × Value)} {extent : Extent}

/-- Two records that are one: a field that is optional in the first is there only if the second has it. -/
theorem fieldWithin_unifyWith_records
    (hfield : field? fields (.field name) = some (.optional, .range kinds bounds)) (fuel : Nat)
    (fields' : List (Label × Presence × Value)) (patterns' : List (Value × Value)) (extent' : Extent) :
    FieldWithin bounds name
      (unifyWith (fuel + 1) (.record fields patterns extent) (.record fields' patterns' extent')) := by
  rw [unifyWith.eq_def]
  dsimp only
  rw [ofFields]
  split
  · exact fieldWithin_conflict
  · intro found hfound
    obtain ⟨_, _, _, hrecord, hgiven⟩ := of_follow?_field hfound
    cases hrecord
    -- the field was made of the fields of both records with its label
    obtain ⟨_, _, hsplit, -⟩ := List.lookup_eq_some_iff.mp hgiven
    obtain ⟨label, -, hmerge⟩ := List.mem_map.mp (hsplit ▸ List.mem_append_right _ List.mem_cons_self)
    rw [Prod.mk.injEq, Prod.mk.injEq] at hmerge
    obtain ⟨rfl, hpresence, hvalue⟩ := hmerge
    rw [hfield] at hpresence
    rw [← hvalue]
    refine within_ite ?_
    rw [hfield]
    rcases hother : field? fields' (.field name) with _ | ⟨p, v⟩
    · -- the field would have to be there
      rw [hother] at hpresence
      cases hpresence
    · exact within_unifyWith_range fuel v

/-- **What is one with a record has its optional fields within their bounds**, if it has them. -/
theorem fieldWithin_unifyWith_record
    (hfield : field? fields (.field name) = some (.optional, .range kinds bounds)) (fuel : Nat) :
    ∀ value : Value, FieldWithin bounds name (unifyWith fuel (.record fields patterns extent) value) := by
  have hoptional : FieldWithin bounds name (.record fields patterns extent) := by
    refine fieldWithin_of_follow?_eq_none ?_
    rw [follow?, hfield]
  induction fuel with
  | zero =>
    intro value
    rw [unifyWith]
    exact fieldWithin_conflict
  | succ fuel ih =>
    intro value
    cases value with
    | absent pending => exact fieldWithin_of_follow?_eq_none rfl
    | atom a => exact fieldWithin_conflict
    | range kinds' bounds' =>
      rw [unifyWith.eq_def]
      dsimp only
      split
      · exact hoptional
      · exact fieldWithin_conflict
    | list items more => exact fieldWithin_conflict
    | record fields' patterns' extent' =>
      exact fieldWithin_unifyWith_records hfield fuel fields' patterns' extent'
    | choice alternatives =>
      rw [unifyWith.eq_def]
      refine fieldWithin_choose fun e he => ?_
      obtain ⟨⟨v, p⟩, -, rfl⟩ := List.mem_map.mp he
      exact ih v

/-- The bounds of the optional field with a name. -/
def boundsAt? (value : Value) (name : String) : Option (List Bound) :=
  match value with
  | .record fields _ _ =>
    match field? fields (.field name) with
    | some (.optional, .range _ bounds) => some bounds
    | _ => none
  | _ => none

theorem fieldWithin_unify_of_boundsAt? {schema : Value} (h : schema.boundsAt? name = some bounds)
    (value : Value) : FieldWithin bounds name (schema.unify value) := by
  rw [boundsAt?.eq_def] at h
  split at h
  · split at h
    · next hfield =>
      cases h
      exact fieldWithin_unifyWith_record hfield _ value
    · cases h
  · cases h

end Value

/-! ### Languages -/

namespace Language

/-- A value has a whole number at a name. -/
def HasInt (L : Language) (value : L.Value) (name : String) (n : Int) : Prop :=
  ∃ found, L.lookupPath value name = some (.ok found) ∧ L.int? found = some n

/-- A schema keeps a number within a bound: where the schema and a value are one and this is well-formed,
the whole number that it has at the name is within the bound. -/
def Enforces (L : Language) (schema : L.Value) (name : String) (bound : Int → Prop) : Prop :=
  ∀ value, L.validate (L.unify schema value) = .ok () →
    ∀ n, L.HasInt (L.unify schema value) name n → bound n

end Language

/-- What is at a path here has a value, or is not there. -/
theorem lookupPath_language_eq_iff {value found : Value} {path : String} :
    language.lookupPath value path = some (.ok found) ↔ value.get? path = some found := by
  have hlookup : language.lookupPath value path = (value.get? path).map .ok := rfl
  rw [hlookup]
  cases value.get? path <;> simp

/-- **A schema of optional fields keeps their numbers within their bounds.** -/
theorem language_enforces {schema : Value} {name : String} {bounds : List Bound}
    (hname : Path.parse? name = some [.field name]) (hbounds : schema.boundsAt? name = some bounds) :
    language.Enforces schema name fun n => ∀ b ∈ bounds, b.admits (.int n) := by
  rintro value - n ⟨found, hfound, hint⟩
  rw [lookupPath_language_eq_iff, Value.get?, hname, Option.bind_some] at hfound
  exact Value.fieldWithin_unify_of_boundsAt? hbounds value found hfound n hint

end TapeMachine.Config
