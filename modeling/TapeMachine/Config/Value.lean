/-
Values of settings files, and the one value of two.

A value is an atom, a constraint on atoms, a list, a record or a choice between values, of which some may be
preferred. Two values can be one if they are equal atoms, an atom and a constraint that it meets, lists that
go together item by item, or records whose common fields can be one. What cannot be one is no value at all;
no value is also what is not determined yet.

* `Value.unify` is the one value of two;
* `Value.preferred` resolves a choice by its preferred values;
* `Value.follow?` follows labels into a value;
* `Value.int?`, `Value.text?`, `Value.bool?`, `Value.ints?` read a value by its type.
-/
import TapeMachine.Config.Term

namespace TapeMachine.Config

/-- Whether a record may have fields that it does not name. -/
inductive Extent where
  /-- It may, until it is closed. -/
  | free
  /-- It may, because of three dots. -/
  | dotted
  | closed
deriving DecidableEq, Repr

/-- The extent of two records in one. -/
def Extent.both : Extent → Extent → Extent
  | closed, _ => closed
  | _, closed => closed
  | dotted, _ => dotted
  | _, dotted => dotted
  | free, free => free

/-- A value. -/
inductive Value where
  /-- No value; `pending` tells whether it only lacks something that is not determined yet. -/
  | absent (pending : Bool)
  | atom (value : Atom)
  /-- All values of some kinds that are within bounds. -/
  | range (kinds : List Kind) (bounds : List Bound)
  /-- A list; `more` constrains further items, which are not allowed without it. -/
  | list (items : List Value) (more : Option Value)
  /-- A record with constraints on further fields by their labels. A closed one has no other fields. -/
  | record (fields : List (Label × Presence × Value)) (patterns : List (Value × Value)) (extent : Extent)
  /-- A choice, with the preferred values marked. -/
  | choice (alternatives : List (Value × Bool))
deriving Inhabited

namespace Value

/-- What cannot be one. -/
def conflict : Value := .absent false

/-- What is not determined yet. -/
def undetermined : Value := .absent true

/-- Any value. -/
def any : Value := .range Kind.all []

/-- Whether there is a value. -/
def isSome : Value → Bool
  | .absent _ => false
  | _ => true

/-- Whether values conflict. -/
def isConflict : Value → Bool
  | .absent pending => !pending
  | _ => false

/-- The kinds that a value may have. -/
def kinds : Value → List Kind
  | .absent _ => []
  | .atom a => [a.kind]
  | .range kinds _ => kinds
  | .list _ _ => [.list]
  | .record _ _ _ => [.record]
  | .choice _ => Kind.all

mutual

/-- A bound of the nesting of a value. -/
def depth : Value → Nat
  | .list items more => 1 + max (depthItems items) (depthOption more)
  | .record fields patterns _ => 1 + max (depthFields fields) (depthPatterns patterns)
  | .choice alternatives => 1 + depthAlternatives alternatives
  | _ => 1

/-- A bound of the nesting of items. -/
def depthItems : List Value → Nat
  | [] => 0
  | v :: rest => max (depth v) (depthItems rest)

/-- A bound of the nesting of a value that may be missing. -/
def depthOption : Option Value → Nat
  | none => 0
  | some v => depth v

/-- A bound of the nesting of fields. -/
def depthFields : List (Label × Presence × Value) → Nat
  | [] => 0
  | (_, _, v) :: rest => max (depth v) (depthFields rest)

/-- A bound of the nesting of constraints by label. -/
def depthPatterns : List (Value × Value) → Nat
  | [] => 0
  | (key, v) :: rest => max (max (depth key) (depth v)) (depthPatterns rest)

/-- A bound of the nesting of alternatives. -/
def depthAlternatives : List (Value × Bool) → Nat
  | [] => 0
  | (v, _) :: rest => max (depth v) (depthAlternatives rest)

end

mutual

/-- Whether two values are written alike. -/
def alike : Value → Value → Bool
  | .absent a, .absent b => a = b
  | .atom a, .atom b => a = b
  | .range kinds bounds, .range kinds' bounds' => kinds = kinds' && bounds = bounds'
  | .list items more, .list items' more' => alikeItems items items' && alikeOption more more'
  | .record fields patterns extent, .record fields' patterns' extent' =>
    alikeFields fields fields' && alikePatterns patterns patterns' && extent = extent'
  | .choice alternatives, .choice alternatives' => alikeAlternatives alternatives alternatives'
  | _, _ => false

/-- Whether items are written alike. -/
def alikeItems : List Value → List Value → Bool
  | [], [] => true
  | v :: rest, w :: rest' => alike v w && alikeItems rest rest'
  | _, _ => false

/-- Whether values that may be missing are written alike. -/
def alikeOption : Option Value → Option Value → Bool
  | none, none => true
  | some v, some w => alike v w
  | _, _ => false

/-- Whether fields are written alike. -/
def alikeFields : List (Label × Presence × Value) → List (Label × Presence × Value) → Bool
  | [], [] => true
  | (l, p, v) :: rest, (l', p', v') :: rest' => l = l' && p = p' && alike v v' && alikeFields rest rest'
  | _, _ => false

/-- Whether constraints by label are written alike. -/
def alikePatterns : List (Value × Value) → List (Value × Value) → Bool
  | [], [] => true
  | (k, v) :: rest, (k', v') :: rest' => alike k k' && alike v v' && alikePatterns rest rest'
  | _, _ => false

/-- Whether alternatives are written alike. -/
def alikeAlternatives : List (Value × Bool) → List (Value × Bool) → Bool
  | [], [] => true
  | (v, d) :: rest, (v', d') :: rest' => alike v v' && d = d' && alikeAlternatives rest rest'
  | _, _ => false

end

/-! ### Choices -/

/-- A choice between values: those that are alike count once, preferred if one of them is, and one value
alone is no choice. Without any value the choice is pending if one of its values is. -/
def choose (alternatives : List (Value × Bool)) : Value :=
  let kept := (alternatives.filter (·.1.isSome)).foldl (fun kept (v, preferred) =>
    if kept.any fun (w, _) => alike v w then
      kept.map fun (w, p) => (w, p || preferred && alike v w)
    else kept ++ [(v, preferred)]) []
  match kept with
  | [] => .absent (alternatives.any fun (v, _) => !v.isConflict)
  | [(v, _)] => v
  | kept => .choice kept

/-- The preferred value of a choice, if there is one; a choice without it stays. -/
def preferred : Value → Value
  | .choice alternatives =>
    match alternatives.filter (·.2) with
    | [(v, _)] => v
    | _ => .choice alternatives
  | v => v

/-! ### Constraints -/

/-- The strongest bound of numbers on one side, and whether the limit itself is excluded. -/
def strongest (side : Comparison → Option Bool) (stronger : Rat → Rat → Bool) (bounds : List Bound) :
    Option (Rat × Bool) :=
  bounds.foldl (fun best b =>
    match side b.comparison, b.limit.number? with
    | some strict, some limit =>
      match best with
      | none => some (limit, strict)
      | some (other, strict') =>
        if stronger limit other then some (limit, strict)
        else if limit = other then some (other, strict || strict')
        else best
    | _, _ => best) none

/-- Whether a comparison bounds from below, and excludes the limit. -/
def lowerSide : Comparison → Option Bool
  | .greater => some true
  | .atLeast => some false
  | _ => none

/-- Whether a comparison bounds from above, and excludes the limit. -/
def upperSide : Comparison → Option Bool
  | .less => some true
  | .atMost => some false
  | _ => none

/-- The number that is alone within bounds, or a conflict if there is none; other bounds stay. -/
def simplify (kinds : List Kind) (bounds : List Bound) : Value :=
  let only (n : Rat) : Value :=
    if n.den = 1 && kinds.contains .int then
      if bounds.all (·.admits (.int n.num)) then .atom (.int n.num) else conflict
    else .range kinds bounds
  match strongest lowerSide (fun a b => b < a) bounds, strongest upperSide (fun a b => a < b) bounds with
  | some (low, lowStrict), some (high, highStrict) =>
    let distance := high - low
    if distance < 0 then conflict
    else if distance = 0 then if lowStrict || highStrict then conflict else only low
    else if kinds = [.int] && low.den = 1 && high.den = 1 then
      if distance = 1 && lowStrict && highStrict then conflict
      else if distance = 1 && lowStrict then only high
      else if distance = 1 && highStrict then only low
      else if distance = 2 && lowStrict && highStrict then only (low + 1)
      else .range kinds bounds
    else .range kinds bounds
  | _, _ => .range kinds bounds

/-- All values of some kinds that are within bounds. -/
def constraint (kinds : List Kind) (bounds : List Bound) : Value :=
  let kinds := kinds.filter fun k => bounds.all (·.kinds.contains k)
  if kinds.isEmpty then conflict
  else if kinds.all Kind.numbers.contains then simplify kinds bounds
  else .range kinds bounds

/-- An atom, if it is of some kinds and within bounds. -/
def within (a : Atom) (kinds : List Kind) (bounds : List Bound) : Value :=
  if kinds.contains a.kind && bounds.all (·.admits a) then .atom a else conflict

/-! ### Records -/

/-- A record, unless one of its fields that has to be there has values in conflict. -/
def ofFields (fields : List (Label × Presence × Value)) (patterns : List (Value × Value))
    (extent : Extent) : Value :=
  if fields.any fun (_, presence, v) => presence ≠ .optional && v.isConflict then conflict
  else .record fields patterns extent

/-- A list, unless one of its items has values in conflict. -/
def ofItems (items : List Value) (more : Option Value) : Value :=
  if items.any isConflict then conflict else .list items more

/-- The field with a label. -/
def field? (fields : List (Label × Presence × Value)) (label : Label) : Option (Presence × Value) :=
  fields.lookup label

/-! ### The one value of two -/

/-- The one value of two, with a bound of their nesting. -/
def unifyWith : Nat → Value → Value → Value
  | 0, _, _ => conflict
  | fuel + 1, a, b =>
    match a, b with
    | .absent pending, b => .absent (pending && !b.isConflict)
    | a, .absent pending => .absent (pending && !a.isConflict)
    | .choice alternatives, .choice alternatives' =>
      let marked := alternatives.any (·.2)
      let marked' := alternatives'.any (·.2)
      choose (alternatives.flatMap fun (v, p) => alternatives'.map fun (v', p') =>
        (unifyWith fuel v v', (marked || marked') && (p || !marked) && (p' || !marked')))
    | .choice alternatives, b => choose (alternatives.map fun (v, p) => (unifyWith fuel v b, p))
    | a, .choice alternatives => choose (alternatives.map fun (v, p) => (unifyWith fuel a v, p))
    | .range kinds bounds, .range kinds' bounds' =>
      constraint (kinds.filter kinds'.contains) (bounds ++ bounds'.filter (!bounds.contains ·))
    | .atom a, .range kinds bounds => within a kinds bounds
    | .range kinds bounds, .atom a => within a kinds bounds
    | .atom a, .atom b => if a = b then .atom a else conflict
    | .range kinds bounds, b =>
      if b.kinds.all kinds.contains && bounds.all (fun bound => b.kinds.all bound.kinds.contains) then b
      else conflict
    | a, .range kinds bounds =>
      if a.kinds.all kinds.contains && bounds.all (fun bound => a.kinds.all bound.kinds.contains) then a
      else conflict
    | .list items more, .list items' more' =>
      let length := max items.length items'.length
      let item (items : List Value) (more : Option Value) (i : Nat) : Option Value :=
        items[i]? <|> more
      let both := (List.range length).map fun i =>
        match item items more i, item items' more' i with
        | some v, some v' => unifyWith fuel v v'
        | _, _ => conflict
      let rest := match more, more' with
        | some v, some v' => some (unifyWith fuel v v')
        | _, _ => none
      ofItems both rest
    | .record fields patterns extent, .record fields' patterns' extent' =>
      let matching (patterns : List (Value × Value)) (label : Label) : List Value :=
        match label.field? with
        | none => []
        | some name => (patterns.filter fun (key, _) =>
            (unifyWith fuel key (.atom (.text name))).isSome).map (·.2)
      let allowed (fields : List (Label × Presence × Value)) (patterns : List (Value × Value))
          (extent : Extent) (label : Label) : Bool :=
        extent ≠ .closed || label.field?.isNone || (field? fields label).isSome || !(matching patterns label).isEmpty
      let labels := fields.map (·.1) ++ (fields'.map (·.1)).filter fun l => (field? fields l).isNone
      let merge (label : Label) : Label × Presence × Value :=
        let (presence, v) := match field? fields label, field? fields' label with
          | some (p, v), some (p', v') => (p.both p', unifyWith fuel v v')
          | some (p, v), none =>
            (p, (matching patterns' label).foldl (unifyWith fuel) v)
          | none, some (p, v) => (p, (matching patterns label).foldl (unifyWith fuel) v)
          | none, none => (.optional, any)
        let fits := allowed fields patterns extent label && allowed fields' patterns' extent' label
        (label, presence, if fits then v else conflict)
      ofFields (labels.map merge) (patterns ++ patterns') (extent.both extent')
    | _, _ => conflict

/-- The one value of two. -/
def unify (a b : Value) : Value :=
  unifyWith (2 * (depth a + depth b) + 1) a b

/-! ### Paths -/

/-- The value behind labels. Fields that need not be there, or only have to be, are not found, and nothing
is found in a choice. -/
def follow? : Value → List Label → Option Value
  | .absent _, _ => none
  | value, [] => some value
  | .record fields _ _, label :: rest =>
    match field? fields label with
    | some (.given, value) => follow? value rest
    | _ => none
  | .list items _, .item index :: rest => items[index]?.bind (follow? · rest)
  | _, _ => none

/-! ### Types -/

/-- A whole number whose distance from zero is below `2 ^ 63`. -/
def int? (value : Value) : Option Int :=
  match value.preferred with
  | .atom (.int n) => if n.natAbs < Nat.pow 2 63 then some n else none
  | _ => none

/-- A text. -/
def text? (value : Value) : Option String :=
  match value.preferred with
  | .atom (.text s) => some s
  | _ => none

/-- A truth value. -/
def bool? (value : Value) : Option Bool :=
  match value.preferred with
  | .atom (.bool b) => some b
  | _ => none

/-- A list of whole numbers; there is none if the value is null. -/
def ints? (value : Value) : Option (Option (List Int)) :=
  match value.preferred with
  | .atom .null => some none
  | .list items _ => (items.mapM int?).map some
  | _ => none

end Value

end TapeMachine.Config
