/-
The value of a settings file.

Every part of a value is a node: a place and all that is said about it. What is said is a list of terms,
each with the records around it, in which names are looked up. A name leads to the node of a field, and a
node that is another one takes over what is said about that one, so that fields which are added here count
there too. A node that leads back to itself says nothing new. One that leads to a node around it, or only
to nodes that were taken over around it, would have no end, and has no value.

Values that are taken from definitions are closed: they have no fields but those that the definition names.

* `Eval.value` is the value of a node;
* `Value.ofTerm` is the value of a file;
* `Value.parse` reads a settings file.

The recursion is bounded by a number; a file that needs more has no value.
-/
import TapeMachine.Config.Operator
import TapeMachine.Config.Parser

namespace TapeMachine.Config

/-- A place in a value, innermost label first. -/
abbrev Place := List Label

/-- The use of a definition at a place, which closes the value there. -/
structure Closing where
  place : Place
  definition : Place
deriving DecidableEq

/-- Where something that is said comes from. -/
structure Origin where
  /-- The definitions that it is taken from. -/
  closings : List Closing := []
  /-- The nodes that were taken over on the way to it. -/
  taken : List Place := []

mutual

/-- Something that is said about a node. -/
inductive Saying where
  | term (scope : List Frame) (term : Term) (origin : Origin)
  /-- The fields of a record. Its fields are also allowed by the closings of `allows`. -/
  | fields (scope : List Frame) (declarations : List Declaration) (origin : Origin) (allows : List Closing)
  | items (scope : List Frame) (elements : List Element) (origin : Origin)
  /-- A choice between terms, some of them preferred. -/
  | choice (scope : List Frame) (alternatives : List (Term × Bool)) (origin : Origin)
  /-- What is said about a node that was taken over already around this one. -/
  | again (place : Place) (sayings : List Saying) (origin : Origin)
  | value (value : Value)

/-- Names that are known. -/
inductive Frame where
  /-- The names of a record, which describes a node. -/
  | fields (place : Place) (sayings : List Saying) (declarations : List Declaration)
  /-- A name of a node. -/
  | name (name : String) (place : Place) (sayings : List Saying)

end

/-- A place and all that is said about it. -/
structure Node where
  place : Place
  sayings : List Saying

/-- What a name or a path leads to. -/
inductive Target where
  | node (node : Node)
  | value (value : Value)

/-- The nodes that are at work. -/
structure Work where
  /-- The places whose value is being found. -/
  valued : List Place := []
  /-- The places whose sayings are being taken apart. -/
  opened : List Place := []
  /-- Whether the work is for a field that need not be there. -/
  optional : Bool := false

/-- What is said about the fields with one label. -/
structure FieldSayings where
  label : Label
  presence : Presence
  sayings : List Saying

/-- A constraint on fields by label. -/
structure PatternSaying where
  key : Value
  other : Option String
  scope : List Frame
  term : Term
  origin : Origin

/-- Two origins in one. -/
def Origin.add (origin more : Origin) : Origin :=
  ⟨more.closings ++ origin.closings, more.taken ++ origin.taken⟩

namespace Saying

/-- The closings of a saying. -/
def closings : Saying → List Closing
  | .term _ _ origin => origin.closings
  | .fields _ _ origin _ => origin.closings
  | .items _ _ origin => origin.closings
  | .choice _ _ origin => origin.closings
  | .again _ _ origin => origin.closings
  | .value _ => []

/-- Adds where a saying was taken from. -/
def adopt (more : Origin) : Saying → Saying
  | .term scope t origin => .term scope t (origin.add more)
  | .fields scope declarations origin allows => .fields scope declarations (origin.add more) allows
  | .items scope elements origin => .items scope elements (origin.add more)
  | .choice scope alternatives origin => .choice scope alternatives (origin.add more)
  | .again place sayings origin => .again place sayings (origin.add more)
  | .value v => .value v

/-- Lets closings allow the fields. -/
def allow (more : List Closing) : Saying → Saying
  | .fields scope declarations origin allows => .fields scope declarations origin (more ++ allows)
  | s => s

/-- Whether a saying leaves a choice. -/
def isChoice : Saying → Bool
  | .choice _ _ _ => true
  | .value (.choice _) => true
  | _ => false

/-- Whether a saying only leads to a node that was taken over already. -/
def isAgain : Saying → Bool
  | .again _ _ _ => true
  | _ => false

/-- The record or the value that a saying gives without a look at other nodes. -/
def plain : Nat → Saying → List Saying
  | 0, _ => []
  | fuel + 1, s =>
    match s with
    | .term scope (.group t) origin => plain fuel (.term scope t origin)
    | .term scope (.binary .both left right) origin =>
      plain fuel (.term scope left origin) ++ plain fuel (.term scope right origin)
    | .term scope (.record declarations) origin => [.fields scope declarations origin []]
    | .term _ _ _ => []
    | .choice _ _ _ => []
    | .again _ _ _ => []
    | s => [s]

end Saying

namespace PatternSaying

/-- Whether a pattern holds of a label. -/
def holds (p : PatternSaying) (name : String) : Bool :=
  (p.key.unify (.atom (.text name))).isSome

/-- What a pattern says about a field. -/
def saying (p : PatternSaying) (place : Place) (name : String) : Saying :=
  let scope := match p.other with
    | some other => .name other (.inner other :: place) [.value (.atom (.text name))] :: p.scope
    | none => p.scope
  .term scope p.term p.origin

end PatternSaying

namespace Eval

/-- Whether a place is around another one. -/
def isAround (outer inner : Place) : Bool :=
  outer.length < inner.length && inner.drop (inner.length - outer.length) = outer

/-- The alternatives of a choice, which may be preferred. -/
def alternatives : Bool → Term → List (Term × Bool)
  | preferred, .binary .either left right => alternatives preferred left ++ alternatives preferred right
  | _, .unary .preferred term => alternatives true term
  | preferred, term => [(term, preferred)]

/-- All ways to choose from several lists. A way is preferred if what it takes from every list with
preferred items is preferred, and there is such a list. -/
def ways {α : Type} (lists : List (List (List α × Bool))) : List (List α × Bool) :=
  let marked := lists.any (·.any (·.2))
  let all := lists.foldr (fun list ways =>
    let listMarked := list.any (·.2)
    list.flatMap fun (first, preferred) => ways.map fun (rest, good) =>
      (first ++ rest, good && (preferred || !listMarked))) [([], true)]
  all.map fun (chosen, good) => (chosen, marked && good)

/-- What a name stands for in the records around it. -/
inductive Found where
  | field (owner : Node) (label : Label)
  | node (node : Node)

/-- What a name stands for in a record. -/
def findIn (frame : Frame) (outer : List Frame) (place : Place) (sayings : List Saying) (name : String) :
    List Declaration → Option Found
  | [] => none
  | .field other (.fixed label known) _ _ :: rest =>
    let own := match label with
      | .field n => known && n = name
      | .definition n => n = name
      | .hidden n => n = name
      | _ => false
    if own || other = some name then some (.field ⟨place, sayings⟩ label)
    else findIn frame outer place sayings name rest
  | .binding n term :: rest =>
    if n = name then some (.node ⟨.inner name :: place, [.term (frame :: outer) term {}]⟩)
    else findIn frame outer place sayings name rest
  | _ :: rest => findIn frame outer place sayings name rest

/-- What a name stands for. -/
def find (name : String) : List Frame → Option Found
  | [] => none
  | .fields place sayings declarations :: outer =>
    findIn (.fields place sayings declarations) outer place sayings name declarations <|> find name outer
  | .name n place sayings :: outer =>
    if n = name then some (.node ⟨place, sayings⟩) else find name outer

/-- The part of a value with a label. Parts that are missing may still be added, unless the value is
closed. -/
def partOf (v : Value) (label : Label) : Value :=
  match v, label with
  | .absent pending, _ => .absent pending
  | .record fields _ extent, label =>
    match Value.field? fields label with
    | some (.given, part) => part
    | some _ => .undetermined
    | none => .absent (extent ≠ .closed)
  | .list items more, .item i =>
    match items[i]? with
    | some item => item
    | none => .absent more.isSome
  | .range kinds _, _ => .absent (kinds.contains .record || kinds.contains .list)
  | .choice _, _ => .undetermined
  | _, _ => .conflict

/-- Adds what is said about a label to what was said before. -/
def addField (fields : List FieldSayings) (label : Label) (presence : Presence) (s : Saying) :
    List FieldSayings :=
  if fields.any (·.label = label) then
    fields.map fun f =>
      if f.label = label then { f with presence := f.presence.both presence, sayings := f.sayings ++ [s] }
      else f
  else fields ++ [⟨label, presence, [s]⟩]

/-- Whether a record counts as one: a record that takes in other values and has no fields of its own is
what it takes in. -/
def countsAsRecord (declarations : List Declaration) : Bool :=
  let takesIn := declarations.any fun
    | .embedded _ => true
    | .comprehension _ _ => true
    | _ => false
  let hasFields := declarations.any fun
    | .field _ (.fixed (.field _) _) .given _ => true
    | _ => false
  !takesIn || hasFields

/-- Whether a record allows all further fields. -/
def allowsOthers (declarations : List Declaration) : Bool :=
  declarations.any fun
    | .others => true
    | _ => false

mutual

/-- The value of a node. A node whose value is being found has none yet. -/
def value (fuel : Nat) (w : Work) (n : Node) : Value :=
  match fuel with
  | 0 => .conflict
  | fuel + 1 =>
    if w.valued.contains n.place then .undetermined
    else
      let w := { w with valued := n.place :: w.valued }
      settle fuel w n.place (takeApart fuel w n)

/-- The value that sayings give, with every choice taken in every way. -/
def settle (fuel : Nat) (w : Work) (place : Place) (sayings : List Saying) : Value :=
  match fuel with
  | 0 => .conflict
  | fuel + 1 =>
    let (choices, others) := sayings.partition Saying.isChoice
    if choices.isEmpty then assemble fuel w place others
    else
      let chosen := ways (choices.map (choose fuel w ⟨place, sayings⟩))
      Value.choose (chosen.map fun (more, preferred) =>
        (settle fuel w place (goOn fuel w ⟨place, sayings⟩ (others ++ more)), preferred))

/-- Takes nodes over again, if more is said than that. -/
def goOn (fuel : Nat) (w : Work) (n : Node) (sayings : List Saying) : List Saying :=
  match fuel with
  | 0 => [.value .conflict]
  | fuel + 1 =>
    if sayings.any Saying.isAgain then
      if sayings.all Saying.isAgain then [.value (.absent w.optional)]
      else sayings.flatMap fun
        | .again place more origin =>
          more.flatMap fun s => takeApartOne fuel w n [place] (s.adopt origin)
        | s => [s]
    else sayings

/-- What a choice may come to. An alternative that is a choice itself passes its preferred values on. -/
def choose (fuel : Nat) (w : Work) (n : Node) (s : Saying) : List (List Saying × Bool) :=
  match fuel with
  | 0 => []
  | fuel + 1 =>
    match s with
    | .choice scope terms origin =>
      terms.flatMap fun (term, preferred) =>
        let (choices, others) := (takeApartOne fuel w n [] (.term scope term origin)).partition
          Saying.isChoice
        let inner := ways (choices.map (choose fuel w n))
        let marked := inner.any (·.2)
        inner.map fun (more, good) =>
          (others ++ more, if preferred then good || !marked else good)
    | .value (.choice values) => values.map fun (v, preferred) => ([.value v], preferred)
    | s => [([s], false)]

/-- The fields, items, choices and values that are said of a node. Where this is being found already, only
what needs no other node is given. -/
def takeApart (fuel : Nat) (w : Work) (n : Node) : List Saying :=
  match fuel with
  | 0 => [.value .conflict]
  | fuel + 1 =>
    if w.opened.contains n.place then n.sayings.flatMap (Saying.plain fuel)
    else
      let w := { w with opened := n.place :: w.opened }
      goOn fuel w n (n.sayings.flatMap (takeApartOne fuel w n []))

/-- The fields, items, choices and values that one saying gives. `seen` are the nodes that were taken over
on the way to it. -/
def takeApartOne (fuel : Nat) (w : Work) (n : Node) (seen : List Place) (s : Saying) : List Saying :=
  match fuel with
  | 0 => [.value .conflict]
  | fuel + 1 =>
    match s with
    | .term scope term origin =>
      match term with
      | .group term => takeApartOne fuel w n seen (.term scope term origin)
      | .binary .both left right =>
        takeApartOne fuel w n seen (.term scope left origin) ++
          takeApartOne fuel w n seen (.term scope right origin)
      | .binary .either left right => [.choice scope (alternatives false (.binary .either left right)) origin]
      | .list elements => [.items scope elements origin]
      | .known name term =>
        takeApartOne fuel w n seen (.term (.name name n.place n.sayings :: scope) term origin)
      | .record declarations =>
        let inner := .fields n.place n.sayings declarations :: scope
        let taken := declarations.flatMap fun
          | .embedded term => takeApartOne fuel w n seen (.term inner term origin)
          | .comprehension clauses body =>
            (comprehend fuel w n inner clauses).flatMap fun
              | .ok scope => takeApartOne fuel w n seen (.term scope body origin)
              | .error v => [.value v]
          | _ => []
        let fresh := ((taken.flatMap Saying.closings).filter (!origin.closings.contains ·)).eraseDups
        .fields scope declarations origin fresh :: taken.map (Saying.allow fresh)
      | .name _ | .select _ _ | .index _ _ =>
        match resolve fuel w n scope term with
        | .value v => [.value v]
        | .node target =>
          if target.place = n.place || seen.contains target.place then []
          else if isAround target.place n.place then [.value (.absent w.optional)]
          else
            let closings := if target.place.any Label.isDefinition then [⟨n.place, target.place⟩] else []
            let more := origin.add ⟨closings, [target.place]⟩
            if origin.taken.contains target.place then [.again target.place target.sayings more]
            else target.sayings.flatMap fun s =>
              takeApartOne fuel w n (target.place :: seen) (s.adopt more)
      | term => [.value (evaluate fuel w n scope term)]
    | s => [s]

/-- The scopes of a body for which all clauses before it hold, or a value that is missing. -/
def comprehend (fuel : Nat) (w : Work) (n : Node) (scope : List Frame) (clauses : List Clause) :
    List (Except Value (List Frame)) :=
  match fuel with
  | 0 => [.error .conflict]
  | fuel + 1 =>
    let known (name : String) (v : Value) : Frame := .name name (.inner name :: n.place) [.value v]
    match clauses with
    | [] => [.ok scope]
    | .condition term :: rest =>
      match Operator.withBool (evaluate fuel w n scope term) fun b => .atom (.bool b) with
      | .atom (.bool true) => comprehend fuel w n scope rest
      | .atom (.bool false) => []
      | v => [.error v]
    | .binding name term :: rest =>
      comprehend fuel w n (.name name (.inner name :: n.place) [.term scope term {}] :: scope) rest
    | .forEach key name source :: rest =>
      match (evaluate fuel w n scope source).preferred with
      | .list items _ => items.zipIdx.flatMap fun (item, i) =>
        comprehend fuel w n ((key.toList.map (known · (.atom (.int i)))) ++ known name item :: scope) rest
      | .record fields _ _ => fields.flatMap fun
        | (.field label, .given, v) =>
          comprehend fuel w n ((key.toList.map (known · (.atom (.text label)))) ++ known name v :: scope) rest
        | _ => []
      | .absent pending => [.error (.absent pending)]
      | .range _ _ => [.error .undetermined]
      | .choice _ => [.error .undetermined]
      | .atom _ => [.error .conflict]

/-- What a name or a path leads to. -/
def resolve (fuel : Nat) (w : Work) (n : Node) (scope : List Frame) (term : Term) : Target :=
  match fuel with
  | 0 => .value .conflict
  | fuel + 1 =>
    match term with
    | .group term => resolve fuel w n scope term
    | .name name =>
      match find name scope with
      | some (.field owner label) => part fuel w owner label
      | some (.node target) => .node target
      | none => .value ((Scope.values.lookup name).getD .conflict)
    | .select term label =>
      match resolve fuel w n scope term with
      | .node owner => part fuel w owner label
      | .value v => .value (partOf v.preferred label)
    | .index term place =>
      match (evaluate fuel w n scope place).preferred with
      | .atom (.int i) =>
        if i < 0 then .value .conflict
        else match resolve fuel w n scope term with
          | .node owner => part fuel w owner (.item i.toNat)
          | .value v => .value (partOf v.preferred (.item i.toNat))
      | .atom (.text name) =>
        match resolve fuel w n scope term with
        | .node owner => part fuel w owner (.field name)
        | .value v => .value (partOf v.preferred (.field name))
      | v => .value (Operator.withAtom v fun _ => .conflict)
    | term => .value (evaluate fuel w n scope term)

/-- The part of a node with a label. -/
def part (fuel : Nat) (w : Work) (owner : Node) (label : Label) : Target :=
  match fuel with
  | 0 => .value .conflict
  | fuel + 1 =>
    let sayings := takeApart fuel w owner
    let isItem := match label with
      | .item _ => true
      | _ => false
    if isItem || sayings.any Saying.isChoice then
      .value (partOf (value fuel w owner).preferred label)
    else
      let (fields, _) := fieldsOf fuel w owner.place sayings
      match fields.find? (·.label = label) with
      | some f =>
        if f.presence = .given then .node ⟨label :: owner.place, f.sayings⟩ else .value .undetermined
      | none =>
        if w.opened.contains owner.place then .value .undetermined
        else .value (partOf (value fuel w owner).preferred label)

/-- What is said about the fields of a record, by label, and about further fields. -/
def fieldsOf (fuel : Nat) (w : Work) (place : Place) (sayings : List Saying) :
    List FieldSayings × List PatternSaying :=
  match fuel with
  | 0 => ([], [])
  | fuel + 1 =>
    let declared := sayings.flatMap fun
      | .fields scope declarations origin _ =>
        let inner := .fields place sayings declarations :: scope
        declarations.map fun d => (inner, d, origin)
      | _ => []
    let patterns := declared.filterMap fun
      | (scope, .field _ (.pattern other key) _ term, origin) =>
        some { key := evaluate fuel w ⟨place, sayings⟩ scope key, other, scope, term, origin }
      | _ => none
    let fields := declared.foldl (fun fields d =>
      match d with
      | (scope, .field _ (.fixed label _) presence term, origin) =>
        addField fields label presence (.term scope term origin)
      | (scope, .field _ (.dynamic name) presence term, origin) =>
        match (evaluate fuel w ⟨place, sayings⟩ scope name).preferred with
        | .atom (.text name) => addField fields (.field name) presence (.term scope term origin)
        | _ => fields
      | _ => fields) []
    let fields := sayings.foldl (fun fields s =>
      match s with
      | .value (.record more _ _) =>
        more.foldl (fun fields (label, presence, v) => addField fields label presence (.value v)) fields
      | _ => fields) fields
    let constrained := fields.map fun f =>
      match f.label.field? with
      | some name =>
        { f with sayings := f.sayings ++
          (patterns.filter (·.holds name)).map (·.saying place name) }
      | none => f
    (constrained, patterns)

/-- The value that sayings without choices give. -/
def assemble (fuel : Nat) (w : Work) (place : Place) (sayings : List Saying) : Value :=
  match fuel with
  | 0 => .conflict
  | fuel + 1 =>
    let records := sayings.filterMap fun
      | .fields _ declarations origin allows =>
        some (declarations, origin.closings ++ allows, origin.closings)
      | _ => none
    let recordValues := sayings.filterMap fun
      | .value (.record fields patterns extent) => some (Value.record fields patterns extent)
      | _ => none
    let base := sayings.foldl (fun base s =>
      match s with
      | .value (.record _ _ _) => base
      | .value v => base.unify v
      | .items scope elements origin => base.unify (list fuel w place scope elements origin)
      | _ => base) .any
    let isRecord := !recordValues.isEmpty || records.any fun (declarations, _) => countsAsRecord declarations
    if !base.isSome then base
    else if !isRecord && (records.isEmpty || !base.kinds.contains .record) then base
    else
      let (fields, patterns) := fieldsOf fuel w place sayings
      let closings := (records.flatMap fun (_, _, closings) => closings).eraseDups
      let allowing (c : Closing) (label : Label) : Bool :=
        match label.field? with
        | none => true
        | some name => records.any fun (declarations, closings, _) =>
          closings.contains c && (allowsOthers declarations || declarations.any fun
            | .field _ (.fixed l _) _ _ => l = label
            | .field _ (.dynamic _) _ _ => true
            | .field _ (.pattern _ _) _ _ => patterns.any (·.holds name)
            | _ => false)
      let parts := fields.filterMap fun f =>
        if closings.all (allowing · f.label) then
          let w := { w with optional := w.optional || f.presence = .optional }
          some (f.label, f.presence, value fuel w ⟨f.label :: place, f.sayings⟩)
        else if f.presence = .optional then none
        else some (f.label, f.presence, .conflict)
      let constraints := patterns.map fun p =>
        (p.key, value fuel { w with optional := true } ⟨.inner "[]" :: place, [p.saying place ""]⟩)
      let closed := closings.any fun c =>
        !records.any fun (declarations, closings, _) => closings.contains c && allowsOthers declarations
      let extent : Extent := if closed then .closed
        else if records.any fun (declarations, _) => allowsOthers declarations then .dotted
        else .free
      recordValues.foldl Value.unify (base.unify (Value.ofFields parts constraints extent))

/-- The value of a list. -/
def list (fuel : Nat) (w : Work) (place : Place) (scope : List Frame) (elements : List Element)
    (origin : Origin) : Value :=
  match fuel with
  | 0 => .conflict
  | fuel + 1 =>
    let terms : List (Except Value (List Frame × Term)) := elements.flatMap fun
      | .item term => [.ok (scope, term)]
      | .rest _ => []
      | .comprehension clauses body =>
        (comprehend fuel w ⟨place, []⟩ scope clauses).map fun
          | .ok scope => .ok (scope, body)
          | .error v => .error v
    let items := terms.zipIdx.map fun
      | (.ok (scope, term), i) => value fuel w ⟨.item i :: place, [.term scope term origin]⟩
      | (.error v, _) => v
    let more := elements.findSome? fun
      | .rest (some term) => some (value fuel w ⟨.inner "..." :: place, [.term scope term origin]⟩)
      | .rest none => some .any
      | _ => none
    if terms.any fun
      | .error _ => true
      | .ok _ => false
    then (items.find? (!·.isSome)).getD .undetermined
    else Value.ofItems items more

/-- The value of a term. -/
def evaluate (fuel : Nat) (w : Work) (n : Node) (scope : List Frame) (term : Term) : Value :=
  match fuel with
  | 0 => .conflict
  | fuel + 1 =>
    match term with
    | .bottom => .conflict
    | .atom a => .atom a
    | .filled parts last =>
      let texts := parts.map fun (text, term) =>
        Operator.withAtom (evaluate fuel w n scope term) fun a =>
          ((Operator.text? a).map fun s => Value.atom (.text (text ++ s))).getD .conflict
      (texts ++ [Value.atom (.text last)]).foldl (Operator.binary .add) (Value.atom (.text ""))
    | .name _ | .select _ _ | .index _ _ =>
      match resolve fuel w n scope term with
      | .node target => value fuel w target
      | .value v => v
    | .group term => evaluate fuel w n scope term
    | .unary op term => Operator.unary op (evaluate fuel w n scope term)
    | .binary .equal term .bottom => .atom (.bool !(evaluate fuel w n scope term).isSome)
    | .binary (.compare .different) term .bottom => .atom (.bool (evaluate fuel w n scope term).isSome)
    | .binary .both _ _ | .binary .either _ _ | .record _ | .list _ | .known _ _ =>
      value fuel w ⟨.inner "" :: n.place, [.term scope term {}]⟩
    | .binary op left right =>
      Operator.binary op (evaluate fuel w n scope left) (evaluate fuel w n scope right)
    | .slice term low high =>
      let bound (b : Option Term) (default : Nat) : Option Nat :=
        match b with
        | none => some default
        | some term =>
          match (evaluate fuel w n scope term).preferred with
          | .atom (.int i) => if i < 0 then none else some i.toNat
          | _ => none
      match (evaluate fuel w n scope term).preferred with
      | .list items _ =>
        match bound low 0, bound high items.length with
        | some i, some j =>
          if i ≤ j && j ≤ items.length then .list ((items.take j).drop i) none else .conflict
        | _, _ => .conflict
      | v => Operator.withAtom v fun _ => .conflict
    | .call (.name function) arguments =>
      if (find function scope).isSome then .conflict
      else Operator.call function (arguments.map (evaluate fuel w n scope))
    | .call _ _ => .conflict

end

/-- The bound of the recursion. -/
def depthLimit : Nat := 2000

end Eval

/-- Why a settings file or a schema cannot be used. -/
inductive Error where
  /-- The text is malformed. -/
  | malformed
  /-- A name stands for nothing or is not used, or a preferred value is not in a choice. -/
  | misused
  /-- The file has no value. -/
  | conflict
  /-- The schema does not admit the file. -/
  | refused
deriving DecidableEq, Repr

namespace Value

/-- The value of a file. -/
def ofTerm (term : Term) : Value :=
  Eval.value Eval.depthLimit {} ⟨[], [.term [] term {}]⟩

/-- Reads the text of a file. -/
def parseText (text : List Char) : Except Error Value :=
  match Term.parse? text with
  | none => .error .malformed
  | some term =>
    if (Scope.uses? Eval.depthLimit [] term).isNone then .error .misused
    else
      let v := ofTerm term
      if v.isSome then .ok v else .error .conflict

/-- Reads a settings file. -/
def parse (content : Bytes) : Except Error Value :=
  match content.toString? with
  | none => .error .malformed
  | some text => parseText text.toList

end Value

end TapeMachine.Config
