/-
Tables that a command line leaves alone.

A command line binds the sub directives of what it executes. It does so in copies of its own: a table that
lay in the store before is never bound to, and so is the same whenever it is looked at.

* `Executor.addSubs`: a table with sub directives added;
* `TableStore.Keeps`: a store that has the tables of another one, unchanged, and maybe more;
* `bindAll_spec`: names are bound in one table, and those that were there before a copy are kept;
* `reveal_of_ok`, `reveal_of_error`: what is visible behind a directive, whether it was copied or not.
-/
import Mathlib.Data.List.Basic
import TapeMachine.CommandLine.Executor

namespace TapeMachine.CommandLine

variable {σ ε : Type}

/-- Adds sub directives to a table, up to the first name in use. -/
def Executor.addSubs : List (Bytes × Option (Directive σ ε)) → Table σ ε → Except Bytes (Table σ ε)
  | [], table => .ok table
  | (name, d) :: rest, table =>
    if (table.lookup name).isSome then .error name else addSubs rest (table ++ [(name, d)])

namespace TableStore

variable {store store' later : TableStore σ ε} {place : Nat}

/-- All tables of a store lie unchanged in another one, at the same places. -/
def Keeps (store store' : TableStore σ ε) : Prop :=
  store.tables <+: store'.tables

namespace Keeps

theorem refl (store : TableStore σ ε) : Keeps store store :=
  List.prefix_rfl

theorem trans (h : Keeps store store') (h' : Keeps store' later) : Keeps store later :=
  List.IsPrefix.trans h h'

theorem get_eq (h : Keeps store store') (hplace : place < store.tables.length) :
    store'.get place = store.get place := by
  have hkept := List.prefix_iff_getElem?.mp h place hplace
  rw [get, get, List.getD_eq_getElem?_getD, hkept, List.getD_eq_getElem?_getD,
    List.getElem?_eq_getElem hplace]

/-- What is bound at a new place changes no old table. -/
theorem bind (h : Keeps store store') (hplace : store.tables.length ≤ place) (name : Bytes)
    (d : Option (Directive σ ε)) : Keeps store (store'.bind place name d) := by
  refine List.prefix_iff_getElem?.mpr fun i hi => ?_
  rw [TableStore.bind, List.getElem?_modify, List.prefix_iff_getElem?.mp h i hi, Option.map_eq_map,
    Option.map_some, if_neg (by omega)]

end Keeps

theorem length_bind (store : TableStore σ ε) (place : Nat) (name : Bytes)
    (d : Option (Directive σ ε)) : (store.bind place name d).tables.length = store.tables.length :=
  List.length_modify ..

theorem get_bind (h : place < store.tables.length) (name : Bytes) (d : Option (Directive σ ε)) :
    (store.bind place name d).get place = store.get place ++ [(name, d)] := by
  rw [get, get, List.getD_eq_getElem?_getD, List.getD_eq_getElem?_getD, bind, List.getElem?_modify,
    List.getElem?_eq_getElem h, Option.map_eq_map, Option.map_some, if_pos rfl]
  rfl

theorem keeps_clone (store : TableStore σ ε) (place : Nat) : store.Keeps (store.clone place).2 :=
  List.prefix_append ..

theorem get_clone (store : TableStore σ ε) (place : Nat) :
    (store.clone place).2.get (store.clone place).1 = store.get place := by
  rw [clone, get, List.getD_eq_getElem?_getD, List.getElem?_concat_length]
  rfl

/-- **Names are bound in one table**, as long as none is in use there; the tables of an older store, in
which that one had no place yet, are kept. -/
theorem bindAll_spec (hplace : store.tables.length ≤ place)
    (subs : List (Bytes × Option (Directive σ ε))) : ∀ {store' : TableStore σ ε},
      store.Keeps store' → place < store'.tables.length →
      store.Keeps (bindAll place subs store').2 ∧
      (∀ sub, Executor.addSubs subs (store'.get place) = .error sub →
        (bindAll place subs store').1 = some sub) ∧
      ∀ table, Executor.addSubs subs (store'.get place) = .ok table →
        (bindAll place subs store').1 = none ∧
        place < (bindAll place subs store').2.tables.length ∧
        (bindAll place subs store').2.get place = table := by
  induction subs with
  | nil =>
    intro store' hkeeps hlt
    refine ⟨hkeeps, fun sub h => ?_, fun table h => ?_⟩
    · cases h
    · cases h
      exact ⟨rfl, hlt, rfl⟩
  | cons entry subs ih =>
    obtain ⟨name, d⟩ := entry
    intro store' hkeeps hlt
    rw [bindAll, Executor.addSubs]
    by_cases hused : ((store'.get place).lookup name).isSome = true
    · rw [if_pos hused, if_pos hused]
      refine ⟨hkeeps, fun sub h => ?_, fun table h => ?_⟩
      · cases h
        rfl
      · cases h
    · have hrest := ih (hkeeps.bind hplace name d) (by rwa [length_bind])
      rw [get_bind hlt] at hrest
      rw [if_neg hused, if_neg hused]
      exact hrest

variable {subs : List (Bytes × Option (Directive σ ε))}

/-- Sub directives that can be added are visible at the place that is returned, and nowhere else. -/
theorem reveal_of_ok {table : Table σ ε} (hplace : place < store.tables.length)
    (h : Executor.addSubs subs (store.get place) = .ok table) :
    ∃ (place' : Nat) (store' : TableStore σ ε), store.reveal place subs = (none, place', store') ∧
      store.Keeps store' ∧ place' < store'.tables.length ∧ store'.get place' = table := by
  rcases subs with _ | ⟨entry, subs⟩
  · -- nothing is added, so the table is the old one, at its old place
    cases h
    exact ⟨place, store, rfl, .refl store, hplace, rfl⟩
  · rw [← store.get_clone place] at h
    obtain ⟨hkeeps, -, hok⟩ := bindAll_spec (Nat.le_refl store.tables.length) (entry :: subs)
      (store.keeps_clone place) (List.length_append ▸ Nat.lt_succ_self _)
    obtain ⟨hnone, hlt, hget⟩ := hok table h
    exact ⟨_, _, Prod.ext hnone rfl, hkeeps, hlt, hget⟩

/-- A name in use is returned, and every table is kept. -/
theorem reveal_of_error {sub : Bytes} (h : Executor.addSubs subs (store.get place) = .error sub) :
    ∃ (place' : Nat) (store' : TableStore σ ε),
      store.reveal place subs = (some sub, place', store') ∧ store.Keeps store' := by
  rcases subs with _ | ⟨entry, subs⟩
  · cases h
  · rw [← store.get_clone place] at h
    obtain ⟨hkeeps, herror, -⟩ := bindAll_spec (Nat.le_refl store.tables.length) (entry :: subs)
      (store.keeps_clone place) (List.length_append ▸ Nat.lt_succ_self _)
    exact ⟨_, _, Prod.ext (herror sub h) rfl, hkeeps⟩

end TableStore

end TapeMachine.CommandLine
