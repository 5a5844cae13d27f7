/-
Texts that can be taken apart.

A text shows what it is made of if the parts end where they seem to end: at a separator that none of them
holds, or where a code word ends that begins no other.

* `append_cons_inj`: cutting at the first separator;
* `flatMap_append_inj`: a text of code words, of which none begins with another.
-/
import TapeMachine.Text.Bytes

namespace TapeMachine

/-! ### Separators -/

section Separators

variable {α : Type} [DecidableEq α] {sep : α}

/-- **Two texts are cut at the first separator alike.** -/
theorem append_cons_inj {p q x y : List α} (hp : sep ∉ p) (hq : sep ∉ q)
    (h : p ++ sep :: x = q ++ sep :: y) : p = q ∧ x = y := by
  have hsplit := congrArg (List.splitOn sep) h
  rw [List.splitOn_append_cons_self_of_not_mem hp, List.splitOn_append_cons_self_of_not_mem hq,
    List.cons.injEq] at hsplit
  obtain ⟨rfl, -⟩ := hsplit
  have hrest := List.append_cancel_left h
  rw [List.cons.injEq] at hrest
  exact ⟨rfl, hrest.2⟩

end Separators

namespace Bytes

theorem split_eq (sep : UInt8) (s : Bytes) : split sep s = s.splitOn sep := by
  induction s with
  | nil => rfl
  | cons c s ih =>
    obtain ⟨part, parts, hs⟩ := List.exists_cons_of_ne_nil (List.splitOn_ne_nil sep s)
    rw [List.splitOn_cons_eq_if_modifyHead, hs]
    rw [hs, split] at ih
    rw [split, List.foldr_cons, ih]
    simp only [beq_iff_eq]
    rfl

end Bytes

/-! ### Codes -/

/-- **A text of code words shows them**, and where they end, if no word begins with another one and none
begins what follows them. -/
theorem flatMap_append_inj {α β : Type} {code : α → List β} {s t : List α} {x y : List β}
    (hcode : ∀ a ∈ s, ∀ b ∈ t, ∀ u v, code a ++ u = code b ++ v → a = b ∧ u = v)
    (hx : ∀ b ∈ t, ∀ u, x ≠ code b ++ u) (hy : ∀ a ∈ s, ∀ u, y ≠ code a ++ u)
    (h : s.flatMap code ++ x = t.flatMap code ++ y) : s = t ∧ x = y := by
  induction s generalizing t with
  | nil =>
    rcases t with _ | ⟨b, t⟩
    · exact ⟨rfl, h⟩
    · rw [List.flatMap_nil, List.nil_append, List.flatMap_cons, List.append_assoc] at h
      exact absurd h (hx b List.mem_cons_self _)
  | cons a s ih =>
    rcases t with _ | ⟨b, t⟩
    · rw [List.flatMap_nil, List.nil_append, List.flatMap_cons, List.append_assoc] at h
      exact absurd h.symm (hy a List.mem_cons_self _)
    · rw [List.flatMap_cons, List.flatMap_cons, List.append_assoc, List.append_assoc] at h
      obtain ⟨rfl, hrest⟩ := hcode a List.mem_cons_self b List.mem_cons_self _ _ h
      obtain ⟨rfl, hend⟩ := ih
        (fun c hc d hd => hcode c (List.mem_cons_of_mem _ hc) d (List.mem_cons_of_mem _ hd))
        (fun d hd => hx d (List.mem_cons_of_mem _ hd))
        (fun c hc => hy c (List.mem_cons_of_mem _ hc)) hrest
      exact ⟨rfl, hend⟩

end TapeMachine
