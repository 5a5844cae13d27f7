/-
Sinks that have room.

A sink takes a text as a whole, however it is cut into chunks, if the text stays within the limit.

* `Fits`: a text within a limit, if there is one;
* `Sink.Holds`: the sink has taken a text, and nothing else;
* `Sink.Holds.write`, `Sink.Holds.writeAll`: a sink takes what fits behind its text;
* `Sink.prefix_write`: a sink forgets nothing, also if it is full.
-/
import TapeMachine.Text.Sink

namespace TapeMachine

/-- The text is within the limit. -/
def Fits (limit : Option Nat) (text : Bytes) : Prop :=
  ∀ n ∈ limit, text.length ≤ n

theorem fits_none (text : Bytes) : Fits none text :=
  nofun

/-- The beginning of a text that fits does so too. -/
theorem Fits.of_append {limit : Option Nat} {text more : Bytes} (h : Fits limit (text ++ more)) :
    Fits limit text := by
  intro n hn
  have hlength := h n hn
  rw [List.length_append] at hlength
  omega

namespace Sink

/-- The sink has taken just this text. -/
structure Holds (s : Sink) (limit : Option Nat) (text : Bytes) : Prop where
  limit : s.limit = limit
  size : s.size = text.length
  contents : s.contents = text

variable {s : Sink} {limit : Option Nat} {text chunk : Bytes}

theorem holds_new (limit : Option Nat) : Holds { limit } limit [] :=
  ⟨rfl, rfl, rfl⟩

theorem Holds.write? (h : s.Holds limit text) (hfits : Fits limit (text ++ chunk)) :
    ∃ s', s.write? chunk = some s' ∧ s'.Holds limit (text ++ chunk) := by
  -- the limit is compared with the size that the sink would have
  have hroom : s.limit.any (· < s.size + chunk.length) = false := by
    rw [h.limit, h.size, Option.any_eq_false]
    intro n hn
    have hlength := hfits n hn
    rw [List.length_append] at hlength
    simpa using hlength
  have hwrite : s.write? chunk
      = some { s with size := s.size + chunk.length, chunks := chunk :: s.chunks } := by
    simp [Sink.write?, hroom]
  have hcontents := h.contents
  rw [Sink.contents] at hcontents
  refine ⟨_, hwrite, h.limit, ?_, ?_⟩
  · simp [h.size]
  · simp [Sink.contents, hcontents]

/-- A chunk that fits is taken. -/
theorem Holds.write (h : s.Holds limit text) (hfits : Fits limit (text ++ chunk)) :
    (s.write chunk).Holds limit (text ++ chunk) := by
  obtain ⟨s', hwrite, hs'⟩ := h.write? hfits
  rw [Sink.write, hwrite, Option.getD_some]
  exact hs'

/-- **Chunks that fit together are all taken.** -/
theorem Holds.writeAll (chunks : List Bytes) : ∀ {s : Sink} {text : Bytes}, s.Holds limit text →
    Fits limit (text ++ chunks.flatten) →
    ∃ s', s.writeAll chunks = (true, s') ∧ s'.Holds limit (text ++ chunks.flatten) := by
  induction chunks with
  | nil =>
    intro s text h _
    rw [List.flatten_nil, List.append_nil]
    exact ⟨s, rfl, h⟩
  | cons chunk chunks ih =>
    intro s text h hfits
    rw [List.flatten_cons, ← List.append_assoc] at hfits ⊢
    obtain ⟨s', hwrite, hs'⟩ := h.write? hfits.of_append
    rw [Sink.writeAll, hwrite]
    exact ih hs' hfits

/-- What was written stays. -/
theorem prefix_write (s : Sink) (chunk : Bytes) : s.contents <+: (s.write chunk).contents := by
  rw [Sink.write, Sink.write?]
  split
  · exact List.prefix_rfl
  · simp [Sink.contents]

end Sink

end TapeMachine
