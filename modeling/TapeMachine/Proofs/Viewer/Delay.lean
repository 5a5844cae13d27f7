/-
Limits of the delay.

The faster key halves the delay and keeps it at `minDelay` or above, the slower key doubles it and keeps
it at `maxDelay` or below. Each of them looks at one limit only, and a new viewer at the lower one only. So
the delay keeps both limits just if it begins below the upper one.

* `Model.Between`: the invariant, a lower and an upper bound of the delay, kept by every answer;
* `Model.Paced`: the delay is within its limits and both keys move it the right way;
* `delay_keeps_limits`: this holds behind all messages iff it holds of the delay asked for, and what happens
  to a delay that is too long.
-/
import Mathlib.Algebra.Group.Nat.Defs
import Mathlib.Algebra.Ring.Int.Defs
import TapeMachine.Proofs.Viewer.Following
import TapeMachine.Settings.Values

namespace TapeMachine.Viewer

/-! ### Words -/

theorem toInt_max (a b : Int64) : (max a b).toInt = max a.toInt b.toInt := by
  rw [Int.max_def]
  show (if a ≤ b then b else a).toInt = _
  simp only [Int64.le_iff_toInt_le]
  split <;> rfl

theorem toInt_min (a b : Int64) : (min a b).toInt = min a.toInt b.toInt := by
  rw [Int.min_def]
  show (if a ≤ b then a else b).toInt = _
  simp only [Int64.le_iff_toInt_le]
  split <;> rfl

theorem toInt_minDelay : minDelay.toInt = 10000000 := by decide

theorem toInt_maxDelay : maxDelay.toInt = 5000000000 := by decide

theorem toInt_max_maxDelay (d : Int64) : (max d maxDelay).toInt = max d.toInt 5000000000 := by
  rw [toInt_max, toInt_maxDelay]

theorem toInt_half {d : Int64} (h : 0 ≤ d.toInt) : (d / 2).toInt = d.toInt / 2 := by
  have hlt := d.toInt_lt
  have htwo : (2 : Int64).toInt = 2 := by decide
  rw [Int64.toInt_div, htwo, Int.tdiv_eq_ediv_of_nonneg h]
  exact Int.bmod_eq_of_le (by omega) (by omega)

theorem toInt_double (d : Int64) : (d * 2).toInt = (2 * d.toInt).bmod (2 ^ 64) := by
  have htwo : (2 : Int64).toInt = 2 := by decide
  rw [Int64.toInt_mul, htwo, Int.mul_comm]

theorem toInt_double_of_lt {d : Int64} (h : 0 ≤ d.toInt) (hd : 2 * d.toInt < 2 ^ 63) :
    (d * 2).toInt = 2 * d.toInt := by
  rw [toInt_double]
  exact Int.bmod_eq_of_le (by omega) (by omega)

/-- The double of a delay that is too long for a word is negative. -/
theorem toInt_double_of_le {d : Int64} (hd : 2 ^ 63 ≤ 2 * d.toInt) :
    (d * 2).toInt = 2 * d.toInt - 2 ^ 64 := by
  have hlt := d.toInt_lt
  rw [toInt_double, Int.bmod_def]
  omega

namespace Model

variable {m : Model} {top d : Int64} {k : KeyPress}

theorem toInt_new (machine : Machine) (cells : Int) (d : Int64) :
    (new machine cells d).delay.toInt = max d.toInt 10000000 := by
  rw [new, toInt_max, toInt_minDelay]

/-! ### Keys that change the delay -/

/-- The delay behind the faster key. -/
theorem toInt_faster (h : 0 ≤ m.delay.toInt) :
    m.faster.delay.toInt = max (m.delay.toInt / 2) 10000000 := by
  rw [faster, toInt_max, toInt_half h, toInt_minDelay]

/-- The delay behind the slower key. -/
theorem toInt_slower (h : 0 ≤ m.delay.toInt) (hd : 2 * m.delay.toInt < 2 ^ 63) :
    m.slower.delay.toInt = min (2 * m.delay.toInt) 5000000000 := by
  rw [slower, toInt_min, toInt_double_of_lt h hd, toInt_maxDelay]

/-- The word wraps around behind the slower key if the delay is too long. -/
theorem slower_neg (hd : 2 ^ 63 ≤ 2 * m.delay.toInt) : m.slower.delay.toInt < 0 := by
  have hlt := m.delay.toInt_lt
  rw [slower, toInt_min, toInt_double_of_le hd]
  omega

theorem delay_step (m : Model) : m.step.delay = m.delay := by
  rw [step]
  split <;> rfl

theorem delay_act (m : Model) {a : Action} (hfaster : a ≠ .faster) (hslower : a ≠ .slower) :
    (m.act a).1.delay = m.delay := by
  cases a with
  | faster => exact absurd rfl hfaster
  | slower => exact absurd rfl hslower
  | step => exact delay_step _
  | play =>
    rw [act, togglePlay]
    split <;> rfl
  | quit | input | help => rfl

theorem delay_updateInput (m : Model) (k : KeyPress) : (m.updateInput k).1.delay = m.delay := by
  obtain ⟨machine, prompt, inputting, inputError, hkept⟩ := m.exists_updateInput_eq k
  rw [hkept]

theorem delay_updateTick (m : Model) (generation : Nat) :
    (m.updateTick generation).1.delay = m.delay := by
  rw [updateTick]
  split
  · rfl
  · dsimp only
    split <;> exact m.delay_step

theorem update_of_closed {a : Action} (hclosed : m.inputting = false) (hk : k.action? = some a) :
    m.update (.key k) = m.act a := by
  rw [update, hclosed, hk]
  rfl

/-- A key changes the delay only as its binding says, and not at all while the prompt is open. -/
theorem delay_update_key {a : Action} (hk : k.action? = some a) :
    (m.update (.key k)).1.delay = m.delay ∨ (m.update (.key k)).1.delay = (m.act a).1.delay := by
  rw [update]
  split
  · exact .inl (m.delay_updateInput k)
  · rw [hk]
    exact .inr rfl

/-- **All that an answer does to the delay.** -/
theorem delay_update_cases (m : Model) (message : Message) :
    (m.update message).1.delay = m.delay ∨ (m.update message).1.delay = m.faster.delay ∨
      (m.update message).1.delay = m.slower.delay := by
  cases message with
  | width width => exact .inl rfl
  | tick generation => exact .inl (m.delay_updateTick generation)
  | key k =>
    rw [update]
    split
    · exact .inl (m.delay_updateInput k)
    · split
      · next a _ =>
        by_cases hfaster : a = .faster
        · rw [hfaster]
          exact .inr (.inl rfl)
        · by_cases hslower : a = .slower
          · rw [hslower]
            exact .inr (.inr rfl)
          · exact .inl (m.delay_act hfaster hslower)
      · exact .inl rfl

/-! ### The invariant -/

/-- The delay is at least the lower limit and at most `top`. -/
structure Between (top : Int64) (m : Model) : Prop where
  minDelay_le : minDelay ≤ m.delay
  le_top : m.delay ≤ top

/-- The delay is within its limits, the faster key does not make it larger, and the slower key does not make
it smaller. -/
structure Paced (m : Model) : Prop where
  minDelay_le : minDelay ≤ m.delay
  le_maxDelay : m.delay ≤ maxDelay
  faster_le : ∀ k, k.action? = some .faster → (m.update (.key k)).1.delay ≤ m.delay
  le_slower : ∀ k, k.action? = some .slower → m.delay ≤ (m.update (.key k)).1.delay

theorem Between.toInt (h : m.Between top) : 10000000 ≤ m.delay.toInt ∧ m.delay.toInt ≤ top.toInt := by
  have hmin := Int64.le_iff_toInt_le.mp h.minDelay_le
  rw [toInt_minDelay] at hmin
  exact ⟨hmin, Int64.le_iff_toInt_le.mp h.le_top⟩

theorem between_of_toInt (hmin : 10000000 ≤ m.delay.toInt) (htop : m.delay.toInt ≤ top.toInt) :
    m.Between top := by
  refine ⟨Int64.le_iff_toInt_le.mpr ?_, Int64.le_iff_toInt_le.mpr htop⟩
  rw [toInt_minDelay]
  exact hmin

theorem between_new (machine : Machine) (cells : Int) (d : Int64) :
    (new machine cells d).Between (max d maxDelay) := by
  have hdelay := toInt_new machine cells d
  have htop := toInt_max_maxDelay d
  exact between_of_toInt (by omega) (by omega)

theorem Between.faster (h : m.Between top) : m.faster.Between top := by
  obtain ⟨hmin, htop⟩ := h.toInt
  have hfaster := toInt_faster (m := m) (by omega)
  exact between_of_toInt (by omega) (by omega)

/-- The slower key keeps the upper bound if it is so low that its double is a word. -/
theorem Between.slower (hmax : maxDelay ≤ top) (hfits : 2 * top.toInt < 2 ^ 63) (h : m.Between top) :
    m.slower.Between top := by
  obtain ⟨hmin, htop⟩ := h.toInt
  have hlimit := Int64.le_iff_toInt_le.mp hmax
  rw [toInt_maxDelay] at hlimit
  -- the double of a delay up to `top` is a word, so that the lesser of it and the limit is positive
  have hslower := toInt_slower (m := m) (by omega) (by omega)
  exact between_of_toInt (by omega) (by omega)

/-- Every answer keeps the bounds. -/
theorem Between.update (hmax : maxDelay ≤ top) (hfits : 2 * top.toInt < 2 ^ 63) (h : m.Between top)
    (message : Message) : (m.update message).1.Between top := by
  obtain hsame | hfaster | hslower := m.delay_update_cases message
  · exact ⟨hsame ▸ h.minDelay_le, hsame ▸ h.le_top⟩
  · exact ⟨hfaster ▸ h.faster.minDelay_le, hfaster ▸ h.faster.le_top⟩
  · have hkept := h.slower hmax hfits
    exact ⟨hslower ▸ hkept.minDelay_le, hslower ▸ hkept.le_top⟩

/-- **The bounds hold behind all answers.** -/
theorem Between.answerAll (hmax : maxDelay ≤ top) (hfits : 2 * top.toInt < 2 ^ 63)
    (messages : List Message) : ∀ {m : Model}, m.Between top → (m.answerAll messages).Between top := by
  induction messages with
  | nil => exact id
  | cons message messages ih => exact fun h => ih (h.update hmax hfits message)

/-! ### The right way -/

theorem Between.faster_le (h : m.Between top) (hk : k.action? = some .faster) :
    (m.update (.key k)).1.delay ≤ m.delay := by
  obtain ⟨hmin, -⟩ := h.toInt
  have hfaster := toInt_faster (m := m) (by omega)
  rw [Int64.le_iff_toInt_le]
  obtain hsame | (hact : _ = m.faster.delay) := delay_update_key (m := m) hk
  · exact Int.le_of_eq (by rw [hsame])
  · rw [hact]
    omega

/-- The slower key brings the delay at most down to the upper limit. -/
theorem Between.le_slower (hfits : 2 * top.toInt < 2 ^ 63) (h : m.Between top)
    (hk : k.action? = some .slower) : min m.delay maxDelay ≤ (m.update (.key k)).1.delay := by
  obtain ⟨hmin, htop⟩ := h.toInt
  have hslower := toInt_slower (m := m) (by omega) (by omega)
  rw [Int64.le_iff_toInt_le, toInt_min, toInt_maxDelay]
  obtain hsame | (hact : _ = m.slower.delay) := delay_update_key (m := m) hk
  · rw [hsame]
    omega
  · rw [hact]
    omega

theorem paced_of_between (h : m.Between maxDelay) : m.Paced where
  minDelay_le := h.minDelay_le
  le_maxDelay := h.le_top
  faster_le _ hk := h.faster_le hk
  le_slower k hk := by
    have hslower := Int64.le_iff_toInt_le.mp (h.le_slower (by decide) hk)
    obtain ⟨-, htop⟩ := h.toInt
    rw [toInt_min] at hslower
    rw [Int64.le_iff_toInt_le]
    omega

/-- The slower key shortens a delay that is longer than the upper limit, to the limit or below zero. -/
theorem slower_lt (hmax : maxDelay < m.delay) (hclosed : m.inputting = false)
    (hk : k.action? = some .slower) : (m.update (.key k)).1.delay < m.delay := by
  have hlimit := Int64.lt_iff_toInt_lt.mp hmax
  rw [toInt_maxDelay] at hlimit
  have hact : (m.act .slower).1.delay = m.slower.delay := rfl
  rw [update_of_closed hclosed hk, hact, Int64.lt_iff_toInt_lt]
  -- a double that is no word wraps around to a negative number, which no limit brings back
  obtain hfits | hwraps := Int.lt_or_le (2 * m.delay.toInt) (2 ^ 63)
  · have hslower := toInt_slower (m := m) (by omega) hfits
    omega
  · have hneg := slower_neg hwraps
    omega

end Model

/-- **The delay keeps its limits iff it begins below the upper one.** Behind all messages it lies within its
limits, the faster key does not make it larger and the slower key does not make it smaller, exactly if the
delay asked for is at most `maxDelay`. A longer one is an upper bound of all later ones if its double is a
word, but the slower key brings it down to `maxDelay`; and if its double is no word, the slower key makes it
negative. -/
theorem delay_keeps_limits (machine : Machine) (cells : Int) (d : Int64) :
    ((∀ messages, ((Model.new machine cells d).answerAll messages).Paced) ↔ d ≤ maxDelay) ∧
      (2 * d.toInt < 2 ^ 63 →
        ∀ messages m, (Model.new machine cells d).answerAll messages = m →
          m.Between (max d maxDelay) ∧
            ∀ k, (k.action? = some .faster → (m.update (.key k)).1.delay ≤ m.delay) ∧
              (k.action? = some .slower → min m.delay maxDelay ≤ (m.update (.key k)).1.delay)) ∧
      (∀ k, k.action? = some .slower →
        (maxDelay < d →
          ((Model.new machine cells d).update (.key k)).1.delay < (Model.new machine cells d).delay) ∧
        (2 ^ 63 ≤ 2 * d.toInt → ((Model.new machine cells d).update (.key k)).1.delay < 0)) := by
  have hnew := Model.between_new machine cells d
  have hdelay := Model.toInt_new machine cells d
  refine ⟨⟨?_, ?_⟩, ?_, ?_⟩
  · intro h
    have hmax := Int64.le_iff_toInt_le.mp (h []).le_maxDelay
    have hanswer : (Model.new machine cells d).answerAll [] = Model.new machine cells d := rfl
    rw [hanswer, hdelay] at hmax
    rw [Int64.le_iff_toInt_le]
    omega
  · intro hd messages
    -- below the upper limit the invariant has that limit as its bound
    have htop : max d maxDelay = maxDelay := by
      rw [Int64.le_iff_toInt_le] at hd
      rw [← Int64.toInt_inj, toInt_max]
      omega
    rw [htop] at hnew
    exact Model.paced_of_between (hnew.answerAll (Int64.le_refl _) (by decide) messages)
  · intro hfits messages m hm
    have htop := toInt_max_maxDelay d
    have hwidth : 2 * (max d maxDelay).toInt < 2 ^ 63 := by omega
    have hlimit : maxDelay ≤ max d maxDelay := by
      rw [Int64.le_iff_toInt_le, toInt_maxDelay]
      omega
    have hm' := hnew.answerAll hlimit hwidth messages
    rw [hm] at hm'
    exact ⟨hm', fun k => ⟨hm'.faster_le, hm'.le_slower hwidth⟩⟩
  · intro k hk
    constructor
    · intro hd
      refine Model.slower_lt ?_ rfl hk
      rw [Int64.lt_iff_toInt_lt] at hd ⊢
      omega
    · intro hwraps
      rw [Model.update_of_closed rfl hk, Int64.lt_iff_toInt_lt]
      exact Model.slower_neg (by omega)

/-- Three delays of the command line: that of five seconds keeps its limits, the slower key brings one of six
seconds down to five, and the double of the third one is no word. -/
theorem delay_keeps_limits_of_request :
    ∃ five six long : Int64,
      Settings.stepDelay (⟨.ok []⟩ : Config.Loader) { delay := some 5000 } = .ok five ∧
      Settings.stepDelay (⟨.ok []⟩ : Config.Loader) { delay := some 6000 } = .ok six ∧
      Settings.stepDelay (⟨.ok []⟩ : Config.Loader) { delay := some 5000000000000 } = .ok long ∧
      (∀ messages, ((Model.new (.start ⟨#[], #[], #[]⟩ 1 []) 1 five).answerAll messages).Paced) ∧
      ¬ (∀ messages, ((Model.new (.start ⟨#[], #[], #[]⟩ 1 []) 1 six).answerAll messages).Paced) ∧
      ((Model.new (.start ⟨#[], #[], #[]⟩ 1 []) 1 six).update
        (.key ⟨.characters ['-'] false, false⟩)).1.delay < six ∧
      ((Model.new (.start ⟨#[], #[], #[]⟩ 1 []) 1 long).update
        (.key ⟨.characters ['-'] false, false⟩)).1.delay < 0 := by
  let machine : Machine := .start ⟨#[], #[], #[]⟩ 1 []
  have hkey : (⟨.characters ['-'] false, false⟩ : KeyPress).action? = some .slower := by decide
  obtain ⟨-, -, hsix⟩ := delay_keeps_limits machine 1 6000000000
  obtain ⟨-, -, hlong⟩ := delay_keeps_limits machine 1 5000000000000000000
  refine ⟨5000000000, 6000000000, 5000000000000000000, rfl, rfl, rfl, ?_, ?_, ?_, ?_⟩
  · exact (delay_keeps_limits machine 1 5000000000).1.mpr (by decide)
  · exact fun h => absurd ((delay_keeps_limits machine 1 6000000000).1.mp h) (by decide)
  · exact (hsix _ hkey).1 (by decide)
  · exact (hlong _ hkey).2 (by decide)

end TapeMachine.Viewer
