import Mathlib
import ScriptLang.Library.Numbers
import ScriptLang.Proofs.WholeNumbers

/-!
# The states of the random numbers

Random numbers are drawn from a state, which every draw multiplies by a fixed number modulo a
larger one. Zero would be the end of it, since no draw leads away from zero. This file shows that
zero is never reached, and that no two sequences run into each other.

* `RandomState.states` are the residues other than zero. Every seed gives one of them
  (`RandomState.ofSeed_mem_states`).
* `RandomState.bijOn_next` — a step permutes the states. Of the two numbers this needs one thing
  only, that they have no factor in common (`RandomState.coprime_multiplier_modulus`): a step can
  then be cancelled. Whatever holds of one step of a permutation holds of any number of them.
* `RandomState.Proper` says what a state is good for: words of 64 bits hold the product of the next
  step (`RandomState.nextWord` is that step in words), and the number of the state lies between zero
  and one (`RandomState.ratio`).
* `Machine.drawn` is the machine after some draws; its state is an iterate of the first one.
* **Main statement**, `random_states_stay_apart`: however many numbers are drawn, the state stays
  proper, and machines that start in different states are in different states after as many draws.
-/

namespace ScriptLang

namespace RandomState

/-- The states of the generator: the residues other than zero. -/
def states : Set Nat := Set.Ico 1 modulus

variable {s : Nat}

theorem one_mem_states : 1 ∈ states := by
  constructor <;> decide

/-- Every number is the seed of a state. -/
theorem ofSeed_mem_states (x : Float) : ofSeed x ∈ states := by
  unfold ofSeed
  split
  · exact one_mem_states
  · dsimp only
    split
    case isTrue => exact one_mem_states
    case isFalse hzero =>
      exact ⟨Nat.one_le_iff_ne_zero.mpr hzero, Nat.mod_lt _ (by decide)⟩

/-! ### One step -/

theorem coprime_multiplier_modulus : Nat.Coprime multiplier modulus := by decide

/-- No step leads to zero: what is a multiple of the modulus after the step was one before. -/
theorem next_ne_zero (hs : s ∈ states) : next s ≠ 0 := by
  intro hzero
  have hdvd : modulus ∣ s * multiplier := Nat.dvd_of_mod_eq_zero hzero
  have hs' : modulus ∣ s := coprime_multiplier_modulus.symm.dvd_of_dvd_mul_right hdvd
  exact absurd (Nat.le_of_dvd hs.1 hs') (Nat.not_le.mpr hs.2)

theorem mapsTo_next : Set.MapsTo next states states := fun _ hs =>
  ⟨Nat.one_le_iff_ne_zero.mpr (next_ne_zero hs), Nat.mod_lt _ (by decide)⟩

theorem injOn_next : Set.InjOn next states := by
  intro s hs t ht h
  -- The multiplier can be cancelled, and states are their own residues.
  have hmod : s ≡ t [MOD modulus] :=
    Nat.ModEq.cancel_right_of_coprime coprime_multiplier_modulus.symm h
  exact hmod.eq_of_lt_of_lt hs.2 ht.2

/-- **A step permutes the states.** There are finitely many, and no two of them have the same
successor. -/
theorem bijOn_next : Set.BijOn next states states :=
  ((Set.finite_Ico 1 modulus).injOn_iff_bijOn_of_mapsTo mapsTo_next).mp injOn_next

/-! ### Steps in words -/

/-- A step in signed words of 64 bits. The product wraps around where it does not fit. -/
def nextWord (state : Int64) : Int64 := state * .ofNat multiplier % .ofNat modulus

/-- The product of a state fits: it has 46 bits at most. -/
theorem toInt_mul_multiplier (hs : s ∈ states) :
    (Int64.ofNat s * Int64.ofNat multiplier).toInt = s * multiplier := by
  -- Neither a state nor the product comes near to `2 ^ 63`, so nothing wraps around.
  obtain ⟨-, hlt⟩ := hs
  unfold modulus at hlt
  have hmultiplier : (Int64.ofNat multiplier).toInt = multiplier :=
    Int64.toInt_ofNat_of_lt (by decide)
  rw [Int64.toInt_mul, Int64.toInt_ofNat_of_lt (by omega), hmultiplier]
  unfold multiplier
  exact Int.bmod_eq_of_le (by omega) (by omega)

/-- Words compute the next state. -/
theorem nextWord_ofNat (hs : s ∈ states) : nextWord (.ofNat s) = .ofNat (next s) := by
  have hmodulus : (Int64.ofNat modulus).toInt = modulus := Int64.toInt_ofNat_of_lt (by decide)
  have hnext : next s < modulus := (mapsTo_next hs).2
  unfold modulus at hnext
  rw [← Int64.toInt_inj, nextWord, Int64.toInt_mod, toInt_mul_multiplier hs, hmodulus,
    Int64.toInt_ofNat_of_lt (by omega)]
  rfl

/-- Words go through the same states. -/
theorem iterate_nextWord_ofNat (hs : s ∈ states) (n : Nat) :
    nextWord^[n] (.ofNat s) = .ofNat (next^[n] s) := by
  induction n with
  | zero => rfl
  | succ n ih =>
    rw [Function.iterate_succ_apply', Function.iterate_succ_apply', ih,
      nextWord_ofNat (mapsTo_next.iterate n hs)]

/-! ### The number of a state -/

/-- The number of a state without rounding. -/
def ratio (state : Nat) : ℚ := ((state : ℚ) - 1) / ((modulus : ℚ) - 1)

theorem ratio_mem_Ico (hs : s ∈ states) : ratio s ∈ Set.Ico (0 : ℚ) 1 := by
  have hlow : (1 : ℚ) ≤ s := by exact_mod_cast hs.1
  have hhigh : (s : ℚ) < modulus := by exact_mod_cast hs.2
  have hmodulus : (0 : ℚ) < (modulus : ℚ) - 1 := by linarith
  constructor
  · exact div_nonneg (sub_nonneg.mpr hlow) hmodulus.le
  · rw [ratio, div_lt_one hmodulus]
    exact sub_lt_sub_right hhigh 1

/-- The two numbers that `fraction` divides are those of `ratio`, since both have fewer than 54
bits. -/
theorem fraction_eq_div (hs : s ∈ states) : ∃ a b : Float, fraction s = a / b ∧
    Binary.toInt? a = some ((s : Int) - 1) ∧ Binary.toInt? b = some ((modulus : Int) - 1) := by
  obtain ⟨hlow, hhigh⟩ := hs
  have hmodulus : modulus < 2 ^ 53 := by decide
  refine ⟨_, _, rfl, ?_, ?_⟩
  · rw [Binary.toInt?_ofNat (by omega), Nat.cast_sub hlow, Nat.cast_one]
  · exact Binary.toInt?_ofNat (by omega)

/-- **Proper.** A state that the generator can go on from. -/
structure Proper (s : Nat) : Prop where
  mem : s ∈ states
  /-- The product of the next step does not leave the words of 64 bits. -/
  product : (Int64.ofNat s * Int64.ofNat multiplier).toInt = s * multiplier
  /-- The number of the state is at least zero and less than one. -/
  ratio : ratio s ∈ Set.Ico (0 : ℚ) 1
  /-- Numerator and denominator of the number are exact. -/
  fraction : ∃ a b : Float, fraction s = a / b ∧
    Binary.toInt? a = some ((s : Int) - 1) ∧ Binary.toInt? b = some ((modulus : Int) - 1)

theorem proper (hs : s ∈ states) : Proper s :=
  ⟨hs, toInt_mul_multiplier hs, ratio_mem_Ico hs, fraction_eq_div hs⟩

end RandomState

/-! ### Draws -/

/-- The machine after some random numbers were drawn. -/
def Machine.drawn (m : Machine) (n : Nat) : Machine := (fun m => (MathFn.draw m).machine)^[n] m

namespace Machine

variable {m : Machine}

theorem drawn_succ (m : Machine) (n : Nat) :
    m.drawn (n + 1) = (MathFn.draw (m.drawn n)).machine :=
  Function.iterate_succ_apply' _ n m

/-- The state of the random numbers is all that a draw reads and changes. -/
theorem random_drawn (m : Machine) (n : Nat) :
    (m.drawn n).random = RandomState.next^[n] m.random := by
  induction n with
  | zero => rfl
  | succ n ih => rw [drawn_succ, Function.iterate_succ_apply', ← ih]; rfl

/-- A draw succeeds, and gives the number of the state that it leads to. -/
theorem draw_drawn (m : Machine) (n : Nat) : MathFn.draw (m.drawn n) =
    .ok (RandomState.fraction (m.drawn (n + 1)).random) (m.drawn (n + 1)) := by
  rw [drawn_succ]
  rfl

theorem random_drawn_mem (hm : m.random ∈ RandomState.states) (n : Nat) :
    (m.drawn n).random ∈ RandomState.states := by
  rw [random_drawn]
  exact RandomState.mapsTo_next.iterate n hm

end Machine

/-- **Random states stay apart.** Seeds are states, and a step permutes the states. After any number
of draws the state is proper and the one that words of 64 bits come to, the next draw gives a
number, and a machine that started in another state is still in another one. -/
theorem random_states_stay_apart {m : Machine} (hm : m.random ∈ RandomState.states) (n : Nat) :
    (∀ x, RandomState.ofSeed x ∈ RandomState.states) ∧
    Set.BijOn RandomState.next RandomState.states RandomState.states ∧
    RandomState.Proper (m.drawn n).random ∧
    RandomState.nextWord^[n] (.ofNat m.random) = .ofNat (m.drawn n).random ∧
    MathFn.draw (m.drawn n) =
      .ok (RandomState.fraction (m.drawn (n + 1)).random) (m.drawn (n + 1)) ∧
    ∀ m' : Machine, m'.random ∈ RandomState.states → m'.random ≠ m.random →
      (m'.drawn n).random ≠ (m.drawn n).random := by
  refine ⟨RandomState.ofSeed_mem_states, RandomState.bijOn_next,
    RandomState.proper (m.random_drawn_mem hm n), ?_, m.draw_drawn n, fun m' hm' hne => ?_⟩
  · rw [RandomState.iterate_nextWord_ofNat hm, Machine.random_drawn]
  · rw [Machine.random_drawn, Machine.random_drawn]
    exact (RandomState.bijOn_next.iterate n).injOn.ne hm' hm hne

/-- From the largest state a step leads to the negative of the multiplier, from the smallest one to
the multiplier. The two sequences never meet. -/
theorem random_states_stay_apart_extremes : ∃ m m' : Machine,
    m.random = 2147483646 ∧ m'.random = 1 ∧ (m.drawn 1).random = 2147466840 ∧
    (m'.drawn 1).random = 16807 ∧ (∀ n, RandomState.Proper (m.drawn n).random) ∧
    ∀ n, (m'.drawn n).random ≠ (m.drawn n).random := by
  have hm : ({ random := 2147483646 } : Machine).random ∈ RandomState.states := by
    constructor <;> decide
  refine ⟨{ random := 2147483646 }, { random := 1 }, rfl, rfl, rfl, rfl, fun n => ?_, fun n => ?_⟩
  · exact (random_states_stay_apart hm n).2.2.1
  · exact (random_states_stay_apart hm n).2.2.2.2.2 _ RandomState.one_mem_states (by decide)

end ScriptLang
