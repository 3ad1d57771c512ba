import Mathlib.Data.Rat.Floor
import Mathlib.Order.Monotone.Basic

namespace Fundex

/-- What an operation does to its exact result: a monotone projection onto the representable
values, among which are `0` and `1`. -/
structure Rounding where
  rnd : ℚ → ℚ
  mono : Monotone rnd
  idem : ∀ q, rnd (rnd q) = rnd q
  rnd_zero : rnd 0 = 0
  rnd_one : rnd 1 = 1

def Rounding.exact : Rounding := ⟨id, monotone_id, fun _ => rfl, rfl, rfl⟩

@[simp] theorem Rounding.exact_rnd (q : ℚ) : Rounding.exact.rnd q = q := rfl

namespace Rounding

variable (r : Rounding) {q p : ℚ}

theorem rnd_nonneg (h : 0 ≤ q) : 0 ≤ r.rnd q := r.rnd_zero ▸ r.mono h

theorem rnd_le_of_le (h : q ≤ p) (hp : r.rnd p = p) : r.rnd q ≤ p := hp ▸ r.mono h

theorem le_rnd_of_le (h : p ≤ q) (hp : r.rnd p = p) : p ≤ r.rnd q := hp ▸ r.mono h

theorem rnd_max_zero (h : r.rnd q = q) : r.rnd (max q 0) = max q 0 := by
  rcases le_total q 0 with h0 | h0
  · rw [max_eq_right h0, r.rnd_zero]
  · rw [max_eq_left h0, h]

theorem rnd_min_one (h : r.rnd q = q) : r.rnd (min q 1) = min q 1 := by
  rcases le_total q 1 with h1 | h1
  · rw [min_eq_left h1, h]
  · rw [min_eq_right h1, r.rnd_one]

end Rounding

inductive F64 where
  | nan
  | inf (neg : Bool)
  | fin (q : ℚ)
  deriving DecidableEq

namespace F64

variable (r : Rounding)

/-- A literal such as `0.1`: the representable value nearest to it. -/
def lit (q : ℚ) : F64 := fin (r.rnd q)

def zero : F64 := fin 0

def one : F64 := fin 1

/-- `n as f64` for an integer `n`. -/
def ofNat (n : Nat) : F64 := fin (r.rnd n)

def neg : F64 → F64
  | nan => nan
  | inf s => inf (!s)
  | fin a => fin (-a)

def add : F64 → F64 → F64
  | nan, _ | _, nan => nan
  | inf s, inf t => if s = t then inf s else nan
  | inf s, fin _ | fin _, inf s => inf s
  | fin a, fin b => fin (r.rnd (a + b))

def sub (x y : F64) : F64 := add r x (neg y)

def mul : F64 → F64 → F64
  | nan, _ | _, nan => nan
  | inf s, inf t => inf (s != t)
  | inf s, fin b | fin b, inf s => if b = 0 then nan else inf (s != decide (b < 0))
  | fin a, fin b => fin (r.rnd (a * b))

def div : F64 → F64 → F64
  | nan, _ | _, nan => nan
  | inf _, inf _ => nan
  | inf s, fin b => inf (s != decide (b < 0))
  | fin _, inf _ => fin 0
  | fin a, fin b =>
    if b = 0 then (if a = 0 then nan else inf (decide (a < 0))) else fin (r.rnd (a / b))

/-- `x < y`; false as soon as one side is NaN. -/
def lt : F64 → F64 → Bool
  | fin a, fin b => decide (a < b)
  | inf true, fin _ | fin _, inf false | inf true, inf false => true
  | _, _ => false

/-- `x == y`; NaN equals nothing. -/
def beq : F64 → F64 → Bool
  | fin a, fin b => decide (a = b)
  | inf s, inf t => s == t
  | _, _ => false

def le (x y : F64) : Bool := lt x y || beq x y

/-- `f64::min`: a NaN operand is ignored. -/
def min : F64 → F64 → F64
  | nan, y => y
  | x, nan => x
  | x, y => if lt y x then y else x

/-- `f64::max`: a NaN operand is ignored. -/
def max : F64 → F64 → F64
  | nan, y => y
  | x, nan => x
  | x, y => if lt x y then y else x

/-- `x as u64`: truncation, saturating at both ends, NaN to `0`. -/
def toU64 : F64 → Nat
  | nan | inf true => 0
  | inf false => 2 ^ 64 - 1
  | fin a => Nat.min a.floor.toNat (2 ^ 64 - 1)

@[simp] theorem lit_zero : lit r 0 = zero := by simp [lit, zero, r.rnd_zero]

@[simp] theorem lit_one : lit r 1 = one := by simp [lit, one, r.rnd_one]

@[simp] theorem add_fin (a b : ℚ) : add r (fin a) (fin b) = fin (r.rnd (a + b)) := rfl

@[simp] theorem sub_fin (a b : ℚ) : sub r (fin a) (fin b) = fin (r.rnd (a - b)) := by
  simp [sub, neg, sub_eq_add_neg]

@[simp] theorem mul_fin (a b : ℚ) : mul r (fin a) (fin b) = fin (r.rnd (a * b)) := rfl

@[simp] theorem lt_fin (a b : ℚ) : lt (fin a) (fin b) = decide (a < b) := rfl

@[simp] theorem beq_fin (a b : ℚ) : beq (fin a) (fin b) = decide (a = b) := rfl

@[simp] theorem le_fin (a b : ℚ) : le (fin a) (fin b) = decide (a ≤ b) := by
  simp [le, le_iff_lt_or_eq]

@[simp] theorem min_fin (a b : ℚ) : min (fin a) (fin b) = fin (Min.min a b) := by
  by_cases h : b < a
  · simp [min, h, min_eq_right h.le]
  · simp [min, h, min_eq_left (not_lt.mp h)]

@[simp] theorem max_fin (a b : ℚ) : max (fin a) (fin b) = fin (Max.max a b) := by
  by_cases h : a < b
  · simp [max, h, max_eq_right h.le]
  · simp [max, h, max_eq_left (not_lt.mp h)]

/-- A finite value in `[0, 1]` that rounding leaves alone: what a stored `kill_rate` is. -/
def IsProb (x : F64) : Prop := ∃ q, x = fin q ∧ 0 ≤ q ∧ q ≤ 1 ∧ r.rnd q = q

theorem isProb_zero : IsProb r zero := ⟨0, rfl, le_rfl, zero_le_one, r.rnd_zero⟩

theorem min_one_max_zero (x : F64) : ∃ q, max (min x one) zero = fin q ∧ 0 ≤ q ∧ q ≤ 1 := by
  cases x with
  | nan => exact ⟨1, by simp [min, max, one, zero], zero_le_one, le_rfl⟩
  | inf s =>
    cases s
    · exact ⟨1, by simp [min, max, lt, one, zero], zero_le_one, le_rfl⟩
    · exact ⟨0, by simp [min, max, lt, one, zero], le_rfl, zero_le_one⟩
  | fin a =>
    refine ⟨Max.max (Min.min a 1) 0, by simp [one, zero], le_max_right _ _, ?_⟩
    exact max_le (min_le_right _ _) zero_le_one

end F64

end Fundex
