import Linkage.Proofs.Real
import Linkage.Value

/-!
# Numbers with infinities

A `Wide` number is a real number, an infinity or undefined. This is what settings can hold and what
lengths can come to where nothing is rounded: the special values follow the rules that floating
point numbers have for them, except that zero has no sign. So dividing by zero is undefined.
-/

namespace Linkage

inductive Wide where
  | real (x : ℝ)
  | infinite (negative : Bool)
  | undefined

namespace Wide

noncomputable section

def neg : Wide → Wide
  | real x => real (-x)
  | infinite s => infinite !s
  | undefined => undefined

def add : Wide → Wide → Wide
  | real x, real y => real (x + y)
  | real _, infinite s | infinite s, real _ => infinite s
  | infinite s, infinite t => if s = t then infinite s else undefined
  | _, _ => undefined

/-- An infinity takes the sign of what it is multiplied with. -/
def scale (s : Bool) (x : ℝ) : Wide :=
  if x = 0 then undefined else infinite (s != decide (x < 0))

def mul : Wide → Wide → Wide
  | real x, real y => real (x * y)
  | real x, infinite s | infinite s, real x => scale s x
  | infinite s, infinite t => infinite (s != t)
  | _, _ => undefined

def div : Wide → Wide → Wide
  | real x, real y => if y = 0 then undefined else real (x / y)
  | real _, infinite _ => real 0
  | infinite s, real x => scale s x
  | _, _ => undefined

/-- What is undefined is not in order with anything. -/
def Lt : Wide → Wide → Prop
  | real x, real y => x < y
  | real _, infinite s => s = false
  | infinite s, real _ => s = true
  | infinite s, infinite t => s = true ∧ t = false
  | _, _ => False

def Le : Wide → Wide → Prop
  | real x, real y => x ≤ y
  | real _, infinite s => s = false
  | infinite s, real _ => s = true
  | infinite s, infinite t => s = true ∨ t = false
  | _, _ => False

def sqrt : Wide → Wide
  | real x => if x < 0 then undefined else real √x
  | infinite s => if s then undefined else infinite false
  | undefined => undefined

def hypot : Wide → Wide → Wide
  | infinite _, _ | _, infinite _ => infinite false
  | real x, real y => real (Scalar.hypot x y)
  | _, _ => undefined

/-- A function that has no value at the infinities. -/
def lift (f : ℝ → ℝ) : Wide → Wide
  | real x => real (f x)
  | _ => undefined

def acos : Wide → Wide
  | real x => if -1 ≤ x ∧ x ≤ 1 then real (Real.arccos x) else undefined
  | _ => undefined

/-- The direction of what lies at infinity is along an axis or a diagonal. -/
def atan2 : Wide → Wide → Wide
  | real y, real x => real (Scalar.atan2 y x)
  | real y, infinite s =>
    if s then real (if y < 0 then -Real.pi else Real.pi) else real 0
  | infinite s, real _ => real (if s then -(Real.pi / 2.0) else Real.pi / 2.0)
  | infinite s, infinite t =>
    let a := if t then 3.0 * Real.pi / 4.0 else Real.pi / 4.0
    real (if s then -a else a)
  | _, _ => undefined

def ceil : Wide → Except Unbounded Int
  | real x => .ok ⌈x⌉
  | infinite _ => .error .infinite
  | undefined => .error .undefined

instance : Scalar Wide where
  add := add
  sub x y := add x (neg y)
  mul := mul
  div := div
  neg := neg
  lt := Lt
  le := Le
  ofScientific m s e := real (OfScientific.ofScientific m s e)
  decLt := Classical.decRel _
  decLe := Classical.decRel _
  sqrt := sqrt
  hypot := hypot
  sin := lift Real.sin
  cos := lift Real.cos
  acos := acos
  atan2 := atan2
  pi := real Real.pi
  ofInt n := real n
  ceil := ceil

end

/-! ### Real numbers among them -/

theorem zero_eq : (0.0 : Wide) = real 0 := by
  show real 0.0 = real 0
  rw [Scalar.zero_eq]

theorem one_eq : (1.0 : Wide) = real 1 := by
  show real 1.0 = real 1
  norm_num

@[simp] theorem real_le_real {x y : ℝ} : real x ≤ real y ↔ x ≤ y := Iff.rfl

@[simp] theorem real_lt_real {x y : ℝ} : real x < real y ↔ x < y := Iff.rfl

theorem real_le_zero {x : ℝ} : real x ≤ 0.0 ↔ x ≤ 0 := by rw [zero_eq, real_le_real]

theorem real_lt_zero {x : ℝ} : real x < 0.0 ↔ x < 0 := by rw [zero_eq, real_lt_real]

theorem real_lt_one {x : ℝ} : real x < 1.0 ↔ x < 1 := by rw [one_eq, real_lt_real]

theorem isZero_eq_true_iff {x : Wide} : Scalar.isZero x = true ↔ x = real 0 := by
  unfold Scalar.isZero Scalar.same
  rw [zero_eq, Bool.and_eq_true, decide_eq_true_iff, decide_eq_true_iff]
  cases x with
  | real x => rw [real_le_real, real_le_real, ← le_antisymm_iff, real.injEq]
  | infinite s => cases s <;> exact iff_of_false (by rintro ⟨h, h'⟩; cases h <;> cases h') nofun
  | undefined => exact iff_of_false And.left nofun

theorem isZero_eq_false {x : Wide} (h : x ≠ real 0) : Scalar.isZero x = false :=
  Bool.eq_false_iff.2 fun hz => h (isZero_eq_true_iff.1 hz)

theorem real_div_real {x y : ℝ} (hy : y ≠ 0) : real x / real y = real (x / y) := if_neg hy

end Wide

end Linkage
