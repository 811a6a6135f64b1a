import Linkage.Proofs.Plane

/-!
# Rigid motions of the plane

A rigid motion turns the plane about the origin and then shifts it. Points are moved, and vectors
are turned. Lengths and distances stay as they are, and whatever is found by them in the plane is
found in the place it is moved to: the direction between two points (`ofAngle_angle_move`), the
vector of length one along another one, the nearest point of a line, the seat on a rail.
-/

namespace Linkage

open Scalar Point

/-- A rotation, by its cosine and its sine, and a translation after it. -/
structure Rigid where
  cos : ℝ
  sin : ℝ
  cos_sq_add_sin_sq : cos ^ 2 + sin ^ 2 = 1
  shift : Point ℝ

namespace Rigid

variable (T : Rigid) (a b p v w : Point ℝ) (k : ℝ)

noncomputable def turn : Point ℝ →ₗ[ℝ] Point ℝ where
  toFun v := ⟨T.cos * v.x - T.sin * v.y, T.sin * v.x + T.cos * v.y⟩
  map_add' v w := by
    rw [ext_iff]
    constructor <;> simp <;> ring
  map_smul' k v := by
    simp only [smul_def, ext_iff]
    constructor <;> simp <;> ring

noncomputable def move (p : Point ℝ) : Point ℝ := T.turn p + T.shift

/-! ### Vectors -/

@[simp] theorem turn_x : (T.turn v).x = T.cos * v.x - T.sin * v.y := rfl

@[simp] theorem turn_y : (T.turn v).y = T.sin * v.x + T.cos * v.y := rfl

@[simp] theorem turn_zero : T.turn zero = zero := map_zero T.turn

theorem turn_mul : T.turn (k * v) = k * T.turn v := map_smul T.turn k v

theorem turn_div : T.turn (v / k) = T.turn v / k := by
  rw [div_eq_inv_mul, div_eq_inv_mul, turn_mul]

theorem turn_perp : T.turn v.perp = (T.turn v).perp := by
  rw [ext_iff]
  constructor <;> simp [perp] <;> ring

@[simp] theorem dot_turn : dot (T.turn v) (T.turn w) = dot v w := by
  unfold dot
  simp only [turn_x, turn_y]
  linear_combination (v.x * w.x + v.y * w.y) * T.cos_sq_add_sin_sq

@[simp] theorem length_turn : (T.turn v).length = v.length := by
  show √((T.turn v).x ^ 2 + (T.turn v).y ^ 2) = √(v.x ^ 2 + v.y ^ 2)
  congr 1
  simp only [turn_x, turn_y]
  linear_combination (v.x ^ 2 + v.y ^ 2) * T.cos_sq_add_sin_sq

theorem unit_turn : (T.turn v).unit = T.turn v.unit := by
  unfold unit
  rw [length_turn]
  split
  · rw [turn_zero]
  · rw [turn_div]

/-! ### Points -/

theorem move_sub_move : T.move b - T.move a = T.turn (b - a) := by
  rw [map_sub]
  exact add_sub_add_right_eq_sub ..

theorem move_add_turn : T.move (p + v) = T.move p + T.turn v := by
  unfold move
  rw [map_add, add_right_comm]

@[simp] theorem distance_move : distance (T.move a) (T.move b) = distance a b :=
  (congrArg length (T.move_sub_move a b)).trans (T.length_turn (b - a))

theorem ofAngle_angle_move {a b : Point ℝ} (h : tiny ≤ distance a b) :
    ofAngle (angle (T.move a) (T.move b)) = T.turn (ofAngle (angle a b)) := by
  rw [ofAngle_angle h, ofAngle_angle (by rwa [distance_move]), distance_move, move_sub_move,
    turn_div]

@[simp] theorem along_move : along (T.move p) (T.move a) (T.move b) = along p a b := by
  simp only [along, move_sub_move, length_turn, dot_turn]

theorem project_move (clamped : Bool) :
    project (T.move p) (T.move a) (T.move b) clamped = T.move (project p a b clamped) := by
  simp only [project, move_sub_move, length_turn, dot_turn]
  split
  · rfl
  · rw [move_add_turn, turn_mul, turn_div]

theorem seat_move (ends : Bool) :
    Rail.seat (T.move p) (T.move a) (T.move b) ends =
      (T.move (Rail.seat p a b ends).1, (Rail.seat p a b ends).2) := by
  unfold Rail.seat
  simp only [project_move, distance_move]
  split <;> rfl

end Rigid

end Linkage
