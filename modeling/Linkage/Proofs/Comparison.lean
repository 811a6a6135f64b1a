import Linkage.Scalar.Binary

/-!
# Comparing binary64 numbers

Of two binary64 numbers that are numbers at all, either the first one is at most the second or the
second is below it (`not_le_iff`). A whole number stays a number when it is turned into a binary64
one (`isNaN_ofInt`).
-/

namespace Linkage.Binary64
open Float.Model UnpackedFloat

/-! ### Comparing -/

theorem compare_then_swap (m m' : Nat) (e e' : Int) :
    (compare e' e).then (compare m' m) = ((compare e e').then (compare m m')).swap := by
  rw [Ordering.swap_then, ← Std.OrientedCmp.eq_swap, ← Std.OrientedCmp.eq_swap]

theorem compare_swap (x y : UnpackedFloat) : y.compare x = (x.compare y).map Ordering.swap := by
  rcases x with ⟨_ | _⟩ | _ | ⟨_ | _⟩ | ⟨_ | _, m, e, h⟩ <;>
    rcases y with ⟨_ | _⟩ | _ | ⟨_ | _⟩ | ⟨_ | _, m', e', h'⟩ <;>
    first
      | rfl
      | exact congrArg some (compare_then_swap m m' e e')
      | exact congrArg (some ∘ Ordering.swap) (compare_then_swap m m' e e')

theorem compare_ne_none {x y : UnpackedFloat} (hx : x.isNaN = false) (hy : y.isNaN = false) :
    ∃ o, x.compare y = some o := by
  rcases x with ⟨_ | _⟩ | _ | ⟨_ | _⟩ | ⟨_ | _, m, e, h⟩ <;>
    rcases y with ⟨_ | _⟩ | _ | ⟨_ | _⟩ | ⟨_ | _, m', e', h'⟩ <;>
    first
      | exact ⟨_, rfl⟩
      | exact absurd hx (by decide)
      | exact absurd hy (by decide)

theorem le_iff (x y : Float) : x ≤ y ↔ x.toModel.unpack.le y.toModel.unpack = true := by
  show decide (x.toModel ≤ y.toModel) = true ↔ _
  rw [decide_eq_true_eq]
  exact Iff.rfl

theorem lt_iff (x y : Float) : x < y ↔ x.toModel.unpack.lt y.toModel.unpack = true := by
  show decide (x.toModel < y.toModel) = true ↔ _
  rw [decide_eq_true_eq]
  exact Iff.rfl

theorem not_le_iff {x y : Float} (hx : x.isNaN = false) (hy : y.isNaN = false) :
    ¬ x ≤ y ↔ y < x := by
  obtain ⟨o, ho⟩ := compare_ne_none hx hy
  rw [le_iff, lt_iff, UnpackedFloat.le, UnpackedFloat.lt, compare_swap x.toModel.unpack, ho]
  cases o <;> decide

theorem not_lt_iff {x y : Float} (hx : x.isNaN = false) (hy : y.isNaN = false) :
    ¬ x < y ↔ y ≤ x := by
  rw [← not_le_iff hy hx, Decidable.not_not]

/-! ### Whole numbers -/

theorem isNaN_ite {p : Prop} [Decidable p] {x y : UnpackedFloat} (hx : p → x.isNaN = false)
    (hy : ¬ p → y.isNaN = false) : (if p then x else y).isNaN = false :=
  iteInduction (motive := fun x => UnpackedFloat.isNaN x = false) hx hy

theorem isNaN_dite {p : Prop} [Decidable p] {x : p → UnpackedFloat} {y : ¬ p → UnpackedFloat}
    (hx : ∀ h, (x h).isNaN = false) (hy : ∀ h, (y h).isNaN = false) :
    (dite p x y).isNaN = false := by
  by_cases h : p
  · rw [dif_pos h]
    exact hx h
  · rw [dif_neg h]
    exact hy h

theorem isNaN_round (spec : Format) (s : Sign) (m : Nat) (e : Int) (a : Accuracy) :
    (roundWithAccuracy spec s m e a).isNaN = false :=
  isNaN_dite (fun _ => rfl) fun _ => rfl

theorem unpack_infinity (s : Sign) :
    (UnpackedFloat.unpack .binary64 (packedInfinity .binary64 s)).isNaN = false := by
  refine isNaN_ite (fun _ => ?_) fun he => absurd unpackExponent_packComponents he
  exact isNaN_ite (fun _ => rfl) fun hm => absurd unpackMantissa_packComponents hm

theorem isNaN_unpack_packComponents {s : Sign} {e : BitVec 11} {m : BitVec 52} (he : e ≠ -1#11) :
    (UnpackedFloat.unpack .binary64 (packComponents .binary64 s e m)).isNaN = false := by
  refine isNaN_ite (fun he' => ?_) fun _ => ?_
  · exact absurd (unpackExponent_packComponents.symm.trans he') he
  · exact isNaN_ite (fun _ => isNaN_dite (fun _ => rfl) fun _ => rfl) fun _ => rfl

/-- What can be compared can be compared after it is stored. -/
theorem isNaN_pack {u : UnpackedFloat} (h : u.isNaN = false) : (pack u).unpack.isNaN = false := by
  show (UnpackedFloat.unpack .binary64 (UnpackedFloat.pack .binary64 u)).isNaN = false
  cases u with
  | notANumber => cases h
  | infinity s => exact unpack_infinity s
  | zero s => exact isNaN_unpack_packComponents (by decide)
  | finite s m e hm =>
    let P (x : BitVec 64) : Prop := (UnpackedFloat.unpack .binary64 x).isNaN = false
    refine iteInduction (motive := P) (fun _ => unpack_infinity s) fun hlt => ?_
    refine iteInduction (motive := P) (fun _ => ?_) fun _ =>
      isNaN_unpack_packComponents (by decide)
    refine isNaN_unpack_packComponents fun he => ?_
    replace hlt : ¬ 2 ^ 11 ≤ (e + 1023 + 52).toNat + 1 := hlt
    replace he : BitVec.ofNat 11 (e + 1023 + 52).toNat = -1#11 := he
    have := congrArg BitVec.toNat he
    simp at this
    omega

/-- Neither zero nor infinite. -/
def isProper : UnpackedFloat → Bool
  | .finite .. => true
  | _ => false

theorem isNaN_mul {x y : UnpackedFloat} (hx : x.isNaN = false) (hy : isProper y) :
    (UnpackedFloat.mul .binary64 x y).isNaN = false := by
  cases y with
  | finite s m e h =>
    cases x with
    | notANumber => cases hx
    | infinity _ | zero _ => rfl
    | finite _ _ _ _ => exact isNaN_round ..
  | notANumber | infinity _ | zero _ => cases hy

theorem isNaN_neg {x : UnpackedFloat} (hx : x.isNaN = false) : x.neg.isNaN = false := by
  cases x with
  | notANumber => cases hx
  | infinity _ | zero _ | finite _ _ _ _ => rfl

theorem isNaN_normalize (n : Int) (e : Int) (s : Sign) :
    (UnpackedFloat.normalize .binary64 n e s).isNaN = false := by
  unfold UnpackedFloat.normalize
  split
  · exact isNaN_round ..
  · rfl
  · exact isNaN_round ..

theorem isNaN_ofScientific (m : Nat) {e : Int} (he : 0 ≤ e) :
    (UnpackedFloat.ofScientific .binary64 m e).isNaN = false := by
  refine isNaN_dite (fun _ => rfl) fun _ => isNaN_ite (fun _ => rfl) fun _ => ?_
  refine isNaN_ite (fun _ => rfl) fun _ => ?_
  exact isNaN_ite (fun _ => isNaN_mul rfl rfl) fun hneg => absurd he hneg

theorem isNaN_ofNat (n : Nat) : (Float.ofNat n).isNaN = false := by
  have hone : isProper (Float.ofBits 0x3FF0000000000000).toModel.unpack := by decide
  show (Float.ofScientific n false 0).isNaN = false
  unfold Float.ofScientific
  split
  · exact isNaN_pack (isNaN_mul (isNaN_pack (isNaN_normalize ..)) hone)
  · exact isNaN_pack (isNaN_ofScientific n (Int.le_refl 0))

theorem isNaN_ofInt (n : Int) : (Float.ofInt n).isNaN = false := by
  cases n with
  | ofNat n => exact isNaN_ofNat n
  | negSucc n => exact isNaN_pack (isNaN_neg (isNaN_ofNat _))

end Linkage.Binary64
