import Linkage.Log.Files
import Mathlib.Data.List.Find
import Mathlib.Data.List.Infix

/-!
# What changes in a tree of files

A path that leads to a place goes on leading there as long as no directory goes (`walk_grown`), and
none does: making directories leaves every file alone (`widened_makeParent`), and a file is only
written to where there is no directory (`edit_of_leads`).
-/

namespace Linkage.Log.Files

variable {fs gs hs : Files} {p q : Place} {e : Entry} {path : String}

/-- The text at a place. -/
def file? (fs : Files) (p : Place) : Option String :=
  match fs.entry? p with
  | some (.file text) => some text
  | _ => none

theorem entry?_root : fs.entry? [] = some .directory := if_pos rfl

theorem file?_congr (h : gs.entry? q = fs.entry? p) : gs.file? q = fs.file? p := by
  unfold file?
  rw [h]

theorem ne_nil_of_not_directory (h : fs.entry? p ≠ some .directory) : p ≠ [] := by
  rintro rfl
  exact h entry?_root

theorem entry?_put (hp : p ≠ []) :
    Files.entry? (fs.put p e) q = if q = p then some e else fs.entry? q := by
  unfold entry? put
  by_cases hq : q = []
  · rw [if_pos hq, if_neg (fun h => hp (h.symm.trans hq)), if_pos hq]
  · rw [if_neg hq, List.find?_cons, List.find?_filter, if_neg hq]
    by_cases hqp : q = p
    · simp [hqp]
    · have hpq : (p == q) = false := beq_eq_false_iff_ne.2 fun h => hqp h.symm
      simp only [hpq, if_neg hqp]
      refine congrArg _ (List.find?_congr fun e _ => ?_)
      by_cases he : e.1 = q
      · simp [he, hqp]
      · simp [he]

/-! ### Directories stay -/

def Grown (fs gs : Files) : Prop :=
  ∀ p, fs.entry? p = some .directory → gs.entry? p = some .directory

theorem Grown.refl (fs : Files) : Grown fs fs := fun _ h => h

theorem Grown.trans (h : Grown fs gs) (h' : Grown gs hs) : Grown fs hs := fun p hp => h' p (h p hp)

theorem grown_put (h : fs.entry? p ≠ some .directory) : Grown fs (fs.put p e) := by
  intro q hq
  have hne : q ≠ p := fun e => h (e ▸ hq)
  rw [entry?_put (ne_nil_of_not_directory h), if_neg hne, hq]

theorem walk_grown (h : Grown fs gs) {names : List String} (hw : fs.walk p names = .ok q) :
    gs.walk p names = .ok q := by
  induction names generalizing p with
  | nil => exact hw
  | cons name names ih =>
    rw [walk] at hw ⊢
    cases he : fs.entry? p with
    | none => rw [he] at hw; cases hw
    | some e =>
      cases e with
      | file text => rw [he] at hw; cases hw
      | directory =>
        rw [he] at hw
        rw [h p he]
        simp only at hw ⊢
        split at hw
        · next h1 => rw [if_pos h1]; exact ih hw
        · next h1 =>
          rw [if_neg h1]
          split at hw
          · next h2 => rw [if_pos h2]; exact ih hw
          · next h2 => rw [if_neg h2]; exact ih hw

theorem locate_grown (h : Grown fs gs) (hl : fs.locate path = .ok p) : gs.locate path = .ok p :=
  walk_grown h hl

/-! ### Directories are made -/

/-- There may be more directories, and nothing else has changed. -/
structure Widened (fs gs : Files) : Prop where
  grown : Grown fs gs
  file? : ∀ p, gs.file? p = fs.file? p

theorem Widened.refl (fs : Files) : Widened fs fs := ⟨.refl fs, fun _ => rfl⟩

theorem Widened.trans (h : Widened fs gs) (h' : Widened gs hs) : Widened fs hs :=
  ⟨h.grown.trans h'.grown, fun p => (h'.file? p).trans (h.file? p)⟩

theorem widened_put (h : fs.entry? p = none) : Widened fs (fs.put p .directory) := by
  have hp : fs.entry? p ≠ some .directory := by
    rw [h]
    nofun
  refine ⟨grown_put hp, fun q => ?_⟩
  by_cases hq : q = p
  · unfold file?
    rw [entry?_put (ne_nil_of_not_directory hp), if_pos hq, hq, h]
  · exact file?_congr (by rw [entry?_put (ne_nil_of_not_directory hp), if_neg hq])

theorem widened_makeDir (h : fs.makeDir path = .ok gs) : Widened fs gs := by
  unfold makeDir at h
  cases hl : fs.locate path with
  | error e =>
    rw [hl] at h
    cases h
  | ok p =>
    rw [hl] at h
    cases he : fs.entry? p with
    | some e => simp [bind, Except.bind, he, throw, throwThe, MonadExceptOf.throw] at h
    | none =>
      simp [bind, Except.bind, he, pure, Except.pure] at h
      exact h ▸ widened_put he

theorem widened_makeDirs (fuel : Nat) (fs : Files) (dir : List Char) :
    Widened fs (makeDirs fuel fs dir).1 := by
  induction fuel generalizing fs dir with
  | zero => exact .refl fs
  | succ fuel ih =>
    rw [makeDirs]
    dsimp only
    generalize hr : (if (splitDir dir).1 ≠ [] ∧ (splitDir dir).2 ≠ [] ∧
      (!fs.exists? (String.ofList (splitDir dir).1)) = true then
        makeDirs fuel fs (splitDir dir).1 else (fs, .ok ())) = r
    have above : Widened fs r.1 := by
      rw [← hr]
      split
      · exact ih ..
      · exact .refl fs
    have own : ∀ gs, r.1.makeDir (String.ofList dir) = .ok gs → Widened fs gs := fun gs h =>
      above.trans (widened_makeDir h)
    repeat' split
    all_goals first
      | exact above
      | exact own _ ‹_›

theorem widened_makeParent (fs : Files) (path : String) : Widened fs (fs.makeParent path).1 := by
  unfold makeParent
  dsimp only
  split
  · exact .refl fs
  · exact widened_makeDirs ..

/-! ### Files are written to -/

/-- The path leads to a place where there may be a file. -/
structure Leads (fs : Files) (path : String) (p : Place) : Prop where
  locate : fs.locate path = .ok p
  bare : path.toList.getLast? ≠ some '/'
  free : fs.entry? p ≠ some .directory

/-- The directory of the place is there, as it is looked for by the path. -/
structure Ready (fs : Files) (path : String) (p : Place) : Prop extends Leads fs path p where
  parent : fs.exists? (String.ofList (split path.toList).1)

theorem Ready.makeParent (h : Ready fs path p) : fs.makeParent path = (fs, .ok ()) :=
  if_pos (.inr h.parent)

theorem Leads.grown (h : Leads fs path p) (hg : Grown fs gs) (hf : (gs.file? p).isSome) :
    Leads gs path p where
  locate := locate_grown hg h.locate
  bare := h.bare
  free he := by
    rw [file?, he] at hf
    cases hf

theorem file?_put {text : String} (h : fs.entry? p ≠ some .directory) :
    (fs.put p (.file text)).file? q = if q = p then some text else fs.file? q := by
  have hput : Files.entry? (fs.put p (.file text)) q =
      if q = p then some (.file text) else fs.entry? q := entry?_put (ne_nil_of_not_directory h)
  by_cases hq : q = p
  · rw [if_pos hq, file?, hput, if_pos hq]
  · rw [if_neg hq]
    exact file?_congr (by rw [hput, if_neg hq])

/-- Where there may be a file, there is one exactly if there is something. -/
theorem Leads.exists?_eq (h : Leads fs path p) : fs.exists? path = (fs.file? p).isSome := by
  unfold exists? file?
  rw [h.locate]
  dsimp only
  cases he : fs.entry? p with
  | none => rfl
  | some e =>
    cases e with
    | directory => exact absurd he h.free
    | file text => rfl

theorem dropWhile_slashes (h : path.toList.getLast? ≠ some '/') :
    path.toList.reverse.dropWhile (· == '/') = path.toList.reverse :=
  List.dropWhile_beq_eq_self_of_head?_ne (by rwa [List.head?_reverse])

theorem edit_of_leads (h : Leads fs path p) (f : String → String) :
    fs.edit path f = .ok (fs.put p (.file (f ((fs.file? p).getD "")))) := by
  have hlen : ¬ path.toList.reverse.length < path.length := by
    rw [List.length_reverse, String.length_toList]
    exact Nat.lt_irrefl _
  unfold edit
  rw [dropWhile_slashes h.bare]
  simp only [List.reverse_reverse, String.ofList_toList, h.locate, bind, Except.bind, if_neg hlen,
    file?]
  cases he : fs.entry? p with
  | none => rfl
  | some e =>
    cases e with
    | directory => exact absurd he h.free
    | file text => rfl

theorem bare_of_length_le
    (h : ¬ (path.toList.reverse.dropWhile (· == '/')).length < path.length) :
    path.toList.getLast? ≠ some '/' := by
  have hself : path.toList.reverse.dropWhile (· == '/') = path.toList.reverse := by
    refine (List.dropWhile_suffix _).eq_of_length_le ?_
    rw [List.length_reverse, String.length_toList]
    exact Nat.not_lt.1 h
  have hhead := List.head?_dropWhile_not (· == '/') path.toList.reverse
  rw [hself, List.head?_reverse] at hhead
  intro he
  rw [he] at hhead
  exact absurd hhead (by decide)

/-- Nothing else can be written to. -/
theorem exists_leads {f : String → String} (h : fs.edit path f = .ok gs) :
    ∃ p, Leads fs path p := by
  unfold edit at h
  simp only [bind, Except.bind] at h
  split at h
  · cases h
  · next p hl =>
    split at h
    · cases h
    · next hlen =>
      have hbare := bare_of_length_le hlen
      rw [dropWhile_slashes hbare, List.reverse_reverse, String.ofList_toList] at hl
      refine ⟨p, hl, hbare, fun he => ?_⟩
      rw [he] at h
      cases h

end Linkage.Log.Files
