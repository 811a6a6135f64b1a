import Linkage.Log.Journal
import Linkage.Proofs.Log.Files

/-!
# What stands in a log

A run of a journal opens files, flushes them and enters messages. `history` notes which of this was
done at which place; read from the beginning, it tells what stands on the `Sheet` of a place: a
header and the messages that were entered since. Every file that was ever opened holds its sheet,
and no other file changes (`files_after_run`).
-/

namespace Linkage.Log

open Files

/-! ### Sheets -/

inductive Deed where
  | opened (time : String)
  | flushed (time : String)
  | entered (time : String) (priority : Priority) (message : String)

/-- One header, and the messages that were entered below it. -/
structure Sheet where
  header : String
  entries : List (String × Priority × String) := []

namespace Sheet

def text (s : Sheet) : String :=
  s.header ++ String.join (s.entries.map fun (time, priority, message) =>
    Journal.entryLine time priority message)

/-- What stands on a sheet after a deed. Nothing does before it is opened; a file that is new when
it is opened has a header of its own. -/
def next (existed : Bool) : Option Sheet → Deed → Option Sheet
  | none, .opened time =>
    some { header := if existed then Journal.flushedLine time else Journal.openedLine time }
  | some _, .opened time => some { header := Journal.flushedLine time }
  | some _, .flushed time => some { header := Journal.flushedLine time }
  | some s, .entered time priority message =>
    some { s with entries := s.entries ++ [(time, priority, message)] }
  | none, _ => none

def read (existed : Bool) (deeds : List Deed) : Option Sheet := deeds.foldl (next existed) none

theorem text_header (header : String) : text { header := header } = header := by
  simp [text]

theorem text_entered (s : Sheet) (time : String) (priority : Priority) (message : String) :
    text { s with entries := s.entries ++ [(time, priority, message)] } =
      s.text ++ Journal.entryLine time priority message := by
  simp [text, String.join_append, String.append_assoc]

end Sheet

namespace Journal

variable {j k : Journal} {p q : Place}

/-! ### Runs -/

inductive Op where
  /-- Takes a file into use unless a sink is in use. -/
  | ensure (path : String)
  | use (path : String)
  | useBase
  | reset
  | log (priority : Priority) (message : String)
  | flush
  /-- Time goes on. -/
  | clock (time : String)

namespace Op

def act : Op → Journal → Journal × Except Fault Unit
  | ensure path, j => j.ensureFile path
  | use path, j => j.useFile path
  | useBase, j => (j.useBase, .ok ())
  | reset, j => (j.reset, .ok ())
  | log priority message, j => j.log priority message
  | flush, j => j.flush
  | clock time, j => ({ j with time := time }, .ok ())

def step (o : Op) (j : Journal) : Journal := (o.act j).1

/-- What an operation does at the place that the sink leads to then. A file that could not be opened
has not been. -/
def deeds (o : Op) (j : Journal) : List Deed :=
  match o with
  | ensure path =>
    if j.sink = none ∧ (j.ensureFile path).2.isOk then
      [.opened j.time, .entered j.time .info (initialMessage path)]
    else []
  | use path => if (j.useFile path).2.isOk then [.opened j.time] else []
  | log priority message => [.entered j.time priority message]
  | flush => [.flushed j.time]
  | useBase | reset | clock _ => []

end Op

def after (ops : List Op) (j : Journal) : Journal := ops.foldl (fun j o => o.step j) j

/-- Where the messages go. -/
def place? (j : Journal) : Option Place :=
  match j.sink with
  | some (.file path) => (j.files.locate path).toOption
  | _ => none

def noted (o : Op) (j : Journal) : List (Place × Deed) :=
  match (o.step j).place? with
  | some p => (o.deeds j).map (p, ·)
  | none => []

def history : List Op → Journal → List (Place × Deed)
  | [], _ => []
  | o :: ops, j => noted o j ++ history ops (o.step j)

def deedsAt (p : Place) (ds : List (Place × Deed)) : List Deed :=
  ds.filterMap fun d => if d.1 = p then some d.2 else none

/-- What stands at a place after these deeds, where there may have been a file before. -/
def sheet (fs : Files) (ds : List (Place × Deed)) (p : Place) : Option Sheet :=
  Sheet.read (fs.file? p).isSome (deedsAt p ds)

variable {fs : Files} {ds : List (Place × Deed)} {deeds : List Deed} {s : Sheet} {path : String}

theorem sheet_append_self : sheet fs (ds ++ deeds.map (p, ·)) p =
    deeds.foldl (Sheet.next (fs.file? p).isSome) (sheet fs ds p) := by
  have hmap : deedsAt p (deeds.map (p, ·)) = deeds := by
    simp [deedsAt, List.filterMap_map]
  rw [sheet, deedsAt, List.filterMap_append, Sheet.read, List.foldl_append]
  exact congrArg _ hmap

theorem sheet_append_ne (h : q ≠ p) : sheet fs (ds ++ deeds.map (p, ·)) q = sheet fs ds q := by
  have hmap : deedsAt q (deeds.map (p, ·)) = [] := by
    simp [deedsAt, List.filterMap_map, h.symm]
  rw [sheet, deedsAt, List.filterMap_append]
  show Sheet.read _ (_ ++ deedsAt q _) = _
  rw [hmap, List.append_nil]
  rfl

/-- Every place that a file was opened at holds its sheet, and others hold what they held before.
The sink leads to such a place. -/
structure Kept (fs : Files) (ds : List (Place × Deed)) (j : Journal) : Prop where
  file? : ∀ p, j.files.file? p = ((sheet fs ds p).map Sheet.text).or (fs.file? p)
  sink : ∀ path, j.sink = some (.file path) →
    ∃ p, Leads j.files path p ∧ (sheet fs ds p).isSome

namespace Kept

theorem isSome_file? (h : Kept fs ds j) (hs : (sheet fs ds p).isSome) :
    (j.files.file? p).isSome := by
  obtain ⟨s, hs⟩ := Option.isSome_iff_exists.1 hs
  rw [h.file?, hs]
  rfl

theorem widened (h : Kept fs ds j) (hw : Widened j.files k.files) (hs : k.sink = j.sink) :
    Kept fs ds k where
  file? p := (hw.file? p).trans (h.file? p)
  sink path hp := by
    obtain ⟨p, hl, hsheet⟩ := h.sink path (hs ▸ hp)
    refine ⟨p, hl.grown hw.grown ?_, hsheet⟩
    rw [hw.file?]
    exact h.isSome_file? hsheet

/-- What a sheet says is put where a path leads to. -/
theorem put (h : Kept fs ds j) (deeds : List Deed) (hl : Leads j.files path p)
    (hs : deeds.foldl (Sheet.next (fs.file? p).isSome) (sheet fs ds p) = some s)
    (hk : k.files = j.files.put p (.file s.text))
    (hsink : k.sink = j.sink ∨ k.sink = some (.file path)) :
    Kept fs (ds ++ deeds.map (p, ·)) k ∧ Leads k.files path p := by
  have hself : sheet fs (ds ++ deeds.map (p, ·)) p = some s := sheet_append_self.trans hs
  have hfile : ∀ q, k.files.file? q = if q = p then some s.text else j.files.file? q := fun q => by
    rw [hk, file?_put hl.free]
  have hgrown : Grown j.files k.files := hk ▸ grown_put hl.free
  have hlead : Leads k.files path p := hl.grown hgrown (by rw [hfile, if_pos rfl]; rfl)
  refine ⟨⟨fun q => ?_, fun path' hpath => ?_⟩, hlead⟩
  · rw [hfile]
    split
    · next hq => rw [hq, hself]; rfl
    · next hq => rw [sheet_append_ne hq, h.file?]
  · obtain hsink | hsink := hsink
    · obtain ⟨q, hq, hsheet⟩ := h.sink path' (hsink ▸ hpath)
      by_cases he : q = p
      · subst he
        exact ⟨q, hq.grown hgrown (by rw [hfile, if_pos rfl]; rfl), by rw [hself]; rfl⟩
      · refine ⟨q, hq.grown hgrown ?_, by rwa [sheet_append_ne he]⟩
        rw [hfile, if_neg he]
        exact h.isSome_file? hsheet
    · cases Sink.file.inj (Option.some.inj (hsink.symm.trans hpath))
      exact ⟨p, hlead, by rw [hself]; rfl⟩

theorem next_opened (h : Kept fs ds j) (p : Place) (time : String) :
    Sheet.next (fs.file? p).isSome (sheet fs ds p) (.opened time) = some
      { header := if (j.files.file? p).isSome then flushedLine time else openedLine time } := by
  cases hs : sheet fs ds p with
  | none => rw [h.file?, hs]; rfl
  | some s => rw [if_pos (h.isSome_file? (by rw [hs]; rfl))]; rfl

end Kept

/-! ### What a single operation does -/

theorem place?_of_leads (hs : j.sink = some (.file path)) (hl : Leads j.files path p) :
    j.place? = some p := by
  rw [place?, hs]
  simp only [hl.locate]
  rfl

theorem editing_of_leads (hl : Leads j.files path p) (f : String → String) :
    j.editing (j.files.edit path f) =
      ({ j with files := j.files.put p (.file (f ((j.files.file? p).getD ""))) }, .ok ()) := by
  rw [edit_of_leads hl]
  rfl

/-- A text that cannot be written changes nothing. -/
theorem editing_cases (j : Journal) (path : String) (f : String → String) :
    (∃ e, j.editing (j.files.edit path f) = (j, .error e)) ∨ ∃ p, Leads j.files path p := by
  cases hw : j.files.edit path f with
  | error e => exact .inl ⟨e, rfl⟩
  | ok fs => exact .inr (exists_leads hw)

theorem startFile_eq (j : Journal) (path : String) :
    j.startFile path = j.editing (j.files.write path
      (if j.files.exists? path then flushedLine j.time else openedLine j.time)) := by
  unfold startFile flushFile
  split <;> rfl

theorem Kept.useFile (h : Kept fs ds j) (path : String) :
    (∀ e, (j.useFile path).2 = .error e → Kept fs ds (j.useFile path).1) ∧
      ((j.useFile path).2 = .ok () → ∃ p,
        Kept fs (ds ++ [(p, .opened j.time)]) (j.useFile path).1 ∧
        (j.useFile path).1.sink = some (.file (j.absolute path)) ∧
        (j.useFile path).1.place? = some p ∧ (j.useFile path).1.time = j.time) := by
  have hwide := widened_makeParent j.files (j.absolute path)
  unfold Journal.useFile
  dsimp only
  split
  · next gs e hp =>
    rw [hp] at hwide
    exact ⟨fun _ _ => h.widened hwide rfl, nofun⟩
  · next gs hp =>
    rw [hp] at hwide
    have hg : Kept fs ds { j with files := gs } := h.widened hwide rfl
    rw [startFile_eq]
    obtain ⟨e, he⟩ | ⟨p, hl⟩ := editing_cases { j with files := gs } (j.absolute path) fun _ =>
      (if gs.exists? (j.absolute path) then flushedLine j.time else openedLine j.time)
    · rw [Files.write, he]
      exact ⟨fun _ _ => hg, nofun⟩
    · rw [Files.write, editing_of_leads hl]
      rw [hl.exists?_eq]
      let header := if (gs.file? p).isSome then flushedLine j.time else openedLine j.time
      let k : Journal :=
        { j with files := gs.put p (.file header), sink := some (.file (j.absolute path)) }
      obtain ⟨hk, hl'⟩ := hg.put (k := k) [.opened j.time] hl (hg.next_opened p j.time)
        (by rw [Sheet.text_header]) (.inr rfl)
      exact ⟨nofun, fun _ => ⟨p, hk, rfl, place?_of_leads rfl hl', rfl⟩⟩

/-- Where a file is in use, it can be written to; what is done is a deed if the sheet shows it. -/
theorem Kept.edit (h : Kept fs ds j) (hs : j.sink = some (.file path)) {d : Deed}
    {f : String → String}
    (hd : ∀ existed s, ∃ s', Sheet.next existed (some s) d = some s' ∧ s'.text = f s.text) :
    (j.editing (j.files.edit path f)).2 = .ok () ∧ ∃ p, j.place? = some p ∧
      (j.editing (j.files.edit path f)).1.place? = some p ∧
      Kept fs (ds ++ [(p, d)]) (j.editing (j.files.edit path f)).1 := by
  obtain ⟨p, hl, hsheet⟩ := h.sink path hs
  obtain ⟨s, hsheet⟩ := Option.isSome_iff_exists.1 hsheet
  obtain ⟨s', hnext, htext⟩ := hd (fs.file? p).isSome s
  have hfile : j.files.file? p = some s.text := by
    rw [h.file?, hsheet]
    rfl
  rw [editing_of_leads hl, hfile, Option.getD_some, ← htext]
  let k : Journal := { j with files := j.files.put p (.file s'.text) }
  obtain ⟨hk, hl'⟩ := h.put (k := k) [d] hl (by rw [hsheet]; exact hnext) rfl (.inl rfl)
  exact ⟨rfl, p, place?_of_leads hs hl, place?_of_leads hs hl', hk⟩

theorem Kept.log (h : Kept fs ds j) (hs : j.sink = some (.file path)) (priority : Priority)
    (message : String) :
    (j.log priority message).2 = .ok () ∧ ∃ p, j.place? = some p ∧
      (j.log priority message).1.place? = some p ∧
      Kept fs (ds ++ [(p, .entered j.time priority message)]) (j.log priority message).1 := by
  rw [show j.log priority message = j.editing (j.files.append path
    (entryLine j.time priority message)) by rw [Journal.log, hs]]
  exact h.edit hs fun _ s => ⟨_, rfl, s.text_entered ..⟩

theorem Kept.flush (h : Kept fs ds j) (hs : j.sink = some (.file path)) :
    j.flush.2 = .ok () ∧ ∃ p, j.place? = some p ∧ j.flush.1.place? = some p ∧
      Kept fs (ds ++ [(p, .flushed j.time)]) j.flush.1 := by
  rw [show j.flush = j.editing (j.files.write path (flushedLine j.time)) by
    rw [Journal.flush, hs]; rfl]
  exact h.edit hs fun _ _ => ⟨_, rfl, Sheet.text_header _⟩

theorem noted_of_place? {o : Op} (h : (o.step j).place? = some p) :
    noted o j = (o.deeds j).map (p, ·) := by
  rw [noted, h]

theorem noted_of_deeds {o : Op} (h : o.deeds j = []) : noted o j = [] := by
  unfold noted
  rw [h]
  split <;> rfl

theorem noted_of_no_place {o : Op} (h : (o.step j).place? = none) : noted o j = [] := by
  rw [noted, h]

/-- Where no file is in use, messages and flushes go nowhere. -/
theorem unused (h : ∀ path, j.sink ≠ some (.file path)) (priority : Priority) (message : String) :
    j.place? = none ∧ (j.log priority message).1 = j ∧ j.flush.1 = j := by
  unfold place? Journal.log Journal.flush
  cases hs : j.sink with
  | none => exact ⟨rfl, rfl, rfl⟩
  | some s =>
    cases s with
    | base => exact ⟨rfl, rfl, rfl⟩
    | file path => exact absurd hs (h path)

/-- A file that is taken into use without being asked for has a first entry. -/
theorem Kept.ensureFile (h : Kept fs ds j) (hs : j.sink = none) (path : String) :
    (∀ e, (j.ensureFile path).2 = .error e → Kept fs ds (j.ensureFile path).1) ∧
      ((j.ensureFile path).2 = .ok () → ∃ p,
        Kept fs (ds ++ [(p, .opened j.time), (p, .entered j.time .info (initialMessage path))])
          (j.ensureFile path).1 ∧
        (j.ensureFile path).1.place? = some p) := by
  obtain ⟨herr, hok⟩ := h.useFile path
  unfold Journal.ensureFile
  rw [hs]
  dsimp only
  cases hu : j.useFile path with
  | mk k r =>
    rw [hu] at herr hok
    cases r with
    | error e => exact ⟨fun _ _ => herr e rfl, nofun⟩
    | ok u =>
      obtain ⟨p, hkept, hsink, hplace, htime⟩ := hok rfl
      obtain ⟨hlog, p', hp, hp', hkept'⟩ := hkept.log hsink .info (initialMessage path)
      cases hplace.symm.trans hp
      rw [htime, List.append_assoc] at hkept'
      refine ⟨fun e he => ?_, fun _ => ⟨p, hkept', hp'⟩⟩
      cases hlog.symm.trans he

theorem noted_nil {o : Op} (hd : o.deeds j = []) (h : Kept fs ds (o.step j)) :
    Kept fs (ds ++ noted o j) (o.step j) := by
  rwa [noted_of_deeds hd, List.append_nil]

/-- What an operation does is what is noted of it. -/
theorem Kept.step (h : Kept fs ds j) (o : Op) : Kept fs (ds ++ noted o j) (o.step j) := by
  cases o with
  | ensure path =>
    have hstep : Op.step (.ensure path) j = (j.ensureFile path).1 := by rw [Op.step, Op.act]
    by_cases hs : j.sink = none
    · obtain ⟨herr, hok⟩ := h.ensureFile hs path
      cases ho : (j.ensureFile path).2 with
      | error e =>
        refine noted_nil (by simp [Op.deeds, ho, Except.isOk, Except.toBool]) ?_
        rw [hstep]
        exact herr e ho
      | ok u =>
        obtain ⟨p, hk, hp⟩ := hok ho
        rw [← hstep] at hk hp
        rw [noted_of_place? hp]
        simpa [Op.deeds, ho, hs, Except.isOk, Except.toBool] using hk
    · refine noted_nil (by simp [Op.deeds, hs]) ?_
      obtain ⟨s, hsome⟩ := Option.ne_none_iff_exists'.1 hs
      rw [hstep, Journal.ensureFile, hsome]
      exact h
  | use path =>
    have hstep : Op.step (.use path) j = (j.useFile path).1 := by rw [Op.step, Op.act]
    obtain ⟨herr, hok⟩ := h.useFile path
    cases ho : (j.useFile path).2 with
    | error e =>
      refine noted_nil (by simp [Op.deeds, ho, Except.isOk, Except.toBool]) ?_
      rw [hstep]
      exact herr e ho
    | ok u =>
      obtain ⟨p, hk, -, hp, -⟩ := hok ho
      rw [← hstep] at hk hp
      rw [noted_of_place? hp]
      simpa [Op.deeds, ho, Except.isOk, Except.toBool] using hk
  | useBase => exact noted_nil rfl ⟨h.file?, nofun⟩
  | reset => exact noted_nil rfl ⟨h.file?, nofun⟩
  | log priority message =>
    have hstep : Op.step (.log priority message) j = (j.log priority message).1 := by
      rw [Op.step, Op.act]
    by_cases hfile : ∃ path, j.sink = some (.file path)
    · obtain ⟨path, hs⟩ := hfile
      obtain ⟨-, p, -, hp, hk⟩ := h.log hs priority message
      rw [← hstep] at hp hk
      rw [noted_of_place? hp]
      exact hk
    · obtain ⟨hp, hlog, -⟩ := unused (not_exists.1 hfile) priority message
      rw [hlog] at hstep
      rw [noted_of_no_place (by rwa [hstep]), List.append_nil, hstep]
      exact h
  | flush =>
    have hstep : Op.step .flush j = j.flush.1 := by rw [Op.step, Op.act]
    by_cases hfile : ∃ path, j.sink = some (.file path)
    · obtain ⟨path, hs⟩ := hfile
      obtain ⟨-, p, -, hp, hk⟩ := h.flush hs
      rw [← hstep] at hp hk
      rw [noted_of_place? hp]
      exact hk
    · obtain ⟨hp, -, hflush⟩ := unused (not_exists.1 hfile) .info ""
      rw [hflush] at hstep
      rw [noted_of_no_place (by rwa [hstep]), List.append_nil, hstep]
      exact h
  | clock time => exact noted_nil rfl ⟨h.file?, h.sink⟩

theorem Kept.after (h : Kept fs ds j) (ops : List Op) :
    Kept fs (ds ++ history ops j) (after ops j) := by
  induction ops generalizing ds j with
  | nil => rwa [history, List.append_nil]
  | cons o ops ih =>
    rw [history, ← List.append_assoc]
    exact ih (h.step o)

end Journal

end Linkage.Log
