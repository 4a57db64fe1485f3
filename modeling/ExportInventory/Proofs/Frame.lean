import ExportInventory.Command.Basic
import ExportInventory.Proofs.Disk

/-!
What a scan leaves alone. Directories are made where nothing stands, and files are written under
names that no source file has, so that a source file can be lost in one way only: by lying in the
output directory when that is emptied.
-/
namespace ExportInventory

namespace Action

variable {α β : Type}

/-- What an action gives, and the file system it leaves. -/
def outcome (a : Action α) (d : Disk) : Except Failure α × Disk := a.run.run d

theorem outcome_pure (x : α) (d : Disk) : (pure x : Action α).outcome d = (.ok x, d) := rfl

theorem outcome_get (d : Disk) : (get : Action Disk).outcome d = (.ok d, d) := rfl

theorem outcome_set (d' d : Disk) : (set d' : Action PUnit).outcome d = (.ok ⟨⟩, d') := rfl

theorem outcome_bind (a : Action α) (f : α → Action β) (d : Disk) :
    (a >>= f).outcome d =
      match a.outcome d with
      | (.ok x, d') => (f x).outcome d'
      | (.error e, d') => (.error e, d') := by
  unfold outcome
  rw [ExceptT.run_bind, StateT.run_bind]
  change (match a.run.run d with | (r, d') => _) = _
  obtain ⟨_ | _, d'⟩ := a.run.run d <;> rfl

theorem outcome_bind_eq_ok {a : Action α} {f : α → Action β} {d d'' : Disk} {y : β} :
    (a >>= f).outcome d = (.ok y, d'') ↔
      ∃ x d', a.outcome d = (.ok x, d') ∧ (f x).outcome d' = (.ok y, d'') := by
  rw [outcome_bind]
  obtain ⟨_ | x, d'⟩ := a.outcome d <;> simp

theorem outcome_get_bind (f : Disk → Action α) (d : Disk) :
    (get >>= f).outcome d = (f d).outcome d := by
  rw [outcome_bind, outcome_get]

theorem outcome_tryCatch (a : Action α) (f : Failure → Action α) (d : Disk) :
    (tryCatch a f).outcome d =
      match a.outcome d with
      | (.ok x, d') => (.ok x, d')
      | (.error e, d') => (f e).outcome d' := by
  unfold outcome
  rw [ExceptT.run_tryCatch, StateT.run_bind]
  obtain ⟨_ | _, d'⟩ := a.run.run d <;> rfl

theorem outcome_look (f : Disk → Except Failure α) (d : Disk) : (look f).outcome d = (f d, d) := by
  unfold look
  rw [outcome_get_bind]
  cases f d <;> rfl

theorem outcome_change (f : Disk → Except Failure Disk) (d : Disk) :
    (change f).outcome d =
      match f d with
      | .ok d' => (.ok (), d')
      | .error e => (.error e, d) := by
  unfold change
  rw [outcome_get_bind]
  cases f d <;> rfl

theorem outcome_check (f : Disk → Option Failure) (d : Disk) :
    (check f).outcome d =
      match f d with
      | some e => (.error e, d)
      | none => (.ok (), d) := by
  unfold check
  rw [outcome_get_bind]
  cases f d <;> rfl

theorem outcome_ensureDirectory (path : String) (d : Disk) :
    (ensureDirectory path).outcome d =
      match d.makeDirectory path with
      | .ok d' => (.ok (), d')
      | .error e => if e.ofFileSystem && d.isDirectory path then (.ok (), d) else (.error e, d) := by
  unfold ensureDirectory
  rw [outcome_get_bind]
  cases d.makeDirectory path with
  | ok d' => rfl
  | error e =>
    dsimp only
    split <;> rfl

theorem outcome_makeDirectories (path : String) (d : Disk) :
    (makeDirectories path).outcome d =
      (makeDirectoriesWithin d.system.nesting path).outcome d := by
  unfold makeDirectories
  rw [outcome_get_bind]

/-- Whatever the action gives, the property holds after it if it did before. -/
def Keeps (P : Disk → Prop) (a : Action α) : Prop := ∀ d, P d → P (a.outcome d).2

namespace Keeps

variable {P : Disk → Prop}

theorem pure (x : α) : Keeps P (Pure.pure x : Action α) := fun _ holds => holds

theorem throw (e : Failure) : Keeps P (MonadExcept.throw e : Action α) := fun _ holds => holds

theorem look (f : Disk → Except Failure α) : Keeps P (Action.look f) := by
  intro d holds
  rw [outcome_look]
  exact holds

theorem after {a : Action α} {f : α → Action β} {d : Disk} (between : P (a.outcome d).2)
    (next : ∀ x, Keeps P (f x)) : P ((a >>= f).outcome d).2 := by
  rw [outcome_bind]
  split
  · rename_i x d' given
    rw [given] at between
    exact next x d' between
  · rename_i e d' given
    rw [given] at between
    exact between

theorem bind {a : Action α} {f : α → Action β} (first : Keeps P a) (next : ∀ x, Keeps P (f x)) :
    Keeps P (a >>= f) :=
  fun d holds => after (first d holds) next

theorem tryCatch {a : Action α} {f : Failure → Action α} (first : Keeps P a)
    (rescue : ∀ e, Keeps P (f e)) : Keeps P (MonadExcept.tryCatch a f) := by
  intro d holds
  have between := first d holds
  rw [outcome_tryCatch]
  split
  · rename_i x d' given
    rw [given] at between
    exact between
  · rename_i e d' given
    rw [given] at between
    exact rescue e d' between

theorem get_bind {f : Disk → Action α} (next : ∀ d, P d → Keeps P (f d)) :
    Keeps P (get >>= f) := by
  intro d holds
  rw [outcome_get_bind]
  exact next d holds d holds

private theorem look_bind {f : Disk → Except Failure α} {g : α → Action β}
    (next : ∀ d x, P d → f d = .ok x → Keeps P (g x)) : Keeps P (Action.look f >>= g) := by
  intro d holds
  rw [outcome_bind, outcome_look]
  cases given : f d with
  | ok x => exact next d x holds given d holds
  | error e => exact holds

theorem change {f : Disk → Except Failure Disk} (step : ∀ d d', P d → f d = .ok d' → P d') :
    Keeps P (Action.change f) := by
  intro d holds
  rw [outcome_change]
  cases done : f d with
  | ok d' => exact step d d' holds done
  | error e => exact holds

theorem check (f : Disk → Option Failure) : Keeps P (Action.check f) := by
  intro d holds
  rw [outcome_check]
  split <;> exact holds

theorem write {path : String} {content : Bytes}
    (written : ∀ d d' bytes, P d → d.write path bytes = .ok d' → P d') :
    Keeps P (Action.write path content) := by
  unfold Action.write
  apply get_bind
  intro d _
  split
  · exact change fun d d' holds done => written d d' _ holds done
  · exact bind (change fun d d' holds done => written d d' _ holds done) fun _ => throw _

section Directories

variable (made : ∀ d d' path, P d → d.makeDirectory path = .ok d' → P d')
include made

theorem ensureDirectory (path : String) : Keeps P (Action.ensureDirectory path) := by
  intro d holds
  rw [outcome_ensureDirectory]
  cases done : d.makeDirectory path with
  | ok d' => exact made d d' path holds done
  | error e =>
    dsimp only
    split <;> exact holds

theorem makeDirectoriesWithin (fuel : Nat) (path : String) :
    Keeps P (Action.makeDirectoriesWithin fuel path) := by
  induction fuel generalizing path with
  | zero => exact throw _
  | succ fuel ih =>
    unfold Action.makeDirectoriesWithin
    apply get_bind
    intro d _
    dsimp only
    split
    · apply bind
      · apply tryCatch (ih _)
        intro e
        split
        · exact pure ()
        · exact throw _
      · intro _
        split
        · exact pure ()
        · exact ensureDirectory made path
    · exact ensureDirectory made path

theorem makeDirectories (path : String) : Keeps P (Action.makeDirectories path) :=
  get_bind fun _ _ => makeDirectoriesWithin made _ path

theorem writeFile {path : String} {content : Bytes}
    (written : ∀ d d' bytes, P d → d.write path bytes = .ok d' → P d') :
    Keeps P (Action.writeFile path content) := by
  unfold Action.writeFile
  dsimp only
  split
  · exact bind (makeDirectories made _) fun _ => write written
  · exact write written

end Directories
end Keeps
end Action

namespace Scan
open ExportInventory.Action

theorem outcome_tryFile (i : Inspector) (path language root output : String) (d : Disk) :
    (tryFile i path language root output).outcome d =
      match (reportFile i path language root output).outcome d with
      | (.ok n, d') => (.ok n, d')
      | (.error _, d') => (.ok 0, d') := by
  unfold tryFile
  rw [outcome_bind, outcome_tryCatch, outcome_bind]
  obtain ⟨_ | _, d'⟩ := (reportFile i path language root output).outcome d <;> rfl

section Steps

variable {P : Disk → Prop} {system : System} {root output : String}
  (fixed : ∀ d, P d → d.system = system)
  (made : ∀ d d' path, P d → d.makeDirectory path = .ok d' → P d')
include fixed made

theorem keeps_reportFile {path : String}
    (written : ∀ d d' target content, P d →
      reportPath system path root output = .ok target →
      d.write target content = .ok d' → P d')
    (i : Inspector) (language : String) : Keeps P (reportFile i path language root output) := by
  unfold reportFile
  refine Keeps.look_bind fun _ _ _ _ => ?_
  refine Keeps.bind (Keeps.bind (.look _) fun _ => .pure _) fun extractor => ?_
  refine Keeps.look_bind fun d target holds place => ?_
  rw [fixed d holds] at place
  refine Keeps.bind ?_ fun _ => .pure _
  exact Keeps.writeFile made fun e e' _ before done => written e e' target _ before place done

theorem keeps_tryFile {path : String}
    (written : ∀ d d' target content, P d →
      reportPath system path root output = .ok target →
      d.write target content = .ok d' → P d')
    (i : Inspector) (language : String) : Keeps P (tryFile i path language root output) := by
  intro d holds
  have kept := keeps_reportFile fixed made written i language d holds
  rw [outcome_tryFile]
  split
  · rename_i n d' given
    rw [given] at kept
    exact kept
  · rename_i e d' given
    rw [given] at kept
    exact kept

theorem keeps_reportFiles {files : List SourceFile}
    (written : ∀ f ∈ files, ∀ d d' target content, P d →
      reportPath system (f.path root) root output = .ok target →
      d.write target content = .ok d' → P d')
    (i : Inspector) : Keeps P (reportFiles i root output files) := by
  induction files with
  | nil => exact .pure []
  | cons f rest ih =>
    unfold reportFiles
    apply Keeps.bind
    · exact keeps_tryFile fixed made (written f List.mem_cons_self) i _
    · intro n
      apply Keeps.bind (ih fun g listed => written g (List.mem_cons_of_mem _ listed))
      intro m
      exact .pure _

theorem keeps_reportLanguage {files : List SourceFile}
    (written : ∀ f ∈ files, ∀ d d' target content, P d →
      reportPath system (f.path root) root output = .ok target →
      d.write target content = .ok d' → P d')
    (s : Scanner) (language : Language) :
    Keeps P (reportLanguage s root output language files) := by
  unfold reportLanguage
  split
  · exact Keeps.bind (keeps_reportFiles fixed made written _) fun _ => .pure _
  · apply Keeps.bind
    · exact keeps_reportFiles fixed made (fun f listed => written f (List.mem_of_mem_take listed)) _
    · intro _
      exact .throw _

theorem keeps_reportLanguages {groups : List (Language × List SourceFile)}
    (written : ∀ f ∈ groups.flatMap Prod.snd, ∀ d d' target content, P d →
      reportPath system (f.path root) root output = .ok target →
      d.write target content = .ok d' → P d')
    (s : Scanner) : Keeps P (reportLanguages s root output groups) := by
  induction groups with
  | nil => exact .pure 0
  | cons group rest ih =>
    obtain ⟨language, files⟩ := group
    rw [List.flatMap_cons] at written
    rw [reportLanguages]
    apply Keeps.bind
    · exact keeps_reportLanguage fixed made
        (fun f listed => written f (List.mem_append_left _ listed)) s language
    · intro n
      exact Keeps.bind (ih fun f listed => written f (List.mem_append_right _ listed))
        fun _ => .pure _

theorem keeps_writeReports {files : List SourceFile}
    (written : ∀ f ∈ (SourceFile.byLanguage files).flatMap Prod.snd, ∀ d d' target content, P d →
      reportPath system (f.path root) root output = .ok target →
      d.write target content = .ok d' → P d')
    (s : Scanner) : Keeps P (writeReports s root output files) := by
  unfold writeReports
  refine Keeps.bind (Keeps.makeDirectories made _) fun _ => ?_
  refine Keeps.bind (keeps_reportLanguages fixed made written s) fun total => ?_
  exact Keeps.bind (.check _) fun _ => .pure _

end Steps

/-- The end of the names of reports. -/
def ending : List Char := ['.', 'j', 's', 'o', 'n']

private theorem ofExtension?_report (w : List Char) :
    Language.ofExtension? (SourceFile.suffix (String.ofList (w ++ ending))) = none := by
  have reversed : (String.ofList (w ++ ending)).toList.reverse =
      'n' :: 'o' :: 's' :: 'j' :: '.' :: w.reverse := by simp [ending]
  unfold SourceFile.suffix
  rw [reversed]
  cases w.reverse with
  | nil => decide
  | cons c rest => simp [Language.ofExtension?]

theorem reportPath_eq_ok_iff {system : System} {path root output target : String} :
    reportPath system path root output = .ok target ↔ path ≠ "" ∧ ∃ origin full,
      system.absolute root = .ok origin ∧ system.absolute path = .ok full ∧
        target = Path.join output (Path.relative full origin ++ ".json") := by
  unfold reportPath
  by_cases empty : path = ""
  · simp [empty]
  · rw [if_neg (by simpa [String.isEmpty_iff] using empty)]
    cases system.absolute root with
    | error e => simp [bind, Except.bind]
    | ok origin =>
      cases system.absolute path with
      | error e => simp [bind, Except.bind]
      | ok full => simp [bind, Except.bind, pure, Except.pure, empty, eq_comm]

private theorem reportPath_ending {system : System} {path root output target : String}
    (place : reportPath system path root output = .ok target) :
    ∃ cs, target.toList = cs ++ ending := by
  have ends (w : String) : ∃ cs, (w ++ ".json").toList = cs ++ ending :=
    ⟨w.toList, String.toList_append⟩
  obtain ⟨_, origin, full, _, _, same⟩ := reportPath_eq_ok_iff.mp place
  rw [same]
  unfold Path.join
  split
  · exact ends _
  · split
    · rw [← String.append_assoc]
      exact ends _
    · rw [← String.append_assoc]
      exact ends _

private theorem locate_ending {d : Disk} (linkFree : d.LinkFree) {path : String} {l : Location}
    {cs : List Char} (text : path.toList = cs ++ ending) (reached : d.locate path = .ok l) :
    ∃ w, l.getLast? = some (String.ofList (w ++ ending)) := by
  obtain ⟨names, w, segments⟩ := Path.exists_segments_eq_concat text (by decide)
  have proper : ∀ name ∈ [String.ofList (w ++ ending)], name ∉ ["", ".", ".."] := by
    intro name single member
    rw [List.mem_singleton.mp single] at member
    have long : 5 ≤ (String.ofList (w ++ ending)).length := by
      rw [String.length_ofList, List.length_append]
      exact Nat.le_add_left 5 _
    have short : ∀ name ∈ ["", ".", ".."], name.length < 5 := by decide
    exact absurd (short _ member) (Nat.not_lt.mpr long)
  obtain ⟨_, _, _, rfl⟩ := (Disk.locate_iff linkFree).mp reached
  rw [segments, Path.walk_append, Path.walk_of_proper proper]
  exact ⟨w, List.getLast?_concat⟩

/-- Whether a place has the name of a source file. -/
def HasSourceName (x : Location) : Prop :=
  ∃ name, x.getLast? = some name ∧ (Language.ofExtension? (SourceFile.suffix name)).isSome = true

theorem HasSourceName.append {x : Location} (source : HasSourceName x) (l : Location) :
    HasSourceName (l ++ x) := by
  obtain ⟨name, last, known⟩ := source
  exact ⟨name, by rw [List.getLast?_append, last, Option.some_or], known⟩

/-- A file system of the same system, without links, whose files are alike at some places. -/
structure Alike (places : Location → Prop) (d e : Disk) : Prop where
  system : e.system = d.system
  linkFree : e.LinkFree
  content : ∀ x, places x → e.content? x = d.content? x

/-- Wherever the report on a file is written, it is at none of some places. -/
def Elsewhere (places : Location → Prop) (system : System) (root output path : String) : Prop :=
  ∀ (e : Disk) target l, e.system = system → e.LinkFree →
    reportPath system path root output = .ok target → e.locate target = .ok l → ¬places l

theorem content?_of_made {d d' : Disk} {l : Location} (vacant : d.get? l = none)
    (changed : Disk.Changed d d' l .directory) (x : Location) : d'.content? x = d.content? x := by
  by_cases here : x = l
  · rw [here, Disk.content?, Disk.content?, changed.get?, if_pos rfl, vacant]
  · exact Disk.content?_congr (by rw [changed.get?, if_neg here])

section Alike

variable {places : Location → Prop} {d : Disk} {root output : String}

theorem Alike.refl (linkFree : d.LinkFree) : Alike places d d := ⟨rfl, linkFree, fun _ _ => rfl⟩

theorem Alike.new {e : Disk} {l : Location} (vacant : d.get? l = none)
    (changed : Disk.Changed d e l .directory) : Alike places d e :=
  ⟨changed.system, changed.linkFree, fun x _ => content?_of_made vacant changed x⟩

theorem Alike.makeDirectory (e e' : Disk) (path : String) (alike : Alike places d e)
    (done : e.makeDirectory path = .ok e') : Alike places d e' := by
  obtain ⟨_, vacant, _, changed⟩ := Disk.makeDirectory_ok alike.linkFree done
  refine ⟨changed.system.trans alike.system, changed.linkFree, fun x inside => ?_⟩
  rw [content?_of_made vacant changed]
  exact alike.content x inside

theorem Elsewhere.write {path : String} (elsewhere : Elsewhere places d.system root output path)
    (e e' : Disk) (target : String) (bytes : Bytes) (alike : Alike places d e)
    (place : reportPath d.system path root output = .ok target)
    (done : e.write target bytes = .ok e') : Alike places d e' := by
  obtain ⟨l, reached, _, changed⟩ := Disk.write_ok alike.linkFree done
  refine ⟨changed.system.trans alike.system, changed.linkFree, fun x inside => ?_⟩
  have other : x ≠ l := by
    rintro rfl
    exact elsewhere e target x alike.system alike.linkFree place reached inside
  have same : e'.content? x = e.content? x :=
    Disk.content?_congr (by rw [changed.get?, if_neg other])
  exact same.trans (alike.content x inside)

theorem alike_tryFile {path : String} (elsewhere : Elsewhere places d.system root output path)
    (i : Inspector) (language : String) :
    Keeps (Alike places d) (tryFile i path language root output) :=
  keeps_tryFile (fun _ alike => alike.system) Alike.makeDirectory elsewhere.write i language

/-- Reports leave alone what stands elsewhere. -/
theorem alike_writeReports {files : List SourceFile}
    (elsewhere : ∀ f ∈ (SourceFile.byLanguage files).flatMap Prod.snd,
      Elsewhere places d.system root output (f.path root)) (s : Scanner) :
    Keeps (Alike places d) (writeReports s root output files) :=
  keeps_writeReports (fun _ alike => alike.system) Alike.makeDirectory
    (fun f listed => (elsewhere f listed).write) s

theorem elsewhere_sources (system : System) (root output path : String) :
    Elsewhere HasSourceName system root output path := by
  rintro e target l _ linkFree place reached ⟨name, last, source⟩
  obtain ⟨cs, text⟩ := reportPath_ending place
  obtain ⟨w, ending⟩ := locate_ending linkFree text reached
  obtain rfl := Option.some.inj (last.symm.trans ending)
  rw [ofExtension?_report] at source
  cases source

end Alike

/-- The disk on which the output directory is made, with an old one emptied on demand. -/
def emptied (d : Disk) (output : String) (clear : Bool) : Disk := ((makeRoom output clear).outcome d).2

theorem outcome_makeRoom (output : String) (clear : Bool) (d : Disk) :
    (makeRoom output clear).outcome d =
      if d.isDirectory output && clear then (removeTree output).outcome d else (.ok (), d) := by
  unfold makeRoom
  rw [outcome_get_bind]
  split <;> rfl

theorem emptied_of_kept {d : Disk} {output : String} {clear : Bool}
    (kept : (d.isDirectory output && clear) = false) : emptied d output clear = d := by
  rw [emptied, outcome_makeRoom, kept, if_neg Bool.false_ne_true]

section Emptied

variable {d : Disk} (linkFree : d.LinkFree) {output : String} {clear : Bool}
include linkFree

theorem outcome_removeTree {l : Location} (reached : d.locate output = .ok l)
    (directory : d.get? l = some .directory) :
    (removeTree output).outcome d =
      match d.system.stopsEmptying l with
      | some message => (.error (.interrupted message), d.clear l)
      | none => (.ok (), (d.clear l).removeDirectory output) := by
  unfold removeTree
  rw [outcome_get_bind]
  rw [(Disk.removable?_eq_some_iff linkFree).mpr ⟨reached, directory⟩]
  dsimp only
  rw [outcome_bind, outcome_set]
  dsimp only
  rw [outcome_bind, outcome_check]
  cases d.system.stopsEmptying l with
  | some message => rfl
  | none => rfl

variable (output clear) in
theorem emptied_spec : (emptied d output clear).LinkFree ∧ (emptied d output clear).system = d.system ∧
    ∀ x, (emptied d output clear).content? x = d.content? x ∨
      (emptied d output clear).content? x = none ∧ clear = true ∧
        ∃ l, d.locate output = .ok l ∧ d.get? l = some .directory ∧ Disk.isBelow l x = true ∧
          d.system.keeps x = false := by
  cases old : d.isDirectory output && clear with
  | false =>
    rw [emptied_of_kept old]
    exact ⟨linkFree, rfl, fun x => .inl rfl⟩
  | true =>
    obtain ⟨there, rfl⟩ : d.isDirectory output = true ∧ clear = true := by simpa using old
    obtain ⟨l, reached, directory⟩ := Disk.isDirectory_iff.mp there
    have cleared : (d.clear l).LinkFree := linkFree.of_sublist List.filter_sublist
    have taken (x : Location) : (d.clear l).content? x = d.content? x ∨
        (d.clear l).content? x = none ∧ true = true ∧ ∃ l, d.locate output = .ok l ∧
          d.get? l = some .directory ∧ Disk.isBelow l x = true ∧ d.system.keeps x = false := by
      rw [Disk.content?_clear]
      split
      · rename_i gone
        rw [Bool.and_eq_true, Bool.not_eq_true'] at gone
        exact .inr ⟨rfl, rfl, l, reached, directory, gone.1, gone.2⟩
      · exact .inl rfl
    rw [emptied, outcome_makeRoom, old, if_pos rfl, outcome_removeTree linkFree reached directory]
    cases d.system.stopsEmptying l with
    | some message => exact ⟨cleared, rfl, taken⟩
    | none =>
      obtain ⟨fewer, same⟩ := Disk.entries_removeDirectory (d := d.clear l) output
      refine ⟨cleared.of_sublist fewer, same, fun x => ?_⟩
      rw [Disk.content?_removeDirectory]
      exact taken x

theorem content?_emptied {x : Location} {content : Bytes} (before : d.content? x = some content) :
    (emptied d output clear).content? x = some content ↔
      ¬(clear = true ∧ ∃ l, d.locate output = .ok l ∧ d.get? l = some .directory ∧
        Disk.isBelow l x = true ∧ d.system.keeps x = false) := by
  constructor
  · rintro after ⟨rfl, l, reached, directory, below, loose⟩
    have gone : (d.clear l).content? x = none := by
      rw [Disk.content?_clear, below, loose]
      rfl
    have there := Disk.isDirectory_iff.mpr ⟨l, reached, directory⟩
    rw [emptied, outcome_makeRoom, there, Bool.true_and, if_pos rfl,
      outcome_removeTree linkFree reached directory] at after
    cases stop : d.system.stopsEmptying l with
    | some message =>
      rw [stop, gone] at after
      cases after
    | none =>
      rw [stop, Disk.content?_removeDirectory, gone] at after
      cases after
  · intro kept
    rcases (emptied_spec linkFree output clear).2.2 x with same | ⟨_, gone⟩
    · exact same.trans before
    · exact absurd gone kept

end Emptied

theorem outcome_run {s : Scanner} {root output : String} {clear : Bool} {d : Disk}
    {files : List SourceFile} (collected : s.selection.collect d root = .ok files) :
    (run s root output clear).outcome d =
      (makeRoom output clear >>= fun _ => writeReports s root output files).outcome d := by
  unfold run
  rw [outcome_bind, outcome_look, collected]

/-- What holds after room is made, and is kept by the reports, holds after the scan. -/
theorem run_of_emptied {P : Disk → Prop} {s : Scanner} {root output : String} {clear : Bool} {d : Disk}
    {files : List SourceFile} (collected : s.selection.collect d root = .ok files)
    (holds : P (emptied d output clear)) (keeps : Keeps P (writeReports s root output files)) :
    P ((run s root output clear).outcome d).2 := by
  rw [outcome_run collected]
  exact Keeps.after holds fun _ => keeps

theorem collect_eq_ok_iff {s : Selection} {d : Disk} {root : String} {files : List SourceFile} :
    s.collect d root = .ok files ↔ ∃ ignored places, s.ignored d root = .ok ignored ∧
      SourceFile.places d root = .ok places ∧ files = places.filterMap (SourceFile.ofPlace? ignored) := by
  unfold Selection.collect
  cases s.ignored d root with
  | error e => simp [bind, Except.bind]
  | ok ignored =>
    cases SourceFile.places d root with
    | error e => simp [bind, Except.bind]
    | ok places => simp [bind, Except.bind, pure, Except.pure, eq_comm]

theorem mem_collect {s : Selection} {d : Disk} (linkFree : d.LinkFree) {root : String}
    {files : List SourceFile} {f : SourceFile} (collected : s.collect d root = .ok files)
    (listed : f ∈ files) :
    ∃ l content, d.locate (SourceFile.tidy root) = .ok l ∧
      d.get? (l ++ f.place) = some (.file content) ∧ HasSourceName f.place := by
  obtain ⟨ignored, places, _, given, rfl⟩ := collect_eq_ok_iff.mp collected
  obtain ⟨place, member, kept⟩ := List.mem_filterMap.mp listed
  unfold SourceFile.ofPlace? at kept
  split at kept
  · cases kept
  · obtain ⟨language, known, rfl⟩ := Option.map_eq_some_iff.mp kept
    unfold SourceFile.places at given
    split at given
    · obtain rfl := Except.ok.inj given
      cases member
    · rename_i l reached
      split at given
      · cases given
      · obtain rfl := Except.ok.inj given
        split at member
        · obtain ⟨⟨_, content⟩, below, rfl⟩ := List.mem_map.mp member
          obtain ⟨found, nonempty⟩ := (Disk.mem_filesBelow linkFree).mp below
          have last := List.getLast?_eq_some_getLast nonempty
          rw [last, Option.getD_some] at known
          exact ⟨l, content, reached, found, _, last, by rw [known]; rfl⟩
        · cases member

theorem content?_run {s : Scanner} {d : Disk} (linkFree : d.LinkFree) {root output : String}
    {clear : Bool} {files : List SourceFile} (collected : s.selection.collect d root = .ok files)
    {x : Location} (source : HasSourceName x) :
    ((run s root output clear).outcome d).2.content? x = (emptied d output clear).content? x := by
  obtain ⟨clean, _, _⟩ := emptied_spec linkFree output clear
  have alike : Alike HasSourceName (emptied d output clear) ((run s root output clear).outcome d).2 :=
    run_of_emptied collected (.refl clean)
      (alike_writeReports (fun f _ => elsewhere_sources _ root output (f.path root)) s)
  exact alike.content x source

/-- A source file survives a scan, whatever its outcome, unless it lies in the output directory, that
is emptied, and the system lets the file be removed. -/
theorem source_kept_iff (s : Scanner) (d : Disk) (root output : String) (clear : Bool)
    (linkFree : d.LinkFree) {files : List SourceFile}
    (collected : s.selection.collect d root = .ok files) {f : SourceFile} (listed : f ∈ files) :
    ∃ l content, d.locate (SourceFile.tidy root) = .ok l ∧
      d.get? (l ++ f.place) = some (.file content) ∧
      (((run s root output clear).outcome d).2.get? (l ++ f.place) = some (.file content) ↔
        ¬(clear = true ∧ ∃ lo, d.locate output = .ok lo ∧ d.get? lo = some .directory ∧
          Disk.isBelow lo (l ++ f.place) = true ∧ d.system.keeps (l ++ f.place) = false)) := by
  obtain ⟨l, content, reached, found, source⟩ := mem_collect linkFree collected listed
  refine ⟨l, content, reached, found, ?_⟩
  rw [← Disk.content?_eq_some_iff, content?_run linkFree collected (source.append l)]
  exact content?_emptied linkFree (Disk.content?_eq_some_iff.mpr found)

-- a directory with one source, and one with a report of an earlier scan
def workDisk : Disk where
  entries := [(["work"], .directory), (["work", "src"], .directory),
    (["work", "src", "Card.jsx"], .file 0), (["work", "out"], .directory),
    (["work", "out", "Old.jsx.json"], .file 1), (["work", "out", "x"], .directory)]
  contents := fun n => if n = 0 then [49] else [50]
  system := .permissive "/work" 3
  unique := by decide
  rooted := by decide

theorem workDisk_linkFree : workDisk.LinkFree := ⟨by decide, by decide⟩

theorem collect_eq {s : Selection} {d : Disk} {root : String} {l : Location}
    (reached : d.locate (SourceFile.tidy root) = .ok l) (directory : d.isDirectoryAt l = true)
    (listing : d.system.stopsListing l = none) {ignored : String → Bool}
    (rules : s.ignored d root = .ok ignored) :
    s.collect d root =
      .ok (((d.filesBelow l).map Prod.fst).filterMap (SourceFile.ofPlace? ignored)) := by
  refine collect_eq_ok_iff.mpr ⟨ignored, _, rules, ?_, rfl⟩
  rw [SourceFile.places, reached]
  dsimp only
  rw [listing, if_pos directory]

theorem ignored_standard {d : Disk} {root : String} (budget : Nat) (guess : Bytes → Option String)
    (absent : d.pathExists (SourceFile.ignoreFile root) = false) :
    (Scanner.standard budget guess).selection.ignored d root = .ok fun _ => false := by
  have none_ : (Scanner.standard budget guess).selection.ignoreLines d root = .ok [] := by
    rw [Selection.ignoreLines, absent, if_neg Bool.false_ne_true]
    rfl
  rw [Selection.ignored, none_]
  rfl

theorem filesBelow_workDisk : workDisk.filesBelow ["work", "src"] = [(["Card.jsx"], [49])] := by
  have single : (workDisk.entries.map Prod.fst).filterMap
      (Disk.filesBelow.file? workDisk ["work", "src"]) = [(["Card.jsx"], [49])] := by decide +kernel
  rw [Disk.filesBelow, single, List.mergeSort_singleton]

theorem collect_workDisk (budget : Nat) (guess : Bytes → Option String) :
    (Scanner.standard budget guess).selection.collect workDisk "src" =
      .ok [⟨["Card.jsx"], .javascript⟩] := by
  have reached : workDisk.locate (SourceFile.tidy "src") = .ok ["work", "src"] := by rfl
  rw [collect_eq reached (by decide +kernel) rfl (ignored_standard budget guess (by rfl)),
    filesBelow_workDisk]
  rfl

theorem card_kept :
    workDisk.LinkFree ∧ (Scanner.standard 250000 fun _ => none).selection.collect workDisk "src" =
        .ok [⟨["Card.jsx"], .javascript⟩] ∧
      ((run (.standard 250000 fun _ => none) "src" "out" true).outcome workDisk).2.get?
        ["work", "src", "Card.jsx"] = some (.file [49]) := by
  refine ⟨workDisk_linkFree, collect_workDisk _ _, ?_⟩
  obtain ⟨l, content, reached, found, kept⟩ := source_kept_iff (.standard 250000 fun _ => none)
    workDisk "src" "out" true workDisk_linkFree (collect_workDisk _ _) List.mem_cons_self
  obtain rfl : ["work", "src"] = l := Except.ok.inj reached
  obtain rfl : [49] = content := Entry.file.inj (Option.some.inj found)
  refine kept.mpr ?_
  rintro ⟨_, lo, place, _, below, _⟩
  obtain rfl : ["work", "out"] = lo := Except.ok.inj place
  exact absurd below (by decide)

/-- The sources are listed, then removed with the directory that is to take the reports. -/
theorem card_lost :
    (Scanner.standard 250000 fun _ => none).selection.collect workDisk "src" =
        .ok [⟨["Card.jsx"], .javascript⟩] ∧
      workDisk.get? ["work", "src", "Card.jsx"] = some (.file [49]) ∧
      ((run (.standard 250000 fun _ => none) "src" "src" true).outcome workDisk).2.content?
        ["work", "src", "Card.jsx"] = none := by
  refine ⟨collect_workDisk _ _, by decide +kernel, ?_⟩
  rw [content?_run workDisk_linkFree (collect_workDisk _ _) ⟨"Card.jsx", rfl, by decide +kernel⟩]
  decide +kernel

end Scan
end ExportInventory
