import ExportInventory.Proofs.Source
import Mathlib.Algebra.GroupWithZero.Nat

/-!
The reports of a scan into a new directory. Each source file has its report at its own place, so
that all reports are there at the end unless a file cannot be reported on, the system does not let
its report be written, or one report needs a directory where another one goes.
-/
namespace ExportInventory

/-- Neither the display of the progress nor the console breaks off. -/
structure Scanner.Quiet (s : Scanner) : Prop where
  stops : ∀ language files, s.stops language files = none
  print : ∀ line, s.print line = none

namespace Scan
open ExportInventory.Action

/-- The report on a file as it is before the scan. -/
def reportOf (i : Inspector) (d : Disk) (root : String) (f : SourceFile) : Report :=
  match i.report d (f.path root) with
  | .ok report => report
  | .error _ => .empty

def writtenOf (i : Inspector) (d : Disk) (root : String) (f : SourceFile) : Bytes :=
  Encoding.encode (reportOf i d root f).written.toList

theorem reportOf_eq {i : Inspector} {d : Disk} {root : String} {f : SourceFile} {r : Report}
    (reported : i.report d (f.path root) = .ok r) : reportOf i d root f = r := by
  unfold reportOf
  rw [reported]

/-- A file can be reported on, and the system lets its report be written below a place in full. -/
structure Granted (i : Inspector) (d : Disk) (root : String) (lo : Location) (f : SourceFile) :
    Prop where
  reported : i.report d (f.path root) = .ok (reportOf i d root f)
  directories : ∀ q, q ≠ [] → q <+: f.place.dropLast → d.system.refuses .make (lo ++ q) = none
  writable : d.system.refuses .write (lo ++ reportPlace f) = none
  whole : d.system.cutsOff (lo ++ reportPlace f) = none

/-- The output directory holds the reports on some files, the directories they need and nothing
else, and all outside it is as before. -/
structure Reported (d : Disk) (lo : Location) (text : SourceFile → Bytes) (done : List SourceFile)
    (e : Disk) : Prop where
  linkFree : e.LinkFree
  system : e.system = d.system
  outside : ∀ x, ¬lo <+: x → e.get? x = d.get? x
  output : e.get? lo = some .directory
  written : ∀ f ∈ done, e.get? (lo ++ reportPlace f) = some (.file (text f))
  only : ∀ p entry, e.get? (lo ++ p) = some entry →
    entry = .directory ∧ (p = [] ∨ ∃ f ∈ done, Disk.isBelow p (reportPlace f) = true) ∨
      ∃ f ∈ done, p = reportPlace f

theorem not_prefix_of_vacant {d : Disk} {lo x : Location} {e : Entry} (vacant : d.get? lo = none)
    (found : d.get? x = some e) : ¬lo <+: x := by
  intro before
  rcases Disk.isBelow_or_eq_of_prefix before with below | rfl
  · rw [Disk.get?_of_isBelow found below] at vacant
    cases vacant
  · rw [found] at vacant
    cases vacant

namespace Reported

variable {d e e₁ e' : Disk} {lo : Location} {text : SourceFile → Bytes} {done : List SourceFile}
  {f : SourceFile}

theorem new (vacant : d.get? lo = none)
    (changed : Disk.Changed d e lo .directory) : Reported d lo text [] e := by
  constructor
  case linkFree => exact changed.linkFree
  case system => exact changed.system
  case outside =>
    intro x beyond
    rw [changed.get?, if_neg]
    rintro rfl
    exact beyond (List.prefix_refl _)
  case output => rw [changed.get?, if_pos rfl]
  case written =>
    intro f listed
    cases listed
  case only =>
    intro p entry found
    rw [changed.get?] at found
    split at found
    · rename_i same
      exact .inl ⟨(Option.some.inj found).symm, .inl (by simpa using same)⟩
    · exact absurd (List.prefix_append lo p) (not_prefix_of_vacant vacant found)

variable (reported : Reported d lo text done e)
include reported

private theorem mem_filesBelow {p : Location} {content : Bytes} :
    (p, content) ∈ e.filesBelow lo ↔ ∃ f ∈ done, p = reportPlace f ∧ content = text f := by
  rw [Disk.mem_filesBelow reported.linkFree]
  constructor
  · rintro ⟨found, _⟩
    rcases reported.only p _ found with ⟨directory, _⟩ | ⟨f, listed, rfl⟩
    · cases directory
    · rw [reported.written f listed] at found
      exact ⟨f, listed, rfl, (Entry.file.inj (Option.some.inj found)).symm⟩
  · rintro ⟨f, listed, rfl, rfl⟩
    exact ⟨reported.written f listed, reportPlace_ne_nil f⟩

private theorem get?_of_before (vacant : d.get? lo = none) {x : Location} {entry : Entry}
    (found : d.get? x = some entry) : e.get? x = some entry :=
  (reported.outside x (not_prefix_of_vacant vacant found)).trans found

variable (apart : ∀ g ∈ done, Disk.isBelow (reportPlace g) (reportPlace f) = false ∧
    Disk.isBelow (reportPlace f) (reportPlace g) = false)
include apart

private theorem noFile (q : Location) (before : q <+: f.place.dropLast) :
    e.content? (lo ++ q) = none := by
  rw [Option.eq_none_iff_forall_ne_some]
  intro c found
  rcases reported.only q _ (Disk.content?_eq_some_iff.mp found) with ⟨directory, _⟩ | ⟨g, listed, rfl⟩
  · cases directory
  · have below := isBelow_reportPlace before
    rw [(apart g listed).1] at below
    cases below

private theorem free : e.get? (lo ++ reportPlace f) ≠ some .directory := by
  intro found
  rcases reported.only _ _ found with ⟨_, empty | ⟨g, listed, below⟩⟩ | ⟨g, listed, same⟩
  · exact reportPlace_ne_nil f empty
  · rw [(apart g listed).2] at below
    cases below
  · rw [same, reported.written g listed] at found
    cases found

private theorem step (nonempty : ∀ g ∈ f :: done, g.place ≠ [])
    (textOf : ∀ g, g.place = f.place → text g = text f)
    (extended : Extended e e₁ lo f.place.dropLast)
    (changed : Disk.Changed e₁ e' (lo ++ reportPlace f) (.file (text f))) :
    Reported d lo text (done ++ [f]) e' := by
  constructor
  case linkFree => exact changed.linkFree
  case system => exact changed.system.trans (extended.system.trans reported.system)
  case outside =>
    intro x beyond
    have other (p : Location) : x ≠ lo ++ p := by
      rintro rfl
      exact beyond (List.prefix_append _ _)
    rw [changed.get?, if_neg (other _), extended.kept x fun q _ => other q]
    exact reported.outside x beyond
  case output =>
    have other : lo ≠ lo ++ reportPlace f := by simp [reportPlace]
    have made := extended.made [] List.nil_prefix
    rw [List.append_nil] at made
    rw [changed.get?, if_neg other, made]
  case written =>
    intro g listed
    rcases List.mem_append.mp listed with old | new
    -- a file listed twice is written twice, with the same text
    · rw [changed.get?]
      split
      · rename_i same
        have place := place_eq_of_reportPlace (nonempty g (List.mem_cons_of_mem _ old))
          (nonempty f List.mem_cons_self) (List.append_cancel_left same)
        rw [textOf g place]
      · rw [extended.kept]
        · exact reported.written g old
        · intro q before same
          have below := isBelow_reportPlace before
          rw [← List.append_cancel_left same, (apart g old).1] at below
          cases below
    · obtain rfl := List.mem_singleton.mp new
      rw [changed.get?, if_pos rfl]
  case only =>
    intro p entry found
    rw [changed.get?] at found
    split at found
    · rename_i same
      exact .inr ⟨f, by simp, List.append_cancel_left same⟩
    · by_cases within : p <+: f.place.dropLast
      · rw [extended.made p within] at found
        exact .inl ⟨(Option.some.inj found).symm, .inr ⟨f, by simp, isBelow_reportPlace within⟩⟩
      · rw [extended.kept] at found
        · refine (reported.only p entry found).imp ?_ ?_
          · rintro ⟨directory, empty | ⟨g, listed, below⟩⟩
            · exact ⟨directory, .inl empty⟩
            · exact ⟨directory, .inr ⟨g, by simp [listed], below⟩⟩
          · rintro ⟨g, listed, same⟩
            exact ⟨g, by simp [listed], same⟩
        · intro q before same
          obtain rfl := List.append_cancel_left same
          exact within before

end Reported

theorem outcome_reportFile_eq_ok {i : Inspector} {e e' : Disk} {path root output : String}
    {language : Language} {n : Nat} :
    (reportFile i path language.name root output).outcome e = (.ok n, e') ↔ ∃ r target,
      i.report e path = .ok r ∧ reportPath e.system path root output = .ok target ∧
        (writeFile target (Encoding.encode r.written.toList)).outcome e = (.ok (), e') ∧
          n = r.records.length := by
  have known : Extractor.forLanguage language.name = .ok ⟨none⟩ := by cases language <;> rfl
  unfold reportFile
  rw [outcome_bind, outcome_look, known]
  dsimp only
  unfold Extractor.process
  rw [outcome_bind, outcome_bind, outcome_look]
  cases i.report e path with
  | error failure => simp
  | ok r =>
    dsimp only
    rw [outcome_pure]
    dsimp only
    rw [outcome_bind, outcome_look]
    cases reportPath e.system path root output with
    | error failure => simp
    | ok target =>
      dsimp only
      rw [outcome_bind_eq_ok]
      constructor
      · rintro ⟨_, _, wrote, given⟩
        obtain ⟨rfl, rfl⟩ : r.records.length = n ∧ _ = e' := by
          simpa [outcome_pure, Extractor.records] using given
        exact ⟨r, target, rfl, rfl, wrote, rfl⟩
      · rintro ⟨_, _, same, same', wrote, rfl⟩
        obtain rfl := Except.ok.inj same
        obtain rfl := Except.ok.inj same'
        exact ⟨(), e', wrote, rfl⟩

theorem outcome_reportFiles_cons {i : Inspector} {root output : String} {f : SourceFile}
    {rest : List SourceFile} {d d' : Disk} {counts : List Nat} :
    (reportFiles i root output (f :: rest)).outcome d = (.ok counts, d') ↔ ∃ n e more,
      (tryFile i (f.path root) f.language.name root output).outcome d = (.ok n, e) ∧
        (reportFiles i root output rest).outcome e = (.ok more, d') ∧ counts = n :: more := by
  rw [reportFiles, outcome_bind_eq_ok]
  constructor
  · rintro ⟨n, e, first, others⟩
    obtain ⟨more, e', next, given⟩ := outcome_bind_eq_ok.mp others
    obtain ⟨rfl, rfl⟩ : n :: more = counts ∧ e' = d' := by simpa [outcome_pure] using given
    exact ⟨n, e, more, first, next, rfl⟩
  · rintro ⟨n, e, more, first, others, rfl⟩
    exact ⟨n, e, first, outcome_bind_eq_ok.mpr ⟨more, d', others, rfl⟩⟩

theorem outcome_reportFiles_ok (i : Inspector) (root output : String) (files : List SourceFile)
    (d : Disk) : ∃ counts d', (reportFiles i root output files).outcome d = (.ok counts, d') := by
  induction files generalizing d with
  | nil => exact ⟨[], d, rfl⟩
  | cons f rest ih =>
    obtain ⟨n, e, first⟩ : ∃ n e, (tryFile i (f.path root) f.language.name root output).outcome d =
        (.ok n, e) := by
      rw [outcome_tryFile]
      split
      · exact ⟨_, _, rfl⟩
      · exact ⟨_, _, rfl⟩
    obtain ⟨more, d', others⟩ := ih e
    exact ⟨n :: more, d', outcome_reportFiles_cons.mpr ⟨n, e, more, first, others, rfl⟩⟩

theorem outcome_reportFiles_append {i : Inspector} {root output : String}
    {before behind : List SourceFile} {d e d' : Disk} {counts more : List Nat}
    (first : (reportFiles i root output before).outcome d = (.ok counts, e))
    (second : (reportFiles i root output behind).outcome e = (.ok more, d')) :
    (reportFiles i root output (before ++ behind)).outcome d = (.ok (counts ++ more), d') := by
  induction before generalizing d counts with
  | nil =>
    obtain ⟨rfl, rfl⟩ : [] = counts ∧ d = e := by simpa [reportFiles, outcome_pure] using first
    exact second
  | cons f rest ih =>
    obtain ⟨n, between, others, own, next, rfl⟩ := outcome_reportFiles_cons.mp first
    exact outcome_reportFiles_cons.mpr ⟨n, between, others ++ more, own, ih next, rfl⟩

theorem outcome_reportLanguages {s : Scanner} (quiet : s.Quiet) (root output : String)
    (groups : List (Language × List SourceFile)) (d : Disk) : ∃ counts d',
      (reportFiles s.toInspector root output (groups.flatMap Prod.snd)).outcome d = (.ok counts, d') ∧
        (reportLanguages s root output groups).outcome d = (.ok counts.sum, d') := by
  induction groups generalizing d with
  | nil => exact ⟨[], d, rfl, rfl⟩
  | cons group rest ih =>
    obtain ⟨language, files⟩ := group
    obtain ⟨counts, e, own⟩ := outcome_reportFiles_ok s.toInspector root output files d
    obtain ⟨more, d', others, total⟩ := ih e
    refine ⟨counts ++ more, d', outcome_reportFiles_append own others, ?_⟩
    have first : (reportLanguage s root output language files).outcome d = (.ok counts.sum, e) := by
      unfold reportLanguage
      rw [quiet.stops]
      refine outcome_bind_eq_ok.mpr ⟨counts, e, own, ?_⟩
      rw [outcome_pure, List.sum_eq_foldl]
    rw [reportLanguages]
    refine outcome_bind_eq_ok.mpr ⟨counts.sum, e, first, ?_⟩
    refine outcome_bind_eq_ok.mpr ⟨more.sum, d', total, ?_⟩
    rw [outcome_pure, List.sum_append]

theorem byLanguage_perm (files : List SourceFile) :
    ((SourceFile.byLanguage files).flatMap Prod.snd).Perm files := by
  have flat (files : List SourceFile) : (SourceFile.byLanguage files).flatMap Prod.snd =
      (files.map SourceFile.language).eraseDups.flatMap
        fun k => files.filter fun f => f.language = k := by
    rw [SourceFile.byLanguage, List.flatMap_map]
  -- the first language takes its files, and the others have the same files among those left
  induction size : files.length using Nat.strongRecOn generalizing files with
  | ind n smaller =>
    cases files with
    | nil => rfl
    | cons f rest =>
      let others := rest.filter fun g => !(g.language = f.language)
      have fewer : others.length < n := by
        rw [← size, List.length_cons]
        exact Nat.lt_succ_of_le (List.length_filter_le _ rest)
      have left : (f :: rest).filter (fun g => !decide (g.language = f.language)) = others := by
        rw [List.filter_cons_of_neg (by simp)]
      have languages : ((rest.map SourceFile.language).filter fun k => !(k == f.language)) =
          others.map SourceFile.language := by
        rw [List.filter_map]
        rfl
      have remaining : ∀ k ∈ (others.map SourceFile.language).eraseDups,
          ((f :: rest).filter fun g => g.language = k) = others.filter fun g => g.language = k := by
        intro k listed
        obtain ⟨g, member, rfl⟩ := List.mem_map.mp (List.mem_eraseDups.mp listed)
        have different : g.language ≠ f.language := by simpa using (List.mem_filter.mp member).2
        rw [List.filter_cons_of_neg (by simpa using different.symm), List.filter_filter]
        refine List.filter_congr fun h _ => ?_
        by_cases same : h.language = g.language
        · simp [same, different]
        · simp [same]
      rw [flat, List.map_cons, List.eraseDups_cons, List.flatMap_cons, languages,
        List.flatMap_congr remaining, ← flat]
      refine ((smaller _ fewer others rfl).append_left _).trans ?_
      rw [← left]
      exact List.filter_append_perm _ _

theorem endsInName_of_vacant {d : Disk} (linkFree : d.LinkFree) {output : String} {lo : Location}
    (reached : d.locate (Disk.withoutEndSlashes output) = .ok lo) (vacant : d.get? lo = none) :
    Path.EndsInName (Disk.withoutEndSlashes output) ∧
      ∃ n, output.toList = (Disk.withoutEndSlashes output).toList ++ List.replicate n '/' := by
  rcases Path.withoutEndSlashes_cases output with ⟨n, slashes⟩ | named
  · exfalso
    rw [Path.withoutEndSlashes_of_slashes slashes] at reached
    cases n with
    | zero => exact ((Disk.locate_iff linkFree).mp reached).2.1 (String.toList_eq_nil_iff.mp slashes)
    | succ n =>
      obtain rfl := Except.ok.inj ((Disk.locate_slashes linkFree slashes).symm.trans reached)
      rw [Disk.get?_nil] at vacant
      cases vacant
  · exact named

section New

variable {d : Disk} (linkFree : d.LinkFree) {output : String} {lo : Location} {n : Nat}
  (ends : Path.EndsInName (Disk.withoutEndSlashes output))
  (text : output.toList = (Disk.withoutEndSlashes output).toList ++ List.replicate n '/')
  (reached : d.locate (Disk.withoutEndSlashes output) = .ok lo)
include linkFree ends text reached

private theorem isDirectory_of_vacant (vacant : d.get? lo = none) :
    d.isDirectory output = false := by
  rw [Bool.eq_false_iff]
  intro there
  obtain ⟨x, place, directory⟩ := Disk.isDirectory_iff.mp there
  rcases Path.eq_or_slashes text with same | ⟨m, whole⟩
  · rw [← same] at reached
    obtain rfl := Except.ok.inj (place.symm.trans reached)
    rw [directory] at vacant
    cases vacant
  · obtain ⟨between, above, found⟩ := Disk.locate_above linkFree whole ends.ne_empty place
    obtain rfl := Except.ok.inj (above.symm.trans reached)
    rw [found] at vacant
    cases vacant

omit ends in
private theorem fault?_output : d.system.fault? output = none := by
  have front := ((Disk.locate_iff linkFree).mp reached).1
  rw [Disk.fault?_eq_none_iff] at front ⊢
  intro c member
  rw [text] at member
  rcases List.mem_append.mp member with before | slash
  · exact front c before
  · rw [List.eq_of_mem_replicate slash]
    exact Disk.takes_of_ascii (by decide)

section Report

variable {i : Inspector} {root : String} (wellNamed : d.WellNamed) {l : Location} {f : SourceFile}
  {content : Bytes} (source : IsSource d root l f content)
include wellNamed source

theorem spells_report : Path.Spells (Disk.withoutEndSlashes output)
      (Path.join output ("/".intercalate (reportPlace f))) (reportPlace f) ∧
    d.system.fault? (Path.join output ("/".intercalate (reportPlace f))) = none := by
  have named := source.named_reportPlace wellNamed
  refine ⟨Path.spells_join ends text (reportPlace_ne_nil f) fun name member => (named name member).1, ?_⟩
  exact Disk.fault?_join (fault?_output linkFree text reached)
    (Disk.fault?_intercalate fun name member => (named name member).2)

private theorem elsewhere_report (places : Location → Prop)
    (other : ¬places (lo ++ reportPlace f)) :
    Elsewhere places d.system root output (f.path root) := by
  intro e target x same clean place located inside
  obtain rfl := ((source.reportPath_eq_ok_iff wellNamed linkFree).mp place).2
  obtain ⟨spells, _⟩ := spells_report linkFree ends text reached wellNamed source
  obtain rfl := spells.eq_of_locate linkFree reached clean same located
  exact other inside

/-- One more report. It finds no file in its way, and takes the place of no directory. -/
theorem outcome_tryFile_granted (vacant : d.get? lo = none) (granted : Granted i d root lo f)
    (shallow : f.place.length ≤ d.system.nesting) {done : List SourceFile} {e : Disk}
    (nonempty : ∀ g ∈ done, g.place ≠ []) (reported : Reported d lo (writtenOf i d root) done e)
    (apart : ∀ g ∈ done, Disk.isBelow (reportPlace g) (reportPlace f) = false ∧
      Disk.isBelow (reportPlace f) (reportPlace g) = false) :
    ∃ e', (tryFile i (f.path root) f.language.name root output).outcome e =
        (.ok (reportOf i d root f).records.length, e') ∧
      Reported d lo (writtenOf i d root) (done ++ [f]) e' := by
  have found : e.content? (l ++ f.place) = some content := by
    rw [Disk.content?_eq_some_iff]
    exact reported.get?_of_before vacant (Disk.content?_eq_some_iff.mp source.found)
  have report : i.report e (f.path root) = .ok (reportOf i d root f) := by
    rw [source.report_eq wellNamed linkFree reported.linkFree reported.system found]
    exact granted.reported
  have base := Disk.locate_mono linkFree reported.linkFree
    (fun x directory => reported.get?_of_before vacant directory) reported.system reached
  obtain ⟨spells, spelled⟩ := spells_report linkFree ends text reached wellNamed source
  have target := source.reportPath_of_report wellNamed linkFree granted.reported output
  have enough : f.place.dropLast.length < d.system.nesting := by
    have positive := List.length_pos_iff.mpr source.nonempty
    rw [List.length_dropLast]
    omega
  obtain ⟨_, directories, writable, whole⟩ := granted
  rw [← reported.system] at spelled target enough directories writable whole
  obtain ⟨e₁, e', wrote, extended, changed⟩ := outcome_writeFile ends reported.linkFree base
    reported.output f.place.dropLast spells enough spelled (reported.noFile apart)
    (reported.free apart) directories writable whole (writtenOf i d root f)
  refine ⟨e', ?_, reported.step apart ?_ ?_ extended changed⟩
  · rw [outcome_tryFile, outcome_reportFile_eq_ok.mpr ⟨_, _, report, target, wrote, rfl⟩]
  · intro g listed
    rcases List.mem_cons.mp listed with rfl | old
    · exact source.nonempty
    · exact nonempty g old
  · intro g place
    unfold writtenOf reportOf SourceFile.path SourceFile.relativePath
    rw [place]

private theorem count_of_tryFile {e e' : Disk} (alike : Alike HasSourceName d e) {n : Nat}
    (tried : (tryFile i (f.path root) f.language.name root output).outcome e = (.ok n, e')) :
    n = 0 ∨ n = (reportOf i d root f).records.length ∧
      d.system.refuses .write (lo ++ reportPlace f) = none ∧
        d.system.cutsOff (lo ++ reportPlace f) = none := by
  rw [outcome_tryFile] at tried
  split at tried
  · rename_i m e'' given
    obtain ⟨rfl, rfl⟩ : m = n ∧ e'' = e' := by simpa using tried
    obtain ⟨r, target, report, place, wrote, rfl⟩ := outcome_reportFile_eq_ok.mp given
    have found := (alike.content _ (source.source.append l)).trans source.found
    rw [source.report_eq wellNamed linkFree alike.linkFree alike.system found] at report
    rw [alike.system] at place
    obtain rfl := ((source.reportPath_eq_ok_iff wellNamed linkFree).mp place).2
    obtain ⟨e₁, x, clean, same, located, allowed, whole⟩ := writeFile_eq_ok alike.linkFree wrote
    rw [alike.system] at same allowed whole
    obtain ⟨spells, _⟩ := spells_report linkFree ends text reached wellNamed source
    obtain rfl := spells.eq_of_locate linkFree reached clean same located
    rw [reportOf_eq report]
    exact .inr ⟨rfl, allowed, whole⟩
  · exact .inl (by simpa [eq_comm] using (Prod.mk.inj tried).1)

end Report

variable {i : Inspector} {root : String} (wellNamed : d.WellNamed)
include wellNamed

theorem outcome_reportFiles_granted (vacant : d.get? lo = none) (todo : List SourceFile)
    {done : List SourceFile} {e : Disk} (reported : Reported d lo (writtenOf i d root) done e)
    (sources : ∀ f ∈ done ++ todo, ∃ l content, IsSource d root l f content)
    (granted : ∀ f ∈ todo, Granted i d root lo f ∧ f.place.length ≤ d.system.nesting)
    (apart : ∀ f ∈ done ++ todo, ∀ g ∈ done ++ todo,
      Disk.isBelow (reportPlace f) (reportPlace g) = false) :
    ∃ e', (reportFiles i root output todo).outcome e =
        (.ok (todo.map fun f => (reportOf i d root f).records.length), e') ∧
      Reported d lo (writtenOf i d root) (done ++ todo) e' := by
  induction todo generalizing done e with
  | nil => exact ⟨e, rfl, by rwa [List.append_nil]⟩
  | cons f rest ih =>
    obtain ⟨l, content, source⟩ := sources f (by simp)
    have nonempty : ∀ g ∈ done, g.place ≠ [] := by
      intro g listed
      obtain ⟨_, _, other⟩ := sources g (by simp [listed])
      exact other.nonempty
    obtain ⟨own, shallow⟩ := granted f List.mem_cons_self
    obtain ⟨e₁, first, more⟩ := outcome_tryFile_granted linkFree ends text reached wellNamed source
      vacant own shallow nonempty reported fun g listed => ⟨apart g (by simp [listed]) f (by simp),
        apart f (by simp) g (by simp [listed])⟩
    have regroup : done ++ f :: rest = (done ++ [f]) ++ rest := by simp
    rw [regroup] at sources apart ⊢
    obtain ⟨e', others, all⟩ := ih more sources
      (fun g listed => granted g (List.mem_cons_of_mem _ listed)) apart
    exact ⟨e', outcome_reportFiles_cons.mpr ⟨_, _, _, first, others, rfl⟩, all⟩

private theorem counts_of_reportFiles {todo : List SourceFile}
    (sources : ∀ f ∈ todo, ∃ l content, IsSource d root l f content) {e e' : Disk}
    (alike : Alike HasSourceName d e) {counts : List Nat}
    (done : (reportFiles i root output todo).outcome e = (.ok counts, e')) :
    List.Forall₂ (fun f n => n = 0 ∨ n = (reportOf i d root f).records.length ∧
      d.system.refuses .write (lo ++ reportPlace f) = none ∧
        d.system.cutsOff (lo ++ reportPlace f) = none) todo counts := by
  induction todo generalizing e counts with
  | nil =>
    obtain ⟨rfl, _⟩ : [] = counts ∧ e = e' := by simpa [reportFiles, outcome_pure] using done
    exact .nil
  | cons f rest ih =>
    obtain ⟨l, content, source⟩ := sources f List.mem_cons_self
    obtain ⟨n, e₁, more, first, others, rfl⟩ := outcome_reportFiles_cons.mp done
    have kept := alike_tryFile (elsewhere_sources d.system root output (f.path root)) i
      f.language.name e alike
    rw [first] at kept
    exact .cons (count_of_tryFile linkFree ends text reached wellNamed source alike first)
      (ih (fun g listed => sources g (List.mem_cons_of_mem _ listed)) kept others)

end New

private theorem forall_of_sum_eq {α : Type} {length : α → Nat} {P : α → Prop} {items : List α}
    {counts : List Nat} (counted : List.Forall₂ (fun x n => n = 0 ∨ n = length x ∧ P x) items counts)
    (positive : ∀ x ∈ items, 0 < length x) (same : counts.sum = (items.map length).sum) :
    ∀ x ∈ items, P x := by
  have bounded {items : List α} {counts : List Nat}
      (counted : List.Forall₂ (fun x n => n = 0 ∨ n = length x ∧ P x) items counts) :
      counts.sum ≤ (items.map length).sum := by
    induction counted with
    | nil => exact Nat.le_refl _
    | cons first _ ih =>
      rw [List.map_cons, List.sum_cons, List.sum_cons]
      rcases first with rfl | ⟨rfl, _⟩ <;> omega
  induction counted with
  | nil => simp
  | @cons x n rest more first others ih =>
    have fewer := bounded others
    have own := positive x List.mem_cons_self
    rw [List.map_cons, List.sum_cons, List.sum_cons] at same
    rw [List.forall_mem_cons]
    rcases first with rfl | ⟨rfl, holds⟩
    · omega
    · exact ⟨holds, ih (fun y listed => positive y (List.mem_cons_of_mem _ listed)) (by omega)⟩

/-- Directories are new only where the system lets them be made. -/
structure Permitted (d e : Disk) : Prop where
  system : e.system = d.system
  linkFree : e.LinkFree
  made : ∀ x, e.get? x = some .directory →
    d.get? x = some .directory ∨ d.system.refuses .make x = none

namespace Permitted

variable {d : Disk}

private theorem new {e : Disk} {lo : Location} (changed : Disk.Changed d e lo .directory)
    (allowed : d.system.refuses .make lo = none) : Permitted d e := by
  refine ⟨changed.system, changed.linkFree, fun x found => ?_⟩
  rw [changed.get?] at found
  split at found
  · rename_i same
    rw [same]
    exact .inr allowed
  · exact .inl found

private theorem makeDirectory (e e' : Disk) (path : String) (permitted : Permitted d e)
    (done : e.makeDirectory path = .ok e') : Permitted d e' := by
  obtain ⟨l, _, allowed, changed⟩ := Disk.makeDirectory_ok permitted.linkFree done
  refine ⟨changed.system.trans permitted.system, changed.linkFree, fun x found => ?_⟩
  rw [changed.get?] at found
  split at found
  · rename_i same
    rw [permitted.system, ← same] at allowed
    exact .inr allowed
  · exact permitted.made x found

private theorem write (e e' : Disk) (path : String) (content : Bytes) (permitted : Permitted d e)
    (done : e.write path content = .ok e') : Permitted d e' := by
  obtain ⟨l, _, _, changed⟩ := Disk.write_ok permitted.linkFree done
  refine ⟨changed.system.trans permitted.system, changed.linkFree, fun x found => ?_⟩
  rw [changed.get?] at found
  split at found
  · cases found
  · exact permitted.made x found

private theorem reportFiles (i : Inspector) (root output : String) (files : List SourceFile) :
    Keeps (Permitted d) (reportFiles i root output files) :=
  keeps_reportFiles (fun _ permitted => permitted.system) makeDirectory
    (fun _ _ e e' target content permitted _ => write e e' target content permitted) i

end Permitted

/-- A scan into a new directory makes it and writes the reports. -/
theorem outcome_run_new {s : Scanner} (quiet : s.Quiet) {d : Disk} (linkFree : d.LinkFree)
    (clear : Bool) {root output : String} {files : List SourceFile}
    (collected : s.selection.collect d root = .ok files) {lo : Location}
    (reached : d.locate (Disk.withoutEndSlashes output) = .ok lo) (vacant : d.get? lo = none)
    (allowed : d.system.refuses .make lo = none) (nested : 0 < d.system.nesting) :
    Disk.Changed d (d.put lo .directory) lo .directory ∧ ∃ counts d',
      (reportFiles s.toInspector root output
        ((SourceFile.byLanguage files).flatMap Prod.snd)).outcome (d.put lo .directory) =
          (.ok counts, d') ∧
      (run s root output clear).outcome d = (.ok ⟨counts.sum, files.length⟩, d') := by
  obtain ⟨ends, n, text⟩ := endsInName_of_vacant linkFree reached vacant
  obtain ⟨made, changed⟩ := outcome_makeDirectories_new linkFree ends text reached vacant allowed nested
  obtain ⟨counts, d', reports, total⟩ := outcome_reportLanguages quiet root output
    (SourceFile.byLanguage files) (d.put lo .directory)
  have room : (makeRoom output clear).outcome d = (.ok (), d) := by
    rw [outcome_makeRoom, isDirectory_of_vacant linkFree ends text reached vacant, Bool.false_and,
      if_neg Bool.false_ne_true]
  refine ⟨changed, counts, d', reports, ?_⟩
  rw [outcome_run collected]
  refine outcome_bind_eq_ok.mpr ⟨(), d, room, ?_⟩
  unfold writeReports
  refine outcome_bind_eq_ok.mpr ⟨(), _, made, outcome_bind_eq_ok.mpr ⟨counts.sum, d', total, ?_⟩⟩
  rw [outcome_bind, outcome_check, quiet.print]
  rfl

/-- A scan into a new directory returns, and the reports are exactly those on its source files, with
their records counted, unless a file cannot be reported on, the system is in the way of a report, or
one report lies where another one needs a directory. -/
theorem reports_exact_iff (s : Scanner) (d : Disk) (root output : String) (clear : Bool)
    (quiet : s.Quiet) (wellNamed : d.WellNamed) (linkFree : d.LinkFree) {files : List SourceFile}
    (collected : s.selection.collect d root = .ok files) (nested : 0 < d.system.nesting)
    (shallow : ∀ f ∈ files, f.place.length ≤ d.system.nesting) {lo : Location}
    (reached : d.locate (Disk.withoutEndSlashes output) = .ok lo) (vacant : d.get? lo = none)
    (allowed : d.system.refuses .make lo = none) :
    ∃ total d', (run s root output clear).outcome d = (.ok ⟨total, files.length⟩, d') ∧
      (((∀ f ∈ files, s.report d (f.path root) = .ok (reportOf s.toInspector d root f)) ∧
          (∀ p content, (p, content) ∈ d'.filesBelow lo ↔
            ∃ f ∈ files, p = reportPlace f ∧ content = writtenOf s.toInspector d root f) ∧
          total = (files.map fun f => (reportOf s.toInspector d root f).records.length).sum) ↔
        (∀ f ∈ files, Granted s.toInspector d root lo f) ∧
          ∀ f ∈ files, ∀ g ∈ files, Disk.isBelow (reportPlace f) (reportPlace g) = false) := by
  obtain ⟨ends, n, text⟩ := endsInName_of_vacant linkFree reached vacant
  have perm := byLanguage_perm files
  have sources : ∀ f ∈ (SourceFile.byLanguage files).flatMap Prod.snd,
      ∃ l content, IsSource d root l f content :=
    fun f listed => exists_isSource linkFree collected (perm.mem_iff.mp listed)
  obtain ⟨changed, counts, d', reports, returned⟩ := outcome_run_new quiet linkFree clear
    collected reached vacant allowed nested
  refine ⟨counts.sum, d', returned, ?_⟩
  constructor
  · rintro ⟨reported, files_, total⟩
    have permitted : Permitted d d' := by
      have after := Permitted.reportFiles s.toInspector root output
        ((SourceFile.byLanguage files).flatMap Prod.snd) _ (.new changed allowed)
      rwa [reports] at after
    have file (f : SourceFile) (listed : f ∈ files) : d'.get? (lo ++ reportPlace f) =
        some (.file (writtenOf s.toInspector d root f)) :=
      ((Disk.mem_filesBelow permitted.linkFree).mp ((files_ _ _).mpr ⟨f, listed, rfl, rfl⟩)).1
    have counted := forall_of_sum_eq
      (counts_of_reportFiles linkFree ends text reached wellNamed sources (.new vacant changed)
        reports)
      (fun f listed => List.length_pos_iff.mpr
        (s.records_ne_nil_of_report (reported f (perm.mem_iff.mp listed))))
      (total.trans (perm.map _).sum_nat.symm)
    refine ⟨fun f listed => ?_, fun f first g second => ?_⟩
    · obtain ⟨writable, whole⟩ := counted f (perm.mem_iff.mpr listed)
      refine ⟨reported f listed, fun q nonempty before => ?_, writable, whole⟩
      -- above the report there are directories, and none stood there before
      have directory := Disk.get?_of_isBelow (file f listed)
        (Disk.isBelow_append_left.trans (isBelow_reportPlace before))
      refine (permitted.made _ directory).resolve_left fun old => ?_
      exact not_prefix_of_vacant vacant old (List.prefix_append _ _)
    · -- a file has directories above it, so that only one of two crossing reports can be there
      rw [Bool.eq_false_iff]
      intro below
      have upper := file f first
      rw [Disk.get?_of_isBelow (file g second) (Disk.isBelow_append_left.trans below)] at upper
      cases upper
  · rintro ⟨granted, apart⟩
    obtain ⟨d'', all, reported⟩ := outcome_reportFiles_granted (i := s.toInspector) linkFree ends text
      reached wellNamed vacant ((SourceFile.byLanguage files).flatMap Prod.snd)
      (Reported.new vacant changed) sources
      (fun f listed => ⟨granted f (perm.mem_iff.mp listed), shallow f (perm.mem_iff.mp listed)⟩)
      (fun f first g second => apart f (perm.mem_iff.mp first) g (perm.mem_iff.mp second))
    rw [reports] at all
    obtain ⟨same, rfl⟩ := Prod.mk.inj all
    refine ⟨fun f listed => (granted f listed).reported, fun p content => ?_, ?_⟩
    · rw [reported.mem_filesBelow]
      simp only [List.nil_append, perm.mem_iff]
    · rw [Except.ok.inj same]
      exact (perm.map _).sum_nat

theorem report_eq_reportOf {i : Inspector} {d : Disk} {root : String} {f : SourceFile} (bytes : Bytes)
    {text : Text} (told : d.system.absolute (f.path root) = .ok (d.fullPath (f.path root)))
    (readable : d.read (d.fullPath (f.path root)) = .ok bytes) (decoded : i.decode bytes = .ok text) :
    i.report d (f.path root) = .ok (reportOf i d root f) := by
  have reported := i.report_of_read told readable
  rw [decoded] at reported
  rw [reportOf_eq reported]
  exact reported

theorem quiet_standard (budget : Nat) (guess : Bytes → Option String) :
    (Scanner.standard budget guess).Quiet :=
  ⟨fun _ _ => rfl, fun _ => rfl⟩

theorem workDisk_wellNamed : workDisk.WellNamed :=
  ⟨by decide +kernel, by decide +kernel, by decide +kernel, by decide +kernel⟩

theorem card_reported :
    (Scanner.standard 250000 fun _ => none).Quiet ∧ workDisk.WellNamed ∧ workDisk.LinkFree ∧
      (Scanner.standard 250000 fun _ => none).selection.collect workDisk "src" =
        .ok [⟨["Card.jsx"], .javascript⟩] ∧
      workDisk.locate (Disk.withoutEndSlashes "new/") = .ok ["work", "new"] ∧
      workDisk.get? ["work", "new"] = none ∧
      ∃ d', (run (.standard 250000 fun _ => none) "src" "new/" true).outcome workDisk =
          (.ok ⟨(reportOf (Scanner.standard 250000 fun _ => none).toInspector workDisk "src"
            ⟨["Card.jsx"], .javascript⟩).records.length, 1⟩, d') ∧
        ∀ p content, (p, content) ∈ d'.filesBelow ["work", "new"] ↔ p = ["Card.jsx.json"] ∧
          content = writtenOf (Scanner.standard 250000 fun _ => none).toInspector workDisk "src"
            ⟨["Card.jsx"], .javascript⟩ := by
  have reached : workDisk.locate (Disk.withoutEndSlashes "new/") = .ok ["work", "new"] := by rfl
  have vacant : workDisk.get? ["work", "new"] = none := by decide +kernel
  refine ⟨quiet_standard _ _, workDisk_wellNamed, workDisk_linkFree, collect_workDisk _ _, reached,
    vacant, ?_⟩
  obtain ⟨total, d', done, exact⟩ := reports_exact_iff (.standard 250000 fun _ => none) workDisk
    "src" "new/" true (quiet_standard _ _) workDisk_wellNamed workDisk_linkFree (collect_workDisk _ _)
    (by decide) (by decide) reached vacant rfl
  have granted : Granted (Scanner.standard 250000 fun _ => none).toInspector workDisk "src"
      ["work", "new"] ⟨["Card.jsx"], .javascript⟩ :=
    ⟨report_eq_reportOf [49] rfl rfl rfl, fun _ _ _ => rfl, rfl, rfl⟩
  obtain ⟨_, files, rfl⟩ := exact.mpr ⟨by simpa using granted, by decide +kernel⟩
  refine ⟨d', ?_, fun p content => ?_⟩
  · rw [done, List.map_singleton, List.sum_singleton]
    rfl
  · rw [files]
    simp only [List.mem_singleton, exists_eq_left]
    rfl

-- the report on one file takes the name of the directory for the report on another one
def crossedDisk : Disk where
  entries := [(["work"], .directory), (["work", "src"], .directory),
    (["work", "src", "a.js"], .file 0), (["work", "src", "a.js.json"], .directory),
    (["work", "src", "a.js.json", "b.ts"], .file 1)]
  contents := fun n => if n = 0 then [49] else [50]
  system := .permissive "/work" 3
  unique := by decide
  rooted := by decide

private theorem crossedDisk_linkFree : crossedDisk.LinkFree := ⟨by decide, by decide⟩

private theorem crossedDisk_wellNamed : crossedDisk.WellNamed :=
  ⟨by decide +kernel, by decide +kernel, by decide +kernel, by decide +kernel⟩

private theorem collect_crossedDisk (budget : Nat) (guess : Bytes → Option String) :
    (Scanner.standard budget guess).selection.collect crossedDisk "src" =
      .ok [⟨["a.js"], .javascript⟩, ⟨["a.js.json", "b.ts"], .typescript⟩] := by
  have below : crossedDisk.filesBelow ["work", "src"] =
      [(["a.js"], [49]), (["a.js.json", "b.ts"], [50])] := by
    have both : (crossedDisk.entries.map Prod.fst).filterMap
        (Disk.filesBelow.file? crossedDisk ["work", "src"]) =
          [(["a.js"], [49]), (["a.js.json", "b.ts"], [50])] := by decide +kernel
    rw [Disk.filesBelow, both]
    exact List.mergeSort_of_pairwise (by decide +kernel)
  have reached : crossedDisk.locate (SourceFile.tidy "src") = .ok ["work", "src"] := by rfl
  rw [collect_eq reached (by decide +kernel) rfl (ignored_standard budget guess (by rfl)), below]
  rfl

private theorem isSource_crossedDisk :
    IsSource crossedDisk "src" ["work", "src"] ⟨["a.js"], .javascript⟩ [49] ∧
      IsSource crossedDisk "src" ["work", "src"] ⟨["a.js.json", "b.ts"], .typescript⟩ [50] :=
  ⟨⟨by rfl, by decide +kernel, "a.js", rfl, by decide +kernel⟩,
    ⟨by rfl, by decide +kernel, "b.ts", rfl, by decide +kernel⟩⟩

/-- The first report is a file, and nothing comes to stand below it. -/
theorem crossed_reports :
    crossedDisk.get? ["work", "new"] = none ∧
      (Scanner.standard 250000 fun _ => none).selection.collect crossedDisk "src" =
        .ok [⟨["a.js"], .javascript⟩, ⟨["a.js.json", "b.ts"], .typescript⟩] ∧
      ∃ total d', (run (.standard 250000 fun _ => none) "src" "new" true).outcome crossedDisk =
          (.ok ⟨total, 2⟩, d') ∧
        d'.content? ["work", "new", "a.js.json"] =
          some (writtenOf (Scanner.standard 250000 fun _ => none).toInspector crossedDisk "src"
            ⟨["a.js"], .javascript⟩) ∧
        d'.content? ["work", "new", "a.js.json", "b.ts.json"] = none := by
  have vacant : crossedDisk.get? ["work", "new"] = none := by decide +kernel
  refine ⟨vacant, collect_crossedDisk _ _, ?_⟩
  have reached : crossedDisk.locate (Disk.withoutEndSlashes "new") = .ok ["work", "new"] := by rfl
  have inOrder : (SourceFile.byLanguage [⟨["a.js"], .javascript⟩,
      ⟨["a.js.json", "b.ts"], .typescript⟩]).flatMap Prod.snd =
      [⟨["a.js"], .javascript⟩, ⟨["a.js.json", "b.ts"], .typescript⟩] := by rfl
  obtain ⟨ends, n, text⟩ := endsInName_of_vacant crossedDisk_linkFree reached vacant
  obtain ⟨changed, counts, d', reports, returned⟩ := outcome_run_new
    (quiet_standard 250000 fun _ => none) crossedDisk_linkFree true (collect_crossedDisk _ _) reached
    vacant rfl (by decide)
  rw [inOrder] at reports
  obtain ⟨m, d₁, more, first, second, rfl⟩ := outcome_reportFiles_cons.mp reports
  have granted : Granted (Scanner.standard 250000 fun _ => none).toInspector crossedDisk "src"
      ["work", "new"] ⟨["a.js"], .javascript⟩ :=
    ⟨report_eq_reportOf [49] rfl rfl rfl, fun _ _ _ => rfl, rfl, rfl⟩
  obtain ⟨d₂, own, reported⟩ := outcome_tryFile_granted crossedDisk_linkFree ends text reached
    crossedDisk_wellNamed isSource_crossedDisk.1 vacant granted (by decide) (by simp)
    (Reported.new vacant changed) (by simp)
  obtain rfl : d₂ = d₁ := (Prod.mk.inj (own.symm.trans first)).2
  have written : d₂.content? ["work", "new", "a.js.json"] =
      some (writtenOf (Scanner.standard 250000 fun _ => none).toInspector crossedDisk "src"
        ⟨["a.js"], .javascript⟩) :=
    Disk.content?_eq_some_iff.mpr (reported.written ⟨["a.js"], .javascript⟩ (by simp))
  have kept : d'.content? ["work", "new", "a.js.json"] = d₂.content? ["work", "new", "a.js.json"] := by
    obtain ⟨k, d₃, others, third, last, _⟩ := outcome_reportFiles_cons.mp second
    have elsewhere := elsewhere_report crossedDisk_linkFree ends text reached crossedDisk_wellNamed
      isSource_crossedDisk.2 (· = ["work", "new", "a.js.json"]) (by decide)
    rw [← reported.system] at elsewhere
    have alike := alike_tryFile elsewhere (Scanner.standard 250000 fun _ => none).toInspector
      Language.typescript.name d₂ (.refl reported.linkFree)
    rw [third] at alike
    obtain rfl : d₃ = d' := (Prod.mk.inj last).2
    exact alike.content _ rfl
  rw [written] at kept
  refine ⟨_, d', returned, kept, ?_⟩
  rw [Option.eq_none_iff_forall_ne_some]
  intro content lower
  have upper := Disk.content?_eq_some_iff.mp kept
  rw [Disk.get?_of_isBelow (Disk.content?_eq_some_iff.mp lower) (by decide)] at upper
  cases upper

end Scan
end ExportInventory
