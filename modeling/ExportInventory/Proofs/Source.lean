import ExportInventory.Proofs.Directory
import ExportInventory.Proofs.FileAnalysis

/-!
Source files below the root of a scan: the places that their paths name, what is reported on them
while they stay as they are, and where the reports go.
-/
namespace ExportInventory

/-- Names as file systems have them, and a working directory that is written from the root on. -/
structure Disk.WellNamed (d : Disk) : Prop where
  entries : ∀ x ∈ d.entries, ∀ name ∈ x.1, Path.IsName name
  spelled : ∀ x ∈ d.entries, ∀ name ∈ x.1, d.system.fault? name = none
  rooted : Path.isAbsolute d.system.workingDirectory = true
  workingDirectory : ∀ name ∈ Path.names d.system.workingDirectory, name ∉ [".", ".."]

namespace Path

private theorem mem_intercalate {names : List String} {c : Char}
    (member : c ∈ ("/".intercalate names).toList) :
    c = '/' ∨ ∃ name ∈ names, c ∈ name.toList := by
  induction names using List.reverseRecOn with
  | nil => simp at member
  | append_singleton names name ih =>
    by_cases single : names = []
    · subst single
      rw [String.toList_intercalate] at member
      exact .inr ⟨name, by simp, by simpa using member⟩
    · rw [intercalate_concat single] at member
      rcases List.mem_append.mp member with before | behind
      · rcases ih before with slash | ⟨other, listed, inside⟩
        · exact .inl slash
        · exact .inr ⟨other, List.mem_append_left _ listed, inside⟩
      · rcases List.mem_cons.mp behind with slash | inside
        · exact .inl slash
        · exact .inr ⟨name, by simp, inside⟩

theorem intercalate_ne_empty {names : List String} (nonempty : names ≠ [])
    (named : ∀ name ∈ names, IsName name) : "/".intercalate names ≠ "" := by
  intro empty
  have split := segments_intercalate nonempty fun name member => (named name member).noSlash
  rw [empty, segments_nil] at split
  exact (named "" (by simp [← split])).proper (by simp)

private theorem walk_segments {path : String} (plain : ∀ name ∈ names path, name ∉ [".", ".."]) :
    walk [] (segments path) = names path := by
  have same : (segments path).filter (fun s => s ≠ "" ∧ s ≠ ".") = names path := by
    refine List.filter_congr fun name member => ?_
    by_cases empty : name = ""
    · simp [empty]
    · have dot : name ≠ "." := by
        rintro rfl
        exact plain "." (List.mem_filter.mpr ⟨member, rfl⟩) (by simp)
      simp [empty, dot]
  rw [← walk_filter, same, walk_of_proper, List.nil_append]
  intro name member
  have dots := plain name member
  have nonempty : name ≠ "" := by
    rintro rfl
    exact absurd (List.mem_filter.mp member).2 (by decide)
  simp_all

end Path

namespace Disk

variable {d : Disk} {system : System}

theorem takes_of_ascii {c : Char} (ascii : c ≠ Char.ofNat 0 ∧ c.toNat < 128) :
    system.takes c = true := by
  simp [System.takes, ascii]

theorem fault?_append {first second : String} (spelled : system.fault? first = none)
    (spelled' : system.fault? second = none) : system.fault? (first ++ second) = none := by
  rw [fault?_eq_none_iff] at spelled spelled' ⊢
  intro c member
  rw [String.toList_append] at member
  exact (List.mem_append.mp member).elim (spelled c) (spelled' c)

theorem fault?_slash : system.fault? "/" = none := by
  rw [fault?_eq_none_iff]
  intro c member
  obtain rfl : c = '/' := by simpa using member
  exact takes_of_ascii (by decide)

theorem fault?_lead {lead : String} (leads : lead ∈ ["/", "//"]) : system.fault? lead = none := by
  simp only [List.mem_cons, List.not_mem_nil, or_false] at leads
  rcases leads with rfl | rfl
  · exact fault?_slash
  · exact fault?_append fault?_slash fault?_slash

theorem fault?_intercalate {names : List String}
    (spelled : ∀ name ∈ names, system.fault? name = none) :
    system.fault? ("/".intercalate names) = none := by
  rw [fault?_eq_none_iff]
  intro c member
  rcases Path.mem_intercalate member with rfl | ⟨name, listed, inside⟩
  · exact takes_of_ascii (by decide)
  · exact fault?_eq_none_iff.mp (spelled name listed) c inside

theorem fault?_join {base path : String} (spelled : system.fault? base = none)
    (spelled' : system.fault? path = none) : system.fault? (Path.join base path) = none := by
  unfold Path.join
  split_ifs
  · exact spelled'
  · exact fault?_append spelled spelled'
  · exact fault?_append (fault?_append spelled fault?_slash) spelled'

private theorem locate_lead (linkFree : d.LinkFree) {lead : String} (leads : lead ∈ ["/", "//"])
    {l : Location} (nonempty : l ≠ []) (named : ∀ name ∈ l, Path.IsName name)
    (spelled : ∀ name ∈ l, d.system.fault? name = none) {e : Entry} (found : d.get? l = some e) :
    d.locate (lead ++ "/".intercalate l) = .ok l := by
  have absolute := Path.isAbsolute_lead leads ("/".intercalate l)
  have proper : ∀ name ∈ l, name ∉ ["", ".", ".."] := fun name member => (named name member).proper
  obtain ⟨n, split⟩ := Path.segments_lead leads ("/".intercalate l)
  rw [Path.segments_intercalate nonempty fun name member => (named name member).noSlash] at split
  refine (locate_iff linkFree).mpr ⟨?_, Path.ne_empty_of_isAbsolute absolute, ?_, ?_⟩
  · exact fault?_append (fault?_lead leads) (fault?_intercalate spelled)
  · rw [origin, if_pos absolute, split, leads_empties get?_nil]
    exact leads_names proper found
  · rw [origin, if_pos absolute, split, Path.walk_empties, Path.walk_of_proper proper]
    rfl

theorem start_eq_origin (wellNamed : d.WellNamed) (path : String) :
    Path.start d.system.workingDirectory path = d.origin path := by
  unfold Path.start origin
  rw [Path.walk_segments wellNamed.workingDirectory]

end Disk

namespace Scan

/-- The place of the report on a file, below the output directory. -/
def reportPlace (f : SourceFile) : Location :=
  f.place.dropLast ++ [f.place.getLast?.getD "" ++ ".json"]

theorem reportPlace_of_concat {f : SourceFile} {above : Location} {name : String}
    (place : f.place = above ++ [name]) : reportPlace f = above ++ [name ++ ".json"] := by
  rw [reportPlace, place, List.dropLast_concat, List.getLast?_concat, Option.getD_some]

theorem intercalate_reportPlace {f : SourceFile} (nonempty : f.place ≠ []) :
    "/".intercalate (reportPlace f) = f.relativePath ++ ".json" := by
  obtain ⟨above, last, place⟩ := (List.eq_nil_or_concat f.place).resolve_left nonempty
  rw [List.concat_eq_append] at place
  rw [reportPlace_of_concat place, SourceFile.relativePath, place, ← String.toList_inj,
    String.toList_append]
  by_cases single : above = []
  · subst single
    simp
  · rw [Path.intercalate_concat single, Path.intercalate_concat single, String.toList_append,
      List.append_assoc, List.cons_append]

theorem reportPlace_ne_nil (f : SourceFile) : reportPlace f ≠ [] := by simp [reportPlace]

theorem place_eq_of_reportPlace {f g : SourceFile} (first : f.place ≠ []) (second : g.place ≠ [])
    (same : reportPlace f = reportPlace g) : f.place = g.place := by
  obtain ⟨above, name, place⟩ := (List.eq_nil_or_concat f.place).resolve_left first
  obtain ⟨above', name', place'⟩ := (List.eq_nil_or_concat g.place).resolve_left second
  rw [List.concat_eq_append] at place place'
  rw [reportPlace_of_concat place, reportPlace_of_concat place'] at same
  obtain ⟨rfl, last⟩ := List.append_inj' same rfl
  have text := congrArg String.toList (List.singleton_inj.mp last)
  rw [String.toList_append, String.toList_append] at text
  obtain rfl := String.toList_inj.mp (List.append_cancel_right text)
  rw [place, place']

theorem isBelow_reportPlace {f : SourceFile} {q : Location} (before : q <+: f.place.dropLast) :
    Disk.isBelow q (reportPlace f) = true := by
  obtain ⟨behind, split⟩ := before
  rw [Disk.isBelow_iff, reportPlace, ← split]
  cases behind with
  | nil => exact ⟨_, [], by rw [List.append_nil]⟩
  | cons name rest => exact ⟨name, rest ++ _, by rw [List.append_assoc]; rfl⟩

private theorem isName_report {name : String} (named : Path.IsName name) :
    Path.IsName (name ++ ".json") := by
  refine ⟨?_, ?_⟩
  · intro member
    have short : ∀ s ∈ ["", ".", ".."], s.length < 5 := by decide
    have long : 5 ≤ (name ++ ".json").length := by
      rw [String.length_append]
      exact Nat.le_add_left 5 _
    exact absurd (short _ member) (Nat.not_lt.mpr long)
  · rw [String.toList_append, List.mem_append, not_or]
    exact ⟨named.noSlash, by decide⟩

private theorem fault?_report {system : System} {name : String}
    (spelled : system.fault? name = none) :
    system.fault? (name ++ ".json") = none := by
  refine Disk.fault?_append spelled (Disk.fault?_eq_none_iff.mpr fun c member => ?_)
  have letter : c ∈ ['.', 'j', 's', 'o', 'n'] := by simpa using member
  simp only [List.mem_cons, List.not_mem_nil, or_false] at letter
  rcases letter with rfl | rfl | rfl | rfl | rfl
  all_goals exact Disk.takes_of_ascii (by decide)

/-- A file of the disk that lies below the root of a scan. -/
structure IsSource (d : Disk) (root : String) (l : Location) (f : SourceFile) (content : Bytes) :
    Prop where
  root : d.locate (SourceFile.tidy root) = .ok l
  found : d.content? (l ++ f.place) = some content
  source : HasSourceName f.place

theorem exists_isSource {s : Selection} {d : Disk} (linkFree : d.LinkFree) {root : String}
    {files : List SourceFile} (collected : s.collect d root = .ok files) {f : SourceFile}
    (listed : f ∈ files) : ∃ l content, IsSource d root l f content := by
  obtain ⟨l, content, place, found, source⟩ := mem_collect linkFree collected listed
  exact ⟨l, content, place, Disk.content?_eq_some_iff.mpr found, source⟩

namespace IsSource

variable {d : Disk} {root : String} {l : Location} {f : SourceFile} {content : Bytes}
  (source : IsSource d root l f content)
include source

theorem nonempty : f.place ≠ [] := by
  obtain ⟨name, last, _⟩ := source.source
  intro empty
  rw [empty] at last
  cases last

variable (wellNamed : d.WellNamed)
include wellNamed

theorem named : ∀ name ∈ l ++ f.place, Path.IsName name ∧ d.system.fault? name = none := by
  obtain ⟨node, member, _⟩ := (Disk.get?_eq_some_iff (by simp [source.nonempty])).mp
    (Disk.content?_eq_some_iff.mp source.found)
  intro name inside
  exact ⟨wellNamed.entries _ member name inside, wellNamed.spelled _ member name inside⟩

theorem namedPlace : ∀ name ∈ f.place, Path.IsName name :=
  fun name member => (source.named wellNamed name (List.mem_append_right _ member)).1

theorem relative : Path.isAbsolute f.relativePath = false :=
  Path.isAbsolute_intercalate fun name member =>
    ⟨(source.namedPlace wellNamed name member).ne_nil, (source.namedPlace wellNamed name member).noSlash⟩

private theorem path_ne_empty : f.path root ≠ "" := by
  have some := Path.intercalate_ne_empty source.nonempty (source.namedPlace wellNamed)
  unfold SourceFile.path SourceFile.pathUnder
  dsimp only
  split
  · exact some
  · unfold Path.join SourceFile.relativePath
    split
    · exact some
    · split <;> simp [some]

theorem named_reportPlace :
    ∀ name ∈ reportPlace f, Path.IsName name ∧ d.system.fault? name = none := by
  obtain ⟨above, last, place⟩ := (List.eq_nil_or_concat f.place).resolve_left source.nonempty
  rw [List.concat_eq_append] at place
  have named := source.named wellNamed
  rw [place] at named
  rw [reportPlace_of_concat place]
  intro name member
  rcases List.mem_append.mp member with before | new
  · exact named name (by simp [before])
  · obtain ⟨proper, spelled⟩ := named last (by simp)
    rw [List.mem_singleton.mp new]
    exact ⟨isName_report proper, fault?_report spelled⟩

variable (linkFree : d.LinkFree)
include linkFree

theorem names_root : Path.names (d.fullPath root) = l := by
  obtain ⟨_, absolute, same⟩ := Path.tidy_spec root
  obtain ⟨_, _, _, walked⟩ := (Disk.locate_iff linkFree).mp source.root
  have from_ : d.origin (SourceFile.tidy root) = d.origin root := by
    unfold Disk.origin
    rw [absolute]
  rw [Disk.fullPath, Path.names_absolute wellNamed.rooted, Disk.start_eq_origin wellNamed, walked,
    same, from_]

theorem walk_path : Path.walk (Path.start d.system.workingDirectory (f.path root))
    (Path.segments (f.path root)) = l ++ f.place := by
  have relative := source.relative wellNamed
  have whole := source.names_root wellNamed linkFree
  rw [Disk.fullPath, Path.names_absolute wellNamed.rooted] at whole
  have from_ : Path.start d.system.workingDirectory (f.path root) =
      Path.start d.system.workingDirectory root := by
    unfold Path.start SourceFile.path
    rw [Path.isAbsolute_pathUnder relative]
  unfold SourceFile.path at from_ ⊢
  rw [from_, Path.walk_pathUnder relative, whole, SourceFile.relativePath,
    Path.segments_intercalate source.nonempty
      fun name member => (source.namedPlace wellNamed name member).noSlash]
  exact Path.walk_of_proper (fun name member => (source.namedPlace wellNamed name member).proper) l

theorem names_path : Path.names (d.fullPath (f.path root)) = l ++ f.place := by
  rw [Disk.fullPath, Path.names_absolute wellNamed.rooted, source.walk_path wellNamed linkFree]

private theorem locate_path {e : Disk} (clean : e.LinkFree) (same : e.system = d.system)
    (found : e.content? (l ++ f.place) = some content) :
    e.locate (d.fullPath (f.path root)) = .ok (l ++ f.place) := by
  obtain ⟨lead, leads, text⟩ := Path.absolute_eq wellNamed.rooted (f.path root)
  rw [source.walk_path wellNamed linkFree] at text
  have named := source.named wellNamed
  rw [← same] at named
  rw [Disk.fullPath, text]
  exact Disk.locate_lead clean leads (by simp [source.nonempty])
    (fun name member => (named name member).1) (fun name member => (named name member).2)
    (Disk.content?_eq_some_iff.mp found)

/-- What is reported on a file depends on the system and its own content only. -/
theorem report_eq {e : Disk} (clean : e.LinkFree) (same : e.system = d.system)
    (found : e.content? (l ++ f.place) = some content) (i : Inspector) :
    i.report e (f.path root) = i.report d (f.path root) := by
  apply i.report_congr same
  rw [Disk.read, Disk.read, source.locate_path wellNamed linkFree clean same found,
    source.locate_path wellNamed linkFree linkFree rfl source.found]
  dsimp only
  rw [Disk.content?_eq_some_iff.mp found, Disk.content?_eq_some_iff.mp source.found, Disk.refusal?,
    Disk.refusal?, same]

theorem reportPath_eq_ok_iff {output target : String} :
    reportPath d.system (f.path root) root output = .ok target ↔
      (Path.isAbsolute root = true ∨ d.system.lost = none) ∧
        target = Path.join output ("/".intercalate (reportPlace f)) := by
  have seen := Path.relative_eq (source.names_path wellNamed linkFree)
    (source.names_root wellNamed linkFree)
    (Path.intercalate_ne_empty source.nonempty (source.namedPlace wellNamed))
  have rooted : Path.isAbsolute (f.path root) = Path.isAbsolute root :=
    Path.isAbsolute_pathUnder (source.relative wellNamed) root
  have body : Path.relative (d.fullPath (f.path root)) (d.fullPath root) ++ ".json" =
      "/".intercalate (reportPlace f) := by
    rw [seen, intercalate_reportPlace source.nonempty, SourceFile.relativePath]
  rw [Scan.reportPath_eq_ok_iff]
  constructor
  · rintro ⟨_, origin, full, told, told', same⟩
    obtain ⟨known, start⟩ := Disk.absolute_eq_ok_iff.mp told
    rw [start, (Disk.absolute_eq_ok_iff.mp told').2] at same
    exact ⟨known, same.trans (congrArg (Path.join output) body)⟩
  · rintro ⟨known, same⟩
    refine ⟨source.path_ne_empty wellNamed, d.fullPath root, d.fullPath (f.path root),
      Disk.absolute_eq_ok_iff.mpr ⟨known, rfl⟩, Disk.absolute_eq_ok_iff.mpr ⟨?_, rfl⟩,
      same.trans (congrArg (Path.join output) body.symm)⟩
    rwa [rooted]

theorem reportPath_of_report {i : Inspector} {r : Report} (reported : i.report d (f.path root) = .ok r)
    (output : String) : reportPath d.system (f.path root) root output =
      .ok (Path.join output ("/".intercalate (reportPlace f))) := by
  refine (source.reportPath_eq_ok_iff wellNamed linkFree).mpr ⟨?_, rfl⟩
  rw [← Path.isAbsolute_pathUnder (source.relative wellNamed) root]
  cases told : d.system.absolute (f.path root) with
  | error e =>
    rw [i.report_of_absolute_error told] at reported
    cases reported
  | ok full => exact (Disk.absolute_eq_ok_iff.mp told).1

end IsSource
end Scan
end ExportInventory
