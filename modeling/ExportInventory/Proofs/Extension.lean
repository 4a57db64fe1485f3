import ExportInventory.Analysis
import ExportInventory.Proofs.Path

/-!
What the extension of a file name tells. The language by which a file is collected and the dialects
in which it is parsed are looked up separately, the one by the extension as it stands and the other
by the extension in lower case. They fit together unless the extension is known in lower case only,
or there are only dots in front of it.
-/
namespace ExportInventory

/-- The extensions of source files. -/
def Language.extensions : List String :=
  [".ts", ".tsx", ".mts", ".cts", ".js", ".jsx", ".mjs", ".cjs"]

namespace Path

def lowered (s : String) : String := String.ofList (s.toList.map Char.toLower)

private theorem eq_dot_of_toLower {c : Char} (dot : c.toLower = '.') : c = '.' := by
  unfold Char.toLower at dot
  split at dot
  · rename_i capital
    have low : 65 ≤ c.val.toNat := UInt32.le_iff_toNat_le.mp capital.1
    have high : c.val.toNat ≤ 90 := UInt32.le_iff_toNat_le.mp capital.2
    have value : (c.val + 32).toNat = 46 := congrArg (fun d => d.val.toNat) dot
    simp only [UInt32.toNat_add, UInt32.reduceToNat] at value
    omega
  · exact dot

theorem exists_of_lowered {ext : String} (known : lowered ext ∈ Language.extensions) :
    ∃ tail, ext.toList = '.' :: tail ∧ '.' ∉ tail ∧ tail ≠ [] := by
  have shape : ∀ e ∈ Language.extensions,
      e.toList.head? = some '.' ∧ '.' ∉ e.toList.tail ∧ e.toList.tail ≠ [] := by decide
  obtain ⟨first, single, nonempty⟩ := shape _ known
  simp only [lowered, String.toList_ofList] at first single nonempty
  cases chars : ext.toList with
  | nil => simp [chars] at first
  | cons c tail =>
    simp only [chars, List.map_cons, List.head?_cons, List.tail_cons, Option.some.injEq] at *
    refine ⟨tail, ?_, ?_, by simpa using nonempty⟩
    · rw [eq_dot_of_toLower first]
    · intro member
      exact single (List.mem_map_of_mem (f := Char.toLower) member)

theorem lowered_of_mem {ext : String} (known : ext ∈ Language.extensions) : lowered ext = ext := by
  have each : ∀ e ∈ Language.extensions, lowered e = e := by decide
  exact each ext known

private theorem exists_last_dot (name : List Char) :
    '.' ∉ name ∨ ∃ before tail, name = before ++ '.' :: tail ∧ '.' ∉ tail := by
  by_cases dotted : '.' ∈ name.reverse
  · obtain ⟨tail, before, split, single⟩ := List.eq_append_cons_of_mem dotted
    refine .inr ⟨before.reverse, tail.reverse, ?_, by simpa using single⟩
    have reversed := congrArg List.reverse split
    simpa using reversed
  · exact .inl (by simpa using dotted)

private theorem takeWhile_reverse (before : List Char) {tail : List Char} (single : '.' ∉ tail) :
    (before ++ '.' :: tail).reverse.takeWhile (· ≠ '.') = tail.reverse := by
  rw [List.reverse_append, List.reverse_cons, List.append_assoc, List.takeWhile_append_of_pos]
  · simp
  · intro c member
    have other : c ≠ '.' := by
      intro same
      exact single (by simpa [same] using member)
    simpa using other

private theorem last_dot_unique {before tail before' tail' : List Char} (single : '.' ∉ tail)
    (single' : '.' ∉ tail') (same : before ++ '.' :: tail = before' ++ '.' :: tail') :
    before = before' ∧ tail = tail' := by
  have ends := takeWhile_reverse before single
  rw [same, takeWhile_reverse _ single', List.reverse_inj] at ends
  subst ends
  exact ⟨List.append_cancel_right same, rfl⟩

theorem baseName_of_not_mem {name : String} (noSlash : '/' ∉ name.toList) :
    baseName name = name := by
  rw [baseName, segments_of_not_mem noSlash]
  rfl

private theorem suffix_and_extension_of_not_mem {name : String} (undotted : '.' ∉ name.toList)
    (noSlash : '/' ∉ name.toList) : SourceFile.suffix name = "" ∧ extension name = "" := by
  have whole : name.toList.reverse.takeWhile (· ≠ '.') = name.toList.reverse := by
    rw [← List.append_nil name.toList.reverse, List.takeWhile_append_of_pos]
    · simp
    · intro c member
      have other : c ≠ '.' := by
        intro same
        exact undotted (by simpa [same] using member)
      simpa using other
  constructor
  · rw [SourceFile.suffix, whole, List.drop_length]
  · rw [extension, baseName_of_not_mem noSlash, splitDot, whole, List.drop_length]

section LastDot

variable {name : String} {before tail : List Char} (split : name.toList = before ++ '.' :: tail)
  (single : '.' ∉ tail)

include split single in
private theorem suffix_of_last_dot :
    SourceFile.suffix name =
      if before = [] ∨ tail = [] then "" else String.ofList ('.' :: tail) := by
  have behind : (before ++ '.' :: tail).reverse.drop tail.length = '.' :: before.reverse := by
    simp
  rw [SourceFile.suffix, split, takeWhile_reverse _ single, List.length_reverse, behind]
  cases reversed : before.reverse with
  | nil =>
    have empty : before = [] := List.reverse_eq_nil_iff.mp reversed
    simp [empty]
  | cons c cs =>
    have nonempty : before ≠ [] := by
      intro empty
      simp [empty] at reversed
    simp [nonempty]

include split single in
private theorem extension_of_last_dot (noSlash : '/' ∉ name.toList) :
    extension name = if before.all (· = '.') then "" else String.ofList ('.' :: tail) := by
  have behind : (before ++ '.' :: tail).reverse.drop tail.length = '.' :: before.reverse := by
    simp
  rw [extension, baseName_of_not_mem noSlash, splitDot, split, takeWhile_reverse _ single,
    List.length_reverse, behind]
  simp only [List.all_reverse]
  split <;> simp

end LastDot
end Path

open Script (Dialect)

theorem Language.ofExtension?_eq_none_iff {ext : String} :
    ofExtension? ext = none ↔ ext ∉ extensions := by
  have parts : extensions =
      [".ts", ".tsx", ".mts", ".cts"] ++ [".js", ".jsx", ".mjs", ".cjs"] := rfl
  rw [parts, List.mem_append, not_or, ofExtension?]
  split
  · rename_i known
    simp [known]
  · rename_i other
    split
    · rename_i known
      simp [known]
    · rename_i unknown
      simp [other, unknown]

namespace Script.Dialect

/-- The dialects that the extension of a path is listed with. -/
def listed? (path : String) : Option (List Dialect) :=
  ofExtension? (Path.lowered (Path.extension path))

theorem ofExtension?_cases (ext : String) :
    (Language.ofExtension? ext = some .typescript ∧
        (ofExtension? ext = some [typescript, tsx] ∨ ofExtension? ext = some [tsx])) ∨
      (Language.ofExtension? ext = some .javascript ∧ ofExtension? ext = some [javascript]) ∨
      (Language.ofExtension? ext = none ∧ ofExtension? ext = none) := by
  by_cases known : ext ∈ Language.extensions
  · revert ext
    decide
  · refine .inr (.inr ⟨Language.ofExtension?_eq_none_iff.mpr known, ?_⟩)
    apply List.lookup_eq_none_iff.mpr
    intro entry member
    have inside : entry.1 ∈ Language.extensions := by
      revert entry
      decide
    simp only [bne_iff_ne]
    intro same
    exact known (same ▸ inside)

end Script.Dialect

namespace SourceFile

/-- A file is collected as of a typed language, of the other one or not at all, just as its
extension is listed with the typed dialects, with the other one or not, so that it gets the standard
dialect. -/
structure Agrees (name : String) : Prop where
  typed : Language.ofExtension? (suffix name) = some .typescript ↔
    ∃ ds, Dialect.listed? name = some ds ∧ ∀ d ∈ ds, d = .typescript ∨ d = .tsx
  untyped : Language.ofExtension? (suffix name) = some .javascript ↔
    Dialect.listed? name = some [.javascript]
  other : Language.ofExtension? (suffix name) = none ↔
    Dialect.listed? name = none ∧ Dialect.ofPath name = [.javascript]

private theorem agrees_iff_same (name : String) :
    Agrees name ↔ Language.ofExtension? (suffix name) =
      Language.ofExtension? (Path.lowered (Path.extension name)) := by
  have standard : Dialect.ofPath name = (Dialect.listed? name).getD [.javascript] := rfl
  constructor
  · intro ⟨typed, untyped, other⟩
    rcases Dialect.ofExtension?_cases (Path.lowered (Path.extension name)) with
      ⟨language, listed⟩ | ⟨language, listed⟩ | ⟨language, listed⟩
    · rw [language, typed]
      rcases listed with listed | listed
      · exact ⟨_, listed, by decide⟩
      · exact ⟨_, listed, by decide⟩
    · rw [language, untyped]
      exact listed
    · rw [language, other, standard]
      have none : Dialect.listed? name = none := listed
      simp [none]
  · intro same
    rw [Dialect.listed?] at standard
    rcases Dialect.ofExtension?_cases (Path.lowered (Path.extension name)) with
      ⟨language, listed | listed⟩ | ⟨language, listed⟩ | ⟨language, listed⟩
    all_goals
      rw [listed] at standard
      constructor <;> rw [same, language, Dialect.listed?, listed] <;> simp [standard]

/-- Only dots in front of a known extension, and there are some. -/
def OnlyDots (name : String) : Prop :=
  ∃ dots ext : String, name = dots ++ ext ∧ ext ∈ Language.extensions ∧ dots ≠ "" ∧
    ∀ c ∈ dots.toList, c = '.'

/-- The extension is known in lower case but not as it stands. -/
def OnlyLowered (name : String) : Prop :=
  ∃ stem ext : String, name = stem ++ ext ∧ Path.lowered ext ∈ Language.extensions ∧
    ext ∉ Language.extensions ∧ ∃ c ∈ stem.toList, c ≠ '.'

section LastDot

variable {name : String} {before tail : List Char} (split : name.toList = before ++ '.' :: tail)
  (single : '.' ∉ tail)

include split single in
theorem split_of_lowered {stem ext : String} (whole : name = stem ++ ext)
    (known : Path.lowered ext ∈ Language.extensions) :
    stem.toList = before ∧ ext = String.ofList ('.' :: tail) := by
  obtain ⟨tail', chars, single', _⟩ := Path.exists_of_lowered known
  have same : before ++ '.' :: tail = stem.toList ++ '.' :: tail' := by
    rw [← split, ← chars, whole, String.toList_append]
  obtain ⟨rfl, rfl⟩ := Path.last_dot_unique single single' same
  exact ⟨rfl, String.toList_inj.mp (by rw [chars, String.toList_ofList])⟩

include split in
private theorem eq_append_of_last_dot :
    name = String.ofList before ++ String.ofList ('.' :: tail) := by
  apply String.toList_inj.mp
  simp [split]

include split single in
private theorem onlyDots_iff : OnlyDots name ↔ String.ofList ('.' :: tail) ∈ Language.extensions ∧
    before ≠ [] ∧ ∀ c ∈ before, c = '.' := by
  constructor
  · intro ⟨dots, ext, whole, known, nonempty, all⟩
    obtain ⟨rfl, rfl⟩ := split_of_lowered split single whole (by rwa [Path.lowered_of_mem known])
    exact ⟨known, by simpa using nonempty, all⟩
  · intro ⟨known, nonempty, all⟩
    exact ⟨_, _, eq_append_of_last_dot split, known, by simpa using nonempty, by simpa using all⟩

include split single in
private theorem onlyLowered_iff : OnlyLowered name ↔
    Path.lowered (String.ofList ('.' :: tail)) ∈ Language.extensions ∧
      String.ofList ('.' :: tail) ∉ Language.extensions ∧ ¬∀ c ∈ before, c = '.' := by
  constructor
  · intro ⟨stem, ext, whole, known, other, solid⟩
    obtain ⟨rfl, rfl⟩ := split_of_lowered split single whole known
    exact ⟨known, other, by simpa using solid⟩
  · intro ⟨known, other, solid⟩
    exact ⟨_, _, eq_append_of_last_dot split, known, other, by simpa using solid⟩

include split single in
/-- The scan looks at everything behind the last dot, unless that is the first character. -/
theorem ofExtension?_suffix : Language.ofExtension? (suffix name) =
    if before = [] then none else Language.ofExtension? (String.ofList ('.' :: tail)) := by
  rw [Path.suffix_of_last_dot split single]
  by_cases first : before = []
  · rw [if_pos (.inl first), if_pos first]
    decide
  · rw [if_neg first]
    by_cases last : tail = []
    · rw [if_pos (.inr last), last]
      decide
    · rw [if_neg (not_or.mpr ⟨first, last⟩)]

include split single in
private theorem ofExtension?_extension (noSlash : '/' ∉ name.toList) :
    Language.ofExtension? (Path.lowered (Path.extension name)) =
      if before.all (· = '.') then none
      else Language.ofExtension? (Path.lowered (String.ofList ('.' :: tail))) := by
  rw [Path.extension_of_last_dot split single noSlash]
  cases before.all (· = '.') with
  | true =>
    rw [if_pos rfl, if_pos rfl]
    decide
  | false => rfl

end LastDot

/-- The two ways to look up the extension of a file name agree, unless there are only dots in front
of it or it is known in lower case only. -/
theorem agrees_iff {name : String} (noSlash : '/' ∉ name.toList) :
    Agrees name ↔ ¬OnlyDots name ∧ ¬OnlyLowered name := by
  rw [agrees_iff_same]
  rcases Path.exists_last_dot name.toList with undotted | ⟨before, tail, split, single⟩
  · obtain ⟨suffix, extension⟩ := Path.suffix_and_extension_of_not_mem undotted noSlash
    have dotted {stem ext : String} (whole : name = stem ++ ext) :
        Path.lowered ext ∉ Language.extensions := by
      intro known
      obtain ⟨tail, chars, _⟩ := Path.exists_of_lowered known
      apply undotted
      simp [whole, chars]
    rw [suffix, extension]
    refine iff_of_true (by decide) ⟨?_, ?_⟩
    · intro ⟨dots, ext, whole, known, _⟩
      exact dotted whole (by rwa [Path.lowered_of_mem known])
    · intro ⟨stem, ext, whole, known, _⟩
      exact dotted whole known
  · rw [onlyDots_iff split single, onlyLowered_iff split single, ofExtension?_suffix split single,
      ofExtension?_extension split single noSlash]
    by_cases dots : ∀ c ∈ before, c = '.'
    · have all : before.all (· = '.') = true := by simpa using dots
      rw [if_pos all, and_iff_left fun lowered => lowered.2.2 dots]
      by_cases first : before = []
      · exact iff_of_true (if_pos first) fun known => known.2.1 first
      · rw [if_neg first, Language.ofExtension?_eq_none_iff]
        exact not_congr (and_iff_left ⟨first, dots⟩).symm
    · have first : before ≠ [] := by
        intro empty
        simp [empty] at dots
      have other : ¬before.all (· = '.') = true := by simpa using dots
      rw [if_neg other, if_neg first, and_iff_right fun known => dots known.2.2]
      by_cases known : String.ofList ('.' :: tail) ∈ Language.extensions
      · rw [Path.lowered_of_mem known]
        exact iff_of_true rfl fun lowered => lowered.2.1 known
      · rw [Language.ofExtension?_eq_none_iff.mpr known, eq_comm, Language.ofExtension?_eq_none_iff]
        exact not_congr (and_iff_left ⟨known, dots⟩).symm

theorem dotted_agrees : Agrees "nav..test.mts" ∧
    Language.ofExtension? (suffix "nav..test.mts") = some .typescript := by
  have small : ("nav..test.mts".toList.all fun c => c.toLower == c) = true := by decide
  refine ⟨(agrees_iff (by decide)).mpr ⟨?_, ?_⟩, by decide⟩
  · intro ⟨dots, ext, whole, known, nonempty, all⟩
    obtain ⟨c, rest, chars⟩ := List.exists_cons_of_ne_nil (mt String.toList_eq_nil_iff.mp nonempty)
    have first := congrArg (·.toList.head?) whole
    simp [chars] at first
    exact absurd (all c (by simp [chars])) (by rw [← first]; decide)
  · intro ⟨stem, ext, whole, known, other, _⟩
    have same : Path.lowered ext = ext := by
      apply String.toList_inj.mp
      rw [Path.lowered, String.toList_ofList]
      refine (List.map_congr_left fun c member => ?_).trans (List.map_id _)
      apply eq_of_beq (List.all_eq_true.mp small c ?_)
      rw [whole, String.toList_append]
      exact List.mem_append_right _ member
    exact other (same ▸ known)

/-- A file in capitals is not collected, and one whose name starts with two dots is collected but
parsed in the wrong dialect. -/
theorem capitals_disagree :
    (Language.ofExtension? (suffix "View.TSX") = none ∧ Dialect.listed? "View.TSX" = some [.tsx] ∧
        ¬Agrees "View.TSX") ∧
      Language.ofExtension? (suffix "..ts") = some .typescript ∧ Dialect.listed? "..ts" = none ∧
        Dialect.ofPath "..ts" = [.javascript] ∧ ¬Agrees "..ts" := by
  have capitals : Language.ofExtension? (suffix "View.TSX") = none := by decide
  have dots : Dialect.listed? "..ts" = none := by decide
  refine ⟨⟨capitals, by decide, ?_⟩, by decide, dots, by decide, ?_⟩
  · intro agrees
    exact absurd (agrees.other.mp capitals).1 (by decide)
  · intro agrees
    exact absurd (agrees.other.mpr ⟨dots, by decide⟩) (by decide)

end SourceFile
end ExportInventory
