import ExportInventory.Proofs.Report
import ExportInventory.Sketch.Report

/-!
Reports by the look of a text. Every export that is found can be looked up in the text again, and
the reports are consistent.
-/
namespace ExportInventory

namespace Text

private theorem find?_isSome {s : String} {t : Text} {k : Nat}
    (occurs : startsWith (t.drop k) s = true)
    (index : Nat) : (find? s t index).isSome = true := by
  induction t generalizing k index with
  | nil =>
    have empty : s.isEmpty = true := by
      simpa [startsWith, ofString, List.isPrefixOf_iff_prefix] using occurs
    simp [find?, empty]
  | cons c rest ih =>
    rw [find?]
    split
    · rfl
    · rename_i later
      cases k with
      | zero => exact absurd occurs later
      | succ k => exact ih (by simpa using occurs) (index + 1)

private theorem indexFrom?_isSome {s : String} {t : Text} {start k : Nat} (bound : start ≤ t.length)
    (occurs : startsWith ((t.drop start).drop k) s = true) :
    (t.indexFrom? s start).isSome = true := by
  rw [indexFrom?, if_neg (Nat.not_lt.mpr bound)]
  exact find?_isSome occurs start

private theorem words_go_ne_nil {current t : Text}
    (word : current ≠ [] ∨ ∃ c ∈ t, c.isBlank = false) : words.go current t ≠ [] := by
  induction t generalizing current with
  | nil =>
    rcases word with some | ⟨c, member, _⟩
    · simp [words.go, some]
    · cases member
  | cons c rest ih =>
    rw [words.go]
    split
    · rename_i blank
      split
      · rename_i empty
        refine ih (.inr ?_)
        rcases word with some | ⟨d, member, solid⟩
        · exact absurd (List.isEmpty_iff.mp empty) some
        · rcases List.mem_cons.mp member with rfl | later
          · rw [blank] at solid
            cases solid
          · exact ⟨d, later, solid⟩
      · exact List.cons_ne_nil _ _
    · exact ih (.inl (List.cons_ne_nil _ _))

private theorem exists_mem_strip {t : Text} (solid : t.strip ≠ []) :
    ∃ c ∈ t.strip, c.isBlank = false := by
  have some : stripLeft (stripLeft t).reverse ≠ [] := by simpa [strip] using solid
  refine ⟨(stripLeft (stripLeft t).reverse).head some, ?_, ?_⟩
  · exact List.mem_reverse.mpr (List.head_mem some)
  · exact List.head_dropWhile_not CodePoint.isBlank some

private theorem words_ne_nil_of_mem_splitTopLevel {t : Text} {sep : CodePoint} {item : Text}
    (member : item ∈ t.splitTopLevel sep) : words item ≠ [] := by
  obtain ⟨part, solid⟩ := List.mem_filter.mp member
  obtain ⟨raw, _, rfl⟩ := List.mem_map.mp part
  have some : raw.strip ≠ [] := by simpa using solid
  exact words_go_ne_nil (.inr (exists_mem_strip some))

end Text

namespace Sketch
namespace Matcher

variable {α β : Type}

theorem bind_eq_some {m : Matcher α} {f : α → Matcher β} {place : Place} {result : β × Place}
    (ok : (m >>= f) place = some result) :
    ∃ a behind, m place = some (a, behind) ∧ f a behind = some result := by
  obtain ⟨⟨a, behind⟩, first, second⟩ := Option.bind_eq_some_iff.mp ok
  exact ⟨a, behind, first, second⟩

theorem literal_eq_some {s : String} {place behind : Place} {u : Unit}
    (ok : literal s place = some (u, behind)) :
    Text.startsWith place.rest s = true ∧ behind = place.skip (Text.ofString s) := by
  unfold literal at ok
  split at ok
  · rename_i starts
    obtain ⟨_, rfl⟩ := Prod.mk.inj (Option.some.inj ok)
    exact ⟨starts, rfl⟩
  · cases ok

private theorem gap_eq_some {place behind : Place} {u : Unit} (ok : gap place = some (u, behind)) :
    ∃ k, behind.rest = place.rest.drop k := by
  obtain ⟨c, inside, blank, more⟩ := bind_eq_some ok
  obtain ⟨read, after, spanned, done⟩ := bind_eq_some more
  have skipped : behind.rest = inside.rest.drop read.length := by
    obtain ⟨_, rfl⟩ := Prod.mk.inj (Option.some.inj done)
    obtain ⟨rfl, rfl⟩ := Prod.mk.inj (Option.some.inj spanned)
    rfl
  have first : inside.rest = place.rest.drop 1 := by
    unfold one at blank
    split at blank
    · cases blank
    · rename_i rest equal
      split at blank
      · obtain ⟨_, rfl⟩ := Prod.mk.inj (Option.some.inj blank)
        rw [equal]
        rfl
      · cases blank
  exact ⟨1 + read.length, by rw [skipped, first, List.drop_drop]⟩

theorem mem_occurrences {m : Matcher α} {skip offset i : Nat} {previous : Option CodePoint}
    {t : Text} {a : α} (member : (i, a) ∈ occurrences m skip previous offset t) :
    ∃ before k behind, k < t.length ∧ i = offset + k ∧
      m ⟨before, i, t.drop k⟩ = some (a, behind) := by
  induction t generalizing skip previous offset with
  | nil => cases member
  | cons c rest ih =>
    have later {skip : Nat} (found : (i, a) ∈ occurrences m skip (some c) (offset + 1) rest) :
        ∃ before k behind, k < (c :: rest).length ∧ i = offset + k ∧
          m ⟨before, i, (c :: rest).drop k⟩ = some (a, behind) := by
      obtain ⟨before, k, behind, bound, index, fits⟩ := ih found
      exact ⟨before, k + 1, behind, Nat.succ_lt_succ bound, by omega, fits⟩
    rw [occurrences.eq_def] at member
    cases skip with
    | succ skip => exact later member
    | zero =>
      dsimp only at member
      split at member
      · rename_i result stop fits
        rcases List.mem_cons.mp member with here | found
        · obtain ⟨rfl, rfl⟩ := Prod.mk.inj here
          exact ⟨previous, 0, stop, Nat.succ_pos _, rfl, fits⟩
        · exact later found
      · exact later member

theorem mem_all {m : Matcher α} {t : Text} {i : Nat} {a : α} (member : (i, a) ∈ m.all t) :
    i < t.length ∧ ∃ before behind, m ⟨before, i, t.drop i⟩ = some (a, behind) := by
  obtain ⟨before, k, behind, bound, index, fits⟩ := mem_occurrences member
  rw [Nat.zero_add] at index
  subst index
  exact ⟨bound, before, behind, fits⟩

end Matcher

open Matcher

private theorem exportDefault_eq_some {place : Place} {result : Unit × Place}
    (ok : exportDefault place = some result) :
    ∃ k, Text.startsWith (place.rest.drop k) "default" = true := by
  obtain ⟨_, first, exported, ok⟩ := bind_eq_some ok
  obtain ⟨_, second, spaced, ok⟩ := bind_eq_some ok
  obtain ⟨_, third, word, _⟩ := bind_eq_some ok
  have skipped := (literal_eq_some exported).2
  obtain ⟨k, rest⟩ := gap_eq_some spaced
  have starts := (literal_eq_some word).1
  refine ⟨(Text.ofString "export").length + k, ?_⟩
  rw [rest, skipped] at starts
  simpa [Place.skip, List.drop_drop] using starts

private theorem indexFrom?_of_anonymousDefault {t : Text} {i : Nat}
    (found : (i, ()) ∈ anonymousDefault.all t) : (t.indexFrom? "default" i).isSome = true := by
  obtain ⟨bound, before, behind, fits⟩ := mem_all found
  obtain ⟨_, _, exported, _⟩ := bind_eq_some fits
  obtain ⟨k, starts⟩ := exportDefault_eq_some exported
  exact Text.indexFrom?_isSome (Nat.le_of_lt bound) starts

namespace Strategy

private theorem not_anonymous_of_listed? {offset : Nat} {item : Text} {found : FoundExport}
    (listed : listed? offset item = some found) : found.anonymous = false := by
  unfold listed? at listed
  cases words : (Text.words item).map Text.toString with
  | nil =>
    rw [words] at listed
    cases listed
  | cons name more =>
    rw [words] at listed
    rcases ite_eq_iff.mp listed with ⟨_, none⟩ | ⟨_, listed⟩
    · cases none
    · rcases ite_eq_iff.mp listed with ⟨_, same⟩ | ⟨_, same⟩
      · exact (congrArg FoundExport.anonymous (Option.some.inj same)).symm
      · exact (congrArg FoundExport.anonymous (Option.some.inj same)).symm

theorem anonymous_of_scan {s : Strategy} {t : Text} {fileName : String} {found : FoundExport}
    (member : found ∈ s.scan t fileName) (anonymous : found.anonymous = true) :
    (found.offset, ()) ∈ anonymousDefault.all t := by
  cases s with
  | connector =>
    rcases List.mem_append.mp (List.mem_mergeSort.mp member) with direct | bound
    · obtain ⟨_, _, rfl⟩ := List.mem_map.mp direct
      cases anonymous
    · obtain ⟨_, _, rfl⟩ := List.mem_map.mp bound
      cases anonymous
  | wrapper =>
    obtain ⟨_, _, rfl⟩ := List.mem_map.mp member
    cases anonymous
  | default =>
    rcases List.mem_append.mp (List.mem_mergeSort.mp member) with named | inline
    · rcases List.mem_append.mp named with declared | alone
      · obtain ⟨_, _, rfl⟩ := List.mem_map.mp declared
        cases anonymous
      · obtain ⟨_, _, rfl⟩ := List.mem_map.mp alone
        cases anonymous
    · obtain ⟨⟨offset, _⟩, inside, rfl⟩ := List.mem_map.mp inline
      exact inside
  | namedDeclaration =>
    obtain ⟨_, _, rfl⟩ := List.mem_map.mp member
    cases anonymous
  | exportList =>
    obtain ⟨⟨offset, items, reexport⟩, _, inside⟩ := List.mem_flatMap.mp member
    dsimp only at inside
    split at inside
    · cases inside
    · obtain ⟨item, _, listed⟩ := List.mem_filterMap.mp inside
      rw [not_anonymous_of_listed? listed] at anonymous
      cases anonymous

end Strategy

namespace FoundExports

def members (e : FoundExports) : List FoundExport := e.default.toList ++ e.named

private theorem mem_members_of_ordered {e : FoundExports} {found : FoundExport}
    (member : found ∈ e.ordered) : found ∈ e.members := by
  unfold ordered at member
  unfold members
  cases chosen : e.default with
  | none => simpa [chosen] using member
  | some d =>
    rw [chosen] at member
    rcases List.mem_cons.mp member with rfl | named
    · exact List.mem_cons_self
    · exact List.mem_cons_of_mem _ (List.mem_filter.mp named).1

private theorem mem_members_add {e : FoundExports} {x found : FoundExport}
    (member : found ∈ (e.add x).members) : found ∈ e.members ∨ found = x := by
  unfold add at member
  split at member
  · split at member
    · exact .inl member
    · rename_i none
      rcases List.mem_cons.mp member with same | named
      · exact .inr same
      · exact .inl (List.mem_append_right _ named)
  · split at member
    · exact .inl member
    · rw [members, ← List.append_assoc] at member
      rcases List.mem_append.mp member with before | last
      · exact .inl before
      · exact .inr (List.mem_singleton.mp last)

private theorem mem_members_foldl_add {all : List FoundExport} {e : FoundExports}
    {found : FoundExport}
    (member : found ∈ (all.foldl add e).members) : found ∈ e.members ∨ found ∈ all := by
  induction all generalizing e with
  | nil => exact .inl member
  | cons x rest ih =>
    rcases ih member with before | later
    · rcases mem_members_add before with old | rfl
      · exact .inl old
      · exact .inr List.mem_cons_self
    · exact .inr (List.mem_cons_of_mem _ later)

theorem exists_scan_of_ordered {t : Text} {fileName : String} {strategies : List Strategy}
    {found : FoundExport} (member : found ∈ (discover t fileName strategies).ordered) :
    ∃ s ∈ strategies, found ∈ s.scan t fileName := by
  rcases mem_members_foldl_add (mem_members_of_ordered member) with initial | scanned
  · cases initial
  · obtain ⟨s, present, inside⟩ := List.mem_flatMap.mp scanned
    exact ⟨s, present, inside⟩

private theorem countP_default_ordered_le (e : FoundExports) :
    e.ordered.countP (fun found => e.default.map (·.name) = some found.name) ≤ 1 := by
  unfold ordered
  cases e.default with
  | none => simp
  | some d =>
    have others : (e.named.filter (fun n => n.name ≠ d.name)).countP
        (fun found => (some d).map (·.name) = some found.name) = 0 := by
      rw [List.countP_eq_zero]
      intro found member same
      have different := (List.mem_filter.mp member).2
      simp_all
    rw [List.countP_cons, others]
    split <;> omega

end FoundExports

private theorem ofExport_ok {t : Text} {found : FoundExport}
    (word : found.anonymous = true → (t.indexFrom? "default" found.offset).isSome = true) :
    ∃ region, Region.ofExport t found = .ok region := by
  unfold Region.ofExport
  split
  · rename_i anonymous
    obtain ⟨i, index⟩ := Option.isSome_iff_exists.mp (word anonymous)
    rw [index]
    exact ⟨_, rfl⟩
  · exact ⟨_, rfl⟩

namespace Analysis

/-- Nothing that is looked up in the text is missing: each export has its region or none, and each
item of a list of exports has a first word. -/
structure IsWellPosed (a : Analysis) : Prop where
  region : ∀ found ∈ a.exports.ordered, ∃ region, Region.ofExport a.text found = .ok region
  firstWord : ∀ entry ∈ exportList.all a.text, ∀ item ∈ Text.splitTopLevel entry.2.1 ',',
    Text.words item ≠ []

theorem isWellPosed_ofText (t : Text) (path : String) (fragmentMarkup : Text → Bool) :
    (ofText t path fragmentMarkup).IsWellPosed := by
  constructor
  · intro found member
    obtain ⟨s, _, scanned⟩ := FoundExports.exists_scan_of_ordered member
    refine ofExport_ok fun anonymous => ?_
    exact indexFrom?_of_anonymousDefault (Strategy.anonymous_of_scan scanned anonymous)
  · intro entry _ item member
    exact Text.words_ne_nil_of_mem_splitTopLevel member

variable (a : Analysis)

private theorem record_isDefault (c : Candidate) (kind : RecordKind) :
    (a.record c kind).isDefault = decide (a.defaultName? = some c.found.name) := by
  unfold record Record.isDefault
  by_cases default : a.defaultName? = some c.found.name <;> simp [default]

private theorem countP_candidates_le :
    a.candidates.countP (fun c => a.defaultName? = some c.found.name) ≤ 1 := by
  refine Nat.le_trans (Report.countP_filterMap_le ?_ a.exports.ordered)
    (FoundExports.countP_default_ordered_le a.exports)
  intro found c given default
  split at given
  · rw [← Option.some.inj given] at default
    exact default
  · cases given

theorem exists_record_of_strict {c : Candidate} {r : Record} (given : a.strict c = some r) :
    ∃ kind, r = a.record c kind := by
  obtain ⟨kind, _, rfl⟩ := Option.map_eq_some_iff.mp given
  exact ⟨kind, rfl⟩

theorem exists_record_of_permissive {c : Candidate} {r : Record} (given : a.permissive c = some r) :
    ∃ kind, r = a.record c kind := by
  unfold permissive at given
  split at given
  · exact ⟨.component, (Option.some.inj given).symm⟩
  · exact a.exists_record_of_strict given

/-- At most one record is a default export, since at most one candidate has the name of it. -/
theorem countP_records_le : a.records.countP Record.isDefault ≤ 1 := by
  have bound {pass : Candidate → Option Record}
      (described : ∀ c r, pass c = some r → ∃ kind, r = a.record c kind) :
      (a.candidates.filterMap pass).countP Record.isDefault ≤ 1 := by
    refine Nat.le_trans (Report.countP_filterMap_le ?_ a.candidates) a.countP_candidates_le
    intro c r given default
    obtain ⟨kind, rfl⟩ := described c r given
    rw [record_isDefault] at default
    exact default
  unfold records
  dsimp only
  split
  · exact bound fun _ _ => a.exists_record_of_strict
  · exact bound fun _ _ => a.exists_record_of_permissive

theorem isConsistent_report : a.report.IsConsistent := by
  unfold report
  dsimp only
  split
  · exact Report.isConsistent_ofRecords List.countP_le_length a.path
  · exact Report.isConsistent_ofRecords a.countP_records_le a.path

end Analysis
end Sketch
end ExportInventory
