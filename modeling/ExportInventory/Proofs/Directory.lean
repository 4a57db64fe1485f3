import ExportInventory.Proofs.Frame

/-!
Where paths lead on a file system without links, and what making a directory with all those above it
comes to.
-/
namespace ExportInventory

namespace Disk

variable {d : Disk} {here : Location}

theorem leads_append {before behind : List String} :
    d.Leads here (before ++ behind) ↔
      d.Leads here before ∧ d.Leads (Path.walk here before) behind := by
  induction before generalizing here with
  | nil => simp [Leads, Path.walk]
  | cons name rest ih =>
    have walked : Path.walk here (name :: rest) = Path.walk (Path.walk here [name]) rest :=
      Path.walk_append here [name] rest
    rw [List.cons_append, Leads, Leads, ih, walked, and_assoc]

private theorem Leads.mono {d' : Disk}
    (kept : ∀ x, d.get? x = some .directory → d'.get? x = some .directory)
    {names : List String} (leads : d.Leads here names) : d'.Leads here names := by
  induction names generalizing here with
  | nil => trivial
  | cons name rest ih => exact ⟨kept here leads.1, ih leads.2⟩

theorem leads_empties (directory : d.get? here = some .directory) (n : Nat) (names : List String) :
    d.Leads here (List.replicate n "" ++ names) ↔ d.Leads here names := by
  induction n with
  | zero => rfl
  | succ n ih =>
    have stays : Path.walk here [""] = here := Path.walk_empties here 1 []
    rw [List.replicate_succ, List.cons_append, Leads, stays, ih]
    exact and_iff_right directory

theorem leads_names {names : List String} (proper : ∀ name ∈ names, name ∉ ["", ".", ".."]) {e : Entry}
    (found : d.get? (here ++ names) = some e) : d.Leads here names := by
  induction names generalizing here with
  | nil => trivial
  | cons name rest ih =>
    have next : here ++ name :: rest = (here ++ [name]) ++ rest := by simp
    have first : ∀ other ∈ [name], other ∉ ["", ".", ".."] := by
      intro other single
      exact proper other (by simp [List.mem_singleton.mp single])
    refine ⟨get?_of_isBelow found (isBelow_iff.mpr ⟨name, rest, rfl⟩), ?_⟩
    rw [Path.walk_of_proper first]
    rw [next] at found
    exact ih (fun other member => proper other (List.mem_cons_of_mem _ member)) found

private theorem Leads.above_of_vacant {names : List String} (leads : d.Leads here names)
    (nonempty : names ≠ []) (vacant : d.get? (Path.walk here names) = none) :
    d.get? (Path.walk here names).dropLast = some .directory := by
  obtain ⟨before, name, rfl⟩ := (List.eq_nil_or_concat names).resolve_left nonempty
  rw [List.concat_eq_append] at leads vacant ⊢
  have directory := (leads_append.mp leads).2.1
  rw [Path.walk_append] at vacant ⊢
  generalize Path.walk here before = between at directory vacant ⊢
  simp only [Path.walk] at vacant ⊢
  split_ifs at vacant ⊢ with quiet up
  · rw [directory] at vacant
    cases vacant
  · by_cases root : between = []
    · rw [root] at vacant
      cases vacant
    · rw [get?_dropLast root directory] at vacant
      cases vacant
  · rw [List.dropLast_concat]
    exact directory

theorem Leads.directory {names rest : List String} (leads : d.Leads here (names ++ rest))
    (directory : d.get? (Path.walk here (names ++ rest)) = some .directory) :
    d.get? (Path.walk here names) = some .directory := by
  cases rest with
  | nil => rwa [List.append_nil] at directory
  | cons name rest => exact (leads_append.mp leads).2.1

theorem origin_of_append {path front : String} {rest : List Char}
    (text : path.toList = front.toList ++ rest) (nonempty : front ≠ "") :
    Path.isAbsolute front = Path.isAbsolute path ∧ d.origin front = d.origin path := by
  obtain ⟨c, cs, first⟩ := List.exists_cons_of_ne_nil (mt String.toList_eq_nil_iff.mp nonempty)
  have same : Path.isAbsolute front = Path.isAbsolute path := by simp [Path.isAbsolute, text, first]
  exact ⟨same, by rw [origin, origin, same]⟩

section Locate

variable (linkFree : d.LinkFree) {path : String} {l : Location}
include linkFree

private theorem above_of_vacant (reached : d.locate path = .ok l) (vacant : d.get? l = none) :
    d.get? l.dropLast = some .directory := by
  obtain ⟨_, _, leads, rfl⟩ := (locate_iff linkFree).mp reached
  exact leads.above_of_vacant (Path.segments_ne_nil _) vacant

theorem locate_mono {d' : Disk} (linkFree' : d'.LinkFree)
    (kept : ∀ x, d.get? x = some .directory → d'.get? x = some .directory)
    (same : d'.system = d.system) (reached : d.locate path = .ok l) : d'.locate path = .ok l := by
  obtain ⟨spelled, nonempty, leads, rfl⟩ := (locate_iff linkFree).mp reached
  have start : d'.origin path = d.origin path := by rw [origin, origin, same]
  rw [← same] at spelled
  refine (locate_iff linkFree').mpr ⟨spelled, nonempty, ?_, ?_⟩
  · rw [start]
    exact leads.mono kept
  · rw [start]

theorem locate_slashes {n : Nat} (slashes : path.toList = List.replicate (n + 1) '/') :
    d.locate path = .ok [] := by
  have absolute : Path.isAbsolute path = true :=
    Path.isAbsolute_iff.mpr ⟨List.replicate n '/', by rw [slashes, List.replicate_succ]⟩
  have whole : path.toList = "".toList ++ List.replicate (n + 1) '/' ++ "".toList := by
    simp [slashes]
  have names : Path.segments path = List.replicate (n + 2) "" ++ [] := by
    rw [Path.segments_slashes whole, Path.segments_nil, List.append_nil, List.replicate_succ,
      List.replicate_succ']
    rfl
  refine (locate_iff linkFree).mpr ⟨?_, Path.ne_empty_of_isAbsolute absolute, ?_, ?_⟩
  · rw [fault?_eq_none_iff, slashes]
    intro c member
    rw [List.eq_of_mem_replicate member]
    simp [System.takes]
  · rw [origin, if_pos absolute, names, leads_empties get?_nil]
    trivial
  · rw [origin, if_pos absolute, names, Path.walk_empties]
    rfl

variable {above behind : String} {n : Nat}
  (text : path.toList = above.toList ++ List.replicate (n + 1) '/' ++ behind.toList)
include text

theorem locate_above (nonempty : above ≠ "") (reached : d.locate path = .ok l) :
    ∃ between, d.locate above = .ok between ∧ d.get? between = some .directory := by
  obtain ⟨spelled, _, leads, _⟩ := (locate_iff linkFree).mp reached
  have parts := text.trans (List.append_assoc _ _ _)
  rw [← (origin_of_append parts nonempty).2, Path.segments_slashes text, List.append_assoc, leads_append] at leads
  refine ⟨Path.walk (d.origin above) (Path.segments above), (locate_iff linkFree).mpr
    ⟨fault?_of_append parts spelled, nonempty, leads.1, rfl⟩, ?_⟩
  -- a name is followed from there, be it an empty one
  obtain ⟨name, rest, names⟩ : ∃ name rest,
      List.replicate n "" ++ Path.segments behind = name :: rest :=
    List.exists_cons_of_ne_nil (by simp [Path.segments_ne_nil])
  rw [names] at leads
  exact leads.2.1

theorem locate_behind (noSlash : '/' ∉ behind.toList) (spelled : d.system.fault? path = none)
    (directory : d.get? l = some .directory)
    (reached : above = "" ∧ l = [] ∨ d.locate above = .ok l) :
    d.locate path = .ok (Path.walk l [behind]) := by
  have nonempty : path ≠ "" := by
    rintro rfl
    simp [List.replicate_succ] at text
  have last : d.Leads l (List.replicate n "" ++ [behind]) :=
    (leads_empties directory n _).mpr ⟨directory, trivial⟩
  refine (locate_iff linkFree).mpr ⟨spelled, nonempty, ?_⟩
  rw [Path.segments_slashes text, Path.segments_of_not_mem noSlash, List.append_assoc,
    leads_append, Path.walk_append, Path.walk_empties]
  rcases reached with ⟨rfl, rfl⟩ | place
  · have root : d.origin path = [] := by simp [origin, Path.isAbsolute, text, List.replicate_succ]
    have stays : Path.walk [] (Path.segments "") = [] := by
      rw [Path.segments_nil]
      rfl
    rw [root, stays]
    exact ⟨⟨⟨get?_nil, trivial⟩, last⟩, rfl⟩
  · obtain ⟨_, some, leads, rfl⟩ := (locate_iff linkFree).mp place
    rw [← (origin_of_append (text.trans (List.append_assoc _ _ _)) some).2]
    exact ⟨⟨leads, last⟩, rfl⟩

theorem locate_step (named : Path.IsName behind) (spelled : d.system.fault? path = none)
    (reached : d.locate above = .ok l) (directory : d.get? l = some .directory) :
    d.locate path = .ok (l ++ [behind]) := by
  have proper : ∀ name ∈ [behind], name ∉ ["", ".", ".."] := by simpa using named.proper
  rw [← Path.walk_of_proper proper l]
  exact locate_behind linkFree text named.noSlash spelled directory (.inr reached)

end Locate

private theorem pathExists_directory (linkFree : d.LinkFree) {path : String} {l : Location}
    (reached : d.locate path = .ok l) (nonempty : Path.directory path ≠ "") :
    d.pathExists (Path.directory path) = true := by
  rcases Path.directory_cases path with empty | ⟨n, slashes⟩ | ⟨_, n, behind, text⟩
  · exact absurd empty nonempty
  · exact pathExists_iff.mpr
      ⟨[], .directory, locate_slashes linkFree (n := n) (by simp [slashes]), get?_nil⟩
  · have whole : path.toList = (Path.directory path).toList ++ List.replicate (n + 1) '/' ++
        (String.ofList behind).toList := by simpa using text
    obtain ⟨between, place, directory⟩ := locate_above linkFree whole nonempty reached
    exact pathExists_iff.mpr ⟨between, .directory, place, directory⟩

end Disk

namespace Path

/-- A path that goes on from a base through names, with slashes before each of them. -/
inductive Spells (base : String) : String → Location → Prop
  | here : Spells base base []
  | step {path longer name : String} {names : Location} {n : Nat} (before : Spells base path names)
      (named : IsName name)
      (text : longer.toList = path.toList ++ List.replicate (n + 1) '/' ++ name.toList) :
      Spells base longer (names ++ [name])

theorem endsInName_of_text {path above name : String} {n : Nat} (named : IsName name)
    (text : path.toList = above.toList ++ List.replicate (n + 1) '/' ++ name.toList) :
    EndsInName path := by
  obtain ⟨cs, c, last⟩ := (List.eq_nil_or_concat name.toList).resolve_left named.ne_nil
  rw [List.concat_eq_append] at last
  refine ⟨above.toList ++ List.replicate (n + 1) '/' ++ cs, c, ?_, ?_⟩
  · rw [text, last, List.append_assoc _ cs]
  · rintro rfl
    exact named.noSlash (by simp [last])

private theorem Spells.of_concat {base longer name : String} {names : Location}
    (spells : Spells base longer (names ++ [name])) : ∃ path n, Spells base path names ∧
      IsName name ∧ longer.toList = path.toList ++ List.replicate (n + 1) '/' ++ name.toList := by
  generalize whole : names ++ [name] = all at spells
  cases spells with
  | here => simp at whole
  | step before named text =>
    obtain ⟨rfl, last⟩ := List.append_inj' whole rfl
    obtain rfl := List.singleton_inj.mp last
    exact ⟨_, _, before, named, text⟩

private theorem join_text {output stripped : String} {n : Nat} (ends : EndsInName stripped)
    (text : output.toList = stripped.toList ++ List.replicate n '/') :
    ∃ m, ∀ path, isAbsolute path = false → (join output path).toList =
      stripped.toList ++ List.replicate (m + 1) '/' ++ path.toList := by
  have nonempty : output ≠ "" := by
    rintro rfl
    have empty := text.symm
    simp at empty
    exact ends.ne_empty empty.1
  unfold join
  cases n with
  | zero =>
    obtain ⟨cs, c, last, other⟩ := ends
    refine ⟨0, fun path relative => ?_⟩
    rw [relative, if_neg Bool.false_ne_true, if_neg (by simp [nonempty, text, last, other])]
    simp [text]
  | succ n =>
    have last : output.toList.getLast? = some '/' := by
      rw [text, List.replicate_succ', ← List.append_assoc, List.getLast?_concat]
    refine ⟨n, fun path relative => ?_⟩
    rw [relative, if_neg Bool.false_ne_true, if_pos (by simp [last]), String.toList_append, text]

theorem spells_join {output stripped : String} {n : Nat} (ends : EndsInName stripped)
    (text : output.toList = stripped.toList ++ List.replicate n '/') {names : Location}
    (nonempty : names ≠ []) (named : ∀ name ∈ names, IsName name) :
    Spells stripped (join output ("/".intercalate names)) names := by
  obtain ⟨m, joined⟩ := join_text ends text
  have relative {l : Location} (named : ∀ name ∈ l, IsName name) :
      isAbsolute ("/".intercalate l) = false :=
    isAbsolute_intercalate fun name member => ⟨(named name member).ne_nil, (named name member).noSlash⟩
  induction names using List.reverseRecOn with
  | nil => exact absurd rfl nonempty
  | append_singleton names name ih =>
    have front : ∀ other ∈ names, IsName other := fun other member => named other (by simp [member])
    have last : IsName name := named name (by simp)
    by_cases single : names = []
    · subst single
      have only : "/".intercalate ([] ++ [name]) = name := by
        rw [← String.toList_inj, String.toList_intercalate]
        simp
      refine .step (n := m) .here last ?_
      rw [joined _ (relative named), only]
    · refine .step (n := 0) (ih single front) last ?_
      rw [joined _ (relative named), joined _ (relative front), intercalate_concat single]
      simp

namespace Spells

variable {base path : String} {names : Location} (spells : Spells base path names)
include spells

theorem endsInName (ends : EndsInName base) : EndsInName path := by
  cases spells with
  | here => exact ends
  | step before named text => exact endsInName_of_text named text

private theorem exists_append : ∃ rest, path.toList = base.toList ++ rest := by
  induction spells with
  | here => exact ⟨[], (List.append_nil _).symm⟩
  | step before named text ih =>
    obtain ⟨rest, front⟩ := ih
    exact ⟨_, by rw [text, front, List.append_assoc, List.append_assoc]⟩

private theorem walk (here : Location) :
    Path.walk here (segments path) = Path.walk here (segments base) ++ names := by
  induction spells with
  | here => rw [List.append_nil]
  | @step path longer name names n before named text ih =>
    have proper : ∀ other ∈ [name], other ∉ ["", ".", ".."] := by simpa using named.proper
    rw [segments_slashes text, List.append_assoc, walk_append, walk_empties,
      segments_of_not_mem named.noSlash, ih, walk_of_proper proper, List.append_assoc]

variable {d : Disk} (linkFree : d.LinkFree) {l : Location} (reached : d.locate base = .ok l)
include linkFree reached

theorem eq_of_locate {e : Disk} (linkFree' : e.LinkFree) (same : e.system = d.system)
    {place : Location} (found : e.locate path = .ok place) : place = l ++ names := by
  obtain ⟨_, nonempty, _, rfl⟩ := (Disk.locate_iff linkFree).mp reached
  obtain ⟨_, _, _, rfl⟩ := (Disk.locate_iff linkFree').mp found
  obtain ⟨rest, text⟩ := spells.exists_append
  have start : e.origin path = d.origin base := by
    rw [(Disk.origin_of_append (d := d) text nonempty).2, Disk.origin, Disk.origin, same]
  rw [start, spells.walk]

theorem locate (spelled : d.system.fault? path = none) {e : Entry}
    (found : d.get? (l ++ names) = some e) : d.locate path = .ok (l ++ names) := by
  induction spells generalizing e with
  | here => rw [List.append_nil, reached]
  | @step path longer name names n before named text ih =>
    have above : d.get? (l ++ names) = some .directory :=
      Disk.get?_of_isBelow found (Disk.isBelow_iff.mpr ⟨name, [], by simp⟩)
    have front := Disk.fault?_of_append (text.trans (List.append_assoc _ _ _)) spelled
    rw [← List.append_assoc]
    exact Disk.locate_step linkFree text named spelled (ih front above) above

end Spells
end Path

namespace Action

section Ensure

variable {d : Disk} (linkFree : d.LinkFree) {path : String} {l : Location}
include linkFree

theorem outcome_ensureDirectory_new (place : d.locate (Disk.withoutEndSlashes path) = .ok l)
    (vacant : d.get? l = none) (allowed : d.system.refuses .make l = none) :
    (ensureDirectory path).outcome d = (.ok (), d.put l .directory) ∧
      Disk.Changed d (d.put l .directory) l .directory := by
  have above := Disk.above_of_vacant linkFree place vacant
  have accepted : d.refusal? .make path l = none := Disk.refusal?_eq_none.mpr allowed
  have made : d.makeDirectory path = .ok (d.put l .directory) := by
    simp only [Disk.makeDirectory, (Disk.resolve_eq_ok_iff linkFree).mpr place, vacant, accepted,
      Disk.create, above]
  rw [outcome_ensureDirectory, made]
  exact ⟨rfl, Disk.changed_put linkFree (by simp) above (by simp [vacant])⟩

theorem outcome_ensureDirectory_old (place : d.locate (Disk.withoutEndSlashes path) = .ok l)
    (found : d.get? l = some .directory) (there : d.isDirectory path = true) :
    (ensureDirectory path).outcome d = (.ok (), d) := by
  have refused : d.makeDirectory path = .error (.alreadyExists path) := by
    simp only [Disk.makeDirectory, (Disk.resolve_eq_ok_iff linkFree).mpr place, found]
  rw [outcome_ensureDirectory, refused]
  simp [there, Failure.ofFileSystem]

theorem outcome_ensureDirectory_named (ends : Path.EndsInName path) (place : d.locate path = .ok l)
    (directory : d.get? l = some .directory) : (ensureDirectory path).outcome d = (.ok (), d) := by
  refine outcome_ensureDirectory_old linkFree (l := l) ?_ directory
    (Disk.isDirectory_iff.mpr ⟨l, place, directory⟩)
  rw [ends.withoutEndSlashes]
  exact place

end Ensure

/-- The second disk has directories at a place and on all the names below it, and is else the same. -/
structure Extended (d d' : Disk) (l names : Location) : Prop where
  linkFree : d'.LinkFree
  system : d'.system = d.system
  made : ∀ q, q <+: names → d'.get? (l ++ q) = some .directory
  kept : ∀ x, (∀ q, q <+: names → x ≠ l ++ q) → d'.get? x = d.get? x

namespace Extended

variable {d d' : Disk} {l names : Location}

private theorem refl (linkFree : d.LinkFree) (directory : d.get? (l ++ names) = some .directory) :
    Extended d d l names := by
  refine ⟨linkFree, rfl, fun q before => ?_, fun _ _ => rfl⟩
  rcases Disk.isBelow_or_eq_of_prefix before with below | rfl
  · exact Disk.get?_of_isBelow directory (Disk.isBelow_append_left.trans below)
  · exact directory

theorem directory (extended : Extended d d' l names) (x : Location)
    (before : d.get? x = some .directory) : d'.get? x = some .directory := by
  by_cases within : ∃ q, q <+: names ∧ x = l ++ q
  · obtain ⟨q, above, rfl⟩ := within
    exact extended.made q above
  · rw [extended.kept x fun q above same => within ⟨q, above, same⟩]
    exact before

theorem unmade (extended : Extended d d' l names) (name : String) :
    d'.get? (l ++ (names ++ [name])) = d.get? (l ++ (names ++ [name])) := by
  refine extended.kept _ fun q before same => ?_
  obtain rfl := List.append_cancel_left same
  have shorter := before.length_le
  rw [List.length_append, List.length_singleton] at shorter
  omega

end Extended

theorem outcome_ensureDirectory_step {d e : Disk} {path longer name : String} {l names : Location}
    {n : Nat} (extended : Extended d e l names) (place : e.locate path = .ok (l ++ names))
    (named : Path.IsName name)
    (text : longer.toList = path.toList ++ List.replicate (n + 1) '/' ++ name.toList)
    (spelled : d.system.fault? longer = none) (noFile : d.content? (l ++ (names ++ [name])) = none)
    (allowed : d.system.refuses .make (l ++ (names ++ [name])) = none) :
    ∃ d', (ensureDirectory longer).outcome e = (.ok (), d') ∧
      Extended d d' l (names ++ [name]) := by
  have ends := Path.endsInName_of_text named text
  have above := extended.made names (List.prefix_refl _)
  have unmade := extended.unmade name
  rw [← extended.system] at spelled allowed
  have here := Disk.locate_step extended.linkFree text named spelled place above
  rw [List.append_assoc] at here
  cases entry : e.get? (l ++ (names ++ [name])) with
  | none =>
    obtain ⟨made, changed⟩ := outcome_ensureDirectory_new extended.linkFree
      (by rw [ends.withoutEndSlashes]; exact here) entry allowed
    refine ⟨_, made, changed.linkFree, changed.system.trans extended.system, ?_, ?_⟩
    · intro q before
      rw [changed.get?]
      split
      · rfl
      · rename_i other
        rcases List.prefix_concat_iff.mp before with rfl | within
        · exact absurd rfl other
        · exact extended.made q within
    · intro x outside
      rw [changed.get?, if_neg (outside _ (List.prefix_refl _))]
      exact extended.kept x fun q before => outside q (before.trans (List.prefix_append _ _))
  | some old =>
    rw [← Disk.content?_congr unmade] at noFile
    have directory := Disk.directory_of_content? extended.linkFree entry noFile
    refine ⟨e, outcome_ensureDirectory_named extended.linkFree ends here directory,
      extended.linkFree, extended.system, ?_, ?_⟩
    · intro q before
      rcases List.prefix_concat_iff.mp before with rfl | within
      · exact directory
      · exact extended.made q within
    · intro x outside
      exact extended.kept x fun q before => outside q (before.trans (List.prefix_append _ _))

section Step

variable {path head tail : String} (last : Disk.lastName path = (head, tail)) {d : Disk}
  (nesting : Nat)
include last

theorem outcome_makeDirectoriesWithin_there
    (there : head = "" ∨ tail = "" ∨ d.pathExists head = true) :
    (makeDirectoriesWithin (nesting + 1) path).outcome d = (ensureDirectory path).outcome d := by
  have skipped : (!head.isEmpty && !tail.isEmpty && !d.pathExists head) = false := by
    rcases there with empty | empty | old
    · simp [empty]
    · simp [empty]
    · simp [old]
  unfold makeDirectoriesWithin
  rw [outcome_get_bind]
  simp only [last, skipped, Bool.false_eq_true, if_false]

theorem outcome_makeDirectoriesWithin_missing {e : Disk} (first : head ≠ "") (second : tail ≠ "")
    (missing : d.pathExists head = false)
    (made : (makeDirectoriesWithin nesting head).outcome d = (.ok (), e)) :
    (makeDirectoriesWithin (nesting + 1) path).outcome d =
      if tail = "." then (.ok (), e) else (ensureDirectory path).outcome e := by
  have taken : (!head.isEmpty && !tail.isEmpty && !d.pathExists head) = true := by
    simp [first, second, missing]
  unfold makeDirectoriesWithin
  rw [outcome_get_bind]
  simp only [last]
  rw [taken, if_pos rfl, outcome_bind, outcome_tryCatch, made]
  dsimp only
  split <;> rfl

end Step

theorem outcome_makeDirectoriesWithin_of_locate {d : Disk} (linkFree : d.LinkFree)
    {path stripped : String} {l : Location} {n : Nat} (ends : Path.EndsInName stripped)
    (text : path.toList = stripped.toList ++ List.replicate n '/')
    (reached : d.locate stripped = .ok l) {nesting : Nat} (nested : 0 < nesting) :
    (makeDirectoriesWithin nesting path).outcome d = (ensureDirectory path).outcome d := by
  obtain ⟨nesting, rfl⟩ := Nat.exists_eq_add_one.mpr nested
  apply outcome_makeDirectoriesWithin_there (Path.lastName_of_text ends text)
  by_cases empty : Path.directory stripped = ""
  · exact .inl empty
  · exact .inr (.inr (Disk.pathExists_directory linkFree reached empty))

section Within

variable {base : String} (ends : Path.EndsInName base) {d : Disk} (linkFree : d.LinkFree) {l : Location}
  (reached : d.locate base = .ok l) (directory : d.get? l = some .directory)
include ends linkFree reached directory

theorem outcome_makeDirectoriesWithin {path : String} {names : Location}
    (spells : Path.Spells base path names) {nesting : Nat} (enough : names.length < nesting)
    (spelled : d.system.fault? path = none)
    (noFile : ∀ q, q <+: names → d.content? (l ++ q) = none)
    (allowed : ∀ q, q ≠ [] → q <+: names → d.system.refuses .make (l ++ q) = none) :
    ∃ d', (makeDirectoriesWithin nesting path).outcome d = (.ok (), d') ∧ Extended d d' l names := by
  induction spells generalizing nesting with
  | here =>
    refine ⟨d, ?_, .refl linkFree (by rwa [List.append_nil])⟩
    rw [outcome_makeDirectoriesWithin_of_locate linkFree (n := 0) ends (by simp) reached enough]
    exact outcome_ensureDirectory_named linkFree ends reached directory
  | @step path longer name names n before named text ih =>
    obtain ⟨nesting, rfl⟩ := Nat.exists_eq_add_one.mpr (Nat.zero_lt_of_lt enough)
    rw [List.length_append, List.length_singleton] at enough
    have last : Disk.lastName longer = (path, name) := by
      rw [Path.lastName_of_text (n := 0) (Path.endsInName_of_text named text) (by simp),
        Path.directory_of_text text (before.endsInName ends) named.noSlash,
        Path.baseName_of_text text named.noSlash]
    have proper := named.proper
    simp only [List.mem_cons, List.not_mem_nil, or_false, not_or] at proper
    have fewer (q : Location) (within : q <+: names) : q <+: names ++ [name] :=
      within.trans (List.prefix_append _ _)
    have front := Disk.fault?_of_append (text.trans (List.append_assoc _ _ _)) spelled
    have run : ∃ e, Extended d e l names ∧ e.locate path = .ok (l ++ names) ∧
        (makeDirectoriesWithin (nesting + 1) longer).outcome d =
          (ensureDirectory longer).outcome e := by
      cases old : d.pathExists path with
      | true =>
        obtain ⟨place, entry, found, present⟩ := Disk.pathExists_iff.mp old
        obtain rfl := before.eq_of_locate linkFree reached linkFree rfl found
        have there := Disk.directory_of_content? linkFree present
          (noFile names (fewer names (List.prefix_refl _)))
        exact ⟨d, .refl linkFree there, found,
          outcome_makeDirectoriesWithin_there last nesting (.inr (.inr old))⟩
      | false =>
        obtain ⟨e, made, extended⟩ := ih (Nat.lt_of_succ_lt_succ enough) front
          (fun q within => noFile q (fewer q within))
          (fun q some within => allowed q some (fewer q within))
        have base := Disk.locate_mono linkFree extended.linkFree extended.directory extended.system
          reached
        have place := before.locate extended.linkFree base (by rw [extended.system]; exact front)
          (extended.made names (List.prefix_refl _))
        refine ⟨e, extended, place, ?_⟩
        rw [outcome_makeDirectoriesWithin_missing last nesting (before.endsInName ends).ne_empty
          proper.1 old made, if_neg proper.2.1]
    obtain ⟨e, extended, place, same⟩ := run
    rw [same]
    exact outcome_ensureDirectory_step extended place named text spelled
      (noFile _ (List.prefix_refl _)) (allowed _ (by simp) (List.prefix_refl _))

/-- A file is written, and all directories that its path goes through are made. -/
theorem outcome_writeFile (names : Location) {target name : String}
    (spells : Path.Spells base target (names ++ [name])) (enough : names.length < d.system.nesting)
    (spelled : d.system.fault? target = none)
    (noFile : ∀ q, q <+: names → d.content? (l ++ q) = none)
    (free : d.get? (l ++ (names ++ [name])) ≠ some .directory)
    (allowed : ∀ q, q ≠ [] → q <+: names → d.system.refuses .make (l ++ q) = none)
    (writable : d.system.refuses .write (l ++ (names ++ [name])) = none)
    (whole : d.system.cutsOff (l ++ (names ++ [name])) = none) (content : Bytes) :
    ∃ e d', (writeFile target content).outcome d = (.ok (), d') ∧ Extended d e l names ∧
      Disk.Changed e d' (l ++ (names ++ [name])) (.file content) := by
  obtain ⟨path, n, before, named, text⟩ := spells.of_concat
  have front := Disk.fault?_of_append (text.trans (List.append_assoc _ _ _)) spelled
  obtain ⟨e, made, extended⟩ := outcome_makeDirectoriesWithin ends linkFree reached directory before
    enough front noFile allowed
  have above := extended.made names (List.prefix_refl _)
  have parent : Path.directory target = path :=
    Path.directory_of_text text (before.endsInName ends) named.noSlash
  have base := Disk.locate_mono linkFree extended.linkFree extended.directory extended.system reached
  rw [← extended.system] at front spelled writable whole
  have place : e.locate target = .ok (l ++ (names ++ [name])) := by
    rw [← List.append_assoc]
    exact Disk.locate_step extended.linkFree text named spelled
      (before.locate extended.linkFree base front above) above
  have unmade := extended.unmade name
  have directoryAbove : e.get? (l ++ (names ++ [name])).dropLast = some .directory := by
    rw [← List.append_assoc, List.dropLast_concat]
    exact above
  have accepted : e.refusal? .write target (l ++ (names ++ [name])) = none :=
    Disk.refusal?_eq_none.mpr writable
  have done : e.write target content =
      .ok (e.put (l ++ (names ++ [name])) (.file content)) := by
    cases entry : e.get? (l ++ (names ++ [name])) with
    | none => simp only [Disk.write, place, accepted, entry, Disk.create, directoryAbove]
    | some old =>
      cases old with
      | file c => simp only [Disk.write, place, accepted, entry]
      | directory => exact absurd (unmade.symm.trans entry) free
      | link path => exact absurd entry (extended.linkFree.get?_ne_link _ path)
  refine ⟨e, _, ?_, extended, Disk.changed_put extended.linkFree (by simp) directoryAbove
    (by rwa [unmade])⟩
  unfold writeFile
  dsimp only
  rw [parent, if_pos (by simp [(before.endsInName ends).ne_empty]), outcome_bind]
  rw [outcome_makeDirectories, made]
  dsimp only
  unfold write
  rw [outcome_get_bind]
  simp only [place, Except.toOption, Option.bind_some, whole]
  rw [outcome_change, done]

end Within

private theorem write_eq_ok {d d' : Disk} {path : String} {content : Bytes}
    (wrote : (write path content).outcome d = (.ok (), d')) :
    ∃ l, d.locate path = .ok l ∧ d.system.cutsOff l = none ∧ d.write path content = .ok d' := by
  unfold write at wrote
  rw [outcome_get_bind] at wrote
  split at wrote
  · rename_i whole
    rw [outcome_change] at wrote
    cases done : d.write path content with
    | error e =>
      rw [done] at wrote
      cases wrote
    | ok e =>
      rw [done] at wrote
      obtain rfl := (Prod.mk.inj wrote).2
      cases reached : d.locate path with
      | error e =>
        rw [Disk.write, reached] at done
        cases done
      | ok l =>
        rw [reached] at whole
        exact ⟨l, rfl, whole, rfl⟩
  · obtain ⟨_, _, _, failed⟩ := outcome_bind_eq_ok.mp wrote
    cases failed

theorem writeFile_eq_ok {d d' : Disk} (linkFree : d.LinkFree) {path : String} {content : Bytes}
    (wrote : (writeFile path content).outcome d = (.ok (), d')) :
    ∃ (e : Disk) (l : Location), e.LinkFree ∧ e.system = d.system ∧ e.locate path = .ok l ∧
      d.system.refuses .write l = none ∧ d.system.cutsOff l = none := by
  have written {e : Disk} (clean : e.LinkFree) (same : e.system = d.system)
      (wrote : (write path content).outcome e = (.ok (), d')) :
      ∃ (e : Disk) (l : Location), e.LinkFree ∧ e.system = d.system ∧ e.locate path = .ok l ∧
        d.system.refuses .write l = none ∧ d.system.cutsOff l = none := by
    obtain ⟨l, reached, whole, done⟩ := write_eq_ok wrote
    obtain ⟨l', reached', allowed, _⟩ := Disk.write_ok clean done
    obtain rfl := Except.ok.inj (reached.symm.trans reached')
    rw [same] at whole allowed
    exact ⟨e, l, clean, same, reached, allowed, whole⟩
  unfold writeFile at wrote
  dsimp only at wrote
  split at wrote
  · obtain ⟨_, e, made, wrote⟩ := outcome_bind_eq_ok.mp wrote
    have kept := Keeps.makeDirectories (P := Scan.Alike (fun _ => True) d) Scan.Alike.makeDirectory
      (Path.directory path) d (.refl linkFree)
    rw [made] at kept
    exact written kept.linkFree kept.system wrote
  · exact written linkFree rfl wrote

theorem outcome_makeDirectories_new {d : Disk} (linkFree : d.LinkFree) {output : String} {l : Location}
    {n : Nat} (ends : Path.EndsInName (Disk.withoutEndSlashes output))
    (text : output.toList = (Disk.withoutEndSlashes output).toList ++ List.replicate n '/')
    (reached : d.locate (Disk.withoutEndSlashes output) = .ok l) (vacant : d.get? l = none)
    (allowed : d.system.refuses .make l = none) (nested : 0 < d.system.nesting) :
    (makeDirectories output).outcome d = (.ok (), d.put l .directory) ∧
      Disk.Changed d (d.put l .directory) l .directory := by
  rw [outcome_makeDirectories, outcome_makeDirectoriesWithin_of_locate linkFree ends text reached nested]
  exact outcome_ensureDirectory_new linkFree reached vacant allowed

end Action
end ExportInventory
