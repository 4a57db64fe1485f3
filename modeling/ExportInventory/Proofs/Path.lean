import ExportInventory.SourceFile
import Mathlib.Data.List.Infix

/-!
The names between the slashes of a path.
-/
namespace ExportInventory.Path

section Split

variable {sep : Char}

theorem exists_splitChars (sep : Char) (cs : List Char) :
    ∃ first more, splitChars sep cs = first :: more := by
  induction cs with
  | nil => exact ⟨[], [], rfl⟩
  | cons c rest ih =>
    obtain ⟨first, more, parts⟩ := ih
    rw [splitChars, parts]
    split
    · exact ⟨_, _, rfl⟩
    · exact ⟨_, _, rfl⟩

theorem splitChars_of_not_mem {cs : List Char} (plain : sep ∉ cs) : splitChars sep cs = [cs] := by
  induction cs with
  | nil => rfl
  | cons c rest ih =>
    rw [List.mem_cons, not_or] at plain
    rw [splitChars, ih plain.2, if_neg (Ne.symm plain.1)]

private theorem splitChars_append (before behind : List Char) :
    splitChars sep (before ++ sep :: behind) = splitChars sep before ++ splitChars sep behind := by
  induction before with
  | nil => simp [splitChars]
  | cons c rest ih =>
    obtain ⟨first, more, parts⟩ := exists_splitChars sep rest
    rw [List.cons_append, splitChars, splitChars, ih, parts]
    split <;> rfl

private theorem getLast?_splitChars_append {tail : List Char} (plain : sep ∉ tail)
    (cs : List Char) :
    ∃ w, (splitChars sep (cs ++ tail)).getLast? = some (w ++ tail) := by
  induction cs with
  | nil => exact ⟨[], by rw [List.nil_append, splitChars_of_not_mem plain]; rfl⟩
  | cons c rest ih =>
    obtain ⟨w, last⟩ := ih
    obtain ⟨first, more, parts⟩ := exists_splitChars sep (rest ++ tail)
    rw [List.cons_append, splitChars, parts]
    rw [parts] at last
    split
    · exact ⟨w, by rw [List.getLast?_cons_cons, last]⟩
    · cases more with
      | nil =>
        obtain rfl : first = w ++ tail := by simpa using last
        exact ⟨c :: w, rfl⟩
      | cons second others => exact ⟨w, by rw [List.getLast?_cons_cons] at last ⊢; exact last⟩

private theorem not_mem_of_mem_splitChars {part cs : List Char}
    (member : part ∈ splitChars sep cs) :
    sep ∉ part := by
  induction cs generalizing part with
  | nil =>
    rw [splitChars, List.mem_singleton] at member
    simp [member]
  | cons c rest ih =>
    obtain ⟨first, more, parts⟩ := exists_splitChars sep rest
    rw [splitChars, parts] at member
    rw [parts] at ih
    split at member
    · rcases List.mem_cons.mp member with rfl | later
      · simp
      · exact ih later
    · rename_i other
      rcases List.mem_cons.mp member with rfl | later
      · have inside := ih List.mem_cons_self
        simp [inside, Ne.symm other]
      · exact ih (List.mem_cons_of_mem _ later)

end Split

theorem exists_segments_eq_concat {path : String} {cs tail : List Char}
    (text : path.toList = cs ++ tail) (plain : '/' ∉ tail) :
    ∃ names w, segments path = names ++ [String.ofList (w ++ tail)] := by
  obtain ⟨w, last⟩ := getLast?_splitChars_append plain cs
  obtain ⟨parts, split⟩ := List.getLast?_eq_some_iff.mp last
  exact ⟨parts.map String.ofList, w, by rw [segments, text, split, List.map_append]; rfl⟩

/-- A path that ends in a name or in dots, not in a slash. -/
def EndsInName (path : String) : Prop := ∃ cs c, path.toList = cs ++ [c] ∧ c ≠ '/'

/-- A name that a file or a directory can have. -/
structure IsName (name : String) : Prop where
  proper : name ∉ ["", ".", ".."]
  noSlash : '/' ∉ name.toList

instance (name : String) : Decidable (IsName name) :=
  decidable_of_iff (name ∉ ["", ".", ".."] ∧ '/' ∉ name.toList)
    ⟨fun ⟨proper, noSlash⟩ => ⟨proper, noSlash⟩, fun named => ⟨named.proper, named.noSlash⟩⟩

theorem IsName.ne_nil {name : String} (named : IsName name) : name.toList ≠ [] := by
  intro empty
  exact named.proper (by simp [String.toList_eq_nil_iff.mp empty])

theorem segments_ne_nil (path : String) : segments path ≠ [] := by
  obtain ⟨first, more, parts⟩ := exists_splitChars '/' path.toList
  rw [segments, parts]
  exact List.cons_ne_nil _ _

theorem segments_nil : segments "" = [""] := by
  rw [segments, String.toList_empty]
  rfl

theorem segments_of_not_mem {name : String} (noSlash : '/' ∉ name.toList) : segments name = [name] := by
  rw [segments, splitChars_of_not_mem noSlash, List.map_singleton, String.ofList_toList]

theorem segments_slash {path before behind : String}
    (text : path.toList = before.toList ++ '/' :: behind.toList) :
    segments path = segments before ++ segments behind := by
  rw [segments, text, splitChars_append, List.map_append]
  rfl

theorem segments_slashes {path before behind : String} {n : Nat}
    (text : path.toList = before.toList ++ List.replicate (n + 1) '/' ++ behind.toList) :
    segments path = segments before ++ List.replicate n "" ++ segments behind := by
  have runs (m : Nat) : segments (String.ofList (List.replicate m '/' ++ behind.toList)) =
      List.replicate m "" ++ segments behind := by
    induction m with
    | zero => simp
    | succ m ih =>
      have front : (String.ofList (List.replicate (m + 1) '/' ++ behind.toList)).toList =
          "".toList ++ '/' :: (String.ofList (List.replicate m '/' ++ behind.toList)).toList := by
        simp [List.replicate_succ]
      rw [segments_slash front, segments_nil, ih, List.replicate_succ]
      rfl
  have front : path.toList =
      before.toList ++ '/' :: (String.ofList (List.replicate n '/' ++ behind.toList)).toList := by
    rw [text, String.toList_ofList, List.replicate_succ]
    simp
  rw [segments_slash front, runs, List.append_assoc]

section Last

variable {path above name : String} {n : Nat}
  (text : path.toList = above.toList ++ List.replicate (n + 1) '/' ++ name.toList)
  (ends : EndsInName above) (noSlash : '/' ∉ name.toList)
include text noSlash

theorem baseName_of_text : baseName path = name := by
  rw [baseName, segments_slashes text, segments_of_not_mem noSlash, List.getLast?_concat,
    Option.getD_some]

include ends

theorem directory_of_text : directory path = above := by
  obtain ⟨cs, c, last, other⟩ := ends
  have tail : path.toList.reverse.dropWhile (· ≠ '/') =
      List.replicate (n + 1) '/' ++ above.toList.reverse := by
    have reversed : path.toList.reverse =
        name.toList.reverse ++ (List.replicate (n + 1) '/' ++ above.toList.reverse) := by
      rw [text]
      simp
    rw [reversed, List.dropWhile_append_of_pos, List.replicate_succ, List.cons_append,
      List.dropWhile_cons_of_neg (by simp)]
    intro x member
    have inside := List.mem_reverse.mp member
    simpa using fun same : x = '/' => noSlash (same ▸ inside)
  have some : (List.replicate (n + 1) '/' ++ above.toList.reverse).reverse.all (· = '/') = false := by
    rw [List.all_eq_false]
    exact ⟨c, by simp [last], by simpa using other⟩
  have stripped : (List.replicate (n + 1) '/' ++ above.toList.reverse).dropWhile (· = '/') =
      above.toList.reverse := by
    rw [List.dropWhile_append_of_pos (by simp), last, List.reverse_concat,
      List.dropWhile_cons_of_neg (by simpa using other)]
  unfold directory
  dsimp only
  rw [tail, if_neg (by rw [some]; exact Bool.false_ne_true), List.reverse_reverse, stripped,
    List.reverse_reverse, String.ofList_toList]

end Last

theorem exists_slashes (cs : List Char) : ∃ ys n, cs = ys ++ List.replicate n '/' ∧
    (ys = [] ∨ ∃ zs c, ys = zs ++ [c] ∧ c ≠ '/') := by
  induction cs using List.reverseRecOn with
  | nil => exact ⟨[], 0, rfl, .inl rfl⟩
  | append_singleton rest c ih =>
    by_cases slash : c = '/'
    · subst slash
      obtain ⟨ys, n, rfl, ends⟩ := ih
      refine ⟨ys, n + 1, ?_, ends⟩
      rw [List.replicate_succ', List.append_assoc]
    · exact ⟨rest ++ [c], 0, by simp, .inr ⟨rest, c, rfl, slash⟩⟩

private theorem dropWhile_slashes {ys : List Char}
    (ends : ys = [] ∨ ∃ zs c, ys = zs ++ [c] ∧ c ≠ '/')
    (n : Nat) :
    ((ys ++ List.replicate n '/').reverse.dropWhile (· = '/')).reverse = ys := by
  rw [List.reverse_append, List.reverse_replicate, List.dropWhile_append_of_pos (by simp)]
  rcases ends with rfl | ⟨zs, c, rfl, other⟩
  · rfl
  · rw [List.reverse_concat, List.dropWhile_cons_of_neg (by simpa using other), List.reverse_cons,
      List.reverse_reverse]

theorem exists_split {path : String} (slash : '/' ∈ path.toList) :
    ∃ above name : String, ∃ n,
      path.toList = above.toList ++ List.replicate (n + 1) '/' ++ name.toList ∧
        '/' ∉ name.toList ∧ (above = "" ∨ EndsInName above) := by
  obtain ⟨tail, rest, parts, noSlash⟩ := List.eq_append_cons_of_mem (List.mem_reverse.mpr slash)
  obtain ⟨ys, n, front, ends⟩ := exists_slashes rest.reverse
  refine ⟨String.ofList ys, String.ofList tail.reverse, n, ?_, by simpa using noSlash, ?_⟩
  · rw [← List.reverse_reverse path.toList, parts, List.reverse_append, List.reverse_cons, front,
      String.toList_ofList, String.toList_ofList, List.replicate_succ', List.append_assoc ys]
  · rcases ends with rfl | ⟨zs, c, rfl, other⟩
    · exact .inl rfl
    · exact .inr ⟨zs, c, String.toList_ofList, other⟩

theorem directory_of_slashes {path name : String} {n : Nat}
    (text : path.toList = List.replicate (n + 1) '/' ++ name.toList) (noSlash : '/' ∉ name.toList) :
    directory path = String.ofList (List.replicate (n + 1) '/') := by
  have head : path.toList.reverse.dropWhile (· ≠ '/') = List.replicate (n + 1) '/' := by
    rw [text, List.reverse_append, List.reverse_replicate, List.dropWhile_append_of_pos,
      List.replicate_succ, List.dropWhile_cons_of_neg (by simp)]
    intro x member
    have inside := List.mem_reverse.mp member
    simpa using fun same : x = '/' => noSlash (same ▸ inside)
  unfold directory
  dsimp only
  rw [head, List.reverse_replicate, if_pos (by simp)]

theorem directory_cases (path : String) : directory path = "" ∨
    (∃ n, directory path = String.ofList (List.replicate (n + 1) '/')) ∨
    EndsInName (directory path) ∧ ∃ n behind,
      path.toList = (directory path).toList ++ List.replicate (n + 1) '/' ++ behind := by
  by_cases slash : '/' ∈ path.toList
  · obtain ⟨above, name, n, text, noSlash, rfl | ends⟩ := exists_split slash
    · exact .inr (.inl ⟨n, directory_of_slashes (by simpa using text) noSlash⟩)
    · rw [directory_of_text text ends noSlash]
      exact .inr (.inr ⟨ends, n, _, text⟩)
  · left
    have head : path.toList.reverse.dropWhile (· ≠ '/') = [] := by
      rw [← List.append_nil path.toList.reverse, List.dropWhile_append_of_pos]
      · rfl
      · intro x member
        simpa using fun same : x = '/' => slash (same ▸ List.mem_reverse.mp member)
    unfold directory
    dsimp only
    rw [head]
    rfl

theorem withoutEndSlashes_cases (path : String) :
    (∃ n, path.toList = List.replicate n '/') ∨
      EndsInName (Disk.withoutEndSlashes path) ∧
        ∃ n, path.toList = (Disk.withoutEndSlashes path).toList ++ List.replicate n '/' := by
  obtain ⟨ys, n, text, ends⟩ := exists_slashes path.toList
  rcases ends with rfl | ⟨zs, c, rfl, other⟩
  · exact .inl ⟨n, text⟩
  · have stripped : Disk.withoutEndSlashes path = String.ofList (zs ++ [c]) := by
      unfold Disk.withoutEndSlashes
      dsimp only
      rw [text, dropWhile_slashes (.inr ⟨zs, c, rfl, other⟩)]
      simp
    refine .inr ⟨⟨zs, c, by rw [stripped, String.toList_ofList], other⟩, n, ?_⟩
    rw [stripped, String.toList_ofList, text]

theorem withoutEndSlashes_of_slashes {path : String} {n : Nat}
    (slashes : path.toList = List.replicate n '/') : Disk.withoutEndSlashes path = path := by
  have stripped := dropWhile_slashes (.inl rfl) n
  rw [List.nil_append, ← slashes] at stripped
  unfold Disk.withoutEndSlashes
  dsimp only
  rw [stripped, if_pos (by simp)]

theorem EndsInName.ne_empty {path : String} (ends : EndsInName path) : path ≠ "" := by
  obtain ⟨cs, c, text, _⟩ := ends
  rintro rfl
  simp at text

theorem EndsInName.withoutEndSlashes {path : String} (ends : EndsInName path) :
    Disk.withoutEndSlashes path = path := by
  obtain ⟨cs, c, text, other⟩ := ends
  have strip := dropWhile_slashes (.inr ⟨cs, c, rfl, other⟩) 0
  rw [List.replicate_zero, List.append_nil, ← text] at strip
  unfold Disk.withoutEndSlashes
  dsimp only
  rw [strip, if_neg (by simp [text]), String.ofList_toList]

theorem EndsInName.baseName_ne_empty {path : String} (ends : EndsInName path) : baseName path ≠ "" := by
  obtain ⟨cs, c, text, other⟩ := ends
  obtain ⟨names, w, split⟩ :=
    exists_segments_eq_concat text (by simpa using Ne.symm other)
  rw [baseName, split, List.getLast?_concat, Option.getD_some]
  intro empty
  have := congrArg String.toList empty
  simp at this

theorem eq_or_slashes {path front : String} {n : Nat}
    (text : path.toList = front.toList ++ List.replicate n '/') :
    path = front ∨
      ∃ m, path.toList = front.toList ++ List.replicate (m + 1) '/' ++ "".toList := by
  cases n with
  | zero => exact .inl (String.toList_inj.mp (by simpa using text))
  | succ m => exact .inr ⟨m, by simpa using text⟩

theorem lastName_of_text {path stripped : String} {n : Nat} (ends : EndsInName stripped)
    (text : path.toList = stripped.toList ++ List.replicate n '/') :
    Disk.lastName path = (directory stripped, baseName stripped) := by
  unfold Disk.lastName split
  dsimp only
  rcases eq_or_slashes text with rfl | ⟨m, whole⟩
  · rw [if_neg (by simpa [String.isEmpty_iff] using ends.baseName_ne_empty)]
  · rw [baseName_of_text whole (by simp), directory_of_text whole ends (by simp)]
    rfl

theorem intercalate_concat {names : List String} (nonempty : names ≠ []) (name : String) :
    ("/".intercalate (names ++ [name])).toList =
      ("/".intercalate names).toList ++ '/' :: name.toList := by
  induction names with
  | nil => exact absurd rfl nonempty
  | cons first rest ih =>
    cases rest with
    | nil => simp
    | cons second others =>
      have shorter := ih (List.cons_ne_nil _ _)
      simp only [String.toList_intercalate, List.map_append, List.cons_append, List.map_cons,
        List.intercalate_cons_cons, List.append_assoc] at shorter ⊢
      rw [shorter]

theorem segments_intercalate {names : List String} (nonempty : names ≠ [])
    (noSlash : ∀ name ∈ names, '/' ∉ name.toList) : segments ("/".intercalate names) = names := by
  induction names using List.reverseRecOn with
  | nil => exact absurd rfl nonempty
  | append_singleton names name ih =>
    have last : segments name = [name] := segments_of_not_mem (noSlash name (by simp))
    by_cases single : names = []
    · subst single
      have text : "/".intercalate ([] ++ [name]) = name := by
        rw [← String.toList_inj, String.toList_intercalate]
        simp
      rw [text, last]
      rfl
    · rw [segments_slash (intercalate_concat single name), last, ih single]
      intro other member
      exact noSlash other (List.mem_append_left _ member)

/-- The place that names lead to from another, if there are directories on the way. -/
def walk (here : Location) : List String → Location
  | [] => here
  | name :: rest =>
    if name = "" ∨ name = "." then walk here rest
    else if name = ".." then walk here.dropLast rest
    else walk (here ++ [name]) rest

theorem walk_append (here : Location) (before behind : List String) :
    walk here (before ++ behind) = walk (walk here before) behind := by
  fun_induction walk here before with
  | case1 => rfl
  | case2 here name rest quiet ih => rw [List.cons_append, walk, if_pos quiet, ih]
  | case3 here rest quiet ih => rw [List.cons_append, walk, if_neg quiet, if_pos rfl, ih]
  | case4 here name rest quiet up ih => rw [List.cons_append, walk, if_neg quiet, if_neg up, ih]

theorem walk_of_proper {names : List String} (proper : ∀ name ∈ names, name ∉ ["", ".", ".."])
    (here : Location) : walk here names = here ++ names := by
  induction names generalizing here with
  | nil => rw [walk, List.append_nil]
  | cons name rest ih =>
    have given := proper name List.mem_cons_self
    simp only [List.mem_cons, List.not_mem_nil, or_false, not_or] at given
    rw [walk, if_neg (by simp [given]), if_neg given.2.2,
      ih fun other member => proper other (List.mem_cons_of_mem _ member), List.append_assoc]
    rfl

theorem walk_filter (here : Location) (names : List String) :
    walk here (names.filter fun s => s ≠ "" ∧ s ≠ ".") = walk here names := by
  fun_induction walk here names with
  | case1 => rfl
  | case2 here name rest quiet ih =>
    rw [List.filter_cons_of_neg (by simpa [imp_iff_not_or] using quiet), ih]
  | case3 here rest quiet ih =>
    rw [List.filter_cons_of_pos (by simp), walk, if_neg quiet, if_pos rfl, ih]
  | case4 here name rest quiet up ih =>
    rw [List.filter_cons_of_pos (by simpa [not_or] using quiet), walk, if_neg quiet, if_neg up, ih]

theorem walk_empties (here : Location) (n : Nat) (names : List String) :
    walk here (List.replicate n "" ++ names) = walk here names := by
  induction n with
  | zero => rfl
  | succ n ih => rw [List.replicate_succ, List.cons_append, walk, if_pos (.inl rfl), ih]

private theorem mem_walk {here : Location} {names : List String} {name : String}
    (member : name ∈ walk here names) : name ∈ here ∨ name ∈ names ∧ name ∉ ["", ".", ".."] := by
  fun_induction walk here names with
  | case1 => exact .inl member
  | case2 here first rest quiet ih =>
    exact (ih member).imp_right fun found => ⟨List.mem_cons_of_mem _ found.1, found.2⟩
  | case3 here rest quiet ih =>
    rcases ih member with before | found
    · exact .inl (List.mem_of_mem_dropLast before)
    · exact .inr ⟨List.mem_cons_of_mem _ found.1, found.2⟩
  | case4 here first rest quiet up ih =>
    rcases ih member with before | found
    · rcases List.mem_append.mp before with old | new
      · exact .inl old
      · obtain rfl := List.mem_singleton.mp new
        exact .inr ⟨List.mem_cons_self, by simp [not_or.mp quiet, up]⟩
    · exact .inr ⟨List.mem_cons_of_mem _ found.1, found.2⟩

private theorem resolveDots_eq_walk (names : List String) :
    resolveDots true names = walk [] names := by
  have general (here : Location) (plain : ".." ∉ here) (names : List String) :
      (names.foldl (resolveDots.step true) here.reverse).reverse = walk here names := by
    fun_induction walk here names with
    | case1 => exact List.reverse_reverse _
    | case2 here name rest quiet ih =>
      rw [List.foldl_cons, resolveDots.step.eq_def, if_pos quiet, ih plain]
    | case3 here rest quiet ih =>
      have shorter := ih fun member => plain (List.mem_of_mem_dropLast member)
      rw [List.foldl_cons, resolveDots.step.eq_def, if_neg quiet, if_neg (by simp)]
      rcases List.eq_nil_or_concat here with rfl | ⟨above, last, rfl⟩
      · exact shorter
      · have other : last ≠ ".." := by
          rintro rfl
          exact plain (by simp)
        rw [List.concat_eq_append, List.reverse_concat]
        dsimp only
        rw [if_neg other]
        simpa using shorter
    | case4 here name rest quiet up ih =>
      have longer := ih (by simp [plain, Ne.symm up])
      rw [List.foldl_cons, resolveDots.step.eq_def, if_neg quiet, if_pos up]
      simpa using longer
  exact general [] (by simp) names

theorem isAbsolute_iff {path : String} : isAbsolute path = true ↔ ∃ cs, path.toList = '/' :: cs := by
  unfold isAbsolute
  cases path.toList <;> simp

theorem ne_empty_of_isAbsolute {path : String} (absolute : isAbsolute path = true) : path ≠ "" := by
  rintro rfl
  exact absurd absolute (by decide)

theorem isAbsolute_intercalate {names : List String}
    (named : ∀ name ∈ names, name.toList ≠ [] ∧ '/' ∉ name.toList) :
    isAbsolute ("/".intercalate names) = false := by
  cases names with
  | nil => rfl
  | cons name rest =>
    obtain ⟨nonempty, noSlash⟩ := named name List.mem_cons_self
    obtain ⟨c, cs, text⟩ := List.exists_cons_of_ne_nil nonempty
    have other : c ≠ '/' := by
      rintro rfl
      exact noSlash (by simp [text])
    have front : ∃ others, ("/".intercalate (name :: rest)).toList = c :: others := by
      cases rest with
      | nil => exact ⟨cs, by simp [text]⟩
      | cons second more =>
        exact ⟨_, by rw [String.toList_intercalate, List.map_cons, List.map_cons,
          List.intercalate_cons_cons, text]; rfl⟩
    obtain ⟨others, same⟩ := front
    simp [isAbsolute, same, other]

section Join

variable {base path : String} (nonempty : base ≠ "") (relative : isAbsolute path = false)
include nonempty relative

theorem isAbsolute_join : isAbsolute (join base path) = isAbsolute base := by
  obtain ⟨c, cs, text⟩ := List.exists_cons_of_ne_nil (mt String.toList_eq_nil_iff.mp nonempty)
  unfold join
  rw [relative, if_neg Bool.false_ne_true]
  split <;> simp [isAbsolute, text]

theorem walk_join (here : Location) :
    walk here (segments (join base path)) = walk (walk here (segments base)) (segments path) := by
  unfold join
  rw [relative, if_neg Bool.false_ne_true]
  split
  · rename_i slash
    have last : base.toList.getLast? = some '/' := by
      simpa [String.isEmpty_iff, nonempty] using slash
    obtain ⟨cs, text⟩ := List.getLast?_eq_some_iff.mp last
    have whole : (base ++ path).toList = (String.ofList cs).toList ++ '/' :: path.toList := by
      simp [text]
    have part : base.toList = (String.ofList cs).toList ++ '/' :: "".toList := by simp [text]
    rw [segments_slash whole, segments_slash part, segments_nil, walk_append, walk_append]
    rfl
  · have whole : (base ++ "/" ++ path).toList = base.toList ++ '/' :: path.toList := by simp
    rw [segments_slash whole, walk_append]

end Join

private theorem leadingSlashes_of_relative {path : String} (relative : isAbsolute path = false) :
    leadingSlashes path = "" := by
  unfold leadingSlashes
  unfold isAbsolute at relative
  split <;> simp_all

theorem leadingSlashes_of_absolute {path : String} (absolute : isAbsolute path = true) :
    leadingSlashes path ∈ ["/", "//"] := by
  obtain ⟨cs, text⟩ := isAbsolute_iff.mp absolute
  unfold leadingSlashes
  split <;> simp_all

section Lead

variable {lead : String} (leads : lead ∈ ["/", "//"])
include leads

theorem isAbsolute_lead (body : String) : isAbsolute (lead ++ body) = true := by
  simp only [List.mem_cons, List.not_mem_nil, or_false] at leads
  rcases leads with rfl | rfl <;> simp [isAbsolute]

theorem segments_lead (body : String) :
    ∃ n, segments (lead ++ body) = List.replicate n "" ++ segments body := by
  have one (body : String) : segments ("/" ++ body) = "" :: segments body := by
    have text : ("/" ++ body).toList = "".toList ++ '/' :: body.toList := by simp
    rw [segments_slash text, segments_nil]
    rfl
  simp only [List.mem_cons, List.not_mem_nil, or_false] at leads
  rcases leads with rfl | rfl
  · exact ⟨1, one body⟩
  · have two : "//" ++ body = "/" ++ ("/" ++ body) := by
      rw [← String.append_assoc]
      rfl
    exact ⟨2, by rw [two, one, one]; rfl⟩

theorem walk_lead (here : Location) (body : String) :
    walk here (segments (lead ++ body)) = walk here (segments body) := by
  obtain ⟨n, split⟩ := segments_lead leads body
  rw [split, walk_empties]

theorem names_lead {l : Location} (named : ∀ name ∈ l, name.toList ≠ [] ∧ '/' ∉ name.toList) :
    names (lead ++ "/".intercalate l) = l := by
  have nonempty : ∀ name ∈ l, (!name.isEmpty) = true := by
    intro name member
    simpa [String.isEmpty_iff] using mt String.toList_eq_nil_iff.mpr (named name member).1
  have inside : (segments ("/".intercalate l)).filter (fun s => !s.isEmpty) = l := by
    by_cases empty : l = []
    · subst empty
      rfl
    · rw [segments_intercalate empty fun name member => (named name member).2]
      exact List.filter_eq_self.mpr nonempty
  obtain ⟨n, split⟩ := segments_lead leads ("/".intercalate l)
  rw [names, split, List.filter_append, inside, List.filter_replicate_of_neg (by simp)]
  rfl

end Lead

theorem named_of_segment {path name : String} (segment : name ∈ segments path)
    (nonempty : name ≠ "") : name.toList ≠ [] ∧ '/' ∉ name.toList := by
  obtain ⟨part, split, rfl⟩ := List.mem_map.mp segment
  exact ⟨mt String.toList_eq_nil_iff.mp nonempty, by simpa using not_mem_of_mem_splitChars split⟩

private theorem normalize_of_absolute {path : String} (absolute : isAbsolute path = true) :
    ∃ lead ∈ ["/", "//"], normalize path = lead ++ "/".intercalate (walk [] (segments path)) := by
  have leads := leadingSlashes_of_absolute absolute
  refine ⟨leadingSlashes path, leads, ?_⟩
  have some : (!(leadingSlashes path).isEmpty) = true := by
    simp only [List.mem_cons, List.not_mem_nil, or_false] at leads
    rcases leads with same | same <;> rw [same] <;> rfl
  have nonempty : ¬(leadingSlashes path ++ "/".intercalate (walk [] (segments path))).isEmpty = true := by
    rw [String.isEmpty_iff]
    exact ne_empty_of_isAbsolute (isAbsolute_lead leads _)
  unfold normalize
  dsimp only
  rw [some, resolveDots_eq_walk, if_neg nonempty]

/-- Where a path starts from, in a working directory. -/
def start (workingDirectory path : String) : Location :=
  if isAbsolute path then [] else walk [] (segments workingDirectory)

section Absolute

variable {workingDirectory : String} (rooted : isAbsolute workingDirectory = true)
include rooted

theorem absolute_eq (path : String) : ∃ lead ∈ ["/", "//"], absolute workingDirectory path =
    lead ++ "/".intercalate (walk (start workingDirectory path) (segments path)) := by
  unfold absolute start
  cases given : isAbsolute path with
  | true => exact normalize_of_absolute given
  | false =>
    have nonempty := ne_empty_of_isAbsolute rooted
    have joined : isAbsolute (join workingDirectory path) = true :=
      (isAbsolute_join nonempty given).trans rooted
    rw [if_neg Bool.false_ne_true, if_neg Bool.false_ne_true, ← walk_join nonempty given]
    exact normalize_of_absolute joined

theorem names_absolute (path : String) : names (absolute workingDirectory path) =
    walk (start workingDirectory path) (segments path) := by
  obtain ⟨lead, leads, text⟩ := absolute_eq rooted path
  rw [text]
  refine names_lead leads fun name member => ?_
  rcases mem_walk member with before | ⟨segment, proper⟩
  · unfold start at before
    split at before
    · cases before
    · obtain ⟨segment, proper⟩ := (mem_walk before).resolve_left (by simp)
      exact named_of_segment segment (by simp_all)
  · exact named_of_segment segment (by simp_all)

end Absolute

private theorem commonLength_append (l behind : Location) :
    commonLength l (l ++ behind) = l.length := by
  induction l with
  | nil => cases behind <;> rfl
  | cons name rest ih => rw [List.cons_append, commonLength, if_pos rfl, ih, List.length_cons]

theorem relative_eq {path start : String} {l behind : Location} (target : names path = l ++ behind)
    (origin : names start = l) (nonempty : "/".intercalate behind ≠ "") :
    relative path start = "/".intercalate behind := by
  unfold relative
  dsimp only
  rw [target, origin, commonLength_append, Nat.sub_self, List.replicate_zero, List.nil_append,
    List.drop_left, if_neg (by simpa [String.isEmpty_iff] using nonempty)]

/-- A path means the same without its empty names and single dots. -/
theorem tidy_spec (root : String) : SourceFile.tidy root ≠ "" ∧
    isAbsolute (SourceFile.tidy root) = isAbsolute root ∧
    ∀ here, walk here (segments (SourceFile.tidy root)) = walk here (segments root) := by
  have named : ∀ name ∈ (segments root).filter (fun s => s ≠ "" ∧ s ≠ "."),
      name.toList ≠ [] ∧ '/' ∉ name.toList := by
    intro name member
    obtain ⟨segment, proper⟩ := List.mem_filter.mp member
    exact named_of_segment segment (by simp_all)
  have same (here : Location) :
      walk here (segments ("/".intercalate ((segments root).filter fun s => s ≠ "" ∧ s ≠ "."))) =
        walk here (segments root) := by
    rw [← walk_filter here (segments root)]
    by_cases empty : (segments root).filter (fun s => s ≠ "" ∧ s ≠ ".") = []
    · rw [empty]
      rfl
    · rw [segments_intercalate empty fun name member => (named name member).2]
  unfold SourceFile.tidy
  dsimp only
  cases given : isAbsolute root with
  | true =>
    have leads := leadingSlashes_of_absolute given
    have absolute := isAbsolute_lead leads
      ("/".intercalate ((segments root).filter fun s => s ≠ "" ∧ s ≠ "."))
    have nonempty := ne_empty_of_isAbsolute absolute
    rw [if_neg (by simpa [String.isEmpty_iff] using nonempty)]
    exact ⟨nonempty, absolute, fun here => (walk_lead leads here _).trans (same here)⟩
  | false =>
    rw [leadingSlashes_of_relative given, String.empty_append]
    split
    · rename_i empty
      refine ⟨by decide, by decide, fun here => ?_⟩
      rw [← same here, String.isEmpty_iff.mp empty]
      rfl
    · rename_i nonempty
      exact ⟨by simpa [String.isEmpty_iff] using nonempty, isAbsolute_intercalate named, same⟩

section Under

variable {path : String} (relative : isAbsolute path = false) (root : String)
include relative

theorem isAbsolute_pathUnder : isAbsolute (SourceFile.pathUnder root path) = isAbsolute root := by
  obtain ⟨nonempty, absolute, _⟩ := tidy_spec root
  unfold SourceFile.pathUnder
  dsimp only
  split
  · rename_i dot
    rw [← absolute, dot, relative]
    rfl
  · rw [isAbsolute_join nonempty relative, absolute]

theorem walk_pathUnder (here : Location) : walk here (segments (SourceFile.pathUnder root path)) =
    walk (walk here (segments root)) (segments path) := by
  obtain ⟨nonempty, _, same⟩ := tidy_spec root
  unfold SourceFile.pathUnder
  dsimp only
  split
  · rename_i dot
    rw [← same, dot]
    rfl
  · rw [walk_join nonempty relative, same]

end Under

end ExportInventory.Path
