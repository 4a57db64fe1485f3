import ExportInventory.Proofs.Identifier

/-!
Names in Pascal case. Such a name is an identifier on a single line. It holds the letters, digits
and dollar signs of its text in their order, and its own name in Pascal case is the same again.
-/
namespace ExportInventory.Name

/-- No kept character stands right in front of the index. -/
def opensRun (cs : List Char) (i : Nat) : Bool := !(cs.take i).getLast?.any isKept

/-- The letters, digits and dollar signs in their order, the first of each run as a capital. -/
def keptCapitalized (cs : List Char) : List Char :=
  (cs.zipIdx.filter fun p => isKept p.1).map fun p => if opensRun cs p.2 then p.1.toUpper else p.1

private theorem capitalizeRuns_append (before cs : List Char) :
    capitalizeRuns (!before.getLast?.any isKept) cs =
      ((cs.zipIdx before.length).filter fun p => isKept p.1).map fun p =>
        if opensRun (before ++ cs) p.2 then p.1.toUpper else p.1 := by
  induction cs generalizing before with
  | nil => rfl
  | cons c rest ih =>
    have here : opensRun (before ++ c :: rest) before.length = !before.getLast?.any isKept := by
      rw [opensRun, List.take_left]
    have later := ih (before ++ [c])
    simp only [List.getLast?_concat, Option.any_some, List.length_append, List.length_singleton,
      List.append_assoc, List.singleton_append] at later
    rw [capitalizeRuns, List.zipIdx_cons]
    cases kept : isKept c with
    | false =>
      rw [kept, Bool.not_false] at later
      simpa [kept] using later
    | true =>
      rw [kept, Bool.not_true] at later
      simp [kept, here, later]

private theorem capitalizeRuns_eq_keptCapitalized (cs : List Char) :
    capitalizeRuns true cs = keptCapitalized cs :=
  capitalizeRuns_append [] cs

private theorem toUpper_toUpper (c : Char) : c.toUpper.toUpper = c.toUpper := by
  unfold Char.toUpper
  split
  · rename_i small
    apply dif_neg
    intro again
    have low : 97 ≤ c.val.toNat := UInt32.le_iff_toNat_le.mp small.1
    have high : c.val.toNat ≤ 122 := UInt32.le_iff_toNat_le.mp small.2
    have lowered : 97 ≤ (c.val + 4294967264).toNat := UInt32.le_iff_toNat_le.mp again.1
    simp only [UInt32.toNat_add, UInt32.reduceToNat] at lowered
    omega
  · rfl

private theorem toUpper_of_capitalizeRuns {cs rest : List Char} {c : Char}
    (runs : capitalizeRuns true cs = c :: rest) : c.toUpper = c := by
  induction cs with
  | nil => simp [capitalizeRuns] at runs
  | cons d cs ih =>
    rw [capitalizeRuns] at runs
    split at runs
    · have first : d.toUpper = c := (List.cons.inj runs).1
      rw [← first, toUpper_toUpper]
    · exact ih runs

private theorem capitalizeRuns_false {cs : List Char} (kept : ∀ c ∈ cs, isKept c = true) :
    capitalizeRuns false cs = cs := by
  induction cs with
  | nil => rfl
  | cons c cs ih =>
    simp only [List.mem_cons, forall_eq_or_imp] at kept
    simp [capitalizeRuns, kept.1, ih kept.2]

private theorem capitalizeRuns_capitalizeRuns (cs : List Char) :
    capitalizeRuns true (capitalizeRuns true cs) = capitalizeRuns true cs := by
  have kept : ∀ c ∈ capitalizeRuns true cs, isKept c = true := isKept_of_mem_capitalizeRuns
  cases runs : capitalizeRuns true cs with
  | nil => rfl
  | cons c rest =>
    rw [runs] at kept
    simp only [List.mem_cons, forall_eq_or_imp] at kept
    simp [capitalizeRuns, kept.1, toUpper_of_capitalizeRuns runs, capitalizeRuns_false kept.2]

theorem toList_pascalCase {s : String} {c : Char} {rest : List Char}
    (runs : capitalizeRuns true s.toList = c :: rest) :
    (pascalCase s).toList = if c.isDigit then '_' :: c :: rest else c :: rest := by
  simp [pascalCase, runs]

theorem pascalCase_of_nil {s : String} (runs : capitalizeRuns true s.toList = []) :
    pascalCase s = "Component" := by
  simp [pascalCase, runs]

private theorem capitalizeRuns_pascalCase {s : String} (runs : capitalizeRuns true s.toList ≠ []) :
    capitalizeRuns true (pascalCase s).toList = capitalizeRuns true s.toList := by
  obtain ⟨c, rest, split⟩ := List.exists_cons_of_ne_nil runs
  have again := capitalizeRuns_capitalizeRuns s.toList
  rw [split] at again
  rw [toList_pascalCase split, split]
  cases c.isDigit with
  | false => exact again
  | true => exact again

private theorem pascalCase_pascalCase (s : String) : pascalCase (pascalCase s) = pascalCase s := by
  by_cases runs : capitalizeRuns true s.toList = []
  · rw [pascalCase_of_nil runs]
    decide
  · rw [pascalCase, capitalizeRuns_pascalCase runs, pascalCase]

private theorem isPart_of_mem_pascalCase {s : String} :
    ∀ c ∈ (pascalCase s).toList, isPart c = true := by
  cases runs : capitalizeRuns true s.toList with
  | nil =>
    have parts : "Component".toList.all isPart = true := by decide
    rw [pascalCase_of_nil runs]
    exact List.all_eq_true.mp parts
  | cons c rest =>
    have parts : ∀ d ∈ c :: rest, isPart d = true := by
      intro d member
      apply isPart_of_isKept
      rw [← runs] at member
      exact isKept_of_mem_capitalizeRuns d member
    rw [toList_pascalCase runs]
    cases c.isDigit with
    | false => exact parts
    | true =>
      simp only [List.mem_cons, forall_eq_or_imp] at parts
      simpa using ⟨by decide, parts⟩

private theorem oneLine_pascalCase (s : String) : '\n' ∉ (pascalCase s).toList := by
  intro member
  cases isPart_of_mem_pascalCase _ member

/-- A name in Pascal case is an identifier without line breaks and in Pascal case already. It is a
fixed name if nothing of the text can be kept. Otherwise it holds what is kept, with capitals where
runs start and an underscore in front of a digit. So the name of a file is an identifier, whatever
its path. -/
theorem pascalCase_spec (s : String) :
    isIdentifier (pascalCase s) = true ∧ '\n' ∉ (pascalCase s).toList ∧
      pascalCase (pascalCase s) = pascalCase s ∧
      (keptCapitalized s.toList = [] → pascalCase s = "Component") ∧
      (∀ c rest, keptCapitalized s.toList = c :: rest →
        (pascalCase s).toList = if c.isDigit then '_' :: c :: rest else c :: rest) ∧
      ∀ path, isIdentifier (ofPath path) = true ∧ '\n' ∉ (ofPath path).toList := by
  rw [← capitalizeRuns_eq_keptCapitalized]
  refine ⟨isIdentifier_pascalCase s, oneLine_pascalCase s, pascalCase_pascalCase s,
    pascalCase_of_nil, fun c rest => toList_pascalCase, fun path => ?_⟩
  exact ⟨isIdentifier_pascalCase (Path.stem path), oneLine_pascalCase (Path.stem path)⟩

/-- A digit in front, a run that starts with a dollar sign, and a text of which nothing is kept. -/
theorem numbered_pascalCase :
    keptCapitalized "404-my_$page".toList = "404My$page".toList ∧
      (pascalCase "404-my_$page").toList = "_404My$page".toList ∧
      keptCapitalized "_-é".toList = [] ∧ pascalCase "_-é" = "Component" := by
  have kept : keptCapitalized "404-my_$page".toList = "404My$page".toList := by decide
  have nothing : keptCapitalized "_-é".toList = [] := by decide
  obtain ⟨_, _, _, _, whole, _⟩ := pascalCase_spec "404-my_$page"
  obtain ⟨_, _, _, empty, _⟩ := pascalCase_spec "_-é"
  exact ⟨kept, whole _ _ kept, nothing, empty nothing⟩

end ExportInventory.Name
