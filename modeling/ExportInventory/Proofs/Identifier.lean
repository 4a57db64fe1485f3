import ExportInventory.Proofs.PublicName

/-!
Which of the names in a report are identifiers. The names in a tree are checked to be. Those that
are read off a text may go on with word characters of any script, and so may fail to be.
-/
namespace ExportInventory

namespace Name

theorem toNat_lt_of_isAlphanum {c : Char} (alphanumeric : c.isAlphanum = true) : c.toNat < 128 := by
  have bound : c.val ≤ 'z'.val := by
    unfold Char.isAlphanum Char.isAlpha Char.isUpper Char.isLower Char.isDigit at alphanumeric
    simp only [Bool.or_eq_true, Bool.and_eq_true, decide_eq_true_eq] at alphanumeric
    rcases alphanumeric with (⟨_, capital⟩ | ⟨_, small⟩) | ⟨_, digit⟩
    · exact UInt32.le_trans capital (by decide)
    · exact small
    · exact UInt32.le_trans digit (by decide)
  exact Nat.lt_of_le_of_lt (UInt32.le_iff_toNat_le.mp bound) (by decide)

theorem toNat_lt_of_isPart {c : Char} (part : isPart c = true) : c.toNat < 128 := by
  unfold isPart at part
  simp only [Bool.or_eq_true, beq_iff_eq] at part
  rcases part with (alphanumeric | rfl) | rfl
  · exact toNat_lt_of_isAlphanum alphanumeric
  · decide
  · decide

theorem isPart_of_isStart {c : Char} (start : isStart c = true) : isPart c = true := by
  unfold isStart at start
  unfold isPart Char.isAlphanum
  simp only [Bool.or_eq_true] at start ⊢
  rcases start with (letter | underscore) | dollar
  · exact .inl (.inl (.inl letter))
  · exact .inl (.inr underscore)
  · exact .inr dollar

private theorem allParts_of_forall {cs : List Char} (parts : ∀ c ∈ cs, isPart c = true) :
    allParts cs = true := by
  induction cs with
  | nil => rfl
  | cons c rest ih =>
    have first := parts c List.mem_cons_self
    have more := ih fun d member => parts d (List.mem_cons_of_mem c member)
    unfold allParts
    split
    · rfl
    · rfl
    · rename_i equal
      cases equal
      rw [first, more]
      rfl

theorem toNat_lt_of_allParts {cs : List Char} (parts : allParts cs = true) :
    ∀ c ∈ cs, c.toNat < 128 := by
  induction cs with
  | nil => intro c member; cases member
  | cons first rest ih =>
    unfold allParts at parts
    split at parts
    · rename_i equal
      cases equal
    · rename_i equal
      cases equal
      intro c member
      rw [List.mem_singleton.mp member]
      decide
    · rename_i equal
      cases equal
      obtain ⟨part, more⟩ := Bool.and_eq_true_iff.mp parts
      intro c member
      rcases List.mem_cons.mp member with rfl | behind
      · exact toNat_lt_of_isPart part
      · exact ih more c behind

theorem isIdentifier_of_toList {name : String} {first : Char} {rest : List Char}
    (chars : name.toList = first :: rest) (start : isStart first = true)
    (parts : ∀ c ∈ rest, isPart c = true) : isIdentifier name = true := by
  unfold isIdentifier
  rw [chars]
  dsimp only
  rw [start, allParts_of_forall parts]
  rfl

theorem toNat_lt_of_isIdentifier {name : String} (identifier : isIdentifier name = true) :
    ∀ c ∈ name.toList, c.toNat < 128 := by
  unfold isIdentifier at identifier
  split at identifier
  · cases identifier
  · rename_i first rest chars
    obtain ⟨start, parts⟩ := Bool.and_eq_true_iff.mp identifier
    rw [chars]
    intro c member
    rcases List.mem_cons.mp member with rfl | behind
    · exact toNat_lt_of_isPart (isPart_of_isStart start)
    · exact toNat_lt_of_allParts parts c behind

theorem isPart_of_isKept {c : Char} (kept : isKept c = true) : isPart c = true := by
  unfold isKept at kept
  unfold isPart
  simp only [Bool.or_eq_true] at kept ⊢
  rcases kept with alphanumeric | dollar
  · exact .inl (.inl alphanumeric)
  · exact .inr dollar

private theorem isKept_toUpper {c : Char} (kept : isKept c = true) : isKept c.toUpper = true := by
  have small := toNat_lt_of_isPart (isPart_of_isKept kept)
  have each : ∀ n < 128, isKept (Char.ofNat n) = true → isKept (Char.ofNat n).toUpper = true := by
    decide +kernel
  have here := each c.toNat small
  rw [Char.ofNat_toNat] at here
  exact here kept

theorem isKept_of_mem_capitalizeRuns {fresh : Bool} {cs : List Char} :
    ∀ c ∈ capitalizeRuns fresh cs, isKept c = true := by
  induction cs generalizing fresh with
  | nil => intro c member; cases member
  | cons first rest ih =>
    intro c member
    unfold capitalizeRuns at member
    split at member
    · rename_i kept
      rcases List.mem_cons.mp member with same | behind
      · rw [same]
        split
        · exact isKept_toUpper kept
        · exact kept
      · exact ih c behind
    · exact ih c member

theorem isIdentifier_pascalCase (s : String) : isIdentifier (pascalCase s) = true := by
  unfold pascalCase
  split
  · decide
  · rename_i c rest runs
    have kept : ∀ d ∈ c :: rest, isKept d = true := by
      rw [← runs]
      exact isKept_of_mem_capitalizeRuns
    have parts : ∀ d ∈ c :: rest, isPart d = true :=
      fun d member => isPart_of_isKept (kept d member)
    cases digit : c.isDigit with
    | true => exact isIdentifier_of_toList (String.toList_ofList) (by decide) parts
    | false =>
      refine isIdentifier_of_toList (String.toList_ofList) ?_
        fun d member => parts d (List.mem_cons_of_mem c member)
      have first := kept c List.mem_cons_self
      unfold isKept Char.isAlphanum at first
      unfold isStart
      rw [digit, Bool.or_false, Bool.or_eq_true] at first
      simp only [Bool.or_eq_true]
      rcases first with letter | dollar
      · exact .inl (.inl letter)
      · exact .inr dollar

end Name

namespace ExportTable

private theorem isIdentifier_of_bindingOf {name asName : String} {given : Option String}
    {reexport : Bool}
    (known : (bindingOf name given reexport).exportedAs = some asName) :
    Name.isIdentifier asName = true := by
  unfold bindingOf at known
  generalize (if name = "default" then (given.getD "", none) else (name, given)) = written at known
  obtain ⟨written, other⟩ := written
  dsimp only at known
  split at known
  · cases known
  · obtain ⟨_, allowed⟩ := Option.filter_eq_some_iff.mp known
    rw [Bool.or_eq_true, decide_eq_true_eq] at allowed
    rcases allowed with rfl | identifier
    · decide
    · exact identifier

variable {s : Source}

private theorem isIdentifier_of_listBindings {statement : Tree} {b : Binding}
    (member : b ∈ listBindings s statement) {asName : String} (known : b.exportedAs = some asName) :
    Name.isIdentifier asName = true := by
  obtain ⟨clause, _, inside⟩ := List.mem_flatMap.mp member
  unfold clauseBindings at inside
  split at inside
  · obtain ⟨specifier, _, given⟩ := List.mem_filterMap.mp inside
    unfold specifierBinding? at given
    split at given
    · cases given
    · obtain ⟨n, _, rfl⟩ := Option.map_eq_some_iff.mp given
      exact isIdentifier_of_bindingOf known
  · cases inside

private theorem exportedAs_declarationBindings {declaration : Tree} {visibility : Visibility}
    {b : Binding}
    (member : b ∈ declarationBindings s declaration visibility) : b.exportedAs = none := by
  unfold declarationBindings at member
  split at member
  · split at member <;> (rw [List.mem_singleton.mp member]; rfl)
  · split at member
    · obtain ⟨declarator, _, given⟩ := List.mem_filterMap.mp member
      unfold declaratorBinding? at given
      split at given
      · cases given
      · split at given
        · split at given
          · rw [← Option.some.inj given]
            rfl
          · cases given
        · cases given
    · cases member

private theorem exportedAs_of_aliasFor? {name asName : String} {b : Binding}
    (given : aliasFor? name b = some asName) : b.exportedAs = some asName := by
  unfold aliasFor? newAlias? at given
  split at given
  · split at given
    · rename_i shown
      split at given
      · rw [shown, given]
      · cases given
    · cases given
  · cases given

private theorem isIdentifier_of_allBindings {b : Binding} (member : b ∈ allBindings s) :
    Name.isIdentifier b.name = true ∧
      ∀ asName, b.exportedAs = some asName → Name.isIdentifier asName = true := by
  obtain ⟨statement, _, bound⟩ := List.mem_flatMap.mp member
  unfold bindingsOf at bound
  obtain ⟨inside, entered⟩ := List.mem_filter.mp bound
  refine ⟨(Bool.and_eq_true_iff.mp entered).1, fun asName known => ?_⟩
  cases content : contentOf statement with
  | declaration declaration =>
    rw [content] at inside
    rw [exportedAs_declarationBindings inside] at known
    cases known
  | value value =>
    rw [content] at inside
    obtain ⟨target, _, rfl⟩ := Option.map_eq_some_iff.mp (Option.mem_toList.mp inside)
    cases known
  | lists =>
    rw [content] at inside
    exact isIdentifier_of_listBindings inside known

private theorem isIdentifier_publicName {name : String}
    (exported : (ofSource s).exports name = true) :
    Name.isIdentifier ((ofSource s).publicationOf name).publicName = true := by
  rw [exports_ofSource, List.any_eq_true] at exported
  obtain ⟨b, member, same⟩ := exported
  have plain : Name.isIdentifier name = true := by
    rw [← beq_iff_eq.mp same]
    exact (isIdentifier_of_allBindings member).1
  rw [publicName_publicationOf]
  unfold publicNameOf
  split
  · exact plain
  · cases known : (ofSource s).aliases.lookup name with
    | none => exact plain
    | some asName =>
      rw [lookup_aliases_ofSource] at known
      obtain ⟨b, member, given⟩ := List.exists_of_findSome?_eq_some known
      exact (isIdentifier_of_allBindings member).2 asName (exportedAs_of_aliasFor? given)

end ExportTable

theorem Classification.isIdentifier_publications (s : Source) (budget : Nat) :
    ∀ p ∈ publications s budget, Name.isIdentifier p.publicName = true := by
  intro p member
  obtain ⟨d, inside, rfl⟩ := List.mem_map.mp member
  exact ExportTable.isIdentifier_publicName ((mem_exported_iff s budget d).mp inside).1

namespace Sketch
namespace Matcher

variable {α β : Type} {P : CodePoint → Prop}

/-- Where all code points ahead have a property, what is read has another one, and those behind it
have the first. -/
def Reads (P : CodePoint → Prop) (m : Matcher α) (Q : α → Prop) : Prop :=
  ∀ place a behind, (∀ c ∈ place.rest, P c) → m place = some (a, behind) →
    Q a ∧ ∀ c ∈ behind.rest, P c

/-- Whatever is read, the code points behind it are some of those ahead. -/
abbrev Passes (P : CodePoint → Prop) (m : Matcher α) : Prop := Reads P m fun _ => True

namespace Reads

theorem bind {m : Matcher α} {f : α → Matcher β} {Q : α → Prop} {R : β → Prop}
    (first : Reads P m Q) (next : ∀ a, Q a → Reads P (f a) R) : Reads P (m >>= f) R := by
  intro place b behind ahead ok
  obtain ⟨a, between, read, more⟩ := bind_eq_some ok
  obtain ⟨holds, rest⟩ := first place a between ahead read
  exact next a holds between b behind rest more

theorem pass {m : Matcher α} {f : α → Matcher β} {R : β → Prop}
    (first : Passes P m) (next : ∀ a, Reads P (f a) R) : Reads P (m >>= f) R :=
  first.bind fun a _ => next a

theorem pure {Q : α → Prop} {a : α} (holds : Q a) : Reads P (pure a : Matcher α) Q := by
  rintro place a behind ahead ok
  obtain ⟨rfl, rfl⟩ := Prod.mk.inj (Option.some.inj ok)
  exact ⟨holds, ahead⟩

theorem orElse {m m' : Matcher α} {Q : α → Prop} (first : Reads P m Q) (second : Reads P m' Q) :
    Reads P (m <|> m') Q := by
  intro place a behind ahead ok
  change ((m place) <|> (m' place)) = some (a, behind) at ok
  cases here : m place with
  | some result =>
    rw [here] at ok
    exact first place a behind ahead (here.trans ok)
  | none =>
    rw [here] at ok
    exact second place a behind ahead ok

theorem failure {Q : α → Prop} : Reads P (failure : Matcher α) Q := by
  intro place a behind _ ok
  cases ok

theorem of_mem_all {m : Matcher α} {Q : α → Prop} (reads : Reads P m Q) {t : Text}
    (text : ∀ c ∈ t, P c) {i : Nat} {a : α} (member : (i, a) ∈ m.all t) : Q a := by
  obtain ⟨_, before, behind, fits⟩ := mem_all member
  exact (reads _ a behind (fun c inside => text c (List.mem_of_mem_drop inside)) fits).1

end Reads

theorem rest_skip {place : Place} {read : Text} (ahead : ∀ c ∈ place.rest, P c) :
    ∀ c ∈ (place.skip read).rest, P c :=
  fun c member => ahead c (List.mem_of_mem_drop member)

theorem reads_one (p : CodePoint → Bool) : Reads P (one p) fun c => p c = true ∧ P c := by
  intro place a behind ahead ok
  unfold one at ok
  split at ok
  · cases ok
  · rename_i c rest here
    rw [here] at ahead
    split at ok
    · rename_i holds
      obtain ⟨rfl, rfl⟩ := Prod.mk.inj (Option.some.inj ok)
      exact ⟨⟨holds, ahead c List.mem_cons_self⟩,
        fun d member => ahead d (List.mem_cons_of_mem c member)⟩
    · cases ok

theorem reads_span (p : CodePoint → Bool) :
    Reads P (span p) fun read => ∀ c ∈ read, p c = true ∧ P c := by
  intro place a behind ahead ok
  obtain ⟨rfl, rfl⟩ := Prod.mk.inj (Option.some.inj ok)
  refine ⟨fun c member => ⟨?_, ?_⟩, rest_skip ahead⟩
  · exact List.all_eq_true.mp List.all_takeWhile c member
  · exact ahead c ((List.takeWhile_sublist p).subset member)

theorem passes_literal (s : String) : Passes P (literal s) := by
  intro place a behind ahead ok
  rw [(literal_eq_some ok).2]
  exact ⟨trivial, rest_skip ahead⟩

theorem passes_anyLiteral (words : List String) : Passes P (anyLiteral words) := by
  induction words with
  | nil => exact .failure
  | cons word rest ih => exact (passes_literal word).orElse ih

theorem passes_blanks : Passes P blanks :=
  (reads_span CodePoint.isBlank).bind fun _ _ => .pure trivial

theorem passes_gap : Passes P gap :=
  (reads_one CodePoint.isBlank).bind fun _ _ => passes_blanks

theorem passes_boundary : Passes P boundary := by
  intro place a behind ahead ok
  unfold boundary at ok
  split at ok
  · obtain ⟨_, rfl⟩ := Prod.mk.inj (Option.some.inj ok)
    exact ⟨trivial, ahead⟩
  · cases ok

theorem passes_notAhead (m : Matcher α) : Passes P (notAhead m) := by
  intro place a behind ahead ok
  unfold notAhead at ok
  split at ok
  · cases ok
  · obtain ⟨_, rfl⟩ := Prod.mk.inj (Option.some.inj ok)
    exact ⟨trivial, ahead⟩

theorem passes_maybe {m : Matcher Unit} (passes : Passes P m) : Passes P (maybe m) :=
  passes.orElse (.pure trivial)

theorem passes_repeated {m : Matcher Unit} (passes : Passes P m) (fuel : Nat) :
    Passes P (repeated m fuel) := by
  induction fuel with
  | zero => exact .pure trivial
  | succ fuel ih =>
    exact (passes.pass fun _ => ih.pass fun _ => .pure trivial).orElse (.pure trivial)

theorem passes_many {m : Matcher Unit} (passes : Passes P m) : Passes P (many m) :=
  fun place a behind ahead ok => passes_repeated passes _ place a behind ahead ok

/-- A name that starts like an identifier and goes on with word characters that have a property. -/
def IsRead (P : CodePoint → Prop) (name : String) : Prop :=
  ∃ first rest, name.toList = first :: rest ∧ Name.isStart first = true ∧
    ∀ c ∈ rest, (CodePoint.scalar c).continuesIdentifier = true ∧ P (.scalar c)

private theorem eq_scalar_of_continues {c : CodePoint} (continues : c.continuesIdentifier = true) :
    c = .scalar c.toChar := by
  cases c with
  | scalar x => rfl
  | surrogate i => simp [CodePoint.continuesIdentifier, CodePoint.isWord] at continues

private theorem isStart_of_starts {c : CodePoint} (starts : c.startsIdentifier = true) :
    Name.isStart c.toChar = true := by
  cases c with
  | scalar x => exact starts
  | surrogate i => cases starts

theorem reads_identifier : Reads P identifier (IsRead P) := by
  refine (reads_one CodePoint.startsIdentifier).bind fun first start => ?_
  refine (reads_span CodePoint.continuesIdentifier).bind fun rest continues => ?_
  refine .pure ⟨first.toChar, rest.map CodePoint.toChar, String.toList_ofList,
    isStart_of_starts start.1, ?_⟩
  intro x member
  obtain ⟨c, inside, rfl⟩ := List.mem_map.mp member
  have scalar := eq_scalar_of_continues (continues c inside).1
  rw [← scalar]
  exact continues c inside

private theorem IsRead.isIdentifier {name : String} (read : IsRead P name)
    (ascii : ∀ c ∈ name.toList, c.toNat < 128) : Name.isIdentifier name = true := by
  obtain ⟨first, rest, chars, start, continues⟩ := read
  refine Name.isIdentifier_of_toList chars start fun c member => ?_
  have small : c.toNat < 128 := ascii c (by rw [chars]; exact List.mem_cons_of_mem first member)
  have word := (continues c member).1
  unfold CodePoint.continuesIdentifier CodePoint.isWord at word
  dsimp only at word
  rw [if_pos small, Bool.or_eq_true, Bool.or_eq_true] at word
  unfold Name.isPart
  rw [Bool.or_eq_true, Bool.or_eq_true]
  rcases word with word | dollar
  · exact .inl word
  · exact .inr (by simpa using dollar)

private theorem IsRead.toNat_lt {name : String} (read : IsRead P name)
    (words : ∀ c, P c → c.isWord = true → c.toNat < 128) : ∀ c ∈ name.toList, c.toNat < 128 := by
  obtain ⟨first, rest, chars, start, continues⟩ := read
  intro c member
  rw [chars] at member
  rcases List.mem_cons.mp member with rfl | behind
  · exact Name.toNat_lt_of_isPart (Name.isPart_of_isStart start)
  · obtain ⟨part, holds⟩ := continues c behind
    rcases Bool.or_eq_true_iff.mp part with word | dollar
    · exact words _ holds word
    · obtain rfl : c = '$' := by simpa using dollar
      decide

end Matcher

open Matcher

section Exports

variable {P : CodePoint → Prop}

theorem passes_exportDefault : Passes P exportDefault :=
  (passes_literal _).pass fun _ => passes_gap.pass fun _ => (passes_literal _).pass fun _ =>
    passes_gap

theorem passes_enclosed {item : Matcher Unit} (passes : Passes P item) : Passes P (enclosed item) :=
  (passes_literal _).pass fun _ => (passes_many passes).pass fun _ => passes_literal _

theorem passes_argument (depth : Nat) : Passes P (argument depth) := by
  have single : Passes P noParenthesis := (reads_one _).bind fun _ _ => .pure trivial
  induction depth with
  | zero => exact single
  | succ depth ih => exact single.orElse (passes_enclosed ih)

theorem passes_arguments : Passes P arguments := passes_enclosed (passes_argument 2)

theorem passes_callOf (functions : List String) : Passes P (callOf functions) :=
  (passes_maybe (passes_literal _)).pass fun _ => (passes_anyLiteral functions).pass fun _ =>
    passes_blanks.pass fun _ => (passes_literal _).pass fun _ => passes_blanks

theorem passes_outerWrappers : Passes P outerWrappers := passes_many (passes_callOf _)

theorem reads_connected : Reads P connected (IsRead P) :=
  passes_outerWrappers.pass fun _ => (passes_literal _).pass fun _ => passes_blanks.pass fun _ =>
    passes_arguments.pass fun _ => passes_blanks.pass fun _ => (passes_literal _).pass fun _ =>
    passes_blanks.pass fun _ => reads_identifier.bind fun _ read => passes_blanks.pass fun _ =>
    (passes_literal _).pass fun _ => .pure read

private theorem reads_connectedDefault : Reads P connectedDefault (IsRead P) :=
  passes_exportDefault.pass fun _ => reads_connected

private theorem reads_connectedVariable : Reads P connectedVariable fun names => IsRead P names.2 :=
  passes_boundary.pass fun _ => (passes_anyLiteral _).pass fun _ => passes_gap.pass fun _ =>
    reads_identifier.bind fun _ _ => passes_blanks.pass fun _ => (passes_literal _).pass fun _ =>
    passes_blanks.pass fun _ => reads_connected.bind fun _ read => .pure read

private theorem reads_wrapped : Reads P wrappedDefault.wrapped (IsRead P) :=
  reads_identifier.bind fun _ read => passes_blanks.pass fun _ =>
    (reads_one _).bind fun _ _ => .pure read

private theorem reads_wrappedDefault : Reads P wrappedDefault (IsRead P) := by
  refine passes_exportDefault.pass fun _ => passes_outerWrappers.pass fun outer => ?_
  refine ((passes_callOf _).pass fun _ => reads_wrapped).orElse ?_
  have guarded : Passes P (guard (0 < outer) : Matcher Unit) := by
    unfold guard
    split
    · exact .pure trivial
    · exact .failure
  exact guarded.pass fun _ => reads_wrapped

theorem passes_asyncWord : Passes P asyncWord := (passes_literal _).pass fun _ => passes_gap

theorem passes_functionWord : Passes P functionWord :=
  (passes_literal _).pass fun _ => passes_blanks.pass fun _ =>
    (passes_maybe (passes_literal _)).pass fun _ => passes_blanks

theorem passes_abstractWord : Passes P abstractWord := (passes_literal _).pass fun _ => passes_gap

private theorem reads_declaredDefault : Reads P declaredDefault (IsRead P) := by
  refine passes_exportDefault.pass fun _ => (passes_maybe passes_asyncWord).pass fun _ => ?_
  refine Reads.orElse (passes_functionWord.pass fun _ => reads_identifier) ?_
  exact (passes_maybe passes_abstractWord).pass fun _ => (passes_literal _).pass fun _ =>
    passes_gap.pass fun _ => reads_identifier

theorem passes_statementEnd : Passes P statementEnd := by
  refine (reads_span CodePoint.isBlank).bind fun read _ => ?_
  intro place a behind ahead ok
  dsimp only at ok
  split at ok
  · obtain ⟨_, rfl⟩ := Prod.mk.inj (Option.some.inj ok)
    exact ⟨trivial, ahead⟩
  · cases ok

private theorem reads_namedDefault : Reads P namedDefault (IsRead P) :=
  passes_exportDefault.pass fun _ => (passes_notAhead _).pass fun _ =>
    reads_identifier.bind fun _ read => passes_statementEnd.pass fun _ => .pure read

theorem passes_declarationWord : Passes P declarationWord := by
  refine .orElse ?_ (.orElse ?_ ?_)
  · exact (passes_anyLiteral _).pass fun _ => passes_gap
  · refine (passes_maybe passes_asyncWord).pass fun _ => (passes_literal _).pass fun _ => ?_
    exact (passes_blanks.pass fun _ => (passes_literal _).pass fun _ => passes_gap).orElse passes_gap
  · exact (passes_maybe passes_abstractWord).pass fun _ => (passes_literal _).pass fun _ =>
      passes_gap

private theorem reads_namedDeclaration : Reads P namedDeclaration (IsRead P) :=
  (passes_literal _).pass fun _ => passes_gap.pass fun _ =>
    (passes_maybe ((passes_literal _).pass fun _ => passes_gap)).pass fun _ =>
    passes_declarationWord.pass fun _ => reads_identifier

private theorem isIdentifier_of_listed? {offset : Nat} {item : Text} {found : FoundExport}
    (listed : listed? offset item = some found) :
    Name.isIdentifier found.name = true ∧
      ∀ asName, found.exportedAs = some asName → Name.isIdentifier asName = true := by
  unfold listed? at listed
  split at listed
  · cases listed
  · rename_i name more _
    dsimp only at listed
    split at listed
    · cases listed
    · rename_i refused
      have identifier : Name.isIdentifier name = true := by simpa using refused
      have known : ∀ asName : Option String,
          (∀ given, asName = some given → Name.isIdentifier given = true) →
          (if asName = some "default" then some (FoundExport.default offset name)
            else some { FoundExport.named offset name with exportedAs := asName }) = some found →
          Name.isIdentifier found.name = true ∧
            ∀ given, found.exportedAs = some given → Name.isIdentifier given = true := by
        intro asName allowed chosen
        split at chosen
        · obtain rfl := Option.some.inj chosen
          exact ⟨identifier, fun given renamed => by cases renamed⟩
        · obtain rfl := Option.some.inj chosen
          exact ⟨identifier, allowed⟩
      split at listed
      · refine known _ (fun given renamed => ?_) listed
        split at renamed
        · rename_i allowed
          obtain rfl := Option.some.inj renamed
          rcases allowed with rfl | checked
          · decide
          · exact checked
        · cases renamed
      · exact known none (fun given renamed => by cases renamed) listed

/-- What is found goes by a name that is read off the text, or by one that is an identifier. An
alias is one, too. -/
theorem Strategy.name_of_scan {s : Strategy} {t : Text} {fileName : String} {found : FoundExport}
    (text : ∀ c ∈ t, P c) (file : Name.isIdentifier fileName = true)
    (member : found ∈ s.scan t fileName) :
    (Name.isIdentifier found.name = true ∨ IsRead P found.name) ∧
      ∀ asName, found.exportedAs = some asName → Name.isIdentifier asName = true := by
  -- Only the items of a list are checked after they have been read.
  cases s with
  | connector =>
    rcases List.mem_append.mp (List.mem_mergeSort.mp member) with direct | bound
    · obtain ⟨⟨offset, name⟩, inside, rfl⟩ := List.mem_map.mp direct
      exact ⟨.inr (reads_connectedDefault.of_mem_all text inside), fun _ known => by cases known⟩
    · obtain ⟨⟨offset, names⟩, inside, rfl⟩ := List.mem_map.mp bound
      have read := reads_connectedVariable.of_mem_all text (List.mem_filter.mp inside).1
      exact ⟨.inr read, fun _ known => by cases known⟩
  | wrapper =>
    obtain ⟨⟨offset, name⟩, inside, rfl⟩ := List.mem_map.mp member
    exact ⟨.inr (reads_wrappedDefault.of_mem_all text inside), fun _ known => by cases known⟩
  | default =>
    rcases List.mem_append.mp (List.mem_mergeSort.mp member) with named | inline
    · rcases List.mem_append.mp named with declared | alone
      · obtain ⟨⟨offset, name⟩, inside, rfl⟩ := List.mem_map.mp declared
        exact ⟨.inr (reads_declaredDefault.of_mem_all text inside), fun _ known => by cases known⟩
      · obtain ⟨⟨offset, name⟩, inside, rfl⟩ := List.mem_map.mp alone
        exact ⟨.inr (reads_namedDefault.of_mem_all text inside), fun _ known => by cases known⟩
    · obtain ⟨⟨offset, _⟩, _, rfl⟩ := List.mem_map.mp inline
      exact ⟨.inl file, fun _ known => by cases known⟩
  | namedDeclaration =>
    obtain ⟨⟨offset, name⟩, inside, rfl⟩ := List.mem_map.mp member
    exact ⟨.inr (reads_namedDeclaration.of_mem_all text inside), fun _ known => by cases known⟩
  | exportList =>
    obtain ⟨⟨offset, items, reexport⟩, _, inside⟩ := List.mem_flatMap.mp member
    dsimp only at inside
    split at inside
    · cases inside
    · obtain ⟨item, _, listed⟩ := List.mem_filterMap.mp inside
      obtain ⟨name, asName⟩ := isIdentifier_of_listed? listed
      exact ⟨.inl name, asName⟩

end Exports

namespace Analysis

private theorem publicName_of_publications (a : Analysis) {Q : String → Prop}
    (named : ∀ found ∈ a.exports.ordered,
      Q found.name ∧ ∀ asName, found.exportedAs = some asName → Q asName)
    (file : Q (Name.ofPath a.path)) : ∀ p ∈ a.publications, Q p.publicName := by
  intro p member
  unfold publications at member
  split at member
  · rw [List.mem_singleton.mp member]
    change Q (a.defaultName?.getD (Name.ofPath a.path))
    cases default : a.defaultName? with
    | none =>
      rw [Option.getD_none]
      exact file
    | some name =>
      rw [Option.getD_some]
      obtain ⟨found, chosen, rfl⟩ := Option.map_eq_some_iff.mp default
      have first : found ∈ a.exports.ordered := by
        rw [FoundExports.ordered, chosen]
        exact List.mem_cons_self
      exact (named found first).1
  · obtain ⟨c, reported, rfl⟩ := List.mem_map.mp member
    have found := List.mem_map_of_mem (f := Candidate.found) (List.mem_filter.mp reported).1
    obtain ⟨name, asName⟩ := named c.found (a.found_candidates_sublist.subset found)
    unfold publicationOf Publication.publicName
    dsimp only
    split
    · exact name
    · cases known : c.found.exportedAs.filter (· ≠ "") with
      | none => exact name
      | some other => exact asName other (Option.filter_eq_some_iff.mp known).1

private theorem isIdentifier_or_isRead {P : CodePoint → Prop} {t : Text}
    (text : ∀ c ∈ t.blankComments, P c)
    (path : String) (fragmentMarkup : Text → Bool) :
    ∀ p ∈ (ofText t path fragmentMarkup).publications,
      Name.isIdentifier p.publicName = true ∨ IsRead P p.publicName := by
  have file : Name.isIdentifier (Name.ofPath path) = true := Name.isIdentifier_pascalCase _
  refine publicName_of_publications (Q := fun name => Name.isIdentifier name = true ∨ IsRead P name)
    (ofText t path fragmentMarkup) (fun found member => ?_) (.inl file)
  obtain ⟨s, _, scanned⟩ := FoundExports.exists_scan_of_ordered member
  obtain ⟨name, asName⟩ := Strategy.name_of_scan text file scanned
  exact ⟨name, fun given renamed => .inl (asName given renamed)⟩

end Analysis
end Sketch

namespace Engine

variable (e : Engine) (t : Text) (path : String)

private theorem exists_publication {r : Record} (member : r ∈ (e.analyze t path).records) :
    ∃ p ∈ e.publications t path, p.publicName = r.name :=
  List.mem_map.mp ((e.names_analyze_perm t path).mem_iff.mp (List.mem_map_of_mem member))

private theorem isIdentifier_or_isRead_publications {P : CodePoint → Prop}
    (text : ∀ c ∈ t.blankComments, P c) :
    ∀ p ∈ e.publications t path,
      Name.isIdentifier p.publicName = true ∨ Sketch.Matcher.IsRead P p.publicName := by
  have sketched := Sketch.Analysis.isIdentifier_or_isRead text path (e.fragmentMarkup path)
  unfold publications
  split
  · exact sketched
  · split
    · exact sketched
    · exact fun p member => .inl (Classification.isIdentifier_publications _ _ p member)

/-- A name in a report is an identifier exactly if it is ASCII. Names from a tree are, and so are
all names if the text has no other word characters outside its comments. -/
theorem isIdentifier_name_analyze :
    (∀ r ∈ (e.analyze t path).records,
      (Name.isIdentifier r.name = true ↔ ∀ c ∈ r.name.toList, c.toNat < 128)) ∧
    (∀ dialect source, e.parse? t path = some (dialect, source) →
      Classification.records source e.budget ≠ [] →
      ∀ r ∈ (e.analyze t path).records, Name.isIdentifier r.name = true) ∧
    ((∀ c ∈ t.blankComments, c.isWord = true → c.toNat < 128) →
      ∀ r ∈ (e.analyze t path).records, Name.isIdentifier r.name = true) := by
  refine ⟨fun r member => ?_, fun dialect source parsed described r member => ?_,
    fun words r member => ?_⟩
  · refine ⟨Name.toNat_lt_of_isIdentifier, fun ascii => ?_⟩
    obtain ⟨p, published, shown⟩ := e.exists_publication t path member
    rw [← shown] at ascii ⊢
    rcases e.isIdentifier_or_isRead_publications t path (P := fun _ => True) (fun _ _ => trivial)
      p published with identifier | read
    · exact identifier
    · exact read.isIdentifier ascii
  · obtain ⟨p, published, shown⟩ := e.exists_publication t path member
    have given : ¬(Classification.publications source e.budget).isEmpty = true := by
      rw [← Classification.isEmpty_publications, List.isEmpty_iff]
      exact described
    unfold publications at published
    rw [parsed] at published
    dsimp only at published
    rw [if_neg given] at published
    rw [← shown]
    exact Classification.isIdentifier_publications _ _ p published
  · obtain ⟨p, published, shown⟩ := e.exists_publication t path member
    rw [← shown]
    rcases e.isIdentifier_or_isRead_publications t path words p published with identifier | read
    · exact identifier
    · exact read.isIdentifier (read.toNat_lt fun c holds => holds)

/-- Where the parser gives no tree, the name is read off the text and may have an accent. -/
def cafeEngine : Engine := ⟨fun _ _ => none, Budget.standard⟩

def cafeText (name : String) : Text :=
  Text.ofString ("export default function " ++ name ++ "() \x7b return <p/>; \x7d\n")

theorem isIdentifier_name_page :
    (cafeEngine.analyze (cafeText "Cafe") "/src/Page.jsx").records =
        [⟨"Cafe", .default, "/src/Page.jsx", .component, [], false, some 1⟩] ∧
      (∀ r ∈ (cafeEngine.analyze (cafeText "Cafe") "/src/Page.jsx").records,
        Name.isIdentifier r.name = true) ∧
      Classification.records pageSource Budget.standard ≠ [] ∧
      ∀ r ∈ (pageEngine.analyze pageText "/src/Page.jsx").records,
        Name.isIdentifier r.name = true := by
  have described : Classification.records pageSource Budget.standard ≠ [] := by
    rw [Classification.records_of_sorted _ _ (by decide +kernel)]
    decide +kernel
  have parsed : pageEngine.parse? pageText "/src/Page.jsx" =
      some (Script.Dialect.javascript, pageSource) := rfl
  obtain ⟨_, _, ascii⟩ := cafeEngine.isIdentifier_name_analyze (cafeText "Cafe") "/src/Page.jsx"
  obtain ⟨_, tree, _⟩ := pageEngine.isIdentifier_name_analyze pageText "/src/Page.jsx"
  exact ⟨by decide +kernel, ascii (by decide +kernel), described, tree _ _ parsed described⟩

theorem name_cafe_accented :
    (cafeEngine.analyze (cafeText "Café") "/src/Page.jsx").records =
        [⟨"Café", .default, "/src/Page.jsx", .component, [], false, some 1⟩] ∧
      Name.isIdentifier "Café" = false := by
  decide +kernel

end Engine
end ExportInventory
