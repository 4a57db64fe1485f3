import ExportInventory.Proofs.Extent
import ExportInventory.Proofs.Splitting

/-!
Parameter lists as they are written. The parameters that a text shows of a function are the names in
its list, each at its first place, whether the list stands alone or in the braces of an object
pattern, and whether the function is declared or is an arrow function that a constant holds.
-/
namespace ExportInventory

/-- Names of letters, digits and underscores, other than the word `function`. -/
def Name.isBare (name : String) : Bool :=
  isPlain name && !name.toList.contains '$' && name != "function"

/-- Code points that end the name of a parameter. -/
def CodePoint.nameEnds : List CodePoint := [':', '=', '?']

/-- Code points that are in no parameter: line breaks, commas, brackets and quotes. -/
def CodePoint.barred : List CodePoint := .scalar '\n' :: dividers

/-- A parameter with the blanks around its name. Dots stand before a name that gathers the rest, and
a type or a value may follow the name. -/
structure WrittenParameter where
  before : Text
  gathers : Bool
  name : String
  after : Text
  ending : Text
  isName : Name.isBare name = true := by decide
  blank : ∀ c ∈ before ++ after, c.isBlank = true := by decide
  ends : ∀ c ∈ ending.head?, c ∈ CodePoint.nameEnds := by decide
  inner : ∀ c ∈ before ++ (after ++ ending), c ∉ CodePoint.barred := by decide

namespace WrittenParameter

def dots (p : WrittenParameter) : Text := if p.gathers then Text.ofString "..." else []

/-- The parameter from its name on. -/
def core (p : WrittenParameter) : Text := Text.ofString p.name ++ (p.after ++ p.ending)

def text (p : WrittenParameter) : Text := p.before ++ (p.dots ++ p.core)

/-- Parameters with commas between them. `last` holds the blanks behind a comma at the end, or those
of an empty list. -/
def listText (last : Option Text) : List WrittenParameter → Text
  | [] => last.getD []
  | p :: rest =>
    p.text ++ if rest.isEmpty && last.isNone then [] else CodePoint.scalar ',' :: listText last rest

end WrittenParameter

/-- A parameter list, which may be a single object pattern. -/
structure ParameterList where
  parameters : List WrittenParameter
  last : Option Text
  braced : Bool
  blank : ∀ c ∈ last.getD [], c.isBlank = true ∧ c ≠ .scalar '\n' := by decide

/-- How a function is defined: it is declared, or a constant holds an arrow function. -/
inductive FunctionForm where
  | declared
  | arrow

namespace FunctionForm

def kind : FunctionForm → Sketch.RegionKind
  | declared => .function
  | arrow => .variable

/-- The definition of a function with a name and a list, and what follows. -/
def text (form : FunctionForm) (name : String) (list rest : Text) : Text :=
  match form with
  | declared => Text.ofString "function " ++ (Text.ofString name ++ (Text.ofString "(" ++
      (list ++ (Text.ofString ") \x7b" ++ rest))))
  | arrow => Text.ofString "const " ++ (Text.ofString name ++ (Text.ofString " = (" ++
      (list ++ (Text.ofString ") => " ++ rest))))

/-- What the head of the definition takes up. -/
def opening (form : FunctionForm) (name : String) : Text :=
  match form with
  | declared => Text.ofString "function " ++ (Text.ofString name ++ Text.ofString "(")
  | arrow => Text.ofString "const " ++ (Text.ofString name ++ Text.ofString " =")

/-- What stands between the head and the list. -/
def apart : FunctionForm → Text
  | declared => []
  | arrow => Text.ofString " ("

private theorem opening_ne_nil (form : FunctionForm) (name : String) : form.opening name ≠ [] := by
  cases form <;> exact List.cons_ne_nil _ _

private theorem exists_text (form : FunctionForm) (name : String) (list rest : Text) : ∃ more,
    form.text name list rest =
      form.opening name ++ (form.apart ++ (list ++ .scalar ')' :: more)) := by
  cases form with
  | declared => exact ⟨Text.ofString " \x7b" ++ rest, by simp [text, opening, apart, Text.ofString]⟩
  | arrow => exact ⟨Text.ofString " => " ++ rest, by simp [text, opening, apart, Text.ofString]⟩

end FunctionForm

namespace ParameterList

def names (l : ParameterList) : List String := l.parameters.map WrittenParameter.name

def inside (l : ParameterList) : Text := WrittenParameter.listText l.last l.parameters

def text (l : ParameterList) : Text :=
  if l.braced then CodePoint.scalar '{' :: (l.inside ++ [CodePoint.scalar '}']) else l.inside

end ParameterList

theorem CodePoint.not_word_of_isBlank {c : CodePoint} (blank : c.isBlank = true) :
    c.isWord = false := by
  have apart := not_continues_of_isBlank blank
  rw [continuesIdentifier, Bool.or_eq_false_iff] at apart
  exact apart.1

theorem CodePoint.not_part_of_nameEnds {c : CodePoint} (ends : c ∈ nameEnds) :
    c.isPart = false ∧ c.isBlank = false := by
  revert c
  decide

namespace Name

theorem isPlain_of_isBare {name : String} (bare : isBare name = true) : isPlain name = true := by
  simp only [isBare, Bool.and_eq_true] at bare
  exact bare.1.1

private theorem isWord_of_isBare {name : String} (bare : isBare name = true) :
    ∀ c ∈ Text.ofString name, c.isWord = true := by
  intro c member
  rcases CodePoint.isWord_of_isPart (isPart_of_isPlain (isPlain_of_isBare bare) c member) with
    word | rfl
  · exact word
  · have dollar : '$' ∈ name.toList := by simpa [Text.ofString] using member
    simp [isBare, dollar] at bare

theorem exists_cons_of_isPlain {name : String} (plain : isPlain name = true) :
    ∃ c more, Text.ofString name = c :: more ∧ c.isPart = true := by
  obtain ⟨c, more, chars⟩ := List.exists_cons_of_ne_nil (ofString_ne_nil_of_isPlain plain)
  exact ⟨c, more, chars, isPart_of_isPlain plain c (chars ▸ List.mem_cons_self)⟩

theorem inner_of_isPlain {name : String} (plain : isPlain name = true) :
    ∀ c ∈ Text.ofString name, c ∉ CodePoint.barred := by
  intro c member
  obtain ⟨solid, other⟩ := CodePoint.not_mark_of_isPart (isPart_of_isPlain plain c member)
  rw [CodePoint.barred, List.mem_cons, not_or]
  refine ⟨?_, CodePoint.not_divider_of_not_mark other⟩
  intro line
  rw [line] at solid
  cases solid

end Name

namespace WrittenParameter

variable (p : WrittenParameter)

theorem isPlain : Name.isPlain p.name = true := Name.isPlain_of_isBare p.isName

theorem blank_before : ∀ c ∈ p.before, c.isBlank = true :=
  fun c member => p.blank c (List.mem_append_left _ member)

theorem blank_after : ∀ c ∈ p.after, c.isBlank = true :=
  fun c member => p.blank c (List.mem_append_right _ member)

theorem inner_text : ∀ c ∈ p.text, c ∉ CodePoint.barred := by
  intro c member
  simp only [text, core, List.mem_append] at member
  rcases member with before | dot | name | after | ending
  · exact p.inner c (List.mem_append_left _ before)
  · have dot : c = .scalar '.' := by
      rw [dots] at dot
      split at dot
      · simpa [Text.ofString] using dot
      · cases dot
    rw [dot]
    decide
  · exact Name.inner_of_isPlain p.isPlain c name
  · exact p.inner c (by simp [after])
  · exact p.inner c (by simp [ending])

private theorem exists_listText (last : Option Text) (ps : List WrittenParameter) :
    ∃ more, listText last (p :: ps) = p.text ++ more ∧ ∀ c ∈ more.head?, c = .scalar ',' := by
  refine ⟨_, rfl, ?_⟩
  intro c first
  split at first
  · cases first
  · exact (Option.some.inj first).symm

theorem exists_core : ∃ c more, p.core = c :: more ∧ c.isPart = true := by
  obtain ⟨c, more, name, part⟩ := Name.exists_cons_of_isPlain p.isPlain
  exact ⟨c, more ++ (p.after ++ p.ending), by rw [core, name, List.cons_append], part⟩

end WrittenParameter

theorem ParameterList.mem_inside (l : ParameterList) : ∀ c ∈ l.inside,
    c = .scalar ',' ∨ c ∉ CodePoint.barred := by
  obtain ⟨ps, last, braced, blank⟩ := l
  have padding : ∀ c ∈ last.getD [], c ∉ CodePoint.barred := by
    intro c member
    obtain ⟨space, line⟩ := blank c member
    have other := CodePoint.not_divider_of_not_mark (CodePoint.not_mark_of_isBlank space)
    simp [CodePoint.barred, line, other]
  change ∀ c ∈ WrittenParameter.listText last ps, _
  induction ps with
  | nil => exact fun c member => .inr (padding c member)
  | cons p ps ih =>
    intro c member
    rw [WrittenParameter.listText, List.mem_append] at member
    rcases member with here | later
    · exact .inr (p.inner_text c here)
    · split at later
      · cases later
      · rcases List.mem_cons.mp later with comma | later
        · exact .inl comma
        · exact ih c later

namespace Sketch
open Matcher

namespace Region

theorem itemName_strip (item : Text) : itemName item.strip = itemName item := by
  rw [itemName, Text.strip_strip, itemName]

theorem itemName_of_strip {item : Text} (blank : item.strip = []) : itemName item = "" := by
  rw [← itemName_strip, blank]
  rfl

private theorem itemName_eq (item : Text) :
    itemName item = Text.toString (Text.strip ((if Text.startsWith item.strip "..."
      then item.strip.drop 3 else item.strip).takeWhile fun c => c ∉ CodePoint.nameEnds)) := by
  have same : (fun c : CodePoint => decide (c ∉ CodePoint.nameEnds)) =
      fun c : CodePoint => c ≠ ':' && c ≠ '=' && c ≠ '?' := by
    funext c
    simp [CodePoint.nameEnds, Bool.and_assoc]
  rw [same]
  rfl

private theorem strip_takeWhile_core (p : WrittenParameter) :
    Text.strip (p.core.takeWhile fun c => c ∉ CodePoint.nameEnds) = Text.ofString p.name := by
  have parts := Name.isPart_of_isPlain p.isPlain
  have front : ∀ c ∈ Text.ofString p.name ++ p.after,
      decide (c ∉ CodePoint.nameEnds) = true := by
    intro c member
    apply decide_eq_true
    intro ends
    obtain ⟨other, solid⟩ := CodePoint.not_part_of_nameEnds ends
    rcases List.mem_append.mp member with name | after
    · exact Bool.false_ne_true (other.symm.trans (parts c name))
    · exact Bool.false_ne_true (solid.symm.trans (p.blank_after c after))
  have stops : p.ending.head?.any (fun c => c ∉ CodePoint.nameEnds) = false := by
    cases first : p.ending.head? with
    | none => rfl
    | some c => simpa using p.ends c first
  have solid : ∀ c ∈ Text.ofString p.name, c.isBlank = false :=
    fun c member => (CodePoint.not_mark_of_isPart (parts c member)).1
  rw [WrittenParameter.core, ← List.append_assoc, Text.takeWhile_append front stops,
    Text.strip_append_blank p.blank_after, Text.strip_solid solid]

private theorem itemName_text (p : WrittenParameter) : itemName p.text = p.name := by
  obtain ⟨c, more, core, part⟩ := p.exists_core
  have solid := (CodePoint.not_mark_of_isPart part).1
  have stripped : Text.strip p.text = p.dots ++ Text.strip p.core := by
    rw [WrittenParameter.text, Text.strip_blank_append p.blank_before, core,
      Text.strip_append_cons solid]
    intro d member
    rw [WrittenParameter.dots] at member
    split at member
    · revert d
      decide
    · cases member
  -- names do not start with a dot, so dots are cut off just where they were written
  have undotted : (if Text.startsWith (Text.strip p.text) "..." then (Text.strip p.text).drop 3
      else Text.strip p.text) = Text.strip p.core := by
    rw [stripped, WrittenParameter.dots]
    cases p.gathers with
    | true => rfl
    | false =>
      obtain ⟨rest, first⟩ := Text.exists_strip_cons solid more
      have other : CodePoint.scalar '.' ≠ c := by
        intro dot
        rw [← dot] at part
        cases part
      rw [core, first, if_neg Bool.false_ne_true, List.nil_append, if_neg]
      simp [Text.startsWith, Text.ofString, other]
  have blanks (d : CodePoint) (blank : d.isBlank = true) :
      decide (d ∉ CodePoint.nameEnds) = true := by
    apply decide_eq_true
    intro ends
    exact Bool.false_ne_true ((CodePoint.not_part_of_nameEnds ends).2.symm.trans blank)
  rw [itemName_eq, undotted, Text.strip_takeWhile_strip blanks, strip_takeWhile_core,
    Text.toString_ofString]

private theorem cleanNames_eq (items : List Text) :
    cleanNames items = ((items.map itemName).filter Name.isIdentifier).eraseDups := by
  suffices run : ∀ names : List String, items.foldl (fun names item =>
      if Name.isIdentifier (itemName item) && !names.contains (itemName item)
      then names ++ [itemName item] else names) names =
        List.eraseDupsBy.loop (· == ·) ((items.map itemName).filter Name.isIdentifier)
          names.reverse from run []
  induction items with
  | nil => simp [List.eraseDupsBy.loop]
  | cons item items ih =>
    intro names
    rw [List.foldl_cons, ih, List.map_cons, List.filter_cons]
    by_cases identifier : Name.isIdentifier (itemName item) = true
    · have known : names.reverse.any (itemName item == ·) = names.contains (itemName item) := by
        rw [List.any_reverse, List.contains_eq_any_beq]
      rw [if_pos identifier, List.eraseDupsBy.loop, known, identifier, Bool.true_and]
      cases names.contains (itemName item) <;> simp
    · simp [identifier]

private theorem cleanNames_splitTopLevel (t : Text) :
    cleanNames (t.splitTopLevel ',') =
      (((Text.rawParts ',' .start t).map itemName).filter Name.isIdentifier).eraseDups := by
  rw [cleanNames_eq, Text.splitTopLevel]
  congr 1
  generalize Text.rawParts ',' .start t = parts
  induction parts with
  | nil => rfl
  | cons part parts ih =>
    rw [List.map_cons, List.filter_cons, List.map_cons, List.filter_cons]
    by_cases empty : part.strip = []
    · rw [itemName_of_strip empty, if_neg (by simp [empty]), ih, if_neg (by decide)]
    · rw [if_pos (by simpa using empty), List.map_cons, List.filter_cons, itemName_strip, ih]

private theorem itemNames_listText {last : Option Text}
    (blank : ∀ c ∈ last.getD [], c.isBlank = true)
    (ps : List WrittenParameter) :
    ((Text.rawParts ',' .start (WrittenParameter.listText last ps)).map itemName).filter
      Name.isIdentifier = ps.map WrittenParameter.name := by
  induction ps with
  | nil =>
    have whole : ((last.getD []).reverse ++ Text.Splitting.start.current).reverse =
        last.getD [] := by
      simp [Text.Splitting.start]
    rw [WrittenParameter.listText, Text.rawParts_blank rfl _ blank, Text.rawParts]
    split
    · rfl
    · rw [whole, List.map_singleton, itemName_of_strip (Text.strip_of_blank blank)]
      rfl
  | cons p ps ih =>
    have inner : ∀ c ∈ p.text, c ∉ CodePoint.dividers :=
      fun c member divider => p.inner_text c member (List.mem_cons_of_mem _ divider)
    have identifier := Name.isIdentifier_of_isPlain p.isPlain
    have read (rest : Text) : Text.rawParts ',' .start (p.text ++ rest) =
        Text.rawParts ',' ⟨.outermost, p.text.reverse⟩ rest := by
      have whole := Text.rawParts_append inner [] rest
      rwa [List.append_nil] at whole
    rw [WrittenParameter.listText, read]
    split
    · have single : ps = [] := by simp_all
      have some : p.text ≠ [] := by
        obtain ⟨c, more, core, _⟩ := p.exists_core
        simp [WrittenParameter.text, core]
      rw [Text.rawParts, if_neg (by simpa using some), List.reverse_reverse, List.map_singleton,
        itemName_text, List.filter_singleton, identifier, single]
      rfl
    · rw [Text.rawParts_separator, List.reverse_reverse, List.map_cons, itemName_text,
        List.filter_cons_of_pos identifier, ih, List.map_cons]

private theorem cleanNames_inside (l : ParameterList) :
    cleanNames (l.inside.splitTopLevel ',') = l.names.eraseDups := by
  rw [cleanNames_splitTopLevel]
  exact congrArg List.eraseDups
    (itemNames_listText (fun c member => (l.blank c member).1) l.parameters)

theorem closed_inside (l : ParameterList) : Text.Closed l.inside := by
  apply Text.closed_plain
  intro c member
  apply (l.mem_inside c member).imp_right
  exact fun inner divider => inner (List.mem_cons_of_mem _ divider)

private theorem closed_text (l : ParameterList) : Text.Closed l.text := by
  rw [ParameterList.text]
  split
  · exact (closed_inside l).enclosed rfl
  · exact closed_inside l

private theorem listedNames_text (l : ParameterList) : listedNames l.text = l.names.eraseDups := by
  rw [listedNames, ParameterList.text]
  cases l.braced with
  | true =>
    have stripped : Text.strip (.scalar '{' :: (l.inside ++ [.scalar '}'])) =
        .scalar '{' :: (l.inside ++ [.scalar '}']) := Text.strip_enclosed rfl _ rfl
    obtain ⟨start, stop, span, slice⟩ :=
      Text.balancedSpan_enclosed (c := .scalar '{') rfl (closed_inside l) [] []
    rw [List.nil_append] at span slice
    rw [List.length_nil] at span
    rw [if_pos rfl, stripped, if_pos (by rfl), span]
    dsimp only
    rw [slice, cleanNames_inside]
  | false =>
    have absent : ∀ c ∈ [CodePoint.scalar '{', .scalar '['], c ∉ l.inside := by
      intro c bracket member
      rcases l.mem_inside c member with rfl | inner
      · exact absurd bracket (by decide)
      · have divider : [CodePoint.scalar '{', .scalar '['] ⊆ CodePoint.dividers := by decide
        exact inner (List.mem_cons_of_mem _ (divider bracket))
    have unbraced {t : Text} (among : t ⊆ l.inside) :
        Text.startsWith t "\x7b" = false ∧ Text.startsWith t "[" = false := by
      constructor
      · exact Text.startsWith_eq_false (c := .scalar '{') (by decide)
          fun member => absent _ (by decide) (among member)
      · exact Text.startsWith_eq_false (c := .scalar '[') (by decide)
          fun member => absent _ (by decide) (among member)
    have kept : (l.inside.splitTopLevel ',').filter
        (fun p => !(p.startsWith "\x7b" || p.startsWith "[")) = l.inside.splitTopLevel ',' := by
      apply List.filter_eq_self.mpr
      intro part member
      obtain ⟨brace, bracket⟩ := unbraced fun c => Text.mem_of_mem_splitTopLevel member
      simp [brace, bracket]
    rw [if_neg Bool.false_ne_true, (unbraced fun c => Text.mem_of_mem_strip).1,
      if_neg Bool.false_ne_true, Text.splitTopLevel_strip rfl, kept, cleanNames_inside]

private theorem parenContents?_closed {u : Text} (closed : Text.Closed u) {b : Text}
    (blank : ∀ c ∈ b, c.isBlank = true) (rest : Text) :
    parenContents? (b ++ .scalar '(' :: (u ++ .scalar ')' :: rest)) = some u := by
  have before : CodePoint.scalar '(' ∉ b := by
    intro member
    cases blank _ member
  obtain ⟨start, stop, span, slice⟩ :=
    Text.balancedSpan_enclosed (c := .scalar '(') rfl closed b rest
  rw [parenContents?, Text.indexFrom?_first rfl before, Option.bind_eq_bind, Option.bind_some, span]
  dsimp only
  rw [slice]
  rfl

theorem functionStart_fits (t : Text) :
    functionStart.fits t = (t.behindWord "async").startsWithWord "function" := by
  obtain ⟨behind, async, rest⟩ := maybe_word "async" ⟨none, 0, t⟩
  have read : functionStart ⟨none, 0, t⟩ =
      wholeWord "function" behind := by
    rw [functionStart, bind_apply, asyncWord, async, Option.bind_some]
  rw [Matcher.fits, read, Bool.eq_iff_iff, wholeWord_isSome_iff (by decide), rest]

section Opening

variable {t : Text} (other : t.head?.any CodePoint.startsIdentifier = false)

include other in
theorem startsWith_of_other {w : String}
    (letter : (Text.ofString w).head?.any CodePoint.startsIdentifier = true) :
    Text.startsWith t w = false := by
  rw [Bool.eq_false_iff]
  intro starts
  obtain ⟨rest, rfl⟩ := List.isPrefixOf_iff_prefix.mp starts
  cases chars : Text.ofString w with
  | nil => simp [chars] at letter
  | cons c cs =>
    rw [chars] at letter other
    exact Bool.false_ne_true (other.symm.trans letter)

include other in
private theorem singleParameter_eq_none (previous : Option CodePoint) (offset : Nat) :
    singleParameter ⟨previous, offset, t⟩ = none := by
  have async : asyncWord ⟨previous, offset, t⟩ = none := by
    apply bind_of_none
    rw [literal, startsWith_of_other other (by decide)]
    rfl
  have name : one CodePoint.startsIdentifier ⟨previous, offset, t⟩ = none := by
    cases t with
    | nil => rfl
    | cons c t =>
      have refused : c.startsIdentifier = false := other
      simp [one, refused]
  rw [singleParameter, orElse_of_none (bind_of_none async _)]
  exact bind_of_none (bind_of_none name _) _

include other in
private theorem functionStart_of_other : functionStart.fits t = false := by
  rw [functionStart_fits, Text.behindWord, startsWith_of_other other (by decide),
    if_neg fun both => Bool.false_ne_true both.1, Text.startsWithWord,
    startsWith_of_other other (by decide), Bool.false_and]

end Opening

theorem takeWhile_of_startsWithWord {t : Text} {w : String}
    (letters : ∀ c ∈ Text.ofString w, c.isWord = true) (starts : t.startsWithWord w = true) :
    t.takeWhile CodePoint.isWord = Text.ofString w := by
  rw [Text.startsWithWord, Bool.and_eq_true] at starts
  obtain ⟨rest, rfl⟩ := List.isPrefixOf_iff_prefix.mp starts.1
  rw [List.drop_left] at starts
  exact Text.takeWhile_append letters (by simpa using starts.2)

section Plain

variable (p : WrittenParameter) {more : Text} (next : ∀ c ∈ more.head?, c = .scalar ',')

include next in
theorem head_ending : ∀ c ∈ (p.ending ++ more).head?, c.isBlank = false ∧ c.isWord = false := by
  intro c first
  have among : c ∈ CodePoint.scalar ',' :: CodePoint.nameEnds := by
    cases ending : p.ending with
    | nil =>
      rw [ending, List.nil_append] at first
      exact List.mem_cons.mpr (.inl (next c first))
    | cons d tail =>
      have same : c ∈ p.ending.head? := by
        rw [ending] at first ⊢
        exact first
      exact List.mem_cons_of_mem _ (p.ends c same)
  clear first
  revert c
  decide

include next in
private theorem takeWhile_ending : (p.ending ++ more).takeWhile CodePoint.isWord = [] := by
  cases rest : p.ending ++ more with
  | nil => rfl
  | cons c tail =>
    have apart := (head_ending p next c (by rw [rest]; rfl)).2
    exact List.takeWhile_cons_of_neg (by simp [apart])

include next in
private theorem takeWhile_core :
    (p.core ++ more).takeWhile CodePoint.isWord = Text.ofString p.name := by
  rw [WrittenParameter.core, List.append_assoc, List.append_assoc]
  refine Text.takeWhile_append (Name.isWord_of_isBare p.isName) ?_
  cases after : p.after with
  | nil =>
    rw [List.nil_append]
    cases first : (p.ending ++ more).head? with
    | none => rfl
    | some c => exact (head_ending p next c first).2
  | cons c b => exact CodePoint.not_word_of_isBlank (p.blank_after c (after ▸ List.mem_cons_self))

include next in
theorem name_of_startsWithWord {w : String} (letters : ∀ c ∈ Text.ofString w, c.isWord = true)
    (starts : Text.startsWithWord (p.core ++ more) w = true) : p.name = w := by
  have word := (takeWhile_core p next).symm.trans (takeWhile_of_startsWithWord letters starts)
  rw [← Text.toString_ofString p.name, word, Text.toString_ofString]

include next in
private theorem behindWord_core : Text.behindWord (p.core ++ more) "async" = p.core ++ more ∨
    Text.behindWord (p.core ++ more) "async" = p.ending ++ more := by
  rw [Text.behindWord]
  split
  · rename_i async
    have named : p.name = "async" := by
      apply name_of_startsWithWord p next (by decide)
      rw [Text.startsWithWord, async.1, Bool.true_and, Bool.not_eq_true']
      cases first : ((p.core ++ more).drop (Text.ofString "async").length).head? with
      | none => rfl
      | some c => exact CodePoint.not_word_of_isBlank (by simpa [first] using async.2)
    refine .inr ?_
    rw [WrittenParameter.core, named, List.append_assoc, List.drop_left, List.append_assoc,
      Text.stripLeft_append p.blank_after]
    cases rest : p.ending ++ more with
    | nil => rfl
    | cons c tail => exact Text.stripLeft_cons (head_ending p next c (by rw [rest]; rfl)).1 tail
  · exact .inl rfl

include next in
private theorem functionStart_core : functionStart.fits (p.core ++ more) = false := by
  rw [functionStart_fits, Bool.eq_false_iff]
  intro starts
  rcases behindWord_core p next with whole | behind
  · rw [whole] at starts
    have named := name_of_startsWithWord p next (by decide) starts
    have bare := p.isName
    simp [Name.isBare, named] at bare
  · rw [behind] at starts
    have word := takeWhile_of_startsWithWord (by decide) starts
    rw [takeWhile_ending p next] at word
    cases word

end Plain

private theorem singleParameter_never : Reads (· ≠ .scalar '>') singleParameter fun _ => False := by
  have never : Reads (· ≠ .scalar '>') singleParameter.parameter fun _ => False :=
    reads_identifier.bind fun _ _ => passes_blanks.pass fun _ => (reads_missing (by decide)).absurd
  exact (passes_asyncWord.pass fun _ => never).orElse never

section List

variable (l : ParameterList)

theorem mem_text : ∀ c ∈ l.text, c ∈ [CodePoint.scalar ',', .scalar '{', .scalar '}'] ∨
    c ∉ CodePoint.barred := by
  have inside : ∀ c ∈ l.inside, c ∈ [CodePoint.scalar ',', .scalar '{', .scalar '}'] ∨
      c ∉ CodePoint.barred := by
    intro c member
    exact (l.mem_inside c member).imp_left fun comma => List.mem_cons.mpr (.inl comma)
  intro c member
  rw [ParameterList.text] at member
  split at member
  · simp only [List.mem_cons, List.mem_append, List.not_mem_nil, or_false] at member
    rcases member with rfl | within | rfl
    · exact .inl (by decide)
    · exact inside c within
    · exact .inl (by decide)
  · exact inside c member

private theorem stripLeft_text : l.text.stripLeft.head?.any CodePoint.startsIdentifier = false ∨
    ∃ (p : WrittenParameter) (more : Text), l.text.stripLeft = p.core ++ more ∧
      ∀ c ∈ more.head?, c = .scalar ',' := by
  rw [ParameterList.text]
  split
  · exact .inl rfl
  rw [ParameterList.inside]
  cases l.parameters with
  | nil =>
    refine .inl ?_
    rw [WrittenParameter.listText, Text.stripLeft,
      List.dropWhile_eq_nil_iff.mpr fun c member => (l.blank c member).1]
    rfl
  | cons p ps =>
    obtain ⟨more, text, next⟩ := p.exists_listText l.last ps
    rw [text, WrittenParameter.text, List.append_assoc, List.append_assoc,
      Text.stripLeft_append p.blank_before, WrittenParameter.dots]
    cases p.gathers with
    | true => exact .inl rfl
    | false =>
      obtain ⟨c, rest, core, part⟩ := p.exists_core
      refine .inr ⟨p, more, ?_, next⟩
      rw [if_neg Bool.false_ne_true, List.nil_append, core]
      exact Text.stripLeft_cons (CodePoint.not_mark_of_isPart part).1 _

private theorem parameterList?_text (depth : Nat) :
    parameterList? (depth + 1) (some l.text) = some (.inl l.text) := by
  have absent {c : CodePoint} (divider : c ∈ [CodePoint.scalar '(', .scalar '>']) : c ∉ l.text := by
    intro member
    have apart : ∀ d ∈ [CodePoint.scalar '(', .scalar '>'],
        d ∉ [CodePoint.scalar ',', .scalar '{', .scalar '}'] ∧ d ∈ CodePoint.dividers := by decide
    rcases mem_text l c member with listed | inner
    · exact (apart c divider).1 listed
    · exact inner (List.mem_cons_of_mem _ (apart c divider).2)
  have behind : l.text.stripLeft ⊆ l.text := (List.dropWhile_sublist _).subset
  have paren : Text.startsWith l.text.stripLeft "(" = false :=
    Text.startsWith_eq_false (c := .scalar '(') (by decide)
      fun member => absent (by decide) (behind member)
  have single : singleParameter ⟨none, 0, l.text.stripLeft⟩ = none := by
    apply eq_none_of_reads singleParameter_never
    rintro c member rfl
    exact absent (by decide) (behind member)
  have start : functionStart.fits l.text.stripLeft = false := by
    rcases stripLeft_text l with other | ⟨p, more, core, next⟩
    · exact functionStart_of_other other
    · rw [core, functionStart_core p next]
  rw [parameterList?, paren, start, single]
  rfl

private theorem parameters_of_body {r : Region} {b : Text} (blank : ∀ c ∈ b, c.isBlank = true)
    (more : Text)
    (body : (if r.kind = .function then .scalar '(' :: r.body else r.body) =
      b ++ .scalar '(' :: (l.text ++ .scalar ')' :: more)) :
    r.parameters = l.names.eraseDups := by
  have single :
      leadingParameter ⟨none, 0, b ++ .scalar '(' :: (l.text ++ .scalar ')' :: more)⟩ = none :=
    (takes_blanks blank rfl).bind_eq_none (singleParameter_eq_none rfl) none 0
  rw [parameters, body, single, parenContents?_closed (closed_text l) blank,
    parameterList?_text l 2]
  exact listedNames_text l

end List

private theorem bind_boundary {α : Type} {c : CodePoint} (word : c.isWord = true) (m : Matcher α)
    (t : Text) : (do boundary; m : Matcher α) ⟨none, 0, c :: t⟩ = m ⟨none, 0, c :: t⟩ := by
  simp [bind_apply, boundary, word]

private theorem takes_notAhead {α : Type} {m : Matcher α} {rest : Text}
    (fails : ∀ previous offset, m ⟨previous, offset, rest⟩ = none) :
    Takes (notAhead m) [] () rest := by
  intro previous offset
  refine ⟨previous, ?_⟩
  rw [List.nil_append, notAhead, fails]
  rfl

section Head

variable {name : String} (plain : Name.isPlain name = true)

include plain in
theorem isPart_head (t : Text) : ∀ c ∈ (Text.ofString name ++ t).head?, c.isPart = true := by
  obtain ⟨c, more, chars, part⟩ := Name.exists_cons_of_isPlain plain
  rw [chars]
  intro d first
  exact Option.some.inj first ▸ part

private theorem takes_listOpening (rest : Text) :
    Takes listOpening (Text.ofString "(") .function rest := by
  have solid : ((Text.ofString "(" ++ []) ++ rest).head?.any CodePoint.isBlank = false := rfl
  have untyped (previous : Option CodePoint) (offset : Nat) :
      typeParameters ⟨previous, offset, [] ++ ([] ++ (Text.ofString "(" ++ []) ++ rest)⟩ = none :=
    bind_of_none rfl _
  have read : Takes listOpening ([] ++ ([] ++ ([] ++ (Text.ofString "(" ++ [])))) .function rest :=
    (takes_blanks (by simp) solid).bind <| (Takes.orElse untyped (takes_pure () _)).bind <|
      (takes_blanks (by simp) solid).bind <| (takes_literal _ _).bind (takes_pure _ _)
  exact read

include plain in
private theorem takes_functionOpening (rest : Text) :
    Takes (functionOpening name) (FunctionForm.declared.opening name) .function rest := by
  have next : ∀ c ∈ ((Text.ofString name ++ Text.ofString "(") ++ rest).head?,
      c.isPart = true ∨ c = .scalar ';' := by
    rw [List.append_assoc]
    exact fun c first => .inl (isPart_head plain _ c first)
  have read : Takes functionWord (Text.ofString "function ") ()
      ((Text.ofString name ++ Text.ofString "(") ++ rest) :=
    takes_functionWord_blanks (b := [.scalar ' ']) (by decide) next
  exact read.bind ((takes_literal _ _).bind (takes_listOpening rest))

private theorem takes_valueOpening (rest : Text) :
    Takes valueOpening (Text.ofString " =") .variable (Text.ofString " (" ++ rest) := by
  have untyped (previous : Option CodePoint) (offset : Nat) :
      annotation ⟨previous, offset, [] ++ ((Text.ofString "=" ++ ([] ++ [])) ++
        (Text.ofString " (" ++ rest))⟩ = none :=
    bind_of_none rfl _
  have read : Takes valueOpening (Text.ofString " " ++ ([] ++ (Text.ofString "=" ++ ([] ++ []))))
      .variable (Text.ofString " (" ++ rest) :=
    (takes_blanks (by decide) rfl).bind <| (Takes.orElse untyped (takes_pure () _)).bind <|
      (takes_literal _ _).bind <| (takes_notAhead fun _ _ => rfl).bind (takes_pure _ _)
  exact read

include plain in
private theorem takes_variableOpening (rest : Text) :
    Takes (variableOpening name) (FunctionForm.arrow.opening name) .variable
      (Text.ofString " (" ++ rest) := by
  have solid : ((Text.ofString name ++ Text.ofString " =") ++
      (Text.ofString " (" ++ rest)).head?.any CodePoint.isBlank = false := by
    rw [List.append_assoc]
    have part := isPart_head plain (Text.ofString " =" ++ (Text.ofString " (" ++ rest))
    cases first : (Text.ofString name ++ _).head? with
    | none => rfl
    | some c => exact (CodePoint.not_mark_of_isPart (part c first)).1
  have word : Takes variableWord (Text.ofString "const") () (Text.ofString " " ++
      (Text.ofString name ++ Text.ofString " =") ++ (Text.ofString " (" ++ rest)) :=
    (takes_literal _ _).orElse_left _
  have space : Takes gap (Text.ofString " ") () ((Text.ofString name ++ Text.ofString " =") ++
      (Text.ofString " (" ++ rest)) := takes_gap (by decide) (by decide) solid
  exact word.bind (space.bind ((takes_literal _ _).bind (takes_valueOpening rest)))

include plain in
private theorem head_form (form : FunctionForm) (rest : Text) :
    ∃ q, head name ⟨none, 0, form.opening name ++ (form.apart ++ rest)⟩ =
      some (form.kind, ⟨q, (form.opening name).length, form.apart ++ rest⟩) := by
  cases form with
  | declared =>
    obtain ⟨q, taken⟩ := takes_functionOpening plain rest none 0
    rw [Nat.zero_add] at taken
    exact ⟨q, (bind_boundary (c := .scalar 'f') rfl _ _).trans (orElse_of_some taken _)⟩
  | arrow =>
    obtain ⟨q, taken⟩ := takes_variableOpening plain rest none 0
    rw [Nat.zero_add] at taken
    have other : functionOpening name ⟨none, 0, FunctionForm.arrow.opening name ++
        (FunctionForm.arrow.apart ++ rest)⟩ = none := bind_of_none (bind_of_none rfl _) _
    refine ⟨q, (bind_boundary (c := .scalar 'c') rfl _ _).trans ?_⟩
    exact (orElse_of_none other _).trans (orElse_of_some taken _)

end Head

private theorem length_le_stop {u : Text} (line : CodePoint.scalar '\n' ∉ u) (rest : Text) :
    u.length ≤ stop (u ++ rest) 0 := by
  rcases Nat.eq_zero_or_pos u.length with empty | positive
  · omega
  have size : (u ++ rest).length = u.length + rest.length := List.length_append
  have last : u.length - 1 < stop (u ++ rest) 0 := by
    refine (lt_stop_iff (by omega) (by omega)).mpr fun i _ early => ?_
    have inside : (u ++ rest)[i]? = u[i]? := List.getElem?_append_left (by omega)
    have other : (u ++ rest)[i]? ≠ some (.scalar '\n') := by
      rw [inside]
      exact fun broken => line (List.mem_of_getElem? broken)
    rw [Text.breaksAt, decide_eq_false other, Bool.false_and]
  omega

/-- A definition at the start of a text is found, and the first line of its body is whole. -/
theorem exists_region {found : FoundExport} (named : found.anonymous = false) {read u rest : Text}
    {kind : RegionKind} {q : Option CodePoint} (nonempty : read ≠ [])
    (opens : head found.name ⟨none, 0, read ++ (u ++ rest)⟩ =
      some (kind, ⟨q, read.length, u ++ rest⟩))
    (line : CodePoint.scalar '\n' ∉ read ++ u) :
    ∃ r more, ofExport (read ++ (u ++ rest)) found = .ok (some r) ∧ r.kind = kind ∧
      r.body = u ++ more := by
  let t : Text := read ++ (u ++ rest)
  have first : (head found.name).first? t 0 = some (0, kind, ⟨q, read.length, u ++ rest⟩) := by
    obtain ⟨c, cs, rfl⟩ := List.exists_cons_of_ne_nil nonempty
    rw [List.cons_append] at opens
    change firstFrom? (head found.name) none 0 (c :: (cs ++ (u ++ rest))) = _
    rw [firstFrom?, opens]
  have given : ofExport t found =
      .ok (some ⟨kind, 0, read.length, t.slice 0 (stop t 0)⟩) := by
    rw [ofExport, if_neg (by simp [named]), first]
    rfl
  have long : read.length + u.length ≤ stop t 0 := by
    have whole := length_le_stop line rest
    rwa [List.length_append, List.append_assoc] at whole
  have body := body_ofExport given
  dsimp only at body
  refine ⟨_, rest.take (stop t 0 - read.length - u.length), given, rfl, ?_⟩
  rw [body, Text.slice, List.drop_left, List.take_append, List.take_of_length_le (by omega)]

private theorem oneLine_form {name : String} (plain : Name.isPlain name = true)
    (form : FunctionForm)
    (l : ParameterList) :
    CodePoint.scalar '\n' ∉ form.opening name ++ (form.apart ++ (l.text ++ [.scalar ')'])) := by
  have named : CodePoint.scalar '\n' ∉ Text.ofString name :=
    fun member => Name.inner_of_isPlain plain _ member List.mem_cons_self
  have listed : CodePoint.scalar '\n' ∉ l.text := by
    intro member
    rcases mem_text l _ member with mark | inner
    · exact absurd mark (by decide)
    · exact inner List.mem_cons_self
  cases form with
  | declared =>
    simp only [FunctionForm.opening, FunctionForm.apart, List.mem_append, not_or]
    exact ⟨⟨by decide, named, by decide⟩, by decide, listed, by decide⟩
  | arrow =>
    simp only [FunctionForm.opening, FunctionForm.apart, List.mem_append, not_or]
    exact ⟨⟨by decide, named, by decide⟩, by decide, listed, by decide⟩

/-- The parameters of a function that is written with a list are the names in the list, each at its
first place. -/
theorem parameters_written (found : FoundExport) (named : found.anonymous = false)
    (bare : Name.isBare found.name = true) (form : FunctionForm) (l : ParameterList) (rest : Text) :
    ∃ r, ofExport (form.text found.name l.text rest) found = .ok (some r) ∧ r.kind = form.kind ∧
      r.parameters = l.names.eraseDups := by
  have plain := Name.isPlain_of_isBare bare
  obtain ⟨more, text⟩ := form.exists_text found.name l.text rest
  obtain ⟨q, opens⟩ := head_form plain form (l.text ++ .scalar ')' :: more)
  have split : form.apart ++ (l.text ++ .scalar ')' :: more) =
      (form.apart ++ (l.text ++ [.scalar ')'])) ++ more := by simp
  rw [split] at text opens
  obtain ⟨r, tail, given, kind, body⟩ :=
    exists_region named (form.opening_ne_nil found.name) opens (oneLine_form plain form l)
  refine ⟨r, text ▸ given, kind, ?_⟩
  cases form with
  | declared =>
    apply parameters_of_body l (b := []) (by simp) tail
    rw [kind, body]
    simp [FunctionForm.kind, FunctionForm.apart]
  | arrow =>
    apply parameters_of_body l (b := [.scalar ' ']) (by decide) tail
    rw [kind, body]
    simp [FunctionForm.kind, FunctionForm.apart, Text.ofString]

def writtenList (braced : Bool) : ParameterList :=
  { parameters := [
      { before := [], gathers := false, name := "async", after := [.scalar ' '],
        ending := Text.ofString "= f/2 " },
      { before := [.scalar ' '], gathers := false, name := "_b1", after := [],
        ending := Text.ofString "?: A | B" },
      { before := [.scalar ' '], gathers := false, name := "async", after := [], ending := [] },
      { before := [.scalar '\t'], gathers := true, name := "rest", after := [], ending := [] }]
    last := none
    braced := braced }

theorem writtenList_parameters :
    FunctionForm.text .declared "Tab" (writtenList false).text (Text.ofString "\nlet Tab = 1;") =
      Text.ofString "function Tab(async = f/2 , _b1?: A | B, async,\t...rest) \x7b\nlet Tab = 1;" ∧
    FunctionForm.text .arrow "Tab" (writtenList true).text (Text.ofString "a;") =
      Text.ofString "const Tab = (\x7basync = f/2 , _b1?: A | B, async,\t...rest\x7d) => a;" ∧
    ∃ r r', ofExport (FunctionForm.text .declared "Tab" (writtenList false).text
        (Text.ofString "\nlet Tab = 1;")) (.default 0 "Tab") = .ok (some r) ∧
      r.parameters = ["async", "_b1", "rest"] ∧
      ofExport (FunctionForm.text .arrow "Tab" (writtenList true).text (Text.ofString "a;"))
        (.named 0 "Tab") = .ok (some r') ∧ r'.parameters = ["async", "_b1", "rest"] := by
  obtain ⟨r, given, _, parameters⟩ := parameters_written (.default 0 "Tab") rfl (by decide)
    .declared (writtenList false) (Text.ofString "\nlet Tab = 1;")
  obtain ⟨r', given', _, parameters'⟩ := parameters_written (.named 0 "Tab") rfl (by decide)
    .arrow (writtenList true) (Text.ofString "a;")
  exact ⟨by decide +kernel, by decide +kernel, r, r', given, parameters, given', parameters'⟩

end Region
end Sketch
end ExportInventory
