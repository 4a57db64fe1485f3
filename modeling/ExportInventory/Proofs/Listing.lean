import ExportInventory.Proofs.Layout

/-!
Texts that hold nothing but a list of exports. The search for lists gives back what it says, and no
other search finds anything in such a text.
-/
namespace ExportInventory

/-- An entry that exports a local name. -/
structure Specifier extends ListEntry where
  isLocal : name ≠ "default" := by decide

/-- A text with a list of exports only, and the blanks around its braces. -/
structure Listing where
  specifiers : List Specifier
  opening : Text
  body : Text
  closing : Text
  listed : Listed (specifiers.map Specifier.toListEntry) body
  blank_opening : ∀ c ∈ opening, c.isBlank = true := by decide
  blank_closing : ∀ c ∈ closing, c.isBlank = true := by decide

namespace ListEntry

/-- Entries with a blank in front of each word. -/
def spaced : List ListEntry → Text
  | [] => []
  | e :: rest => words e ++ if rest.isEmpty then [] else CodePoint.scalar ',' :: spaced rest
where
  words (e : ListEntry) : Text := e.words.flatMap fun w => CodePoint.scalar ' ' :: Text.ofString w

private theorem listed_spaced (es : List ListEntry) : Listed es (spaced es) := by
  have spread (ws : List String) :
      Spread ws (ws.flatMap fun w => CodePoint.scalar ' ' :: Text.ofString w) := by
    induction ws with
    | nil => exact .nil (by simp)
    | cons w ws ih =>
      refine .cons (b := [.scalar ' ']) (by decide) ?_ ih
      cases ws <;> rfl
  induction es with
  | nil => exact .last (e := none) (.nil (b := []) (by simp))
  | cons e rest ih =>
    rw [spaced]
    cases rest with
    | nil =>
      rw [List.isEmpty_nil, if_pos rfl, List.append_nil]
      exact .single (spread e.words)
    | cons f rest => exact .entry (spread e.words) ih

end ListEntry

namespace Listing

/-- Specifiers with a blank in front of each word. -/
def ofSpecifiers (specifiers : List Specifier) : Listing where
  specifiers := specifiers
  opening := [.scalar ' ']
  body := ListEntry.spaced (specifiers.map Specifier.toListEntry)
  closing := []
  listed := ListEntry.listed_spaced _

variable (l : Listing)

def text : Text := Text.bracedList l.opening l.body ++ (l.closing ++ Text.ofString ";")

end Listing

namespace Text

theorem drop_takeWhile (p : CodePoint → Bool) (t : Text) :
    t.drop (t.takeWhile p).length = t.dropWhile p := by
  induction t with
  | nil => rfl
  | cons c t ih =>
    by_cases holds : p c = true
    · rw [List.takeWhile_cons_of_pos holds, List.dropWhile_cons_of_pos holds, List.length_cons,
        List.drop_succ_cons, ih]
    · rw [List.takeWhile_cons_of_neg holds, List.dropWhile_cons_of_neg holds, List.length_nil,
        List.drop_zero]

theorem stripLeft_append {b : Text} (blank : ∀ c ∈ b, c.isBlank = true) (t : Text) :
    stripLeft (b ++ t) = stripLeft t :=
  List.dropWhile_append_of_pos blank

theorem stripLeft_word {w : Text} (solid : ∀ c ∈ w, c.isBlank = false) (nonempty : w ≠ []) (t : Text) :
    stripLeft (w ++ t) = w ++ t := by
  obtain ⟨c, w, rfl⟩ := List.exists_cons_of_ne_nil nonempty
  exact List.dropWhile_cons_of_neg (by simp [solid c List.mem_cons_self])

end Text

namespace Sketch

open Matcher

/-- What may stand behind `export` and blanks and is neither a default export nor a declaration. -/
inductive Harmless : Text → Prop
  | mark {c : CodePoint} (rest : Text) (member : c ∈ CodePoint.marks) : Harmless (c :: rest)
  | as {c : CodePoint} (rest : Text) (blank : c.isBlank = true) :
      Harmless (Text.ofString "as" ++ c :: rest)

/-- Wherever in a text `export` and blanks stand, something harmless follows. -/
def Guarded (t : Text) : Prop :=
  ∀ before rest, t = before ++ (Text.ofString "export" ++ rest) →
    rest.head?.any CodePoint.isBlank = true → Harmless (Text.stripLeft rest)

theorem guarded_append {u t : Text} (other : CodePoint.scalar 'e' ∉ u) (guarded : Guarded t) :
    Guarded (u ++ t) := by
  induction u with
  | nil => exact guarded
  | cons c u ih =>
    obtain ⟨first, others⟩ := not_or.mp (mt List.mem_cons.mpr other)
    rintro (_ | ⟨d, before⟩) rest split blank
    · exact absurd (List.cons.inj split).1.symm first
    · exact ih others before rest (List.cons.inj split).2 blank

theorem guarded_word {w t : Text} (parts : ∀ c ∈ w, c.isPart = true)
    (stops : t.head?.any CodePoint.isPart = false) (next : Harmless (Text.stripLeft t))
    (guarded : Guarded t) : Guarded (w ++ t) := by
  induction w with
  | nil => exact guarded
  | cons c w ih =>
    rintro (_ | ⟨d, before⟩) rest split blank
    · have ends : rest.head?.any CodePoint.isPart = false := by
        cases rest with
        | nil => rfl
        | cons d rest =>
          rw [List.head?_cons, Option.any_some, Bool.eq_false_iff]
          intro part
          rw [List.head?_cons, Option.any_some, (CodePoint.not_mark_of_isPart part).1] at blank
          cases blank
      -- both sides start with the same letters, so that the word is `export`
      have left := Text.takeWhile_append parts stops
      have right := Text.takeWhile_append (u := Text.ofString "export") (by decide) ends
      rw [List.nil_append] at split
      rw [split, right] at left
      rw [left] at split
      rwa [← List.append_cancel_left split]
    · exact ih (fun d member => parts d (List.mem_cons_of_mem c member)) before rest
        (List.cons.inj split).2 blank

private theorem isPart_eq_false_of_mark {c : CodePoint} (mark : c ∈ CodePoint.marks) :
    c.isPart = false := by
  rw [Bool.eq_false_iff]
  exact fun part => (CodePoint.not_mark_of_isPart part).2 mark

private theorem isPart_eq_false_of_isBlank {c : CodePoint} (blank : c.isBlank = true) :
    c.isPart = false := by
  rw [Bool.eq_false_iff]
  intro part
  rw [(CodePoint.not_mark_of_isPart part).1] at blank
  cases blank

theorem not_e_of_blank {b : Text} (blank : ∀ c ∈ b, c.isBlank = true) : CodePoint.scalar 'e' ∉ b :=
  fun member => absurd (blank _ member) (by decide)

section Guarded

variable {m : CodePoint} (mark : m ∈ CodePoint.marks) {rest : Text}

include mark in
theorem stops_of_apart {u : Text} (apart : u.head?.all CodePoint.isBlank = true) :
    (u ++ m :: rest).head?.any CodePoint.isPart = false := by
  cases u with
  | nil => exact isPart_eq_false_of_mark mark
  | cons c u => exact isPart_eq_false_of_isBlank apart

include mark in
theorem harmless_mark {b : Text} (blank : ∀ c ∈ b, c.isBlank = true) :
    Harmless (Text.stripLeft (b ++ m :: rest)) := by
  have solid : m.isBlank = false := by
    rw [Bool.eq_false_iff]
    exact fun blank => CodePoint.not_mark_of_isBlank blank mark
  rw [Text.stripLeft_append blank, Text.stripLeft, List.dropWhile_cons_of_neg (by simp [solid])]
  exact .mark rest mark

variable (guarded : Guarded (m :: rest))

include mark guarded in
theorem guarded_last {w : String} (plain : Name.isPlain w = true) {u : Text}
    (spread : Spread [w] u) : Guarded (u ++ m :: rest) := by
  cases spread with
  | @cons _ _ b v blank apart more =>
    cases more with
    | nil after =>
      rw [List.append_assoc, List.append_assoc]
      apply guarded_append (not_e_of_blank blank)
      apply guarded_word (Name.isPart_of_isPlain plain) (stops_of_apart mark apart)
        (harmless_mark mark after)
      exact guarded_append (not_e_of_blank after) guarded

include mark guarded in
theorem guarded_spread {e : Option ListEntry} {u : Text}
    (spread : Spread (e.elim [] ListEntry.words) u) : Guarded (u ++ m :: rest) := by
  cases e with
  | none =>
    cases spread with
    | nil blank => exact guarded_append (not_e_of_blank blank) guarded
  | some e =>
    rw [Option.elim_some, ListEntry.words] at spread
    cases given : e.asName with
    | none =>
      rw [given] at spread
      exact guarded_last mark guarded e.isName spread
    | some a =>
      rw [given] at spread
      have plain := e.isAlias a given
      cases spread with
      | @cons _ _ b v blank apart more =>
        cases more with
        | @cons _ _ b' v' blank' apart' last =>
          have renamed := guarded_last mark guarded plain last
          have nonempty : v' ≠ [] := by
            cases last with
            | cons _ _ _ => simp [Name.ofString_ne_nil_of_isPlain plain]
          obtain ⟨c, tail, rfl⟩ := List.exists_cons_of_ne_nil nonempty
          have next : Harmless (Text.stripLeft
              (b' ++ (Text.ofString "as" ++ c :: tail) ++ m :: rest)) := by
            rw [List.append_assoc, Text.stripLeft_append blank', List.append_assoc,
              Text.stripLeft_word (by decide) (by decide)]
            exact .as _ apart'
          rw [List.append_assoc, List.append_assoc]
          apply guarded_append (not_e_of_blank blank)
          apply guarded_word (Name.isPart_of_isPlain e.isName) (stops_of_apart mark apart) next
          rw [List.append_assoc, List.append_assoc]
          apply guarded_append (not_e_of_blank blank')
          exact guarded_append (by decide) renamed

include mark guarded in
theorem guarded_listed {es : List ListEntry} {body : Text} (listed : Listed es body) :
    Guarded (body ++ m :: rest) := by
  induction listed with
  | last spread => exact guarded_spread mark guarded spread
  | cons spread more ih =>
    rw [List.append_assoc]
    apply guarded_spread (by decide) _ spread
    exact guarded_append (u := [CodePoint.scalar ',']) (by decide) ih

end Guarded

theorem guarded_text (l : Listing) : Guarded l.text := by
  have empty : Guarded [] := by
    intro before rest split
    simp [Text.ofString] at split
  have ends : Guarded (CodePoint.scalar '}' :: (l.closing ++ Text.ofString ";")) := by
    apply guarded_append (u := [CodePoint.scalar '}']) (by decide)
    apply guarded_append (not_e_of_blank l.blank_closing)
    exact guarded_append (u := [CodePoint.scalar ';']) (by decide) empty
  have braced : Guarded (CodePoint.scalar '{' :: (l.body ++ CodePoint.scalar '}' ::
      (l.closing ++ Text.ofString ";"))) :=
    guarded_append (u := [CodePoint.scalar '{']) (by decide)
      (guarded_listed (by decide) ends l.listed)
  have apart : l.opening.head?.all CodePoint.isBlank = true := by
    cases first : l.opening.head? with
    | none => rfl
    | some c => exact l.blank_opening c (List.mem_of_mem_head? first)
  have whole := guarded_word (w := Text.ofString "export") (by decide)
    (stops_of_apart (by decide) apart) (harmless_mark (by decide) l.blank_opening)
    (guarded_append (not_e_of_blank l.blank_opening) braced)
  rw [Listing.text, Text.bracedList]
  simpa [Text.ofString] using whole

/-- Words that start a default export or a declaration behind `export`. -/
def exportedWords : List String :=
  ["default", "declare", "const", "let", "var", "async", "function", "abstract", "class"]

theorem Harmless.literal_eq_none {place : Place} (harmless : Harmless place.rest) {w : String}
    (member : w ∈ exportedWords) : literal w place = none := by
  have long : ∀ w ∈ exportedWords, 3 ≤ (Text.ofString w).length := by decide
  have letters : ∀ w ∈ exportedWords, ∀ c ∈ (Text.ofString w).head?, c ∉ CodePoint.marks := by decide
  have third : ∀ w ∈ exportedWords, (Text.ofString w).take 2 = [.scalar 'a', .scalar 's'] →
      ((Text.ofString w).drop 2).head?.any CodePoint.isBlank = false := by decide
  cases read : literal w place with
  | none => rfl
  | some result =>
    exfalso
    obtain ⟨more, split⟩ := List.isPrefixOf_iff_prefix.mp (literal_eq_some read).1
    obtain ⟨x, y, z, tail, spelled⟩ : ∃ x y z tail, Text.ofString w = x :: y :: z :: tail := by
      have enough := long w member
      match Text.ofString w, enough with
      | x :: y :: z :: tail, _ => exact ⟨x, y, z, tail, rfl⟩
    have first := letters w member
    have last := third w member
    rw [spelled] at split first last
    generalize place.rest = rest at harmless split
    cases harmless with
    | mark rest mark =>
      obtain ⟨rfl, _⟩ := List.cons.inj split
      exact first x rfl mark
    | as rest blank =>
      have word : Text.ofString "as" = [.scalar 'a', .scalar 's'] := by decide
      simp only [word, List.cons_append, List.nil_append, List.cons.injEq] at split
      obtain ⟨rfl, rfl, rfl, _⟩ := split
      have solid : z.isBlank = false := last rfl
      rw [blank] at solid
      cases solid

theorem gap_spec {place behind : Place} {u : Unit} (read : gap place = some (u, behind)) :
    place.rest.head?.any CodePoint.isBlank = true ∧ behind.rest = Text.stripLeft place.rest := by
  obtain ⟨c, inside, first, more⟩ := bind_eq_some read
  obtain ⟨run, after, spanned, done⟩ := bind_eq_some more
  obtain ⟨_, rfl⟩ := Prod.mk.inj (Option.some.inj done)
  obtain ⟨rfl, rfl⟩ := Prod.mk.inj (Option.some.inj spanned)
  unfold one at first
  split at first
  · cases first
  · rename_i d rest here
    split at first
    · rename_i blank
      obtain ⟨rfl, rfl⟩ := Prod.mk.inj (Option.some.inj first)
      rw [here]
      refine ⟨blank, ?_⟩
      rw [Text.stripLeft, List.dropWhile_cons_of_pos blank]
      exact Text.drop_takeWhile _ _
    · cases first

/-- In a guarded text, nothing is read behind `export` that starts with one of the words. -/
theorem Guarded.export_eq_none {α : Type} {t : Text} (guarded : Guarded t) {m : Matcher α}
    (fails : ∀ place, Harmless place.rest → m place = none) (k : Nat)
    (previous : Option CodePoint) (offset : Nat) :
    (do literal "export"; gap; m) ⟨previous, offset, t.drop k⟩ = none := by
  cases read : (do literal "export"; gap; m) ⟨previous, offset, t.drop k⟩ with
  | none => rfl
  | some result =>
    obtain ⟨_, first, word, more⟩ := bind_eq_some read
    obtain ⟨_, second, spaced, last⟩ := bind_eq_some more
    obtain ⟨starts, rfl⟩ := literal_eq_some word
    obtain ⟨rest, split⟩ := List.isPrefixOf_iff_prefix.mp starts
    obtain ⟨blank, behind⟩ := gap_spec spaced
    have here : (Place.skip ⟨previous, offset, t.drop k⟩ (Text.ofString "export")).rest = rest := by
      rw [Place.skip, ← split, List.drop_left]
    rw [here] at blank behind
    have harmless := guarded (t.take k) rest (by rw [split, List.take_append_drop]) blank
    rw [← behind] at harmless
    rw [fails second harmless] at last
    cases last

theorem Guarded.exportDefault_eq_none {t : Text} (guarded : Guarded t) (k : Nat)
    (previous : Option CodePoint) (offset : Nat) :
    exportDefault ⟨previous, offset, t.drop k⟩ = none := by
  refine guarded.export_eq_none (fun place harmless => ?_) k previous offset
  exact bind_of_none (harmless.literal_eq_none (by decide)) _

private theorem anyLiteral_eq_none {place : Place} {ws : List String}
    (fails : ∀ w ∈ ws, literal w place = none) : anyLiteral ws place = none := by
  induction ws with
  | nil => rfl
  | cons w ws ih =>
    rw [anyLiteral, orElse_of_none (fails w List.mem_cons_self)]
    exact ih fun v member => fails v (List.mem_cons_of_mem w member)

theorem maybe_of_none {m : Matcher Unit} {place : Place} (fails : m place = none) :
    maybe m place = some ((), place) :=
  orElse_of_none fails _

private theorem Harmless.declarationWord_eq_none {place : Place} (harmless : Harmless place.rest) :
    declarationWord place = none := by
  have word {w : String} (member : w ∈ exportedWords) (f : Unit → Matcher Unit) :
      (literal w >>= f) place = none :=
    bind_of_none (harmless.literal_eq_none member) f
  have word' : variableWord place = none := by
    have known : ["const", "let", "var"] ⊆ exportedWords := by decide
    exact anyLiteral_eq_none fun w member => harmless.literal_eq_none (known member)
  have async : asyncWord place = none := word (by decide) _
  have abstract : abstractWord place = none := word (by decide) _
  unfold declarationWord
  rw [orElse_of_none, orElse_of_none]
  · rw [bind_apply, maybe_of_none abstract]
    exact word (by decide) _
  · rw [bind_apply, maybe_of_none async]
    exact word (by decide) _
  · exact bind_of_none word' _

private theorem Guarded.namedDeclaration_eq_none {t : Text} (guarded : Guarded t) (k : Nat)
    (previous : Option CodePoint) (offset : Nat) :
    namedDeclaration ⟨previous, offset, t.drop k⟩ = none := by
  refine guarded.export_eq_none (fun place harmless => ?_) k previous offset
  have declare : spacedWord "declare" place = none :=
    bind_of_none (harmless.literal_eq_none (by decide)) _
  rw [bind_apply, maybe_of_none declare, Option.bind_some]
  exact bind_of_none harmless.declarationWord_eq_none _

private theorem mem_listing {l : Listing} {c : CodePoint} (member : c ∈ l.text) :
    c.isPart = true ∨ c.isBlank = true ∨
      c ∈ [CodePoint.scalar ',', .scalar '{', .scalar '}', .scalar ';'] := by
  have marks : ∀ s ∈ ["\x7b", "\x7d", ";"], ∀ c ∈ Text.ofString s,
      c ∈ [CodePoint.scalar ',', .scalar '{', .scalar '}', .scalar ';'] := by decide
  simp only [Listing.text, Text.bracedList, List.mem_append] at member
  rcases member with (word | blank | brace | inside | brace) | blank | semicolon
  · exact .inl (Name.isPart_of_isPlain (by decide) c word)
  · exact .inr (.inl (l.blank_opening c blank))
  · exact .inr (.inr (marks _ (by decide) c brace))
  · rcases mem_listed l.listed c inside with part | blank | rfl
    · exact .inl part
    · exact .inr (.inl blank)
    · exact .inr (.inr (by decide))
  · exact .inr (.inr (marks _ (by decide) c brace))
  · exact .inr (.inl (l.blank_closing c blank))
  · exact .inr (.inr (marks _ (by decide) c semicolon))

/-- Characters of comments, strings and values. -/
def foreign : List CodePoint :=
  [.scalar '/', .scalar '=', .scalar '\'', .scalar '"', .scalar '\x60']

theorem not_mem_listing (l : Listing) {c : CodePoint} (member : c ∈ foreign) : c ∉ l.text := by
  have other : ∀ c ∈ foreign, c.isPart = false ∧ c.isBlank = false ∧
      c ∉ [CodePoint.scalar ',', .scalar '{', .scalar '}', .scalar ';'] := by decide
  obtain ⟨notPart, notBlank, notMark⟩ := other c member
  intro inside
  rcases mem_listing inside with part | blank | mark
  · exact absurd part (by simp [notPart])
  · exact absurd blank (by simp [notBlank])
  · exact notMark mark

theorem connectedVariable_all {t : Text} (absent : CodePoint.scalar '=' ∉ t) :
    connectedVariable.all t = [] := by
  have never : Reads (· ≠ CodePoint.scalar '=') connectedVariable fun _ => False :=
    passes_boundary.pass fun _ => (passes_anyLiteral _).pass fun _ => passes_gap.pass fun _ =>
      reads_identifier.bind fun _ _ => passes_blanks.pass fun _ =>
      (reads_missing (by decide)).absurd
  refine all_eq_nil never fun c inside => ?_
  rintro rfl
  exact absent inside

private theorem scan_listing (l : Listing) (fileName : String) {s : Strategy}
    (other : s ≠ .exportList) :
    s.scan l.text fileName = [] := by
  have nothing {α : Type} (m : Unit → Matcher α) : (exportDefault >>= m).all l.text = [] := by
    refine occurrences_eq_nil (fun k previous offset => ?_) 0 none 0
    exact bind_of_none ((guarded_text l).exportDefault_eq_none k previous offset) m
  cases s with
  | connector =>
    have direct : connectedDefault.all l.text = [] := nothing _
    have bound := connectedVariable_all (not_mem_listing l (by decide))
    simp only [Strategy.scan, Strategy.scanConnected, direct, bound, List.map_nil, List.filter_nil,
      List.append_nil, Strategy.byOffset, List.mergeSort_nil]
  | wrapper =>
    have wrapped : wrappedDefault.all l.text = [] := nothing _
    simp only [Strategy.scan, Strategy.scanWrapped, wrapped, List.map_nil]
  | default =>
    have declared : declaredDefault.all l.text = [] := nothing _
    have named : namedDefault.all l.text = [] := nothing _
    have inline : anonymousDefault.all l.text = [] := nothing _
    simp only [Strategy.scan, Strategy.scanDefault, declared, named, inline, List.map_nil,
      List.append_nil, Strategy.byOffset, List.mergeSort_nil]
  | namedDeclaration =>
    have declared : namedDeclaration.all l.text = [] :=
      occurrences_eq_nil (guarded_text l).namedDeclaration_eq_none 0 none 0
    simp only [Strategy.scan, Strategy.scanNamed, declared, List.map_nil]
  | exportList => exact absurd rfl other

private theorem blankComments_listing (l : Listing) : l.text.blankComments = l.text := by
  have plain (t : Text) (inside : ∀ c ∈ t, c ∈ l.text) : t.blankComments = t := by
    induction t with
    | nil =>
      rw [Text.blankComments, Text.pieces]
      rfl
    | cons c rest ih =>
      have known := inside c List.mem_cons_self
      have first : Text.firstPiece c rest = .plain c := by
        unfold Text.firstPiece
        rw [if_neg, if_neg]
        · rintro rfl
          exact not_mem_listing l (by decide) known
        · rintro (rfl | rfl | rfl) <;> exact not_mem_listing l (by decide) known
      have more := ih fun d member => inside d (List.mem_cons_of_mem c member)
      rw [Text.blankComments] at more
      rw [Text.blankComments, Text.pieces, first, List.flatMap_cons]
      exact congrArg (c :: ·) more
  exact plain l.text fun _ => id

theorem exports_listing (l : Listing) (path : String) (fragmentMarkup : Text → Bool) :
    (Analysis.ofText l.text path fragmentMarkup).exports =
      (l.specifiers.map (·.found 0)).foldl FoundExports.add ⟨none, []⟩ := by
  have found : Strategy.ordered.flatMap (·.scan l.text (Name.ofPath path)) =
      l.specifiers.map (·.found 0) := by
    have other (s : Strategy) (different : s ≠ .exportList) :=
      scan_listing l (Name.ofPath path) different
    simp only [Strategy.ordered, List.flatMap_cons, List.flatMap_nil, List.append_nil,
      other .connector (by decide), other .wrapper (by decide), other .default (by decide),
      other .namedDeclaration (by decide), List.nil_append]
    refine (scanLists_ended l.blank_opening l.listed l.blank_closing).trans ?_
    rw [List.map_map]
    rfl
  unfold Analysis.ofText FoundExports.discover
  dsimp only
  rw [blankComments_listing, found]

end Sketch
end ExportInventory
