import ExportInventory.Proofs.Agreement

/-!
Which of the exports that are found in a text are kept. The strategies are tried one after the other
and list what they find from left to right; the first default export is kept, and the first of each
other name.
-/
namespace ExportInventory.Sketch

private theorem Matcher.pairwise_occurrences {α : Type} (m : Matcher α) (skip : Nat)
    (previous : Option CodePoint) (offset : Nat) (t : Text) :
    (occurrences m skip previous offset t).Pairwise fun a b => a.1 < b.1 := by
  induction t generalizing skip previous offset with
  | nil => exact .nil
  | cons c rest ih =>
    rw [occurrences.eq_def]
    cases skip with
    | succ skip => exact ih skip (some c) (offset + 1)
    | zero =>
      dsimp only
      split
      · apply List.Pairwise.cons _ (ih _ (some c) (offset + 1))
        rintro ⟨i, a⟩ later
        obtain ⟨_, k, _, _, index, _⟩ := mem_occurrences later
        dsimp only
        omega
      · exact ih 0 (some c) (offset + 1)

namespace Strategy

private theorem offset_of_listed? {offset : Nat} {item : Text} {found : FoundExport}
    (listed : listed? offset item = some found) : found.offset = offset := by
  unfold listed? at listed
  split at listed
  · cases listed
  · dsimp only at listed
    repeat' split at listed
    all_goals cases listed
    all_goals rfl

private theorem pairwise_byOffset (found : List FoundExport) :
    (byOffset found).Pairwise fun a b => a.offset ≤ b.offset := by
  unfold byOffset
  refine (List.pairwise_mergeSort ?_ ?_ found).imp of_decide_eq_true
  · intro a b c first second
    simp only [decide_eq_true_eq] at first second ⊢
    exact Nat.le_trans first second
  · intro a b
    simp only [Bool.or_eq_true, decide_eq_true_eq]
    exact Nat.le_total a.offset b.offset

private theorem pairwise_scan (s : Strategy) (t : Text) (fileName : String) :
    (s.scan t fileName).Pairwise fun a b => a.offset ≤ b.offset := by
  have ordered {α : Type} (m : Matcher α) : (m.all t).Pairwise fun a b => a.1 < b.1 :=
    m.pairwise_occurrences 0 none 0 t
  cases s with
  | connector => exact pairwise_byOffset _
  | wrapper => exact (ordered _).map _ fun _ _ => Nat.le_of_lt
  | default => exact pairwise_byOffset _
  | namedDeclaration => exact (ordered _).map _ fun _ _ => Nat.le_of_lt
  | exportList =>
    -- all items of a list stand at the offset of the list
    have offset {i : Nat} {items : Text} {reexport : Bool} {found : FoundExport}
        (member : found ∈ if reexport then []
          else (Text.splitTopLevel items ',').filterMap (listed? i)) : found.offset = i := by
      split at member
      · cases member
      · obtain ⟨item, _, listed⟩ := List.mem_filterMap.mp member
        exact offset_of_listed? listed
    apply List.pairwise_flatMap.mpr
    constructor
    · rintro ⟨i, items, reexport⟩ _
      apply List.pairwise_of_forall_mem_list
      intro a first b second
      exact Nat.le_of_eq ((offset first).trans (offset second).symm)
    · apply (ordered _).imp
      rintro ⟨i, items, reexport⟩ ⟨j, items', reexport'⟩ before a first b second
      rw [offset first, offset second]
      exact Nat.le_of_lt before

end Strategy

namespace FoundExports

private theorem named_foldl_add (fs : List FoundExport) (e : FoundExports) :
    (fs.foldl add e).named =
      List.eraseDupsBy.loop (fun a b => a.name == b.name)
        (fs.filter fun f => f.visibility ≠ .default) e.named.reverse := by
  induction fs generalizing e with
  | nil => simp [List.eraseDupsBy.loop]
  | cons f rest ih =>
    rw [List.foldl_cons, ih, List.filter_cons]
    by_cases default : f.visibility = .default
    · have kept : (e.add f).named = e.named := by
        rw [add, if_pos default]
        split <;> rfl
      simp [default, kept]
    · have known : (e.named.reverse.any fun b => f.name == b.name) =
          e.named.any fun n => n.name = f.name := by
        rw [List.any_reverse]
        congr 1
        funext n
        exact Bool.beq_comm.trans (beq_eq_decide n.name f.name)
      rw [if_pos (by simpa using default), List.eraseDupsBy.loop, known, add, if_neg default]
      cases e.named.any fun n => n.name = f.name <;> simp

private theorem named_prefix_foldl_add (fs : List FoundExport) (e : FoundExports) :
    e.named <+: (fs.foldl add e).named := by
  induction fs generalizing e with
  | nil => exact List.prefix_rfl
  | cons f rest ih =>
    have step : e.named <+: (e.add f).named := by
      unfold add
      repeat' split
      · exact List.prefix_rfl
      · exact List.prefix_rfl
      · exact List.prefix_rfl
      · exact List.prefix_append _ _
    exact step.trans (ih (e.add f))

private theorem discover_append (t : Text) (fileName : String) (strategies more : List Strategy) :
    discover t fileName (strategies ++ more) =
      (more.flatMap (·.scan t fileName)).foldl add (discover t fileName strategies) := by
  rw [discover, List.flatMap_append, List.foldl_append]
  rfl

private theorem ordered_eq (e : FoundExports) :
    e.ordered = e.default.toList ++ e.named.filter fun n => e.default.all (n.name ≠ ·.name) := by
  unfold ordered
  cases e.default <;> simp

private theorem offset_le_of_find? {fs : List FoundExport} {d : FoundExport}
    (sorted : fs.Pairwise fun a b => a.offset ≤ b.offset)
    (first : fs.find? (fun f => f.visibility = .default) = some d) :
    ∀ f ∈ fs, f.visibility = .default → d.offset ≤ f.offset := by
  obtain ⟨_, before, after, rfl, others⟩ := List.find?_eq_some_iff_append.mp first
  intro f member default
  rcases List.mem_append.mp member with early | late
  · exact absurd default (by simpa using others f early)
  · rcases List.mem_cons.mp late with rfl | later
    · exact Nat.le_refl _
    · exact (List.pairwise_cons.mp (List.pairwise_append.mp sorted).2.1).1 f later

private theorem find?_default_scans {t : Text} {fileName : String} {strategies : List Strategy}
    {d : FoundExport}
    (first : (strategies.flatMap (·.scan t fileName)).find? (fun f => f.visibility = .default) =
      some d) :
    ∃ before s after, strategies = before ++ s :: after ∧
      (∀ s' ∈ before, ∀ f ∈ s'.scan t fileName, f.visibility ≠ .default) ∧
      (s.scan t fileName).find? (fun f => f.visibility = .default) = some d := by
  rw [List.find?_flatMap, List.findSome?_eq_some_iff] at first
  obtain ⟨before, s, after, split, found, none⟩ := first
  refine ⟨before, s, after, split, fun s' earlier f member => ?_, found⟩
  simpa using List.find?_eq_none.mp (none s' earlier) f member

/-- Which exports are kept, for any strategies in any order: the leftmost default of the first
strategy that has one, and of each other name the first. More strategies add to them only. -/
theorem discover_firsts (t : Text) (fileName : String) (strategies : List Strategy) :
    let items := strategies.flatMap (·.scan t fileName)
    let e := discover t fileName strategies
    (∀ s : Strategy, (s.scan t fileName).Pairwise fun a b => a.offset ≤ b.offset) ∧
      e.default = items.find? (fun f => f.visibility = .default) ∧
      (∀ d, e.default = some d → ∃ before s after, strategies = before ++ s :: after ∧
        (∀ s' ∈ before, ∀ f ∈ s'.scan t fileName, f.visibility ≠ .default) ∧
        (s.scan t fileName).find? (fun f => f.visibility = .default) = some d ∧
        ∀ f ∈ s.scan t fileName, f.visibility = .default → d.offset ≤ f.offset) ∧
      e.named = (items.filter fun f => f.visibility ≠ .default).eraseDupsBy
        (fun a b => a.name == b.name) ∧
      e.ordered = e.default.toList ++ e.named.filter (fun n => e.default.all (n.name ≠ ·.name)) ∧
      (e.ordered.map (·.name)).Nodup ∧
      ∀ more : List Strategy,
        (∀ d, e.default = some d → (discover t fileName (strategies ++ more)).default = some d) ∧
        e.named <+: (discover t fileName (strategies ++ more)).named := by
  intro items e
  have sorted (s : Strategy) := s.pairwise_scan t fileName
  have default : e.default = items.find? (fun f => f.visibility = .default) :=
    (default_foldl_add items ⟨none, []⟩).trans Option.none_or
  refine ⟨sorted, default, ?_, named_foldl_add items ⟨none, []⟩, ordered_eq e, ?_, fun more => ?_⟩
  · intro d chosen
    obtain ⟨before, s, after, split, none, first⟩ := find?_default_scans (default.symm.trans chosen)
    exact ⟨before, s, after, split, none, first, offset_le_of_find? (sorted s) first⟩
  · exact names_ordered_nodup (names_named_discover t fileName strategies)
  · rw [discover_append]
    refine ⟨fun d chosen => ?_, named_prefix_foldl_add _ e⟩
    rw [default_foldl_add]
    exact Option.or_eq_some_iff.mpr (.inl chosen)

end FoundExports
end ExportInventory.Sketch
