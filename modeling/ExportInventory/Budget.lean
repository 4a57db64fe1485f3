import ExportInventory.Text.Class
import ExportInventory.Text.Digit

/-!
The number of nodes to search for markup, as a setting gives it.
-/
namespace ExportInventory.Budget

def standard : Nat := 250000

def digitLimit : Nat := 4300

def digits? : Text → Option (List Nat)
  | [] => none
  | c :: rest =>
    match Text.digitValue? c with
    | none => none
    | some d =>
      match rest with
      | [] => some [d]
      | e :: more =>
        if e = '_' then (digits? more).map (d :: ·) else (digits? (e :: more)).map (d :: ·)

/-- The whole number that a setting writes: digits of any script, a sign before them, blanks
around. -/
def integer? (t : Text) : Option Int := do
  let t := t.strip
  let (negative, body) := match t with
    | c :: rest => if c = '-' then (true, rest) else if c = '+' then (false, rest) else (false, t)
    | [] => (false, t)
  let digits ← digits? body
  guard (digits.length ≤ digitLimit)
  let n := digits.foldl (fun (n : Nat) d => n * 10 + d) 0
  return if negative then -(n : Int) else n

def ofSetting (setting : Option Text) : Nat :=
  match setting.bind integer? with
  | some n => if 0 < n then n.toNat else standard
  | none => standard

def limit (setting : Option Text) (asked : Option Int) : Int := asked.getD (ofSetting setting)

end ExportInventory.Budget
