import ExportInventory.Proofs.Analysis
import ExportInventory.Proofs.Frame

/-!
The report on a file. What fails on the file system while a file is read is taken for an unreadable
file. There is no report in three cases: the working directory is needed and cannot be told, the path
holds a character that the system does not take, or the codec of the guessed encoding fails.
-/
namespace ExportInventory

namespace Disk

def fullPath (d : Disk) (path : String) : String := Path.absolute d.system.workingDirectory path

variable {d : Disk} {path : String} {e : Failure}

private theorem ofFileSystem_of_advance {through : Bool} {here : Location} {names : List String}
    (failed : d.advance path through here names = .error e) : e.ofFileSystem = true := by
  induction names generalizing here with
  | nil => simp [advance] at failed
  | cons name rest ih =>
    rw [advance] at failed
    split at failed
    · cases failed
      rfl
    · cases failed
      rfl
    · cases failed
      rfl
    · split at failed
      · exact ih failed
      · split at failed
        · exact ih failed
        · split at failed
          · split at failed <;> cases failed
          · exact ih failed

private theorem ofFileSystem_of_follow {through : Bool} {links : Nat} {here : Location}
    {names : List String}
    (failed : d.follow path through links here names = .error e) : e.ofFileSystem = true := by
  induction links generalizing here names with
  | zero =>
    unfold follow at failed
    split at failed
    · rename_i fault
      obtain rfl := Except.error.inj failed
      exact ofFileSystem_of_advance fault
    · cases failed
    · obtain rfl := Except.error.inj failed
      rfl
  | succ more ih =>
    unfold follow at failed
    split at failed
    · rename_i fault
      obtain rfl := Except.error.inj failed
      exact ofFileSystem_of_advance fault
    · cases failed
    · exact ih failed

private theorem ofFileSystem_of_read (spelled : d.system.fault? path = none)
    (failed : d.read path = .error e) : e.ofFileSystem = true := by
  unfold read locate resolve at failed
  rw [spelled] at failed
  dsimp only at failed
  split at failed
  · rename_i fault
    obtain rfl := Except.error.inj failed
    split_ifs at fault
    · obtain rfl := Except.error.inj fault
      rfl
    all_goals exact ofFileSystem_of_follow fault
  · split at failed
    · rename_i refused
      obtain ⟨error, _, rfl⟩ := Option.map_eq_some_iff.mp refused
      obtain rfl := Except.error.inj failed
      rfl
    · cases failed
    · obtain rfl := Except.error.inj failed
      rfl
    · obtain rfl := Except.error.inj failed
      rfl

private theorem read_of_fault (fault : d.system.fault? path = some e) : d.read path = .error e := by
  rw [read, locate, resolve, fault]

private theorem ofFileSystem_of_fault {system : System} (fault : system.fault? path = some e) :
    e.ofFileSystem = false := by
  unfold System.fault? at fault
  split at fault
  · obtain rfl := Option.some.inj fault
    rfl
  · split at fault
    · cases fault
    · obtain rfl := Option.some.inj fault
      rfl

theorem absolute_eq_ok_iff {full : String} :
    d.system.absolute path = .ok full ↔
      (Path.isAbsolute path = true ∨ d.system.lost = none) ∧ full = d.fullPath path := by
  unfold System.absolute fullPath
  cases Path.isAbsolute path with
  | true => simp [eq_comm]
  | false => cases d.system.lost <;> simp [eq_comm]

end Disk

theorem Engine.records_analyze_ne_nil (e : Engine) (t : Text) (path : String) :
    (e.analyze t path).records ≠ [] := by
  unfold analyze
  cases e.parse? t path with
  | none => exact (e.isConsistent_sketch t path).nonempty
  | some parsed =>
    dsimp only
    split
    · exact (e.isConsistent_sketch t path).nonempty
    · apply Report.IsConsistent.nonempty
      exact Report.isConsistent_ofRecords (Classification.countP_isDefault_records_le _ _) path

namespace Inspector

variable (i : Inspector) {d : Disk} {path : String}

theorem report_of_absolute {full : String} (absolute : d.system.absolute path = .ok full) :
    i.report d path =
      match i.read d full with
      | .ok text => .ok (i.analyze text full)
      | .error e => if e.ofFileSystem then .ok (.ofRecords [] full) else .error e := by
  rw [report, absolute]
  rfl

theorem report_of_absolute_error {e : Failure} (lost : d.system.absolute path = .error e) :
    i.report d path = .error e := by
  rw [report, lost]
  rfl

theorem report_of_read_error {full : String} {e : Failure}
    (absolute : d.system.absolute path = .ok full) (unreadable : d.read full = .error e) :
    i.report d path = if e.ofFileSystem then .ok (.ofRecords [] full) else .error e := by
  have unread : i.read d full = .error e := by
    rw [Inspector.read, unreadable]
    rfl
  rw [i.report_of_absolute absolute, unread]

theorem report_of_read {full : String} {bytes : Bytes} (absolute : d.system.absolute path = .ok full)
    (readable : d.read full = .ok bytes) :
    i.report d path =
      match i.decode bytes with
      | .ok text => .ok (i.analyze text full)
      | .error e => .error e := by
  have decoded : i.read d full = i.decode bytes := by
    rw [Inspector.read, readable]
    rfl
  rw [i.report_of_absolute absolute, decoded]
  cases given : i.decode bytes with
  | ok text => rfl
  | error e =>
    have plain : e.ofFileSystem = false := by
      unfold decode at given
      split at given
      · cases given
      · split at given
        · cases given
        · cases given
        · obtain rfl := Except.error.inj given
          rfl
    simp [plain]

private theorem decode_eq_error_iff {bytes : Bytes} {e : Failure} :
    i.decode bytes = .error e ↔ bytes ≠ [] ∧ ∃ message,
      i.codec (i.encodingOf bytes) bytes = .error (.failed message) ∧ e = .undecodable message := by
  unfold decode
  by_cases empty : bytes = []
  · simp [empty]
  · rw [if_neg (by simpa using empty)]
    cases i.codec (i.encodingOf bytes) bytes with
    | ok text => simp
    | error failure => cases failure <;> simp [empty, eq_comm]

theorem report_congr {e : Disk} (same : e.system = d.system)
    (reads : e.read (d.fullPath path) = d.read (d.fullPath path)) :
    i.report e path = i.report d path := by
  cases given : d.system.absolute path with
  | error failure =>
    rw [i.report_of_absolute_error given, i.report_of_absolute_error (by rw [same]; exact given)]
  | ok full =>
    obtain ⟨_, rfl⟩ := Disk.absolute_eq_ok_iff.mp given
    rw [i.report_of_absolute given, i.report_of_absolute (d := e) (by rw [same]; exact given),
      Inspector.read, Inspector.read, reads]

theorem records_ne_nil_of_report {r : Report} (reported : i.report d path = .ok r) :
    r.records ≠ [] := by
  cases absolute : d.system.absolute path with
  | error e =>
    rw [i.report_of_absolute_error absolute] at reported
    cases reported
  | ok full =>
    rw [i.report_of_absolute absolute] at reported
    split at reported
    · obtain rfl := Except.ok.inj reported
      exact i.records_analyze_ne_nil _ _
    · split at reported
      · obtain rfl := Except.ok.inj reported
        exact List.cons_ne_nil _ _
      · cases reported

/-- The report on a file is never empty: it is the analysis of the decoded text, or one component
with the name of the file if the file cannot be read. There is one exactly if the working directory
can be told or is not needed, the system takes all characters of the full path, and the codec does
not fail on what is read. In each other case it is known what fails. -/
theorem report_ok_iff (i : Inspector) (d : Disk) (path : String) :
    ((∃ r, i.report d path = .ok r ∧ r.records ≠ [] ∧
        (∀ bytes, d.read (d.fullPath path) = .ok bytes →
          ∃ text, i.decode bytes = .ok text ∧ r = i.analyze text (d.fullPath path)) ∧
        ∀ e, d.read (d.fullPath path) = .error e →
          r = ⟨[.bare (Name.ofPath (d.fullPath path)) (d.fullPath path)], [], some 0⟩) ↔
      (Path.isAbsolute path = true ∨ d.system.lost = none) ∧
        (∀ c ∈ (d.fullPath path).toList, d.system.takes c = true) ∧
        ∀ bytes message, d.read (d.fullPath path) = .ok bytes → bytes ≠ [] →
          i.codec (i.encodingOf bytes) bytes ≠ .error (.failed message)) ∧
    (∀ e, d.system.absolute path = .error e → i.report d path = .error e) ∧
    ∀ e, d.system.absolute path = .ok (d.fullPath path) →
      (d.system.fault? (d.fullPath path) = some e ∨
        ∃ bytes, d.read (d.fullPath path) = .ok bytes ∧ i.decode bytes = .error e) →
      i.report d path = .error e := by
  have lost (e : Failure) (failed : d.system.absolute path = .error e) :
      i.report d path = .error e := i.report_of_absolute_error failed
  have raised (e : Failure) (absolute : d.system.absolute path = .ok (d.fullPath path))
      (failed : d.system.fault? (d.fullPath path) = some e ∨
        ∃ bytes, d.read (d.fullPath path) = .ok bytes ∧ i.decode bytes = .error e) :
      i.report d path = .error e := by
    rcases failed with fault | ⟨bytes, readable, undecodable⟩
    · rw [i.report_of_read_error absolute (Disk.read_of_fault fault),
        Disk.ofFileSystem_of_fault fault, if_neg Bool.false_ne_true]
    · rw [i.report_of_read absolute readable, undecodable]
  refine ⟨⟨?_, ?_⟩, lost, raised⟩
  · rintro ⟨r, reported, _⟩
    -- whatever fails would have been raised
    have absolute : d.system.absolute path = .ok (d.fullPath path) := by
      cases given : d.system.absolute path with
      | error e =>
        rw [lost e given] at reported
        cases reported
      | ok full => rw [(Disk.absolute_eq_ok_iff.mp given).2]
    refine ⟨(Disk.absolute_eq_ok_iff.mp absolute).1, ?_, ?_⟩
    · rw [← Disk.fault?_eq_none_iff]
      cases fault : d.system.fault? (d.fullPath path) with
      | none => rfl
      | some e =>
        rw [raised e absolute (.inl fault)] at reported
        cases reported
    · intro bytes message readable nonempty failed
      have undecodable := i.decode_eq_error_iff.mpr ⟨nonempty, message, failed, rfl⟩
      rw [raised _ absolute (.inr ⟨bytes, readable, undecodable⟩)] at reported
      cases reported
  · rintro ⟨told, taken, decodes⟩
    have absolute := Disk.absolute_eq_ok_iff.mpr ⟨told, rfl⟩
    cases found : d.read (d.fullPath path) with
    | ok bytes =>
      cases given : i.decode bytes with
      | error e =>
        obtain ⟨nonempty, message, failed, _⟩ := i.decode_eq_error_iff.mp given
        exact absurd failed (decodes bytes message found nonempty)
      | ok text =>
        refine ⟨i.analyze text (d.fullPath path), ?_, i.records_analyze_ne_nil _ _, ?_, ?_⟩
        · rw [i.report_of_read absolute found, given]
        · intro other same
          obtain rfl := Except.ok.inj same
          exact ⟨text, given, rfl⟩
        · intro e failed
          cases failed
    | error e =>
      have plain := Disk.ofFileSystem_of_read (Disk.fault?_eq_none_iff.mpr taken) found
      refine ⟨.ofRecords [] (d.fullPath path), ?_, List.cons_ne_nil _ _, ?_, ?_⟩
      · rw [i.report_of_read_error absolute found, if_pos plain]
      · intro bytes readable
        cases readable
      · intro _ _
        rfl

/-- A null character in a path is no failure of the file system, and no report replaces it. -/
theorem report_null_path :
    Scan.workDisk.fullPath "src/Card\x00.jsx" = "/work/src/Card\x00.jsx" ∧
      ∀ i : Inspector, i.report Scan.workDisk "src/Card\x00.jsx" = .error .nullInPath := by
  refine ⟨by decide +kernel, ?_⟩
  intro i
  rfl

end Inspector
end ExportInventory
