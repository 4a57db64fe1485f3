import ExportInventory.Analysis
import ExportInventory.SourceFile
import ExportInventory.Value

/-!
The analysis of files: their bytes are decoded by a guess at the encoding, and a file that cannot
be read is reported by its name.
-/
namespace ExportInventory

/-- An engine with a guess at the encoding of bytes, and the codecs to decode them. -/
structure Inspector extends Engine where
  guess : Bytes → Option String
  codec : String → Bytes → Except Encoding.CodecFailure Text

namespace Inspector

variable (i : Inspector)

def encodingOf (bytes : Bytes) : String :=
  match i.guess bytes with
  | none | some "" => "utf-8"
  | some name => name

/-- The text of bytes. It is UTF-8 if no codec has the name of the encoding. -/
def decode (bytes : Bytes) : Except Failure Text :=
  if bytes.isEmpty then .ok []
  else
    match i.codec (i.encodingOf bytes) bytes with
    | .ok text => .ok text
    | .error .unknown => .ok ((Encoding.utf8 bytes).map .scalar)
    | .error (.failed message) => .error (.undecodable message)

def read (d : Disk) (path : String) : Except Failure Text := do
  i.decode (← d.read path)

/-- The report on a file. Failures of the file system while it is read are no failures here. -/
def report (d : Disk) (path : String) : Except Failure Report := do
  let full ← d.system.absolute path
  match i.read d full with
  | .ok text => return i.analyze text full
  | .error e => if e.ofFileSystem then return .ofRecords [] full else throw e

end Inspector

def Report.written (r : Report) : String := r.toValue.written 0

structure Extractor where
  report : Option Report

namespace Extractor

def forLanguage (name : String) : Except Failure Extractor :=
  match Language.ofName? name with
  | some _ => .ok ⟨none⟩
  | none => .error (.noExtractor name)

def process (i : Inspector) (path : String) : Action Extractor := do
  return ⟨some (← Action.look (i.report · path))⟩

def records (e : Extractor) : List Record :=
  match e.report with
  | some r => r.records
  | none => []

def write (e : Extractor) (path : String) : Action Unit :=
  Action.writeText path (e.report.getD .empty).written

end Extractor
end ExportInventory
