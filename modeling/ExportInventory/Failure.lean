import ExportInventory.Encoding
import ExportInventory.Text.Quoted

/-!
What can go wrong outside the analysis itself, and the words for it.
-/
namespace ExportInventory

structure SystemError where
  code : Nat
  text : String
deriving DecidableEq, Repr

inductive Failure where
  | missing (path : String)
  | alreadyExists (path : String)
  | notDirectory (path : String)
  | isDirectory (path : String)
  | refused (error : SystemError) (path : Option String)
  | nullInPath
  | unencodable (path : String)
  | emptyPath
  | notPath (type : String)
  | tooDeep
  | interrupted (message : String)
  | undecodable (message : String)
  | badIgnorePattern (message : String)
  | noExtractor (language : String)
  | unknownLevel (level : String)
  | unknownTool (name : String)
  | missingArguments (function : String) (names : List String)
  | unexpectedArgument (function name : String)
deriving DecidableEq, Repr

def Encoding.Fault.message (f : Encoding.Fault) : String :=
  let reason := match f.reason with
    | .badStart => "invalid start byte"
    | .badContinuation => "invalid continuation byte"
    | .cutShort => "unexpected end of data"
  let place :=
    if f.length = 1 then
      "byte 0x" ++ String.ofList (Text.hexDigits 2 f.byte.toNat) ++ " in position "
        ++ toString f.position
    else
      "bytes in position " ++ toString f.position ++ "-" ++ toString (f.position + f.length - 1)
  "'utf-8' codec can't decode " ++ place ++ ": " ++ reason

namespace Failure

def enumerated : List String → String
  | [] => ""
  | [a] => Text.quoted a
  | [a, b] => Text.quoted a ++ " and " ++ Text.quoted b
  | a :: rest => Text.quoted a ++ ", " ++ enumerated rest

def message : Failure → String
  | missing path => "[Errno 2] No such file or directory: " ++ Text.quoted path
  | alreadyExists path => "[Errno 17] File exists: " ++ Text.quoted path
  | notDirectory path => "[Errno 20] Not a directory: " ++ Text.quoted path
  | isDirectory path => "[Errno 21] Is a directory: " ++ Text.quoted path
  | refused error path =>
    "[Errno " ++ toString error.code ++ "] " ++ error.text ++
      match path with
      | some p => ": " ++ Text.quoted p
      | none => ""
  | nullInPath => "embedded null byte"
  | unencodable path => "can't encode path: " ++ Text.quoted path
  | emptyPath => "no path specified"
  | notPath type => "expected str, bytes or os.PathLike object, not " ++ type
  | tooDeep => "maximum recursion depth exceeded"
  | interrupted message => message
  | undecodable message => message
  | badIgnorePattern message => message
  | noExtractor language => "No extractor for language: " ++ language
  | unknownLevel level => "Unknown level: " ++ Text.quoted level
  | unknownTool name => Text.quoted name
  | missingArguments function names =>
    function ++ "() missing " ++ toString names.length ++ " required positional argument"
      ++ (if names.length = 1 then "" else "s") ++ ": " ++ enumerated names
  | unexpectedArgument function name =>
    function ++ "() got an unexpected keyword argument " ++ Text.quoted name

/-- Failures of the file system, which a reader of files takes for an unreadable file. -/
def ofFileSystem : Failure → Bool
  | missing _ | alreadyExists _ | notDirectory _ | isDirectory _ | refused .. => true
  | _ => false

end Failure
end ExportInventory
