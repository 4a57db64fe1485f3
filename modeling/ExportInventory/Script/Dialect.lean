/-!
The dialects of the script language and the choice of dialect by file extension.
-/
namespace ExportInventory.Script

inductive Dialect where
  | javascript
  | typescript
  | tsx
deriving DecidableEq, Repr, Inhabited

namespace Dialect

def name : Dialect → String
  | javascript => "javascript"
  | typescript => "typescript"
  | tsx => "tsx"

def typed : Dialect → Bool
  | javascript => false
  | typescript => true
  | tsx => true

def markup : Dialect → Bool
  | javascript => true
  | typescript => false
  | tsx => true

end Dialect
end ExportInventory.Script
