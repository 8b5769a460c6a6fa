/-!
# TOML values

What a TOML document holds once it is read. The entries of a table are in the order in which the
document defines them, one for each key. Of a date or time only its presence is kept.
-/

namespace FinanceGateway

/-- A TOML value. -/
inductive Toml
  | text (value : String)
  | integer (value : Int)
  | real (value : Float)
  | flag (value : Bool)
  | moment
  | array (items : List Toml)
  | table (entries : List (String × Toml))

instance : Inhabited Toml := ⟨.table []⟩

namespace Toml

/-- The value of a key. -/
def get? : Toml → String → Option Toml
  | .table entries, key => (entries.find? (·.1 == key)).map (·.2)
  | _, _ => none

end Toml

end FinanceGateway
