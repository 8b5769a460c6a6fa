/-!
# Dictionaries

Finite maps from texts. The entries are kept in ascending order of their keys, one for each key, so
that two ways of building the same map give the same list. `insert` replaces an earlier entry.
-/

namespace FinanceGateway

/-- Entries in ascending order of their keys, one for each key. -/
abbrev Dictionary (α : Type) := List (String × α)

namespace Dictionary

variable {α : Type}

/-- The dictionary with an entry; an earlier one of the same key is replaced. -/
def insert (key : String) (value : α) : Dictionary α → Dictionary α
  | [] => [(key, value)]
  | (k, v) :: rest =>
    if key < k then (key, value) :: (k, v) :: rest
    else if key = k then (key, value) :: rest
    else (k, v) :: insert key value rest

/-- The entry of a key. -/
def get? (d : Dictionary α) (key : String) : Option α :=
  (d.find? (·.1 == key)).map (·.2)

/-- The dictionary of a list of entries, the last one of each key. -/
def ofList (entries : List (String × α)) : Dictionary α :=
  entries.foldl (fun d e => insert e.1 e.2 d) []

end Dictionary

end FinanceGateway
