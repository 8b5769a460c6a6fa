import FinanceGateway.Json.Flaw
import FinanceGateway.Json.Value

/-!
# Drafts: JSON texts read as far as they go

A decoder reports the first fault in reading order, be it a flaw of the text or a value of the
wrong type. So a text is first read into a `Draft`, a tree in which a flaw is a leaf like any other,
and decoders walk the tree in reading order. A text that ends where a value is due gives `absent`.

Values that a decoder has no use for are *skimmed* by a laxer grammar than values it reads, so a
`broken` leaf holds both flaws, and a string or number that only the strict reading objects to keeps
that flaw beside its place. A broken leaf also tells what it began as, since a decoder that takes
strings or null gets as far as the flaw inside them.

`Draft.ofJson` is the draft of a value that is no text, which has no flaws.
-/

namespace FinanceGateway.Json

/-- What a broken value began as. -/
inductive Opening
  | null
  | text
  | other
  deriving Repr, DecidableEq

mutual

/-- A value of a text, as far as the text makes sense. -/
inductive Draft
  | null
  | bool (value : Bool)
  | number (value : Except Flaw Number)
  | text (value : Except Flaw String)
  | array (items : Items)
  | object (members : Members)
  | absent
  | broken (opening : Opening) (strict skimmed : Flaw)

/-- The items of an array up to its end or to a flaw. -/
inductive Items
  | close
  | cons (head : Draft) (tail : Items)
  | broken (strict skimmed : Flaw)

/-- The members of an object up to its end or to a flaw; `keyless` is a first member without a name,
`bare` a name after which no value is announced. -/
inductive Members
  | close
  | cons (key : Except Flaw String) (value : Draft) (tail : Members)
  | keyless (found : Draft)
  | bare (key : Except Flaw String) (flaw : Flaw)
  | broken (strict skimmed : Flaw)

end

mutual

/-- The draft of a value. -/
def Draft.ofJson : Json → Draft
  | .null => .null
  | .bool b => .bool b
  | .number n => .number (.ok n)
  | .text s => .text (.ok s)
  | .array items => .array (Items.ofList items)
  | .object members => .object (Members.ofList members)

/-- `Draft.ofJson` over the items of an array. -/
def Items.ofList : List Json → Items
  | [] => .close
  | item :: rest => .cons (Draft.ofJson item) (Items.ofList rest)

/-- `Draft.ofJson` over the members of an object. -/
def Members.ofList : List (String × Json) → Members
  | [] => .close
  | (key, value) :: rest => .cons (.ok key) (Draft.ofJson value) (Members.ofList rest)

end

mutual

/-- Passes over a value that is not wanted. -/
def Draft.skim : Draft → Except Flaw Unit
  | .array items => items.skim
  | .object members => members.skim
  | .absent => .error .endInValue
  | .broken _ _ skimmed => .error skimmed
  | _ => .ok ()

/-- `Draft.skim` over the items of an array. -/
def Items.skim : Items → Except Flaw Unit
  | .close => .ok ()
  | .cons head tail =>
    match head.skim with
    | .error flaw => .error flaw
    | .ok () => tail.skim
  | .broken _ skimmed => .error skimmed

/-- `Draft.skim` over the members of an object. -/
def Members.skim : Members → Except Flaw Unit
  | .close => .ok ()
  | .cons _ value tail =>
    match value.skim with
    | .error flaw => .error flaw
    | .ok () => tail.skim
  | .keyless _ => .error .keyNotString
  | .bare _ flaw => .error flaw
  | .broken _ skimmed => .error skimmed

end

end FinanceGateway.Json
