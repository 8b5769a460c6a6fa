import FinanceGateway.Json.Record

/-!
# Reference data

The banks, categories and merchants that a caller can choose from.
-/

namespace FinanceGateway

/-- A bank to choose. -/
structure ListedBank where
  id : String := ""
  name : String := ""
  code : String := ""

/-- The wire form of `ListedBank`. -/
def ListedBank.record : Json.Record ListedBank where
  name := "StaticBank"
  initial := {}
  fields := [
    .defaulted "id" .text (·.id) (fun v s => { s with id := v }),
    .defaulted "name" .text (·.name) (fun v s => { s with name := v }),
    .defaulted "code" .text (·.code) (fun v s => { s with code := v })]

/-- A category to choose. -/
structure Category where
  id : String := ""
  name : String := ""
  kind : String := ""

/-- The wire form of `Category`. -/
def Category.record : Json.Record Category where
  name := "Category"
  initial := {}
  fields := [
    .defaulted "id" .text (·.id) (fun v s => { s with id := v }),
    .defaulted "name" .text (·.name) (fun v s => { s with name := v }),
    .defaulted "type" .text (·.kind) (fun v s => { s with kind := v })]

/-- A merchant to choose. -/
structure Merchant where
  id : String := ""
  name : String := ""

/-- The wire form of `Merchant`. -/
def Merchant.record : Json.Record Merchant where
  name := "Merchant"
  initial := {}
  fields := [
    .defaulted "id" .text (·.id) (fun v s => { s with id := v }),
    .defaulted "name" .text (·.name) (fun v s => { s with name := v })]

end FinanceGateway
