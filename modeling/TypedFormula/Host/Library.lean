import TypedFormula.Host.TypeSpec
import TypedFormula.Lexeme

namespace TypedFormula.Host.Library

def int (n : Nat) : Constant := .value (.int (Int32.ofNat n))

def text (s : String) : Constant := .value (.text s)

def halves (n : Nat) : Constant :=
  .value (.double (Lexeme.doubleOf (Binary.binary64.nearest n 2)))

def noValue : Constant := .value .unit

def property (name : String) (ty : Ty) (body : Body Constant) : MemberSpec :=
  ⟨.property, name, [], ty, body⟩

def field (name : String) (ty : Ty) (body : Body Constant) : MemberSpec :=
  ⟨.field, name, [], ty, body⟩

def method (name : String) (params : List Ty) (ty : Ty) (body : Body Constant) : MemberSpec :=
  ⟨.method, name, params, ty, body⟩

def indexer (params : List Ty) (ty : Ty) (body : Body Constant) : MemberSpec :=
  ⟨.indexer, "", params, ty, body⟩

def libraryType : TypeSpec := ⟨"Test.Library", [
  property "Name" .text (.slot "name"),
  field "Count" .int (.slot "count"),
  property "Inner" (.object "Test.Inner") (.slot "inner"),
  property "Items" (.object "Test.Items") (.slot "items"),
  ⟨.valueProperty, "Self", [], .object "Test.Library", .receiver⟩,
  property "Ratio" .float
    (.const (.value (.float (Lexeme.floatOf (Binary.binary32.nearest 1 2))))),
  property "Price" .decimal (.const (.value (.decimal ⟨false, 1990, 2, by decide, by decide⟩))),
  property "Open" .bool (.const (.value (.bool true))),
  property "Lie" .int (.const (text "not an int")),
  property "LieText" .text (.const (int 3)),
  property "LieBool" .bool (.const (halves 3)),
  property "LieDouble" .double (.const (int 1)),
  property "LieDecimal" .decimal (.const noValue),
  property "Ghost" (.object "Test.Ghost") (.const noValue),
  property "Math" .int (.const (int 77)),
  property "Both" .int (.const (int 1)),
  field "Both" .double (.const (halves 4)),
  method "Scale" [.int] .int (.mul (.slot "count") (.arg 0)),
  method "Scale" [.double] .double (.mul (.const (halves 6)) (.arg 0)),
  method "Same" [.object "Test.Inner"] (.object "Test.Inner") (.arg 0),
  method "Pair" [.int, .text] .text (.arg 1),
  method "Greet" [] .text (.add (.const (text "hello ")) (.slot "name")),
  method "Next" [] .int (.bump "calls"),
  method "Fail" [] .int (.fail "boom"),
  method "Nothing" [] .void (.const noValue),
  method "Take" [.void] .int (.const (int 9)),
  indexer [.int] .int (.add (.slot "count") (.arg 0)),
  indexer [.text] .text (.add (.slot "name") (.arg 0)),
  indexer [] .int (.const (int 100))]⟩

def innerType : TypeSpec := ⟨"Test.Inner", [
  property "B" .int (.slot "b"),
  method "Twice" [.int] .int (.mul (.const (int 2)) (.arg 0))]⟩

def itemsType : TypeSpec := ⟨"Test.Items", [
  property "Count" .int (.const (int 3)),
  indexer [.int] .int (.pick [int 10, int 20, int 30] (.arg 0)),
  ⟨.valueIndexer, "", [.int, .int], .object "Test.Items", .receiver⟩]⟩

def testType : TypeSpec := ⟨"Test", [⟨.staticField, "Units", [], .int, .const (int 7)⟩]⟩

def unitsType : TypeSpec := ⟨"Test.Units", [
  ⟨.staticField, "Meter", [], .double, .const (halves 2)⟩,
  ⟨.staticProperty, "Label", [], .text, .const (text "units")⟩,
  ⟨.staticMethod, "Convert", [.double], .double, .mul (.arg 0) (.const (halves 200))⟩,
  ⟨.staticMethod, "Zero", [], .int, .const (int 0)⟩]⟩

def types : List TypeSpec := [libraryType, innerType, itemsType, testType, unitsType]

def librarySlots (name : String) (count calls : Nat) (inner : String) :
    List (String × Constant) :=
  [("name", text name), ("count", int count), ("calls", int calls), ("inner", .object inner),
    ("items", .object "items")]

def objects : List ObjectSpec := [
  ⟨"inner", "Test.Inner", some [("b", int 30)]⟩,
  ⟨"items", "Test.Items", some []⟩,
  ⟨"lib", "Test.Library", some (librarySlots "ada" 3 0 "inner")⟩,
  ⟨"inner2", "Test.Inner", some [("b", int 50)]⟩,
  ⟨"lib2", "Test.Library", some (librarySlots "bob" 5 10 "inner2")⟩,
  ⟨"fake", "Test.Library", none⟩]

def contextId : String := "lib"

end TypedFormula.Host.Library
