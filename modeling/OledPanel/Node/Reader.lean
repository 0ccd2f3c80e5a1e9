import OledPanel.Json.Value
import OledPanel.Node.Basic

/-! Panel descriptions as JSON text. A node is an object with the fields `name`,
`properties` and `children`, or an array of their values in this order; a field left out
is empty. Known fields may not repeat and every value must have its type. Other fields are
passed over. What is read is nested to a limited depth. -/
namespace OledPanel

open Json (Value)

namespace Property

def ofNumber? : Value → Option UInt32
  | .number (some n) => if n < UInt32.size then some (UInt32.ofNat n) else none
  | _ => none

def ofText? : Value → Option String
  | .text s => s
  | _ => none

/-- Arrays are read as cells where possible, so an empty array holds no cells. -/
def ofValue? : Value → Option Property
  | .flag b => some (.flag b)
  | .array items => ((items.mapM ofNumber?).map .cells).orElse fun _ => (items.mapM ofText?).map .texts
  | .text s => s.map .text
  | v => (ofNumber? v).map .cell

/-- Reading it opens an array. -/
def nests : Value → Bool
  | .array _ | .object _ => true
  | _ => false

end Property

namespace Node

/-- The number of arrays and objects that may be open at a time. -/
def maxDepth : Nat := 127

/-- The last value of a repeated key counts. -/
def put (ps : List (String × Property)) (key : String) (p : Property) : List (String × Property) :=
  ps.filter (·.1 ≠ key) ++ [(key, p)]

/-- The properties of an object that may open `depth` arrays inside it. -/
def propertiesOf? (depth : Nat) (fields : List (Option String × Value)) :
    Option (List (String × Property)) :=
  fields.foldlM (fun ps f => do
    let key ← f.1
    if depth = 0 && Property.nests f.2 then none
    return put ps key (← Property.ofValue? f.2)) []

/-- The fields of a node found so far. -/
structure Fields where
  name : Option Value := none
  properties : Option Value := none
  children : Option Value := none

def Fields.add (known : Fields) (f : Option String × Value) : Option Fields := do
  let key ← f.1
  if key = "name" then if known.name.isNone then some { known with name := f.2 } else none
  else if key = "properties" then
    if known.properties.isNone then some { known with properties := f.2 } else none
  else if key = "children" then
    if known.children.isNone then some { known with children := f.2 } else none
  else some known

/-- The fields of an object by key, those of an array by place. -/
def Fields.of? : Value → Option Fields
  | .object fields => fields.foldlM Fields.add {}
  | .array [] => some {}
  | .array [n] => some { name := n }
  | .array [n, p] => some { name := n, properties := p }
  | .array [n, p, c] => some { name := n, properties := p, children := c }
  | _ => none

/-- A node whose text may open `depth` arrays and objects, itself included. -/
def ofValue? : Nat → Value → Option Node
  | 0, _ => none
  | depth + 1, v => do
    let fields ← Fields.of? v
    let name ← match fields.name with
      | none => some ""
      | some v => Property.ofText? v
    let properties ← match fields.properties, depth with
      | none, _ => some []
      | some (.object ps), inner + 1 => propertiesOf? inner ps
      | some _, _ => none
    let children ← match fields.children, depth with
      | none, _ => some []
      | some (.array items), inner + 1 => items.mapM (ofValue? inner)
      | some _, _ => none
    return { name, properties, children }

def ofJson (text : String) : Except Error Node :=
  match (Json.read text.toList).bind (ofValue? maxDepth) with
  | some n => .ok n
  | none => .error .json

/-- The description in a file of these bytes, which are UTF-8; `none` is a file not found. -/
def ofFile (content : Option ByteArray) : Except Error Node :=
  match content.bind String.fromUTF8? with
  | some text => ofJson text
  | none => .error .file

end Node
end OledPanel
