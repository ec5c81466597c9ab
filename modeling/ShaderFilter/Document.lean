import ShaderFilter.Number.Style
import ShaderFilter.Text.Quoted
import ShaderFilter.Definition

/-!
# Documents

The export of a definition as a JSON document with an indentation of two spaces. The fields of an object
keep their order.
-/

namespace ShaderFilter

open Number (Single Word)

/-- A JSON document. -/
inductive Document where
  /-- A number, truth value or null, by its text. -/
  | atom (text : String)
  /-- A string. -/
  | string (s : String)
  /-- An array. -/
  | array (items : List Document)
  /-- An object. -/
  | object (fields : List (String × Document))

namespace Document

/-- The start of a line at a depth. -/
def newLine (depth : Nat) : String := "\n" ++ String.ofList (List.replicate (2 * depth) ' ')

/-- The text of items that are written already, between brackets and each on a line of its own. -/
def enclose (opening closing : String) (depth : Nat) (items : List String) : String :=
  match items with
  | [] => opening ++ closing
  | _ => opening ++ ",".intercalate (items.map (newLine (depth + 1) ++ ·)) ++ newLine depth ++ closing

mutual

/-- The text of a document at a depth. -/
def text (depth : Nat) : Document → String
  | .atom t => t
  | .string s => Text.quote s
  | .array items => enclose "[" "]" depth (itemTexts (depth + 1) items)
  | .object fields => enclose "\x7b" "\x7d" depth (fieldTexts (depth + 1) fields)

/-- The texts of the items of an array. -/
def itemTexts (depth : Nat) : List Document → List String
  | [] => []
  | d :: ds => d.text depth :: itemTexts depth ds

/-- The texts of the fields of an object. -/
def fieldTexts (depth : Nat) : List (String × Document) → List String
  | [] => []
  | (name, d) :: fs => (Text.quote name ++ ": " ++ d.text depth) :: fieldTexts depth fs

end

/-- A truth value. -/
def ofBool (b : Bool) : Document := .atom (Value.boolText b)

/-- A single; null if it is not finite. -/
def ofSingle : Single → Document
  | .finite s r => .atom (Number.Style.document.finiteText s r)
  | _ => .atom "null"

/-- A value. -/
def ofValue : Value → Document
  | .float x => ofSingle x
  | .int n => .atom n.text
  | .bool b => ofBool b

/-- An action. -/
def ofAction (a : Action Value) : Document :=
  .object [("value", ofValue a.value), ("modification", .string a.modification.name)]

/-- A parameter. -/
def ofParameter (p : Parameter) : Document :=
  .object [
    ("name", .string p.name),
    ("location", .atom p.location.text),
    ("type", .string p.kind.name),
    ("min", ofValue p.min),
    ("max", ofValue p.max),
    ("default", ofValue p.default),
    ("actions", .object (p.slotActions.map fun (s, a) => (s.name, ofAction a))),
    ("keybindings", .object (p.keyActions.map fun (k, a) => (k.name, ofAction a)))]

/-- A texture. -/
def ofTexture (t : Texture) : Document :=
  .object [("name", .string t.name), ("binding", .atom t.binding.text)]

/-- A definition. -/
def ofDefinition (d : Definition) : Document :=
  .object [
    ("name", .string d.name),
    ("description", .string d.description),
    ("is_separable", ofBool d.separable),
    ("is_single_invocation", ofBool d.singleInvocation),
    ("parameters", .array (d.parameters.map ofParameter)),
    ("textures", .array (d.textures.map ofTexture)),
    ("source", .string d.source)]

end Document

/-- The exported text of a definition. -/
def Definition.exportText (d : Definition) : String := (Document.ofDefinition d).text 0

end ShaderFilter
