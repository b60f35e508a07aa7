import OpcSession.Json.Shape

/-!
# Node ids

A node id names one entity in the address space of a server: a namespace
index and an identifier of one of four kinds.  The null id is the number
zero in namespace zero.
-/

namespace OpcSession

/-- What names an entity within its namespace, in one of the four ways that
the standard has for it. -/
inductive Identifier
  | numeric (id : UInt32)
  | string (id : String)
  /-- By a text that is meant as a globally unique id, and not looked into. -/
  | guid (id : String)
  /-- By bytes that only the server understands. -/
  | bytes (id : List UInt8)
deriving DecidableEq, Repr, Inhabited

/-- The name of one entity in an address space: a namespace, and an identifier
that is unique in it. -/
structure NodeId where
  space : UInt16
  identifier : Identifier
deriving DecidableEq, Repr, Inhabited

namespace Identifier

/-- The name of the kind of an identifier, as it stands in messages. -/
def kind : Identifier → String
  | numeric _ => "Numeric"
  | string _ => "String"
  | guid _ => "Guid"
  | bytes _ => "Opaque"

/-- The identifier without its kind, which stands beside it in messages. -/
def content : Identifier → Json
  | numeric id => .nat id.toNat
  | string id => .text id
  | guid id => .text id
  | bytes id => .bytes id

def toJson (i : Identifier) : Json := .tagged "kind" "value" i.kind i.content

def kinds : List String := ["Numeric", "String", "Guid", "Opaque"]

def ofJson? (p : Json.Place) (j : Json) : Option Identifier := do
  let (tag, content, p) ← j.adjacent? "kind" "value" p
  match ← tag.choice? kinds p, content with
  | "Numeric", some c => c.asUInt32?.map numeric
  | "String", some c => c.asText?.map string
  | "Guid", some c => c.asText?.map guid
  | "Opaque", some c => c.asBytes?.map bytes
  | _, _ => none

end Identifier

namespace NodeId

/-- The id of nothing: it is sent in place of a token where there is no
session. -/
def null : NodeId := ⟨0, .numeric 0⟩

def isNull (n : NodeId) : Bool := n = null

def toJson (n : NodeId) : Json :=
  .record [("namespace", .nat n.space.toNat), ("identifier", n.identifier.toJson)]

def ofJson? (p : Json.Place) (j : Json) : Option NodeId := do
  let [space, identifier] ← j.fields? ["namespace", "identifier"] | none
  return {
    space := ← space.bind Json.asUInt16?
    identifier := ← identifier.bind (Identifier.ofJson? p.inner) }

end NodeId

end OpcSession
