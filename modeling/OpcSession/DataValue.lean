import OpcSession.ByteString
import OpcSession.NodeId.Text
import OpcSession.StatusCode

/-!
# Values of attributes

A variant is a value of one of the built-in types; a data value is a
variant with the status it was read with and two times.
-/

namespace OpcSession

/-- A value together with its type.  Only the built-in types that a client
looks into are told apart; all others are kept as the text that came. -/
inductive Variant
  | empty
  | boolean (b : Bool)
  | int32 (i : Int32)
  | uint32 (n : UInt32)
  | int64 (i : Int64)
  | uint64 (n : UInt64)
  | double (x : Binary64)
  | string (s : String)
  | byteString (b : ByteString)
  | nodeId (n : NodeId)
  | statusCode (s : StatusCode)
  /-- A text for a reader, with the locale that it is in. -/
  | localizedText (locale : Option String) (text : String)
  /-- A name in the name space with an index. -/
  | qualifiedName (space : UInt16) (name : String)
  /-- A value of another type, by its encoding. -/
  | other (s : String)
deriving DecidableEq, Repr, Inhabited

namespace Variant

/-- The value for a reader: without its type, and with the length in place of
bytes. -/
def text : Variant → String
  | empty => "<empty>"
  | boolean b => if b then "true" else "false"
  | int32 i => toString i.toInt
  | uint32 n => toString n.toNat
  | int64 i => toString i.toInt
  | uint64 n => toString n.toNat
  | double x => String.ofList x.plainText
  | string s => s
  | byteString b => "<" ++ toString b.length ++ " bytes>"
  | nodeId n => n.text
  | statusCode s => s.text
  | localizedText _ text => text
  | qualifiedName space name => toString space.toNat ++ ":" ++ name
  | other s => s

/-- The name of the type of a value, which stands beside the content in
messages. -/
def typeName : Variant → String
  | empty => "Empty"
  | boolean _ => "Boolean"
  | int32 _ => "Int32"
  | uint32 _ => "UInt32"
  | int64 _ => "Int64"
  | uint64 _ => "UInt64"
  | double _ => "Double"
  | string _ => "String"
  | byteString _ => "ByteString"
  | nodeId _ => "NodeId"
  | statusCode _ => "StatusCode"
  | localizedText _ _ => "LocalizedText"
  | qualifiedName _ _ => "QualifiedName"
  | other _ => "Other"

/-- The names of all types; the reader refuses any other. -/
def typeNames : List String :=
  ["Empty", "Boolean", "Int32", "UInt32", "Int64", "UInt64", "Double",
   "String", "ByteString", "NodeId", "StatusCode", "LocalizedText",
   "QualifiedName", "Other"]

/-- The value without its type; the empty value has none, so nothing is
written for it. -/
def content? : Variant → Option Json
  | empty => none
  | boolean b => some (.bool b)
  | int32 i => some (.int i.toInt)
  | uint32 n => some (.nat n.toNat)
  | int64 i => some (.int i.toInt)
  | uint64 n => some (.nat n.toNat)
  | double x => some (.double x)
  | string s => some (.text s)
  | byteString b => some b.toJson
  | nodeId n => some n.toJson
  | statusCode s => some s.toJson
  | localizedText locale text =>
    some (.record [("locale", .optional .text locale), ("text", .text text)])
  | qualifiedName space name =>
    some (.record [("namespace", .nat space.toNat), ("name", .text name)])
  | other s => some (.text s)

def toJson (v : Variant) : Json :=
  match v.content? with
  | none => .record [("type", .text v.typeName)]
  | some c => .tagged "type" "value" v.typeName c

/-- The fields of a content that has to be an object: unlike records, what is
written with named fields is not read from a list. -/
def objectFields? (names : List String) (c : Json) :
    Option (List (Option Json)) :=
  match c with
  | .obj ms => Json.pick? names ms
  | _ => none

/-- A value is read by the name of its type first, since the type says what
the content has to be. -/
def ofJson? (p : Json.Place) (j : Json) : Option Variant := do
  let (tag, content, p) ← j.adjacent? "type" "value" p
  match ← tag.choice? typeNames p, content with
  | "Empty", none | "Empty", some .null => return empty
  | "ByteString", c => (ByteString.ofField? c).map byteString
  | "Boolean", some c => c.asBool?.map boolean
  | "Int32", some c =>
    (c.asInt? (-0x80000000) 0x7FFFFFFF).map fun i => int32 (Int32.ofInt i)
  | "UInt32", some c => c.asUInt32?.map uint32
  | "Int64", some c =>
    (c.asInt? (-0x8000000000000000) 0x7FFFFFFFFFFFFFFF).map fun i =>
      int64 (Int64.ofInt i)
  | "UInt64", some c => c.asUInt64?.map uint64
  | "Double", some c => c.asDouble?.map double
  | "String", some c => c.asText?.map string
  | "NodeId", some c => (NodeId.ofJson? p c).map nodeId
  | "StatusCode", some c => (StatusCode.ofJson? c).map statusCode
  | "LocalizedText", some c =>
    let [locale, text] ← objectFields? ["locale", "text"] c | none
    return localizedText (← Json.maybe Json.asText? locale)
      (← Json.needed Json.asText? text)
  | "QualifiedName", some c =>
    let [space, name] ← objectFields? ["namespace", "name"] c | none
    return qualifiedName (← Json.needed Json.asUInt16? space)
      (← Json.needed Json.asText? name)
  | "Other", some c => c.asText?.map other
  | _, _ => none

end Variant

/-- A value as it was read: with its status and the times at which the source
and the server had it. -/
structure DataValue where
  /-- The value, which may be empty where the status is bad. -/
  value : Variant := .empty
  status : StatusCode := .good
  /-- When the value came about, in milliseconds. -/
  sourceTimestamp : Option UInt64 := none
  /-- When the server had it, in milliseconds. -/
  serverTimestamp : Option UInt64 := none
deriving DecidableEq, Repr, Inhabited

namespace DataValue

def fieldNames : List String :=
  ["value", "status", "source_timestamp", "server_timestamp"]

/-- A time in milliseconds since 1970, or `null` where none is given. -/
def timestamp : Option UInt64 → Json :=
  .optional fun t => .nat t.toNat

def toJson (v : DataValue) : Json :=
  .record [("value", v.value.toJson), ("status", v.status.toJson),
    ("source_timestamp", timestamp v.sourceTimestamp),
    ("server_timestamp", timestamp v.serverTimestamp)]

def ofJson? (p : Json.Place) (j : Json) : Option DataValue := do
  let [value, status, source, server] ← j.fields? fieldNames | none
  return {
    value := ← Json.needed (Variant.ofJson? p.inner) value
    status := ← Json.needed StatusCode.ofJson? status
    sourceTimestamp := ← Json.maybe Json.asUInt64? source
    serverTimestamp := ← Json.maybe Json.asUInt64? server }

end DataValue

end OpcSession
