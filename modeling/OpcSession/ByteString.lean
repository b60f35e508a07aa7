import OpcSession.Json.Shape

/-!
# Byte strings

A byte string in a message may be null, which is not the same as empty.
As bytes both count as none.
-/

namespace OpcSession

/-- Bytes, or null.  Null and no bytes are told apart, which matters for
nonces and certificates. -/
structure ByteString where
  /-- The bytes, if they are not null. -/
  content : Option (List UInt8)
deriving DecidableEq, Repr

namespace ByteString

def null : ByteString := ⟨none⟩

instance : Inhabited ByteString := ⟨null⟩

def of (bytes : List UInt8) : ByteString := ⟨some bytes⟩

def isNull (b : ByteString) : Bool := b.content.isNone

/-- The bytes, none if null: where bytes are signed or counted the two are the
same. -/
def bytes (b : ByteString) : List UInt8 := b.content.getD []

def length (b : ByteString) : Nat := b.bytes.length

/-- Whether there are no bytes, be it that they are null. -/
def isEmpty (b : ByteString) : Bool := b.bytes.isEmpty

def toJson (b : ByteString) : Json := .optional .bytes b.content

def ofJson? (j : Json) : Option ByteString :=
  (j.asOptional? Json.asBytes?).map ByteString.mk

/-- A byte string as a field of a record: null if the field is missing, and
null if it says so. -/
def ofField? (field : Option Json) : Option ByteString :=
  (Json.maybe Json.asBytes? field).map ByteString.mk

end ByteString

end OpcSession
