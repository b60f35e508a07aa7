import OpcSession.Json.Printer
import OpcSession.Json.Reader
import OpcSession.Message.Request
import OpcSession.Message.Response

/-!
# Envelopes: one message on the wire

An envelope carries a request or a response together with the handle that
pairs the two.  On the wire it is JSON text in UTF-8.
-/

namespace OpcSession

/-- A message and the handle it travels under, so that a response can be
paired with its request before its body is looked at. -/
structure Envelope (α : Type) where
  handle : UInt32
  body : α
deriving DecidableEq, Repr, Inhabited

abbrev RequestEnvelope := Envelope Request

abbrev ResponseEnvelope := Envelope Response

namespace Envelope

def toJson {α : Type} (f : α → Json) (e : Envelope α) : Json :=
  .record [("request_handle", .nat e.handle.toNat), ("body", f e.body)]

def ofJson? {α : Type} (f : Json.Place → Json → Option α) (p : Json.Place)
    (j : Json) : Option (Envelope α) := do
  let [handle, body] ← j.fields? ["request_handle", "body"] | none
  return {
    handle := ← Json.needed Json.asUInt32? handle
    body := ← Json.needed (f p.inner) body }

end Envelope

namespace Wire

/-- Reads bytes as a value of one type.  Bytes that are no text are strays,
and refused where they matter. -/
def decode? {α : Type} (f : Json.Place → Json → Option α) (bytes : List UInt8) :
    Option α :=
  (Json.read? (Text.glyphs bytes)).bind (f {})

/-- Reads text as a value of one type, as it would be read from the bytes of
the text. -/
def decodeText? {α : Type} (f : Json.Place → Json → Option α) (text : String) :
    Option α :=
  (Json.read? (Text.glyphsOf text)).bind (f {})

/-- The text of a request on the wire.  There is one for every request, also
if it holds doubles that are no numbers. -/
def encodeRequest (e : RequestEnvelope) : String := (e.toJson Request.toJson).render

/-- The text of a response on the wire, as a server would write it. -/
def encodeResponse (e : ResponseEnvelope) : String := (e.toJson Response.toJson).render

/-- The response in a text from the wire, if it is the text of one. -/
def decodeResponse? (text : String) : Option ResponseEnvelope :=
  decodeText? (Envelope.ofJson? Response.ofJson?) text

/-- The request in a text from the wire, as a server would read it. -/
def decodeRequest? (text : String) : Option RequestEnvelope :=
  decodeText? (Envelope.ofJson? Request.ofJson?) text

end Wire

end OpcSession
