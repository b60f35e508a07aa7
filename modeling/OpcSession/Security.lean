import OpcSession.ByteString

/-!
# Security of messages

A security policy is named by a URI, and all but the policy `none` name
the algorithm that signatures are made with.  A signature is empty if it
names no algorithm and has no bytes.
-/

namespace OpcSession

/-- The rules by which messages are signed and encrypted, as far as the client
knows them. -/
inductive SecurityPolicy
  | none | basic128Rsa15 | basic256 | basic256Sha256
deriving DecidableEq, Repr, Inhabited

namespace SecurityPolicy

def table : List (SecurityPolicy × String) :=
  [(none, "None"), (basic128Rsa15, "Basic128Rsa15"), (basic256, "Basic256"),
   (basic256Sha256, "Basic256Sha256")]

def all : List SecurityPolicy := table.map (·.1)

def names : List String := table.map (·.2)

def name (p : SecurityPolicy) : String :=
  ((table.find? (·.1 = p)).map (·.2)).getD ""

/-- The URI that stands for a policy, as it is written in the descriptions of
endpoints. -/
def uri (p : SecurityPolicy) : String :=
  "http://opcfoundation.org/UA/SecurityPolicy#" ++ p.name

/-- The policy a URI stands for, if it is one of those that the client
knows. -/
def ofUri? (uri : String) : Option SecurityPolicy := all.find? (·.uri = uri)

/-- The algorithm of signatures; without security there is none, and nothing
is signed. -/
def signatureUri : SecurityPolicy → Option String
  | none => Option.none
  | basic128Rsa15 | basic256 => some "http://www.w3.org/2000/09/xmldsig#rsa-sha1"
  | basic256Sha256 => some "http://www.w3.org/2001/04/xmldsig-more#rsa-sha256"

def toJson (p : SecurityPolicy) : Json := .text p.name

def ofJson? (p : Json.Place) (j : Json) : Option SecurityPolicy :=
  (j.choice? names p).bind fun s => (table.find? (·.2 = s)).map (·.1)

end SecurityPolicy

/-- What is done to every message on a channel: nothing, or it is signed, or
it is encrypted as well. -/
inductive MessageSecurityMode
  | none | sign | signAndEncrypt
deriving DecidableEq, Repr, Inhabited

namespace MessageSecurityMode

def table : List (MessageSecurityMode × String) :=
  [(none, "None"), (sign, "Sign"), (signAndEncrypt, "SignAndEncrypt")]

def toJson (m : MessageSecurityMode) : Json :=
  .text (((table.find? (·.1 = m)).map (·.2)).getD "")

def ofJson? (p : Json.Place) (j : Json) : Option MessageSecurityMode :=
  (j.choice? (table.map (·.2)) p).bind fun s =>
    (table.find? (·.2 = s)).map (·.1)

end MessageSecurityMode

/-- A signature and the algorithm it was made with.  Where nothing is signed
both are left out. -/
structure SignatureData where
  /-- The URI of the algorithm, if one was used. -/
  algorithm : Option String := none
  /-- The bytes of the signature, null if there is none. -/
  signature : ByteString := .null
deriving DecidableEq, Repr, Inhabited

namespace SignatureData

def isEmpty (s : SignatureData) : Bool :=
  s.algorithm.isNone && s.signature.isEmpty

def toJson (s : SignatureData) : Json :=
  .record [("algorithm", .optional .text s.algorithm),
    ("signature", s.signature.toJson)]

def ofJson? (j : Json) : Option SignatureData := do
  let [algorithm, signature] ← j.fields? ["algorithm", "signature"] | none
  return {
    algorithm := ← Json.maybe Json.asText? algorithm
    signature := ← ByteString.ofField? signature }

end SignatureData

/-- A certificate of software with the signature on it, as a server shows them
when it creates a session. -/
structure SoftwareCertificate where
  data : ByteString
  signature : ByteString
deriving DecidableEq, Repr, Inhabited

namespace SoftwareCertificate

def toJson (c : SoftwareCertificate) : Json :=
  .record [("certificate_data", c.data.toJson), ("signature", c.signature.toJson)]

def ofJson? (j : Json) : Option SoftwareCertificate := do
  let [data, signature] ← j.fields? ["certificate_data", "signature"] | none
  return {
    data := ← ByteString.ofField? data
    signature := ← ByteString.ofField? signature }

end SoftwareCertificate

end OpcSession
