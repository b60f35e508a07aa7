import OpcSession.Json.Shape

/-!
# Status codes

A status code is a 32-bit word whose two top bits give its severity.  The
standard ones have names; four of them say that the server no longer
knows the session a request was sent for.
-/

namespace OpcSession

/-- The outcome of a service or of one operation of it.  Any word can be
received, also one that has no name. -/
structure StatusCode where
  word : UInt32
deriving DecidableEq, Repr, Inhabited

namespace StatusCode

def good : StatusCode := ⟨0x00000000⟩
def uncertain : StatusCode := ⟨0x40000000⟩
def bad : StatusCode := ⟨0x80000000⟩
def badUnexpectedError : StatusCode := ⟨0x80010000⟩
def badInternalError : StatusCode := ⟨0x80020000⟩
def badCommunicationError : StatusCode := ⟨0x80050000⟩
def badDecodingError : StatusCode := ⟨0x80070000⟩
def badTimeout : StatusCode := ⟨0x800A0000⟩
def badServiceUnsupported : StatusCode := ⟨0x800B0000⟩
def badShutdown : StatusCode := ⟨0x800C0000⟩
def badServerNotConnected : StatusCode := ⟨0x800D0000⟩
def badNothingToDo : StatusCode := ⟨0x800F0000⟩
def badSecurityChecksFailed : StatusCode := ⟨0x80130000⟩
def badIdentityTokenInvalid : StatusCode := ⟨0x80200000⟩
def badIdentityTokenRejected : StatusCode := ⟨0x80210000⟩
def badSessionIdInvalid : StatusCode := ⟨0x80250000⟩
def badSessionClosed : StatusCode := ⟨0x80260000⟩
def badSessionNotActivated : StatusCode := ⟨0x80270000⟩
def badSubscriptionIdInvalid : StatusCode := ⟨0x80280000⟩
def badNodeIdUnknown : StatusCode := ⟨0x80340000⟩
def badAttributeIdInvalid : StatusCode := ⟨0x80350000⟩
def badNotWritable : StatusCode := ⟨0x803B0000⟩
def badConnectionClosed : StatusCode := ⟨0x80AE0000⟩

/-- The codes that have names, with their names; the client does not know all
that the standard lists. -/
def table : List (StatusCode × String) :=
  [(good, "Good"), (uncertain, "Uncertain"), (bad, "Bad"),
   (badUnexpectedError, "BadUnexpectedError"),
   (badInternalError, "BadInternalError"),
   (badCommunicationError, "BadCommunicationError"),
   (badDecodingError, "BadDecodingError"), (badTimeout, "BadTimeout"),
   (badServiceUnsupported, "BadServiceUnsupported"),
   (badShutdown, "BadShutdown"),
   (badServerNotConnected, "BadServerNotConnected"),
   (badNothingToDo, "BadNothingToDo"),
   (badSecurityChecksFailed, "BadSecurityChecksFailed"),
   (badIdentityTokenInvalid, "BadIdentityTokenInvalid"),
   (badIdentityTokenRejected, "BadIdentityTokenRejected"),
   (badSessionIdInvalid, "BadSessionIdInvalid"),
   (badSessionClosed, "BadSessionClosed"),
   (badSessionNotActivated, "BadSessionNotActivated"),
   (badSubscriptionIdInvalid, "BadSubscriptionIdInvalid"),
   (badNodeIdUnknown, "BadNodeIdUnknown"),
   (badAttributeIdInvalid, "BadAttributeIdInvalid"),
   (badNotWritable, "BadNotWritable"),
   (badConnectionClosed, "BadConnectionClosed")]

/-- The two top bits, which say how well things went: good, uncertain, and bad
in both ways that are left. -/
def severity (s : StatusCode) : Nat := s.word.toNat / Nat.pow 2 30

def isGood (s : StatusCode) : Bool := s.severity = 0

def isUncertain (s : StatusCode) : Bool := s.severity = 1

def isBad (s : StatusCode) : Bool := 2 ≤ s.severity

/-- Whether the server does not know the session any more, so that it cannot
be reactivated and has to be created again. -/
def isSessionInvalid (s : StatusCode) : Bool :=
  s = badSessionIdInvalid ∨ s = badSessionClosed ∨ s = badSessionNotActivated
    ∨ s = badSecurityChecksFailed

def name? (s : StatusCode) : Option String :=
  (table.find? (·.1 = s)).map (·.2)

/-- The name, if there is one, and the word in hexadecimal, so that no two
codes have the same text. -/
def text (s : StatusCode) : String :=
  let word := "0x" ++ String.ofList (Text.hexUpper 8 s.word.toNat)
  match s.name? with
  | some name => name ++ " (" ++ word ++ ")"
  | none => word

def toJson (s : StatusCode) : Json := .nat s.word.toNat

def ofJson? (j : Json) : Option StatusCode := j.asUInt32?.map StatusCode.mk

end StatusCode

end OpcSession
