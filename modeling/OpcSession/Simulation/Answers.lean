import OpcSession.Message.Request
import OpcSession.Message.Response

/-!
# The answers of a well-behaved server

A server that grants every request.  Its sessions and nonces are numbered,
and the numbers can be read off the ids, tokens and nonces it hands out.
It takes over the subscriptions with odd ids only.
-/

namespace OpcSession.Simulation

/-- The numbers of the next session and of the next nonce, so that no two
answers give out the same. -/
structure Counters where
  session : Nat := 1
  nonce : Nat := 1
deriving DecidableEq, Repr, Inhabited

/-- The same byte, `count` times, as nonces and tokens are made here. -/
def repeated (count n : Nat) : List UInt8 := List.replicate count (UInt8.ofNat n)

namespace Counters

def createdSession (c : Counters) : SessionCreated where
  sessionId := ⟨1, .numeric (UInt32.ofNat c.session)⟩
  token := ⟨0, .bytes (repeated 4 c.session)⟩
  revisedTimeout := .ofNat 60000
  serverNonce := .of (repeated 32 c.session)
  serverCertificate := .null
  serverEndpoints := []
  softwareCertificates := []
  serverSignature := {}
  maxRequestSize := 0

/-- How the transfer of a subscription ends: those with even ids are refused,
so that both outcomes come about. -/
def transferResult (id : UInt32) : TransferResult where
  status := if id % 2 = 0 then .badSubscriptionIdInvalid else .good
  availableNumbers := []

/-- The results of a service, where the attributes that are read have no
values and those that are written are taken. -/
def grant (c : Counters) : RequestBody → ResponseBody × Counters
  | .createSession _ =>
    (.createSession c.createdSession, { c with session := c.session + 1 })
  | .activateSession _ =>
    (.activateSession (.of (repeated 32 (0xA0 ||| c.nonce))) [],
      { c with nonce := c.nonce + 1 })
  | .closeSession _ => (.closeSession, c)
  | .transferSubscriptions ids _ => (.transferSubscriptions (ids.map transferResult), c)
  | .read _ nodes =>
    (.read (nodes.map fun _ => { status := .badNodeIdUnknown }), c)
  | .write nodes => (.write (nodes.map fun _ => .good), c)

/-- The answer to a request, of a server that grants what it is asked for. -/
def answer (c : Counters) (r : Request) : Response × Counters :=
  let (body, c) := c.grant r.body
  ({ header := .good r.header.handle, body := body }, c)

end Counters

end OpcSession.Simulation
