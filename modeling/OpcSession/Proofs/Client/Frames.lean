import OpcSession.Proofs.Client.Inquiry
import OpcSession.Proofs.Message.Lost

/-!
# Frames that are not read back

The codec turns no message away.  A request goes out whatever doubles it has,
and the frame of a request with a double that has no numeral is one that the
format does not take back.  In the other direction the reader passes over
such a frame, and whoever waits for the response goes on waiting.

* `ClientRun.read_encoded` — what the reader makes of the frame of a response;
* `ClientRun.frames_read_back_or_lost` — the law.
-/

namespace OpcSession.Simulation

open Session Client

namespace ClientRun

/-- **What the reader makes of the frame of a response.**  A response whose
doubles are all numbers is taken in as it was sent; any other is dropped, and
whoever waits for it is told nothing. -/
theorem read_encoded (r : ClientRun) (e : ResponseEnvelope) (rest : List Incoming) :
    r.read (.frame (Wire.encodeResponse e) :: rest) =
      (if e.body.isFinite then r.takeIn e else r).read rest := by
  rw [read, Wire.decodeResponse?_encoded]
  split <;> rfl

/-- **Frames are read back, or they are lost.**  From the bytes of a request
or a response the format brings it back, under its handle, if all doubles in
it are finite, and else it takes the bytes for no message at all.  A request
that nothing is in the way of goes out all the same: what is in its way does
not depend on the request. -/
theorem frames_read_back_or_lost (request : RequestEnvelope) (response : ResponseEnvelope)
    (r : ClientRun) (o : Owner) (q : Request) :
    Wire.decode? (Envelope.ofJson? Request.ofJson?) (Wire.bytes (Wire.encodeRequest request)) =
        (if request.body.isFinite then some request else none) ∧
      Wire.decode? (Envelope.ofJson? Response.ofJson?)
          (Wire.bytes (Wire.encodeResponse response)) =
        (if response.body.isFinite then some response else none) ∧
      ((r.obstacle?.isSome ∧ (r.send o q).log = r.log) ∨
        (r.obstacle? = none ∧ ∃ (e : RequestEnvelope) (connection : ConnectionId),
          e.body = q.withHandle e.handle ∧ (r.send o q).log = r.log ++ [.sent e connection] ∧
          Wire.decode? (Envelope.ofJson? Request.ofJson?) (Wire.bytes (Wire.encodeRequest e)) =
            if q.isFinite then some e else none)) := by
  have hback : ∀ e : RequestEnvelope,
      Wire.decode? (Envelope.ofJson? Request.ofJson?) (Wire.bytes (Wire.encodeRequest e)) =
        if e.body.isFinite then some e else none :=
    fun e => (Wire.decode?_bytes _).trans (Wire.decodeRequest?_encoded e)
  refine ⟨hback request, (Wire.decode?_bytes _).trans (Wire.decodeResponse?_encoded response), ?_⟩
  cases hobstacle : r.obstacle? with
  | some failure =>
      obtain ⟨r₁, hposted, -, hlog⟩ := post_of_obstacle hobstacle o q
      rw [ClientRun.send, hposted]
      exact .inl ⟨rfl, hlog⟩
  | none =>
      obtain ⟨handle, connection, hlog⟩ := log_send hobstacle o q
      exact .inr ⟨rfl, _, connection, rfl, hlog, hback _⟩

/-- A request to write a double that is no number, which is encoded with
`null` in its place: the frame is sent, and no server can read it. -/
def writeOfNoNumber : RequestEnvelope where
  handle := 7
  body := {
    header := { handle := 7 }
    body := .write [{
      node := ⟨2, .string "Pump1"⟩
      attributeId := .value
      value := { value := .double ⟨0x7FF8000000000000⟩ } }] }

/-- A double that is no number is not refused: a null goes out for it, and
that is not read back. -/
theorem null_for_no_number :
    writeOfNoNumber.body.toJson = .record [("type", .text "Write"),
      ("request_header", writeOfNoNumber.body.header.toJson),
      ("nodes_to_write", .arr [.record [
        ("node_id", (⟨2, .string "Pump1"⟩ : NodeId).toJson),
        ("attribute_id", .text "Value"),
        ("value", .record [("value", .tagged "type" "value" "Double" .null),
          ("status", .nat 0), ("source_timestamp", .null), ("server_timestamp", .null)])]])] ∧
    Wire.decode? (Envelope.ofJson? Request.ofJson?)
      (Wire.bytes (Wire.encodeRequest writeOfNoNumber)) = none := by
  refine ⟨rfl, ?_⟩
  rw [Wire.decode?_bytes]
  exact Wire.decodeRequest?_encoded writeOfNoNumber

end ClientRun

end OpcSession.Simulation
