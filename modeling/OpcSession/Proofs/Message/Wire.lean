import OpcSession.Message.Envelope
import OpcSession.Proofs.Message.Parts
import OpcSession.Proofs.Text.Utf8

/-!
# Messages are read back from the wire

A request or a response is an object in the inline shape: the name of the
service stands beside the header and the parameters.  The object is held as
a whole before its fields are read, which its few brackets allow.

* `Request.ofJson?_toJson`, `Response.ofJson?_toJson` — the messages;
* `Envelope.ofJson?_eq` — either in its envelope;
* `Wire.messages_read_back` — the bytes on the wire bring the message back.
-/

namespace OpcSession

open Json (Written)

/-! ## Requests -/

/-- The doubles in the parameters of a request: the time that a session asks
for, the age that a read allows, and what a write carries. -/
def RequestBody.doubles : RequestBody → List Binary64
  | .createSession r => [r.requestedTimeout]
  | .read maxAge _ => [maxAge]
  | .write nodes => nodes.flatMap WriteItem.doubles
  | _ => []

/-- The doubles in a request; its header has none. -/
def Request.doubles (r : Request) : List Binary64 := r.body.doubles

namespace RequestBody

theorem names_fields (b : RequestBody) : b.fields.map (·.1) = fieldNames b.service := by
  cases b <;> rfl

theorem ofFields?_fields {p : Json.Place} (hroom : p.depth + 2 ≤ Json.bracketLimit)
    {b : RequestBody} (hfinite : ∀ x ∈ b.doubles, x.isFinite = true) :
    ofFields? p b.service (b.fields.map fun m => some m.2) = some b := by
  cases b with
  | createSession r =>
      have htimeout := Json.asDouble?_double (hfinite _ List.mem_cons_self)
      simp [ofFields?, service, fields, htimeout]
  | activateSession r =>
      have hidentity := UserToken.ofJson?_toJson hroom r.identity
      have hlocales : Json.asList? Json.asText? (.list .text r.localeIds) = some r.localeIds :=
        Json.asList?_list fun s _ => Json.asText?_text s
      simp [ofFields?, service, fields, hidentity, hlocales, Json.asList?_list]
  | closeSession delete => simp [ofFields?, service, fields]
  | transferSubscriptions ids send => simp [ofFields?, service, fields, Json.asList?_list]
  | read maxAge nodes =>
      have hage := Json.asDouble?_double (hfinite _ List.mem_cons_self)
      simp [ofFields?, service, fields, hage, Json.asList?_list]
  | write nodes =>
      have hitems : ∀ w ∈ nodes, WriteItem.ofJson? p.inner w.toJson = some w := fun w hw =>
        WriteItem.ofJson?_toJson p.inner fun x hx => hfinite x (List.mem_flatMap.mpr ⟨w, hw, hx⟩)
      simp [ofFields?, service, fields, Json.asList?_list hitems]

theorem written (b : RequestBody) : ∀ m ∈ b.fields, Written 7 m.2 := by
  cases b with
  | createSession r => simp [fields]
  | activateSession r =>
      have hidentity : Written 7 r.identity.toJson := UserToken.written (by decide) r.identity
      simp [fields, hidentity, Written.list]
  | closeSession delete => simp [fields]
  | transferSubscriptions ids send => simp [fields, Written.list]
  | read maxAge nodes => simp [fields, Written.list]
  | write nodes =>
      have hitems : ∀ w ∈ nodes, Written 6 w.toJson := fun w _ => w.written (Nat.le_refl 6)
      simpa [fields] using Written.list (k := 7) (by decide) hitems

end RequestBody

namespace Request

variable {r : Request}

theorem written (r : Request) : Written 8 r.toJson :=
  .record (List.forall_mem_cons.mpr ⟨.text _, List.forall_mem_cons.mpr
    ⟨r.header.written (by decide), r.body.written⟩⟩)

/-- A request is read back as far as its parameters are.  The header and the
name of the service are read in every case, so all that can fail is the
rest. -/
theorem ofJson?_eq {p : Json.Place} (hroom : p.depth + 8 ≤ Json.bracketLimit) :
    ofJson? p r.toJson =
      (RequestBody.ofFields? p.hold.inner r.body.service (r.body.fields.map fun m => some m.2)).map
        (⟨r.header, ·⟩) := by
  have hheld := Json.holdable_of_written r.written hroom
  have hknown : r.body.service ∈ RequestBody.services := by
    cases r.body <;> simp [RequestBody.service, RequestBody.services]
  have hnames : (("request_header", r.header.toJson) :: r.body.fields).map (·.1) =
      "request_header" :: RequestBody.fieldNames r.body.service :=
    congrArg _ (RequestBody.names_fields r.body)
  have hothers : "type" ∉ "request_header" :: RequestBody.fieldNames r.body.service := by
    cases r.body <;> simp [RequestBody.fieldNames, RequestBody.service]
  have hdistinct : ("request_header" :: RequestBody.fieldNames r.body.service).Nodup := by
    cases r.body <;> simp [RequestBody.fieldNames, RequestBody.service]
  have hshape : Json.inline? "type" RequestBody.services p r.toJson = some (r.body.service, _) :=
    Json.inline?_record hknown (hnames ▸ hothers) hheld
  have hfields := Json.fields?_record hnames hdistinct
  rw [ofJson?, hshape]
  simp only [Option.bind_eq_bind, Option.bind_some, hfields, List.map_cons]
  simp [Option.map_eq_bind]

/-- **A request is read back from its value.**  The condition is on the
doubles alone; the depth is what the reader of the envelope leaves. -/
theorem ofJson?_toJson {p : Json.Place} (hroom : p.depth + 8 ≤ Json.bracketLimit)
    (hfinite : ∀ x ∈ r.doubles, x.isFinite = true) : ofJson? p r.toJson = some r := by
  rw [ofJson?_eq hroom, RequestBody.ofFields?_fields (p := p.hold.inner)
    (show p.depth + 1 + 2 ≤ Json.bracketLimit by omega) hfinite, Option.map_some]

end Request

/-! ## Responses -/

/-- The doubles in the results of a response: the time that a session got, and
the values that were read. -/
def ResponseBody.doubles : ResponseBody → List Binary64
  | .createSession r => [r.revisedTimeout]
  | .read results => results.flatMap DataValue.doubles
  | _ => []

/-- The doubles in a response; its header has none. -/
def Response.doubles (r : Response) : List Binary64 := r.body.doubles

namespace ResponseBody

theorem names_fields (b : ResponseBody) : b.fields.map (·.1) = fieldNames b.service := by
  cases b <;> rfl

theorem ofFields?_fields (p : Json.Place) {b : ResponseBody}
    (hfinite : ∀ x ∈ b.doubles, x.isFinite = true) :
    ofFields? p b.service (b.fields.map fun m => some m.2) = some b := by
  cases b with
  | createSession r =>
      have htimeout := Json.asDouble?_double (hfinite _ List.mem_cons_self)
      simp [ofFields?, service, fields, htimeout, Json.asList?_list]
  | activateSession nonce results => simp [ofFields?, service, fields, Json.asList?_list]
  | closeSession => rfl
  | transferSubscriptions results => simp [ofFields?, service, fields, Json.asList?_list]
  | read results =>
      have hitems : ∀ v ∈ results, DataValue.ofJson? p.inner v.toJson = some v := fun v hv =>
        DataValue.ofJson?_toJson p.inner fun x hx => hfinite x (List.mem_flatMap.mpr ⟨v, hv, hx⟩)
      simp [ofFields?, service, fields, Json.asList?_list hitems]
  | write results => simp [ofFields?, service, fields, Json.asList?_list]
  | serviceFault => rfl

theorem written (b : ResponseBody) : ∀ m ∈ b.fields, Written 7 m.2 := by
  cases b with
  | createSession r => simp [fields, Written.list]
  | activateSession nonce results => simp [fields, Written.list]
  | closeSession => simp [fields]
  | transferSubscriptions results => simp [fields, Written.list]
  | read results =>
      have hitems : ∀ v ∈ results, Written 6 v.toJson := fun v _ => v.written (by decide)
      simpa [fields] using Written.list (k := 7) (by decide) hitems
  | write results => simp [fields, Written.list]
  | serviceFault => simp [fields]

end ResponseBody

namespace Response

variable {r : Response}

theorem written (r : Response) : Written 8 r.toJson :=
  .record (List.forall_mem_cons.mpr ⟨.text _, List.forall_mem_cons.mpr
    ⟨r.header.written (by decide), r.body.written⟩⟩)

/-- A response is read back as far as its results are, as a request is as far
as its parameters are. -/
theorem ofJson?_eq {p : Json.Place} (hroom : p.depth + 8 ≤ Json.bracketLimit) :
    ofJson? p r.toJson =
      (ResponseBody.ofFields? p.hold.inner r.body.service (r.body.fields.map fun m => some m.2)).map
        (⟨r.header, ·⟩) := by
  have hheld := Json.holdable_of_written r.written hroom
  have hknown : r.body.service ∈ ResponseBody.services := by
    cases r.body <;> simp [ResponseBody.service, ResponseBody.services]
  have hnames : (("response_header", r.header.toJson) :: r.body.fields).map (·.1) =
      "response_header" :: ResponseBody.fieldNames r.body.service :=
    congrArg _ (ResponseBody.names_fields r.body)
  have hothers : "type" ∉ "response_header" :: ResponseBody.fieldNames r.body.service := by
    cases r.body <;> simp [ResponseBody.fieldNames, ResponseBody.service]
  have hdistinct : ("response_header" :: ResponseBody.fieldNames r.body.service).Nodup := by
    cases r.body <;> simp [ResponseBody.fieldNames, ResponseBody.service]
  have hshape : Json.inline? "type" ResponseBody.services p r.toJson = some (r.body.service, _) :=
    Json.inline?_record hknown (hnames ▸ hothers) hheld
  have hfields := Json.fields?_record hnames hdistinct
  rw [ofJson?, hshape]
  simp only [Option.bind_eq_bind, Option.bind_some, hfields, List.map_cons]
  simp [Option.map_eq_bind]

/-- **A response is read back from its value.**  The condition is on the
doubles alone, as it is for requests. -/
theorem ofJson?_toJson {p : Json.Place} (hroom : p.depth + 8 ≤ Json.bracketLimit)
    (hfinite : ∀ x ∈ r.doubles, x.isFinite = true) : ofJson? p r.toJson = some r := by
  rw [ofJson?_eq hroom, ResponseBody.ofFields?_fields p.hold.inner hfinite, Option.map_some]

end Response

/-! ## Envelopes -/

namespace Envelope

variable {α : Type} {write : α → Json} {read : Json.Place → Json → Option α} {e : Envelope α}

theorem written {k : Nat} (hbody : Written k (write e.body)) : Written (k + 1) (e.toJson write) :=
  .record (by simp [hbody])

/-- An envelope is read back as far as its body is: the handle is a number of
32 bits and cannot fail. -/
theorem ofJson?_eq {p : Json.Place} :
    ofJson? read p (e.toJson write) = (read p.inner (write e.body)).map (⟨e.handle, ·⟩) := by
  have hfields : Json.fields? ["request_handle", "body"] (e.toJson write) = some _ :=
    Json.fields?_record rfl (by decide)
  rw [ofJson?, hfields]
  simp [Option.map_eq_bind]

end Envelope

/-! ## The wire -/

namespace Wire

/-- The bytes of a text on the wire, in the encoding that both sides use. -/
def bytes (text : String) : List UInt8 := text.toUTF8.data.toList

/-- A written value is read from its bytes as from its text, since the bytes
of a text are always those of a text. -/
theorem decode?_bytes {α : Type} {f : Json.Place → Json → Option α} (text : String) :
    decode? f (bytes text) = decodeText? f text := by
  rw [decode?, bytes, Text.glyphs_encoded, decodeText?]

theorem decodeText?_render {α : Type} {f : Json.Place → Json → Option α} {k : Nat} {j : Json}
    (hwritten : Written k j) : decodeText? f j.render = f {} j := by
  rw [decodeText?, Json.read?_render hwritten, Option.bind_some]

/-- A request is brought back by its text as far as it is by its value. -/
theorem decodeRequest?_eq (e : RequestEnvelope) : decodeRequest? (encodeRequest e) =
    (Request.ofJson? (Json.Place.inner {}) e.body.toJson).map (⟨e.handle, ·⟩) := by
  rw [decodeRequest?, encodeRequest, decodeText?_render (Envelope.written e.body.written),
    Envelope.ofJson?_eq]

/-- A response is brought back by its text as far as it is by its value. -/
theorem decodeResponse?_eq (e : ResponseEnvelope) : decodeResponse? (encodeResponse e) =
    (Response.ofJson? (Json.Place.inner {}) e.body.toJson).map (⟨e.handle, ·⟩) := by
  rw [decodeResponse?, encodeResponse, decodeText?_render (Envelope.written e.body.written),
    Envelope.ofJson?_eq]

theorem decodeRequest?_encodeRequest {e : RequestEnvelope}
    (hfinite : ∀ x ∈ e.body.doubles, x.isFinite = true) :
    decodeRequest? (encodeRequest e) = some e := by
  rw [decodeRequest?_eq, Request.ofJson?_toJson (by decide) hfinite, Option.map_some]

theorem decodeResponse?_encodeResponse {e : ResponseEnvelope}
    (hfinite : ∀ x ∈ e.body.doubles, x.isFinite = true) :
    decodeResponse? (encodeResponse e) = some e := by
  rw [decodeResponse?_eq, Response.ofJson?_toJson (by decide) hfinite, Option.map_some]

/-- **Messages are read back from the wire.**  A request and a response whose
doubles are finite are brought back by the bytes of their text, so that no two
of them have the same bytes. -/
theorem messages_read_back :
    (∀ e : RequestEnvelope, (∀ x ∈ e.body.doubles, x.isFinite = true) →
      decode? (Envelope.ofJson? Request.ofJson?) (bytes (encodeRequest e)) = some e ∧
      ∀ e' : RequestEnvelope, (∀ x ∈ e'.body.doubles, x.isFinite = true) →
        bytes (encodeRequest e) = bytes (encodeRequest e') → e = e') ∧
    (∀ e : ResponseEnvelope, (∀ x ∈ e.body.doubles, x.isFinite = true) →
      decode? (Envelope.ofJson? Response.ofJson?) (bytes (encodeResponse e)) = some e ∧
      ∀ e' : ResponseEnvelope, (∀ x ∈ e'.body.doubles, x.isFinite = true) →
        bytes (encodeResponse e) = bytes (encodeResponse e') → e = e') := by
  have hrequest : ∀ {e : RequestEnvelope}, (∀ x ∈ e.body.doubles, x.isFinite = true) →
      decode? (Envelope.ofJson? Request.ofJson?) (bytes (encodeRequest e)) = some e :=
    fun hfinite => (decode?_bytes _).trans (decodeRequest?_encodeRequest hfinite)
  have hresponse : ∀ {e : ResponseEnvelope}, (∀ x ∈ e.body.doubles, x.isFinite = true) →
      decode? (Envelope.ofJson? Response.ofJson?) (bytes (encodeResponse e)) = some e :=
    fun hfinite => (decode?_bytes _).trans (decodeResponse?_encodeResponse hfinite)
  refine ⟨fun e hfinite => ⟨hrequest hfinite, fun e' hfinite' hsame => ?_⟩,
    fun e hfinite => ⟨hresponse hfinite, fun e' hfinite' hsame => ?_⟩⟩
  · have hfirst := hrequest hfinite
    rw [hsame, hrequest hfinite'] at hfirst
    exact (Option.some.inj hfirst).symm
  · have hfirst := hresponse hfinite
    rw [hsame, hresponse hfinite'] at hfirst
    exact (Option.some.inj hfirst).symm

/-- A request that writes a null and an empty byte string, one text as two
types, and a double. -/
def writeRequest : RequestEnvelope where
  handle := 7
  body := {
    header := { token := ⟨2, .bytes [0, 255]⟩, timestamp := 0xFFFFFFFFFFFFFFFF, handle := 7 }
    body := .write ([.byteString .null, .byteString (.of []), .string "\"\\\n", .other "\"\\\n",
      .double ⟨0x3FB999999999999A⟩].map fun value =>
        { node := ⟨0, .string "é"⟩, attributeId := .value, value := { value := value } }) }

/-- The answer to a read of a text in a locale, which may be absent on its
own. -/
def readResponse (locale : Option String) : ResponseEnvelope where
  handle := 7
  body := { header := .good 7, body := .read [{ value := .localizedText locale "" }] }

/-- A request with a finite double is read back, and so are two answers that
differ only in whether a locale is absent or empty; their bytes differ too. -/
theorem writeRequest_read_back :
    decode? (Envelope.ofJson? Request.ofJson?) (bytes (encodeRequest writeRequest)) =
        some writeRequest ∧
      decode? (Envelope.ofJson? Response.ofJson?) (bytes (encodeResponse (readResponse none))) =
        some (readResponse none) ∧
      bytes (encodeResponse (readResponse none)) ≠
        bytes (encodeResponse (readResponse (some ""))) := by
  have hrequest : ∀ x ∈ writeRequest.body.doubles, x.isFinite = true := by decide
  have habsent : ∀ x ∈ (readResponse none).body.doubles, x.isFinite = true := by decide
  have hempty : ∀ x ∈ (readResponse (some "")).body.doubles, x.isFinite = true := by decide
  refine ⟨(messages_read_back.1 writeRequest hrequest).1,
    (messages_read_back.2 (readResponse none) habsent).1, fun hsame => ?_⟩
  exact absurd ((messages_read_back.2 (readResponse none) habsent).2 _ hempty hsame) (by decide)

end Wire

end OpcSession
