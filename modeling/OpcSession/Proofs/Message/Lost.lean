import OpcSession.Proofs.Message.Wire

/-!
# Messages that are lost on the wire

JSON has no numeral for an infinite double or for one that is no number.
Where such a double stands in a message, the text of the message has a null,
and the reader takes no null for a double.  So the text of a message brings
back the message if all of its doubles are finite, and nothing otherwise: it
never brings back another one.

* `ofJson?_lost` — in the namespace of each part, what is not read back;
* `Wire.decodeRequest?_encoded`, `Wire.decodeResponse?_encoded` — what is
  read of the text of a message, whichever it is.
-/

namespace OpcSession

/-- What is read back where all doubles are finite, and is not read where one
is not. -/
theorem Json.read_or_lost {α : Type} {read : Option α} {a : α} {xs : List Binary64}
    (hkept : (∀ x ∈ xs, x.isFinite = true) → read = some a)
    (hlost : ∀ x ∈ xs, x.isFinite = false → read = none) :
    read = if xs.all (·.isFinite) then some a else none := by
  cases hfinite : xs.all (·.isFinite) with
  | true => exact hkept (List.all_eq_true.mp hfinite)
  | false =>
      obtain ⟨x, hmem, hinfinite⟩ := List.all_eq_false.mp hfinite
      exact hlost x hmem (Bool.eq_false_of_not_eq_true hinfinite)

/-! ## Parts -/

section Parts

variable (p : Json.Place) {x : Binary64}

/-- A value with a double that is no number is not read back: the type says
that a double follows, and `null` does. -/
theorem Variant.ofJson?_lost {v : Variant} (hmem : x ∈ v.doubles) (hlost : x.isFinite = false) :
    ofJson? p v.toJson = none := by
  cases v with
  | double y =>
      obtain rfl : x = y := List.mem_singleton.mp hmem
      rw [ofJson?, adjacent?_toJson rfl]
      simp [Json.choice?_text, typeNames, typeName, Json.asDouble?_lost hlost]
  | _ => cases hmem

/-- A value with its status is lost with the value. -/
theorem DataValue.ofJson?_lost {v : DataValue} (hmem : x ∈ v.doubles)
    (hlost : x.isFinite = false) : ofJson? p v.toJson = none := by
  have hfields : Json.fields? fieldNames v.toJson = some _ :=
    Json.fields?_record rfl (by decide)
  have hvalue := Variant.ofJson?_lost p.inner hmem hlost
  rw [ofJson?, hfields]
  simp [hvalue]

/-- What is to be written is lost with its value. -/
theorem WriteItem.ofJson?_lost {w : WriteItem} (hmem : x ∈ w.doubles)
    (hlost : x.isFinite = false) : ofJson? p w.toJson = none := by
  have hfields : Json.fields? ["node_id", "attribute_id", "value"] w.toJson = some _ :=
    Json.fields?_record rfl (by decide)
  have hvalue := DataValue.ofJson?_lost p.inner hmem hlost
  rw [ofJson?, hfields]
  simp [hvalue]

end Parts

/-! ## Requests -/

namespace RequestBody

/-- The parameters of a service are not read if one of their doubles has no
numeral, at whatever depth it stands. -/
theorem ofFields?_lost (p : Json.Place) {b : RequestBody} {x : Binary64} (hmem : x ∈ b.doubles)
    (hlost : x.isFinite = false) :
    ofFields? p b.service (b.fields.map fun m => some m.2) = none := by
  cases b with
  | createSession r =>
      obtain rfl : x = r.requestedTimeout := List.mem_singleton.mp hmem
      simp [ofFields?, service, fields, Json.asDouble?_lost hlost]
  | read maxAge nodes =>
      obtain rfl : x = maxAge := List.mem_singleton.mp hmem
      simp [ofFields?, service, fields, Json.asDouble?_lost hlost]
  | write nodes =>
      obtain ⟨w, hw, hinside⟩ := List.mem_flatMap.mp hmem
      have hitems := Json.asList?_lost hw (WriteItem.ofJson?_lost p.inner hinside hlost)
      simp [ofFields?, service, fields, hitems]
  | _ => cases hmem

end RequestBody

namespace Request

/-- All doubles in a request are finite: the time for a session, the age for a
read and the values to write. -/
def isFinite (r : Request) : Bool := r.doubles.all (·.isFinite)

/-- The handle that the client puts into a request has no part in this. -/
@[simp]
theorem isFinite_withHandle (r : Request) (handle : UInt32) :
    (r.withHandle handle).isFinite = r.isFinite := rfl

/-- **What is read of the value of a request.**  It is the request if its
doubles are all numbers; otherwise nothing is read, whatever else it holds. -/
theorem ofJson?_toJson_eq {p : Json.Place} (hroom : p.depth + 8 ≤ Json.bracketLimit)
    (r : Request) : ofJson? p r.toJson = if r.isFinite then some r else none := by
  refine Json.read_or_lost (ofJson?_toJson hroom) fun x hmem hlost => ?_
  rw [ofJson?_eq hroom, RequestBody.ofFields?_lost _ hmem hlost, Option.map_none]

end Request

/-! ## Responses -/

namespace ResponseBody

/-- The results of a service are not read if one of their doubles has no
numeral, at whatever depth it stands. -/
theorem ofFields?_lost (p : Json.Place) {b : ResponseBody} {x : Binary64} (hmem : x ∈ b.doubles)
    (hlost : x.isFinite = false) :
    ofFields? p b.service (b.fields.map fun m => some m.2) = none := by
  cases b with
  | createSession r =>
      obtain rfl : x = r.revisedTimeout := List.mem_singleton.mp hmem
      simp [ofFields?, service, fields, Json.asDouble?_lost hlost]
  | read results =>
      obtain ⟨v, hv, hinside⟩ := List.mem_flatMap.mp hmem
      have hitems := Json.asList?_lost hv (DataValue.ofJson?_lost p.inner hinside hlost)
      simp [ofFields?, service, fields, hitems]
  | _ => cases hmem

end ResponseBody

namespace Response

/-- All doubles in a response are finite: the time for a session, and the
values that were read. -/
def isFinite (r : Response) : Bool := r.doubles.all (·.isFinite)

/-- **What is read of the value of a response.**  It is the response if its
doubles are all numbers; otherwise nothing is read. -/
theorem ofJson?_toJson_eq {p : Json.Place} (hroom : p.depth + 8 ≤ Json.bracketLimit)
    (r : Response) : ofJson? p r.toJson = if r.isFinite then some r else none := by
  refine Json.read_or_lost (ofJson?_toJson hroom) fun x hmem hlost => ?_
  rw [ofJson?_eq hroom, ResponseBody.ofFields?_lost _ hmem hlost, Option.map_none]

end Response

/-! ## The wire -/

namespace Wire

/-- **What is read of the text of a request.**  A text always comes of
encoding, also where nothing can be read of it. -/
theorem decodeRequest?_encoded (e : RequestEnvelope) :
    decodeRequest? (encodeRequest e) = if e.body.isFinite then some e else none := by
  rw [decodeRequest?_eq, Request.ofJson?_toJson_eq (by decide)]
  split <;> rfl

/-- **What is read of the text of a response.**  A text always comes of
encoding, also where nothing can be read of it. -/
theorem decodeResponse?_encoded (e : ResponseEnvelope) :
    decodeResponse? (encodeResponse e) = if e.body.isFinite then some e else none := by
  rw [decodeResponse?_eq, Response.ofJson?_toJson_eq (by decide)]
  split <;> rfl

end Wire

end OpcSession
