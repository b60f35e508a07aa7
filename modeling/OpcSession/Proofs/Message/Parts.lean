import OpcSession.Message.Request
import OpcSession.Message.Response
import OpcSession.Proofs.Json.Shapes

/-!
# The parts of messages are read back

Each part of a message is written as a written value with few brackets, and
the reader of the part gives the part back at every place.  The doubles of a
message are the only parts with a condition: to be read back they have to be
finite.

* `ofJson?_toJson` — in the namespace of each part, its round trip;
* `written` — in the same namespace, how deep the part is.
-/

namespace OpcSession

open Json (Written)

/-! ## Status codes, byte strings and node ids -/

@[simp]
theorem StatusCode.ofJson?_toJson (s : StatusCode) : ofJson? s.toJson = some s := by
  rw [toJson, ofJson?, Json.asUInt32?_nat]
  rfl

@[simp]
theorem StatusCode.written {k : Nat} (s : StatusCode) : Written k s.toJson := .uint32 s.word

@[simp]
theorem ByteString.ofField?_toJson (b : ByteString) : ofField? (some b.toJson) = some b := by
  rw [toJson, ofField?, Json.maybe_optional Json.asBytes?_bytes (fun _ => nofun)]
  rfl

@[simp]
theorem ByteString.written {k : Nat} (hle : 1 ≤ k) (b : ByteString) : Written k b.toJson :=
  .optional fun bs _ => .bytes hle bs

@[simp]
theorem Identifier.ofJson?_toJson (p : Json.Place) (i : Identifier) :
    ofJson? p i.toJson = some i := by
  rw [toJson, ofJson?, Json.adjacent?_tagged (by decide)]
  cases i <;> simp [kind, content, Json.choice?_text, kinds]

@[simp]
theorem Identifier.written {k : Nat} (hle : 2 ≤ k) (i : Identifier) : Written k i.toJson := by
  have hcontent : Written 1 i.content := by
    cases i with
    | numeric id => exact .uint32 id
    | string id => exact .text id
    | guid id => exact .text id
    | bytes id => exact .bytes (by decide) id
  exact hcontent.tagged.mono hle

@[simp]
theorem NodeId.ofJson?_toJson (p : Json.Place) (n : NodeId) : ofJson? p n.toJson = some n := by
  have hfields : Json.fields? ["namespace", "identifier"] n.toJson = some _ :=
    Json.fields?_record rfl (by decide)
  rw [ofJson?, hfields]
  simp

@[simp]
theorem NodeId.written {k : Nat} (hle : 3 ≤ k) (n : NodeId) : Written k n.toJson :=
  (Written.record (by simp) : Written 3 _).mono hle

/-! ## Names out of tables -/

@[simp]
theorem AttributeId.ofJson?_toJson (p : Json.Place) (a : AttributeId) :
    ofJson? p a.toJson = some a :=
  Json.find?_table (by decide) (by cases a <;> decide) p

@[simp]
theorem AttributeId.written {k : Nat} (a : AttributeId) : Written k a.toJson := .text _

@[simp]
theorem ApplicationType.ofJson?_toJson (p : Json.Place) (a : ApplicationType) :
    ofJson? p a.toJson = some a :=
  Json.find?_table (by decide) (by cases a <;> decide) p

@[simp]
theorem ApplicationType.written {k : Nat} (a : ApplicationType) : Written k a.toJson := .text _

@[simp]
theorem UserTokenType.ofJson?_toJson (p : Json.Place) (t : UserTokenType) :
    ofJson? p t.toJson = some t :=
  Json.find?_table (by decide) (by cases t <;> decide) p

@[simp]
theorem UserTokenType.written {k : Nat} (t : UserTokenType) : Written k t.toJson := .text _

@[simp]
theorem MessageSecurityMode.ofJson?_toJson (p : Json.Place) (m : MessageSecurityMode) :
    ofJson? p m.toJson = some m :=
  Json.find?_table (by decide) (by cases m <;> decide) p

@[simp]
theorem MessageSecurityMode.written {k : Nat} (m : MessageSecurityMode) :
    Written k m.toJson := .text _

/-! ## Security -/

@[simp]
theorem SignatureData.ofJson?_toJson (s : SignatureData) : ofJson? s.toJson = some s := by
  have hfields : Json.fields? ["algorithm", "signature"] s.toJson = some _ :=
    Json.fields?_record rfl (by decide)
  rw [ofJson?, hfields]
  simp

@[simp]
theorem SignatureData.written {k : Nat} (hle : 2 ≤ k) (s : SignatureData) : Written k s.toJson :=
  (Written.record (by simp) : Written 2 _).mono hle

@[simp]
theorem SoftwareCertificate.ofJson?_toJson (c : SoftwareCertificate) :
    ofJson? c.toJson = some c := by
  have hfields : Json.fields? ["certificate_data", "signature"] c.toJson = some _ :=
    Json.fields?_record rfl (by decide)
  rw [ofJson?, hfields]
  simp

@[simp]
theorem SoftwareCertificate.written {k : Nat} (hle : 2 ≤ k) (c : SoftwareCertificate) :
    Written k c.toJson :=
  (Written.record (by simp) : Written 2 _).mono hle

/-! ## Endpoints -/

@[simp]
theorem ApplicationDescription.ofJson?_toJson (p : Json.Place) (a : ApplicationDescription) :
    ofJson? p a.toJson = some a := by
  have hfields : Json.fields? fieldNames a.toJson = some _ :=
    Json.fields?_record rfl (by decide)
  rw [ofJson?, hfields]
  simp

@[simp]
theorem ApplicationDescription.written {k : Nat} (hle : 1 ≤ k) (a : ApplicationDescription) :
    Written k a.toJson :=
  (Written.record (by simp) : Written 1 _).mono hle

@[simp]
theorem UserTokenPolicy.ofJson?_toJson (p : Json.Place) (t : UserTokenPolicy) :
    ofJson? p t.toJson = some t := by
  have hfields : Json.fields? ["policy_id", "token_type", "security_policy_uri"] t.toJson =
      some _ := Json.fields?_record rfl (by decide)
  rw [ofJson?, hfields]
  simp

@[simp]
theorem UserTokenPolicy.written {k : Nat} (hle : 1 ≤ k) (t : UserTokenPolicy) :
    Written k t.toJson :=
  (Written.record (by simp) : Written 1 _).mono hle

@[simp]
theorem EndpointDescription.ofJson?_toJson (p : Json.Place) (e : EndpointDescription) :
    ofJson? p e.toJson = some e := by
  have hfields : Json.fields? fieldNames e.toJson = some _ :=
    Json.fields?_record rfl (by decide)
  rw [ofJson?, hfields]
  simp [Json.asList?_list]

@[simp]
theorem EndpointDescription.written {k : Nat} (hle : 3 ≤ k) (e : EndpointDescription) :
    Written k e.toJson :=
  (Written.record (by simp [Written.list]) : Written 3 _).mono hle

/-! ## Values of attributes -/

/-- The doubles in a value, which can be one at most: values are no lists. -/
def Variant.doubles : Variant → List Binary64
  | .double x => [x]
  | _ => []

theorem Variant.asInt32 (i : Int32) :
    (Json.int i.toInt).asInt? (-0x80000000) 0x7FFFFFFF = some i.toInt := by
  have hlow := i.le_toInt
  have hhigh := i.toInt_lt
  exact Json.asInt?_int (by omega)

theorem Variant.asInt64 (i : Int64) :
    (Json.int i.toInt).asInt? (-0x8000000000000000) 0x7FFFFFFFFFFFFFFF = some i.toInt := by
  have hlow := i.le_toInt
  have hhigh := i.toInt_lt
  exact Json.asInt?_int (by omega)

/-- The type and the content of a value that has a content stand side by side
in the text, so the reader knows the type before it looks at the content. -/
theorem Variant.adjacent?_toJson {v : Variant} {c : Json} (hcontent : v.content? = some c)
    (p : Json.Place) :
    Json.adjacent? "type" "value" p v.toJson = some (.text v.typeName, some c, p.inner) := by
  rw [toJson, hcontent]
  exact Json.adjacent?_tagged (by decide) p v.typeName c

theorem Variant.ofJson?_toJson (p : Json.Place) {v : Variant}
    (hfinite : ∀ x ∈ v.doubles, x.isFinite = true) : ofJson? p v.toJson = some v := by
  cases v with
  | empty =>
      have hshape : Json.adjacent? "type" "value" p empty.toJson =
          some (.text empty.typeName, none, p.inner) := Json.adjacent?_bare (by decide) p _
      rw [ofJson?, hshape]
      simp [Json.choice?_text, typeNames, typeName]
  | boolean b =>
      rw [ofJson?, adjacent?_toJson rfl]
      simp [Json.choice?_text, typeNames, typeName]
  | int32 i =>
      rw [ofJson?, adjacent?_toJson rfl]
      simp [Json.choice?_text, typeNames, typeName, asInt32]
  | uint32 n =>
      rw [ofJson?, adjacent?_toJson rfl]
      simp [Json.choice?_text, typeNames, typeName]
  | int64 i =>
      rw [ofJson?, adjacent?_toJson rfl]
      simp [Json.choice?_text, typeNames, typeName, asInt64]
  | uint64 n =>
      rw [ofJson?, adjacent?_toJson rfl]
      simp [Json.choice?_text, typeNames, typeName]
  | double x =>
      have hnumber := Json.asDouble?_double (hfinite x List.mem_cons_self)
      rw [ofJson?, adjacent?_toJson rfl]
      simp [Json.choice?_text, typeNames, typeName, hnumber]
  | string s =>
      rw [ofJson?, adjacent?_toJson rfl]
      simp [Json.choice?_text, typeNames, typeName]
  | byteString b =>
      rw [ofJson?, adjacent?_toJson rfl]
      simp [Json.choice?_text, typeNames, typeName]
  | nodeId n =>
      rw [ofJson?, adjacent?_toJson rfl]
      simp [Json.choice?_text, typeNames, typeName]
  | statusCode s =>
      rw [ofJson?, adjacent?_toJson rfl]
      simp [Json.choice?_text, typeNames, typeName]
  | localizedText locale text =>
      have hfields : objectFields? ["locale", "text"]
          (.record [("locale", .optional .text locale), ("text", .text text)]) = some _ :=
        Json.pick?_named rfl (by decide)
      rw [ofJson?, adjacent?_toJson rfl]
      simp [Json.choice?_text, typeNames, typeName, hfields]
  | qualifiedName space name =>
      have hfields : objectFields? ["namespace", "name"]
          (.record [("namespace", .nat space.toNat), ("name", .text name)]) = some _ :=
        Json.pick?_named rfl (by decide)
      rw [ofJson?, adjacent?_toJson rfl]
      simp [Json.choice?_text, typeNames, typeName, hfields]
  | other s =>
      rw [ofJson?, adjacent?_toJson rfl]
      simp [Json.choice?_text, typeNames, typeName]

theorem Variant.written {k : Nat} (hle : 4 ≤ k) (v : Variant) : Written k v.toJson := by
  have hcontent : ∀ c, v.content? = some c → Written 3 c := by
    intro c hc
    cases v with
    | empty => cases hc
    | boolean b => cases hc; exact .bool b
    | int32 i =>
        cases hc
        have hlow := i.le_toInt
        have hhigh := i.toInt_lt
        exact .int (by omega)
    | uint32 n => cases hc; exact .uint32 n
    | int64 i =>
        cases hc
        have hlow := i.le_toInt
        have hhigh := i.toInt_lt
        exact .int (by omega)
    | uint64 n => cases hc; exact .uint64 n
    | double x => cases hc; exact .double x
    | string s => cases hc; exact .text s
    | byteString b => cases hc; simp
    | nodeId n => cases hc; simp
    | statusCode s => cases hc; simp
    | localizedText locale text => cases hc; exact .record (by simp)
    | qualifiedName space name => cases hc; exact .record (by simp)
    | other s => cases hc; exact .text s
  cases hshape : v.content? with
  | none =>
      rw [toJson, hshape]
      exact (Written.record (by simp) : Written 1 _).mono (by omega)
  | some c =>
      rw [toJson, hshape]
      exact (hcontent c hshape).tagged.mono hle

/-- The doubles in a value with its status; the timestamps are whole
numbers. -/
def DataValue.doubles (v : DataValue) : List Binary64 := v.value.doubles

@[simp]
theorem DataValue.maybe_timestamp (t : Option UInt64) :
    Json.maybe Json.asUInt64? (some (timestamp t)) = some t :=
  Json.maybe_optional Json.asUInt64?_nat (fun _ => nofun) t

@[simp]
theorem DataValue.written_timestamp {k : Nat} (t : Option UInt64) : Written k (timestamp t) :=
  .optional fun n _ => .uint64 n

theorem DataValue.ofJson?_toJson (p : Json.Place) {v : DataValue}
    (hfinite : ∀ x ∈ v.doubles, x.isFinite = true) : ofJson? p v.toJson = some v := by
  have hfields : Json.fields? fieldNames v.toJson = some _ :=
    Json.fields?_record rfl (by decide)
  have hvalue := Variant.ofJson?_toJson p.inner hfinite
  rw [ofJson?, hfields]
  simp [hvalue]

theorem DataValue.written {k : Nat} (hle : 5 ≤ k) (v : DataValue) : Written k v.toJson := by
  have hvalue : Written 4 v.value.toJson := v.value.written (Nat.le_refl 4)
  exact (Written.record (by simp [hvalue]) : Written 5 _).mono hle

/-! ## Identities -/

theorem UserToken.written {k : Nat} (hle : 2 ≤ k) (t : UserToken) : Written k t.toJson := by
  cases t with
  | anonymous id => exact (Written.record (by simp) : Written 2 _).mono hle
  | userName id name password algorithm =>
      exact (Written.record (by simp) : Written 2 _).mono hle

theorem UserToken.ofJson?_toJson {p : Json.Place} (hroom : p.depth + 2 ≤ Json.bracketLimit)
    (t : UserToken) : ofJson? p t.toJson = some t := by
  have hheld := Json.holdable_of_written (written (Nat.le_refl 2) t) hroom
  cases t with
  | anonymous id =>
      have hshape : Json.inline? "type" ["Anonymous", "UserName"] p (anonymous id).toJson =
          some ("Anonymous", _) := Json.inline?_record (by decide) (by simp) hheld
      have hfields : Json.fields? ["policy_id"] (.record [("policy_id", .text id)]) = some _ :=
        Json.fields?_record rfl (by decide)
      rw [ofJson?, hshape]
      simp [hfields]
  | userName id name password algorithm =>
      have hshape : Json.inline? "type" ["Anonymous", "UserName"] p
          (userName id name password algorithm).toJson = some ("UserName", _) :=
        Json.inline?_record (by decide) (by simp) hheld
      have hfields : Json.fields? ["policy_id", "user_name", "password", "encryption_algorithm"]
          (.record [("policy_id", .text id), ("user_name", .text name),
            ("password", password.toJson),
            ("encryption_algorithm", .optional .text algorithm)]) = some _ :=
        Json.fields?_record rfl (by decide)
      rw [ofJson?, hshape]
      simp [hfields]

/-! ## Headers -/

@[simp]
theorem RequestHeader.ofJson?_toJson (p : Json.Place) (h : RequestHeader) :
    ofJson? p h.toJson = some h := by
  have hfields : Json.fields?
      ["authentication_token", "timestamp", "request_handle", "timeout_hint"] h.toJson =
        some _ := Json.fields?_record rfl (by decide)
  rw [ofJson?, hfields]
  simp

@[simp]
theorem RequestHeader.written {k : Nat} (hle : 4 ≤ k) (h : RequestHeader) :
    Written k h.toJson :=
  (Written.record (by simp) : Written 4 _).mono hle

@[simp]
theorem ResponseHeader.ofJson?_toJson (h : ResponseHeader) : ofJson? h.toJson = some h := by
  have hfields : Json.fields? ["timestamp", "request_handle", "service_result"] h.toJson =
      some _ := Json.fields?_record rfl (by decide)
  rw [ofJson?, hfields]
  simp

@[simp]
theorem ResponseHeader.written {k : Nat} (hle : 1 ≤ k) (h : ResponseHeader) :
    Written k h.toJson :=
  (Written.record (by simp) : Written 1 _).mono hle

/-! ## Items of services -/

@[simp]
theorem ReadId.ofJson?_toJson (p : Json.Place) (r : ReadId) : ofJson? p r.toJson = some r := by
  have hfields : Json.fields? ["node_id", "attribute_id"] r.toJson = some _ :=
    Json.fields?_record rfl (by decide)
  rw [ofJson?, hfields]
  simp

@[simp]
theorem ReadId.written {k : Nat} (hle : 4 ≤ k) (r : ReadId) : Written k r.toJson :=
  (Written.record (by simp) : Written 4 _).mono hle

/-- The doubles in a value to write, together with where it is to be
written. -/
def WriteItem.doubles (w : WriteItem) : List Binary64 := w.value.doubles

theorem WriteItem.ofJson?_toJson (p : Json.Place) {w : WriteItem}
    (hfinite : ∀ x ∈ w.doubles, x.isFinite = true) : ofJson? p w.toJson = some w := by
  have hfields : Json.fields? ["node_id", "attribute_id", "value"] w.toJson = some _ :=
    Json.fields?_record rfl (by decide)
  have hvalue := DataValue.ofJson?_toJson p.inner hfinite
  rw [ofJson?, hfields]
  simp [hvalue]

theorem WriteItem.written {k : Nat} (hle : 6 ≤ k) (w : WriteItem) : Written k w.toJson := by
  have hvalue : Written 5 w.value.toJson := w.value.written (Nat.le_refl 5)
  exact (Written.record (by simp [hvalue]) : Written 6 _).mono hle

@[simp]
theorem TransferResult.ofJson?_toJson (t : TransferResult) : ofJson? t.toJson = some t := by
  have hfields : Json.fields? ["status_code", "available_sequence_numbers"] t.toJson = some _ :=
    Json.fields?_record rfl (by decide)
  rw [ofJson?, hfields]
  simp [Json.asList?_list]

@[simp]
theorem TransferResult.written {k : Nat} (hle : 2 ≤ k) (t : TransferResult) :
    Written k t.toJson :=
  (Written.record (by simp [Written.list]) : Written 2 _).mono hle

end OpcSession
