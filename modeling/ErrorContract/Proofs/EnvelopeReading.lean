/-
  ErrorContract.Proofs.EnvelopeReading
  ────────────────────────────────────
  **AN ENVELOPE IS READ BACK AS IT WAS SENT.**

  `Gathers` says what the members of an object leave in the fields of a
  record, in whatever order they come and whatever stands among them; the
  record is judged to have just that, and reading an envelope ends as its
  object is judged (`endsLike_object`).  The text of an envelope is such an
  object, so reading it gives the envelope back, and no two envelopes share
  a text.
-/
import ErrorContract.Envelope.Reader
import ErrorContract.Proofs.Reading
import ErrorContract.Proofs.Tracking
import ErrorContract.Proofs.Written

namespace ErrorContract.Json

open ErrorContract

/-! ## §1. What is read without keeping track. -/

/-- **A run without track ends as a verdict says**, up to the way to what does not fit. -/
def EndsLike : Verdict α → Except Error α → Prop
  | .ok a, r => r = .ok a
  | .error flaw, r => ∃ e : Error, r = .error { e with trail := [] } ∧ flaw.Causes e

/-- What meets a verdict when track is kept ends like it when none is. -/
theorem MeetsThen.endsLike {v : Verdict α} {tracked plain : Read α} {post : Cursor → Prop}
    {body : List UInt8} (hstep : InStep tracked plain)
    (h : MeetsThen post v (tracked (.start body .complete))) :
    EndsLike v (run plain body .complete) := by
  have hends := hstep (.start body .complete) rfl
  unfold run
  generalize plain (.start body .complete) = r at hends ⊢
  cases v with
  | ok a =>
      obtain ⟨c, hrun, -⟩ := h
      rw [hrun] at hends
      cases hends with
      | ok a c hc => rfl
  | error flaw =>
      obtain ⟨e, c, hrun, hcauses⟩ := h
      rw [hrun] at hends
      cases hends with
      | error e c hc he => exact ⟨e, rfl, hcauses⟩

/-! ## §2. Members in any order. -/

/-- **What the members of an object leave in the fields of a record.** A member that no field
has the name of leaves nothing, and no field is left anything twice. -/
inductive Gathers (schema : Schema τ) (fields : List (Field τ)) :
    List (String × Value) → Members → List (String × Value) → Prop where
  /-- No member is left. -/
  | done {before : List (String × Value)} (blanks : Blanks) :
      Gathers schema fields before (.nil blanks) before
  /-- A member that nobody asked for is passed over. -/
  | passed {before found : List (String × Value)} {leading blanks beforeColon behindColon : Blanks}
      {token : StringToken} {name : String} {value : Tree} {rest : Members}
      (htext : StringToken.text? token = some name)
      (hfield : fields.find? (·.name == name) = none)
      (hrest : Gathers schema fields before rest found) :
      Gathers schema fields before
        (.cons leading blanks token beforeColon behindColon value rest) found
  /-- A member is left to its field. -/
  | taken {before found : List (String × Value)} {leading blanks beforeColon behindColon : Blanks}
      {token : StringToken} {name : String} {field : Field τ} {value : Tree} {v : Value}
      {rest : Members} (htext : StringToken.text? token = some name)
      (hfield : fields.find? (·.name == name) = some field)
      (hnew : before.lookup name = none) (hvalue : judgeField schema field value = .ok v)
      (hrest : Gathers schema fields ((name, v) :: before) rest found) :
      Gathers schema fields before
        (.cons leading blanks token beforeColon behindColon value rest) found

/-- **The record is judged to have what the members leave.** -/
theorem judgeNamed_of_gathers {schema : Schema τ} {fields : List (Field τ)} {members : Members}
    {before found : List (String × Value)} (h : Gathers schema fields before members found) :
    judgeNamed schema fields false before members = .ok found := by
  induction h with
  | done blanks => rfl
  | passed htext hfield hrest ih =>
      rw [judgeNamed_unknown htext hfield]
      exact ih
  | taken htext hfield hnew hvalue hrest ih =>
      rw [judgeNamed_field htext hfield (by simp [hnew]), hvalue]
      exact ih

end ErrorContract.Json

namespace ErrorContract.Envelope

open ErrorContract Json

/-! ## §3. Envelopes. -/

/-- The fields of an envelope. -/
def fields : List (Json.Field EnvelopeType) :=
  [⟨"errorCode", .code, .required⟩, ⟨"errorMessage", .message, .nullable⟩]

/-- The values of an envelope's fields hold no brackets. -/
theorem readsAs_readAt (ctx : Context) (depth : Nat) {f : Json.Field EnvelopeType}
    (hf : f ∈ fields) (t : Tree) :
    ReadsAs (readAt schema ctx depth (schema f.type)) (judge schema (schema f.type) t) t := by
  have hlayout : ∀ inner : Inner EnvelopeType, ReadsAs (readLayout schema ctx inner (schema f.type))
      (judge schema (schema f.type) t) t := by
    intro inner tail c w htail h
    simp only [fields, List.mem_cons, List.not_mem_nil, or_false] at hf
    rcases hf with rfl | rfl
    · show Meets tail (judge schema (.integer (.signed 32)) t) _
      rw [judge_integer]
      exact (meets_readInteger (.signed 32) t htail h).map
    · show Meets tail (judge schema .text t) _
      rw [judge_text]
      exact (meets_readText "a string" t htail h).map
  cases depth with
  | zero => exact hlayout none
  | succ depth => exact hlayout (some (readAt schema ctx depth))

/-- An object is judged by its members, and then by the fields that it has. -/
theorem judge_envelope (members : Members) :
    judge schema (schema .envelope) (.object members) = do
      return .object (← judgeComplete (← judgeNamed schema fields false [] members) fields) := rfl

/-- **An envelope is read as its object is judged.** No bracket is opened but those of the object,
as the members that no field asks for are passed over. -/
theorem endsLike_object (before behind : Blanks) (members : Members) :
    EndsLike (judge schema (schema .envelope) (.object members))
      (readWhole schema (schema .envelope) false
        (Document.bytes ⟨before, .object members, behind⟩) .complete) := by
  let d : Document := ⟨before, .object members, behind⟩
  let ctx : Context := ⟨d.bytes.length, true⟩
  have hshorter : (Tree.object members).bytes.length ≤ ctx.bound := by
    show _ ≤ (before.bytes ++ ((Tree.object members).bytes ++ behind.bytes)).length
    simp only [List.length_append]
    omega
  have hobject : Meets behind.bytes (judge schema (schema .envelope) (.object members))
      (readAt schema ctx depthLimit (schema .envelope) (.start d.bytes .complete)) := by
    have hstart : (Cursor.start d.bytes .complete).At
        (before.bytes ++ ((Tree.object members).bytes ++ behind.bytes)) := ⟨rfl, rfl⟩
    refine (meets_firstByte _ hstart).bind_ok fun c₁ h₁ => meets_object h₁ fun c₂ h₂ => ?_
    -- The members are read as they come; then the fields are put in order.
    refine (meets_namedFields rfl (fun e _ f hf => readsAs_readAt ctx 126 hf e.2)
      (Members.length_bytes_le_bound hshorter) (Members.length_entries_lt_bound hshorter)
      h₂).bind fun found c₃ _ h₃ => ?_
    exact (meets_complete found fields h₃).map
  refine hobject.finish.endsLike ?_
  exact (inStep_readAt schema d.bytes.length depthLimit (schema .envelope)).bind fun v =>
    .bind steady_finish fun _ => .pure v

/-- What is wrong with the object is what its reading fails with. -/
theorem parse_of_error (before behind : Blanks) {members : Members} {flaw : Flaw}
    (h : judge schema (schema .envelope) (.object members) = .error flaw) :
    ∃ e : Error, parse (Document.bytes ⟨before, .object members, behind⟩)
      = .error { e with trail := [] } ∧ flaw.Causes e := by
  have hends := endsLike_object before behind members
  rw [h] at hends
  obtain ⟨e, hread, hcauses⟩ := hends
  refine ⟨e, ?_, hcauses⟩
  unfold parse
  rw [hread]
  rfl

/-- **An object whose members leave a code, and a message or none, is read as that envelope.** -/
theorem parse_of_gathers (before behind : Blanks) {members : Members}
    {found : List (String × Value)} (hgathers : Gathers schema fields [] members found)
    {e : Envelope} (hcode : found.lookup "errorCode" = some (.int e.errorCode.toInt))
    (hmessage : (found.lookup "errorMessage").getD .null
      = (e.errorMessage.map Value.text).getD .null) :
    parse (Document.bytes ⟨before, .object members, behind⟩) = .ok e := by
  let json : Value := .object [("errorCode", .int e.errorCode.toInt),
    ("errorMessage", (e.errorMessage.map Value.text).getD .null)]
  have hcomplete : judgeComplete found fields = .ok
      [("errorCode", .int e.errorCode.toInt),
        ("errorMessage", (e.errorMessage.map Value.text).getD .null)] := by
    unfold fields judgeComplete judgeComplete judgeComplete
    rw [hcode]
    cases hlookup : found.lookup "errorMessage" with
    | none =>
        rw [hlookup] at hmessage
        rw [← hmessage]
        rfl
    | some v =>
        rw [hlookup] at hmessage
        rw [← hmessage]
        rfl
  have hjudge : judge schema (schema .envelope) (.object members) = .ok json := by
    rw [judge_envelope, judgeNamed_of_gathers hgathers]
    show (judgeComplete found fields >>= fun read => .ok (Value.object read)) = _
    rw [hcomplete]
    rfl
  have hread := endsLike_object before behind members
  rw [hjudge] at hread
  -- What was read is the envelope's own value.
  have hback : ofJson json = some e := by
    obtain ⟨code, message⟩ := e
    cases message with
    | none => simp [json, ofJson, Int32.ofInt_toInt]
    | some m => simp [json, ofJson, Int32.ofInt_toInt]
  unfold parse
  rw [show readWhole schema (schema .envelope) false
    (Document.bytes ⟨before, .object members, behind⟩) .complete = .ok json from hread]
  simp only [bind, Except.bind, hback, pure, Except.pure]

/-! ## §4. The text of an envelope. -/

/-- A message, or its absence, is written as what its field reads. -/
theorem exists_messageTree (message : Option String) : ∃ t : Tree,
    ((message.map Value.text).getD .null).chars.flatMap Utf8.encodeChar = t.bytes
      ∧ judgeField schema ⟨"errorMessage", .message, .nullable⟩ t
        = .ok ((message.map Value.text).getD .null) := by
  cases message with
  | none => exact ⟨.null, by decide, rfl⟩
  | some m =>
      obtain ⟨token, hbytes, htext⟩ := exists_stringToken m
      refine ⟨.string token, hbytes, ?_⟩
      show judge schema .text (.string token) = _
      rw [judge_text, judgeText, htext]
      rfl

/-- A code is written as what its field reads. -/
theorem exists_codeTree (code : Int32) : ∃ t : Tree,
    (Value.int code.toInt).chars.flatMap Utf8.encodeChar = t.bytes
      ∧ judgeField schema ⟨"errorCode", .code, .required⟩ t = .ok (.int code.toInt) := by
  have hlow := code.le_toInt
  have hhigh := code.toInt_lt
  obtain ⟨token, hbytes, hvalue⟩ :=
    exists_numberToken (i := code.toInt) (by omega) (by omega)
  refine ⟨.number token, hbytes, ?_⟩
  have hcheck : (IntegerKind.signed 32).check code.toInt = .ok code.toInt := by
    have hholds : (IntegerKind.signed 32).holds code.toInt = true := by
      show (decide (-2147483648 ≤ code.toInt) && decide (code.toInt ≤ 2147483647)) = true
      simp
      omega
    rw [IntegerKind.check, if_pos hholds]
  show judge schema (.integer (.signed 32)) (.number token) = _
  rw [judge_integer, judgeInteger, hvalue]
  show (judgeNumber (.signed 32) (.int code.toInt) >>= _) = _
  rw [judgeNumber]
  simp only [hcheck]
  rfl

/-- **The text of an envelope is an object whose members leave the envelope's fields.** -/
theorem exists_members (e : Envelope) : ∃ members,
    Utf8.encode e.text = (Tree.object members).bytes
      ∧ Gathers schema fields [] members
        [("errorMessage", (e.errorMessage.map Value.text).getD .null),
          ("errorCode", .int e.errorCode.toInt)] := by
  obtain ⟨codeName, hcodeName, hcodeText⟩ := exists_stringToken "errorCode"
  obtain ⟨messageName, hmessageName, hmessageText⟩ := exists_stringToken "errorMessage"
  obtain ⟨code, hcode, hcodeValue⟩ := exists_codeTree e.errorCode
  obtain ⟨message, hmessage, hmessageValue⟩ := exists_messageTree e.errorMessage
  refine ⟨.cons .empty .empty codeName .empty .empty code
    (.cons .empty .empty messageName .empty .empty message (.nil .empty)), ?_, ?_⟩
  · have hpoints : Utf8.encodeChar '{' = [0x7b] ∧ Utf8.encodeChar '}' = [0x7d]
        ∧ Utf8.encodeChar ':' = [0x3a] ∧ Utf8.encodeChar ',' = [0x2c] := by decide
    obtain ⟨hopen, hclose, hcolon, hcomma⟩ := hpoints
    simp only [Utf8.encode, text, toJson, Value.render, String.toList_ofList, Value.chars,
      memberChars, List.flatMap_cons, List.flatMap_append, List.flatMap_nil, hopen, hclose, hcolon,
      hcomma, hcodeName, hmessageName, ← hcode, ← hmessage, Tree.bytes, Members.bytes, separator,
      Blanks.empty]
    simp
  · exact .taken hcodeText rfl rfl hcodeValue
      (.taken hmessageText rfl rfl hmessageValue (.done .empty))

/-- **An envelope survives being sent**: its text is a JSON object that is read as the envelope
and as no other, and an absent message is not taken for an empty one. -/
theorem survives_sending (e : Envelope) :
    parse (Utf8.encode e.text) = .ok e
      ∧ (∃ members, Utf8.encode e.text = (Tree.object members).bytes)
      ∧ (∀ e' : Envelope, e'.text = e.text → e' = e)
      ∧ ∀ code code', text ⟨code, none⟩ ≠ text ⟨code', some ""⟩ := by
  have hparse : ∀ e : Envelope, parse (Utf8.encode e.text) = .ok e := by
    intro e
    obtain ⟨members, hbytes, hgathers⟩ := exists_members e
    have hread := parse_of_gathers .empty .empty hgathers (e := e) rfl rfl
    rw [hbytes]
    simpa [Document.bytes, Blanks.empty] using hread
  have hinj : ∀ e e' : Envelope, e'.text = e.text → e' = e := by
    intro e e' h
    have hboth := hparse e'
    rw [h, hparse e] at hboth
    exact (Except.ok.inj hboth).symm
  refine ⟨hparse e, ?_, hinj e, fun code code' h => ?_⟩
  · obtain ⟨members, hbytes, -⟩ := exists_members e
    exact ⟨members, hbytes⟩
  · exact Option.some_ne_none "" (congrArg errorMessage (hinj _ _ h)).symm

end ErrorContract.Envelope
