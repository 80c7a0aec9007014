/-
  ErrorContract.Proofs.EnvelopeMembers
  ────────────────────────────────────
  **ONLY THE NAMES OF ITS MEMBERS MATTER TO AN ENVELOPE.**

  `Told` says which names and values the members of an object have, however
  the names are spelt and whatever blanks stand between.  What a record finds
  depends on the values of each name alone: one value for a field is found
  (`exists_gathers`), and two are refused (`exists_duplicate`), in any order
  and among any others.

  Main statement: `read_by_member_names`.
-/
import ErrorContract.Proofs.EnvelopeReading
import ErrorContract.Proofs.Spelling

namespace ErrorContract.Json

open ErrorContract

/-! ## §1. Members by their names. -/

/-- **The members of an object have these names and values**, in this order. -/
inductive Told : Members → List (String × Tree) → Prop where
  | nil (blanks : Blanks) : Told (.nil blanks) []
  | cons {leading blanks beforeColon behindColon : Blanks} {token : StringToken} {name : String}
      {value : Tree} {rest : Members} {told : List (String × Tree)}
      (hname : Spelt token name.toList) (hrest : Told rest told) :
      Told (.cons leading blanks token beforeColon behindColon value rest) ((name, value) :: told)

/-- Only an object with a name that is no text does not tell its members. -/
theorem exists_told_iff (members : Members) : (∃ told, Told members told)
    ↔ ∀ e ∈ members.entries, (StringToken.text? e.1).isSome = true := by
  cases members with
  | nil blanks => exact ⟨fun _ => nofun, fun _ => ⟨[], .nil blanks⟩⟩
  | cons leading blanks token beforeColon behindColon value rest =>
      have ih := exists_told_iff rest
      show _ ↔ ∀ e ∈ (token, value) :: rest.entries, _
      rw [List.forall_mem_cons, ← ih, Option.isSome_iff_exists]
      constructor
      · intro ⟨told, htold⟩
        cases htold with
        | cons hname hrest => exact ⟨⟨_, hname.text?⟩, _, hrest⟩
      · intro ⟨⟨name, hname⟩, told, hrest⟩
        exact ⟨_, .cons (text?_eq_some_iff.mp hname) hrest⟩

/-- The values of the members of a name. -/
def valuesOf (name : String) (told : List (String × Tree)) : List Tree :=
  (told.filter (·.1 == name)).map Prod.snd

theorem valuesOf_cons_self (name : String) (t : Tree) (told : List (String × Tree)) :
    valuesOf name ((name, t) :: told) = t :: valuesOf name told := by
  unfold valuesOf
  rw [List.filter_cons_of_pos (by simp), List.map_cons]

theorem valuesOf_cons_of_ne {name other : String} (h : other ≠ name) (t : Tree)
    (told : List (String × Tree)) : valuesOf name ((other, t) :: told) = valuesOf name told := by
  unfold valuesOf
  rw [List.filter_cons_of_neg (by simpa using h)]

/-- Later members are members. -/
theorem mem_valuesOf_cons {name : String} {t : Tree} {told : List (String × Tree)}
    (h : t ∈ valuesOf name told) (p : String × Tree) : t ∈ valuesOf name (p :: told) := by
  unfold valuesOf at h ⊢
  rw [List.mem_map] at h ⊢
  obtain ⟨q, hq, rfl⟩ := h
  rw [List.mem_filter] at hq
  exact ⟨q, List.mem_filter.mpr ⟨List.mem_cons_of_mem p hq.1, hq.2⟩, rfl⟩

/-- How many values there are for a name: one that was read before, and those to come. -/
def times (name : String) (before : List (String × Value)) (told : List (String × Tree)) : Nat :=
  (before.lookup name).toList.length + (valuesOf name told).length

section Times

variable {name other : String} {before : List (String × Value)} {told : List (String × Tree)}

theorem times_pass (h : other ≠ name) (t : Tree) :
    times name before ((other, t) :: told) = times name before told := by
  unfold times
  rw [valuesOf_cons_of_ne h]

/-- **Reading a value leaves the number of values as it was**: one more was read, and one fewer
is to come. -/
theorem times_take (hnew : before.lookup other = none) (v : Value) (t : Tree) :
    times name ((other, v) :: before) told = times name before ((other, t) :: told) := by
  by_cases h : other = name
  · subst h
    unfold times
    rw [valuesOf_cons_self, hnew, List.lookup_cons_self, List.length_cons]
    simp only [Option.toList_some, Option.toList_none, List.length_singleton, List.length_nil]
    omega
  · rw [times_pass h]
    unfold times
    rw [List.lookup_cons, beq_false_of_ne (Ne.symm h)]

/-- A value that was read before leaves room for none. -/
theorem lookup_eq_none_of_times (h : times name before ((name, t) :: told) ≤ 1) :
    before.lookup name = none := by
  unfold times at h
  rw [valuesOf_cons_self, List.length_cons] at h
  cases hlookup : before.lookup name with
  | none => rfl
  | some v =>
      rw [hlookup] at h
      simp only [Option.toList_some, List.length_singleton] at h
      omega

end Times

section Fields

variable {schema : Schema τ} {fields : List (Field τ)} {members : Members}
  {told : List (String × Tree)} {before : List (String × Value)}

/-- The values that fields are given are fit for them. -/
def Acceptable (schema : Schema τ) (fields : List (Field τ)) (told : List (String × Tree)) : Prop :=
  ∀ f ∈ fields, ∀ t ∈ valuesOf f.name told, ∃ v, judgeField schema f t = .ok v

theorem Acceptable.behind {p : String × Tree} (h : Acceptable schema fields (p :: told)) :
    Acceptable schema fields told := fun f hf t ht => h f hf t (mem_valuesOf_cons ht p)

/-- What a field finds: what was read before, or the value that is to come. -/
def foundFor (schema : Schema τ) (f : Field τ) (before : List (String × Value))
    (told : List (String × Tree)) : Option Value :=
  (before.lookup f.name).or
    ((valuesOf f.name told).head?.bind fun t => (judgeField schema f t).toOption)

/-- **One value for each field is found by its field**, and none by a field that has none. -/
theorem exists_gathers (hdistinct : ∀ f ∈ fields, fields.find? (·.name == f.name) = some f)
    (htold : Told members told) (hvalues : Acceptable schema fields told)
    (hfew : ∀ f ∈ fields, times f.name before told ≤ 1) :
    ∃ found, Gathers schema fields before members found
      ∧ ∀ f ∈ fields, found.lookup f.name = foundFor schema f before told := by
  -- The induction is on the members; `times` stays as it is when one is read.
  induction htold generalizing before with
  | nil blanks =>
      refine ⟨before, .done blanks, fun f _ => ?_⟩
      show before.lookup f.name = (before.lookup f.name).or none
      rw [Option.or_none]
  | @cons leading blanks beforeColon behindColon token name value rest told hname hrest ih =>
      obtain ⟨hnone, hother⟩ | ⟨f, hf, hfield, rfl⟩ := find?_cases fields name
      · -- a member that nobody asked for
        have hfew' : ∀ g ∈ fields, times g.name before told ≤ 1 := by
          intro g hg
          rw [← times_pass (hother g hg) value]
          exact hfew g hg
        obtain ⟨found, hgathers, hfound⟩ := ih hvalues.behind hfew'
        refine ⟨found, .passed hname.text? hnone hgathers, fun g hg => ?_⟩
        rw [hfound g hg]
        unfold foundFor
        rw [valuesOf_cons_of_ne (hother g hg)]
      · -- the value of the field `f`
        have hnew : before.lookup f.name = none := lookup_eq_none_of_times (hfew f hf)
        obtain ⟨v, hv⟩ : ∃ v, judgeField schema f value = .ok v := by
          apply hvalues f hf
          rw [valuesOf_cons_self]
          exact List.mem_cons_self
        have hfew' : ∀ g ∈ fields, times g.name ((f.name, v) :: before) told ≤ 1 := by
          intro g hg
          rw [times_take hnew v value]
          exact hfew g hg
        obtain ⟨found, hgathers, hfound⟩ := ih hvalues.behind hfew'
        refine ⟨found, .taken hname.text? hfield hnew hv hgathers, fun g hg => ?_⟩
        rw [hfound g hg]
        unfold foundFor
        by_cases hgf : f.name = g.name
        · -- only `f` itself has its name
          have hsame := hdistinct g hg
          rw [← hgf, hfield] at hsame
          obtain rfl := Option.some.inj hsame
          rw [valuesOf_cons_self, List.lookup_cons_self, hnew, List.head?_cons, Option.bind_some,
            hv]
          rfl
        · rw [valuesOf_cons_of_ne hgf, List.lookup_cons, beq_false_of_ne (Ne.symm hgf)]

/-- **Two values for a field are refused**, wherever they stand. -/
theorem exists_duplicate (htold : Told members told) (hvalues : Acceptable schema fields told)
    {f : Field τ} (hf : f ∈ fields) (hmany : 1 < times f.name before told) :
    ∃ name, judgeNamed schema fields false before members = misfit (.duplicateField name) := by
  induction htold generalizing before with
  | nil blanks =>
      exfalso
      have hone : (before.lookup f.name).toList.length ≤ 1 := by
        cases before.lookup f.name <;> simp
      have hnone : times f.name before [] = (before.lookup f.name).toList.length := rfl
      omega
  | @cons leading blanks beforeColon behindColon token name value rest told hname hrest ih =>
      obtain ⟨hnone, hother⟩ | ⟨g, hg, hfield, rfl⟩ := find?_cases fields name
      · rw [times_pass (hother f hf)] at hmany
        rw [judgeNamed_unknown hname.text? hnone]
        exact ih hvalues.behind hmany
      · by_cases hduplicate : (before.lookup g.name).isSome = true
        · exact ⟨g.name, judgeNamed_duplicate hname.text? hfield hduplicate⟩
        · -- The first value of `g` is read, and the second is still to come.
          have hnew : before.lookup g.name = none := Option.not_isSome_iff_eq_none.mp hduplicate
          obtain ⟨v, hv⟩ : ∃ v, judgeField schema g value = .ok v := by
            apply hvalues g hg
            rw [valuesOf_cons_self]
            exact List.mem_cons_self
          rw [judgeNamed_field hname.text? hfield hduplicate, hv]
          rw [← times_take hnew v value] at hmany
          exact ih hvalues.behind hmany

end Fields

/-! ## §2. The same bytes are the same value. -/

/-- A reader that reads two trees of the same bytes makes the same of both. -/
theorem ReadsAs.ok_of_bytes_eq {read : Read Value} {v : Verdict Value} {a : Value} {t u : Tree}
    (h : ReadsAs read v t) (hu : ReadsAs read (.ok a) u) (hbytes : t.bytes = u.bytes) :
    v = .ok a := by
  -- Both trees are read off one cursor, which has but one result.
  have hrun := h [] ⟨t.bytes ++ [], 0, .complete⟩ .empty endsNumber_nil ⟨rfl, rfl⟩
  have hsame := hu [] ⟨t.bytes ++ [], 0, .complete⟩ .empty endsNumber_nil ⟨by rw [hbytes]; rfl, rfl⟩
  obtain ⟨c, hok, -⟩ := hsame
  rw [hok] at hrun
  cases v with
  | ok b =>
      obtain ⟨c', heq, -⟩ := hrun
      cases heq
      rfl
  | error flaw =>
      obtain ⟨e, c', heq, -⟩ := hrun
      cases heq

end ErrorContract.Json

namespace ErrorContract.Envelope

open ErrorContract Json

/-! ## §3. Codes and messages. -/

/-- **A value is written as this code**, with its digits and nothing else. -/
def IsCode (t : Tree) (code : Int32) : Prop :=
  t.bytes = Utf8.encode (Decimal.signedText code.toInt)

/-- **A value stands for this message**: a text that spells it, or `null` for none. -/
inductive IsMessage : Tree → Option String → Prop where
  | absent : IsMessage .null none
  | text {token : StringToken} {m : String} (hspelt : Spelt token m.toList) :
      IsMessage (.string token) (some m)

/-- Whatever is written as a code is read as that code. -/
theorem IsCode.judgeField {t : Tree} {code : Int32} (h : IsCode t code) :
    judgeField schema ⟨"errorCode", .code, .required⟩ t = .ok (.int code.toInt) := by
  obtain ⟨u, hbytes, hu⟩ := exists_codeTree code
  have hsame : t.bytes = u.bytes := by
    unfold IsCode Utf8.encode Decimal.signedText at h
    rw [String.toList_ofList] at h
    rw [h, ← hbytes]
    rfl
  -- Depth zero will do, as neither of them opens a bracket that is read.
  have hread : ∀ s : Tree, ReadsAs
      (readField schema (readAt schema ⟨0, true⟩ 0) ⟨"errorCode", .code, .required⟩)
      (Json.judgeField schema ⟨"errorCode", .code, .required⟩ s) s :=
    fun s => readsAs_readField (readsAs_readAt ⟨0, true⟩ 0 List.mem_cons_self s)
  have hreadU := hread u
  rw [hu] at hreadU
  exact (hread t).ok_of_bytes_eq hreadU hsame

/-- Whatever stands for a message is read as that message. -/
theorem IsMessage.judgeField {t : Tree} {message : Option String} (h : IsMessage t message) :
    judgeField schema ⟨"errorMessage", .message, .nullable⟩ t
      = .ok ((message.map Value.text).getD .null) := by
  cases h with
  | absent => rfl
  | text hspelt =>
      show judge schema .text (.string _) = _
      rw [judge_text, judgeText, hspelt.text?]
      rfl

/-! ## §4. Envelopes by their members. -/

/-- The body is refused for its data. -/
def RefusedForData (body : List UInt8) : Prop :=
  ∃ error : Error, parse body = .error error ∧ error.fault.kind = .mismatch

/-- The field of the code. -/
def codeField : Json.Field EnvelopeType := ⟨"errorCode", .code, .required⟩

/-- The field of the message. -/
def messageField : Json.Field EnvelopeType := ⟨"errorMessage", .message, .nullable⟩

theorem codeField_mem : codeField ∈ fields := List.mem_cons_self

theorem messageField_mem : messageField ∈ fields := List.mem_cons_of_mem _ List.mem_cons_self

theorem eq_of_mem_fields {f : Json.Field EnvelopeType} (h : f ∈ fields) :
    f = codeField ∨ f = messageField := by
  rcases List.mem_cons.mp h with h | h
  · exact .inl h
  · exact .inr (List.mem_singleton.mp h)

section Told

variable {members : Members} {told : List (String × Tree)}

theorem acceptable (hcodes : ∀ t ∈ valuesOf "errorCode" told, ∃ code, IsCode t code)
    (hmessages : ∀ t ∈ valuesOf "errorMessage" told, ∃ message, IsMessage t message) :
    Acceptable schema fields told := by
  intro f hf t ht
  rcases eq_of_mem_fields hf with rfl | rfl
  · obtain ⟨code, hcode⟩ := hcodes t ht
    exact ⟨_, hcode.judgeField⟩
  · obtain ⟨message, hmessage⟩ := hmessages t ht
    exact ⟨_, hmessage.judgeField⟩

/-- With at most one value for each, the fields find what there is. -/
theorem exists_gathers (htold : Told members told) (hvalues : Acceptable schema fields told)
    (hcode : (valuesOf "errorCode" told).length ≤ 1)
    (hmessage : (valuesOf "errorMessage" told).length ≤ 1) :
    ∃ found, Gathers schema fields [] members found
      ∧ ∀ f ∈ fields, found.lookup f.name = foundFor schema f [] told := by
  have hdistinct : ∀ f ∈ fields, fields.find? (·.name == f.name) = some f := by
    intro f hf
    rcases eq_of_mem_fields hf with rfl | rfl <;> rfl
  apply Json.exists_gathers hdistinct htold hvalues
  intro f hf
  show 0 + (valuesOf f.name told).length ≤ 1
  rw [Nat.zero_add]
  rcases eq_of_mem_fields hf with rfl | rfl
  · exact hcode
  · exact hmessage

variable (before behind : Blanks)

/-- **One code, and one message or none**, are an envelope. -/
theorem parse_of_one (htold : Told members told) (hvalues : Acceptable schema fields told)
    {e : Envelope} {t : Tree} (hcode : valuesOf "errorCode" told = [t])
    (hisCode : IsCode t e.errorCode)
    (hmessage : valuesOf "errorMessage" told = [] ∧ e.errorMessage = none
      ∨ ∃ u, valuesOf "errorMessage" told = [u] ∧ IsMessage u e.errorMessage) :
    parse (Document.bytes ⟨before, .object members, behind⟩) = .ok e := by
  have hone : (valuesOf "errorMessage" told).length ≤ 1 := by
    rcases hmessage with ⟨hnone, -⟩ | ⟨u, hu, -⟩
    · simp [hnone]
    · simp [hu]
  obtain ⟨found, hgathers, hfound⟩ := exists_gathers htold hvalues (by simp [hcode]) hone
  have hfoundCode := hfound codeField codeField_mem
  have hfoundMessage := hfound messageField messageField_mem
  unfold foundFor at hfoundCode hfoundMessage
  rw [List.lookup_nil, Option.none_or] at hfoundCode hfoundMessage
  apply parse_of_gathers before behind hgathers
  · show found.lookup codeField.name = _
    rw [hfoundCode, show valuesOf codeField.name told = [t] from hcode, List.head?_cons,
      Option.bind_some, codeField, hisCode.judgeField]
    rfl
  · show (found.lookup messageField.name).getD .null = _
    rw [hfoundMessage]
    rcases hmessage with ⟨hnone, habsent⟩ | ⟨u, hu, hisMessage⟩
    · rw [show valuesOf messageField.name told = [] from hnone, habsent]
      rfl
    · rw [show valuesOf messageField.name told = [u] from hu, List.head?_cons, Option.bind_some,
        messageField, hisMessage.judgeField]
      rfl

/-- What is judged to be of the wrong shape is refused for its data. -/
theorem refused_of_misfit {m : Mismatch}
    (h : judge schema (schema .envelope) (.object members) = misfit m) :
    RefusedForData (Document.bytes ⟨before, .object members, behind⟩) := by
  obtain ⟨error, hparse, hcauses⟩ := parse_of_error before behind h
  refine ⟨_, hparse, ?_⟩
  show error.fault.kind = .mismatch
  rw [hcauses.1]
  rfl

/-- **Two values for a field** are one too many. -/
theorem refused_of_two (htold : Told members told) (hvalues : Acceptable schema fields told)
    {f : Json.Field EnvelopeType} (hf : f ∈ fields) (htwo : 1 < (valuesOf f.name told).length) :
    RefusedForData (Document.bytes ⟨before, .object members, behind⟩) := by
  have htimes : 1 < times f.name [] told := by
    show 1 < 0 + (valuesOf f.name told).length
    omega
  obtain ⟨name, hname⟩ := exists_duplicate htold hvalues hf htimes
  apply refused_of_misfit before behind (m := .duplicateField name)
  rw [judge_envelope, hname]
  rfl

/-- **Without a code** there is no envelope. -/
theorem refused_of_none (htold : Told members told) (hvalues : Acceptable schema fields told)
    (hcode : valuesOf "errorCode" told = [])
    (hmessage : (valuesOf "errorMessage" told).length ≤ 1) :
    RefusedForData (Document.bytes ⟨before, .object members, behind⟩) := by
  obtain ⟨found, hgathers, hfound⟩ := exists_gathers htold hvalues (by simp [hcode]) hmessage
  have hlookup : found.lookup "errorCode" = none := by
    show found.lookup codeField.name = none
    rw [hfound _ codeField_mem, foundFor, show valuesOf codeField.name told = [] from hcode]
    rfl
  apply refused_of_misfit before behind (m := .missingField "errorCode")
  rw [judge_envelope, judgeNamed_of_gathers hgathers]
  show (judgeComplete found fields >>= fun read => .ok (Value.object read)) = _
  unfold fields judgeComplete
  rw [hlookup]
  rfl

end Told

/-- **An envelope is read by the names of its members.** Whatever the order of the members, the
blanks between them, the way in which names and texts are spelt, and the values of members of other
names: one code, and one message or none, are read as the envelope of just these; without a code, or
with two of either, the body is refused for its data. -/
theorem read_by_member_names (before behind : Blanks) (members : Members)
    (told : List (String × Tree)) (htold : Told members told)
    (hcodes : ∀ t ∈ valuesOf "errorCode" told, ∃ code, IsCode t code)
    (hmessages : ∀ t ∈ valuesOf "errorMessage" told, ∃ message, IsMessage t message) :
    (∀ (e : Envelope) (t : Tree), valuesOf "errorCode" told = [t] → IsCode t e.errorCode →
      (valuesOf "errorMessage" told = [] ∧ e.errorMessage = none
        ∨ ∃ u, valuesOf "errorMessage" told = [u] ∧ IsMessage u e.errorMessage) →
      parse (Document.bytes ⟨before, .object members, behind⟩) = .ok e)
    ∧ (valuesOf "errorCode" told = [] ∨ 1 < (valuesOf "errorCode" told).length
        ∨ 1 < (valuesOf "errorMessage" told).length →
      RefusedForData (Document.bytes ⟨before, .object members, behind⟩)) := by
  have hvalues := acceptable hcodes hmessages
  constructor
  · intro e t hcode hisCode hmessage
    exact parse_of_one before behind htold hvalues hcode hisCode hmessage
  · intro hwrong
    by_cases hcode : 1 < (valuesOf "errorCode" told).length
    · exact refused_of_two before behind htold hvalues codeField_mem hcode
    by_cases hmessage : 1 < (valuesOf "errorMessage" told).length
    · exact refused_of_two before behind htold hvalues messageField_mem hmessage
    -- No field has two values, so it is the code that is missing.
    have hnone : valuesOf "errorCode" told = [] := by
      rcases hwrong with hnone | htwo | htwo
      · exact hnone
      · exact absurd htwo hcode
      · exact absurd htwo hmessage
    exact refused_of_none before behind htold hvalues hnone (by omega)

/-- Four hexadecimal digits. -/
def digits (a b d e : UInt8) (h : [a, b, d, e].all (fun x => (hexValue x).isSome) = true) :
    StringItem := .code a b d e (List.all_eq_true.mp h)

/-- The name of the code, its first letter spelt by its number. -/
def escapedName : StringToken :=
  digits 0x30 0x30 0x36 0x35 rfl :: standing "rrorCode".toList rfl

/-- A smile, spelt by two surrogates. -/
def escapedSmile : StringToken :=
  [digits 0x64 0x38 0x33 0x64 rfl, digits 0x64 0x65 0x30 0x30 rfl]

theorem isDigit_of_mem_nil : ∀ d ∈ ([] : List UInt8), isDigit d = true := nofun

/-- Minus five, as it is written. -/
def minusFive : Tree :=
  .number ⟨true, 0x35, [], [], none, rfl, isDigit_of_mem_nil, fun _ => rfl, isDigit_of_mem_nil⟩

/-- An object with a member that nobody asks for, a message, and last a code. -/
def scrambled : Members :=
  .cons .empty .empty (standing "x".toList rfl) .empty ⟨[0x20], List.forall_mem_singleton.mpr rfl⟩
    (.list (.cons .empty .empty (.object (.nil .empty)) (.nil .empty))) <|
  .cons .empty ⟨[0x0a], List.forall_mem_singleton.mpr rfl⟩ (standing "errorMessage".toList rfl)
    .empty .empty (.string escapedSmile) <|
  .cons .empty .empty escapedName .empty .empty minusFive (.nil .empty)

example : Document.bytes ⟨.empty, .object scrambled, .empty⟩ = Utf8.encode
    ("\x7b\"x\": [\x7b\x7d],\n\"errorMessage\":\"\\ud83d\\ude00\","
      ++ "\"\\u0065rrorCode\":-5\x7d") := by
  decide +kernel

theorem read_by_member_names_scrambled :
    parse (Document.bytes ⟨.empty, .object scrambled, .empty⟩) = .ok ⟨-5, some "😀"⟩ := by
  have hcodeName : Spelt escapedName "errorCode".toList :=
    .cons (.code _ rfl) (spelt_standing "rrorCode".toList rfl)
  have hmessageName : Spelt (standing "errorMessage".toList rfl) "errorMessage".toList :=
    spelt_standing _ rfl
  have hx : Spelt (standing "x".toList rfl) "x".toList := spelt_standing _ rfl
  have hsmile : SpeltChar escapedSmile '😀' :=
    .surrogates _ _ (show codeValue 0x64 0x38 0x33 0x64 = some 0xd83d by rfl)
      (show codeValue 0x64 0x65 0x30 0x30 = some 0xde00 by rfl) (by decide) (by decide) (by decide)
  have hmessage : IsMessage (.string escapedSmile) (some "😀") := .text (.cons hsmile .nil)
  have hcode : IsCode minusFive (-5) := by
    unfold IsCode
    decide +kernel
  let other : Tree := .list (.cons .empty .empty (.object (.nil .empty)) (.nil .empty))
  let told : List (String × Tree) :=
    [("x", other), ("errorMessage", .string escapedSmile), ("errorCode", minusFive)]
  have htold : Told scrambled told :=
    .cons hx (.cons hmessageName (.cons hcodeName (.nil .empty)))
  have hcodes : valuesOf "errorCode" told = [minusFive] := by simp [valuesOf, told]
  have hmessages : valuesOf "errorMessage" told = [.string escapedSmile] := by
    simp [valuesOf, told]
  refine (read_by_member_names .empty .empty scrambled told htold ?_ ?_).1 ⟨-5, some "😀"⟩ minusFive
    hcodes hcode (.inr ⟨.string escapedSmile, hmessages, hmessage⟩)
  · intro t ht
    rw [hcodes, List.mem_singleton] at ht
    exact ⟨-5, ht ▸ hcode⟩
  · intro t ht
    rw [hmessages, List.mem_singleton] at ht
    exact ⟨some "😀", ht ▸ hmessage⟩

end ErrorContract.Envelope
