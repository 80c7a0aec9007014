/-
  ErrorContract.Proofs.RoundTrip
  ──────────────────────────────
  **WHAT A LAYOUT HOLDS IS READ BACK FROM ITS TEXT.**

  `Value.Of` says which values a layout of texts, numbers, lists, records and
  tables holds.  The compact text of such a value is a tree of the grammar,
  and `Conveys` says what a reader makes of that tree at any depth: the value,
  if no more brackets may be open at once than the value has, and a fault of
  form otherwise (`limited`).  The trees of lists and objects convey what those
  of their parts do, each pair of brackets spending one of the depth.

  Main statement: `read_back_up_to_depth_limit`.
-/
import ErrorContract.Proofs.Lookup
import ErrorContract.Proofs.Reading
import ErrorContract.Proofs.Written
import ErrorContract.Sample.Bodies

namespace ErrorContract

/-- The numbers of the kind fit a word. -/
def IntegerKind.FitsWord (kind : IntegerKind) : Prop :=
  -9223372036854775808 ≤ kind.least ∧ kind.greatest < 18446744073709551616

end ErrorContract

namespace ErrorContract.Json

open ErrorContract

/-! ## §1. The values of a layout. -/

/-- The field takes no `null`. -/
def Field.NeverNull (f : Field τ) : Prop :=
  f.presence = .required ∨ ∃ v, f.presence = .defaulted v

/-- **A value is one that the layout holds.** The members of a record stand in the order of its
fields, those of a table in the order of their names. -/
inductive Value.Of (schema : Schema τ) : Layout τ → Value → Prop where
  | text (s : String) : Of schema .text (.text s)
  | integer {kind : IntegerKind} {i : Int} (hword : kind.FitsWord) (hholds : kind.holds i = true) :
      Of schema (.integer kind) (.int i)
  | list {element : τ} {vs : List Value} (hvalues : ∀ v ∈ vs, Of schema (schema element) v) :
      Of schema (.list element) (.list vs)
  | record {title : String} {fields : List (Field τ)} {closed : Bool}
      {members : List (String × Value)} (hdistinct : (fieldNames fields).Nodup)
      (hpresence : ∀ f ∈ fields, f.NeverNull)
      (hnames : members.map Prod.fst = fieldNames fields)
      (hvalues : ∀ f ∈ fields, ∀ m ∈ members, m.1 = f.name → Of schema (schema f.type) m.2) :
      Of schema (.record title fields closed) (.object members)
  | table {element : τ} {members : List (String × Value)}
      (hsorted : (members.map Prod.fst).Pairwise (· < ·))
      (hvalues : ∀ m ∈ members, Of schema (schema element) m.2) :
      Of schema (.table .text element) (.object members)

mutual

/-- **How many brackets are open at once** in the text of a value. -/
def Value.nesting : Value → Nat
  | .list vs => itemNesting vs + 1
  | .object members => memberNesting members + 1
  | _ => 0

/-- How many brackets are open at once inside the elements. -/
def itemNesting : List Value → Nat
  | [] => 0
  | v :: vs => max v.nesting (itemNesting vs)

/-- How many brackets are open at once inside the members. -/
def memberNesting : List (String × Value) → Nat
  | [] => 0
  | (_, v) :: members => max v.nesting (memberNesting members)

end

/-! ## §2. What is read at a depth. -/

/-- What opens so many brackets is read as it is within the depth, and else taken for
ill-formed. -/
def limited (depth brackets : Nat) (a : α) : Verdict α :=
  if brackets ≤ depth then .ok a else .error .mistaken

section Limited

variable {depth m n : Nat} {a : α} {b : β}

theorem limited_zero (depth : Nat) (a : α) : limited depth 0 a = .ok a := if_pos (Nat.zero_le depth)

theorem limited_of_lt (h : depth < n) : limited depth n a = .error .mistaken :=
  if_neg (Nat.not_le.mpr h)

/-- A pair of brackets spends one of the depth. -/
theorem limited_succ : limited (depth + 1) (n + 1) a = limited depth n a := by
  unfold limited
  simp only [Nat.add_le_add_iff_right]

theorem limited_map (f : α → β) :
    limited depth n (f a) = limited depth n a >>= fun a => .ok (f a) := by
  unfold limited
  split <;> rfl

/-- One after the other is read within the depth if both are. -/
theorem limited_max :
    limited depth (max m n) b = limited depth m a >>= fun _ => limited depth n b := by
  unfold limited
  by_cases hm : m ≤ depth
  · rw [if_pos hm]
    show _ = if n ≤ depth then Except.ok b else _
    by_cases hn : n ≤ depth
    · rw [if_pos hn, if_pos (Nat.max_le.mpr ⟨hm, hn⟩)]
    · rw [if_neg hn, if_neg fun h => hn (Nat.max_le.mp h).2]
  · rw [if_neg hm, if_neg fun h => hm (Nat.max_le.mp h).1]
    rfl

theorem eq_of_limited {x : α} (h : limited depth n a = .ok x) : a = x := by
  unfold limited at h
  split at h
  · exact Except.ok.inj h
  · cases h

/-- No way leads to a fault of form. -/
theorem under_limited (s : PathSegment) : (limited depth n a).under s = limited depth n a := by
  unfold limited
  split <;> rfl

end Limited

/-- **A tree conveys a value**: it is the text of the value, and at any depth it is read as the
value, unless it opens too many brackets. -/
structure Conveys (schema : Schema τ) (layout : Layout τ) (v : Value) (t : Tree) : Prop where
  written : v.chars.flatMap Utf8.encodeChar = t.bytes
  depth_eq : t.depth = v.nesting
  reads : ∀ (ctx : Context) (depth : Nat), ctx.tracked = true → t.bytes.length ≤ ctx.bound →
    ReadsAs (readAt schema ctx depth layout) (limited depth t.depth v) t

/-! ## §3. Elements and members. -/

section Loops

variable {schema : Schema τ} {ctx : Context} {layout : Layout τ} {depth : Nat} {first : Bool}
  {tail : List UInt8} {c : Cursor}

/-- Elements that convey values, in the text without blanks. -/
inductive ItemsConvey (schema : Schema τ) (layout : Layout τ) : List Value → Items → Prop where
  | nil : ItemsConvey schema layout [] (.nil .empty)
  | cons {v : Value} {vs : List Value} {t : Tree} {its : Items} (hvalue : Conveys schema layout v t)
      (hrest : ItemsConvey schema layout vs its) :
      ItemsConvey schema layout (v :: vs) (.cons .empty .empty t its)

/-- Members that convey values, each in the way in which its name demands it. -/
inductive MembersConvey (conveys : String → Value → Tree → Prop) :
    List (String × Value) → Members → Prop where
  | nil : MembersConvey conveys [] (.nil .empty)
  | cons {name : String} {v : Value} {more : List (String × Value)} {token : StringToken} {t : Tree}
      {rest : Members} (hwritten : (quote name).flatMap Utf8.encodeChar
        = 0x22 :: StringToken.bytes token) (htext : StringToken.text? token = some name)
      (hvalue : conveys name v t) (hrest : MembersConvey conveys more rest) :
      MembersConvey conveys ((name, v) :: more) (.cons .empty .empty token .empty .empty t rest)

theorem exists_itemsConvey {vs : List Value}
    (h : ∀ v ∈ vs, ∃ t, Conveys schema layout v t) : ∃ its, ItemsConvey schema layout vs its := by
  induction vs with
  | nil => exact ⟨_, .nil⟩
  | cons v vs ih =>
      obtain ⟨t, ht⟩ := h v List.mem_cons_self
      obtain ⟨its, hits⟩ := ih fun w hw => h w (List.mem_cons_of_mem v hw)
      exact ⟨_, .cons ht hits⟩

theorem exists_membersConvey {conveys : String → Value → Tree → Prop}
    {more : List (String × Value)} (h : ∀ m ∈ more, ∃ t, conveys m.1 m.2 t) :
    ∃ members, MembersConvey conveys more members := by
  induction more with
  | nil => exact ⟨_, .nil⟩
  | cons m more ih =>
      obtain ⟨t, ht⟩ := h m List.mem_cons_self
      obtain ⟨token, hwritten, htext⟩ := exists_stringToken m.1
      obtain ⟨rest, hrest⟩ := ih fun n hn => h n (List.mem_cons_of_mem m hn)
      exact ⟨_, .cons hwritten htext ht hrest⟩

theorem encodeChar_punctuation : Utf8.encodeChar '[' = [0x5b] ∧ Utf8.encodeChar ']' = [0x5d]
    ∧ Utf8.encodeChar '{' = [0x7b] ∧ Utf8.encodeChar '}' = [0x7d]
    ∧ Utf8.encodeChar ':' = [0x3a] ∧ Utf8.encodeChar ',' = [0x2c] := by decide

/-- The elements are written one after the other, with commas between them. -/
theorem ItemsConvey.written {vs : List Value} {its : Items} (h : ItemsConvey schema layout vs its) :
    (itemChars vs).flatMap Utf8.encodeChar = its.bytes true := by
  obtain ⟨-, -, -, -, -, hcomma⟩ := encodeChar_punctuation
  induction h with
  | nil => rfl
  | cons hvalue hrest ih =>
      cases hrest with
      | nil => simp [itemChars, Items.bytes, separator, Blanks.empty, hvalue.written]
      | cons hvalue' hrest' =>
          simp only [itemChars, List.flatMap_append, List.flatMap_cons, hvalue.written,
            hcomma] at ih ⊢
          rw [ih]
          simp [Items.bytes, separator, Blanks.empty]

/-- The members are written one after the other, with commas between them. -/
theorem MembersConvey.written {conveys : String → Value → Tree → Prop}
    (hconveys : ∀ name v t, conveys name v t → v.chars.flatMap Utf8.encodeChar = t.bytes)
    {more : List (String × Value)} {members : Members} (h : MembersConvey conveys more members) :
    (memberChars more).flatMap Utf8.encodeChar = members.bytes true := by
  obtain ⟨-, -, -, -, hcolon, hcomma⟩ := encodeChar_punctuation
  induction h with
  | nil => rfl
  | cons hwritten htext hvalue hrest ih =>
      have hvalue := hconveys _ _ _ hvalue
      cases hrest with
      | nil => simp [memberChars, Members.bytes, separator, Blanks.empty, hwritten, hvalue, hcolon]
      | cons hwritten' htext' hvalue' hrest' =>
          simp only [memberChars, List.flatMap_append, List.flatMap_cons, hwritten, hvalue, hcolon,
            hcomma] at ih ⊢
          rw [ih]
          simp [Members.bytes, separator, Blanks.empty]

theorem ItemsConvey.depth_eq {vs : List Value} {its : Items}
    (h : ItemsConvey schema layout vs its) : its.depth = itemNesting vs := by
  induction h with
  | nil => rfl
  | cons hvalue hrest ih =>
      show max _ _ = max _ _
      rw [hvalue.depth_eq, ih]

theorem MembersConvey.depth_eq {conveys : String → Value → Tree → Prop}
    (hconveys : ∀ name v t, conveys name v t → t.depth = v.nesting)
    {more : List (String × Value)} {members : Members} (h : MembersConvey conveys more members) :
    members.depth = memberNesting more := by
  induction h with
  | nil => rfl
  | cons hwritten htext hvalue hrest ih =>
      show max _ _ = max _ _
      rw [hconveys _ _ _ hvalue, ih]

/-- **The elements of a list are read within the depth**, or taken for ill-formed. -/
theorem ItemsConvey.meets (htracked : ctx.tracked = true) {vs : List Value} {its : Items}
    (h : ItemsConvey schema layout vs its)
    (hbound : ∀ t ∈ its.values, t.bytes.length ≤ ctx.bound) {rounds position : Nat}
    {before : List Value} (hrounds : its.values.length < rounds)
    (hc : c.At (its.bytes first ++ 0x5d :: tail)) (hfirst : (position == 0) = first) :
    Meets (0x5d :: tail) (limited depth its.depth (before.reverse ++ vs))
      (items ctx (readAt schema ctx depth layout) rounds position before c) := by
  induction h generalizing c rounds position before first with
  | nil =>
      obtain ⟨rounds, rfl⟩ := Nat.exists_eq_add_one.mpr hrounds
      rw [List.append_nil]
      exact (meets_hasItem_end _ hc).bind_ok fun c₁ h₁ => Meets.pure h₁
  | @cons v vs t its hvalue hrest ih =>
      obtain ⟨rounds, rfl⟩ := Nat.exists_eq_add_one.mpr (Nat.zero_lt_of_lt hrounds)
      subst hfirst
      refine (meets_hasItem _ hc).bind_ok fun c₁ h₁ => ?_
      have helement := (hvalue.reads ctx depth htracked (hbound t List.mem_cons_self) _ c₁ .empty
        (endsNumber_items its tail) h₁).step htracked (.index position)
      rw [under_limited] at helement
      -- The list fits the depth if the element does and the elements behind it do.
      rw [show Items.depth _ = max t.depth its.depth from rfl, limited_max]
      refine helement.bind fun w c₂ hw h₂ => ?_
      obtain rfl := eq_of_limited hw
      have hmore : Meets (0x5d :: tail) (limited depth its.depth ((v :: before).reverse ++ vs))
          (items ctx (readAt schema ctx depth layout) rounds (position + 1) (v :: before) c₂) :=
        ih (fun u hu => hbound u (List.mem_cons_of_mem t hu)) (Nat.lt_of_succ_lt_succ hrounds) h₂
          rfl
      rw [List.reverse_cons, List.append_assoc] at hmore
      exact hmore

/-- **Members with free names are read within the depth**, or taken for ill-formed. -/
theorem meets_freeMembers_limited (htracked : ctx.tracked = true) {more : List (String × Value)}
    {members : Members} (h : MembersConvey (fun _ => Conveys schema layout) more members)
    (hbound : ∀ e ∈ members.entries, e.2.bytes.length ≤ ctx.bound) {rounds : Nat}
    {before : List (String × Value)} (hrounds : members.entries.length < rounds)
    (hc : c.At (members.bytes first ++ 0x7d :: tail)) :
    Meets (0x7d :: tail) (limited depth members.depth (before.reverse ++ more))
      (freeMembers ctx (readAt schema ctx depth layout) rounds first before c) := by
  induction h generalizing c rounds before first with
  | nil =>
      obtain ⟨rounds, rfl⟩ := Nat.exists_eq_add_one.mpr hrounds
      rw [List.append_nil]
      exact (meets_memberName_end ctx first hc).bind_ok fun c₁ h₁ => Meets.pure h₁
  | @cons name v more token t rest hwritten htext hvalue hrest ih =>
      obtain ⟨rounds, rfl⟩ := Nat.exists_eq_add_one.mpr (Nat.zero_lt_of_lt hrounds)
      have hname := meets_memberName ctx first hc
      rw [htext] at hname
      unfold freeMembers
      refine hname.bind_ok fun c₁ h₁ => (meets_colon h₁).bind_ok fun c₂ h₂ => ?_
      have hmember := (hvalue.reads ctx depth htracked (hbound _ List.mem_cons_self) _ c₂ .empty
        (endsNumber_members rest tail) h₂).step htracked (.field name)
      rw [under_limited] at hmember
      rw [show Members.depth _ = max t.depth rest.depth from rfl, limited_max]
      refine hmember.bind fun w c₃ hw h₃ => ?_
      obtain rfl := eq_of_limited hw
      have hmore : Meets (0x7d :: tail)
          (limited depth rest.depth (((name, v) :: before).reverse ++ more))
          (freeMembers ctx (readAt schema ctx depth layout) rounds false ((name, v) :: before)
            c₃) :=
        ih (fun e he => hbound e (List.mem_cons_of_mem _ he)) (Nat.lt_of_succ_lt_succ hrounds) h₃
      rw [List.reverse_cons, List.append_assoc] at hmore
      exact hmore

/-- A member of a record conveys a value of the field that has its name. -/
def FieldConveys (schema : Schema τ) (fields : List (Field τ)) (name : String) (v : Value)
    (t : Tree) : Prop :=
  ∃ f, fields.find? (·.name == name) = some f ∧ f.NeverNull ∧ Conveys schema (schema f.type) v t

/-- What is conveyed to a field that takes no `null` is read as the field's layout. -/
theorem Conveys.readField (htracked : ctx.tracked = true) {f : Field τ} {v : Value} {t : Tree}
    (h : Conveys schema (schema f.type) v t) (hf : f.NeverNull)
    (hbound : t.bytes.length ≤ ctx.bound) :
    ReadsAs (Json.readField schema (readAt schema ctx depth) f) (limited depth t.depth v) t := by
  unfold Json.readField
  rcases hf with hpresence | ⟨d, hpresence⟩
  · rw [hpresence]
    exact h.reads ctx depth htracked hbound
  · rw [hpresence]
    exact h.reads ctx depth htracked hbound

/-- **The members of a record are read within the depth**, or taken for ill-formed, if there is
one for each name. -/
theorem meets_namedFields_limited (htracked : ctx.tracked = true) {fields : List (Field τ)}
    {closed : Bool} {more : List (String × Value)} {members : Members}
    (h : MembersConvey (FieldConveys schema fields) more members)
    (hbound : ∀ e ∈ members.entries, e.2.bytes.length ≤ ctx.bound)
    {rounds : Nat} {before : List (String × Value)}
    (hdistinct : (more.map Prod.fst).Nodup) (hnew : ∀ m ∈ more, before.lookup m.1 = none)
    (hrounds : members.entries.length < rounds)
    (hc : c.At (members.bytes first ++ 0x7d :: tail)) :
    Meets (0x7d :: tail) (limited depth members.depth (more.reverse ++ before))
      (namedFields schema ctx (readAt schema ctx depth) fields closed rounds first before c) := by
  induction h generalizing c rounds before first with
  | nil =>
      obtain ⟨rounds, rfl⟩ := Nat.exists_eq_add_one.mpr hrounds
      exact (meets_memberName_end ctx first hc).bind_ok fun c₁ h₁ => Meets.pure h₁
  | @cons name v more token t rest hwritten htext hvalue hrest ih =>
      obtain ⟨rounds, rfl⟩ := Nat.exists_eq_add_one.mpr (Nat.zero_lt_of_lt hrounds)
      obtain ⟨f, hfield, hf, hconveys⟩ := hvalue
      obtain ⟨hfresh, hdistinct⟩ := List.nodup_cons.mp hdistinct
      have hname := meets_memberName ctx first hc
      rw [htext] at hname
      unfold namedFields
      refine hname.bind_ok fun c₁ h₁ => ?_
      -- The name is that of a field that nothing was read for yet.
      simp only [hfield, hnew _ List.mem_cons_self, Option.isSome_none, Bool.false_eq_true,
        if_false]
      refine (meets_colon h₁).bind_ok fun c₂ h₂ => ?_
      have hread : ReadsAs (readField schema (readAt schema ctx depth) f)
          (limited depth t.depth v) t :=
        hconveys.readField htracked hf (hbound _ List.mem_cons_self)
      have hmember := (hread _ c₂ .empty (endsNumber_members rest tail) h₂).step htracked
        (.field name)
      rw [under_limited] at hmember
      rw [show Members.depth _ = max t.depth rest.depth from rfl, limited_max]
      refine hmember.bind fun w c₃ hw h₃ => ?_
      obtain rfl := eq_of_limited hw
      -- No later member has the name of this one.
      have hnew' : ∀ m ∈ more, ((name, v) :: before).lookup m.1 = none := by
        intro m hm
        have hne : m.1 ≠ name := by
          intro hname
          apply hfresh
          show name ∈ more.map Prod.fst
          rw [← hname]
          exact List.mem_map_of_mem hm
        rw [List.lookup_cons, beq_false_of_ne hne]
        exact hnew m (List.mem_cons_of_mem _ hm)
      have hmore : Meets (0x7d :: tail)
          (limited depth rest.depth (more.reverse ++ (name, v) :: before))
          (namedFields schema ctx (readAt schema ctx depth) fields closed rounds false
            ((name, v) :: before) c₃) :=
        ih (fun e he => hbound e (List.mem_cons_of_mem _ he)) hdistinct hnew'
          (Nat.lt_of_succ_lt_succ hrounds) h₃
      rw [List.reverse_cons, List.append_assoc]
      exact hmore

end Loops

/-! ## §4. Layouts. -/

section Layouts

variable {schema : Schema τ} {element : τ} {fields : List (Field τ)}

/-- The reader of the values inside brackets that may still be opened. -/
def innerAt (schema : Schema τ) (ctx : Context) : Nat → Inner τ
  | 0 => none
  | depth + 1 => some (readAt schema ctx depth)

theorem readAt_eq (schema : Schema τ) (ctx : Context) (depth : Nat) (layout : Layout τ) :
    readAt schema ctx depth layout = readLayout schema ctx (innerAt schema ctx depth) layout := by
  cases depth <;> rfl

/-- **A pair of brackets spends one of the depth**; at depth zero none may be opened. -/
theorem meets_opening {ctx : Context} {depth n : Nat} {v : Value}
    {inside : (Layout τ → Read Value) → Read Value} {tail : List UInt8} {c : Cursor}
    (h : ∀ depth, Meets tail (limited depth n v) (inside (readAt schema ctx depth) c)) :
    Meets tail (limited depth (n + 1) v) (opening (innerAt schema ctx depth) inside c) := by
  cases depth with
  | zero =>
      rw [limited_of_lt (Nat.succ_pos n)]
      exact meets_mistaken rfl c
  | succ depth =>
      rw [limited_succ]
      exact h depth

/-- A list is conveyed by the list of what conveys its elements. -/
theorem ItemsConvey.list {vs : List Value} {its : Items}
    (h : ItemsConvey schema (schema element) vs its) :
    Conveys schema (.list element) (.list vs) (.list its) where
  written := by
    obtain ⟨hopen, hclose, -, -, -, -⟩ := encodeChar_punctuation
    simp [Value.chars, Tree.bytes, h.written, hopen, hclose]
  depth_eq := by
    show its.depth + 1 = itemNesting vs + 1
    rw [h.depth_eq]
  reads := by
    intro ctx depth htracked hbound tail c w _ hc
    rw [readAt_eq]
    refine (meets_firstByte _ hc).bind_ok fun c₁ h₁ => meets_opening fun depth => ?_
    refine meets_list h₁ fun c₂ h₂ => ?_
    have hshorter : ∀ t ∈ its.values, t.bytes.length ≤ ctx.bound := by
      intro t ht
      have := (Tree.lt_of_mem_inside (t := .list its) ht).2
      omega
    have hitems : Meets (0x5d :: tail) (limited depth its.depth ([].reverse ++ vs))
        (items ctx (readAt schema ctx depth (schema element)) (ctx.bound + 1) 0 [] c₂) :=
      h.meets htracked hshorter (Items.length_values_lt_bound hbound) h₂ rfl
    rw [limited_map]
    exact hitems.map

/-- A name beyond all others is put at the end. -/
theorem insertMember_of_lt {name : String} {v : Value} {members : List (String × Value)}
    (h : ∀ m ∈ members, m.1 < name) : insertMember name v members = members ++ [(name, v)] := by
  induction members with
  | nil => rfl
  | cons m members ih =>
      obtain ⟨n, w⟩ := m
      have hlt : n < name := h (n, w) List.mem_cons_self
      have hne : (name == n) = false := beq_false_of_ne fun heq => String.lt_irrefl n (heq ▸ hlt)
      rw [insertMember, if_neg (String.lt_asymm hlt), hne,
        ih fun m hm => h m (List.mem_cons_of_mem _ hm)]
      rfl

/-- **Members in the order of their names stay as they are** when they are sorted. -/
theorem sortMembers_of_pairwise {members : List (String × Value)}
    (h : (members.map Prod.fst).Pairwise (· < ·)) : sortMembers members = members := by
  -- The members that are sorted so far come before those that are left.
  have hgo : ∀ (sorted rest : List (String × Value)),
      ((sorted ++ rest).map Prod.fst).Pairwise (· < ·) →
      rest.foldl (fun sorted m => insertMember m.1 m.2 sorted) sorted = sorted ++ rest := by
    intro sorted rest
    induction rest generalizing sorted with
    | nil =>
        intro _
        exact (List.append_nil sorted).symm
    | cons m rest ih =>
        intro hpairwise
        have hlast : insertMember m.1 m.2 sorted = sorted ++ [m] := by
          apply insertMember_of_lt
          intro n hn
          rw [List.map_append, List.pairwise_append] at hpairwise
          exact hpairwise.2.2 n.1 (List.mem_map_of_mem hn) m.1
            (List.mem_map_of_mem List.mem_cons_self)
        rw [List.foldl_cons, hlast, ih (sorted ++ [m]) (by rwa [List.append_assoc]),
          List.append_assoc]
        rfl
  exact hgo [] members h

/-- A table is conveyed by the object of what conveys its values. -/
theorem conveys_table {members : List (String × Value)} {written : Members}
    (hsorted : (members.map Prod.fst).Pairwise (· < ·))
    (h : MembersConvey (fun _ => Conveys schema (schema element)) members written) :
    Conveys schema (.table .text element) (.object members) (.object written) where
  written := by
    obtain ⟨-, -, hopen, hclose, -, -⟩ := encodeChar_punctuation
    simp [Value.chars, Tree.bytes, h.written fun _ _ _ hv => hv.written, hopen, hclose]
  depth_eq := by
    show written.depth + 1 = memberNesting members + 1
    rw [h.depth_eq fun _ _ _ hv => hv.depth_eq]
  reads := by
    intro ctx depth htracked hbound tail c w _ hc
    rw [readAt_eq]
    refine (meets_firstByte _ hc).bind_ok fun c₁ h₁ => meets_opening fun depth => ?_
    refine meets_object h₁ fun c₂ h₂ => ?_
    have hmembers : Meets (0x7d :: tail) (limited depth written.depth ([].reverse ++ members))
        (freeMembers ctx (readAt schema ctx depth (schema element)) (ctx.bound + 1) true [] c₂) :=
      meets_freeMembers_limited htracked h (Members.length_bytes_le_bound hbound)
        (Members.length_entries_lt_bound hbound) h₂
    -- The members are in order, so that sorting them changes nothing.
    have hsort : Value.object members = Value.object (sortMembers ([].reverse ++ members)) := by
      rw [List.reverse_nil, List.nil_append, sortMembers_of_pairwise hsorted]
    rw [hsort, limited_map fun found => Value.object (sortMembers found)]
    exact hmembers.map

/-- The fields find the members that have their names. -/
theorem judgeComplete_of_lookup {found members : List (String × Value)} {fields : List (Field τ)}
    (hnames : members.map Prod.fst = fieldNames fields)
    (hfound : ∀ m ∈ members, found.lookup m.1 = some m.2) :
    judgeComplete found fields = .ok members := by
  induction fields generalizing members with
  | nil =>
      rw [List.map_eq_nil_iff.mp hnames]
      rfl
  | cons field fields ih =>
      cases members with
      | nil => cases hnames
      | cons m members =>
          obtain ⟨hname, hrest⟩ := List.cons.inj hnames
          have hm := hfound m List.mem_cons_self
          rw [show m.1 = field.name from hname] at hm
          unfold judgeComplete
          rw [hm, ih hrest fun n hn => hfound n (List.mem_cons_of_mem m hn)]
          show Except.ok ((field.name, m.2) :: members) = _
          rw [← show m.1 = field.name from hname]

/-- A record is conveyed by the object of what conveys the values of its fields. -/
theorem conveys_record {title : String} {closed : Bool} {members : List (String × Value)}
    {written : Members} (hdistinct : (fieldNames fields).Nodup)
    (hnames : members.map Prod.fst = fieldNames fields)
    (h : MembersConvey (FieldConveys schema fields) members written) :
    Conveys schema (.record title fields closed) (.object members) (.object written) where
  written := by
    obtain ⟨-, -, hopen, hclose, -, -⟩ := encodeChar_punctuation
    simp [Value.chars, Tree.bytes, h.written fun _ _ _ ⟨_, _, _, hv⟩ => hv.written, hopen, hclose]
  depth_eq := by
    show written.depth + 1 = memberNesting members + 1
    rw [h.depth_eq fun _ _ _ ⟨_, _, _, hv⟩ => hv.depth_eq]
  reads := by
    intro ctx depth htracked hbound tail c w _ hc
    have hdistinct : (members.map Prod.fst).Nodup := hnames ▸ hdistinct
    rw [readAt_eq]
    refine (meets_firstByte _ hc).bind_ok fun c₁ h₁ => meets_opening fun depth => ?_
    refine meets_object h₁ fun c₂ h₂ => ?_
    have hmembers : Meets (0x7d :: tail) (limited depth written.depth (members.reverse ++ []))
        (namedFields schema ctx (readAt schema ctx depth) fields closed (ctx.bound + 1) true []
          c₂) :=
      meets_namedFields_limited htracked h (Members.length_bytes_le_bound hbound) hdistinct
        (fun m _ => rfl) (Members.length_entries_lt_bound hbound) h₂
    rw [List.append_nil] at hmembers
    have hreversed : (members.reverse.map Prod.fst).Nodup := by
      rw [List.map_reverse]
      exact List.pairwise_reverse.mpr (hdistinct.imp Ne.symm)
    have hcomplete : judgeComplete members.reverse fields = .ok members :=
      judgeComplete_of_lookup hnames fun m hm =>
        (lookup_eq_some_iff_mem hreversed).mpr (List.mem_reverse.mpr hm)
    -- The members are found in any order, and are put in that of the fields.
    have hverdict : limited depth written.depth (Value.object members)
        = limited depth written.depth members.reverse >>= fun found =>
          judgeComplete found fields >>= fun read => .ok (Value.object read) := by
      unfold limited
      split
      · show _ = judgeComplete members.reverse fields >>= _
        rw [hcomplete]
        rfl
      · rfl
    rw [hverdict]
    exact hmembers.bind fun found c₃ _ h₃ => (meets_complete found fields h₃).map

/-- A text is conveyed by its token. -/
theorem exists_conveys_text (s : String) : ∃ t, Conveys schema .text (.text s) t := by
  obtain ⟨token, hwritten, htext⟩ := exists_stringToken s
  refine ⟨.string token, ?_, rfl, ?_⟩
  · exact hwritten
  · intro ctx depth _ _ tail c w htail hc
    have htoken : judgeText "a string" (.string token) = .ok s := by
      rw [judgeText, htext]
      rfl
    have hread := meets_readText "a string" (.string token) htail hc
    rw [htoken] at hread
    rw [readAt_eq, show (Tree.string token).depth = 0 from rfl, limited_zero]
    exact hread.map

/-- A number is conveyed by its token. -/
theorem exists_conveys_integer {kind : IntegerKind} {i : Int} (hword : kind.FitsWord)
    (hholds : kind.holds i = true) : ∃ t, Conveys schema (.integer kind) (.int i) t := by
  have hrange : kind.least ≤ i ∧ i ≤ kind.greatest := by
    simpa [IntegerKind.holds] using hholds
  obtain ⟨hleast, hgreatest⟩ := hword
  obtain ⟨token, hwritten, hvalue⟩ := exists_numberToken (i := i) (by omega) (by omega)
  refine ⟨.number token, hwritten, rfl, ?_⟩
  intro ctx depth _ _ tail c w htail hc
  have htoken : judgeInteger kind (.number token) = .ok i := by
    rw [judgeInteger, hvalue]
    show judgeNumber kind (.int i) = .ok i
    rw [judgeNumber, IntegerKind.check, if_pos hholds]
  have hread := meets_readInteger kind (.number token) htail hc
  rw [htoken] at hread
  rw [readAt_eq, show (Tree.number token).depth = 0 from rfl, limited_zero]
  exact hread.map

/-- **Every value of a layout is conveyed by a tree.** The induction is on the value, as its layout
holds it. -/
theorem exists_conveys {layout : Layout τ} {v : Value} (h : v.Of schema layout) :
    ∃ t, Conveys schema layout v t := by
  induction h with
  | text s => exact exists_conveys_text s
  | integer hword hholds => exact exists_conveys_integer hword hholds
  | list hvalues ih =>
      obtain ⟨its, hits⟩ := exists_itemsConvey ih
      exact ⟨.list its, hits.list⟩
  | @record title fields closed members hdistinct hpresence hnames hvalues ih =>
      obtain ⟨written, hwritten⟩ : ∃ written,
          MembersConvey (FieldConveys schema fields) members written := by
        apply exists_membersConvey
        intro m hm
        have hname : m.1 ∈ fieldNames fields := by
          rw [← hnames]
          exact List.mem_map_of_mem hm
        obtain ⟨-, hnone⟩ | ⟨f, hf, hfield, hsame⟩ := find?_cases fields m.1
        · -- Every member has the name of a field.
          obtain ⟨f, hf, hsame⟩ := List.mem_map.mp hname
          exact absurd hsame.symm (hnone f hf)
        · obtain ⟨t, ht⟩ := ih f hf m hm hsame.symm
          exact ⟨t, f, hfield, hpresence f hf, ht⟩
      exact ⟨.object written, conveys_record hdistinct hnames hwritten⟩
  | @table element members hsorted hvalues ih =>
      obtain ⟨written, hwritten⟩ : ∃ written,
          MembersConvey (fun _ => Conveys schema (schema element)) members written :=
        exists_membersConvey ih
      exact ⟨.object written, conveys_table hsorted hwritten⟩

end Layouts

/-! ## §5. Whole texts. -/

section Texts

variable {schema : Schema τ} {layout : Layout τ} {v : Value}

/-- A body that conveys a value is read as it is, up to the depth limit. -/
theorem Conveys.readsLike {t : Tree} (h : Conveys schema layout v t) :
    ReadsLike (limited depthLimit t.depth v) (parseBody schema layout t.bytes) := by
  have hstart : (Cursor.start t.bytes .complete).At (Blanks.empty.bytes ++ (t.bytes ++ [])) := by
    rw [List.append_nil]
    exact ⟨rfl, rfl⟩
  have hread : Meets Blanks.empty.bytes (limited depthLimit t.depth v)
      (readAt schema ⟨t.bytes.length, true⟩ depthLimit layout (.start t.bytes .complete)) :=
    h.reads ⟨t.bytes.length, true⟩ depthLimit rfl (Nat.le_refl _) [] _ .empty endsNumber_nil hstart
  exact hread.finish.readsLike

/-- **A value of a layout is read back from its compact text** if that has no more nested brackets
than the depth limit allows; with more, the text is said to be malformed. -/
theorem read_back_up_to_depth_limit (h : v.Of schema layout) :
    (v.nesting ≤ depthLimit → parseBody schema layout (Utf8.encode v.render) = .ok v)
      ∧ (depthLimit < v.nesting → ∃ message,
        parseBody schema layout (Utf8.encode v.render) = .error (.ofMalformed message)) := by
  obtain ⟨t, ht⟩ := exists_conveys h
  have hbytes : Utf8.encode v.render = t.bytes := by
    rw [Value.render, Utf8.encode, String.toList_ofList, ht.written]
  have hread := ht.readsLike
  rw [ht.depth_eq, ← hbytes] at hread
  constructor
  · intro hshallow
    rw [limited, if_pos hshallow] at hread
    exact hread
  · intro hdeep
    rw [limited_of_lt hdeep] at hread
    exact hread

end Texts

end ErrorContract.Json
