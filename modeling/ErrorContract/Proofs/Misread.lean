/-
  ErrorContract.Proofs.Misread
  ────────────────────────────
  **WHICH WELL-FORMED BODIES ARE SAID TO BE ILL-FORMED.**

  A body that is accepted as any value is well-formed, and yet a layout that
  it does not fit may take it for ill-formed: where the reader looks for a
  byte of the form that the layout has, and not for a value that it could
  find unfit.  `Misread` says when that is so, by the first demand that the
  layout makes in vain; main statement
  `said_ill_formed_iff_misread`.
-/
import ErrorContract.Proofs.Continuation
import ErrorContract.Proofs.LayoutDemands
import ErrorContract.Proofs.Reading
import ErrorContract.Sample.Bodies

namespace ErrorContract.Json

open ErrorContract

/-! ## §1. Any value opens all its brackets. -/

section Brackets

variable {schema : Schema τ} {ctx : Context} {limit : Nat} {read : Read Value}
  {tail : List UInt8} {c c' : Cursor} {first : Bool}

theorem MeetsThen.of_ok {post : Cursor → Prop} {v : Verdict α} {a : α}
    (h : MeetsThen post v (.ok a c)) : post c := by
  cases v with
  | ok b =>
      obtain ⟨c', heq, hc'⟩ := h
      cases heq
      exact hc'
  | error flaw =>
      obtain ⟨e, c', heq, -⟩ := h
      cases heq

/-- A reader gets through one of these values only if it opens few brackets. -/
def Shallow (limit : Nat) (read : Read Value) (ts : List Tree) : Prop :=
  ∀ t ∈ ts, ∀ (tail : List UInt8) (c c' : Cursor) (w : Blanks) (v : Value), EndsNumber tail →
    c.At (w.bytes ++ (t.bytes ++ tail)) → read c = .ok v c' → t.depth ≤ limit ∧ c'.At tail

theorem Shallow.behind {t : Tree} {ts : List Tree} (h : Shallow limit read (t :: ts)) :
    Shallow limit read ts := fun s hs => h s (List.mem_cons_of_mem t hs)

theorem depth_of_items {rounds : Nat} {its : Items} (hread : Shallow limit read its.values)
    {position : Nat} {before vs : List Value} (h : c.At (its.bytes first ++ 0x5d :: tail))
    (hfirst : (position == 0) = first)
    (hrun : items ctx read rounds position before c = .ok vs c') : its.depth ≤ limit := by
  induction rounds generalizing c its position before first with
  | zero => cases hrun
  | succ rounds ih =>
      subst hfirst
      cases its with
      | nil w => exact Nat.zero_le _
      | cons leading blanks value rest =>
          obtain ⟨c₁, hitem, h₁⟩ := meets_hasItem _ h
          obtain ⟨b, c₂, hb, hrun⟩ := exists_of_bind_ok hrun
          rw [hitem] at hb
          cases hb
          obtain ⟨v, c₃, hv, hrun⟩ := exists_of_bind_ok hrun
          -- The element was read to its end, so that the rest of the list follows.
          obtain ⟨hvalue, h₃⟩ := hread value List.mem_cons_self _ c₁ c₃ .empty v
            (endsNumber_items rest tail) h₁ (step_ok hv)
          exact Nat.max_le.mpr ⟨hvalue, ih hread.behind h₃ rfl hrun⟩

theorem depth_of_freeMembers {rounds : Nat} {members : Members}
    (hread : Shallow limit read (members.entries.map Prod.snd))
    {before found : List (String × Value)} (h : c.At (members.bytes first ++ 0x7d :: tail))
    (hrun : freeMembers ctx read rounds first before c = .ok found c') :
    members.depth ≤ limit := by
  induction rounds generalizing c members before first with
  | zero => cases hrun
  | succ rounds ih =>
      cases members with
      | nil w => exact Nat.zero_le _
      | cons leading blanks token beforeColon behindColon value rest =>
          have hname := meets_memberName ctx first h
          obtain ⟨o, c₁, ho, hrun⟩ := exists_of_bind_ok hrun
          cases htext : StringToken.text? token with
          | none =>
              rw [htext, ho] at hname
              obtain ⟨e, c₂, heq, -⟩ := hname
              cases heq
          | some name =>
              rw [htext, ho] at hname
              obtain ⟨c₂, heq, h₂⟩ := hname
              cases heq
              obtain ⟨c₃, hcolon, h₃⟩ := meets_colon h₂
              obtain ⟨u, c₄, hu, hrun⟩ := exists_of_bind_ok hrun
              rw [hcolon] at hu
              cases hu
              obtain ⟨v, c₅, hv, hrun⟩ := exists_of_bind_ok hrun
              obtain ⟨hvalue, h₅⟩ := hread value List.mem_cons_self _ c₃ c₅ behindColon v
                (endsNumber_members rest tail) h₃ (step_ok hv)
              exact Nat.max_le.mpr ⟨hvalue, ih hread.behind h₅ hrun⟩

/-- A value with brackets is read as any only by a reader of the values inside. -/
theorem depth_of_readFree {inner : Inner τ} {layout : Layout τ} {t : Tree} {w : Blanks} {v : Value}
    {finished : List (String × Value) → List (String × Value)}
    (hinner : ∀ read, inner = some read → Shallow limit (read layout) t.inside)
    (h : c.At (w.bytes ++ (t.bytes ++ tail)))
    (hrun : readFree ctx inner layout finished c = .ok v c') :
    t.depth = 0 ∨ inner.isSome = true ∧ t.depth ≤ limit + 1 := by
  obtain ⟨c₁, hbyte, h₁⟩ := meets_firstByte t h
  obtain ⟨b, c₂, hb, hrun⟩ := exists_of_bind_ok hrun
  rw [hbyte] at hb
  cases hb
  cases t with
  | list its =>
      obtain ⟨read, rfl, hrun⟩ := opening_ok hrun
      obtain ⟨c₃, hinside, -⟩ := bracketed_ok hrun
      obtain ⟨vs, c₄, hitems, -⟩ := exists_of_bind_ok hinside
      rw [Tree.bytes_list] at h₁
      have hadvance : c₁.advance.At (its.bytes true ++ 0x5d :: tail) := by
        rw [h₁.eq]
        exact ⟨rfl, rfl⟩
      have hdepth := depth_of_items (hinner read rfl) hadvance rfl hitems
      exact .inr ⟨rfl, Nat.succ_le_succ hdepth⟩
  | object members =>
      obtain ⟨read, rfl, hrun⟩ := opening_ok hrun
      obtain ⟨c₃, hinside, -⟩ := bracketed_ok hrun
      obtain ⟨found, c₄, hmembers, -⟩ := exists_of_bind_ok hinside
      rw [Tree.bytes_object] at h₁
      have hadvance : c₁.advance.At (members.bytes true ++ 0x7d :: tail) := by
        rw [h₁.eq]
        exact ⟨rfl, rfl⟩
      have hdepth := depth_of_freeMembers (hinner read rfl) hadvance hmembers
      exact .inr ⟨rfl, Nat.succ_le_succ hdepth⟩
  | _ => exact .inl rfl

/-- **A value is read as any only if it opens no more brackets than it may.** The induction is on
the brackets that may be opened. -/
theorem depth_of_readAt (htracked : ctx.tracked = true) {depth : Nat} {t : Tree} {w : Blanks}
    {v : Value} (hbound : t.bytes.length ≤ ctx.bound) (h : c.At (w.bytes ++ (t.bytes ++ tail)))
    (hrun : readAt schema ctx depth .any c = .ok v c') : t.depth ≤ depth := by
  induction depth generalizing t tail c c' w v with
  | zero =>
      have hnone : ∀ read, (none : Inner τ) = some read → Shallow 0 (read .any) t.inside :=
        fun read hread => by cases hread
      rcases depth_of_readFree hnone h hrun with hleaf | ⟨hnone, -⟩
      · exact Nat.le_of_eq hleaf
      · cases hnone
  | succ depth ih =>
      have hinside : Shallow depth (readAt schema ctx depth .any) t.inside := by
        intro u hu tail' c₁ c₂ w' v' htail h₁ hrun'
        have hshorter := (Tree.lt_of_mem_inside hu).2
        have hdepth : u.depth ≤ depth := ih (by omega) h₁ hrun'
        -- A value that is not too deep is read to its end.
        have hmeets : MeetsThen (Cursor.At tail') (judge schema .any u)
            (readAt schema ctx depth .any c₁) := meets_readAt htracked hdepth (by omega) htail h₁
        rw [hrun'] at hmeets
        exact ⟨hdepth, hmeets.of_ok⟩
      rcases depth_of_readFree (fun read hread => by cases hread; exact hinside) h hrun with
        hleaf | ⟨-, hdepth⟩
      · omega
      · exact hdepth

end Brackets

/-! ## §2. Demands that are not met. -/

section Demands

variable {schema : Schema τ} {layout : Layout τ} {t : Tree}

/-- A demand is met; for a value inside, if it is accepted on its own. -/
def Demand.Met (schema : Schema τ) : Demand τ → Prop
  | .value layout t => ∃ v, parseBody schema layout t.bytes = .ok v
  | .fit holds | .form holds => holds = true

/-- **A value is taken for ill-formed as a layout**: the first demand that it does not meet is one
for a form, or one for a value inside that is taken for ill-formed itself. -/
inductive Misread (schema : Schema τ) : Layout τ → Tree → Prop where
  /-- It does not have the form that the reader looks for. -/
  | here {layout : Layout τ} {t : Tree} {before after : List (Demand τ)}
      (hsplit : demands schema layout t = before ++ .form false :: after)
      (hbefore : ∀ d ∈ before, d.Met schema) : Misread schema layout t
  /-- A value inside is taken for ill-formed. -/
  | inside {layout part : Layout τ} {t u : Tree} {before after : List (Demand τ)}
      (hsplit : demands schema layout t = before ++ .value part u :: after)
      (hbefore : ∀ d ∈ before, d.Met schema) (hpart : Misread schema part u) :
      Misread schema layout t

theorem mem_of_mem_fieldDemands {field : Field τ} {part : Layout τ} {u : Tree}
    (h : .value part u ∈ field.demands schema t) : u = t := by
  unfold Field.demands at h
  split at h
  · cases h
  · cases h
  · cases List.mem_singleton.mp h
    rfl

theorem mem_of_mem_listedDemands {part : Layout τ} {u : Tree} :
    ∀ {fields : List (Field τ)} {ts : List Tree},
      .value part u ∈ listedDemands schema fields ts → u ∈ ts
  | [], [], h => by cases List.mem_singleton.mp h
  | field :: fields, [], h => by cases List.mem_singleton.mp h
  | [], t :: ts, h => by cases h
  | field :: fields, t :: ts, h => by
      rcases List.mem_append.mp h with h | h
      · exact mem_of_mem_fieldDemands h ▸ List.mem_cons_self
      · exact List.mem_cons_of_mem t (mem_of_mem_listedDemands h)

theorem mem_of_mem_namedDemands {fields : List (Field τ)} {closed : Bool} {part : Layout τ}
    {u : Tree} {seen : List String} : ∀ {entries : List (StringToken × Tree)},
      .value part u ∈ namedDemands schema fields closed seen entries → u ∈ entries.map Prod.snd
  | [], h => by cases List.mem_singleton.mp h
  | (token, t) :: rest, h => by
      unfold namedDemands at h
      split at h
      · rcases List.mem_cons.mp h with h | h
        · cases h
        · exact List.mem_cons_of_mem t (mem_of_mem_namedDemands h)
      · rcases List.mem_cons.mp h with h | h
        · cases h
        rcases List.mem_append.mp h with h | h
        · exact mem_of_mem_fieldDemands h ▸ List.mem_cons_self
        · exact List.mem_cons_of_mem t (mem_of_mem_namedDemands h)

theorem not_mem_keyDemands {kind : IntegerKind} {token : StringToken} {part : Layout τ} {u : Tree} :
    .value part u ∉ keyDemands kind token := by
  unfold keyDemands
  split <;> simp

theorem mem_of_mem_soleDemands {variants : List (Variant τ)} {part : Layout τ} {u : Tree} :
    ∀ {entries : List (StringToken × Tree)},
      .value part u ∈ soleDemands schema variants entries → u ∈ entries.map Prod.snd
  | [], h => by cases List.mem_singleton.mp h
  | (token, t) :: rest, h => by
      dsimp only [soleDemands] at h
      split at h
      · cases List.mem_singleton.mp h
      · rcases List.mem_cons.mp h with h | h
        · cases h
          exact List.mem_cons_self
        · cases List.mem_singleton.mp h

/-- **The values that are demanded stand inside.** -/
theorem mem_inside_of_mem_demands {part : Layout τ} {u : Tree}
    (h : .value part u ∈ demands schema layout t) : u ∈ t.inside := by
  cases layout with
  | any => simp [demands] at h
  | raw => simp [demands] at h
  | text => cases t <;> simp [demands] at h
  | truth => cases t <;> simp [demands] at h
  | unit => cases t <;> simp [demands] at h
  | tagged title tag variants => simp [demands] at h
  | integer kind =>
      cases t with
      | number n =>
          cases hvalue : n.value? with
          | none => simp [demands, hvalue] at h
          | some v => cases v <;> simp [demands, hvalue] at h
      | _ => simp [demands] at h
  | list element =>
      cases t with
      | list its =>
          obtain ⟨s, hs, heq⟩ := List.mem_map.mp h
          cases heq
          exact hs
      | _ => simp [demands] at h
  | tuple title whole types =>
      cases t with
      | list its =>
          rcases List.mem_append.mp h with h | h
          · rw [← List.map_uncurry_zip_eq_zipWith] at h
            obtain ⟨⟨type, s⟩, hs, heq⟩ := List.mem_map.mp h
            cases heq
            exact (List.of_mem_zip hs).2
          · simp at h
      | _ => simp [demands] at h
  | record title fields closed =>
      cases t with
      | list its =>
          rcases List.mem_append.mp h with h | h
          · exact mem_of_mem_listedDemands h
          · simp at h
      | object members => exact mem_of_mem_namedDemands h
      | _ => simp [demands] at h
  | table key element =>
      cases t with
      | object members =>
          cases key with
          | text =>
              obtain ⟨e, he, heq⟩ := List.mem_map.mp h
              cases heq
              exact List.mem_map_of_mem he
          | number kind =>
              obtain ⟨e, he, h⟩ := List.mem_flatMap.mp h
              rcases List.mem_append.mp h with h | h
              · exact absurd h not_mem_keyDemands
              · cases List.mem_singleton.mp h
                exact List.mem_map_of_mem he
      | _ => cases key <;> simp [demands] at h
  | choice variants =>
      cases t with
      | object members => exact mem_of_mem_soleDemands h
      | _ => simp [demands] at h

/-- How a body is told to have been read. -/
def Outcome.Tells : Outcome → Except UnreadableBody Value → Prop
  | .accepted, r => ∃ v, r = .ok v
  | .unfit, r => ∃ path message, r = .error (.ofMapping path message)
  | .malformed, r => ∃ message, r = .error (.ofMalformed message)

theorem ReadsLike.tells {v : Verdict Value} {r : Except UnreadableBody Value}
    (h : ReadsLike v r) : v.outcome.Tells r := by
  cases v with
  | ok a => exact ⟨a, h⟩
  | error flaw =>
      cases flaw with
      | misfit m way => exact ⟨way, h⟩
      | meaningless | mistaken => exact h

/-- Only one outcome is told. -/
theorem Outcome.Tells.eq {o o' : Outcome} {r : Except UnreadableBody Value} (h : o.Tells r)
    (h' : o'.Tells r) : o = o' := by
  have htold : ∀ {o : Outcome}, o.Tells r → o = match r with
      | .ok _ => .accepted
      | .error ⟨_, .mapping _ _⟩ => .unfit
      | .error _ => .malformed := by
    intro o h
    cases o with
    | accepted =>
        obtain ⟨v, rfl⟩ := h
        rfl
    | unfit =>
        obtain ⟨path, message, rfl⟩ := h
        rfl
    | malformed =>
        obtain ⟨message, rfl⟩ := h
        rfl
  exact (htold h).trans (htold h').symm

/-- What a part of a body that stands for something is told to have been read like. -/
theorem tells_outcome (schema : Schema τ) (layout : Layout τ) (hdepth : t.depth ≤ depthLimit) :
    (judge schema layout t).outcome.Tells (parseBody schema layout t.bytes) := by
  have halone : t.alone.bytes = t.bytes := List.append_nil t.bytes
  rw [← halone]
  exact (readsLike_judge t.alone hdepth).tells

/-- **A demand is met if nothing is wrong with it.** -/
theorem met_iff (hdepth : t.depth ≤ depthLimit) {d : Demand τ}
    (hd : d ∈ demands schema layout t) : d.Met schema ↔ d.outcome schema = .accepted := by
  cases d with
  | value part u =>
      have hshallow := (Tree.lt_of_mem_inside (mem_inside_of_mem_demands hd)).1
      have htells := tells_outcome schema part (t := u) (by omega)
      exact ⟨fun h => htells.eq h, fun h => (h ▸ htells : Outcome.Tells .accepted _)⟩
  | fit holds => exact (Outcome.of_eq_accepted (by decide)).symm
  | form holds => exact (Outcome.of_eq_accepted (by decide)).symm

/-- The first demand in vain decides. -/
theorem settle_eq_malformed_iff {ds : List (Demand τ)} :
    settle schema ds = .malformed ↔ ∃ before d after, ds = before ++ d :: after
      ∧ (∀ e ∈ before, e.outcome schema = .accepted) ∧ d.outcome schema = .malformed := by
  constructor
  · intro h
    induction ds with
    | nil => cases h
    | cons d ds ih =>
        rw [settle] at h
        cases hd : d.outcome schema with
        | accepted =>
            rw [hd] at h
            obtain ⟨before, e, after, rfl, hbefore, he⟩ := ih h
            exact ⟨d :: before, e, after, rfl, List.forall_mem_cons.mpr ⟨hd, hbefore⟩, he⟩
        | unfit =>
            rw [hd] at h
            cases h
        | malformed => exact ⟨[], d, ds, rfl, by simp, hd⟩
  · rintro ⟨before, d, after, rfl, hbefore, hd⟩
    rw [settle_append, settle_eq_accepted_iff.mpr hbefore, settle, hd]
    rfl

/-- A value that is misread is said to be ill-formed. -/
theorem Misread.malformed (h : Misread schema layout t) (ht : t.Meaningful)
    (hdepth : t.depth ≤ depthLimit) : (judge schema layout t).outcome = .malformed := by
  induction h with
  | here hsplit hbefore =>
      rw [outcome_judge schema ht, settle_eq_malformed_iff]
      refine ⟨_, _, _, hsplit, fun d hd => ?_, rfl⟩
      exact (met_iff hdepth (hsplit ▸ List.mem_append_left _ hd)).mp (hbefore d hd)
  | @inside layout part t u before after hsplit hbefore hpart ih =>
      have hinside : u ∈ t.inside :=
        mem_inside_of_mem_demands (hsplit ▸ List.mem_append_right _ List.mem_cons_self)
      have hless := (Tree.lt_of_mem_inside hinside).1
      rw [outcome_judge schema ht, settle_eq_malformed_iff]
      refine ⟨_, _, _, hsplit, fun d hd => ?_, ih (ht.of_mem_inside hinside) (by omega)⟩
      exact (met_iff hdepth (hsplit ▸ List.mem_append_left _ hd)).mp (hbefore d hd)

/-- **A value that stands for something is said to be ill-formed just if it is misread.** The
induction is on the brackets that it opens. -/
theorem malformed_iff_misread (ht : t.Meaningful) (hdepth : t.depth ≤ depthLimit) :
    (judge schema layout t).outcome = .malformed ↔ Misread schema layout t := by
  refine ⟨fun h => ?_, fun h => h.malformed ht hdepth⟩
  induction hn : t.depth using Nat.strongRecOn generalizing t layout with
  | _ n ih =>
      rw [outcome_judge schema ht, settle_eq_malformed_iff] at h
      obtain ⟨before, d, after, hsplit, hbefore, hd⟩ := h
      have hmet : ∀ e ∈ before, e.Met schema := fun e he =>
        (met_iff hdepth (hsplit ▸ List.mem_append_left _ he)).mpr (hbefore e he)
      -- The first demand in vain is one for a value inside or for a form; fit is no matter of form.
      cases d with
      | value part u =>
          have hinside : u ∈ t.inside :=
            mem_inside_of_mem_demands (hsplit ▸ List.mem_append_right _ List.mem_cons_self)
          have hless := (Tree.lt_of_mem_inside hinside).1
          exact .inside hsplit hmet
            (ih u.depth (by omega) (ht.of_mem_inside hinside) (by omega) hd rfl)
      | fit holds => cases holds <;> cases hd
      | form holds =>
          cases holds with
          | false => exact .here hsplit hmet
          | true => cases hd

/-- What is accepted as any value is a document, all of which stands for something. -/
theorem exists_meaningful {body : List UInt8} {v : Value}
    (h : parseBody schema .any body = .ok v) :
    ∃ d : Document, d.bytes = body ∧ d.tree.depth ≤ depthLimit ∧ d.tree.Meaningful := by
  obtain ⟨c, c', hread, hfinish⟩ := exists_of_parseBody_ok h
  obtain ⟨before, tree, htree⟩ := takesValue_readAt _ _ _ _ _ hread
  obtain ⟨behind, hbehind⟩ := finish_ok hfinish
  have hbytes : Document.bytes ⟨before, tree, behind⟩ = body := by
    rw [Document.bytes, ← hbehind, ← htree]
    rfl
  have hstart : (Cursor.start body .complete).At (before.bytes ++ (tree.bytes ++ behind.bytes)) :=
    ⟨hbytes.symm, rfl⟩
  have hlength : tree.bytes.length ≤ body.length := by
    rw [← hbytes]
    simp only [Document.bytes, List.length_append]
    omega
  -- That it was read says how deep it is, and only then is it read as it is judged.
  have hdepth : tree.depth ≤ depthLimit := depth_of_readAt rfl hlength hstart hread
  refine ⟨⟨before, tree, behind⟩, hbytes, hdepth, ?_⟩
  have htells : (judge schema .any tree).outcome.Tells
      (parseBody schema .any (Document.bytes ⟨before, tree, behind⟩)) :=
    (readsLike_judge ⟨before, tree, behind⟩ hdepth).tells
  rw [hbytes] at htells
  have haccepted : Outcome.accepted.Tells (parseBody schema .any body) := ⟨v, h⟩
  exact (accepted_iff_meaningful (judge_any schema)).mp (htells.eq haccepted)

end Demands

/-! ## §3. Bodies. -/

/-- Is this how the reading of a body failed? -/
def isError (e : UnreadableBody) : Except UnreadableBody Value → Bool
  | .ok _ => false
  | .error e' => e' == e

theorem eq_error_of_isError {e : UnreadableBody} {r : Except UnreadableBody Value}
    (h : isError e r = true) : r = .error e := by
  cases r with
  | ok v => cases h
  | error e' => exact congrArg Except.error (eq_of_beq h)

/-- **Which well-formed bodies are said to be ill-formed.** A body that is accepted as any value is
a document.  It is accepted as a layout if it meets all that the layout demands; it is said to be
ill-formed if it is misread; and otherwise it is a mapping failure. -/
theorem said_ill_formed_iff_misread (schema : Schema τ) (layout : Layout τ) (body : List UInt8)
    (found : Value) (h : parseBody schema .any body = .ok found) :
    ∃ d : Document, d.bytes = body
      ∧ ((∃ v, parseBody schema layout body = .ok v)
          ↔ ∀ demand ∈ demands schema layout d.tree, demand.Met schema)
      ∧ ((∃ message, parseBody schema layout body = .error (.ofMalformed message))
          ↔ Misread schema layout d.tree)
      ∧ ((∃ v, parseBody schema layout body = .ok v)
          ∨ (∃ message, parseBody schema layout body = .error (.ofMalformed message))
          ∨ ∃ path message, parseBody schema layout body = .error (.ofMapping path message)) := by
  obtain ⟨d, rfl, hdepth, hmeaningful⟩ := exists_meaningful h
  have htells : (judge schema layout d.tree).outcome.Tells (parseBody schema layout d.bytes) :=
    (readsLike_judge d hdepth).tells
  refine ⟨d, rfl, ?_, ?_, ?_⟩
  · -- All demands are met if nothing is wrong with any of them.
    have hall : (judge schema layout d.tree).outcome = .accepted
        ↔ ∀ demand ∈ demands schema layout d.tree, demand.Met schema := by
      rw [outcome_judge schema hmeaningful, settle_eq_accepted_iff]
      exact ⟨fun h e he => (met_iff hdepth he).mpr (h e he),
        fun h e he => (met_iff hdepth he).mp (h e he)⟩
    rw [← hall]
    exact ⟨fun h => htells.eq h, fun h => (h ▸ htells : Outcome.Tells .accepted _)⟩
  · rw [← malformed_iff_misread hmeaningful hdepth]
    exact ⟨fun h => htells.eq h, fun h => (h ▸ htells : Outcome.Tells .malformed _)⟩
  · cases houtcome : (judge schema layout d.tree).outcome with
    | accepted => exact .inl (houtcome ▸ htells : Outcome.Tells .accepted _)
    | malformed => exact .inr (.inl (houtcome ▸ htells : Outcome.Tells .malformed _))
    | unfit => exact .inr (.inr (houtcome ▸ htells : Outcome.Tells .unfit _))

/-- An object that chooses two shapes at once. -/
def twoShapes : List UInt8 := "\x7b\"Circle\":1,\"Point\":null\x7d".toUTF8.toList

theorem said_ill_formed_iff_misread_two_shapes :
    (∃ v, parseBody Sample.schema .any twoShapes = .ok v)
      ∧ ∃ d : Document, d.bytes = twoShapes
        ∧ Misread Sample.schema (Sample.schema .shape) d.tree := by
  have hread : (parseBody Sample.schema .any twoShapes).isOk = true := by decide +kernel
  cases hany : parseBody Sample.schema .any twoShapes with
  | error e =>
      rw [hany] at hread
      cases hread
  | ok v =>
      obtain ⟨d, hbytes, -, hmisread, -⟩ := said_ill_formed_iff_misread Sample.schema
        (Sample.schema .shape) twoShapes v hany
      exact ⟨⟨v, rfl⟩, d, hbytes,
        hmisread.mp ⟨_, eq_error_of_isError (e := .ofMalformed "expected value at line 1 column 11")
          (by decide +kernel)⟩⟩

/-- **A number is well-formed, and yet said to be ill-formed where a shape is expected.** -/
theorem number_said_ill_formed :
    (∃ v, parseBody Sample.schema (Sample.schema .value) [0x35] = .ok v)
      ∧ parseBody Sample.schema (Sample.schema .shape) [0x35]
        = .error (.ofMalformed "expected value at line 1 column 1") :=
  ⟨⟨.int 5, rfl⟩, eq_error_of_isError (by decide +kernel)⟩

end ErrorContract.Json
