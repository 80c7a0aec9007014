/-
  ErrorContract.Proofs.Routable
  ─────────────────────────────
  **WHICH HEALTH PATHS A SERVER CAN BE BUILT WITH.**

  Settings are accepted with any health path that begins with a slash.  The
  router asks more of a path: what stands in braces must be a capture, no
  segment may begin with a colon or a star, and captures are limited.
  `Pattern.Written p cs` says that the text is a written form of the pattern,
  character by character; that the reader finds exactly these forms is
  `Pattern.parse_eq_some_iff`.

  Main statement `accepted_is_served_iff`: accepted settings have a server
  exactly if their health path is routable or the health endpoint is
  disabled.  So there are accepted settings that have none.
-/
import Mathlib.Data.List.Basic
import ErrorContract.Config.Load
import ErrorContract.Proofs.Expansion
import ErrorContract.Proofs.Hiding

namespace ErrorContract

open Http

namespace Http

/-! ## §1. Written forms. -/

/-- **The written forms of a name in braces** behind its first character: no star and no slash, and
braces doubled, but that an opening one may also stand alone. -/
inductive NameWritten : List Char → List Char → Prop where
  | nil : NameWritten [] []
  | char {c : Char} {name raw : List Char} (hbrace : c ≠ '{' ∧ c ≠ '}') (hends : c ≠ '*' ∧ c ≠ '/')
      (h : NameWritten name raw) : NameWritten (c :: name) (c :: raw)
  | doubled {b : Char} {name raw : List Char} (hb : b = '{' ∨ b = '}') (h : NameWritten name raw) :
      NameWritten (b :: name) (b :: b :: raw)
  | opening {name raw : List Char} (hraw : raw.head? ≠ some '{') (h : NameWritten name raw) :
      NameWritten ('{' :: name) ('{' :: raw)

/-- **The written forms of a pattern.**  The first character of a name may be anything but a brace
or the star that marks what is left of the path. -/
inductive Pattern.Written : Pattern → List Char → Prop where
  | nil : Written [] []
  | char {c : Char} {p : Pattern} {raw : List Char} (hbrace : c ≠ '{' ∧ c ≠ '}')
      (h : Written p raw) : Written (.char c :: p) (c :: raw)
  | doubled {b : Char} {p : Pattern} {raw : List Char} (hb : b = '{' ∨ b = '}')
      (h : Written p raw) : Written (.char b :: p) (b :: b :: raw)
  | capture {c : Char} {name raw behind : List Char} {p : Pattern} (hbrace : c ≠ '{' ∧ c ≠ '}')
      (hstar : c ≠ '*') (hname : NameWritten name raw) (hbehind : ∀ d ∈ behind.head?, d = '/')
      (h : Written p behind) :
      Written (.capture (String.ofList (c :: name)) :: p) ('{' :: c :: (raw ++ '}' :: behind))
  | rest {name raw : List Char} (hname : NameWritten name raw) (hne : name ≠ []) :
      Written [.rest (String.ofList name)] ('{' :: '*' :: (raw ++ ['}']))

/-! ## §2. Marks. -/

/-- **The marks of a text**: braces are taken in pairs where two of a kind stand together. -/
inductive Marked : List Char → List Mark → Prop where
  | nil : Marked [] []
  | char {c : Char} {cs : List Char} {ms : List Mark} (hbrace : c ≠ '{' ∧ c ≠ '}')
      (h : Marked cs ms) : Marked (c :: cs) (.char c :: ms)
  | doubled {b : Char} {cs : List Char} {ms : List Mark} (hb : b = '{' ∨ b = '}')
      (h : Marked cs ms) : Marked (b :: b :: cs) (.char b :: ms)
  | opening {cs : List Char} {ms : List Mark} (hcs : cs.head? ≠ some '{') (h : Marked cs ms) :
      Marked ('{' :: cs) (.opening :: ms)
  | closing {cs : List Char} {ms : List Mark} (hcs : cs.head? ≠ some '}') (h : Marked cs ms) :
      Marked ('}' :: cs) (.closing :: ms)

theorem marked_marks (cs : List Char) : Marked cs (marks cs) := by
  fun_induction marks cs with
  | case1 => exact .nil
  | case2 cs ih => exact .doubled (.inl rfl) ih
  | case3 cs ih => exact .doubled (.inr rfl) ih
  | case4 cs hcs ih =>
      refine .opening (fun hhead => ?_) ih
      obtain ⟨cs', rfl⟩ := List.head?_eq_some_iff.mp hhead
      exact hcs cs' rfl
  | case5 cs hcs ih =>
      refine .closing (fun hhead => ?_) ih
      obtain ⟨cs', rfl⟩ := List.head?_eq_some_iff.mp hhead
      exact hcs cs' rfl
  | case6 c cs _ _ hopening hclosing ih => exact .char ⟨hopening, hclosing⟩ ih

/-- A text is marked in one way only. -/
theorem Marked.unique {cs : List Char} {ms ms' : List Mark} (h : Marked cs ms)
    (h' : Marked cs ms') : ms = ms' := by
  induction h generalizing ms' with
  | nil =>
      cases h'
      rfl
  | char hbrace h ih =>
      cases h' with
      | char _ h' => rw [ih h']
      | doubled hb h' => exact absurd hb (by simp [hbrace])
      | opening _ h' => exact absurd rfl hbrace.1
      | closing _ h' => exact absurd rfl hbrace.2
  | doubled hb h ih =>
      cases h' with
      | char hbrace h' => exact absurd hb (by simp [hbrace])
      | doubled _ h' => rw [ih h']
      | opening hcs h' => exact absurd rfl hcs
      | closing hcs h' => exact absurd rfl hcs
  | opening hcs h ih =>
      cases h' with
      | char hbrace h' => exact absurd rfl hbrace.1
      | doubled _ h' => exact absurd rfl hcs
      | opening _ h' => rw [ih h']
  | closing hcs h ih =>
      cases h' with
      | char hbrace h' => exact absurd rfl hbrace.2
      | doubled _ h' => exact absurd rfl hcs
      | closing _ h' => rw [ih h']

theorem marks_eq {cs : List Char} {ms : List Mark} (h : Marked cs ms) : marks cs = ms :=
  (marked_marks cs).unique h

/-- A capture may stand in front of a slash or nothing; a brace is no slash, doubled or not. -/
theorem mayFollow_marks_iff (cs : List Char) :
    mayFollow (marks cs) = true ↔ ∀ d ∈ cs.head?, d = '/' := by
  have hmarked := marked_marks cs
  generalize marks cs = ms at hmarked
  cases hmarked <;> simp [mayFollow]

theorem marks_eq_nil_iff (cs : List Char) : marks cs = [] ↔ cs = [] := by
  have hmarked := marked_marks cs
  generalize marks cs = ms at hmarked
  cases hmarked <;> simp

/-! ## §3. Parts. -/

/-- Behind its first character, a name has no star and no slash. -/
theorem partsOf_char {read : List Char} (hread : read ≠ []) (c : Char) (ms : List Mark) :
    partsOf (some read) (.char c :: ms)
      = if c = '*' ∨ c = '/' then none else partsOf (some (c :: read)) ms := by
  cases read with
  | nil => exact absurd rfl hread
  | cons d read =>
      show (if (c == '*' || c == '/') = true then none else partsOf (some (c :: d :: read)) ms) = _
      simp only [Bool.or_eq_true, beq_iff_eq]

theorem partsOf_opening {read : List Char} (hread : read ≠ []) (ms : List Mark) :
    partsOf (some read) (.opening :: ms) = partsOf (some ('{' :: read)) ms := by
  cases read with
  | nil => exact absurd rfl hread
  | cons d read => rfl

/-- The first character of a name is no closing brace. -/
theorem partsOf_first (c : Char) (ms : List Mark) :
    partsOf (some []) (.char c :: ms) = if c = '}' then none else partsOf (some [c]) ms := by
  have hfirst : endsName [] c = (c == '}') := if_pos rfl
  show (if endsName [] c = true then none else partsOf (some [c]) ms) = _
  simp only [hfirst, beq_iff_eq]

/-- What a name and its closing brace stand for: what is left of the path, if a star begins it and
nothing follows, or else a capture in front of a slash or nothing. -/
theorem partsOf_closing_eq_some_iff (c : Char) (name : List Char) (ms : List Mark) (p : Pattern) :
    partsOf (some (c :: name).reverse) (.closing :: ms) = some p
      ↔ (c = '*' ∧ name ≠ [] ∧ ms = [] ∧ p = [.rest (String.ofList name)])
        ∨ (c ≠ '*' ∧ mayFollow ms = true
          ∧ ∃ q, partsOf none ms = some q ∧ p = .capture (String.ofList (c :: name)) :: q) := by
  rw [partsOf, List.reverse_reverse]
  split
  · next h => cases h
  · next h =>
      cases h
      simp
  · next n hn h =>
      cases h
      have hne : name ≠ [] := by
        rintro rfl
        exact hn rfl
      simp [hne, eq_comm (a := p)]
  · next hstar =>
      have hc : c ≠ '*' := by
        rintro rfl
        exact hstar name rfl
      simp [hc, eq_comm (a := p)]

/-- **A written name is read up to its brace**, whatever follows that may. -/
theorem partsOf_name {name raw behind : List Char} (h : NameWritten name raw)
    (hbehind : ∀ d ∈ behind.head?, d = '/') {read : List Char} (hread : read ≠ []) :
    partsOf (some read) (marks (raw ++ '}' :: behind))
      = partsOf (some (name.reverse ++ read)) (.closing :: marks behind) := by
  -- The name is taken apart from its front, where `read` grows.
  induction h generalizing read with
  | nil =>
      have hbrace : behind.head? ≠ some '}' := by
        intro h
        exact absurd (hbehind '}' h) (by decide)
      exact congrArg (partsOf (some read)) (marks_eq (.closing hbrace (marked_marks behind)))
  | @char c name raw hbrace hends h ih =>
      have hallowed : ¬ (c = '*' ∨ c = '/') := not_or.mpr hends
      rw [List.cons_append, marks_eq (.char hbrace (marked_marks _)), partsOf_char hread,
        if_neg hallowed, ih (List.cons_ne_nil c read), List.reverse_cons, List.append_assoc]
      rfl
  | @doubled b name raw hb h ih =>
      have hallowed : ¬ (b = '*' ∨ b = '/') := by rcases hb with rfl | rfl <;> decide
      rw [List.cons_append, List.cons_append, marks_eq (.doubled hb (marked_marks _)),
        partsOf_char hread, if_neg hallowed, ih (List.cons_ne_nil b read), List.reverse_cons,
        List.append_assoc]
      rfl
  | @opening name raw hraw h ih =>
      have hbrace : (raw ++ '}' :: behind).head? ≠ some '{' := by
        cases raw with
        | nil => simp
        | cons c raw => simpa using hraw
      rw [List.cons_append, marks_eq (.opening hbrace (marked_marks _)), partsOf_opening hread,
        ih (List.cons_ne_nil '{' read), List.reverse_cons, List.append_assoc]
      rfl

/-- What is read as a name is a written form of it, behind which stands a brace. -/
theorem exists_name_of_partsOf {read cs : List Char} {p : Pattern} (hread : read ≠ [])
    (h : partsOf (some read) (marks cs) = some p) :
    ∃ name raw behind, cs = raw ++ '}' :: behind ∧ NameWritten name raw
      ∧ partsOf (some (name.reverse ++ read)) (.closing :: marks behind) = some p := by
  have hmarked := marked_marks cs
  generalize marks cs = ms at h hmarked
  -- A brace that closes ends the name, and any other mark goes on with it.
  induction hmarked generalizing read with
  | nil => cases h
  | @char c cs ms hbrace hcs ih =>
      rw [partsOf_char hread] at h
      obtain ⟨hends, h⟩ := Option.ite_none_left_eq_some.mp h
      obtain ⟨name, raw, behind, rfl, hname, hclosed⟩ := ih (List.cons_ne_nil c read) h
      exact ⟨c :: name, _, behind, rfl, .char hbrace (not_or.mp hends) hname,
        by simpa using hclosed⟩
  | @doubled b cs ms hb hcs ih =>
      rw [partsOf_char hread] at h
      obtain ⟨-, h⟩ := Option.ite_none_left_eq_some.mp h
      obtain ⟨name, raw, behind, rfl, hname, hclosed⟩ := ih (List.cons_ne_nil b read) h
      exact ⟨b :: name, _, behind, rfl, .doubled hb hname, by simpa using hclosed⟩
  | @opening cs ms hhead hcs ih =>
      rw [partsOf_opening hread] at h
      obtain ⟨name, raw, behind, rfl, hname, hclosed⟩ := ih (List.cons_ne_nil '{' read) h
      have hraw : raw.head? ≠ some '{' := by
        cases raw with
        | nil => simp
        | cons c raw => simpa using hhead
      exact ⟨'{' :: name, _, behind, rfl, .opening hraw hname, by simpa using hclosed⟩
  | @closing cs ms hhead hcs ih =>
      rw [← marks_eq hcs] at h
      exact ⟨[], [], cs, rfl, .nil, h⟩

/-- What is read behind an opening brace is a name and its brace. -/
theorem exists_capture_of_partsOf {cs : List Char} {p : Pattern} (hhead : cs.head? ≠ some '{')
    (h : partsOf (some []) (marks cs) = some p) :
    ∃ c name raw behind, (c ≠ '{' ∧ c ≠ '}') ∧ cs = c :: (raw ++ '}' :: behind)
      ∧ NameWritten name raw
      ∧ partsOf (some (c :: name).reverse) (.closing :: marks behind) = some p := by
  have hmarked := marked_marks cs
  generalize marks cs = ms at h hmarked
  cases hmarked with
  | nil => cases h
  | @char c cs ms hbrace hcs =>
      rw [partsOf_first, if_neg hbrace.2, ← marks_eq hcs] at h
      obtain ⟨name, raw, behind, rfl, hname, hclosed⟩ :=
        exists_name_of_partsOf (List.cons_ne_nil c []) h
      rw [← List.reverse_cons] at hclosed
      exact ⟨c, name, raw, behind, hbrace, rfl, hname, hclosed⟩
  | doubled hb hcs =>
      -- a doubled opening brace does not stand here, and a closing one begins no name
      obtain rfl := hb.resolve_left fun hb => hhead (by rw [hb]; rfl)
      rw [partsOf_first, if_pos rfl] at h
      cases h
  | opening _ hcs => exact absurd rfl hhead
  | closing _ hcs => cases h

/-! ## §4. Patterns. -/

/-- Every written form of a pattern is read as that pattern. -/
theorem partsOf_written {p : Pattern} {cs : List Char} (h : p.Written cs) :
    partsOf none (marks cs) = some p := by
  induction h with
  | nil => rfl
  | char hbrace h ih =>
      rw [marks_eq (.char hbrace (marked_marks _))]
      exact congrArg (Option.map _) ih
  | doubled hb h ih =>
      rw [marks_eq (.doubled hb (marked_marks _))]
      exact congrArg (Option.map _) ih
  | @capture c name raw behind p hbrace hstar hname hbehind h ih =>
      have hhead : (c :: (raw ++ '}' :: behind)).head? ≠ some '{' := by simpa using hbrace.1
      have hclosed := (partsOf_closing_eq_some_iff c name (marks behind) _).mpr
        (.inr ⟨hstar, (mayFollow_marks_iff behind).mpr hbehind, p, ih, rfl⟩)
      rw [List.reverse_cons] at hclosed
      rw [marks_eq (.opening hhead (.char hbrace (marked_marks _)))]
      show partsOf (some []) _ = _
      rw [partsOf_first, if_neg hbrace.2, partsOf_name hname hbehind (List.cons_ne_nil c []),
        hclosed]
  | @rest name raw hname hne =>
      have hclosed := (partsOf_closing_eq_some_iff '*' name (marks []) _).mpr
        (.inl ⟨rfl, hne, rfl, rfl⟩)
      rw [List.reverse_cons] at hclosed
      rw [marks_eq (.opening (by simp) (.char (by decide) (marked_marks _)))]
      show partsOf (some []) _ = _
      rw [partsOf_first, if_neg (by decide), partsOf_name hname (by simp) (List.cons_ne_nil '*' []),
        hclosed]

/-- Whatever is read as a pattern is a written form of it. -/
theorem written_of_partsOf {cs : List Char} {p : Pattern}
    (h : partsOf none (marks cs) = some p) : p.Written cs := by
  -- Behind a capture reading goes on where its name ends, not at the next character.
  induction hlength : cs.length using Nat.strongRecOn generalizing cs p with
  | ind n ih =>
      subst hlength
      have hmarked := marked_marks cs
      generalize marks cs = ms at h hmarked
      cases hmarked with
      | nil =>
          cases h
          exact .nil
      | char hbrace hcs =>
          rw [← marks_eq hcs] at h
          obtain ⟨q, hq, rfl⟩ := Option.map_eq_some_iff.mp h
          exact .char hbrace (ih _ (by simp) hq rfl)
      | doubled hb hcs =>
          rw [← marks_eq hcs] at h
          obtain ⟨q, hq, rfl⟩ := Option.map_eq_some_iff.mp h
          exact .doubled hb (ih _ (by simp only [List.length_cons]; omega) hq rfl)
      | opening hhead hcs =>
          rw [← marks_eq hcs] at h
          obtain ⟨c, name, raw, behind, hbrace, rfl, hname, hclosed⟩ :=
            exists_capture_of_partsOf hhead h
          rcases (partsOf_closing_eq_some_iff c name _ p).mp hclosed with
            ⟨rfl, hne, hend, rfl⟩ | ⟨hstar, hfollow, q, hq, rfl⟩
          · obtain rfl := (marks_eq_nil_iff behind).mp hend
            exact .rest hname hne
          · have hshorter : behind.length < ('{' :: c :: (raw ++ '}' :: behind)).length := by
              simp only [List.length_cons, List.length_append]
              omega
            exact .capture hbrace hstar hname ((mayFollow_marks_iff behind).mp hfollow)
              (ih _ hshorter hq rfl)
      | closing hhead hcs => cases h

theorem written_iff (p : Pattern) (cs : List Char) :
    p.Written cs ↔ partsOf none (marks cs) = some p :=
  ⟨partsOf_written, written_of_partsOf⟩

/-- A segment begins with a colon or a star where one of them stands behind a slash, or at the very
beginning if a segment begins there. -/
theorem hasReserved_iff (start : Bool) (cs : List Char) :
    hasReserved start cs = true
      ↔ (start = true ∧ (cs.head? = some ':' ∨ cs.head? = some '*'))
        ∨ ['/', ':'] <:+: cs ∨ ['/', '*'] <:+: cs := by
  induction cs generalizing start with
  | nil => simp [hasReserved]
  | cons c cs ih =>
      -- Either it stands right here, or a segment begins behind a slash, or it stands further on.
      have hprefix : ∀ d : Char, ['/', d] <+: c :: cs ↔ c = '/' ∧ cs.head? = some d := by
        intro d
        cases cs <;> simp [List.cons_prefix_cons, eq_comm]
      rw [hasReserved, Bool.or_eq_true, ih, List.infix_cons_iff, List.infix_cons_iff, hprefix,
        hprefix]
      simp only [Bool.and_eq_true, Bool.or_eq_true, beq_iff_eq, List.head?_cons, Option.some.injEq]
      grind

/-- **A path that a route can be registered with**, if it begins with a slash. -/
structure Routable (path : String) (p : Pattern) : Prop where
  /-- No segment begins with a colon. -/
  noColon : ¬ ['/', ':'] <:+: path.toList
  /-- No segment begins with a star. -/
  noStar : ¬ ['/', '*'] <:+: path.toList
  /-- Braces are doubled or are those of captures. -/
  written : p.Written path.toList
  /-- There are not too many captures. -/
  few : p.countP Part.isCapture ≤ captureLimit

/-- **Which paths are read as patterns.** -/
theorem Pattern.parse_eq_some_iff {path : String} (habsolute : path.toList.head? = some '/')
    (p : Pattern) : Pattern.parse path = some p ↔ Routable path p := by
  have hreserved : hasReserved true path.toList = true
      ↔ ['/', ':'] <:+: path.toList ∨ ['/', '*'] <:+: path.toList := by
    rw [hasReserved_iff, habsolute]
    simp
  unfold Pattern.parse
  dsimp only
  rw [habsolute]
  by_cases h : hasReserved true path.toList = true
  · -- Nothing is read where a segment is reserved.
    simp only [h, Bool.or_true, if_true, reduceCtorEq, false_iff]
    intro hroutable
    exact (hreserved.mp h).elim hroutable.noColon hroutable.noStar
  · obtain ⟨hcolon, hstar⟩ := not_or.mp (mt hreserved.mpr h)
    simp only [h, bne_self_eq_false, Bool.or_false, Bool.false_eq_true, if_false,
      Option.filter_eq_some_iff, decide_eq_true_eq, ← written_iff]
    exact ⟨fun ⟨hwritten, hfew⟩ => ⟨hcolon, hstar, hwritten, hfew⟩,
      fun hroutable => ⟨hroutable.written, hroutable.few⟩⟩

/-- A doubled brace stands within a name, but does not begin one. -/
example : Pattern.parse "/\x7ba\x7d\x7d\x7d" = some [.char '/', .capture "a\x7d"]
    ∧ Pattern.parse "/\x7b\x7d\x7da\x7d" = none := by
  decide

end Http

/-! ## §5. Settings that were accepted. -/

namespace Config

/-- Settings are not accepted without being checked. -/
theorem validate_of_parse {env : Environment} {text : String} {c : Config}
    (h : Config.parse env text = .ok c) : c.validate = .ok () := by
  unfold Config.parse at h
  obtain ⟨expanded, -, h⟩ := Template.bind_eq_ok_iff.mp h
  obtain ⟨config, -, h⟩ := Template.bind_eq_ok_iff.mp h
  obtain ⟨u, hchecked, h⟩ := Template.bind_eq_ok_iff.mp h
  obtain rfl : config = c := Except.ok.inj h
  cases hvalid : config.validate with
  | error fault =>
      rw [hvalid] at hchecked
      cases hchecked
  | ok u => rfl

/-- All that is checked of the health path: it begins with a slash. -/
theorem absolute_of_validate {c : Config} (h : c.validate = .ok ())
    (henabled : c.server.health.enabled = true) :
    c.server.health.path.toList.head? = some '/' := by
  obtain ⟨u, hhealth, -⟩ := Template.bind_eq_ok_iff.mp h
  unfold validateHealth at hhealth
  by_contra hrelative
  have habsolute : isAbsolute c.server.health.path = false := by
    simpa [isAbsolute] using hrelative
  rw [henabled, habsolute] at hhealth
  cases hhealth

end Config

/-! ## §6. Building the server. -/

namespace Server

/-- A route that is registered first is registered if its path is a pattern. -/
theorem registerAll_singleton (route : Route α) :
    registerAll [] [route]
      = match Pattern.parse route.path with
        | none => .error (.malformed route.path)
        | some p => .ok [⟨route.path, p, route.endpoint⟩] := by
  show (register [] route >>= fun registered => registerAll registered []) = _
  unfold register mergeAt
  dsimp only
  cases Pattern.parse route.path <;> rfl

/-- **What becomes of building a server that has nothing but its health endpoint.** -/
inductive Built (c : Config) : Except RouteFault Server → Prop where
  | disabled {s : Server} (h : c.server.health.enabled = false) (hroutes : s.routes = []) :
      Built c (.ok s)
  | served {s : Server} {p : Pattern} (h : c.server.health.enabled = true)
      (hroutable : Routable c.server.health.path p)
      (hroutes : s.routes = [⟨c.server.health.path, p, .on "GET" health⟩]) : Built c (.ok s)
  | refused (h : c.server.health.enabled = true)
      (hroutable : ∀ p, ¬ Routable c.server.health.path p) :
      Built c (.error (.malformed c.server.health.path))

theorem built_bare {c : Config} (h : c.validate = .ok ()) : Built c (bare c) := by
  cases henabled : c.server.health.enabled with
  | false =>
      have hown : ownRoutes c = [] := by simp [ownRoutes, henabled]
      unfold bare withRoutes
      rw [hown]
      exact .disabled henabled rfl
  | true =>
      have hown : ownRoutes c = [⟨c.server.health.path, .on "GET" health⟩] := by
        simp [ownRoutes, henabled]
      have hpattern := Pattern.parse_eq_some_iff (Config.absolute_of_validate h henabled)
      unfold bare withRoutes
      rw [hown, List.append_nil, registerAll_singleton]
      dsimp only
      cases hparse : Pattern.parse c.server.health.path with
      | none =>
          refine .refused henabled fun p hroutable => ?_
          rw [(hpattern p).mpr hroutable] at hparse
          cases hparse
      | some p => exact .served henabled ((hpattern p).mp hparse) rfl

/-- **Accepted settings have a server exactly if their health path is routable** or the health
endpoint is disabled.  The server then has the health route or none, and the fault is otherwise
that the path is no pattern. -/
theorem accepted_is_served_iff {env : Environment} {text : String} {c : Config}
    (h : Config.parse env text = .ok c) :
    ((∃ s, bare c = .ok s)
      ↔ (c.server.health.enabled = true → ∃ p, Routable c.server.health.path p))
    ∧ (∀ s, bare c = .ok s → s.routes.map Registered.path = (ownRoutes c).map Route.path)
    ∧ ∀ fault, bare c = .error fault → fault = .malformed c.server.health.path := by
  have hbuilt := built_bare (Config.validate_of_parse h)
  generalize bare c = result at hbuilt
  cases hbuilt with
  | disabled henabled hroutes =>
      refine ⟨by simp [henabled], fun s hs => ?_, fun fault hfault => (nomatch hfault)⟩
      cases hs
      simp [ownRoutes, henabled, hroutes]
  | @served s p henabled hroutable hroutes =>
      refine ⟨⟨fun _ _ => ⟨p, hroutable⟩, fun _ => ⟨s, rfl⟩⟩, fun s hs => ?_,
        fun fault hfault => (nomatch hfault)⟩
      cases hs
      simp [ownRoutes, henabled, hroutes]
  | refused henabled hroutable =>
      refine ⟨⟨fun ⟨s, hs⟩ => (nomatch hs), fun hall => ?_⟩, fun s hs => (nomatch hs),
        fun fault hfault => (Except.error.inj hfault).symm⟩
      obtain ⟨p, hp⟩ := hall henabled
      exact absurd hp (hroutable p)

/-- A path that is captured as a whole is routable, and served. -/
theorem accepted_is_served_rest :
    ∃ c s, Config.parse ⟨[]⟩ "[server.health]\npath = \"/\x7b*all\x7d\"" = .ok c
      ∧ bare c = .ok s ∧ s.routes.map Registered.path = ["/\x7b*all\x7d"] := by
  have hread : (Config.parse ⟨[]⟩ "[server.health]\npath = \"/\x7b*all\x7d\"").toOption.map
      (fun c => (c.server.health.enabled, c.server.health.path))
      = some (true, "/\x7b*all\x7d") := by
    decide +kernel
  obtain ⟨c, hparse, hhealth⟩ := exists_eq_ok_of_map_toOption hread
  obtain ⟨henabled, hpath⟩ := Prod.mk.inj hhealth
  obtain ⟨hserved, hroutes, -⟩ := accepted_is_served_iff hparse
  have hroutable : Routable c.server.health.path [.char '/', .rest "all"] := by
    rw [hpath]
    exact (Pattern.parse_eq_some_iff rfl _).mp (by decide +kernel)
  obtain ⟨s, hs⟩ := hserved.mpr fun _ => ⟨_, hroutable⟩
  refine ⟨c, s, hparse, hs, ?_⟩
  rw [hroutes s hs]
  simp [ownRoutes, henabled, hpath]

/-- **Accepted, and not served**: no server can be built with a health path of which a segment
begins with a colon, though nothing is said of it when the settings are read. -/
theorem accepted_with_reserved_segment :
    ∃ c, Config.parse ⟨[]⟩ "[server.health]\npath = \"/:health\"" = .ok c
      ∧ bare c = .error (.malformed "/:health") := by
  have hread : (Config.parse ⟨[]⟩ "[server.health]\npath = \"/:health\"").toOption.map
      (fun c => (c.server.health.path, (bare c).toOption.isSome)) = some ("/:health", false) := by
    decide +kernel
  obtain ⟨c, hparse, hends⟩ := exists_eq_ok_of_map_toOption hread
  obtain ⟨hpath, hnone⟩ := Prod.mk.inj hends
  refine ⟨c, hparse, ?_⟩
  have hbuilt := built_bare (Config.validate_of_parse hparse)
  generalize bare c = result at hbuilt hnone
  cases hbuilt with
  | disabled => cases hnone
  | served => cases hnone
  | refused => rw [hpath]

end Server

end ErrorContract
