/-
  ErrorContract.Http.Router
  ─────────────────────────
  **FINDING WHO ANSWERS A PATH.**

  Routes are kept with their patterns.  A path is matched from left to
  right; where a character of a pattern stands, that beats a capture, and a
  capture beats nothing.  When what looked better leads nowhere, the search
  comes back to the capture.

  A route serves some methods, and possibly all others.  One path may be
  registered more than once, as long as no method is.
-/
import ErrorContract.Http.Pattern

namespace ErrorContract.Http

/-! ## §1. Endpoints. -/

/-- Who answers at a path. -/
structure Endpoint (α : Type) where
  /-- Who answers a method, in order of registration. -/
  methods : List (String × α)
  /-- Who answers all other methods. -/
  others : Option α := none

namespace Endpoint

/-- An endpoint for one method. -/
def on (method : String) (handler : α) : Endpoint α := ⟨[(method, handler)], none⟩

/-- An endpoint for every method. -/
def any (handler : α) : Endpoint α := ⟨[], some handler⟩

/-- Who answers a method; `HEAD` is answered by who answers `GET`. -/
def handler? (e : Endpoint α) (method : String) : Option α :=
  (e.methods.lookup method).or <|
    (if method = "HEAD" then e.methods.lookup "GET" else none).or e.others

/-- The methods that are named when one is refused; none if none is. -/
def allowed (e : Endpoint α) : Option String :=
  if e.others.isSome then none
  else some <| String.intercalate "," <|
    e.methods.map fun (method, _) => if method = "GET" then "GET,HEAD" else method

/-- Two endpoints as one, unless they answer the same method. -/
def merge (a b : Endpoint α) : Option (Endpoint α) :=
  if a.methods.any fun (method, _) => (b.methods.lookup method).isSome then none
  else if a.others.isSome && b.others.isSome then none
  else some ⟨a.methods ++ b.methods, a.others.or b.others⟩

end Endpoint

/-! ## §2. Routes. -/

/-- A path and who answers there. -/
structure Route (α : Type) where
  path : String
  endpoint : Endpoint α

/-- A registered route. -/
structure Registered (α : Type) where
  /-- The path as it was written. -/
  path : String
  pattern : Pattern
  endpoint : Endpoint α

/-- Why a route cannot be registered. -/
inductive RouteFault where
  /-- The path is no pattern. -/
  | malformed (path : String)
  /-- The pattern conflicts with one that is registered. -/
  | conflict (path : String)
  /-- A method is already answered at this path. -/
  | overlap (path : String)
  deriving Repr, DecidableEq

/-- Add an endpoint to the one at the same path, if there is one. -/
def mergeAt (path : String) (endpoint : Endpoint α) :
    List (Registered α) → Option (Except RouteFault (List (Registered α)))
  | [] => none
  | r :: rest =>
    if r.path == path then
      match r.endpoint.merge endpoint with
      | some both => some (.ok ({ r with endpoint := both } :: rest))
      | none => some (.error (.overlap path))
    else (mergeAt path endpoint rest).map fun result => result.map (r :: ·)

/-- **Register a route.** -/
def register (routes : List (Registered α)) (route : Route α) :
    Except RouteFault (List (Registered α)) :=
  match mergeAt route.path route.endpoint routes with
  | some result => result
  | none =>
    match Pattern.parse route.path with
    | none => .error (.malformed route.path)
    | some pattern =>
      if routes.any fun r => r.pattern.conflict pattern then .error (.conflict route.path)
      else .ok (routes ++ [⟨route.path, pattern, route.endpoint⟩])

/-- Register routes one after the other. -/
def registerAll (routes : List (Registered α)) : List (Route α) → Except RouteFault (List (Registered α))
  | [] => .ok routes
  | route :: rest => do registerAll (← register routes route) rest

/-! ## §3. Matching. -/

/-- What patterns captured: names and texts, nothing decoded, in the order of the path. -/
abbrev Captures := List (String × List Char)

/-- A route that may still match: what is left of its pattern, and what was captured. -/
structure Candidate (α : Type) where
  pattern : Pattern
  captures : Captures
  endpoint : Endpoint α

namespace Candidate

/-- Take a character of the path as one of the pattern. -/
def takeChar (c : Char) (k : Candidate α) : Option (Candidate α) :=
  match k.pattern with
  | .char d :: p => if c = d then some { k with pattern := p } else none
  | _ => none

/-- Take a text of the path as a capture. -/
def takeCapture (text : List Char) (k : Candidate α) : Option (Candidate α) :=
  match k.pattern with
  | .capture name :: p => some { k with pattern := p, captures := k.captures ++ [(name, text)] }
  | _ => none

/-- Take all that is left of the path. -/
def takeRest (text : List Char) (k : Candidate α) : Option (Candidate α) :=
  match k.pattern with
  | .rest name :: _ => some { k with pattern := [], captures := k.captures ++ [(name, text)] }
  | _ => none

end Candidate

/-- The text up to the next slash, and what follows that slash, if there is one. -/
def splitSegment : List Char → List Char × Option (List Char)
  | [] => ([], none)
  | c :: cs =>
    if c = '/' then ([], some cs)
    else
      let (segment, rest) := splitSegment cs
      (c :: segment, rest)

/-- What follows a slash is shorter. -/
theorem length_splitSegment {cs rest : List Char} (h : (splitSegment cs).2 = some rest) :
    rest.length < cs.length := by
  induction cs with
  | nil => simp [splitSegment] at h
  | cons c cs ih =>
    simp only [splitSegment] at h
    split at h
    · simp only [Option.some.injEq] at h
      simp [h]
    · have := ih h
      simp only [List.length_cons]
      omega

/-- **The candidate that matches a path**, characters before captures. -/
def findMatch (ks : List (Candidate α)) (path : List Char) : Option (Candidate α) :=
  match ks, path with
  | [], _ => none
  | k :: ks, [] => (k :: ks).find? fun k => k.pattern.isEmpty
  | k :: ks, c :: cs =>
    (findMatch ((k :: ks).filterMap (·.takeChar c)) cs).or <|
      Option.or
        (match _rest : splitSegment (c :: cs) with
          | (segment, none) =>
            ((k :: ks).filterMap (·.takeCapture segment)).find? fun k => k.pattern.isEmpty
          | (segment, some after) =>
            findMatch
              ((k :: ks).filterMap fun k => (k.takeCapture segment).bind (·.takeChar '/')) after)
        ((k :: ks).findSome? (·.takeRest (c :: cs)))
termination_by path.length
decreasing_by
  · simp
  · exact length_splitSegment (by rw [_rest])

/-- A registered route before any of the path was read. -/
def Registered.candidate (r : Registered α) : Candidate α := ⟨r.pattern, [], r.endpoint⟩

/-- **Who answers at a path, and what its pattern captured.** -/
def findRoute (routes : List (Registered α)) (path : String) : Option (Endpoint α × Captures) :=
  (findMatch (routes.map Registered.candidate) path.toList).map fun k => (k.endpoint, k.captures)

end ErrorContract.Http
