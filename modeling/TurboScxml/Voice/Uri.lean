import TurboScxml.Basic
import TurboScxml.Lib.UriReference

/-!
# URIs of the document store

`voicexml_document_store.c`: the parser of absolute URIs, the normaliser of their paths and the
resolution of references.

* `parseAbsoluteUri`, `normalizeAbsoluteUri`: the buffer and the stack of cursor positions;
* `target`: what a reference denotes by RFC 3986.
-/

namespace TurboScxml.Voice

/-! ## Parsing -/

def uriBytesValid (uri : Text) : Bool :=
  uri ≠ [] && uri.all fun c => !(c.toNat ≤ 0x20 || c.toNat == 0x7f)

def schemeChar (c : Char) (first : Bool) : Bool :=
  if first then ('A' ≤ c && c ≤ 'Z') || ('a' ≤ c && c ≤ 'z')
  else
    ('A' ≤ c && c ≤ 'Z') || ('a' ≤ c && c ≤ 'z') || ('0' ≤ c && c ≤ '9') || c == '+' || c == '-' ||
      c == '.'

def schemeChars : Text → Bool
  | [] => false
  | c :: rest => schemeChar c true && rest.all fun c => schemeChar c false

/-- The loop of `find_scheme`. -/
def scanScheme (before : Text) : Text → Option (Text × Text)
  | [] => none
  | c :: rest =>
    if c = ':' then if schemeChars before then some (before, rest) else none
    else if c = '/' ∨ c = '?' ∨ c = '#' then none
    else scanScheme (before ++ [c]) rest

def findScheme (uri : Text) : Option (Text × Text) :=
  if uriBytesValid uri then scanScheme [] uri else none

/-- `uri_parts`; the query keeps its question mark. -/
structure UriParts where
  scheme : Text
  authority : Option Text
  path : Text
  query : Text
  deriving DecidableEq

/-- The bytes in front of `path_start`. -/
def UriParts.front (p : UriParts) : Text :=
  p.scheme ++ ':' :: (match p.authority with
    | some authority => '/' :: '/' :: authority
    | none => [])

def splitQuery (rest : Text) : Text × Text :=
  (rest.takeWhile fun c => c ≠ '?', rest.dropWhile fun c => c ≠ '?')

def parseAbsoluteUri (uri : Text) : Option UriParts :=
  match findScheme uri with
  | none => none
  | some (scheme, rest) =>
    if '#' ∈ uri then none
    else
      match rest with
      | '/' :: '/' :: rest =>
        let authority := rest.takeWhile fun c => c ≠ '/' && c ≠ '?'
        let rest := rest.dropWhile fun c => c ≠ '/' && c ≠ '?'
        if authority = [] then none
        else some ⟨scheme, some authority, (splitQuery rest).1, (splitQuery rest).2⟩
      | rest => some ⟨scheme, none, (splitQuery rest).1, (splitQuery rest).2⟩

/-! ## Normalisation -/

variable (capacity : ℕ)

def appendBytes (out data : Text) : Option Text :=
  if capacity - out.length < data.length then none else some (out ++ data)

/-- The output of the normaliser, and its cursors. -/
structure Normalizer where
  out : Text
  segments : List ℕ
  deriving DecidableEq

def separate (out : Text) : Option Text :=
  if out ≠ [] ∧ out.getLast? ≠ some '/' then appendBytes capacity out ['/'] else some out

def pushSegment (n : Normalizer) (segment : Text) : Option Normalizer :=
  (separate capacity n.out).bind fun out =>
    (appendBytes capacity out segment).map fun out' => ⟨out', out.length :: n.segments⟩

def rolledBack (out : Text) (leading : Bool) (pathStart position : ℕ) : ℕ :=
  let cursor :=
    if position ≠ 0 ∧ out[position - 1]? = some '/' ∧ ¬ (leading = true ∧ position = pathStart + 1)
    then position - 1 else position
  if leading = true ∧ cursor = pathStart then cursor + 1 else cursor

/-- One round of the loop of `normalize_absolute_uri`. -/
def normalizeSegment (leading : Bool) (pathStart : ℕ) (n : Normalizer)
    (segment : Text) : Option Normalizer :=
  if segment = [] ∨ segment = ['.'] then some n
  else if segment = ['.', '.'] then
    match n.segments with
    | position :: rest => some ⟨n.out.take (rolledBack n.out leading pathStart position), rest⟩
    | [] => if leading then some n else pushSegment capacity n segment
  else pushSegment capacity n segment

/-- The loop of `normalize_absolute_uri`. -/
def normalizeSegments (capacity : ℕ) (leading : Bool) (pathStart : ℕ) :
    Normalizer → List Text → Option Normalizer
  | n, [] => some n
  | n, segment :: rest =>
    (normalizeSegment capacity leading pathStart n segment).bind fun n' =>
      normalizeSegments capacity leading pathStart n' rest

def closePath (trailing : Bool) (out : Text) : Option Text :=
  if trailing then separate capacity out else some out

/-- `normalize_absolute_uri`; `capacity` does not count the terminator. -/
def normalizeAbsoluteUri (uri : Text) : Option Text := do
  let parts ← parseAbsoluteUri uri
  let leading := parts.path.head? == some '/'
  let trailing := parts.path.getLast? == some '/'
  let out ← appendBytes capacity [] parts.front
  let out ← appendBytes capacity out (if leading then ['/'] else [])
  let n ← normalizeSegments capacity leading parts.front.length ⟨out, []⟩
    ((if leading then parts.path.tail else parts.path).splitOn '/')
  let out ← closePath capacity trailing n.out
  appendBytes capacity out parts.query

/-! ## Resolution -/

/-- The bytes of the base path up to its last slash. -/
def UriParts.directory (base : UriParts) : Text :=
  (base.path.reverse.dropWhile fun c => c ≠ '/').reverse

def relativeCandidate (base : UriParts) (reference : Text) : Option Text := do
  let out ← appendBytes capacity [] (base.front ++ base.directory)
  let out ← closePath capacity (base.authority.isSome && base.directory == []) out
  appendBytes capacity out reference

/-- `build_resolved_candidate`; `capacity` does not count the terminator. -/
def buildResolvedCandidate (base reference : Text) : Option Text :=
  match parseAbsoluteUri base with
  | none => none
  | some parts =>
    if reference ≠ [] ∧ uriBytesValid reference = false then none
    else if reference = [] then if capacity < base.length then none else some base
    else if (findScheme reference).isSome then
      if capacity < reference.length then none else some reference
    else if reference.take 2 = ['/', '/'] then
      (appendBytes capacity [] (parts.scheme ++ [':'])).bind (appendBytes capacity · reference)
    else if reference.head? = some '?' then
      (appendBytes capacity [] (parts.front ++ parts.path)).bind (appendBytes capacity · reference)
    else if reference.head? = some '/' then
      (appendBytes capacity [] parts.front).bind (appendBytes capacity · reference)
    else relativeCandidate capacity parts reference

/-- The `vxml_document_store_status` values of `resolve`. -/
inductive ResolveStatus
  | invalidUri | limitExceeded
  deriving DecidableEq

/-- What `vxml_document_store_resolve` reads of the store. -/
structure ResolveConfig where
  applicationUri : Text
  maxUriBytes : ℕ
  /-- `document_uri_capacity` and `fragment_capacity`. -/
  documentCapacity : ℕ
  fragmentCapacity : ℕ

def ResolveConfig.base (cfg : ResolveConfig) (documentUri : Text) : Text :=
  if documentUri ≠ [] then documentUri else cfg.applicationUri

def ResolveConfig.deliver (cfg : ResolveConfig) (fragment : Text) :
    Option Text → Except ResolveStatus (Text × Text)
  | none => .error .invalidUri
  | some normalized =>
    if cfg.documentCapacity ≤ normalized.length then .error .limitExceeded
    else .ok (normalized, fragment)

/-- `vxml_document_store_resolve`. -/
def resolve (cfg : ResolveConfig) (documentUri reference : Text) :
    Except ResolveStatus (Text × Text) :=
  let base := cfg.base documentUri
  if uriBytesValid base = false ∨ cfg.maxUriBytes < base.length then .error .invalidUri
  else
    let fetch := reference.takeWhile fun c => c ≠ '#'
    let hash := reference.dropWhile fun c => c ≠ '#'
    if hash ≠ [] ∧ cfg.fragmentCapacity ≤ hash.tail.length then .error .limitExceeded
    else
      cfg.deliver hash.tail ((buildResolvedCandidate cfg.maxUriBytes base fetch).bind
        (normalizeAbsoluteUri cfg.maxUriBytes))

def target (base reference : Text) : Text × Text :=
  let r := Uri.parse reference
  (Uri.recompose
    { Uri.transform Uri.removeDotSegments (Uri.parse base) r with fragment := none },
    r.fragment.getD [])

end TurboScxml.Voice
