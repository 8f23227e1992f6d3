namespace MediaLink

/-- An authored media reference cut into the path a bundler can resolve and the query or fragment
that has to be kept beside it. -/
structure Reference where
  path : List Char
  suffix : List Char
deriving DecidableEq, Repr

namespace Reference

def startsSuffix (c : Char) : Bool := c == '#' || c == '?'

def relative (raw : List Char) : List Char :=
  if raw.head? = some '.' then raw else '.' :: '/' :: raw

def ofRaw (raw : List Char) : Reference :=
  ⟨(relative raw).takeWhile (!startsSuffix ·), (relative raw).dropWhile (!startsSuffix ·)⟩

def text (r : Reference) : List Char := r.path ++ r.suffix

theorem text_ofRaw (raw : List Char) : (ofRaw raw).text = relative raw :=
  List.takeWhile_append_dropWhile

/-- Letters, then `://`, then anything but a third slash. -/
def isAbsolute (s : List Char) : Bool :=
  s.head?.any Char.isAlpha &&
    match s.dropWhile Char.isAlpha with
    | ':' :: '/' :: '/' :: rest => rest.head? != some '/'
    | _ => false

def closesPlaceholder (s : List Char) : Bool :=
  s.head? != some '%' &&
    match s.dropWhile (· != '%') with
    | '%' :: '7' :: 'D' :: _ => true
    | _ => false

def hasPlaceholder : List Char → Bool
  | [] => false
  | '%' :: '7' :: 'B' :: rest => closesPlaceholder rest || hasPlaceholder rest
  | _ :: rest => hasPlaceholder rest

/-- Whether the reference is to become an import: neither an absolute URL, nor rooted at the host,
nor a template that something else will fill in. -/
def isRewritable (s : List Char) : Bool :=
  !isAbsolute s && s.head? != some '/' && !hasPlaceholder s

end Reference

end MediaLink
