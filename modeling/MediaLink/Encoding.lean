import MediaLink.Options
import MediaLink.Target

namespace MediaLink

/-- How a program holds an element: as a call that constructs it, or as an element literal. -/
inductive Encoding where
  | call
  | literal
deriving DecidableEq, Repr

namespace Encoding

variable {κ : Type}

def constructors : List String := ["_jsx", "_jsxs", "_jsxDEV"]

def componentsObject : String := "_components"

def suffixAttribute : String := "data-meta"

/-- Only a callee that is a plain name is asked to be a known one. -/
def mayConstruct : Tree κ → Bool
  | .node (.identifier name) _ => name ∈ constructors
  | _ => true

/-- The element that the first argument of a call names. -/
def argumentElement? (o : Options) : Tree κ → Option Element
  | .node (.string name _) _ => if o.excludes .html then none else Element.named? name
  | .node (.member property _) [.node (.identifier object) _] =>
    if o.excludes .markdown || object != componentsObject then none else Element.named? property
  | _ => none

def literalElement? (o : Options) : ElementName → Option Element
  | .plain name => if o.excludes .html then none else Element.namedIgnoringCase? name
  | .member (.plain object) property =>
    if o.excludes .markdown || object != componentsObject then none
    else Element.namedIgnoringCase? property
  | _ => none

/-- The element that the node encodes, and its attributes. -/
def match? (o : Options) : Encoding → Form κ → List (Tree κ) → Option (Element × List (Tree κ))
  | call, .call _, callee :: kind :: .node .object members :: _ =>
    if mayConstruct callee then (argumentElement? o kind).map (·, members) else none
  | literal, .opening name _, attributes => (literalElement? o name).map (·, attributes)
  | _, _, _ => none

def keyName? : Tree κ → Option String
  | .node (.identifier name) _ => some name
  | .node (.string name _) _ => some name
  | _ => none

def string? : Tree κ → Option String
  | .node (.string value _) [] => some value
  | _ => none

/-- The name and the value of an attribute that has a fixed name and a string for its value. -/
def text? : Tree κ → Option (String × String)
  | .node (.property traits) [key, value] =>
    if traits.computed then none else do return (← keyName? key, ← string? value)
  | .node (.attribute (.plain name)) [value] => (string? value).map (name, ·)
  | _ => none

/-- What the attribute is to become, if it is one to replace. -/
def target? (e : Element) (item : Tree κ) : Option Target := do
  let (name, value) ← text? item
  let role ← e.role? name
  Target.ofValue? role value

def targets (c : Encoding) (o : Options) (form : Form κ) (parts : List (Tree κ)) :
    List (Option Target) :=
  match c.match? o form parts with
  | some (e, attributes) => attributes.map (target? e)
  | none => []

def setValue (value : Tree κ) : Tree κ → Tree κ
  | .node (.property traits) [key, _] => .node (.property traits) [key, value]
  | .node (.attribute name) _ => .node (.attribute name) [.node .container [value]]
  | t => t

def setValues : List (Tree κ) → List (Option (Tree κ)) → List (Tree κ)
  | a :: as, some v :: vs => setValue v a :: setValues as vs
  | a :: as, none :: vs => a :: setValues as vs
  | as, _ => as

def suffixProperty (suffix : List Char) : Tree κ :=
  .node (.property {}) [.string suffixAttribute, .string (String.ofList suffix)]

def suffixLiteral (suffix : List Char) : Tree κ :=
  .node (.attribute (.plain suffixAttribute)) [.string (String.ofList suffix)]

/-- The parts of a node with new values for the attributes of its element, and the suffixes behind
all of them. -/
def graft (values : List (Option (Tree κ))) (suffixes : List (List Char)) :
    Encoding → List (Tree κ) → List (Tree κ)
  | call, callee :: kind :: .node .object members :: rest =>
    callee :: kind ::
      .node .object (setValues members values ++ suffixes.map suffixProperty) :: rest
  | call, parts => parts
  | literal, attributes => setValues attributes values ++ suffixes.map suffixLiteral

theorem match?_call {o : Options} {form : Form κ} {parts items : List (Tree κ)} {e : Element}
    (h : call.match? o form parts = some (e, items)) :
    ∃ opt callee kind rest,
      form = .call opt ∧ parts = callee :: kind :: .node .object items :: rest := by
  unfold match? at h
  split at h
  case h_1 opt callee kind members rest _ =>
    split at h
    case isTrue =>
      obtain ⟨_, _, hi⟩ := Option.map_eq_some_iff.mp h
      obtain ⟨-, rfl⟩ := Prod.mk.injEq .. ▸ hi
      exact ⟨opt, callee, kind, rest, rfl, rfl⟩
    case isFalse => cases h
  case h_2 hc => cases hc
  case h_3 => cases h

theorem match?_literal {o : Options} {form : Form κ} {parts items : List (Tree κ)} {e : Element}
    (h : literal.match? o form parts = some (e, items)) :
    ∃ name selfClosing, form = .opening name selfClosing ∧ parts = items := by
  unfold match? at h
  split at h
  case h_1 hc => cases hc
  case h_2 name selfClosing _ =>
    obtain ⟨_, _, hi⟩ := Option.map_eq_some_iff.mp h
    exact ⟨name, selfClosing, rfl, (Prod.mk.inj hi).2⟩
  case h_3 => cases h

theorem string?_eq_some {t : Tree κ} {value : String} (h : string? t = some value) :
    ∃ raw, t = .node (.string value raw) [] := by
  unfold string? at h
  split at h
  case h_1 raw =>
    obtain rfl := Option.some.inj h
    exact ⟨raw, rfl⟩
  case h_2 => cases h

theorem text?_eq_some {t : Tree κ} {a : String × String} (h : text? t = some a) :
    (∃ traits key value, t = .node (.property traits) [key, value] ∧ string? value = some a.2) ∨
      ∃ name value, t = .node (.attribute name) [value] ∧ string? value = some a.2 := by
  unfold text? at h
  split at h
  case h_1 traits key value =>
    obtain ⟨-, h⟩ := Option.ite_none_left_eq_some.mp h
    obtain ⟨_, -, h⟩ := Option.bind_eq_some_iff.mp h
    obtain ⟨_, hs, h⟩ := Option.bind_eq_some_iff.mp h
    obtain rfl := Option.some.inj h
    exact .inl ⟨traits, key, value, rfl, hs⟩
  case h_2 name value =>
    obtain ⟨_, hs, rfl⟩ := Option.map_eq_some_iff.mp h
    exact .inr ⟨.plain name, value, rfl, hs⟩
  case h_3 => cases h

theorem setValues_nil (items : List (Tree κ)) : setValues items [] = items := by
  cases items <;> rfl

theorem graft_nil (c : Encoding) (parts : List (Tree κ)) : c.graft [] [] parts = parts := by
  unfold graft
  split <;> simp [setValues_nil]

theorem four_le_height {t : Tree κ} {a : String × String} (h : text? t = some a) :
    4 ≤ t.height := by
  obtain ⟨traits, key, value, rfl, hs⟩ | ⟨name, value, rfl, hs⟩ := text?_eq_some h
  all_goals
    obtain ⟨raw, rfl⟩ := string?_eq_some hs
    simp only [Tree.height, Tree.heightAll, Form.weight]
    omega

theorem height_setValue_le {v t : Tree κ} {a : String × String} (hv : v.height ≤ 2)
    (h : text? t = some a) : (setValue v t).height ≤ t.height := by
  obtain ⟨traits, key, value, rfl, hs⟩ | ⟨name, value, rfl, hs⟩ := text?_eq_some h
  all_goals
    obtain ⟨raw, rfl⟩ := string?_eq_some hs
    simp only [setValue, Tree.height, Tree.heightAll, Form.weight]
    omega

theorem height_suffixProperty (s : List Char) : (suffixProperty s : Tree κ).height = 4 := rfl

theorem height_suffixLiteral (s : List Char) : (suffixLiteral s : Tree κ).height = 4 := rfl

end Encoding

end MediaLink
