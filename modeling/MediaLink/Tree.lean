namespace MediaLink

structure Quasi where
  raw : String
  cooked : Option String
deriving DecidableEq, Repr

inductive ElementName where
  | plain (name : String)
  | member (object : ElementName) (property : String)
  | namespaced (space name : String)
deriving DecidableEq, Repr

def ElementName.text : ElementName → String
  | plain name => name
  | member object property => object.text ++ "." ++ property
  | namespaced space name => space ++ ":" ++ name

inductive AttributeName where
  | plain (name : String)
  | namespaced (space name : String)
deriving DecidableEq, Repr

def AttributeName.text : AttributeName → String
  | plain name => name
  | namespaced space name => space ++ ":" ++ name

inductive PropertyKind where
  | init
  | get
  | set
deriving DecidableEq, Repr

structure PropertyTraits where
  kind : PropertyKind := .init
  computed : Bool := false
  method : Bool := false
  shorthand : Bool := false
deriving DecidableEq, Repr

/-- What a node of a program is. Its parts stand below it, in the order they are visited:
* `member`: the object; `call`: the callee and the arguments; `object`: the members
* `property`: the key and the value; `template`: the expressions
* `opening`: the attributes; `attribute`: the value, if it has one; `container`: the expression
* `function`: the parameters and the body

Constructs of the language that linking only passes through are left to `κ`. -/
inductive Form (κ : Type) where
  | identifier (name : String)
  | string (value : String) (raw : Option String)
  | member (property : String) (isOptional : Bool)
  | call (isOptional : Bool)
  | object
  | property (traits : PropertyTraits)
  | template (quasis : List Quasi)
  | opening (name : ElementName) (selfClosing : Bool)
  | attribute (name : AttributeName)
  | container
  | function (name : Option String) (isAsync isGenerator : Bool)
  | defaultImport (name source : String)
  | other (construct : κ)
deriving DecidableEq

/-- A string weighs as much as a container with a template in it, which may take its place. -/
def Form.weight {κ : Type} : Form κ → Nat
  | string _ _ => 3
  | _ => 1

inductive Tree (κ : Type) where
  | node (form : Form κ) (parts : List (Tree κ))

namespace Tree

variable {κ : Type}

def form : Tree κ → Form κ
  | node f _ => f

def parts : Tree κ → List (Tree κ)
  | node _ ps => ps

def identifier (name : String) : Tree κ := node (.identifier name) []

def string (value : String) : Tree κ := node (.string value none) []

@[induction_eliminator]
theorem induction {motive : Tree κ → Prop}
    (node : ∀ form parts, (∀ t ∈ parts, motive t) → motive (.node form parts)) (t : Tree κ) :
    motive t :=
  Tree.rec (motive_2 := fun ts => ∀ t ∈ ts, motive t) (fun form parts ih => node form parts ih)
    (by simp) (fun t ts ht hts u hu => (List.mem_cons.mp hu).elim (fun h => h ▸ ht) (hts u)) t

mutual

def height : Tree κ → Nat
  | node form parts => form.weight + heightAll parts

def heightAll : List (Tree κ) → Nat
  | [] => 0
  | t :: ts => max (height t) (heightAll ts)

end

theorem heightAll_le_iff {ts : List (Tree κ)} {n : Nat} :
    heightAll ts ≤ n ↔ ∀ t ∈ ts, t.height ≤ n := by
  induction ts with
  | nil => simp [heightAll]
  | cons t ts ih => rw [heightAll, Nat.max_le, ih, List.forall_mem_cons]

theorem heightAll_append (ts us : List (Tree κ)) :
    heightAll (ts ++ us) = max (heightAll ts) (heightAll us) := by
  induction ts with
  | nil => simp [heightAll]
  | cons t ts ih => rw [List.cons_append, heightAll, heightAll, ih, Nat.max_assoc]

theorem heightAll_lt_height (form : Form κ) (ts : List (Tree κ)) :
    heightAll ts < (node form ts).height := by
  have hform : 0 < form.weight := by cases form <;> exact Nat.succ_pos _
  rw [height]
  omega

def declares (name : String) : Tree κ → Bool
  | node (.function (some n) _ _) _ => n == name
  | _ => false

end Tree

end MediaLink
