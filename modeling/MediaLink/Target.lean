import MediaLink.Element
import MediaLink.Registry
import MediaLink.Srcset.Template
import MediaLink.Tree

namespace MediaLink

structure Target where
  value : Srcset.LinkedText
  suffix : List Char := []
deriving DecidableEq

namespace Target

open Srcset

variable {κ : Type}

/-- A single value keeps its suffix aside; in a list each suffix stays in the text. -/
def ofValue? (role : Role) (value : String) : Option Target :=
  match role with
  | .single =>
    let r := Reference.ofRaw value.toList
    if Reference.isRewritable value.toList then some ⟨.whole r.path, r.suffix⟩ else none
  | .candidates => (LinkedText.ofText? value.toList).map fun v => { value := v }

def paths (t : Target) : List (List Char) :=
  match t.value with
  | .whole path => [path]
  | .template t => t.paths

/-- Literal text as a template literal has it: a backslash in front of backslashes, backticks and
`$` before a brace. -/
def escape : List Char → List Char
  | [] => []
  | '\\' :: rest => '\\' :: '\\' :: escape rest
  | '`' :: rest => '\\' :: '`' :: escape rest
  | '$' :: '\x7b' :: rest => '\\' :: '$' :: '\x7b' :: escape rest
  | c :: rest => c :: escape rest

def quasi (s : List Char) : Quasi := ⟨String.ofList (escape s), some (String.ofList s)⟩

def reference (name : List Char) : Tree κ := .identifier (String.ofList name)

/-- The value as an expression, where `name` says what each path is imported as. -/
def tree (t : Target) (name : List Char → List Char) : Tree κ :=
  match t.value with
  | .whole path => reference (name path)
  | .template t => .node (.template (t.quasis.map quasi)) (t.paths.map (reference ∘ name))

theorem height_tree_le (t : Target) (name : List Char → List Char) :
    (t.tree name : Tree κ).height ≤ 2 := by
  obtain ⟨value, suffix⟩ := t
  cases value with
  | whole path => exact Nat.le_succ 1
  | template t =>
    have hpaths : Tree.heightAll (t.paths.map (reference ∘ name) : List (Tree κ)) ≤ 1 := by
      rw [Tree.heightAll_le_iff]
      intro u hu
      obtain ⟨p, -, rfl⟩ := List.mem_map.mp hu
      exact Nat.le_refl 1
    exact Nat.add_le_add_left hpaths 1

end Target

end MediaLink
