import Mathlib.Data.List.Perm.Basic
import MediaLink.Proofs.Relinking

namespace MediaLink

def Splits {α : Type} (x y z : Option α) : Prop := x = y ∧ z = none ∨ x = z ∧ y = none

theorem Splits.map {α β : Type} {x y z : Option α} (h : Splits x y z) (f : α → β) :
    Splits (x.map f) (y.map f) (z.map f) := by
  obtain ⟨rfl, rfl⟩ | ⟨rfl, rfl⟩ := h
  · exact .inl ⟨rfl, rfl⟩
  · exact .inr ⟨rfl, rfl⟩

/-- What is authored in either way is linked with the first options if it is with one of the others,
and never with both of these. -/
def Options.Splits (o o₁ o₂ : Options) : Prop :=
  ∀ a, o.excludes a = o₁.excludes a ∧ o₂.excludes a = true ∨
    o.excludes a = o₂.excludes a ∧ o₁.excludes a = true

namespace Encoding

variable {κ : Type}

def authoring : Encoding → Form κ → List (Tree κ) → Authoring
  | call, _, _ :: .node (.string _ _) _ :: _ => .html
  | literal, .opening (.plain _) _, _ => .html
  | _, _, _ => .markdown

theorem excludes_empty (a : Authoring) : ({} : Options).excludes a = false := rfl

theorem argumentElement?_eq_ite (o : Options) (form : Form κ) (callee kind : Tree κ)
    (rest : List (Tree κ)) :
    argumentElement? o kind =
      if o.excludes (call.authoring form (callee :: kind :: rest)) then none
      else argumentElement? {} kind := by
  fun_cases argumentElement? o kind with
  | case1 name raw parts h => simp [authoring, h]
  | case2 name raw parts h => simp [authoring, h, argumentElement?, excludes_empty]
  | case3 property isOptional object parts h | case4 property isOptional object parts h =>
    by_cases ho : o.excludes .markdown <;> simp_all [authoring, argumentElement?, excludes_empty]
  | case5 kind hstring hmember =>
    have hnone : argumentElement? {} kind = none := by
      unfold argumentElement?
      split
      · exact absurd rfl (hstring _ _ _)
      · exact absurd rfl (hmember _ _ _ _)
      · rfl
    rw [hnone, ite_self]

theorem literalElement?_eq_ite (o : Options) (name : ElementName) (selfClosing : Bool)
    (parts : List (Tree κ)) :
    literalElement? o name =
      if o.excludes (literal.authoring (.opening name selfClosing) parts) then none
      else literalElement? {} name := by
  match name with
  | .plain n => rfl
  | .member (.plain object) n =>
    by_cases h : o.excludes .markdown <;> simp [literalElement?, authoring, h, excludes_empty]
  | .member (.member ..) _ | .member (.namespaced ..) _ | .namespaced .. => simp [literalElement?]

/-- A node encodes an element unless the way in which this was authored is excluded. -/
theorem match?_eq_ite (c : Encoding) (o : Options) (form : Form κ) (parts : List (Tree κ)) :
    c.match? o form parts =
      if o.excludes (c.authoring form parts) then none else c.match? {} form parts := by
  cases c with
  | call =>
    cases form with
    | call isOptional =>
      match parts with
      | callee :: kind :: .node third items :: rest =>
        cases third with
        | object =>
          simp only [match?, argumentElement?_eq_ite o (.call isOptional) callee kind
            (.node .object items :: rest)]
          cases mayConstruct callee <;>
            cases o.excludes (call.authoring _ (callee :: kind :: .node .object items :: rest)) <;>
            rfl
        | _ => simp [match?]
      | [] | [_] | [_, _] => simp [match?]
    | _ => simp [match?]
  | literal =>
    cases form with
    | opening name selfClosing =>
      simp only [match?, literalElement?_eq_ite o name selfClosing parts]
      cases o.excludes (literal.authoring _ parts) <;> rfl
    | _ => simp [match?]

theorem match?_of_excludes {o : Options} (h : ∀ a, o.excludes a = true) (c : Encoding)
    (form : Form κ) (parts : List (Tree κ)) : c.match? o form parts = none := by
  rw [match?_eq_ite, if_pos (h _)]

theorem match?_splits {o o₁ o₂ : Options} (h : o.Splits o₁ o₂) (c : Encoding) (form : Form κ)
    (parts : List (Tree κ)) :
    Splits (c.match? o form parts) (c.match? o₁ form parts) (c.match? o₂ form parts) := by
  rw [match?_eq_ite c o, match?_eq_ite c o₁, match?_eq_ite c o₂]
  obtain ⟨ho, hx⟩ | ⟨ho, hx⟩ := h (c.authoring form parts)
  · exact .inl ⟨by rw [ho], if_pos hx⟩
  · exact .inr ⟨by rw [ho], if_pos hx⟩

end Encoding

namespace Tree

open Encoding

variable {κ : Type} {o o' o₁ o₂ : Options}

theorem eligible_of_excludes (h : ∀ a, o.excludes a = true) (c : Encoding) (t : Tree κ) :
    eligible c o t = [] := by
  induction t with
  | node form parts ih =>
    rw [eligible_node, authored, match?_of_excludes h, List.nil_append, List.flatMap_eq_nil_iff]
    exact ih

theorem eligible_perm (h : o.Splits o₁ o₂) (c : Encoding) (t : Tree κ) :
    (eligible c o t).Perm (eligible c o₁ t ++ eligible c o₂ t) := by
  induction t with
  | node form parts ih =>
    have hparts : (parts.flatMap (eligible c o)).Perm
        (parts.flatMap (eligible c o₁) ++ parts.flatMap (eligible c o₂)) :=
      (List.Perm.flatMap_left parts ih).trans (List.flatMap_append_perm parts _ _).symm
    simp only [eligible_node, authored]
    obtain ⟨ho, hx⟩ | ⟨ho, hx⟩ := match?_splits h c form parts
    · rw [ho, hx, List.nil_append, List.append_assoc]
      exact hparts.append_left _
    · rw [ho, hx, List.nil_append]
      exact (hparts.append_left _).trans (List.perm_append_comm_assoc ..)

theorem allEligible_perm (h : o.Splits o₁ o₂) (body : List (Tree κ)) :
    (allEligible o body).Perm (allEligible o₁ body ++ allEligible o₂ body) := by
  have hbody (c : Encoding) : (eligibleAll c o body).Perm
      (eligibleAll c o₁ body ++ eligibleAll c o₂ body) := by
    simp only [eligibleAll_eq_flatMap]
    exact (List.Perm.flatMap_left body fun t _ => eligible_perm h c t).trans
      (List.flatMap_append_perm body _ _).symm
  -- the literals of the first options change places with the calls of the second
  refine ((hbody .call).append (hbody .literal)).trans ?_
  simp only [allEligible, List.append_assoc]
  exact (List.perm_append_comm_assoc ..).append_left _

end Tree

namespace LinkedProgram

variable {κ : Type} {o o' o₁ o₂ : Options}

theorem ofBody_of_excludes (h : ∀ a, o.excludes a = true) (body : List (Tree κ)) :
    ofBody o body = { body, bindings := [], inserted := false, rewritten := 0 } :=
  ofBody_of_eligible_eq_nil o body fun c t _ => Tree.eligible_of_excludes h c t

end LinkedProgram

end MediaLink
