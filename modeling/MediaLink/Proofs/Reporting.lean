import Mathlib.Data.Finset.Card
import Mathlib.Data.Finset.SDiff
import MediaLink.Proofs.References
import MediaLink.Transform

namespace MediaLink

theorem Diagnostic.droppedImports_inj {f g : String} {m n : Nat}
    (h : droppedImports f m = droppedImports g n) : f = g ∧ m = n := by
  have hnumber (k : Nat) (t : List Char) (ht : t.takeWhile Char.isDigit = []) :
      (Nat.toDigits 10 k ++ t).takeWhile Char.isDigit = Nat.toDigits 10 k := by
    have hdigit : ∀ c ∈ Nat.toDigits 10 k, c.isDigit := fun c hc =>
      Nat.isDigit_of_mem_toDigits (by decide) (by decide) hc
    rw [List.takeWhile_append_of_pos hdigit, ht, List.append_nil]
  have htext := congrArg (fun d => (Diagnostic.text d).toList) h
  simp only [droppedImports, Nat.toString_eq_repr, Nat.repr, String.toList_append,
    String.toList_ofList, List.append_assoc] at htext
  have hcount := congrArg (List.takeWhile Char.isDigit) htext
  rw [hnumber m _ rfl, hnumber n _ rfl] at hcount
  rw [hcount, List.append_cancel_left_eq, List.append_cancel_left_eq,
    List.append_cancel_right_eq] at htext
  exact ⟨String.toList_inj.mp htext, Slug.toDigits_injective hcount⟩

namespace Transformed

open LinkedProgram

variable {κ : Type}

/-- The names that a linked program refers to although none of the imports is of them. -/
def missing (o : Options) (body : List (Tree κ)) (imports : List Binding) : Finset String :=
  (references o body).toFinset \ (imports.map fun b => String.ofList b.name).toFinset

variable (o : Options) (body : List (Tree κ))

end Transformed

end MediaLink
