import MediaLink.Proofs.Exclusion
import MediaLink.Proofs.Links

namespace MediaLink

namespace Tree

variable {κ : Type}

theorem declares_iff {name : String} {t : Tree κ} :
    t.declares name ↔
      ∃ isAsync isGenerator, t.form = .function (some name) isAsync isGenerator := by
  obtain ⟨form, parts⟩ := t
  cases form with
  | function n isAsync isGenerator => cases n <;> simp [declares, Tree.form]
  | _ => simp [declares, Tree.form]

end Tree

namespace LinkedProgram

variable {κ : Type} (o : Options) (body : List (Tree κ))

/-- What linking makes of a part of the program. -/
def linkTree (o : Options) (body : List (Tree κ)) : Tree κ → Tree κ :=
  Tree.substitute [.call, .literal] o (Binding.nameIn (ofBody o body).bindings)

theorem bindings_ofBody : (ofBody o body).bindings = bindingsOf o body := by rw [ofBody_eq]

theorem paths_ofBody : (ofBody o body).bindings.map (·.path) =
    ((((Tree.allEligible o body).flatMap (·.references)).filter Reference.isRewritable).map
      fun r => (Reference.ofRaw r).path).eraseDups := by
  rw [bindings_ofBody, bindingsOf, Registry.paths_resolveAll, List.filter_flatMap, List.map_flatMap]
  rfl

theorem rewritten_ofBody : (ofBody o body).rewritten = (Tree.allEligible o body).length := by
  rw [ofBody_eq]

theorem inserted_ofBody : (ofBody o body).inserted =
    (!(bindingsOf o body).isEmpty && body.any (Tree.declares o.functionName)) := by
  rw [ofBody_eq]

theorem body_of_not_inserted (h : (ofBody o body).inserted = false) :
    (ofBody o body).body = substituted o body := by
  rw [ofBody_eq] at h ⊢
  exact if_neg (Bool.not_eq_true _ ▸ h)

theorem kept_ofBody : kept o body (ofBody o body).body = substituted o body := by
  cases h : (ofBody o body).inserted with
  | true => exact (inserts_body o body h).2
  | false =>
    rw [body_of_not_inserted o body h, kept, length_substituted, Nat.sub_self, Nat.add_zero,
      List.take_append_drop]

theorem map_linkTree : body.map (linkTree o body) = substituted o body := by
  rw [substituted, Tree.substituteAll_eq_map, ← bindings_ofBody]
  rfl

end LinkedProgram

end MediaLink
