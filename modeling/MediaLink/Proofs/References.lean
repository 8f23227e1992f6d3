import MediaLink.Proofs.Placement

namespace MediaLink.LinkedProgram

variable {κ : Type} (o : Options) (body : List (Tree κ))

/-- The names that stand in the linked program in place of what was authored. -/
def references (o : Options) (body : List (Tree κ)) : List String :=
  (sites o body (ofBody o body).body).flatMap (·.names)

theorem sites_ofBody : sites o body (ofBody o body).body =
    (Tree.allEligible o body).map (Site.linked (Binding.nameIn (ofBody o body).bindings)) := by
  rw [sites, kept_ofBody, substituted, Tree.sitesAll_substituteAll, Tree.sitesAll_substituteAll,
    ← List.map_append, Tree.allEligible, bindings_ofBody]

theorem links_ofBody :
    Links (sites o body (ofBody o body).body) (ofBody o body).bindings := by
  rw [sites_ofBody, bindings_ofBody]
  exact Registry.links_resolveAll (Tree.allEligible o body)

theorem references_eq : references o body =
    ((Tree.allEligible o body).flatMap (·.paths)).map fun p =>
      String.ofList (Binding.nameIn (ofBody o body).bindings p) := by
  rw [references, sites_ofBody, List.flatMap_map, List.map_flatMap]
  rfl

theorem mem_references {n : String} :
    n ∈ references o body ↔ n ∈ (ofBody o body).bindings.map fun b => String.ofList b.name := by
  have hlinks := links_ofBody o body
  rw [sites_ofBody] at hlinks
  rw [references_eq, List.mem_map, List.mem_map]
  constructor
  · rintro ⟨p, hp, rfl⟩
    obtain ⟨b, hb, -, hname, -⟩ := hlinks.bound _ (Site.references_mem _ hp)
    exact ⟨b, hb, hname⟩
  · rintro ⟨b, hb, rfl⟩
    obtain ⟨r, hr, hname⟩ := hlinks.used b hb
    obtain ⟨p, hp, rfl⟩ := Site.mem_references hr
    exact ⟨p, hp, hname⟩

/-- The bindings whose imports are in the linked program. -/
def imports (l : LinkedProgram κ) : List Binding := if l.inserted then l.bindings else []

theorem exists_body_eq : ∃ before behind, before ++ behind = body.map (linkTree o body) ∧
    (ofBody o body).body =
      before ++ (ofBody o body).imports.map Binding.importTree ++ behind := by
  rw [map_linkTree, imports]
  cases h : (ofBody o body).inserted with
  | true =>
    let i := body.findIdx (Tree.declares o.functionName)
    refine ⟨(substituted o body).take i, (substituted o body).drop i,
      List.take_append_drop .., ?_⟩
    rw [body_of_inserted o body h, bindings_ofBody, if_pos rfl]
  | false =>
    refine ⟨substituted o body, [], List.append_nil _, ?_⟩
    rw [body_of_not_inserted o body h, if_neg Bool.false_ne_true, List.map_nil, List.append_nil,
      List.append_nil]

end MediaLink.LinkedProgram
