import MediaLink.Proofs.References

namespace MediaLink

def ElementName.names : ElementName → List String
  | plain name => [name]
  | member object property => object.names ++ [property]
  | namespaced space name => [space, name]

def AttributeName.names : AttributeName → List String
  | plain name => [name]
  | namespaced space name => [space, name]

def Form.names {κ : Type} (own : κ → List String) : Form κ → List String
  | .identifier name => [name]
  | .member key _ => [key]
  | .opening name _ => name.names
  | .attribute name => name.names
  | .function name _ _ => name.toList
  | .defaultImport name _ => [name]
  | .other construct => own construct
  | .string _ _ | .call _ | .object | .property _ | .template _ | .container => []

namespace Tree

variable {κ : Type}

mutual

def names (own : κ → List String) : Tree κ → List String
  | .node form parts => form.names own ++ namesAll own parts

def namesAll (own : κ → List String) : List (Tree κ) → List String
  | [] => []
  | t :: ts => names own t ++ namesAll own ts

end

theorem namesAll_append (own : κ → List String) (ts us : List (Tree κ)) :
    namesAll own (ts ++ us) = namesAll own ts ++ namesAll own us := by
  induction ts with
  | nil => rfl
  | cons t ts ih => rw [List.cons_append, namesAll, ih, namesAll, List.append_assoc]

theorem names_identifier (own : κ → List String) (name : String) :
    names own (identifier name) = [name] := rfl

end Tree

namespace Registry

open Binding

theorem exists_slug_freshName (issued : List (List Char)) (path : List Char) (fuel : Nat)
    (g : Slug.Slugger) : ∃ slug, (freshName issued path fuel g).1 = nameOfSlug slug := by
  induction fuel generalizing g with
  | zero => exact ⟨(g.slug path).1, rfl⟩
  | succ fuel ih =>
    rw [freshName]
    dsimp only
    split
    · exact ih (g.slug path).2
    · exact ⟨(g.slug path).1, rfl⟩

def NamesSlugs (r : Registry) : Prop := ∀ b ∈ r.bindings, ∃ slug, b.name = nameOfSlug slug

theorem namesSlugs_resolve {r : Registry} (h : r.NamesSlugs) (path : List Char) :
    (r.resolve path).2.NamesSlugs := by
  rw [resolve]
  cases r.bindings.find? (·.path == path) with
  | some b => exact h
  | none =>
    intro b hb
    obtain hb | hb := List.mem_append.mp hb
    · exact h b hb
    · obtain rfl := List.mem_singleton.mp hb
      exact exists_slug_freshName ..

theorem namesSlugs_resolveAll {r : Registry} (h : r.NamesSlugs) (ps : List (List Char)) :
    (r.resolveAll ps).NamesSlugs := by
  induction ps generalizing r with
  | nil => exact h
  | cons p ps ih => exact ih (namesSlugs_resolve h p)

end Registry

namespace LinkedProgram

variable {κ : Type} (own : κ → List String) (o : Options) (body : List (Tree κ))

/-- The names that linking makes up: those of the imports that it places, and its references. -/
def introduced (o : Options) (body : List (Tree κ)) : List String :=
  ((ofBody o body).imports.map fun b => String.ofList b.name) ++ references o body

def IsHygienic (own : κ → List String) (o : Options) (body : List (Tree κ)) : Prop :=
  ∀ n ∈ introduced o body, n ∉ Tree.namesAll own body

theorem mem_introduced {n : String} :
    n ∈ introduced o body ↔
      n ∈ (ofBody o body).bindings.map fun b => String.ofList b.name := by
  rw [introduced, List.mem_append, mem_references, or_iff_right_iff_imp, imports]
  split
  · exact id
  · intro h
    cases h

theorem nameEnding_of_mem_bindings {b : Binding} (h : b ∈ (ofBody o body).bindings) :
    Binding.nameEnding <:+ b.name := by
  rw [bindings_ofBody] at h
  have hslugs : Registry.NamesSlugs {} := fun b hb => nomatch hb
  obtain ⟨slug, hname⟩ := Registry.namesSlugs_resolveAll hslugs _ b h
  exact hname ▸ List.suffix_append ..

/-- A name of the program is hit only if it has the ending of the names that are made up, and is the
one of a path. -/
theorem isHygienic_iff : IsHygienic own o body ↔
    ∀ n ∈ Tree.namesAll own body, Binding.nameEnding <:+ n.toList →
      ∀ b ∈ (ofBody o body).bindings, String.ofList b.name ≠ n := by
  constructor
  · rintro h n hn - b hb rfl
    exact h _ ((mem_introduced o body).mpr (List.mem_map_of_mem hb)) hn
  · intro h n hn hm
    obtain ⟨b, hb, rfl⟩ := List.mem_map.mp ((mem_introduced o body).mp hn)
    have hending := nameEnding_of_mem_bindings o body hb
    exact h _ hm (by rwa [String.toList_ofList]) b hb rfl

theorem bindings_concat {t : Tree κ} (h : ∀ c, Tree.eligible c o t = []) :
    (ofBody o (body ++ [t])).bindings = (ofBody o body).bindings := by
  simp only [bindings_ofBody, bindingsOf, Tree.allEligible, Tree.eligibleAll_eq_flatMap,
    List.flatMap_append, List.flatMap_singleton, h, List.append_nil]

/-- Any name that is made up is made up again where the author uses it. -/
theorem not_isHygienic_concat {b : Binding} (h : b ∈ (ofBody o body).bindings) :
    ¬ IsHygienic own o (body ++ [.identifier (String.ofList b.name)]) := by
  intro hygienic
  have hquiet : ∀ c, Tree.eligible c o (Tree.identifier (String.ofList b.name) : Tree κ) = [] :=
    fun c => Tree.eligible_of_encodes c o rfl []
  rw [← bindings_concat o body hquiet] at h
  refine hygienic _ ((mem_introduced o _).mpr (List.mem_map_of_mem h)) ?_
  rw [Tree.namesAll_append, Tree.namesAll, Tree.names_identifier]
  exact List.mem_append_right _ List.mem_cons_self

/-- To a program that was linked before, an element of the same media was added: its import is placed
a second time. -/
theorem not_isHygienic_linked :
    let b : Binding := ⟨"./a.png".toList, "apng$recmamdximport".toList⟩
    let body : List (Tree Unit) :=
      [b.importTree, .node (.function (some "_createMdxContent") false false)
        [.node (.opening (.plain "img") true)
          [.node (.attribute (.plain "src")) [.string "a.png"]]]]
    (ofBody {} body).imports = [b] ∧ ¬ IsHygienic (fun _ => []) {} body := by
  intro b body
  have himports : (ofBody {} body).imports = [b] := by decide +kernel
  have hauthored : "apng$recmamdximport" ∈ Tree.namesAll (fun _ => []) body :=
    List.mem_cons_self
  refine ⟨himports, fun h => h _ ?_ hauthored⟩
  rw [introduced, himports]
  exact List.mem_cons_self

end LinkedProgram

end MediaLink
