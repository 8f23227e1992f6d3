import MediaLink.Proofs.CollectSubstitute

namespace MediaLink

/-- An attribute to replace, and the identifiers that have come to stand for its value. -/
structure Site where
  authored : Authored
  names : List String

namespace Site

def references (s : Site) : List (List Char × String) := s.authored.paths.zip s.names

def linked (name : List Char → List Char) (a : Authored) : Site :=
  ⟨a, a.paths.map fun p => String.ofList (name p)⟩

theorem references_linked (name : List Char → List Char) (a : Authored) :
    (linked name a).references = a.paths.map fun p => (p, String.ofList (name p)) := by
  rw [references, linked, ← List.map_prod_left_eq_zip]

end Site

namespace Tree

variable {κ : Type}

def identifier? : Tree κ → Option String
  | .node (.identifier name) _ => some name
  | _ => none

def identifiers : Tree κ → List String
  | .node (.identifier name) _ => [name]
  | .node (.template _) parts => parts.filterMap identifier?
  | _ => []

theorem identifiers_tree (t : Target) (name : List Char → List Char) :
    identifiers (t.tree name : Tree κ) = t.paths.map fun p => String.ofList (name p) := by
  rw [Target.tree, Target.paths]
  cases t.value with
  | whole path => rfl
  | template tm =>
    rw [identifiers, List.filterMap_map]
    change tm.paths.filterMap (some ∘ fun p => String.ofList (name p)) = _
    rw [List.filterMap_eq_map]

end Tree

namespace Encoding

open MediaLink.Tree

variable {κ : Type}

def names : Tree κ → List String
  | .node (.property _) [_, value] => identifiers value
  | .node (.attribute _) [.node .container [value]] => identifiers value
  | _ => []

def attributes : Encoding → List (Tree κ) → List (Tree κ)
  | call, _ :: _ :: .node .object members :: _ => members
  | call, _ => []
  | literal, parts => parts

def site? (e : Element) (item now : Tree κ) : Option Site :=
  (authored? e item).map (⟨·, names now⟩)

def sites (c : Encoding) (o : Options) (form : Form κ) (parts now : List (Tree κ)) : List Site :=
  match c.match? o form parts with
  | some (e, items) => (items.zip (c.attributes now)).filterMap fun (item, now) => site? e item now
  | none => []

theorem names_setValue {v t : Tree κ} {a : String × String} (h : text? t = some a) :
    names (setValue v t) = identifiers v := by
  obtain ⟨_, _, _, rfl, -⟩ | ⟨_, _, rfl, -⟩ := text?_eq_some h
  · rfl
  · rfl

theorem site?_replaceItem (e : Element) (name : List Char → List Char) {item now : Tree κ}
    (h : text? now = text? item) :
    site? e item (replaceItem e name item now) = (authored? e item).map (Site.linked name) := by
  rw [replaceItem, site?]
  cases ht : target? e item with
  | none => rw [authored?_of_target?_eq_none ht, Option.map_none, Option.map_none]
  | some t =>
    obtain ⟨a, ha, hp⟩ := authored?_of_target? ht
    obtain ⟨text, htext, -⟩ := Option.bind_eq_some_iff.mp ht
    simp only [ha, Option.map_some, Site.linked, hp, names_setValue (h.trans htext),
      identifiers_tree]

theorem filterMap_zip_append (e : Element) (items rest : List (Tree κ)) (f : Tree κ → Tree κ) :
    (items.zip (items.map f ++ rest)).filterMap (fun (item, now) => site? e item now) =
      items.filterMap fun item => site? e item (f item) := by
  induction items with
  | nil => rfl
  | cons item items ih =>
    rw [List.map_cons, List.cons_append, List.zip_cons_cons, List.filterMap_cons,
      List.filterMap_cons, ih]

end Encoding

namespace Tree

open Encoding

variable {κ : Type}

mutual

/-- The sites in the tree `t` of all elements in the encoding, as they have become in `now`. -/
def sites (c : Encoding) (o : Options) : Tree κ → Tree κ → List Site
  | .node form parts, now => c.sites o form parts now.parts ++ sitesAll c o parts now.parts

def sitesAll (c : Encoding) (o : Options) : List (Tree κ) → List (Tree κ) → List Site
  | t :: ts, u :: us => sites c o t u ++ sitesAll c o ts us
  | _, _ => []

end

variable (c : Encoding) (o : Options)

theorem sitesAll_append (ts us : List (Tree κ)) (f : Tree κ → Tree κ) :
    sitesAll c o ts (ts.map f ++ us) = ts.flatMap fun t => sites c o t (f t) := by
  induction ts with
  | nil => cases us <;> rfl
  | cons t ts ih => rw [List.map_cons, List.cons_append, sitesAll, ih, List.flatMap_cons]

theorem sitesAll_map (ts : List (Tree κ)) (f : Tree κ → Tree κ) :
    sitesAll c o ts (ts.map f) = ts.flatMap fun t => sites c o t (f t) := by
  have h := sitesAll_append c o ts [] f
  rwa [List.append_nil] at h

theorem sites_of_encodes {form : Form κ} (h : encodes form = false) (parts : List (Tree κ))
    (now : Tree κ) : sites c o (.node form parts) now = sitesAll c o parts now.parts := by
  rw [sites, Encoding.sites, match?_eq_none c o h, List.nil_append]

variable (name : List Char → List Char)

theorem sites_items (e : Element) (items rest : List (Tree κ)) {f : Tree κ → Tree κ}
    (hf : ∀ t, text? (f t) = text? t) :
    (items.zip (items.map (fun item => replaceItem e name item (f item)) ++ rest)).filterMap
        (fun (item, now) => site? e item now) =
      (items.filterMap (authored? e)).map (Site.linked name) := by
  rw [filterMap_zip_append, List.map_filterMap]
  apply List.filterMap_congr
  intro item _
  exact site?_replaceItem e name (hf item)

theorem sites_of_string? {t : Tree κ} {s : String} (h : string? t = some s) (now : Tree κ) :
    sites c o t now = [] := by
  obtain ⟨_, rfl⟩ := string?_eq_some h
  rw [sites_of_encodes c o rfl]
  cases now.parts <;> rfl

theorem sites_replaceItem (e : Element) (cs : List Encoding) (item : Tree κ) :
    sites c o item (replaceItem e name item (substitute cs o name item)) =
      sites c o item (substitute cs o name item) := by
  rw [replaceItem]
  cases ht : target? e item with
  | none => rfl
  | some t =>
    obtain ⟨a, ha, -⟩ := Option.bind_eq_some_iff.mp ht
    obtain ⟨traits, key, value, rfl, hs⟩ | ⟨n, value, rfl, hs⟩ := text?_eq_some ha
    · rw [substitute_property, sites_of_encodes c o rfl, sites_of_encodes c o rfl]
      simp only [List.map_cons, List.map_nil, setValue, Tree.parts, sitesAll,
        sites_of_string? c o hs]
    · rw [substitute_attribute, sites_of_encodes c o rfl, sites_of_encodes c o rfl]
      simp only [List.map_cons, setValue, Tree.parts, sitesAll, sites_of_string? c o hs]

/-- The attributes of one element hold the same sites below them once they are replaced. -/
theorem sitesAll_items (e : Element) (cs : List Encoding) (items rest : List (Tree κ)) :
    sitesAll c o items
        (items.map (fun item => replaceItem e name item (substitute cs o name item)) ++ rest) =
      sitesAll c o items (items.map (substitute cs o name)) := by
  rw [sitesAll_append, sitesAll_map]
  apply List.flatMap_congr
  intro item _
  exact sites_replaceItem c o name e cs item

/-- In the linked program the sites are those of the eligible attributes, with the names of their
paths. -/
theorem sites_substitute (t : Tree κ) :
    sites c o t (substitute [.call, .literal] o name t) =
      (eligible c o t).map (Site.linked name) := by
  induction t with
  | node form parts ih =>
    have hparts : sitesAll c o parts (parts.map (substitute [.call, .literal] o name)) =
        (parts.flatMap (eligible c o)).map (Site.linked name) := by
      rw [sitesAll_map, List.map_flatMap]
      exact List.flatMap_congr ih
    rw [eligible_node, List.map_append, ← hparts]
    obtain ⟨e, opt, callee, kind, items, rest, rfl, rfl, hcall, hliteral, hnode⟩ |
      ⟨e, hcall, hliteral, hnode⟩ | ⟨hcall, hliteral, hnode⟩ := substitute_cases o name form parts
    · have hobject (us : List (Tree κ)) : sites c o (.node .object items) (.node .object us) =
        sitesAll c o items us := sites_of_encodes c o rfl items _
      rw [hnode, sites]
      simp only [Tree.parts, List.map_cons, substitute_object, sitesAll, hobject, sitesAll_items]
      congr 1
      cases c with
      | call =>
        simp only [Encoding.sites, Encoding.authored, hcall, attributes]
        exact sites_items name e items _ (text?_substitute _ o name)
      | literal => rfl
    · rw [hnode, sites, Tree.parts, sitesAll_items]
      congr 1
      cases c with
      | call => simp only [Encoding.sites, Encoding.authored, hcall, List.map_nil]
      | literal =>
        simp only [Encoding.sites, Encoding.authored, hliteral, attributes]
        exact sites_items name e parts _ (text?_substitute _ o name)
    · rw [hnode, sites, Tree.parts]
      cases c <;> simp [Encoding.sites, Encoding.authored, hcall, hliteral]

theorem sitesAll_substituteAll (ts : List (Tree κ)) :
    sitesAll c o ts (substituteAll [.call, .literal] o name ts) =
      (eligibleAll c o ts).map (Site.linked name) := by
  rw [substituteAll_eq_map, sitesAll_map, eligibleAll_eq_flatMap, List.map_flatMap]
  apply List.flatMap_congr
  intro t _
  exact sites_substitute c o name t

end Tree

end MediaLink
