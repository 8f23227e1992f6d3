import MediaLink.Proofs.Sites

namespace MediaLink

def Authored.countNamed (name : List Char → List Char) (n : String) (as : List Authored) : Nat :=
  (as.flatMap fun a => a.paths.map fun p => String.ofList (name p)).count n

theorem Authored.countNamed_nil (name : List Char → List Char) (n : String) :
    countNamed name n [] = 0 := rfl

theorem Authored.countNamed_sites (name : List Char → List Char) (n : String)
    (as : List Authored) :
    ((as.map (Site.linked name)).flatMap (·.names)).count n = countNamed name n as := by
  rw [List.flatMap_map, countNamed]
  rfl

theorem Authored.countNamed_append (name : List Char → List Char) (n : String)
    (as bs : List Authored) :
    countNamed name n (as ++ bs) = countNamed name n as + countNamed name n bs := by
  rw [countNamed, List.flatMap_append, List.count_append, countNamed, countNamed]

def Form.occurs {κ : Type} (n : String) : Form κ → Nat
  | .identifier m => if m = n then 1 else 0
  | _ => 0

namespace Tree

open Encoding

variable {κ : Type} (n : String)

mutual

def occurrences (n : String) : Tree κ → Nat
  | .node form parts => form.occurs n + occurrencesAll n parts

def occurrencesAll (n : String) : List (Tree κ) → Nat
  | [] => 0
  | t :: ts => occurrences n t + occurrencesAll n ts

end

theorem occurrencesAll_append (ts us : List (Tree κ)) :
    occurrencesAll n (ts ++ us) = occurrencesAll n ts + occurrencesAll n us := by
  induction ts with
  | nil => exact (Nat.zero_add _).symm
  | cons t ts ih => rw [List.cons_append, occurrencesAll, ih, occurrencesAll, Nat.add_assoc]

theorem occurrencesAll_references (ps : List (List Char)) (name : List Char → List Char) :
    occurrencesAll n (ps.map (Target.reference ∘ name) : List (Tree κ)) =
      (ps.map fun p => String.ofList (name p)).count n := by
  induction ps with
  | nil => rfl
  | cons p ps ih =>
    rw [List.map_cons, occurrencesAll, ih, List.map_cons, List.count_cons, Nat.add_comm]
    simp [Target.reference, identifier, occurrences, occurrencesAll, Form.occurs]

theorem occurrences_tree (t : Target) (name : List Char → List Char) :
    occurrences n (t.tree name : Tree κ) =
      (t.paths.map fun p => String.ofList (name p)).count n := by
  rw [Target.tree, Target.paths]
  cases t.value with
  | whole path =>
    have h := occurrencesAll_references (κ := κ) n [path] name
    simpa [occurrencesAll] using h
  | template tm =>
    have h := occurrencesAll_references (κ := κ) n tm.paths name
    simpa [occurrences, Form.occurs] using h

theorem occurrencesAll_suffixes {f : List Char → Tree κ} (hf : ∀ s, occurrences n (f s) = 0)
    (ss : List (List Char)) : occurrencesAll n (ss.map f) = 0 := by
  induction ss with
  | nil => rfl
  | cons s ss ih => rw [List.map_cons, occurrencesAll, hf, ih]

theorem occurrences_replaceItem (cs : List Encoding) (o : Options) (e : Element)
    (name : List Char → List Char) (item : Tree κ) :
    occurrences n (replaceItem e name item (substitute cs o name item)) =
      occurrences n (substitute cs o name item) +
        Authored.countNamed name n (authored? e item).toList := by
  rw [replaceItem]
  cases ht : target? e item with
  | none => rw [authored?_of_target?_eq_none ht]; rfl
  | some t =>
    obtain ⟨a, ha, hp⟩ := authored?_of_target? ht
    obtain ⟨text, htext, -⟩ := Option.bind_eq_some_iff.mp ht
    have hcount : Authored.countNamed name n [a] = occurrences n (t.tree name : Tree κ) := by
      rw [occurrences_tree, ← hp, Authored.countNamed, List.flatMap_singleton]
    rw [ha, Option.toList_some, hcount]
    obtain ⟨traits, key, value, rfl, hs⟩ | ⟨m, value, rfl, hs⟩ := text?_eq_some htext
    · obtain ⟨raw, rfl⟩ := string?_eq_some hs
      rw [substitute_property]
      simp [setValue, occurrences, occurrencesAll, Form.occurs, substitute_string]
    · obtain ⟨raw, rfl⟩ := string?_eq_some hs
      rw [substitute_attribute]
      simp [setValue, occurrences, occurrencesAll, Form.occurs, substitute_string]

variable (o : Options) (name : List Char → List Char)

theorem occurrencesAll_items (cs : List Encoding) (e : Element) (items : List (Tree κ)) :
    occurrencesAll n (items.map fun item => replaceItem e name item (substitute cs o name item)) =
      occurrencesAll n (items.map (substitute cs o name)) +
        Authored.countNamed name n (items.filterMap (authored? e)) := by
  induction items with
  | nil => rfl
  | cons item items ih =>
    have hfound : (item :: items).filterMap (authored? e) =
        (authored? e item).toList ++ items.filterMap (authored? e) := by
      cases ha : authored? e item with
      | none => rw [List.filterMap_cons_none ha]; rfl
      | some a => rw [List.filterMap_cons_some ha]; rfl
    rw [List.map_cons, occurrencesAll, ih, occurrences_replaceItem, hfound,
      Authored.countNamed_append, List.map_cons, occurrencesAll]
    omega

/-- How often the attributes that are replaced in the tree come to use the name. -/
def added (t : Tree κ) : Nat :=
  Authored.countNamed name n (eligible .call o t) +
    Authored.countNamed name n (eligible .literal o t)

theorem occurrencesAll_map {f : Tree κ → Tree κ} {ts : List (Tree κ)}
    (h : ∀ t ∈ ts, occurrences n (f t) = occurrences n t + added n o name t) :
    occurrencesAll n (ts.map f) = occurrencesAll n ts +
      (Authored.countNamed name n (ts.flatMap (eligible .call o)) +
        Authored.countNamed name n (ts.flatMap (eligible .literal o))) := by
  induction ts with
  | nil => rfl
  | cons t ts ih =>
    have ht := h t List.mem_cons_self
    have hts := ih fun u hu => h u (List.mem_cons_of_mem _ hu)
    rw [added] at ht
    simp only [List.map_cons, occurrencesAll, List.flatMap_cons, Authored.countNamed_append, ht,
      hts]
    omega

/-- Linking adds to the references of a name those that it puts in place of values. -/
theorem occurrences_substitute (t : Tree κ) :
    occurrences n (substitute [.call, .literal] o name t) = occurrences n t + added n o name t := by
  induction t with
  | node form parts ih =>
    have hparts := occurrencesAll_map n o name ih
    rw [added, eligible_node, eligible_node, Authored.countNamed_append,
      Authored.countNamed_append]
    obtain ⟨e, opt, callee, kind, items, rest, rfl, rfl, hcall, hliteral, hnode⟩ |
      ⟨e, hcall, hliteral, hnode⟩ | ⟨hcall, hliteral, hnode⟩ := substitute_cases o name form parts
    · have hsuffixes := occurrencesAll_suffixes n (f := suffixProperty (κ := κ)) (fun _ => rfl)
        (Linking.suffixes (items.map (target? e)))
      rw [hnode]
      simp only [Encoding.authored, hcall, hliteral, Authored.countNamed_nil]
      simp only [List.map_cons, substitute_object, occurrencesAll, occurrences,
        occurrencesAll_append, occurrencesAll_items, hsuffixes] at hparts ⊢
      omega
    · have hsuffixes := occurrencesAll_suffixes n (f := suffixLiteral (κ := κ)) (fun _ => rfl)
        (Linking.suffixes (parts.map (target? e)))
      rw [hnode]
      simp only [Encoding.authored, hcall, hliteral, Authored.countNamed_nil, occurrences,
        occurrencesAll_append, occurrencesAll_items, hparts, hsuffixes]
      omega
    · rw [hnode]
      simp only [Encoding.authored, hcall, hliteral, Authored.countNamed_nil, occurrences, hparts]
      omega

theorem occurrencesAll_substituteAll (ts : List (Tree κ)) :
    occurrencesAll n (substituteAll [.call, .literal] o name ts) =
      occurrencesAll n ts +
        Authored.countNamed name n (eligibleAll .call o ts ++ eligibleAll .literal o ts) := by
  rw [substituteAll_eq_map,
    occurrencesAll_map n o name fun t _ => occurrences_substitute n o name t,
    Authored.countNamed_append, eligibleAll_eq_flatMap, eligibleAll_eq_flatMap]

end Tree

end MediaLink
