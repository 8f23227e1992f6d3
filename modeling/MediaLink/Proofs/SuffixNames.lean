import MediaLink.Proofs.AbsoluteUrl

namespace MediaLink

namespace Encoding

open MediaLink.Tree

variable {κ : Type}

def staticName? : Tree κ → Option String
  | .node (.property traits) (key :: _) => if traits.computed then none else keyName? key
  | .node (.attribute name) _ => some name.text
  | _ => none

def staticNames (items : List (Tree κ)) : List String := items.filterMap staticName?

/-- What the element has under the name: later attributes override those in front of them. -/
def effective? (name : String) (items : List (Tree κ)) : Option (Tree κ) :=
  (items.filter (staticName? · == some name)).getLast?.bind value?

def suffix? (e : Element) (item : Tree κ) : Option (List Char) := do
  let (name, value) ← text? item
  let r := Reference.ofRaw value.toList
  if e.role? name = some .single ∧ Reference.isRewritable value.toList ∧ r.suffix ≠ [] then
    some r.suffix
  else none

theorem suffix?_eq_bind (e : Element) (item : Tree κ) :
    suffix? e item =
      (target? e item).bind fun t => if t.suffix.isEmpty then none else some t.suffix := by
  rw [suffix?, target?]
  cases text? item with
  | none => rfl
  | some a =>
    obtain ⟨name, value⟩ := a
    cases hrole : e.role? name with
    | none => simp [hrole]
    | some role =>
      cases role with
      | single =>
        cases hr : Reference.isRewritable value.toList <;>
          simp [hrole, hr, Target.ofValue?, ite_not]
      | candidates =>
        cases hv : Srcset.LinkedText.ofText? value.toList <;>
          simp [hrole, hv, Target.ofValue?]

theorem suffixes_eq (e : Element) (items : List (Tree κ)) :
    Linking.suffixes (items.map (target? e)) = items.filterMap (suffix? e) := by
  rw [Linking.suffixes, List.filterMap_map, List.filterMap_filterMap]
  apply List.filterMap_congr
  intro item _
  exact (suffix?_eq_bind e item).symm

theorem staticName?_setValue (value t : Tree κ) :
    staticName? (setValue value t) = staticName? t := by
  obtain ⟨form, parts⟩ := t
  cases form with
  | property traits =>
    match parts with
    | [] | [_] | [_, _] | _ :: _ :: _ :: _ => rfl
  | «attribute» name => cases name <;> rfl
  | _ => rfl

theorem staticName?_substitute (cs : List Encoding) (o : Options) (name : List Char → List Char)
    (t : Tree κ) : staticName? (substitute cs o name t) = staticName? t := by
  obtain ⟨form, parts⟩ := t
  cases form with
  | property traits =>
    rw [substitute_property]
    cases parts with
    | nil => rfl
    | cons key parts =>
      rw [List.map_cons, staticName?, staticName?,
        keyName?_of_form (form_substitute cs o name key)]
  | «attribute» a =>
    rw [substitute_attribute]
    cases a <;> rfl
  | _ => rfl

theorem staticName?_replaceItem (e : Element) (name : List Char → List Char) (item now : Tree κ) :
    staticName? (replaceItem e name item now) = staticName? now := by
  rw [replaceItem]
  cases target? e item with
  | none => rfl
  | some t => exact staticName?_setValue _ now

theorem staticName?_suffixItem (c : Encoding) (s : List Char) :
    staticName? (c.suffixItem s : Tree κ) = some suffixAttribute := by
  cases c <;> rfl

theorem value?_suffixItem (c : Encoding) (s : List Char) :
    value? (c.suffixItem s : Tree κ) = some (.string (String.ofList s)) := by
  cases c <;> rfl

theorem staticNames_append_suffixes (c : Encoding) (items : List (Tree κ))
    (suffixes : List (List Char)) :
    staticNames (items ++ suffixes.map c.suffixItem) =
      staticNames items ++ List.replicate suffixes.length suffixAttribute := by
  have hname : staticName? ∘ (c.suffixItem : List Char → Tree κ) =
      some ∘ fun _ => suffixAttribute := by
    funext s
    exact staticName?_suffixItem c s
  rw [staticNames, List.filterMap_append, List.filterMap_map, hname, List.filterMap_eq_map,
    List.map_const', staticNames]

/-- The last suffix overrides the others, and what the author put under their name. -/
theorem effective?_append_suffixes (c : Encoding) (items : List (Tree κ))
    {suffixes : List (List Char)} {last : List Char} (h : suffixes.getLast? = some last) :
    effective? suffixAttribute (items ++ suffixes.map c.suffixItem) =
      some (.string (String.ofList last)) := by
  have hall : (suffixes.map c.suffixItem : List (Tree κ)).filter
      (staticName? · == some suffixAttribute) = suffixes.map c.suffixItem := by
    rw [List.filter_eq_self]
    intro item hitem
    obtain ⟨s, -, rfl⟩ := List.mem_map.mp hitem
    rw [staticName?_suffixItem, beq_self_eq_true]
  rw [effective?, List.filter_append, hall, List.getLast?_append, List.getLast?_map, h]
  exact value?_suffixItem c last

theorem nodup_append_replicate {names : List String} (h : names.Nodup) (n : Nat) (name : String) :
    (names ++ List.replicate n name).Nodup ↔ n = 0 ∨ n = 1 ∧ name ∉ names := by
  rw [List.nodup_append, List.nodup_replicate]
  constructor
  · rintro ⟨-, hn, hdisjoint⟩
    obtain rfl | rfl : n = 0 ∨ n = 1 := by omega
    · exact .inl rfl
    · exact .inr ⟨rfl, fun hname => hdisjoint name hname name (List.mem_singleton_self _) rfl⟩
  · rintro (rfl | ⟨rfl, hname⟩)
    · exact ⟨h, Nat.zero_le _, fun _ _ _ hb => absurd hb List.not_mem_nil⟩
    · refine ⟨h, Nat.le_refl _, fun a ha b hb => ?_⟩
      rw [List.mem_singleton.mp hb]
      rintro rfl
      exact hname ha

end Encoding

namespace LinkedProgram

open MediaLink.Tree Encoding

variable {κ : Type}

def attributesAt (ts : List (Tree κ)) (p : List Nat) : List (Tree κ) :=
  (atAll? ts p).elim [] Tree.parts

/-- The suffixes of the attributes `items` are all there when these have become `now`. -/
structure KeepsSuffixes (e : Element) (items now : List (Tree κ)) : Prop where
  nodup : (staticNames now).Nodup
  effective : ∀ s ∈ items.filterMap (suffix? e),
    effective? suffixAttribute now = some (.string (String.ofList s))

/-- What has become of the suffixes of the attributes. -/
structure AppendsSuffixes (e : Element) (items now : List (Tree κ)) : Prop where
  names_eq : staticNames now =
    staticNames items ++ List.replicate (items.filterMap (suffix? e)).length suffixAttribute
  effective_eq : ∀ s, (items.filterMap (suffix? e)).getLast? = some s →
    effective? suffixAttribute now = some (.string (String.ofList s))

theorem appendsSuffixes_ofBody {o : Options} {body : List (Tree κ)} {p : List Nat} {c : Encoding}
    {e : Element} (h : holderAt? o body p = some (c, e)) :
    AppendsSuffixes e (attributesAt body p)
      (attributesAt (kept o body (ofBody o body).body) p) := by
  obtain ⟨form, items, hold, hnow⟩ := atAll?_kept h
  rw [attributesAt, hold, attributesAt, hnow]
  simp only [Option.elim_some, Tree.parts, suffixes_eq]
  refine ⟨?_, fun s hs => effective?_append_suffixes c _ hs⟩
  rw [staticNames_append_suffixes, staticNames, List.filterMap_map]
  congr 1
  apply List.filterMap_congr
  intro item _
  exact (staticName?_replaceItem ..).trans (staticName?_substitute ..)

theorem AppendsSuffixes.keeps_iff {e : Element} {items now : List (Tree κ)}
    (h : AppendsSuffixes e items now) (hnames : (staticNames items).Nodup) :
    KeepsSuffixes e items now ↔ items.filterMap (suffix? e) = [] ∨
      (items.filterMap (suffix? e)).length = 1 ∧ suffixAttribute ∉ staticNames items := by
  have hnodup := nodup_append_replicate hnames (items.filterMap (suffix? e)).length suffixAttribute
  rw [← h.names_eq, List.length_eq_zero_iff] at hnodup
  rw [← hnodup]
  constructor
  · exact KeepsSuffixes.nodup
  · intro hnow
    refine ⟨hnow, fun s hs => h.effective_eq s ?_⟩
    -- at most one suffix was appended, and this is the last of them
    obtain hnil | ⟨hone, -⟩ := hnodup.mp hnow
    · rw [hnil] at hs
      cases hs
    · obtain ⟨t, ht⟩ := List.length_eq_one_iff.mp hone
      rw [ht] at hs ⊢
      rw [List.mem_singleton.mp hs]
      rfl

/-- All suffixes of an element come behind its attributes under one name, where the last of them
counts. If its attributes had different names, then they have so afterwards, and no suffix is lost,
exactly if there is no suffix, or one only and none that the author put there. -/
theorem keepsSuffixes_iff {o : Options} {body : List (Tree κ)} {p : List Nat} {c : Encoding}
    {e : Element} (h : holderAt? o body p = some (c, e)) :
    let items := attributesAt body p
    let now := attributesAt (kept o body (ofBody o body).body) p
    let suffixes := items.filterMap (suffix? e)
    AppendsSuffixes e items now ∧
      ((staticNames items).Nodup →
        (KeepsSuffixes e items now ↔
          suffixes = [] ∨ suffixes.length = 1 ∧ suffixAttribute ∉ staticNames items)) := by
  intro items now suffixes
  have happends : AppendsSuffixes e items now := appendsSuffixes_ofBody h
  exact ⟨happends, happends.keeps_iff⟩

theorem keepsSuffixes_iff_image :
    let body : List (Tree Unit) :=
      [.node (.call false) [.identifier "_jsx", .string "img",
        .node .object [.node (.property {}) [.identifier "alt", .string "A"],
          .node (.property {}) [.identifier "src", .string "a.png#top"]]]]
    let items := attributesAt body [0, 2]
    let now := attributesAt (kept {} body (ofBody {} body).body) [0, 2]
    holderAt? {} body [0, 2] = some (.call, .img) ∧ (staticNames items).Nodup ∧
      items.filterMap (suffix? .img) = ["#top".toList] ∧
      AppendsSuffixes .img items now ∧ KeepsSuffixes .img items now := by
  intro body items now
  have h : holderAt? {} body [0, 2] = some (.call, .img) := by decide
  have hnames : (staticNames items).Nodup := by decide
  have hone : (items.filterMap (suffix? .img)).length = 1 ∧
      suffixAttribute ∉ staticNames items := by decide
  obtain ⟨happends, hkeeps⟩ := keepsSuffixes_iff h
  exact ⟨h, hnames, by decide, happends, (hkeeps hnames).mpr (.inr hone)⟩

theorem not_keepsSuffixes_video :
    let body : List (Tree Unit) :=
      [.node (.opening (.plain "video") true)
        [.node (.attribute (.plain "src")) [.string "a.mp4#t=10"],
         .node (.attribute (.plain "poster")) [.string "b.png?w=640"]]]
    let items := attributesAt body [0]
    let now := attributesAt (kept {} body (ofBody {} body).body) [0]
    holderAt? {} body [0] = some (.literal, .video) ∧ (staticNames items).Nodup ∧
      items.filterMap (suffix? .video) = ["#t=10".toList, "?w=640".toList] ∧
      ¬ (staticNames now).Nodup ∧
      (effective? suffixAttribute now).bind string? = some "?w=640" ∧
      ¬ KeepsSuffixes .video items now := by
  intro body items now
  have hnames : ¬ (staticNames now).Nodup := by decide +kernel
  exact ⟨by decide, by decide, by decide, hnames, by decide +kernel, fun h => hnames h.nodup⟩

end LinkedProgram

end MediaLink
