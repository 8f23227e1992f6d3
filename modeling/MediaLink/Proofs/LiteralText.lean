import MediaLink.Proofs.Ampersand
import MediaLink.Proofs.Filled

namespace MediaLink

open Ampersand

/-- What a function must do to say what the text of an element literal denotes, as far as ampersands
are concerned. -/
structure IsDenotation (denote : List Char → List Char) : Prop where
  of_notMem : ∀ s, '&' ∉ s → denote s = s
  reference : ∀ s t, denote (s ++ ['&', 'a', 'm', 'p', ';'] ++ t) = denote s ++ '&' :: denote t

def unspell : List Char → List Char
  | '&' :: 'a' :: 'm' :: 'p' :: ';' :: s => '&' :: unspell s
  | c :: s => c :: unspell s
  | [] => []

theorem unspell_cons {c : Char} {s : List Char}
    (h : ∀ t, c = '&' → s = ['a', 'm', 'p', ';'] ++ t → False) :
    unspell (c :: s) = c :: unspell s := by
  rw [unspell]
  exact h

/-- A reference begins with an ampersand and has no other, so none begins before it and goes on into
it. -/
theorem unspell_reference (s t : List Char) :
    unspell (s ++ ['&', 'a', 'm', 'p', ';'] ++ t) = unspell s ++ '&' :: unspell t := by
  rw [List.append_assoc]
  fun_induction unspell s with
  | case1 s ih => exact congrArg ('&' :: ·) ih
  | case2 c s hne ih =>
    rw [List.cons_append, unspell_cons, ih, List.cons_append]
    intro r hc hr
    obtain ⟨back, hback, hamp⟩ | ⟨behind, hbehind, -⟩ := List.append_eq_append_iff.mp hr
    · cases back with
      | nil => exact hne [] hc ((List.append_nil s).symm.trans hback.symm)
      | cons d back =>
        obtain rfl : '&' = d := List.head_eq_of_cons_eq hamp
        have hmem : '&' ∈ ['a', 'm', 'p', ';'] := hback ▸ List.mem_append_right s List.mem_cons_self
        exact absurd hmem (by decide)
    · exact hne behind hc hbehind
  | case3 => rfl

theorem isDenotation_unspell : IsDenotation unspell where
  of_notMem s h := by
    induction s with
    | nil => rfl
    | cons c s ih =>
      obtain ⟨hc, hs⟩ := not_or.mp (List.mem_cons.not.mp h)
      rw [unspell_cons fun _ hamp => absurd hamp.symm hc, ih hs]
  reference := unspell_reference

theorem IsDenotation.spell {denote : List Char → List Char} (h : IsDenotation denote)
    (s : List Char) : denote (spell s) = s := by
  -- A denotation is known only around references, so the plain text in front is collected.
  have hbehind (front s : List Char) (hfront : '&' ∉ front) :
      denote (front ++ MediaLink.spell s) = front ++ s := by
    induction s using spell_induction generalizing front with
    | nil => exact h.of_notMem (front ++ []) (by simpa using hfront)
    | ampersand s ih =>
      have hnext : denote (MediaLink.spell s) = s := ih [] List.not_mem_nil
      rw [spell_ampersand, ← List.append_assoc, h.reference, h.of_notMem front hfront, hnext]
    | other c s hc ih =>
      have hnext := ih (front ++ [c]) (by simp [hfront, Ne.symm hc])
      rw [spell_cons hc]
      simpa using hnext
  exact hbehind [] s List.not_mem_nil

namespace Target

/-- The target as an element literal that holds it denotes it: only the suffix is text there. -/
def denoted (denote : List Char → List Char) (t : Target) : Target :=
  { t with suffix := denote t.suffix }

end Target

namespace Ampersand

open Srcset

theorem template_map_spell {t : Template} : t.map spell = t ↔ '&' ∉ t.fill id := by
  obtain ⟨lead, holes⟩ := t
  have hholes : holes.map (Prod.map spell spell) = holes ↔
      ∀ hole ∈ holes, '&' ∉ hole.1 ++ hole.2 := by
    conv_lhs => rw [← List.map_id holes]
    rw [List.map_map, List.map_inj_left]
    refine forall₂_congr fun hole _ => ?_
    rw [List.mem_append, not_or, ← spell_eq_self, ← spell_eq_self]
    exact Prod.ext_iff
  rw [Template.map, Template.mk.injEq, hholes, spell_eq_self, Template.fill, List.mem_append,
    List.mem_flatMap]
  simp

theorem linkedText_map_spell {v : LinkedText} : v.map spell = v ↔ '&' ∉ v.fill id := by
  cases v with
  | whole path =>
    rw [LinkedText.map, LinkedText.whole.injEq]
    exact spell_eq_self
  | template t =>
    rw [LinkedText.map, LinkedText.template.injEq]
    exact template_map_spell

theorem map_denoted {denote : List Char → List Char} (h : IsDenotation denote)
    (x : Option Target) :
    (x.map (Target.map spell)).map (Target.denoted denote) = x ↔
      ∀ t, x = some t → '&' ∉ t.value.fill id := by
  cases x with
  | none => simp
  | some t =>
    obtain ⟨value, suffix⟩ := t
    have hdenoted : (Target.map spell ⟨value, suffix⟩).denoted denote =
        ⟨value.map spell, suffix⟩ := by
      rw [Target.denoted, Target.map, h.spell]
    rw [Option.map_some, Option.map_some, hdenoted, Option.some.injEq, Target.mk.injEq,
      and_iff_left rfl, linkedText_map_spell]
    simp

end Ampersand

namespace LinkedProgram

open MediaLink.Tree Encoding

variable {κ : Type}

/-- The attribute of an element that stands as the `i`-th below the address has become the target, or
stands there as before if there is none. -/
def Becomes (c : Encoding) (o : Options) (body : List (Tree κ)) (p : List Nat) (i : Nat)
    (item : Tree κ) (x : Option Target) : Prop :=
  let linked := ofBody o body
  ∃ now, atAll? (kept o body linked.body) (p ++ [i]) = some now ∧
    match x with
    | none => text? now = text? item ∧ value? now = value? item
    | some t =>
      expression? now = some (t.tree (Binding.nameIn linked.bindings)) ∧
        (∀ path ∈ t.paths, path ∈ linked.bindings.map (·.path)) ∧
        (t.suffix ≠ [] → ∃ node, atAll? (kept o body linked.body) p = some node ∧
          c.suffixItem t.suffix ∈ node.parts)

theorem becomes_target (o : Options) (body : List (Tree κ)) {p : List Nat} {i : Nat}
    {c : Encoding} {e : Element} {item : Tree κ} {a : String × String}
    (hholder : holderAt? o body p = some (c, e)) (hitem : atAll? body (p ++ [i]) = some item)
    (htext : text? item = some a) : Becomes c o body p i item (target? e item) := by
  cases ht : target? e item with
  | none => exact attribute_kept_of_target?_eq_none o body hholder hitem htext ht
  | some t =>
    refine ⟨_, attribute_kept hholder hitem, ?_, ?_, ?_⟩
    · rw [replaceItem, ht]
      exact expression?_setValue _ ((text?_substitute _ o _ item).trans htext)
    · intro path hpath
      exact mem_paths_of_attribute hholder hitem ht hpath
    · intro hsuffix
      obtain ⟨form, items, hold, hnew⟩ := atAll?_kept hholder
      rw [atAll?_concat hholder, hold] at hitem
      refine ⟨_, hnew, List.mem_append_right _ (List.mem_map_of_mem ?_)⟩
      have hmem : some t ∈ items.map (target? e) :=
        ht ▸ List.mem_map_of_mem (List.mem_of_getElem? hitem)
      exact List.mem_filterMap.mpr ⟨t, List.mem_filterMap.mpr ⟨some t, hmem, rfl⟩, by simp [hsuffix]⟩

/-- An attribute of an element literal is linked by its text as it is spelled, not by what this
denotes. A text with character references for its ampersands becomes what the denoted text would
become, spelled; it means the same only where no ampersand is left in a path or in literal text. -/
theorem becomes_spelled {denote : List Char → List Char} (h : IsDenotation denote) (o : Options)
    (body : List (Tree κ)) {p : List Nat} {i : Nat} {e : Element} {item : Tree κ}
    {name text : String} {role : Role} (hholder : holderAt? o body p = some (.literal, e))
    (hitem : atAll? body (p ++ [i]) = some item) (htext : text? item = some (name, text))
    (hrole : e.role? name = some role) :
    let spelled := Target.ofValue? role text
    let denoted := Target.ofValue? role (String.ofList (denote text.toList))
    Becomes .literal o body p i item spelled ∧
      ∀ s, text.toList = spell s →
        denote text.toList = s ∧ spelled = denoted.map (Target.map spell) ∧
          (spelled.map (Target.denoted denote) = denoted ↔
            ∀ t, denoted = some t → '&' ∉ t.value.fill id) := by
  refine ⟨?_, fun s hs => ?_⟩
  · rw [← target?_eq_bind htext hrole]
    exact becomes_target o body hholder hitem htext
  · obtain rfl : String.ofList (spell s) = text := by rw [← hs, String.ofList_toList]
    rw [String.toList_ofList, h.spell, ofValue?_spell]
    exact ⟨rfl, rfl, map_denoted h _⟩

theorem becomes_spelled_query :
    let body : List (Tree Unit) :=
      [.node (.opening (.plain "img") true)
        [.node (.attribute (.plain "src")) [.string "a.png?x=1&amp;y=2"]]]
    let item : Tree Unit := .node (.attribute (.plain "src")) [.string "a.png?x=1&amp;y=2"]
    let spelled := Target.ofValue? .single "a.png?x=1&amp;y=2"
    IsDenotation unspell ∧ holderAt? {} body [0] = some (.literal, .img) ∧
      atAll? body ([0] ++ [0]) = some item ∧ text? item = some ("src", "a.png?x=1&amp;y=2") ∧
      Element.img.role? "src" = some .single ∧
      Becomes .literal {} body [0] 0 item spelled ∧
      spelled.map (Target.denoted unspell) = some ⟨.whole "./a.png".toList, "?x=1&y=2".toList⟩ := by
  intro body item spelled
  have hholder : holderAt? {} body [0] = some (.literal, .img) := by decide
  have hitem : atAll? body ([0] ++ [0]) = some item := rfl
  have htext : text? item = some ("src", "a.png?x=1&amp;y=2") := rfl
  have hrole : Element.img.role? "src" = some .single := by decide
  have hspelled : "a.png?x=1&amp;y=2".toList = spell "a.png?x=1&y=2".toList := by decide
  have hdenoted :
      Target.ofValue? .single (String.ofList (unspell "a.png?x=1&amp;y=2".toList)) =
        some ⟨.whole "./a.png".toList, "?x=1&y=2".toList⟩ := by
    decide
  obtain ⟨hbecomes, hread⟩ :=
    becomes_spelled isDenotation_unspell {} body hholder hitem htext hrole
  obtain ⟨-, -, hsame⟩ := hread _ hspelled
  rw [hdenoted] at hsame
  refine ⟨isDenotation_unspell, hholder, hitem, htext, hrole, hbecomes, hsame.mpr ?_⟩
  rintro t ht
  obtain rfl := Option.some.inj ht
  decide

theorem not_becomes_denoted :
    let literal : List (Tree Unit) :=
      [.node (.opening (.plain "img") true)
        [.node (.attribute (.plain "src")) [.string "a&amp;b.png"]]]
    let call : List (Tree Unit) :=
      [.node (.call false) [.identifier "_jsx", .string "img",
        .node .object [.node (.property {}) [.identifier "src", .string "a&b.png"]]]]
    IsDenotation unspell ∧ unspell "a&amp;b.png".toList = "a&b.png".toList ∧
      (ofBody {} literal).bindings.map (·.path) = ["./a&amp;b.png".toList] ∧
      (ofBody {} call).bindings.map (·.path) = ["./a&b.png".toList] :=
  ⟨isDenotation_unspell, by decide, by decide +kernel, by decide +kernel⟩

end LinkedProgram

end MediaLink
