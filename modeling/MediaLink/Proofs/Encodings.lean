import MediaLink.Proofs.Markup

namespace MediaLink

structure Surroundings (κ : Type) where
  before : List (Tree κ)
  behind : List (Tree κ)
  quiet : ∀ t ∈ before ++ behind, ∀ c o, Tree.eligible c o t = []

/-- A program with a place for a document, such as in its content function. -/
inductive Context (κ : Type) where
  | place (around : Surroundings κ)
  | within (around : Surroundings κ) (form : Form κ) (isPlain : Encoding.encodes form = false)
      (inner : Context κ)

def Context.fill {κ : Type} : Context κ → List (Tree κ) → List (Tree κ)
  | .place a, ts => a.before ++ ts ++ a.behind
  | .within a form _ inner, ts => a.before ++ .node form (inner.fill ts) :: a.behind

def Spelling.calls {κ : Type} (s : Spelling κ) (context : Context κ)
    (ms : List (Markup (List Written))) : List (Tree κ) :=
  context.fill (ms.map fun m => s.call m.unlinked)

def Spelling.literals {κ : Type} (s : Spelling κ) (context : Context κ)
    (ms : List (Markup (List Written))) : List (Tree κ) :=
  context.fill (ms.map fun m => s.literal m.unlinked)

namespace Tree

open Encoding

variable {κ : Type} (o : Options) (name : List Char → List Char)

/-- No element literal is found at a call. -/
theorem substitute_calling (isOptional : Bool) (parts : List (Tree κ)) :
    substitute [.call, .literal] o name (.node (.call isOptional) parts) =
      .node (.call isOptional) (Encoding.call.replaceAt o name (.call isOptional) parts
        (parts.map (substitute [.call, .literal] o name))) := by
  rw [substitute_node, List.foldl_cons, List.foldl_cons, List.foldl_nil, replaceAt_of_none rfl]

theorem substitute_opening (n : ElementName) (selfClosing : Bool) (parts : List (Tree κ)) :
    substitute [.call, .literal] o name (.node (.opening n selfClosing) parts) =
      .node (.opening n selfClosing) (Encoding.literal.replaceAt o name (.opening n selfClosing)
        parts (parts.map (substitute [.call, .literal] o name))) := by
  rw [substitute_node, List.foldl_cons, List.foldl_cons, List.foldl_nil,
    replaceAt_of_none (c := .call) rfl]

end Tree

namespace Spelling

open Encoding

variable {κ : Type} (s : Spelling κ) (o : Options) (name : List Char → List Char)

theorem target?_property (e : Element) (w : Written) :
    target? e (s.property (w, none)) = w.target? e := by
  rw [target?, text?_property]
  rfl

theorem target?_attributeLiteral (e : Element) (w : Written) :
    target? e (s.attributeLiteral (w, none)) = w.target? e := rfl

theorem target?_childrenProperty (e : Element) (children : List (Tree κ)) :
    target? e (s.childrenProperty children) = none := rfl

theorem substitute_property (w : Written) :
    Tree.substitute [.call, .literal] o name (s.property (w, none)) = s.property (w, none) :=
  Tree.substitute_of_eligible_eq_nil o name fun c => s.eligible_property o c w

theorem substitute_attributeLiteral (w : Written) :
    Tree.substitute [.call, .literal] o name (s.attributeLiteral (w, none)) =
      s.attributeLiteral (w, none) :=
  Tree.substitute_of_eligible_eq_nil o name fun c => s.eligible_attributeLiteral o c w

theorem substitute_childrenProperty (children : List (Tree κ)) :
    Tree.substitute [.call, .literal] o name (s.childrenProperty children) =
      s.childrenProperty (children.map (Tree.substitute [.call, .literal] o name)) := by
  have harray : encodes (.other (s.array children.length)) = false := rfl
  rw [childrenProperty, Tree.substitute_property, List.map_cons, List.map_cons, List.map_nil,
    Tree.substitute_of_encodes _ o name harray,
    Tree.substitute_of_eligible_eq_nil o name fun c => eligible_identifier o c "children",
    childrenProperty, List.length_map]

theorem replaceItem_property (e : Element) (w : Written) :
    replaceItem e name (s.property (w, none)) (s.property (w, none)) =
      s.property (w, (w.target? e).map (·.tree name)) := by
  rw [replaceItem, target?_property]
  cases w.target? e <;> rfl

theorem replaceItem_attributeLiteral (e : Element) (w : Written) :
    replaceItem e name (s.attributeLiteral (w, none)) (s.attributeLiteral (w, none)) =
      s.attributeLiteral (w, (w.target? e).map (·.tree name)) := by
  rw [replaceItem, target?_attributeLiteral]
  cases w.target? e <;> rfl

theorem substitute_properties (ws : List Written) (children : List (Tree κ)) :
    (s.properties (.authored ws) children).map (Tree.substitute [.call, .literal] o name) =
      s.properties (.authored ws)
        (children.map (Tree.substitute [.call, .literal] o name)) := by
  simp only [properties_authored, List.map_append, List.map_map, List.map_singleton,
    Function.comp_def, substitute_property, substitute_childrenProperty]

theorem substitute_attributeLiterals (ws : List Written) :
    (s.attributeLiterals (.authored ws)).map (Tree.substitute [.call, .literal] o name) =
      s.attributeLiterals (.authored ws) := by
  simp only [attributeLiterals_authored, List.map_map, Function.comp_def,
    substitute_attributeLiteral]

theorem properties_linked (e : Element) (ws : List Written) (children : List (Tree κ)) :
    (s.properties (.authored ws) children).map
          (fun item => replaceItem e name item (Tree.substitute [.call, .literal] o name item)) ++
        (Linking.suffixes ((s.properties (.authored ws) children).map (target? e))).map
          suffixProperty =
      s.properties (.linked e name ws)
        (children.map (Tree.substitute [.call, .literal] o name)) := by
  have hsuffixes : Linking.suffixes ((s.properties (.authored ws) children).map (target? e)) =
      Linking.suffixes (ws.map (·.target? e)) := by
    simp [properties_authored, Linking.suffixes, target?_property, target?_childrenProperty]
  have hchildren (now : Tree κ) : replaceItem e name (s.childrenProperty children) now = now := rfl
  rw [hsuffixes, properties_authored]
  simp only [List.map_append, List.map_map, List.map_singleton, Function.comp_def,
    substitute_property, replaceItem_property, hchildren, substitute_childrenProperty,
    properties, Attributes.linked, List.append_assoc, List.singleton_append]

theorem attributeLiterals_linked (e : Element) (ws : List Written) :
    (s.attributeLiterals (.authored ws)).map
          (fun item => replaceItem e name item (Tree.substitute [.call, .literal] o name item)) ++
        (Linking.suffixes ((s.attributeLiterals (.authored ws)).map (target? e))).map
          suffixLiteral =
      s.attributeLiterals (.linked e name ws) := by
  rw [attributeLiterals_authored]
  simp only [List.map_map, Function.comp_def, substitute_attributeLiteral,
    replaceItem_attributeLiteral, target?_attributeLiteral, attributeLiterals, Attributes.linked]

theorem substitute_call (m : Markup (List Written)) :
    Tree.substitute [.call, .literal] o name (s.call m.unlinked) = s.call (m.linked o name) := by
  induction m with
  | element tag ws ms ih =>
    have hmatch := s.match?_call o tag
      (s.properties (.authored ws) (ms.map fun m => s.call m.unlinked))
    have hchildren : (ms.map fun m => s.call m.unlinked).map
        (Tree.substitute [.call, .literal] o name) =
          (ms.map (Markup.linked o name)).map s.call := by
      rw [List.map_map, List.map_map]
      exact List.map_congr_left ih
    have hcallee := Tree.substitute_of_eligible_eq_nil o name fun c =>
      eligible_identifier (κ := κ) o c "_jsx"
    have hargument := Tree.substitute_of_eligible_eq_nil o name fun c => s.eligible_argument o c tag
    rw [call_unlinked, Tree.substitute_calling, List.map_cons, List.map_cons, List.map_cons,
      List.map_nil, hcallee, hargument, Tree.substitute_object, Markup.linked, Markup.map_element,
      call_element, Markup.linkedAttributes]
    cases he : Markup.element? o tag with
    | none =>
      rw [he] at hmatch
      rw [replaceAt_of_none hmatch, substitute_properties, hchildren]
      rfl
    | some e =>
      rw [he] at hmatch
      rw [replaceAt_call hmatch, properties_linked, hchildren]
      rfl

theorem substitute_literal (m : Markup (List Written)) :
    Tree.substitute [.call, .literal] o name (s.literal m.unlinked) =
      s.literal (m.linked o name) := by
  induction m with
  | element tag ws ms ih =>
    have hmatch := match?_literal o tag ms.isEmpty (s.attributeLiterals (.authored ws))
    have hchildren : (ms.map fun m => s.literal m.unlinked).map
        (Tree.substitute [.call, .literal] o name) =
          (ms.map (Markup.linked o name)).map s.literal := by
      rw [List.map_map, List.map_map]
      exact List.map_congr_left ih
    rw [literal_unlinked, Tree.substitute_of_encodes _ o name rfl, List.map_cons,
      Tree.substitute_opening, hchildren, Markup.linked, Markup.map_element, literal_element,
      List.isEmpty_map, List.length_map, Markup.linkedAttributes]
    cases he : Markup.element? o tag with
    | none =>
      rw [he] at hmatch
      rw [replaceAt_of_none hmatch, substitute_attributeLiterals]
      rfl
    | some e =>
      rw [he] at hmatch
      rw [replaceAt_literal hmatch, attributeLiterals_linked]
      rfl

end Spelling

namespace Context

variable {κ : Type} (o : Options)

theorem eligible_fill (c : Encoding) (context : Context κ) (ts : List (Tree κ)) :
    (context.fill ts).flatMap (Tree.eligible c o) = ts.flatMap (Tree.eligible c o) := by
  have hquiet (a : Surroundings κ) (us : List (Tree κ)) :
      (a.before ++ us ++ a.behind).flatMap (Tree.eligible c o) =
        us.flatMap (Tree.eligible c o) := by
    have hbefore : a.before.flatMap (Tree.eligible c o) = [] :=
      List.flatMap_eq_nil_iff.mpr fun t ht => a.quiet t (List.mem_append_left _ ht) c o
    have hbehind : a.behind.flatMap (Tree.eligible c o) = [] :=
      List.flatMap_eq_nil_iff.mpr fun t ht => a.quiet t (List.mem_append_right _ ht) c o
    rw [List.flatMap_append, List.flatMap_append, hbefore, hbehind, List.nil_append,
      List.append_nil]
  -- from the outermost statement down to the place
  induction context with
  | place around => exact hquiet around ts
  | within around form isPlain inner ih =>
    have h := hquiet around [.node form (inner.fill ts)]
    rw [List.append_assoc, List.singleton_append] at h
    rw [fill, h, List.flatMap_singleton, Tree.eligible_of_encodes c o isPlain, ih]

theorem substitute_fill (name : List Char → List Char) (context : Context κ) (ts : List (Tree κ)) :
    (context.fill ts).map (Tree.substitute [.call, .literal] o name) =
      context.fill (ts.map (Tree.substitute [.call, .literal] o name)) := by
  have hquiet (a : Surroundings κ) (us : List (Tree κ)) (h : us ⊆ a.before ++ a.behind) :
      us.map (Tree.substitute [.call, .literal] o name) = us :=
    (List.map_congr_left fun t ht => Tree.substitute_of_eligible_eq_nil o name fun c =>
      a.quiet t (h ht) c o).trans (List.map_id' us)
  induction context with
  | place a =>
    rw [fill, List.map_append, List.map_append, hquiet a _ (List.subset_append_left ..),
      hquiet a _ (List.subset_append_right ..), fill]
  | within a form isPlain inner ih =>
    rw [fill, List.map_append, List.map_cons, hquiet a _ (List.subset_append_left ..),
      hquiet a _ (List.subset_append_right ..), Tree.substitute_of_encodes _ o name isPlain, ih,
      fill]

theorem any_declares_fill (f : String) (context : Context κ) {ts us : List (Tree κ)}
    (h : ts.any (Tree.declares f) = us.any (Tree.declares f)) :
    (context.fill ts).any (Tree.declares f) = (context.fill us).any (Tree.declares f) := by
  cases context with
  | place a => simp only [fill, List.any_append, h]
  | within a form isPlain inner =>
    have hform : (Tree.node form (inner.fill ts)).declares f =
        (Tree.node form (inner.fill us)).declares f := by
      rw [Bool.eq_iff_iff, Tree.declares_iff, Tree.declares_iff]
      rfl
    simp only [fill, List.any_append, List.any_cons, hform]

end Context

namespace LinkedProgram

variable {κ : Type}

theorem allEligible_encodings (s : Spelling κ) (context : Context κ) (o : Options)
    (ms : List (Markup (List Written))) :
    Tree.allEligible o (s.literals context ms) = Tree.allEligible o (s.calls context ms) := by
  have hcalls : ms.flatMap (fun m => Tree.eligible .literal o (s.call m.unlinked)) = [] :=
    List.flatMap_eq_nil_iff.mpr fun m _ => s.eligible_literal_call o m
  have hliterals : ms.flatMap (fun m => Tree.eligible .call o (s.literal m.unlinked)) = [] :=
    List.flatMap_eq_nil_iff.mpr fun m _ => s.eligible_call_literal o m
  simp only [Spelling.literals, Spelling.calls, Tree.allEligible, Tree.eligibleAll_eq_flatMap,
    Context.eligible_fill, List.flatMap_map, hcalls, hliterals, List.nil_append, List.append_nil]
  exact List.flatMap_congr fun m _ => (s.eligible_call_eq o m).symm

theorem any_declares_encodings (s : Spelling κ) (context : Context κ)
    (ms : List (Markup (List Written))) (f : String) :
    (s.literals context ms).any (Tree.declares f) =
      (s.calls context ms).any (Tree.declares f) := by
  have hcall (m : Markup (List Written)) : (s.call m.unlinked).declares f = false := by
    obtain ⟨tag, ws, children⟩ := m
    rw [s.call_unlinked]
    rfl
  have hliteral (m : Markup (List Written)) : (s.literal m.unlinked).declares f = false := by
    obtain ⟨tag, ws, children⟩ := m
    rw [s.literal_unlinked]
    rfl
  apply context.any_declares_fill
  simp only [List.any_map, Function.comp_def, hcall, hliteral]

/-- A document is linked in the same way whether its elements are calls or literals: with the same
bindings, and with the same expressions and suffixes in the same elements. -/
theorem ofBody_encodings (s : Spelling κ) (context : Context κ) (o : Options)
    (ms : List (Markup (List Written))) :
    let calls := ofBody o (s.calls context ms)
    let literals := ofBody o (s.literals context ms)
    let linked := ms.map (Markup.linked o (Binding.nameIn calls.bindings))
    calls.bindings = literals.bindings ∧ calls.rewritten = literals.rewritten ∧
      calls.inserted = literals.inserted ∧
      kept o (s.calls context ms) calls.body = context.fill (linked.map s.call) ∧
      kept o (s.literals context ms) literals.body = context.fill (linked.map s.literal) := by
  intro calls literals linked
  have heligible := allEligible_encodings s context o ms
  have hbindings : bindingsOf o (s.literals context ms) = bindingsOf o (s.calls context ms) := by
    rw [bindingsOf, bindingsOf, heligible]
  have hnames : calls.bindings = bindingsOf o (s.calls context ms) := bindings_ofBody ..
  refine ⟨?_, ?_, ?_, ?_, ?_⟩
  · rw [hnames, bindings_ofBody, hbindings]
  · rw [rewritten_ofBody, rewritten_ofBody, heligible]
  · rw [inserted_ofBody, inserted_ofBody, hbindings, any_declares_encodings]
  · rw [kept_ofBody, substituted, Tree.substituteAll_eq_map, ← hnames, Spelling.calls,
      Context.substitute_fill, List.map_map, List.map_map]
    congr 1
    exact List.map_congr_left fun m _ => s.substitute_call o _ m
  · rw [kept_ofBody, substituted, hbindings, Tree.substituteAll_eq_map, ← hnames,
      Spelling.literals, Context.substitute_fill, List.map_map, List.map_map]
    congr 1
    exact List.map_congr_left fun m _ => s.substitute_literal o _ m

example :
    let s : Spelling Unit :=
      { array _ := (), element _ _ := (), quotesKey _ := false, raw _ := none,
        literalRaw _ := none }
    let empty : Surroundings Unit := ⟨[], [], by simp⟩
    let context : Context Unit :=
      .within empty (.function (some "_createMdxContent") false false) rfl (.place empty)
    let image : Markup (List Written) :=
      .element ⟨"img", true, rfl⟩ [⟨"src", "a.png#x"⟩] []
    let text : Markup (List Written) := .element ⟨"p", false, rfl⟩ [] [image]
    (ofBody {} (s.calls context [text])).rewritten = 1 ∧
      (ofBody {} (s.literals context [text])).inserted = true := by
  decide +kernel

end LinkedProgram

end MediaLink
