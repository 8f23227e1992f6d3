import MediaLink.Linking

namespace MediaLink

namespace Encoding

variable {κ : Type}

def encodes : Form κ → Bool
  | .call _ | .opening _ _ => true
  | _ => false

theorem match?_eq_none (c : Encoding) (o : Options) {form : Form κ} (h : encodes form = false)
    (parts : List (Tree κ)) : c.match? o form parts = none := by
  cases hm : c.match? o form parts with
  | none => rfl
  | some m =>
    cases c with
    | call =>
      obtain ⟨_, _, _, _, rfl, -⟩ := match?_call hm
      cases h
    | literal =>
      obtain ⟨_, _, rfl, -⟩ := match?_literal hm
      cases h

/-- The parts of a node of the form, once replaced in those that stand there now: `parts` are those
that say what the element is. -/
def replaceAt (c : Encoding) (o : Options) (name : List Char → List Char) (form : Form κ)
    (parts now : List (Tree κ)) : List (Tree κ) :=
  c.graft ((c.targets o form parts).map (Option.map (·.tree name)))
    (Linking.suffixes (c.targets o form parts)) now

/-- What becomes of an attribute of the element, which stands there as `now`. -/
def replaceItem (e : Element) (name : List Char → List Char) (item now : Tree κ) : Tree κ :=
  match target? e item with
  | some t => setValue (t.tree name) now
  | none => now

theorem setValues_targets (e : Element) (name : List Char → List Char) (f : Tree κ → Tree κ)
    (items : List (Tree κ)) :
    setValues (items.map f) ((items.map (target? e)).map (Option.map (·.tree name))) =
      items.map fun item => replaceItem e name item (f item) := by
  induction items with
  | nil => rfl
  | cons item items ih =>
    simp only [List.map_cons, replaceItem]
    cases target? e item with
    | none => simp only [Option.map_none, setValues, ih, replaceItem]
    | some t => simp only [Option.map_some, setValues, ih, replaceItem]

theorem map_setValues {f : Tree κ → Tree κ} {vs : List (Option (Tree κ))}
    (hf : ∀ v, some v ∈ vs → ∀ t, f (setValue v t) = setValue v (f t)) (ts : List (Tree κ)) :
    (setValues ts vs).map f = setValues (ts.map f) vs := by
  induction ts generalizing vs with
  | nil => cases vs <;> rfl
  | cons t ts ih =>
    cases vs with
    | nil => rfl
    | cons v vs =>
      have hts := ih fun v hm => hf v (List.mem_cons_of_mem _ hm)
      cases v with
      | none => simp only [setValues, List.map_cons, hts]
      | some v => simp only [setValues, List.map_cons, hts, hf v List.mem_cons_self t]

theorem map_setValues_append {f : Tree κ → Tree κ} {vs : List (Option (Tree κ))}
    (hf : ∀ v, some v ∈ vs → ∀ t, f (setValue v t) = setValue v (f t))
    {suffixTree : List Char → Tree κ} (hs : ∀ s, f (suffixTree s) = suffixTree s)
    (ts : List (Tree κ)) (ss : List (List Char)) :
    (setValues ts vs ++ ss.map suffixTree).map f =
      setValues (ts.map f) vs ++ ss.map suffixTree := by
  rw [List.map_append, map_setValues hf, List.map_map]
  congr 1
  apply List.map_congr_left
  intro s _
  exact hs s

theorem exists_target_of_mem {ts : List (Option Target)} {name : List Char → List Char}
    {v : Tree κ} (h : some v ∈ ts.map (Option.map (·.tree name))) :
    ∃ t : Target, t.tree name = v := by
  obtain ⟨t, -, ht⟩ := List.mem_map.mp h
  obtain ⟨t, -, ht⟩ := Option.map_eq_some_iff.mp ht
  exact ⟨t, ht⟩

theorem replaceAt_of_none {c : Encoding} {o : Options} {form : Form κ} {parts : List (Tree κ)}
    (h : c.match? o form parts = none) (name : List Char → List Char) (now : List (Tree κ)) :
    c.replaceAt o name form parts now = now := by
  rw [replaceAt, targets, h]
  exact graft_nil c now

theorem replaceAt_call {o : Options} {form : Form κ} {callee kind : Tree κ}
    {items rest : List (Tree κ)} {e : Element}
    (h : call.match? o form (callee :: kind :: .node .object items :: rest) = some (e, items))
    (name : List Char → List Char) (f : Tree κ → Tree κ) (callee' kind' : Tree κ)
    (rest' : List (Tree κ)) :
    call.replaceAt o name form (callee :: kind :: .node .object items :: rest)
        (callee' :: kind' :: .node .object (items.map f) :: rest') =
      callee' :: kind' ::
        .node .object (items.map (fun item => replaceItem e name item (f item)) ++
          (Linking.suffixes (items.map (target? e))).map suffixProperty) :: rest' := by
  simp only [replaceAt, targets, h, graft, setValues_targets]

theorem replaceAt_literal {o : Options} {form : Form κ} {items : List (Tree κ)} {e : Element}
    (h : literal.match? o form items = some (e, items))
    (name : List Char → List Char) (f : Tree κ → Tree κ) :
    literal.replaceAt o name form items (items.map f) =
      items.map (fun item => replaceItem e name item (f item)) ++
        (Linking.suffixes (items.map (target? e))).map suffixLiteral := by
  simp only [replaceAt, targets, h, graft, setValues_targets]

end Encoding

namespace Tree

open Encoding

variable {κ : Type}

mutual

def substitute (cs : List Encoding) (o : Options) (name : List Char → List Char) :
    Tree κ → Tree κ
  | .node form parts =>
    .node form (cs.foldl (fun now c => c.replaceAt o name form parts now)
      (substituteAll cs o name parts))

def substituteAll (cs : List Encoding) (o : Options) (name : List Char → List Char) :
    List (Tree κ) → List (Tree κ)
  | [] => []
  | t :: ts => substitute cs o name t :: substituteAll cs o name ts

end

variable (cs : List Encoding) (o : Options) (name : List Char → List Char)

theorem substituteAll_eq_map (ts : List (Tree κ)) :
    substituteAll cs o name ts = ts.map (substitute cs o name) := by
  induction ts with
  | nil => rfl
  | cons t ts ih => rw [substituteAll, ih, List.map_cons]

theorem substitute_node (form : Form κ) (parts : List (Tree κ)) :
    substitute cs o name (.node form parts) =
      .node form (cs.foldl (fun now c => c.replaceAt o name form parts now)
        (parts.map (substitute cs o name))) := by
  rw [substitute, substituteAll_eq_map]

theorem form_substitute (t : Tree κ) : (substitute cs o name t).form = t.form := by
  cases t
  rfl

theorem substitute_of_encodes {form : Form κ} (h : encodes form = false) (parts : List (Tree κ)) :
    substitute cs o name (.node form parts) = .node form (parts.map (substitute cs o name)) := by
  have hn : ∀ c ∈ cs, ∀ now, Encoding.replaceAt c o name form parts now = now :=
    fun c _ now => replaceAt_of_none (match?_eq_none c o h parts) name now
  rw [substitute_node]
  generalize parts.map (substitute cs o name) = now
  congr 1
  clear h
  induction cs generalizing now with
  | nil => rfl
  | cons c cs ih =>
    rw [List.foldl_cons, hn c List.mem_cons_self]
    exact ih (fun c hc => hn c (List.mem_cons_of_mem _ hc)) now

theorem substitute_string (value : String) (raw : Option String) (parts : List (Tree κ)) :
    substitute cs o name (.node (.string value raw) parts) =
      .node (.string value raw) (parts.map (substitute cs o name)) :=
  substitute_of_encodes cs o name rfl parts

theorem substitute_object (parts : List (Tree κ)) :
    substitute cs o name (.node .object parts) =
      .node .object (parts.map (substitute cs o name)) :=
  substitute_of_encodes cs o name rfl parts

theorem substitute_property (traits : PropertyTraits) (parts : List (Tree κ)) :
    substitute cs o name (.node (.property traits) parts) =
      .node (.property traits) (parts.map (substitute cs o name)) :=
  substitute_of_encodes cs o name rfl parts

theorem substitute_attribute (a : AttributeName) (parts : List (Tree κ)) :
    substitute cs o name (.node (.attribute a) parts) =
      .node (.attribute a) (parts.map (substitute cs o name)) :=
  substitute_of_encodes cs o name rfl parts

theorem substitute_container (parts : List (Tree κ)) :
    substitute cs o name (.node .container parts) =
      .node .container (parts.map (substitute cs o name)) :=
  substitute_of_encodes cs o name rfl parts

theorem keyName?_of_form {t u : Tree κ} (h : t.form = u.form) : keyName? t = keyName? u := by
  obtain ⟨f, ps⟩ := t
  obtain ⟨g, qs⟩ := u
  obtain rfl : f = g := h
  cases f <;> rfl

theorem string?_substitute (t : Tree κ) : string? (substitute cs o name t) = string? t := by
  obtain ⟨form, parts⟩ := t
  cases form with
  | string value raw =>
    rw [substitute_string]
    cases parts <;> rfl
  | _ => rfl

/-- Replacing further down does not change what an attribute says. -/
theorem text?_substitute (t : Tree κ) : text? (substitute cs o name t) = text? t := by
  obtain ⟨form, parts⟩ := t
  cases form with
  | property traits =>
    rw [substitute_property]
    match parts with
    | [key, value] =>
      simp only [List.map_cons, List.map_nil, text?, string?_substitute,
        keyName?_of_form (form_substitute cs o name key)]
    | [] | [_] | _ :: _ :: _ :: _ => rfl
  | «attribute» a =>
    rw [substitute_attribute]
    match a, parts with
    | .plain a, [value] =>
      simp only [List.map_cons, List.map_nil, text?, string?_substitute]
    | .plain a, [] | .plain a, _ :: _ :: _ | .namespaced _ _, _ => rfl
  | _ => rfl

theorem target?_substitute (e : Element) (t : Tree κ) :
    target? e (substitute cs o name t) = target? e t := by
  rw [target?, target?, text?_substitute]

theorem targets_literal_map (form : Form κ) (parts : List (Tree κ)) :
    literal.targets o form (parts.map (substitute cs o name)) = literal.targets o form parts := by
  cases form with
  | opening n selfClosing =>
    simp only [targets, match?]
    cases literalElement? o n with
    | none => rfl
    | some e =>
      simp only [Option.map_some, List.map_map]
      exact List.map_congr_left fun t _ => target?_substitute cs o name e t
  | _ => rfl

theorem substitute_tree (t : Target) (name' : List Char → List Char) :
    substitute cs o name (t.tree name' : Tree κ) = t.tree name' := by
  have href : ∀ p, substitute cs o name (Target.reference p : Tree κ) = Target.reference p :=
    fun p => substitute_of_encodes cs o name rfl []
  rw [Target.tree]
  split
  · exact href _
  · rw [substitute_of_encodes cs o name rfl, List.map_map]
    congr 1
    exact List.map_congr_left fun p _ => href _

theorem substitute_suffixProperty (s : List Char) :
    substitute cs o name (suffixProperty s : Tree κ) = suffixProperty s := by
  simp only [suffixProperty, Tree.string, substitute_property, substitute_string, List.map_cons,
    List.map_nil]

theorem substitute_suffixLiteral (s : List Char) :
    substitute cs o name (suffixLiteral s : Tree κ) = suffixLiteral s := by
  simp only [suffixLiteral, Tree.string, substitute_attribute, substitute_string, List.map_cons,
    List.map_nil]

theorem substitute_setValue {v : Tree κ} (hv : substitute cs o name v = v) (t : Tree κ) :
    substitute cs o name (setValue v t) = setValue v (substitute cs o name t) := by
  obtain ⟨form, parts⟩ := t
  cases form with
  | property traits =>
    match parts with
    | [] | [_] | [_, _] | _ :: _ :: _ :: _ =>
      simp only [setValue, substitute_property, List.map_cons, List.map_nil, hv]
  | «attribute» a =>
    simp only [setValue, substitute_attribute, substitute_container, List.map_cons, List.map_nil,
      hv]
  | _ => rfl

theorem map_graft (c : Encoding) {vs : List (Option (Tree κ))}
    (hv : ∀ v, some v ∈ vs → substitute cs o name v = v) (ss : List (List Char))
    (ts : List (Tree κ)) :
    (c.graft vs ss ts).map (substitute cs o name) =
      c.graft vs ss (ts.map (substitute cs o name)) := by
  have hset : ∀ v, some v ∈ vs → ∀ t,
      substitute cs o name (setValue v t) = setValue v (substitute cs o name t) :=
    fun v hm t => substitute_setValue cs o name (hv v hm) t
  cases c with
  | call =>
    match ts with
    | callee :: kind :: .node form members :: rest =>
      cases form with
      | object =>
        simp only [graft, List.map_cons, substitute_object,
          map_setValues_append hset (substitute_suffixProperty cs o name)]
      | _ => rfl
    | [] | [_] | [_, _] => rfl
  | literal => exact map_setValues_append hset (substitute_suffixLiteral cs o name) ts ss

/-- Replacing media at a node commutes with replacing them further down. -/
theorem map_replaceAt (c : Encoding) (name' : List Char → List Char) (form : Form κ)
    (parts now : List (Tree κ)) :
    (c.replaceAt o name' form parts now).map (substitute cs o name) =
      c.replaceAt o name' form parts (now.map (substitute cs o name)) := by
  refine map_graft cs o name c (fun v hv => ?_) _ now
  obtain ⟨t, rfl⟩ := exists_target_of_mem hv
  exact substitute_tree cs o name t name'

theorem targets_literal_replaceAt (form : Form κ) (parts : List (Tree κ)) :
    literal.targets o form
        (call.replaceAt o name form parts (parts.map (substitute cs o name))) =
      literal.targets o form parts := by
  cases hm : call.match? o form parts with
  | none => rw [replaceAt_of_none hm, targets_literal_map]
  | some m =>
    obtain ⟨_, _, _, _, rfl, -⟩ := match?_call hm
    rfl

/-- One walk for each encoding replaces what a single map over both does. -/
theorem substitute_substitute (t : Tree κ) :
    substitute [.literal] o name (substitute [.call] o name t) =
      substitute [.call, .literal] o name t := by
  induction t with
  | node form parts ih =>
    have hparts : (parts.map (substitute [.call] o name)).map (substitute [.literal] o name) =
        parts.map (substitute [.call, .literal] o name) := by
      rw [List.map_map]
      exact List.map_congr_left ih
    simp only [substitute_node, List.foldl_cons, List.foldl_nil, map_replaceAt, hparts]
    congr 1
    rw [replaceAt, targets_literal_replaceAt, ← replaceAt]

/-- What becomes of a node: one that is a call of an element, an element literal, or neither. -/
theorem substitute_cases (form : Form κ) (parts : List (Tree κ)) :
    let f := substitute [.call, .literal] o name
    (∃ e opt callee kind items rest, form = .call opt ∧
      parts = callee :: kind :: .node .object items :: rest ∧
      call.match? o form parts = some (e, items) ∧ literal.match? o form parts = none ∧
      f (.node form parts) = .node form (f callee :: f kind ::
        .node .object (items.map (fun item => replaceItem e name item (f item)) ++
          (Linking.suffixes (items.map (target? e))).map suffixProperty) :: rest.map f)) ∨
    (∃ e, call.match? o form parts = none ∧ literal.match? o form parts = some (e, parts) ∧
      f (.node form parts) = .node form (parts.map (fun item => replaceItem e name item (f item)) ++
        (Linking.suffixes (parts.map (target? e))).map suffixLiteral)) ∨
    (call.match? o form parts = none ∧ literal.match? o form parts = none ∧
      f (.node form parts) = .node form (parts.map f)) := by
  intro f
  have hf : f (.node form parts) = .node form (literal.replaceAt o name form parts
      (call.replaceAt o name form parts (parts.map f))) := substitute_node _ o name form parts
  cases hcall : call.match? o form parts with
  | some m =>
    obtain ⟨e, items⟩ := m
    obtain ⟨opt, callee, kind, rest, rfl, rfl⟩ := match?_call hcall
    have hliteral : literal.match? o (.call opt)
        (callee :: kind :: .node .object items :: rest) = none := rfl
    have hobject : f (.node .object items) = .node .object (items.map f) :=
      substitute_object _ o name items
    refine .inl ⟨e, opt, callee, kind, items, rest, rfl, rfl, rfl, hliteral, ?_⟩
    rw [hf, replaceAt_of_none hliteral, List.map_cons, List.map_cons, List.map_cons, hobject,
      replaceAt_call hcall]
  | none =>
    rw [replaceAt_of_none hcall] at hf
    cases hliteral : literal.match? o form parts with
    | some m =>
      obtain ⟨e, items⟩ := m
      obtain ⟨_, _, rfl, rfl⟩ := match?_literal hliteral
      rw [replaceAt_literal hliteral] at hf
      exact .inr (.inl ⟨e, rfl, rfl, hf⟩)
    | none =>
      rw [replaceAt_of_none hliteral] at hf
      exact .inr (.inr ⟨rfl, rfl, hf⟩)

end Tree

end MediaLink
