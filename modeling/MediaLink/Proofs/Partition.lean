import MediaLink.Proofs.Placement

namespace MediaLink

namespace Encoding

variable {κ : Type}

def suffixItem : Encoding → List Char → Tree κ
  | call => suffixProperty
  | literal => suffixLiteral

end Encoding

namespace Tree

open Encoding

variable {κ : Type}

/-- The subtree at an address, which says part by part how to go down to it. -/
def at? (t : Tree κ) : List Nat → Option (Tree κ)
  | [] => some t
  | i :: p => t.parts[i]?.bind fun u => at? u p

def items : Tree κ → List (Tree κ)
  | .node .object members => members
  | .node (.opening _ _) attributes => attributes
  | _ => []

/-- Whether an attribute with a text has become one without. -/
def isReplaced (t now : Option (Tree κ)) : Bool :=
  t.any (fun t => (text? t).isSome) && now.any fun u => (text? u).isNone

def appended (t now : Option (Tree κ)) : List (Tree κ) :=
  t.elim [] fun t => now.elim [] fun u => u.items.drop t.items.length

def changes (t now : Tree κ) (p : List Nat) : List (Tree κ) × (Nat → Bool) :=
  (appended (t.at? p) (now.at? p), fun i => isReplaced (t.at? (p ++ [i])) (now.at? (p ++ [i])))

def noChanges : List (Tree κ) × (Nat → Bool) := ([], fun _ => false)

/-- The element whose attributes the node at an address holds, and how it is encoded. -/
def holder? (o : Options) : Tree κ → List Nat → Option (Encoding × Element)
  | .node form parts, [] => (literal.match? o form parts).map fun m => (literal, m.1)
  | .node form parts, i :: p =>
    ((if i = 2 ∧ p = [] then call.match? o form parts else none).map fun m => (call, m.1)).or
      (parts[i]?.bind fun t => holder? o t p)

def changesOf (items : List (Tree κ)) : Option (Encoding × Element) →
    List (Tree κ) × (Nat → Bool)
  | some (c, e) => ((Linking.suffixes (items.map (target? e))).map c.suffixItem,
      fun i => items[i]?.any fun item => (target? e item).isSome)
  | none => noChanges

theorem isReplaced_of_text? {t u : Tree κ} (h : text? u = text? t) :
    isReplaced (some t) (some u) = false := by
  cases ht : text? t <;> simp [isReplaced, h, ht]

theorem isReplaced_of_text?_eq_none {t : Tree κ} (h : text? t = none) (now : Option (Tree κ)) :
    isReplaced (some t) now = false := by
  simp [isReplaced, h]

theorem text?_of_string? {t : Tree κ} {s : String} (h : string? t = some s) : text? t = none := by
  obtain ⟨raw, rfl⟩ := string?_eq_some h
  rfl

theorem isReplaced_replaceItem (e : Element) (name : List Char → List Char) {item now : Tree κ}
    (h : text? now = text? item) :
    isReplaced (some item) (some (replaceItem e name item now)) = (target? e item).isSome := by
  rw [replaceItem]
  cases ht : target? e item with
  | none => exact isReplaced_of_text? h
  | some t =>
    obtain ⟨a, ha, -⟩ := Option.bind_eq_some_iff.mp ht
    have hnow := text?_setValue (string?_tree t name) (h.trans ha)
    simp [isReplaced, ha, hnow]

theorem changes_nil (t u : Tree κ) :
    changes t u [] =
      (u.items.drop t.items.length, fun i => isReplaced t.parts[i]? u.parts[i]?) := by
  simp [changes, appended, at?]

theorem changes_cons {t u a b : Tree κ} {i : Nat} (p : List Nat) (ht : t.parts[i]? = some a)
    (hu : u.parts[i]? = some b) : changes t u (i :: p) = changes a b p := by
  simp [changes, at?, ht, hu]

theorem changes_cons_of_none {t u : Tree κ} {i : Nat} (p : List Nat) (ht : t.parts[i]? = none) :
    changes t u (i :: p) = noChanges := by
  simp [changes, at?, ht, appended, isReplaced, noChanges]

theorem changes_of_string? {t u : Tree κ} {s : String} (ht : string? t = some s)
    (hu : u.items = []) (p : List Nat) : changes t u p = noChanges := by
  obtain ⟨raw, rfl⟩ := string?_eq_some ht
  cases p with
  | nil => simp [changes_nil, hu, noChanges, parts, isReplaced]
  | cons i p => exact changes_cons_of_none p rfl

theorem items_tree (t : Target) (name : List Char → List Char) :
    (t.tree name : Tree κ).items = [] := by
  rw [Target.tree]
  split
  · rfl
  · rfl

/-- It makes no difference what stands in place of a string, if it holds no attributes. -/
theorem changes_congr {t u u' : Tree κ} (hitems : u.items = u'.items)
    (hparts : ∀ i : Nat, u.parts[i]? = u'.parts[i]? ∨
      ∃ (a : Tree κ) (s : String) (b b' : Tree κ), t.parts[i]? = some a ∧ string? a = some s ∧
        u.parts[i]? = some b ∧ b.items = [] ∧ u'.parts[i]? = some b' ∧ b'.items = [])
    (p : List Nat) : changes t u p = changes t u' p := by
  cases p with
  | nil =>
    rw [changes_nil, changes_nil, hitems]
    refine Prod.ext rfl (funext fun i => ?_)
    obtain h | ⟨a, s, b, b', ha, hs, -⟩ := hparts i
    · exact congrArg (isReplaced t.parts[i]?) h
    · have hfalse := isReplaced_of_text?_eq_none (text?_of_string? hs)
      simp only [ha, hfalse]
  | cons i p =>
    obtain h | ⟨a, s, b, b', ha, hs, hb, hbitems, hb', hb'items⟩ := hparts i
    · simp only [changes, at?, List.cons_append, h]
    · rw [changes_cons p ha hb, changes_cons p ha hb', changes_of_string? hs hbitems,
        changes_of_string? hs hb'items]

theorem changes_replaceItem (e : Element) (cs : List Encoding) (o : Options)
    (name : List Char → List Char) (item : Tree κ) (p : List Nat) :
    changes item (replaceItem e name item (substitute cs o name item)) p =
      changes item (substitute cs o name item) p := by
  cases ht : target? e item with
  | none => rw [replaceItem, ht]
  | some t =>
    obtain ⟨a, ha, -⟩ := Option.bind_eq_some_iff.mp ht
    have hstring (v : Tree κ) (hv : string? v = some a.2) :
        (substitute cs o name v).items = [] := by
      obtain ⟨raw, rfl⟩ := string?_eq_some hv
      rfl
    simp only [replaceItem, ht]
    obtain ⟨traits, key, value, rfl, hs⟩ | ⟨n, value, rfl, hs⟩ := text?_eq_some ha
    · rw [substitute_property, List.map_cons, List.map_cons, List.map_nil, setValue]
      refine changes_congr (by rfl) (fun i => ?_) p
      obtain _ | _ | i := i
      · exact .inl rfl
      · exact .inr ⟨value, a.2, _, _, rfl, hs, rfl, items_tree t name, rfl, hstring value hs⟩
      · exact .inl rfl
    · rw [substitute_attribute, List.map_cons, List.map_nil, setValue]
      refine changes_congr (by rfl) (fun i => ?_) p
      cases i with
      | zero => exact .inr ⟨value, a.2, _, _, rfl, hs, rfl, rfl, rfl, hstring value hs⟩
      | succ i => exact .inl rfl

theorem getElem?_map_append {ts : List (Tree κ)} (us : List (Tree κ)) (f : Tree κ → Tree κ)
    {i : Nat} {t : Tree κ} (h : ts[i]? = some t) : (ts.map f ++ us)[i]? = some (f t) := by
  have hi : i < (ts.map f).length := by
    rw [List.length_map]
    exact (List.getElem?_eq_some_iff.mp h).1
  rw [List.getElem?_append_left hi, List.getElem?_map, h, Option.map_some]

theorem changes_map_append (form form' : Form κ) (ts us : List (Tree κ)) (f : Tree κ → Tree κ)
    (i : Nat) (p : List Nat) :
    changes (.node form ts) (.node form' (ts.map f ++ us)) (i :: p) =
      ts[i]?.elim noChanges fun t => changes t (f t) p := by
  cases ht : ts[i]? with
  | none => exact changes_cons_of_none p ht
  | some t => exact changes_cons p ht (getElem?_map_append us f ht)

theorem isReplaced_map_append (ts us : List (Tree κ)) (f : Tree κ → Tree κ) (i : Nat) :
    isReplaced ts[i]? (ts.map f ++ us)[i]? =
      ts[i]?.any fun t => isReplaced (some t) (some (f t)) := by
  cases ht : ts[i]? with
  | none => rfl
  | some t => rw [getElem?_map_append us f ht, Option.any_some]

theorem changes_map (form form' : Form κ) (ts : List (Tree κ)) (f : Tree κ → Tree κ) (i : Nat)
    (p : List Nat) :
    changes (.node form ts) (.node form' (ts.map f)) (i :: p) =
      ts[i]?.elim noChanges fun t => changes t (f t) p := by
  have h := changes_map_append form form' ts [] f i p
  rwa [List.append_nil] at h

theorem isReplaced_map {ts : List (Tree κ)} {f : Tree κ → Tree κ} (hf : ∀ t, text? (f t) = text? t)
    (i : Nat) : isReplaced ts[i]? (ts.map f)[i]? = false := by
  rw [List.getElem?_map]
  cases ts[i]? with
  | none => rfl
  | some t => exact isReplaced_of_text? (hf t)

theorem changes_map_nil (form : Form κ) (ts : List (Tree κ)) {f : Tree κ → Tree κ}
    (hf : ∀ t, text? (f t) = text? t) :
    changes (.node form ts) (.node form (ts.map f)) [] = noChanges := by
  have hitems : (Tree.node form (ts.map f)).items.drop (Tree.node form ts).items.length = [] := by
    cases form <;> simp [items]
  rw [changes_nil, hitems]
  exact Prod.ext rfl (funext fun i => isReplaced_map hf i)

theorem changes_items (c : Encoding) (e : Element) (name : List Char → List Char) {form : Form κ}
    (hform : ∀ ts, (Tree.node form ts).items = ts) (ts : List (Tree κ)) {f : Tree κ → Tree κ}
    (hf : ∀ t, text? (f t) = text? t) :
    changes (.node form ts) (.node form (ts.map (fun item => replaceItem e name item (f item)) ++
        (Linking.suffixes (ts.map (target? e))).map c.suffixItem)) [] =
      changesOf ts (some (c, e)) := by
  rw [changes_nil, hform, hform, List.drop_left' (List.length_map ..), changesOf]
  refine Prod.ext rfl (funext fun i => ?_)
  simp only [parts, isReplaced_map_append, isReplaced_replaceItem e name (hf _)]

/-- Below a node linking is seen as it is seen from the part that the address leads into. Only the
object of a call is seen from the call. -/
theorem changes_substitute_cons (o : Options) (name : List Char → List Char) (form : Form κ)
    (ts : List (Tree κ)) {i : Nat} {p : List Nat}
    (h : i = 2 ∧ p = [] → call.match? o form ts = none) :
    changes (.node form ts) (substitute [.call, .literal] o name (.node form ts)) (i :: p) =
      ts[i]?.elim noChanges fun t => changes t (substitute [.call, .literal] o name t) p := by
  have hf (e : Element) (p : List Nat) (t : Tree κ) :
      changes t (replaceItem e name t (substitute [.call, .literal] o name t)) p =
        changes t (substitute [.call, .literal] o name t) p :=
    changes_replaceItem e _ o name t p
  obtain ⟨e, opt, callee, kind, items, rest, rfl, rfl, hcall, hliteral, hnode⟩ |
    ⟨e, hcall, hliteral, hnode⟩ | ⟨hcall, hliteral, hnode⟩ := substitute_cases o name form ts
  · rw [hnode]
    match i, p with
    | 0, p | 1, p => rfl
    | 2, [] =>
      rw [h ⟨rfl, rfl⟩] at hcall
      cases hcall
    | 2, j :: p =>
      rw [changes_cons _ rfl rfl, changes_map_append]
      simp only [List.getElem?_cons_succ, List.getElem?_cons_zero, Option.elim_some,
        substitute_object, changes_map, hf]
    | i + 3, p => exact changes_map (.call opt) (.call opt) rest _ i p
  · rw [hnode, changes_map_append]
    simp only [hf]
  · rw [hnode, changes_map]

theorem changes_substitute_nil (o : Options) (name : List Char → List Char) (form : Form κ)
    (ts : List (Tree κ)) :
    changes (.node form ts) (substitute [.call, .literal] o name (.node form ts)) [] =
      changesOf (Tree.node form ts).items
        ((literal.match? o form ts).map fun m => (literal, m.1)) := by
  have htext := text?_substitute (κ := κ) [.call, .literal] o name
  obtain ⟨e, opt, callee, kind, items, rest, rfl, rfl, hcall, hliteral, hnode⟩ |
    ⟨e, hcall, hliteral, hnode⟩ | ⟨hcall, hliteral, hnode⟩ := substitute_cases o name form ts
  · rw [hnode, changes_nil, hliteral]
    refine Prod.ext rfl (funext fun i => ?_)
    match i with
    | 0 => exact isReplaced_of_text? (htext callee)
    | 1 => exact isReplaced_of_text? (htext kind)
    | 2 => rfl
    | i + 3 => exact isReplaced_map htext i
  · obtain ⟨n, selfClosing, rfl, -⟩ := match?_literal hliteral
    rw [hnode, hliteral]
    exact changes_items literal e name (fun _ => rfl) ts htext
  · rw [hnode, hliteral]
    exact changes_map_nil form ts htext

/-- What there is to see of linking at an address depends on the element there alone. -/
theorem changes_substitute (o : Options) (name : List Char → List Char) (t : Tree κ)
    (p : List Nat) :
    changes t (substitute [.call, .literal] o name t) p =
      changesOf ((t.at? p).elim [] items) (holder? o t p) := by
  induction t generalizing p with
  | node form ts ih =>
    cases p with
    | nil => exact changes_substitute_nil o name form ts
    | cons i p =>
      have hbelow : ts[i]?.elim noChanges (fun t =>
          changes t (substitute [.call, .literal] o name t) p) =
          changesOf (((Tree.node form ts).at? (i :: p)).elim [] items)
            (ts[i]?.bind fun t => holder? o t p) := by
        rw [at?, parts]
        cases ht : ts[i]? with
        | none => rfl
        | some t => exact ih t (List.mem_of_getElem? ht) p
      by_cases h : i = 2 ∧ p = [] ∧ (call.match? o form ts).isSome
      · -- the address of the object, which is changed because of the call around it
        obtain ⟨rfl, rfl, hm⟩ := h
        obtain ⟨⟨e, items⟩, hm⟩ := Option.isSome_iff_exists.mp hm
        obtain ⟨opt, callee, kind, rest, rfl, rfl⟩ := match?_call hm
        rw [substitute_node, holder?, if_pos ⟨rfl, rfl⟩, hm]
        simp only [List.foldl_cons, List.foldl_nil, List.map_cons, substitute_object,
          replaceAt_call hm]
        exact changes_items call e name (fun _ => rfl) items (text?_substitute _ o name)
      · have hnone : i = 2 ∧ p = [] → call.match? o form ts = none := by
          simpa [Option.isSome_iff_ne_none] using h
        rw [changes_substitute_cons o name form ts hnone, hbelow, holder?,
          ite_eq_right_iff.mpr hnone, Option.map_none, Option.none_or]

/-- The object of a call holds attributes as the call says, not by itself. -/
theorem bind_holder?_of_call {o : Options} {form : Form κ} {ts : List (Tree κ)}
    {m : Element × List (Tree κ)} (h : call.match? o form ts = some m) (o' : Options) :
    (ts[2]?.bind fun t => holder? o' t []) = none := by
  obtain ⟨_, _, _, _, rfl, rfl⟩ := match?_call h
  rfl

theorem holder?_splits {o o₁ o₂ : Options} (h : o.Splits o₁ o₂) (t : Tree κ) (p : List Nat) :
    Splits (holder? o t p) (holder? o₁ t p) (holder? o₂ t p) := by
  induction p generalizing t with
  | nil =>
    obtain ⟨form, ts⟩ := t
    exact (match?_splits h literal form ts).map fun m => (literal, m.1)
  | cons i p ih =>
    obtain ⟨form, ts⟩ := t
    have hbelow : Splits (ts[i]?.bind fun t => holder? o t p) (ts[i]?.bind fun t => holder? o₁ t p)
        (ts[i]?.bind fun t => holder? o₂ t p) := by
      cases ts[i]? with
      | none => exact .inl ⟨rfl, rfl⟩
      | some t => exact ih t
    simp only [holder?]
    by_cases hp : i = 2 ∧ p = []
    · obtain ⟨rfl, rfl⟩ := hp
      by_cases hnone : ∀ o', call.match? o' form ts = none
      · simpa only [hnone, ite_self, Option.map_none, Option.none_or] using hbelow
      · -- the node is a call for some options, so its object is no holder for any
        obtain ⟨o', hm⟩ := not_forall.mp hnone
        obtain ⟨m, hm⟩ := Option.ne_none_iff_exists'.mp hm
        simp only [bind_holder?_of_call hm, Option.or_none, and_self, if_true]
        exact (match?_splits h call form ts).map fun m => (call, m.1)
    · simpa only [hp, if_false, Option.map_none, Option.none_or] using hbelow

def atAll? (ts : List (Tree κ)) : List Nat → Option (Tree κ)
  | [] => none
  | i :: p => ts[i]?.bind fun t => t.at? p

end Tree

namespace LinkedProgram

open MediaLink.Tree

variable {κ : Type}

def replacedAt (o : Options) (body : List (Tree κ)) (p : List Nat) : Bool :=
  isReplaced (atAll? body p) (atAll? (kept o body (ofBody o body).body) p)

def appendedAt (o : Options) (body : List (Tree κ)) (p : List Nat) : List (Tree κ) :=
  appended (atAll? body p) (atAll? (kept o body (ofBody o body).body) p)

def holderAt? (o : Options) (body : List (Tree κ)) : List Nat → Option (Encoding × Element)
  | [] => none
  | i :: p => body[i]?.bind fun t => holder? o t p

theorem getElem?_kept (o : Options) (body : List (Tree κ)) (i : Nat) :
    (kept o body (ofBody o body).body)[i]? = body[i]?.map (linkTree o body) := by
  rw [kept_ofBody, ← map_linkTree, List.getElem?_map]

theorem changesAt_eq (o : Options) (body : List (Tree κ)) (p : List Nat) :
    (appendedAt o body p, fun i => replacedAt o body (p ++ [i])) =
      changesOf ((atAll? body p).elim [] items) (holderAt? o body p) := by
  cases p with
  | nil =>
    refine Prod.ext rfl (funext fun i => ?_)
    simp only [List.nil_append, replacedAt, atAll?, at?, getElem?_kept]
    cases body[i]? with
    | none => rfl
    | some t => exact isReplaced_of_text? (text?_substitute _ o _ t)
  | cons i p =>
    simp only [appendedAt, replacedAt, List.cons_append, atAll?, holderAt?, getElem?_kept]
    cases body[i]? with
    | none => rfl
    | some t => exact changes_substitute o _ t p

theorem holderAt?_splits {o o₁ o₂ : Options} (h : o.Splits o₁ o₂) (body : List (Tree κ))
    (p : List Nat) :
    Splits (holderAt? o body p) (holderAt? o₁ body p) (holderAt? o₂ body p) := by
  cases p with
  | nil => exact .inl ⟨rfl, rfl⟩
  | cons i p =>
    rw [holderAt?, holderAt?, holderAt?]
    cases body[i]? with
    | none => exact .inl ⟨rfl, rfl⟩
    | some t => exact holder?_splits h t p

/-- To the element whose attributes stand at the address, linking with `o` does what it does with
`o₁`, and nothing with `o₂`. -/
structure LinksAs (o o₁ o₂ : Options) (body : List (Tree κ)) (p : List Nat) : Prop where
  replaced_eq : ∀ i, replacedAt o body (p ++ [i]) = replacedAt o₁ body (p ++ [i])
  appended_eq : appendedAt o body p = appendedAt o₁ body p
  not_replaced : ∀ i, replacedAt o₂ body (p ++ [i]) = false
  not_appended : appendedAt o₂ body p = []

/-- What is linked with `o` is linked with one of the two others. -/
structure Partitions (o o₁ o₂ : Options) (body : List (Tree κ)) : Prop where
  replaced_eq : ∀ p, replacedAt o body p = (replacedAt o₁ body p ^^ replacedAt o₂ body p)
  disjoint : ∀ p, (replacedAt o₁ body p && replacedAt o₂ body p) = false
  element : ∀ p, LinksAs o o₁ o₂ body p ∨ LinksAs o o₂ o₁ body p
  rewritten_eq :
    (ofBody o body).rewritten = (ofBody o₁ body).rewritten + (ofBody o₂ body).rewritten
  mem_paths : ∀ path, path ∈ (ofBody o body).bindings.map (·.path) ↔
    path ∈ (ofBody o₁ body).bindings.map (·.path) ∨ path ∈ (ofBody o₂ body).bindings.map (·.path)

theorem linksAs_of_holderAt? {o o₁ o₂ : Options} {body : List (Tree κ)} {p : List Nat}
    (h : holderAt? o body p = holderAt? o₁ body p) (hnone : holderAt? o₂ body p = none) :
    LinksAs o o₁ o₂ body p := by
  have heq := (changesAt_eq o body p).trans ((h ▸ changesAt_eq o₁ body p).symm)
  have hno := changesAt_eq o₂ body p
  rw [hnone] at hno
  exact ⟨fun i => congrFun (congrArg Prod.snd heq) i, congrArg Prod.fst heq,
    fun i => congrFun (congrArg Prod.snd hno) i, congrArg Prod.fst hno⟩

theorem linksAs_or {o o₁ o₂ : Options} (h : o.Splits o₁ o₂) (body : List (Tree κ)) (p : List Nat) :
    LinksAs o o₁ o₂ body p ∨ LinksAs o o₂ o₁ body p := by
  obtain ⟨heq, hnone⟩ | ⟨heq, hnone⟩ := holderAt?_splits h body p
  · exact .inl (linksAs_of_holderAt? heq hnone)
  · exact .inr (linksAs_of_holderAt? heq hnone)

theorem mem_paths_ofBody (o : Options) (body : List (Tree κ)) (path : List Char) :
    path ∈ (ofBody o body).bindings.map (·.path) ↔
      ∃ a ∈ allEligible o body, path ∈ a.paths := by
  rw [bindings_ofBody, bindingsOf, Registry.paths_resolveAll, List.mem_eraseDups,
    List.mem_flatMap]

theorem partitions_of_splits {o o₁ o₂ : Options} (h : o.Splits o₁ o₂) (body : List (Tree κ)) :
    Partitions o o₁ o₂ body := by
  have hperm := allEligible_perm h body
  have hcases (p : List Nat) :
      replacedAt o body p = (replacedAt o₁ body p ^^ replacedAt o₂ body p) ∧
        (replacedAt o₁ body p && replacedAt o₂ body p) = false := by
    obtain rfl | ⟨p, i, rfl⟩ := List.eq_nil_or_concat' p
    · exact ⟨rfl, rfl⟩
    · obtain hl | hl := linksAs_or h body p
      · simp [hl.replaced_eq, hl.not_replaced]
      · simp [hl.replaced_eq, hl.not_replaced]
  refine ⟨fun p => (hcases p).1, fun p => (hcases p).2, linksAs_or h body, ?_, fun path => ?_⟩
  · simp only [rewritten_ofBody, hperm.length_eq, List.length_append]
  · simp only [mem_paths_ofBody, hperm.mem_iff, List.mem_append, or_and_right, exists_or]

/-- Media authored as HTML and media authored as Markdown are linked apart from each other: each of
them as if nothing was excluded, and none if both are. -/
theorem partitions_of_exclusion {o oHtml oMarkdown oBoth : Options}
    (h : ∀ a, o.excludes a = false) (hHtml : ∀ a, oHtml.excludes a = decide (a = .html))
    (hMarkdown : ∀ a, oMarkdown.excludes a = decide (a = .markdown))
    (hBoth : ∀ a, oBoth.excludes a = true) (body : List (Tree κ)) :
    Partitions o oHtml oMarkdown body ∧
      ofBody oBoth body = { body, bindings := [], inserted := false, rewritten := 0 } := by
  refine ⟨partitions_of_splits (fun a => ?_) body, ofBody_of_excludes hBoth body⟩
  cases a with
  | html => exact .inr ⟨(h .html).trans (hMarkdown .html).symm, hHtml .html⟩
  | markdown => exact .inl ⟨(h .markdown).trans (hHtml .markdown).symm, hMarkdown .markdown⟩

theorem partitions_of_exclusion_mixed :
    let body : List (Tree Unit) :=
      [.node (.function (some "_createMdxContent") false false)
        [.node (.call false) [.identifier "_jsx", .string "img",
          .node .object [.node (.property {}) [.identifier "src", .string "a.png#top"]]],
         .node (.opening (.member (.plain "_components") "img") true)
          [.node (.attribute (.plain "src")) [.string "b.png"]]]]
    (∀ a, Options.excludes {} a = false) ∧
      (∀ a, Options.excludes ⟨[.html], none⟩ a = decide (a = .html)) ∧
      (∀ a, Options.excludes ⟨[.markdown], none⟩ a = decide (a = .markdown)) ∧
      (∀ a, Options.excludes ⟨[.html, .markdown], none⟩ a = true) ∧
      replacedAt ⟨[.html], none⟩ body [0, 1, 0] ∧ replacedAt ⟨[.markdown], none⟩ body [0, 0, 2, 0] ∧
      Partitions {} ⟨[.html], none⟩ ⟨[.markdown], none⟩ body ∧
      ofBody ⟨[.html, .markdown], none⟩ body =
        { body, bindings := [], inserted := false, rewritten := 0 } := by
  intro body
  have h (a : Authoring) : Options.excludes {} a = false := by
    cases a <;> rfl
  have hHtml (a : Authoring) : Options.excludes ⟨[.html], none⟩ a = decide (a = .html) := by
    cases a <;> rfl
  have hMarkdown (a : Authoring) :
      Options.excludes ⟨[.markdown], none⟩ a = decide (a = .markdown) := by
    cases a <;> rfl
  have hBoth (a : Authoring) : Options.excludes ⟨[.html, .markdown], none⟩ a = true := by
    cases a <;> rfl
  exact ⟨h, hHtml, hMarkdown, hBoth, by decide +kernel, by decide +kernel,
    partitions_of_exclusion h hHtml hMarkdown hBoth body⟩

end LinkedProgram

end MediaLink
