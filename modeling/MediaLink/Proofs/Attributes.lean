import MediaLink.Proofs.Partition

namespace MediaLink

namespace Tree

open Encoding

variable {κ : Type} (o : Options) (name : List Char → List Char)

theorem holder?_of_string? {t : Tree κ} {s : String} (h : string? t = some s) (p : List Nat) :
    holder? o t p = none := by
  obtain ⟨raw, rfl⟩ := string?_eq_some h
  cases p with
  | nil => rfl
  | cons i p => simp [holder?, match?]

theorem holder?_of_encodes {form : Form κ} (h : encodes form = false) (ts : List (Tree κ)) (i : Nat)
    (p : List Nat) : holder? o (.node form ts) (i :: p) = ts[i]?.bind fun t => holder? o t p := by
  rw [holder?, match?_eq_none call o h, ite_self, Option.map_none, Option.none_or]

theorem at?_replaceItem (e : Element) (cs : List Encoding) {item : Tree κ} {p : List Nat}
    {m : Encoding × Element} (h : holder? o item p = some m) :
    (replaceItem e name item (substitute cs o name item)).at? p =
      (substitute cs o name item).at? p := by
  cases ht : target? e item with
  | none => rw [replaceItem, ht]
  | some t =>
    obtain ⟨a, ha, -⟩ := Option.bind_eq_some_iff.mp ht
    simp only [replaceItem, ht]
    -- What is replaced is a string, and no element is held below it.
    obtain ⟨traits, key, value, rfl, hs⟩ | ⟨n, value, rfl, hs⟩ := text?_eq_some ha
    · rw [substitute_property, List.map_cons, List.map_cons, List.map_nil, setValue]
      obtain _ | ⟨_ | _ | k, p⟩ := p
      · cases h
      · rfl
      · rw [holder?_of_encodes o rfl] at h
        simp [holder?_of_string? o hs] at h
      · rfl
    · rw [substitute_attribute, List.map_singleton, setValue]
      obtain _ | ⟨_ | k, p⟩ := p
      · cases h
      · rw [holder?_of_encodes o rfl] at h
        simp [holder?_of_string? o hs] at h
      · rfl

theorem at?_cons {t u : Tree κ} {i : Nat} (h : t.parts[i]? = some u) (p : List Nat) :
    t.at? (i :: p) = u.at? p := by
  rw [at?, h, Option.bind_some]

theorem at?_concat (t : Tree κ) (p : List Nat) (i : Nat) :
    t.at? (p ++ [i]) = (t.at? p).bind fun u => u.parts[i]? := by
  induction p generalizing t with
  | nil => simp [at?]
  | cons j p ih =>
    rw [List.cons_append, at?, at?]
    cases t.parts[j]? with
    | none => rfl
    | some u => exact ih u

/-- An element below a part of a node is where it was, unless it is the one that the node calls. -/
theorem at?_substitute_cons {form : Form κ} {ts : List (Tree κ)} {i : Nat} {p : List Nat}
    {u : Tree κ} {m : Encoding × Element} (hnone : i = 2 ∧ p = [] → call.match? o form ts = none)
    (hu : ts[i]? = some u) (h : holder? o u p = some m) :
    (substitute [.call, .literal] o name (.node form ts)).at? (i :: p) =
      (substitute [.call, .literal] o name u).at? p := by
  obtain ⟨e, opt, callee, kind, items, rest, rfl, rfl, hcall, -, hnode⟩ | ⟨e, -, -, hnode⟩ |
    ⟨-, -, hnode⟩ := substitute_cases o name form ts
  · rw [hnode]
    match i, p with
    | 0, p | 1, p =>
      obtain rfl := Option.some.inj hu
      rfl
    | 2, [] =>
      rw [hnone ⟨rfl, rfl⟩] at hcall
      cases hcall
    | 2, j :: p =>
      obtain rfl := Option.some.inj hu
      rw [holder?_of_encodes o rfl] at h
      obtain ⟨item, hitem, h⟩ := Option.bind_eq_some_iff.mp h
      have hobject : (substitute [.call, .literal] o name (.node .object items)).parts[j]? =
          some (substitute [.call, .literal] o name item) := by
        rw [substitute_object, Tree.parts, List.getElem?_map, hitem, Option.map_some]
      rw [at?_cons hobject, at?_cons rfl, at?_cons (getElem?_map_append _ _ hitem)]
      exact at?_replaceItem o name e _ h
    | i + 3, p =>
      exact at?_cons ((List.getElem?_map ..).trans (congrArg (Option.map _) hu)) p
  · rw [hnode, at?_cons (getElem?_map_append _ _ hu)]
    exact at?_replaceItem o name e _ h
  · rw [hnode]
    exact at?_cons ((List.getElem?_map ..).trans (congrArg (Option.map _) hu)) p

/-- Attributes are held by an element literal, by the object of a call, or by a node below. -/
theorem holder?_cases {form : Form κ} {ts : List (Tree κ)} {p : List Nat} {c : Encoding}
    {e : Element} (h : holder? o (.node form ts) p = some (c, e)) :
    (c = literal ∧ p = [] ∧ literal.match? o form ts = some (e, ts)) ∨
      (∃ callee kind items rest, c = call ∧ p = [2] ∧
        ts = callee :: kind :: .node .object items :: rest ∧
        call.match? o form ts = some (e, items)) ∨
      ∃ i q u, p = i :: q ∧ ts[i]? = some u ∧ holder? o u q = some (c, e) ∧
        (i = 2 ∧ q = [] → call.match? o form ts = none) := by
  cases p with
  | nil =>
    obtain ⟨⟨e', items⟩, hm, hc⟩ := Option.map_eq_some_iff.mp h
    obtain ⟨rfl, rfl⟩ := Prod.mk.inj hc
    obtain ⟨-, -, -, rfl⟩ := match?_literal hm
    exact .inl ⟨rfl, rfl, hm⟩
  | cons i q =>
    by_cases hcall : i = 2 ∧ q = [] ∧ (call.match? o form ts).isSome
    · obtain ⟨rfl, rfl, hm⟩ := hcall
      obtain ⟨⟨e', items⟩, hm⟩ := Option.isSome_iff_exists.mp hm
      rw [holder?, if_pos ⟨rfl, rfl⟩, hm] at h
      obtain ⟨rfl, rfl⟩ := Prod.mk.inj (Option.some.inj h)
      obtain ⟨opt, callee, kind, rest, -, rfl⟩ := match?_call hm
      exact .inr (.inl ⟨callee, kind, items, rest, rfl, rfl, rfl, hm⟩)
    · have hnone : i = 2 ∧ q = [] → call.match? o form ts = none := by
        simpa [Option.isSome_iff_ne_none] using hcall
      rw [holder?, ite_eq_right_iff.mpr hnone, Option.map_none, Option.none_or] at h
      obtain ⟨u, hu, h⟩ := Option.bind_eq_some_iff.mp h
      exact .inr (.inr ⟨i, q, u, rfl, hu, h, hnone⟩)

/-- The node with the attributes of an element gets new values for those to replace, and the
suffixes behind them. -/
theorem at?_substitute {t : Tree κ} {p : List Nat} {c : Encoding} {e : Element}
    (h : holder? o t p = some (c, e)) :
    let f := substitute [.call, .literal] o name
    ∃ form items, t.at? p = some (.node form items) ∧
      (f t).at? p = some (.node form (items.map (fun item => replaceItem e name item (f item)) ++
        (Linking.suffixes (items.map (target? e))).map c.suffixItem)) := by
  intro f
  induction t generalizing p with
  | node form ts ih =>
    have hnode : f (.node form ts) = .node form (literal.replaceAt o name form ts
        (call.replaceAt o name form ts (ts.map f))) := substitute_node _ o name form ts
    obtain ⟨rfl, rfl, hm⟩ | ⟨callee, kind, items, rest, rfl, rfl, rfl, hm⟩ |
      ⟨i, q, u, rfl, hu, h, hnone⟩ := holder?_cases o h
    · obtain ⟨_, _, rfl, -⟩ := match?_literal hm
      refine ⟨_, ts, rfl, ?_⟩
      rw [hnode, replaceAt_of_none (c := call) rfl, replaceAt_literal hm]
      rfl
    · obtain ⟨_, _, _, _, rfl, -⟩ := match?_call hm
      refine ⟨.object, items, rfl, ?_⟩
      have hobject : f (.node .object items) = .node .object (items.map f) :=
        substitute_object _ o name items
      rw [hnode, List.map_cons, List.map_cons, List.map_cons, hobject, replaceAt_call hm]
      rfl
    · obtain ⟨form', items, hold, hnew⟩ := ih u (List.mem_of_getElem? hu) h
      refine ⟨form', items, (at?_cons hu q).trans hold, ?_⟩
      exact (at?_substitute_cons o name hnone hu h).trans hnew

theorem mem_eligible {t : Tree κ} {p : List Nat} {c : Encoding} {e : Element} {form : Form κ}
    {items : List (Tree κ)} (h : holder? o t p = some (c, e))
    (hnode : t.at? p = some (.node form items)) {item : Tree κ} (hitem : item ∈ items)
    {a : Authored} (ha : authored? e item = some a) :
    a ∈ eligible c o t := by
  have hfound : a ∈ items.filterMap (authored? e) := List.mem_filterMap.mpr ⟨item, hitem, ha⟩
  induction t generalizing p with
  | node form' ts ih =>
    rw [eligible_node, List.mem_append]
    obtain ⟨rfl, rfl, hm⟩ | ⟨callee, kind, members, rest, rfl, rfl, rfl, hm⟩ |
      ⟨i, q, u, rfl, hu, h, -⟩ := holder?_cases o h
    · cases hnode
      rw [authored, hm]
      exact .inl hfound
    · cases hnode
      rw [authored, hm]
      exact .inl hfound
    · have hmem := List.mem_of_getElem? hu
      refine .inr (List.mem_flatMap.mpr ⟨u, hmem, ih u hmem h ?_⟩)
      exact (at?_cons hu q).symm.trans hnode

theorem holder?_cons {t u : Tree κ} {i : Nat} {p : List Nat} {m : Encoding × Element}
    (hu : t.parts[i]? = some u) (h : holder? o u p = some m) : holder? o t (i :: p) = some m := by
  obtain ⟨form, ts⟩ := t
  have hbelow : (ts[i]?.bind fun t => holder? o t p) = some m := by
    rw [show ts[i]? = some u from hu]
    exact h
  -- the object of a call is a holder as the call says, and would be none by itself
  have hnone : (if i = 2 ∧ p = [] then call.match? o form ts else none) = none := by
    rw [ite_eq_right_iff]
    rintro ⟨rfl, rfl⟩
    cases hm : call.match? o form ts with
    | none => rfl
    | some m' =>
      rw [bind_holder?_of_call hm] at hbelow
      cases hbelow
  rw [holder?, hnone, hbelow]
  rfl

theorem exists_holder?_of_mem_eligible {c : Encoding} {t : Tree κ} {a : Authored}
    (h : a ∈ eligible c o t) : ∃ p i e item, holder? o t p = some (c, e) ∧
      t.at? (p ++ [i]) = some item ∧ authored? e item = some a := by
  induction t with
  | node form ts ih =>
    rw [eligible_node, List.mem_append] at h
    obtain h | h := h
    · rw [authored] at h
      cases hm : c.match? o form ts with
      | none =>
        rw [hm] at h
        cases h
      | some m =>
        obtain ⟨e, items⟩ := m
        rw [hm] at h
        obtain ⟨item, hitem, ha⟩ := List.mem_filterMap.mp h
        obtain ⟨i, hi⟩ := List.mem_iff_getElem?.mp hitem
        cases c with
        | call =>
          obtain ⟨opt, callee, kind, rest, rfl, rfl⟩ := match?_call hm
          refine ⟨[2], i, e, item, ?_, ?_, ha⟩
          · rw [holder?, if_pos ⟨rfl, rfl⟩, hm]
            rfl
          · simp [at?, parts, hi]
        | literal =>
          obtain ⟨_, _, rfl, rfl⟩ := match?_literal hm
          refine ⟨[], i, e, item, ?_, ?_, ha⟩
          · rw [holder?, hm]
            rfl
          · simp [at?, parts, hi]
    · obtain ⟨u, hu, h⟩ := List.mem_flatMap.mp h
      obtain ⟨j, hj⟩ := List.mem_iff_getElem?.mp hu
      obtain ⟨p, i, e, item, hholder, hitem, ha⟩ := ih u hu h
      exact ⟨j :: p, i, e, item, holder?_cons o hj hholder, (at?_cons hj _).trans hitem, ha⟩

end Tree

namespace LinkedProgram

open MediaLink.Tree Encoding

variable {κ : Type} {o : Options} {body : List (Tree κ)} {p : List Nat} {c : Encoding}
  {e : Element}

theorem atAll?_map_substitute (h : holderAt? o body p = some (c, e))
    (name : List Char → List Char) :
    let f := substitute [.call, .literal] o name
    ∃ form items, atAll? body p = some (.node form items) ∧
      atAll? (body.map f) p =
        some (.node form (items.map (fun item => replaceItem e name item (f item)) ++
          (Linking.suffixes (items.map (target? e))).map c.suffixItem)) := by
  cases p with
  | nil => cases h
  | cons i p =>
    obtain ⟨t, ht, h⟩ := Option.bind_eq_some_iff.mp h
    obtain ⟨form, items, hold, hnew⟩ := at?_substitute o name h
    refine ⟨form, items, ?_, ?_⟩
    · rw [atAll?, ht]
      exact hold
    · rw [atAll?, List.getElem?_map, ht]
      exact hnew

theorem atAll?_kept (h : holderAt? o body p = some (c, e)) : ∃ form items,
    atAll? body p = some (.node form items) ∧
      atAll? (kept o body (ofBody o body).body) p =
        some (.node form (items.map (fun item =>
            replaceItem e (Binding.nameIn (ofBody o body).bindings) item (linkTree o body item)) ++
          (Linking.suffixes (items.map (target? e))).map c.suffixItem)) := by
  rw [kept_ofBody, ← map_linkTree]
  exact atAll?_map_substitute h _

theorem mem_allEligible (h : holderAt? o body p = some (c, e)) {form : Form κ}
    {items : List (Tree κ)} (hnode : atAll? body p = some (.node form items)) {item : Tree κ}
    (hitem : item ∈ items) {a : Authored} (ha : authored? e item = some a) :
    a ∈ allEligible o body := by
  cases p with
  | nil => cases h
  | cons i p =>
    obtain ⟨t, ht, h⟩ := Option.bind_eq_some_iff.mp h
    rw [atAll?, ht] at hnode
    have hfound : a ∈ eligibleAll c o body := by
      rw [eligibleAll_eq_flatMap]
      exact List.mem_flatMap.mpr ⟨t, List.mem_of_getElem? ht, mem_eligible o h hnode hitem ha⟩
    rw [allEligible, List.mem_append]
    cases c with
    | call => exact .inl hfound
    | literal => exact .inr hfound

theorem exists_holderAt?_of_mem_allEligible {a : Authored} (h : a ∈ allEligible o body) :
    ∃ q i c e item, holderAt? o body q = some (c, e) ∧ atAll? body (q ++ [i]) = some item ∧
      authored? e item = some a := by
  have hfound : ∃ c, a ∈ eligibleAll c o body := by
    obtain h | h := List.mem_append.mp h
    · exact ⟨_, h⟩
    · exact ⟨_, h⟩
  obtain ⟨c, h⟩ := hfound
  rw [eligibleAll_eq_flatMap] at h
  obtain ⟨t, ht, h⟩ := List.mem_flatMap.mp h
  obtain ⟨j, hj⟩ := List.mem_iff_getElem?.mp ht
  obtain ⟨p, i, e, item, hholder, hitem, ha⟩ := exists_holder?_of_mem_eligible o h
  refine ⟨j :: p, i, c, e, item, ?_, ?_, ha⟩
  · rw [holderAt?, hj]
    exact hholder
  · rw [List.cons_append, atAll?, hj]
    exact hitem

theorem atAll?_concat {i : Nat} (h : holderAt? o body p = some (c, e)) (ts : List (Tree κ)) :
    atAll? ts (p ++ [i]) = (atAll? ts p).bind fun t => t.parts[i]? := by
  cases p with
  | nil => cases h
  | cons j p =>
    rw [List.cons_append, atAll?, atAll?]
    cases ts[j]? with
    | none => rfl
    | some t => exact at?_concat t p i

/-- What has become of one attribute of an element. -/
theorem attribute_kept (h : holderAt? o body p = some (c, e)) {i : Nat} {item : Tree κ}
    (hitem : atAll? body (p ++ [i]) = some item) :
    atAll? (kept o body (ofBody o body).body) (p ++ [i]) = some
      (replaceItem e (Binding.nameIn (ofBody o body).bindings) item (linkTree o body item)) := by
  obtain ⟨form, items, hold, hnew⟩ := atAll?_kept h
  rw [atAll?_concat h, hold] at hitem
  rw [atAll?_concat h, hnew]
  exact getElem?_map_append _ _ hitem

theorem mem_paths_of_attribute (h : holderAt? o body p = some (c, e)) {i : Nat} {item : Tree κ}
    (hitem : atAll? body (p ++ [i]) = some item) {t : Target} (ht : target? e item = some t)
    {path : List Char} (hpath : path ∈ t.paths) :
    path ∈ (ofBody o body).bindings.map (·.path) := by
  obtain ⟨form, items, hold, -⟩ := atAll?_kept h
  rw [atAll?_concat h, hold] at hitem
  obtain ⟨a, ha, hpaths⟩ := authored?_of_target? ht
  refine (mem_paths_ofBody o body path).mpr ⟨a, ?_, hpaths ▸ hpath⟩
  exact mem_allEligible h hold (List.mem_of_getElem? hitem) ha

end LinkedProgram

end MediaLink
