import MediaLink.Proofs.Substitution

namespace MediaLink

open Srcset

/-- An attribute value that may refer to media, and how it is read. -/
structure Authored where
  role : Role
  value : List Char
deriving DecidableEq

namespace Authored

def references (a : Authored) : List (List Char) :=
  match a.role with
  | .single => [a.value]
  | .candidates => (Srcset.parse a.value).map (·.url)

def isEligible (a : Authored) : Bool :=
  match a.role with
  | .single => Reference.isRewritable a.value
  | .candidates => (LinkedText.ofText? a.value).isSome

def paths (a : Authored) : List (List Char) :=
  (a.references.filter Reference.isRewritable).map fun url => (Reference.ofRaw url).path

end Authored

namespace Srcset

theorem mapM_id_eq_some {os : List (Option Candidate)} {cs : List Candidate} :
    os.mapM id = some cs ↔ os = cs.map some := by
  induction os generalizing cs with
  | nil => cases cs <;> simp
  | cons c os ih =>
    cases c with
    | none => cases cs <;> simp [List.mapM_cons]
    | some c =>
      rw [List.mapM_cons]
      change ((os.mapM id).bind fun ds => some (c :: ds)) = some cs ↔ _
      rw [Option.bind_eq_some_iff]
      constructor
      · rintro ⟨ds, hds, h⟩
        rw [← Option.some.inj h, ih.mp hds, List.map_cons]
      · intro h
        cases cs with
        | nil => cases h
        | cons d ds =>
          obtain ⟨hd, hds⟩ := List.cons_eq_cons.mp h
          exact ⟨ds, ih.mpr hds, by rw [Option.some.inj hd]⟩

theorem mapM_id_eq_none {os : List (Option Candidate)} : os.mapM id = none ↔ none ∈ os := by
  induction os with
  | nil => simp
  | cons c os ih =>
    cases c with
    | none => simp [List.mapM_cons]
    | some c =>
      rw [List.mapM_cons]
      change ((os.mapM id).bind fun ds => some (c :: ds)) = none ↔ _
      rw [Option.bind_eq_none_iff, List.mem_cons, ← ih, Option.eq_none_iff_forall_ne_some]
      simp

theorem parseComplete?_eq_some {s : List Char} {cs : List Candidate} :
    parseComplete? s = some cs ↔ candidates s = cs.map some := mapM_id_eq_some

theorem parse_of_parseComplete? {s : List Char} {cs : List Candidate}
    (h : parseComplete? s = some cs) : parse s = cs := by
  rw [parse, parseComplete?_eq_some.mp h, List.filterMap_map]
  exact List.filterMap_some

theorem Template.paths_ofCandidates (cs : List Candidate) :
    (Template.ofCandidates cs).paths =
      ((cs.map (·.url)).filter Reference.isRewritable).map
        fun url => (Reference.ofRaw url).path := by
  induction cs with
  | nil => rfl
  | cons c cs ih =>
    rw [paths] at ih
    cases hc : Reference.isRewritable c.url <;>
      simp [ofCandidates, paths, hc, ih]

theorem LinkedText.whole?_eq_some {cs : List Candidate} {path : List Char}
    (h : LinkedText.whole? cs = some path) :
    ∃ c, cs = [c] ∧ c.hasDescriptors = false ∧ Reference.isRewritable c.url ∧
      Reference.ofRaw c.url = ⟨path, []⟩ := by
  unfold whole? at h
  split at h
  case h_1 c =>
    obtain ⟨hc, hp⟩ := Option.ite_none_right_eq_some.mp h
    simp only [Bool.and_eq_true, Bool.not_eq_true', List.isEmpty_iff] at hc
    obtain ⟨⟨hd, hr⟩, hs⟩ := hc
    refine ⟨c, rfl, hd, hr, ?_⟩
    rw [← Option.some.inj hp, ← hs]
  case h_2 => cases h

end Srcset

namespace Target

theorem isSome_ofValue? (role : Role) (value : String) :
    (ofValue? role value).isSome = Authored.isEligible ⟨role, value.toList⟩ := by
  cases role with
  | single =>
    rw [ofValue?, Authored.isEligible]
    cases Reference.isRewritable value.toList <;> rfl
  | candidates => simp only [ofValue?, Authored.isEligible, Option.isSome_map]

theorem paths_ofValue? {role : Role} {value : String} {t : Target}
    (h : ofValue? role value = some t) : t.paths = Authored.paths ⟨role, value.toList⟩ := by
  cases role with
  | single =>
    obtain ⟨hr, ht⟩ := Option.ite_none_right_eq_some.mp h
    obtain rfl := Option.some.inj ht
    simp [paths, Authored.paths, Authored.references, hr]
  | candidates =>
    obtain ⟨v, hv, rfl⟩ := Option.map_eq_some_iff.mp h
    obtain ⟨cs, hcs, hv⟩ := Option.bind_eq_some_iff.mp hv
    simp only [Authored.paths, Authored.references, parse_of_parseComplete? hcs]
    rw [LinkedText.ofCandidates?] at hv
    split at hv
    case h_1 path hw =>
      obtain rfl := Option.some.inj hv
      obtain ⟨c, rfl, -, hr, hc⟩ := LinkedText.whole?_eq_some hw
      simp [paths, hr, hc]
    case h_2 =>
      obtain ⟨-, hv⟩ := Option.ite_none_left_eq_some.mp hv
      obtain rfl := Option.some.inj hv
      exact Template.paths_ofCandidates cs

end Target

namespace Encoding

variable {κ : Type}

/-- The attribute as it was authored, if it is one to replace. -/
def authored? (e : Element) (item : Tree κ) : Option Authored := do
  let (name, value) ← text? item
  let role ← e.role? name
  Option.guard Authored.isEligible ⟨role, value.toList⟩

def authored (c : Encoding) (o : Options) (form : Form κ) (parts : List (Tree κ)) :
    List Authored :=
  match c.match? o form parts with
  | some (e, attributes) => attributes.filterMap (authored? e)
  | none => []

theorem authored?_of_target?_eq_none {e : Element} {item : Tree κ} (h : target? e item = none) :
    authored? e item = none := by
  rw [target?] at h
  rw [authored?]
  cases htext : text? item with
  | none => rfl
  | some a =>
    cases hrole : e.role? a.1 with
    | none => simp [hrole]
    | some role =>
      have ht : Target.ofValue? role a.2 = none := by simpa [htext, hrole] using h
      have hn := Target.isSome_ofValue? role a.2
      rw [ht, Option.isSome_none] at hn
      simp [hrole, Option.guard, ← hn]

theorem exists_value_of_target? {e : Element} {item : Tree κ} {t : Target}
    (h : target? e item = some t) : ∃ role value,
      authored? e item = some ⟨role, value.toList⟩ ∧ Target.ofValue? role value = some t := by
  obtain ⟨⟨name, value⟩, htext, h⟩ := Option.bind_eq_some_iff.mp h
  obtain ⟨role, hrole, h⟩ := Option.bind_eq_some_iff.mp h
  have hs := Target.isSome_ofValue? role value
  rw [h, Option.isSome_some] at hs
  refine ⟨role, value, ?_, h⟩
  simp [authored?, htext, hrole, Option.guard, ← hs]

theorem authored?_of_target? {e : Element} {item : Tree κ} {t : Target}
    (h : target? e item = some t) : ∃ a, authored? e item = some a ∧ a.paths = t.paths := by
  obtain ⟨role, value, ha, ht⟩ := exists_value_of_target? h
  exact ⟨_, ha, (Target.paths_ofValue? ht).symm⟩

end Encoding

namespace Tree

variable {κ : Type}

mutual

/-- The attributes to replace of all elements in the tree that stand there in the encoding: those of
a node before those further down. -/
def eligible (c : Encoding) (o : Options) : Tree κ → List Authored
  | .node form parts => c.authored o form parts ++ eligibleAll c o parts

def eligibleAll (c : Encoding) (o : Options) : List (Tree κ) → List Authored
  | [] => []
  | t :: ts => eligible c o t ++ eligibleAll c o ts

end

variable (c : Encoding) (o : Options)

theorem eligibleAll_eq_flatMap (ts : List (Tree κ)) :
    eligibleAll c o ts = ts.flatMap (eligible c o) := by
  induction ts with
  | nil => rfl
  | cons t ts ih => rw [eligibleAll, ih, List.flatMap_cons]

theorem eligible_node (form : Form κ) (parts : List (Tree κ)) :
    eligible c o (.node form parts) =
      c.authored o form parts ++ parts.flatMap (eligible c o) := by
  rw [eligible, eligibleAll_eq_flatMap]

theorem eligible_of_encodes {form : Form κ} (h : Encoding.encodes form = false)
    (parts : List (Tree κ)) :
    eligible c o (.node form parts) = parts.flatMap (eligible c o) := by
  rw [eligible_node, Encoding.authored, Encoding.match?_eq_none c o h, List.nil_append]

theorem eligible_string (value : String) (raw : Option String) (parts : List (Tree κ)) :
    eligible c o (.node (.string value raw) parts) = parts.flatMap (eligible c o) :=
  eligible_of_encodes c o rfl parts

theorem eligible_object (parts : List (Tree κ)) :
    eligible c o (.node .object parts) = parts.flatMap (eligible c o) :=
  eligible_of_encodes c o rfl parts

theorem eligible_property (traits : PropertyTraits) (parts : List (Tree κ)) :
    eligible c o (.node (.property traits) parts) = parts.flatMap (eligible c o) :=
  eligible_of_encodes c o rfl parts

theorem eligible_attribute (a : AttributeName) (parts : List (Tree κ)) :
    eligible c o (.node (.attribute a) parts) = parts.flatMap (eligible c o) :=
  eligible_of_encodes c o rfl parts

theorem eligible_container (parts : List (Tree κ)) :
    eligible c o (.node .container parts) = parts.flatMap (eligible c o) :=
  eligible_of_encodes c o rfl parts

end Tree

end MediaLink
