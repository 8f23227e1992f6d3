import MediaLink.Proofs.Attributes

namespace MediaLink

namespace Reference

def continuesScheme (c : Char) : Bool := c.isAlphanum || c == '+' || c == '-' || c == '.'

/-- A scheme as URLs have it: a letter, then letters, digits, `+`, `-` and `.`. -/
def isScheme : List Char → Bool
  | [] => false
  | c :: cs => c.isAlpha && cs.all continuesScheme

def opensAuthority : List Char → Bool
  | ':' :: '/' :: '/' :: rest => rest.head? != some '/'
  | _ => false

theorem isAbsolute_eq (s : List Char) :
    isAbsolute s = (s.head?.any Char.isAlpha && opensAuthority (s.dropWhile Char.isAlpha)) := rfl

theorem ne_colon_of_continuesScheme {c : Char} (h : continuesScheme c) : c ≠ ':' := by
  rintro rfl
  revert h
  decide

theorem ne_slash_of_isAlpha {c : Char} (h : c.isAlpha) : c ≠ '/' := by
  rintro rfl
  revert h
  decide

theorem continuesScheme_of_isScheme {scheme : List Char} (h : isScheme scheme) :
    ∀ c ∈ scheme, continuesScheme c := by
  cases scheme with
  | nil => cases h
  | cons c cs =>
    obtain ⟨hc, hcs⟩ := Bool.and_eq_true_iff.mp h
    intro d hd
    obtain rfl | hd := List.mem_cons.mp hd
    · simp [continuesScheme, Char.isAlphanum, hc]
    · exact List.all_eq_true.mp hcs d hd

theorem opensAuthority_cons {c : Char} (h : c ≠ ':') (s : List Char) :
    opensAuthority (c :: s) = false := by
  unfold opensAuthority
  split
  case h_1 hs => exact absurd (List.head_eq_of_cons_eq hs) h
  case h_2 => rfl

/-- Letters lead to the colon, and nothing else does. -/
theorem opensAuthority_dropWhile {s : List Char} (h : ∀ c ∈ s, c ≠ ':') (rest : List Char) :
    opensAuthority ((s ++ ':' :: rest).dropWhile Char.isAlpha) =
      (s.all Char.isAlpha && opensAuthority (':' :: rest)) := by
  induction s with
  | nil => rfl
  | cons c s ih =>
    rw [List.cons_append, List.all_cons]
    cases hc : c.isAlpha with
    | true =>
      rw [List.dropWhile_cons_of_pos hc, ih fun d hd => h d (List.mem_cons_of_mem c hd),
        Bool.true_and]
    | false =>
      rw [List.dropWhile_cons_of_neg (by rw [hc]; exact Bool.false_ne_true),
        opensAuthority_cons (h c List.mem_cons_self), Bool.false_and, Bool.false_and]

theorem isAbsolute_scheme {scheme : List Char} (h : isScheme scheme) (rest : List Char) :
    isAbsolute (scheme ++ ':' :: rest) =
      (scheme.all Char.isAlpha && opensAuthority (':' :: rest)) := by
  have hcolon : ∀ c ∈ scheme, c ≠ ':' :=
    fun c hc => ne_colon_of_continuesScheme (continuesScheme_of_isScheme h c hc)
  rw [isAbsolute_eq, opensAuthority_dropWhile hcolon]
  cases scheme with
  | nil => cases h
  | cons c cs =>
    have hc : c.isAlpha := (Bool.and_eq_true_iff.mp h).1
    simp [hc]

/-- With a scheme in front, a reference is left as it is if the scheme has letters only and an
authority behind it, or if the reference is to be filled in. -/
theorem isRewritable_scheme {scheme : List Char} (h : isScheme scheme) (rest : List Char) :
    isRewritable (scheme ++ ':' :: rest) =
      !(scheme.all Char.isAlpha && opensAuthority (':' :: rest) ||
        hasPlaceholder (scheme ++ ':' :: rest)) := by
  have hslash : (scheme ++ ':' :: rest).head? ≠ some '/' := by
    cases scheme with
    | nil => cases h
    | cons c cs =>
      have hc : c.isAlpha := (Bool.and_eq_true_iff.mp h).1
      simpa using ne_slash_of_isAlpha hc
  rw [isRewritable, isAbsolute_scheme h, bne_iff_ne.mpr hslash, Bool.and_true, Bool.not_or]

end Reference

namespace Srcset

theorem Template.exists_quasi {cs : List Candidate} {c : Candidate} (hc : c ∈ cs)
    (h : Reference.isRewritable c.url = false) :
    ∃ front back, front ++ c.url ++ c.descriptorText ++ back ∈ (ofCandidates cs).quasis := by
  induction cs with
  | nil => cases hc
  | cons d cs ih =>
    obtain rfl | hc := List.mem_cons.mp hc
    · refine ⟨[], (if cs.isEmpty then [] else [',', ' ']) ++ (ofCandidates cs).lead, ?_⟩
      simp [ofCandidates, quasis, h]
    · obtain ⟨front, back, hmem⟩ := ih hc
      let tail := d.descriptorText ++ (if cs.isEmpty then [] else [',', ' '])
      obtain hlead | hholes := List.mem_cons.mp hmem
      · -- The candidate in front is put before the literal text that led so far.
        cases hd : Reference.isRewritable d.url with
        | true =>
          refine ⟨(Reference.ofRaw d.url).suffix ++ tail ++ front, back, ?_⟩
          simp [ofCandidates, quasis, hd, tail, ← hlead]
        | false =>
          refine ⟨d.url ++ tail ++ front, back, ?_⟩
          simp [ofCandidates, quasis, hd, tail, ← hlead]
      · refine ⟨front, back, ?_⟩
        cases hd : Reference.isRewritable d.url with
        | true =>
          simp only [ofCandidates, quasis, hd, if_true, List.map_cons]
          exact List.mem_cons_of_mem _ (List.mem_cons_of_mem _ hholes)
        | false =>
          simp only [ofCandidates, quasis, hd, Bool.false_eq_true, if_false]
          exact List.mem_cons_of_mem _ hholes

theorem LinkedText.exists_quasi {s : List Char} {v : LinkedText} (hv : ofText? s = some v)
    {c : Candidate} (hc : c ∈ parse s) (h : Reference.isRewritable c.url = false) :
    ∃ t front back, v = .template t ∧ front ++ c.url ++ c.descriptorText ++ back ∈ t.quasis := by
  obtain ⟨cs, hcs, hv⟩ := Option.bind_eq_some_iff.mp hv
  rw [parse_of_parseComplete? hcs] at hc
  rw [ofCandidates?] at hv
  split at hv
  case h_1 path hwhole =>
    obtain ⟨d, rfl, -, hd, -⟩ := whole?_eq_some hwhole
    obtain rfl := List.mem_singleton.mp hc
    rw [h] at hd
    cases hd
  case h_2 =>
    obtain ⟨-, hv⟩ := Option.ite_none_left_eq_some.mp hv
    obtain rfl := Option.some.inj hv
    obtain ⟨front, back, hmem⟩ := Template.exists_quasi hc h
    exact ⟨_, front, back, rfl, hmem⟩

end Srcset

namespace Encoding

open MediaLink.Tree

variable {κ : Type}

def value? : Tree κ → Option (Tree κ)
  | .node (.property _) [_, value] => some value
  | .node (.attribute _) [value] => some value
  | _ => none

def expression? : Tree κ → Option (Tree κ)
  | .node (.property _) [_, value] => some value
  | .node (.attribute _) [.node .container [value]] => some value
  | _ => none

def runs (item : Tree κ) : List String :=
  match expression? item with
  | some (.node (.template quasis) _) => quasis.filterMap (·.cooked)
  | _ => []

theorem expression?_setValue (value : Tree κ) {item : Tree κ} {a : String × String}
    (h : text? item = some a) : expression? (setValue value item) = some value := by
  obtain ⟨_, _, _, rfl, -⟩ | ⟨_, _, rfl, -⟩ := text?_eq_some h
  · rfl
  · rfl

theorem runs_setValue (t : Srcset.Template) (name : List Char → List Char) {item : Tree κ}
    {a : String × String} (h : text? item = some a) :
    runs (setValue (Target.tree ⟨.template t, []⟩ name) item) = t.quasis.map String.ofList := by
  rw [runs, expression?_setValue _ h, Target.tree]
  dsimp only
  rw [List.filterMap_map]
  change t.quasis.filterMap (some ∘ String.ofList) = _
  rw [List.filterMap_eq_map]

theorem value?_substitute (cs : List Encoding) (o : Options) (name : List Char → List Char)
    {item : Tree κ} {a : String × String} (h : text? item = some a) :
    value? (substitute cs o name item) = value? item := by
  obtain ⟨_, _, value, rfl, hs⟩ | ⟨_, value, rfl, hs⟩ := text?_eq_some h
  · obtain ⟨raw, rfl⟩ := string?_eq_some hs
    rw [substitute_property]
    exact congrArg some (substitute_string ..)
  · obtain ⟨raw, rfl⟩ := string?_eq_some hs
    rw [substitute_attribute]
    exact congrArg some (substitute_string ..)

theorem target?_eq_bind {e : Element} {item : Tree κ} {name value : String} {role : Role}
    (htext : text? item = some (name, value)) (hrole : e.role? name = some role) :
    target? e item = Target.ofValue? role value := by
  rw [target?, htext]
  change (e.role? name).bind (Target.ofValue? · value) = _
  rw [hrole, Option.bind_some]

end Encoding

namespace LinkedProgram

open MediaLink.Tree Encoding

variable {κ : Type} (o : Options) (body : List (Tree κ))

/-- Linking leaves the URL alone, in whatever attribute of an element it stands. -/
structure IsUntouched (o : Options) (body : List (Tree κ)) (url : List Char) : Prop where
  single : ∀ p i c e item name, holderAt? o body p = some (c, e) →
    atAll? body (p ++ [i]) = some item → text? item = some (name, String.ofList url) →
    e.role? name = some .single →
    ∃ now, atAll? (kept o body (ofBody o body).body) (p ++ [i]) = some now ∧
      text? now = text? item ∧ value? now = value? item
  candidate : ∀ p i c e item name value cand, holderAt? o body p = some (c, e) →
    atAll? body (p ++ [i]) = some item → text? item = some (name, value) →
    e.role? name = some .candidates → cand ∈ Srcset.parse value.toList → cand.url = url →
    ∃ now, atAll? (kept o body (ofBody o body).body) (p ++ [i]) = some now ∧
      (text? now = text? item ∧ value? now = value? item ∨
        ∃ front back, String.ofList (front ++ url ++ cand.descriptorText ++ back) ∈ runs now)
  paths_eq : (ofBody o body).bindings.map (·.path) =
    ((((allEligible o body).flatMap (·.references)).filter fun r =>
      Reference.isRewritable r && r != url).map fun r => (Reference.ofRaw r).path).eraseDups

theorem attribute_kept_of_target?_eq_none {p : List Nat} {i : Nat} {c : Encoding} {e : Element}
    {item : Tree κ} {a : String × String} (hholder : holderAt? o body p = some (c, e))
    (hitem : atAll? body (p ++ [i]) = some item) (htext : text? item = some a)
    (hnone : target? e item = none) :
    ∃ now, atAll? (kept o body (ofBody o body).body) (p ++ [i]) = some now ∧
      text? now = text? item ∧ value? now = value? item := by
  refine ⟨_, attribute_kept hholder hitem, ?_⟩
  rw [replaceItem, hnone]
  exact ⟨text?_substitute _ o _ item, value?_substitute _ o _ htext⟩

theorem paths_eq_of_not_isRewritable {url : List Char} (h : Reference.isRewritable url = false) :
    (ofBody o body).bindings.map (·.path) =
      ((((allEligible o body).flatMap (·.references)).filter fun r =>
        Reference.isRewritable r && r != url).map fun r => (Reference.ofRaw r).path).eraseDups := by
  have hother (r : List Char) :
      (Reference.isRewritable r && r != url) = Reference.isRewritable r := by
    by_cases hr : r = url
    · rw [hr, h, Bool.false_and]
    · rw [bne_iff_ne.mpr hr, Bool.and_true]
  simp only [paths_ofBody, hother]

theorem isUntouched_of_not_isRewritable {url : List Char}
    (h : Reference.isRewritable url = false) : IsUntouched o body url where
  single p i c e item name hholder hitem htext hrole := by
    have hnone : target? e item = none := by
      rw [target?_eq_bind htext hrole, Target.ofValue?, String.toList_ofList]
      simp only [h, Bool.false_eq_true, if_false]
    exact attribute_kept_of_target?_eq_none o body hholder hitem htext hnone
  candidate p i c e item name value cand hholder hitem htext hrole hcand hurl := by
    cases ht : target? e item with
    | none =>
      obtain ⟨now, hnow, hsame⟩ :=
        attribute_kept_of_target?_eq_none o body hholder hitem htext ht
      exact ⟨now, hnow, .inl hsame⟩
    | some t =>
      refine ⟨_, attribute_kept hholder hitem, .inr ?_⟩
      have hvalue := (target?_eq_bind htext hrole).symm.trans ht
      obtain ⟨v, hv, rfl⟩ := Option.map_eq_some_iff.mp hvalue
      obtain ⟨tm, front, back, rfl, hmem⟩ :=
        Srcset.LinkedText.exists_quasi hv hcand (hurl ▸ h)
      have htext' := (text?_substitute [.call, .literal] o
        (Binding.nameIn (ofBody o body).bindings) item).trans htext
      refine ⟨front, back, ?_⟩
      rw [replaceItem, ht, ← hurl]
      simp only [linkTree, runs_setValue tm _ htext']
      exact List.mem_map_of_mem hmem
  paths_eq := paths_eq_of_not_isRewritable o body h

/-- Whether a URL with a scheme is taken for absolute, and that linking leaves it alone then. -/
theorem isUntouched_scheme {scheme : List Char} (h : Reference.isScheme scheme) (rest : List Char) :
    let url := scheme ++ ':' :: rest
    (Reference.isRewritable url = false ↔
        scheme.all Char.isAlpha ∧ Reference.opensAuthority (':' :: rest) ∨
          Reference.hasPlaceholder url) ∧
      (Reference.isRewritable url = false → IsUntouched o body url) := by
  intro url
  refine ⟨?_, isUntouched_of_not_isRewritable o body⟩
  rw [Reference.isRewritable_scheme h, Bool.not_eq_false', Bool.or_eq_true, Bool.and_eq_true]

theorem isUntouched_scheme_https :
    let body : List (Tree Unit) :=
      [.node (.opening (.plain "img") true)
        [.node (.attribute (.plain "src")) [.string "https://a.org/b.png"],
         .node (.attribute (.plain "srcset")) [.string "c.png 1x, https://a.org/b.png 2x"]]]
    Reference.isScheme "https".toList ∧
      (Reference.isRewritable "https://a.org/b.png".toList = false ↔
        "https".toList.all Char.isAlpha ∧ Reference.opensAuthority "://a.org/b.png".toList ∨
          Reference.hasPlaceholder "https://a.org/b.png".toList) ∧
      Reference.isRewritable "https://a.org/b.png".toList = false ∧
      IsUntouched {} body "https://a.org/b.png".toList ∧
      (ofBody {} body).bindings.map (·.path) = ["./c.png".toList] := by
  intro body
  have hscheme : Reference.isScheme "https".toList := by decide
  have hleft : Reference.isRewritable "https://a.org/b.png".toList = false := by decide
  obtain ⟨hiff, huntouched⟩ := isUntouched_scheme {} body hscheme "//a.org/b.png".toList
  exact ⟨hscheme, hiff, hleft, huntouched hleft, by decide +kernel⟩

/-- An image in the address itself, and an address with a digit in its scheme: neither has three
slashes behind the colon, and linking takes both for paths. -/
theorem isRewritable_scheme_data :
    let body : List (Tree Unit) :=
      [.node (.opening (.plain "img") true)
        [.node (.attribute (.plain "src")) [.string "data:image/png;base64,AAAA"],
         .node (.attribute (.plain "srcset")) [.string "s3://b/c.png 2x"]]]
    Reference.isScheme "data".toList ∧ Reference.isScheme "s3".toList ∧
      ¬ "///".toList <+: "image/png;base64,AAAA".toList ∧ ¬ "///".toList <+: "//b/c.png".toList ∧
      Reference.isRewritable ("data".toList ++ ':' :: "image/png;base64,AAAA".toList) = true ∧
      Reference.isRewritable ("s3".toList ++ ':' :: "//b/c.png".toList) = true ∧
      (ofBody {} body).bindings.map (·.path) =
        ["./data:image/png;base64,AAAA".toList, "./s3://b/c.png".toList] := by
  decide +kernel

end LinkedProgram

end MediaLink
