import MediaLink.Proofs.CandidateText
import MediaLink.Proofs.DescriptorTokens
import MediaLink.Proofs.Rewritable

namespace MediaLink

/-- A text as an element literal can spell it, with a character reference for each ampersand. -/
def spell (s : List Char) : List Char :=
  s.flatMap fun c => if c = '&' then ['&', 'a', 'm', 'p', ';'] else [c]

def Srcset.Template.map (f : List Char → List Char) (t : Srcset.Template) : Srcset.Template :=
  ⟨f t.lead, t.holes.map (Prod.map f f)⟩

def Srcset.LinkedText.map (f : List Char → List Char) : Srcset.LinkedText → Srcset.LinkedText
  | .whole path => .whole (f path)
  | .template t => .template (t.map f)

def Target.map (f : List Char → List Char) (t : Target) : Target := ⟨t.value.map f, f t.suffix⟩

namespace Ampersand

theorem spell_cons {c : Char} (h : c ≠ '&') (s : List Char) : spell (c :: s) = c :: spell s := by
  simp [spell, h]

theorem spell_ampersand (s : List Char) :
    spell ('&' :: s) = ['&', 'a', 'm', 'p', ';'] ++ spell s := rfl

/-- The two kinds of character are spelled apart. -/
@[elab_as_elim]
theorem spell_induction {motive : List Char → Prop} (nil : motive [])
    (ampersand : ∀ s, motive s → motive ('&' :: s))
    (other : ∀ c s, c ≠ '&' → motive s → motive (c :: s)) (s : List Char) : motive s := by
  induction s with
  | nil => exact nil
  | cons c s ih =>
    by_cases hc : c = '&'
    · exact hc ▸ ampersand s ih
    · exact other c s hc ih

theorem spell_append (s t : List Char) : spell (s ++ t) = spell s ++ spell t :=
  List.flatMap_append

theorem spell_of_notMem {s : List Char} (h : '&' ∉ s) : spell s = s := by
  induction s with
  | nil => rfl
  | cons c s ih =>
    obtain ⟨hc, hs⟩ := not_or.mp (List.mem_cons.not.mp h)
    rw [spell_cons (Ne.symm hc), ih hs]

theorem length_spell (s : List Char) : (spell s).length = s.length + 4 * s.count '&' := by
  induction s using spell_induction with
  | nil => rfl
  | ampersand s ih =>
    rw [spell_ampersand, List.length_append, ih, List.length_cons, List.count_cons_self]
    simp only [List.length_cons, List.length_nil]
    omega
  | other c s hc ih =>
    rw [spell_cons hc, List.length_cons, ih, List.length_cons, List.count_cons_of_ne hc]
    omega

theorem spell_eq_self {s : List Char} : spell s = s ↔ '&' ∉ s := by
  refine ⟨fun h => ?_, spell_of_notMem⟩
  have hlength := length_spell s
  rw [h] at hlength
  exact List.count_eq_zero.mp (by omega)

theorem head?_spell (s : List Char) : (spell s).head? = s.head? := by
  induction s using spell_induction with
  | nil => rfl
  | ampersand s => rfl
  | other c s hc => rw [spell_cons hc, List.head?_cons, List.head?_cons]

theorem getLast?_spell (s : List Char) :
    (spell s).getLast? = s.getLast?.map fun c => if c = '&' then ';' else c := by
  obtain rfl | ⟨s, c, rfl⟩ := List.eq_nil_or_concat' s
  · rfl
  · by_cases hc : c = '&'
    · subst hc
      rw [spell_append, spell_ampersand]
      simp [spell]
    · rw [spell_append, spell_cons hc]
      simp [hc, spell]

theorem getLast?_spell_eq_comma {s : List Char} :
    (spell s).getLast? = some ',' ↔ s.getLast? = some ',' := by
  rw [getLast?_spell]
  cases s.getLast? with
  | none => simp
  | some c =>
    by_cases hc : c = '&'
    · simp [hc]
    · simp [hc]

theorem isEmpty_spell (s : List Char) : (spell s).isEmpty = s.isEmpty := by
  have hhead := head?_spell s
  rw [Bool.eq_iff_iff, List.isEmpty_iff, List.isEmpty_iff, ← List.head?_eq_none_iff, hhead,
    List.head?_eq_none_iff]

section Cut

variable {p : Char → Bool} (hp : p '&' → ['&', 'a', 'm', 'p', ';'].all p)

include hp

theorem takeWhile_spell (s : List Char) : (spell s).takeWhile p = spell (s.takeWhile p) := by
  induction s using spell_induction with
  | nil => rfl
  | ampersand s ih =>
    cases hc : p '&' with
    | true =>
      rw [spell_ampersand, List.takeWhile_append_of_pos (List.all_eq_true.mp (hp hc)), ih,
        List.takeWhile_cons_of_pos hc]
      rfl
    | false =>
      have hstop (t : List Char) : ('&' :: t).takeWhile p = [] :=
        List.takeWhile_cons_of_neg (by simp [hc])
      rw [hstop s]
      exact hstop _
  | other c s hne ih =>
    rw [spell_cons hne]
    cases hc : p c with
    | true =>
      rw [List.takeWhile_cons_of_pos hc, ih, List.takeWhile_cons_of_pos hc, spell_cons hne]
    | false =>
      rw [List.takeWhile_cons_of_neg (by simp [hc]), List.takeWhile_cons_of_neg (by simp [hc])]
      rfl

theorem dropWhile_spell (s : List Char) : (spell s).dropWhile p = spell (s.dropWhile p) := by
  have hspelled : spell (s.takeWhile p) ++ (spell s).dropWhile p = spell s := by
    rw [← takeWhile_spell hp, List.takeWhile_append_dropWhile]
  have hcut : spell (s.takeWhile p) ++ spell (s.dropWhile p) = spell s := by
    rw [← spell_append, List.takeWhile_append_dropWhile]
  exact List.append_cancel_left (hspelled.trans hcut.symm)

end Cut

theorem isPrefixOf_spell {q : List Char} (hq : '&' ∉ q) (s : List Char) :
    q.isPrefixOf (spell s) = q.isPrefixOf s := by
  induction q generalizing s with
  | nil => rfl
  | cons a q ih =>
    obtain ⟨ha, hq⟩ := not_or.mp (List.mem_cons.not.mp hq)
    cases s with
    | nil => rfl
    | cons c s =>
      by_cases hc : c = '&'
      · subst hc
        have hne : (a == '&') = false := beq_false_of_ne (Ne.symm ha)
        simp [spell_ampersand, List.isPrefixOf, hne]
      · rw [spell_cons hc, List.isPrefixOf, List.isPrefixOf, ih hq]

theorem isAbsolute_spell (s : List Char) :
    Reference.isAbsolute (spell s) = Reference.isAbsolute s := by
  rw [Reference.isAbsolute_eq, Reference.isAbsolute_eq, head?_spell,
    dropWhile_spell (by decide), Reference.opensAuthority_eq, Reference.opensAuthority_eq,
    isPrefixOf_spell (by decide), isPrefixOf_spell (by decide)]

theorem closesPlaceholder_spell (s : List Char) :
    Reference.closesPlaceholder (spell s) = Reference.closesPlaceholder s := by
  rw [Reference.closesPlaceholder_eq, Reference.closesPlaceholder_eq, head?_spell,
    dropWhile_spell (by decide), isPrefixOf_spell (by decide)]

theorem hasPlaceholder_spell (s : List Char) :
    Reference.hasPlaceholder (spell s) = Reference.hasPlaceholder s := by
  induction s using spell_induction with
  | nil => rfl
  | ampersand s ih =>
    rw [spell_ampersand, Reference.hasPlaceholder_cons '&' s, ← ih]
    simp [Reference.hasPlaceholder_cons, List.isPrefixOf]
  | other c s hc ih =>
    rw [spell_cons hc, Reference.hasPlaceholder_cons, Reference.hasPlaceholder_cons, ih,
      ← spell_cons hc, isPrefixOf_spell (by decide)]
    cases hopen : ['%', '7', 'B'].isPrefixOf (c :: s) with
    | false => rfl
    | true =>
      -- The mark has no ampersand, so the spelled text goes on behind it with `spell t`.
      obtain ⟨t, ht⟩ := List.isPrefixOf_iff_prefix.mp hopen
      obtain rfl : '7' :: 'B' :: t = s := List.tail_eq_of_cons_eq ht
      rw [spell_cons (by decide), spell_cons (by decide)]
      change (true && Reference.closesPlaceholder (spell t) || _) =
        (true && Reference.closesPlaceholder t || _)
      rw [closesPlaceholder_spell]

theorem isRewritable_spell (s : List Char) :
    Reference.isRewritable (spell s) = Reference.isRewritable s := by
  rw [Reference.isRewritable, Reference.isRewritable, isAbsolute_spell, head?_spell,
    hasPlaceholder_spell]

theorem relative_spell (s : List Char) :
    Reference.relative (spell s) = spell (Reference.relative s) := by
  rw [Reference.relative, Reference.relative, head?_spell]
  split
  · rfl
  · rw [spell_cons (by decide), spell_cons (by decide)]

theorem ofRaw_spell (s : List Char) :
    Reference.ofRaw (spell s) =
      ⟨spell (Reference.ofRaw s).path, spell (Reference.ofRaw s).suffix⟩ := by
  rw [Reference.ofRaw, relative_spell, takeWhile_spell (by decide), dropWhile_spell (by decide)]
  rfl

open Srcset Text

theorem reverse_spell_concat {c : Char} (h : c ≠ '&') (current : List Char) :
    (spell (c :: current).reverse).reverse = c :: (spell current.reverse).reverse := by
  rw [List.reverse_cons, spell_append, spell_cons h, List.reverse_append]
  rfl

theorem tokens_ampersand (inParens : Bool) (current s : List Char) :
    tokens inParens (spell current.reverse).reverse (spell ('&' :: s)) =
      tokens inParens (spell ('&' :: current).reverse).reverse (spell s) := by
  have hrev : (spell ('&' :: current).reverse).reverse =
      [';', 'p', 'm', 'a', '&'] ++ (spell current.reverse).reverse := by
    rw [List.reverse_cons, spell_append, List.reverse_append]
    rfl
  rw [hrev, spell_ampersand]
  cases inParens with
  | true => simp [tokens]
  | false => exact tokens_append (List.all_eq_true.mp (by decide)) _ _

/-- An ampersand and its character reference both belong to the token that they stand in. -/
theorem tokens_spell (inParens : Bool) (current s : List Char) :
    tokens inParens (spell current.reverse).reverse (spell s) =
      ((tokens inParens current s).1.map spell, spell (tokens inParens current s).2) := by
  -- The token in progress is held in reverse, so it is turned around to be spelled.
  have hempty (current : List Char) :
      (spell current.reverse).reverse.isEmpty = current.isEmpty := by
    rw [List.isEmpty_reverse, isEmpty_spell, List.isEmpty_reverse]
  have hend (current : List Char) :
      (if (spell current.reverse).reverse.isEmpty then []
        else [(spell current.reverse).reverse.reverse]) =
      (if current.isEmpty then [] else [current.reverse]).map spell := by
    rw [hempty, List.reverse_reverse]
    split <;> rfl
  induction s using spell_induction generalizing inParens current with
  | nil => exact Prod.ext (hend current) rfl
  | ampersand s ih =>
    have hstep : tokens inParens current ('&' :: s) = tokens inParens ('&' :: current) s := by
      cases inParens with
      | true => rfl
      | false => exact tokens_append (t := ['&']) (List.all_eq_true.mp (by decide)) current s
    rw [tokens_ampersand, ih, hstep]
  | other c s hc ih =>
    have hnext (inParens : Bool) := reverse_spell_concat hc current ▸ ih inParens (c :: current)
    have hbehind : tokens false [] (spell s) = _ := ih false []
    rw [spell_cons hc, tokens, tokens]
    split
    · exact hnext _
    · split
      · rw [hempty, hbehind, List.reverse_reverse]
        split
        · rfl
        · rfl
      · split
        · exact Prod.ext (hend current) rfl
        · exact hnext _

theorem trimCommas_spell (s : List Char) : trimCommas (spell s) = spell (trimCommas s) := by
  change (spell s).rdropWhile (· == ',') = spell (s.rdropWhile (· == ','))
  induction s using List.reverseRecOn with
  | nil => rfl
  | append_singleton s c ih =>
    by_cases hcomma : c = ','
    · subst hcomma
      rw [spell_append, List.rdropWhile_concat_pos _ _ _ rfl, ← ih]
      exact List.rdropWhile_concat_pos _ _ _ rfl
    · rw [List.rdropWhile_concat_neg _ _ _ (by simpa using hcomma), List.rdropWhile_eq_self_iff]
      intro hne
      have hlast : (spell (s ++ [c])).getLast? ≠ some ',' := by
        rw [Ne, getLast?_spell_eq_comma, List.getLast?_concat]
        simpa using hcomma
      rw [List.getLast?_eq_some_getLast hne] at hlast
      simpa using hlast

theorem notMem_of_ofToken? {token : List Char} {d : Descriptor}
    (h : Descriptor.ofToken? token = some d) : '&' ∉ token := by
  have hnumeric {c : Char} (hc : Decimal.isNumeric c) : '&' ≠ c := by
    rintro rfl
    exact absurd hc (by decide)
  have hextent {unit : Char} {n : Nat} (hunit : '&' ≠ unit)
      (h : Descriptor.IsExtent unit token n) : '&' ∉ token := by
    obtain ⟨digits, rfl, hdigits, -⟩ := h
    rw [List.mem_append, List.mem_singleton]
    refine not_or.mpr ⟨fun hamp => ?_, hunit⟩
    have hdigit := (Decimal.isNumeral_iff.mp hdigits).2 _ hamp
    exact hnumeric (Decimal.isNumeric_of_isDigit hdigit) rfl
  have hspelled := Descriptor.ofToken?_eq_some_iff.mp h
  cases d with
  | width n => exact hextent (by decide) hspelled
  | height n => exact hextent (by decide) hspelled
  | density d =>
    obtain ⟨n, rfl, -⟩ := hspelled
    rw [List.mem_append, List.mem_singleton]
    refine not_or.mpr ⟨fun hamp => ?_, by decide⟩
    exact hnumeric (Decimal.Numeral.isNumeric_of_mem_text hamp) rfl

theorem ofToken?_spell (token : List Char) :
    Descriptor.ofToken? (spell token) = Descriptor.ofToken? token := by
  -- With an ampersand neither text is a descriptor, and without one they are the same.
  by_cases hamp : '&' ∈ token
  · have hspelled : '&' ∈ spell token :=
      List.mem_flatMap.mpr ⟨'&', hamp, List.mem_cons_self⟩
    have hnone {t : List Char} (ht : '&' ∈ t) : Descriptor.ofToken? t = none :=
      Option.eq_none_iff_forall_not_mem.mpr fun _ hd => notMem_of_ofToken? hd ht
    rw [hnone hamp, hnone hspelled]
  · rw [spell_of_notMem hamp]

def spellUrl (c : Candidate) : Candidate := { c with url := spell c.url }

theorem add?_spellUrl (c : Candidate) (d : Descriptor) :
    (spellUrl c).add? d = (c.add? d).map spellUrl := by
  cases d with
  | width n | height n | density n =>
    rw [Candidate.add?, Candidate.add?, apply_ite (Option.map spellUrl)]
    rfl

theorem ofTokens?_spell (url : List Char) (tokens : List (List Char)) :
    Candidate.ofTokens? (spell url) (tokens.map spell) =
      (Candidate.ofTokens? url tokens).map spellUrl := by
  have hfold (c : Candidate) :
      (tokens.map spell).foldlM (fun c token => Descriptor.ofToken? token >>= c.add?)
          (spellUrl c) =
        (tokens.foldlM (fun c token => Descriptor.ofToken? token >>= c.add?) c).map spellUrl := by
    induction tokens generalizing c with
    | nil => rfl
    | cons t ts ih =>
      rw [List.map_cons, List.foldlM_cons, List.foldlM_cons, ofToken?_spell]
      cases Descriptor.ofToken? t with
      | none => rfl
      | some d =>
        change (spellUrl c).add? d >>= _ = Option.map _ (c.add? d >>= _)
        rw [add?_spellUrl]
        cases c.add? d with
        | none => rfl
        | some c' => exact ih c'
  exact hfold { url }

theorem candidates_spell_cons {c : Char} (h : isSeparator c = false) (t : List Char) :
    candidates (spell (c :: t)) =
      let url := (c :: t).takeWhile (!isBlank ·)
      let rest := (c :: t).dropWhile (!isBlank ·)
      if url.getLast? = some ',' then
        (Candidate.ofTokens? (trimCommas url) []).map spellUrl :: candidates (spell rest)
      else
        (Candidate.ofTokens? url (tokens false [] rest).1).map spellUrl ::
          candidates (spell (tokens false [] rest).2) := by
  have hhead : ∃ t', spell (c :: t) = c :: t' := by
    by_cases hamp : c = '&'
    · subst hamp
      exact ⟨_, rfl⟩
    · exact ⟨_, spell_cons hamp t⟩
  obtain ⟨t', ht'⟩ := hhead
  have hread := candidates_cons h t'
  have hbare (url : List Char) : Candidate.ofTokens? (spell url) [] =
      (Candidate.ofTokens? url []).map spellUrl := ofTokens?_spell url []
  have htokens (rest : List Char) : tokens false [] (spell rest) =
      ((tokens false [] rest).1.map spell, spell (tokens false [] rest).2) :=
    tokens_spell false [] rest
  rw [← ht', takeWhile_spell (by decide), dropWhile_spell (by decide)] at hread
  simp only [hread, htokens, trimCommas_spell, hbare, ofTokens?_spell, getLast?_spell_eq_comma]

/-- A list of candidates is read the same, but for the references in its URLs. -/
theorem candidates_spell (s : List Char) :
    candidates (spell s) = (candidates s).map (Option.map spellUrl) := by
  have hskip (s : List Char) :
      candidates (spell s) = candidates (spell (s.dropWhile isSeparator)) := by
    rw [← candidates_dropWhile (spell s), dropWhile_spell (by decide)]
  have hrest {c : Char} {t : List Char} (h : isSeparator c = false) :
      (c :: t).dropWhile (!isBlank ·) = t.dropWhile (!isBlank ·) := by
    rw [isSeparator, Bool.or_eq_false_iff] at h
    exact List.dropWhile_cons_of_pos (by rw [h.1]; rfl)
  fun_induction candidates s with
  | case1 s hnil =>
    rw [hskip, hnil]
    exact candidates_nil
  | case2 s c t hcons url rest hlast ih =>
    have hsep := head_dropWhile_not hcons
    rw [hskip, hcons, candidates_spell_cons hsep, List.map_cons, ← ih]
    simp only [hrest hsep]
    exact if_pos hlast
  | case3 s c t hcons url rest hlast ih =>
    have hsep := head_dropWhile_not hcons
    rw [hskip, hcons, candidates_spell_cons hsep, List.map_cons, ← ih]
    simp only [hrest hsep]
    exact if_neg hlast

theorem parseComplete?_spell (s : List Char) :
    parseComplete? (spell s) = (parseComplete? s).map (List.map spellUrl) := by
  rw [parseComplete?, parseComplete?, candidates_spell]
  induction candidates s with
  | nil => rfl
  | cons c cs ih =>
    rw [List.map_cons, List.mapM_cons, List.mapM_cons, ih]
    cases c with
    | none => rfl
    | some c =>
      cases cs.mapM id with
      | none => rfl
      | some cs => rfl

theorem notMem_text (m : Binary64) : '&' ∉ m.text := by
  rw [Binary64.text]
  split
  case h_1 => decide
  case h_2 =>
    intro h
    obtain h | h := Decimal.mem_positional h
    · exact absurd h (by decide)
    · exact absurd h (by decide)

theorem notMem_toDigits (n : Nat) : '&' ∉ Nat.toDigits 10 n := fun h =>
  absurd (Decimal.isDigit_of_mem_toDigits h) (by decide)

theorem notMem_descriptorText (c : Candidate) : '&' ∉ c.descriptorText := by
  have hdensity (d : Density) : '&' ∉ d.text := by
    rw [Density.text]
    split
    · exact List.not_mem_cons_of_ne_of_not_mem (by decide) (notMem_text _)
    · exact notMem_text _
  have helim {α : Type} (x : Option α) {f : α → List Char} (hf : ∀ a, '&' ∉ f a) :
      '&' ∉ x.elim [] f := by
    cases x with
    | none => exact List.not_mem_nil
    | some a => exact hf a
  rw [Candidate.descriptorText, List.mem_append, List.mem_append]
  refine not_or.mpr ⟨not_or.mpr ⟨?_, ?_⟩, ?_⟩
  · exact helim c.density fun d => by simp [hdensity d]
  · exact helim c.width fun n => by simp [notMem_toDigits n]
  · exact helim c.height fun n => by simp [notMem_toDigits n]

theorem ofCandidates_spellUrl (cs : List Candidate) :
    Template.ofCandidates (cs.map spellUrl) = (Template.ofCandidates cs).map spell := by
  induction cs with
  | nil => rfl
  | cons c cs ih =>
    have hdescriptors : spell c.descriptorText = c.descriptorText :=
      spell_of_notMem (notMem_descriptorText c)
    have hcomma : spell (if cs.isEmpty then [] else [',', ' ']) =
        if cs.isEmpty then [] else [',', ' '] := by
      split <;> rfl
    rw [List.map_cons, Template.ofCandidates, Template.ofCandidates, ih]
    simp only [spellUrl, isRewritable_spell, ofRaw_spell, List.isEmpty_map]
    split
    · simp only [Template.map, List.map_cons, Prod.map, spell_append, hdescriptors, hcomma]
      rfl
    · simp only [Template.map, spell_append, hdescriptors, hcomma]
      rfl

theorem whole?_spellUrl (cs : List Candidate) :
    LinkedText.whole? (cs.map spellUrl) = (LinkedText.whole? cs).map spell := by
  match cs with
  | [] | _ :: _ :: _ => rfl
  | [c] =>
    have hdescriptors : (spellUrl c).hasDescriptors = c.hasDescriptors := rfl
    simp only [List.map_cons, List.map_nil, LinkedText.whole?, hdescriptors]
    simp only [spellUrl, isRewritable_spell, ofRaw_spell, isEmpty_spell]
    split <;> rfl

theorem ofText?_spell (s : List Char) :
    LinkedText.ofText? (spell s) = (LinkedText.ofText? s).map (LinkedText.map spell) := by
  rw [LinkedText.ofText?, LinkedText.ofText?, parseComplete?_spell]
  cases parseComplete? s with
  | none => rfl
  | some cs =>
    change LinkedText.ofCandidates? (cs.map spellUrl) =
      (LinkedText.ofCandidates? cs).map (LinkedText.map spell)
    rw [LinkedText.ofCandidates?, LinkedText.ofCandidates?, whole?_spellUrl]
    cases LinkedText.whole? cs with
    | some path => rfl
    | none =>
      simp only [Option.map_none, ofCandidates_spellUrl, Template.map, List.isEmpty_map]
      split <;> rfl

theorem ofValue?_spell (role : Role) (s : List Char) :
    Target.ofValue? role (String.ofList (spell s)) =
      (Target.ofValue? role (String.ofList s)).map (Target.map spell) := by
  cases role with
  | single =>
    simp only [Target.ofValue?, String.toList_ofList, isRewritable_spell, ofRaw_spell]
    split <;> rfl
  | candidates =>
    simp only [Target.ofValue?, String.toList_ofList, ofText?_spell]
    cases LinkedText.ofText? s with
    | none => rfl
    | some v => rfl

end Ampersand

end MediaLink
