import MediaLink.Proofs.Eligible
import MediaLink.Proofs.Rounds

namespace MediaLink.Srcset

def Template.fill (f : List Char → List Char) (t : Template) : List Char :=
  t.lead ++ t.holes.flatMap fun hole => f hole.1 ++ hole.2

namespace LinkedText

def fill (f : List Char → List Char) : LinkedText → List Char
  | whole path => f path
  | template t => t.fill f

def paths : LinkedText → List (List Char)
  | whole path => [path]
  | template t => t.paths

end LinkedText

/-- The candidate with something in place of its path, if it has one to be replaced. -/
def Candidate.relink (f : List Char → List Char) (c : Candidate) : Candidate :=
  if Reference.isRewritable c.url then
    { c with url := f (Reference.ofRaw c.url).path ++ (Reference.ofRaw c.url).suffix }
  else c

theorem Candidate.descriptorText_relink (f : List Char → List Char) (c : Candidate) :
    (c.relink f).descriptorText = c.descriptorText := by
  rw [relink]
  split <;> rfl

theorem Candidate.descriptorTokens_relink (f : List Char → List Char) (c : Candidate) :
    (c.relink f).descriptorTokens = c.descriptorTokens := by
  rw [relink]
  split <;> rfl

theorem Candidate.descriptorText_eq_nil {c : Candidate} (h : c.hasDescriptors = false) :
    c.descriptorText = [] := by
  simp only [hasDescriptors, Bool.or_eq_false_iff, Option.isSome_eq_false_iff,
    Option.isNone_iff_eq_none] at h
  obtain ⟨⟨hdensity, hwidth⟩, hheight⟩ := h
  rw [descriptorText, hdensity, hwidth, hheight]
  rfl

theorem Template.fill_ofCandidates (f : List Char → List Char) (cs : List Candidate) :
    (Template.ofCandidates cs).fill f = joinText (cs.map (Candidate.relink f)) := by
  induction cs with
  | nil => rfl
  | cons c cs ih =>
    rw [List.map_cons, joinText, Candidate.descriptorText_relink, ← ih, List.isEmpty_map]
    cases hc : Reference.isRewritable c.url <;> simp [ofCandidates, Candidate.relink, fill, hc]

theorem LinkedText.fill_ofCandidates? {cs : List Candidate} {v : LinkedText}
    (h : ofCandidates? cs = some v) (f : List Char → List Char) :
    v.fill f = joinText (cs.map (Candidate.relink f)) := by
  rw [ofCandidates?] at h
  split at h
  case h_1 path hwhole =>
    obtain rfl := Option.some.inj h
    obtain ⟨c, rfl, hbare, hrewritable, hreference⟩ := whole?_eq_some hwhole
    rw [List.map_singleton, joinText, Candidate.descriptorText_relink,
      Candidate.descriptorText_eq_nil hbare, Candidate.relink, if_pos hrewritable, hreference]
    simp [fill, joinText]
  case h_2 =>
    obtain ⟨-, h⟩ := Option.ite_none_left_eq_some.mp h
    obtain rfl := Option.some.inj h
    exact Template.fill_ofCandidates f cs

theorem LinkedText.paths_ofCandidates? {cs : List Candidate} {v : LinkedText}
    (h : ofCandidates? cs = some v) {c : Candidate} (hc : c ∈ cs)
    (hr : Reference.isRewritable c.url) : (Reference.ofRaw c.url).path ∈ v.paths := by
  rw [ofCandidates?] at h
  split at h
  case h_1 path hwhole =>
    obtain rfl := Option.some.inj h
    obtain ⟨c, rfl, -, -, hreference⟩ := whole?_eq_some hwhole
    obtain rfl := List.mem_singleton.mp hc
    rw [hreference]
    exact List.mem_singleton.mpr rfl
  case h_2 =>
    obtain ⟨-, h⟩ := Option.ite_none_left_eq_some.mp h
    obtain rfl := Option.some.inj h
    rw [paths, Template.paths_ofCandidates]
    exact List.mem_map.mpr ⟨c.url, List.mem_filter.mpr ⟨List.mem_map_of_mem hc, hr⟩, rfl⟩

theorem mem_relative {url : List Char} {c : Char} (h : c ∈ Reference.relative url) :
    c = '.' ∨ c = '/' ∨ c ∈ url := by
  rw [Reference.relative] at h
  split at h
  · exact .inr (.inr h)
  · simpa using h

theorem getLast?_relative {url : List Char} (h : url ≠ []) :
    (Reference.relative url).getLast? = url.getLast? := by
  rw [Reference.relative]
  split
  · rfl
  · exact List.getLast?_append_of_ne_nil ['.', '/'] h

theorem IsUrl.append_suffix {url s : List Char} (hurl : IsUrl url) (hs : IsUrl s) :
    IsUrl (s ++ (Reference.ofRaw url).suffix) := by
  have htext : (Reference.ofRaw url).path ++ (Reference.ofRaw url).suffix =
      Reference.relative url := Reference.text_ofRaw url
  refine ⟨List.append_ne_nil_of_left_ne_nil hs.ne_nil _, fun c hc => ?_, ?_, ?_⟩
  · obtain hc | hc := List.mem_append.mp hc
    · exact hs.not_blank c hc
    · obtain rfl | rfl | hc := mem_relative (htext ▸ List.mem_append_right _ hc)
      · decide
      · decide
      · exact hurl.not_blank c hc
  · rw [List.head?_append_of_ne_nil _ hs.ne_nil]
    exact hs.head
  · by_cases hsuffix : (Reference.ofRaw url).suffix = []
    · rw [hsuffix, List.append_nil]
      exact hs.last
    · rw [List.getLast?_append_of_ne_nil _ hsuffix, ← List.getLast?_append_of_ne_nil _ hsuffix,
        htext, getLast?_relative hurl.ne_nil]
      exact hurl.last

theorem Candidate.isUrl_relink {f : List Char → List Char} {c : Candidate} (h : IsUrl c.url)
    (hf : Reference.isRewritable c.url → IsUrl (f (Reference.ofRaw c.url).path)) :
    IsUrl (c.relink f).url := by
  rw [relink]
  split
  case isTrue hr => exact h.append_suffix (hf hr)
  case isFalse => exact h

theorem mapM_id_ite {p : Candidate → Bool} {g : Candidate → Candidate} (cs : List Candidate) :
    (cs.map fun c => if p c then some (g c) else none).mapM id =
      if cs.all p then some (cs.map g) else none := by
  split
  case isTrue hall =>
    rw [mapM_id_eq_some, List.map_map]
    apply List.map_congr_left
    intro c hc
    exact if_pos (List.all_eq_true.mp hall c hc)
  case isFalse hall =>
    rw [Option.eq_none_iff_forall_ne_some]
    intro ds hds
    apply hall
    rw [List.all_eq_true]
    intro c hc
    have hmem : (if p c then some (g c) else none) ∈ ds.map some :=
      mapM_id_eq_some.mp hds ▸ List.mem_map_of_mem hc
    obtain ⟨d, -, hd⟩ := List.mem_map.mp hmem
    exact (Option.ite_none_right_eq_some.mp hd.symm).1

/-- A list with URLs in place of its paths is read as the candidates that were written, with these
URLs, exactly if no density in it is infinite; otherwise it is not read at all. -/
theorem parseComplete?_fill {s : List Char} {v : LinkedText} (h : LinkedText.ofText? s = some v)
    {f : List Char → List Char} (hf : ∀ path ∈ v.paths, IsUrl (f path)) :
    ∃ cs, parseComplete? s = some cs ∧
      parseComplete? (v.fill f) =
        if cs.all Candidate.isBounded then some (cs.map (Candidate.relink f)) else none := by
  obtain ⟨cs, hcs, hv⟩ := Option.bind_eq_some_iff.mp h
  refine ⟨cs, hcs, ?_⟩
  have hread (c) (hc : c ∈ cs) : IsUrl c.url ∧ c.Valid := by
    apply isUrl_of_mem_candidates (s := s)
    rw [parseComplete?_eq_some.mp hcs]
    exact List.mem_map_of_mem hc
  have hurls : ∀ c ∈ cs.map (Candidate.relink f), IsUrl c.url := by
    intro d hd
    obtain ⟨c, hc, rfl⟩ := List.mem_map.mp hd
    exact Candidate.isUrl_relink (hread c hc).1 fun hr =>
      hf _ (LinkedText.paths_ofCandidates? hv hc hr)
  rw [LinkedText.fill_ofCandidates? hv, parseComplete?, candidates_joinText hurls, List.map_map,
    ← mapM_id_ite]
  congr 1
  apply List.map_congr_left
  intro c hc
  rw [Function.comp, Candidate.descriptorTokens_relink,
    Candidate.ofTokens?_descriptorTokens (hread c hc).2]
  congr 2
  rw [Candidate.relink]
  split <;> rfl

theorem parseComplete?_fill_two :
    let s := "a.png#x -0x, /b,c.png 0150e-2x".toList
    let v := LinkedText.template ⟨[], [("./a.png".toList, "#x -0x, /b,c.png 1.5x".toList)]⟩
    let f := fun _ : List Char => "z.png".toList
    LinkedText.ofText? s = some v ∧ (∀ path ∈ v.paths, IsUrl (f path)) ∧
      ∃ cs, parseComplete? s = some cs ∧
        parseComplete? (v.fill f) =
          if cs.all Candidate.isBounded then some (cs.map (Candidate.relink f)) else none := by
  intro s v f
  have hv : LinkedText.ofText? s = some v := by decide +kernel
  have hurl : IsUrl "z.png".toList := by decide
  have hf : ∀ path ∈ v.paths, IsUrl (f path) := fun _ _ => hurl
  exact ⟨hv, hf, parseComplete?_fill hv hf⟩

theorem parseComplete?_fill_infinite :
    let s := "a.png 1e400x".toList
    let v := LinkedText.template ⟨[], [("./a.png".toList, " infx".toList)]⟩
    let f := fun _ : List Char => "z.png".toList
    LinkedText.ofText? s = some v ∧ (∀ path ∈ v.paths, IsUrl (f path)) ∧
      (parseComplete? s).isSome ∧ parseComplete? (v.fill f) = none := by
  intro s v f
  have hv : LinkedText.ofText? s = some v := by decide +kernel
  have hurl : IsUrl "z.png".toList := by decide
  have hf : ∀ path ∈ v.paths, IsUrl (f path) := fun _ _ => hurl
  have hs : (parseComplete? s).isSome := by decide +kernel
  have hfill : parseComplete? (v.fill f) = none := by decide +kernel
  exact ⟨hv, hf, hs, hfill⟩

end MediaLink.Srcset
