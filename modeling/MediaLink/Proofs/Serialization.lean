import MediaLink.Proofs.Eligible
import MediaLink.Proofs.Rounds

namespace MediaLink.Srcset

namespace Candidate

def text (c : Candidate) : List Char := c.url ++ c.descriptorText

/-- The URL can stand in a list, a width and a height are in range, and a density is a number that
is not below zero and stands alone. -/
structure IsWritable (c : Candidate) : Prop where
  url : IsUrl c.url
  valid : c.Valid
  bounded : c.isBounded

end Candidate

def listText (cs : List Candidate) : List Char := [',', ' '].intercalate (cs.map Candidate.text)

theorem intercalate_cons {α : Type} (sep x : List α) (xs : List (List α)) :
    sep.intercalate (x :: xs) = x ++ ((if xs.isEmpty then [] else sep) ++ sep.intercalate xs) := by
  cases xs with
  | nil => simp
  | cons y ys => simp [List.intercalate_cons_cons]

theorem joinText_eq_listText (cs : List Candidate) : joinText cs = listText cs := by
  induction cs with
  | nil => rfl
  | cons c cs ih =>
    rw [joinText, ih, listText, listText, List.map_cons, intercalate_cons, Candidate.text,
      List.append_assoc, List.isEmpty_map]

theorem candidates_listText {cs : List Candidate} (h : ∀ c ∈ cs, IsUrl c.url ∧ c.Valid) :
    candidates (listText cs) = cs.map fun c => if c.isBounded then some c else none := by
  rw [← joinText_eq_listText, candidates_joinText fun c hc => (h c hc).1]
  apply List.map_congr_left
  intro c hc
  exact Candidate.ofTokens?_descriptorTokens (h c hc).2 c.url

/-- Nothing but writable candidates can be read at all, and these are read as they were written. -/
theorem parseComplete?_listText_iff (cs : List Candidate) :
    parseComplete? (listText cs) = some cs ↔ ∀ c ∈ cs, c.IsWritable := by
  rw [parseComplete?_eq_some]
  constructor
  · intro hread
    have hvalid : ∀ c ∈ cs, IsUrl c.url ∧ c.Valid := by
      intro c hc
      apply isUrl_of_mem_candidates (s := listText cs)
      rw [hread]
      exact List.mem_map_of_mem hc
    rw [candidates_listText hvalid, List.map_inj_left] at hread
    intro c hc
    obtain ⟨hbounded, -⟩ := Option.ite_none_right_eq_some.mp (hread c hc)
    exact ⟨(hvalid c hc).1, (hvalid c hc).2, hbounded⟩
  · intro h
    rw [candidates_listText fun c hc => ⟨(h c hc).url, (h c hc).valid⟩]
    apply List.map_congr_left
    intro c hc
    exact if_pos (h c hc).bounded

end MediaLink.Srcset
