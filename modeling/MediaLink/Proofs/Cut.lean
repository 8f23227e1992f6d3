import MediaLink.Proofs.Filled
import MediaLink.Proofs.Serialization

namespace MediaLink.Srcset

/-- A part of a text in which paths are still to be filled in. -/
inductive Piece where
  | char (c : Char)
  | hole (path : List Char)

namespace Piece

def text : Piece → List Char
  | char c => [c]
  | hole path => path

def literal (s : List Char) : List Piece := s.map char

def interleave : List (List Char) → List (List Char) → List Piece
  | run :: runs, path :: paths => literal run ++ hole path :: interleave runs paths
  | runs, paths => runs.flatMap literal ++ paths.map hole

theorem literal_nil : literal [] = [] := rfl

theorem literal_append (s t : List Char) : literal (s ++ t) = literal s ++ literal t :=
  List.map_append

theorem flatMap_text_literal (s : List Char) : (literal s).flatMap text = s := by
  rw [literal, List.flatMap_map]
  exact List.flatMap_singleton' s

theorem interleave_singleton (run : List Char) : interleave [run] [] = literal run ++ [] := by
  simp [interleave]

def EndLiteral (ps : List Piece) : Prop := ∀ c, ps.head? ≠ some (char c)

theorem endLiteral_nil : EndLiteral [] := fun _ h => nomatch h

theorem endLiteral_hole (path : List Char) (ps : List Piece) : EndLiteral (hole path :: ps) :=
  fun _ h => nomatch h

theorem literal_append_inj {s t : List Char} {ps qs : List Piece} (hp : EndLiteral ps)
    (hq : EndLiteral qs) (h : literal s ++ ps = literal t ++ qs) : s = t ∧ ps = qs := by
  induction s generalizing t with
  | nil =>
    cases t with
    | nil => exact ⟨rfl, h⟩
    | cons d t => exact absurd (congrArg List.head? h) (hp d)
  | cons c s ih =>
    cases t with
    | nil => exact absurd (congrArg List.head? h).symm (hq c)
    | cons d t =>
      obtain ⟨hc, h⟩ := List.cons_eq_cons.mp h
      obtain ⟨rfl, hps⟩ := ih h
      exact ⟨congrArg (· :: s) (Piece.char.inj hc), hps⟩

/-- There is one way only to cut a text with holes into its runs. -/
theorem interleave_inj {runs runs' paths paths' : List (List Char)}
    (hl : runs.length = paths.length + 1) (hl' : runs'.length = paths'.length + 1)
    (h : interleave runs paths = interleave runs' paths') : runs = runs' ∧ paths = paths' := by
  -- behind a run stands a hole or nothing, so that the first runs end together
  induction paths generalizing runs runs' paths' with
  | nil =>
    obtain ⟨run, rfl⟩ := List.length_eq_one_iff.mp hl
    rw [interleave_singleton] at h
    cases paths' with
    | nil =>
      obtain ⟨run', rfl⟩ := List.length_eq_one_iff.mp hl'
      rw [interleave_singleton] at h
      obtain ⟨rfl, -⟩ := literal_append_inj endLiteral_nil endLiteral_nil h
      exact ⟨rfl, rfl⟩
    | cons path' paths' =>
      obtain ⟨run', runs', rfl⟩ := List.exists_cons_of_length_eq_add_one hl'
      obtain ⟨-, hnil⟩ := literal_append_inj endLiteral_nil (endLiteral_hole _ _) h
      cases hnil
  | cons path paths ih =>
    obtain ⟨run, runs, rfl⟩ := List.exists_cons_of_length_eq_add_one hl
    cases paths' with
    | nil =>
      obtain ⟨run', rfl⟩ := List.length_eq_one_iff.mp hl'
      rw [interleave_singleton] at h
      obtain ⟨-, hnil⟩ := literal_append_inj (endLiteral_hole _ _) endLiteral_nil h
      cases hnil
    | cons path' paths' =>
      obtain ⟨run', runs', rfl⟩ := List.exists_cons_of_length_eq_add_one hl'
      obtain ⟨rfl, hrest⟩ := literal_append_inj (endLiteral_hole _ _) (endLiteral_hole _ _) h
      obtain ⟨hpath, hrest⟩ := List.cons_eq_cons.mp hrest
      obtain ⟨rfl, rfl⟩ := ih (Nat.succ.inj hl) (Nat.succ.inj hl') hrest
      exact ⟨rfl, congrArg (· :: paths) (Piece.hole.inj hpath)⟩

end Piece

namespace Template

theorem length_quasis (t : Template) : t.quasis.length = t.paths.length + 1 := by
  simp [quasis, paths]

theorem interleave_eq (t : Template) : Piece.interleave t.quasis t.paths =
    Piece.literal t.lead ++ t.holes.flatMap fun hole => .hole hole.1 :: Piece.literal hole.2 := by
  obtain ⟨lead, holes⟩ := t
  induction holes generalizing lead with
  | nil => exact Piece.interleave_singleton lead
  | cons hole holes ih =>
    have hrest := ih hole.2
    simp only [quasis, paths, List.map_cons, Piece.interleave, List.flatMap_cons] at hrest ⊢
    rw [hrest, List.cons_append]

theorem flatMap_text_interleave (t : Template) :
    (Piece.interleave t.quasis t.paths).flatMap Piece.text = t.fill id := by
  simp [interleave_eq, fill, List.flatMap_append, Piece.flatMap_text_literal, List.flatMap_assoc,
    List.flatMap_cons, Piece.text]

end Template

/-- A candidate as it stands in a list, with a hole for its path if it is to be imported. -/
def Candidate.pieces (c : Candidate) : List Piece :=
  let descriptors := c.descriptorTokens.flatMap (' ' :: ·)
  if Reference.isRewritable c.url then
    .hole (Reference.ofRaw c.url).path ::
      Piece.literal ((Reference.ofRaw c.url).suffix ++ descriptors)
  else Piece.literal (c.url ++ descriptors)

theorem Template.interleave_ofCandidates (cs : List Candidate) :
    Piece.interleave (ofCandidates cs).quasis (ofCandidates cs).paths =
      [Piece.char ',', .char ' '].intercalate (cs.map Candidate.pieces) := by
  induction cs with
  | nil => rfl
  | cons c cs ih =>
    have hsep : Piece.literal (if cs.isEmpty then [] else [',', ' ']) =
        if cs.isEmpty then [] else [.char ',', .char ' '] := by
      cases cs <;> rfl
    rw [List.map_cons, intercalate_cons, List.isEmpty_map, ← ih, ← hsep, interleave_eq,
      interleave_eq]
    cases hc : Reference.isRewritable c.url with
    | true =>
      simp [ofCandidates, Candidate.pieces, hc, Piece.literal_nil, Piece.literal_append,
        Candidate.descriptorText_eq]
    | false =>
      simp [ofCandidates, Candidate.pieces, hc, Piece.literal_append, Candidate.descriptorText_eq]

/-- The literal runs and the paths are those of the canonical text of the list, cut at each URL that
is to be imported. -/
structure IsCut (cs : List Candidate) (quasis paths : List (List Char)) : Prop where
  length_eq : quasis.length = paths.length + 1
  paths_eq : paths = (cs.filter fun c => Reference.isRewritable c.url).map
    fun c => (Reference.ofRaw c.url).path
  pieces_eq : Piece.interleave quasis paths =
    [Piece.char ',', .char ' '].intercalate (cs.map Candidate.pieces)
  text_eq : (Piece.interleave quasis paths).flatMap Piece.text =
    listText (cs.map (Candidate.relink id))

theorem IsCut.unique {cs : List Candidate} {quasis quasis' paths paths' : List (List Char)}
    (h : IsCut cs quasis paths) (h' : IsCut cs quasis' paths') :
    quasis = quasis' ∧ paths = paths' :=
  Piece.interleave_inj h.length_eq h'.length_eq (h.pieces_eq.trans h'.pieces_eq.symm)

theorem Template.isCut_ofCandidates (cs : List Candidate) :
    IsCut cs (ofCandidates cs).quasis (ofCandidates cs).paths where
  length_eq := length_quasis _
  paths_eq := by
    rw [paths_ofCandidates, List.filter_map, List.map_map]
    rfl
  pieces_eq := interleave_ofCandidates cs
  text_eq := by
    rw [flatMap_text_interleave, fill_ofCandidates, joinText_eq_listText]

structure Candidate.IsBare (c : Candidate) : Prop where
  density : c.density = none
  width : c.width = none
  height : c.height = none
  isRewritable : Reference.isRewritable c.url
  suffix : (Reference.ofRaw c.url).suffix = []

namespace LinkedText

theorem whole?_eq_some_iff {cs : List Candidate} {path : List Char} :
    whole? cs = some path ↔ ∃ c, cs = [c] ∧ c.IsBare ∧ (Reference.ofRaw c.url).path = path := by
  constructor
  · intro h
    obtain ⟨c, rfl, hbare, hrewritable, hreference⟩ := whole?_eq_some h
    simp only [Candidate.hasDescriptors, Bool.or_eq_false_iff, Option.isSome_eq_false_iff,
      Option.isNone_iff_eq_none] at hbare
    obtain ⟨⟨hdensity, hwidth⟩, hheight⟩ := hbare
    have hsuffix := congrArg Reference.suffix hreference
    exact ⟨c, rfl, ⟨hdensity, hwidth, hheight, hrewritable, hsuffix⟩,
      congrArg Reference.path hreference⟩
  · rintro ⟨c, rfl, hbare, rfl⟩
    simp [whole?, Candidate.hasDescriptors, hbare.density, hbare.width, hbare.height,
      hbare.isRewritable, hbare.suffix]

theorem holes_ofCandidates_eq_nil {cs : List Candidate} :
    (Template.ofCandidates cs).holes = [] ↔ ∀ c ∈ cs, Reference.isRewritable c.url = false := by
  have hpaths := (Template.isCut_ofCandidates cs).paths_eq
  rw [Template.paths] at hpaths
  rw [← List.map_eq_nil_iff (f := Prod.fst), hpaths, List.map_eq_nil_iff, List.filter_eq_nil_iff]
  simp

theorem ofCandidates?_eq_none_iff {cs : List Candidate} :
    ofCandidates? cs = none ↔ ∀ c ∈ cs, Reference.isRewritable c.url = false := by
  rw [ofCandidates?]
  split
  case h_1 path hwhole =>
    obtain ⟨c, rfl, hbare, -⟩ := whole?_eq_some_iff.mp hwhole
    simp [hbare.isRewritable]
  case h_2 =>
    rw [← holes_ofCandidates_eq_nil]
    simp

theorem ofCandidates?_eq_whole_iff {cs : List Candidate} {path : List Char} :
    ofCandidates? cs = some (.whole path) ↔ whole? cs = some path := by
  rw [ofCandidates?]
  split
  case h_1 path' hwhole => simp [hwhole]
  case h_2 hwhole => simp [hwhole]

theorem ofCandidates?_eq_template {cs : List Candidate}
    (hr : ∃ c ∈ cs, Reference.isRewritable c.url) (hbare : ¬∃ c, cs = [c] ∧ c.IsBare) :
    ofCandidates? cs = some (.template (Template.ofCandidates cs)) := by
  have hwhole : whole? cs = none := by
    rw [Option.eq_none_iff_forall_ne_some]
    intro path hpath
    obtain ⟨c, hcs, hc, -⟩ := whole?_eq_some_iff.mp hpath
    exact hbare ⟨c, hcs, hc⟩
  have hholes : (Template.ofCandidates cs).holes ≠ [] := by
    intro hnil
    obtain ⟨c, hc, hr⟩ := hr
    rw [holes_ofCandidates_eq_nil.mp hnil c hc] at hr
    cases hr
  simp [ofCandidates?, hwhole, hholes]

end LinkedText

/-- What becomes of a list: nothing if it is invalid or has nothing to be imported, a path if it is
one bare reference, and otherwise its text with holes. -/
structure IsCutOf (s : List Char) (v : Option LinkedText) : Prop where
  eq_none_iff : v = none ↔
    none ∈ candidates s ∨ ∀ c ∈ parse s, Reference.isRewritable c.url = false
  eq_whole_iff : ∀ path, v = some (.whole path) ↔
    ∃ c, candidates s = [some c] ∧ c.IsBare ∧ (Reference.ofRaw c.url).path = path
  exists_template : none ∉ candidates s → (∃ c ∈ parse s, Reference.isRewritable c.url) →
    (¬∃ c, candidates s = [some c] ∧ c.IsBare) →
    ∃ t, v = some (.template t) ∧
      ∀ quasis paths, IsCut (parse s) quasis paths ↔ quasis = t.quasis ∧ paths = t.paths

theorem isCutOf_ofText? (s : List Char) : IsCutOf s (LinkedText.ofText? s) := by
  rw [LinkedText.ofText?]
  cases hs : parseComplete? s with
  | none =>
    have hinvalid : none ∈ candidates s := mapM_id_eq_none.mp hs
    refine ⟨by simp [hinvalid], fun path => ?_, fun hvalid => absurd hinvalid hvalid⟩
    constructor
    · intro h
      cases h
    · rintro ⟨c, hc, -⟩
      rw [hc] at hinvalid
      simp at hinvalid
  | some cs =>
    have hcandidates : candidates s = cs.map some := parseComplete?_eq_some.mp hs
    have hvalid : none ∉ candidates s := by simp [hcandidates]
    have hparse : parse s = cs := parse_of_parseComplete? hs
    have hsingle (c : Candidate) : candidates s = [some c] ↔ cs = [c] := by
      rw [hcandidates]
      cases cs <;> simp
    rw [Option.bind_eq_bind, Option.bind_some]
    refine ⟨?_, fun path => ?_, ?_⟩
    · rw [LinkedText.ofCandidates?_eq_none_iff, hparse, or_iff_right hvalid]
    · simp only [LinkedText.ofCandidates?_eq_whole_iff, LinkedText.whole?_eq_some_iff, hsingle]
    · simp only [hparse, hsingle]
      rintro - ⟨c, hc, hr⟩ hbare
      refine ⟨_, LinkedText.ofCandidates?_eq_template ⟨c, hc, hr⟩ hbare, ?_⟩
      have hcut := Template.isCut_ofCandidates cs
      intro quasis paths
      constructor
      · intro h
        exact h.unique hcut
      · rintro ⟨rfl, rfl⟩
        exact hcut

end MediaLink.Srcset
