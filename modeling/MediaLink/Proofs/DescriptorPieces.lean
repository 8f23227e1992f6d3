import Mathlib.Data.List.Infix
import MediaLink.Srcset.Parser

namespace MediaLink.Srcset

open Text

/-- Whether a parenthesis is open behind a character, and `isOpen` says whether one is in front of
it. Only `(` opens one, and then only `)` closes it. -/
def isOpenBehind (isOpen : Bool) (c : Char) : Bool := if isOpen then c != ')' else c == '('

def endsOpen (s : List Char) : Bool := s.foldl isOpenBehind false

/-- The characters of a text, each with whether a parenthesis is open in front of it, where
`isOpen` says so of the first. -/
def marked (isOpen : Bool) (s : List Char) : List (Char × Bool) :=
  s.zip (s.inits.map fun front => front.foldl isOpenBehind isOpen)

def outerComma : Char × Bool := (',', false)

def isGap (m : Char × Bool) : Bool := isBlank m.1 && !m.2

def cutAtGaps (isOpen : Bool) (s : List Char) : List (List Char) :=
  ((marked isOpen s).splitOnP isGap).map (·.map Prod.fst)

def pieces (s : List Char) : List (List Char) := (cutAtGaps false s).filter (!·.isEmpty)

theorem endsOpen_concat (s : List Char) (c : Char) :
    endsOpen (s ++ [c]) = isOpenBehind (endsOpen s) c := by
  rw [endsOpen, List.foldl_append]
  rfl

theorem endsOpen_iff {s : List Char} :
    endsOpen s ↔ ∃ front behind, s = front ++ '(' :: behind ∧ endsOpen front = false ∧
      ')' ∉ behind := by
  induction s using List.reverseRecOn with
  | nil => simp [endsOpen]
  | append_singleton s c ih =>
    rw [endsOpen_concat]
    constructor
    · intro h
      by_cases hs : endsOpen s = true
      · obtain ⟨front, behind, rfl, hfront, hbehind⟩ := ih.mp hs
        have hc : c ≠ ')' := by simpa [isOpenBehind, hs] using h
        exact ⟨front, behind ++ [c], by simp, hfront, by simp [hbehind, Ne.symm hc]⟩
      · have hc : c = '(' := by simpa [isOpenBehind, hs] using h
        exact ⟨s, [], by rw [hc], (Bool.not_eq_true _).mp hs, by simp⟩
    · rintro ⟨front, behind, h, hfront, hbehind⟩
      cases behind using List.reverseRecOn with
      | nil =>
        obtain ⟨rfl, hc⟩ := List.append_inj' h rfl
        obtain rfl := List.singleton_inj.mp hc
        rw [hfront]
        rfl
      | append_singleton behind d =>
        rw [← List.cons_append, ← List.append_assoc] at h
        obtain ⟨rfl, hc⟩ := List.append_inj' h rfl
        obtain rfl := List.singleton_inj.mp hc
        obtain ⟨hbehind, hc⟩ := not_or.mp (mt List.mem_append.mpr hbehind)
        have hopen := ih.mpr ⟨front, behind, rfl, hfront, hbehind⟩
        rw [hopen]
        exact bne_iff_ne.mpr fun he => hc (List.mem_singleton.mpr he.symm)

theorem marked_cons (isOpen : Bool) (c : Char) (s : List Char) :
    marked isOpen (c :: s) = (c, isOpen) :: marked (isOpenBehind isOpen c) s := by
  simp [marked, Function.comp_def]

theorem cutAtGaps_cons_of_isGap {isOpen : Bool} {c : Char} (h : isGap (c, isOpen)) (s : List Char) :
    cutAtGaps isOpen (c :: s) = [] :: cutAtGaps (isOpenBehind isOpen c) s := by
  rw [cutAtGaps, marked_cons, List.splitOnP_cons_eq_if_modifyHead, if_pos h]
  rfl

theorem cutAtGaps_cons {isOpen : Bool} {c : Char} (h : isGap (c, isOpen) = false) (s : List Char) :
    cutAtGaps isOpen (c :: s) = (cutAtGaps (isOpenBehind isOpen c) s).modifyHead (c :: ·) := by
  rw [cutAtGaps, marked_cons, List.splitOnP_cons_eq_if_modifyHead, h, cutAtGaps]
  obtain ⟨p, ps, hp⟩ := List.exists_cons_of_ne_nil
    (List.splitOnP_ne_nil isGap (marked (isOpenBehind isOpen c) s))
  rw [hp]
  rfl

theorem modifyHead_nil_append (ps : List (List Char)) :
    ps.modifyHead ([].reverse ++ ·) = ps := by
  cases ps <;> rfl

/-- What is read up to where `rest` begins: the pieces of the text, the first of them behind the
token in progress. -/
theorem tokens_eq_cutAtGaps {isOpen : Bool} {front rest left : List Char}
    (h : outerComma ∉ marked isOpen front)
    (hrest : ∀ current, tokens (front.foldl isOpenBehind isOpen) current rest =
      (if current.isEmpty then [] else [current.reverse], left)) (current : List Char) :
    tokens isOpen current (front ++ rest) =
      (((cutAtGaps isOpen front).modifyHead (current.reverse ++ ·)).filter (!·.isEmpty), left) := by
  induction front generalizing isOpen current with
  | nil =>
    have hcut : cutAtGaps isOpen [] = [[]] := rfl
    apply (hrest current).trans
    rw [hcut]
    cases current <;> simp
  | cons c front ih =>
    rw [marked_cons, List.mem_cons, not_or] at h
    obtain ⟨hc, hfront⟩ := h
    have hnext := ih hfront hrest
    -- a character that neither parts nor ends anything joins the token in progress
    have hjoin (hgap : isGap (c, isOpen) = false) :
        tokens (isOpenBehind isOpen c) (c :: current) (front ++ rest) =
          (((cutAtGaps isOpen (c :: front)).modifyHead (current.reverse ++ ·)).filter (!·.isEmpty),
            left) := by
      rw [hnext, cutAtGaps_cons hgap, List.modifyHead_modifyHead, List.reverse_cons]
      simp only [Function.comp_def, List.append_assoc, List.singleton_append]
    rw [List.cons_append, tokens]
    cases isOpen with
    | true => exact hjoin (by simp [isGap])
    | false =>
      by_cases hblank : isBlank c
      · have hgap : isGap (c, false) := by simp [isGap, hblank]
        have hopen : isOpenBehind false c = false := by
          apply beq_false_of_ne
          rintro rfl
          exact absurd hblank (by decide)
        rw [hopen] at hnext
        rw [cutAtGaps_cons_of_isGap hgap, hopen, List.modifyHead_cons, hnext, modifyHead_nil_append]
        cases current <;> simp [hblank]
      · have hcomma : c ≠ ',' := fun he => hc (by rw [outerComma, he])
        have hgap : isGap (c, false) = false := by simp [isGap, hblank]
        simp only [hblank, hcomma, Bool.false_eq_true, ↓reduceIte]
        exact hjoin hgap

theorem exists_outerComma (isOpen : Bool) (s : List Char) :
    (∃ front left, s = front ++ ',' :: left ∧ front.foldl isOpenBehind isOpen = false ∧
      outerComma ∉ marked isOpen front) ∨ outerComma ∉ marked isOpen s := by
  induction s generalizing isOpen with
  | nil => exact .inr List.not_mem_nil
  | cons c s ih =>
    by_cases hc : outerComma = (c, isOpen)
    · obtain ⟨rfl, rfl⟩ := Prod.mk.inj hc
      exact .inl ⟨[], s, rfl, rfl, List.not_mem_nil⟩
    · simp only [marked_cons, List.mem_cons, hc, false_or]
      obtain ⟨front, left, rfl, hopen, hfront⟩ | hs := ih (isOpenBehind isOpen c)
      · refine .inl ⟨c :: front, left, rfl, hopen, ?_⟩
        rw [marked_cons, List.mem_cons, not_or]
        exact ⟨hc, hfront⟩
      · exact .inr hs

/-- How the descriptors are read that begin at a position. -/
structure IsCutAt (s : List Char) (start : Nat) (descriptors : List (List Char)) (stop : Nat) :
    Prop where
  start_le : start ≤ stop
  stop_le : stop ≤ s.length
  ends : (∃ front, (s.take stop).drop start = front ++ [','] ∧ endsOpen front = false ∧
      outerComma ∉ marked false front ∧ descriptors = pieces front) ∨
    stop = s.length ∧ outerComma ∉ marked false (s.drop start) ∧
      descriptors = pieces (s.drop start)

theorem tokens_eq_pieces {front rest left : List Char} (h : outerComma ∉ marked false front)
    (hrest : ∀ current, tokens (endsOpen front) current rest =
      (if current.isEmpty then [] else [current.reverse], left)) :
    tokens false [] (front ++ rest) = (pieces front, left) := by
  rw [tokens_eq_cutAtGaps h hrest, modifyHead_nil_append, pieces]

/-- Reading the descriptors at a position is cutting the text there, and a parenthesis is open
behind a `(` that stands in none, until the next `)` comes. -/
theorem isCutAt_tokens {s : List Char} {start : Nat} (h : start ≤ s.length) :
    (∃ stop, (tokens false [] (s.drop start)).2 = s.drop stop ∧
      IsCutAt s start (tokens false [] (s.drop start)).1 stop) ∧
    ∀ t, endsOpen t ↔ ∃ front behind, t = front ++ '(' :: behind ∧ endsOpen front = false ∧
      ')' ∉ behind := by
  refine ⟨?_, fun t => endsOpen_iff⟩
  obtain ⟨front, left, hs, hopen, hfront⟩ | hnone := exists_outerComma false (s.drop start)
  · have htokens : tokens false [] (front ++ ',' :: left) = (pieces front, left) := by
      apply tokens_eq_pieces hfront
      intro current
      rw [endsOpen, hopen, tokens]
      rfl
    rw [hs, htokens]
    have hlength := congrArg List.length hs
    simp only [List.length_drop, List.length_append, List.length_cons] at hlength
    refine ⟨start + front.length + 1, ?_, by omega, by omega, .inl ⟨front, ?_, hopen, hfront, rfl⟩⟩
    · rw [Nat.add_assoc, ← List.drop_drop, hs, ← List.drop_drop, List.drop_left]
      rfl
    · have htake : start + front.length + 1 - start = front.length + 1 := by omega
      rw [List.drop_take, hs, htake, List.take_length_add_append]
      rfl
  · have htokens : tokens false [] (s.drop start ++ []) = (pieces (s.drop start), []) :=
      tokens_eq_pieces hnone fun _ => rfl
    rw [List.append_nil] at htokens
    rw [htokens]
    exact ⟨s.length, by simp, h, Nat.le_refl _, .inr ⟨rfl, hnone, rfl⟩⟩

theorem isCutAt_tokens_parentheses :
    let s := "a.png 1x  (a, (b)c 2w,\tz (,".toList
    5 ≤ s.length ∧
      tokens false [] (s.drop 5) = (["1x", "(a, (b)c", "2w"].map String.toList, s.drop 22) ∧
      (∃ stop, (tokens false [] (s.drop 5)).2 = s.drop stop ∧
        IsCutAt s 5 (tokens false [] (s.drop 5)).1 stop) ∧
      ∀ t, endsOpen t ↔ ∃ front behind, t = front ++ '(' :: behind ∧ endsOpen front = false ∧
        ')' ∉ behind := by
  intro s
  have h : 5 ≤ s.length := by decide +kernel
  exact ⟨h, by decide +kernel, isCutAt_tokens h⟩

end MediaLink.Srcset
