import MediaLink.Proofs.CandidateText
import MediaLink.Proofs.Eligible

namespace MediaLink.Srcset

open Text

def pending (current : List Char) : List (List Char) :=
  if current.isEmpty then [] else [current.reverse]

/-- What a reader is in the middle of. The word or token in progress is held in reverse. -/
inductive Phase where
  | separators
  | word (current : List Char)
  | descriptors (url : List Char) (before : List (List Char)) (inParens : Bool)
    (current : List Char)

namespace Phase

def step : Phase → Char → List (Option Candidate) × Phase
  | separators, c => if isSeparator c then ([], separators) else ([], word [c])
  | word current, c =>
    if isBlank c then
      if current.head? = some ',' then
        ([Candidate.ofTokens? (trimCommas current.reverse) []], separators)
      else ([], descriptors current.reverse [] false [])
    else ([], word (c :: current))
  | descriptors url before true current, c =>
    ([], descriptors url before (c != ')') (c :: current))
  | descriptors url before false current, c =>
    if isBlank c then ([], descriptors url (before ++ pending current) false [])
    else if c = ',' then ([Candidate.ofTokens? url (before ++ pending current)], separators)
    else ([], descriptors url before (c == '(') (c :: current))

def run (p : Phase) : List Char → List (Option Candidate) × Phase
  | [] => ([], p)
  | c :: s => ((p.step c).1 ++ ((p.step c).2.run s).1, ((p.step c).2.run s).2)

/-- What is still to come of a list that the reader is in the middle of. -/
def resume : Phase → List Char → List (Option Candidate)
  | separators, s => candidates s
  | word current, s =>
    let text := current.reverse ++ s.takeWhile (!isBlank ·)
    let rest := s.dropWhile (!isBlank ·)
    if text.getLast? = some ',' then Candidate.ofTokens? (trimCommas text) [] :: candidates rest
    else Candidate.ofTokens? text (tokens false [] rest).1 :: candidates (tokens false [] rest).2
  | descriptors url before inParens current, s =>
    Candidate.ofTokens? url (before ++ (tokens inParens current s).1) ::
      candidates (tokens inParens current s).2

def inParens : Phase → Bool
  | descriptors _ _ inParens _ => inParens
  | _ => false

def after (s : List Char) : Phase := (separators.run s).2

theorem resume_separators_cons (c : Char) (s : List Char) :
    separators.resume (c :: s) = (separators.step c).1 ++ (separators.step c).2.resume s := by
  rw [step]
  split
  case isTrue hsep => exact candidates_of_isSeparator hsep s
  case isFalse hsep =>
    have hsep : isSeparator c = false := Bool.eq_false_of_not_eq_true hsep
    have hblank : (!isBlank c) = true := by
      rw [(Bool.or_eq_false_iff.mp hsep).1]
      rfl
    have htake : (c :: s).takeWhile (!isBlank ·) = [c] ++ s.takeWhile (!isBlank ·) :=
      List.takeWhile_cons_of_pos hblank
    have hdrop : (c :: s).dropWhile (!isBlank ·) = s.dropWhile (!isBlank ·) :=
      List.dropWhile_cons_of_pos hblank
    change candidates (c :: s) = (word [c]).resume s
    rw [candidates_cons hsep, htake, hdrop]
    rfl

theorem resume_word_cons (current : List Char) (c : Char) (s : List Char) :
    (word current).resume (c :: s) =
      ((word current).step c).1 ++ ((word current).step c).2.resume s := by
  cases hblank : isBlank c with
  | true =>
    have hsep : isSeparator c = true := by rw [isSeparator, hblank, Bool.true_or]
    have htokens : tokens false [] (c :: s) = tokens false [] s := by simp [tokens, hblank]
    by_cases hcomma : current.head? = some ','
    · simp [resume, step, hblank, hcomma, candidates_of_isSeparator hsep]
    · simp [resume, step, hblank, hcomma, htokens]
  | false => simp [resume, step, hblank]

theorem resume_descriptors_cons (url : List Char) (before : List (List Char)) (inParens : Bool)
    (current : List Char) (c : Char) (s : List Char) :
    (descriptors url before inParens current).resume (c :: s) =
      ((descriptors url before inParens current).step c).1 ++
        ((descriptors url before inParens current).step c).2.resume s := by
  cases inParens with
  | true => simp [resume, step, tokens]
  | false =>
    cases hblank : isBlank c with
    | true => cases current <;> simp [resume, step, tokens, hblank, pending]
    | false =>
      by_cases hcomma : c = ','
      · subst hcomma
        simp [resume, step, tokens, hblank, pending]
      · simp [resume, step, tokens, hblank, hcomma]

/-- One character further, the same is still to come, less the candidate that it ends. -/
theorem resume_cons (p : Phase) (c : Char) (s : List Char) :
    p.resume (c :: s) = (p.step c).1 ++ (p.step c).2.resume s := by
  cases p with
  | separators => exact resume_separators_cons c s
  | word current => exact resume_word_cons current c s
  | descriptors url before inParens current =>
    exact resume_descriptors_cons url before inParens current c s

theorem resume_append (p : Phase) (s t : List Char) :
    p.resume (s ++ t) = (p.run s).1 ++ (p.run s).2.resume t := by
  induction s generalizing p with
  | nil => rfl
  | cons c s ih => rw [List.cons_append, resume_cons, ih, run, List.append_assoc]

/-- A comma and a space end whatever the reader is in the middle of, unless a parenthesis holds
them. -/
theorem resume_joint {p : Phase} (h : p.inParens = false) (s : List Char) :
    p.resume (',' :: ' ' :: s) = p.resume [] ++ candidates s := by
  have hcomma : isBlank ',' = false := by decide
  have hspace : isBlank ' ' = true := by decide
  have hbehind : candidates (' ' :: s) = candidates s := candidates_of_isSeparator (by decide) s
  cases p with
  | separators =>
    change candidates (',' :: ' ' :: s) = candidates [] ++ candidates s
    rw [candidates_nil, candidates_of_isSeparator (by decide), hbehind, List.nil_append]
  | word current =>
    have htrim := trimCommas_concat_comma current.reverse
    by_cases hlast : current.head? = some ','
    · simp [resume, hcomma, hspace, hlast, htrim, hbehind, candidates_nil]
    · have hkept : trimCommas current.reverse = current.reverse :=
        trimCommas_eq_self (List.getLast?_reverse ▸ hlast)
      simp [resume, hcomma, hspace, hlast, htrim, hkept, hbehind, tokens, candidates_nil]
  | descriptors url before inParens current =>
    obtain rfl : inParens = false := h
    have hjoint : tokens false current (',' :: ' ' :: s) = (pending current, ' ' :: s) :=
      tokens_comma current _
    have hend : tokens false current [] = (pending current, []) := rfl
    simp [resume, hjoint, hend, hbehind, candidates_nil]

end Phase

theorem candidates_append {s : List Char} (h : (Phase.after s).inParens = false) (t : List Char) :
    candidates (s ++ ',' :: ' ' :: t) = candidates s ++ candidates t := by
  have hs := Phase.separators.resume_append s []
  rw [List.append_nil] at hs
  calc candidates (s ++ ',' :: ' ' :: t)
      = (Phase.separators.run s).1 ++ (Phase.after s).resume (',' :: ' ' :: t) :=
        Phase.separators.resume_append s _
    _ = (Phase.separators.run s).1 ++ (Phase.after s).resume [] ++ candidates t := by
        rw [Phase.resume_joint h, List.append_assoc]
    _ = candidates s ++ candidates t := congrArg (· ++ candidates t) hs.symm

def dropped (s : List Char) : Nat := (candidates s).count none

theorem parseComplete?_eq_none_iff {s : List Char} : parseComplete? s = none ↔ dropped s ≠ 0 := by
  rw [parseComplete?, mapM_id_eq_none, dropped, Ne, List.count_eq_zero, not_not]

/-- What is read of a list is what is read of the one, and then what is read of the other. -/
structure IsJoin (joined s t : List Char) : Prop where
  parse_eq : parse joined = parse s ++ parse t
  dropped_eq : dropped joined = dropped s + dropped t
  eq_none_iff : parseComplete? joined = none ↔ parseComplete? s = none ∨ parseComplete? t = none
  eq_append : ∀ cs ds, parseComplete? s = some cs → parseComplete? t = some ds →
    parseComplete? joined = some (cs ++ ds)

/-- A list can be put behind another one, unless that ends inside a parenthesis. -/
theorem isJoin_append {s : List Char} (h : (Phase.after s).inParens = false) (t : List Char) :
    IsJoin (s ++ ',' :: ' ' :: t) s t := by
  have hread := candidates_append h t
  have hdropped : dropped (s ++ ',' :: ' ' :: t) = dropped s + dropped t := by
    rw [dropped, hread, List.count_append]
    rfl
  refine ⟨?_, hdropped, ?_, fun cs ds hcs hds => ?_⟩
  · rw [parse, hread, List.filterMap_append]
    rfl
  · simp only [parseComplete?_eq_none_iff, hdropped]
    omega
  · rw [parseComplete?_eq_some] at hcs hds ⊢
    rw [hread, hcs, hds, List.map_append]

theorem isJoin_append_parentheses :
    let s := "a.png 2x, b.png (x, y)".toList
    let t := "c.png 1w 2h, d.png,".toList
    (Phase.after s).inParens = false ∧ IsJoin (s ++ ',' :: ' ' :: t) s t := by
  intro s t
  have h : (Phase.after s).inParens = false := by decide +kernel
  exact ⟨h, isJoin_append h t⟩

example : candidates ("a.png (".toList ++ ',' :: ' ' :: "b.png".toList) = [none] := by
  decide +kernel

end MediaLink.Srcset
