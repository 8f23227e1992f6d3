import MediaLink.Proofs.CandidateText

namespace MediaLink.Srcset

open Text

/-- What one round takes off a text, part by part, and the descriptors in it. -/
structure Round where
  gap : List Char
  url : List Char
  behind : List Char
  descriptors : List (List Char)

namespace Round

def text (r : Round) : List Char := r.gap ++ (r.url ++ r.behind)

def candidate (r : Round) : Option Candidate := Candidate.ofTokens? r.url r.descriptors

end Round

def round? (s : List Char) : Option (Round × List Char) :=
  let gap := s.takeWhile isSeparator
  let word := (s.dropWhile isSeparator).takeWhile (!isBlank ·)
  let rest := (s.dropWhile isSeparator).dropWhile (!isBlank ·)
  let left := (tokens false [] rest).2
  if (s.dropWhile isSeparator).isEmpty then none
  else if word.getLast? = some ',' then
    some (⟨gap, trimCommas word, word.drop (trimCommas word).length, []⟩, rest)
  else some (⟨gap, word, rest.take (rest.length - left.length), (tokens false [] rest).1⟩, left)

theorem candidates_eq_round? (s : List Char) :
    candidates s = match round? s with
      | none => []
      | some (r, left) => r.candidate :: candidates left := by
  rw [← candidates_dropWhile, round?]
  cases hrest : s.dropWhile isSeparator with
  | nil => exact candidates_nil
  | cons c t =>
    rw [candidates_cons (head_dropWhile_not hrest)]
    simp only [List.isEmpty_cons, Bool.false_eq_true, if_false]
    split
    · rfl
    · rfl

theorem tokens_suffix (inParens : Bool) (current s : List Char) :
    (tokens inParens current s).2 <:+ s := by
  induction s generalizing inParens current with
  | nil => exact List.suffix_rfl
  | cons c s ih =>
    have hnext (inParens : Bool) (current : List Char) :
        (tokens inParens current s).2 <:+ c :: s :=
      (ih inParens current).trans (List.suffix_cons c s)
    rw [tokens]
    split
    · exact hnext _ _
    · split
      · split
        · exact hnext _ _
        · exact hnext _ _
      · split
        · exact List.suffix_cons c s
        · exact hnext _ _

theorem trimCommas_append_drop (s : List Char) :
    trimCommas s ++ s.drop (trimCommas s).length = s :=
  List.prefix_iff_eq_append.mp (List.rdropWhile_prefix _ _)

theorem round?_eq_some {s left : List Char} {r : Round} (h : round? s = some (r, left)) :
    s = r.text ++ left ∧ IsUrl r.url := by
  have hgap := List.takeWhile_append_dropWhile (p := isSeparator) (l := s)
  have hword := List.takeWhile_append_dropWhile (p := (!isBlank ·)) (l := s.dropWhile isSeparator)
  rw [round?] at h
  obtain ⟨hrest, h⟩ := Option.ite_none_left_eq_some.mp h
  obtain ⟨c, t, hct⟩ := List.exists_cons_of_ne_nil (mt List.isEmpty_iff.mpr hrest)
  obtain ⟨hne, hblank, hhead⟩ := begins_url hct
  rw [← hct] at hne hblank hhead
  split at h
  case isTrue hlast =>
    obtain ⟨rfl, rfl⟩ := Prod.mk.inj (Option.some.inj h)
    refine ⟨?_, isUrl_trimCommas hne hblank hhead⟩
    rw [Round.text, trimCommas_append_drop, List.append_assoc, hword, hgap]
  case isFalse hlast =>
    obtain ⟨rfl, rfl⟩ := Prod.mk.inj (Option.some.inj h)
    refine ⟨?_, hne, hblank, hhead, hlast⟩
    have hbehind := List.suffix_iff_eq_append.mp
      (tokens_suffix false [] ((s.dropWhile isSeparator).dropWhile (!isBlank ·)))
    rw [Round.text, List.append_assoc, List.append_assoc, hbehind, hword, hgap]

theorem round?_eq_none {s : List Char} : round? s = none ↔ ∀ c ∈ s, isSeparator c := by
  rw [← List.dropWhile_eq_nil_iff, round?]
  simp only [List.isEmpty_iff]
  split
  case isTrue h => simp [h]
  case isFalse h => split <;> simp [h]

theorem Round.text_ne_nil {r : Round} (h : IsUrl r.url) : r.text ≠ [] :=
  List.append_ne_nil_of_right_ne_nil _ (List.append_ne_nil_of_left_ne_nil h.ne_nil _)

def rounds (s : List Char) : List Round :=
  match _ : round? s with
  | none => []
  | some (r, left) => r :: rounds left
termination_by s.length
decreasing_by
  obtain ⟨hs, hurl⟩ := round?_eq_some ‹_›
  have hpos := List.length_pos_of_ne_nil (Round.text_ne_nil hurl)
  rw [hs, List.length_append]
  omega

theorem rounds_eq (s : List Char) :
    rounds s = match round? s with
      | none => []
      | some (r, left) => r :: rounds left := by
  rw [rounds]
  split
  case h_1 hnone => rw [hnone]
  case h_2 hsome => rw [hsome]

theorem candidates_eq_map_rounds (s : List Char) :
    candidates s = (rounds s).map Round.candidate := by
  fun_induction rounds s with
  | case1 s hnone => rw [candidates_eq_round?, hnone, List.map_nil]
  | case2 s r left hround ih => rw [candidates_eq_round?, hround, List.map_cons, ← ih]

theorem isUrl_of_mem_rounds {s : List Char} {r : Round} (h : r ∈ rounds s) : IsUrl r.url := by
  fun_induction rounds s with
  | case1 s hnone => cases h
  | case2 s r' left hround ih =>
    obtain rfl | h := List.mem_cons.mp h
    · exact (round?_eq_some hround).2
    · exact ih h

/-- What is read of a list can be written in one. -/
theorem isUrl_of_mem_candidates {s : List Char} {c : Candidate} (h : some c ∈ candidates s) :
    IsUrl c.url ∧ c.Valid := by
  rw [candidates_eq_map_rounds] at h
  obtain ⟨r, hr, hc⟩ := List.mem_map.mp h
  obtain ⟨hvalid, hurl⟩ := Candidate.valid_of_ofTokens? hc
  exact ⟨hurl ▸ isUrl_of_mem_rounds hr, hvalid⟩

/-- The text is what the rounds take, and separators behind that. -/
theorem exists_tail (s : List Char) :
    ∃ tail, s = (rounds s).flatMap Round.text ++ tail ∧ ∀ c ∈ tail, isSeparator c := by
  fun_induction rounds s with
  | case1 s hnone => exact ⟨s, rfl, round?_eq_none.mp hnone⟩
  | case2 s r left hround ih =>
    obtain ⟨tail, hleft, htail⟩ := ih
    refine ⟨tail, ?_, htail⟩
    rw [List.flatMap_cons, List.append_assoc, ← hleft]
    exact (round?_eq_some hround).1

def taken (s : List Char) (i : Nat) : List Char := ((rounds s).take i).flatMap Round.text

def position (s : List Char) (i : Nat) : Nat := (taken s i).length

theorem prefix_taken (s : List Char) (i : Nat) : taken s i <+: s := by
  obtain ⟨tail, hs, -⟩ := exists_tail s
  rw [← List.take_append_drop i (rounds s), List.flatMap_append, List.append_assoc] at hs
  exact ⟨_, hs.symm⟩

theorem taken_succ {s : List Char} {i : Nat} (h : i < (rounds s).length) :
    taken s (i + 1) = taken s i ++ (rounds s)[i].text := by
  rw [taken, List.take_succ_eq_append_getElem h, List.flatMap_append, List.flatMap_singleton]
  rfl

theorem position_lt {s : List Char} {i : Nat} (h : i < (rounds s).length) :
    position s i < position s (i + 1) := by
  have hurl := isUrl_of_mem_rounds (List.getElem_mem h)
  have hpos := List.length_pos_of_ne_nil (Round.text_ne_nil hurl)
  rw [position, position, taken_succ h, List.length_append]
  omega

theorem all_isSeparator (s : List Char) :
    ∀ c ∈ s.drop (position s (rounds s).length), isSeparator c := by
  obtain ⟨tail, hs, htail⟩ := exists_tail s
  rw [position, taken, List.take_length]
  generalize (rounds s).flatMap Round.text = front at hs ⊢
  rw [hs, List.drop_left]
  exact htail

theorem url_at {s : List Char} {i : Nat} (h : i < (rounds s).length) :
    ∃ start stop, position s i ≤ start ∧ start < stop ∧ stop ≤ position s (i + 1) ∧
      (s.take stop).drop start = (rounds s)[i].url := by
  have hurl := isUrl_of_mem_rounds (List.getElem_mem h)
  have hpos := List.length_pos_of_ne_nil hurl.ne_nil
  obtain ⟨back, hback⟩ := prefix_taken s (i + 1)
  rw [position, position]
  rw [taken_succ h] at hback ⊢
  generalize taken s i = front at hback ⊢
  generalize (rounds s)[i] = r at hpos hback ⊢
  have hs : front ++ r.gap ++ r.url ++ (r.behind ++ back) = s := by
    rw [← hback, Round.text]
    simp only [List.append_assoc]
  refine ⟨(front ++ r.gap).length, (front ++ r.gap ++ r.url).length, ?_, ?_, ?_, ?_⟩
  · simp only [List.length_append]
    omega
  · simp only [List.length_append]
    omega
  · simp only [Round.text, List.length_append]
    omega
  · rw [← hs, List.take_left, List.drop_left]

/-- Reading from where a round begins goes on with this round. -/
theorem rounds_drop {s : List Char} {i : Nat} (h : i ≤ (rounds s).length) :
    rounds (s.drop (position s i)) = (rounds s).drop i := by
  induction i generalizing s with
  | zero =>
    have hzero : position s 0 = 0 := rfl
    rw [hzero, List.drop_zero, List.drop_zero]
  | succ i ih =>
    cases hround : round? s with
    | none =>
      rw [rounds_eq, hround] at h
      cases h
    | some result =>
      obtain ⟨r, left⟩ := result
      have hrounds : rounds s = r :: rounds left := by rw [rounds_eq, hround]
      have htaken : taken s (i + 1) = r.text ++ taken left i := by
        rw [taken, hrounds, List.take_succ_cons, List.flatMap_cons]
        rfl
      have hle : i ≤ (rounds left).length := by
        rw [hrounds] at h
        exact Nat.le_of_succ_le_succ h
      rw [position, htaken, List.length_append, hrounds, List.drop_succ_cons, ← ih hle]
      conv_lhs => rw [(round?_eq_some hround).1, ← List.drop_drop, List.drop_left]
      rfl

/-- Every round gets further and none gets past the end, and the entries are what the rounds
returned. -/
structure IsReadInOrder (s : List Char) : Prop where
  candidates_eq : candidates s = (rounds s).map Round.candidate
  rounds_drop : ∀ i ≤ (rounds s).length, rounds (s.drop (position s i)) = (rounds s).drop i
  position_lt : ∀ i < (rounds s).length, position s i < position s (i + 1)
  position_le : ∀ i ≤ (rounds s).length, position s i ≤ s.length
  all_isSeparator : ∀ c ∈ s.drop (position s (rounds s).length), isSeparator c
  url_at : ∀ i (h : i < (rounds s).length), ∃ start stop, position s i ≤ start ∧ start < stop ∧
    stop ≤ position s (i + 1) ∧ (s.take stop).drop start = (rounds s)[i].url
  url_eq : ∀ r ∈ rounds s, ∀ c, r.candidate = some c → c.url = r.url
  isUrl : ∀ c ∈ parse s, IsUrl c.url
  valid : ∀ c ∈ parse s, c.Valid

/-- Whatever the text is, it is read to its end, and what is returned stands in it in order. -/
theorem isReadInOrder (s : List Char) : IsReadInOrder s where
  candidates_eq := candidates_eq_map_rounds s
  rounds_drop _ h := Srcset.rounds_drop h
  position_lt _ h := Srcset.position_lt h
  position_le i _ := (prefix_taken s i).length_le
  all_isSeparator := Srcset.all_isSeparator s
  url_at _ h := Srcset.url_at h
  url_eq _ _ _ hc := (Candidate.valid_of_ofTokens? hc).2
  isUrl _ hc := (isUrl_of_mem_candidates (mem_parse.mp hc)).1
  valid _ hc := (isUrl_of_mem_candidates (mem_parse.mp hc)).2

end MediaLink.Srcset
