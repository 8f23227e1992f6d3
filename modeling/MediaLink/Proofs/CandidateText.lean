import MediaLink.Proofs.Descriptors
import Mathlib.Data.List.DropRight

namespace MediaLink.Srcset

open Text

def isPlain (c : Char) : Bool := !isBlank c && c != ',' && c != '('

/-- What a list can hold as a URL: text without blanks that no comma begins or ends. -/
structure IsUrl (s : List Char) : Prop where
  ne_nil : s ≠ []
  not_blank : ∀ c ∈ s, isBlank c = false
  head : s.head? ≠ some ','
  last : s.getLast? ≠ some ','

theorem isUrl_iff {s : List Char} :
    IsUrl s ↔ s ≠ [] ∧ s.all (!isBlank ·) ∧ s.head? ≠ some ',' ∧ s.getLast? ≠ some ',' := by
  simp only [List.all_eq_true, Bool.not_eq_true']
  exact ⟨fun ⟨hne, hblank, hhead, hlast⟩ => ⟨hne, hblank, hhead, hlast⟩,
    fun ⟨hne, hblank, hhead, hlast⟩ => ⟨hne, hblank, hhead, hlast⟩⟩

instance (s : List Char) : Decidable (IsUrl s) := decidable_of_iff _ isUrl_iff.symm

theorem isPlain_of_isDigit {c : Char} (h : c.isDigit) : isPlain c := by
  obtain ⟨hlow, hhigh⟩ : 48 ≤ c.toNat ∧ c.toNat ≤ 57 := by
    simpa [Char.isDigit, UInt32.le_iff_toNat_le] using h
  have hcomma : c ≠ ',' := Decimal.ne_of_isDigit h rfl
  have hparen : c ≠ '(' := Decimal.ne_of_isDigit h rfl
  have hblank : isBlank c = false := by
    simp [isBlank, Ranges.has, blankRanges]
    omega
  simp [isPlain, hblank, hcomma, hparen]

theorem isPlain_of_mem_text {m : Binary64} {c : Char} (h : c ∈ m.text) : isPlain c := by
  rw [Binary64.text] at h
  split at h
  case h_1 =>
    have hinf : "inf".toList.all isPlain = true := by decide
    exact List.all_eq_true.mp hinf c h
  case h_2 n e _ =>
    obtain hc | rfl := Decimal.mem_positional h
    · exact isPlain_of_isDigit hc
    · rfl

theorem Density.isPlain_of_mem_text {d : Density} {c : Char} (h : c ∈ d.text) : isPlain c := by
  rw [Density.text] at h
  split at h
  case isTrue =>
    obtain rfl | h := List.mem_cons.mp h
    · rfl
    · exact Srcset.isPlain_of_mem_text h
  case isFalse => exact Srcset.isPlain_of_mem_text h

/-- Read as one descriptor, whatever stands around it. -/
def IsToken (t : List Char) : Prop := t ≠ [] ∧ ∀ c ∈ t, isPlain c

theorem isToken_concat {s : List Char} {u : Char} (hs : ∀ c ∈ s, isPlain c) (hu : isPlain u) :
    IsToken (s ++ [u]) := by
  refine ⟨by simp, fun c hc => ?_⟩
  obtain hc | hc := List.mem_append.mp hc
  · exact hs c hc
  · exact List.mem_singleton.mp hc ▸ hu

theorem isToken_of_mem_descriptorTokens {c : Candidate} {t : List Char}
    (h : t ∈ c.descriptorTokens) : IsToken t := by
  have hdigits (n : Nat) : ∀ a ∈ Nat.toDigits 10 n, isPlain a :=
    fun a ha => isPlain_of_isDigit (Decimal.isDigit_of_mem_toDigits ha)
  obtain ⟨url, density, width, height⟩ := c
  obtain h | h := List.mem_append.mp h
  · obtain h | h := List.mem_append.mp h
    · cases density with
      | none => cases h
      | some d =>
        obtain rfl := List.mem_singleton.mp h
        exact isToken_concat (fun _ => Density.isPlain_of_mem_text) rfl
    · cases width with
      | none => cases h
      | some n =>
        obtain rfl := List.mem_singleton.mp h
        exact isToken_concat (hdigits n) rfl
  · cases height with
    | none => cases h
    | some n =>
      obtain rfl := List.mem_singleton.mp h
      exact isToken_concat (hdigits n) rfl

theorem tokens_append {t : List Char} (h : ∀ c ∈ t, isPlain c) (current rest : List Char) :
    tokens false current (t ++ rest) = tokens false (t.reverse ++ current) rest := by
  induction t generalizing current with
  | nil => rfl
  | cons c t ih =>
    have hc := h c List.mem_cons_self
    simp only [isPlain, Bool.and_eq_true, Bool.not_eq_true', bne_iff_ne] at hc
    obtain ⟨⟨hblank, hcomma⟩, hparen⟩ := hc
    have hopen : (c == '(') = false := beq_false_of_ne hparen
    rw [List.cons_append, tokens]
    simp only [hblank, hcomma, hopen, if_false, Bool.false_eq_true]
    rw [ih (fun a ha => h a (List.mem_cons_of_mem _ ha)), List.reverse_cons, List.append_assoc,
      List.singleton_append]

theorem tokens_flatMap {toks : List (List Char)}
    (h : ∀ t ∈ toks, IsToken t) {rest behind : List Char}
    (hrest : ∀ current, tokens false current rest =
      (if current.isEmpty then [] else [current.reverse], behind)) (current : List Char) :
    tokens false current (toks.flatMap (' ' :: ·) ++ rest) =
      ((if current.isEmpty then [] else [current.reverse]) ++ toks, behind) := by
  induction toks generalizing current with
  | nil => rw [List.flatMap_nil, List.nil_append, hrest, List.append_nil]
  | cons t toks ih =>
    obtain ⟨hne, hplain⟩ := h t List.mem_cons_self
    have hspace : isBlank ' ' = true := by decide
    have hnext : tokens false [] (t ++ (toks.flatMap (' ' :: ·) ++ rest)) =
        (t :: toks, behind) := by
      rw [tokens_append hplain, ih fun u hu => h u (List.mem_cons_of_mem _ hu)]
      simp [hne]
    rw [List.flatMap_cons, List.append_assoc, List.cons_append, tokens]
    simp only [hspace, Bool.false_eq_true, if_false, if_true, hnext]
    cases current <;> rfl

theorem tokens_comma (current s : List Char) :
    tokens false current (',' :: s) = (if current.isEmpty then [] else [current.reverse], s) := by
  have hblank : isBlank ',' = false := by decide
  rw [tokens]
  simp only [hblank, Bool.false_eq_true, if_false, if_true]

theorem candidates_nil : candidates [] = [] := by
  rw [candidates]
  rfl

theorem candidates_cons {c : Char} (h : isSeparator c = false) (t : List Char) :
    candidates (c :: t) =
      let url := (c :: t).takeWhile (!isBlank ·)
      let rest := (c :: t).dropWhile (!isBlank ·)
      if url.getLast? = some ',' then
        Candidate.ofTokens? (trimCommas url) [] :: candidates rest
      else
        Candidate.ofTokens? url (tokens false [] rest).1 ::
          candidates (tokens false [] rest).2 := by
  have hdrop : (c :: t).dropWhile isSeparator = c :: t := List.dropWhile_cons_of_neg (by simp [h])
  have hblank : (!isBlank c) = true := by
    rw [isSeparator, Bool.or_eq_false_iff] at h
    rw [h.1]
    rfl
  have hrest : (c :: t).dropWhile (!isBlank ·) = t.dropWhile (!isBlank ·) :=
    List.dropWhile_cons_of_pos hblank
  rw [candidates]
  split
  case h_1 hnil => exact absurd (hdrop.symm.trans hnil) (List.cons_ne_nil _ _)
  case h_2 c' t' hcons =>
    obtain ⟨rfl, rfl⟩ := List.cons_eq_cons.mp (hdrop.symm.trans hcons)
    rw [hrest]

theorem candidates_of_isSeparator {c : Char} (h : isSeparator c = true) (s : List Char) :
    candidates (c :: s) = candidates s := by
  have hdrop : (c :: s).dropWhile isSeparator = s.dropWhile isSeparator :=
    List.dropWhile_cons_of_pos h
  rw [candidates, candidates]
  split
  case h_1 hnil =>
    split
    case h_1 => rfl
    case h_2 hcons => exact absurd (hdrop.trans hcons).symm (hnil ▸ List.cons_ne_nil _ _)
  case h_2 hcons =>
    split
    case h_1 hnil => exact absurd (hdrop.symm.trans hcons).symm (hnil ▸ List.cons_ne_nil _ _)
    case h_2 hcons' =>
      obtain ⟨rfl, rfl⟩ := List.cons_eq_cons.mp (hcons.symm.trans (hdrop.trans hcons'))
      rfl

theorem candidates_dropWhile (s : List Char) :
    candidates (s.dropWhile isSeparator) = candidates s := by
  induction s with
  | nil => rfl
  | cons c s ih =>
    cases hc : isSeparator c with
    | true => rw [List.dropWhile_cons_of_pos hc, ih, candidates_of_isSeparator hc]
    | false => rw [List.dropWhile_cons_of_neg (by simp [hc])]

def joinText : List Candidate → List Char
  | [] => []
  | c :: rest =>
    c.url ++ (c.descriptorText ++ ((if rest.isEmpty then [] else [',', ' ']) ++ joinText rest))

theorem takeWhile_url {url : List Char} (h : IsUrl url) (s : List Char) :
    (url ++ s).takeWhile (!isBlank ·) = url ++ s.takeWhile (!isBlank ·) :=
  List.takeWhile_append_of_pos fun c hc => by rw [h.not_blank c hc]; rfl

theorem dropWhile_url {url : List Char} (h : IsUrl url) (s : List Char) :
    (url ++ s).dropWhile (!isBlank ·) = s.dropWhile (!isBlank ·) :=
  List.dropWhile_append_of_pos fun c hc => by rw [h.not_blank c hc]; rfl

theorem trimCommas_eq_self {s : List Char} (h : s.getLast? ≠ some ',') : trimCommas s = s := by
  change s.rdropWhile (· == ',') = s
  rw [List.rdropWhile_eq_self_iff]
  intro hne hlast
  apply h
  rw [List.getLast?_eq_some_getLast hne, beq_iff_eq.mp hlast]

theorem trimCommas_concat_comma (s : List Char) : trimCommas (s ++ [',']) = trimCommas s :=
  List.rdropWhile_concat_pos _ _ _ rfl

theorem trimCommas_concat {url : List Char} (h : IsUrl url) : trimCommas (url ++ [',']) = url :=
  (trimCommas_concat_comma url).trans (trimCommas_eq_self h.last)

theorem candidates_url_append {url : List Char} (h : IsUrl url) (s : List Char) :
    candidates (url ++ s) =
      let rest := s.dropWhile (!isBlank ·)
      if (url ++ s.takeWhile (!isBlank ·)).getLast? = some ',' then
        Candidate.ofTokens? (trimCommas (url ++ s.takeWhile (!isBlank ·))) [] :: candidates rest
      else
        Candidate.ofTokens? (url ++ s.takeWhile (!isBlank ·)) (tokens false [] rest).1 ::
          candidates (tokens false [] rest).2 := by
  rw [← takeWhile_url h, ← dropWhile_url h]
  obtain ⟨hne, hblank, hhead, -⟩ := h
  cases url with
  | nil => exact absurd rfl hne
  | cons c t =>
    have hcomma : (c == ',') = false := beq_false_of_ne fun hc => hhead (congrArg some hc)
    have hsep : isSeparator c = false := by
      rw [isSeparator, hblank c List.mem_cons_self, hcomma]
      rfl
    exact candidates_cons hsep (t ++ s)

theorem candidates_bare {url : List Char} (h : IsUrl url) :
    candidates url = [Candidate.ofTokens? url []] := by
  have hread := candidates_url_append h []
  rw [List.append_nil] at hread
  simpa [h.last, tokens, candidates_nil] using hread

theorem candidates_bare_append {url : List Char} (h : IsUrl url) (s : List Char) :
    candidates (url ++ ',' :: ' ' :: s) = Candidate.ofTokens? url [] :: candidates s := by
  have hspace : (!isBlank ' ') = false := by decide
  have hcomma : (!isBlank ',') = true := by decide
  have hbehind : candidates (' ' :: s) = candidates s := candidates_of_isSeparator (by decide) s
  rw [candidates_url_append h]
  simp [hspace, hcomma, trimCommas_concat h, hbehind]

theorem candidates_described {url : List Char} (h : IsUrl url) {t : List Char}
    {ts : List (List Char)} (hts : ∀ u ∈ t :: ts, IsToken u) {rest behind : List Char}
    (hrest : ∀ current, tokens false current rest =
      (if current.isEmpty then [] else [current.reverse], behind)) :
    candidates (url ++ ((t :: ts).flatMap (' ' :: ·) ++ rest)) =
      Candidate.ofTokens? url (t :: ts) :: candidates behind := by
  have hspace : (!isBlank ' ') = false := by decide
  have htake : ((t :: ts).flatMap (' ' :: ·) ++ rest).takeWhile (!isBlank ·) = [] := by
    simp [hspace]
  have hdrop : ((t :: ts).flatMap (' ' :: ·) ++ rest).dropWhile (!isBlank ·) =
      (t :: ts).flatMap (' ' :: ·) ++ rest := by
    simp [hspace]
  rw [candidates_url_append h, htake, hdrop, List.append_nil]
  simp only [if_neg h.last, tokens_flatMap hts hrest]
  rfl

/-- Candidates with proper URLs read back from their row. -/
theorem candidates_joinText {cs : List Candidate} (h : ∀ c ∈ cs, IsUrl c.url) :
    candidates (joinText cs) = cs.map fun c => Candidate.ofTokens? c.url c.descriptorTokens := by
  induction cs with
  | nil => exact candidates_nil
  | cons c cs ih =>
    have hurl := h c List.mem_cons_self
    have hnext := ih fun d hd => h d (List.mem_cons_of_mem _ hd)
    have htokens : ∀ t ∈ c.descriptorTokens, IsToken t :=
      fun _ => isToken_of_mem_descriptorTokens
    rw [joinText, List.map_cons, ← hnext, Candidate.descriptorText_eq]
    generalize c.descriptorTokens = toks at htokens
    cases toks with
    | nil =>
      cases cs with
      | nil => simpa [joinText, candidates_nil] using candidates_bare hurl
      | cons d ds => exact candidates_bare_append hurl (joinText (d :: ds))
    | cons t ts =>
      cases cs with
      | nil => exact candidates_described hurl htokens fun _ => rfl
      | cons d ds =>
        have hbehind : candidates (' ' :: joinText (d :: ds)) = candidates (joinText (d :: ds)) :=
          candidates_of_isSeparator (by decide) _
        rw [← hbehind]
        exact candidates_described hurl htokens fun current => tokens_comma current _

theorem isUrl_trimCommas {s : List Char} (hne : s ≠ []) (hblank : ∀ c ∈ s, isBlank c = false)
    (hhead : s.head? ≠ some ',') : IsUrl (trimCommas s) := by
  have hcut : trimCommas s <+: s := List.rdropWhile_prefix _ _
  have htrim : trimCommas s ≠ [] := by
    intro hnil
    have hall := List.rdropWhile_eq_nil_iff.mp hnil
    apply hhead
    rw [List.head?_eq_some_head hne, beq_iff_eq.mp (hall _ (List.head_mem hne))]
  refine ⟨htrim, fun c hc => hblank c (hcut.subset hc), ?_, ?_⟩
  · obtain ⟨t, ht⟩ := hcut
    rw [← ht, List.head?_append_of_ne_nil _ htrim] at hhead
    exact hhead
  · have hlast := List.rdropWhile_last_not (· == ',') s htrim
    rw [List.getLast?_eq_some_getLast htrim]
    intro hcomma
    exact hlast (beq_iff_eq.mpr (Option.some.inj hcomma))

theorem begins_url {s t : List Char} {a : Char} (h : s.dropWhile isSeparator = a :: t) :
    let url := (a :: t).takeWhile (!isBlank ·)
    url ≠ [] ∧ (∀ c ∈ url, isBlank c = false) ∧ url.head? ≠ some ',' := by
  intro url
  have hsep : isSeparator a = false := by
    have hhead := List.head?_dropWhile_not isSeparator s
    rw [h] at hhead
    exact hhead
  rw [isSeparator, Bool.or_eq_false_iff] at hsep
  obtain ⟨hblank, hcomma⟩ := hsep
  have hurl : url = a :: t.takeWhile (!isBlank ·) :=
    List.takeWhile_cons_of_pos (by rw [hblank]; rfl)
  refine ⟨hurl ▸ List.cons_ne_nil _ _, fun c hc => ?_, ?_⟩
  · have hc := List.mem_takeWhile_imp hc
    simpa using hc
  · rw [hurl]
    intro hhead
    exact ne_of_beq_false hcomma (Option.some.inj hhead)

theorem mem_parse {s : List Char} {c : Candidate} : c ∈ parse s ↔ some c ∈ candidates s := by
  simp [parse]

end MediaLink.Srcset
