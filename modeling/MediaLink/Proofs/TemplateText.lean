import Mathlib.Data.List.Basic
import MediaLink.Script.Parser.Expression
import MediaLink.Script.Quote
import MediaLink.Target

namespace MediaLink.Script

def escapable : List Char := ['\\', '`', '$', '/']

/-- The raw text stands for the other one: an escaped character for itself, as does every other one
that does not begin a mark. -/
inductive Spells : List Char → List Char → Prop
  | nil : Spells [] []
  | escaped {c : Char} {raw text : List Char} (hc : c ∈ escapable) (h : Spells raw text) :
    Spells ('\\' :: c :: raw) (c :: text)
  | plain {c : Char} {raw text : List Char} (hbackslash : c ≠ '\\') (hquote : c ≠ '`')
    (hreturn : c ≠ '\r') (hhole : c = '$' → raw.head? ≠ some '\x7b') (h : Spells raw text) :
    Spells (c :: raw) (c :: text)

def endsRun : List Char → Bool
  | '`' :: _ => true
  | '$' :: '\x7b' :: _ => true
  | _ => false

def escapesNext (front : List Char) : Bool :=
  front.foldl (fun isEscaped c => c == '\\' && !isEscaped) false

theorem escapesNext_escape (c : Char) (s : List Char) :
    escapesNext ('\\' :: c :: s) = escapesNext s := by
  simp [escapesNext]

theorem escapesNext_plain {c : Char} (h : c ≠ '\\') (s : List Char) :
    escapesNext (c :: s) = escapesNext s := by
  have hc : (c == '\\') = false := beq_false_of_ne h
  simp [escapesNext, hc]

theorem endsRun_cons {c : Char} {s : List Char} :
    endsRun (c :: s) ↔ c = '`' ∨ (c = '$' ∧ s.head? = some '\x7b') := by
  unfold endsRun
  split
  case h_1 heq =>
    obtain ⟨rfl, -⟩ := List.cons_eq_cons.mp heq
    simp
  case h_2 heq =>
    obtain ⟨rfl, rfl⟩ := List.cons_eq_cons.mp heq
    simp
  case h_3 hquote hhole =>
    constructor
    · intro h
      cases h
    · rintro (rfl | ⟨rfl, hs⟩)
      · exact absurd rfl (hquote s)
      · obtain ⟨t, rfl⟩ := List.head?_eq_some_iff.mp hs
        exact absurd rfl (hhole t)

theorem head?_append_ne {raw tail : List Char} (h : raw.head? ≠ some '\x7b')
    (htail : tail.head? ≠ some '\x7b') : (raw ++ tail).head? ≠ some '\x7b' := by
  cases raw with
  | nil => exact htail
  | cons c raw => exact h

/-- No mark that ends a run begins in raw text, unless it is escaped, and this holds of marks that
go on in what follows, too. -/
theorem Spells.escapesNext {raw text tail : List Char} (h : Spells raw text)
    (htail : tail.head? ≠ some '\x7b') {front back : List Char}
    (hsplit : raw ++ tail = front ++ back) (hback : endsRun back)
    (hlt : front.length < raw.length) : escapesNext front := by
  induction h generalizing front with
  | nil => cases hlt
  | @escaped c raw text hc h ih =>
    match front with
    | [] =>
      obtain rfl : '\\' :: c :: (raw ++ tail) = back := hsplit
      simp [endsRun_cons] at hback
    | [d] =>
      obtain ⟨rfl, -⟩ := List.cons_eq_cons.mp hsplit
      rfl
    | d :: d' :: front =>
      obtain ⟨hd, hsplit⟩ := List.cons_eq_cons.mp hsplit
      obtain ⟨hd', hsplit⟩ := List.cons_eq_cons.mp hsplit
      rw [← hd, escapesNext_escape]
      exact ih hsplit (by simpa using hlt)
  | @plain c raw text hbackslash hquote hreturn hhole h ih =>
    cases front with
    | nil =>
      obtain rfl : c :: (raw ++ tail) = back := hsplit
      obtain rfl | ⟨rfl, hhead⟩ := endsRun_cons.mp hback
      · exact absurd rfl hquote
      · exact absurd hhead (head?_append_ne (hhole rfl) htail)
    | cons d front =>
      obtain ⟨hd, hsplit⟩ := List.cons_eq_cons.mp hsplit
      rw [← hd, escapesNext_plain hbackslash]
      exact ih hsplit (by simpa using hlt)

/-- A run is read to its end, unless a brace follows, which could make a hole of its last
character. -/
theorem Spells.templateRun_append {raw text tail : List Char} (h : Spells raw text)
    (htail : tail.head? ≠ some '\x7b') (front : List Char) :
    templateRun front (raw ++ tail) = templateRun (raw.reverse ++ front) tail := by
  induction h generalizing front with
  | nil => rfl
  | @escaped c raw text hc h ih =>
    have hnext : templateRun front ('\\' :: c :: (raw ++ tail)) =
        templateRun (c :: '\\' :: front) (raw ++ tail) := rfl
    simp only [List.cons_append, hnext, ih, List.reverse_cons, List.append_assoc, List.nil_append]
  | @plain c raw text hbackslash hquote hreturn hhole h ih =>
    have hnext : templateRun front (c :: (raw ++ tail)) =
        templateRun (c :: front) (raw ++ tail) := by
      rw [templateRun]
      · exact hquote
      · intro t hc ht
        exact head?_append_ne (hhole hc) htail (ht ▸ rfl)
      · intro d t hc
        exact absurd hc hbackslash
    simp only [List.cons_append, hnext, ih, List.reverse_cons, List.append_assoc, List.nil_append]

def runEnd (isLast : Bool) : List Char := if isLast then ['`'] else ['$', '\x7b']

theorem head?_runEnd (isLast : Bool) (rest : List Char) :
    (runEnd isLast ++ rest).head? ≠ some '\x7b' := by
  cases isLast <;> exact fun h => absurd (Option.some.inj h) (by decide)

theorem Spells.templateRun {raw text : List Char} (h : Spells raw text) (isLast : Bool)
    (rest : List Char) : templateRun [] (raw ++ (runEnd isLast ++ rest)) = some (raw, isLast) := by
  rw [h.templateRun_append (head?_runEnd isLast rest), List.append_nil]
  cases isLast with
  | true => exact congrArg (fun s => some (s, true)) (List.reverse_reverse raw)
  | false => exact congrArg (fun s => some (s, false)) (List.reverse_reverse raw)

theorem Spells.return_notMem {raw text : List Char} (h : Spells raw text) : '\r' ∉ raw := by
  induction h with
  | nil => exact List.not_mem_nil
  | @escaped c raw text hc h ih =>
    have hne : '\r' ≠ c := by
      rintro rfl
      revert hc
      decide
    simp [hne, ih]
  | plain hbackslash hquote hreturn hhole h ih => simp [Ne.symm hreturn, ih]

theorem lineEndsAsOne_of_notMem {s : List Char} (h : '\r' ∉ s) : lineEndsAsOne s = s := by
  induction s with
  | nil => rfl
  | cons c s ih =>
    obtain ⟨hc, hs⟩ := not_or.mp (List.mem_cons.not.mp h)
    rw [lineEndsAsOne, ih hs]
    · rintro t rfl
      exact absurd rfl hc
    · rintro rfl
      exact absurd rfl hc

theorem escape_of_escapable {c : Char} (h : c ∈ escapable) (s : List Char) :
    escape (c :: s) = ([c], 1) := by
  simp only [escapable, List.mem_cons, List.not_mem_nil, or_false] at h
  obtain rfl | rfl | rfl | rfl := h <;> rfl

theorem Spells.cooked {raw text : List Char} (h : Spells raw text) :
    Parser.Expression.cooked 0 raw = text := by
  induction h with
  | nil => rfl
  | @escaped c raw text hc h ih =>
    rw [Parser.Expression.cooked]
    simp only [if_true, escape_of_escapable hc, Parser.Expression.cooked, ih]
    rfl
  | plain hbackslash hquote hreturn hhole h ih =>
    rw [Parser.Expression.cooked]
    simp only [if_neg hbackslash, ih]

theorem Spells.quasi {raw text : List Char} (h : Spells raw text) :
    Parser.Expression.quasi raw = ⟨String.ofList raw, some (String.ofList text)⟩ := by
  rw [Parser.Expression.quasi, lineEndsAsOne_of_notMem h.return_notMem, h.cooked]

end MediaLink.Script

namespace MediaLink.Target

/-- Every place of `old` in a text replaced, as they are found from the left, behind as many
characters as are dropped first. -/
def replaceAll (old new : List Char) : Nat → List Char → List Char
  | _, [] => []
  | skip + 1, _ :: s => replaceAll old new skip s
  | 0, c :: s =>
    if old.isPrefixOf (c :: s) then new ++ replaceAll old new (old.length - 1) s
    else c :: replaceAll old new 0 s

theorem replaceAll_self (c : Char) (new s : List Char) :
    replaceAll [c] new 0 (c :: s) = new ++ replaceAll [c] new 0 s := by
  simp [replaceAll]

theorem replaceAll_of_ne {c d : Char} (h : d ≠ c) (old new s : List Char) :
    replaceAll (d :: old) new 0 (c :: s) = c :: replaceAll (d :: old) new 0 s := by
  simp [replaceAll, h]

theorem head?_of_head?_replaceAll {c d : Char} {new s : List Char} (hd : d ≠ '\\')
    (h : (replaceAll [c] ('\\' :: new) 0 s).head? = some d) : s.head? = some d := by
  cases s with
  | nil => exact h
  | cons b s =>
    by_cases hb : c = b
    · subst hb
      rw [replaceAll_self] at h
      exact absurd (Option.some.inj h).symm hd
    · rw [replaceAll_of_ne hb] at h
      exact h

/-- A text is escaped in one go as by three replacements, each of which acts on what the ones before
it have put in. -/
theorem escape_eq_replaceAll (s : List Char) :
    escape s = replaceAll ['$', '\x7b'] ['\\', '$', '\x7b'] 0
      (replaceAll ['`'] ['\\', '`'] 0 (replaceAll ['\\'] ['\\', '\\'] 0 s)) := by
  fun_induction escape s with
  | case1 => rfl
  | case2 s ih =>
    rw [ih, replaceAll_self]
    simp [replaceAll_of_ne]
  | case3 s ih =>
    rw [ih, replaceAll_of_ne (by decide), replaceAll_self]
    simp [replaceAll_of_ne]
  | case4 s ih => simp [replaceAll, ih]
  | case5 c s hbackslash hquote hhole ih =>
    rw [ih, replaceAll_of_ne (Ne.symm hbackslash), replaceAll_of_ne (Ne.symm hquote)]
    generalize hx : replaceAll ['`'] ['\\', '`'] 0 (replaceAll ['\\'] ['\\', '\\'] 0 s) = x
    have hprefix : ¬ ['$', '\x7b'].isPrefixOf (c :: x) := by
      rw [List.isPrefixOf_iff_prefix]
      rintro ⟨t, ht⟩
      obtain ⟨rfl, rfl⟩ := List.cons_eq_cons.mp ht
      -- The replacements before put nothing but backslashes first, so the brace was there already.
      have hhead := head?_of_head?_replaceAll (by decide) (congrArg List.head? hx)
      have hhead' := head?_of_head?_replaceAll (by decide) hhead
      obtain ⟨u, rfl⟩ := List.head?_eq_some_iff.mp hhead'
      exact hhole u rfl rfl
    rw [replaceAll, if_neg hprefix]

end MediaLink.Target

namespace MediaLink.Script

theorem head?_escape {s : List Char} (h : (Target.escape s).head? = some '\x7b') :
    s.head? = some '\x7b' := by
  unfold Target.escape at h
  split at h <;> simp_all

theorem spells_escape {s : List Char} (h : '\r' ∉ s) : Spells (Target.escape s) s := by
  fun_induction Target.escape s with
  | case1 => exact .nil
  | case2 s ih => exact .escaped (by decide) (ih (by simpa using h))
  | case3 s ih => exact .escaped (by decide) (ih (by simpa using h))
  | case4 s ih =>
    refine .escaped (by decide) (.plain (by decide) (by decide) (by decide) ?_ ?_)
    · exact fun hbrace => absurd hbrace (by decide)
    · exact ih (by simpa using h)
  | case5 c s hbackslash hquote hhole ih =>
    obtain ⟨hc, hs⟩ := not_or.mp (List.mem_cons.not.mp h)
    refine .plain hbackslash hquote (Ne.symm hc) ?_ (ih hs)
    intro hdollar hhead
    obtain ⟨t, rfl⟩ := List.head?_eq_some_iff.mp (head?_escape hhead)
    exact hhole t hdollar rfl

theorem head?_guardScript (s : List Char) : (guardScript s).head? = s.head? := by
  cases s with
  | nil => rfl
  | cons c s =>
    rw [guardScript]
    split
    case isTrue h => rw [h.1]; rfl
    case isFalse => rfl

theorem guardScript_of_ne {c : Char} (h : c ≠ '<') (s : List Char) :
    guardScript (c :: s) = c :: guardScript s := by
  rw [guardScript, if_neg fun hc => h hc.1]

theorem eq_slash_of_toLower {c : Char} (h : c.toLower = '/') : c = '/' := by
  unfold Char.toLower at h
  split at h
  case isTrue hletter =>
    have hlow : 65 ≤ c.val.toNat := UInt32.le_iff_toNat_le.mp hletter.1
    have hhigh : c.val.toNat ≤ 90 := UInt32.le_iff_toNat_le.mp hletter.2
    have hsum : (c.val.toNat + 32) % 2 ^ 32 = 47 := congrArg (·.val.toNat) h
    omega
  case isFalse => exact h

theorem exists_of_closesScript {s : List Char} (h : closesScript s) : ∃ t, s = '/' :: t := by
  cases s with
  | nil => cases h
  | cons c s =>
    have hhead : c.toLower = '/' := List.head_eq_of_cons_eq (beq_iff_eq.mp h)
    exact ⟨s, congrArg (· :: s) (eq_slash_of_toLower hhead)⟩

theorem Spells.guardScript {raw text : List Char} (h : Spells raw text) :
    Spells (guardScript raw) text := by
  induction h with
  | nil => exact .nil
  | @escaped c raw text hc h ih =>
    have hne : c ≠ '<' := by
      rintro rfl
      revert hc
      decide
    rw [guardScript_of_ne (by decide), guardScript_of_ne hne]
    exact .escaped hc ih
  | @plain c raw text hbackslash hquote hreturn hhole h ih =>
    have hhole' : c = '$' → (Script.guardScript raw).head? ≠ some '\x7b' := by
      rwa [head?_guardScript]
    rw [Script.guardScript]
    split
    case isTrue hcloses =>
      obtain ⟨rfl, hcloses⟩ := hcloses
      obtain ⟨raw, rfl⟩ := exists_of_closesScript hcloses
      rw [guardScript_of_ne (by decide)] at ih ⊢
      cases ih with
      | plain _ _ _ _ ih =>
        exact .plain (by decide) (by decide) (by decide) (by simp) (.escaped (by decide) ih)
    case isFalse => exact .plain hbackslash hquote hreturn hhole' ih

end MediaLink.Script
