import Mathlib.Data.List.Induction
import Mathlib.Data.Prod.Lex
import Mathlib.Data.String.Basic
import Mathlib.Order.Monotone.Defs
import MediaLink.Diagnostic

namespace MediaLink.Label

/-- The characters of a text, each with the byte offset at which it starts, where `offset` is that
of the first. -/
def starts (offset : Nat) : List Char → List (Nat × Char)
  | [] => []
  | c :: s => (offset, c) :: starts (offset + c.utf8Size) s

theorem le_of_mem_starts {offset : Nat} {s : List Char} {m : Nat × Char}
    (h : m ∈ starts offset s) : offset ≤ m.1 := by
  induction s generalizing offset with
  | nil => exact absurd h List.not_mem_nil
  | cons c s ih =>
    obtain rfl | h := List.mem_cons.mp h
    · exact Nat.le_refl _
    · exact Nat.le_of_add_right_le (ih h)

theorem pairwise_starts (offset : Nat) (s : List Char) :
    (starts offset s).Pairwise fun m n => m.1 < n.1 := by
  induction s generalizing offset with
  | nil => exact List.Pairwise.nil
  | cons c s ih =>
    apply List.Pairwise.cons
    · intro m hm
      have hle := le_of_mem_starts hm
      have hpos := c.utf8Size_pos
      omega
    · exact ih _

theorem before_zero (s : List Char) : before 0 s = [] := by
  cases s <;> rfl

theorem before_eq_filter (offset o : Nat) (s : List Char) :
    before o s = ((starts offset s).filter (·.1 < offset + o)).map Prod.snd := by
  have hnone {offset o : Nat} {s : List Char} (h : o ≤ offset) :
      (starts offset s).filter (·.1 < o) = [] := by
    apply List.filter_eq_nil_iff.mpr
    intro m hm
    have hle := le_of_mem_starts hm
    simp only [decide_eq_true_eq]
    omega
  induction s generalizing offset o with
  | nil => rfl
  | cons c s ih =>
    have hpos := c.utf8Size_pos
    rw [before]
    by_cases ho : o = 0
    · rw [if_pos ho, ho, Nat.add_zero, hnone (Nat.le_refl _)]
      rfl
    · have hlt : offset < offset + o := by omega
      rw [if_neg ho, starts, List.filter_cons_of_pos (by simpa using hlt), List.map_cons]
      congr 1
      by_cases hc : c.utf8Size ≤ o
      · have hsum : offset + c.utf8Size + (o - c.utf8Size) = offset + o := by omega
        rw [ih (offset + c.utf8Size), hsum]
      · have hzero : o - c.utf8Size = 0 := by omega
        rw [hzero, before_zero, hnone (by omega)]
        rfl

theorem foldl_advance_fst (p : Nat × Nat) (s : List Char) :
    (s.foldl advance p).1 = p.1 + s.count '\n' := by
  induction s generalizing p with
  | nil => rfl
  | cons c s ih =>
    rw [List.foldl_cons, ih, advance, List.count_cons]
    by_cases hc : c = '\n'
    · simp only [hc, beq_self_eq_true, ↓reduceIte]
      omega
    · simp [hc]

theorem foldl_advance_snd {ms : List (Nat × Char)} (h : ms.Pairwise fun m n => m.1 < n.1)
    (line : Nat) :
    ((ms.map Prod.snd).foldl advance (line, 0)).2 =
      ms.countP fun m => ∀ n ∈ ms, n.2 = '\n' → n.1 < m.1 := by
  induction ms using List.reverseRecOn with
  | nil => rfl
  | append_singleton ms last ih =>
    obtain ⟨hms, -, hlast⟩ := List.pairwise_append.mp h
    have hlt : ∀ m ∈ ms, m.1 < last.1 := fun m hm => hlast m hm last (List.mem_singleton_self last)
    rw [List.map_append, List.foldl_append, List.map_singleton, List.foldl_cons, List.foldl_nil,
      advance, List.countP_append]
    by_cases hend : last.2 = '\n'
    · rw [if_pos hend]
      symm
      rw [← List.countP_append, List.countP_eq_zero]
      intro m hm hall
      have hfirst := of_decide_eq_true hall last (by simp) hend
      obtain hm | hm := List.mem_append.mp hm
      · exact Nat.lt_asymm hfirst (hlt m hm)
      · exact absurd hfirst (by rw [List.mem_singleton.mp hm]; exact Nat.lt_irrefl _)
    · have hsame : (ms.countP fun m => ∀ n ∈ ms ++ [last], n.2 = '\n' → n.1 < m.1) =
          ms.countP fun m => ∀ n ∈ ms, n.2 = '\n' → n.1 < m.1 := by
        apply List.countP_congr
        intro m _
        simp [or_imp, forall_and, hend]
      have hbehind : ∀ n ∈ ms ++ [last], n.2 = '\n' → n.1 < last.1 := by
        intro n hn hn'
        obtain hn | hn := List.mem_append.mp hn
        · exact hlt n hn
        · exact absurd hn' (List.mem_singleton.mp hn ▸ hend)
      rw [if_neg hend, ih hms, hsame, List.countP_singleton, if_pos (decide_eq_true hbehind)]

theorem before_append (front s : List Char) (o : Nat) :
    before (String.utf8Len front + o) (front ++ s) = front ++ before o s := by
  induction front with
  | nil => rw [String.utf8Len_nil, Nat.zero_add, List.nil_append, List.nil_append]
  | cons c front ih =>
    have hpos := c.utf8Size_pos
    have hne : String.utf8Len front + c.utf8Size + o ≠ 0 := by omega
    have hrest : String.utf8Len front + c.utf8Size + o - c.utf8Size = String.utf8Len front + o := by
      omega
    rw [String.utf8Len_cons, List.cons_append, before, if_neg hne, hrest, ih, List.cons_append]

/-- An offset inside a character, or at its end, has the character before it. -/
theorem before_inside {front : List Char} {c : Char} {behind : List Char} {o : Nat}
    (hlow : String.utf8Len front < o) (hhigh : o ≤ String.utf8Len front + c.utf8Size) :
    before o (front ++ c :: behind) = front ++ [c] := by
  obtain ⟨k, rfl⟩ := Nat.exists_eq_add_of_le (Nat.le_of_lt hlow)
  have hk : k ≠ 0 := by omega
  have hzero : k - c.utf8Size = 0 := by omega
  rw [before_append, before, if_neg hk, hzero, before_zero]

theorem before_of_le {s : List Char} {o : Nat} (h : String.utf8Len s ≤ o) : before o s = s := by
  obtain ⟨k, rfl⟩ := Nat.exists_eq_add_of_le h
  have hs := before_append s [] k
  rwa [List.append_nil, before, List.append_nil] at hs

theorem length_before_le (o : Nat) (s : List Char) : (before o s).length ≤ o := by
  induction s generalizing o with
  | nil => exact Nat.zero_le o
  | cons c s ih =>
    rw [before]
    by_cases ho : o = 0
    · rw [if_pos ho]
      exact Nat.zero_le o
    · have hpos := c.utf8Size_pos
      have hle := ih (o - c.utf8Size)
      rw [if_neg ho, List.length_cons]
      omega

theorem lt_advance (p : Nat × Nat) (c : Char) : toLex p < toLex (advance p c) := by
  rw [Prod.Lex.toLex_lt_toLex, advance]
  by_cases hc : c = '\n'
  · rw [if_pos hc]
    exact .inl (Nat.lt_succ_self _)
  · rw [if_neg hc]
    exact .inr ⟨rfl, Nat.lt_succ_self _⟩

theorem lt_foldl_advance (p : Nat × Nat) {s : List Char} (h : s ≠ []) :
    toLex p < toLex (s.foldl advance p) := by
  induction s generalizing p with
  | nil => exact absurd rfl h
  | cons c s ih =>
    apply (lt_advance p c).trans_le
    by_cases hs : s = []
    · rw [hs]
      exact le_refl _
    · exact le_of_lt (ih (advance p c) hs)

theorem utf8ByteSize_eq (source : String) :
    source.utf8ByteSize = String.utf8Len source.toList := by
  rw [← String.utf8ByteSize_ofList, String.ofList_toList]

def IsBoundary (source : String) (o : Nat) : Prop := String.Pos.Raw.IsValid source ⟨o⟩

theorem isBoundary_iff {source : String} {o : Nat} :
    IsBoundary source o ↔
      ∃ front behind, source.toList = front ++ behind ∧ o = String.utf8Len front := by
  rw [IsBoundary, String.Pos.Raw.isValid_iff_exists_append]
  constructor
  · rintro ⟨front, behind, rfl, h⟩
    refine ⟨front.toList, behind.toList, String.toList_append, ?_⟩
    rw [← utf8ByteSize_eq]
    exact congrArg String.Pos.Raw.byteIdx h
  · rintro ⟨front, behind, h, rfl⟩
    refine ⟨String.ofList front, String.ofList behind, ?_, ?_⟩
    · rw [← String.ofList_append, ← h, String.ofList_toList]
    · rw [← String.utf8ByteSize_ofList]
      rfl

def seek (wanted : Nat × Nat) (o : Nat) (p : Nat × Nat) : List Char → Nat
  | [] => o
  | c :: s => if p = wanted then o else seek wanted (o + c.utf8Size) (advance p c) s

/-- The offset that lies at a position. -/
def offsetOf (source : List Char) (p : Nat × Nat) : Nat := seek p 0 (1, 0) source

theorem seek_foldl (o : Nat) (p : Nat × Nat) (front behind : List Char) :
    seek (front.foldl advance p) o p (front ++ behind) = o + String.utf8Len front := by
  induction front generalizing o p with
  | nil => cases behind <;> simp [seek]
  | cons c front ih =>
    have hne : p ≠ (c :: front).foldl advance p :=
      fun he => (lt_foldl_advance p (List.cons_ne_nil c front)).ne (congrArg toLex he)
    rw [List.cons_append, seek, if_neg hne, List.foldl_cons, ih, String.utf8Len_cons]
    omega

theorem position_eq (front behind : List Char) :
    position (front ++ behind) (String.utf8Len front) = front.foldl advance (1, 0) := by
  have h := before_append front behind 0
  rw [Nat.add_zero, before_zero, List.append_nil] at h
  rw [position, h]

theorem strictMonoOn_position (source : String) :
    StrictMonoOn (fun o => toLex (position source.toList o)) {o | IsBoundary source o} := by
  intro o ho o' ho' hlt
  obtain ⟨front, behind, hs, rfl⟩ := isBoundary_iff.mp ho
  obtain ⟨front', behind', hs', rfl⟩ := isBoundary_iff.mp ho'
  have hprefix : front <+: front' := by
    obtain h | h := List.prefix_or_prefix_of_prefix ⟨behind, hs.symm⟩ ⟨behind', hs'.symm⟩
    · exact h
    · obtain ⟨middle, rfl⟩ := h
      rw [String.utf8Len_append] at hlt
      omega
  obtain ⟨middle, rfl⟩ := hprefix
  have hmiddle : middle ≠ [] := by
    rintro rfl
    rw [List.append_nil] at hlt
    exact absurd hlt (Nat.lt_irrefl _)
  have hfront : position source.toList (String.utf8Len front) = front.foldl advance (1, 0) := by
    rw [hs, position_eq]
  simp only [hfront]
  rw [hs', position_eq, List.foldl_append]
  exact lt_foldl_advance _ hmiddle

theorem line_eq (s : List Char) (o : Nat) :
    (position s o).1 = 1 + (starts 0 s).countP fun m => m.1 < o ∧ m.2 = '\n' := by
  rw [position, foldl_advance_fst, before_eq_filter 0, Nat.zero_add, List.count, List.countP_map,
    List.countP_filter]
  congr 1
  apply List.countP_congr
  intro m _
  simp [and_comm]

theorem column_eq (s : List Char) (o : Nat) :
    (position s o).2 = (starts 0 s).countP fun m =>
      m.1 < o ∧ ∀ n ∈ starts 0 s, n.1 < o → n.2 = '\n' → n.1 < m.1 := by
  rw [position, before_eq_filter 0, Nat.zero_add,
    foldl_advance_snd ((pairwise_starts 0 s).filter _), List.countP_filter]
  apply List.countP_congr
  intro m _
  simp only [List.mem_filter, Bool.and_eq_true, decide_eq_true_eq, and_imp]
  exact and_comm

theorem line_add_column_le (s : List Char) (o : Nat) :
    (position s o).1 + (position s o).2 ≤ o + 1 := by
  have hsum (p : Nat × Nat) (t : List Char) :
      (t.foldl advance p).1 + (t.foldl advance p).2 ≤ p.1 + p.2 + t.length := by
    induction t generalizing p with
    | nil => exact Nat.le_refl _
    | cons c t ih =>
      have hstep : (advance p c).1 + (advance p c).2 ≤ p.1 + p.2 + 1 := by
        rw [advance]
        split <;> omega
      have hrest := ih (advance p c)
      rw [List.foldl_cons, List.length_cons]
      omega
  have hall := hsum (1, 0) (before o s)
  have hlength := length_before_le o s
  rw [position]
  omega

/-- What the labels of a source tell. -/
structure IsFaithful (source : String) : Prop where
  ofSpan_eq : ∀ text start stop, ofSpan source text start stop =
    ⟨text, start, stop, (position source.toList start.toNat).1,
      (position source.toList start.toNat).2⟩
  line_eq : ∀ o, (position source.toList o).1 =
    1 + (starts 0 source.toList).countP fun m => m.1 < o ∧ m.2 = '\n'
  column_eq : ∀ o, (position source.toList o).2 = (starts 0 source.toList).countP fun m =>
    m.1 < o ∧ ∀ n ∈ starts 0 source.toList, n.1 < o → n.2 = '\n' → n.1 < m.1
  strictMonoOn : StrictMonoOn (fun o => toLex (position source.toList o)) {o | IsBoundary source o}
  offsetOf_position : ∀ o, IsBoundary source o →
    offsetOf source.toList (position source.toList o) = o
  inside : ∀ front c behind, source.toList = front ++ c :: behind → ∀ o,
    String.utf8Len front < o → o < String.utf8Len front + c.utf8Size →
      position source.toList o = position source.toList (String.utf8Len front + c.utf8Size)
  behind_end : ∀ o, source.utf8ByteSize ≤ o →
    position source.toList o = position source.toList source.utf8ByteSize
  line_add_column_le : ∀ o, (position source.toList o).1 + (position source.toList o).2 ≤ o + 1

/-- Labels count lines and characters, and tell all places of a source apart. -/
theorem isFaithful_ofSpan (source : String) : IsFaithful source where
  ofSpan_eq _ _ _ := rfl
  line_eq := Label.line_eq source.toList
  column_eq := Label.column_eq source.toList
  strictMonoOn := strictMonoOn_position source
  offsetOf_position o ho := by
    obtain ⟨front, behind, hs, rfl⟩ := isBoundary_iff.mp ho
    rw [hs, position_eq, offsetOf, seek_foldl, Nat.zero_add]
  inside front c behind hs o hlow hhigh := by
    have hpos := c.utf8Size_pos
    rw [position, position, hs, before_inside hlow (Nat.le_of_lt hhigh),
      before_inside (by omega) (Nat.le_refl _)]
  behind_end o ho := by
    rw [utf8ByteSize_eq] at ho ⊢
    rw [position, position, before_of_le ho, before_of_le (Nat.le_refl _)]
  line_add_column_le := Label.line_add_column_le source.toList

example : position "abc\ndé\nf".toList 6 = (2, 2) := by
  decide +kernel

end MediaLink.Label
