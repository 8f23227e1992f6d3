import MediaLink.Proofs.SlugRepeats
import MediaLink.Registry

namespace MediaLink.Binding

open Text Slug

theorem isIdentifierPart_of_isDigit {c : Char} (h : c.isDigit) : isIdentifierPart c := by
  have hr : (0x30, 0x39) ∈ extendRanges := by decide +kernel
  rw [Char.isDigit_iff_toNat] at h
  have hc : extendRanges.has c := List.any_eq_true.mpr ⟨_, hr, by simpa using h⟩
  simp [isIdentifierPart, hc]

theorem isIdentifierPart_dash : isIdentifierPart '-' = false := by decide +kernel

theorem stem_append_dash (base tail : List Char) (h : ∀ c ∈ tail, isIdentifierPart c) :
    stem (base ++ '-' :: tail) = stem base ++ '_' :: tail := by
  have htail : tail.map (fun c => if isIdentifierPart c then c else '_') = tail :=
    (List.map_congr_left fun c hc => if_pos (h c hc)).trans (List.map_id' tail)
  cases base with
  | nil => simp [stem, isIdentifierPart_dash, htail]
  | cons c base =>
    simp only [stem, List.cons_append, List.map_cons, List.map_append, List.head?_cons,
      Option.any_some, isIdentifierPart_dash, Bool.false_eq_true, ↓reduceIte, htail]
    split <;> rfl

/-- The name with the number `k` behind its stem, without one for zero. -/
def numberedName (stem : List Char) : Nat → List Char
  | 0 => stem ++ nameEnding
  | k + 1 => stem ++ '_' :: Nat.toDigits 10 (k + 1) ++ nameEnding

theorem nameOfSlug_repeated (base : List Char) (k : Nat) :
    nameOfSlug (repeated base k) = numberedName (stem base) k := by
  cases k with
  | zero => rfl
  | succ k =>
    have hd : ∀ c ∈ Nat.toDigits 10 (k + 1), isIdentifierPart c := fun c hc =>
      isIdentifierPart_of_isDigit (Nat.isDigit_of_mem_toDigits (by decide) (by decide) hc)
    simp only [nameOfSlug, repeated, numbered, numberedName, stem_append_dash base _ hd]

theorem numberedName_succ_ne (stem : List Char) (k : Nat) :
    numberedName stem (k + 1) ≠ numberedName stem 0 := by
  intro h
  have hl := congrArg List.length h
  simp [numberedName] at hl
  omega

theorem numberedName_injective (stem : List Char) : Function.Injective (numberedName stem) := by
  intro m n h
  cases m with
  | zero =>
    cases n with
    | zero => rfl
    | succ n => exact absurd h.symm (numberedName_succ_ne stem n)
  | succ m =>
    cases n with
    | zero => exact absurd h (numberedName_succ_ne stem m)
    | succ n =>
      simp only [numberedName, List.append_cancel_right_eq, List.append_cancel_left_eq,
        List.cons.injEq, true_and] at h
      exact toDigits_injective h

end MediaLink.Binding
