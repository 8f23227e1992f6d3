import Mathlib.Data.List.Nodup
import Mathlib.Data.List.Perm.Subperm
import MediaLink.Slug

namespace MediaLink.Slug

def repeated (base : List Char) : Nat → List Char
  | 0 => base
  | k + 1 => numbered base (k + 1)

theorem toDigits_injective : Function.Injective (Nat.toDigits 10) :=
  Function.LeftInverse.injective (g := fun s => Nat.ofDigitChars 10 s 0)
    fun _ => Nat.ofDigitChars_ten_toDigits

theorem numbered_injective (base : List Char) : Function.Injective (numbered base) := by
  intro m n h
  rw [numbered, numbered, List.append_cancel_left_eq, List.cons.injEq] at h
  exact toDigits_injective h.2

theorem exists_notMem {α : Type} [DecidableEq α] {f : Nat → α} (hf : Function.Injective f)
    (l : List α) (n : Nat) : ∃ k, n ≤ k ∧ k ≤ n + l.length ∧ f k ∉ l := by
  by_contra hall
  push Not at hall
  have hsub : (List.range' n (l.length + 1)).map f ⊆ l := by
    intro a ha
    obtain ⟨k, hk, rfl⟩ := List.mem_map.mp ha
    rw [List.mem_range'_1] at hk
    exact hall k hk.1 (by omega)
  have hnodup : ((List.range' n (l.length + 1)).map f).Nodup := List.Nodup.map hf List.nodup_range'
  have hlen := (List.subperm_of_subset hnodup hsub).length_le
  rw [List.length_map, List.length_range'] at hlen
  omega

namespace Slugger

theorem has_iff (g : Slugger) (slug : List Char) : g.has slug ↔ slug ∈ g.seen.map (·.1) := by
  simp [has]

theorem has_record (g : Slugger) (slug s : List Char) :
    (g.record slug).has s ↔ s = slug ∨ g.has s := by
  simp [has_iff, record]

theorem map_fst_setCount (g : Slugger) (base : List Char) (n : Nat) :
    (g.setCount base n).seen.map (·.1) = g.seen.map (·.1) := by
  rw [setCount, List.map_map]
  refine List.map_congr_left fun e _ => ?_
  by_cases he : e.1 = base <;> simp [he]

theorem has_setCount (g : Slugger) (base : List Char) (n : Nat) (s : List Char) :
    (g.setCount base n).has s ↔ g.has s := by
  rw [has_iff, has_iff, map_fst_setCount]

theorem count_record (g : Slugger) (slug base : List Char) :
    (g.record slug).count base = if base = slug then 0 else g.count base := by
  by_cases h : base = slug
  · simp [count, record, h]
  · have hb : (base == slug) = false := beq_false_of_ne h
    simp [count, record, List.lookup_cons, h, hb]

theorem lookup_setCount (g : Slugger) (base s : List Char) (n : Nat) :
    (g.setCount base n).seen.lookup s =
      (g.seen.lookup s).map fun m => if s = base then n else m := by
  obtain ⟨seen⟩ := g
  induction seen with
  | nil => rfl
  | cons e seen ih =>
    obtain ⟨t, m⟩ := e
    simp only [setCount, List.map_cons] at ih ⊢
    by_cases hs : s = t
    · subst hs
      by_cases hb : s = base <;> simp [hb]
    · have hst : (s == t) = false := beq_false_of_ne hs
      by_cases hb : t = base
      · simpa only [if_pos hb, List.lookup_cons, hst, hb ▸ hst] using ih
      · simpa only [if_neg hb, List.lookup_cons, hst] using ih

theorem count_setCount_self (g : Slugger) (base : List Char) (n : Nat) (h : g.has base) :
    (g.setCount base n).count base = n := by
  obtain ⟨e, he, heq⟩ := List.any_eq_true.mp h
  have hs : (g.seen.lookup base).isSome :=
    List.lookup_isSome_iff.mpr ⟨e, he, beq_iff_eq.mpr (beq_iff_eq.mp heq).symm⟩
  obtain ⟨m, hm⟩ := Option.isSome_iff_exists.mp hs
  simp [count, lookup_setCount, hm]

theorem count_setCount_of_ne (g : Slugger) (base s : List Char) (n : Nat) (h : s ≠ base) :
    (g.setCount base n).count s = g.count s := by
  simp [count, lookup_setCount, h]

/-- All numbers up to the counter of a base are taken. -/
def Counted (g : Slugger) : Prop :=
  ∀ base k, 0 < k → k ≤ g.count base → g.has (numbered base k)

theorem counted_empty : Counted {} := by
  intro base k hk hc
  simp [count] at hc
  omega

theorem counted_record {g : Slugger} (h : g.Counted) (slug : List Char) :
    (g.record slug).Counted := by
  intro base k hk hc
  rw [count_record] at hc
  refine (has_record ..).mpr (Or.inr (h base k hk ?_))
  split at hc <;> omega

theorem firstFree_taken (g : Slugger) (base : List Char) (fuel n j : Nat) (hn : n ≤ j)
    (hj : j < g.firstFree base fuel n) : g.has (numbered base j) := by
  induction fuel generalizing n with
  | zero => exact absurd hj (by simp [firstFree]; omega)
  | succ fuel ih =>
    rw [firstFree] at hj
    split at hj
    case isTrue hhas =>
      obtain rfl | hlt := Nat.eq_or_lt_of_le hn
      · exact hhas
      · exact ih (n + 1) hlt hj
    case isFalse => omega

theorem le_firstFree (g : Slugger) (base : List Char) (fuel n : Nat) :
    n ≤ g.firstFree base fuel n := by
  induction fuel generalizing n with
  | zero => exact Nat.le_refl n
  | succ fuel ih =>
    rw [firstFree]
    split
    · exact Nat.le_of_succ_le (ih (n + 1))
    · exact Nat.le_refl n

theorem firstFree_of_has (g : Slugger) (base : List Char) (fuel n : Nat)
    (h : g.has (numbered base (g.firstFree base fuel n))) :
    g.firstFree base fuel n = n + fuel := by
  induction fuel generalizing n with
  | zero => rfl
  | succ fuel ih =>
    rw [firstFree] at h ⊢
    split at h
    case isTrue hhas =>
      rw [if_pos hhas, ih (n + 1) h]
      omega
    case isFalse hfree => exact absurd h hfree

/-- The search never ends for want of steps: it would have met more slugs than were seen. -/
theorem not_has_firstFree (g : Slugger) (base : List Char) (n : Nat) :
    ¬ g.has (numbered base (g.firstFree base g.seen.length n)) := by
  intro h
  have he := firstFree_of_has g base g.seen.length n h
  obtain ⟨k, hn, hk, hfree⟩ := exists_notMem (numbered_injective base) (g.seen.map (·.1)) n
  rw [List.length_map, ← he] at hk
  obtain rfl | hlt := Nat.eq_or_lt_of_le hk
  · exact hfree ((has_iff ..).mp h)
  · exact hfree ((has_iff ..).mp (firstFree_taken g base g.seen.length n k hn hlt))

/-- What a call hands out: the first repeat of its base that was not handed out before. -/
structure IsNext (g : Slugger) (s : List Char) (k : Nat) : Prop where
  slug : (g.slug s).1 = repeated (ofText s) k
  free : ¬ g.has (repeated (ofText s) k)
  taken : ∀ j < k, g.has (repeated (ofText s) j)

theorem exists_isNext {g : Slugger} (h : g.Counted) (s : List Char) : ∃ k, g.IsNext s k := by
  by_cases hb : g.has (ofText s)
  · let n := g.firstFree (ofText s) g.seen.length (g.count (ofText s) + 1)
    have hn : 0 < n := Nat.lt_of_lt_of_le (Nat.succ_pos _) (le_firstFree ..)
    obtain ⟨k, hk⟩ := Nat.exists_eq_add_one.mpr hn
    have hr : repeated (ofText s) (k + 1) = numbered (ofText s) n := by rw [hk]; rfl
    refine ⟨k + 1, by simp only [slug, hb, ↓reduceIte]; exact hr.symm, ?_, ?_⟩
    · rw [hr]
      exact not_has_firstFree g (ofText s) _
    · intro j hj
      cases j with
      | zero => exact hb
      | succ j =>
        -- below the counter by the invariant, from there on by the search
        by_cases hc : j + 1 ≤ g.count (ofText s)
        · exact h _ _ (Nat.succ_pos j) hc
        · exact firstFree_taken g _ g.seen.length (g.count (ofText s) + 1) (j + 1)
            (by omega) (by omega)
  · exact ⟨0, by simp [slug, hb, repeated], hb, by simp⟩

theorem has_slug (g : Slugger) (s t : List Char) :
    (g.slug s).2.has t ↔ t = (g.slug s).1 ∨ g.has t := by
  by_cases hb : g.has (ofText s) <;> simp [slug, hb, has_record, has_setCount]

theorem IsNext.taken_slug {g : Slugger} {s : List Char} {k : Nat} (h : g.IsNext s k) :
    ∀ j < k + 1, (g.slug s).2.has (repeated (ofText s) j) := by
  intro j hj
  rw [has_slug, h.slug]
  obtain rfl | hlt := Nat.eq_or_lt_of_le (Nat.le_of_lt_succ hj)
  · exact Or.inl rfl
  · exact Or.inr (h.taken j hlt)

theorem counted_slug {g : Slugger} (h : g.Counted) (s : List Char) : (g.slug s).2.Counted := by
  by_cases hb : g.has (ofText s)
  · simp only [slug, hb, ↓reduceIte]
    intro base k hk hc
    rw [has_record, has_setCount]
    by_cases hbase : base = ofText s
    · subst hbase
      rw [count_record] at hc
      split at hc
      case isTrue => omega
      case isFalse =>
        rw [count_setCount_self g _ _ hb] at hc
        by_cases hcount : k ≤ g.count (ofText s)
        · exact Or.inr (h _ _ hk hcount)
        · obtain rfl | hlt := Nat.eq_or_lt_of_le hc
          · exact Or.inl rfl
          · exact Or.inr (firstFree_taken g _ _ _ k (by omega) hlt)
    · rw [count_record, count_setCount_of_ne g _ _ _ hbase] at hc
      split at hc
      · omega
      · exact Or.inr (h base k hk hc)
  · simp only [slug, hb]
    exact counted_record h _

end Slugger

end MediaLink.Slug
