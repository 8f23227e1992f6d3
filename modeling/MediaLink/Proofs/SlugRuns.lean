import MediaLink.Proofs.SlugRepeats

namespace MediaLink.Slug

/-- The base itself if it is not taken, and otherwise its repeat with the least number that is
not. -/
structure IsFirstFree (taken : List (List Char)) (base slug : List Char) : Prop where
  eq_base : base ∉ taken → slug = base
  exists_number : base ∈ taken → ∃ k, 0 < k ∧ slug = numbered base k ∧ numbered base k ∉ taken ∧
    ∀ j, 0 < j → j < k → numbered base j ∈ taken

theorem IsFirstFree.notMem {taken : List (List Char)} {base slug : List Char}
    (h : IsFirstFree taken base slug) : slug ∉ taken := by
  by_cases hbase : base ∈ taken
  · obtain ⟨k, -, rfl, hfree, -⟩ := h.exists_number hbase
    exact hfree
  · rwa [h.eq_base hbase]

namespace Slugger

inductive Request where
  | slug (text : List Char)
  | reset

/-- A slugger, and what it has handed out since the last reset, in order. -/
structure History where
  slugger : Slugger := {}
  slugs : List (List Char) := []

namespace History

def step (h : History) : Request → History
  | .slug text => ⟨(h.slugger.slug text).2, h.slugs ++ [(h.slugger.slug text).1]⟩
  | .reset => ⟨h.slugger.reset, []⟩

def run (h : History) (rs : List Request) : History := rs.foldl step h

structure Valid (h : History) : Prop where
  counted : h.slugger.Counted
  has_iff : ∀ slug, h.slugger.has slug ↔ slug ∈ h.slugs
  nodup : h.slugs.Nodup

theorem valid_empty : Valid {} where
  counted := counted_empty
  has_iff := by simp [has]
  nodup := List.nodup_nil

theorem Valid.isFirstFree {h : History} (hv : h.Valid) (text : List Char) :
    IsFirstFree h.slugs (ofText text) (h.slugger.slug text).1 := by
  obtain ⟨k, hk⟩ := exists_isNext hv.counted text
  have hfree : repeated (ofText text) k ∉ h.slugs := mt (hv.has_iff _).mpr hk.free
  have htaken : ∀ j < k, repeated (ofText text) j ∈ h.slugs :=
    fun j hj => (hv.has_iff _).mp (hk.taken j hj)
  rw [hk.slug]
  cases k with
  | zero => exact ⟨fun _ => rfl, fun hbase => absurd hbase hfree⟩
  | succ k =>
    have hbase : ofText text ∈ h.slugs := htaken 0 (Nat.succ_pos k)
    refine ⟨fun hnew => absurd hbase hnew, fun _ => ⟨k + 1, Nat.succ_pos k, rfl, hfree, ?_⟩⟩
    intro j hj hlt
    obtain ⟨i, rfl⟩ := Nat.exists_eq_add_one.mpr hj
    exact htaken (i + 1) hlt

theorem valid_step {h : History} (hv : h.Valid) (r : Request) : (h.step r).Valid := by
  cases r with
  | slug text =>
    refine ⟨counted_slug hv.counted text, fun slug => ?_, ?_⟩
    · rw [step, has_slug, hv.has_iff, List.mem_append, List.mem_singleton]
      exact or_comm
    · rw [step, ← List.concat_eq_append]
      exact hv.nodup.concat (hv.isFirstFree text).notMem
  | reset => exact valid_empty

theorem valid_run {h : History} (hv : h.Valid) (rs : List Request) : (h.run rs).Valid := by
  induction rs generalizing h with
  | nil => exact hv
  | cons r rs ih => exact ih (valid_step hv r)

/-- Whatever was asked for, no slug was handed out twice, and the next one is the first free one of
its text. -/
theorem isFirstFree_run (rs : List Request) :
    (run {} rs).slugs.Nodup ∧
      ∀ text, IsFirstFree (run {} rs).slugs (ofText text) ((run {} rs).slugger.slug text).1 :=
  have hv := valid_run valid_empty rs
  ⟨hv.nodup, hv.isFirstFree⟩

example : (run {} ([.reset] ++ ["a", "a-1", "a", "a-1", "a-1-1", "a"].map (.slug ·.toList))).slugs =
    ["a", "a-1", "a-2", "a-1-1", "a-1-1-1", "a-3"].map String.toList := by
  decide +kernel

end History

end Slugger

end MediaLink.Slug
