import Mathlib.Data.Nat.Find
import MediaLink.Proofs.BindingName

namespace MediaLink

open Slug

namespace Session

open Binding

def isFree (bs : List Binding) (name : List Char) : Bool := bs.all (·.name != name)

theorem isFree_iff {bs : List Binding} {name : List Char} :
    isFree bs name ↔ name ∉ bs.map (·.name) := by
  simp [isFree]

theorem exists_free (bs : List Binding) (stem : List Char) :
    ∃ k, isFree bs (numberedName stem k) := by
  obtain ⟨k, -, -, hk⟩ := exists_notMem (numberedName_injective stem) (bs.map (·.name)) 0
  exact ⟨k, isFree_iff.mpr hk⟩

def leastFree (bs : List Binding) (stem : List Char) : Nat := Nat.find (exists_free bs stem)

def freshName (bs : List Binding) (path : List Char) : List Char :=
  numberedName (stem (ofText path)) (leastFree bs (stem (ofText path)))

/-- The bindings are the only state: a listed path has its name, another gets the first free one. -/
def resolve (bs : List Binding) (path : List Char) : List Char × List Binding :=
  match bs.find? (·.path == path) with
  | some b => (b.name, bs)
  | none => (freshName bs path, bs ++ [⟨path, freshName bs path⟩])

theorem freshName_notMem (bs : List Binding) (path : List Char) :
    freshName bs path ∉ bs.map (·.name) :=
  isFree_iff.mp (Nat.find_spec (exists_free bs (stem (ofText path))))

theorem leastFree_le (bs : List Binding) (stem : List Char) {issued : List (List Char)}
    (h : ∀ name, name ∈ bs.map (·.name) → name ∈ issued) :
    leastFree bs stem ≤ issued.length := by
  obtain ⟨k, -, hk, hfree⟩ := exists_notMem (numberedName_injective stem) issued 0
  have hle : leastFree bs stem ≤ k :=
    Nat.find_min' _ (isFree_iff.mpr fun hm => hfree (h _ hm))
  omega

end Session

namespace Registry

open Binding

/-- What holds between documents and within one: the issued names are those of the bindings, every
slug handed out made one of them, and no name or path occurs twice. -/
structure Valid (r : Registry) : Prop where
  counted : r.slugger.Counted
  seen : ∀ slug, r.slugger.has slug → nameOfSlug slug ∈ r.issued
  issued : ∀ name, name ∈ r.issued ↔ name ∈ r.bindings.map (·.name)
  names_nodup : (r.bindings.map (·.name)).Nodup
  paths_nodup : (r.bindings.map (·.path)).Nodup

theorem valid_empty : Valid {} where
  counted := Slugger.counted_empty
  seen := by simp [Slugger.has]
  issued := by simp
  names_nodup := List.nodup_nil
  paths_nodup := List.nodup_nil

/-- While every slug handed out made an issued name, the next one comes no later than the first
number whose name is not issued. -/
theorem exists_isNext_between {issued : List (List Char)} {path : List Char} {k : Nat}
    (hfree : numberedName (stem (ofText path)) k ∉ issued) {g : Slugger} (hc : g.Counted)
    (hs : ∀ slug, g.has slug → nameOfSlug slug ∈ issued) {m : Nat}
    (hm : ∀ j < m, g.has (repeated (ofText path) j)) : ∃ i, g.IsNext path i ∧ m ≤ i ∧ i ≤ k := by
  obtain ⟨i, hi⟩ := Slugger.exists_isNext hc path
  refine ⟨i, hi, ?_, ?_⟩
  · exact Nat.le_of_not_lt fun hlt => hi.free (hm i hlt)
  · exact Nat.le_of_not_lt fun hlt =>
      hfree (nameOfSlug_repeated (ofText path) k ▸ hs _ (hi.taken k hlt))

theorem seen_slug {issued : List (List Char)} {path : List Char} {g : Slugger}
    (hs : ∀ slug, g.has slug → nameOfSlug slug ∈ issued)
    (hissued : nameOfSlug (g.slug path).1 ∈ issued) (slug : List Char)
    (h : (g.slug path).2.has slug) : nameOfSlug slug ∈ issued := by
  obtain rfl | hold := (Slugger.has_slug ..).mp h
  · exact hissued
  · exact hs slug hold

theorem freshName_eq {issued : List (List Char)} (path : List Char) {k : Nat}
    (hfree : numberedName (stem (ofText path)) k ∉ issued)
    (hbelow : ∀ j < k, numberedName (stem (ofText path)) j ∈ issued)
    (fuel : Nat) (g : Slugger) (hc : g.Counted)
    (hs : ∀ slug, g.has slug → nameOfSlug slug ∈ issued)
    (m : Nat) (hm : ∀ j < m, g.has (repeated (ofText path) j)) (hf : k ≤ m + fuel) :
    (freshName issued path fuel g).1 = numberedName (stem (ofText path)) k := by
  induction fuel generalizing g m with
  | zero =>
    obtain ⟨i, hi, hmi, hik⟩ := exists_isNext_between hfree hc hs hm
    obtain rfl : i = k := by omega
    simp only [freshName, Prod.map_fst, hi.slug, nameOfSlug_repeated]
  | succ fuel ih =>
    obtain ⟨i, hi, hmi, hik⟩ := exists_isNext_between hfree hc hs hm
    simp only [freshName]
    split
    case isTrue hissued =>
      exact ih (g.slug path).2 (Slugger.counted_slug hc path) (seen_slug hs hissued) (i + 1)
        hi.taken_slug (by omega)
    case isFalse hnew =>
      rw [hi.slug, nameOfSlug_repeated] at hnew ⊢
      obtain rfl | hlt := Nat.eq_or_lt_of_le hik
      · rfl
      · exact absurd (hbelow i hlt) hnew

theorem counted_freshName {issued : List (List Char)} (path : List Char) (fuel : Nat)
    (g : Slugger) (hc : g.Counted) : (freshName issued path fuel g).2.Counted := by
  induction fuel generalizing g with
  | zero => exact Slugger.counted_slug hc path
  | succ fuel ih =>
    simp only [freshName]
    split
    · exact ih _ (Slugger.counted_slug hc path)
    · exact Slugger.counted_slug hc path

theorem seen_freshName {issued : List (List Char)} (path : List Char) (fuel : Nat) (g : Slugger)
    (hs : ∀ slug, g.has slug → nameOfSlug slug ∈ issued) (slug : List Char)
    (h : (freshName issued path fuel g).2.has slug) :
    nameOfSlug slug ∈ (freshName issued path fuel g).1 :: issued := by
  induction fuel generalizing g with
  | zero =>
    obtain rfl | hold := (Slugger.has_slug ..).mp h
    · exact List.mem_cons_self
    · exact List.mem_cons_of_mem _ (hs slug hold)
  | succ fuel ih =>
    simp only [freshName] at h ⊢
    split at h
    case isTrue hissued =>
      rw [if_pos hissued]
      exact ih _ (seen_slug hs hissued) h
    case isFalse hnew =>
      rw [if_neg hnew]
      obtain rfl | hold := (Slugger.has_slug ..).mp h
      · exact List.mem_cons_self
      · exact List.mem_cons_of_mem _ (hs slug hold)

theorem freshName_session {r : Registry} (h : r.Valid) (path : List Char) :
    (freshName r.issued path r.issued.length r.slugger).1 = Session.freshName r.bindings path := by
  refine freshName_eq path (k := Session.leastFree r.bindings (stem (ofText path)))
    (fun hm => ?_) (fun j hj => ?_) r.issued.length r.slugger h.counted h.seen 0 (by simp) ?_
  · exact Session.freshName_notMem r.bindings path ((h.issued _).mp hm)
  · have hfree := Nat.find_min (Session.exists_free r.bindings _) hj
    exact (h.issued _).mpr (not_not.mp (mt Session.isFree_iff.mpr hfree))
  · rw [Nat.zero_add]
    exact Session.leastFree_le _ _ fun name hname => (h.issued name).mpr hname

theorem valid_resolve {r : Registry} (h : r.Valid) (path : List Char) :
    (r.resolve path).2.Valid := by
  rw [resolve]
  cases hfind : r.bindings.find? (·.path == path) with
  | some b => exact h
  | none =>
    have hnew := Session.freshName_notMem r.bindings path
    rw [← freshName_session h path] at hnew
    have hpath : path ∉ r.bindings.map (·.path) := by
      simpa [List.find?_eq_none] using hfind
    constructor
    · exact counted_freshName path _ _ h.counted
    · exact seen_freshName path _ _ h.seen
    · intro name
      simp only [List.map_append, List.map_cons, List.map_nil, List.mem_append, List.mem_cons,
        List.not_mem_nil, or_false, h.issued name]
      exact or_comm
    · simpa using h.names_nodup.concat hnew
    · simpa using h.paths_nodup.concat hpath

end Registry

end MediaLink
