import Mathlib.Data.Finset.Card
import Mathlib.Logic.Function.Iterate
import MediaLink.Proofs.Resolution
import MediaLink.Proofs.SessionRuns

namespace MediaLink

/-- A loop that goes on while a test holds runs its body so many times. -/
structure RunsFor {σ : Type} (test : σ → Prop) (body : σ → σ) (s : σ) (n : Nat) : Prop where
  goesOn : ∀ j < n, test (body^[j] s)
  stops : ¬ test (body^[n] s)

namespace RunsFor

variable {σ : Type} {test : σ → Prop} {body : σ → σ} {s : σ}

theorem zero (h : ¬ test s) : RunsFor test body s 0 where
  goesOn j hj := absurd hj (Nat.not_lt_zero j)
  stops := h

theorem succ (h : test s) {n : Nat} (hn : RunsFor test body (body s) n) :
    RunsFor test body s (n + 1) where
  goesOn j hj := by
    cases j with
    | zero => exact h
    | succ j => exact hn.goesOn j (Nat.lt_of_succ_lt_succ hj)
  stops := hn.stops

end RunsFor

namespace Slug.Slugger

def recorded (g : Slugger) : Finset (List Char) := (g.seen.map (·.1)).toFinset

theorem mem_recorded {g : Slugger} {slug : List Char} : slug ∈ g.recorded ↔ g.has slug := by
  rw [recorded, List.mem_toFinset, has_iff]

abbrev Trial := List Char × Slugger

def Trial.isTaken (t : Trial) : Prop := t.2.has t.1

def Trial.renumber (base : List Char) (t : Trial) : Trial :=
  let n := t.2.count base + 1
  (numbered base n, t.2.setCount base n)

structure SlugsAfter (g : Slugger) (text : List Char) (n : Nat) : Prop where
  runs : RunsFor Trial.isTaken (Trial.renumber (ofText text)) (ofText text, g) n
  slug_eq : g.slug text =
    let t := (Trial.renumber (ofText text))^[n] (ofText text, g)
    (t.1, t.2.record t.1)

theorem setCount_setCount (g : Slugger) (base : List Char) (m n : Nat) :
    (g.setCount base m).setCount base n = g.setCount base n := by
  simp only [setCount, List.map_map, mk.injEq]
  apply List.map_congr_left
  intro e _
  by_cases he : e.1 = base
  · simp [he]
  · simp [he]

theorem iterate_renumber {g : Slugger} {base : List Char} (h : g.has base) (n : Nat) :
    (Trial.renumber base)^[n + 1] (base, g) =
      (numbered base (g.count base + (n + 1)), g.setCount base (g.count base + (n + 1))) := by
  induction n with
  | zero => rfl
  | succ n ih =>
    rw [Function.iterate_succ_apply', ih]
    simp only [Trial.renumber, count_setCount_self g base _ h, setCount_setCount, Nat.add_assoc]

theorem numbered_ne (base : List Char) (n : Nat) : numbered base n ≠ base := by
  intro h
  have hlength := congrArg List.length h
  simp [numbered] at hlength

/-- What a loop goes on from is a slug that was handed out, and each time another one. -/
theorem le_card_of_goesOn {g : Slugger} {base : List Char} {n : Nat}
    (h : ∀ j < n, Trial.isTaken ((Trial.renumber base)^[j] (base, g))) : n ≤ g.recorded.card := by
  by_cases hbase : g.has base
  · let slug (j : Nat) : List Char := ((Trial.renumber base)^[j] (base, g)).1
    have hnumber (j : Nat) : slug (j + 1) = numbered base (g.count base + (j + 1)) :=
      congrArg Prod.fst (iterate_renumber hbase j)
    have hinj : Function.Injective slug := by
      intro i j hij
      cases i with
      | zero =>
        cases j with
        | zero => rfl
        | succ j => exact absurd ((hnumber j).symm.trans hij.symm) (numbered_ne base _)
      | succ i =>
        cases j with
        | zero => exact absurd ((hnumber i).symm.trans hij) (numbered_ne base _)
        | succ j =>
          rw [hnumber, hnumber] at hij
          have hcount := numbered_injective base hij
          omega
    have htaken : ∀ j < n, slug j ∈ g.recorded := by
      intro j hj
      rw [mem_recorded]
      cases j with
      | zero => exact hbase
      | succ j =>
        have hhas := h (j + 1) hj
        rwa [Trial.isTaken, iterate_renumber hbase, has_setCount, ← hnumber] at hhas
    have hcard := Finset.card_le_card_of_injOn slug
      (fun j hj => htaken j (Finset.mem_range.mp hj)) (s := Finset.range n) hinj.injOn
    rwa [Finset.card_range] at hcard
  · cases n with
    | zero => exact Nat.zero_le _
    | succ n => exact absurd (h 0 (Nat.succ_pos n)) hbase

/-- The bound on the search is never what ends it, so a slug is found as without one. -/
theorem exists_slugsAfter (g : Slugger) (text : List Char) :
    ∃ n ≤ g.recorded.card, g.SlugsAfter text n := by
  have hbound {n : Nat} (h : g.SlugsAfter text n) : ∃ n ≤ g.recorded.card, g.SlugsAfter text n :=
    ⟨n, le_card_of_goesOn h.runs.goesOn, h⟩
  by_cases hbase : g.has (ofText text)
  · let first := g.firstFree (ofText text) g.seen.length (g.count (ofText text) + 1)
    have hle : g.count (ofText text) + 1 ≤ first := le_firstFree ..
    obtain ⟨k, hk⟩ := Nat.exists_eq_add_of_le hle
    have hfirst : first = g.count (ofText text) + (k + 1) := by omega
    apply hbound (n := k + 1)
    refine ⟨⟨?_, ?_⟩, ?_⟩
    · intro j hj
      cases j with
      | zero => exact hbase
      | succ j =>
        rw [Trial.isTaken, iterate_renumber hbase, has_setCount]
        exact firstFree_taken g _ g.seen.length (g.count (ofText text) + 1) _ (by omega) (by omega)
    · rw [Trial.isTaken, iterate_renumber hbase, has_setCount, ← hfirst]
      exact not_has_firstFree g (ofText text) _
    · rw [iterate_renumber hbase, ← hfirst]
      simp only [slug, hbase, ↓reduceIte, first]
  · apply hbound (n := 0)
    exact ⟨RunsFor.zero hbase, by simp [slug, hbase]⟩

end Slug.Slugger

namespace Registry

open Slug Binding

abbrev Search := Option (List Char) × Slugger

def Search.isOpen (issued : List (List Char)) (s : Search) : Prop := ∀ name ∈ s.1, name ∈ issued

def Search.ask (path : List Char) (s : Search) : Search :=
  (some (nameOfSlug (s.2.slug path).1), (s.2.slug path).2)

theorem Search.not_isOpen_ask {issued : List (List Char)} {path : List Char} {s : Search}
    (h : nameOfSlug (s.2.slug path).1 ∉ issued) : ¬ (s.ask path).isOpen issued :=
  fun hopen => h (hopen _ rfl)

/-- The search ends at a new name, after no more slugs than there are numbers left to try. -/
theorem exists_runsFor_ask {issued : List (List Char)} (path : List Char) {k : Nat}
    (hfree : numberedName (stem (ofText path)) k ∉ issued) (fuel : Nat) (s : Search)
    (hopen : s.isOpen issued) (hc : s.2.Counted)
    (hs : ∀ slug, s.2.has slug → nameOfSlug slug ∈ issued)
    (m : Nat) (hm : ∀ j < m, s.2.has (repeated (ofText path) j)) (hf : k ≤ m + fuel) :
    ∃ n, m + n ≤ k + 1 ∧ RunsFor (Search.isOpen issued) (Search.ask path) s n ∧
      (Search.ask path)^[n] s = (freshName issued path fuel s.2).map some id := by
  obtain ⟨i, hi, hmi, hik⟩ := exists_isNext_between hfree hc hs hm
  by_cases hissued : nameOfSlug (s.2.slug path).1 ∈ issued
  · have hlt : i < k := by
      apply Nat.lt_of_le_of_ne hik
      rintro rfl
      rw [hi.slug, nameOfSlug_repeated] at hissued
      exact hfree hissued
    cases fuel with
    | zero => omega
    | succ fuel =>
      obtain ⟨n, hn, hruns, hresult⟩ := exists_runsFor_ask path hfree fuel (s.ask path)
        (fun name hname => Option.some.inj hname ▸ hissued) (Slugger.counted_slug hc path)
        (seen_slug hs hissued) (i + 1) hi.taken_slug (by omega)
      refine ⟨n + 1, by omega, hruns.succ hopen, ?_⟩
      rw [Function.iterate_succ_apply, hresult]
      simp only [freshName, hissued, ↓reduceIte, Search.ask]
  · refine ⟨1, by omega, (RunsFor.zero (Search.not_isOpen_ask hissued)).succ hopen, ?_⟩
    cases fuel with
    | zero => rfl
    | succ fuel =>
      simp only [freshName, hissued, ↓reduceIte]
      rfl

/-- What one call of `resolve` takes. -/
structure IsBounded (r : Registry) (path : List Char) : Prop where
  bound : path ∈ r.bindings.map (·.path) → (r.resolve path).2 = r
  unbound : path ∉ r.bindings.map (·.path) → ∃ n ≤ r.bindings.length + 1,
    RunsFor (Search.isOpen r.issued) (Search.ask path) (none, r.slugger) n ∧
      (Search.ask path)^[n] (none, r.slugger) =
        (some (r.resolve path).1, (r.resolve path).2.slugger) ∧
      ∀ j < n, ∃ m ≤ ((Search.ask path)^[j] (none, r.slugger)).2.recorded.card,
        ((Search.ask path)^[j] (none, r.slugger)).2.SlugsAfter path m

theorem isBounded_of_valid {r : Registry} (h : r.Valid) (path : List Char) : r.IsBounded path := by
  constructor
  · intro hpath
    obtain ⟨b, hb⟩ := Option.isSome_iff_exists.mp (find?_path_isSome.mpr hpath)
    simp only [resolve, hb]
  · intro hpath
    have hfind : r.bindings.find? (·.path == path) = none :=
      Option.not_isSome_iff_eq_none.mp (mt find?_path_isSome.mp hpath)
    have hfree := Session.freshName_notMem r.bindings path
    rw [← h.issued, Session.freshName] at hfree
    have hissued :=
      Session.leastFree_le r.bindings (stem (ofText path)) fun name => (h.issued name).mpr
    have hnames := Session.leastFree_le r.bindings (stem (ofText path)) fun _ hname => hname
    rw [List.length_map] at hnames
    obtain ⟨n, hn, hruns, hresult⟩ := exists_runsFor_ask path hfree r.issued.length
      (none, r.slugger) (by simp [Search.isOpen]) h.counted h.seen 0
      (fun j hj => absurd hj (Nat.not_lt_zero j)) (by omega)
    refine ⟨n, by omega, hruns, ?_, fun j _ => Slugger.exists_slugsAfter _ path⟩
    rw [hresult]
    simp only [resolve, hfind]
    rfl

/-- Whatever was asked before, both loops stop within these bounds. -/
theorem isBounded_resolve (requests : List Request) (path : List Char) :
    (serve answer {} requests).2.IsBounded path :=
  isBounded_of_valid (valid_serve valid_empty requests) path

end Registry

end MediaLink
