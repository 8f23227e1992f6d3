import MediaLink.Proofs.Occurrences

namespace MediaLink

/-- No import is missing, unused, repeated or swapped for another. -/
structure Links (sites : List Site) (imports : List Binding) : Prop where
  replaced : ∀ s ∈ sites, s.names.length = s.authored.paths.length
  names_nodup : (imports.map (·.name)).Nodup
  paths_nodup : (imports.map (·.path)).Nodup
  bound : ∀ r ∈ sites.flatMap Site.references, ∃ b ∈ imports,
    b.path = r.1 ∧ String.ofList b.name = r.2 ∧
      ∀ b' ∈ imports, String.ofList b'.name = r.2 → b' = b
  used : ∀ b ∈ imports, ∃ r ∈ sites.flatMap Site.references, r.2 = String.ofList b.name
  name_eq_iff : ∀ r ∈ sites.flatMap Site.references, ∀ r' ∈ sites.flatMap Site.references,
    r.2 = r'.2 ↔ r.1 = r'.1

namespace Site

theorem mem_references {found : List Authored} {name : List Char → List Char}
    {r : List Char × String} (h : r ∈ (found.map (linked name)).flatMap references) :
    ∃ p ∈ found.flatMap (·.paths), r = (p, String.ofList (name p)) := by
  obtain ⟨s, hs, hr⟩ := List.mem_flatMap.mp h
  obtain ⟨a, ha, rfl⟩ := List.mem_map.mp hs
  rw [references_linked] at hr
  obtain ⟨p, hp, rfl⟩ := List.mem_map.mp hr
  exact ⟨p, List.mem_flatMap.mpr ⟨a, ha, hp⟩, rfl⟩

theorem references_mem {found : List Authored} (name : List Char → List Char) {p : List Char}
    (h : p ∈ found.flatMap (·.paths)) :
    (p, String.ofList (name p)) ∈ (found.map (linked name)).flatMap references := by
  obtain ⟨a, ha, hp⟩ := List.mem_flatMap.mp h
  refine List.mem_flatMap.mpr ⟨linked name a, List.mem_map_of_mem ha, ?_⟩
  rw [references_linked]
  exact List.mem_map_of_mem hp

end Site

theorem Registry.links_resolveAll (found : List Authored) :
    let bs := (resolveAll {} (found.flatMap (·.paths))).bindings
    Links (found.map (Site.linked (Binding.nameIn bs))) bs := by
  intro bs
  have hvalid := valid_resolveAll valid_empty (found.flatMap (·.paths))
  have hpaths : bs.map (·.path) = (found.flatMap (·.paths)).eraseDups := paths_resolveAll _
  have hmem : ∀ p, p ∈ bs.map (·.path) ↔ p ∈ found.flatMap (·.paths) := by
    intro p
    rw [hpaths, List.mem_eraseDups]
  refine ⟨?_, hvalid.names_nodup, hvalid.paths_nodup, ?_, ?_, ?_⟩
  · intro s hs
    obtain ⟨a, -, rfl⟩ := List.mem_map.mp hs
    exact List.length_map ..
  · intro r hr
    obtain ⟨p, hp, rfl⟩ := Site.mem_references hr
    have hb := Binding.mem_nameIn ((hmem p).mpr hp)
    refine ⟨_, hb, rfl, rfl, fun b' hb' hn => ?_⟩
    exact List.inj_on_of_nodup_map hvalid.names_nodup hb' hb (String.ofList_injective hn)
  · intro b hb
    have hp : b.path ∈ bs.map (·.path) := List.mem_map_of_mem hb
    refine ⟨_, Site.references_mem (Binding.nameIn bs) ((hmem _).mp hp), ?_⟩
    exact congrArg String.ofList (Binding.nameIn_of_mem hvalid.paths_nodup hb)
  · intro r hr r' hr'
    obtain ⟨p, hp, rfl⟩ := Site.mem_references hr
    obtain ⟨q, hq, rfl⟩ := Site.mem_references hr'
    have hinj := Binding.nameIn_inj hvalid.names_nodup ((hmem p).mpr hp) ((hmem q).mpr hq)
    exact ⟨fun h => hinj.mp (String.ofList_injective h),
      fun h => congrArg String.ofList (hinj.mpr h)⟩

namespace LinkedProgram

variable {κ : Type}

/-- What linking has put in front of the content function. -/
def inserts (o : Options) (body linked : List (Tree κ)) : List (Tree κ) :=
  (linked.drop (body.findIdx (Tree.declares o.functionName))).take (linked.length - body.length)

/-- The statements that linking has found there. -/
def kept (o : Options) (body linked : List (Tree κ)) : List (Tree κ) :=
  linked.take (body.findIdx (Tree.declares o.functionName)) ++
    linked.drop (body.findIdx (Tree.declares o.functionName) + (linked.length - body.length))

def sites (o : Options) (body linked : List (Tree κ)) : List Site :=
  Tree.sitesAll .call o body (kept o body linked) ++
    Tree.sitesAll .literal o body (kept o body linked)

variable (o : Options) (body : List (Tree κ))

theorem length_substituted : (substituted o body).length = body.length := by
  rw [substituted, Tree.substituteAll_eq_map, List.length_map]

theorem body_of_inserted (h : (ofBody o body).inserted = true) :
    (ofBody o body).body =
      (substituted o body).take (body.findIdx (Tree.declares o.functionName)) ++
        (bindingsOf o body).map Binding.importTree ++
        (substituted o body).drop (body.findIdx (Tree.declares o.functionName)) := by
  rw [ofBody_eq] at h ⊢
  exact if_pos h

theorem inserts_body (h : (ofBody o body).inserted = true) :
    inserts o body (ofBody o body).body = (bindingsOf o body).map Binding.importTree ∧
      kept o body (ofBody o body).body = substituted o body := by
  have hlength := length_substituted o body
  have hi : body.findIdx (Tree.declares o.functionName) ≤ body.length := List.findIdx_le_length
  rw [inserts, kept, body_of_inserted o body h]
  generalize body.findIdx (Tree.declares o.functionName) = i at hi
  generalize substituted o body = ts at hlength
  generalize (bindingsOf o body).map Binding.importTree = us
  have htake : (ts.take i).length = i := List.length_take_of_le (hlength ▸ hi)
  have hn : (ts.take i ++ us ++ ts.drop i).length - body.length = us.length := by
    simp only [List.length_append, List.length_take, List.length_drop]
    omega
  have hfront : (ts.take i ++ us).length = i + us.length := by rw [List.length_append, htake]
  rw [hn, List.drop_left' hfront, List.append_assoc, List.drop_left' htake, List.take_left' htake,
    List.take_append_drop]
  exact ⟨List.take_left, rfl⟩

/-- The imports that linking has put into a program are those of its bindings, its references belong
to them, and an identifier that was not there before is one of these references. -/
theorem links_of_inserted (h : (ofBody o body).inserted = true) :
    inserts o body (ofBody o body).body = (ofBody o body).bindings.map (fun b =>
        .node (.defaultImport (String.ofList b.name) (String.ofList b.path)) []) ∧
      Links (sites o body (ofBody o body).body) (ofBody o body).bindings ∧
      ∀ n, Tree.occurrencesAll n (kept o body (ofBody o body).body) =
        Tree.occurrencesAll n body +
          ((sites o body (ofBody o body).body).flatMap (·.names)).count n := by
  obtain ⟨hinserts, hkept⟩ := inserts_body o body h
  have hbindings : (ofBody o body).bindings = bindingsOf o body := by rw [ofBody_eq]
  have hsites : sites o body (ofBody o body).body =
      (Tree.allEligible o body).map (Site.linked (Binding.nameIn (bindingsOf o body))) := by
    rw [sites, hkept, substituted, Tree.sitesAll_substituteAll, Tree.sitesAll_substituteAll,
      ← List.map_append, Tree.allEligible]
  rw [hinserts, hbindings, hsites, hkept]
  refine ⟨rfl, Registry.links_resolveAll (Tree.allEligible o body), fun n => ?_⟩
  rw [Authored.countNamed_sites]
  exact Tree.occurrencesAll_substituteAll n o _ body

theorem links_of_inserted_shared :
    let body : List (Tree Unit) :=
      [.node (.function (some "_createMdxContent") false false)
        [.node (.call false) [.identifier "_jsx", .string "img",
          .node .object [.node (.property {}) [.identifier "src", .string "a.png#top"]]],
         .node (.opening (.plain "img") true)
          [.node (.attribute (.plain "srcset")) [.string "a.png 1x, b.png 2x"]]]]
    (ofBody {} body).inserted = true ∧ (sites {} body (ofBody {} body).body).length = 2 ∧
      inserts {} body (ofBody {} body).body = (ofBody {} body).bindings.map (fun b =>
        .node (.defaultImport (String.ofList b.name) (String.ofList b.path)) []) ∧
      Links (sites {} body (ofBody {} body).body) (ofBody {} body).bindings ∧
      ∀ n, Tree.occurrencesAll n (kept {} body (ofBody {} body).body) =
        Tree.occurrencesAll n body +
          ((sites {} body (ofBody {} body).body).flatMap (·.names)).count n := by
  intro body
  have h : (ofBody {} body).inserted = true := by decide +kernel
  exact ⟨h, by decide +kernel, links_of_inserted {} body h⟩

end LinkedProgram

end MediaLink
