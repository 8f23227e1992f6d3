import MediaLink.Proofs.Cut
import MediaLink.Proofs.Filled
import MediaLink.Proofs.NameReading
import MediaLink.Proofs.TemplateText
import MediaLink.Script.Printer

namespace MediaLink

open Srcset Text

namespace Srcset

def OnlySpaces (s : List Char) : Prop := ∀ c ∈ s, isBlank c → c = ' '

theorem OnlySpaces.append {s t : List Char} (hs : OnlySpaces s) (ht : OnlySpaces t) :
    OnlySpaces (s ++ t) := by
  intro c hc
  obtain hc | hc := List.mem_append.mp hc
  · exact hs c hc
  · exact ht c hc

theorem OnlySpaces.return_notMem {s : List Char} (h : OnlySpaces s) : '\r' ∉ s := fun hr =>
  absurd (h '\r' hr (by decide)) (by decide)

theorem onlySpaces_url {url : List Char} (h : IsUrl url) : OnlySpaces url := by
  intro c hc hblank
  rw [h.not_blank c hc] at hblank
  cases hblank

theorem onlySpaces_suffix {url : List Char} (h : IsUrl url) :
    OnlySpaces (Reference.ofRaw url).suffix := by
  intro c hc hblank
  have hmem : c ∈ Reference.relative url := by
    rw [← Reference.text_ofRaw]
    exact List.mem_append_right _ hc
  obtain rfl | rfl | hc := mem_relative hmem
  · cases hblank
  · cases hblank
  · exact onlySpaces_url h c hc hblank

theorem onlySpaces_descriptorText (c : Candidate) : OnlySpaces c.descriptorText := by
  rw [Candidate.descriptorText_eq]
  intro a ha hblank
  obtain ⟨token, htoken, ha⟩ := List.mem_flatMap.mp ha
  obtain rfl | ha := List.mem_cons.mp ha
  · rfl
  · have hplain := (isToken_of_mem_descriptorTokens htoken).2 a ha
    simp [isPlain, hblank] at hplain

theorem onlySpaces_ofCandidates {cs : List Candidate} (h : ∀ c ∈ cs, IsUrl c.url) :
    ∀ q ∈ (Template.ofCandidates cs).quasis, OnlySpaces q := by
  induction cs with
  | nil =>
    intro q hq
    obtain rfl := List.mem_singleton.mp hq
    exact fun c hc => nomatch hc
  | cons c cs ih =>
    obtain ⟨hc, hcs⟩ := List.forall_mem_cons.mp h
    obtain ⟨hlead, hholes⟩ := List.forall_mem_cons.mp (ih hcs)
    have hcomma : OnlySpaces (if cs.isEmpty then [] else [',', ' ']) := by
      split
      · exact fun a ha => nomatch ha
      · intro a ha hblank
        obtain rfl | ha := List.mem_cons.mp ha
        · cases hblank
        · exact List.mem_singleton.mp ha
    have htail := ((onlySpaces_descriptorText c).append hcomma).append hlead
    rw [Template.ofCandidates]
    cases Reference.isRewritable c.url with
    | true =>
      have hlead : OnlySpaces [] := fun a ha => nomatch ha
      have hsuffix := (onlySpaces_suffix hc).append htail
      exact List.forall_mem_cons.mpr ⟨hlead, List.forall_mem_cons.mpr ⟨hsuffix, hholes⟩⟩
    | false => exact List.forall_mem_cons.mpr ⟨(onlySpaces_url hc).append htail, hholes⟩

theorem onlySpaces_ofText? {s : List Char} {t : Template}
    (h : LinkedText.ofText? s = some (.template t)) : ∀ q ∈ t.quasis, OnlySpaces q := by
  obtain ⟨cs, hcs, ht⟩ := Option.bind_eq_some_iff.mp h
  have hurls : ∀ c ∈ cs, IsUrl c.url := by
    intro c hc
    have hmem : some c ∈ candidates s := by
      rw [parseComplete?_eq_some.mp hcs]
      exact List.mem_map_of_mem hc
    exact (isUrl_of_mem_candidates hmem).1
  rw [LinkedText.ofCandidates?] at ht
  split at ht
  case h_1 => cases ht
  case h_2 =>
    obtain ⟨-, ht⟩ := Option.ite_none_left_eq_some.mp ht
    obtain rfl := LinkedText.template.inj (Option.some.inj ht)
    exact onlySpaces_ofCandidates hurls

end Srcset

namespace Registry

theorem isMade_nameOf {r : Registry} (h : r.NamesSlugs) {path : List Char}
    (hpath : path ∈ r.bindings.map (·.path)) : Binding.IsMade (r.nameOf path) := by
  obtain ⟨slug, hname⟩ := h _ (Binding.mem_nameIn hpath)
  rw [nameOf, show Binding.nameIn r.bindings path = _ from hname]
  exact Binding.isMade_nameOfSlug slug

end Registry

namespace Script

structure IsRun (next : Lexeme × Cursor × Option SyntaxError) (k : Cursor) (raw : List Char)
    (isFirst isLast : Bool) : Prop where
  token : next.1.token = .run (String.ofList raw) isFirst isLast
  stop : next.1.span.stop = (k.behind (raw ++ runEnd isLast)).offset
  behind : next.2 = (k.behind (raw ++ runEnd isLast), none)

theorem Spells.isRun {raw text rest : List Char} (h : Spells raw text) {isLast : Bool} {k : Cursor}
    (hk : k.rest = raw ++ (runEnd isLast ++ rest)) (start : Nat) (isFirst : Bool) :
    IsRun (Lexeme.run k start isFirst) k raw isFirst isLast := by
  rw [Lexeme.run, hk, h.templateRun]
  exact ⟨rfl, rfl, rfl⟩

/-- The raw text of a run that stands for the text, as it is printed. -/
def printedRaw (text : List Char) : List Char := guardScript (Target.escape text)

theorem spells_printedRaw {text : List Char} (h : '\r' ∉ text) : Spells (printedRaw text) text :=
  (spells_escape h).guardScript

def printedQuasi (text : List Char) : Quasi :=
  { Target.quasi text with raw := String.ofList (printedRaw text) }

theorem quasi_printedRaw {text : List Char} (h : '\r' ∉ text) :
    Parser.Expression.quasi (printedRaw text) = printedQuasi text :=
  (spells_printedRaw h).quasi

def templateText (texts names : List (List Char)) : List Char :=
  (template (texts.map Target.quasi) (names.map String.ofList)).toList ++ ['`']

theorem templateText_singleton (text : List Char) :
    templateText [text] [] = printedRaw text ++ runEnd true := by
  simp [templateText, template, Target.quasi, printedRaw, runEnd]

theorem templateText_cons (text name : List Char) (texts names : List (List Char)) :
    templateText (text :: texts) (name :: names) =
      printedRaw text ++ (runEnd false ++ (name ++ '\x7d' :: templateText texts names)) := by
  simp [templateText, template, Target.quasi, printedRaw, runEnd, inBraces]

theorem behind_templateText_cons (k : Cursor) (text name : List Char)
    (texts names : List (List Char)) :
    ((k.behind (printedRaw text ++ runEnd false)).behind (name ++ ['\x7d'])).behind
        (templateText texts names) =
      k.behind (templateText (text :: texts) (name :: names)) := by
  rw [Cursor.behind_behind, Cursor.behind_behind, templateText_cons]
  simp only [List.append_assoc, List.cons_append, List.nil_append]

theorem le_length_templateText {texts names : List (List Char)}
    (h : texts.length = names.length + 1) :
    names.length + 1 ≤ (templateText texts names).length := by
  induction names generalizing texts with
  | nil => simp [templateText]
  | cons name names ih =>
    match texts with
    | text :: texts =>
      have hrest := ih (Nat.succ_inj.mp h)
      rw [templateText_cons]
      simp only [List.length_append, List.length_cons]
      omega

theorem span_references (names : List (List Char)) :
    (names.map Target.reference).span isComment = ([], names.map Target.reference) := by
  cases names <;> rfl

theorem print_reference (depth : Nat) (p : Place) (name : List Char) :
    print depth p (Target.reference name) = String.ofList name := by
  have hspan : List.span isComment [] = ([], []) := rfl
  rw [Target.reference, Tree.identifier, print, hspan]
  simp [form, isWrapped, comments]

theorem printAll_references (depth : Nat) (first others : Place) (names : List (List Char)) :
    printAll depth first others (names.map Target.reference) = names.map String.ofList := by
  induction names generalizing first with
  | nil => simp [printAll]
  | cons name names ih => rw [List.map_cons, printAll, ih, print_reference, List.map_cons]

theorem print_template (depth : Nat) (p : Place) (quasis : List Quasi) (names : List (List Char)) :
    print depth p (.node (.template quasis) (names.map Target.reference)) =
      "`" ++ template quasis (names.map String.ofList) ++ "`" := by
  rw [print, span_references]
  simp only [printAll_references]
  simp [form, isWrapped, comments]

/-- A target is printed as a template, whatever stands around it. -/
theorem print_tree (depth : Nat) (p : Place) (t : Srcset.Template) (suffix : List Char)
    (name : List Char → List Char) :
    (print depth p (Target.tree ⟨.template t, suffix⟩ name)).toList =
      '`' :: templateText t.quasis (t.paths.map name) := by
  have htree : (Target.tree ⟨.template t, suffix⟩ name : Node) =
      .node (.template (t.quasis.map Target.quasi)) ((t.paths.map name).map Target.reference) := by
    simp [Target.tree]
  rw [htree, print_template]
  simp [templateText]

namespace Parser.Expression

theorem notMem_of_nameEnding {name : List Char} (h : Binding.nameEnding <:+ name)
    {words : List String} (hwords : words.all fun w => !Binding.nameEnding.isSuffixOf w.toList) :
    String.ofList name ∉ words := by
  intro hmem
  have hnone := List.all_eq_true.mp hwords _ hmem
  rw [String.toList_ofList, List.isSuffixOf_iff_suffix.mpr h] at hnone
  cases hnone

theorem isPlainName_of_isMade {name : List Char} (h : Binding.IsMade name) : IsPlainName name where
  isName := h.isName
  reserved := notMem_of_nameEnding h.ending (by decide +kernel)
  contextual := notMem_of_nameEnding h.ending (by decide +kernel)

/-- The template stands at the cursor behind its first quote, or from a later run on. -/
structure IsPrinted (k : Cursor) (texts names : List (List Char)) (rest : List Char) : Prop where
  text : k.rest = templateText texts names ++ rest
  length : texts.length = names.length + 1
  noReturn : ∀ t ∈ texts, '\r' ∉ t
  plain : ∀ n ∈ names, IsPlainName n

namespace IsPrinted

variable {k : Cursor} {rest : List Char}

theorem isRun_last {text : List Char} (h : IsPrinted k [text] [] rest) (start : Nat)
    (isFirst : Bool) :
    IsRun (Lexeme.run k start isFirst) k (printedRaw text) isFirst true := by
  have hspells := spells_printedRaw (h.noReturn text (List.mem_singleton_self _))
  exact hspells.isRun (by rw [h.text, templateText_singleton, List.append_assoc]) start isFirst

variable {text name : List Char} {texts names : List (List Char)}

theorem isRun (h : IsPrinted k (text :: texts) (name :: names) rest) (start : Nat)
    (isFirst : Bool) :
    IsRun (Lexeme.run k start isFirst) k (printedRaw text) isFirst false := by
  have hspells := spells_printedRaw (h.noReturn text List.mem_cons_self)
  have htext : k.rest = printedRaw text ++
      (runEnd false ++ ((name ++ '\x7d' :: templateText texts names) ++ rest)) := by
    rw [h.text, templateText_cons, List.append_assoc, List.append_assoc]
  exact hspells.isRun htext start isFirst

theorem isBraced (h : IsPrinted k (text :: texts) (name :: names) rest) :
    IsBraced (k.behind (printedRaw text ++ runEnd false)) name
      (templateText texts names ++ rest) where
  toIsPlainName := h.plain name List.mem_cons_self
  text := by
    refine Cursor.rest_behind ?_
    rw [h.text, templateText_cons]
    simp only [List.append_assoc, List.cons_append]

theorem tail (h : IsPrinted k (text :: texts) (name :: names) rest) :
    IsPrinted ((k.behind (printedRaw text ++ runEnd false)).behind (name ++ ['\x7d'])) texts names
      rest where
  text := by
    refine Cursor.rest_behind ?_
    rw [h.isBraced.text]
    simp
  length := Nat.succ_inj.mp h.length
  noReturn t ht := h.noReturn t (List.mem_cons_of_mem _ ht)
  plain n hn := h.plain n (List.mem_cons_of_mem _ hn)

theorem length_names_lt {texts names : List (List Char)} (h : IsPrinted k texts names rest)
    (start : Nat) :
    names.length < (Lexeme.run k start false).2.1.rest.length + 2 := by
  cases names with
  | nil => exact Nat.succ_pos _
  | cons name names =>
    obtain ⟨text, texts, rfl⟩ := List.exists_cons_of_length_eq_add_one h.length
    have hle := le_length_templateText h.tail.length
    rw [congrArg Prod.fst (h.isRun start false).behind, h.isBraced.text]
    simp only [List.length_append, List.length_cons]
    omega

end IsPrinted

section Runs

variable {next : Lexeme × Cursor × Option SyntaxError} {k : Cursor} {raw : List Char}
  {isFirst isLast : Bool}

theorem advance_run (h : IsRun next k raw isFirst isLast) (s : State) (stop : Nat) :
    advance (s.on next stop) =
      .ok ((), s.on (Lexeme.next (k.behind (raw ++ runEnd isLast)))
        (k.behind (raw ++ runEnd isLast)).offset) := by
  rw [advance_on (congrArg Prod.snd h.behind), congrArg Prod.fst h.behind, h.stop]

theorem primary_run (h : IsRun next k raw true isLast) (n : Nested) (s : State) (stop : Nat) :
    primary n (s.on next stop) = template n (String.ofList raw) isLast (s.on next stop) := by
  rw [primary, bind_token, h.token]

theorem isRun_next {rest : List Char} (hk : k.rest = '`' :: rest)
    (h : IsRun (Lexeme.run (k.behind ['`']) k.offset true) (k.behind ['`']) raw true isLast) :
    IsRun (Lexeme.next k) (k.behind ['`']) raw true isLast := by
  rw [Lexeme.next_quote hk]
  exact ⟨h.token, h.stop, h.behind⟩

end Runs

section Printed

variable {k : Cursor} {texts names : List (List Char)} {rest : List Char}

theorem templateRest_printed (h : IsPrinted k texts names rest) {fuel : Nat}
    (hfuel : names.length < fuel) (levels start : Nat) (s : State) (stop : Nat) :
    templateRest (nested (levels + 1)) fuel (s.on (Lexeme.run k start false) stop) =
      .ok ((texts.map printedQuasi, names.map Target.reference),
        s.on (Lexeme.next (k.behind (templateText texts names)))
          (k.behind (templateText texts names)).offset) := by
  -- The induction is on the holes: behind the brace of one, a shorter template is printed.
  induction names generalizing texts k fuel start stop with
  | nil =>
    obtain ⟨text, rfl⟩ := List.length_eq_one_iff.mp h.length
    obtain ⟨fuel, rfl⟩ := Nat.exists_eq_add_one.mpr hfuel
    have hrun := h.isRun_last start false
    have hquasi := quasi_printedRaw (h.noReturn text (List.mem_singleton_self _))
    rw [templateRest, bind_token, hrun.token]
    simp only
    rw [bind_eq_of_ok (advance_run hrun s stop), templateText_singleton, String.toList_ofList,
      hquasi]
    rfl
  | cons name names ih =>
    obtain ⟨text, texts, rfl⟩ := List.exists_cons_of_length_eq_add_one h.length
    obtain ⟨fuel, rfl⟩ := Nat.exists_eq_add_one.mpr (Nat.zero_lt_of_lt hfuel)
    have hrun := h.isRun start false
    have hquasi := quasi_printedRaw (h.noReturn text List.mem_cons_self)
    rw [templateRest, bind_token, hrun.token]
    simp only
    rw [bind_eq_of_ok (advance_run hrun s stop), if_neg Bool.false_ne_true,
      bind_eq_of_ok (h.isBraced.hole ..),
      bind_eq_of_ok (ih h.tail (Nat.lt_of_succ_lt_succ hfuel) ..), behind_templateText_cons,
      String.toList_ofList, hquasi]
    rfl

/-- A printed template is read as one with the same runs and the same names, to its last quote. -/
theorem primary_printed (hk : k.rest = '`' :: (templateText texts names ++ rest))
    (h : IsPrinted (k.behind ['`']) texts names rest) (levels : Nat) (s : State) (stop : Nat) :
    primary (nested (levels + 1)) (s.on (Lexeme.next k) stop) =
      .ok (.node (.template (texts.map printedQuasi)) (names.map Target.reference),
        s.on (Lexeme.next (k.behind ('`' :: templateText texts names)))
          (k.behind ('`' :: templateText texts names)).offset) := by
  have hbehind : k.behind ('`' :: templateText texts names) =
      (k.behind ['`']).behind (templateText texts names) := by
    rw [Cursor.behind_behind]
    rfl
  rw [hbehind]
  cases names with
  | nil =>
    obtain ⟨text, rfl⟩ := List.length_eq_one_iff.mp h.length
    have hrun := isRun_next hk (h.isRun_last k.offset true)
    have hquasi := quasi_printedRaw (h.noReturn text (List.mem_singleton_self _))
    rw [primary_run hrun, template, bind_eq_of_ok (advance_run hrun s stop),
      templateText_singleton, if_pos rfl, String.toList_ofList, hquasi]
    rfl
  | cons name names =>
    obtain ⟨text, texts, rfl⟩ := List.exists_cons_of_length_eq_add_one h.length
    have hrun := isRun_next hk (h.isRun k.offset true)
    have hquasi := quasi_printedRaw (h.noReturn text List.mem_cons_self)
    rw [primary_run hrun, template, bind_eq_of_ok (advance_run hrun s stop),
      if_neg Bool.false_ne_true, bind_eq_of_ok (h.isBraced.hole ..), bind_budget,
      bind_eq_of_ok (templateRest_printed h.tail (h.tail.length_names_lt _) ..),
      behind_templateText_cons, String.toList_ofList, hquasi]
    rfl

end Printed

end Parser.Expression

/-- How a template stands in a program and is read there. -/
structure ReadsBack (t : Srcset.Template) : Prop where
  escape_eq : ∀ q ∈ t.quasis, Target.escape q =
    Target.replaceAll ['$', '\x7b'] ['\\', '$', '\x7b'] 0
      (Target.replaceAll ['`'] ['\\', '`'] 0 (Target.replaceAll ['\\'] ['\\', '\\'] 0 q))
  quasi_eq : ∀ q ∈ t.quasis, Parser.Expression.quasi (Target.escape q) = Target.quasi q
  escapesNext : ∀ q ∈ t.quasis, ∀ tail : List Char, tail.head? ≠ some '\x7b' →
    ∀ front back, Target.escape q ++ tail = front ++ back → endsRun back →
      front.length < (Target.escape q).length → escapesNext front
  templateRun_eq : ∀ q ∈ t.quasis, ∀ (isLast : Bool) (rest : List Char),
    templateRun [] (Target.escape q ++ (runEnd isLast ++ rest)) = some (Target.escape q, isLast)
  primary_eq : ∀ (requests : List Request) (depth : Nat) (p : Place) (suffix : List Char),
    let r := (serve Registry.answer {} requests).2.resolveAll t.paths
    let printed := (print depth p (Target.tree ⟨.template t, suffix⟩ r.nameOf)).toList
    ∀ (k : Cursor) (rest : List Char), k.rest = printed ++ rest →
      ∀ (levels : Nat) (s : Parser.State) (stop : Nat),
        Parser.Expression.primary (Parser.nested (levels + 1)) (s.on (Lexeme.next k) stop) =
          .ok (.node (.template (t.quasis.map printedQuasi))
              (t.paths.map (Target.reference ∘ r.nameOf)),
            s.on (Lexeme.next (k.behind printed)) (k.behind printed).offset)

/-- Every template that a list becomes says what it is to say, also where it is printed. -/
theorem readsBack_ofText? {s : List Char} {t : Srcset.Template}
    (h : LinkedText.ofText? s = some (.template t)) : ReadsBack t := by
  have hreturn : ∀ q ∈ t.quasis, '\r' ∉ q := fun q hq => (onlySpaces_ofText? h q hq).return_notMem
  have hspells : ∀ q ∈ t.quasis, Spells (Target.escape q) q := fun q hq =>
    spells_escape (hreturn q hq)
  refine
    { escape_eq q _ := Target.escape_eq_replaceAll q
      quasi_eq q hq := (hspells q hq).quasi
      escapesNext q hq tail htail front back := (hspells q hq).escapesNext htail
      templateRun_eq q hq := (hspells q hq).templateRun
      primary_eq := ?_ }
  intro requests depth p suffix r printed k rest hk levels s stop
  have hempty : ({} : Registry).NamesSlugs := fun b hb => nomatch hb
  have hslugs : r.NamesSlugs :=
    Registry.namesSlugs_resolveAll (Registry.namesSlugs_serve hempty requests) _
  have hprinted : printed = '`' :: templateText t.quasis (t.paths.map r.nameOf) := print_tree ..
  rw [hprinted] at hk ⊢
  have hisPrinted : Parser.Expression.IsPrinted (k.behind ['`']) t.quasis (t.paths.map r.nameOf)
      rest := by
    refine ⟨Cursor.rest_behind hk, ?_, hreturn, fun n hn => ?_⟩
    · rw [List.length_map, Template.length_quasis]
    · obtain ⟨path, hpath, rfl⟩ := List.mem_map.mp hn
      exact Parser.Expression.isPlainName_of_isMade
        (Registry.isMade_nameOf hslugs (Registry.mem_paths_resolveAll _ hpath))
  rw [Parser.Expression.primary_printed hk hisPrinted levels s stop, List.map_map]

theorem readsBack_marks :
    let t : Srcset.Template :=
      ⟨[], [("./a.png".toList, "#`\\$\x7b 2x, https://b.c/$, ".toList),
        ("./d.png".toList, " 3x".toList)]⟩
    LinkedText.ofText? "a.png#`\\$\x7b 2x, https://b.c/$, d.png 3x".toList = some (.template t) ∧
      ReadsBack t :=
  have h := by decide +kernel
  ⟨h, readsBack_ofText? h⟩

end Script

end MediaLink
