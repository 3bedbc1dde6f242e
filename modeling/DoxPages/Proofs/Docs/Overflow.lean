import DoxPages.Proofs.Description.Overflow
import DoxPages.Proofs.Docs.CompoundOrder
import DoxPages.Proofs.Docs.Reordering

/-!
# Builds that break off

Grouping renders nothing. A conversion renders the descriptions and types of a compound and
those of the members on its page, and breaks off exactly if one of them shows a heading that
is too deep. `stopped_build_iff` puts these together for the build of a model. The order of
compounds and declarations does not matter to that.
-/

namespace DoxPages

def Shallow (nodes : List Node) : Prop := ∀ n ∈ nodes, n.overflows = false

instance (nodes : List Node) : Decidable (Shallow nodes) :=
  inferInstanceAs (Decidable (∀ n ∈ nodes, _))

theorem shallow_nil : Shallow [] := List.forall_mem_nil _

theorem shallow_cons {n : Node} {nodes : List Node} :
    Shallow (n :: nodes) ↔ n.overflows = false ∧ Shallow nodes := List.forall_mem_cons

theorem shallow_append {ns ms : List Node} : Shallow (ns ++ ms) ↔ Shallow ns ∧ Shallow ms :=
  List.forall_mem_append

theorem shallow_flatMap {α : Type} {as : List α} {f : α → List Node} :
    Shallow (as.flatMap f) ↔ ∀ a ∈ as, Shallow (f a) := List.forall_mem_flatMap

open Reported

/-! ## Prototypes -/

namespace Source

def Param.nodes (p : Param) : List Node := p.type :: p.defval.toList

def paramNodes (params : Option (List Param)) : List Node := (params.getD []).flatMap Param.nodes

/-- The descriptions and types of a declaration. -/
def Member.nodes (m : Member) : List Node :=
  [m.brief, m.detailed] ++ paramNodes m.params ++ [m.type]

def Compound.nodes (c : Compound) : List Node := [c.brief, c.detailed] ++ paramNodes c.params

theorem stopped_plainType_iff (n : Node) :
    (plainType n).stopped = none ↔ n.overflows = false := by
  rw [plainType, stopped_bind_eq_none_iff, Node.stopped_toMarkdown_iff]
  exact and_iff_left rfl

theorem Param.stopped_text_iff (p : Param) : p.text.stopped = none ↔ Shallow p.nodes := by
  rw [text, stopped_bind_eq_none_iff, stopped_plainType_iff, nodes, shallow_cons]
  refine and_congr_right fun _ => ?_
  cases p.defval with
  | none => exact iff_of_true rfl shallow_nil
  | some value =>
    rw [Option.toList_some, shallow_cons]
    simp only [stopped_bind_eq_none_iff, stopped_plainType_iff]
    exact and_congr_right fun _ => iff_of_true rfl shallow_nil

theorem stopped_headerLine_iff (params : Option (List Param)) :
    (headerLine params).stopped = none ↔ Shallow (paramNodes params) := by
  cases params with
  | none => exact iff_of_true rfl shallow_nil
  | some params =>
    rw [headerLine, templateHeader, stopped_bind_eq_none_iff, stopped_bind_eq_none_iff,
      stopped_each_eq_none_iff, paramNodes, Option.getD_some, shallow_flatMap]
    simp only [Param.stopped_text_iff, stopped_pure, and_true]

theorem Member.stopped_prototype_iff (m : Member) :
    m.prototype.stopped = none ↔ Shallow (paramNodes m.params) ∧ m.type.overflows = false := by
  rw [prototype, stopped_bind_eq_none_iff, stopped_headerLine_iff, stopped_bind_eq_none_iff,
    stopped_plainType_iff]
  exact and_congr_right fun _ => and_iff_left rfl

theorem stopped_compoundPrototype_iff (kind typeName : String) (bases : List BaseRef)
    (params : Option (List Param)) :
    (compoundPrototype kind typeName bases params).stopped = none ↔
      Shallow (paramNodes params) := by
  rw [compoundPrototype, stopped_bind_eq_none_iff, stopped_headerLine_iff]
  exact and_iff_left rfl

end Source

/-! ## Conversion -/

namespace Docs

open Source (paramNodes)

namespace Builder

theorem stopped_document_iff (r : Resolver) (m : Source.Member) :
    (document r m).stopped = none ↔ Shallow m.nodes := by
  rw [document, stopped_bind_eq_none_iff, stopped_bind_eq_none_iff, stopped_bind_eq_none_iff,
    Node.stopped_toMarkdown_iff, Node.stopped_toMarkdown_iff, m.stopped_prototype_iff,
    Source.Member.nodes, shallow_append, shallow_append, shallow_cons, shallow_cons, shallow_cons]
  simp only [stopped_pure, shallow_nil, and_true, and_assoc]

theorem stopped_documentCompound_iff (b : Builder) (c : Source.Compound) (page : Compound) :
    (b.documentCompound c page).stopped = none ↔
      Shallow c.nodes ∧ ∀ m ∈ (b.declared.lookup page.page).getD [], Shallow m.nodes := by
  rw [documentCompound, stopped_bind_eq_none_iff, stopped_bind_eq_none_iff,
    stopped_bind_eq_none_iff, stopped_bind_eq_none_iff, Node.stopped_toMarkdown_iff,
    Node.stopped_toMarkdown_iff, Source.stopped_compoundPrototype_iff, stopped_each_eq_none_iff,
    Source.Compound.nodes, shallow_append, shallow_cons, shallow_cons]
  simp only [stopped_document_iff, stopped_pure, shallow_nil, and_true, and_assoc]

section
variable {b : Builder} (hb : b.Linked)
include hb

theorem Linked.stopped_convert_iff (c : Source.Compound) :
    (b.convert c).stopped = none ↔ ∀ k, b.pages.lookup c.id = some k →
      Shallow c.nodes ∧ ∀ m ∈ (b.declared.lookup k).getD [], Shallow m.nodes := by
  unfold Builder.convert
  cases hpage : b.pages.lookup c.id with
  | none => exact iff_of_true rfl nofun
  | some k =>
    obtain ⟨p, hp⟩ := Assoc.exists_lookup_iff_keys.2 (hb.pages c.id k hpage)
    simp only [Option.bind_some, hp]
    rw [stopped_bind_eq_none_iff, stopped_documentCompound_iff, hb.page_eq k p hp]
    simp

theorem Linked.stopped_convertAll_iff (cs : List Source.Compound) :
    (b.convertAll cs).stopped = none ↔ ∀ c ∈ cs, (b.convert c).stopped = none := by
  induction cs generalizing b with
  | nil => exact iff_of_true rfl (List.forall_mem_nil _)
  | cons c cs ih =>
    obtain ⟨hpages, -, -, hdeclared⟩ := tables_convert b c
    rw [Builder.convertAll, stopped_bind_eq_none_iff, ih (hb.convert c), List.forall_mem_cons]
    simp only [(hb.convert c).stopped_convert_iff, hb.stopped_convert_iff, hpages, hdeclared]

end

/-! ## Building a model -/

theorem stopped_groupAll (b : Builder) (cs : List Source.Compound) :
    (b.groupAll cs).stopped = none := by
  induction cs generalizing b with
  | nil => rfl
  | cons c cs ih =>
    rw [groupAll, stopped_bind_eq_none_iff]
    refine ⟨rfl, ?_⟩
    split
    · rfl
    · exact ih _

theorem Linked.declared_groupAll {b b' : Builder} (hb : b.Linked) {cs : List Source.Compound}
    (h : (b.groupAll cs).value = (b', none)) :
    b'.declared = b.declared ++
      cs.map fun c => (pageName b.options c, (placements b.options c).map (·.member)) := by
  induction cs generalizing b with
  | nil =>
    obtain rfl : b = b' := congrArg Prod.fst h
    exact (List.append_nil _).symm
  | cons c cs ih =>
    obtain ⟨b₁, hc, hrest⟩ := groupAll_cons_none h
    have hlinked := hb.group c
    have hoptions := options_group b c
    rw [hc] at hlinked hoptions
    obtain ⟨-, -, heq⟩ := hb.group_none hc
    rw [ih hlinked hrest, hoptions, heq, Builder.enter, page_groupedPage, List.append_assoc]
    rfl

theorem lookup_map_eq_find? {α β : Type} (f : α → String) (g : α → β) (k : String)
    (as : List α) : (as.map fun a => (f a, g a)).lookup k = (as.find? fun a => f a = k).map g := by
  induction as with
  | nil => rfl
  | cons a as ih =>
    rw [List.map_cons, List.lookup_cons, List.find?_cons, ih]
    by_cases h : f a = k
    · simp [h]
    · rw [beq_false_of_ne (Ne.symm h), decide_eq_false h]

/-- What is rendered for a compound when all of `cs` are built: its own descriptions and types,
and those of the members on the page under its id, which is that of the last compound with
this id. -/
def renderedNodes (o : Options) (cs : List Source.Compound) (c : Source.Compound) : List Node :=
  c.nodes ++ (cs.reverse.find? fun d => d.id = c.id).toList.flatMap fun d =>
    (placements o d).flatMap fun q => q.member.nodes

def Overflows (o : Options) (cs : List Source.Compound) : Prop :=
  ∃ c ∈ cs, ¬ Shallow (renderedNodes o cs c)

section
variable {o : Options} {cs : List Source.Compound} {b : Builder}
  (h : ((fresh o).groupAll cs).value = (b, none))
include h

theorem page_of_last {c d : Source.Compound}
    (hd : cs.reverse.find? (fun d => d.id = c.id) = some d) :
    b.pages.lookup c.id = some (pageName o d) := by
  obtain ⟨-, -, hpages, -⟩ := (linked_fresh o).groupAll_none h
  have hlookup : (cs.map fun d => (d.id, pageName o d)).reverse.lookup c.id =
      (cs.reverse.find? fun d => d.id = c.id).map (pageName o) := by
    rw [← List.map_reverse]
    exact lookup_map_eq_find? ..
  rw [hpages, Assoc.lookup_putAll, show (fresh o).options = o from rfl, hlookup, hd]
  rfl

theorem declared_of_mem {d : Source.Compound} (hd : d ∈ cs) :
    (b.declared.lookup (pageName o d)).getD [] = (placements o d).map (·.member) := by
  have hfresh := linked_fresh o
  have hkeys := ((hfresh.groupAll_isNone_iff cs).1 (congrArg Prod.snd h)).1
  rw [hfresh.declared_groupAll h]
  show ((cs.map fun c => (pageName o c, (placements o c).map (·.member))).lookup _).getD [] = _
  rw [Assoc.lookup_of_mem (v := (placements o d).map (·.member)) ?_
    (List.mem_map_of_mem (f := fun c => (pageName o c, (placements o c).map (·.member))) hd)]
  · rfl
  · rw [List.map_map]
    exact hkeys

theorem stopped_convertAll_iff : (b.convertAll cs).stopped = none ↔ ¬ Overflows o cs := by
  have hlinked := (linked_fresh o).groupAll h
  rw [hlinked.stopped_convertAll_iff, Overflows]
  push Not
  refine forall₂_congr fun c hc => ?_
  obtain ⟨d, hd⟩ : ∃ d, cs.reverse.find? (fun d => d.id = c.id) = some d := by
    rw [← Option.isSome_iff_exists, List.find?_isSome]
    exact ⟨c, List.mem_reverse.2 hc, decide_eq_true rfl⟩
  have hmem := List.mem_reverse.1 (List.mem_of_find?_eq_some hd)
  rw [hlinked.stopped_convert_iff, page_of_last h hd, renderedNodes, hd, Option.toList_some,
    List.flatMap_singleton, shallow_append, shallow_flatMap]
  simp only [Option.some.injEq, forall_eq', declared_of_mem h hmem, List.forall_mem_map]

end

/-- A build breaks off exactly if all compounds can be grouped and one of them shows a heading
that is too deep. -/
theorem stopped_build_iff (o : Options) (model : Source.Model) :
    ((fresh o).build model).stopped ≠ none ↔
      ((fresh o).build model).value.2 = none ∧ Overflows o (documentedIn o model) := by
  rw [build_eq, show (fresh o).options = o from rfl, build, ne_eq, stopped_bind_eq_none_iff]
  simp only [stopped_groupAll, true_and]
  rw [← documentedIn]
  cases hall : ((fresh o).groupAll (documentedIn o model)).value with
  | mk b e =>
    cases e with
    | some e => simp
    | none =>
      simp only [stopped_bind_eq_none_iff, stopped_convertAll_iff hall, stopped_pure, and_true,
        true_and]
      exact (not_congr (and_iff_left rfl)).trans not_not

/-! ## In another order -/

theorem overflows_perm (o : Options) {cs cs' : List Source.Compound} (h : cs.Perm cs')
    (hids : (cs.map (·.id)).Nodup) : Overflows o cs ↔ Overflows o cs' := by
  have hnodes (c : Source.Compound) : renderedNodes o cs c = renderedNodes o cs' c := by
    have hfind : cs.reverse.find? (fun d => d.id = c.id) =
        cs'.reverse.find? fun d => d.id = c.id := by
      refine find?_eq_of_mem_iff (fun d => by simp only [List.mem_reverse, h.mem_iff]) ?_
      intro d hd e he hdc hec
      exact List.inj_on_of_nodup_map hids (List.mem_reverse.1 hd) (List.mem_reverse.1 he)
        ((of_decide_eq_true hdc).trans (of_decide_eq_true hec).symm)
    rw [renderedNodes, renderedNodes, hfind]
  simp only [Overflows, h.mem_iff, hnodes]

/-- Models that differ in the order of their compounds break off alike. -/
theorem stopped_build_perm {o : Options} {model model' : Source.Model}
    (hkeyed : Source.Keyed model) (h : model.Perm model') :
    ((fresh o).build model).stopped = none ↔ ((fresh o).build model').stopped = none := by
  have hperm : (documentedIn o model).Perm (documentedIn o model') := (h.map _).filter _
  rw [← not_iff_not, ← ne_eq, ← ne_eq, stopped_build_iff, stopped_build_iff,
    overflows_perm o hperm (nodup_ids_documentedIn o hkeyed)]
  refine and_congr_left fun _ => ?_
  rw [← not_iff_not, ← ne_eq, ← ne_eq, build_fails_iff, build_fails_iff]
  exact not_congr (groupAll_isNone_perm o hperm)

theorem stopped_convert_fresh_iff {o : Options} {c : Source.Compound} {b : Builder}
    (h : (fresh o).group c = (b, none)) : (b.convert c).stopped = none ↔
      Shallow c.nodes ∧ ∀ q ∈ placements o c, Shallow q.member.nodes := by
  have hall : ((fresh o).groupAll [c]).value = (b, none) := by
    rw [groupAll_cons, h]
    rfl
  have hconvert := ((linked_fresh o).groupAll hall).stopped_convertAll_iff [c]
  rw [List.forall_mem_singleton, stopped_convertAll_iff hall] at hconvert
  rw [← hconvert, Overflows]
  simp [renderedNodes, shallow_append, shallow_flatMap]

/-- Reordered compounds break off alike. -/
theorem stopped_convert_reordered {o : Options} {c c' : Source.Compound} {b b' : Builder}
    (h : Reordered c c') (hb : (fresh o).group c = (b, none))
    (hb' : (fresh o).group c' = (b', none)) :
    (b.convert c).stopped = none ↔ (b'.convert c').stopped = none := by
  have hnodes : c.nodes = c'.nodes := by
    rw [h.rest]
    rfl
  rw [stopped_convert_fresh_iff hb, stopped_convert_fresh_iff hb', hnodes]
  simp only [(h.placements o).mem_iff]

end Builder

end Docs

end DoxPages
