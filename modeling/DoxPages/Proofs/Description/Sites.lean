import DoxPages.Proofs.Description.Unsupported
import DoxPages.Proofs.Text.Strip

/-!
# A node in its tree

A `Site` is a place among siblings in a tree, and `Site.fill` puts a node there.
As long as the elements around it write their content in place, a rendering comes to that
place, in the state that `Site.arrive?` gives, and goes on behind it
(`Site.exists_renderAll_fill`). What goes on behind cannot take back more than spaces at
the end (`Carries.trimRight_prefix`).
-/

namespace DoxPages

open Text Output

/-- A place in a tree: the siblings before and behind each element around it, outermost first,
then its own. -/
inductive Site where
  | here (before behind : List Node)
  | within (before : List Node) (tag : String) (attrs : List (String × String)) (inner : Site)
      (behind : List Node)

namespace Site

def fill : Site → Node → List Node
  | here before behind, n => before ++ n :: behind
  | within before tag attrs inner behind, n =>
    before ++ Node.element tag attrs (inner.fill n) :: behind

def tags : Site → List String
  | here .. => []
  | within _ tag _ inner _ => tag :: inner.tags

end Site

def closedTags : List String := ["listitem", "row", "entry", "ulink", "ref"] ++ hidingTags

/-! ## Where a rendering stands -/

/-- The context and the index of what is rendered next, and the output behind which it is. -/
structure Spot where
  cx : Context
  index : Nat := 0
  out : Output := {}

def Spot.past (s : Spot) (ns : List Node) : Spot where
  cx := s.cx
  index := s.index + ns.countP Node.isVisible
  out := renderAll s.cx s.index ns s.out

namespace Rule

/-- Before the content of an element, if it is written in place and not indented. -/
def entered? (rule : Rule) (el : Node) (s : Spot) : Option Spot :=
  match rule with
  | wrap before _ => some { cx := s.cx, out := s.out.write before }
  | code before _ => some { cx := { s.cx with inCode := true }, out := s.out.write before }
  | para => some {
      cx := s.cx
      out := if s.index = 0 then s.out else (s.out.write "\n\n").write (spaces s.cx.indent) }
  | list numbered => some {
      cx := { s.cx with frame := .list numbered }
      out := if s.index = 0 then s.out else s.out.write "\n" }
  | parameters =>
    let title := parametersTitle (el.attr "kind")
    some { cx := s.cx, out := s.out.write s!"\n### {title}\n" }
  | listing =>
    let language := listingLanguage (el.attr "filename")
    some { cx := { s.cx with inCode := true }, out := s.out.write s!"\n```{language}\n" }
  | note => some {
      cx := s.cx
      out := match noteOpening? (el.attr "kind") with
        | some opening => s.out.write opening
        | none => s.out.report (.unsupportedNote (el.attr "kind")) }
  | subsection level => some {
      cx := { s.cx with frame := .subsection level }
      out := if s.index = 0 then s.out else s.out.write "\n\n" }
  | heading =>
    let level := headingLevel (el.attr "level" "0")
    some {
      cx := s.cx
      out := ((s.out.dropSpace.stopUnless (isCount level)).write (headingMarks level)).write " " }
  | literal _ | nothing | item | verbatim | formula | title | link | reference | row | cell => none

def closing : Rule → String
  | wrap _ after | code _ after => after
  | parameters => "\n\n"
  | listing => "```\n"
  | _ => ""

theorem render_of_entered {rule : Rule} {s t : Spot} (el : Node) (h : rule.entered? el s = some t)
    (content : Content) :
    rule.render el content s.cx s.index s.out = (content t.cx t.out).write rule.closing := by
  cases rule with
  | literal | nothing | item | verbatim | formula | title | link | reference | row | cell => cases h
  | note =>
    obtain rfl := Option.some.inj h
    simp only [render, closing, write_empty]
    cases noteOpening? (el.attr "kind") <;> rfl
  | para | list | subsection | heading =>
    obtain rfl := Option.some.inj h
    exact (write_empty _).symm
  | wrap | code | parameters | listing =>
    obtain rfl := Option.some.inj h
    rfl

theorem start_of_entered {rule : Rule} {el : Node} {s t : Spot} (h : rule.entered? el s = some t) :
    t.index = 0 ∧ t.cx.indent = s.cx.indent := by
  cases rule with
  | literal | nothing | item | verbatim | formula | title | link | reference | row | cell => cases h
  | _ =>
    obtain rfl := Option.some.inj h
    exact ⟨rfl, rfl⟩

def isOpen : Rule → Bool
  | literal _ | nothing | item | verbatim | formula | title | link | reference | row | cell => false
  | _ => true

theorem exists_entered {tag : String} {rule : Rule} (hrule : ofTag? tag = some rule)
    (htag : tag ∉ closedTags) (el : Node) (s : Spot) : ∃ t, rule.entered? el s = some t := by
  have htable : ∀ p ∈ table, p.1 ∉ closedTags → p.2.isOpen = true := by decide
  have hopen := htable _ (mem_table hrule) htag
  cases rule with
  | literal | nothing | item | verbatim | formula | title | link | reference | row | cell =>
    cases hopen
  | _ => exact ⟨_, rfl⟩

end Rule

def Spot.enter? (s : Spot) (tag : String) (attrs : List (String × String)) : Option Spot :=
  match Rule.ofTag? tag with
  | some rule => rule.entered? (.element tag attrs []) s
  | none => some { cx := s.cx, out := s.out.report (.unsupportedElement tag) }

def Site.arrive? : Site → Spot → Option Spot
  | here before _, s => some (s.past before)
  | within before tag attrs inner _, s => ((s.past before).enter? tag attrs).bind inner.arrive?

/-! ## What is rendered behind -/

/-- What goes on behind an output and does the same behind a longer one. -/
def Carries (after : Output → Output) : Prop :=
  ∀ base o, Firm base → after (o.onto base id) = (after o).onto base id

theorem carries_renderAll (cx : Context) (index : Nat) (ns : List Node) :
    Carries (renderAll cx index ns) := fun _ o hbase =>
  renderAll_onto (fun _ _ => rfl) hbase none cx index ns o

theorem Carries.comp {g h : Output → Output} (hg : Carries g) (hh : Carries h) :
    Carries (g ∘ h) := fun base o hbase => by
  rw [Function.comp_apply, hh base o hbase, hg base _ hbase, Function.comp_apply]

theorem carries_write (s : String) : Carries (write s) := fun _ _ _ => write_onto s

theorem Carries.trimRight_prefix {after : Output → Output} (h : Carries after) (o : Output) :
    trimRight (· == ' ') o.text.toList <+: (after o).text.toList := by
  -- the fragments below the spaces at the end are firm
  let base := o.fragments.dropWhile (· == " ")
  let top : Output := { o with fragments := o.fragments.takeWhile (· == " ") }
  have hbase : Firm base := by
    intro hhead
    have hnot := List.head?_dropWhile_not (· == " ") o.fragments
    rw [hhead] at hnot
    cases hnot
  have ho : o = top.onto base id := by
    rw [onto, List.takeWhile_append_dropWhile, Option.map_id, Option.none_or]
    rfl
  have hspaces : ∀ c ∈ top.text.toList, (c == ' ') = true := by
    intro c hc
    have htop : top.text.toList = top.fragments.reverse.flatMap String.toList := by
      rw [text, String.toList_join]
    rw [htop, List.mem_flatMap] at hc
    obtain ⟨s, hs, hc⟩ := hc
    have hspace := List.mem_takeWhile_imp (List.mem_reverse.1 hs)
    rw [eq_of_beq hspace] at hc
    simpa using hc
  rw [ho, h base top hbase, text_onto, text_onto, String.toList_append, String.toList_append]
  have htrim : trimRight (· == ' ') ((String.join base.reverse).toList ++ top.text.toList) =
      trimRight (· == ' ') (String.join base.reverse).toList := by
    rw [trimRight, List.reverse_append, List.dropWhile_append_of_pos, trimRight]
    intro c hc
    exact hspaces c (List.mem_reverse.1 hc)
  rw [htrim]
  exact (Text.trimRight_isPrefix _ _).trans (List.prefix_append ..)

/-! ## On the way in -/

theorem Spot.exists_enter (s : Spot) {tag : String} (h : tag ∉ closedTags)
    (attrs : List (String × String)) : ∃ t, s.enter? tag attrs = some t := by
  rw [enter?]
  split
  · rename_i rule hrule
    exact Rule.exists_entered hrule h _ s
  · exact ⟨_, rfl⟩

theorem Spot.exists_render_element {s t : Spot} {tag : String} {attrs : List (String × String)}
    (h : s.enter? tag attrs = some t) :
    t.index = 0 ∧ t.cx.indent = s.cx.indent ∧ ∃ closing : String, ∀ children,
      (Node.element tag attrs children).render s.cx s.index s.out =
        (renderAll t.cx t.index children t.out).write closing := by
  rw [enter?] at h
  split at h
  · rename_i rule hrule
    obtain ⟨hindex, hindent⟩ := Rule.start_of_entered h
    refine ⟨hindex, hindent, rule.closing, fun children => ?_⟩
    rw [Node.render, hrule, hindex]
    exact Rule.render_of_entered (.element tag attrs children) h _
  · rename_i hrule
    obtain rfl := Option.some.inj h
    refine ⟨rfl, rfl, "", fun children => ?_⟩
    rw [Node.render, hrule, write_empty]

namespace Site

theorem exists_arrive {site : Site} (h : ∀ tag ∈ site.tags, tag ∉ closedTags) (s : Spot) :
    ∃ t, site.arrive? s = some t := by
  induction site generalizing s with
  | here before behind => exact ⟨_, rfl⟩
  | within before tag attrs inner behind ih =>
    rw [tags, List.forall_mem_cons] at h
    obtain ⟨t, ht⟩ := (s.past before).exists_enter h.1 attrs
    rw [arrive?, ht]
    exact ih h.2 t

theorem indent_of_arrive {site : Site} {s t : Spot} (h : site.arrive? s = some t) :
    t.cx.indent = s.cx.indent := by
  induction site generalizing s with
  | here before behind =>
    obtain rfl := Option.some.inj h
    rfl
  | within before tag attrs inner behind ih =>
    obtain ⟨u, hu, ht⟩ := Option.bind_eq_some_iff.1 h
    rw [ih ht, (Spot.exists_render_element hu).2.1]
    rfl

/-- What stands at a place is rendered from where the way in arrives. -/
theorem exists_renderAll_fill {site : Site} {s t : Spot} (h : site.arrive? s = some t) :
    ∃ after, Carries after ∧ ∀ n : Node, n.isVisible = true →
      renderAll s.cx s.index (site.fill n) s.out = after (n.render t.cx t.index t.out) := by
  induction site generalizing s with
  | here before behind =>
    obtain rfl := Option.some.inj h
    refine ⟨_, carries_renderAll s.cx ((s.past before).index + 1) behind, fun n hn => ?_⟩
    rw [fill, renderAll_append, renderAll_cons_of_visible hn]
    rfl
  | within before tag attrs inner behind ih =>
    obtain ⟨u, hu, ht⟩ := Option.bind_eq_some_iff.1 h
    obtain ⟨after, hafter, hfill⟩ := ih ht
    obtain ⟨hindex, -, closing, hclosing⟩ := Spot.exists_render_element hu
    refine ⟨_, (carries_renderAll s.cx ((s.past before).index + 1) behind).comp
      ((carries_write closing).comp hafter), fun n hn => ?_⟩
    rw [fill, renderAll_append, renderAll_cons_of_visible rfl]
    refine congrArg (renderAll s.cx _ behind) ((hclosing (inner.fill n)).trans ?_)
    rw [hfill n hn]
    rfl

end Site

end DoxPages
