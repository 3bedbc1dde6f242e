import DoxPages.Proofs.Description.Keeping
import DoxPages.Proofs.Description.Places
import DoxPages.Proofs.Description.Reports

/-!
# Rendering where no links are made

A rendering does not depend on the resolver if nothing in it is linked: in code, in the
labels of references, and in running text without references and known names. There
the targets of references are not looked at either, and in code neither are the
addresses of links (`render_keepAttrs`). But the label of a reference is rendered as
if it did not stand in code, so links in it show their addresses even there.
-/

namespace DoxPages

open Text

/-! ## What is linked -/

/-- Whether a resolver changes how a node in running text is shown: a reference, or a text in
which names are found. -/
def Resolver.links (r : Resolver) : Node → Bool
  | .text s => !allBlank s.toList && decide (r.linker.apply s.toList ≠ s.toList)
  | .element tag _ _ => tag = "ref"

/-- A resolver, if there is one, links none of the nodes in running text. -/
def Linkless (resolver : Option Resolver) (nodes : List (Place × Node)) : Prop :=
  ∀ r, resolver = some r → ∀ q ∈ nodes, q.1 = .body → r.links q.2 = false

theorem linkless_none (nodes : List (Place × Node)) : Linkless none nodes := nofun

theorem Linkless.mono {resolver : Option Resolver} {ms ns : List (Place × Node)}
    (h : Linkless resolver ns) (hs : ms ⊆ ns) : Linkless resolver ms :=
  fun r hr q hq => h r hr q (hs hq)

/-! ## Contexts -/

namespace Context

def unlinked (cx : Context) : Context := { cx with resolver := none }

theorem inCode_unlinked (cx : Context) : cx.unlinked.inCode = cx.inCode := rfl

theorem activeResolver_unlinked (cx : Context) : cx.unlinked.activeResolver = none := by
  unfold activeResolver unlinked
  split <;> rfl

theorem activeResolver_of_inCode {cx : Context} (h : cx.inCode = true) :
    cx.activeResolver = none := if_pos h

/-- A context that nodes at a place can have in a rendering with a resolver. -/
def Fits (resolver : Option Resolver) (p : Place) (cx : Context) : Prop :=
  match p with
  | .body => cx.activeResolver = resolver
  | .label => cx.activeResolver = none
  | .code => cx.inCode = true
  | .hidden => False

section
variable {resolver : Option Resolver} {p : Place} {cx : Context} (h : cx.Fits resolver p)
include h

theorem Fits.ne_hidden : p ≠ .hidden := by
  rintro rfl
  exact h

theorem Fits.of_eq {cx' : Context} (hresolver : cx'.resolver = cx.resolver)
    (hcode : cx'.inCode = cx.inCode) : cx'.Fits resolver p := by
  have hactive : cx'.activeResolver = cx.activeResolver := by
    rw [activeResolver, activeResolver, hresolver, hcode]
  cases p with
  | body | label => exact hactive.trans h
  | code => exact hcode.trans h
  | hidden => exact h

theorem Fits.unlinked : cx.unlinked.Fits none p := by
  cases p with
  | body | label => exact cx.activeResolver_unlinked
  | code | hidden => exact h

theorem Fits.of_active {r : Resolver} (hactive : cx.activeResolver = some r) :
    p = .body ∧ resolver = some r := by
  cases p with
  | body => exact ⟨rfl, h.symm.trans hactive⟩
  | label => cases hactive.symm.trans h
  | code => cases hactive.symm.trans (activeResolver_of_inCode h)
  | hidden => exact h.elim

end

end Context

/-! ## Elements that differ in attributes -/

/-- A test that drops only what is not shown where no links are made: targets of references, and
addresses of links in code. -/
def KeepsShown (keep : Place → String → String → Bool) : Prop :=
  ∀ p tag name, keep p tag name = false → tag = "ref" ∨ tag = "ulink" ∧ (p = .code ∨ p = .hidden)

namespace Rule

/-- Two elements are the same to a rule. Of references only the content counts, and so it does
of links in code. -/
structure Alike (rule : Rule) (cx : Context) (el el' : Node) : Prop where
  text : el.textContent = el'.textContent
  dashes : rowDashes (el.elements "entry") = rowDashes (el'.elements "entry")
  attr : rule ≠ reference → (rule = link → cx.inCode = false) →
    ∀ name default, el.attr name default = el'.attr name default

theorem rowDashes_keepAttrs {keep : Place → String → String → Bool} {p : Place}
    {cells : List Node} (h : ∀ c ∈ cells, keep p c.tag "thead" = true) :
    rowDashes (cells.map (Node.keepAttrs keep p)) = rowDashes cells := by
  cases cells with
  | nil => rfl
  | cons c cs =>
    rw [List.map_cons, rowDashes, rowDashes, ← List.map_cons, List.map_map,
      Node.attr_keepAttrs keep p (h c List.mem_cons_self)]
    rfl

theorem ofTag?_ref : ofTag? "ref" = some reference := by decide

theorem ofTag?_ulink : ofTag? "ulink" = some link := by decide

theorem tag_of_reference {tag : String} (h : ofTag? tag = some reference) : tag = "ref" := by
  simpa [table, content] using mem_table h

theorem alike_keepAttrs {keep : Place → String → String → Bool} (hkeep : KeepsShown keep)
    {rule : Rule} {n : Node} (hrule : ofTag? n.tag = some rule) {resolver : Option Resolver}
    {p : Place} {cx : Context} (hcx : cx.Fits resolver p) :
    Alike rule cx n (n.keepAttrs keep p) where
  text := (n.textContent_keepAttrs keep p).symm
  dashes := by
    rw [n.elements_keepAttrs, rowDashes_keepAttrs fun c hc => ?_]
    have htag : c.tag = "entry" := of_decide_eq_true (List.mem_filter.1 hc).2
    rw [← Bool.not_eq_false, htag]
    intro hdrop
    rcases hkeep _ _ _ hdrop with h | ⟨h, -⟩
    · exact absurd h (by decide)
    · exact absurd h (by decide)
  attr hreference hlink name default := by
    refine (n.attr_keepAttrs keep p ?_ default).symm
    rw [← Bool.not_eq_false]
    intro hdrop
    rcases hkeep _ _ _ hdrop with htag | ⟨htag, hp⟩
    · rw [htag, ofTag?_ref] at hrule
      exact hreference (Option.some.inj hrule).symm
    · rw [htag, ofTag?_ulink] at hrule
      have hcode := hlink (Option.some.inj hrule).symm
      rcases hp with rfl | rfl
      · exact absurd (hcode.symm.trans hcx) (by decide)
      · exact hcx

section
variable {rule : Rule} {el el' : Node} {content content' : Content} {resolver : Option Resolver}
  {p : Place} {cx : Context}

theorem apart_congr (cx : Context)
    (h : ∀ out, content cx.apart out = content' cx.apart.unlinked out) (out : Output) :
    apart content cx out = apart content' cx.unlinked out := by
  unfold apart
  simp only
  rw [h]
  rfl

/-- Where no links are made a rule needs no resolver and no target. -/
theorem render_congr (hel : Alike rule cx el el') (hcx : cx.Fits resolver p)
    (href : rule = reference → cx.activeResolver = none)
    (hcontent : ∀ cx out, cx.Fits resolver (rule.inner p) →
      content cx out = content' cx.unlinked out) (index : Nat) (out : Output) :
    rule.render el content cx index out = rule.render el' content' cx.unlinked index out := by
  cases rule with
  | literal text | nothing => rfl
  | wrap before after => exact congrArg (Output.write after) (hcontent cx _ hcx)
  | code before after =>
    exact congrArg (Output.write after) (hcontent { cx with inCode := true } _ rfl)
  | para => exact hcontent cx _ hcx
  | list numbered => exact hcontent _ _ (hcx.of_eq rfl rfl)
  | item => exact hcontent _ _ (hcx.of_eq rfl rfl)
  | parameters =>
    unfold render
    simp only
    rw [hel.attr nofun nofun, hcontent cx _ hcx]
  | listing =>
    unfold render
    simp only
    rw [hel.attr nofun nofun, hcontent { cx with inCode := true } _ rfl]
    rfl
  | verbatim =>
    unfold render
    rw [hel.text]
  | note =>
    unfold render
    simp only
    rw [hel.attr nofun nofun]
    split
    · exact hcontent cx _ hcx
    · exact hcontent cx _ hcx
  | formula =>
    unfold render
    rw [hel.text]
  | subsection level => exact hcontent _ _ (hcx.of_eq rfl rfl)
  | title =>
    unfold render Node.strippedText
    rw [hel.text]
    rfl
  | heading =>
    unfold render
    simp only
    rw [hel.attr nofun nofun, hcontent cx _ hcx]
  | link =>
    unfold render
    simp only
    rw [apart_congr cx (fun out => hcontent cx.apart out (hcx.of_eq rfl rfl)), cx.inCode_unlinked]
    split
    · rfl
    · rename_i hcode
      rw [hel.attr nofun fun _ => eq_false_of_ne_true hcode]
  | reference =>
    unfold render renderReference
    simp only
    rw [href rfl, cx.activeResolver_unlinked,
      apart_congr {} (fun out => hcontent {} out rfl)]
    rfl
  | row =>
    unfold render
    simp only
    rw [hel.dashes, apart_congr cx (fun out => hcontent cx.apart out (hcx.of_eq rfl rfl))]
  | cell =>
    unfold render
    simp only
    rw [apart_congr cx (fun out => hcontent cx.apart out (hcx.of_eq rfl rfl))]

end

end Rule

/-! ## Along the tree -/

theorem Node.textFragment_unlinked {resolver : Option Resolver} {p : Place} {cx : Context}
    {s : String} (hcx : cx.Fits resolver p) (h : Linkless resolver [(p, .text s)]) :
    textFragment cx s = textFragment cx.unlinked s := by
  unfold textFragment
  rw [cx.activeResolver_unlinked]
  split
  · rfl
  · rename_i hblank
    cases hactive : cx.activeResolver with
    | none => rfl
    | some r =>
      obtain ⟨rfl, hresolver⟩ := hcx.of_active hactive
      have hlinks := h r hresolver _ List.mem_cons_self rfl
      have happly : r.linker.apply s.toList = s.toList := by
        simpa [Resolver.links, hblank] using hlinks
      simp only
      rw [onChars, happly, String.ofList_toList]

section
variable {keep : Place → String → String → Bool} {resolver : Option Resolver}

mutual

/-- Without links a rendering depends neither on the resolver nor on attributes that are not
shown. -/
theorem Node.render_keepAttrs (hkeep : KeepsShown keep) {p : Place} {cx : Context}
    (hcx : cx.Fits resolver p) (index : Nat) :
    ∀ (n : Node) (out : Output), Linkless resolver (n.placed p) →
      n.render cx index out = (n.keepAttrs keep p).render cx.unlinked index out
  | .text s, out, h => by
    rw [Node.keepAttrs, Node.render, Node.render, Node.textFragment_unlinked hcx h]
  | .element tag attrs children, out, h => by
    rw [Node.placed] at h
    have hbelow : Linkless resolver (Node.placedAll (p.below tag) children) :=
      h.mono (List.subset_cons_self ..)
    rw [Node.keepAttrs, Node.render, Node.render]
    cases hrule : Rule.ofTag? tag with
    | none =>
      simp only
      rw [Place.below_of_none hrule] at hbelow ⊢
      exact renderAll_keepAttrs hkeep hcx 0 children _ hbelow
    | some rule =>
      simp only
      have hplace := Place.below_of_rule hcx.ne_hidden hrule
      refine Rule.render_congr (Rule.alike_keepAttrs hkeep (n := .element tag attrs children)
        hrule hcx) hcx (fun href => ?_) (fun cx out hcx => ?_) index out
      · -- with a resolver a reference in running text would be linked
        cases hactive : cx.activeResolver with
        | none => rfl
        | some r =>
          obtain ⟨rfl, hresolver⟩ := hcx.of_active hactive
          have hlinks := h r hresolver _ List.mem_cons_self rfl
          rw [href] at hrule
          simp [Resolver.links, Rule.tag_of_reference hrule] at hlinks
      · rw [hplace] at hbelow ⊢
        exact renderAll_keepAttrs hkeep hcx 0 children out hbelow

theorem renderAll_keepAttrs (hkeep : KeepsShown keep) {p : Place} {cx : Context}
    (hcx : cx.Fits resolver p) (index : Nat) :
    ∀ (ns : List Node) (out : Output), Linkless resolver (Node.placedAll p ns) →
      renderAll cx index ns out = renderAll cx.unlinked index (Node.keepAttrsAll keep p ns) out
  | [], out, _ => by
    rw [Node.keepAttrsAll, renderAll, renderAll]
  | n :: ns, out, h => by
    rw [Node.placedAll] at h
    have hn := h.mono (List.subset_append_left ..)
    have hns := h.mono (List.subset_append_right ..)
    rw [Node.keepAttrsAll, renderAll, renderAll, Node.isVisible_keepAttrs]
    split
    · rw [n.render_keepAttrs hkeep hcx index out hn]
      exact renderAll_keepAttrs hkeep hcx (index + 1) ns _ hns
    · exact renderAll_keepAttrs hkeep hcx index ns out hns

end

theorem renderAll_unlinked {p : Place} {cx : Context} (hcx : cx.Fits resolver p) (index : Nat)
    (ns : List Node) (out : Output) (h : Linkless resolver (Node.placedAll p ns)) :
    renderAll cx index ns out = renderAll cx.unlinked index ns out := by
  have hkeep : KeepsShown fun _ _ _ => true := nofun
  rw [renderAll_keepAttrs hkeep hcx index ns out h,
    renderAll_keepAttrs hkeep hcx.unlinked index ns out (linkless_none _)]
  rfl

end

/-! ## Code -/

def codeTags : List String :=
  ["computeroutput", "parametername", "programlisting", "preformatted", "verbatim"]

namespace Rule

def isCode : Rule → Bool
  | code .. | listing | verbatim => true
  | _ => false

theorem isCode_of_mem : ∀ tag ∈ codeTags, (ofTag? tag).map isCode = some true := by decide

theorem render_of_isCode {rule : Rule} (h : rule.isCode = true) (el : Node) (content : Content)
    (cx : Context) (index : Nat) (out : Output) :
    rule.render el content cx index out =
      rule.render el content { cx with inCode := true } index out := by
  cases rule with
  | code before after | listing | verbatim => rfl
  | _ => cases h

end Rule

namespace Node

theorem render_code {n : Node} (hn : n.tag ∈ codeTags) (cx : Context) (index : Nat)
    (out : Output) : n.render cx index out = n.render { cx with inCode := true } index out := by
  cases n with
  | text s => exact absurd (show "" ∈ codeTags from hn) (by decide)
  | element tag attrs children =>
    obtain ⟨rule, hrule, hcode⟩ := Option.map_eq_some_iff.1 (Rule.isCode_of_mem tag hn)
    rw [render, render, hrule]
    exact Rule.render_of_isCode hcode ..

/-- Elements whose content is code are rendered alike, with or without a resolver, if they agree
on what is shown. -/
theorem toMarkdown_congr_code {keep : Place → String → String → Bool} (hkeep : KeepsShown keep)
    {n m : Node} (hn : n.tag ∈ codeTags) (h : n.keepAttrs keep .code = m.keepAttrs keep .code)
    (r₁ r₂ : Option Resolver) : n.toMarkdown r₁ = m.toMarkdown r₂ := by
  have hm : m.tag ∈ codeTags := by
    rwa [← m.tag_keepAttrs keep .code, ← h, n.tag_keepAttrs]
  have hrender {k : Node} (hk : k.tag ∈ codeTags) (r : Option Resolver) :
      k.render { resolver := r } 0 {} =
        (k.keepAttrs keep .code).render { inCode := true } 0 {} := by
    have hcx : Context.Fits none .code { resolver := r, inCode := true } := rfl
    rw [render_code hk]
    exact render_keepAttrs hkeep hcx 0 k {} (linkless_none _)
  simp only [toMarkdown, Description.toMarkdown, Description.render, hrender hn, hrender hm, h]

/-! ### Targets of references -/

def withoutTargets (n : Node) : Node :=
  n.keepAttrs (fun _ tag name => !(tag == "ref" && (name == "refid" || name == "kindref"))) .code

/-- An element whose content is code has one rendering: without reports on references, with any
resolver or none, and with any targets of the references in it. -/
theorem toMarkdown_code {n m : Node} (hn : n.tag ∈ codeTags)
    (h : n.withoutTargets = m.withoutTargets) (r₁ r₂ : Option Resolver) :
    n.toMarkdown r₁ = m.toMarkdown r₂ ∧ ∀ e ∈ (n.toMarkdown r₁).log, e.isReference = false := by
  have hkeep : KeepsShown fun _ tag name =>
      !(tag == "ref" && (name == "refid" || name == "kindref")) := by
    intro p tag name hdrop
    simp only [Bool.not_eq_false', Bool.and_eq_true, beq_iff_eq] at hdrop
    exact .inl hdrop.1
  refine ⟨toMarkdown_congr_code hkeep hn h r₁ r₂, ?_⟩
  rw [toMarkdown_congr_code hkeep hn rfl r₁ none]
  exact (Description.node n).reports_toMarkdown
    ⟨fun _ => rfl, fun _ => rfl, fun hne => absurd rfl hne, fun hne => absurd rfl hne⟩

def sampleCode (target url : String) : Node :=
  element "computeroutput" [] [
    element "ref" [("refid", target), ("kindref", "compound")] [text "std::map"],
    element "table" [] [element "row" [] [element "entry" [] [
      element "ulink" [("url", url)] [text "site"]]]]]

theorem toMarkdown_code_sample :
    let r : Resolver := { linker := ⟨.cppReference, {}⟩, compound? := fun _ => some "page" }
    let n := sampleCode "map" "https://example.org"
    let m := sampleCode "set" "https://example.org"
    n.tag ∈ codeTags ∧ n.withoutTargets = m.withoutTargets ∧
      n.toMarkdown (some r) = m.toMarkdown none ∧
      ∀ e ∈ (n.toMarkdown (some r)).log, e.isReference = false := by
  intro r n m
  have hn : n.tag ∈ codeTags := by decide
  have h : n.withoutTargets = m.withoutTargets := rfl
  exact ⟨hn, h, toMarkdown_code hn h (some r) none⟩

/-! ### Addresses of links -/

def withoutUrls (n : Node) : Node :=
  n.keepAttrs (fun _ tag name => !(tag == "ulink" && name == "url")) .code

/-- The element without the addresses of the links in it, except for those in labels of
references. -/
def withoutCodeUrls (n : Node) : Node :=
  n.keepAttrs (fun p tag name =>
    !((p == .code || p == .hidden) && tag == "ulink" && name == "url")) .code

/-- Outside the labels of references links in code show no addresses. -/
theorem toMarkdown_code_urls {n m : Node} (hn : n.tag ∈ codeTags)
    (h : n.withoutCodeUrls = m.withoutCodeUrls) (r : Option Resolver) :
    n.toMarkdown r = m.toMarkdown r := by
  refine toMarkdown_congr_code (fun p tag name hdrop => .inr ?_) hn h r r
  simp only [Bool.not_eq_false', Bool.and_eq_true, Bool.or_eq_true, beq_iff_eq] at hdrop
  exact ⟨hdrop.1.2, hdrop.1.1⟩

theorem toMarkdown_code_urls_sample :
    let n := sampleCode "map" "https://example.org"
    let m := sampleCode "map" "https://example.net"
    n.tag ∈ codeTags ∧ n.withoutCodeUrls = m.withoutCodeUrls ∧
      n.toMarkdown none = m.toMarkdown none := by
  intro n m
  have hn : n.tag ∈ codeTags := by decide
  have h : n.withoutCodeUrls = m.withoutCodeUrls := rfl
  exact ⟨hn, h, toMarkdown_code_urls hn h none⟩

def sampleLabel (url : String) : Node :=
  element "computeroutput" [] [
    element "ref" [("refid", "site"), ("kindref", "compound")] [
      element "ulink" [("url", url)] [text "site"]]]

/-- A link in the label of a reference shows its address in code, too. -/
theorem not_toMarkdown_code_urls : ¬ ∀ (n m : Node) (r : Option Resolver),
    n.tag ∈ ["computeroutput", "parametername", "programlisting", "preformatted"] →
    n.withoutUrls = m.withoutUrls → (n.toMarkdown r).value = (m.toMarkdown r).value := by
  intro h
  have hshown := h (sampleLabel "https://example.org") (sampleLabel "https://example.net") none
    (by decide) rfl
  revert hshown
  decide +kernel

end Node

end DoxPages
