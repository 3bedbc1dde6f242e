import DoxPages.Proofs.Description.Behind
import DoxPages.Proofs.Description.Suppression
import DoxPages.Proofs.Links.Edits

/-!
# Links in the labels of links

A link in running text renders its content with the resolver of the text around it, so
there can be links in its label. `Node.render_link` says when there are none: only if
nothing in the label is linked is it the label without a resolver. For what is linked
is written between backticks, and nothing takes a backtick back, so the two renderings
differ in their number.
-/

namespace DoxPages

open Text

/-! ## Counting backticks -/

namespace Text

def ticks (cs : List Char) : Nat := cs.count '`'

@[simp] theorem ticks_append (cs ds : List Char) : ticks (cs ++ ds) = ticks cs + ticks ds :=
  List.count_append

theorem ticks_ink (cs : List Char) : ticks (ink cs) = ticks cs :=
  List.count_filter (by decide)

theorem ticks_congr {cs ds : List Char} (h : ink cs = ink ds) : ticks cs = ticks ds := by
  rw [← ticks_ink cs, h, ticks_ink]

theorem ticks_strip (cs : List Char) : ticks (strip cs) = ticks cs := ticks_congr (ink_strip cs)

theorem ticks_replaceChar {old : Char} {new : List Char} (hold : old ≠ '`') (hnew : ticks new = 0)
    (cs : List Char) : ticks (replaceChar old new cs) = ticks cs := by
  induction cs with
  | nil => rfl
  | cons c cs ih =>
    have hcons : ticks (c :: cs) = ticks [c] + ticks cs := ticks_append [c] cs
    rw [replaceChar_cons, ticks_append, ih, hcons]
    split
    · rename_i hc
      have hcount : ticks [c] = 0 := by simpa [ticks, List.count_eq_zero, hc, eq_comm] using hold
      rw [hnew, hcount]
    · rfl

end Text

theorem ticks_escapeCell (cs : List Char) : ticks (escapeCell cs) = ticks cs := by
  unfold escapeCell
  rw [ticks_replaceChar (by decide) (by decide), ticks_replaceChar (by decide) (by decide)]
  exact ticks_congr (ink_trim_lines cs)

theorem ticks_trimRow (cs : List Char) : ticks (trimRow cs) = ticks cs := by
  rw [← ticks_ink cs]
  rcases ink_trimRow cs with hink | hink <;> rw [hink]
  · exact (ticks_ink _).symm
  · have hbar : ticks ['|'] = 0 := by decide
    rw [ticks_append, ticks_ink, hbar, Nat.add_zero]

theorem ticks_codeLink (label target : String) :
    ticks label.toList + 2 ≤ ticks (codeLink label target).toList := by
  have hopen : ticks "[`".toList = 1 := by decide
  have hclose : ticks "`](".toList = 1 := by decide
  simp only [codeLink, String.toList_append, ticks_append, hopen, hclose]
  omega

/-! ### The linker -/

theorem Mark.ticks_shown (m : Mark) : ticks m.shown + 2 ≤ ticks m.written := by
  cases m with
  | link label url => simpa [shown, written] using ticks_codeLink (String.ofList label) url
  | code text =>
    rw [shown, written, ← List.singleton_append, ticks_append, ticks_append]
    have htick : ticks ['`'] = 1 := by decide
    omega

theorem Mark.ticks_flatMap_shown (ms : List Mark) :
    ticks (ms.flatMap shown) ≤ ticks (ms.flatMap written) := by
  induction ms with
  | nil => exact Nat.le_refl _
  | cons m ms ih =>
    have hm := m.ticks_shown
    rw [List.flatMap_cons, List.flatMap_cons, ticks_append, ticks_append]
    omega

/-- A part stays as it is or gets more backticks. -/
theorem Part.ticks_shown (p : Part) : p.written = p.shown ∨ ticks p.shown < ticks p.written := by
  cases p with
  | plain c | guard cs => exact .inl rfl
  | edit label url more =>
    have hlabel := (Mark.link label url).ticks_shown
    have hmore := Mark.ticks_flatMap_shown more
    rw [Mark.shown] at hlabel
    rw [shown, written, ticks_append, ticks_append]
    omega

theorem Part.ticks_flatMap_shown (ps : List Part) :
    ps.flatMap written = ps.flatMap shown ∨
      ticks (ps.flatMap shown) < ticks (ps.flatMap written) := by
  induction ps with
  | nil => exact .inl rfl
  | cons p ps ih =>
    rw [List.flatMap_cons, List.flatMap_cons, ticks_append, ticks_append]
    rcases p.ticks_shown with hp | hp <;> rcases ih with hps | hps
    · rw [hp, hps]
      exact .inl rfl
    · rw [hp]
      omega
    · rw [hps]
      omega
    · omega

theorem Linker.apply_eq_or_ticks_lt (l : Linker) (cs : List Char) :
    l.apply cs = cs ∨ ticks cs < ticks (l.apply cs) := by
  have h := Part.ticks_flatMap_shown (l.parts cs)
  rwa [l.written_parts, l.shown_parts] at h

/-! ## Two renderings side by side -/

namespace Output

def ticks (o : Output) : Nat := Text.ticks o.text.toList

@[simp] theorem ticks_write (s : String) (o : Output) :
    (o.write s).ticks = o.ticks + Text.ticks s.toList := by
  simp [ticks]

@[simp] theorem ticks_dropSpace (o : Output) : o.dropSpace.ticks = o.ticks :=
  ticks_congr o.ink_dropSpace

/-- The first output has at least `d` more backticks than the second. -/
def Ahead (d : Nat) (o p : Output) : Prop := p.ticks + d ≤ o.ticks

namespace Ahead

variable {d k : Nat} {o p : Output}

theorem write_both (h : Ahead d o p) {s t : String}
    (hs : Text.ticks t.toList + k ≤ Text.ticks s.toList) :
    Ahead (d + k) (o.write s) (p.write t) := by
  unfold Ahead at *
  rw [ticks_write, ticks_write]
  omega

theorem write_onChars {f : List Char → List Char} (hf : ∀ cs, Text.ticks (f cs) = Text.ticks cs)
    (h : Ahead d o p) {s t : String} (hs : Text.ticks t.toList + k ≤ Text.ticks s.toList) :
    Ahead (d + k) (o.write (onChars f s)) (p.write (onChars f t)) :=
  h.write_both (by rwa [toList_onChars, toList_onChars, hf, hf])

theorem write (h : Ahead d o p) (s : String) : Ahead d (o.write s) (p.write s) :=
  h.write_both (k := 0) (Nat.le_refl _)

theorem report (h : Ahead d o p) (e : Event) : Ahead d (o.report e) p := h

theorem report_both (h : Ahead d o p) (e f : Event) : Ahead d (o.report e) (p.report f) := h

theorem dropSpace (h : Ahead d o p) : Ahead d o.dropSpace p.dropSpace := by
  unfold Ahead at *
  rwa [ticks_dropSpace, ticks_dropSpace]

theorem stopUnless (h : Ahead d o p) (ok : Bool) : Ahead d (o.stopUnless ok) (p.stopUnless ok) := by
  rwa [Ahead, Output.ticks, text_stopUnless, Output.ticks, text_stopUnless]

theorem ite (h : Ahead d o p) {c : Prop} [Decidable c] (s : String) :
    Ahead d (if c then o else o.write s) (if c then p else p.write s) := by
  split
  · exact h
  · exact h.write s

end Ahead

end Output

open Output

def Resolver.linkCount (r : Resolver) (nodes : List (Place × Node)) : Nat :=
  nodes.countP fun q => q.1 == .body && r.links q.2

theorem linkless_of_linkCount {r : Resolver} {nodes : List (Place × Node)}
    (h : r.linkCount nodes = 0) : Linkless (some r) nodes := by
  rintro r' hr q hq hbody
  cases hr
  have hnot := List.countP_eq_zero.1 h q hq
  simpa [hbody] using hnot

theorem Context.Fits.ne_body {r : Resolver} {p : Place} {cx : Context} (h : cx.Fits (some r) p)
    (hinactive : cx.activeResolver = none) : p ≠ .body := by
  rintro rfl
  cases h.symm.trans hinactive

theorem Node.linkCount_textFragment {r : Resolver} {p : Place} {cx : Context}
    (hcx : cx.Fits (some r) p) (s : String) :
    Text.ticks (textFragment cx.unlinked s).toList + r.linkCount [(p, .text s)] ≤
      Text.ticks (textFragment cx s).toList := by
  unfold textFragment
  rw [cx.activeResolver_unlinked]
  split
  · rename_i hblank
    simp [Resolver.linkCount, Resolver.links, hblank]
  · cases hactive : cx.activeResolver with
    | none =>
      have hp := hcx.ne_body hactive
      simp [Resolver.linkCount, hp]
    | some r' =>
      obtain ⟨rfl, hr⟩ := hcx.of_active hactive
      cases hr
      simp only
      rw [toList_onChars]
      rcases r.linker.apply_eq_or_ticks_lt s.toList with heq | hlt
      · simp [Resolver.linkCount, Resolver.links, heq]
      · have hle : r.linkCount [(.body, .text s)] ≤ 1 := List.countP_le_length
        omega

namespace Rule

/-- The content is rendered with `k` backticks more than without a resolver. -/
def Gains (r : Resolver) (p : Place) (k : Nat) (content content' : Content) : Prop :=
  ∀ (cx : Context) (d : Nat) (out out' : Output), cx.Fits (some r) p → Ahead d out out' →
    Ahead (d + k) (content cx out) (content' cx.unlinked out')

section
variable {r : Resolver} {p : Place} {content content' : Content} {k d : Nat} {cx : Context}
  {out out' : Output}

theorem Gains.apart (hc : Gains r p k content content') (cx : Context)
    (hcx : cx.apart.Fits (some r) p) (h : Ahead d out out') :
    Ahead d (apart content cx out).2 (apart content' cx.unlinked out').2 ∧
      Text.ticks (apart content' cx.unlinked out').1.toList + k ≤
        Text.ticks (apart content cx out).1.toList := by
  have hlabel : Ahead (0 + k) (content cx.apart { out with fragments := [] })
      (content' cx.apart.unlinked { out' with fragments := [] }) := hc _ 0 _ _ hcx (Nat.le_refl 0)
  refine ⟨h, ?_⟩
  unfold Rule.apart
  simp only [toList_onChars, ticks_strip]
  rwa [Ahead, Nat.zero_add] at hlabel

theorem ahead_renderReference (hc : Gains r .label k content content') (el : Node)
    (hcx : cx.Fits (some r) p) (h : Ahead d out out') :
    Ahead (d + ((if p = .body then 1 else 0) + k)) (renderReference el content cx out)
      (renderReference el content' cx.unlinked out') := by
  obtain ⟨hrest, hlabel⟩ := hc.apart {} rfl h
  change Text.ticks (apart content' {} out').1.toList + k ≤ _ at hlabel
  unfold renderReference
  simp only
  rw [cx.activeResolver_unlinked]
  cases hactive : cx.activeResolver with
  | none =>
    rw [if_neg (hcx.ne_body hactive), Nat.zero_add]
    exact hrest.write_both hlabel
  | some r' =>
    -- resolved or not, the label is written between backticks
    rw [if_pos (hcx.of_active hactive).1]
    have hlink (target : String) : Text.ticks (apart content' {} out').1.toList + (1 + k) ≤
        Text.ticks (codeLink (apart content {} out).1 target).toList := by
      have := ticks_codeLink (apart content {} out).1 target
      omega
    have hcode : Text.ticks (apart content' {} out').1.toList + (1 + k) ≤
        Text.ticks ("`" ++ (apart content {} out).1 ++ "`").toList := by
      have htick : Text.ticks "`".toList = 1 := by decide
      simp only [String.toList_append, ticks_append]
      omega
    simp only
    split
    · split
      · exact hrest.write_both (hlink _)
      · exact (hrest.report _).write_both hcode
    · exact (hrest.report _).write_both hcode

/-- A rule other than that of references gains what its content gains. -/
theorem ahead_render {rule : Rule} (hreference : rule ≠ reference)
    (hc : Gains r (rule.inner p) k content content') (hhidden : rule.inner p = .hidden → k = 0)
    (el : Node) (hcx : cx.Fits (some r) p) (index : Nat) (h : Ahead d out out') :
    Ahead (d + k) (rule.render el content cx index out)
      (rule.render el content' cx.unlinked index out') := by
  cases rule with
  | literal text =>
    rw [hhidden rfl]
    exact h.write _
  | wrap before after => exact (hc _ _ _ _ hcx (h.write _)).write _
  | code before after => exact (hc { cx with inCode := true } _ _ _ rfl (h.write _)).write _
  | nothing =>
    rw [hhidden rfl]
    exact h
  | para =>
    refine hc _ _ _ _ hcx ?_
    split
    · exact h
    · exact (h.write _).write _
  | list numbered => exact hc _ _ _ _ (hcx.of_eq rfl rfl) (h.ite _)
  | item => exact hc _ _ _ _ (hcx.of_eq rfl rfl) (((h.ite _).write _).write _)
  | parameters => exact (hc _ _ _ _ hcx (h.write _)).write _
  | listing => exact (hc { cx with inCode := true } _ _ _ rfl (h.write _)).write _
  | verbatim =>
    rw [hhidden rfl]
    exact ((h.write _).write _).write _
  | note =>
    unfold render
    simp only
    split
    · exact hc _ _ _ _ hcx (h.write _)
    · exact hc _ _ _ _ hcx (h.report_both _ _)
  | formula =>
    rw [hhidden rfl]
    exact h.write _
  | subsection level => exact hc _ _ _ _ (hcx.of_eq rfl rfl) (h.ite _)
  | title =>
    rw [hhidden rfl]
    exact ((h.write _).write _).write _
  | heading => exact hc _ _ _ _ hcx (((h.dropSpace.stopUnless _).write _).write _)
  | link =>
    obtain ⟨hrest, hlabel⟩ := hc.apart cx (hcx.of_eq rfl rfl) h
    unfold render
    simp only
    rw [cx.inCode_unlinked]
    split
    · exact hrest.write_both hlabel
    · exact ((((hrest.write _).write_both hlabel).write _).write _).write _
  | reference => exact absurd rfl hreference
  | row =>
    obtain ⟨hrest, hlabel⟩ := hc.apart cx (hcx.of_eq rfl rfl) h
    exact ((hrest.write "\n").write_onChars ticks_trimRow hlabel).write _
  | cell =>
    obtain ⟨hrest, hlabel⟩ := hc.apart cx (hcx.of_eq rfl rfl) h
    exact (hrest.write_onChars ticks_escapeCell hlabel).write _

end

end Rule

theorem Resolver.linkCount_append (r : Resolver) (ms ns : List (Place × Node)) :
    r.linkCount (ms ++ ns) = r.linkCount ms + r.linkCount ns := List.countP_append

section
variable {r : Resolver}

mutual

theorem Node.linkCount_hidden : ∀ n : Node, r.linkCount (n.placed .hidden) = 0
  | .text s => rfl
  | .element tag attrs children => by
    have hbelow : Place.below .hidden tag = .hidden := if_pos rfl
    rw [Node.placed, hbelow, ← List.singleton_append, r.linkCount_append,
      linkCount_allHidden children]
    rfl

theorem linkCount_allHidden : ∀ ns : List Node, r.linkCount (Node.placedAll .hidden ns) = 0
  | [] => rfl
  | n :: ns => by
    rw [Node.placedAll, r.linkCount_append, n.linkCount_hidden, linkCount_allHidden ns]

end

theorem Node.linkCount_of_invisible {n : Node} (h : n.isVisible = false) (p : Place) :
    r.linkCount (n.placed p) = 0 := by
  obtain ⟨s, rfl, hblank⟩ := exists_text_of_invisible h
  simp [placed, Resolver.linkCount, Resolver.links, hblank]

theorem linkCount_element (p : Place) (tag : String) (attrs : List (String × String))
    (children : List Node) : r.linkCount [(p, .element tag attrs children)] =
      if tag = "ref" ∧ p = .body then 1 else 0 := by
  simp [Resolver.linkCount, Resolver.links, List.countP_cons, and_comm]

mutual

/-- For every node that is linked a rendering has at least one backtick more than without a
resolver. -/
theorem Node.ahead_render {p : Place} {cx : Context} (hcx : cx.Fits (some r) p) (index : Nat) :
    ∀ (n : Node) {d : Nat} {out out' : Output}, Ahead d out out' →
      Ahead (d + r.linkCount (n.placed p)) (n.render cx index out)
        (n.render cx.unlinked index out')
  | .text s, d, out, out', h => by
    rw [Node.render, Node.render, Node.placed]
    exact h.write_both (Node.linkCount_textFragment hcx s)
  | .element tag attrs children, d, out, out', h => by
    rw [Node.render, Node.render, Node.placed, ← List.singleton_append, r.linkCount_append,
      linkCount_element]
    cases hrule : Rule.ofTag? tag with
    | none =>
      have htag : tag ≠ "ref" := by
        rintro rfl
        cases hrule.symm.trans Rule.ofTag?_ref
      simp only
      rw [if_neg fun hlinked => htag hlinked.1, Nat.zero_add, Place.below_of_none hrule]
      exact renderAll_ahead hcx 0 children (h.report_both _ _)
    | some rule =>
      simp only
      have hplace := Place.below_of_rule hcx.ne_hidden hrule
      have hc : Rule.Gains r (rule.inner p) (r.linkCount (Node.placedAll (p.below tag) children))
          (fun cx out => renderAll cx 0 children out)
          fun cx out => renderAll cx 0 children out := by
        rw [hplace]
        exact fun cx d out out' hcx h => renderAll_ahead hcx 0 children h
      by_cases hreference : rule = .reference
      · subst hreference
        obtain rfl := Rule.tag_of_reference hrule
        simp only [true_and]
        exact Rule.ahead_renderReference hc _ hcx h
      · have htag : tag ≠ "ref" := by
          rintro rfl
          exact hreference (Option.some.inj (hrule.symm.trans Rule.ofTag?_ref))
        rw [if_neg fun hlinked => htag hlinked.1, Nat.zero_add]
        refine Rule.ahead_render hreference hc (fun hhidden => ?_) _ hcx index h
        rw [hplace, hhidden]
        exact linkCount_allHidden children

theorem renderAll_ahead {p : Place} {cx : Context} (hcx : cx.Fits (some r) p) (index : Nat) :
    ∀ (ns : List Node) {d : Nat} {out out' : Output}, Ahead d out out' →
      Ahead (d + r.linkCount (Node.placedAll p ns)) (renderAll cx index ns out)
        (renderAll cx.unlinked index ns out')
  | [], d, out, out', h => by
    rw [renderAll, renderAll]
    exact h
  | n :: ns, d, out, out', h => by
    rw [renderAll, renderAll, Node.placedAll, r.linkCount_append, ← Nat.add_assoc]
    split
    · exact renderAll_ahead hcx (index + 1) ns (n.ahead_render hcx index h)
    · rename_i hvisible
      rw [Node.linkCount_of_invisible (eq_false_of_ne_true hvisible), Nat.add_zero]
      exact renderAll_ahead hcx index ns h

end

end

/-! ## Labels -/

/-- Nodes in running text are rendered as without a resolver exactly if it links none of them. -/
theorem linkless_iff_toMarkdown_eq (resolver : Option Resolver) (ns : List Node) :
    Linkless resolver (Node.placedAll .body ns) ↔
      ((Description.nodes ns).toMarkdown resolver).value =
        ((Description.nodes ns).toMarkdown none).value := by
  cases resolver with
  | none => exact iff_of_true (linkless_none _) rfl
  | some r =>
    have hcx : Context.Fits (some r) .body { resolver := some r } := rfl
    simp only [Description.toMarkdown, Description.render]
    constructor
    · intro h
      rw [renderAll_unlinked hcx 0 ns {} h]
      rfl
    · -- equal texts have the same number of backticks, so none was gained
      intro h
      have hstart : Ahead 0 {} {} := Nat.le_refl _
      have hahead := renderAll_ahead hcx 0 ns hstart
      have hticks := congrArg (fun s : String => Text.ticks s.toList) h
      simp only [toList_onChars, ticks_strip] at hticks
      have hle : Text.ticks (renderAll {} 0 ns {}).text.toList + (0 + r.linkCount _) ≤
        Text.ticks (renderAll { resolver := some r } 0 ns {}).text.toList := hahead
      exact linkless_of_linkCount (by omega)

theorem Context.apart_of_not_inCode {cx : Context} (h : cx.inCode = false) :
    cx.apart = { resolver := cx.resolver } := by
  unfold apart
  rw [h]

def linkText (label url : String) : String := "[" ++ label ++ "](" ++ url ++ ")"

namespace Node

def label (resolver : Option Resolver) (n : Node) : String :=
  ((Description.nodes n.children).toMarkdown resolver).value

/-- Where no links are made a reference is its label, and this is rendered on its own: neither the
resolver nor the code around it counts. -/
theorem text_render_reference {n : Node} (hn : n.tag = "ref") {cx : Context}
    (hcx : cx.activeResolver = none) (index : Nat) (out : Output) :
    (n.render cx index out).text = out.text ++ n.label none := by
  cases n with
  | text s => exact absurd (show "" = "ref" from hn) (by decide)
  | element tag attrs children =>
    obtain rfl : tag = "ref" := hn
    have hlabel := Rule.apart_renderAll children {} out
    rw [render, Rule.ofTag?_ref]
    simp only [Rule.render, Rule.renderReference, hcx, hlabel, text_write]
    rfl

/-- A link in running text has its content as its label, rendered with the resolver of the
text. Exactly if this links nothing it is the label without a resolver. -/
theorem render_link {n : Node} (hn : n.tag = "ulink") {cx : Context} (hcx : cx.inCode = false)
    (index : Nat) (out : Output) :
    (n.render cx index out).text = out.text ++ linkText (n.label cx.resolver) (n.attr "url") ∧
      ((n.render cx index out).text = out.text ++ linkText (n.label none) (n.attr "url") ↔
        Linkless cx.resolver (placedAll .body n.children)) := by
  have htext : (n.render cx index out).text =
      out.text ++ linkText (n.label cx.resolver) (n.attr "url") := by
    cases n with
    | text s => exact absurd (show "" = "ulink" from hn) (by decide)
    | element tag attrs children =>
      obtain rfl : tag = "ulink" := hn
      have hlabel := Rule.apart_renderAll children cx out
      rw [cx.apart_of_not_inCode hcx] at hlabel
      rw [render, Rule.ofTag?_ulink]
      simp only [Rule.render, hcx, hlabel, Bool.false_eq_true, if_false, text_write, linkText,
        String.append_assoc]
      rfl
  refine ⟨htext, ?_⟩
  rw [htext, linkless_iff_toMarkdown_eq]
  simp only [linkText, String.append_assoc, String.append_right_inj, String.append_left_inj]
  rfl

def sampleLink (label : String) : Node :=
  element "ulink" [("url", "https://example.org")] [text label]

theorem render_link_sample :
    let cx : Context := { resolver := some { linker := ⟨.cppReference, {}⟩ } }
    let n := sampleLink "The site"
    n.tag = "ulink" ∧ cx.inCode = false ∧
      (n.render cx 0 {}).text =
        ({} : Output).text ++ linkText (n.label cx.resolver) (n.attr "url") ∧
      ((n.render cx 0 {}).text = ({} : Output).text ++ linkText (n.label none) (n.attr "url") ↔
        Linkless cx.resolver (placedAll .body n.children)) :=
  ⟨rfl, rfl, render_link rfl rfl 0 {}⟩

/-- A name of the standard library becomes a link in the label of a link. -/
theorem not_render_link_unlinked : ¬ ∀ (n : Node) (cx : Context) (index : Nat) (out : Output),
    n.tag = "ulink" → cx.inCode = false →
    (n.render cx index out).text = out.text ++ linkText (n.label none) (n.attr "url") := by
  intro h
  have hnested := h (sampleLink "std::string")
    { resolver := some { linker := ⟨.cppReference, {}⟩ } } 0 {} rfl rfl
  revert hnested
  decide +kernel

end Node

end DoxPages
