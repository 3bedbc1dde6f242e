import DoxPages.Proofs.Description.Behind
import DoxPages.Proofs.Description.Sheets

/-!
# What a rendering leaves alone

A node is written at the end of the top sheet: the lists and sections around, the indentation
and the sheets below are there as before, and the output has only grown. A heading takes back a
space that stands in front of it, but puts another one in its place, so that however many
headings follow one another only one space of what was there before can be gone (`Grown.trans`).
Content that is written on a sheet of its own does not touch the one below.
-/

namespace DoxPages

open Output

namespace Output

/-- The second output, newest first, is the first one with fragments behind it, or with
fragments in place of a single space at its end. -/
def Grown (before after : List String) : Prop :=
  (∃ new, after = new ++ before) ∨
    ∃ rest new, before = " " :: rest ∧ new ≠ [] ∧ after = new ++ rest

variable {a b c fs : List String} {o p : Output}

theorem Grown.refl (a : List String) : Grown a a := .inl ⟨[], rfl⟩

theorem Grown.trans (hab : Grown a b) (hbc : Grown b c) : Grown a c := by
  obtain ⟨new', rfl⟩ | ⟨rest', new', hb, hne', rfl⟩ := hbc
  · obtain ⟨new, rfl⟩ | ⟨rest, new, rfl, hne, rfl⟩ := hab
    · exact .inl ⟨new' ++ new, (List.append_assoc ..).symm⟩
    · exact .inr ⟨rest, new' ++ new, rfl, List.append_ne_nil_of_right_ne_nil _ hne,
        (List.append_assoc ..).symm⟩
  · -- the space that is taken back may be new itself
    obtain ⟨new, rfl⟩ | ⟨rest, new, rfl, hne, rfl⟩ := hab
    · cases new with
      | nil => exact .inr ⟨rest', new', hb, hne', rfl⟩
      | cons s new =>
        obtain ⟨-, rfl⟩ := List.cons.inj hb
        exact .inl ⟨new' ++ new, (List.append_assoc ..).symm⟩
    · cases new with
      | nil => exact absurd rfl hne
      | cons s new =>
        obtain ⟨-, rfl⟩ := List.cons.inj hb
        exact .inr ⟨rest, new' ++ new, rfl, List.append_ne_nil_of_left_ne_nil hne' _,
          (List.append_assoc ..).symm⟩

def added (s : String) : List String := if s = "" then [] else [s]

theorem fragments_write (s : String) (o : Output) :
    (o.write s).fragments = added s ++ o.fragments := by
  unfold write added
  split <;> rfl

theorem Grown.write (h : Grown fs o.fragments) (s : String) : Grown fs (o.write s).fragments :=
  h.trans (.inl ⟨added s, fragments_write s o⟩)

theorem Grown.ite (c : Prop) [Decidable c] (ho : Grown fs o.fragments)
    (hp : Grown fs p.fragments) : Grown fs (if c then o else p).fragments := by
  split
  · exact ho
  · exact hp

theorem Grown.heading (h : Grown fs o.fragments) (ok : Bool) (s : String) :
    Grown fs (((o.dropSpace.stopUnless ok).write s).write " ").fragments := by
  have hspace : added " " = [" "] := rfl
  refine h.trans ?_
  rw [fragments_write, fragments_write, fragments_stopUnless, ← List.append_assoc, hspace,
    dropSpace_eq]
  split
  · rename_i hhead
    obtain ⟨rest, hrest⟩ := List.head?_eq_some_iff.1 hhead
    rw [hrest, List.tail_cons]
    exact .inr ⟨rest, _, rfl, List.cons_ne_nil _ _, rfl⟩
  · exact .inl ⟨_, rfl⟩

end Output

/-! ## One element -/

namespace Rule

def writesAside : Rule → Bool
  | link | reference | row | cell => true
  | _ => false

/-- What is written on a sheet of its own does not depend on the output, nor change it. -/
theorem exists_apart (content : Content) (cx : Context) (events : Log) (stopped : Option Log) :
    ∃ text log stop, ∀ fragments,
      apart content cx ⟨fragments, events, stopped⟩ = (text, ⟨fragments, log, stop⟩) :=
  let inner := (apart content cx { events, stopped }).2
  ⟨(apart content cx { events, stopped }).1, inner.events, inner.stopped, fun _ => rfl⟩

/-- An element whose content is written aside only adds fragments of its own, whatever has been
written before. -/
theorem exists_own {rule : Rule} (h : rule.writesAside = true) (el : Node) (content : Content)
    (cx : Context) (index : Nat) (events : Log) (stopped : Option Log) : ∃ own, ∀ fragments,
      (rule.render el content cx index ⟨fragments, events, stopped⟩).fragments =
        own ++ fragments := by
  cases rule with
  | row | cell =>
    obtain ⟨text, log, stop, happart⟩ := exists_apart content cx events stopped
    simp only [render, happart, fragments_write, ← List.append_assoc]
    exact ⟨_, fun _ => rfl⟩
  | link =>
    obtain ⟨label, log, stop, happart⟩ := exists_apart content cx events stopped
    simp only [render, happart]
    split <;>
    · simp only [fragments_write, ← List.append_assoc]
      exact ⟨_, fun _ => rfl⟩
  | reference =>
    obtain ⟨label, log, stop, happart⟩ := exists_apart content {} events stopped
    simp only [render, renderReference, happart]
    split
    · exact ⟨_, fun _ => fragments_write ..⟩
    · split
      · split <;> exact ⟨_, fun _ => fragments_write ..⟩
      · exact ⟨_, fun _ => fragments_write ..⟩
  | _ => cases h

theorem grown_render {content : Content}
    (hc : ∀ cx out, Grown out.fragments (content cx out).fragments) (rule : Rule) (el : Node)
    (cx : Context) (index : Nat) (out : Output) :
    Grown out.fragments (rule.render el content cx index out).fragments := by
  by_cases haside : rule.writesAside = true
  · obtain ⟨own, hown⟩ := exists_own haside el content cx index out.events out.stopped
    exact .inl ⟨own, hown out.fragments⟩
  have hstart := Grown.refl out.fragments
  have hcontent (cx : Context) {o : Output} (h : Grown out.fragments o.fragments) :
      Grown out.fragments (content cx o).fragments := h.trans (hc cx o)
  cases rule with
  | nothing => exact hstart
  | literal => exact hstart.write _
  | formula =>
    simp only [render]
    exact hstart.write _
  | verbatim | title =>
    simp only [render]
    exact ((hstart.write _).write _).write _
  | wrap | code | parameters | listing =>
    simp only [render]
    exact (hcontent _ (hstart.write _)).write _
  | para =>
    simp only [render]
    exact hcontent _ (.ite _ hstart ((hstart.write _).write _))
  | list | subsection =>
    simp only [render]
    exact hcontent _ (.ite _ hstart (hstart.write _))
  | item =>
    simp only [render]
    exact hcontent _ (((Grown.ite _ hstart (hstart.write _)).write _).write _)
  | note =>
    simp only [render]
    split
    · exact hcontent _ (hstart.write _)
    · exact hcontent _ hstart
  | heading =>
    simp only [render]
    exact hcontent _ (hstart.heading ..)
  | link | reference | row | cell => exact absurd rfl haside

end Rule

/-! ## Along the tree -/

mutual

theorem Node.grown_render (cx : Context) (index : Nat) :
    ∀ (n : Node) (out : Output), Grown out.fragments (n.render cx index out).fragments
  | .text s, out => by
    rw [Node.render]
    exact (Grown.refl _).write _
  | .element tag attrs children, out => by
    rw [Node.render]
    split
    · exact Rule.grown_render (fun cx out => grown_renderAll cx 0 children out) ..
    · exact grown_renderAll cx 0 children _

theorem grown_renderAll (cx : Context) (index : Nat) :
    ∀ (ns : List Node) (out : Output), Grown out.fragments (renderAll cx index ns out).fragments
  | [], out => by
    rw [renderAll]
    exact .refl _
  | n :: ns, out => by
    rw [renderAll]
    split
    · exact (n.grown_render cx index out).trans (grown_renderAll cx (index + 1) ns _)
    · exact grown_renderAll cx index ns out

end

example : ((Node.element "heading" [("level", "2")] [.text "x"]).render {} 0
    { fragments := [" ", "a"] }).fragments = ["x", " ", "##", "a"] := by
  cbv

def asideTags : List String := ["row", "entry", "ulink", "ref"]

theorem Rule.exists_writesAside {tag : String} (h : tag ∈ asideTags) :
    ∃ rule, Rule.ofTag? tag = some rule ∧ rule.writesAside = true := by
  revert tag
  decide

/-- Writing a node leaves the lists and sections around, the indentation, the code flag and the
sheets below as they were; what is written is the rendering, and the output has only grown. Of
rows, cells, links and references the content is written on a new sheet, under which the output
stays as it is while the content is written, child by child; then something is put behind it
that does not depend on it. -/
theorem Node.run_local (n : Node) (index : Nat) (m : Pile) :
    (n.run index m).top.frames = m.top.frames ∧ (n.run index m).top.indent = m.top.indent ∧
    (n.run index m).top.inCode = m.top.inCode ∧ (n.run index m).below = m.below ∧
    (n.run index m).output = n.render m.context index m.output ∧
    Grown m.top.fragments (n.run index m).top.fragments ∧
    ∀ tag attrs children, n = .element tag attrs children → tag ∈ asideTags →
      (∀ resolver inCode before behind, children = before ++ behind →
        (runAll 0 before (m.opened resolver inCode)).below = m.top :: m.below) ∧
      ∃ own, ∀ fragments, (n.run index { m with top := { m.top with fragments } }).top.fragments =
        own ++ fragments := by
  rw [n.run_eq_render]
  refine ⟨rfl, rfl, rfl, rfl, rfl, n.grown_render m.context index m.output, ?_⟩
  rintro tag attrs children rfl htag
  refine ⟨fun resolver inCode before behind _ => ?_, ?_⟩
  · rw [runAll_eq_renderAll]
    rfl
  · obtain ⟨rule, hrule, haside⟩ := Rule.exists_writesAside htag
    obtain ⟨own, hown⟩ := Rule.exists_own haside (.element tag attrs children)
      (fun cx out => renderAll cx 0 children out) m.context index m.log m.stopped
    refine ⟨own, fun fragments => ?_⟩
    rw [Node.run_eq_render]
    simp only [Node.render, hrule]
    exact hown fragments

/-- A heading in a cell takes nothing back of what stands before the row. -/
theorem Node.run_local_headedRow :
    let children := [element "entry" [] [element "heading" [("level", "2")] [text "x"]]]
    let m : Pile := { top := { frames := [.list true], indent := 3, fragments := [" ", "a"] } }
    ((element "row" [] children).run 1 m).top.frames = [.list true] ∧
    ((element "row" [] children).run 1 m).top.indent = 3 ∧
    Grown [" ", "a"] ((element "row" [] children).run 1 m).top.fragments ∧
    (runAll 0 children (m.opened none false)).below = [m.top] ∧
    ∃ own, ((element "row" [] children).run 1 m).top.fragments = own ++ [" ", "a"] := by
  intro children m
  obtain ⟨hframes, hindent, -, -, -, hgrown, haside⟩ :=
    Node.run_local (element "row" [] children) 1 m
  obtain ⟨hbelow, own, hown⟩ := haside "row" [] children rfl (by decide)
  exact ⟨hframes, hindent, hgrown, hbelow none false children [] (List.append_nil _).symm, own,
    hown [" ", "a"]⟩

end DoxPages
