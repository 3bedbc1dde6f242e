import DoxPages.Description.Render

/-!
# What a rendering reports

A rendering reports elements and notes that are not supported, and references that do
not resolve. The latter are reported only where links are made, so what holds of all
these events holds of the events of a rendering.
-/

namespace DoxPages

def Event.isReference : Event → Bool
  | unknownReferenceKind .. | unresolvedReference .. => true
  | _ => false

namespace Output

@[simp] theorem events_dropSpace (o : Output) : o.dropSpace.events = o.events := by
  unfold dropSpace
  split <;> rfl

def Reports (P : Event → Prop) (o : Output) : Prop := ∀ e ∈ o.events, P e

variable {P : Event → Prop} {o : Output}

theorem Reports.of_events {p : Output} (h : o.Reports P) (heq : p.events = o.events) :
    p.Reports P := by
  unfold Reports at *
  rwa [heq]

theorem Reports.write (h : o.Reports P) (s : String) : (o.write s).Reports P :=
  h.of_events (events_write s o)

theorem Reports.report (h : o.Reports P) {e : Event} (he : P e) : (o.report e).Reports P :=
  List.forall_mem_cons.2 ⟨he, h⟩

theorem Reports.ite (h : o.Reports P) {c : Prop} [Decidable c] (s : String) :
    (if c then o else o.write s).Reports P := by
  split
  · exact h
  · exact h.write s

end Output

structure Context.Permits (P : Event → Prop) (cx : Context) : Prop where
  element : ∀ tag, P (.unsupportedElement tag)
  note : ∀ kind, P (.unsupportedNote kind)
  kind : cx.activeResolver ≠ none → ∀ kind label, P (.unknownReferenceKind kind label)
  target : cx.activeResolver ≠ none →
    ∀ kind target label, P (.unresolvedReference kind target label)

section
variable {P : Event → Prop} {cx : Context}

theorem Context.Permits.of_inactive (h : cx.Permits P) {cx' : Context}
    (hactive : cx'.activeResolver = none) : cx'.Permits P :=
  ⟨h.element, h.note, fun hne => absurd hactive hne, fun hne => absurd hactive hne⟩

theorem Context.Permits.of_active (h : cx.Permits P) {cx' : Context}
    (hactive : cx'.activeResolver = cx.activeResolver) : cx'.Permits P :=
  ⟨h.element, h.note, hactive ▸ h.kind, hactive ▸ h.target⟩

end

namespace Rule

variable {P : Event → Prop} {content : Content}
  (hc : ∀ cx out, cx.Permits P → out.Reports P → (content cx out).Reports P)
include hc

theorem reports_apart {cx : Context} (hcx : cx.Permits P) {out : Output} (h : out.Reports P) :
    (apart content cx out).2.Reports P :=
  Output.Reports.of_events (hc cx.apart { out with fragments := [] } (hcx.of_active rfl) h) rfl

theorem reports_renderReference (el : Node) {cx : Context} (hcx : cx.Permits P) {out : Output}
    (h : out.Reports P) : (renderReference el content cx out).Reports P := by
  have hfresh : Context.Permits P {} := hcx.of_inactive rfl
  have hlabel := reports_apart hc hfresh h
  unfold renderReference
  simp only
  split
  · exact hlabel.write _
  · rename_i r hactive
    have hne : cx.activeResolver ≠ none := by simp [hactive]
    split
    · split
      · exact hlabel.write _
      · exact (hlabel.report (hcx.target hne ..)).write _
    · exact (hlabel.report (hcx.kind hne ..)).write _

theorem reports_render (rule : Rule) (el : Node) {cx : Context} (hcx : cx.Permits P) (index : Nat)
    {out : Output} (h : out.Reports P) : (rule.render el content cx index out).Reports P := by
  cases rule with
  | literal text => exact h.write _
  | wrap before after => exact (hc _ _ hcx (h.write _)).write _
  | code before after => exact (hc _ _ (hcx.of_inactive rfl) (h.write _)).write _
  | nothing => exact h
  | para =>
    refine hc _ _ hcx ?_
    split
    · exact h
    · exact (h.write _).write _
  | list numbered => exact hc _ _ (hcx.of_active rfl) (h.ite _)
  | item => exact hc _ _ (hcx.of_active rfl) (((h.ite _).write _).write _)
  | parameters => exact (hc _ _ hcx (h.write _)).write _
  | listing => exact (hc _ _ (hcx.of_inactive rfl) (h.write _)).write _
  | verbatim => exact ((h.write _).write _).write _
  | note =>
    unfold render
    simp only
    split
    · exact hc _ _ hcx (h.write _)
    · exact hc _ _ hcx (h.report (hcx.note _))
  | formula => exact h.write _
  | subsection level => exact hc _ _ (hcx.of_active rfl) (h.ite _)
  | title => exact ((h.write _).write _).write _
  | heading =>
    have hdrop : out.dropSpace.Reports P := h.of_events (Output.events_dropSpace out)
    exact hc _ _ hcx (((hdrop.of_events (Output.events_stopUnless ..)).write _).write _)
  | link =>
    have hlabel := reports_apart hc hcx h
    unfold render
    simp only
    split
    · exact hlabel.write _
    · exact ((((hlabel.write _).write _).write _).write _).write _
  | reference => exact reports_renderReference hc el hcx h
  | row => exact (((reports_apart hc hcx h).write _).write _).write _
  | cell => exact ((reports_apart hc hcx h).write _).write _

end Rule

mutual

theorem Node.reports_render {P : Event → Prop} {cx : Context} (hcx : cx.Permits P) (index : Nat) :
    ∀ (n : Node) (out : Output), out.Reports P → (n.render cx index out).Reports P
  | .text s, out, h => by
    rw [Node.render]
    exact h.write _
  | .element tag attrs children, out, h => by
    rw [Node.render]
    split
    · exact Rule.reports_render (fun cx out hcx h => reports_renderAll hcx 0 children out h)
        _ _ hcx index h
    · exact reports_renderAll hcx 0 children _ (h.report (hcx.element tag))

theorem reports_renderAll {P : Event → Prop} {cx : Context} (hcx : cx.Permits P) (index : Nat) :
    ∀ (ns : List Node) (out : Output), out.Reports P → (renderAll cx index ns out).Reports P
  | [], out, h => by
    rw [renderAll]
    exact h
  | n :: ns, out, h => by
    rw [renderAll]
    split
    · exact reports_renderAll hcx (index + 1) ns _ (n.reports_render hcx index out h)
    · exact reports_renderAll hcx index ns out h

end

theorem Description.reports_toMarkdown {P : Event → Prop} {resolver : Option Resolver}
    (h : Context.Permits P { resolver }) (d : Description) :
    ∀ e ∈ (d.toMarkdown resolver).log, P e := by
  have hrender : (d.render { resolver } {}).Reports P := by
    cases d with
    | node n => exact n.reports_render h 0 {} (List.forall_mem_nil _)
    | nodes ns => exact reports_renderAll h 0 ns {} (List.forall_mem_nil _)
  exact fun e he => hrender e (List.mem_reverse.1 he)

end DoxPages
