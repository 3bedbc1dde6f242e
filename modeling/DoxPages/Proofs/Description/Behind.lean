import DoxPages.Proofs.Description.Reports

/-!
# Rendering behind other output

Of what was written before it a rendering only looks at a single space at the end, which
a heading takes back, and what was reported before does not matter to it at all. So it is
the same behind other fragments, `Firm` ones, and in another log (`Node.render_onto`).
`Rule.render_onto` is the step for one element. It also lets the element and its content
change in what the rule does not look at, and drops events that the rule does not report.
-/

namespace DoxPages

open Text

namespace Output

/-- The output behind fragments that were written before it, with its events changed, where the
program may have broken off early. -/
def onto (base : List String) (f : Log → Log) (o : Output) (early : Option Log := none) :
    Output :=
  ⟨o.fragments ++ base, f o.events, early.or (o.stopped.map f)⟩

/-- No single space stands at the end, which could be taken back. -/
def Firm (base : List String) : Prop := base.head? ≠ some " "

theorem firm_nil : Firm [] := nofun

theorem firm_write {s : String} (hne : s ≠ "") (hspace : s ≠ " ") (o : Output) :
    Firm (o.write s).fragments := by
  rw [write, if_neg hne, Firm, List.head?_cons]
  exact fun hhead => hspace (Option.some.inj hhead)

variable {base : List String} {f : Log → Log} {early : Option Log} {o : Output}

theorem text_onto : (o.onto base f early).text = String.join base.reverse ++ o.text := by
  rw [text, onto, List.reverse_append, String.join_append, text]

theorem text_onto_nil : (o.onto [] f early).text = o.text := by
  rw [text, onto, List.append_nil, text]

theorem onto_nil_id (o : Output) : o.onto [] id = o := by
  rw [onto, List.append_nil, Option.map_id, Option.none_or]
  rfl

theorem write_onto (s : String) :
    (o.onto base f early).write s = (o.write s).onto base f early := by
  unfold write onto
  split <;> rfl

theorem report_onto {e : Event} (h : ∀ log, f (e :: log) = e :: f log) :
    (o.onto base f early).report e = (o.report e).onto base f early := by
  unfold report onto
  rw [h]

theorem stopUnless_onto (ok : Bool) :
    (o.onto base f early).stopUnless ok = (o.stopUnless ok).onto base f early := by
  unfold stopUnless
  split
  · rfl
  · simp only [onto, Option.map_or, Option.map_some, Option.or_assoc]

theorem dropSpace_eq (o : Output) :
    o.dropSpace =
      if o.fragments.head? = some " " then { o with fragments := o.fragments.tail } else o := by
  unfold dropSpace
  split
  · rename_i rest h
    simp [h]
  · rename_i h
    rw [if_neg]
    rintro hhead
    obtain ⟨rest, hrest⟩ := List.head?_eq_some_iff.1 hhead
    exact h rest hrest

theorem dropSpace_onto (hbase : Firm base) :
    (o.onto base f early).dropSpace = o.dropSpace.onto base f early := by
  rw [dropSpace_eq, dropSpace_eq, onto]
  cases hfragments : o.fragments with
  | nil =>
    -- what would be taken back stands in the base
    rw [List.nil_append, if_neg hbase, if_neg nofun, onto, hfragments, List.nil_append]
  | cons s rest =>
    rw [List.cons_append, List.head?_cons, List.head?_cons]
    by_cases hspace : some s = some " "
    · rw [if_pos hspace, if_pos hspace]
      rfl
    · rw [if_neg hspace, if_neg hspace, onto, hfragments, List.cons_append]

theorem ite_onto (c : Prop) [Decidable c] (p : Output) :
    (if c then o.onto base f early else p.onto base f early) =
      (if c then o else p).onto base f early := by
  split <;> rfl

end Output

open Output

def Node.isCell : Node → Bool
  | text _ => false
  | element tag .. => tag = "entry"

theorem Node.elements_entry (tag : String) (attrs : List (String × String)) (ns : List Node) :
    (element tag attrs ns).elements "entry" = ns.filter isCell := by
  rw [elements, childElements, children, List.filter_filter]
  refine List.filter_congr fun n _ => ?_
  cases n with
  | text s => rfl
  | element tag attrs children => exact Bool.and_true _

namespace Rule

/-- Of the cells of a row only their number and what they say about being a head count. -/
theorem rowDashes_congr {cells cells' : List Node}
    (h : cells.map (·.attr "thead") = cells'.map (·.attr "thead")) :
    rowDashes cells = rowDashes cells' := by
  have hdashes : cells.map (fun _ => "---------") = cells'.map (fun _ => "---------") := by
    rw [List.map_const', List.map_const', ← List.length_map (·.attr "thead"), h, List.length_map]
  cases cells with
  | nil => rw [List.map_eq_nil_iff.1 h.symm]
  | cons c cs =>
    cases cells' with
    | nil => cases h
    | cons d ds =>
      have hhead : c.attr "thead" = d.attr "thead" := (List.cons.inj h).1
      rw [rowDashes, rowDashes, hhead, hdashes]

def readsText : Rule → Bool
  | verbatim | formula | title => true
  | _ => false

/-- What a rule looks at in its element is the same in two elements. -/
structure SeesSame (rule : Rule) (el el' : Node) : Prop where
  attr : ∀ name default, el.attr name default = el'.attr name default
  text : rule.readsText = true → el.textContent = el'.textContent
  heads : (el.elements "entry").map (·.attr "thead") = (el'.elements "entry").map (·.attr "thead")

theorem SeesSame.refl (rule : Rule) (el : Node) : rule.SeesSame el el :=
  ⟨fun _ _ => rfl, fun _ => rfl, rfl⟩

def Emits (rule : Rule) (el : Node) (e : Event) : Prop :=
  match rule with
  | note => noteOpening? (el.attr "kind") = none ∧ e = .unsupportedNote (el.attr "kind")
  | reference => e.isReference = true
  | _ => False

section
variable {rule : Rule} {el el' : Node} {content content' : Content} {f : Log → Log}
  {early : Option Log} (hc : ∀ cx base out, Firm base →
    content' cx (out.onto base f early) = (content cx out).onto base f early)
include hc

theorem apart_onto (cx : Context) (base : List String) (out : Output) :
    apart content' cx (out.onto base f early) =
      ((apart content cx out).1, (apart content cx out).2.onto base f early) := by
  have hinner : content' cx.apart { out.onto base f early with fragments := [] } =
      (content cx.apart { out with fragments := [] }).onto [] f early :=
    hc cx.apart [] { out with fragments := [] } firm_nil
  unfold apart
  simp only [hinner, text_onto_nil]
  rfl

variable {base : List String} (hbase : Firm base) (hel : rule.SeesSame el el')
  (hf : ∀ e, rule.Emits el e → ∀ log, f (e :: log) = e :: f log)
include hbase hel hf

theorem render_onto (cx : Context) (index : Nat) (out : Output) :
    rule.render el' content' cx index (out.onto base f early) =
      (rule.render el content cx index out).onto base f early := by
  cases rule with
  | verbatim | formula =>
    simp only [render, write_onto, hel.text rfl]
  | title =>
    simp only [render, write_onto, Node.strippedText, hel.text rfl]
  | note =>
    simp only [render, ← hel.attr, write_onto]
    split
    · exact hc _ _ _ hbase
    · rename_i hkind
      rw [report_onto (hf _ ⟨hkind, rfl⟩)]
      exact hc _ _ _ hbase
  | reference =>
    simp only [render, renderReference, ← hel.attr, apart_onto hc]
    split
    · exact write_onto _
    · split
      · split
        · exact write_onto _
        · rw [report_onto (hf (.unresolvedReference ..) rfl), write_onto]
      · rw [report_onto (hf (.unknownReferenceKind ..) rfl), write_onto]
  | _ =>
    simp only [render, ← hel.attr, rowDashes_congr hel.heads, apart_onto hc, write_onto,
      dropSpace_onto hbase, stopUnless_onto, ite_onto, hc _ _ _ hbase]

end

end Rule

mutual

/-- A rendering does the same behind other output. -/
theorem Node.render_onto {f : Log → Log} (hf : ∀ e log, f (e :: log) = e :: f log)
    {base : List String} (hbase : Firm base) (early : Option Log) (cx : Context) (index : Nat) :
    ∀ (n : Node) (out : Output),
      n.render cx index (out.onto base f early) = (n.render cx index out).onto base f early
  | .text s, out => by
    rw [Node.render, Node.render, write_onto]
  | .element tag attrs children, out => by
    rw [Node.render, Node.render]
    split
    · exact Rule.render_onto
        (fun cx _ out hbase => renderAll_onto hf hbase early cx 0 children out)
        hbase (Rule.SeesSame.refl ..) (fun e _ => hf e) ..
    · rw [report_onto (hf _), renderAll_onto hf hbase early cx 0 children]

theorem renderAll_onto {f : Log → Log} (hf : ∀ e log, f (e :: log) = e :: f log)
    {base : List String} (hbase : Firm base) (early : Option Log) (cx : Context) (index : Nat) :
    ∀ (ns : List Node) (out : Output),
      renderAll cx index ns (out.onto base f early) =
        (renderAll cx index ns out).onto base f early
  | [], out => by
    rw [renderAll, renderAll]
  | n :: ns, out => by
    rw [renderAll, renderAll, n.render_onto hf hbase early cx index out]
    split
    · exact renderAll_onto hf hbase early cx (index + 1) ns _
    · exact renderAll_onto hf hbase early cx index ns out

end

theorem text_renderAll_of_firm {out : Output} (h : Firm out.fragments) (cx : Context) (index : Nat)
    (ns : List Node) :
    (renderAll cx index ns out).text = out.text ++ (renderAll cx index ns {}).text := by
  have hout : ({} : Output).onto out.fragments (· ++ out.events) out.stopped = out := by
    rw [onto, Option.map_none, Option.or_none]
    rfl
  have honto := renderAll_onto (f := (· ++ out.events)) (fun _ _ => rfl) h out.stopped
    cx index ns {}
  rw [hout] at honto
  rw [honto, text_onto]
  rfl

theorem Rule.apart_renderAll (children : List Node) (cx : Context) (out : Output) :
    (apart (fun cx out => renderAll cx 0 children out) cx out).1 =
      onChars strip (renderAll cx.apart 0 children {}).text := by
  have h := renderAll_onto (f := (· ++ out.events)) (fun _ _ => rfl) firm_nil
    out.stopped cx.apart 0 children {}
  have hstart : { out with fragments := [] } =
      ({} : Output).onto [] (· ++ out.events) out.stopped := by
    rw [onto, Option.map_none, Option.or_none]
    rfl
  unfold apart
  simp only
  rw [hstart, h, text_onto_nil]

theorem Node.textFragment_of_invisible {s : String} (h : (text s).isVisible = false)
    (cx : Context) : textFragment cx s = "" := by
  simp only [isVisible, Bool.or_eq_false_iff, Bool.not_eq_false'] at h
  rw [textFragment, if_pos h.1, h.2]
  rfl

/-! ## Whole descriptions -/

namespace Description

def roots : Description → List Node
  | node n => [n]
  | nodes ns => ns

theorem render_eq_renderAll_roots (cx : Context) (d : Description) (out : Output) :
    d.render cx out = renderAll cx 0 d.roots out := by
  cases d with
  | nodes ns => rfl
  | node n =>
    rw [render, roots, renderAll, renderAll, renderAll]
    split
    · rfl
    · rename_i hvisible
      cases n with
      | element tag attrs children => exact absurd rfl hvisible
      | text s =>
        rw [Node.render, Node.textFragment_of_invisible (by simpa using hvisible), write_empty]

end Description

end DoxPages
