import DoxPages.Proofs.Docs.GroupedPage

/-!
# Calls on a builder

A builder is changed by grouping a compound, by converting one, and by building a
model, which does both for each of its compounds. `calls` makes any of these one
after another, and `groupedOver` says which compounds were grouped to the end.
-/

namespace DoxPages.Docs.Builder

/-! ## Texts only -/

@[simp] theorem documentOverload_name (r : Resolver) (c : Compound) (u : Overload) :
    (documentOverload r c u).name = u.name := rfl

def documented (b : Builder) (c : Source.Compound) (p : Compound) : Compound :=
  (b.documentCompound c p).value

section
variable (b : Builder) (c : Source.Compound) (p : Compound)

@[simp] theorem documented_page : (b.documented c p).page = p.page := rfl

@[simp] theorem documented_sections : (b.documented c p).sections = p.sections := rfl

@[simp] theorem documented_bases : (b.documented c p).bases = c.bases.map b.base := rfl

theorem documented_overloads :
    (b.documented c p).overloads = p.overloads.map (documentOverload b.resolver p) := rfl

theorem map_documented_overloads {β : Type} {f : Overload → β}
    (hf : ∀ u, f (documentOverload b.resolver p u) = f u) :
    (b.documented c p).overloads.map f = p.overloads.map f := by
  rw [documented_overloads, List.map_map]
  exact List.map_congr_left fun u _ => hf u

theorem convert_cases : (b.convert c).value = b ∨
    ∃ k p, b.pages.lookup c.id = some k ∧ b.compounds.lookup k = some p ∧
      (b.convert c).value =
        { b with compounds := Assoc.adjust p.page (fun _ => b.documented c p) b.compounds } := by
  unfold convert
  cases hpage : b.pages.lookup c.id with
  | none => exact .inl rfl
  | some k =>
    cases hk : b.compounds.lookup k with
    | none =>
      left
      rw [Option.bind_some, hk]
      rfl
    | some p =>
      refine .inr ⟨k, p, rfl, hk, ?_⟩
      rw [Option.bind_some, hk]
      rfl

theorem convert_eq {k : String} (hpage : b.pages.lookup c.id = some k)
    (hk : b.compounds.lookup k = some p) :
    (b.convert c).value =
      { b with compounds := Assoc.adjust p.page (fun _ => b.documented c p) b.compounds } := by
  unfold convert
  rw [hpage, Option.bind_some, hk]
  rfl

@[simp] theorem options_convert : (b.convert c).value.options = b.options := by
  rcases b.convert_cases c with h | ⟨k, p, -, -, h⟩
  · rw [h]
  · rw [h]

@[simp] theorem options_group : (b.group c).1.options = b.options := by
  unfold group register
  simp only
  cases b.origins.lookup (b.pageOf (splitQualified c.name).2) with
  | some first => rfl
  | none =>
    simp only
    split <;> rfl

end

/-! ## Calls -/

inductive Call where
  | group (c : Source.Compound)
  | build (model : Source.Model)
  | convert (c : Source.Compound)

def documentedIn (o : Options) (model : Source.Model) : List Source.Compound :=
  (model.map Prod.snd).filter fun c => o.compoundKinds.contains c.kind

/-- The builder after a call, and the error that ended it. -/
def call (b : Builder) : Call → Builder × Option ConfigError
  | .group c => b.group c
  | .build model => (b.build model).value
  | .convert c => ((b.convert c).value, none)

abbrev fresh (o : Options) : Builder := { options := o }

/-- The builder after some calls; one that fails does not stop the rest. -/
def calls (b : Builder) (cs : List Call) : Builder := cs.foldl (fun b c => (b.call c).1) b

def groupedBy (b : Builder) : List Source.Compound → List Source.Compound
  | [] => []
  | c :: cs =>
    match b.group c with
    | (_, some _) => []
    | (b, none) => c :: b.groupedBy cs

def groupedIn (b : Builder) : Call → List Source.Compound
  | .group c => b.groupedBy [c]
  | .build model => b.groupedBy (documentedIn b.options model)
  | .convert _ => []

def groupedOver (b : Builder) : List Call → List Source.Compound
  | [] => []
  | c :: cs => b.groupedIn c ++ (b.call c).1.groupedOver cs

theorem groupAll_cons (b : Builder) (c : Source.Compound) (cs : List Source.Compound) :
    (b.groupAll (c :: cs)).value =
      match b.group c with
      | (b, some e) => (b, some e)
      | (b, none) => (b.groupAll cs).value := by
  rw [groupAll, Reported.value_bind]
  cases b.group c with
  | mk b e => cases e <;> rfl

theorem groupAll_cons_none {b b' : Builder} {c : Source.Compound} {cs : List Source.Compound}
    (h : (b.groupAll (c :: cs)).value = (b', none)) :
    ∃ b₁, b.group c = (b₁, none) ∧ (b₁.groupAll cs).value = (b', none) := by
  rw [groupAll_cons] at h
  revert h
  cases b.group c with
  | mk b₁ e =>
    intro h
    cases e with
    | some e => cases h
    | none => exact ⟨b₁, rfl, h⟩

theorem build_eq (b : Builder) (model : Source.Model) :
    (b.build model).value =
      match (b.groupAll (documentedIn b.options model)).value with
      | (b', some e) => (b', some e)
      | (b', none) => ((b'.convertAll (documentedIn b.options model)).value, none) := by
  rw [build, Reported.value_bind, ← documentedIn]
  cases (b.groupAll (documentedIn b.options model)).value with
  | mk b' e => cases e <;> rfl

theorem convertAll_induction {P : Builder → Prop}
    (hconvert : ∀ b c, P b → P (b.convert c).value) {b : Builder} (h : P b)
    (cs : List Source.Compound) : P (b.convertAll cs).value := by
  induction cs generalizing b with
  | nil => exact h
  | cons c cs ih => exact ih (hconvert b c h)

end DoxPages.Docs.Builder
