import DoxPages.Proofs.Docs.Linked

/-!
# Converting compounds in any order

What a page says depends on where links lead, and a conversion changes no link
target. `convertAll_eq` gives the builder after any conversions: each page has the
texts of the last compound that was converted for it. So neither the order nor the
number of conversions matters as long as no two compounds share a page.
-/

namespace DoxPages.Docs.Builder

/-! ## Where links lead -/

theorem documented_eq (b : Builder) (c : Source.Compound) (p : Compound) :
    b.documented c p =
      { p with
        brief := (c.brief.toMarkdown (some b.resolver)).value
        details := (c.detailed.toMarkdown (some b.resolver)).value
        prototype := (Source.compoundPrototype c.kind p.typeName c.bases c.params).value
        summary := summarize (c.brief.toMarkdown (some b.resolver)).value
          (c.detailed.toMarkdown (some b.resolver)).value
        bases := c.bases.map b.base
        overloads := p.overloads.map (documentOverload b.resolver p) } := rfl

/-- Two builders in which every link leads to the same target. -/
structure SameTargets (b b' : Builder) : Prop where
  options : b.options = b'.options
  pages : ∀ id, b.pages.lookup id = b'.pages.lookup id
  members : ∀ id, b.members.lookup id = b'.members.lookup id
  anchors : ∀ k n, (b.overload? k n).map (·.anchor) = (b'.overload? k n).map (·.anchor)

namespace SameTargets

variable {b b' b'' : Builder}

theorem refl (b : Builder) : b.SameTargets b := ⟨rfl, fun _ => rfl, fun _ => rfl, fun _ _ => rfl⟩

theorem trans (h : b.SameTargets b') (h' : b'.SameTargets b'') : b.SameTargets b'' where
  options := h.options.trans h'.options
  pages id := (h.pages id).trans (h'.pages id)
  members id := (h.members id).trans (h'.members id)
  anchors k n := (h.anchors k n).trans (h'.anchors k n)

theorem of_lookup (options : b.options = b'.options)
    (compounds : ∀ k, b.compounds.lookup k = b'.compounds.lookup k)
    (pages : ∀ id, b.pages.lookup id = b'.pages.lookup id)
    (members : ∀ id, b.members.lookup id = b'.members.lookup id) : b.SameTargets b' where
  options := options
  pages := pages
  members := members
  anchors k n := by rw [overload?, overload?, compounds]

theorem resolver (h : b.SameTargets b') : b.resolver = b'.resolver := by
  have target (d : Builder) (id : String) : d.resolver.member? id =
      (d.members.lookup id).bind fun e => ((d.overload? e.1 e.2).map (·.anchor)).map (e.1, ·) := by
    show (d.member? id).map _ = _
    unfold Builder.member?
    cases d.members.lookup id with
    | none => rfl
    | some e =>
      simp only [Option.bind_eq_bind, Option.bind_some]
      cases d.overload? e.1 e.2 <;> rfl
  have hmember : b.resolver.member? = b'.resolver.member? := by
    funext id
    rw [target, target, h.members]
    simp only [h.anchors]
  have hcompound : b.resolver.compound? = b'.resolver.compound? := funext h.pages
  have hlinker : b.resolver.linker = b'.resolver.linker := by
    show Linker.mk _ _ = Linker.mk _ _
    rw [h.options]
  calc b.resolver = ⟨b.resolver.linker, b.resolver.compound?, b.resolver.member?⟩ := rfl
    _ = b'.resolver := by rw [hlinker, hcompound, hmember]

theorem base (h : b.SameTargets b') : b.base = b'.base := by
  funext ref
  simp only [Builder.base, h.pages]

theorem documented (h : b.SameTargets b') (c : Source.Compound) (p : Compound) :
    b.documented c p = b'.documented c p := by
  rw [documented_eq, documented_eq, h.resolver, h.base]

end SameTargets

/-! ## One conversion -/

section
variable (b b' : Builder) (c d : Source.Compound) (p : Compound)

/-- Texts are written over, whatever they were. -/
theorem documented_documented : b.documented c (b'.documented d p) = b.documented c p := by
  have hoverloads : (b'.documented d p).overloads.map
      (documentOverload b.resolver (b'.documented d p)) =
      p.overloads.map (documentOverload b.resolver p) := by
    rw [documented_overloads, List.map_map]
    refine List.map_congr_left fun u _ => ?_
    simp only [Function.comp_apply, documentOverload, List.map_map]
    rfl
  rw [documented_eq, documented_eq b c p, hoverloads]
  rfl

theorem overload?_documented (n : String) :
    ((b.documented c p).overload? n).map (·.anchor) = (p.overload? n).map (·.anchor) := by
  rw [Compound.overload?, Compound.overload?, documented_overloads, List.find?_map, Option.map_map]
  rfl

end

section
variable {b : Builder} (hb : b.Linked) (c : Source.Compound)
include hb

theorem Linked.sameTargets_convert : (b.convert c).value.SameTargets b := by
  obtain ⟨hpages, hmembers, -, -⟩ := tables_convert b c
  refine
    { options := options_convert b c
      pages := fun id => by rw [hpages]
      members := fun id => by rw [hmembers]
      anchors := fun k n => ?_ }
  rw [overload?, overload?]
  rcases hb.lookup_convert c k with h | ⟨p, hp, h⟩
  · rw [h]
  · rw [h, hp]
    exact overload?_documented b c p n

def lastOn (b : Builder) (cs : List Source.Compound) (k : String) : Option Source.Compound :=
  cs.reverse.find? fun c => b.pages.lookup c.id = some k

def converted (b : Builder) (cs : List Source.Compound) (k : String) (p : Compound) : Compound :=
  match b.lastOn cs k with
  | none => p
  | some c => b.documented c p

omit hb in
theorem lastOn_cons (cs : List Source.Compound) (k : String) :
    b.lastOn (c :: cs) k =
      (b.lastOn cs k).or (if b.pages.lookup c.id = some k then some c else none) := by
  rw [lastOn, List.reverse_cons, List.find?_append, lastOn]
  by_cases h : b.pages.lookup c.id = some k <;> simp [h]

/-- A conversion writes the page of its compound and no other. -/
theorem Linked.convert_eq_map : (b.convert c).value =
    { b with compounds := b.compounds.map fun e => (e.1, b.converted [c] e.1 e.2) } := by
  have hcases (k : String) (p : Compound) : b.converted [c] k p =
      if b.pages.lookup c.id = some k then b.documented c p else p := by
    rw [converted, lastOn_cons]
    by_cases h : b.pages.lookup c.id = some k <;> simp [h, lastOn]
  cases hpage : b.pages.lookup c.id with
  | none =>
    have hsame : (b.compounds.map fun e => (e.1, b.converted [c] e.1 e.2)) = b.compounds := by
      conv => rhs; rw [← List.map_id b.compounds]
      refine List.map_congr_left fun e _ => ?_
      rw [hcases, hpage, if_neg nofun]
      rfl
    rw [hsame, Builder.convert, hpage]
    rfl
  | some k =>
    obtain ⟨p, hp⟩ := Assoc.exists_lookup_iff_keys.2 (hb.pages c.id k hpage)
    obtain rfl := hb.page_eq k p hp
    rw [b.convert_eq c p hpage hp, Assoc.adjust]
    congr 1
    refine List.map_congr_left fun e he => ?_
    rw [hcases, hpage]
    by_cases hk : p.page = e.1
    · have hep : e.2 = p := by
        have he := Assoc.lookup_of_mem hb.nodup (k := e.1) (v := e.2) he
        rw [← hk, hp] at he
        exact (Option.some.inj he).symm
      simp [hk, hep]
    · simp [hk]

end

/-! ## Many conversions -/

/-- Each page has the texts of the last compound that was converted for it. -/
theorem Linked.convertAll_eq {b : Builder} (hb : b.Linked) (cs : List Source.Compound) :
    (b.convertAll cs).value =
      { b with compounds := b.compounds.map fun e => (e.1, b.converted cs e.1 e.2) } := by
  induction cs generalizing b with
  | nil =>
    have hsame : (b.compounds.map fun e => (e.1, b.converted [] e.1 e.2)) = b.compounds :=
      List.map_id b.compounds
    rw [hsame]
    rfl
  | cons c cs ih =>
    have htargets := hb.sameTargets_convert c
    have hstep := hb.convert_eq_map c
    rw [convertAll, Reported.value_bind, ih (hb.convert c)]
    generalize (b.convert c).value = b₁ at htargets hstep
    have hlast (k : String) : b₁.lastOn cs k = b.lastOn cs k := by
      simp only [lastOn, htargets.pages]
    have hpage (k : String) (p : Compound) :
        b₁.converted cs k (b.converted [c] k p) = b.converted (c :: cs) k p := by
      simp only [converted, hlast, lastOn_cons c cs]
      cases b.lastOn cs k with
      | some d =>
        simp only [Option.some_or]
        rw [htargets.documented]
        split
        · rfl
        · exact documented_documented ..
      | none => rw [lastOn_cons]; rfl
    have hcompounds : (b₁.compounds.map fun e => (e.1, b₁.converted cs e.1 e.2)) =
        b.compounds.map fun e => (e.1, b.converted (c :: cs) e.1 e.2) := by
      conv => lhs; rw [show b₁.compounds = _ from congrArg Builder.compounds hstep]
      rw [List.map_map]
      refine List.map_congr_left fun e _ => ?_
      simp only [Function.comp_apply, hpage]
    rw [hcompounds, hstep]

theorem lastOn_eq_some {b : Builder} {cs : List Source.Compound} {k : String}
    {c : Source.Compound} (hc : c ∈ cs) (hpage : b.pages.lookup c.id = some k)
    (hunique : ∀ d ∈ cs, b.pages.lookup d.id = some k → d = c) : b.lastOn cs k = some c := by
  refine find?_eq_some_of_unique (List.mem_reverse.2 hc) (decide_eq_true hpage) ?_
  intro d hd hpaged
  exact hunique d (List.mem_reverse.1 hd) (of_decide_eq_true hpaged)

theorem Linked.convertAll {b : Builder} (hb : b.Linked) (cs : List Source.Compound) :
    (b.convertAll cs).value.Linked :=
  convertAll_induction (fun _ c h => h.convert c) hb cs

theorem Linked.sameTargets_convertAll {b : Builder} (hb : b.Linked) (cs : List Source.Compound) :
    (b.convertAll cs).value.SameTargets b :=
  (convertAll_induction (P := fun d => d.Linked ∧ d.SameTargets b)
    (fun _ c h => ⟨h.1.convert c, (h.1.sameTargets_convert c).trans h.2⟩)
    ⟨hb, .refl b⟩ cs).2

end DoxPages.Docs.Builder
