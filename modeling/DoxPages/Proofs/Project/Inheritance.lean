import DoxPages.Project.Discovery
import DoxPages.Proofs.Config.Shapes

/-!
# Settings that are inherited

What a directory inherits is all but the fields of its own, and its settings are laid over
that. So below a chain of settings a field holds the stack of what the chain holds there,
and an own field holds what the last settings of the chain say.
-/

namespace DoxPages

namespace Settings

theorem get?_filter (p : Scalar → Bool) (s : Settings) (field : String) :
    get? (s.filter fun e => p e.1) field =
      if p (.string field) = true then get? s field else none :=
  Assoc.lookup_filter (p := p) (k := .string field)
    (fun _ hk => congrArg p (Scalar.string_beq_iff.1 hk)) s

theorem get?_put (k field : String) (v : Value) (s : Settings) :
    get? (Assoc.put (.string k) v s) field = if field = k then some v else get? s field := by
  rw [get?, Assoc.lookup_put]
  by_cases h : field = k
  · rw [if_pos h, if_pos (by rw [h]; exact BEq.refl _)]
  · rw [if_neg h, if_neg]
    · rfl
    · rw [Scalar.string_beq_iff, Scalar.string.injEq]
      exact Ne.symm h

theorem get?_merge {upper : Settings} (h : (Value.mapping upper).Distinct) (lower : Settings)
    (field : String) : get? (merge lower upper) field =
      Value.stack ((get? lower field).toList ++ (get? upper field).toList) :=
  lookup_merge h.keys lower _

end Settings

namespace Project

open Settings

variable {s child : Settings} {field : String}

theorem get?_inherited (s : Settings) (field : String) :
    get? (inherited s) field = if field ∈ ownFields then none else get? s field := by
  refine (get?_filter (fun k => !isOneOf ownFields k) s field).trans ?_
  by_cases h : field ∈ ownFields
  · rw [if_pos h, if_neg]
    rw [Bool.not_eq_true', Bool.not_eq_false, isOneOf_string]
    exact h
  · rw [if_neg h, if_pos]
    rw [Bool.not_eq_true', Bool.eq_false_iff, Ne, isOneOf_string]
    exact h

theorem get?_child_own (hchild : (Value.mapping child).Distinct) (h : field ∈ ownFields) :
    get? (merge (inherited s) child) field = get? child field := by
  rw [get?_merge hchild, get?_inherited, if_pos h]
  cases get? child field <;> rfl

/-! ## Chains -/

/-- What the settings of a chain hold in a field, the first settings first. -/
def valuesOf (chain : List Settings) (field : String) : List Value :=
  chain.filterMap fun s => get? s field

/-- Outside the own fields, settings hold the stack of what a chain holds. -/
def Inherits (chain : List Settings) (s : Settings) : Prop :=
  ∀ field ∉ ownFields, get? s field = Value.stack (valuesOf chain field)

theorem valuesOf_concat (chain : List Settings) (s : Settings) (field : String) :
    valuesOf (chain ++ [s]) field = valuesOf chain field ++ (get? s field).toList := by
  rw [valuesOf, List.filterMap_append, valuesOf]
  cases h : get? s field <;> simp [h]

theorem Inherits.layer {chain : List Settings} (h : Inherits chain s)
    (hchild : (Value.mapping child).Distinct) :
    Inherits (chain ++ [child]) (merge (inherited s) child) := by
  intro field hfield
  rw [valuesOf_concat]
  refine lookup_merge_of_stack hchild.keys ?_
  rw [← h field hfield]
  exact (get?_inherited s field).trans (if_neg hfield)

theorem Inherits.bare {chain : List Settings} (h : Inherits chain s) (v : Value) :
    Inherits chain (Assoc.put (.string "input") v (inherited s)) := by
  intro field hfield
  rw [get?_put, if_neg, get?_inherited, if_neg hfield]
  · exact h field hfield
  · rintro rfl
    exact hfield (by decide)

theorem inherits_root {c : Settings} (hc : (Value.mapping c).Distinct) :
    Inherits [defaults, c] (merge defaults c) := by
  intro field _
  rw [get?_merge hc, valuesOf]
  cases hd : get? defaults field <;> cases hf : get? c field <;> simp [hd, hf]

/-! ## Shapes -/

theorem wellShaped_defaults : defaults.WellShaped := problems_eq_nil_iff.1 (by decide)

theorem wellShaped_inherited (h : s.WellShaped) : (inherited s).WellShaped := by
  have hholds {field : String} {P : Value → Prop} (h : s.Holds field P) :
      (inherited s).Holds field P := by
    intro v hv
    rw [get?_inherited] at hv
    split at hv
    · cases hv
    · exact h v hv
  exact
    { known := fun e he => h.known e (List.mem_filter.1 he).1
      strings := fun f hf => hholds (h.strings f hf)
      lists := fun f hf => hholds (h.lists f hf)
      maps := fun f hf => hholds (h.maps f hf)
      aliases := hholds h.aliases
      links := fun f hf => hholds (h.links f hf) }

theorem wellShaped_put (h : s.WellShaped) {k : String} (hk : k ∈ stringFields)
    (text : String) : Settings.WellShaped (Assoc.put (.string k) (.string text) s) := by
  have hholds {field : String} {P : Value → Prop} (h : s.Holds field P)
      (hne : field ≠ k ∨ P (.string text)) :
      Holds (Assoc.put (.string k) (.string text) s) field P := by
    intro v hv
    rw [get?_put] at hv
    split at hv
    · obtain rfl := Option.some.inj hv
      exact hne.resolve_left (not_not_intro ‹_›)
    · exact h v hv
  have hne {field : String} {fields : List String} (hf : field ∈ fields)
      (hdisjoint : ∀ f ∈ fields, f ∉ stringFields) : field ≠ k := by
    rintro rfl
    exact hdisjoint _ hf hk
  refine
    { known := fun e he => ?_
      strings := fun f hf => hholds (h.strings f hf) (.inr rfl)
      lists := fun f hf => hholds (h.lists f hf) (.inl (hne hf (by decide)))
      maps := fun f hf => hholds (h.maps f hf) (.inl (hne hf (by decide)))
      aliases := hholds h.aliases (.inl (hne (List.mem_singleton_self aliasField) (by decide)))
      links := fun f hf => hholds (h.links f hf) (.inl (hne hf (by decide))) }
  rcases Assoc.mem_put he with he | ⟨-, he | he⟩
  · exact h.known e he
  · rw [he, isOneOf_string]
    exact List.mem_append_left _ (List.mem_append_left _ (List.mem_append_left _
      (List.mem_append_left _ hk)))
  · obtain ⟨d, hd, heq⟩ := List.mem_map.1 he
    rw [← heq]
    exact h.known d hd

end Project

end DoxPages
