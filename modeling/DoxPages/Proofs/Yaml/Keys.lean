import DoxPages.Proofs.Config.Layers
import DoxPages.Yaml.Value

/-!
# Keys of mappings that are read

A mapping that is read has no key twice, whatever its document repeats or merges: entries
are put into it one after another.
-/

namespace DoxPages

theorem Assoc.distinct_putAll {α β : Type} [BEq α] [EquivBEq α] {t : List (α × β)}
    (h : Distinct t) (u : List (α × β)) : Distinct (putAll t u) := by
  induction u generalizing t with
  | nil => exact h
  | cons e u ih => exact ih (distinct_put h e.1 e.2)

theorem Assoc.value_of_mem_putAll {α β : Type} [BEq α] {P : β → Prop} {t u : List (α × β)}
    (ht : ∀ e ∈ t, P e.2) (hu : ∀ e ∈ u, P e.2) : ∀ e ∈ putAll t u, P e.2 := by
  induction u generalizing t with
  | nil => exact ht
  | cons e u ih =>
    refine ih (fun d hd => ?_) fun d hd => hu d (List.mem_cons_of_mem _ hd)
    rcases mem_put hd with hd | ⟨hd, -⟩
    · exact ht d hd
    · rw [hd]
      exact hu e List.mem_cons_self

namespace Yaml.Node

theorem distinct_putAll {es : List (Scalar × Value)} (h : ∀ e ∈ es, e.2.Distinct) :
    (Value.mapping (Assoc.putAll [] es)).Distinct :=
  .mapping (Assoc.distinct_putAll Assoc.distinct_nil es) (Assoc.value_of_mem_putAll nofun h)

theorem distinct_append {es : List (Scalar × Value) × List (Scalar × Value)}
    (h : (∀ e ∈ es.1, e.2.Distinct) ∧ ∀ e ∈ es.2, e.2.Distinct) :
    ∀ e ∈ es.1 ++ es.2, e.2.Distinct :=
  List.forall_mem_append.2 h

mutual

theorem distinct_value? : ∀ {n : Node} {v : Value}, n.value? = some v → v.Distinct
  | scalar tag text, v, h => by
    rw [value?] at h
    obtain ⟨s, -, rfl⟩ := Option.map_eq_some_iff.1 h
    exact .other nofun
  | sequence tag items, v, h => by
    unfold value? at h
    split at h
    · obtain ⟨vs, -, rfl⟩ := Option.map_eq_some_iff.1 h
      exact .other nofun
    · obtain ⟨vs, -, rfl⟩ := Option.map_eq_some_iff.1 h
      exact .other nofun
    · obtain ⟨vs, -, rfl⟩ := Option.map_eq_some_iff.1 h
      exact .other nofun
    · cases h
  | mapping tag entries, v, h => by
    unfold value? at h
    split at h
    · obtain ⟨es, hes, rfl⟩ := Option.map_eq_some_iff.1 h
      exact distinct_putAll (distinct_append (distinct_entries? hes))
    · obtain ⟨es, -, rfl⟩ := Option.map_eq_some_iff.1 h
      exact .other nofun
    · obtain ⟨text, -, h⟩ := Option.bind_eq_some_iff.1 h
      obtain ⟨s, -, rfl⟩ := Option.map_eq_some_iff.1 h
      exact .other nofun
  | enclosing name, v, h => by
    rw [value?] at h
    cases h

theorem distinct_entries? : ∀ {entries : List (Node × Node)}
    {es : List (Scalar × Value) × List (Scalar × Value)}, entries? entries = some es →
      (∀ e ∈ es.1, e.2.Distinct) ∧ ∀ e ∈ es.2, e.2.Distinct
  | [], es, h => by
    rw [entries?] at h
    obtain rfl := Option.some.inj h
    exact ⟨nofun, nofun⟩
  | (k, v) :: rest, es, h => by
    rw [entries?] at h
    split at h
    · obtain ⟨merged, hmerged, h⟩ := Option.bind_eq_some_iff.1 h
      obtain ⟨more, hmore, h⟩ := Option.bind_eq_some_iff.1 h
      obtain rfl := Option.some.inj h
      obtain ⟨hfirst, hown⟩ := distinct_entries? hmore
      exact ⟨List.forall_mem_append.2 ⟨distinct_merged? hmerged, hfirst⟩, hown⟩
    · -- whatever the key is, the entry has a value that was read
      have hentry (key : Scalar) (h : (do
          let value ← v.value?
          let (merged, own) ← entries? rest
          return (merged, (key, value) :: own)) = some es) :
          (∀ e ∈ es.1, e.2.Distinct) ∧ ∀ e ∈ es.2, e.2.Distinct := by
        obtain ⟨value, hvalue, h⟩ := Option.bind_eq_some_iff.1 h
        obtain ⟨more, hmore, h⟩ := Option.bind_eq_some_iff.1 h
        obtain rfl := Option.some.inj h
        obtain ⟨hfirst, hown⟩ := distinct_entries? hmore
        exact ⟨hfirst, List.forall_mem_cons.2 ⟨distinct_value? hvalue, hown⟩⟩
      simp only at h
      split at h
      · exact hentry _ h
      · obtain ⟨_, -, h⟩ := Option.bind_eq_some_iff.1 h
        obtain ⟨key, -, h⟩ := Option.bind_eq_some_iff.1 h
        exact hentry key h

theorem distinct_merged? : ∀ {n : Node} {es : List (Scalar × Value)}, merged? n = some es →
    ∀ e ∈ es, e.2.Distinct
  | mapping tag entries, es, h => by
    rw [merged?] at h
    obtain ⟨es, hes, rfl⟩ := Option.map_eq_some_iff.1 h
    exact distinct_append (distinct_entries? hes)
  | sequence tag items, es, h => by
    rw [merged?] at h
    exact distinct_mergedAll? h
  | scalar tag text, es, h => by
    rw [merged?] at h
    · cases h
    · nofun
    · nofun
  | enclosing name, es, h => by
    rw [merged?] at h
    · cases h
    · nofun
    · nofun

theorem distinct_mergedAll? : ∀ {ns : List Node} {es : List (Scalar × Value)},
    mergedAll? ns = some es → ∀ e ∈ es, e.2.Distinct
  | [], es, h => by
    rw [mergedAll?] at h
    obtain rfl := Option.some.inj h
    exact nofun
  | mapping tag entries :: ns, es, h => by
    rw [mergedAll?] at h
    obtain ⟨first, hfirst, h⟩ := Option.bind_eq_some_iff.1 h
    obtain ⟨rest, hrest, h⟩ := Option.bind_eq_some_iff.1 h
    obtain rfl := Option.some.inj h
    exact List.forall_mem_append.2
      ⟨distinct_mergedAll? hrest, distinct_append (distinct_entries? hfirst)⟩
  | scalar tag text :: ns, es, h => by
    rw [mergedAll?] at h
    · cases h
    · nofun
  | sequence tag items :: ns, es, h => by
    rw [mergedAll?] at h
    · cases h
    · nofun
  | enclosing name :: ns, es, h => by
    rw [mergedAll?] at h
    · cases h
    · nofun

end

end Yaml.Node

/-- What a text describes has distinct keys. -/
theorem Value.distinct_ofYaml? {text : String} {v : Value} (h : ofYaml? text = some v) :
    v.Distinct := by
  obtain ⟨n, -, h⟩ := Option.bind_eq_some_iff.1 h
  exact Yaml.Node.distinct_value? h

end DoxPages
