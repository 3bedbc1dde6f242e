import DoxPages.Proofs.Config.Shapes

/-!
# Settings by path

A path of keys leads through mappings in mappings; `Value.at?` is what stands at its end.
Layers are merged path by path: an upper value lies over the lower one at the same path,
and where the upper layer has nothing the lower one shows, unless something that is no
mapping hides it. `Layered` puts this together with the order of keys. A layer that was
laid over settings adds nothing when it is laid over them again.
-/

namespace DoxPages

namespace Value

def at? : Value → List Scalar → Option Value
  | v, [] => some v
  | mapping es, k :: path => (es.lookup k).bind fun v => v.at? path
  | _, _ :: _ => none

@[simp] theorem at?_nil (v : Value) : v.at? [] = some v := by
  cases v <;> rfl

@[simp] theorem at?_mapping (es : List (Scalar × Value)) (k : Scalar) (path : List Scalar) :
    (mapping es).at? (k :: path) = (es.lookup k).bind fun v => v.at? path := rfl

theorem at?_cons_of_ne {v : Value} (h : ∀ es, v ≠ mapping es) (k : Scalar)
    (path : List Scalar) : v.at? (k :: path) = none := by
  cases v with
  | mapping es => exact absurd rfl (h es)
  | _ => rfl

theorem at?_congr {path path' : List Scalar}
    (h : List.Forall₂ (fun j k => (j == k) = true) path path') (v : Value) :
    v.at? path = v.at? path' := by
  induction h generalizing v with
  | nil => rfl
  | cons hk _ ih =>
    cases v with
    | mapping es => simp only [at?_mapping, Assoc.lookup_congr hk, ih]
    | _ => rfl

theorem distinct_at? {v x : Value} {path : List Scalar} (hv : v.Distinct)
    (hx : v.at? path = some x) : x.Distinct := by
  induction path generalizing v with
  | nil =>
    rw [at?_nil, Option.some.injEq] at hx
    exact hx ▸ hv
  | cons k path ih =>
    cases v with
    | mapping es =>
      obtain ⟨w, hw, hx⟩ := Option.bind_eq_some_iff.1 hx
      obtain ⟨e, he, -, rfl⟩ := Assoc.exists_mem_of_lookup hw
      exact ih (hv.values he) hx
    | _ => cases hx

/-! ## One value over another -/

theorem at?_over {v x : Value} {path : List Scalar} (hv : v.Distinct) (hx : v.at? path = some x)
    (w : Value) : (w.over v).at? path = stack ((w.at? path).toList ++ [x]) := by
  induction path generalizing v w with
  | nil =>
    rw [at?_nil, Option.some.injEq] at hx
    rw [at?_nil, at?_nil, hx]
    rfl
  | cons k path ih =>
    cases hv with
    | other h =>
      rw [at?_cons_of_ne h] at hx
      cases hx
    | @mapping us hkeys hvalues =>
      by_cases hw : ∃ ws, w = mapping ws
      · obtain ⟨ws, rfl⟩ := hw
        rw [at?_mapping] at hx
        obtain ⟨v', hv', hx⟩ := Option.bind_eq_some_iff.1 hx
        obtain ⟨e, he, -, rfl⟩ := Assoc.exists_mem_of_lookup hv'
        rw [over_mapping, at?_mapping, at?_mapping, Settings.lookup_merge hkeys, hv']
        cases ws.lookup k with
        | none => exact hx
        | some w' => exact ih (hvalues e he) hx w'
      · push Not at hw
        rw [over_of_not_mapping hw, at?_cons_of_ne hw, hx]
        rfl

/-- Where the upper layer has nothing and hides nothing, the lower one shows. -/
theorem at?_over_of_none {v : Value} {path : List Scalar} (hv : v.Distinct)
    (hnone : v.at? path = none)
    (hopen : ∀ path', path' <+: path → path' ≠ path → ∀ x, v.at? path' = some x →
      ∃ es, x = mapping es)
    (w : Value) : (w.over v).at? path = w.at? path := by
  induction path generalizing v w with
  | nil =>
    rw [at?_nil] at hnone
    cases hnone
  | cons k path ih =>
    obtain ⟨us, rfl⟩ := hopen [] List.nil_prefix (List.cons_ne_nil k path).symm v (at?_nil v)
    by_cases hw : ∃ ws, w = mapping ws
    · obtain ⟨ws, rfl⟩ := hw
      rw [over_mapping, at?_mapping, at?_mapping, Settings.lookup_merge hv.keys]
      rw [at?_mapping] at hnone
      cases hv' : us.lookup k with
      | none => cases ws.lookup k <;> rfl
      | some v' =>
        rw [hv', Option.bind_some] at hnone
        have hopen' : ∀ path', path' <+: path → path' ≠ path → ∀ x, v'.at? path' = some x →
            ∃ es, x = mapping es := by
          intro path' hprefix hne x hx
          refine hopen (k :: path') ((List.prefix_cons_inj k).2 hprefix) ?_ x ?_
          · exact fun heq => hne (List.cons.inj heq).2
          · rw [at?_mapping, hv', Option.bind_some, hx]
        obtain ⟨e, he, -, rfl⟩ := Assoc.exists_mem_of_lookup hv'
        cases ws.lookup k with
        | none =>
          -- below a key that the lower layer lacks, neither layer has anything
          exact hnone
        | some w' => exact ih (hv.values he) hnone hopen' w'
    · push Not at hw
      rw [over_of_not_mapping hw, at?_cons_of_ne hw, hnone]

end Value

/-! ## The order of keys -/

namespace Settings

variable {lower upper : List (Scalar × Value)}

/-- The keys of the lower layer come first, then the new ones of the upper layer. -/
theorem keys_merge (h : Assoc.Distinct upper) (lower : List (Scalar × Value)) :
    (merge lower upper).map Prod.fst = lower.map Prod.fst ++
      (upper.map Prod.fst).filter fun k => !Assoc.hasKey k lower := by
  induction upper generalizing lower with
  | nil => simp [merge]
  | cons e upper ih =>
    obtain ⟨j, v⟩ := e
    obtain ⟨hj, h⟩ := Assoc.distinct_cons.1 h
    -- no later key is the one that was put
    have hrest (w : Value) :
        (upper.map Prod.fst).filter (fun k => !Assoc.hasKey k (Assoc.put j w lower)) =
          (upper.map Prod.fst).filter fun k => !Assoc.hasKey k lower := by
      refine List.filter_congr fun k hk => ?_
      obtain ⟨d, hd, rfl⟩ := List.mem_map.1 hk
      rw [Assoc.hasKey_put, BEq.comm, hj d hd, Bool.false_or]
    rw [merge_cons, ih h, hrest, Assoc.keys_put, List.map_cons, List.filter_cons]
    cases Assoc.hasKey j lower <;> simp

/-! ## Laying a layer twice -/

/-- A layer whose values change nothing changes nothing. -/
theorem merge_eq_self (h : ∀ e ∈ upper, ∃ w, lower.lookup e.1 = some w ∧ w.over e.2 = w) :
    merge lower upper = lower := by
  induction upper with
  | nil => rw [merge]
  | cons e upper ih =>
    obtain ⟨k, v⟩ := e
    obtain ⟨w, hw, hover⟩ := h (k, v) List.mem_cons_self
    rw [merge_cons, hw, Option.map_some, Option.getD_some, hover, Assoc.put_of_lookup hw]
    exact ih fun e he => h e (List.mem_cons_of_mem _ he)

end Settings

namespace Value

theorem over_self {v : Value} (h : v.Distinct) : v.over v = v := by
  induction h with
  | other h => exact over_eq_self h _
  | @mapping es hkeys _ ih =>
    rw [over_mapping, Settings.merge_eq_self fun e he =>
      ⟨e.2, Assoc.lookup_of_mem_distinct hkeys he, ih e he⟩]

theorem over_over {v : Value} (h : v.Distinct) (w : Value) : (w.over v).over v = w.over v := by
  induction h generalizing w with
  | other h => rw [over_eq_self h, over_eq_self h]
  | @mapping es hkeys hvalues ih =>
    by_cases hw : ∃ ws, w = mapping ws
    · obtain ⟨ws, rfl⟩ := hw
      rw [over_mapping, over_mapping, Settings.merge_eq_self fun e he => ?_]
      rw [Settings.lookup_merge hkeys, Assoc.lookup_of_mem_distinct hkeys he]
      cases ws.lookup e.1 with
      | none => exact ⟨e.2, rfl, over_self (hvalues e he)⟩
      | some w' => exact ⟨w'.over e.2, rfl, ih e he w'⟩
    · push Not at hw
      rw [over_of_not_mapping hw]
      exact over_self (.mapping hkeys hvalues)

end Value

namespace Settings

/-! ## Layers -/

/-- What a table must be to hold one layer of settings over another, path by path. -/
structure Layered (lower upper merged : Settings) : Prop where
  /-- An upper value that is no mapping takes the place of what is below it. -/
  replaced : ∀ path v, (Value.mapping upper).at? path = some v → (∀ es, v ≠ .mapping es) →
    (Value.mapping merged).at? path = some v
  /-- Two mappings are merged. -/
  merges : ∀ path ls us, (Value.mapping lower).at? path = some (.mapping ls) →
    (Value.mapping upper).at? path = some (.mapping us) →
      (Value.mapping merged).at? path = some (.mapping (merge ls us))
  /-- An upper mapping stands alone where there is no lower one. -/
  alone : ∀ path us, (∀ ls, (Value.mapping lower).at? path ≠ some (.mapping ls)) →
    (Value.mapping upper).at? path = some (.mapping us) →
      (Value.mapping merged).at? path = some (.mapping us)
  /-- Where the upper layer has nothing and hides nothing, the lower one shows. -/
  shows : ∀ path, (Value.mapping upper).at? path = none →
    (∀ path', path' <+: path → path' ≠ path → ∀ v, (Value.mapping upper).at? path' = some v →
      ∃ es, v = .mapping es) →
    (Value.mapping merged).at? path = (Value.mapping lower).at? path
  /-- Wherever mappings are merged, the lower keys come first and then the new upper ones. -/
  keys : ∀ path ls us, (Value.mapping lower).at? path = some (.mapping ls) →
    (Value.mapping upper).at? path = some (.mapping us) →
      ∃ ms, (Value.mapping merged).at? path = some (.mapping ms) ∧
        ms.map Prod.fst = ls.map Prod.fst ++
          (us.map Prod.fst).filter fun k => !Assoc.hasKey k ls
  /-- Keys that are equal as keys lead to the same value. -/
  spellings : ∀ path path', List.Forall₂ (fun j k => (j == k) = true) path path' →
    (Value.mapping merged).at? path = (Value.mapping merged).at? path'

/-- Merging layers settings path by path, and merging a layer twice is merging it once. -/
theorem merge_layered {lower upper : Settings} (h : (Value.mapping upper).Distinct) :
    Layered lower upper (merge lower upper) ∧
      merge (merge lower upper) upper = merge lower upper := by
  have hat {path : List Scalar} {v : Value} (hv : (Value.mapping upper).at? path = some v) :
      (Value.mapping (merge lower upper)).at? path =
        Value.stack (((Value.mapping lower).at? path).toList ++ [v]) := by
    rw [← Value.over_mapping]
    exact Value.at?_over h hv _
  have hmerges {path : List Scalar} {ls us : List (Scalar × Value)}
      (hl : (Value.mapping lower).at? path = some (.mapping ls))
      (hu : (Value.mapping upper).at? path = some (.mapping us)) :
      (Value.mapping (merge lower upper)).at? path = some (.mapping (merge ls us)) := by
    rw [hat hu, hl, ← Value.over_mapping]
    rfl
  refine ⟨⟨fun path v hv hne => ?_, fun path ls us => hmerges, fun path us hl hu => ?_,
    fun path hnone hopen => ?_, fun path ls us hl hu => ?_, fun path path' hk => ?_⟩, ?_⟩
  · rw [hat hv]
    cases (Value.mapping lower).at? path with
    | none => rfl
    | some w => exact congrArg some (Value.over_eq_self hne w)
  · rw [hat hu]
    cases hw : (Value.mapping lower).at? path with
    | none => rfl
    | some w =>
      refine congrArg some (Value.over_of_not_mapping (fun ls heq => hl ls ?_) us)
      rw [hw, heq]
  · rw [← Value.over_mapping]
    exact Value.at?_over_of_none h hnone hopen _
  · exact ⟨_, hmerges hl hu, keys_merge (Value.distinct_at? h hu).keys ls⟩
  · exact Value.at?_congr hk _
  · have htwice := Value.over_over h (.mapping lower)
    rw [Value.over_mapping, Value.over_mapping, Value.mapping.injEq] at htwice
    exact htwice

/-- Two layers that spell the key one in two ways. -/
def numberedShelves : Settings × Settings :=
  ([(.int 1, .mapping
      [(.string "a", .string "oak"), (.string "b", .mapping [(.string "c", .null)])]),
    (.string "x", .null)],
   [(.bool true, .mapping
      [(.string "b", .mapping [(.string "d", .list []), (.string "c", .string "ash")])]),
    (.string "x", .mapping [])])

theorem merge_layered_numberedShelves :
    (Value.mapping numberedShelves.2).Distinct ∧
      Layered numberedShelves.1 numberedShelves.2
        (merge numberedShelves.1 numberedShelves.2) ∧
      (Value.mapping (merge numberedShelves.1 numberedShelves.2)).at?
        [.float ⟨0x3ff0000000000000⟩, .string "b", .string "c"] = some (.string "ash") ∧
      merge (merge numberedShelves.1 numberedShelves.2) numberedShelves.2 =
        merge numberedShelves.1 numberedShelves.2 := by
  have hdistinct : (Value.mapping numberedShelves.2).Distinct := by
    refine .mapping (by decide) fun e he => ?_
    rcases List.mem_cons.1 he with rfl | he
    · refine .mapping (by decide) fun e he => ?_
      obtain rfl := List.mem_singleton.1 he
      refine .mapping (by decide) fun e he => ?_
      rcases List.mem_cons.1 he with rfl | he
      · exact .other nofun
      · obtain rfl := List.mem_singleton.1 he
        exact .other nofun
    · obtain rfl := List.mem_singleton.1 he
      exact .mapping (by decide) nofun
  obtain ⟨hlayered, htwice⟩ := @merge_layered numberedShelves.1 numberedShelves.2 hdistinct
  refine ⟨hdistinct, hlayered, ?_, htwice⟩
  have hspelling : List.Forall₂ (fun j k : Scalar => (j == k) = true)
      [.float ⟨0x3ff0000000000000⟩, .string "b", .string "c"]
      [.bool true, .string "b", .string "c"] :=
    .cons (by decide) (.cons (by decide) (.cons (by decide) .nil))
  rw [hlayered.spellings _ _ hspelling]
  exact hlayered.replaced _ _ rfl nofun

end Settings

end DoxPages
