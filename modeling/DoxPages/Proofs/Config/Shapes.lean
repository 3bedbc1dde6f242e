import DoxPages.Config.Check
import DoxPages.Config.Options
import DoxPages.Proofs.Config.Layers

/-!
# Shapes of settings

`WellShaped` says of each field what may stand there. Checking settings finds no problem
exactly if they are well-shaped, layers of well-shaped settings are well-shaped again, and
options can be made of them.
-/

namespace DoxPages

/-! ## Names as keys -/

theorem Scalar.string_beq_iff {name : String} {k : Scalar} :
    (Scalar.string name == k) = true ↔ k = .string name := by
  rw [beq_iff, show (string name).identity = .other (.string name) from rfl]
  constructor
  · intro h
    cases k with
    | string s =>
      obtain rfl := Scalar.string.inj (Identity.other.inj h)
      rfl
    | float x =>
      rw [identity] at h
      split at h <;> cases h
    | timestamp ts =>
      rw [identity] at h
      split at h <;> cases h
    | _ => cases h
  · rintro rfl
    rfl

namespace Settings

theorem isOneOf_string {names : List String} {name : String} :
    isOneOf names (.string name) = true ↔ name ∈ names := by
  rw [isOneOf, List.contains_iff_mem]

theorem isOneOf_iff {names : List String} {k : Scalar} :
    isOneOf names k = true ↔ ∃ name ∈ names, k = .string name := by
  cases k with
  | string s => rw [isOneOf_string]; simp
  | _ => simp [isOneOf]

theorem isOneOf_cons (name : String) (names : List String) (k : Scalar) :
    isOneOf (name :: names) k = (isOneOf [name] k || isOneOf names k) := by
  cases k with
  | string s => simp [isOneOf]
  | _ => rfl

theorem get?_single (name name' : String) (v : Value) :
    get? [(.string name, v)] name' = if name' = name then some v else none := by
  rw [get?, List.lookup_cons, List.lookup_nil]
  by_cases h : name' = name
  · rw [if_pos h, h, BEq.refl]
  · rw [if_neg h]
    have hk : (Scalar.string name' == .string name) = false := by
      rw [Bool.eq_false_iff, ne_eq, Scalar.string_beq_iff, Scalar.string.injEq]
      exact Ne.symm h
    rw [hk]

end Settings

/-! ## Shapes of single values -/

namespace Value

inductive IsStringList : Value → Prop where
  | list {items : List Value} (h : ∀ v ∈ items, v.isString = true) : IsStringList (.list items)

inductive IsStringMap : Value → Prop where
  | mapping {es : List (Scalar × Value)} (h : ∀ e ∈ es, e.2.isString = true) :
      IsStringMap (.mapping es)

inductive IsAliasMap : Value → Prop where
  | mapping {es : List (Scalar × Value)} (h : ∀ e ∈ es, e.2.IsStringList) :
      IsAliasMap (.mapping es)

end Value

namespace Settings

/-- What may stand under a name, if anything does. -/
def Holds (s : Settings) (field : String) (P : Value → Prop) : Prop :=
  ∀ v, get? s field = some v → P v

/-- An address in front, pages and operators; only the pages must be there. -/
structure IsLinkTable (s : Settings) : Prop where
  known : ∀ e ∈ s, isOneOf ["link_prefix", "link_map", "operator_map"] e.1 = true
  base : Holds s "link_prefix" fun v => v.isNull = true ∨ v.isString = true
  pages : ∃ v, get? s "link_map" = some v ∧ v.IsStringMap
  operators : Holds s "operator_map" fun v => v.isNull = true ∨ v.IsStringMap

end Settings

inductive Value.IsLinkTable : Value → Prop where
  | mapping {s : Settings} (h : s.IsLinkTable) : IsLinkTable (.mapping s)

namespace Settings

/-- Only known fields, and in each of them what it is for. -/
structure WellShaped (s : Settings) : Prop where
  known : ∀ e ∈ s, isOneOf knownFields e.1 = true
  strings : ∀ f ∈ stringFields, Holds s f fun v => v.isString = true
  lists : ∀ f ∈ stringListFields, Holds s f Value.IsStringList
  maps : ∀ f ∈ stringMapFields, Holds s f Value.IsStringMap
  aliases : Holds s aliasField fun v => v.isNull = true ∨ v.IsAliasMap
  links : ∀ f ∈ linkFields, Holds s f Value.IsLinkTable

/-! ## Checks -/

theorem checkString_eq_nil_iff (field : String) (v : Value) :
    checkString field v = [] ↔ v.isString = true := by
  rw [checkString]
  split <;> simp [*]

theorem checkStringList_eq_nil_iff (field : String) (v : Value) :
    checkStringList field v = [] ↔ v.IsStringList := by
  cases v with
  | list items =>
    rw [checkStringList, List.flatMap_eq_nil_iff]
    constructor
    · intro h
      refine .list fun v hv => ?_
      obtain ⟨i, hi, rfl⟩ := List.mem_iff_getElem.1 hv
      have hmem : (items[i], i) ∈ items.zipIdx := List.mk_mem_zipIdx_iff_getElem?.2 (by simp)
      exact (checkString_eq_nil_iff _ _).1 (h (items[i], i) hmem)
    · rintro ⟨h⟩ ⟨v, i⟩ hv
      exact (checkString_eq_nil_iff _ _).2 (h v (List.fst_mem_of_mem_zipIdx hv))
  | _ => exact ⟨nofun, nofun⟩

theorem checkStringMap_eq_nil_iff (field : String) (v : Value) :
    checkStringMap field v = [] ↔ v.IsStringMap := by
  cases v with
  | mapping es =>
    rw [checkStringMap, List.flatMap_eq_nil_iff]
    constructor
    · exact fun h => .mapping fun e he => (checkString_eq_nil_iff _ _).1 (h e he)
    · rintro ⟨h⟩ e he
      exact (checkString_eq_nil_iff _ _).2 (h e he)
  | _ => exact ⟨nofun, nofun⟩

theorem checkAliases_eq_nil_iff (v : Value) : checkAliases v = [] ↔ v.IsAliasMap := by
  cases v with
  | mapping es =>
    rw [checkAliases, List.flatMap_eq_nil_iff]
    constructor
    · exact fun h => .mapping fun e he => (checkStringList_eq_nil_iff _ _).1 (h e he)
    · rintro ⟨h⟩ e he
      exact (checkStringList_eq_nil_iff _ _).2 (h e he)
  | _ => exact ⟨nofun, nofun⟩

section
variable {s : Settings} {field : String} {check : Value → List SettingProblem}
  {P : Value → Prop} (hcheck : ∀ v, check v = [] ↔ P v)
include hcheck

theorem ifGiven_eq_nil_iff : ifGiven check (get? s field) = [] ↔ s.Holds field P := by
  unfold ifGiven Holds
  cases get? s field with
  | none => simp
  | some v => simp [hcheck]

theorem ifNotNull_eq_nil_iff : ifNotNull check (get? s field) = [] ↔
    s.Holds field fun v => v.isNull = true ∨ P v := by
  unfold ifNotNull ifGiven Holds
  cases get? s field with
  | none => simp
  | some v => cases hv : v.isNull <;> simp [Option.filter, hv, hcheck]

end

theorem unknown_eq_nil_iff {s : Settings} {names : List String}
    {problem : Scalar × Value → SettingProblem} :
    (s.filter fun e => !isOneOf names e.1).map problem = [] ↔
      ∀ e ∈ s, isOneOf names e.1 = true := by
  rw [List.map_eq_nil_iff, List.filter_eq_nil_iff]
  simp

theorem checkLinks_eq_nil_iff (field : String) (v : Value) :
    checkLinks field v = [] ↔ v.IsLinkTable := by
  cases v with
  | mapping es =>
    rw [checkLinks, List.append_eq_nil_iff, List.append_eq_nil_iff, List.append_eq_nil_iff,
      unknown_eq_nil_iff, ifNotNull_eq_nil_iff (checkString_eq_nil_iff _),
      ifNotNull_eq_nil_iff (checkStringMap_eq_nil_iff _)]
    constructor
    · rintro ⟨⟨⟨hknown, hbase⟩, hpages⟩, hoperators⟩
      refine .mapping ⟨hknown, hbase, ?_, hoperators⟩
      split at hpages
      · cases hpages
      · exact ⟨_, ‹_›, (checkStringMap_eq_nil_iff _ _).1 hpages⟩
    · rintro ⟨h⟩
      obtain ⟨v, hv, hmap⟩ := h.pages
      rw [hv]
      exact ⟨⟨⟨h.known, h.base⟩, (checkStringMap_eq_nil_iff _ v).2 hmap⟩, h.operators⟩
  | _ => exact ⟨nofun, nofun⟩

theorem checkFields_eq_nil_iff {s : Settings} {check : String → Value → List SettingProblem}
    {P : Value → Prop} {fields : List String} (hcheck : ∀ f v, check f v = [] ↔ P v) :
    checkFields s check fields = [] ↔ ∀ f ∈ fields, s.Holds f P := by
  rw [checkFields, List.flatMap_eq_nil_iff]
  exact forall₂_congr fun f _ => ifGiven_eq_nil_iff (hcheck f)

theorem problems_eq_nil_iff {s : Settings} : problems s = [] ↔ s.WellShaped := by
  simp only [problems, List.append_eq_nil_iff]
  rw [unknown_eq_nil_iff, checkFields_eq_nil_iff checkString_eq_nil_iff,
    checkFields_eq_nil_iff checkStringList_eq_nil_iff,
    checkFields_eq_nil_iff checkStringMap_eq_nil_iff, ifNotNull_eq_nil_iff checkAliases_eq_nil_iff,
    checkFields_eq_nil_iff checkLinks_eq_nil_iff]
  constructor
  · rintro ⟨⟨⟨⟨⟨hknown, hstrings⟩, hlists⟩, hmaps⟩, haliases⟩, hlinks⟩
    exact ⟨hknown, hstrings, hlists, hmaps, haliases, hlinks⟩
  · intro h
    exact ⟨⟨⟨⟨⟨h.known, h.strings⟩, h.lists⟩, h.maps⟩, h.aliases⟩, h.links⟩

end Settings

/-! ## Layers -/

namespace Value

theorem over_of_isString {v : Value} (h : v.isString = true) (lower : Value) :
    lower.over v = v := by
  refine over_eq_self (fun es hes => ?_) lower
  rw [hes] at h
  cases h

theorem over_of_isNull {v : Value} (h : v.isNull = true) (lower : Value) :
    lower.over v = v := by
  refine over_eq_self (fun es hes => ?_) lower
  rw [hes] at h
  cases h

theorem isBlank_of_isNull {v : Value} (h : v.isNull = true) : v.isBlank = true := by
  cases v with
  | scalar s => cases s <;> first | rfl | cases h
  | _ => cases h

theorem exists_string?_of_isString {v : Value} (h : v.isString = true) :
    ∃ text, v.string? = some text := by
  cases v with
  | scalar s =>
    cases s with
    | string text => exact ⟨text, rfl⟩
    | _ => cases h
  | _ => cases h

theorem isKey_of_isString {v : Value} (h : v.isString = true) : v.isKey = true := by
  cases v with
  | scalar s => rfl
  | _ => cases h

theorem over_mapping (lower upper : List (Scalar × Value)) :
    (mapping lower).over (mapping upper) = mapping (Settings.merge lower upper) := by
  rw [Value.over]

theorem over_of_not_mapping {w : Value} (h : ∀ es, w ≠ mapping es) (us : List (Scalar × Value)) :
    w.over (mapping us) = mapping us := by
  cases w with
  | mapping es => exact absurd rfl (h es)
  | _ => rw [Value.over]; simp

theorem IsStringList.over {v w : Value} (h : w.IsStringList) : (v.over w).IsStringList := by
  obtain ⟨h⟩ := h
  rw [over_eq_self (v := .list _) nofun]
  exact .list h

theorem IsStringMap.over {v w : Value} (hv : v.IsStringMap) (hw : w.IsStringMap) :
    (v.over w).IsStringMap := by
  obtain ⟨hv⟩ := hv
  obtain ⟨hw⟩ := hw
  rw [over_mapping]
  refine .mapping (Settings.value_of_mem_merge (P := fun v => v.isString = true) ?_ hv hw)
  intro v w _ hw
  rwa [over_of_isString hw]

theorem IsAliasMap.over {v w : Value} (hv : v.IsAliasMap) (hw : w.IsAliasMap) :
    (v.over w).IsAliasMap := by
  obtain ⟨hv⟩ := hv
  obtain ⟨hw⟩ := hw
  rw [over_mapping]
  exact .mapping (Settings.value_of_mem_merge (fun _ _ _ hw => hw.over) hv hw)

/-- What may be null stays so, since null hides what is below it. -/
theorem nullOr_over {P : Value → Prop} (hP : ∀ v w : Value, P v → P w → P (v.over w))
    (hlow : ∀ v w : Value, v.isNull = true → P w → P (v.over w)) {v w : Value}
    (hv : v.isNull = true ∨ P v) (hw : w.isNull = true ∨ P w) :
    (v.over w).isNull = true ∨ P (v.over w) := by
  rcases hw with hw | hw
  · rw [over_of_isNull hw]
    exact .inl hw
  · rcases hv with hv | hv
    · exact .inr (hlow v w hv hw)
    · exact .inr (hP v w hv hw)

theorem over_mapping_of_isNull {v : Value} (h : v.isNull = true) (es : List (Scalar × Value)) :
    v.over (mapping es) = mapping es := by
  refine over_of_not_mapping (fun es' heq => ?_) es
  rw [heq] at h
  cases h

end Value

namespace Settings

variable {lower upper : Settings} {field : String} {P : Value → Prop}

theorem get?_merge_cases (h : Assoc.Distinct upper) {v : Value}
    (hv : get? (merge lower upper) field = some v) :
    get? lower field = some v ∨ get? upper field = some v ∨
      ∃ old new, get? lower field = some old ∧ get? upper field = some new ∧
        v = old.over new := by
  rw [get?, lookup_merge h] at hv
  rw [get?, get?]
  cases hlower : lower.lookup (.string field) <;> cases hupper : upper.lookup (.string field) <;>
    rw [hlower, hupper] at hv <;> cases hv
  · exact .inr (.inl rfl)
  · exact .inl rfl
  · exact .inr (.inr ⟨_, _, rfl, rfl, rfl⟩)

theorem distinct_of_get? (h : (Value.mapping upper).Distinct) {v : Value}
    (hv : get? upper field = some v) : v.Distinct := by
  obtain ⟨e, he, -, rfl⟩ := Assoc.exists_mem_of_lookup hv
  exact h.values he

theorem Holds.merge (hdistinct : (Value.mapping upper).Distinct)
    (hP : ∀ v w, P v → P w → w.Distinct → P (v.over w)) (hlower : lower.Holds field P)
    (hupper : upper.Holds field P) : Holds (merge lower upper) field P := by
  intro v hv
  rcases get?_merge_cases hdistinct.keys hv with hv | hv | ⟨old, new, hold, hnew, rfl⟩
  · exact hlower v hv
  · exact hupper v hv
  · exact hP old new (hlower old hold) (hupper new hnew) (distinct_of_get? hdistinct hnew)

theorem IsLinkTable.merge (hdistinct : (Value.mapping upper).Distinct)
    (hlower : lower.IsLinkTable) (hupper : upper.IsLinkTable) :
    IsLinkTable (merge lower upper) where
  known := key_of_mem_merge (P := fun k => _ = true) hlower.known hupper.known
  base := by
    refine hlower.base.merge hdistinct (fun v w hv hw _ => ?_) hupper.base
    refine Value.nullOr_over (P := fun v => v.isString = true) ?_ ?_ hv hw
    · intro v w _ hw
      rwa [Value.over_of_isString hw]
    · intro v w _ hw
      rwa [Value.over_of_isString hw]
  pages := by
    obtain ⟨old, hold, hlow⟩ := hlower.pages
    obtain ⟨new, hnew, hupp⟩ := hupper.pages
    refine ⟨old.over new, ?_, hlow.over hupp⟩
    rw [get?] at hold hnew
    rw [get?, lookup_merge hdistinct.keys, hold, hnew]
    rfl
  operators := by
    refine hlower.operators.merge hdistinct (fun v w hv hw _ => ?_) hupper.operators
    refine Value.nullOr_over (fun _ _ hv hw => hv.over hw) (fun v w hv hw => ?_) hv hw
    obtain ⟨hw⟩ := hw
    rw [Value.over_mapping_of_isNull hv]
    exact .mapping hw

theorem WellShaped.merge (hdistinct : (Value.mapping upper).Distinct)
    (hlower : lower.WellShaped) (hupper : upper.WellShaped) :
    WellShaped (merge lower upper) where
  known := key_of_mem_merge (P := fun k => isOneOf knownFields k = true) hlower.known hupper.known
  strings f hf := (hlower.strings f hf).merge hdistinct
    (fun v w _ hw _ => by rwa [Value.over_of_isString hw]) (hupper.strings f hf)
  lists f hf := (hlower.lists f hf).merge hdistinct (fun _ _ _ hw _ => hw.over)
    (hupper.lists f hf)
  maps f hf := (hlower.maps f hf).merge hdistinct (fun _ _ hv hw _ => hv.over hw)
    (hupper.maps f hf)
  aliases := by
    refine hlower.aliases.merge hdistinct (fun v w hv hw _ => ?_) hupper.aliases
    refine Value.nullOr_over (fun _ _ hv hw => hv.over hw) (fun v w hv hw => ?_) hv hw
    obtain ⟨hw⟩ := hw
    rw [Value.over_mapping_of_isNull hv]
    exact .mapping hw
  links f hf := by
    refine (hlower.links f hf).merge hdistinct (fun v w hv hw hdistinct => ?_) (hupper.links f hf)
    obtain ⟨hv⟩ := hv
    obtain ⟨hw⟩ := hw
    rw [Value.over_mapping]
    exact .mapping (hv.merge hdistinct hw)

/-! ## Options -/

theorem Holds.of_given? (h : s.Holds field P) {v : Value} (hv : given? s field = some v) : P v :=
  h v (Option.filter_eq_some_iff.1 hv).1

/-- Null counts as absent. -/
theorem Holds.of_given?_nullOr (h : s.Holds field fun v => v.isNull = true ∨ P v) {v : Value}
    (hv : given? s field = some v) : P v := by
  obtain ⟨hget, hblank⟩ := Option.filter_eq_some_iff.1 hv
  refine (h v hget).resolve_left fun hnull => ?_
  rw [Value.isBlank_of_isNull hnull] at hblank
  cases hblank

end Settings

theorem exists_ok_mapM {ε α β : Type} {f : α → Except ε β} {as : List α}
    (h : ∀ a ∈ as, ∃ b, f a = .ok b) : ∃ bs, as.mapM f = .ok bs := by
  induction as with
  | nil => exact ⟨[], rfl⟩
  | cons a as ih =>
    rw [List.forall_mem_cons] at h
    obtain ⟨b, hb⟩ := h.1
    obtain ⟨bs, hbs⟩ := ih h.2
    exact ⟨b :: bs, by rw [List.mapM_cons, hb, hbs]; rfl⟩

theorem LinkTable.exists_addresses {s : Settings} {name : String} (field : String)
    (h : s.Holds name fun v => v.isNull = true ∨ v.IsStringMap) :
    ∃ links, addresses field name s = .ok links := by
  unfold addresses
  cases hv : s.given? name with
  | none => exact ⟨_, rfl⟩
  | some v =>
    obtain ⟨hmap⟩ := h.of_given?_nullOr hv
    have hbad : (‹List (Scalar × Value)›.filter fun e => !e.2.isString) = [] :=
      List.filter_eq_nil_iff.2 fun e he => by simp [hmap e he]
    exact ⟨_, if_pos (by rw [hbad]; rfl)⟩

theorem LinkTable.exists_ofValue {v : Value} (field : String) (h : v.IsLinkTable) :
    ∃ links, ofValue field v = .ok links := by
  obtain @⟨s, hlinks⟩ := h
  have hpages : s.Holds "link_map" fun v => v.isNull = true ∨ v.IsStringMap := by
    intro v hv
    obtain ⟨w, hw, hmap⟩ := hlinks.pages
    rw [hv, Option.some.injEq] at hw
    exact .inr (hw ▸ hmap)
  obtain ⟨pages, hpages⟩ := exists_addresses field hpages
  obtain ⟨operators, hoperators⟩ := exists_addresses field hlinks.operators
  exact ⟨_, by rw [ofValue, hpages, hoperators]; rfl⟩

namespace Options

variable {s : Settings}

theorem itemsOf_list (field : String) (items : List Value) :
    itemsOf field (.list items) = .ok items :=
  rfl

theorem exists_scopesOf {v : Value} (field : String) (h : v.IsStringList) :
    ∃ scopes, scopesOf field v = .ok scopes := by
  obtain ⟨hitems⟩ := h
  have hkeys : ‹List Value›.all Value.isKey = true :=
    List.all_eq_true.2 fun v hv => Value.isKey_of_isString (hitems v hv)
  exact ⟨_, by rw [scopesOf, itemsOf_list]; exact if_pos hkeys⟩

theorem exists_aliasesOf
    (h : s.Holds Settings.aliasField fun v => v.isNull = true ∨ v.IsAliasMap) :
    ∃ aliases, aliasesOf s = .ok aliases := by
  rw [aliasesOf]
  cases hv : s.given? "namespace_aliases" with
  | none => exact ⟨_, rfl⟩
  | some v =>
    obtain @⟨es, hscopes⟩ := h.of_given?_nullOr hv
    have hnamed : ∀ e ∈ es, ∃ named : List (String × Scalar), (do
        return (← scopesOf "namespace_aliases" e.2).map fun scope => (scope, e.1)) =
          (.ok named : Except OptionsError _) := by
      intro e he
      obtain ⟨scopes, hok⟩ := exists_scopesOf "namespace_aliases" (hscopes e he)
      exact ⟨_, by rw [hok]; rfl⟩
    obtain ⟨named, hnamed⟩ := exists_ok_mapM hnamed
    exact ⟨_, by simp only [hnamed]; rfl⟩

theorem exists_laidOver (table : List (String × String)) {field : String}
    (h : s.Holds field Value.IsStringMap) : ∃ texts, laidOver table s field = .ok texts := by
  rw [laidOver]
  cases hv : s.given? field with
  | none => exact ⟨_, rfl⟩
  | some v =>
    obtain @⟨es, hes⟩ := h.of_given? hv
    have htexts : ∀ e ∈ es.map fun e => (Value.scalar e.1, e.2),
        ∃ text, textOf field e = .ok text := by
      rw [List.forall_mem_map]
      intro e he
      obtain ⟨text, htext⟩ := Value.exists_string?_of_isString (hes e he)
      rw [textOf, htext]
      cases (Value.scalar e.1).string? <;> exact ⟨_, rfl⟩
    obtain ⟨texts, htexts⟩ := exists_ok_mapM htexts
    refine ⟨Assoc.putAll table (texts.filterMap id), ?_⟩
    show ((es.map fun e => (Value.scalar e.1, e.2)).mapM (textOf field) >>= fun texts =>
      .ok (Assoc.putAll table (texts.filterMap id))) = _
    rw [htexts]
    rfl

theorem exists_kindsOf (h : s.Holds "compound_kinds" Value.IsStringList) :
    ∃ kinds, kindsOf s = .ok kinds := by
  unfold kindsOf
  cases hv : s.given? "compound_kinds" with
  | none => exact ⟨_, rfl⟩
  | some v =>
    obtain ⟨-⟩ := h.of_given? hv
    exact ⟨_, rfl⟩

theorem exists_prefixOf (h : s.Holds "prefix" fun v => v.isString = true) :
    ∃ text, prefixOf s = .ok text := by
  unfold prefixOf
  cases hv : s.given? "prefix" with
  | none => exact ⟨_, rfl⟩
  | some v =>
    obtain ⟨text, htext⟩ := Value.exists_string?_of_isString (h.of_given? hv)
    exact ⟨text, by simp only [htext]⟩

end Options

theorem Settings.WellShaped.options {s : Settings} (h : s.WellShaped) :
    ∃ o, Options.ofSettings s = .ok o := by
  obtain ⟨aliases, haliases⟩ := Options.exists_aliasesOf h.aliases
  obtain ⟨sections, hsections⟩ :=
    Options.exists_laidOver defaultSectionKinds (h.maps "sections" (by decide))
  obtain ⟨renames, hrenames⟩ :=
    Options.exists_laidOver defaultRenames (h.maps "overload_names" (by decide))
  obtain ⟨kinds, hkinds⟩ := Options.exists_kindsOf (h.lists "compound_kinds" (by decide))
  obtain ⟨idl, hidl⟩ : ∃ idl, LinkTable.ofValue "idl_type_links"
      ((Settings.get? s "idl_type_links").getD .null) = .ok idl := by
    cases hv : Settings.get? s "idl_type_links" with
    | none => exact ⟨_, rfl⟩
    | some v => exact LinkTable.exists_ofValue _ (h.links _ (by decide) v hv)
  obtain ⟨text, hprefix⟩ := Options.exists_prefixOf (h.strings "prefix" (by decide))
  rw [Options.ofSettings, haliases, hsections, hrenames, hkinds, hidl, hprefix]
  cases hstd : (Settings.get? s "std_type_links").filter fun v => !v.isNull with
  | none => exact ⟨_, rfl⟩
  | some v =>
    obtain ⟨hv, -⟩ := Option.filter_eq_some_iff.1 hstd
    obtain ⟨std, hstd⟩ :=
      LinkTable.exists_ofValue "std_type_links" (h.links _ (by decide) v hv)
    exact ⟨_, by simp only [hstd]; rfl⟩

end DoxPages
