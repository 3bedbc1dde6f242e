import DoxPages.Proofs.Config.Entries

/-!
# Parts of a link table

A link table is checked entry by entry but for the pages that it must have. `LinkPart` names
what a table can have, and `LinkPart.share` what each part contributes to what is said about
it. The message itself tells the part that it is about, by how it ends or else by the name
behind the field, so no two parts contribute the same message.
-/

namespace DoxPages

namespace Settings

variable (field : String)

def linkMessages (t : Settings) : List String :=
  (checkLinks field (.mapping t)).map SettingProblem.message

/-- The problems of a link table but for pages that are missing. -/
def linkFaults (t : Settings) : List SettingProblem :=
  (t.filter fun e => !isOneOf ["link_prefix", "link_map", "operator_map"] e.1).map
      (fun e => .unknown s!"{field}.{e.1.text}")
    ++ ifNotNull (checkString s!"{field}.link_prefix") (get? t "link_prefix")
    ++ ifGiven (checkStringMap s!"{field}.link_map") (get? t "link_map")
    ++ ifNotNull (checkStringMap s!"{field}.operator_map") (get? t "operator_map")

theorem entrywise_linkFaults : Entrywise (linkFaults field) :=
  (((entrywise_unknown _ _).append
    (entrywise_get? (ifNotNull (checkString s!"{field}.link_prefix")) rfl _)).append
    (entrywise_get? (ifGiven (checkStringMap s!"{field}.link_map")) rfl _)).append
    (entrywise_get? (ifNotNull (checkStringMap s!"{field}.operator_map")) rfl _)

def missingPages (t : Settings) : List String :=
  if Assoc.hasKey (.string "link_map") t then []
  else [SettingProblem.message (.missing s!"{field}.link_map")]

theorem missingPages_eq_nil {t : Settings} {v : Value} (h : get? t "link_map" = some v) :
    missingPages field t = [] := by
  rw [get?] at h
  rw [missingPages, Assoc.hasKey, h, Option.isSome_some, if_pos rfl]

theorem linkMessages_perm (t : Settings) : (linkMessages field t).Perm
    ((linkFaults field t).map SettingProblem.message ++ missingPages field t) := by
  have hkey : Assoc.hasKey (.string "link_map") t = (get? t "link_map").isSome := rfl
  rw [linkMessages, checkLinks, linkFaults, missingPages, hkey]
  cases hpages : get? t "link_map" with
  | none =>
    simp only [ifGiven, Option.map_none, Option.getD_none, Option.isSome_none,
      List.map_append, List.append_nil, Bool.false_eq_true, ↓reduceIte, List.append_assoc]
    exact (List.perm_append_comm.append_left _).append_left _
  | some v =>
    simp only [ifGiven, Option.map_some, Option.getD_some, Option.isSome_some, ↓reduceIte,
      List.append_nil, List.Perm.refl]

/-! ## Entries on their own -/

theorem linkFaults_pages (v : Value) :
    linkFaults field [(.string "link_map", v)] = checkStringMap s!"{field}.link_map" v := by
  simp [linkFaults, isOneOf, get?_single, ifNotNull, ifGiven]

theorem linkFaults_operators (v : Value) : linkFaults field [(.string "operator_map", v)] =
    ifNotNull (checkStringMap s!"{field}.operator_map") (some v) := by
  simp [linkFaults, isOneOf, get?_single, ifNotNull, ifGiven]

/-- A link table with an entry on its own, beside no pages unless the entry is the pages. -/
def onItsOwn (e : Scalar × Value) : Settings :=
  if isOneOf ["link_map"] e.1 then [e] else [e, (.string "link_map", .mapping [])]

theorem linkMessages_onItsOwn (e : Scalar × Value) : (linkMessages field (onItsOwn e)).Perm
    ((linkFaults field [e]).map SettingProblem.message) := by
  obtain ⟨k, v⟩ := e
  refine (linkMessages_perm field _).trans ?_
  unfold onItsOwn
  by_cases hk : isOneOf ["link_map"] k = true
  · obtain ⟨name, hname, rfl⟩ := isOneOf_iff.1 hk
    obtain rfl := List.mem_singleton.1 hname
    rw [if_pos hk, missingPages_eq_nil field (v := v) (by rw [get?_single, if_pos rfl]),
      List.append_nil]
  · have hne : (Scalar.string "link_map" == k) = false := by
      rw [Bool.eq_false_iff, ne_eq, Scalar.string_beq_iff]
      exact fun heq => hk (by rw [heq]; rfl)
    have hdistinct : Assoc.Distinct [(k, v), (.string "link_map", .mapping [])] := by
      refine Assoc.distinct_cons.2 ⟨fun d hd => ?_, List.pairwise_singleton _ _⟩
      obtain rfl := List.mem_singleton.1 hd
      rwa [BEq.comm]
    have hfaults := (entrywise_linkFaults field).cons _ _ hdistinct
    rw [linkFaults_pages, show checkStringMap _ (.mapping []) = [] from rfl,
      List.append_nil] at hfaults
    have hpages : get? [(k, v), (.string "link_map", .mapping [])] "link_map" =
        some (.mapping []) := by
      rw [get?, List.lookup_cons, hne]
      exact (get?_single _ _ _).trans (if_pos rfl)
    rw [if_neg hk, missingPages_eq_nil field hpages, List.append_nil]
    exact hfaults.map _

/-- The entries of a mapping, each on its own under the key of the mapping. -/
def singles : Scalar × Value → List (Scalar × Value)
  | (k, .mapping es) => es.map fun d => (k, .mapping [d])
  | e => [e]

theorem flatMap_checkStringMap (es : List (Scalar × Value)) :
    (es.flatMap fun d => checkStringMap field (.mapping [d])) =
      checkStringMap field (.mapping es) := by
  simp only [checkStringMap, List.flatMap_cons, List.flatMap_nil, List.append_nil]

theorem flatMap_singles {e : Scalar × Value}
    (h : isOneOf ["link_map", "operator_map"] e.1 = true) :
    ((singles e).flatMap fun d => linkFaults field [d]) = linkFaults field [e] := by
  obtain ⟨k, v⟩ := e
  obtain ⟨name, hname, rfl⟩ := isOneOf_iff.1 h
  cases v with
  | mapping es =>
    rw [singles, List.flatMap_map]
    rcases List.mem_cons.1 hname with rfl | hname
    · simp only [linkFaults_pages, flatMap_checkStringMap]
    · obtain rfl := List.mem_singleton.1 hname
      simp only [linkFaults_operators]
      exact flatMap_checkStringMap _ es
  | _ => exact List.flatMap_singleton ..

/-! ## What the parts contribute -/

def under (name : String) (t : Settings) : Settings := t.filter fun e => isOneOf [name] e.1

theorem name_of_mem_under {name : String} {t : Settings} {e : Scalar × Value}
    (h : e ∈ under name t) : e.1 = .string name := by
  obtain ⟨name', hname, heq⟩ := isOneOf_iff.1 (List.mem_filter.1 h).2
  rw [heq, List.mem_singleton.1 hname]

/-- What is said about entries of a link table, each on its own. -/
def saidOf (es : Settings) : List String := es.flatMap fun e => linkMessages field (onItsOwn e)

theorem saidOf_perm (es : Settings) : (saidOf field es).Perm
    (es.flatMap fun e => (linkFaults field [e]).map SettingProblem.message) :=
  List.Perm.flatMap_left es fun e _ => linkMessages_onItsOwn field e

theorem saidOf_singles_perm {es : Settings}
    (h : ∀ e ∈ es, isOneOf ["link_map", "operator_map"] e.1 = true) :
    (saidOf field (es.flatMap singles)).Perm
      (es.flatMap fun e => (linkFaults field [e]).map SettingProblem.message) := by
  refine (saidOf_perm field _).trans (List.Perm.of_eq ?_)
  rw [List.flatMap_assoc]
  refine List.flatMap_congr fun e he => ?_
  rw [← flatMap_singles field (h e he), List.map_flatMap]

/-- Every entry is under one of some names or under none of them. -/
theorem perm_under (names : List String) (h : names.Nodup) (t : Settings) :
    t.Perm ((names.flatMap fun name => under name t) ++
      t.filter fun e => !isOneOf names e.1) := by
  induction names generalizing t with
  | nil =>
    have hall : ∀ e ∈ t, (!isOneOf [] e.1) = true := by
      rintro ⟨k, v⟩ -
      cases k <;> rfl
    rw [List.flatMap_nil, List.nil_append, List.filter_eq_self.2 hall]
  | cons name names ih =>
    obtain ⟨hname, hnames⟩ := List.nodup_cons.1 h
    have hrest := ih hnames (t.filter fun e => !isOneOf [name] e.1)
    have hunder : (names.flatMap fun name' => under name' (t.filter fun e => !isOneOf [name] e.1)) =
        names.flatMap fun name' => under name' t := by
      refine List.flatMap_congr fun name' hname' => ?_
      rw [under, under, List.filter_filter]
      refine List.filter_congr fun e _ => ?_
      rw [Bool.and_eq_left_iff_imp, Bool.not_eq_true', Bool.eq_false_iff]
      intro he hother
      obtain ⟨n, hn, heq⟩ := isOneOf_iff.1 he
      obtain ⟨m, hm, heq'⟩ := isOneOf_iff.1 hother
      rw [List.mem_singleton] at hn hm
      rw [heq, hn, hm, Scalar.string.injEq] at heq'
      exact hname (heq' ▸ hname')
    have hnone : (t.filter fun e => !isOneOf [name] e.1).filter (fun e => !isOneOf names e.1) =
        t.filter fun e => !isOneOf (name :: names) e.1 := by
      rw [List.filter_filter]
      refine List.filter_congr fun e _ => ?_
      rw [isOneOf_cons name names, Bool.not_or, Bool.and_comm]
    rw [hunder, hnone] at hrest
    rw [List.flatMap_cons, List.append_assoc]
    exact (List.filter_append_perm _ t).symm.trans (hrest.append_left _)

end Settings

/-- What a link table has: an address in front, pages, operators, entries under other keys,
and perhaps no pages. -/
inductive LinkPart where
  | base
  | pages
  | operators
  | others
  | missing
  deriving DecidableEq, Repr

namespace LinkPart

open Settings

variable (field : String)

def all : List LinkPart := [base, pages, operators, others, missing]

/-- What a part contributes to what is said about a table: each page and each operator on
its own, as any other entry. -/
def share (t : Settings) : LinkPart → List String
  | base => saidOf field (under "link_prefix" t)
  | pages => saidOf field ((under "link_map" t).flatMap singles)
  | operators => saidOf field ((under "operator_map" t).flatMap singles)
  | others => saidOf field
      (t.filter fun e => !isOneOf ["link_prefix", "link_map", "operator_map"] e.1)
  | missing => missingPages field t

theorem linkMessages_perm_shares {t : Settings} (h : Assoc.Distinct t) :
    (linkMessages field t).Perm (all.flatMap (share field t)) := by
  let said (es : Settings) : List String :=
    es.flatMap fun e => (linkFaults field [e]).map SettingProblem.message
  have hmaps (name : String) (hname : name ∈ ["link_map", "operator_map"]) :
      (saidOf field ((under name t).flatMap singles)).Perm (said (under name t)) :=
    saidOf_singles_perm field fun e he => isOneOf_iff.2 ⟨name, hname, name_of_mem_under he⟩
  have hentries : ((linkFaults field t).map SettingProblem.message).Perm (said t) :=
    ((entrywise_linkFaults field).map _).perm h
  have hparts := (perm_under ["link_prefix", "link_map", "operator_map"] (by decide)
    t).flatMap_right fun e => (linkFaults field [e]).map SettingProblem.message
  simp only [List.flatMap_append, List.flatMap_cons, List.flatMap_nil, List.append_nil,
    List.append_assoc] at hparts
  simp only [all, List.flatMap_cons, List.flatMap_nil, List.append_nil, share,
    ← List.append_assoc]
  refine (linkMessages_perm field t).trans (List.Perm.append_right _ ?_)
  refine (hentries.trans hparts).trans ?_
  simp only [List.append_assoc]
  exact (saidOf_perm field _).symm.append ((hmaps _ (by decide)).symm.append
    ((hmaps _ (by decide)).symm.append (saidOf_perm field _).symm))

end LinkPart

namespace Settings

variable (field : String)

/-! ## Messages tell the parts apart -/

theorem mem_ifGiven {check : Value → List SettingProblem} {v : Option Value}
    {p : SettingProblem} : p ∈ ifGiven check v ↔ ∃ w, v = some w ∧ p ∈ check w := by
  cases v <;> simp [ifGiven]

theorem exists_of_mem_ifNotNull {check : Value → List SettingProblem} {v : Option Value}
    {p : SettingProblem} (h : p ∈ ifNotNull check v) : ∃ w, v = some w ∧ p ∈ check w := by
  obtain ⟨w, hw, hp⟩ := mem_ifGiven.1 h
  exact ⟨w, (Option.filter_eq_some_iff.1 hw).1, hp⟩

/-- A problem of a value that stands in a field or below it. -/
def Concerns (p : SettingProblem) : Prop :=
  ∃ (below expected : String) (v : Value), p = .mistyped (field ++ below) expected v.typeName

theorem concerns_of_mem_checkString {v : Value} {p : SettingProblem}
    (h : p ∈ checkString field v) : Concerns field p := by
  rw [checkString] at h
  split at h
  · cases h
  · obtain rfl := List.mem_singleton.1 h
    exact ⟨"", _, v, by rw [String.append_empty]⟩

theorem concerns_of_mem_checkStringMap {v : Value} {p : SettingProblem}
    (h : p ∈ checkStringMap field v) : Concerns field p := by
  cases v with
  | mapping es =>
    obtain ⟨e, -, hp⟩ := List.mem_flatMap.1 h
    obtain ⟨below, expected, w, rfl⟩ := concerns_of_mem_checkString _ hp
    refine ⟨"." ++ (e.1.text ++ below), expected, w, congrArg (SettingProblem.mistyped · _ _) ?_⟩
    exact (String.append_assoc ..).trans (String.append_assoc ..)
  | _ =>
    obtain rfl := List.mem_singleton.1 h
    exact ⟨"", _, _, by rw [String.append_empty]⟩

/-- An entry on its own is unknown or concerns the part of its name. -/
theorem of_mem_linkFaults {e : Scalar × Value} {p : SettingProblem}
    (h : p ∈ linkFaults field [e]) :
    (isOneOf ["link_prefix", "link_map", "operator_map"] e.1 = false ∧ ∃ f, p = .unknown f) ∨
      ∃ name ∈ ["link_prefix", "link_map", "operator_map"], e.1 = .string name ∧
        Concerns (field ++ ("." ++ name)) p := by
  have hname {name : String} {v : Value} (h : get? [e] name = some v) : e.1 = .string name := by
    obtain ⟨d, hd, hk, -⟩ := Assoc.exists_mem_of_lookup h
    rw [List.mem_singleton.1 hd] at hk
    exact Scalar.string_beq_iff.1 hk
  simp only [linkFaults, List.mem_append] at h
  rcases h with ((h | h) | h) | h
  · obtain ⟨d, hd, rfl⟩ := List.mem_map.1 h
    obtain ⟨hd, hunknown⟩ := List.mem_filter.1 hd
    rw [List.mem_singleton.1 hd, Bool.not_eq_true'] at hunknown
    exact .inl ⟨hunknown, _, rfl⟩
  · obtain ⟨v, hv, hp⟩ := exists_of_mem_ifNotNull h
    exact .inr ⟨_, by decide, hname hv, concerns_of_mem_checkString _ hp⟩
  · obtain ⟨v, hv, hp⟩ := mem_ifGiven.1 h
    exact .inr ⟨_, by decide, hname hv, concerns_of_mem_checkStringMap _ hp⟩
  · obtain ⟨v, hv, hp⟩ := exists_of_mem_ifNotNull h
    exact .inr ⟨_, by decide, hname hv, concerns_of_mem_checkStringMap _ hp⟩

end Settings

namespace SettingProblem

/-- How the message of a problem ends, which tells its kind. -/
def ending : SettingProblem → String
  | unknown _ => ": unknown field"
  | missing _ => ": required field is missing"
  | mistyped _ _ found => ", got " ++ found

theorem ending_suffix (p : SettingProblem) : p.ending.toList <:+ p.message.toList := by
  cases p with
  | mistyped field expected found =>
    refine ⟨(field ++ ": expected " ++ expected).toList, ?_⟩
    rw [← String.toList_append]
    exact congrArg String.toList (String.append_assoc ..).symm
  | _ field =>
    refine ⟨field.toList, ?_⟩
    rw [← String.toList_append]
    rfl

/-- A message ends as its kind does only. -/
theorem not_suffix_message {p : SettingProblem} {last : List Char}
    (h : ¬ (last <:+ p.ending.toList ∨ p.ending.toList <:+ last)) :
    ¬ last <:+ p.message.toList :=
  fun hlast => h (List.suffix_or_suffix_of_suffix hlast p.ending_suffix)

end SettingProblem

def Value.typeNames : List String :=
  ["null", "bool", "int", "float", "string", "date", "datetime", "bytes", "list", "mapping",
    "set", "tuple"]

theorem Value.typeName_mem (v : Value) : v.typeName ∈ typeNames := by
  cases v with
  | scalar s => cases s <;> simp [typeName, Scalar.typeName, typeNames]
  | _ => simp [typeName, typeNames]

namespace Settings

variable {field : String}

theorem Concerns.prefix_message {p : SettingProblem} (h : Concerns field p) :
    field.toList <+: p.message.toList := by
  obtain ⟨below, expected, v, rfl⟩ := h
  refine ⟨(below ++ ": expected " ++ expected ++ ", got " ++ v.typeName).toList, ?_⟩
  rw [← String.toList_append]
  refine congrArg String.toList (Eq.symm ?_)
  show field ++ below ++ ": expected " ++ expected ++ ", got " ++ v.typeName = _
  simp only [String.append_assoc]

theorem Concerns.not_suffix_message {p : SettingProblem} (h : Concerns field p) {last : String}
    (hlast : last ∈ [": unknown field", ": required field is missing"]) :
    ¬ last.toList <:+ p.message.toList := by
  obtain ⟨below, expected, v, rfl⟩ := h
  have hendings : ∀ last ∈ [": unknown field", ": required field is missing"],
      ∀ found ∈ Value.typeNames, ¬ (last.toList <:+ (", got " ++ found).toList ∨
        (", got " ++ found).toList <:+ last.toList) := by
    decide
  exact SettingProblem.not_suffix_message (hendings last hlast _ v.typeName_mem)

/-- A message about one name does not begin with another, unless one name goes on as the
other. -/
theorem Concerns.not_prefix_message {a b : String} {p : SettingProblem}
    (h : Concerns (field ++ a) p) (hab : ¬ (a.toList <+: b.toList ∨ b.toList <+: a.toList)) :
    ¬ (field ++ b).toList <+: p.message.toList := by
  intro hb
  have ha := h.prefix_message
  rw [String.toList_append] at ha hb
  have hor := List.prefix_or_prefix_of_prefix ha hb
  rw [List.prefix_append_right_inj, List.prefix_append_right_inj] at hor
  exact hab hor

theorem exists_of_mem_saidOf {es : Settings} {m : String} (h : m ∈ saidOf field es) :
    ∃ e ∈ es, ∃ p ∈ linkFaults field [e], p.message = m := by
  obtain ⟨e, he, hm⟩ := List.mem_flatMap.1 ((saidOf_perm field es).mem_iff.1 h)
  exact ⟨e, he, List.mem_map.1 hm⟩

theorem concerns_of_mem_saidOf {es : Settings} {name m : String}
    (hname : name ∈ ["link_prefix", "link_map", "operator_map"])
    (hes : ∀ e ∈ es, e.1 = .string name) (h : m ∈ saidOf field es) :
    ∃ p, Concerns (field ++ ("." ++ name)) p ∧ p.message = m := by
  obtain ⟨e, he, p, hp, rfl⟩ := exists_of_mem_saidOf h
  rcases of_mem_linkFaults field hp with ⟨hunknown, -⟩ | ⟨name', -, heq, hconcerns⟩
  · rw [hes e he, Bool.eq_false_iff, ne_eq, isOneOf_string] at hunknown
    exact absurd hname hunknown
  · rw [hes e he, Scalar.string.injEq] at heq
    exact ⟨p, heq ▸ hconcerns, rfl⟩

theorem name_of_mem_singles {name : String} {t : Settings} {e : Scalar × Value}
    (h : e ∈ (under name t).flatMap singles) : e.1 = .string name := by
  obtain ⟨d, hd, he⟩ := List.mem_flatMap.1 h
  have hname := name_of_mem_under hd
  obtain ⟨k, v⟩ := d
  cases v with
  | mapping es =>
    obtain ⟨d', -, rfl⟩ := List.mem_map.1 he
    exact hname
  | _ =>
    obtain rfl := List.mem_singleton.1 he
    exact hname

end Settings

namespace LinkPart

open Settings

variable {field : String}

/-- The part that a message is about, told by how it ends or how it begins. -/
def of (field m : String) : LinkPart :=
  if ": unknown field".toList <:+ m.toList then others
  else if ": required field is missing".toList <:+ m.toList then missing
  else if (field ++ ("." ++ "link_prefix")).toList <+: m.toList then base
  else if (field ++ ("." ++ "link_map")).toList <+: m.toList then pages
  else operators

/-- Every message tells the part that it comes from. -/
theorem of_eq_of_mem_share {t : Settings} {part : LinkPart} {m : String}
    (h : m ∈ part.share field t) : of field m = part := by
  cases part with
  | base =>
    obtain ⟨p, hp, rfl⟩ := concerns_of_mem_saidOf (by decide) (fun _ => name_of_mem_under) h
    rw [of, if_neg (hp.not_suffix_message (by decide)), if_neg (hp.not_suffix_message (by decide)),
      if_pos hp.prefix_message]
  | pages =>
    obtain ⟨p, hp, rfl⟩ := concerns_of_mem_saidOf (by decide) (fun _ => name_of_mem_singles) h
    rw [of, if_neg (hp.not_suffix_message (by decide)), if_neg (hp.not_suffix_message (by decide)),
      if_neg (hp.not_prefix_message (by decide)), if_pos hp.prefix_message]
  | operators =>
    obtain ⟨p, hp, rfl⟩ := concerns_of_mem_saidOf (by decide) (fun _ => name_of_mem_singles) h
    rw [of, if_neg (hp.not_suffix_message (by decide)), if_neg (hp.not_suffix_message (by decide)),
      if_neg (hp.not_prefix_message (by decide)), if_neg (hp.not_prefix_message (by decide))]
  | others =>
    obtain ⟨e, he, p, hp, rfl⟩ := exists_of_mem_saidOf h
    have hkey := (List.mem_filter.1 he).2
    rcases of_mem_linkFaults field hp with ⟨-, f, rfl⟩ | ⟨name, hname, heq, -⟩
    · exact if_pos (SettingProblem.ending_suffix (.unknown f))
    · rw [heq, Bool.not_eq_true', Bool.eq_false_iff, ne_eq, isOneOf_string] at hkey
      exact absurd hname hkey
  | missing =>
    rw [share, missingPages] at h
    split at h
    · cases h
    · obtain rfl := List.mem_singleton.1 h
      have hunknown : ¬ (": unknown field".toList <:+ ": required field is missing".toList ∨
          ": required field is missing".toList <:+ ": unknown field".toList) := by
        decide
      exact (if_neg (SettingProblem.not_suffix_message (p := .missing _) hunknown)).trans
        (if_pos (SettingProblem.ending_suffix (.missing _)))

theorem disjoint_shares {a b : LinkPart} (h : a ≠ b) (t : Settings) :
    (a.share field t).Disjoint (b.share field t) :=
  fun _ ha hb => h ((of_eq_of_mem_share ha).symm.trans (of_eq_of_mem_share hb))

end LinkPart

namespace Settings

theorem messages_links {field : String} (h : field ∈ linkFields) (t : Settings) :
    messages [(.string field, .mapping t)] = linkMessages field t := by
  have hproblems : problems [(.string field, .mapping t)] = checkLinks field (.mapping t) := by
    obtain rfl | rfl : field = "std_type_links" ∨ field = "idl_type_links" := by
      simpa [linkFields] using h
    all_goals
      simp [problems, checkFields, get?_single, isOneOf, ifGiven, ifNotNull, stringFields,
        stringListFields, stringMapFields, linkFields, aliasField, knownFields]
  rw [messages, hproblems, linkMessages]

/-- No entry hides or repeats what is said about another: settings are said to have the
faults that each entry has on its own, and so is a link table with its parts, whose messages
are never the same. -/
theorem messages_by_entry :
    (∀ s : Settings, Assoc.Distinct s →
      (messages s).Perm (s.flatMap fun e => messages [e]) ∧
        (messages s = [] ↔ ∀ e ∈ s, messages [e] = [])) ∧
    ∀ (field : String) (t : Settings), Assoc.Distinct t →
      (field ∈ linkFields → messages [(.string field, .mapping t)] = linkMessages field t) ∧
        (linkMessages field t).Perm (LinkPart.all.flatMap (LinkPart.share field t)) ∧
        ∀ a b : LinkPart, a ≠ b → (a.share field t).Disjoint (b.share field t) := by
  refine ⟨fun s hs => ?_, fun field t ht => ?_⟩
  · have hperm := entrywise_messages.perm hs
    refine ⟨hperm, ?_⟩
    rw [← List.flatMap_eq_nil_iff]
    exact ⟨fun h => (h ▸ hperm).nil_eq.symm, fun h => (h ▸ hperm).eq_nil⟩
  · exact ⟨fun hfield => messages_links hfield t, LinkPart.linkMessages_perm_shares field ht,
      fun a b hab => LinkPart.disjoint_shares hab t⟩

def faultyLinks : Settings :=
  [(.string "link_prefix", .list []), (.string "shelf", .null),
    (.string "operator_map", .mapping [(.string "at", .null), (.null, .list [])])]

/-- Settings with a fault in every entry but the second. -/
def faulty : Settings :=
  [(.string "prefix", .null), (.string "index", .string "start.md"), (.string "shelf", .null),
    (.string "projects", .list [.string "oak", .null]),
    (.string "std_type_links", .mapping faultyLinks)]

theorem messages_by_entry_faulty :
    Assoc.Distinct faulty ∧ Assoc.Distinct faultyLinks ∧
      (messages faulty).Perm (faulty.flatMap fun e => messages [e]) ∧
      ¬ (∀ e ∈ faulty, messages [e] = []) ∧
      messages [(.string "std_type_links", .mapping faultyLinks)] =
        linkMessages "std_type_links" faultyLinks ∧
      (linkMessages "std_type_links" faultyLinks).Perm
        (LinkPart.all.flatMap (LinkPart.share "std_type_links" faultyLinks)) ∧
      (LinkPart.share "std_type_links" faultyLinks .base).Disjoint
        (LinkPart.share "std_type_links" faultyLinks .missing) := by
  have hfaulty : Assoc.Distinct faulty := by decide
  have hlinks : Assoc.Distinct faultyLinks := by decide
  obtain ⟨hperm, hnil⟩ := messages_by_entry.1 faulty hfaulty
  obtain ⟨hfield, hshares, hdisjoint⟩ := messages_by_entry.2 "std_type_links" faultyLinks hlinks
  refine ⟨hfaulty, hlinks, hperm, fun h => ?_, hfield (by decide), hshares,
    hdisjoint .base .missing (by decide)⟩
  have hsome : messages faulty ≠ [] := by decide
  exact hsome (hnil.2 h)

end Settings

end DoxPages
