import DoxPages.Proofs.Text.Ink
import DoxPages.Proofs.Text.Strip
import DoxPages.Source.Read

/-!
# Faults of documents

What can be wrong with a compound is said part by part: a `Fault` is a place in the document,
a `Finding` is a fault with what is told about it, and `CompoundStands` says which findings
stand. `Collects` is what a list of problems has to be: the problems of the findings that stand,
each once, in the order of the document. The lists of the readers are put together from such
lists (`Collects.append`, `Collects.flatMap`), so no fault hides, repeats or invents another.
-/

namespace DoxPages.Source

open Text

/-! ## Lists of problems -/

section
variable {α β : Type} {key : α → List Nat} {problem : α → β} {Stands : α → Prop}

/-- The problems of all findings that stand, each once, in the order of the findings' keys. -/
def Collects (key : α → List Nat) (problem : α → β) (Stands : α → Prop)
    (problems : List β) : Prop :=
  ∃ found : List α, found.Pairwise (fun r s => key r < key s) ∧ (∀ r, r ∈ found ↔ Stands r) ∧
    found.map problem = problems

namespace Collects

theorem eq_nil_iff {problems : List β} (h : Collects key problem Stands problems) :
    problems = [] ↔ ∀ r, ¬Stands r := by
  obtain ⟨found, -, hmem, rfl⟩ := h
  rw [List.map_eq_nil_iff, List.eq_nil_iff_forall_not_mem]
  simp only [hmem]

/-- What stands settles the problems. -/
theorem unique {problems others : List β} (h : Collects key problem Stands problems)
    (h' : Collects key problem Stands others) : problems = others := by
  obtain ⟨rs, hrs, hmemrs, rfl⟩ := h
  obtain ⟨ss, hss, hmemss, rfl⟩ := h'
  have hne {r s : α} (hlt : key r < key s) : r ≠ s := by
    rintro rfl
    exact List.lt_irrefl _ hlt
  have hperm : rs.Perm ss :=
    (List.perm_ext_iff_of_nodup (hrs.imp hne) (hss.imp hne)).2 fun r => by rw [hmemrs, hmemss]
  rw [hperm.eq_of_pairwise (fun r s _ _ hlt hgt => absurd hlt (List.lt_asymm hgt)) hrs hss]

theorem nil (h : ∀ r, ¬Stands r) : Collects key problem Stands [] :=
  ⟨[], .nil, fun r => iff_of_false List.not_mem_nil (h r), rfl⟩

theorem singleton {r : α} {p : β} (hp : problem r = p) (h : ∀ s, Stands s ↔ s = r) :
    Collects key problem Stands [p] :=
  ⟨[r], List.pairwise_singleton _ _, fun s => List.mem_singleton.trans (h s).symm, by
    rw [List.map_singleton, hp]⟩

theorem ite {r : α} {p : β} {c : Prop} [Decidable c] (hp : problem r = p)
    (h : ∀ s, Stands s ↔ c ∧ s = r) : Collects key problem Stands (if c then [p] else []) := by
  split
  · rename_i hc
    exact singleton hp fun s => (h s).trans (and_iff_right hc)
  · rename_i hc
    exact nil fun s hs => hc ((h s).1 hs).1

theorem append {Front Back : α → Prop} {front back : List β}
    (hfront : Collects key problem Front front) (hback : Collects key problem Back back)
    (hbefore : ∀ r s, Front r → Back s → key r < key s)
    (h : ∀ r, Stands r ↔ Front r ∨ Back r) :
    Collects key problem Stands (front ++ back) := by
  obtain ⟨rs, hrs, hmemrs, rfl⟩ := hfront
  obtain ⟨ss, hss, hmemss, rfl⟩ := hback
  refine ⟨rs ++ ss, List.pairwise_append.2 ⟨hrs, hss, fun r hr s hs => ?_⟩, fun r => ?_,
    List.map_append⟩
  · exact hbefore r s ((hmemrs r).1 hr) ((hmemss s).1 hs)
  · rw [List.mem_append, hmemrs, hmemss, h]

theorem flatMap {parts : List Node} {StandsIn : Nat → Node → α → Prop}
    {problems : Nat → Node → List β} (start : Nat)
    (hparts : ∀ i n, Collects key problem (StandsIn i n) (problems i n))
    (hbefore : ∀ i j m n r s, i < j → StandsIn i m r → StandsIn j n s → key r < key s)
    (h : ∀ r, Stands r ↔ ∃ i n, parts[i]? = some n ∧ StandsIn (start + i) n r) :
    Collects key problem Stands
      ((parts.zipIdx start).flatMap fun (n, i) => problems i n) := by
  induction parts generalizing start Stands with
  | nil =>
    refine nil fun r hr => ?_
    obtain ⟨i, n, hn, -⟩ := (h r).1 hr
    cases hn
  | cons n ns ih =>
    rw [List.zipIdx_cons, List.flatMap_cons]
    refine append (hparts start n) (ih (start + 1) fun r => Iff.rfl) (fun r s hr hs => ?_)
      fun r => ?_
    · obtain ⟨i, m, -, hs⟩ := hs
      exact hbefore _ _ _ _ _ _ (by omega) hr hs
    · rw [h]
      constructor
      · rintro ⟨i, m, hm, hr⟩
        cases i with
        | zero =>
          obtain rfl : n = m := Option.some.inj hm
          exact .inl hr
        | succ i => exact .inr ⟨i, m, hm, by rwa [Nat.add_right_comm]⟩
      · rintro (hr | ⟨i, m, hm, hr⟩)
        · exact ⟨0, n, rfl, hr⟩
        · exact ⟨i + 1, m, hm, by rwa [Nat.add_right_comm] at hr⟩

end Collects

end

/-! ## What an element lacks -/

def Lacks (n : Node) (name : String) : Prop := ∀ value, n.attr? name = some value → value = ""

def LacksText (n : Node) (tag : String) : Prop :=
  ∀ c, n.first? tag = some c → allBlank c.textContent.toList = true

theorem attr_eq_empty_iff {n : Node} {name : String} : n.attr name = "" ↔ Lacks n name := by
  unfold Node.attr Lacks
  cases n.attr? name with
  | none =>
    refine iff_of_true rfl fun value hvalue => ?_
    cases hvalue
  | some value => simp

theorem attr?_of_not_lacks {n : Node} {name : String} (h : ¬Lacks n name) :
    n.attr? name = some (n.attr name) := by
  rw [← attr_eq_empty_iff] at h
  unfold Node.attr at h ⊢
  cases hvalue : n.attr? name with
  | none =>
    rw [hvalue] at h
    exact absurd rfl h
  | some value => rfl

theorem strippedText_eq_empty_iff {n : Node} :
    n.strippedText = "" ↔ allBlank n.textContent.toList = true := by
  rw [← String.toList_inj, Node.strippedText, toList_onChars]
  constructor
  · intro h
    rw [← ink_eq_nil_iff, ← ink_strip, h]
    rfl
  · exact strip_of_allBlank

theorem optionalText_eq_empty_iff {n : Node} {tag : String} :
    Node.optionalText (n.first? tag) = "" ↔ LacksText n tag := by
  unfold Node.optionalText LacksText
  cases n.first? tag with
  | none =>
    refine iff_of_true rfl fun c hc => ?_
    cases hc
  | some c => simp [strippedText_eq_empty_iff]

/-! ## Faults of a compound -/

/-- The places of a compound where something can be wrong, in the order in which they are
looked at. -/
inductive Fault where
  | compoundId
  | compoundName
  | compoundLine
  | sectionKind (i : Nat)
  | memberName (i j : Nat)
  | memberLocation (i j : Nat)

namespace Fault

@[simp] def key : Fault → List Nat
  | compoundId => [0]
  | compoundName => [1]
  | compoundLine => [2]
  | sectionKind i => [3, i]
  | memberName i j => [3, i, j, 0]
  | memberLocation i j => [3, i, j, 1]

end Fault

abbrev Finding := Fault × ShapeProblem

namespace Finding

@[simp] def key (r : Finding) : List Nat := r.1.key

end Finding

/-- A location that is needed and not there, or whose line is no integer. -/
inductive LocationStands (required : Bool) (place : String) (n : Node) : ShapeProblem → Prop
  | missing (hrequired : required = true) (hlocation : n.first? "location" = none) :
      LocationStands required place n (.missingLocation place)
  | badLine {location : Node} {line : String} (hlocation : n.first? "location" = some location)
      (hline : location.attr? "line" = some line) (hbad : int? line.toList = none) :
      LocationStands required place n (.badLine place line)

/-- A member is known by its name, if it has one, behind its place. -/
def memberPlace (place : String) (n : Node) : String :=
  let name := Node.optionalText (n.first? "name")
  if name = "" then place else s!"{place} ({name})"

inductive MemberStands (place : String) (i j : Nat) (n : Node) : Finding → Prop
  | name (h : LacksText n "name") :
      MemberStands place i j n (.memberName i j, .missingName place)
  | location {p : ShapeProblem} (h : LocationStands true (memberPlace place n) n p) :
      MemberStands place i j n (.memberLocation i j, p)

inductive SectionStands (place : String) (i : Nat) (n : Node) : Finding → Prop
  | kind (h : Lacks n "kind") : SectionStands place i n (.sectionKind i, .missingKind place)
  | inMember {j : Nat} {m : Node} {r : Finding} (hm : (n.elements "memberdef")[j]? = some m)
      (h : MemberStands s!"{place}/memberdef[{j}]" i j m r) : SectionStands place i n r

def compoundPlace (n : Node) : String :=
  let id := n.attr "id"
  s!"compounddef {id}"

def compoundLabel (n : Node) : String :=
  let name := Node.optionalText (n.first? "compoundname")
  if name = "" then n.attr "id" else name

inductive CompoundStands (n : Node) : Finding → Prop
  | id (h : Lacks n "id") : CompoundStands n (.compoundId, .missingCompoundId)
  | name (h : LacksText n "compoundname") :
      CompoundStands n (.compoundName, .missingCompoundName (n.attr "id"))
  | line {p : ShapeProblem} (h : LocationStands false (compoundPlace n) n p) :
      CompoundStands n (.compoundLine, p)
  | inSection {i : Nat} {s : Node} {r : Finding} (hs : (n.elements "sectiondef")[i]? = some s)
      (h : SectionStands s!"{compoundLabel n}/sectiondef[{i}]" i s r) : CompoundStands n r

theorem MemberStands.key {place : String} {i j : Nat} {n : Node} {r : Finding}
    (h : MemberStands place i j n r) : ∃ k, r.key = [3, i, j, k] := by
  cases h with
  | name => exact ⟨0, rfl⟩
  | location => exact ⟨1, rfl⟩

theorem SectionStands.key {place : String} {i : Nat} {n : Node} {r : Finding}
    (h : SectionStands place i n r) : ∃ ks, r.key = 3 :: i :: ks := by
  cases h with
  | kind => exact ⟨[], rfl⟩
  | inMember _ h =>
    obtain ⟨k, hk⟩ := h.key
    exact ⟨_, hk⟩

theorem SectionStands.behind {place : String} {i k : Nat} {n : Node} {r : Finding}
    (h : SectionStands place i n r) (hk : k < 3) : [k] < r.key := by
  obtain ⟨ks, hks⟩ := h.key
  rw [hks]
  exact List.cons_lt_cons_iff.2 (.inl hk)

/-! ## Problems of a compound -/

theorem line?_eq_none_iff {location : Node} :
    line? location = none ↔
      ∃ line, location.attr? "line" = some line ∧ int? line.toList = none := by
  unfold line? Node.attr
  cases location.attr? "line" with
  | none =>
    refine iff_of_false (by decide) ?_
    rintro ⟨line, hline, -⟩
    cases hline
  | some line => simp

theorem collects_locationProblems (required : Bool) (place : String) (n : Node) (f : Fault) :
    Collects Finding.key Prod.snd (fun r => r.1 = f ∧ LocationStands required place n r.2)
      (locationProblems required place n) := by
  unfold locationProblems
  cases hlocation : n.first? "location" with
  | none =>
    refine Collects.ite (r := (f, .missingLocation place)) rfl ?_
    rintro ⟨g, p⟩
    constructor
    · rintro ⟨rfl, h⟩
      cases h with
      | missing hrequired => exact ⟨hrequired, rfl⟩
      | badLine h => rw [hlocation] at h; cases h
    · rintro ⟨hrequired, hr⟩
      cases hr
      exact ⟨rfl, .missing hrequired hlocation⟩
  | some location =>
    dsimp only
    cases hline : line? location with
    | some k =>
      refine Collects.nil ?_
      rintro ⟨g, p⟩ ⟨-, h⟩
      cases h with
      | missing _ h => rw [hlocation] at h; cases h
      | badLine h hattr hbad =>
        cases hlocation.symm.trans h
        rw [line?_eq_none_iff.2 ⟨_, hattr, hbad⟩] at hline
        cases hline
    | none =>
      obtain ⟨line, hattr, hbad⟩ := line?_eq_none_iff.1 hline
      rw [Node.attr, hattr, Option.getD_some]
      refine Collects.singleton (r := (f, .badLine place line)) rfl ?_
      rintro ⟨g, p⟩
      constructor
      · rintro ⟨rfl, h⟩
        cases h with
        | missing _ h => rw [hlocation] at h; cases h
        | badLine h hattr' =>
          cases hlocation.symm.trans h
          cases hattr.symm.trans hattr'
          rfl
      · intro hr
        cases hr
        exact ⟨rfl, .badLine hlocation hattr hbad⟩

theorem collects_memberProblems (place : String) (i j : Nat) (n : Node) :
    Collects Finding.key Prod.snd (MemberStands place i j n) (memberProblems place n) := by
  have heq : memberProblems place n =
      (if Node.optionalText (n.first? "name") = "" then [.missingName place] else []) ++
        locationProblems true (memberPlace place n) n := by
    unfold memberProblems memberPlace
    dsimp only
    split <;> rfl
  rw [heq]
  refine Collects.append (Collects.ite (r := (.memberName i j, .missingName place)) rfl
    fun r => Iff.rfl) (collects_locationProblems _ _ _ (.memberLocation i j)) ?_ ?_
  · rintro r ⟨f, p⟩ ⟨-, rfl⟩ ⟨rfl, -⟩
    simp [List.cons_lt_cons_iff]
  · rintro ⟨f, p⟩
    rw [optionalText_eq_empty_iff]
    constructor
    · intro h
      cases h with
      | name h => exact .inl ⟨h, rfl⟩
      | location h => exact .inr ⟨rfl, h⟩
    · rintro (⟨h, hr⟩ | ⟨hf, h⟩)
      · cases hr
        exact .name h
      · obtain rfl : f = _ := hf
        exact .location h

theorem collects_sectionProblems (place : String) (i : Nat) (n : Node) :
    Collects Finding.key Prod.snd (SectionStands place i n) (sectionProblems place n) := by
  unfold sectionProblems
  refine Collects.append (Collects.ite (r := (.sectionKind i, .missingKind place)) rfl
    fun r => Iff.rfl) (Collects.flatMap 0
      (fun j m => collects_memberProblems s!"{place}/memberdef[{j}]" i j m) ?_
      fun r => Iff.rfl) ?_ ?_
  · intro j k m m' r s hjk hr hs
    obtain ⟨_, hr⟩ := hr.key
    obtain ⟨_, hs⟩ := hs.key
    rw [hr, hs]
    simp [List.cons_lt_cons_iff, hjk]
  · rintro r s ⟨-, rfl⟩ ⟨j, m, -, hs⟩
    obtain ⟨_, hs⟩ := hs.key
    rw [hs]
    simp
  · rintro r
    rw [attr_eq_empty_iff]
    constructor
    · intro h
      cases h with
      | kind h => exact .inl ⟨h, rfl⟩
      | inMember hm h => exact .inr ⟨_, _, hm, by rwa [Nat.zero_add]⟩
    · rintro (⟨h, rfl⟩ | ⟨j, m, hm, h⟩)
      · exact .kind h
      · rw [Nat.zero_add] at h
        exact .inMember hm h

theorem collects_compoundProblems (n : Node) :
    Collects Finding.key Prod.snd (CompoundStands n) (compoundProblems n) := by
  have heq : compoundProblems n =
      (if n.attr "id" = "" then [.missingCompoundId] else []) ++
        ((if Node.optionalText (n.first? "compoundname") = "" then
            [.missingCompoundName (n.attr "id")] else []) ++
          (locationProblems false (compoundPlace n) n ++
            (n.elements "sectiondef").zipIdx.flatMap fun (s, i) =>
              sectionProblems s!"{compoundLabel n}/sectiondef[{i}]" s)) := by
    unfold compoundProblems compoundPlace compoundLabel
    simp only [List.append_assoc]
  rw [heq]
  refine Collects.append
    (Collects.ite (r := (.compoundId, .missingCompoundId)) rfl fun r => Iff.rfl)
    (Collects.append
      (Collects.ite (r := (.compoundName, .missingCompoundName (n.attr "id"))) rfl
        fun r => Iff.rfl)
      (Collects.append
        (collects_locationProblems _ _ _ .compoundLine)
        (Collects.flatMap 0
          (fun i s => collects_sectionProblems s!"{compoundLabel n}/sectiondef[{i}]" i s)
          ?_ fun r => Iff.rfl)
        ?_ fun r => Iff.rfl)
      ?_ fun r => Iff.rfl)
    ?_ ?_
  · intro i j s s' r r' hij hr hr'
    obtain ⟨_, hr⟩ := hr.key
    obtain ⟨_, hr'⟩ := hr'.key
    rw [hr, hr']
    simp [List.cons_lt_cons_iff, hij]
  · rintro ⟨f, p⟩ r ⟨rfl, -⟩ ⟨i, s, -, hr⟩
    exact hr.behind (by decide)
  · rintro r s ⟨-, rfl⟩ (⟨hs, -⟩ | ⟨i, n, -, hs⟩)
    · simp [hs, List.cons_lt_cons_iff]
    · exact hs.behind (by decide)
  · rintro r s ⟨-, rfl⟩ (⟨-, rfl⟩ | ⟨hs, -⟩ | ⟨i, n, -, hs⟩)
    · simp [List.cons_lt_cons_iff]
    · simp [hs, List.cons_lt_cons_iff]
    · exact hs.behind (by decide)
  · rintro ⟨f, p⟩
    rw [attr_eq_empty_iff, optionalText_eq_empty_iff]
    constructor
    · intro h
      cases h with
      | id h => exact .inl ⟨h, rfl⟩
      | name h => exact .inr (.inl ⟨h, rfl⟩)
      | line h => exact .inr (.inr (.inl ⟨rfl, h⟩))
      | inSection hs h => exact .inr (.inr (.inr ⟨_, _, hs, by rwa [Nat.zero_add]⟩))
    · rintro (⟨h, hr⟩ | ⟨h, hr⟩ | ⟨hf, h⟩ | ⟨i, s, hs, h⟩)
      · cases hr
        exact .id h
      · cases hr
        exact .name h
      · obtain rfl : f = _ := hf
        exact .line h
      · rw [Nat.zero_add] at h
        exact .inSection hs h

/-! ## Faults of an index -/

/-- The faults of an index; a problem names its place. -/
inductive EntryStands (root : Node) : EntryProblem → Prop
  | refid {i : Nat} {c : Node} (hc : (root.elements "compound")[i]? = some c)
      (h : Lacks c "refid") : EntryStands root (.missingRefid i)
  | kind {i : Nat} {c : Node} (hc : (root.elements "compound")[i]? = some c)
      (h : Lacks c "kind") : EntryStands root (.missingKind i)

namespace EntryProblem

@[simp] def key : EntryProblem → List Nat
  | missingRefid i => [i, 0]
  | missingKind i => [i, 1]

end EntryProblem

theorem collects_entry (i : Nat) (c : Node) :
    Collects EntryProblem.key id
      (fun p => (Lacks c "refid" ∧ p = .missingRefid i) ∨ (Lacks c "kind" ∧ p = .missingKind i))
      ((if c.attr "refid" = "" then [.missingRefid i] else []) ++
        if c.attr "kind" = "" then [.missingKind i] else []) := by
  refine Collects.append (Collects.ite (r := EntryProblem.missingRefid i) rfl fun r => Iff.rfl)
    (Collects.ite (r := EntryProblem.missingKind i) rfl fun r => Iff.rfl) ?_ fun r => ?_
  · rintro r s ⟨-, rfl⟩ ⟨-, rfl⟩
    simp [List.cons_lt_cons_iff]
  · rw [attr_eq_empty_iff, attr_eq_empty_iff]

theorem collects_entryProblems (root : Node) :
    Collects EntryProblem.key id (EntryStands root) (entryProblems root) := by
  refine Collects.flatMap 0 collects_entry ?_ fun r => ?_
  · rintro i j c d r s hij (⟨-, rfl⟩ | ⟨-, rfl⟩) (⟨-, rfl⟩ | ⟨-, rfl⟩) <;>
      simp [List.cons_lt_cons_iff, hij]
  · simp only [Nat.zero_add]
    constructor
    · intro h
      cases h with
      | refid hc h => exact ⟨_, _, hc, .inl ⟨h, rfl⟩⟩
      | kind hc h => exact ⟨_, _, hc, .inr ⟨h, rfl⟩⟩
    · rintro ⟨i, c, hc, ⟨h, rfl⟩ | ⟨h, rfl⟩⟩
      · exact .refid hc h
      · exact .kind hc h

end DoxPages.Source
