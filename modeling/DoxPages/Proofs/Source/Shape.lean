import DoxPages.Proofs.Source.Faults
import DoxPages.Source.Load
import Mathlib.Data.List.Forall2

/-!
# The shape of documents

A document of the wrong shape is refused with all of its problems, and one of the right shape is
read in full, with nothing put in the place of what is not there: `load_shape`.
-/

namespace DoxPages.Source

open Text

/-! ## Declarations without faults -/

/-- A member as it stands in a section; its name and its line are there. -/
structure MemberOf (n : Node) (x : Member) : Prop where
  read : x = readMember n
  named : x.name ≠ ""
  located : ∃ location, n.first? "location" = some location ∧ line? location = some x.line

structure SectionOf (n : Node) (x : Section) : Prop where
  kind : n.attr? "kind" = some x.kind
  kind_ne : x.kind ≠ ""
  header : x.header = Node.optionalText (n.first? "header")
  members : List.Forall₂ MemberOf (n.elements "memberdef") x.members

/-- A compound as its document has it: all bases, sections and members, in their order. -/
structure CompoundOf (n : Node) (c : Compound) : Prop where
  read : c = readCompound n
  id : n.attr? "id" = some c.id
  id_ne : c.id ≠ ""
  name_ne : c.name ≠ ""
  line : ∀ location, n.first? "location" = some location → line? location = some c.line
  bases : List.Forall₂ (fun b x => x = readBase b) (n.elements "basecompoundref") c.bases
  sections : List.Forall₂ SectionOf (n.elements "sectiondef") c.sections

theorem line?_of_forall_not {required : Bool} {place : String} {n location : Node}
    (h : ∀ p, ¬LocationStands required place n p)
    (hlocation : n.first? "location" = some location) :
    line? location = some (readLine n) := by
  unfold readLine
  rw [hlocation, Option.bind_some]
  cases hline : line? location with
  | some k => rfl
  | none =>
    obtain ⟨line, hattr, hbad⟩ := line?_eq_none_iff.1 hline
    exact absurd (.badLine hlocation hattr hbad) (h _)

theorem memberOf_readMember {place : String} {i j : Nat} {n : Node}
    (h : ∀ r, ¬MemberStands place i j n r) : MemberOf n (readMember n) where
  read := rfl
  named := fun hname => h _ (.name (optionalText_eq_empty_iff.1 hname))
  located := by
    have hlocation : ∀ p, ¬LocationStands true (memberPlace place n) n p :=
      fun p hp => h _ (.location hp)
    cases hfirst : n.first? "location" with
    | none => exact absurd (.missing rfl hfirst) (hlocation _)
    | some location => exact ⟨location, rfl, line?_of_forall_not hlocation hfirst⟩

theorem sectionOf_readSection {place : String} {i : Nat} {n : Node}
    (h : ∀ r, ¬SectionStands place i n r) : SectionOf n (readSection n) where
  kind := attr?_of_not_lacks fun hkind => h _ (.kind hkind)
  kind_ne := fun hkind => h _ (.kind (attr_eq_empty_iff.1 hkind))
  header := rfl
  members := by
    refine List.forall₂_map_right_iff.2 (List.forall₂_same.2 fun m hm => ?_)
    obtain ⟨j, hj⟩ := List.mem_iff_getElem?.1 hm
    exact memberOf_readMember fun r hr => h r (.inMember hj hr)

theorem compoundOf_readCompound {n : Node} (h : ∀ r, ¬CompoundStands n r) :
    CompoundOf n (readCompound n) where
  read := rfl
  id := attr?_of_not_lacks fun hid => h _ (.id hid)
  id_ne := fun hid => h _ (.id (attr_eq_empty_iff.1 hid))
  name_ne := fun hname => h _ (.name (optionalText_eq_empty_iff.1 hname))
  line := fun _ hlocation => line?_of_forall_not (fun p hp => h _ (.line hp)) hlocation
  bases := List.forall₂_map_right_iff.2 (List.forall₂_same.2 fun _ _ => rfl)
  sections := by
    refine List.forall₂_map_right_iff.2 (List.forall₂_same.2 fun s hs => ?_)
    obtain ⟨i, hi⟩ := List.mem_iff_getElem?.1 hs
    exact sectionOf_readSection fun r hr => h r (.inSection hi hr)

structure EntryOf (n : Node) (e : Entry) : Prop where
  refid : n.attr? "refid" = some e.refid
  refid_ne : e.refid ≠ ""
  kind : n.attr? "kind" = some e.kind
  kind_ne : e.kind ≠ ""
  name : e.name = Node.optionalText (n.first? "name")

theorem entryOf_readEntry {root c : Node} (h : ∀ p, ¬EntryStands root p)
    (hc : c ∈ root.elements "compound") : EntryOf c (readEntry c) := by
  obtain ⟨i, hi⟩ := List.mem_iff_getElem?.1 hc
  have hrefid : ¬Lacks c "refid" := fun hlacks => h _ (.refid hi hlacks)
  have hkind : ¬Lacks c "kind" := fun hlacks => h _ (.kind hi hlacks)
  exact ⟨attr?_of_not_lacks hrefid, fun he => hrefid (attr_eq_empty_iff.1 he),
    attr?_of_not_lacks hkind, fun he => hkind (attr_eq_empty_iff.1 he), rfl⟩

/-! ## Loading -/

inductive CompoundOutcome (root : Node) : Except InputFault Compound → Prop
  | otherRoot (htag : root.tag ≠ "doxygen") :
      CompoundOutcome root (.error (.unexpectedCompound root.tag))
  | noCompound (hfirst : root.first? "compounddef" = none) :
      CompoundOutcome root (.error .noCompound)
  | faulty {n : Node} {r : Finding} {problems : List ShapeProblem} (htag : root.tag = "doxygen")
      (hfirst : root.first? "compounddef" = some n) (hr : CompoundStands n r)
      (h : Collects Finding.key Prod.snd (CompoundStands n) problems) :
      CompoundOutcome root (.error (.invalidCompound problems))
  | sound {n : Node} {c : Compound} (htag : root.tag = "doxygen")
      (hfirst : root.first? "compounddef" = some n) (hnone : ∀ r, ¬CompoundStands n r)
      (h : CompoundOf n c) : CompoundOutcome root (.ok c)

namespace CompoundOutcome

variable {root n : Node} {result : Except InputFault Compound}

theorem error_iff (h : CompoundOutcome root result) :
    (∃ fault, result = .error fault) ↔
      root.tag ≠ "doxygen" ∨ root.first? "compounddef" = none ∨
        ∃ n r, root.first? "compounddef" = some n ∧ CompoundStands n r := by
  cases h with
  | otherRoot htag => exact iff_of_true ⟨_, rfl⟩ (.inl htag)
  | noCompound hfirst => exact iff_of_true ⟨_, rfl⟩ (.inr (.inl hfirst))
  | faulty htag hfirst hr => exact iff_of_true ⟨_, rfl⟩ (.inr (.inr ⟨_, _, hfirst, hr⟩))
  | sound htag hfirst hnone =>
    refine iff_of_false ?_ ?_
    · rintro ⟨fault, hfault⟩
      cases hfault
    · rintro (hother | hmissing | ⟨n, r, hfirst', hr⟩)
      · exact hother htag
      · rw [hfirst] at hmissing
        cases hmissing
      · cases hfirst.symm.trans hfirst'
        exact hnone r hr

theorem exists_problems (h : CompoundOutcome root result) {r : Finding}
    (htag : root.tag = "doxygen") (hfirst : root.first? "compounddef" = some n)
    (hr : CompoundStands n r) :
    ∃ problems, result = .error (.invalidCompound problems) ∧
      Collects Finding.key Prod.snd (CompoundStands n) problems := by
  cases h with
  | otherRoot hother => exact absurd htag hother
  | noCompound hmissing =>
    rw [hfirst] at hmissing
    cases hmissing
  | faulty _ hfirst' _ hcollects =>
    cases hfirst.symm.trans hfirst'
    exact ⟨_, rfl, hcollects⟩
  | sound _ hfirst' hnone =>
    cases hfirst.symm.trans hfirst'
    exact absurd hr (hnone r)

theorem exists_compoundOf {c : Compound} (h : CompoundOutcome root (.ok c)) :
    ∃ n, root.first? "compounddef" = some n ∧ CompoundOf n c := by
  cases h with
  | sound _ hfirst _ hc => exact ⟨_, hfirst, hc⟩

end CompoundOutcome

theorem compoundOf_outcome (root : Node) : CompoundOutcome root (compoundOf root) := by
  unfold compoundOf
  split
  · rename_i htag
    exact .otherRoot htag
  · rename_i htag
    rw [ne_eq, not_not] at htag
    cases hfirst : root.first? "compounddef" with
    | none => exact .noCompound hfirst
    | some n =>
      have hcollects := collects_compoundProblems n
      dsimp only
      cases hproblems : compoundProblems n with
      | nil =>
        have hnone := hcollects.eq_nil_iff.1 hproblems
        exact .sound htag hfirst hnone (compoundOf_readCompound hnone)
      | cons p ps =>
        have hsome : ¬∀ r, ¬CompoundStands n r := by
          rw [← hcollects.eq_nil_iff, hproblems]
          exact List.cons_ne_nil p ps
        obtain ⟨r, hr⟩ := not_forall_not.1 hsome
        exact .faulty htag hfirst hr (hproblems ▸ hcollects)

inductive IndexOutcome (root : Node) : Except InputFault (List Entry) → Prop
  | otherRoot (htag : root.tag ≠ "doxygenindex") :
      IndexOutcome root (.error (.unexpectedIndex root.tag))
  | faulty {p : EntryProblem} {problems : List EntryProblem} (htag : root.tag = "doxygenindex")
      (hp : EntryStands root p) (h : Collects EntryProblem.key id (EntryStands root) problems) :
      IndexOutcome root (.error (.invalidIndex problems))
  | sound {entries : List Entry} (htag : root.tag = "doxygenindex")
      (hnone : ∀ p, ¬EntryStands root p)
      (h : List.Forall₂ EntryOf (root.elements "compound") entries) :
      IndexOutcome root (.ok entries)

namespace IndexOutcome

variable {root : Node} {result : Except InputFault (List Entry)}

theorem error_iff (h : IndexOutcome root result) :
    (∃ fault, result = .error fault) ↔
      root.tag ≠ "doxygenindex" ∨ ∃ p, EntryStands root p := by
  cases h with
  | otherRoot htag => exact iff_of_true ⟨_, rfl⟩ (.inl htag)
  | faulty htag hp => exact iff_of_true ⟨_, rfl⟩ (.inr ⟨_, hp⟩)
  | sound htag hnone =>
    refine iff_of_false ?_ ?_
    · rintro ⟨fault, hfault⟩
      cases hfault
    · rintro (hother | ⟨p, hp⟩)
      · exact hother htag
      · exact hnone p hp

theorem exists_problems (h : IndexOutcome root result) {p : EntryProblem}
    (htag : root.tag = "doxygenindex") (hp : EntryStands root p) :
    ∃ problems, result = .error (.invalidIndex problems) ∧
      Collects EntryProblem.key id (EntryStands root) problems := by
  cases h with
  | otherRoot hother => exact absurd htag hother
  | faulty _ _ hcollects => exact ⟨_, rfl, hcollects⟩
  | sound _ hnone => exact absurd hp (hnone p)

theorem forall₂_entryOf {entries : List Entry} (h : IndexOutcome root (.ok entries)) :
    List.Forall₂ EntryOf (root.elements "compound") entries := by
  cases h with
  | sound _ _ hentries => exact hentries

end IndexOutcome

theorem indexOf_outcome (root : Node) : IndexOutcome root (indexOf root) := by
  have hcollects := collects_entryProblems root
  unfold indexOf
  split
  · rename_i htag
    exact .otherRoot htag
  · rename_i htag
    rw [ne_eq, not_not] at htag
    cases hproblems : entryProblems root with
    | nil =>
      have hnone := hcollects.eq_nil_iff.1 hproblems
      exact .sound htag hnone (List.forall₂_map_right_iff.2
        (List.forall₂_same.2 fun c hc => entryOf_readEntry hnone hc))
    | cons p ps =>
      have hsome : ¬∀ p, ¬EntryStands root p := by
        rw [← hcollects.eq_nil_iff, hproblems]
        exact List.cons_ne_nil p ps
      obtain ⟨q, hq⟩ := not_forall_not.1 hsome
      exact .faulty htag hq (hproblems ▸ hcollects)

theorem mapError_eq_ok_iff {ε ε' α : Type} {f : ε → ε'} {result : Except ε α} {a : α} :
    result.mapError f = .ok a ↔ result = .ok a := by
  cases result <;> simp [Except.mapError]

theorem exists_mapError_eq_error_iff {ε ε' α : Type} {f : ε → ε'} {result : Except ε α} :
    (∃ e, result.mapError f = .error e) ↔ ∃ e, result = .error e := by
  cases result <;> simp [Except.mapError]

section
variable {read? : Path → Option String} {path : Path} {root : Node}

theorem loadCompound_of_loadXml (hxml : loadXml read? path = .ok root) :
    loadCompound read? path = (compoundOf root).mapError (⟨path, ·⟩) := by
  unfold loadCompound
  rw [hxml]
  rfl

theorem loadIndex_of_loadXml (hxml : loadXml read? path = .ok root) :
    loadIndex read? path = (indexOf root).mapError (⟨path, ·⟩) := by
  unfold loadIndex
  rw [hxml]
  rfl

/-- A document is refused for what is wrong with its shape and for nothing else, and all that is
wrong is told. A document that is not refused is read in full. -/
theorem load_shape (hxml : loadXml read? path = .ok root) :
    ((∃ e, loadCompound read? path = .error e) ↔
      root.tag ≠ "doxygen" ∨ root.first? "compounddef" = none ∨
        ∃ n r, root.first? "compounddef" = some n ∧ CompoundStands n r) ∧
    (∀ n r, root.tag = "doxygen" → root.first? "compounddef" = some n → CompoundStands n r →
      ∃ e problems, loadCompound read? path = .error e ∧
        e.report = ⟨"Invalid compound document", some path, problems.map (·.message)⟩ ∧
        Collects Finding.key Prod.snd (CompoundStands n) problems) ∧
    (∀ c, loadCompound read? path = .ok c →
      ∃ n, root.first? "compounddef" = some n ∧ CompoundOf n c) ∧
    ((∃ e, loadIndex read? path = .error e) ↔
      root.tag ≠ "doxygenindex" ∨ ∃ p, EntryStands root p) ∧
    (∀ p, root.tag = "doxygenindex" → EntryStands root p →
      ∃ e problems, loadIndex read? path = .error e ∧
        e.report = ⟨"Invalid index document", some path, problems.map (·.message)⟩ ∧
        Collects EntryProblem.key id (EntryStands root) problems) ∧
    ∀ entries, loadIndex read? path = .ok entries →
      List.Forall₂ EntryOf (root.elements "compound") entries := by
  have hcompound := compoundOf_outcome root
  have hindex := indexOf_outcome root
  rw [loadCompound_of_loadXml hxml, loadIndex_of_loadXml hxml]
  refine ⟨?_, fun n r htag hfirst hr => ?_, fun c hc => ?_, ?_, fun p htag hp => ?_,
    fun entries hentries => ?_⟩
  · rw [exists_mapError_eq_error_iff, hcompound.error_iff]
  · obtain ⟨problems, heq, hcollects⟩ := hcompound.exists_problems htag hfirst hr
    rw [heq]
    exact ⟨_, problems, rfl, rfl, hcollects⟩
  · rw [mapError_eq_ok_iff] at hc
    rw [hc] at hcompound
    exact hcompound.exists_compoundOf
  · rw [exists_mapError_eq_error_iff, hindex.error_iff]
  · obtain ⟨problems, heq, hcollects⟩ := hindex.exists_problems htag hp
    rw [heq]
    exact ⟨_, problems, rfl, rfl, hcollects⟩
  · rw [mapError_eq_ok_iff] at hentries
    rw [hentries] at hindex
    exact hindex.forall₂_entryOf

end

/-- A section without a kind, with an empty member, in a compound without a name. -/
def badXml : String :=
  "<doxygen><compounddef id='c'><sectiondef><memberdef/></sectiondef></compounddef></doxygen>"

/-- The faults are told from the outside in. -/
theorem load_shape_badXml :
    ∃ path root e, loadXml (fun _ => some badXml) path = .ok root ∧
      loadCompound (fun _ => some badXml) path = .error e ∧
      e.report.problems = ["compounddef c: missing <compoundname>",
        "c/sectiondef[0]: missing 'kind' attribute",
        "c/sectiondef[0]/memberdef[0]: missing <name>",
        "c/sectiondef[0]/memberdef[0]: missing <location>"] := by
  have hread : (Node.ofXml? badXml).any (fun root => root.tag = "doxygen" ∧
      (root.first? "compounddef").any fun n => compoundProblems n =
        [.missingCompoundName "c", .missingKind "c/sectiondef[0]",
          .missingName "c/sectiondef[0]/memberdef[0]",
          .missingLocation "c/sectiondef[0]/memberdef[0]"]) = true := by decide +kernel
  simp only [Option.any_eq_true, decide_eq_true_eq] at hread
  obtain ⟨root, hroot, htag, n, hfirst, hproblems⟩ := hread
  have hxml : loadXml (fun _ => some badXml) (Path.ofString "classc.xml") = .ok root := by
    simp only [loadXml, hroot]
  have hcollects := collects_compoundProblems n
  rw [hproblems] at hcollects
  obtain ⟨r, hr⟩ : ∃ r, CompoundStands n r := by
    by_contra hnone
    cases hcollects.eq_nil_iff.2 (not_exists.1 hnone)
  obtain ⟨e, problems, he, hreport, hcollects'⟩ := (load_shape hxml).2.1 n r htag hfirst hr
  refine ⟨_, root, e, hxml, he, ?_⟩
  rw [hreport, hcollects'.unique hcollects]
  decide +kernel

end DoxPages.Source
