import DoxPages.Proofs.Conversion.Kept

/-!
# Input that cannot be used

A conversion makes all pages before it writes the first one. `publish` is what it does
with them; it fails only if a file cannot be used, or else crashes, which is `FilesOnly`.
So a project whose input is bad, in whatever document or setting, fails with the files as
they were.
-/

namespace DoxPages

open Docs

def Failure.isBadInput : Failure → Bool
  | input _ | config _ => true
  | generator .. | files | crash _ => false

/-! ## Steps that fail on files only -/

namespace Run

variable {α β : Type} {here : Location}

/-- The step fails, if at all, because a file cannot be used, unless it crashes. -/
def FilesOnly (m : Run α) : Prop :=
  ∀ s e, (outcome m s).1 = .error e → e = .files ∨ ∃ c, e = .crash c

theorem filesOnly_pure (a : α) : FilesOnly (pure a) := nofun

theorem filesOnly_get : FilesOnly get := nofun

theorem filesOnly_modify (f : Session → Session) : FilesOnly (modify f) := nofun

theorem filesOnly_throw : FilesOnly (throw .files : Run α) :=
  fun _ _ h => .inl (Except.error.inj h).symm

theorem filesOnly_crash (c : Crash) : FilesOnly (throw (.crash c) : Run α) :=
  fun _ _ h => .inr ⟨c, (Except.error.inj h).symm⟩

theorem FilesOnly.bind {m : Run α} {f : α → Run β} (hm : FilesOnly m)
    (hf : ∀ a, FilesOnly (f a)) : FilesOnly (m >>= f) := by
  intro s e h
  rw [outcome_bind] at h
  cases houtcome : outcome m s with
  | mk r s₁ =>
    rw [houtcome] at h
    cases r with
    | ok a => exact hf a s₁ e h
    | error e' =>
      obtain rfl := Except.error.inj h
      exact hm s e' (congrArg Prod.fst houtcome)

theorem filesOnly_makeDirs (p : Path) : FilesOnly (makeDirs here p) := by
  refine .bind filesOnly_get fun s => ?_
  simp only
  refine .bind (filesOnly_modify _) fun _ => ?_
  generalize (s.tree.makeDirs (if p.isAbsolute then [] else here) p.parts).2 = done
  cases done with
  | false => exact filesOnly_throw
  | true => exact filesOnly_pure ()

theorem filesOnly_write (p : Path) (text : String) : FilesOnly (write here p text) := by
  refine .bind filesOnly_get fun s => ?_
  split
  · exact filesOnly_modify _
  · exact filesOnly_throw

theorem filesOnly_copy (source target : Path) : FilesOnly (copy here source target) := by
  refine .bind filesOnly_get fun s => ?_
  simp only
  split
  · exact filesOnly_throw
  · split
    · exact .bind filesOnly_throw fun _ => filesOnly_write _ _
    · exact filesOnly_write _ _

theorem filesOnly_writeCompounds (dir : Path) (total written : Nat)
    (cs : List (String × Compound)) : FilesOnly (writeCompounds here dir total written cs) := by
  induction cs generalizing written with
  | nil => exact filesOnly_pure []
  | cons e cs ih =>
    refine .bind (filesOnly_modify _) fun _ => .bind (filesOnly_write _ _) fun _ => ?_
    have hrest : FilesOnly (do
        return pageFile dir e.1 :: (← writeCompounds here dir total (written + 1) cs)) :=
      .bind (ih _) fun _ => filesOnly_pure _
    simp only
    split
    · exact .bind (filesOnly_modify _) fun _ => hrest
    · exact hrest

theorem filesOnly_writePages (dir : Path) (compounds : List (String × Compound)) :
    FilesOnly (writePages here dir compounds) :=
  .bind (filesOnly_makeDirs dir) fun _ => .bind (filesOnly_modify _) fun _ =>
    filesOnly_writeCompounds _ _ _ _

theorem filesOnly_writeIndex (dir : Path) (index : String) (b : Builder) :
    FilesOnly (writeIndex here dir index b) := by
  refine .bind (filesOnly_makeDirs dir) fun _ => ?_
  simp only
  split
  · exact .bind (filesOnly_crash _) fun _ => .bind (filesOnly_write _ _) fun _ => filesOnly_pure _
  · exact .bind (filesOnly_write _ _) fun _ => filesOnly_pure _

theorem filesOnly_forM {f : α → Run PUnit} (hf : ∀ a, FilesOnly (f a)) (as : List α) :
    FilesOnly (as.forM f) := by
  induction as with
  | nil => exact filesOnly_pure _
  | cons a as ih => exact .bind (hf a) fun _ => ih

theorem filesOnly_copyPages (pages : List Path) (target : Path) :
    FilesOnly (copyPages here pages target) :=
  .bind (filesOnly_makeDirs target) fun _ =>
    .bind (filesOnly_forM (fun _ => .bind (filesOnly_modify _) fun _ => filesOnly_copy _ _) _)
      fun _ => filesOnly_modify _

end Run

/-! ## Conversion in two parts -/

namespace Project

open Run

variable {p : Project} {plan : Plan} {programs : Programs}

def publish (plan : Plan) (p : Project) (b : Builder) : Run Nat := do
  let pages ← writePages plan.here p.pageDir b.compounds
  let index ← writeIndex plan.here p.pageDir p.index b
  let files := pages ++ [index]
  print s!"Generated {files.length} Markdown pages into: {p.pageDir}"
  plan.copyTo.forM (copyPages plan.here files)
  return files.length

theorem filesOnly_publish (plan : Plan) (p : Project) (b : Builder) :
    FilesOnly (p.publish plan b) := by
  refine .bind (filesOnly_writePages _ _) fun _ => .bind (filesOnly_writeIndex _ _ _) fun _ =>
    .bind (filesOnly_modify _) fun _ => .bind ?_ fun _ => filesOnly_pure _
  cases plan.copyTo with
  | none => exact filesOnly_pure _
  | some target => exact filesOnly_copyPages _ target

/-- The session in which the pages of a project are made, with what that reports as far as it
goes. -/
def loaded (plan : Plan) (p : Project) (s : Session) : Session :=
  let pages := p.pages (s.tree.read? plan.here)
  { s with log := s.log ++ [.processing p.input, .skippingGenerator p.xmlDir] ++
      pages.stopped.getD pages.log }

theorem outcome_convert (hgenerator : plan.generator = none) (s : Session) :
    outcome (p.convert plan programs) s =
      if (p.pages (s.tree.read? plan.here)).stopped.isSome then
        (.error (.crash .overflow), p.loaded plan s)
      else match (p.pages (s.tree.read? plan.here)).value with
        | .error e => (.error e, p.loaded plan s)
        | .ok b => outcome (p.publish plan b) (p.loaded plan s) := by
  unfold convert loaded
  rw [hgenerator]
  show outcome (take (p.pages (s.tree.read? plan.here)) >>= fun r => orFail id r >>= fun b =>
    p.publish plan b)
      { s with log := s.log ++ [.processing p.input] ++ [.skippingGenerator p.xmlDir] } = _
  rw [outcome_bind, outcome_take, List.append_assoc s.log]
  cases hstopped : (p.pages (s.tree.read? plan.here)).stopped with
  | some log =>
    simp only [hstopped, Option.isSome_some, if_true, Option.getD_some]
    rfl
  | none =>
    simp only [hstopped, Option.isSome_none, Bool.false_eq_true, if_false, Option.getD_none]
    rw [outcome_bind]
    cases (p.pages (s.tree.read? plan.here)).value <;> rfl

/-- Pages cannot be made only because of bad input, unless that crashes. -/
theorem isBadInput_of_pages {read? : Path → Option String} {e : Failure}
    (h : (p.pages read?).value = .error e) : e.isBadInput = true ∨ ∃ c, e = .crash c := by
  unfold pages at h
  split at h
  · rw [← Except.error.inj h]
    exact .inl rfl
  · exact .inr ⟨_, (Except.error.inj h).symm⟩
  · left
    rw [Reported.value_bind] at h
    split at h
    · rw [← Except.error.inj h]
      rfl
    · rw [Reported.value_bind] at h
      split at h
      · rw [← Except.error.inj h]
        rfl
      · cases h

/-- A conversion that fails on bad input leaves every file and directory as it was, and has
printed nothing; it was the pages that could not be made. -/
theorem bad_input_changes_nothing (plan : Plan) (programs : Programs) (p : Project)
    (s s' : Session) (e : Failure) (hgenerator : plan.generator = none)
    (h : outcome (p.convert plan programs) s = (.error e, s')) (hbad : e.isBadInput = true) :
    s'.tree = s.tree ∧ s'.printed = s.printed ∧
      (p.pages (s.tree.read? plan.here)).value = .error e := by
  rw [outcome_convert hgenerator] at h
  split at h
  · obtain ⟨he, -⟩ := Prod.mk.inj h
    rw [← Except.error.inj he] at hbad
    cases hbad
  cases hpages : (p.pages (s.tree.read? plan.here)).value with
  | error e' =>
    rw [hpages] at h
    obtain ⟨he, rfl⟩ := Prod.mk.inj h
    exact ⟨rfl, rfl, congrArg Except.error (Except.error.inj he)⟩
  | ok b =>
    rw [hpages] at h
    obtain rfl | ⟨c, rfl⟩ := filesOnly_publish plan p b _ e (congrArg Prod.fst h) <;> cases hbad

/-- Documents of two classes, the second one with a section of an unknown kind, and a page of
the first that is there already. -/
def brokenLast : Tree where
  entries :=
    [(["docs"], .dir), (["docs", "xml"], .dir),
      (["docs", "xml", "index.xml"], .file
        ("<doxygenindex><compound refid=\"s\" kind=\"class\"><name>Shape</name></compound>" ++
          "<compound refid=\"t\" kind=\"class\"><name>Tile</name></compound></doxygenindex>")
        false),
      (["docs", "xml", "s.xml"], .file
        ("<doxygen><compounddef id=\"s\" kind=\"class\">" ++
          "<compoundname>Shape</compoundname></compounddef></doxygen>") false),
      (["docs", "xml", "t.xml"], .file
        ("<doxygen><compounddef id=\"t\" kind=\"class\"><compoundname>Tile</compoundname>" ++
          "<sectiondef kind=\"odd\"></sectiondef></compounddef></doxygen>") false),
      (["docs", "out"], .dir), (["docs", "out", "shape.md"], .file "old" false)]

theorem bad_input_changes_nothing_brokenLast : ∃ s',
    outcome (plain.convert { convertOnly with copyTo := some (.ofString "site") }
        fun _ _ _ => none) { tree := brokenLast } =
      (.error (.config (.unknownSectionKind "odd")), s') ∧ s'.tree = brokenLast := by
  have hfails : (outcome (plain.convert { convertOnly with copyTo := some (.ofString "site") }
      fun _ _ _ => none) { tree := brokenLast }).1 =
        .error (.config (.unknownSectionKind "odd")) := by
    decide +kernel
  generalize hrun : outcome (plain.convert { convertOnly with copyTo := some (.ofString "site") }
    fun _ _ _ => none) { tree := brokenLast } = end' at hfails ⊢
  obtain ⟨r, s'⟩ := end'
  obtain rfl : r = .error (.config (.unknownSectionKind "odd")) := hfails
  exact ⟨s', rfl, (bad_input_changes_nothing _ _ plain _ s' _ rfl hrun rfl).1⟩

end Project

end DoxPages
