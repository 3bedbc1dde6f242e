import DoxPages.Proofs.Conversion.Confined
import DoxPages.Proofs.Project.Search
import Mathlib.Data.List.Pairwise

/-!
# Projects that do not disturb each other

In a run each project finds the files changed by those before it, but only below the
directories of their pages. If it reads nothing there, it fails or ends as it does when it is
converted `alone`, and leaves the same files: `Attempted` says this of the projects that a
run has come to, and `siblings_undisturbed` of the whole run.
-/

namespace DoxPages

open Docs Run

namespace Project

variable {plan : Plan} {programs : Programs} {p q : Project} {t : Tree} {here : Location}

/-! ## One project -/

structure PlainNames (here : Location) (t : Tree) (p : Project) : Prop where
  index : '/' ∉ p.index.toList
  pages : ∀ b, (p.pages (t.read? here)).value = .ok b → ∀ e ∈ b.compounds, '/' ∉ e.1.toList

/-- No document of `p` is reached through the directory of the pages of `q`. -/
def Ignores (here : Location) (t : Tree) (p q : Project) : Prop :=
  ∀ d ∈ p.documents (t.read? here), ∀ l ∈ Tree.routeOf here d, ¬ q.pageHome here <+: l

instance (here : Location) (t : Tree) (p : Project) : Decidable (p.PlainNames here t) :=
  decidable_of_iff ('/' ∉ p.index.toList ∧ ∀ b ∈ (p.pages (t.read? here)).value.toOption,
      ∀ e ∈ b.compounds, '/' ∉ e.1.toList)
    ⟨fun h => ⟨h.1, fun b hb => h.2 b (by rw [hb]; rfl)⟩, fun h => ⟨h.index, fun b hb => by
      cases hvalue : (p.pages (t.read? here)).value with
      | error e =>
        rw [hvalue] at hb
        cases hb
      | ok b' =>
        rw [hvalue] at hb
        obtain rfl := Option.some.inj hb
        exact h.pages b' hvalue⟩⟩

instance (here : Location) (t : Tree) (p q : Project) : Decidable (p.Ignores here t q) :=
  inferInstanceAs (Decidable (∀ d ∈ _, ∀ l ∈ _, ¬ _))

def HomesApart (here : Location) (p q : Project) : Prop :=
  ¬ p.home here <+: q.home here ∧ ¬ q.home here <+: p.home here

instance (here : Location) (p q : Project) : Decidable (p.HomesApart here q) :=
  inferInstanceAs (Decidable (_ ∧ _))

theorem HomesApart.symm (h : p.HomesApart here q) : q.HomesApart here p := ⟨h.2, h.1⟩

instance (here : Location) : Std.Symm (Project.HomesApart here) := ⟨fun _ _ h => h.symm⟩

theorem HomesApart.output_ne (h : p.HomesApart here q) : p.output ≠ q.output := by
  intro heq
  exact h.1 ⟨[], by rw [List.append_nil, home, home, heq]⟩

theorem HomesApart.ne (h : p.HomesApart here q) : p ≠ q := by
  rintro rfl
  exact h.1 List.prefix_rfl

/-- What lies in one project's directory lies outside the pages of the other. -/
theorem HomesApart.not_pageHome (h : p.HomesApart here q) {l : Location} (hl : p.home here <+: l) :
    ¬ q.pageHome here <+: l := by
  intro hout
  rcases List.prefix_or_prefix_of_prefix hl ((List.prefix_append _ _).trans hout) with hpq | hqp
  · exact h.1 hpq
  · exact h.2 hqp

theorem indexPath_eq (p : Project) : Source.indexPath p.xmlDir =
    ⟨p.output.slashes, p.output.parts ++ ["xml", "index.xml"]⟩ := by
  rw [Source.indexPath, xmlDir, show Path.ofString "xml" = ⟨0, ["xml"]⟩ by decide,
    show Path.ofString "index.xml" = ⟨0, ["index.xml"]⟩ by decide]
  show Path.join (Path.join _ _) _ = _
  simp [Path.join, Path.isAbsolute]

theorem hasDir_of_index {text : String}
    (h : t.read? here (Source.indexPath p.xmlDir) = some text) : t.HasDir here p.output := by
  obtain ⟨l, hl⟩ := Tree.exists_locate?_of_read? h
  rw [indexPath_eq, Tree.locate?, Tree.follow?_append] at hl
  obtain ⟨m, hm, hrest⟩ := Option.bind_eq_some_iff.1 hl
  rw [Tree.follow?] at hrest
  split at hrest
  · rename_i hdir
    exact ⟨m, hm, hdir.1⟩
  · cases hrest

theorem mem_routeOf_index {l : Location} (h : l ∈ Tree.routeOf here p.output) :
    l ∈ Tree.routeOf here (Source.indexPath p.xmlDir) := by
  rw [indexPath_eq, Tree.routeOf]
  exact Tree.mem_route_append.2 (.inl h)

/-- A conversion comes to the same in sessions that agree off a region it keeps clear of, and
what it reports begins with the loading of its documents. -/
theorem parallel_convert {D : Location → Prop} (programs : Programs) (s s₀ : Session)
    (hgenerator : plan.generator = none) (hcopyTo : plan.copyTo = none)
    (h : s.tree.AgreesOff D s₀.tree)
    (hhome : ∀ l, p.home plan.here <+: l → ¬ D l) (hplain : p.PlainNames plan.here s₀.tree)
    (hstopped : (p.pages (s₀.tree.read? plan.here)).stopped = none)
    (hreads : ∀ d ∈ p.documents (s₀.tree.read? plan.here),
      ∀ l ∈ Tree.routeOf plan.here d, ¬ D l) :
    Parallel D (p.pageHome plan.here) s s₀ (outcome (p.convert plan programs) s)
        (outcome (p.convert plan programs) s₀) ∧
      (p.loaded plan s).log <+: (outcome (p.convert plan programs) s).2.log := by
  have hread (d : Path) (hd : d ∈ p.documents (s₀.tree.read? plan.here)) :
      s₀.tree.read? plan.here d = s.tree.read? plan.here d := (h.read? (hreads d hd)).symm
  -- so the same pages are made in both sessions, or the same error
  have hpages := pages_congr hread
  generalize hmade : [Event.processing p.input, .skippingGenerator p.xmlDir] ++
    (p.pages (s₀.tree.read? plan.here)).log = made
  have hquiet : Log.Quiet made := by
    rw [← hmade]
    exact .append (Log.quiet_cons.2 ⟨nofun, Log.quiet_singleton nofun⟩) (p.quiet_pages _)
  have hloaded₀ : (p.loaded plan s₀).log = s₀.log ++ made := by
    rw [loaded, hstopped, ← hmade, List.append_assoc]
    rfl
  have hloaded : (p.loaded plan s).log = s.log ++ made := by
    rw [loaded, ← hpages, hstopped, ← hmade, List.append_assoc]
    rfl
  rw [outcome_convert hgenerator, outcome_convert hgenerator, ← hpages, hstopped,
    Option.isSome_none, if_neg Bool.false_ne_true, if_neg Bool.false_ne_true]
  cases hvalue : (p.pages (s₀.tree.read? plan.here)).value with
  | error e => exact ⟨⟨rfl, h, .refl _ _, made, hquiet, hloaded, hloaded₀⟩, List.prefix_rfl⟩
  | ok b =>
    obtain ⟨hindex, text, htext⟩ := exists_index_of_pages hvalue
    have hclear : p.ClearOf D plan.here :=
      { route := fun l hl => hreads _ hindex l (mem_routeOf_index hl)
        home := hhome }
    have hdir : s.tree.HasDir plan.here p.output := by
      rw [hread _ hindex] at htext
      exact hasDir_of_index htext
    obtain ⟨hresult, hagrees, hchanges, events, hevents, hlog, hlog₀⟩ :=
      steady_publish hclear hcopyTo rfl (hplain.pages b hvalue) hplain.index
        (p.loaded plan s) (p.loaded plan s₀) h hdir
    refine ⟨⟨hresult, hagrees, hchanges, made ++ events, hquiet.append hevents, ?_, ?_⟩, ?_⟩
    · exact hlog.trans (by rw [hloaded, List.append_assoc])
    · exact hlog₀.trans (by rw [hloaded₀, List.append_assoc])
    · exact ⟨events, hlog.symm⟩

/-! ## Attempts -/

/-- What a conversion comes to in a session that has just these files. -/
def alone (plan : Plan) (programs : Programs) (t : Tree) (p : Project) :
    Except Failure Nat × Session := outcome (p.convert plan programs) { tree := t }

/-- Alone, a project does not end the program on the spot. -/
def CrashFree (plan : Plan) (programs : Programs) (t : Tree) (p : Project) : Prop :=
  ∀ c, (p.alone plan programs t).1 ≠ .error (.crash c)

instance (plan : Plan) (programs : Programs) (t : Tree) (p : Project) :
    Decidable (p.CrashFree plan programs t) :=
  decidable_of_iff (∀ e ∈ (match (p.alone plan programs t).1 with
      | .ok _ => none
      | .error e => some e), (e.event p.input).toOption.isSome) <| by
    unfold CrashFree
    cases (p.alone plan programs t).1 with
    | ok n => simp
    | error e => cases e <;> simp [Failure.event, Except.toOption]

theorem CrashFree.stopped_pages (h : p.CrashFree plan programs t)
    (hgenerator : plan.generator = none) : (p.pages (t.read? plan.here)).stopped = none := by
  rw [← Option.not_isSome_iff_eq_none]
  intro hstopped
  refine h .overflow ?_
  rw [alone, outcome_convert hgenerator, if_pos hstopped]

def complaint (p : Project) : Except Failure Nat → Log
  | .ok _ => []
  | .error e => (e.event p.input).toOption.toList

theorem outcome_attempt (plan : Plan) (programs : Programs) (p : Project) (s : Session)
    (hends : ∀ c, (outcome (p.convert plan programs) s).1 ≠ .error (.crash c)) :
    outcome (p.attempt plan programs) s =
      (.ok !(p.complaint (outcome (p.convert plan programs) s).1).isEmpty,
        { (outcome (p.convert plan programs) s).2 with
          log := (outcome (p.convert plan programs) s).2.log ++
            p.complaint (outcome (p.convert plan programs) s).1 }) := by
  have hlift : outcome (liftM (p.convert plan programs).run : ExceptT Crash (StateM Session) _) s =
      (.ok (outcome (p.convert plan programs) s).1, (outcome (p.convert plan programs) s).2) := rfl
  unfold attempt
  rw [outcome_bind]
  simp only [hlift]
  revert hends
  cases outcome (p.convert plan programs) s with
  | mk r s' =>
    intro hends
    cases r with
    | ok n =>
      show (_, s') = (_, { s' with log := s'.log ++ [] })
      rw [List.append_nil]
      rfl
    | error e =>
      cases e with
      | crash c => exact absurd rfl (hends c)
      | input | config | generator | files => rfl

/-- Nothing but a bad document, a bad setting or a file makes a conversion fail. -/
theorem complaint_eq (hgenerator : plan.generator = none) (s : Session) {e : Event}
    (he : e ∈ p.complaint (outcome (p.convert plan programs) s).1) :
    ∃ cause, e = .projectFailed p.input cause := by
  have hevent {f : Failure} (hf : ∀ status text, f ≠ .generator status text)
      (he : e ∈ p.complaint (.error f)) : ∃ cause, e = .projectFailed p.input cause := by
    cases f with
    | generator status text => exact absurd rfl (hf status text)
    | crash c => cases he
    | input | config | files => exact ⟨_, List.mem_singleton.1 he⟩
  rw [outcome_convert hgenerator] at he
  split at he
  · exact hevent (fun _ _ => Failure.noConfusion) he
  cases hvalue : (p.pages (s.tree.read? plan.here)).value with
  | error f =>
    rw [hvalue] at he
    refine hevent (fun status text hf => ?_) he
    obtain hbad | ⟨c, hcrash⟩ := isBadInput_of_pages hvalue
    · rw [hf] at hbad
      cases hbad
    · rw [hf] at hcrash
      cases hcrash
  | ok b =>
    rw [hvalue] at he
    have hfiles := filesOnly_publish plan p b (p.loaded plan s)
    simp only at he
    cases hresult : (outcome (p.publish plan b) (p.loaded plan s)).1 with
    | ok n =>
      rw [hresult] at he
      cases he
    | error f =>
      rw [hresult] at he
      obtain rfl | ⟨c, rfl⟩ := hfiles f hresult <;> exact hevent (fun _ _ => Failure.noConfusion) he

end Project

/-! ## Attempts in turn -/

namespace Plan

open Project

variable {plan : Plan} {programs : Programs} {p : Project} {done rest projects : List Project}
  {t t' : Tree} {s : Session}

/-- The files after some projects were attempted on those of `t`: below the directory of its
pages each has left what it leaves alone, and all else is as it was. -/
structure Attempted (plan : Plan) (programs : Programs) (t : Tree) (done : List Project)
    (t' : Tree) : Prop where
  own : ∀ q ∈ done, ∀ l, q.pageHome plan.here <+: l →
    t'.entry? l = (q.alone plan programs t).2.tree.entry? l
  others : t'.AgreesOff (fun l => ∃ q ∈ done, q.pageHome plan.here <+: l) t

theorem attempted_nil (t : Tree) : plan.Attempted programs t [] t :=
  ⟨List.forall_mem_nil _, .refl t⟩

/-- In its directory, and not only among its pages, each project has left what it leaves
alone. -/
theorem Attempted.files (h : plan.Attempted programs t done t')
    (hapart : done.Pairwise (Project.HomesApart plan.here))
    (honly : ∀ p ∈ done, t.ChangesOnly (p.pageHome plan.here) (p.alone plan programs t).2.tree) :
    ∀ p ∈ done, ∀ l, p.home plan.here <+: l →
      t'.entry? l = (p.alone plan programs t).2.tree.entry? l := by
  intro p hp l hl
  by_cases hout : p.pageHome plan.here <+: l
  · exact h.own p hp l hout
  · rw [(honly p hp).outside l hout]
    refine h.others l ?_
    rintro ⟨q, hq, hqout⟩
    by_cases heq : p = q
    · exact hout (heq ▸ hqout)
    · exact (hapart.forall hp hq heq).not_pageHome hl hqout

section
variable (hgenerator : plan.generator = none) (hcopyTo : plan.copyTo = none)
include hgenerator hcopyTo

/-- After projects that it ignores, a project is converted as it is alone. -/
theorem Attempted.parallel (h : plan.Attempted programs t done s.tree)
    (hapart : ∀ q ∈ done, p.HomesApart plan.here q) (hplain : p.PlainNames plan.here t)
    (hfree : p.CrashFree plan programs t) (hignores : ∀ q ∈ done, p.Ignores plan.here t q) :
    Parallel (fun l => ∃ q ∈ done, q.pageHome plan.here <+: l) (p.pageHome plan.here) s
      { tree := t } (outcome (p.convert plan programs) s) (p.alone plan programs t) := by
  have hstopped := hfree.stopped_pages hgenerator
  refine (parallel_convert programs s { tree := t } hgenerator hcopyTo h.others
    (fun l hl hD => ?_) hplain hstopped fun d hd l hl hD => ?_).1
  · obtain ⟨q, hq, hout⟩ := hD
    exact (hapart q hq).not_pageHome hl hout
  · obtain ⟨q, hq, hout⟩ := hD
    exact hignores q hq d hd l hl hout

/-- A project alone changes nothing but its pages, and its log begins with its input and has
no error. -/
theorem changesOnly_alone (programs : Programs) (hplain : p.PlainNames plan.here t)
    (hfree : p.CrashFree plan programs t) :
    t.ChangesOnly (p.pageHome plan.here) (p.alone plan programs t).2.tree ∧
      (p.alone plan programs t).2.log.Quiet ∧
      (p.alone plan programs t).2.log.head? = some (.processing p.input) := by
  obtain ⟨⟨-, -, hchanges, events, hquiet, hlog, -⟩, more, hmore⟩ :=
    parallel_convert (D := fun _ => False) programs { tree := t } { tree := t } hgenerator hcopyTo
      (.refl t) (fun _ _ => id) hplain (hfree.stopped_pages hgenerator) fun _ _ _ _ => id
  have hevents : (p.alone plan programs t).2.log = events := hlog
  have hbegins : (p.alone plan programs t).2.log = _ := hmore.symm
  refine ⟨hchanges, ?_, ?_⟩
  · rwa [hevents]
  · rw [hbegins]
    rfl

theorem Attempted.concat (h : plan.Attempted programs t done s.tree)
    (hapart : ∀ q ∈ done, p.HomesApart plan.here q) (hplain : p.PlainNames plan.here t)
    (hfree : p.CrashFree plan programs t) (hignores : ∀ q ∈ done, p.Ignores plan.here t q) :
    plan.Attempted programs t (done ++ [p]) (outcome (p.convert plan programs) s).2.tree := by
  obtain ⟨-, hagrees, hchanges, -⟩ := h.parallel hgenerator hcopyTo hapart hplain hfree hignores
  have hhome (q : Project) : q.home plan.here <+: q.pageHome plan.here := List.prefix_append _ _
  constructor
  · intro q hq l hl
    rcases List.mem_append.1 hq with hq | hq
    · rw [hchanges.outside l ((hapart q hq).symm.not_pageHome ((hhome q).trans hl))]
      exact h.own q hq l hl
    · obtain rfl := List.mem_singleton.1 hq
      refine hagrees l ?_
      rintro ⟨q', hq', hout⟩
      exact (hapart q' hq').not_pageHome ((hhome q).trans hl) hout
  · intro l hl
    rw [hchanges.outside l fun hout => hl ⟨p, by simp, hout⟩]
    exact h.others l fun ⟨q, hq, hout⟩ => hl ⟨q, List.mem_append_left _ hq, hout⟩

/-- Attempted one after another, projects do what each of them does alone. -/
theorem Attempted.mapM (h : plan.Attempted programs t done s.tree)
    (hapart : (done ++ rest).Pairwise (Project.HomesApart plan.here))
    (hplain : ∀ p ∈ rest, p.PlainNames plan.here t)
    (hfree : ∀ p ∈ rest, p.CrashFree plan programs t)
    (hignores : ∀ p ∈ rest, ∀ q ∈ done ++ rest, p ≠ q → p.Ignores plan.here t q) :
    ∃ s', Ends (rest.mapM (attempt plan programs)) s
        (rest.map fun p => !(p.complaint (p.alone plan programs t).1).isEmpty) s' ∧
      plan.Attempted programs t (done ++ rest) s'.tree ∧
      s'.log = s.log ++ rest.flatMap fun p =>
        (p.alone plan programs t).2.log ++ p.complaint (p.alone plan programs t).1 := by
  -- the projects behind go over to those in front, for which `Attempted` is kept
  induction rest generalizing done s with
  | nil =>
    refine ⟨s, rfl, ?_, ?_⟩
    · rw [List.append_nil]
      exact h
    · exact (List.append_nil _).symm
  | cons p rest ih =>
    have hbefore (q : Project) (hq : q ∈ done) : p.HomesApart plan.here q :=
      ((List.pairwise_append.1 hapart).2.2 q hq p List.mem_cons_self).symm
    have hfirst (q : Project) (hq : q ∈ done) : p.Ignores plan.here t q :=
      hignores p List.mem_cons_self q (List.mem_append_left _ hq) (hbefore q hq).ne
    rw [List.forall_mem_cons] at hplain hfree
    obtain ⟨hresult, -, -, events, -, hlog, hlog₀⟩ :=
      h.parallel hgenerator hcopyTo hbefore hplain.1 hfree.1 hfirst
    have hconcat := h.concat hgenerator hcopyTo hbefore hplain.1 hfree.1 hfirst
    have hattempt := outcome_attempt plan programs p s (by rw [hresult]; exact hfree.1)
    rw [hresult] at hattempt
    have hsplit : done ++ p :: rest = done ++ [p] ++ rest := by simp
    rw [hsplit] at hapart hignores ⊢
    obtain ⟨s', hends, hattempted, hrest⟩ := ih
      (s := { (outcome (p.convert plan programs) s).2 with
        log := (outcome (p.convert plan programs) s).2.log ++
          p.complaint (p.alone plan programs t).1 })
      hconcat hapart hplain.2 hfree.2 fun q hq => hignores q (List.mem_cons_of_mem _ hq)
    refine ⟨s', ?_, hattempted, ?_⟩
    · rw [List.mapM_cons, ends_bind]
      refine ⟨_, _, hattempt, ends_bind.2 ⟨_, _, hends, ?_⟩⟩
      exact ends_pure.2 ⟨rfl, rfl⟩
    · rw [hrest, List.flatMap_cons]
      simp only [hlog, hlog₀, List.nil_append, List.append_assoc]

end

/-! ## A whole run -/

def complaints (plan : Plan) (programs : Programs) (t : Tree) (projects : List Project) : Log :=
  projects.flatMap fun p => p.complaint (p.alone plan programs t).1

def summary (complaints : Log) : Log :=
  if complaints = [] then [] else [.projectsFailed complaints.length]

theorem count_complaints (plan : Plan) (programs : Programs) (t : Tree)
    (projects : List Project) :
    (projects.map fun p => !(p.complaint (p.alone plan programs t).1).isEmpty).count true =
      (plan.complaints programs t projects).length := by
  induction projects with
  | nil => rfl
  | cons p projects ih =>
    rw [List.map_cons, List.count_cons, ih, Nat.add_comm]
    show _ = (p.complaint (p.alone plan programs t).1 ++
      plan.complaints programs t projects).length
    rw [List.length_append]
    congr 1
    cases (p.alone plan programs t).1 with
    | ok n => rfl
    | error e => cases e <;> rfl

/-- A run that finds projects attempts them all and ends with a summary of the complaints. -/
theorem outcome_carryOut {complaints : Log} {flags : List Bool} {s' : Session}
    (hfound : (discover s.tree plan.here plan.config plan.output).value = some (.ok projects))
    (hends : Ends (projects.mapM (attempt plan programs)) { s with
      log := s.log ++ (discover s.tree plan.here plan.config plan.output).log } flags s')
    (hcount : flags.count true = complaints.length) :
    outcome (plan.carryOut programs) s = (.ok (if complaints = [] then 0 else 1),
      { s' with log := s'.log ++ summary complaints }) := by
  unfold carryOut
  rw [outcome_bind, outcome_get]
  dsimp only
  rw [outcome_bind, outcome_modify]
  dsimp only
  rw [hfound]
  dsimp only
  rw [outcome_bind, show outcome _ _ = _ from hends]
  simp only [hcount]
  cases complaints with
  | nil =>
    show (_, s') = (_, { s' with log := s'.log ++ [] })
    rw [List.append_nil]
    rfl
  | cons e es => rfl

def reports (plan : Plan) (programs : Programs) (t : Tree) (projects : List Project) : Log :=
  (projects.flatMap fun p =>
    (p.alone plan programs t).2.log ++ p.complaint (p.alone plan programs t).1) ++
  summary (plan.complaints programs t projects)

/-- A run in which every project does what it does alone. -/
structure Undisturbed (plan : Plan) (programs : Programs) (projects : List Project) (s : Session)
    (ended : Except Crash Nat × Session) : Prop where
  /-- In its directory each project leaves what it leaves alone. -/
  files : ∀ p ∈ projects, ∀ l, p.home plan.here <+: l →
    ended.2.tree.entry? l = (p.alone plan programs s.tree).2.tree.entry? l
  /-- Only pages and index pages are other than before. -/
  elsewhere : ∀ l, (∀ p ∈ projects, ¬ p.pageHome plan.here <+: l) →
    ended.2.tree.entry? l = s.tree.entry? l
  /-- All projects are attempted, in order. -/
  log : ended.2.log = s.log ++ (discover s.tree plan.here plan.config plan.output).log ++
    plan.reports programs s.tree projects
  begins : ∀ p ∈ projects,
    (p.alone plan programs s.tree).2.log.head? = some (.processing p.input)
  /-- There is one error for each project that fails, and one with their number. -/
  errors : (plan.reports programs s.tree projects).above .error =
    plan.complaints programs s.tree projects ++
      summary (plan.complaints programs s.tree projects)
  complaint : ∀ p ∈ projects, ∀ e ∈ p.complaint (p.alone plan programs s.tree).1,
    ∃ cause, e = .projectFailed p.input cause
  exit : ended.1 = .ok (if plan.complaints programs s.tree projects = [] then 0 else 1)

theorem above_error_complaint (p : Project) (r : Except Failure Nat) :
    Log.above .error (p.complaint r) = p.complaint r := by
  cases r with
  | ok n => rfl
  | error e => cases e <;> rfl

theorem above_error_reports (hquiet : ∀ p ∈ projects, (p.alone plan programs t).2.log.Quiet) :
    (plan.reports programs t projects).above .error =
      plan.complaints programs t projects ++ summary (plan.complaints programs t projects) := by
  rw [reports, Log.above_append]
  congr 1
  · rw [complaints, Log.above, List.filter_flatMap]
    refine List.flatMap_congr fun p hp => ?_
    show Log.above .error _ = _
    rw [Log.above_append, (hquiet p hp).above_error, above_error_complaint]
    rfl
  · unfold summary
    split <;> rfl

/-- Projects with directories apart, none of which reads another one's pages, do not disturb
each other in a run, whether and wherever they fail. -/
theorem siblings_undisturbed (plan : Plan) (programs : Programs) (s : Session)
    (projects : List Project) (hgenerator : plan.generator = none) (hcopyTo : plan.copyTo = none)
    (hfound : (discover s.tree plan.here plan.config plan.output).value = some (.ok projects))
    (hapart : projects.Pairwise (Project.HomesApart plan.here))
    (hplain : ∀ p ∈ projects, p.PlainNames plan.here s.tree)
    (hfree : ∀ p ∈ projects, p.CrashFree plan programs s.tree)
    (hignores : ∀ p ∈ projects, ∀ q ∈ projects, p ≠ q → p.Ignores plan.here s.tree q) :
    plan.Undisturbed programs projects s (outcome (plan.carryOut programs) s) := by
  have halone (p : Project) (hp : p ∈ projects) :=
    changesOnly_alone hgenerator hcopyTo programs (hplain p hp) (hfree p hp)
  have hnil : plan.Attempted programs s.tree [] s.tree := attempted_nil s.tree
  obtain ⟨s', hends, hattempted, hlog⟩ := hnil.mapM
    (s := { s with log := s.log ++ (discover s.tree plan.here plan.config plan.output).log })
    hgenerator hcopyTo hapart hplain hfree hignores
  rw [List.nil_append] at hattempted
  rw [outcome_carryOut hfound hends (count_complaints plan programs s.tree projects)]
  exact
    { files := hattempted.files hapart fun p hp => (halone p hp).1
      elsewhere := fun l hl => hattempted.others l fun ⟨p, hp, hout⟩ => hl p hp hout
      log := by
        rw [reports, ← List.append_assoc]
        exact congrArg (· ++ _) hlog
      begins := fun p hp => (halone p hp).2.2
      errors := above_error_reports fun p hp => (halone p hp).2.1
      complaint := fun p hp e he => complaint_eq hgenerator _ he
      exit := rfl }

/-- Three listed directories: the first has a directory in the place of its second page, the
second a broken index, and the third no classes. -/
def threeLibs : Session where
  tree := ⟨[(["doxymd.yml"], .file "projects: [a, b, c]" false), (["docs"], .dir),
    (["docs", "a"], .dir), (["docs", "a", "xml"], .dir),
    (["docs", "a", "xml", "index.xml"], .file
      ("<doxygenindex><compound refid=\"s\" kind=\"class\"><name>Shape</name></compound>" ++
        "<compound refid=\"t\" kind=\"class\"><name>Tile</name></compound></doxygenindex>")
      false),
    (["docs", "a", "xml", "s.xml"], .file
      ("<doxygen><compounddef id=\"s\" kind=\"class\">" ++
        "<compoundname>Shape</compoundname></compounddef></doxygen>") false),
    (["docs", "a", "xml", "t.xml"], .file
      ("<doxygen><compounddef id=\"t\" kind=\"class\">" ++
        "<compoundname>Tile</compoundname></compounddef></doxygen>") false),
    (["docs", "a", "out"], .dir), (["docs", "a", "out", "tile.md"], .dir),
    (["docs", "b"], .dir), (["docs", "b", "xml"], .dir),
    (["docs", "b", "xml", "index.xml"], .file "<doxygenindex>" false),
    (["docs", "c"], .dir), (["docs", "c", "xml"], .dir),
    (["docs", "c", "xml", "index.xml"], .file "<doxygenindex></doxygenindex>" false)]⟩

theorem siblings_undisturbed_threeLibs : ∃ projects,
    (discover threeLibs.tree [] ⟨1, ["doxymd.yml"]⟩ none).value = some (.ok projects) ∧
      projects.length = 3 ∧
      convertOnly.Undisturbed (fun _ _ _ => none) projects threeLibs
        (outcome (convertOnly.carryOut fun _ _ _ => none) threeLibs) ∧
      (convertOnly.complaints (fun _ _ _ => none) threeLibs.tree projects).length = 2 := by
  have hfound : (discover threeLibs.tree [] ⟨1, ["doxymd.yml"]⟩ none).projects?.map
      (fun ps => (ps.length, decide (ps.Pairwise (Project.HomesApart [])),
        decide (∀ p ∈ ps, p.PlainNames [] threeLibs.tree),
        decide (∀ p ∈ ps, p.CrashFree convertOnly (fun _ _ _ => none) threeLibs.tree),
        decide (∀ p ∈ ps, ∀ q ∈ ps, p.output ≠ q.output → p.Ignores [] threeLibs.tree q),
        (convertOnly.complaints (fun _ _ _ => none) threeLibs.tree ps).length)) =
      some (3, true, true, true, true, 2) := by
    decide +kernel
  obtain ⟨projects, hprojects, hfacts⟩ := exists_found_of_map hfound
  simp only [Prod.mk.injEq, decide_eq_true_eq] at hfacts
  obtain ⟨hlength, hapart, hplain, hfree, hignores, hcomplaints⟩ := hfacts
  refine ⟨projects, hprojects, hlength, ?_, hcomplaints⟩
  refine siblings_undisturbed convertOnly _ threeLibs projects rfl rfl hprojects hapart hplain
    hfree fun p hp q hq hne => hignores p hp q hq ?_
  exact (hapart.forall hp hq hne).output_ne

def crossing : Session where
  tree := ⟨[(["doxymd.yml"], .file "projects: [a, b]" false), (["a"], .dir),
    (["a", "doxymd.yml"], .file "index: data.xml" false), (["docs"], .dir),
    (["docs", "a"], .dir), (["docs", "a", "xml"], .dir),
    (["docs", "a", "xml", "index.xml"], .file "<doxygenindex></doxygenindex>" false),
    (["docs", "a", "out"], .dir),
    (["docs", "a", "out", "data.xml"], .file
      ("<doxygen><compounddef id=\"s\" kind=\"class\">" ++
        "<compoundname>Shape</compoundname></compounddef></doxygen>") false),
    (["docs", "b"], .dir), (["docs", "b", "xml"], .dir),
    (["docs", "b", "xml", "index.xml"], .file
      ("<doxygenindex><compound refid=\"../../a/out/data\" kind=\"class\">" ++
        "<name>Shape</name></compound></doxygenindex>") false)]⟩

/-- A project is disturbed if it reads what another one writes. -/
theorem not_siblings_undisturbed_crossing : ¬ ∀ (plan : Plan) (programs : Programs) (s : Session)
    (projects : List Project), plan.generator = none → plan.copyTo = none →
      (discover s.tree plan.here plan.config plan.output).value = some (.ok projects) →
      projects.Pairwise (Project.HomesApart plan.here) →
      (∀ p ∈ projects, p.PlainNames plan.here s.tree) →
      (∀ p ∈ projects, p.CrashFree plan programs s.tree) →
      ∀ p ∈ projects, ∀ l, p.home plan.here <+: l →
        (outcome (plan.carryOut programs) s).2.tree.entry? l =
          (p.alone plan programs s.tree).2.tree.entry? l := by
  intro hclaim
  have hfound : (discover crossing.tree [] ⟨1, ["doxymd.yml"]⟩ none).projects?.map
      (fun ps => (decide (ps.Pairwise (Project.HomesApart [])),
        decide (∀ p ∈ ps, p.PlainNames [] crossing.tree),
        decide (∀ p ∈ ps, p.CrashFree convertOnly (fun _ _ _ => none) crossing.tree),
        decide (∃ p ∈ ps, p.home [] = ["docs", "b"] ∧
          ((p.alone convertOnly (fun _ _ _ => none) crossing.tree).2.tree.entry?
            ["docs", "b", "out", "shape.md"]).isSome))) = some (true, true, true, true) := by
    decide +kernel
  have hmissing : (outcome (convertOnly.carryOut fun _ _ _ => none) crossing).2.tree.entry?
      ["docs", "b", "out", "shape.md"] = none := by
    decide +kernel
  obtain ⟨projects, hprojects, hfacts⟩ := exists_found_of_map hfound
  simp only [Prod.mk.injEq, decide_eq_true_eq] at hfacts
  obtain ⟨hapart, hplain, hfree, p, hp, hhome, halone⟩ := hfacts
  have hfiles := hclaim convertOnly (fun _ _ _ => none) crossing projects rfl rfl hprojects
    hapart hplain hfree p hp ["docs", "b", "out", "shape.md"]
  have hinside : p.home convertOnly.here <+: ["docs", "b", "out", "shape.md"] := by
    rw [show p.home convertOnly.here = ["docs", "b"] from hhome]
    decide
  rw [← hfiles hinside, hmissing] at halone
  cases halone

end Plan

end DoxPages
