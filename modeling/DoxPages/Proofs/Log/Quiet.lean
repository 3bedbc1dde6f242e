import DoxPages.Project.Basic
import DoxPages.Conversion.Convert
import DoxPages.Proofs.Description.Reports

/-!
# Logs without errors

What is reported while documents are loaded and pages are made is at most a warning. A
log is `Quiet` if it holds no error; then the errors of a run are those of the projects
that failed.
-/

namespace DoxPages

namespace Log

def Quiet (log : Log) : Prop := ∀ e ∈ log, e.level ≠ .error

variable {log more : Log}

theorem quiet_nil : Quiet [] := List.forall_mem_nil _

theorem quiet_cons {e : Event} : Quiet (e :: log) ↔ e.level ≠ .error ∧ log.Quiet :=
  List.forall_mem_cons

theorem quiet_singleton {e : Event} (h : e.level ≠ .error) : Quiet [e] :=
  quiet_cons.2 ⟨h, quiet_nil⟩

theorem Quiet.append (h : log.Quiet) (h' : more.Quiet) : (log ++ more).Quiet :=
  List.forall_mem_append.2 ⟨h, h'⟩

theorem above_append (level : Level) (log more : Log) :
    above level (log ++ more) = log.above level ++ more.above level := List.filter_append ..

theorem Quiet.above_error (h : log.Quiet) : log.above .error = [] := by
  rw [above, List.filter_eq_nil_iff]
  intro e he herror
  have hlevel : e.level = .error := by
    revert herror
    cases e.level <;> decide
  exact h e he hlevel

end Log

/-! ## Values with a log -/

namespace Reported

variable {α β : Type}

def Quiet (x : Reported α) : Prop := x.log.Quiet

theorem quiet_pure (a : α) : Quiet (pure a) := Log.quiet_nil

theorem quiet_report {e : Event} (h : e.level ≠ .error) : Quiet (report e) := Log.quiet_singleton h

theorem Quiet.bind {x : Reported α} {f : α → Reported β} (hx : x.Quiet) (hf : ∀ a, (f a).Quiet) :
    Quiet (x >>= f) := Log.Quiet.append hx (hf _)

theorem quiet_each {f : α → Reported β} (hf : ∀ a, (f a).Quiet) (as : List α) :
    (each f as).Quiet := by
  induction as with
  | nil => exact quiet_pure []
  | cons a as ih => exact .bind (hf a) fun _ => .bind ih fun _ => quiet_pure _

end Reported

open Reported

theorem Description.quiet_toMarkdown (resolver : Option Resolver) (d : Description) :
    (d.toMarkdown resolver).Quiet :=
  reports_toMarkdown ⟨fun _ => nofun, fun _ => nofun, fun _ _ _ => nofun, fun _ _ _ _ => nofun⟩ d

/-! ## Prototypes -/

namespace Source

theorem quiet_plainType (n : Node) : (plainType n).Quiet :=
  .bind (Description.quiet_toMarkdown _ _) fun _ => quiet_pure _

theorem Param.quiet_text (p : Param) : p.text.Quiet := by
  refine .bind (quiet_plainType _) fun _ => ?_
  cases p.defval with
  | none => exact quiet_pure _
  | some value => exact .bind (quiet_plainType _) fun _ => quiet_pure _

theorem quiet_headerLine (params : Option (List Param)) : (headerLine params).Quiet := by
  cases params with
  | none => exact quiet_pure _
  | some params =>
    exact .bind (.bind (quiet_each Param.quiet_text _) fun _ => quiet_pure _) fun _ => quiet_pure _

theorem Member.quiet_prototype (m : Member) : m.prototype.Quiet :=
  .bind (quiet_headerLine _) fun _ => .bind (quiet_plainType _) fun _ => quiet_pure _

theorem quiet_compoundPrototype (kind typeName : String) (bases : List BaseRef)
    (params : Option (List Param)) : (compoundPrototype kind typeName bases params).Quiet :=
  .bind (quiet_headerLine _) fun _ => quiet_pure _

end Source

/-! ## Building -/

namespace Docs.Builder

theorem quiet_document (r : Resolver) (m : Source.Member) : (document r m).Quiet :=
  .bind (Description.quiet_toMarkdown _ _) fun _ =>
    .bind (Description.quiet_toMarkdown _ _) fun _ =>
      .bind m.quiet_prototype fun _ => quiet_pure _

theorem quiet_documentCompound (b : Builder) (c : Source.Compound) (page : Compound) :
    (b.documentCompound c page).Quiet :=
  .bind (Description.quiet_toMarkdown _ _) fun _ =>
    .bind (Description.quiet_toMarkdown _ _) fun _ =>
      .bind (Source.quiet_compoundPrototype _ _ _ _) fun _ =>
        .bind (quiet_each (quiet_document _) _) fun _ => quiet_pure _

theorem quiet_convert (b : Builder) (c : Source.Compound) : (b.convert c).Quiet := by
  unfold convert
  split
  · exact quiet_pure b
  · exact .bind (b.quiet_documentCompound c _) fun _ => quiet_pure _

theorem quiet_convertAll (b : Builder) (cs : List Source.Compound) : (b.convertAll cs).Quiet := by
  induction cs generalizing b with
  | nil => exact quiet_pure b
  | cons c cs ih => exact .bind (b.quiet_convert c) fun _ => ih _

theorem quiet_groupAll (b : Builder) (cs : List Source.Compound) : (b.groupAll cs).Quiet := by
  induction cs generalizing b with
  | nil => exact quiet_pure _
  | cons c cs ih =>
    refine .bind (quiet_report nofun) fun _ => ?_
    split
    · exact quiet_pure _
    · exact ih _

theorem quiet_build (b : Builder) (model : Source.Model) : (b.build model).Quiet := by
  refine .bind (b.quiet_groupAll _) fun _ => ?_
  split
  · exact quiet_pure _
  · exact .bind (quiet_convertAll _ _) fun _ => .bind (quiet_report nofun) fun _ => quiet_pure _

end Docs.Builder

/-! ## Loading -/

namespace Source

variable (read? : Path → Option String)

theorem quiet_loadEntries (dir : Path) (model : Model) (es : List Entry) :
    (loadEntries read? dir model es).Quiet := by
  induction es generalizing model with
  | nil => exact quiet_pure _
  | cons e es ih =>
    refine .bind (quiet_report nofun) fun _ => ?_
    split
    · exact quiet_pure _
    · exact ih _

theorem quiet_loadModel (dir : Path) (kinds : List String) : (loadModel read? dir kinds).Quiet := by
  refine .bind (quiet_report nofun) fun _ => ?_
  split
  · exact quiet_pure _
  · refine .bind (quiet_loadEntries read? _ _ _) fun _ => ?_
    split
    · exact quiet_pure _
    · exact .bind (quiet_report nofun) fun _ => quiet_pure _

end Source

/-- No error is reported while the pages of a project are made, even if they cannot be. -/
theorem Project.quiet_pages (p : Project) (read? : Path → Option String) :
    (p.pages read?).Quiet := by
  unfold pages
  split
  · exact quiet_pure _
  · exact quiet_pure _
  · refine .bind (Source.quiet_loadModel _ _ _) fun _ => ?_
    split
    · exact quiet_pure _
    · refine .bind (Docs.Builder.quiet_build _ _) fun _ => ?_
      split <;> exact quiet_pure _

end DoxPages
