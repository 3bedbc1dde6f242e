import DoxPages.Description.Output
import DoxPages.Markup.Node
import DoxPages.Proofs.Text.Ink

/-!
# The ink of outputs and nodes

`Adds w o p`: the output `p` holds the ink of `o` and, behind it, the ink `w`.
A fragment may be written on either side of what adds `w`, and the space that
may be taken back is no ink.
-/

namespace DoxPages

open Text

/-! ## Outputs -/

namespace Output

/-- The characters written so far, without blanks. -/
def ink (o : Output) : List Char := Text.ink o.text.toList

@[simp] theorem ink_write (s : String) (o : Output) :
    (o.write s).ink = o.ink ++ Text.ink s.toList := by
  simp [ink]

@[simp] theorem ink_report (e : Event) (o : Output) : (o.report e).ink = o.ink := rfl

@[simp] theorem ink_dropSpace (o : Output) : o.dropSpace.ink = o.ink := by
  unfold dropSpace
  split
  · rename_i rest h
    have hspace : Text.ink [' '] = [] := by decide
    simp [ink, text, h, hspace]
  · rfl

/-- The second output holds the ink of the first and then, in order, `w`. -/
def Adds (w : List Char) (o p : Output) : Prop := (o.ink ++ w).Sublist p.ink

namespace Adds

variable {v w : List Char} {o p q : Output}

theorem of_ink (h : o.ink = p.ink) : Adds [] o p := by
  unfold Adds
  rw [List.append_nil]
  exact h ▸ List.Sublist.refl _

theorem mono (hw : v.Sublist w) (h : Adds w o p) : Adds v o p :=
  ((List.Sublist.refl o.ink).append hw).trans h

theorem trans (h : Adds v o p) (h' : Adds w p q) : Adds (v ++ w) o q := by
  unfold Adds at *
  rw [← List.append_assoc]
  exact (h.append (List.Sublist.refl w)).trans h'

theorem write (h : Adds w o p) (s : String) : Adds w o (p.write s) := by
  unfold Adds
  rw [ink_write]
  exact List.Sublist.trans h (List.sublist_append_left ..)

theorem of_write {s : String} (h : Adds w (o.write s) p) : Adds w o p := by
  unfold Adds at h
  rw [ink_write, List.append_assoc] at h
  exact ((List.Sublist.refl o.ink).append (List.sublist_append_right ..)).trans h

theorem of_report {e : Event} (h : Adds w (o.report e) p) : Adds w o p := h

theorem of_dropSpace (h : Adds w o.dropSpace p) : Adds w o p := by
  unfold Adds at *
  rwa [ink_dropSpace] at h

theorem of_stopUnless {ok : Bool} (h : Adds w (o.stopUnless ok) p) : Adds w o p := by
  rwa [Adds, ink, text_stopUnless] at h

theorem of_ite {c : Prop} [Decidable c] {s : String}
    (h : Adds w (if c then o else o.write s) p) : Adds w o p := by
  split at h
  · exact h
  · exact h.of_write

theorem write_self {s : String} (hs : w.Sublist (Text.ink s.toList)) (o : Output) :
    Adds w o (o.write s) := by
  unfold Adds
  rw [ink_write]
  exact (List.Sublist.refl o.ink).append hs

end Adds

end Output

open Output

/-! ## What a node leaves -/

namespace Node

def ink (n : Node) : List Char := Text.ink n.textContent.toList

/-- A cell closes its text with a bar. -/
def cellInk (n : Node) : List Char := n.ink ++ if n.tag = "entry" then ['|'] else []

theorem ink_element (tag : String) (attrs : List (String × String)) (children : List Node) :
    (element tag attrs children).ink = Text.ink (textContents children).toList := by
  rw [ink, textContent]

theorem ink_sublist_cellInk (n : Node) : n.ink.Sublist n.cellInk := List.sublist_append_left ..

theorem ink_textContents_cons (n : Node) (ns : List Node) :
    Text.ink (textContents (n :: ns)).toList = n.ink ++ Text.ink (textContents ns).toList := by
  rw [textContents, String.toList_append, ink_append, ink]

theorem ink_textContents_sublist (ns : List Node) :
    (Text.ink (textContents ns).toList).Sublist (ns.flatMap cellInk) := by
  induction ns with
  | nil => exact List.nil_sublist _
  | cons n ns ih =>
    rw [ink_textContents_cons, List.flatMap_cons]
    exact n.ink_sublist_cellInk.append ih

end Node

end DoxPages
