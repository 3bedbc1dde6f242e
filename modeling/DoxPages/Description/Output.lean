import DoxPages.Log.Event

/-!
# Output of a rendering

What has been written so far, as the fragments that were written one by one,
newest first, and the events reported on the way, newest first too. An empty
fragment is never kept, and only a last fragment that is a single space can be
taken back. Where the program breaks off, the output keeps the events so far and
goes on as if nothing had happened.
-/

namespace DoxPages

structure Output where
  fragments : List String := []
  events : Log := []
  /-- The events when the program breaks off, if it does. -/
  stopped : Option Log := none
  deriving DecidableEq, Repr, Inhabited

namespace Output

/-- Everything written, in order. -/
def text (o : Output) : String := String.join o.fragments.reverse

def write (s : String) (o : Output) : Output :=
  if s = "" then o else { o with fragments := s :: o.fragments }

/-- Takes back the last fragment if it is a single space. -/
def dropSpace (o : Output) : Output :=
  match o.fragments with
  | " " :: rest => { o with fragments := rest }
  | _ => o

def report (e : Event) (o : Output) : Output := { o with events := e :: o.events }

/-- Breaks off unless a condition holds, or that has happened already. -/
def stopUnless (ok : Bool) (o : Output) : Output :=
  if ok then o else { o with stopped := o.stopped.or (some o.events) }

@[simp] theorem write_empty (o : Output) : o.write "" = o := by simp [write]

@[simp] theorem text_empty (log : Log) (stopped : Option Log) :
    ({ events := log, stopped } : Output).text = "" := rfl

@[simp] theorem text_write (s : String) (o : Output) : (o.write s).text = o.text ++ s := by
  unfold write text
  split
  · rename_i h
    rw [h, String.append_empty]
  · rw [List.reverse_cons, String.join_append]
    simp

@[simp] theorem text_report (e : Event) (o : Output) : (o.report e).text = o.text := rfl

@[simp] theorem events_write (s : String) (o : Output) : (o.write s).events = o.events := by
  unfold write; split <;> rfl

@[simp] theorem fragments_report (e : Event) (o : Output) :
    (o.report e).fragments = o.fragments := rfl

@[simp] theorem fragments_stopUnless (ok : Bool) (o : Output) :
    (o.stopUnless ok).fragments = o.fragments := by
  unfold stopUnless; split <;> rfl

@[simp] theorem events_stopUnless (ok : Bool) (o : Output) :
    (o.stopUnless ok).events = o.events := by
  unfold stopUnless; split <;> rfl

@[simp] theorem text_stopUnless (ok : Bool) (o : Output) : (o.stopUnless ok).text = o.text := by
  rw [text, text, fragments_stopUnless]

end Output

end DoxPages
