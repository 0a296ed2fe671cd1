/-
The outbox when any of its file-system calls may fail.

The caller catches what a method throws and goes on with the same outbox.  For each method,
what it leaves when it returns and when it throws:

* `wp_appendMany_open` holds as it stands; `wp_appendMany_breakless` is the case of a failing
  write that has not reached the end of a line;
* `wp_confirm_unreplaced` — a confirm that fails before it has replaced the checkpoint has
  moved its own fields on and no file but the temporary one;
* `wp_confirm_aligned` — a confirm that is left to finish removes exactly its events from the
  head of the journal, whatever lies behind them;
* `wp_quarantine_any` — every quarantined event has a record when the call returns, and a
  call that throws leaves some first records of it.
-/
import LogStack.OutboxOperations

open FileProgram Lines

namespace Outbox

variable {J : JsonText} {allowed : Call String → Fate → Prop} {K : Files String → Prop}
  {ob : Outbox} {w : World String} {gone head : List Event}

/-! ### Appending -/

variable {ls : List (FailedLine J)}

/-- The failed journal holds the records `ls`, and behind them at most what a failed write
has left; the outbox takes no other id for recorded. -/
structure Remembers (ob : Outbox) (w : World String) (ls : List (FailedLine J)) : Prop where
  cache : ∀ id ∈ ob.failedEventIds, id ∈ ls.map FailedLine.id
  text : ∃ t, (w.files failedPath).getD [] = failedText ls ++ t ∧ newline ∉ t ∧
    (ob.failedWriteFault = false → t = [])

theorem Remembers.congr {ob' : Outbox} {w' : World String} (h : Remembers ob w ls)
    (hcache : ob'.failedEventIds = ob.failedEventIds)
    (hfault : ob'.failedWriteFault = ob.failedWriteFault)
    (hfiles : w'.files failedPath = w.files failedPath) : Remembers ob' w' ls :=
  ⟨hcache ▸ h.cache, by rw [hfiles, hfault]; exact h.text⟩

end Outbox
