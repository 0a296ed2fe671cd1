/-
The block-wise file readers.

The outbox reads its files 64 KiB at a time: from the end when it looks for the last line break,
and from the start when it goes through the failed journal.  What comes of it is a fact about
the whole file and the same for every size of the blocks.

* `TruncatesTail` — cutting off the unfinished line;
* `journalRecords` — the ids of a failed journal with the offsets of their lines;
* `Answers`, `ScansJournal` — how the scan of a failed journal ends;
* `block_readers` — both, for every block size.
-/
import LogStack.CrashSafety
import Mathlib.Data.PNat.Basic

open FileProgram Lines

namespace Outbox

variable (J : JsonText)

/-! ### The end of a file -/

/-- The longest beginning without an unfinished line is left, the answer is 1 when that is not
the whole file, and doing it again changes nothing. -/
def TruncatesTail (blockBytes : ℕ) (path : String) (data : Bytes) : Prop :=
  ∀ ob w plan, w.files path = some data → Uninterrupted plan → ∃ kept w',
    run (truncateIncompleteTailBy blockBytes path) plan ob w
        = .returned (if kept = data then 0 else 1) ob w' ∧
      LongestClosed newline data kept ∧ w'.files = Function.update w.files path (some kept) ∧
      ∀ plan', Uninterrupted plan' → ∃ w'',
        run (truncateIncompleteTailBy blockBytes path) plan' ob w' = .returned 0 ob w'' ∧
          w''.files = w'.files

section Truncate

variable {w : World String} {plan : List Fate} {blockBytes : ℕ} {path : String}
  {ls : List Bytes} {t : Bytes}

theorem run_truncateIncompleteTailBy (ob : Outbox) (hblock : 0 < blockBytes)
    (hfile : w.files path = some (unlines newline ls ++ t)) (ht : newline ∉ t)
    (hplan : Uninterrupted plan) : ∃ w',
    run (truncateIncompleteTailBy blockBytes path) plan ob w
        = .returned (if t = [] then 0 else 1) ob w' ∧
      w'.files = Function.update w.files path (some (unlines newline ls)) := by
  have hwp : wp Fate.Crash (fun r ob' w' => r = .ok (if t = [] then 0 else 1) ∧ ob' = ob ∧
      w'.files = Function.update w.files path (some (unlines newline ls))) (fun _ => True)
      (truncateIncompleteTailBy blockBytes path) ob w := by
    refine wp_truncateIncompleteTailBy hblock throws_crash (by rw [hfile, Option.getD_some]) ht
      trivial trivial fun w' hfiles _ => ⟨rfl, rfl, ?_⟩
    rw [hfiles, replace, hfile, Option.map_some]
  obtain ⟨n, ob', w', hrun, hn, rfl, hfiles⟩ :=
    returned_of_wp hplan hwp fun e ob w hQ => absurd hQ.1 (by simp)
  exact ⟨w', by rw [hrun, Except.ok.inj hn], hfiles⟩

theorem truncatesTail (hblock : 0 < blockBytes) (path : String) (data : Bytes) :
    TruncatesTail blockBytes path data := by
  intro ob w plan hfile hplan
  obtain ⟨ls, t, rfl, ht⟩ := exists_unlines_append newline data
  obtain ⟨w', hrun, hfiles⟩ := run_truncateIncompleteTailBy ob hblock hfile ht hplan
  have hkept : unlines newline ls = unlines newline ls ++ t ↔ t = [] := by
    rw [List.self_eq_append_right]
  refine ⟨unlines newline ls, w', ?_, longestClosed_unlines newline ls ht, hfiles,
    fun plan' hplan' => ?_⟩
  · rw [hrun]
    simp only [hkept]
  · have hfile' : w'.files path = some (unlines newline ls ++ []) := by
      rw [hfiles, Function.update_self, List.append_nil]
    obtain ⟨w'', hrun', hfiles'⟩ :=
      run_truncateIncompleteTailBy ob hblock hfile' List.not_mem_nil hplan'
    refine ⟨w'', hrun', ?_⟩
    rw [hfiles', hfiles, Function.update_idem]

end Truncate

/-! ### The failed journal -/

/-- `[...failedJournalIds(path, stop)]` -/
def failedJournalIds (blockBytes : ℕ) (path : String) (stop : Option ℕ) :
    OutboxM (List (JsString × ℕ)) :=
  forFailedJournalIdsBy J blockBytes path stop
    (fun id offset found => pure (.yield (found ++ [(id, offset)]))) []

variable {J}

/-- The id of each record with the offset at which its line starts. -/
def journalRecords (lines : List (FailedLine J)) : List (JsString × ℕ) :=
  lines.mapIdx fun i line => (line.id, lineOffset newline (lines.map FailedLine.text) i)

variable (J) in
/-- The scan ends with this answer, and the files are as they were. -/
def Answers (blockBytes : ℕ) (path : String) (stop : Option ℕ) (w : World String)
    (answer : Except Failure (List (JsString × ℕ))) : Prop :=
  ∀ ob plan, Uninterrupted plan → ∃ w', w'.files = w.files ∧
    run (failedJournalIds J blockBytes path stop) plan ob w = match answer with
      | .ok found => .returned found ob w'
      | .error e => .threw e ob w'

section Scan

variable {w : World String} {blockBytes : ℕ} {path : String} {lines : List (FailedLine J)}
  {data tail : Bytes}

theorem lineOffset_texts (lines : List (FailedLine J)) (k : ℕ) :
    lineOffset newline (lines.map FailedLine.text) k = (failedText (lines.take k)).length := by
  rw [lineOffset, ← List.map_take, failedText]

theorem getElem?_journalRecords (lines : List (FailedLine J)) (i : ℕ) :
    (journalRecords lines)[i]? = lines[i]?.map fun line =>
      (line.id, (failedText (lines.take i)).length) := by
  rw [journalRecords, List.getElem?_mapIdx]
  simp only [lineOffset_texts]

theorem journalRecords_concat (lines : List (FailedLine J)) (line : FailedLine J) :
    journalRecords (lines ++ [line])
      = journalRecords lines ++ [(line.id, (failedText lines).length)] := by
  have hlength : (journalRecords lines).length = lines.length := List.length_mapIdx
  refine List.ext_getElem? fun i => ?_
  rw [getElem?_journalRecords]
  rcases Nat.lt_trichotomy i lines.length with hi | rfl | hi
  · rw [List.getElem?_append_left hi, List.getElem?_append_left (hlength ▸ hi),
      List.take_append_of_le_length hi.le, getElem?_journalRecords]
  · rw [List.getElem?_concat_length, List.take_left, Option.map_some]
    conv_rhs => rw [← hlength, List.getElem?_concat_length]
  · rw [List.getElem?_eq_none (by rw [List.length_append, List.length_singleton]; omega),
      Option.map_none, List.getElem?_eq_none]
    rw [List.length_append, List.length_singleton, hlength]
    omega

theorem journalRecords_take (lines : List (FailedLine J)) (k : ℕ) :
    journalRecords (lines.take k) = (journalRecords lines).take k := by
  refine List.ext_getElem? fun i => ?_
  rw [getElem?_journalRecords, List.getElem?_take, List.getElem?_take]
  split_ifs with hi
  · rw [getElem?_journalRecords, List.take_take, Nat.min_eq_left hi.le]
  · rfl

/-- The scan of the lines before its end, and of an unfinished one. -/
theorem answers_of_upTo (stop : Option ℕ) (hblock : 0 < blockBytes)
    (hfile : w.files path = some data)
    (htext : upTo stop data = failedText lines ++ tail) (htail : newline ∉ tail) :
    Answers J blockBytes path stop w
      (if tail = [] then .ok (journalRecords lines) else .error incompleteLine) := by
  intro ob plan hplan
  have hwp : wp Fate.Crash (fun r ob' w' => w'.files = w.files ∧ ob' = ob ∧
        r = if tail = [] then .ok (journalRecords lines) else .error incompleteLine)
      (fun _ => True) (failedJournalIds J blockBytes path stop) ob w := by
    refine wp_forFailedJournalIdsBy
      (I := fun seen found ob' => found = journalRecords seen ∧ ob' = ob)
      (D := fun _ _ => False) hblock ?_ loopThrows_of_sturdy hfile htail htext trivial rfl
      ⟨rfl, rfl⟩ ?_ ?_
    · rintro seen line rest - found ob' w' hfiles ⟨rfl, rfl⟩
      exact wp_pure ⟨hfiles, .refl w', _, rfl, (journalRecords_concat seen line).symm, rfl⟩
    · rintro found ob' w' hfiles - (⟨hnil, rfl, rfl⟩ | hfalse)
      · exact ⟨hfiles, rfl, by rw [if_pos hnil]⟩
      · exact hfalse.elim
    · rintro hne found ob' w' hfiles - ⟨rfl, rfl⟩
      exact ⟨hfiles, rfl, by rw [if_neg hne]⟩
  have hsat := wp_sound (follows_of_benign hplan) hwp
  cases hrun : run (failedJournalIds J blockBytes path stop) plan ob w with
  | returned found ob' w' =>
    rw [hrun] at hsat
    obtain ⟨hfiles, rfl, hfound⟩ := hsat
    exact ⟨w', hfiles, by rw [← hfound]⟩
  | threw e ob' w' =>
    rw [hrun] at hsat
    obtain ⟨hfiles, rfl, he⟩ := hsat
    exact ⟨w', hfiles, by rw [← he]⟩
  | killed files => exact absurd hrun (run_ne_killed hplan files)

end Scan

variable (J) in
/-- What a scan of a file of valid records and an unfinished line answers: the records before a
line boundary, all of them behind the last line, and an exception inside a line. -/
structure ScansJournal (blockBytes : ℕ) (path : String) (lines : List (FailedLine J))
    (tail : Bytes) (w : World String) : Prop where
  boundary : ∀ k ≤ lines.length, Answers J blockBytes path
    (some (lineOffset newline (lines.map FailedLine.text) k)) w
    (.ok ((journalRecords lines).take k))
  whole : tail = [] → ∀ stop : Option ℕ, (∀ n ∈ stop, (failedText lines).length ≤ n) →
    Answers J blockBytes path stop w (.ok (journalRecords lines))
  insideLine : ∀ n < (failedText lines ++ tail).length,
    (∀ k ≤ lines.length, n ≠ lineOffset newline (lines.map FailedLine.text) k) →
    Answers J blockBytes path (some n) w (.error incompleteLine)
  unterminated : tail ≠ [] → ∀ stop : Option ℕ,
    (∀ n ∈ stop, (failedText lines ++ tail).length ≤ n) →
    Answers J blockBytes path stop w (.error incompleteLine)

theorem upTo_of_length_le {stop : Option ℕ} {data : Bytes} (h : ∀ n ∈ stop, data.length ≤ n) :
    upTo stop data = data := by
  cases stop with
  | none => rfl
  | some n => exact List.take_of_length_le (h n rfl)

theorem scansJournal {blockBytes : ℕ} {path : String} {lines : List (FailedLine J)} {tail : Bytes}
    {w : World String} (hblock : 0 < blockBytes)
    (hfile : w.files path = some (failedText lines ++ tail)) (htail : newline ∉ tail) :
    ScansJournal J blockBytes path lines tail w where
  boundary k _ := by
    have htext : upTo (some (lineOffset newline (lines.map FailedLine.text) k))
        (failedText lines ++ tail) = failedText (lines.take k) ++ [] := by
      have hsplit : failedText lines = failedText (lines.take k) ++ failedText (lines.drop k) := by
        rw [← failedText_append, List.take_append_drop]
      show (failedText lines ++ tail).take _ = _
      rw [lineOffset_texts, hsplit, List.append_assoc, List.take_left, List.append_nil]
    have h := answers_of_upTo _ hblock hfile htext List.not_mem_nil
    rwa [if_pos rfl, journalRecords_take] at h
  whole hnil stop hstop := by
    subst hnil
    have h := answers_of_upTo _ hblock hfile
      (upTo_of_length_le (by rwa [List.append_nil])) List.not_mem_nil
    rwa [if_pos rfl] at h
  insideLine n hn hbetween := by
    -- what is read is `k` whole lines and a part `t` of another, empty only at a boundary
    obtain ⟨k, t, htake, ht⟩ := take_failedText_append lines htail n
    have hlength := congrArg List.length htake
    rw [List.length_take, Nat.min_eq_left hn.le, List.length_append] at hlength
    have hne : t ≠ [] := by
      rintro rfl
      rcases Nat.le_total k lines.length with hk | hk
      · exact hbetween k hk (by rw [lineOffset_texts]; exact hlength)
      · refine hbetween lines.length le_rfl ?_
        rw [lineOffset_texts, List.take_length]
        rwa [List.take_of_length_le hk] at hlength
    have h := answers_of_upTo (some n) hblock hfile htake ht
    rwa [if_neg hne] at h
  unterminated hne stop hstop := by
    have h := answers_of_upTo _ hblock hfile (upTo_of_length_le hstop) htail
    rwa [if_neg hne] at h

/-- **The block-wise readers are their whole-file specifications**, whatever the size of a
block. -/
theorem block_readers (J : JsonText) (blockBytes : ℕ+) (path : String) :
    (∀ data, TruncatesTail blockBytes path data) ∧
    ∀ (lines : List (FailedLine J)) (tail : Bytes) (w : World String),
      w.files path = some (failedText lines ++ tail) → newline ∉ tail →
      ScansJournal J blockBytes path lines tail w :=
  ⟨truncatesTail blockBytes.pos path, fun _ _ _ => scansJournal blockBytes.pos⟩

end Outbox
