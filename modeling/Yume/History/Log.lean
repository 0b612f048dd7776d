/-
A relay history log: a file of lines to which records are appended, torn by
failed writes and crashes, and recovered by the next append.

A newline commits a record.  The file after any run is a list of committed lines
and a tail without a newline, and both recovery and the scan read them off it.
-/
import Yume.Lib.Bytes
import Yume.Lib.Runs
import Mathlib.Data.List.Infix

namespace Yume.History

open List

variable {tail : Bytes} {lines : List Bytes}

open Yume.Lib

/-- `kMaxHistoryFileBytes`. -/
def maxHistoryFileBytes : Nat := 64 * 1024 * 1024

/-- `kMaxHistoryRecordBytes`. -/
def maxHistoryRecordBytes : Nat := 1024 * 1024

def newline : UInt8 := 10

/-! ### Recovery -/

/-- The backward loop of `recover_history_tail`: how many bytes follow the last
newline.  The source reads blocks of 4096 bytes; it throws when the tail exceeds
a record. -/
def scanTail : Bytes → Nat → Option Nat
  | [], scanned => some scanned
  | byte :: rest, scanned =>
    if byte = newline then some scanned
    else if maxHistoryRecordBytes < scanned + 1 then none
    else scanTail rest (scanned + 1)

/-- `recover_history_tail`: the file without its unterminated tail. -/
def recoverHistoryTail (file : Bytes) : Option Bytes :=
  (scanTail file.reverse 0).map fun tail => file.take (file.length - tail)

/-! ### Appends -/

/-- What comes of an append that its checks let through. -/
inductive Fate where
  /-- It stops before the tail is cut off. -/
  | unrecovered
  /-- It writes some bytes and then fails or crashes.  A failed append may have
  cut the file back to where it started. -/
  | torn (written : Nat) (restored : Bool)
  | returned
deriving DecidableEq, Repr

/-- A log, with the place and the line of every append that returned. -/
structure Log where
  file : Bytes
  returned : List (Nat × Bytes)
  /-- Recovery threw. -/
  threw : Bool
deriving DecidableEq, Repr

namespace Log

def empty : Log := ⟨[], [], false⟩

structure Append where
  line : Bytes
  fate : Fate
deriving DecidableEq, Repr

/-- `append_private_line_at`. -/
def append (log : Log) (call : Append) : Log :=
  if maxHistoryRecordBytes < call.line.length + 1 then log
  else if maxHistoryFileBytes < log.file.length + call.line.length + 1 then log
  else
    match recoverHistoryTail log.file with
    | none => { log with threw := true }
    | some base =>
      match call.fate with
      | .unrecovered => log
      | .torn written restored =>
        { log with
          file := if restored then base
            else base ++ (call.line ++ [newline]).take written }
      | .returned =>
        { log with
          file := base ++ (call.line ++ [newline])
          returned := log.returned ++ [(base.length, call.line)] }

def step (log : Log) (call : Append) : Option Log := some (log.append call)

end Log

/-! ### Scans -/

/-- The scan of `list_chat` over one file: its lines with where they start, and
whether it ends in an unterminated line.  An empty line or one longer than a
record is an error. -/
def scanFrom : Bytes → Nat → Bytes → Option (List (Nat × Bytes) × Bool)
  | [], _, line =>
    if line = [] then some ([], false)
    else if maxHistoryRecordBytes < line.length then none
    else some ([], true)
  | byte :: rest, start, line =>
    if byte = newline then
      if line = [] ∨ maxHistoryRecordBytes < line.length then none
      else
        (scanFrom rest (start + line.length + 1) []).map fun scanned =>
          ((start, line) :: scanned.1, scanned.2)
    else scanFrom rest start (line ++ [byte])

def scan (file : Bytes) : Option (List (Nat × Bytes) × Bool) := scanFrom file 0 []

/-! ### Lines and a tail -/

/-- The bytes of committed lines. -/
def records (lines : List Bytes) : Bytes := lines.flatMap (· ++ [newline])

/-- Where each line starts. -/
def places : Nat → List Bytes → List (Nat × Bytes)
  | _, [] => []
  | start, line :: rest => (start, line) :: places (start + line.length + 1) rest

/-- A line that a scan accepts. -/
structure Fit (line : Bytes) : Prop where
  nonempty : line ≠ []
  plain : newline ∉ line
  short : line.length + 1 ≤ maxHistoryRecordBytes

theorem scanTail_append (rest : Bytes) {scanned : Nat} (hplain : newline ∉ tail)
    (hshort : scanned + tail.length ≤ maxHistoryRecordBytes) :
    scanTail (tail ++ rest) scanned = scanTail rest (scanned + tail.length) := by
  induction tail generalizing scanned with
  | nil => rfl
  | cons byte tail ih =>
    obtain ⟨hbyte, htail⟩ := not_or.mp (mem_cons.not.mp hplain)
    simp only [length_cons] at hshort
    rw [cons_append, scanTail, if_neg (Ne.symm hbyte), if_neg (by omega),
      ih htail (by omega), length_cons]
    congr 1
    omega

theorem records_append (lines more : List Bytes) :
    records (lines ++ more) = records lines ++ records more := by
  simp [records]

theorem records_reverse (lines : List Bytes) :
    (records lines).reverse = [] ∨ ∃ rest, (records lines).reverse = newline :: rest := by
  rcases eq_nil_or_concat lines with rfl | ⟨before, last, rfl⟩
  · exact .inl rfl
  · exact .inr ⟨_, by simp [records]; rfl⟩

/-- Recovery removes the tail and nothing else. -/
theorem recoverHistoryTail_eq (lines : List Bytes) (hplain : newline ∉ tail)
    (hshort : tail.length ≤ maxHistoryRecordBytes) :
    recoverHistoryTail (records lines ++ tail) = some (records lines) := by
  have hscan : scanTail (records lines ++ tail).reverse 0 = some tail.length := by
    rw [reverse_append, scanTail_append _ (by simpa using hplain) (by simpa using hshort)]
    rcases records_reverse lines with hnil | ⟨rest, hrest⟩
    · simp [hnil, scanTail]
    · simp [hrest, scanTail]
  unfold recoverHistoryTail
  rw [hscan]
  simp

theorem scanFrom_line {line : Bytes} (rest : Bytes) (start : Nat) (read : Bytes)
    (hplain : newline ∉ line) :
    scanFrom (line ++ rest) start read = scanFrom rest start (read ++ line) := by
  induction line generalizing read with
  | nil => simp
  | cons byte line ih =>
    obtain ⟨hbyte, hline⟩ := not_or.mp (mem_cons.not.mp hplain)
    rw [cons_append, scanFrom, if_neg (Ne.symm hbyte), ih _ hline, append_assoc, singleton_append]

/-- A scan reads every committed line once, and says whether there is a tail. -/
theorem scanFrom_eq (start : Nat) (hfit : ∀ line ∈ lines, Fit line) (hplain : newline ∉ tail)
    (hshort : tail.length ≤ maxHistoryRecordBytes) :
    scanFrom (records lines ++ tail) start [] = some (places start lines, decide (tail ≠ [])) := by
  induction lines generalizing start with
  | nil =>
    have hread : scanFrom (tail ++ []) start [] = scanFrom [] start ([] ++ tail) :=
      scanFrom_line [] start [] hplain
    rw [append_nil, nil_append] at hread
    rw [records, List.flatMap_nil, nil_append, hread, scanFrom]
    by_cases hnil : tail = []
    · simp [hnil, places]
    rw [if_neg hnil, if_neg (by omega)]
    simp [hnil, places]
  | cons line rest ih =>
    have hline := hfit line mem_cons_self
    have hsize := hline.short
    have hsplit : records (line :: rest) ++ tail = line ++ (newline :: (records rest ++ tail)) := by
      simp [records]
    rw [hsplit, scanFrom_line _ _ _ hline.plain, nil_append, scanFrom, if_pos rfl, if_neg (by
        rintro (hnil | hlong)
        · exact hline.nonempty hnil
        · omega),
      ih (start + line.length + 1) fun other hother => hfit other (mem_cons_of_mem _ hother)]
    rfl

theorem places_append (start : Nat) (lines : List Bytes) (line : Bytes) :
    places start (lines ++ [line]) =
      places start lines ++ [(start + (records lines).length, line)] := by
  induction lines generalizing start with
  | nil => simp [places, records]
  | cons head rest ih =>
    simp only [cons_append, places, ih, records, flatMap_cons, length_append, length_singleton]
    congr 4
    omega

/-- Where a line is, its bytes are. -/
theorem places_spec {start : Nat} {place : Nat × Bytes} (h : place ∈ places start lines) :
    start ≤ place.1 ∧ (place.2 ++ [newline]) <+: (records lines).drop (place.1 - start) := by
  induction lines generalizing start with
  | nil => cases h
  | cons line rest ih =>
    rcases mem_cons.mp h with rfl | hrest
    · refine ⟨le_rfl, ?_⟩
      rw [Nat.sub_self, drop_zero, records, flatMap_cons]
      exact prefix_append _ _
    obtain ⟨hle, hleading⟩ := ih hrest
    refine ⟨by omega, ?_⟩
    have hdrop : place.1 - start = (line ++ [newline]).length +
        (place.1 - (start + line.length + 1)) := by
      simp only [length_append, length_singleton]
      omega
    rw [hdrop, records, flatMap_cons, drop_append, Nat.add_sub_cancel_left,
      drop_eq_nil_of_le (by omega), nil_append]
    exact hleading

/-- Lines start one after the other. -/
theorem places_ordered (start : Nat) (lines : List Bytes) :
    (places start lines).Pairwise fun earlier later => earlier.1 < later.1 := by
  induction lines generalizing start with
  | nil => exact .nil
  | cons line rest ih =>
    refine pairwise_cons.mpr ⟨fun later hlater => ?_, ih _⟩
    have := (places_spec hlater).1
    simp only
    omega

/-! ### Runs -/

/-- What every run keeps: the file is committed lines and a tail, and the appends
that returned are among the lines, at their places. -/
structure Sound (log : Log) (lines : List Bytes) (tail : Bytes) : Prop where
  file_eq : log.file = records lines ++ tail
  fit : ∀ line ∈ lines, Fit line
  plain : newline ∉ tail
  short : tail.length < maxHistoryRecordBytes
  returned : log.returned.Sublist (places 0 lines)
  quiet : log.threw = false

theorem Sound.recovers {log : Log} (h : Sound log lines tail) :
    recoverHistoryTail log.file = some (records lines) := by
  rw [h.file_eq]
  exact recoverHistoryTail_eq lines h.plain (le_of_lt h.short)

/-- A prefix of a record is the record or a tail. -/
theorem take_record (line : Bytes) (written : Nat) :
    (line ++ [newline]).take written = line ++ [newline] ∨
      (line ++ [newline]).take written = line.take written := by
  by_cases h : written ≤ line.length
  · exact .inr (take_append_of_le_length h)
  refine .inl (take_of_length_le ?_)
  simp only [length_append, length_singleton]
  omega

theorem Sound.commit {log after : Log} {tail line : Bytes}
    (h : Sound log lines tail) (hline : Fit line)
    (hfile : after.file = records lines ++ (line ++ [newline]))
    (hreturned : after.returned.Sublist (log.returned ++ [((records lines).length, line)]))
    (hquiet : after.threw = false) : Sound after (lines ++ [line]) [] where
  file_eq := by
    rw [hfile, records_append, append_nil]
    simp [records]
  fit := forall_mem_append.mpr ⟨h.fit, forall_mem_singleton.mpr hline⟩
  plain := not_mem_nil
  short := by decide
  returned := by
    rw [places_append, Nat.zero_add]
    exact hreturned.trans (h.returned.append (.refl _))
  quiet := hquiet

theorem Sound.append {log : Log} (h : Sound log lines tail)
    {call : Log.Append} (hnonempty : call.line ≠ []) (hplain : newline ∉ call.line) :
    ∃ lines tail, Sound (log.append call) lines tail := by
  unfold Log.append
  split
  · exact ⟨lines, tail, h⟩
  rename_i hsize
  have hline : Fit call.line := ⟨hnonempty, hplain, by omega⟩
  split
  · exact ⟨lines, tail, h⟩
  rw [h.recovers]
  dsimp only
  split
  · exact ⟨lines, tail, h⟩
  · rename_i written restored _
    cases restored with
    | true =>
      exact ⟨lines, [], ⟨(append_nil _).symm, h.fit, not_mem_nil, by decide, h.returned, h.quiet⟩⟩
    | false =>
      rcases take_record call.line written with hall | hsome
      · exact ⟨lines ++ [call.line], [], h.commit hline
          (by simp only [hall, Bool.false_eq_true, if_false])
          (sublist_append_left _ _) h.quiet⟩
      refine ⟨lines, call.line.take written, ⟨?_, h.fit, ?_, ?_, h.returned, h.quiet⟩⟩
      · simp only [hsome, Bool.false_eq_true, if_false]
      · exact fun hmem => hplain (mem_of_mem_take hmem)
      rw [length_take]
      omega
  · exact ⟨lines ++ [call.line], [], h.commit hline rfl (.refl _) h.quiet⟩

namespace Log

/-- The logs that appends of lines reach from an empty file. -/
abbrev Reached (ok : Bytes → Prop) : Log → Prop :=
  Reaches step (fun _ call => newline ∉ call.line ∧ ok call.line) empty

theorem exists_sound {log : Log} (h : Reached (· ≠ []) log) :
    ∃ lines tail, Sound log lines tail := by
  refine Reaches.invariant (P := fun log => ∃ lines tail, Sound log lines tail)
    ⟨[], [], rfl, by simp, not_mem_nil, by decide, nil_sublist _, rfl⟩ ?_ h
  rintro before call after - ⟨lines, tail, hsound⟩ ⟨hplain, hnonempty⟩ hstep
  cases hstep
  exact hsound.append hnonempty hplain

/-- What a history log keeps over appends of nonempty lines, failures and crashes:
recovery never throws and removes only the tail, every append that returned is
where it was written, and a scan reads it once. -/
theorem survives_torn_writes (log : Log) (h : Reached (· ≠ []) log) :
    log.threw = false ∧
    ∃ kept removed lines, log.file = kept ++ removed ∧
      recoverHistoryTail log.file = some kept ∧
      scan log.file = some (lines, decide (removed ≠ [])) ∧
      scan kept = some (lines, false) ∧
      log.returned.Sublist lines ∧
      (lines.Pairwise fun earlier later => earlier.1 < later.1) ∧
      ∀ place ∈ lines, (place.2 ++ [newline]) <+: kept.drop place.1 := by
  obtain ⟨lines, tail, hsound⟩ := exists_sound h
  refine ⟨hsound.quiet, records lines, tail, places 0 lines, hsound.file_eq, hsound.recovers,
    ?_, ?_, hsound.returned, places_ordered 0 lines, fun place hplace => ?_⟩
  · rw [hsound.file_eq]
    exact scanFrom_eq 0 hsound.fit hsound.plain (le_of_lt hsound.short)
  · have hscan : scanFrom (records lines ++ []) 0 [] = some (places 0 lines, false) :=
      scanFrom_eq 0 hsound.fit not_mem_nil (Nat.zero_le _)
    rw [append_nil] at hscan
    exact hscan
  · exact (places_spec hplace).2

/-- A line, a torn one and a line after it. -/
def sampleRun : List Append :=
  [⟨[97, 98], .returned⟩, ⟨[99], .torn 1 false⟩, ⟨[100], .returned⟩]

/-- The torn line is gone and the two others are read. -/
theorem survives_torn_writes_sample :
    ∃ log, Reached (· ≠ []) log ∧ log.returned = [(0, [97, 98]), (3, [100])] ∧
      log.threw = false ∧
      ∃ kept removed lines, log.file = kept ++ removed ∧
        recoverHistoryTail log.file = some kept ∧
        scan log.file = some (lines, decide (removed ≠ [])) ∧
        scan kept = some (lines, false) ∧
        log.returned.Sublist lines ∧
        (lines.Pairwise fun earlier later => earlier.1 < later.1) ∧
        ∀ place ∈ lines, (place.2 ++ [newline]) <+: kept.drop place.1 := by
  have hrun : (runChecked step (fun _ call => decide (newline ∉ call.line ∧ call.line ≠ []))
      empty sampleRun).any
      (fun log => decide (log.returned = [(0, [97, 98]), (3, [100])])) = true := by decide
  obtain ⟨log, hreached, htest⟩ :=
    Reaches.exists_of_runChecked (fun _ _ hcheck => of_decide_eq_true hcheck) _ _ hrun
  exact ⟨log, hreached, of_decide_eq_true htest, survives_torn_writes log hreached⟩

/-- An empty line is appended, and no later scan reads the log. -/
theorem empty_line_unreadable :
    ∃ log, Reached (fun _ => True) log ∧ (0, []) ∈ log.returned ∧ scan log.file = none := by
  have hrun : (runChecked step (fun _ call => decide (newline ∉ call.line)) empty
      [⟨[], .returned⟩]).any
      (fun log => decide ((0, []) ∈ log.returned ∧ scan log.file = none)) = true := by decide
  have hok : ∀ (before : Log) (call : Append), decide (newline ∉ call.line) = true →
      newline ∉ call.line ∧ True := fun _ _ hcheck => ⟨of_decide_eq_true hcheck, trivial⟩
  obtain ⟨log, hreached, htest⟩ := Reaches.exists_of_runChecked hok _ _ hrun
  exact ⟨log, hreached, of_decide_eq_true htest⟩

end Log

end Yume.History
