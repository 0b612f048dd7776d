/-
The guard that keeps plain HTTP requests from leaving a client: it holds the
first writes of a stream until their bytes decide.
-/
import Mathlib.Data.List.Induction
import Yume.Lib.Bytes
import Yume.Session.Limits

namespace Yume.Runtime

open Yume.Lib Yume.Session List

inductive Cleartext where
  | undecided
  | http
  | other
deriving DecidableEq

def cleartextHoldBytes : Nat := 8 * 1024

/-- `"PRI * HTTP/2.0\r\n"`. -/
def preface : Bytes := [80, 82, 73, 32, 42, 32, 72, 84, 84, 80, 47, 50, 46, 48, 13, 10]

/-- `"HTTP/1."`. -/
def httpVersion : Bytes := [72, 84, 84, 80, 47, 49, 46]

def maxMethodBytes : Nat := 20

def methodByte (byte : UInt8) : Bool := 65 ≤ byte && byte ≤ 90 || byte = 45 || byte = 95

def targetByte (byte : UInt8) : Bool := 0x20 < byte && byte ≠ 0x7f

/-- After the digit of the version. -/
def scanLineEnd : Bytes → Cleartext
  | [] => .undecided
  | byte :: rest =>
    if byte = 10 then .http
    else if byte ≠ 13 then .other
    else match rest with
      | [] => .undecided
      | next :: _ => if next = 10 then .http else .other

def scanDigit : Bytes → Cleartext
  | [] => .undecided
  | byte :: rest => if byte < 48 ∨ 57 < byte then .other else scanLineEnd rest

def scanVersion : Bytes → Bytes → Cleartext
  | [], text => scanDigit text
  | _ :: _, [] => .undecided
  | expected :: more, byte :: rest =>
    if byte ≠ expected then .other else scanVersion more rest

/-- The target from some byte on, with whether it is empty so far. -/
def scanTarget (empty : Bool) : Bytes → Cleartext
  | [] => .undecided
  | byte :: rest =>
    if targetByte byte then scanTarget false rest
    else if empty ∨ byte ≠ 32 then .other
    else scanVersion httpVersion rest

/-- The method from some byte on, with the number of its bytes so far. -/
def scanMethod (seen : Nat) : Bytes → Cleartext
  | [] => .undecided
  | byte :: rest =>
    if methodByte byte then
      if seen + 1 > maxMethodBytes then .other else scanMethod (seen + 1) rest
    else if seen = 0 ∨ byte ≠ 32 then .other
    else scanTarget true rest

/-- The verdict on a start of a stream before the bound on what is held. -/
def scanCleartext (text : Bytes) : Cleartext :=
  if preface <+: text then .http
  else if text <+: preface then .undecided
  else scanMethod 0 text

def classifyCleartext (text : Bytes) : Cleartext :=
  match scanCleartext text with
  | .undecided => if cleartextHoldBytes ≤ text.length then .http else .undecided
  | verdict => verdict

/-- A call of the wrapped stream; a write may carry the completion of the guard's
write with that number. -/
inductive InnerCall where
  | write (bytes : Bytes) (completes : Option Nat)
  | shutdownWrite
  | close (reason : StatusCode)

/-- The guard with the calls it has made, the oldest first, and the writes it has
completed itself. -/
structure Guard where
  maxWriteSize : Nat
  decided : Cleartext := .undecided
  held : Bytes := []
  inner : List InnerCall := []
  writes : Nat := 0
  completed : List (Nat × StatusCode × Nat) := []

/-- The held bytes in pieces the stream accepts; the last one completes the write. -/
def pieces (size : Nat) (done : Option Nat) : Nat → Bytes → List InnerCall
  | 0, _ => []
  | fuel + 1, held =>
    if held.length ≤ size then [.write held done]
    else .write (held.take size) none :: pieces size done fuel (held.drop size)

namespace Guard

def complete (g : Guard) (code : StatusCode) (size : Nat) : Guard :=
  { g with completed := g.completed ++ [(g.writes, code, size)], writes := g.writes + 1 }

def flush (g : Guard) (done : Option Nat) : Guard :=
  { g with
    held := []
    inner := g.inner ++ if g.held = [] then []
      else pieces (max 1 g.maxWriteSize) done g.held.length g.held }

def asyncWrite (g : Guard) (payload : Bytes) : Guard :=
  match g.decided with
  | .other => { g with
    inner := g.inner ++ [.write payload (some g.writes)], writes := g.writes + 1 }
  | .http => g.complete .permissionDenied 0
  | .undecided =>
    let held := g.held ++ payload
    let decided := classifyCleartext held
    match decided with
    | .undecided => { g with held, decided }.complete .ok payload.length
    | .http =>
      let inner := g.inner ++ [.close .permissionDenied]
      { g with held := [], decided, inner }.complete .permissionDenied 0
    | .other => { { g with held, decided }.flush (some g.writes) with writes := g.writes + 1 }

/-- `shutdown_write`; an unfinished line is not a request. -/
def shutdownWrite (g : Guard) : Guard :=
  let g := if g.decided = .undecided then { g with decided := .other }.flush none else g
  if g.decided = .http then g else { g with inner := g.inner ++ [.shutdownWrite] }

end Guard

inductive GuardCall where
  | write (payload : Bytes)
  | shutdownWrite

def Guard.call (g : Guard) : GuardCall → Guard
  | .write payload => g.asyncWrite payload
  | .shutdownWrite => g.shutdownWrite

section Verdicts

variable {text more : Bytes}

theorem scanLineEnd_append (h : scanLineEnd text ≠ .undecided) :
    scanLineEnd (text ++ more) = scanLineEnd text := by
  cases text with
  | nil => exact absurd rfl h
  | cons byte rest =>
    simp only [scanLineEnd, cons_append] at h ⊢
    cases rest <;> grind

theorem scanDigit_append (h : scanDigit text ≠ .undecided) :
    scanDigit (text ++ more) = scanDigit text := by
  cases text with
  | nil => exact absurd rfl h
  | cons byte rest => grind [scanDigit, scanLineEnd_append]

theorem scanVersion_append {expected : Bytes} (h : scanVersion expected text ≠ .undecided) :
    scanVersion expected (text ++ more) = scanVersion expected text := by
  induction expected generalizing text with
  | nil => exact scanDigit_append h
  | cons byte expected ih => cases text <;> grind [scanVersion]

theorem scanTarget_append {empty : Bool} (h : scanTarget empty text ≠ .undecided) :
    scanTarget empty (text ++ more) = scanTarget empty text := by
  induction text generalizing empty with
  | nil => exact absurd rfl h
  | cons byte rest ih => grind [scanTarget, scanVersion_append]

theorem scanMethod_append {seen : Nat} (h : scanMethod seen text ≠ .undecided) :
    scanMethod seen (text ++ more) = scanMethod seen text := by
  induction text generalizing seen with
  | nil => exact absurd rfl h
  | cons byte rest ih => grind [scanMethod, scanTarget_append]

/-- A decision is final. -/
theorem scanCleartext_append (h : scanCleartext text ≠ .undecided) :
    scanCleartext (text ++ more) = scanCleartext text := by
  unfold scanCleartext at h ⊢
  by_cases hfull : preface <+: text
  · rw [if_pos hfull, if_pos (hfull.trans (prefix_append text more))]
  rw [if_neg hfull] at h ⊢
  by_cases hpart : text <+: preface
  · exact absurd (if_pos hpart) h
  have hapart : ¬ preface <+: text ++ more := fun hmore =>
    (List.prefix_or_prefix_of_prefix hmore (prefix_append text more)).elim hfull hpart
  rw [if_neg hpart] at h ⊢
  rw [if_neg hapart, if_neg (mt (prefix_append text more).trans hpart)]
  exact scanMethod_append h

/-- The streams that begin with the preface or a request line. -/
inductive HttpStart : Bytes → Prop where
  | http2 (rest : Bytes) : HttpStart (preface ++ rest)
  | line {method target ending : Bytes} {digit : UInt8} (rest : Bytes) :
    (1 ≤ method.length ∧ method.length ≤ maxMethodBytes) →
    (∀ byte ∈ method, methodByte byte = true) → target ≠ [] →
    (∀ byte ∈ target, targetByte byte = true) → (48 ≤ digit ∧ digit ≤ 57) →
    (ending = [10] ∨ ending = [13, 10]) →
    HttpStart (method ++ 32 :: (target ++ 32 :: (httpVersion ++ digit :: (ending ++ rest))))

theorem scanTarget_bytes {empty : Bool} {target : Bytes}
    (h : ∀ byte ∈ target, targetByte byte = true) (hne : empty = false ∨ target ≠ []) :
    scanTarget empty (target ++ 32 :: text) = scanVersion httpVersion text := by
  induction target generalizing empty with
  | nil => grind [scanTarget, targetByte]
  | cons byte rest ih => grind [scanTarget]

theorem scanMethod_bytes {seen : Nat} {method : Bytes}
    (h : ∀ byte ∈ method, methodByte byte = true) (hpos : 0 < seen + method.length)
    (hmax : seen + method.length ≤ maxMethodBytes) :
    scanMethod seen (method ++ 32 :: text) = scanTarget true text := by
  induction method generalizing seen with
  | nil => grind [scanMethod, methodByte]
  | cons byte rest ih => grind [scanMethod]

theorem scanVersion_line {digit : UInt8} {ending rest : Bytes} (hdigit : 48 ≤ digit ∧ digit ≤ 57)
    (hending : ending = [10] ∨ ending = [13, 10]) :
    scanVersion httpVersion (httpVersion ++ digit :: (ending ++ rest)) = .http := by
  have hin : ¬ (digit < 48 ∨ 57 < digit) := by
    simpa only [not_or, UInt8.not_lt] using hdigit
  rcases hending with rfl | rfl <;> simp [httpVersion, scanVersion, scanDigit, hin, scanLineEnd]

theorem HttpStart.scan (h : HttpStart text) : scanCleartext text = .http := by
  cases h with
  | http2 rest => exact if_pos (prefix_append _ _)
  | @line method target ending digit rest hlength hmethod hne htarget hdigit hending =>
    unfold scanCleartext
    split_ifs with hfull hpart
    · rfl
    · -- A proper part of the preface has no line end.
      have hnone : ∀ n < preface.length, (10 : UInt8) ∉ preface.take n := by decide
      have hlt := Nat.lt_of_le_of_ne hpart.length_le fun heq =>
        hfull (hpart.eq_of_length heq ▸ prefix_refl _)
      refine absurd ?_ (hnone _ hlt)
      rw [← prefix_iff_eq_take.mp hpart]
      rcases hending with rfl | rfl <;> simp
    · rw [scanMethod_bytes hmethod (by omega) (by omega), scanTarget_bytes htarget (.inr hne),
        scanVersion_line hdigit hending]

theorem classifyCleartext_eq (hlength : text.length < cleartextHoldBytes) :
    classifyCleartext text = scanCleartext text := by
  unfold classifyCleartext
  cases scanCleartext text <;> simp; omega

theorem classifyCleartext_of_decided (h : scanCleartext text ≠ .undecided) :
    classifyCleartext (text ++ more) = scanCleartext text := by
  unfold classifyCleartext
  rw [scanCleartext_append h]
  cases hscan : scanCleartext text <;> simp_all

/-- The verdict after the writes of a stream. -/
def verdict (size : Nat) (writes : List Bytes) : Cleartext :=
  (writes.foldl Guard.asyncWrite { maxWriteSize := size }).decided

/-- The verdict is the classifier's on some start of the stream, and on all of it as
long as nothing is decided. -/
theorem verdict_eq (size : Nat) (writes : List Bytes) : ∃ start rest : Bytes,
    writes.flatten = start ++ rest ∧ verdict size writes = classifyCleartext start ∧
      (verdict size writes = .undecided → rest = [] ∧
        (writes.foldl Guard.asyncWrite { maxWriteSize := size }).held = start) := by
  induction writes using List.reverseRecOn with
  | nil => exact ⟨[], [], rfl, rfl, fun _ => ⟨rfl, rfl⟩⟩
  | append_singleton writes payload ih =>
    obtain ⟨start, rest, hflat, hverdict, hheld⟩ := ih
    simp only [verdict, foldl_append, foldl_cons, foldl_nil,
      flatten_append, flatten_singleton] at hverdict hheld ⊢
    generalize writes.foldl Guard.asyncWrite { maxWriteSize := size } = g at *
    cases hdecided : g.decided with
    | undecided =>
      obtain ⟨rfl, rfl⟩ := hheld hdecided
      refine ⟨g.held ++ payload, [], by simp [hflat], ?_⟩
      simp only [Guard.asyncWrite, hdecided]
      cases hclass : classifyCleartext (g.held ++ payload) <;>
        simp [Guard.complete, Guard.flush]
    | http | other =>
      refine ⟨start, rest ++ payload, by simp [hflat], ?_⟩
      rw [← hverdict]
      simp [Guard.asyncWrite, hdecided, Guard.complete]

/-- Unless the stream stops being HTTP only past the bound on what is held, the
verdict is the classifier's on all of it. -/
theorem verdict_eq_classify (size : Nat) {writes : List Bytes}
    (h : scanCleartext writes.flatten ≠ .other ∨
      scanCleartext (writes.flatten.take cleartextHoldBytes) = .other) :
    verdict size writes = classifyCleartext writes.flatten := by
  obtain ⟨start, rest, hflat, hverdict, hrest⟩ := verdict_eq size writes
  rw [hflat] at h ⊢
  by_cases hstart : scanCleartext start = .undecided
  · by_cases hshort : start.length < cleartextHoldBytes
    · rw [(hrest (by rw [hverdict, classifyCleartext_eq hshort, hstart])).1, append_nil, hverdict]
    have hle : cleartextHoldBytes ≤ start.length := Nat.not_lt.mp hshort
    have hlive : scanCleartext (start ++ rest) ≠ .other := by
      refine h.elim id fun htake => absurd hstart ?_
      rw [take_append_of_le_length hle] at htake
      rw [← take_append_drop cleartextHoldBytes start, scanCleartext_append (by simp [htake]), htake]
      decide
    have hlong : cleartextHoldBytes ≤ (start ++ rest).length := by simp; omega
    rw [hverdict]
    cases hscan : scanCleartext (start ++ rest) <;>
      simp_all [classifyCleartext]
  · rw [hverdict, classifyCleartext_of_decided hstart, ← append_nil start,
      classifyCleartext_of_decided hstart, append_nil]

theorem HttpStart.verdict_http (size : Nat) {writes : List Bytes} (h : HttpStart writes.flatten) :
    verdict size writes = .http := by
  rw [verdict_eq_classify size (.inl (by simp [h.scan])), classifyCleartext, h.scan]

/-- A stream that stops being HTTP only past the bound is HTTP when it is written up
to the bound first, and not when it is written at once. -/
theorem verdict_late (size : Nat) {stream : Bytes} (hother : scanCleartext stream = .other)
    (htake : scanCleartext (stream.take cleartextHoldBytes) ≠ .other) :
    verdict size [stream.take cleartextHoldBytes, stream.drop cleartextHoldBytes] = .http ∧
      verdict size [stream] = .other := by
  have hopen : scanCleartext (stream.take cleartextHoldBytes) = .undecided := by
    by_contra hdecided
    rw [← take_append_drop cleartextHoldBytes stream, scanCleartext_append hdecided] at hother
    exact htake hother
  have hlong : cleartextHoldBytes ≤ stream.length := by
    by_contra hshort
    rw [take_of_length_le (by omega)] at htake
    exact htake hother
  have hheld : classifyCleartext (stream.take cleartextHoldBytes) = .http := by
    simp [classifyCleartext, hopen, hlong]
  have hall : classifyCleartext stream = .other := by simp [classifyCleartext, hother]
  constructor
  · simp [verdict, Guard.asyncWrite, hheld, Guard.complete]
  · simp [verdict, Guard.asyncWrite, Guard.flush, hall]

end Verdicts

section Forwarding

/-- The bytes of the calls in order, with a mark for each shutdown. -/
@[simp, grind] def GuardCall.marks : GuardCall → List (Option UInt8)
  | .write payload => payload.map some
  | .shutdownWrite => [none]

@[simp, grind] def GuardCall.isWrite : GuardCall → Bool
  | .write _ => true
  | .shutdownWrite => false

@[simp, grind] def InnerCall.marks : InnerCall → List (Option UInt8)
  | .write bytes _ => bytes.map some
  | .shutdownWrite => [none]
  | .close _ => []

@[simp, grind] def InnerCall.done : InnerCall → Option Nat
  | .write _ done => done
  | _ => none

theorem pieces_spec {size : Nat} (hsize : 0 < size) (done : Option Nat) {fuel : Nat} {held : Bytes}
    (hheld : held ≠ []) (hfuel : held.length ≤ fuel) :
    (pieces size done fuel held).flatMap InnerCall.marks = held.map some ∧
      (pieces size done fuel held).filterMap InnerCall.done = done.toList := by
  induction fuel generalizing held with
  | zero => exact absurd (length_eq_zero_iff.mp (Nat.le_zero.mp hfuel)) hheld
  | succ fuel ih =>
    rw [pieces]
    split
    · cases done <;> simp [InnerCall.marks, InnerCall.done]
    obtain ⟨hmarks, hdone⟩ := @ih (held.drop size) (by simp; omega) (by simp; omega)
    rw [flatMap_cons, hmarks, InnerCall.marks, ← map_append, take_append_drop]
    exact ⟨rfl, hdone⟩

/-- What a guard has passed on and completed after the calls made to it. -/
structure Guard.Sound (g : Guard) (calls : List GuardCall) : Prop where
  undecided : g.decided = .undecided →
    g.inner = [] ∧ calls.flatMap GuardCall.marks = g.held.map some
  http : g.decided = .http → g.inner.flatMap InnerCall.marks = []
  other : g.decided = .other → g.inner.flatMap InnerCall.marks = calls.flatMap GuardCall.marks
  writes : g.writes = calls.countP GuardCall.isWrite
  completed : ∀ n, (g.completed.map Prod.fst).count n +
    (g.inner.filterMap InnerCall.done).count n = if n < g.writes then 1 else 0

@[simp] theorem Guard.flush_keeps (g : Guard) (done : Option Nat) :
    (g.flush done).decided = g.decided ∧ (g.flush done).completed = g.completed ∧
      (g.flush done).writes = g.writes := ⟨rfl, rfl, rfl⟩

/-- A flush forwards the held bytes, and the last piece carries the completion. -/
theorem Guard.flush_inner (g : Guard) (done : Option Nat) (hheld : g.held ≠ [] ∨ done = none) :
    ((g.flush done).inner.flatMap InnerCall.marks =
      g.inner.flatMap InnerCall.marks ++ g.held.map some) ∧
    (g.flush done).inner.filterMap InnerCall.done =
      g.inner.filterMap InnerCall.done ++ done.toList := by
  by_cases hempty : g.held = []
  · simp [flush, hempty, hheld.resolve_left (not_not.mpr hempty)]
  have hsize : 0 < max 1 g.maxWriteSize := by omega
  obtain ⟨hmarks, hdone⟩ := pieces_spec hsize done hempty (Nat.le_refl _)
  simp [flush, hempty, hmarks, hdone]

theorem Guard.Sound.call {g : Guard} {calls : List GuardCall} (h : g.Sound calls)
    (next : GuardCall) : (g.call next).Sound (calls ++ [next]) := by
  obtain ⟨h1, h2, h3, h4, h5⟩ := h
  cases next with
  | write payload =>
    cases hd : g.decided with
    | http | other =>
      constructor <;> simp_all [Guard.call, asyncWrite, complete, count_singleton]
      grind
    | undecided =>
      obtain ⟨hinner, hmarks⟩ := h1 hd
      cases hclass : classifyCleartext (g.held ++ payload) with
      | undecided | http =>
        constructor <;> simp_all [Guard.call, asyncWrite, complete, count_singleton]
        grind
      | other =>
        have hne : g.held ++ payload ≠ [] := fun hnil => by
          rw [hnil] at hclass
          cases hclass
        obtain ⟨hforward, hdone⟩ := ({ g with
          held := g.held ++ payload, decided := .other } : Guard).flush_inner
          (some g.writes) (.inl hne)
        constructor <;> simp_all [Guard.call, asyncWrite, count_singleton]
        grind
  | shutdownWrite =>
    cases hd : g.decided with
    | http | other => constructor <;> simp_all [Guard.call, shutdownWrite, filterMap_cons]
    | undecided =>
      obtain ⟨hinner, hmarks⟩ := h1 hd
      obtain ⟨hforward, hdone⟩ := ({ g with decided := .other } : Guard).flush_inner none (.inr rfl)
      constructor <;>
        simp_all [Guard.call, shutdownWrite, filterMap_cons, -filterMap_eq_nil_iff]

end Forwarding

/-- The verdict depends on the stream only, exactly for the streams that do not stop
being HTTP only past the bound on what is held.  In all runs nothing is forwarded
before the verdict or after HTTP, otherwise every byte once and in order, every write
completes once, and HTTP is recognised. -/
theorem guard_decides_by_stream (size : Nat) :
    (∀ stream : Bytes,
      (∀ writes others : List Bytes, writes.flatten = stream → others.flatten = stream →
        verdict size writes = verdict size others) ↔
      (scanCleartext stream ≠ .other ∨
        scanCleartext (stream.take cleartextHoldBytes) = .other)) ∧
    (∀ calls : List GuardCall, (calls.foldl Guard.call { maxWriteSize := size }).Sound calls) ∧
    ∀ writes : List Bytes, HttpStart writes.flatten → verdict size writes = .http := by
  refine ⟨fun stream => ⟨fun hsame => ?_, ?_⟩, fun calls => ?_, fun writes h => h.verdict_http size⟩
  · by_contra hlate
    obtain ⟨hother, htake⟩ := not_or.mp hlate
    obtain ⟨hfirst, hwhole⟩ := verdict_late size (not_not.mp hother) htake
    rw [hsame _ [stream] (by simp) (by simp), hwhole] at hfirst
    cases hfirst
  · rintro hearly writes others rfl hsame
    rw [verdict_eq_classify size hearly, verdict_eq_classify size (hsame ▸ hearly), hsame]
  induction calls using List.reverseRecOn with
  | nil => exact ⟨fun _ => ⟨rfl, rfl⟩, nofun, nofun, rfl, fun _ => rfl⟩
  | append_singleton calls next ih =>
    rw [foldl_append]
    exact ih.call next

/-- `"GET / HTTP/1.1\r\n"`. -/
def request : Bytes := [71, 69, 84, 32, 47, 32, 72, 84, 84, 80, 47, 49, 46, 49, 13, 10]

/-- Every division of a request gets one verdict, which is HTTP; a stream that is no
request is forwarded as it was written. -/
theorem guard_decides_by_stream_request :
    (∀ writes : List Bytes, writes.flatten = request → verdict 65536 writes = .http) ∧
      ([.write [71, 69], .write [84, 10], .shutdownWrite].foldl Guard.call
        { maxWriteSize := 65536 }).inner.flatMap InnerCall.marks =
          [some 71, some 69, some 84, some 10, none] := by
  refine ⟨fun writes hflat => ?_, ?_⟩
  · have hsame := ((guard_decides_by_stream 65536).1 request).mpr (.inl (by decide))
    rw [hsame writes [request] hflat (by simp)]
    decide
  · exact ((guard_decides_by_stream 65536).2.1 _).other (by decide)

/-- A target that goes on past the bound is taken for HTTP when it is written up to
the bound first, and not when it is written at once. -/
theorem long_write_changes_verdict : ∃ writes others : List Bytes,
    writes.flatten = others.flatten ∧ verdict 65536 writes = .http ∧
      verdict 65536 others = .other := by
  have hflat : ∀ first second : Bytes, [first, second].flatten = [first ++ second].flatten := by
    simp
  refine ⟨_, _, hflat ([71, 69, 84, 32] ++ List.replicate 8188 97) [10], ?_, ?_⟩
  · decide +kernel
  · decide +kernel

end Yume.Runtime
