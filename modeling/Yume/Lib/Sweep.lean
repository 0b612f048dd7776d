/-
A sweep over labelled ranges of numbers, which may overlap in any way, into
disjoint segments that each carry a value of the labels that cover them.

The labels of the ranges that are open at a position are kept in a summary, to
which labels are added and from which they are removed.  What the sweep needs of
it is `Summary.Correct`.
-/
import Mathlib.Data.List.Sort

namespace Yume.Lib.Sweep

open List

/-- The numbers from `first` to `last`, with a label. -/
structure Range (β : Type*) where
  first : Nat
  last : Nat
  label : β
deriving DecidableEq, Repr

structure Segment (γ : Type*) where
  first : Nat
  last : Nat
  value : γ
deriving DecidableEq, Repr

/-- An open range: where it ends, and its label. -/
structure Active (β : Type*) where
  last : Nat
  label : β
deriving DecidableEq, Repr

/-- A multiset of labels as the sweep keeps it. -/
structure Summary (β γ σ : Type*) where
  empty : σ
  add : σ → β → σ
  remove : σ → β → σ
  value : σ → γ

variable {β γ σ : Type*} {segments : List (Segment γ)} {best : List β → γ} {ranges : List (Range β)}

def Range.Contains (range : Range β) (x : Nat) : Prop := range.first ≤ x ∧ x ≤ range.last

instance (range : Range β) (x : Nat) : Decidable (range.Contains x) :=
  inferInstanceAs (Decidable (_ ∧ _))

def Segment.Contains (segment : Segment γ) (x : Nat) : Prop :=
  segment.first ≤ x ∧ x ≤ segment.last

instance (segment : Segment γ) (x : Nat) : Decidable (segment.Contains x) :=
  inferInstanceAs (Decidable (_ ∧ _))

/-- The labels of the ranges that contain a number. -/
def covering (ranges : List (Range β)) (x : Nat) : List β :=
  (ranges.filter fun range => decide (range.Contains x)).map Range.label

/-- A summary stands for a list of labels, up to their order. -/
structure Summary.Correct (S : Summary β γ σ) (Stands : σ → List β → Prop)
    (best : List β → γ) : Prop where
  empty : Stands S.empty []
  add : ∀ {s labels} (label : β), Stands s labels → Stands (S.add s label) (label :: labels)
  remove : ∀ {s labels} {label : β}, Stands s (label :: labels) → Stands (S.remove s label) labels
  perm : ∀ {s labels others}, labels.Perm others → Stands s labels → Stands s others
  value : ∀ {s labels}, Stands s labels → labels ≠ [] → S.value s = best labels

section

variable (S : Summary β γ σ)

/-- The sweep between two segments.  Open ranges are in the order they end, and
segments in the reverse of the order they were made. -/
structure State (β γ σ : Type*) where
  position : Nat
  pending : List (Range β)
  active : List (Active β)
  summary : σ
  segments : List (Segment γ)

/-- Add a segment, or extend the one before it if they touch and agree. -/
def emit [DecidableEq γ] (first last : Nat) (value : γ) : List (Segment γ) → List (Segment γ)
  | [] => [⟨first, last, value⟩]
  | back :: rest =>
    if back.value = value ∧ back.last + 1 = first then ⟨back.first, last, value⟩ :: rest
    else ⟨first, last, value⟩ :: back :: rest

/-- Open a range. -/
def push (range : Range β) (active : List (Active β)) : List (Active β) :=
  active.orderedInsert (fun left right => left.last ≤ right.last) ⟨range.last, range.label⟩

/-- Open the ranges that start at a position. -/
def start (position : Nat) : List (Range β) → List (Active β) → σ →
    List (Range β) × List (Active β) × σ
  | [], active, summary => ([], active, summary)
  | range :: rest, active, summary =>
    if range.first = position then
      start position rest (push range active) (S.add summary range.label)
    else (range :: rest, active, summary)

/-- Close the ranges that end at a position. -/
def close (last : Nat) : List (Active β) → σ → List (Active β) × σ
  | [], summary => ([], summary)
  | range :: rest, summary =>
    if range.last = last then close last rest (S.remove summary range.label)
    else (range :: rest, summary)

/-- Where a segment ends: where the first open range does, or just before the
next range starts. -/
def segmentEnd (ends : Nat) : List (Range β) → Nat
  | [] => ends
  | next :: _ => if next.first ≤ ends then next.first - 1 else ends

/-- Where the next segment starts. -/
def segmentStart (state : State β γ σ) : Nat :=
  match state.active, state.pending with
  | [], next :: _ => next.first
  | _, _ => state.position

/-- One segment.  The sweep ends with one that reaches `top`. -/
def segment [DecidableEq γ] (top : Nat) (state : State β γ σ) : State β γ σ × Bool :=
  let position := segmentStart state
  let opened := start S position state.pending state.active state.summary
  match opened.2.1 with
  | [] => (state, true)
  | earliest :: _ =>
    let last := segmentEnd earliest.last opened.1
    let closed := close S last opened.2.1 opened.2.2
    ({ position := last + 1
       pending := opened.1
       active := closed.1
       summary := closed.2
       segments := emit position last (S.value opened.2.2) state.segments },
      decide (last = top))

/-- The loop. -/
def run [DecidableEq γ] (top : Nat) : Nat → State β γ σ → State β γ σ
  | 0, state => state
  | fuel + 1, state =>
    if state.pending = [] ∧ state.active = [] then state
    else
      match segment S top state with
      | (after, true) => after
      | (after, false) => run top fuel after

/-- The segments of ranges that are sorted by where they start.  Each segment
opens or closes a range, or comes just before one that does. -/
def sweep [DecidableEq γ] (top : Nat) (ranges : List (Range β)) : List (Segment γ) :=
  (run S top (3 * ranges.length + 1) ⟨0, ranges, [], S.empty, []⟩).segments.reverse

end

/-! ### What the segments give -/

/-- A segment gives a number a value. -/
def Gives (segments : List (Segment γ)) (x : Nat) (value : γ) : Prop :=
  ∃ segment ∈ segments, segment.Contains x ∧ segment.value = value

/-- The ranges give a number a value. -/
def Decides (best : List β → γ) (ranges : List (Range β)) (x : Nat) (value : γ) : Prop :=
  covering ranges x ≠ [] ∧ best (covering ranges x) = value

/-- Disjoint segments in order that say what the ranges decide. -/
structure Table (best : List β → γ) (ranges : List (Range β)) (segments : List (Segment γ)) :
    Prop where
  ordered : segments.Pairwise fun earlier later => earlier.last < later.first
  proper : ∀ segment ∈ segments, segment.first ≤ segment.last
  gives : ∀ x value, Gives segments x value ↔ Decides best ranges x value

/-- The segments made before a position, latest first. -/
structure Made (best : List β → γ) (ranges : List (Range β)) (position : Nat)
    (segments : List (Segment γ)) : Prop where
  ordered : segments.Pairwise fun later earlier => earlier.last < later.first
  proper : ∀ segment ∈ segments, segment.first ≤ segment.last ∧ segment.last < position
  gives : ∀ x < position, ∀ value, Gives segments x value ↔ Decides best ranges x value

theorem gives_cons (segment : Segment γ) (rest : List (Segment γ)) (x : Nat) (value : γ) :
    Gives (segment :: rest) x value ↔
      (segment.Contains x ∧ segment.value = value) ∨ Gives rest x value := by
  simp only [Gives, mem_cons, exists_eq_or_imp]

theorem emit_gives [DecidableEq γ] {first last : Nat} {value : γ}
    (hfirst : first ≤ last) (hproper : ∀ segment ∈ segments, segment.first ≤ segment.last)
    (x : Nat) (other : γ) :
    Gives (emit first last value segments) x other ↔
      Gives segments x other ∨ ((first ≤ x ∧ x ≤ last) ∧ value = other) := by
  cases segments with
  | nil => simp [emit, Gives, Segment.Contains]
  | cons back rest =>
    have hback := hproper back mem_cons_self
    rw [emit]
    split
    · rename_i hmerge
      -- The extended segment is the last one followed by the new one.
      have hjoin : (back.first ≤ x ∧ x ≤ last) ↔
          (back.first ≤ x ∧ x ≤ back.last) ∨ (first ≤ x ∧ x ≤ last) := by omega
      rw [gives_cons, gives_cons, hmerge.1, or_right_comm, ← or_and_right]
      exact or_congr_left (and_congr_left' hjoin)
    · rw [gives_cons, or_comm]
      rfl

theorem Made.emit [DecidableEq γ] {first last : Nat} {value : γ}
    (h : Made best ranges first segments) (hfirst : first ≤ last)
    (hvalue : ∀ x, first ≤ x → x ≤ last → ∀ other, Decides best ranges x other ↔ value = other) :
    Made best ranges (last + 1) (emit first last value segments) where
  ordered := by
    have hordered := h.ordered
    have hproper := h.proper
    cases segments with
    | nil => simp [Sweep.emit]
    | cons =>
      rw [Sweep.emit]
      split
      · exact pairwise_cons.mpr (pairwise_cons.mp hordered)
      · exact pairwise_cons.mpr ⟨fun segment hmem => (hproper segment hmem).2, hordered⟩
  proper := by
    have hproper := h.proper
    intro segment hmem
    cases segments with
    | nil =>
      rw [Sweep.emit, mem_singleton] at hmem
      subst hmem
      exact ⟨hfirst, Nat.lt_succ_self last⟩
    | cons back rest =>
      have hback := hproper back mem_cons_self
      rw [Sweep.emit] at hmem
      split at hmem
      · rcases mem_cons.mp hmem with rfl | hrest
        · exact ⟨by simp only; omega, Nat.lt_succ_self last⟩
        have := hproper segment (mem_cons_of_mem _ hrest)
        omega
      rcases mem_cons.mp hmem with rfl | hrest
      · exact ⟨hfirst, Nat.lt_succ_self last⟩
      have := hproper segment hrest
      omega
  gives := by
    intro x hx other
    rw [emit_gives hfirst fun segment hmem => (h.proper segment hmem).1]
    by_cases hbefore : x < first
    · rw [h.gives x hbefore other]
      constructor
      · rintro (hdecides | hnew)
        · exact hdecides
        · omega
      · exact .inl
    rw [hvalue x (by omega) (by omega) other]
    constructor
    · rintro (⟨segment, hmem, hcontains, -⟩ | hnew)
      · have := (h.proper segment hmem).2
        have := hcontains.2
        omega
      · exact hnew.2
    · intro hother
      exact .inr ⟨by omega, hother⟩

/-- Nothing is given where no range is. -/
theorem Made.skip {before after : Nat} (h : Made best ranges before segments) (hle : before ≤ after)
    (hgap : ∀ x, before ≤ x → x < after → covering ranges x = []) :
    Made best ranges after segments where
  ordered := h.ordered
  proper := by
    intro segment hmem
    have := h.proper segment hmem
    omega
  gives := by
    intro x hx value
    by_cases hbefore : x < before
    · exact h.gives x hbefore value
    constructor
    · rintro ⟨segment, hmem, hcontains, -⟩
      have := (h.proper segment hmem).2
      have := hcontains.2
      omega
    intro hdecides
    exact absurd (hgap x (by omega) hx) hdecides.1

/-! ### The ranges still to come -/

/-- The labels of the open ranges that reach a number. -/
def reaching (active : List (Active β)) (x : Nat) : List β :=
  (active.filter fun range => decide (x ≤ range.last)).map Active.label

/-- The pending and the open ranges at a position account for every number from
there on. -/
structure Opened (Stands : σ → List β → Prop) (ranges : List (Range β)) (top position : Nat)
    (pending : List (Range β)) (active : List (Active β)) (summary : σ) : Prop where
  sorted : pending.Pairwise fun left right => left.first ≤ right.first
  later : ∀ range ∈ pending, position ≤ range.first
  proper : ∀ range ∈ pending, range.first ≤ range.last ∧ range.last ≤ top
  ends : active.Pairwise fun left right => left.last ≤ right.last
  alive : ∀ range ∈ active, position ≤ range.last ∧ range.last ≤ top
  stands : Stands summary (active.map Active.label)
  covers : ∀ x, position ≤ x → (covering ranges x).Perm (reaching active x ++ covering pending x)

theorem push_perm (range : Range β) (active : List (Active β)) :
    (push range active).Perm (⟨range.last, range.label⟩ :: active) :=
  perm_orderedInsert _ _ _

instance : Std.Total fun left right : Active β => left.last ≤ right.last :=
  ⟨fun left right => le_total left.last right.last⟩

instance : IsTrans (Active β) fun left right => left.last ≤ right.last :=
  ⟨fun _ _ _ => le_trans⟩

instance : Std.Total fun left right : Range β => left.first ≤ right.first :=
  ⟨fun left right => le_total left.first right.first⟩

instance : IsTrans (Range β) fun left right => left.first ≤ right.first :=
  ⟨fun _ _ _ => le_trans⟩

theorem push_ends (range : Range β) {active : List (Active β)}
    (h : active.Pairwise fun left right => left.last ≤ right.last) :
    (push range active).Pairwise fun left right => left.last ≤ right.last :=
  h.orderedInsert _ _

theorem covering_cons (range : Range β) (ranges : List (Range β)) (x : Nat) :
    covering (range :: ranges) x =
      (if range.Contains x then [range.label] else []) ++ covering ranges x := by
  unfold covering
  by_cases h : range.Contains x <;> simp [h]

theorem reaching_push (range : Range β) (active : List (Active β)) (x : Nat) :
    (reaching (push range active) x).Perm
      ((if x ≤ range.last then [range.label] else []) ++ reaching active x) := by
  refine (((push_perm range active).filter _).map _).trans ?_
  unfold reaching
  by_cases h : x ≤ range.last <;> simp [h]

section

variable {S : Summary β γ σ} {Stands : σ → List β → Prop} {best : List β → γ}
  {pending : List (Range β)} {active : List (Active β)} {summary : σ}
  {ranges : List (Range β)} {top position : Nat} {last : Nat} {x : Nat} {state : State β γ σ}

theorem Opened.push (hS : S.Correct Stands best) {range : Range β}
    (h : Opened Stands ranges top position (range :: pending) active summary)
    (hfirst : range.first = position) :
    Opened Stands ranges top position pending (push range active) (S.add summary range.label) where
  sorted := (pairwise_cons.mp h.sorted).2
  later := fun other hother => h.later other (mem_cons_of_mem _ hother)
  proper := fun other hother => h.proper other (mem_cons_of_mem _ hother)
  ends := push_ends range h.ends
  alive := by
    intro other hother
    rcases mem_cons.mp ((push_perm range active).mem_iff.mp hother) with rfl | hmem
    · have := h.proper range mem_cons_self
      exact ⟨hfirst ▸ this.1, this.2⟩
    · exact h.alive other hmem
  stands := hS.perm ((push_perm range active).map _).symm (hS.add _ h.stands)
  covers := by
    intro x hx
    have hcontains : range.Contains x ↔ x ≤ range.last := by
      unfold Range.Contains
      omega
    refine (h.covers x hx).trans ?_
    rw [covering_cons, if_congr hcontains rfl rfl]
    refine List.Perm.trans ?_ ((reaching_push range active x).append_right _).symm
    rw [← append_assoc]
    exact perm_append_comm.append_right _

/-- Opening the ranges that start at a position. -/
theorem start_opened (hS : S.Correct Stands best)
    (h : Opened Stands ranges top position pending active summary) :
    let opened := start S position pending active summary
    Opened Stands ranges top position opened.1 opened.2.1 opened.2.2 ∧
      (∀ range ∈ opened.1, position < range.first) ∧
      opened.1.length + opened.2.1.length = pending.length + active.length := by
  induction pending generalizing active summary with
  | nil => exact ⟨h, by simp [start], rfl⟩
  | cons range rest ih =>
    by_cases hfirst : range.first = position
    · obtain ⟨hopened, hlater, hlength⟩ := ih (h.push hS hfirst)
      simp only [start, if_pos hfirst]
      refine ⟨hopened, hlater, hlength.trans ?_⟩
      rw [(push_perm range active).length_eq]
      simp only [length_cons]
      omega
    simp only [start, if_neg hfirst]
    have hrange : position < range.first :=
      lt_of_le_of_ne (h.later range mem_cons_self) (Ne.symm hfirst)
    exact ⟨h, forall_mem_cons.mpr ⟨hrange, fun other hmem =>
      lt_of_lt_of_le hrange ((pairwise_cons.mp h.sorted).1 other hmem)⟩, trivial⟩

/-- Closing the ranges that end at a position leaves those that reach further. -/
theorem close_spec (hS : S.Correct Stands best)
    (hends : active.Pairwise fun left right => left.last ≤ right.last)
    (hlast : ∀ range ∈ active, last ≤ range.last)
    (hstands : Stands summary (active.map Active.label)) :
    (close S last active summary).1 = active.filter (fun range => decide (last < range.last)) ∧
      Stands (close S last active summary).2
        ((close S last active summary).1.map Active.label) := by
  induction active generalizing summary with
  | nil => exact ⟨rfl, hstands⟩
  | cons range rest ih =>
    obtain ⟨hhead, hrest⟩ := pairwise_cons.mp hends
    by_cases hrange : range.last = last
    · rw [close, if_pos hrange, filter_cons_of_neg (by simp [hrange])]
      exact ih hrest (fun other hother => hlast other (mem_cons_of_mem _ hother))
        (hS.remove hstands)
    rw [close, if_neg hrange]
    have hmore : last < range.last :=
      lt_of_le_of_ne (hlast range mem_cons_self) (Ne.symm hrange)
    refine ⟨(filter_eq_self.mpr ?_).symm, hstands⟩
    simp only [decide_eq_true_eq]
    exact forall_mem_cons.mpr ⟨hmore, fun other hmem => lt_of_lt_of_le hmore (hhead other hmem)⟩

theorem covering_eq_nil (h : ∀ range ∈ pending, x < range.first) : covering pending x = [] := by
  unfold covering
  rw [map_eq_nil_iff, filter_eq_nil_iff]
  intro range hrange hcontains
  exact absurd (of_decide_eq_true hcontains).1 (not_le.mpr (h range hrange))

theorem reaching_eq
    (h : ∀ range ∈ active, x ≤ range.last) : reaching active x = active.map Active.label := by
  unfold reaching
  rw [filter_eq_self.mpr fun range hrange => decide_eq_true (h range hrange)]

theorem Opened.close (hS : S.Correct Stands best)
    (h : Opened Stands ranges top position pending active summary) (hposition : position ≤ last)
    (hlast : ∀ range ∈ active, last ≤ range.last)
    (hlater : ∀ range ∈ pending, last < range.first) :
    Opened Stands ranges top (last + 1) pending (close S last active summary).1
      (close S last active summary).2 := by
  obtain ⟨hclose, hstands⟩ := close_spec hS h.ends hlast h.stands
  refine ⟨h.sorted, hlater, h.proper, ?_, ?_, hstands, ?_⟩
  · rw [hclose]
    exact h.ends.filter _
  · rw [hclose]
    intro range hrange
    obtain ⟨hmem, hmore⟩ := mem_filter.mp hrange
    exact ⟨of_decide_eq_true hmore, (h.alive range hmem).2⟩
  intro x hx
  have hsame : reaching (Sweep.close S last active summary).1 x = reaching active x := by
    unfold reaching
    rw [hclose, filter_filter]
    congr 1
    apply filter_congr
    intro range _
    simp only [Bool.and_eq_left_iff_imp, decide_eq_true_eq]
    omega
  rw [hsame]
  exact h.covers x (by omega)

/-! ### The loop -/

/-- Whether a segment ends before the next range starts. -/
def waits (state : State β γ σ) : Nat :=
  match state.pending with
  | [] => 0
  | next :: _ => if segmentStart state = next.first then 0 else 1

/-- What every segment makes smaller. -/
def weight (state : State β γ σ) : Nat :=
  3 * state.pending.length + state.active.length + waits state

theorem waits_le (state : State β γ σ) : waits state ≤ 1 := by
  unfold waits
  split
  · exact Nat.zero_le 1
  · split <;> omega

/-- The invariant of the loop. -/
structure Sound (Stands : σ → List β → Prop) (best : List β → γ) (ranges : List (Range β))
    (top : Nat) (state : State β γ σ) : Prop where
  opened : Opened Stands ranges top state.position state.pending state.active state.summary
  made : Made best ranges state.position state.segments

theorem Opened.skip {next : Range β} {rest : List (Range β)}
    (h : Opened Stands ranges top position (next :: rest) [] summary) :
    Opened Stands ranges top next.first (next :: rest) [] summary where
  sorted := h.sorted
  later := forall_mem_cons.mpr ⟨le_rfl, (pairwise_cons.mp h.sorted).1⟩
  proper := h.proper
  ends := h.ends
  alive := by simp
  stands := h.stands
  covers := fun x hx => h.covers x (le_trans (h.later next mem_cons_self) hx)

/-- The loop's invariant also holds where the next segment starts. -/
theorem Sound.atStart (h : Sound Stands best ranges top state) :
    Opened Stands ranges top (segmentStart state) state.pending state.active state.summary ∧
      Made best ranges (segmentStart state) state.segments := by
  have hopened := h.opened
  unfold segmentStart
  split
  · rename_i next rest hactive hpending
    rw [hactive, hpending] at hopened ⊢
    refine ⟨hopened.skip, h.made.skip (hopened.later next mem_cons_self) ?_⟩
    intro x hx hbefore
    have hnone : covering (next :: rest) x = [] :=
      covering_eq_nil fun range hrange => lt_of_lt_of_le hbefore (hopened.skip.later range hrange)
    have hperm := hopened.covers x hx
    rw [hnone] at hperm
    exact hperm.eq_nil
  · exact ⟨hopened, h.made⟩

theorem start_length_le (pending : List (Range β)) (active : List (Active β)) (summary : σ) :
    (start S position pending active summary).1.length ≤ pending.length := by
  induction pending generalizing active summary with
  | nil => exact le_rfl
  | cons range rest ih =>
    rw [start]
    split
    · exact le_trans (ih _ _) (Nat.le_succ _)
    · exact le_rfl

theorem start_length_lt {next : Range β} {rest : List (Range β)} (active : List (Active β))
    (summary : σ) (h : next.first = position) :
    (start S position (next :: rest) active summary).1.length < (next :: rest).length := by
  rw [start, if_pos h]
  exact Nat.lt_succ_of_le (start_length_le rest _ _)

/-- A range is open where a segment starts. -/
theorem start_active_ne_nil (hS : S.Correct Stands best) (h : Sound Stands best ranges top state)
    (hmore : ¬(state.pending = [] ∧ state.active = [])) :
    (start S (segmentStart state) state.pending state.active state.summary).2.1 ≠ [] := by
  intro hnone
  obtain ⟨-, -, hlength⟩ := start_opened hS h.atStart.1
  rw [hnone, length_nil] at hlength
  have hle : (start S (segmentStart state) state.pending state.active state.summary).1.length ≤
      state.pending.length := start_length_le _ _ _
  have hactive : state.active = [] := length_eq_zero_iff.mp (by omega)
  cases hpending : state.pending with
  | nil => exact hmore ⟨hpending, hactive⟩
  | cons next rest =>
    have hstart : next.first = segmentStart state := by
      simp only [segmentStart, hactive, hpending]
    have hlt : (start S (segmentStart state) (next :: rest) state.active state.summary).1.length <
        (next :: rest).length := start_length_lt _ _ hstart
    rw [hpending, hactive] at hlength
    rw [hactive] at hlt
    simp only [length_nil] at hlength
    omega

theorem segmentEnd_spec {ends : Nat}
    (hsorted : pending.Pairwise fun left right => left.first ≤ right.first)
    (hlater : ∀ range ∈ pending, position < range.first) (hends : position ≤ ends) :
    (position ≤ segmentEnd ends pending ∧ segmentEnd ends pending ≤ ends) ∧
      (∀ range ∈ pending, segmentEnd ends pending < range.first) ∧
      (segmentEnd ends pending = ends ∨
        ∃ next rest, pending = next :: rest ∧ segmentEnd ends pending + 1 = next.first) := by
  cases pending with
  | nil => exact ⟨⟨hends, le_rfl⟩, by simp, .inl rfl⟩
  | cons next rest =>
    have hnext := hlater next mem_cons_self
    have hfirst : ∀ range ∈ next :: rest, next.first ≤ range.first :=
      forall_mem_cons.mpr ⟨le_rfl, (pairwise_cons.mp hsorted).1⟩
    rw [segmentEnd]
    split
    · refine ⟨by omega, fun range hrange => ?_, .inr ⟨next, rest, rfl, by omega⟩⟩
      have := hfirst range hrange
      omega
    refine ⟨by omega, fun range hrange => ?_, .inl rfl⟩
    have := hfirst range hrange
    omega

/-- Where all open ranges reach and no other starts, they decide. -/
theorem Opened.decides (hS : S.Correct Stands best)
    (h : Opened Stands ranges top position pending active summary) (hactive : active ≠ [])
    (hlast : ∀ range ∈ active, last ≤ range.last)
    (hlater : ∀ range ∈ pending, last < range.first) (hx : position ≤ x)
    (hxlast : x ≤ last) (value : γ) :
    Decides best ranges x value ↔ S.value summary = value := by
  have hperm := h.covers x hx
  rw [covering_eq_nil fun range hrange => lt_of_le_of_lt hxlast (hlater range hrange),
    reaching_eq fun range hrange => le_trans hxlast (hlast range hrange),
    append_nil] at hperm
  have hne : covering ranges x ≠ [] := by
    intro hnil
    rw [hnil] at hperm
    exact hactive (map_eq_nil_iff.mp hperm.symm.eq_nil)
  rw [hS.value (hS.perm hperm.symm h.stands) hne]
  exact ⟨And.right, fun hvalue => ⟨hne, hvalue⟩⟩

/-- What a segment leaves, from the ranges that are open where it starts. -/
theorem segment_eq [DecidableEq γ] {earliest : Active β} {others : List (Active β)}
    (h : start S (segmentStart state) state.pending state.active state.summary =
      (pending, earliest :: others, summary)) :
    segment S top state =
      ({ position := segmentEnd earliest.last pending + 1
         pending := pending
         active := (close S (segmentEnd earliest.last pending) (earliest :: others) summary).1
         summary := (close S (segmentEnd earliest.last pending) (earliest :: others) summary).2
         segments := emit (segmentStart state) (segmentEnd earliest.last pending)
           (S.value summary) state.segments },
        decide (segmentEnd earliest.last pending = top)) := by
  unfold segment
  simp only [h]

/-- A range ends, or the next one starts right after the segment. -/
theorem waits_close {segments : List (Segment γ)}
    (h : ∃ next rest, pending = next :: rest ∧ last + 1 = next.first) :
    waits (⟨last + 1, pending, active, summary, segments⟩ : State β γ σ) = 0 := by
  obtain ⟨next, rest, rfl, hnext⟩ := h
  cases active with
  | nil => simp [waits, segmentStart]
  | cons range others => simp [waits, segmentStart, hnext]

theorem close_length_lt (hS : S.Correct Stands best) {earliest : Active β}
    {others : List (Active β)}
    (hends : (earliest :: others).Pairwise fun left right => left.last ≤ right.last)
    (hstands : Stands summary ((earliest :: others).map Active.label)) :
    (close S earliest.last (earliest :: others) summary).1.length < (earliest :: others).length := by
  have hleast : ∀ range ∈ earliest :: others, earliest.last ≤ range.last :=
    forall_mem_cons.mpr ⟨le_rfl, (pairwise_cons.mp hends).1⟩
  rw [(close_spec hS hends hleast hstands).1, filter_cons_of_neg (by simp)]
  exact Nat.lt_succ_of_le (length_filter_le _ _)

/-- A segment that opens no range closes one, or ends right before the next. -/
theorem weight_lt {state after : State β γ σ}
    (hstart : start S (segmentStart state) state.pending state.active state.summary =
      (pending, active, summary))
    (hpending : after.pending = pending)
    (hlength : pending.length + active.length = state.pending.length + state.active.length)
    (hactive : after.active.length ≤ active.length)
    (hreason : after.active.length < active.length ∨ pending ≠ [] ∧ waits after = 0) :
    weight after < weight state := by
  have hwaits := waits_le after
  cases hstate : state.pending with
  | nil =>
    rw [hstate, start] at hstart
    cases hstart
    have hnone : waits after = 0 := by simp only [waits, hpending]
    have hless : after.active.length < state.active.length :=
      hreason.resolve_right fun hmore => hmore.1 rfl
    simp only [weight, hpending, hstate, hnone]
    omega
  | cons next rest =>
    by_cases hfirst : next.first = segmentStart state
    · have hlt : (start S (segmentStart state) (next :: rest) state.active
          state.summary).1.length < (next :: rest).length := start_length_lt _ _ hfirst
      rw [← hstate, hstart] at hlt
      simp only [weight, hpending]
      simp only at hlt
      omega
    rw [hstate, start, if_neg hfirst] at hstart
    cases hstart
    have hwait : waits state = 1 := by
      simp only [waits, hstate]
      exact if_neg (Ne.symm hfirst)
    simp only [weight, hpending, hstate, hwait]
    omega

/-- One segment keeps the invariant and makes the weight smaller. -/
theorem Sound.segment [DecidableEq γ] (hS : S.Correct Stands best)
    (h : Sound Stands best ranges top state)
    (hmore : ¬(state.pending = [] ∧ state.active = [])) :
    Sound Stands best ranges top (segment S top state).1 ∧
      weight (Sweep.segment S top state).1 < weight state := by
  obtain ⟨hopened, hlater, hlength⟩ := start_opened hS h.atStart.1
  have hactive := start_active_ne_nil hS h hmore
  rcases hstart : start S (segmentStart state) state.pending state.active state.summary with
    ⟨pending, active, summary⟩
  simp only [hstart] at hopened hlater hlength hactive
  obtain ⟨earliest, others, rfl⟩ := exists_cons_of_ne_nil hactive
  obtain ⟨⟨hfrom, hto⟩, hnext, hreason⟩ := segmentEnd_spec hopened.sorted hlater
    (hopened.alive earliest mem_cons_self).1
  have hleast : ∀ range ∈ earliest :: others, segmentEnd earliest.last pending ≤ range.last :=
    forall_mem_cons.mpr
      ⟨hto, fun range hmem => le_trans hto ((pairwise_cons.mp hopened.ends).1 range hmem)⟩
  rw [segment_eq hstart]
  refine ⟨⟨hopened.close hS hfrom hleast hnext, h.atStart.2.emit hfrom ?_⟩, ?_⟩
  · intro x hx hxlast value
    exact hopened.decides hS hactive hleast hnext hx hxlast value
  refine weight_lt hstart rfl hlength ?_ ?_
  · rw [(close_spec hS hopened.ends hleast hopened.stands).1]
    exact length_filter_le _ _
  rcases hreason with hends | hbefore
  · rw [hends]
    exact .inl (close_length_lt hS hopened.ends hopened.stands)
  refine .inr ⟨?_, waits_close hbefore⟩
  obtain ⟨next, rest, rfl, -⟩ := hbefore
  exact cons_ne_nil next rest

/-- Past the top there is nothing left. -/
theorem Opened.finished (h : Opened Stands ranges top (top + 1) pending active summary) :
    pending = [] ∧ active = [] := by
  constructor
  · refine eq_nil_iff_forall_not_mem.mpr fun range hrange => ?_
    have := h.later range hrange
    have := h.proper range hrange
    omega
  refine eq_nil_iff_forall_not_mem.mpr fun range hrange => ?_
  have := h.alive range hrange
  omega

theorem Sound.finished_of_stop [DecidableEq γ] {state after : State β γ σ}
    (h : Sound Stands best ranges top after) (hne :
      (start S (segmentStart state) state.pending state.active state.summary).2.1 ≠ [])
    (hsegment : Sweep.segment S top state = (after, true)) :
    after.pending = [] ∧ after.active = [] := by
  obtain ⟨earliest, others, hactive⟩ := exists_cons_of_ne_nil hne
  rcases hstart : start S (segmentStart state) state.pending state.active state.summary with
    ⟨pending, active, summary⟩
  rw [hstart] at hactive
  simp only at hactive
  subst hactive
  rw [segment_eq hstart] at hsegment
  obtain ⟨rfl, hstop⟩ := Prod.mk.inj hsegment
  have hopened := h.opened
  simp only [of_decide_eq_true hstop] at hopened ⊢
  exact hopened.finished

/-- The loop ends with the invariant and with no range left. -/
theorem Sound.run [DecidableEq γ] (hS : S.Correct Stands best) {fuel : Nat}
    (h : Sound Stands best ranges top state) (hfuel : weight state ≤ fuel) :
    Sound Stands best ranges top (run S top fuel state) ∧
      (run S top fuel state).pending = [] ∧ (run S top fuel state).active = [] := by
  induction fuel generalizing state with
  | zero =>
    unfold weight at hfuel
    exact ⟨h, length_eq_zero_iff.mp (by simp only [Sweep.run]; omega),
      length_eq_zero_iff.mp (by simp only [Sweep.run]; omega)⟩
  | succ fuel ih =>
    by_cases hdone : state.pending = [] ∧ state.active = []
    · rw [Sweep.run, if_pos hdone]
      exact ⟨h, hdone⟩
    rw [Sweep.run, if_neg hdone]
    obtain ⟨hsound, hweight⟩ := h.segment hS hdone
    rcases hsegment : Sweep.segment S top state with ⟨after, stop⟩
    rw [hsegment] at hsound hweight
    cases stop with
    | false => exact ih hsound (Nat.le_of_lt_succ (lt_of_lt_of_le hweight hfuel))
    | true => exact ⟨hsound, hsound.finished_of_stop (start_active_ne_nil hS h hdone) hsegment⟩

/-- The sweep of sorted ranges makes their table. -/
theorem sweep_table [DecidableEq γ] (hS : S.Correct Stands best)
    (hsorted : ranges.Pairwise fun left right => left.first ≤ right.first)
    (hproper : ∀ range ∈ ranges, range.first ≤ range.last ∧ range.last ≤ top) :
    Table best ranges (sweep S top ranges) := by
  have hstart : Sound Stands best ranges top (⟨0, ranges, [], S.empty, []⟩ : State β γ σ) := by
    refine ⟨⟨hsorted, by simp, hproper, by simp, by simp, hS.empty, ?_⟩, by simp, by simp, by simp⟩
    intro x _
    simp [reaching]
  have hweight : weight (⟨0, ranges, [], S.empty, []⟩ : State β γ σ) ≤ 3 * ranges.length + 1 := by
    have := waits_le (⟨0, ranges, [], S.empty, []⟩ : State β γ σ)
    simp only [weight, length_nil]
    omega
  obtain ⟨hsound, hpending, hactive⟩ := hstart.run hS hweight
  have hmade := hsound.made
  refine ⟨pairwise_reverse.mpr hmade.ordered,
    fun segment hmem => (hmade.proper segment (mem_reverse.mp hmem)).1, fun x value => ?_⟩
  have hreverse : Gives (sweep S top ranges) x value ↔
      Gives (run S top (3 * ranges.length + 1) ⟨0, ranges, [], S.empty, []⟩).segments x value := by
    simp only [Gives, sweep, mem_reverse]
  rw [hreverse]
  refine (hmade.skip (le_max_left _ (x + 1)) ?_).gives x (by omega) value
  intro other hother _
  have hperm := hsound.opened.covers other hother
  rw [hpending, hactive] at hperm
  exact hperm.eq_nil

end

/-! ### Lookups -/

/-- The value of the last segment that starts at or before a number, if the
segment reaches it. -/
def lookup (segments : List (Segment γ)) (x : Nat) : Option γ :=
  match (segments.takeWhile fun segment => decide (segment.first ≤ x)).getLast? with
  | none => none
  | some segment => if segment.last < x then none else some segment.value

theorem takeWhile_eq_of_contains {before after : List (Segment γ)} {segment : Segment γ} {x : Nat}
    (hordered : (before ++ segment :: after).Pairwise fun earlier later =>
      earlier.last < later.first)
    (hproper : ∀ other ∈ before ++ segment :: after, other.first ≤ other.last)
    (hcontains : segment.Contains x) :
    ((before ++ segment :: after).takeWhile fun other => decide (other.first ≤ x)) =
      before ++ [segment] := by
  obtain ⟨-, htail, hcross⟩ := pairwise_append.mp hordered
  have hbefore : ∀ other ∈ before, decide (other.first ≤ x) = true := by
    intro other hother
    have := hproper other (mem_append_left _ hother)
    have := hcross other hother segment mem_cons_self
    have := hcontains.1
    exact decide_eq_true (by omega)
  have hsegment : decide (segment.first ≤ x) = true := decide_eq_true hcontains.1
  rw [takeWhile_append_of_pos hbefore, takeWhile_cons, if_pos hsegment]
  cases after with
  | nil => rfl
  | cons next rest =>
    have := (pairwise_cons.mp htail).1 next mem_cons_self
    have := hcontains.2
    rw [takeWhile_cons, if_neg (by simp only [decide_eq_true_eq]; omega)]

theorem lookup_eq_some_iff
    (hordered : segments.Pairwise fun earlier later => earlier.last < later.first)
    (hproper : ∀ segment ∈ segments, segment.first ≤ segment.last) (x : Nat) (value : γ) :
    lookup segments x = some value ↔ Gives segments x value := by
  constructor
  · intro hlookup
    unfold lookup at hlookup
    split at hlookup
    · cases hlookup
    rename_i segment hlast
    have hmem := mem_of_getLast? hlast
    have hfirst := all_eq_true.mp (all_takeWhile) segment hmem
    split at hlookup
    · cases hlookup
    rename_i hreach
    exact ⟨segment, (List.takeWhile_prefix _).subset hmem,
      ⟨of_decide_eq_true hfirst, not_lt.mp hreach⟩, Option.some.inj hlookup⟩
  · rintro ⟨segment, hmem, hcontains, rfl⟩
    obtain ⟨before, after, rfl⟩ := append_of_mem hmem
    unfold lookup
    rw [takeWhile_eq_of_contains hordered hproper hcontains, getLast?_concat]
    exact if_neg (not_lt.mpr hcontains.2)

/-- A lookup in a table is what the ranges decide. -/
theorem Table.lookup_eq (h : Table best ranges segments) (x : Nat) :
    lookup segments x =
      if covering ranges x = [] then none else some (best (covering ranges x)) := by
  have hiff : ∀ value, lookup segments x = some value ↔ Decides best ranges x value := by
    intro value
    rw [lookup_eq_some_iff h.ordered h.proper, h.gives]
  split
  · rename_i hnone
    refine Option.eq_none_iff_forall_ne_some.mpr fun value hvalue => ?_
    exact ((hiff value).mp hvalue).1 hnone
  rename_i hsome
  exact (hiff _).mpr ⟨hsome, rfl⟩

end Yume.Lib.Sweep
