/-
Fairness of `drain_pending_writes`.  Beside the session stands the abstract
round robin: a cursor, and the stream whose write is being published.
-/
import Yume.Session.WriteGaps

namespace Yume.Session

open Yume.Lib Engine List Option

/-- A scan that starts after the cursor meets `first` before `second`. -/
def Precedes (cursor first second : Nat) : Prop :=
  (cursor < first ∧ (second ≤ cursor ∨ first < second)) ∨ (second ≤ cursor ∧ first < second)

/-- The abstract round robin: the stream served last, and the streams of the
writes taken but not settled. -/
structure Turns where
  cursor : Nat
  carried : List Nat

/-- One step of the round robin, with the stream whose write it settles and
whether the write was published. -/
inductive Turns.Step (ready : Nat → Prop) :
    Turns → List (Nat × Bool) → Turns → Prop where
  | quiet {turns} : Step ready turns [] turns
  | takes {cursor id} :
    (∀ other, ready other → other = id ∨ Precedes cursor id other) →
    Step ready ⟨cursor, []⟩ [] ⟨id, [id]⟩
  | settles {cursor id ok} : Step ready ⟨cursor, [id]⟩ [(id, ok)] ⟨cursor, []⟩

namespace Turns.Step

variable {ready : Nat → Prop} {turns turns' : Turns} {settled : List (Nat × Bool)} {a b : Nat}

/-- The write being published belongs to the stream at the cursor. -/
theorem carried_eq (h : Step ready turns settled turns')
    (hcarried : ∀ id ∈ turns.carried, id = turns.cursor) :
    ∀ id ∈ turns'.carried, id = turns'.cursor := by
  cases h with
  | quiet => exact hcarried
  | takes => simp
  | settles => simp

/-- Stream `b` is served before `a`: its write is being published, or the scan
meets it first. -/
def Waits (turns : Turns) (a b : Nat) : Prop :=
  a ∉ turns.carried ∧ (b ∈ turns.carried ∨ Precedes turns.cursor b a)

/-- A stream that is ready and not served keeps its place before `a`. -/
theorem waits_kept (h : Step ready turns settled turns')
    (hready : ready b) (hsettled : ∀ ok, (b, ok) ∉ settled)
    (hwaits : Waits turns a b) : Waits turns' a b := by
  cases h with
  | quiet => exact hwaits
  | takes hfirst =>
    have hb := hfirst b hready
    simp [Waits, Precedes] at hwaits hb ⊢
    omega
  | @settles cursor id ok =>
    have hid : b ≠ id := fun hid => hsettled ok (by simp [hid])
    simpa [Waits, hid] using hwaits.2

/-- Once a write of `a` is settled, every other stream comes before `a`. -/
theorem waits_of_settles {ok : Bool} (h : Step ready turns [(a, ok)] turns')
    (hab : a ≠ b) (hcarried : ∀ id ∈ turns.carried, id = turns.cursor) :
    Waits turns' a b := by
  cases h with
  | settles =>
    simp [Waits, Precedes] at hcarried ⊢
    omega

theorem settles_carried {ok : Bool} (h : Step ready turns [(a, ok)] turns') :
    turns'.carried = [] := by
  cases h with
  | settles => rfl

theorem carries_of_settles {ok : Bool} (h : Step ready turns [(a, ok)] turns') :
    a ∈ turns.carried := by
  cases h with
  | settles => exact mem_singleton_self a

end Turns.Step

section Schedule

variable {e e' : Engine} {made : List Call} {stream other : Stream}

/-- A live stream whose next write its credit covers. -/
def Engine.eligible (e : Engine) (id : Nat) : Bool :=
  e.streams.any fun stream => writable stream && stream.id == id

theorem eligible_not_gone {id : Nat} (hunique : e.ids.Nodup) (h : e.eligible id = true) :
    ¬ e.Gone id := by
  rintro ⟨-, hclosed⟩
  obtain ⟨stream, hmem, hstream⟩ := any_eq_true.mp h
  simp only [writable, Bool.and_eq_true, Bool.not_eq_true', beq_iff_eq] at hstream
  obtain ⟨⟨⟨hpresent, hopen⟩, -⟩, rfl⟩ := hstream
  simp [findOpen_eq_some hunique hmem hpresent hopen] at hclosed

/-- The scan picks the first eligible stream after the cursor. -/
theorem scheduledStream_first (h : e.scheduledStream = some stream)
    (id : Nat) (heligible : e.eligible id = true) :
    id = stream.id ∨ Precedes e.lastScheduledStreamId stream.id id := by
  obtain ⟨other, hmem, hother⟩ := any_eq_true.mp heligible
  simp only [Bool.and_eq_true, beq_iff_eq] at hother
  obtain ⟨hwritable, rfl⟩ := hother
  have hcandidate : other ∈ e.streams.filter writable := by simp [hmem, hwritable]
  unfold scheduledStream at h
  rcases or_eq_some_iff.mp h with h | ⟨hnone, h⟩
  · obtain ⟨hstream, hle⟩ := lowestId_some h
    have hlt := (mem_filter.mp hstream).2
    have := hle other
    simp only [mem_filter, decide_eq_true_eq] at hlt this hcandidate
    unfold Precedes
    grind
  have hle := (lowestId_some h).2 other hcandidate
  have := filter_eq_nil_iff.mp (lowestId_none hnone) other hcandidate
  simp only [decide_eq_true_eq] at this
  unfold Precedes
  omega

end Schedule

/-- The stream of the write that a section has taken and not settled. -/
def Call.carries : Call → List Nat
  | .settleWrite id _ _ _ => [id]
  | call => call.publishing

theorem Owner.resume_carries (owner : Owner) (request : Request)
    (status : Status) (admission : QueueAdmission) :
    (owner.resume request status admission).flatMap Call.carries = owner.carries := by
  cases owner <;> simp only [Owner.resume] <;> (repeat' split) <;> rfl

section Step

variable {e e' : Engine} {choice : Choice} {call : Call} {used made : List Call}

/-- A section hands the write it publishes on. -/
theorem Effect.carries (h : Effect e choice call e' made) (hselect : call ≠ .selectWrite) :
    made.flatMap Call.carries = call.publishing := by
  cases h with
  | idle hc | receiveFailing hc => cases call <;> first | rfl | cases hc
  | enqueueRefused | admitLeaves | deferLeaves | deferPushLeaves | deferPushes | tokenLeaves
  | tokenUnadmitted | tokenExhausted | publishStopped | publishes | tokenFails | bareLost =>
    exact Owner.resume_carries ..
  | @openSucceeds token body =>
    cases body.plaintext <;> simp only [dispatch] <;> split <;> rfl
  | writeTaken => exact absurd rfl hselect
  | _ => first | rfl | exact append_nil _

theorem Call.carries_nil (h : call.writesRole = 0) : call.carries = [] := by
  cases call with
  | settleWrite => cases h
  | enqueue _ owner | rotateCheck _ owner | admitCheck _ owner | deferReserve _ owner
  | deferPush _ owner | takeToken _ owner | sealFrame _ owner | publish _ owner
  | tokenLost _ owner => cases owner <;> first | rfl | cases h
  | _ => rfl

/-- What comes from outside carries no write. -/
theorem Move.outside_carries {emitted taken : Option Wire}
    (h : Move e choice [] e' made emitted taken) :
    made.flatMap Call.carries = [] ∧ e'.lastScheduledStreamId = e.lastScheduledStreamId := by
  cases h with
  | call hcallable =>
    have hnone := Call.carries_nil (Call.neutral_roles (Engine.callable_neutral hcallable)).2.1
    exact ⟨by simp [hnone], rfl⟩
  | _ => exact ⟨rfl, rfl⟩

/-- Beside a section of the one drainer, no section carries a write. -/
theorem RoleInv.carries_beside {pre post : List Call}
    (h : RoleInv e (pre ++ call :: post)) (hrole : call.writesRole = 1) :
    pre.flatMap Call.carries = [] ∧ post.flatMap Call.carries = [] := by
  have hcount := h.writes
  simp only [weigh_append, weigh_cons, hrole] at hcount
  have hflag : flag e.pendingWritesDraining ≤ 1 := by
    cases e.pendingWritesDraining <;> decide
  constructor <;> refine flatMap_eq_nil_iff.mpr fun c hc => Call.carries_nil ?_ <;>
    have := le_weigh_of_mem (f := Call.writesRole) hc <;> omega

/-- The stream whose write a section settles, and whether `enqueue_record` has
taken the record. -/
def Call.settled : Call → List (Nat × Bool)
  | .settleWrite id _ _ status => [(id, status.isOk)]
  | _ => []

/-- Every section is a step of the round robin. -/
theorem exec_turns {pre post : List Call} (hroles : RoleInv e (pre ++ call :: post))
    (hexec : exec e choice call = some (e', made)) :
    Turns.Step (e.eligible · = true)
      ⟨e.lastScheduledStreamId, (pre ++ call :: post).flatMap Call.carries⟩ call.settled
      ⟨e'.lastScheduledStreamId, (pre ++ (made ++ post)).flatMap Call.carries⟩ := by
  by_cases hselect : call = .selectWrite
  · subst hselect
    obtain ⟨hpre, hpost⟩ := hroles.carries_beside rfl
    simp only [flatMap_append, flatMap_cons, hpre, hpost]
    rcases selectWrite_cases hexec with
      ⟨rfl, rfl⟩ | ⟨stream, write, rest, hstream, -, -, -, -, rfl, rfl⟩
    · exact .quiet
    · exact .takes (scheduledStream_first hstream)
  have heffect := exec_effect hexec
  rw [heffect.fixed.cursor.resolve_right hselect]
  simp only [flatMap_append, flatMap_cons, heffect.carries hselect]
  cases call with
  | settleWrite =>
    obtain ⟨hpre, hpost⟩ := hroles.carries_beside rfl
    rw [hpre, hpost]
    exact .settles
  | _ => exact .quiet

end Step

namespace Endpoint

variable {config : Config} {guard : Guard} {endpoint next : Endpoint} {label : Label}

/-- The round robin of a session. -/
def turns (endpoint : Endpoint) : Turns where
  cursor := endpoint.engine.lastScheduledStreamId
  carried := endpoint.frames.flatMap Call.carries

/-- The write that a step of `drain_pending_writes` settles. -/
def settled (endpoint : Endpoint) : Label → List (Nat × Bool)
  | .run thread _ => ((endpoint.next thread).map Call.settled).getD []
  | _ => []

/-- Every step of a session is a step of the round robin. -/
theorem Run.turns_step (h : Run config guard endpoint)
    (hstep : endpoint.advance label = some next) :
    Turns.Step (endpoint.engine.eligible · = true) endpoint.turns
      (endpoint.settled label) next.turns := by
  simp only [advance, map_eq_some_iff] at hstep
  obtain ⟨⟨next, wire⟩, hstep, rfl⟩ := hstep
  rcases step_stacks hstep with
    ⟨thread, choice, call, rest, made, rfl, rfl, hthread, hthreads, hexec⟩ |
      ⟨made, added, hlabel, -, hmade, hthreads, hmove, -⟩
  · obtain ⟨pre, post, hflat, hset⟩ := flatten_set_cons hthread
    have hbefore : endpoint.frames = pre ++ call :: post := hflat
    have hafter : next.frames = pre ++ (made ++ post) :=
      (congrArg List.flatten hthreads).trans (hset made)
    have hturns := exec_turns (hbefore ▸ h.roles) hexec
    rw [← hbefore, ← hafter] at hturns
    simpa [turns, settled, Endpoint.next, hthread] using hturns
  obtain ⟨hcarries, hcursor⟩ := hmove.outside_carries
  have hturns : next.turns = endpoint.turns := by
    simp [turns, frames, hthreads, hmade, hcarries, hcursor]
  rw [hturns]
  cases label with
  | run => exact absurd rfl (hlabel _ _)
  | _ => exact .quiet

/-- The write being published belongs to the stream at the cursor. -/
theorem Run.carried_eq (h : Run config guard endpoint) :
    ∀ id ∈ endpoint.turns.carried, id = endpoint.turns.cursor :=
  Reaches.invariant (P := fun endpoint : Endpoint =>
      ∀ id ∈ endpoint.turns.carried, id = endpoint.turns.cursor)
    (by simp [turns, initial, frames, Call.carries, Call.publishing, Call.owner?])
    (fun _ _ _ hreach hcarried _ hstep => (Run.turns_step hreach hstep).carried_eq hcarried) h

theorem meets_unrestricted (endpoint : Endpoint) (label : Label) :
    endpoint.Meets unrestricted label := by
  cases label <;> simp [Meets, unrestricted]

/-- Before this step the session is live and has a record key left, and a write
of the stream that reaches the byte budget fits it. -/
def Fits (id : Nat) (endpoint : Endpoint) (label : Label) : Prop :=
  endpoint.engine.terminal = false ∧ endpoint.engine.outbound.sequenceExhausted = false ∧
    endpoint.Meets (writesFitOn id) label

instance (id : Nat) (endpoint : Endpoint) (label : Label) :
    Decidable (endpoint.Fits id label) := by
  unfold Fits writesFitOn
  infer_instance

/-- While the session is live, no refused write of the stream waits to be
settled. -/
def Unrefused (id : Nat) (endpoint : Endpoint) : Prop :=
  endpoint.engine.terminal = false → ∀ size op status,
    .settleWrite id size op status ∈ endpoint.frames → status.isOk = true

theorem next_mem_frames {thread : Nat} {call : Call} (h : endpoint.next thread = some call) :
    call ∈ endpoint.frames := by
  obtain ⟨stack, hstack, hhead⟩ := bind_eq_some_iff.mp h
  exact mem_flatten.mpr ⟨stack, mem_of_getElem? hstack, mem_of_mem_head? hhead⟩

theorem Unrefused.settled {id : Nat} (h : Unrefused id endpoint)
    (hlive : endpoint.engine.terminal = false) : (id, false) ∉ endpoint.settled label := by
  cases label with
  | run thread =>
    intro hmem
    cases hnext : endpoint.next thread with
    | none => simp [settled, hnext] at hmem
    | some call =>
      simp only [settled, hnext, map_some, getD_some] at hmem
      cases call with
      | settleWrite id' size op status =>
        simp only [Call.settled, mem_singleton, Prod.mk.injEq] at hmem
        obtain ⟨rfl, hbad⟩ := hmem
        exact absurd (h hlive size op status (next_mem_frames hnext)) (by simp [← hbad])
      | _ => cases hmem
  | _ => exact not_mem_nil

/-- No write is refused of a stream that is eligible and whose writes fit. -/
theorem Run.unrefused_step {id : Nat} (h : Run config guard endpoint)
    (hstep : endpoint.advance label = some next) (heligible : endpoint.engine.eligible id = true)
    (hfits : endpoint.Fits id label) (hclean : Unrefused id endpoint) : Unrefused id next := by
  obtain ⟨hlive, hleft, hmeets⟩ := hfits
  simp only [advance, map_eq_some_iff] at hstep
  obtain ⟨⟨next, wire⟩, hstep, rfl⟩ := hstep
  obtain ⟨choice, pre, used, made, post, hs, -⟩ := step_steps hstep hmeets
  intro hterminal size op status hmem
  have hcontext := h.gapContext
  rw [hs.before] at hcontext
  rw [hs.after] at hmem
  by_contra hbad
  simp only [mem_append] at hmem
  rcases hmem with hmem | hmem | hmem
  · exact hbad (hclean hlive size op status (by simp [hs.before, hmem]))
  · rcases hs.move.settles_broken hcontext hs.guarded hterminal hmem
      (eq_false_of_ne_true hbad) with hgone | ⟨hspent, -⟩
    · exact eligible_not_gone hcontext.names.unique heligible hgone
    · simp [hleft] at hspent
  · exact hbad (hclean hlive size op status (by simp [hs.before, hmem]))

end Endpoint

open Endpoint

/-- Two published writes of stream `a`, and the writes settled in between by
steps that start with stream `b` eligible and another condition met. -/
inductive Between (config : Config) (holds : Endpoint → Label → Prop) (a b : Nat)
    (log : List (Nat × Bool)) : Prop where
  | intro {before after last final : Endpoint} {first second : Label} :
    Run config unrestricted before →
    before.settled first = [(a, true)] → before.advance first = some after →
    Traces advance (fun endpoint label => endpoint.engine.eligible b = true ∧ holds endpoint label)
      settled after log last →
    last.settled second = [(a, true)] → last.advance second = some final →
    Between config holds a b log

/-- Between two published writes of one stream, every other stream that stays
eligible has a write settled, and publishes one if its writes fit. -/
theorem eligible_stream_publishes_between {config : Config} {holds : Endpoint → Label → Prop}
    {a b : Nat} {log : List (Nat × Bool)} (h : Between config holds a b log) (hab : a ≠ b) :
    ((b, false) ∉ log → (b, true) ∈ log) ∧
      ((∀ endpoint label, holds endpoint label → endpoint.Fits b label) → (b, true) ∈ log) := by
  obtain ⟨hrun, hfirst, hafter, htrace, hsecond, hfinal⟩ := h
  have hstart := hfirst ▸ hrun.turns_step hafter
  have hreach := Reaches.tail hrun (meets_unrestricted _ _) hafter
  have hserved : (b, false) ∉ log → (b, true) ∈ log := by
    intro hrefused
    have hwaits := htrace.invariant (P := fun log endpoint => Run config unrestricted endpoint ∧
        ((∀ ok, (b, ok) ∉ log) → Turns.Step.Waits endpoint.turns a b))
      ⟨hreach, fun _ => hstart.waits_of_settles hab hrun.carried_eq⟩ ?_
    · have hcarried := (hsecond ▸ hwaits.1.turns_step hfinal).carries_of_settles
      by_contra hnone
      exact (hwaits.2 (Bool.forall_bool.mpr ⟨hrefused, hnone⟩)).1 hcarried
    rintro log before label after - ⟨hreach, hwaits⟩ ⟨heligible, -⟩ hstep
    refine ⟨.tail hreach (meets_unrestricted _ _) hstep, fun hlog => ?_⟩
    simp only [mem_append, not_or] at hlog
    exact (Run.turns_step hreach hstep).waits_kept heligible (fun ok => (hlog ok).2)
      (hwaits fun ok => (hlog ok).1)
  refine ⟨hserved, fun hfits => hserved ?_⟩
  -- the first step settled the only write on its way, so none of `b` waits to be settled
  have hclean : Unrefused b _ := fun _ size op status hmem => by
    have hcarried := hstart.settles_carried
    exact absurd (mem_flatMap.mpr ⟨_, hmem, mem_singleton_self b⟩) (hcarried ▸ not_mem_nil)
  refine (htrace.invariant (P := fun log endpoint => (b, false) ∉ log ∧
      Run config unrestricted endpoint ∧ Unrefused b endpoint)
    ⟨not_mem_nil, hreach, hclean⟩ ?_).1
  rintro log before label after - ⟨hlog, hreach, hclean⟩ ⟨heligible, hholds⟩ hstep
  have hfits := hfits before label hholds
  refine ⟨?_, .tail hreach (meets_unrestricted _ _) hstep,
    Run.unrefused_step hreach hstep heligible hfits hclean⟩
  rw [mem_append, not_or]
  exact ⟨hlog, hclean.settled hfits.1⟩

/-- Two publications of one thread, found by following labels. -/
theorem Between.of_follow (config : Config) (holds : Endpoint → Label → Prop)
    [∀ endpoint label, Decidable (holds endpoint label)] (labels between : List Label)
    (label : Label) {a b : Nat} {log : List (Nat × Bool)}
    (h : ((follow config unrestricted labels).bind fun before =>
      (before.advance label).bind fun after =>
      (runObserved advance (fun endpoint label => endpoint.engine.eligible b &&
        decide (holds endpoint label)) settled after between).map fun result =>
          (before.settled label, result.1, result.2.settled label,
            (result.2.advance label).isSome)) =
      some ([(a, true)], log, [(a, true)], true)) : Between config holds a b log := by
  obtain ⟨before, hbefore, h⟩ := bind_eq_some_iff.mp h
  obtain ⟨after, hafter, h⟩ := bind_eq_some_iff.mp h
  obtain ⟨⟨log, last⟩, htrace, h⟩ := map_eq_some_iff.mp h
  simp only [Prod.mk.injEq] at h
  obtain ⟨hfirst, rfl, hsecond, hfinal⟩ := h
  refine .intro (.of_follow hbefore) hfirst hafter (.of_runObserved (fun _ _ hcheck => ?_) htrace)
    hsecond (Option.get_mem hfinal)
  simpa using hcheck

/-- Streams 1 and 3 have two writes each when the connection's credit arrives,
in thread 12, which has just published the first write of stream 1. -/
def rivals (size : Nat) : List Label :=
  sampleStartup ++ ([(fromPeer 1 (.open 1 sampleOpen), 4), (fromPeer 2 (.open 3 sampleOpen), 4),
      (.call (.streamWrite 1 ⟨0, 100, 100⟩), 3), (.call (.streamWrite 1 ⟨0, 50, 50⟩), 3),
      (.call (.streamWrite 3 ⟨0, size, size⟩), 3), (.call (.streamWrite 3 ⟨0, 50, 50⟩), 3),
      (.call (.completePeerOpen 1 {}), 12), (.call (.completePeerOpen 3 {}), 12),
      (fromPeer 3 (.streamCredit 1 8192), 5), (fromPeer 4 (.streamCredit 3 8192), 5),
      (fromPeer 5 (.connectionCredit 8192), 10)].zipIdx 2).flatMap
    fun (call, thread) => call.1 :: runs thread call.2

theorem eligible_stream_publishes_between_rivals :
    ∃ log, Between { sampleConfig .server with limits := tightLimits } (Fits 3) 1 3 log ∧
      (3, true) ∈ log := by
  have h : Between { sampleConfig .server with limits := tightLimits } (Fits 3) 1 3 [(3, true)] :=
    .of_follow _ _ (rivals 3800) (runs 12 17) (.run 12 {}) (by decide +kernel)
  exact ⟨_, h, (eligible_stream_publishes_between h (by decide)).2 fun _ _ hfits => hfits⟩

/-- The first write of stream 3 is refused with its overhead.  The cursor has
moved on, and stream 1 publishes again although stream 3 has another write. -/
theorem refused_write_loses_its_turn :
    Admissible tightLimits ∧
    Between { sampleConfig .server with limits := tightLimits } (fun _ _ => True) 1 3
      [(3, false)] :=
  ⟨by decide, .of_follow _ _ (rivals 3900) (runs 12 15) (.run 12 {}) (by decide +kernel)⟩

end Yume.Session
