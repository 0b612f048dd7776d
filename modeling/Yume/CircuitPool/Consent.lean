/-
No route is shortened without consent.  Every length the pool uses is the
configured one, at least `minHops`, or at least the length of a proposal the
user accepted before, and only the proposal pending for the session and the
view in force can be accepted.
-/
import Yume.CircuitPool.Points

namespace Yume.CircuitPool

open Yume.Lib Pool List

section

variable {o : CircuitPoolOptions} {credentials : Credentials} {w : World} {p : Pool}
  {log : List Event} {event : Event}

namespace Lengths

section

variable (h : Lengths o p)
include h

theorem settle (waiter : Waiter) (outcome : Outcome) : Lengths o (p.settle waiter outcome) := by
  unfold Pool.settle
  split
  · exact (h.note (.settled waiter.call outcome) rfl nofun nofun trivial).push _
  · exact h

theorem openDirect (waiter : Waiter) (hone : p.currentHops = 1) :
    Lengths o (p.openDirect waiter) := by
  unfold Pool.openDirect
  split
  · exact h.settle _ _
  refine Lengths.ask (h.note (.streamed .direct p.currentHops) rfl nofun nofun ?_) rfl
  exact ⟨h.current.resolve_left (by omega), fun _ => hone, nofun⟩

theorem openOn {entry : Entry} (waiter : Waiter)
    (hne : p.currentHops ≠ 0) (hlength : entry.route.length = p.currentHops) :
    Lengths o (p.openOn entry waiter) := by
  unfold Pool.openOn
  split
  · refine Lengths.ask
      (h.note (.streamed (.circuit entry.route.length) p.currentHops) rfl nofun nofun ?_) rfl
    refine ⟨h.current.resolve_left hne, nofun, ?_⟩
    rintro length ⟨⟩
    exact hlength
  · exact h.settle _ _

theorem settleFront (now : Nat) (waiter : Waiter) (rest : List Waiter)
    (outcome : Outcome) : Lengths o (p.settleFront now waiter rest outcome) := by
  refine Lengths.settle (Lengths.push ?_ _) _ _
  exact h.frame rfl

theorem loop (now : Nat) : Lengths o (p.loop o credentials w now) := by
  unfold Pool.loop
  split
  · exact ((Kept.refl h).afterLoop now).lengths
  split
  · exact h.settleFront now _ _ _
  split
  · exact h.frame rfl
  rename_i hne
  split
  · rename_i hone
    refine Lengths.openDirect (Lengths.push ?_ _) _ hone
    exact h.frame rfl
  split
  · exact h.settleFront now _ _ _
  split
  · exact ((Kept.refl h).afterLoop now).lengths
  rename_i hfind
  have husable := find?_some hfind
  simp only [usable, Bool.and_eq_true, beq_iff_eq] at husable
  refine Lengths.openOn (Lengths.push ?_ _) _ hne husable.1.1
  exact h.frame rfl

theorem popFront : Lengths o p.popFront := by
  unfold Pool.popFront
  split
  · exact h.note .emptyPop rfl nofun nofun trivial
  rename_i waiter rest _
  have hrest : Lengths o { p with waiters := rest } := h.frame rfl
  split
  · exact hrest.note (.lost waiter.call) rfl nofun nofun trivial
  · exact hrest

theorem exec (task : Task) : Lengths o (p.exec o credentials w task) := by
  cases task with
  | outside => exact h
  | pump => exact (Kept.refl h).pump.lengths
  | settleAll waiters =>
    cases waiters with
    | nil => exact h
    | cons => exact (h.push _).settle _ _
  | resume => exact (Kept.refl h).resume.lengths
  | loop now => exact h.loop now
  | popFront => exact h.popFront

/-- A new generation: every build that runs belongs to an earlier one. -/
theorem advance : Lengths o { p with
    generation := p.generation + 1, building := false } := by
  have hnone : Pool.builds { p with generation := p.generation + 1, building := false } = 0 := by
    refine countP_eq_zero.mpr fun op hop => ?_
    simp only [beq_iff_eq]
    intro hfor
    have hle := h.older op hop _ hfor
    omega
  refine ⟨h.current, h.accepted, h.regained, ?_, ?_, by omega, fun _ => hnone, h.pending, h.history⟩
  · intro op hop generation hfor
    exact Nat.le_succ_of_le (h.older op hop generation hfor)
  intro op hop hfor
  have hle := h.older op hop _ hfor
  simp only at hle
  omega

theorem setSession (next : Option Nat) : Lengths o (p.setSession o next) := by
  unfold Pool.setSession
  split
  · exact h
  have hsession := h.discardProposal.advance.renew .session rfl discardProposal_proposal trivial
  refine Lengths.push ?_ _
  refine hsession.frame ?_
  unfold Pool.discardProposal
  split <;> rfl

theorem «open» (destination : Destination) (registered : Bool) :
    Lengths o (p.open destination registered) := by
  have hcalled : Lengths o { p with calls := p.calls + 1, log := .opened p.calls :: p.log } :=
    (h.note (.opened p.calls) rfl nofun nofun trivial).frame rfl
  unfold Pool.open
  split
  · refine Lengths.push ?_ _
    exact hcalled.frame rfl
  · exact hcalled.settle _ _

theorem close : Lengths o (p.close o) := by
  unfold Pool.close
  split
  · exact h
  have hclosed : Lengths o { p with closed := true } := h.frame rfl
  exact hclosed.discardProposal.frame rfl

theorem call (call : Call) : Lengths o (p.call o credentials w call) := by
  cases call with
  | setSession next => exact h.setSession next
  | «open» destination registered => exact h.open destination registered
  | accept id => exact ((Kept.refl h).accept id).lengths
  | close => exact h.close
  | tick =>
    unfold Pool.call
    dsimp only
    split
    · exact h
    · exact (Kept.refl h).maintain.lengths
  | posted => exact h.push _

/-- One move keeps what is built and used fitting its history. -/
theorem step {p' : Pool} {move : Move}
    (hstep : step o credentials p move = some p') : Lengths o p' := by
  cases moved_of_step hstep with
  | run =>
    refine Lengths.exec ?_ _
    exact h.frame rfl
  | back => exact h.frame rfl
  | call request => exact h.call request
  | complete reply hfree hop =>
    rename_i op
    cases hwaiter : op.waiter with
    | none => exact (Kept.completed h hop hwaiter reply).lengths
    | some =>
      rw [complete_waiter hwaiter]
      exact (h.take _).settle _ _

end

theorem start (o : CircuitPoolOptions) : Lengths o (start o) :=
  ⟨.inr (fits_configured _), .inl rfl, nofun, nofun, nofun, Nat.zero_le _, fun _ => rfl, nofun,
    trivial⟩

/-- Every pool that a run reaches, with any moves of its callers and providers. -/
theorem reached {ok : Pool → Move → Prop}
    (h : Reaches (CircuitPool.step o credentials) ok (CircuitPool.start o) p) : Lengths o p :=
  h.invariant (start o) fun _ _ _ _ hbefore _ hstep => hbefore.step hstep

end Lengths

theorem proposalCurrent_iff : p.proposalCurrent w = true ↔
    p.closed = false ∧ p.session ≠ none ∧ p.view = .ready ∧ p.chooser = true ∧
      w.wall < p.viewExpires ∧ ∃ q, p.proposal = some q ∧ q.serial = p.serial := by
  unfold proposalCurrent
  cases p.proposal <;> simp [and_assoc, Option.isSome_iff_ne_none]

/-- An accept succeeds exactly with the id of the proposal that is current. -/
theorem accept_succeeds_iff (id : Bytes) : (p.accept o w id).1 = true ↔
    p.proposalCurrent w = true ∧ ∃ q, p.proposal = some q ∧ q.id = id := by
  unfold accept
  split
  · rename_i hcurrent
    cases hproposal : p.proposal with
    | none => simp
    | some q => by_cases hid : q.id = id <;> simp [hid, hcurrent]
  rename_i hcurrent
  simp [hcurrent]

/-- A refused accept leaves the consent as it was, and at most gives up waiting
for it: a pool without a length goes back to the configured one. -/
theorem accept_refused {id : Bytes} (h : (p.accept o w id).1 = false) :
    (p.accept o w id).2.acceptedHops = p.acceptedHops ∧
      ((p.accept o w id).2.currentHops = p.currentHops ∨
        p.currentHops = 0 ∧ p.proposalCurrent w = false ∧
          (p.accept o w id).2.currentHops = o.hops) := by
  unfold accept at h ⊢
  split at h
  · rename_i hcurrent
    rw [if_pos hcurrent]
    split at h
    · rename_i q hq
      split at h
      · cases h
      rename_i hid
      simp [hid]
    · exact ⟨rfl, .inl rfl⟩
  rename_i hcurrent
  rw [if_neg hcurrent]
  unfold discardProposal
  split
  · rename_i hzero
    exact ⟨rfl, .inr ⟨hzero, by simpa using hcurrent, rfl⟩⟩
  · exact ⟨rfl, .inl rfl⟩

/-- An accept is refused and changes no length, exactly when the id is not that of a
current proposal and the pool is not one without a length and without a proposal. -/
theorem accept_keeps_iff (id : Bytes) :
    ((p.accept o w id).1 = false ∧ (p.accept o w id).2.acceptedHops = p.acceptedHops ∧
      (p.accept o w id).2.currentHops = p.currentHops) ↔
    ¬ (p.proposalCurrent w = true ∧ ∃ q, p.proposal = some q ∧ q.id = id) ∧
      (p.currentHops = 0 → p.proposalCurrent w = true) := by
  rw [← accept_succeeds_iff (o := o), Bool.not_eq_true]
  refine and_congr_right fun hrefused => ⟨fun hkept hzero => ?_, fun hcurrent => ?_⟩
  · by_contra hnone
    have hhops := o.two_le_hops
    have hlength := hkept.2
    simp [accept, hnone, discardProposal, hzero] at hlength
    omega
  · obtain ⟨haccepted, hsame⟩ := accept_refused hrefused
    refine ⟨haccepted, hsame.resolve_right fun ⟨hzero, hnone, _⟩ => ?_⟩
    rw [hcurrent hzero] at hnone
    cases hnone

/-- In every run, a stream goes through a circuit of exactly the length in use,
or directly when that is one hop, and the length is the configured one, at least
`minHops`, or at least that of a proposal accepted before.  An accept succeeds
only with the id of the pending proposal, which was made for the session, the
verified view and the serial in force, before that view expires.  A refused one
changes no consent and no length, but for a pool that has neither a length nor a
current proposal: it goes back to the configured one.  So any id, one of an earlier
session too, is refused and changes no length, exactly when it is not that of the
proposal which is current and the pool is not such a one. -/
theorem route_shortened_only_by_consent
    (h : Reaches (step o credentials) (fun _ _ => True) (start o) p) :
    (∀ later earlier via hops, p.log = later ++ .streamed via hops :: earlier →
      (via = .direct → hops = 1) ∧ (∀ length, via = .circuit length → length = hops) ∧
        (hops = o.hops ∨ o.minHops ≤ hops ∨ ∃ q, .accepted q ∈ earlier ∧ q.hops ≤ hops)) ∧
    (∀ w id, (p.accept o w id).1 = true → ∃ q, p.proposal = some q ∧ q.id = id ∧
      MadeIn q p.log ∧ q.serial = p.serial ∧ p.closed = false ∧ p.session ≠ none ∧
        p.view = .ready ∧ w.wall < p.viewExpires) ∧
    (∀ w id, (p.accept o w id).1 = false →
      (p.accept o w id).2.acceptedHops = p.acceptedHops ∧
        ((p.accept o w id).2.currentHops = p.currentHops ∨
          p.currentHops = 0 ∧ p.proposalCurrent w = false ∧
            (p.accept o w id).2.currentHops = o.hops)) ∧
    ∀ w id, ((p.accept o w id).1 = false ∧ (p.accept o w id).2.acceptedHops = p.acceptedHops ∧
        (p.accept o w id).2.currentHops = p.currentHops) ↔
      ¬ (p.proposalCurrent w = true ∧ ∃ q, p.proposal = some q ∧ q.id = id) ∧
        (p.currentHops = 0 → p.proposalCurrent w = true) := by
  have hlengths := Lengths.reached h
  refine ⟨?_, ?_, fun w id => accept_refused, fun w id => accept_keeps_iff id⟩
  · intro later earlier via hops hlog
    have hok := HistoryOk.at (hlog ▸ hlengths.history)
    exact ⟨hok.2.1, hok.2.2, hok.1.allowed⟩
  · intro w id haccept
    obtain ⟨hcurrent, q, hq, hid⟩ := (accept_succeeds_iff id).mp haccept
    obtain ⟨hclosed, hsession, hview, -, hwall, q', hq', hserial⟩ :=
      proposalCurrent_iff.mp hcurrent
    obtain rfl : q = q' := Option.some.inj (hq.symm.trans hq')
    exact ⟨q, hq, hid, hlengths.pending q hq, hserial, hclosed, hsession, hview, hwall⟩

end

/-- A pool of three hops that needs consent for fewer. -/
def sampleOptions : CircuitPoolOptions where
  hops := 3
  minHops := 3
  plainHttpAllowed := false
  rotation := 600000
  recheck := 300000
  attempts := 1
  tick := 30000
  two_le_hops := by decide
  hops_le_three := by decide
  one_le_minHops := by decide
  minHops_le := by decide
  attempts_pos := by decide
  tick_pos := by decide

def sampleCredentials : Credentials where
  digest := id
  entry := ⟨[101], [1]⟩

/-- A world that only has routes of two hops, at a time of the wall clock. -/
def twoHopWorld (wall : Nat) : World where
  now := 0
  wall := wall
  cancelled _ := false
  circuitClosed _ := false
  hasStreamCapacity _ := false
  streams _ := 0
  createsCircuit := true
  choose
    | 2 => some ⟨[⟨[101], [1]⟩, ⟨[102], [2]⟩], rfl⟩
    | _ => none

/-- A new session, its view with serial 7 that expires at 100, and the pump that
finds no route of three hops. -/
def proposingMoves (session wall : Nat) : List Move :=
  let w := twoHopWorld 0
  [.call w (.setSession (some session)), .run w, .run w, .run w, .complete w 0 .ok,
    .complete w 0 (.ended (.accepted 100 7 true)), .run w, .run w, .run w,
    .run (twoHopWorld wall), .run w, .back, .back]

/-- What a test finds at the end of a run of the sample pool. -/
theorem reached_of_sampleRun (moves : List Move) (test : Pool → Bool)
    (h : (runChecked (step sampleOptions sampleCredentials) (fun _ _ => true)
      (start sampleOptions) moves).any test = true) :
    ∃ p, Reaches (step sampleOptions sampleCredentials) (fun _ _ => True)
      (start sampleOptions) p ∧ test p = true :=
  Reaches.exists_of_runChecked (fun _ _ _ => trivial) moves test h

/-- The proposal that both sessions of the sample make. -/
def sampleProposal : RouteProposal where
  id := proposalId id 2 [⟨[101], [1]⟩, ⟨[102], [2]⟩] 7
  hops := 2
  serial := 7
  nodes := [[101], [102]]

/-- The proposal was made, and a session began after it. -/
def earlierSession (p : Pool) : Bool :=
  (p.log.dropWhile (· != .session)).tail.contains (.proposed sampleProposal)

/-- The id of an earlier session's proposal: refused after the view expired it
gives the pool its configured length back, and it is accepted when the same
proposal is pending again, since the session is not part of it. -/
theorem earlier_id_changes_length :
    (∃ p, Reaches (step sampleOptions sampleCredentials) (fun _ _ => True)
        (start sampleOptions) p ∧ earlierSession p = true ∧
      (p.accept sampleOptions (twoHopWorld 200) sampleProposal.id).1 = false ∧ p.currentHops = 0 ∧
      (p.accept sampleOptions (twoHopWorld 200) sampleProposal.id).2.currentHops = 3) ∧
    ∃ p, Reaches (step sampleOptions sampleCredentials) (fun _ _ => True)
        (start sampleOptions) p ∧ earlierSession p = true ∧
      (p.accept sampleOptions (twoHopWorld 0) sampleProposal.id).1 = true ∧
      (p.accept sampleOptions (twoHopWorld 0) sampleProposal.id).2.currentHops = 2 := by
  constructor
  · obtain ⟨p, hreach, hcheck⟩ := reached_of_sampleRun
      (proposingMoves 1 0 ++ proposingMoves 2 200)
      (fun p => decide (earlierSession p = true ∧
        (p.accept sampleOptions (twoHopWorld 200) sampleProposal.id).1 = false ∧
        p.currentHops = 0 ∧
        (p.accept sampleOptions (twoHopWorld 200) sampleProposal.id).2.currentHops = 3))
      (by decide)
    exact ⟨p, hreach, of_decide_eq_true hcheck⟩
  obtain ⟨p, hreach, hcheck⟩ := reached_of_sampleRun
    (proposingMoves 1 0 ++ proposingMoves 2 0)
    (fun p => decide (earlierSession p = true ∧
      (p.accept sampleOptions (twoHopWorld 0) sampleProposal.id).1 = true ∧
      (p.accept sampleOptions (twoHopWorld 0) sampleProposal.id).2.currentHops = 2))
    (by decide)
  exact ⟨p, hreach, of_decide_eq_true hcheck⟩

/-- A run in which the proposal is pending: its id is accepted as one made in the run,
and any other id is refused and changes no length. -/
theorem route_shortened_only_by_consent_sample :
    ∃ p : Pool, p.proposal = some sampleProposal ∧ MadeIn sampleProposal p.log ∧
      ∀ id, id ≠ sampleProposal.id → (p.accept sampleOptions (twoHopWorld 0) id).1 = false ∧
        (p.accept sampleOptions (twoHopWorld 0) id).2.currentHops = p.currentHops := by
  obtain ⟨p, hreach, hcheck⟩ := reached_of_sampleRun (proposingMoves 1 0)
    (fun p => decide (p.proposal = some sampleProposal ∧
      p.proposalCurrent (twoHopWorld 0) = true ∧
      (p.accept sampleOptions (twoHopWorld 0) sampleProposal.id).1 = true))
    (by decide)
  obtain ⟨hproposal, hcurrent, haccept⟩ := of_decide_eq_true hcheck
  obtain ⟨-, hmade, -, hkept⟩ := route_shortened_only_by_consent hreach
  obtain ⟨q, hq, -, hmade, -⟩ := hmade _ _ haccept
  obtain rfl : sampleProposal = q := Option.some.inj (hproposal.symm.trans hq)
  refine ⟨p, hproposal, hmade, fun id hother => ?_⟩
  obtain ⟨hrefused, -, hlength⟩ := (hkept (twoHopWorld 0) id).mpr
    ⟨by simp [hproposal, Ne.symm hother], fun _ => hcurrent⟩
  exact ⟨hrefused, hlength⟩

section

variable {o : CircuitPoolOptions} {credentials : Credentials} {p : Pool}

/-- A takeover by the configured length stays in force until the next accept. -/
theorem restored_append {later earlier : List Event} {hops before : Nat} {probe : Bool}
    (hconfigured : hops = o.hops) (hover : probe = true ∨ before < hops)
    (hnone : ∀ q, .accepted q ∉ later) :
    restored o (later ++ .built hops probe before :: earlier) = true := by
  induction later with
  | nil => simp [restored, hconfigured, hconfigured ▸ hover]
  | cons event later ih =>
    simp only [mem_cons, not_or] at hnone
    have hrest := ih fun q => (hnone q).2
    cases event with
    | accepted q => exact absurd rfl (hnone q).1
    | built => simp [restored, hrest]
    | _ => exact hrest

/-- Once a circuit of the configured length was built by a probe, or while a
shorter length was in use, the consent to a shorter one is gone until the next
accept: no stream is opened with fewer than `minHops` hops. -/
theorem consent_ends_when_length_restored
    (h : Reaches (step o credentials) (fun _ _ => True) (start o) p)
    {later earlier : List Event} {hops before : Nat} {probe : Bool}
    (hlog : p.log = later ++ .built hops probe before :: earlier)
    (hconfigured : hops = o.hops) (hover : probe = true ∨ before < hops)
    (hnone : ∀ q, .accepted q ∉ later) :
    p.acceptedHops = 0 ∧ ∀ via used, .streamed via used ∈ later → o.minHops ≤ used := by
  have hlengths := Lengths.reached h
  constructor
  · exact hlengths.regained (hlog ▸ restored_append hconfigured hover hnone)
  intro via used hmem
  obtain ⟨newer, older, rfl⟩ := append_of_mem hmem
  have hhistory : HistoryOk o (newer ++ .streamed via used ::
      (older ++ .built hops probe before :: earlier)) := by
    have := hlengths.history
    rwa [hlog, append_assoc, cons_append] at this
  refine hhistory.at.1.restored (restored_append hconfigured hover fun q hq => ?_)
  exact hnone q (mem_append_right _ (mem_cons_of_mem _ hq))

end

/-- A world with routes of three hops. -/
def threeHopWorld : World :=
  { twoHopWorld 0 with
    hasStreamCapacity := fun _ => true
    choose := fun
      | 3 => some ⟨[⟨[101], [1]⟩, ⟨[103], [3]⟩, ⟨[102], [2]⟩], rfl⟩
      | _ => none }

/-- The user accepts the proposal, and no circuit of two hops can be built. -/
def acceptedMoves : List Move :=
  let w := twoHopWorld 0
  [.call w (.accept sampleProposal.id), .run w, .run w, .run w, .run w,
    .complete w 0 (.failed ""), .run w, .back]

/-- In a new session a circuit of three hops is built by an ordinary build. -/
def ordinaryMoves : List Move :=
  let w := threeHopWorld
  [.call w (.setSession (some 2)), .run w, .run w, .run w, .complete w 0 .ok,
    .complete w 0 (.ended (.accepted 100 7 true)), .run w, .run w, .run w, .run w,
    .complete w 0 .ok, .complete w 0 .ok, .run w, .run w, .run w, .run w]

/-- That circuit ends, only two hops can be built, and a stream is opened. -/
def shortenedMoves : List Move :=
  let w := { twoHopWorld 0 with circuitClosed := fun circuit => circuit == 0 }
  let w' := { w with hasStreamCapacity := fun _ => true }
  [.back, .back, .back, .back, .call w .posted, .run w, .run w, .run w, .run w,
    .complete w 0 .ok, .complete w 0 .ok, .run w', .run w', .run w', .run w', .back, .back,
    .call w' (.open ⟨443, true⟩ true), .run w', .run w', .run w', .run w']

/-- After an accept of two hops, the length goes back to three when a pending
proposal of one hop is discarded.  The ordinary build of three hops then leaves
the consent in force, and a later stream uses two hops without a new one. -/
theorem ordinary_build_keeps_consent :
    ∃ p later earlier, Reaches (step sampleOptions sampleCredentials) (fun _ _ => True)
        (start sampleOptions) p ∧
      p.log = later ++ .built 3 false 3 :: earlier ∧ .accepted sampleProposal ∈ earlier ∧
      (∀ q, .accepted q ∉ later) ∧ p.acceptedHops = 2 ∧ .streamed (.circuit 2) 2 ∈ later := by
  obtain ⟨p, hreach, hcheck⟩ := reached_of_sampleRun
    (proposingMoves 1 0 ++ acceptedMoves ++ ordinaryMoves ++ shortenedMoves)
    (fun p => decide (p.log = [.streamed (.circuit 2) 2, .opened 0, .built 2 false 2] ++
        .built 3 false 3 :: p.log.drop 4 ∧ .accepted sampleProposal ∈ p.log.drop 4 ∧
      p.acceptedHops = 2))
    (by decide)
  obtain ⟨hlog, haccepted, htwo⟩ := of_decide_eq_true hcheck
  exact ⟨p, _, _, hreach, hlog, haccepted, by simp, htwo, by simp⟩

/-- The probe of the configured length, while two hops are in use. -/
def probeMoves : List Move :=
  let w := twoHopWorld 0
  let w' := { threeHopWorld with now := 300000 }
  [.call w (.accept sampleProposal.id), .run w, .run w, .run w, .run w, .complete w 0 .ok,
    .complete w 0 .ok, .run w', .run w', .run w', .run w', .back, .back, .call w' .tick,
    .complete w' 0 .ok, .complete w' 0 .ok]

theorem consent_ends_when_length_restored_sample :
    ∃ p : Pool, p.log.head? = some (.built 3 true 2) ∧ p.acceptedHops = 0 := by
  obtain ⟨p, hreach, hcheck⟩ := reached_of_sampleRun (proposingMoves 1 0 ++ probeMoves)
    (fun p => decide (p.log = [] ++ .built 3 true 2 :: p.log.tail)) (by decide)
  have hlog := of_decide_eq_true hcheck
  refine ⟨p, by rw [hlog]; rfl, ?_⟩
  exact (consent_ends_when_length_restored hreach hlog rfl (.inl rfl)
    fun _ => not_mem_nil).1

end Yume.CircuitPool
