/-
The receive side: the records one session opens, their sequence numbers, and
the stream IDs its peer's OPENs claim.
-/
import Yume.Session.Names

namespace Yume.Session

open Yume.Lib Engine List

namespace Record

/-- The stream an OPEN opens. -/
def openIds : Record → List Nat
  | .open id _ => [id]
  | _ => []

end Record

/-- The streams a record log opens, in its order. -/
def openIds (log : List (RecordKeyToken × Record)) : List Nat :=
  log.flatMap fun entry => entry.2.openIds

theorem mem_openIds {log : List (RecordKeyToken × Record)} {id : Nat} :
    id ∈ openIds log ↔ ∃ entry ∈ log, id ∈ entry.2.openIds := mem_flatMap

theorem openIds_append (log log' : List (RecordKeyToken × Record)) :
    openIds (log ++ log') = openIds log ++ openIds log' := flatMap_append

/-- The carrier record a section is about to process. -/
def Call.arriving : Call → List Wire
  | .processReceived wire => [wire]
  | _ => []

/-- The peer's OPEN a section is about to process. -/
def Call.opening : Call → List Nat
  | .processOpen id _ => [id]
  | _ => []

/-- What a section does to the received records. -/
inductive ArrivalChange (e : Engine) (call : Call) (e' : Engine)
    (made : List Call) : Prop where
  | quiet : e'.history.opened = e.history.opened →
    e'.inbound.nextSequence = e.inbound.nextSequence →
    e'.inbound.sequenceExhausted = e.inbound.sequenceExhausted →
    made.flatMap Call.opening = [] → ArrivalChange e call e' made
  | failed {token body status} : call = .processReceived (.sealed token body) →
    e.acceptsToken token = true → e' = e.consumeToken token →
    made = receiveFailed status → ArrivalChange e call e' made
  | opened {token body} : call = .processReceived (.sealed token body) →
    e.terminal = false → e.acceptsToken token = true →
    e.opens token body = true →
    e' = e.openedRecord token body.plaintext →
    made = dispatch e.state body.plaintext → ArrivalChange e call e' made

theorem dispatch_opening (state : SessionState) (record : Record) :
    (dispatch state record).flatMap Call.opening = [] ∨
      (dispatch state record).flatMap Call.opening = record.openIds := by
  cases record <;> simp only [dispatch] <;> split <;>
    first | exact .inl rfl | exact .inr rfl

section Step

variable {e e' : Engine} {choice : Choice} {call : Call} {pre used made post : List Call}

/-- Only `process_received` leaves an OPEN behind. -/
theorem Effect.opening_nil (h : Effect e choice call e' made)
    (hcall : call.name ≠ .processReceived) : made.flatMap Call.opening = [] :=
  h.flatMap_nil fun left hleft => by
    cases left <;> first
      | rfl
      | (cases call <;> first | exact absurd rfl hcall | cases hleft)

/-- No section leaves a carrier record to be processed. -/
theorem Effect.arriving_nil (h : Effect e choice call e' made) : made.flatMap Call.arriving = [] :=
  h.flatMap_nil fun left hleft => by
    cases left <;> first | rfl | (cases call <;> cases hleft)

theorem Effect.arrivals (h : Effect e choice call e' made) : ArrivalChange e call e' made := by
  have hnone := h.opening_nil
  cases h with
  | idle | receiveFailing | receiveExpires | receivesAck => exact .quiet rfl rfl rfl rfl
  | openFails _ haccepts => exact .failed rfl haccepts rfl rfl
  | openSucceeds hlive haccepts hopens =>
    exact .opened rfl hlive haccepts hopens rfl rfl
  | _ => exact .quiet rfl rfl rfl (hnone nofun)

/-- The opened records have increasing sequence numbers below the next one. -/
structure ArrivalLog (e : Engine) : Prop where
  sorted : e.history.opened.Pairwise fun a b => a.1.sequence < b.1.sequence
  below : ∀ entry ∈ e.history.opened, entry.1.sequence < e.inbound.nextSequence ∨
      (e.inbound.sequenceExhausted = true ∧ entry.1.sequence ≤ e.inbound.nextSequence)

/-- A consumed sequence number lies below the next one, or was the last. -/
theorem consumeToken_below (token : RecordKeyToken) :
    e.inbound.nextSequence < (e.consumeToken token).inbound.nextSequence ∨
      ((e.consumeToken token).inbound.sequenceExhausted = true ∧
        e.inbound.nextSequence ≤ (e.consumeToken token).inbound.nextSequence) := by
  simp only [consumeToken]
  split
  · exact .inr ⟨rfl, Nat.le_refl _⟩
  · exact .inl (Nat.lt_succ_self _)

theorem countInbound_sequence (previous : Bool) (record : Record) :
    (e.countInbound previous record).inbound.nextSequence = e.inbound.nextSequence ∧
      (e.countInbound previous record).inbound.sequenceExhausted = e.inbound.sequenceExhausted := by
  dsimp only [countInbound]
  split
  · exact ⟨rfl, rfl⟩
  · split <;> exact ⟨rfl, rfl⟩

theorem openedRecord_sequence (token : RecordKeyToken) (record : Record) :
    (e.openedRecord token record).inbound.nextSequence =
        (e.consumeToken token).inbound.nextSequence ∧
      (e.openedRecord token record).inbound.sequenceExhausted =
        (e.consumeToken token).inbound.sequenceExhausted :=
  countInbound_sequence _ _

theorem acceptsToken_sequence {token : RecordKeyToken} (h : e.acceptsToken token = true) :
    e.inbound.sequenceExhausted = false ∧ token.sequence = e.inbound.nextSequence := by
  simp only [acceptsToken, Bool.and_eq_true, Bool.not_eq_true', beq_iff_eq] at h
  exact ⟨h.1.1, h.2⟩

theorem ArrivalChange.log (hchange : ArrivalChange e call e' made)
    (h : ArrivalLog e) : ArrivalLog e' := by
  cases hchange with
  | quiet hopened hnext hexhausted =>
    obtain ⟨h1, h2⟩ := h
    constructor <;> simp only [hopened, hnext, hexhausted]
    · exact h1
    · exact h2
  | failed _ haccepts he' =>
    subst he'
    obtain ⟨hfree, -⟩ := acceptsToken_sequence haccepts
    refine ⟨h.sorted, fun entry hentry => ?_⟩
    have hbelow := h.below entry hentry
    simp only [hfree, Bool.false_eq_true, false_and, or_false] at hbelow
    rcases consumeToken_below (e := e) ‹_› with hlt | ⟨hlast, hle⟩
    · exact .inl (by omega)
    · exact .inr ⟨hlast, by omega⟩
  | @opened token body _ _ haccepts _ he' =>
    subst he'
    obtain ⟨hfree, hsequence⟩ := acceptsToken_sequence haccepts
    have hbelow : ∀ entry ∈ e.history.opened,
        entry.1.sequence < e.inbound.nextSequence := fun entry hentry => by
      simpa [hfree] using h.below entry hentry
    refine ⟨pairwise_append.mpr ⟨h.sorted, pairwise_singleton _ _, ?_⟩, fun entry hentry => ?_⟩
    · intro entry hentry last hlast
      rw [mem_singleton.mp hlast]
      exact hsequence ▸ hbelow entry hentry
    have hle : entry.1.sequence ≤ e.inbound.nextSequence := by
      rcases mem_append.mp hentry with hentry | hentry
      · exact Nat.le_of_lt (hbelow entry hentry)
      rw [mem_singleton.mp hentry]
      exact Nat.le_of_eq hsequence
    rw [(openedRecord_sequence token body.plaintext).1,
      (openedRecord_sequence token body.plaintext).2]
    rcases consumeToken_below (e := e) token with hlt | ⟨hlast, hle'⟩
    · exact .inl (by omega)
    · exact .inr ⟨hlast, by omega⟩

/-- The stream IDs of the opened OPENs end with the one still to be processed,
and the last processed one is among the others. -/
def PeerOpens (e : Engine) (frames : List Call) : Prop :=
  ∃ done, openIds e.history.opened = done ++ frames.flatMap Call.opening ∧
    (e.lastPeerStreamId = 0 ∨ e.lastPeerStreamId ∈ done)

theorem Call.opening_eq_nil (h : call.receiveRole = 0) : call.opening = [] := by
  cases call <;> first | rfl | cases h

theorem NameChange.lastPeer (h : NameChange e call e' made) :
    e'.lastPeerStreamId = e.lastPeerStreamId ∨
      ∃ id request, call = .processOpen id request ∧ e'.lastPeerStreamId = id := by
  cases h with
  | quiet _ hview | opened _ _ _ hview | inserted _ _ hview =>
    exact .inl (congrArg NameView.lastPeer hview)
  | claimed hcall _ _ hview =>
    exact .inr ⟨_, _, hcall, congrArg NameView.lastPeer hview⟩

/-- A section that is no OPEN of the peer leaves the claims as they are. -/
theorem PeerOpens.of_quiet (h : PeerOpens e (pre ++ (used ++ post)))
    (hopened : e'.history.opened = e.history.opened)
    (hlast : e'.lastPeerStreamId = e.lastPeerStreamId)
    (hmade : made.flatMap Call.opening = used.flatMap Call.opening) :
    PeerOpens e' (pre ++ (made ++ post)) := by
  obtain ⟨done, h1, h2⟩ := h
  refine ⟨done, ?_, hlast ▸ h2⟩
  simpa only [flatMap_append, hmade, hopened] using h1

theorem Effect.peerOpens_kept (heffect : Effect e choice call e' made)
    (hnames : NameInv e (pre ++ ([call] ++ post))) (hcoded : call.Coded)
    (hroles : RoleInv e (pre ++ ([call] ++ post)))
    (h : PeerOpens e (pre ++ ([call] ++ post))) :
    PeerOpens e' (pre ++ (made ++ post)) := by
  have hlast := (heffect.names hnames.unique hcoded).lastPeer
  have hstays : call.name ≠ .processOpen →
      e'.lastPeerStreamId = e.lastPeerStreamId := fun hcall => by
    rcases hlast with hlast | ⟨_, _, rfl, _⟩
    · exact hlast
    · exact absurd rfl hcall
  cases heffect.arrivals with
  | quiet hsame _ _ hmade =>
    by_cases hcall : call.opening = []
    · refine h.of_quiet hsame (hstays ?_) (by simp [hmade, hcall])
      rintro hname
      cases call <;> first | (cases hname; done) | cases hcall
    obtain ⟨id, request, rfl⟩ : ∃ id request, call = .processOpen id request := by
      cases call <;> first | exact ⟨_, _, rfl⟩ | exact absurd rfl hcall
    obtain ⟨done, hopened, hdone⟩ := h
    obtain ⟨hpre, hpost⟩ := hroles.beside_receive rfl fun _ => Call.opening_eq_nil
    simp only [flatMap_append, flatMap_singleton, hpre, hpost,
      Call.opening, nil_append, append_nil] at hopened
    refine ⟨done ++ [id], ?_, ?_⟩
    · simp [flatMap_append, hpre, hpost, hmade, hsame, hopened]
    rcases hlast with hlast | ⟨_, _, hcall, hlast⟩
    · rw [hlast]
      exact hdone.imp_right (mem_append_left _)
    cases hcall
    exact .inr (hlast ▸ mem_append_right _ mem_cons_self)
  | failed hcall _ he' hmade =>
    subst hcall he' hmade
    exact h.of_quiet rfl rfl rfl
  | @opened token body hcall _ _ _ he' hmade =>
    subst hcall he' hmade
    obtain ⟨done, hopened, hdone⟩ := h
    obtain ⟨hpre, hpost⟩ := hroles.beside_receive rfl fun _ => Call.opening_eq_nil
    simp only [flatMap_append, flatMap_singleton, hpre, hpost, Call.opening, append_nil] at hopened
    have hlog : openIds (e.openedRecord token body.plaintext).history.opened =
        done ++ body.plaintext.openIds := by
      rw [← hopened]
      exact (openIds_append _ _).trans (by simp [openIds])
    rcases dispatch_opening e.state body.plaintext with hnone | hone
    · refine ⟨done ++ body.plaintext.openIds, ?_, hdone.imp_right (mem_append_left _)⟩
      simpa [flatMap_append, hpre, hpost, hnone] using hlog
    refine ⟨done, ?_, hdone⟩
    simpa [flatMap_append, hpre, hpost, hone] using hlog

theorem Move.peerOpens_kept {emitted taken : Option Wire}
    (hmove : Move e choice used e' made emitted taken)
    (hnames : NameInv e (pre ++ (used ++ post)))
    (hcoded : ∀ call ∈ used, call.Coded)
    (hroles : RoleInv e (pre ++ (used ++ post)))
    (h : PeerOpens e (pre ++ (used ++ post))) :
    PeerOpens e' (pre ++ (made ++ post)) := by
  cases hmove with
  | run heffect =>
    exact heffect.peerOpens_kept hnames (hcoded _ mem_cons_self) hroles h
  | call hcallable =>
    refine h.of_quiet rfl rfl ?_
    have hneutral := callable_neutral hcallable
    cases ‹Call› <;> first | rfl | cases hneutral
  | _ => exact h.of_quiet rfl rfl rfl

theorem Move.arrivalLog_kept {emitted taken : Option Wire}
    (hmove : Move e choice used e' made emitted taken) (h : ArrivalLog e) :
    ArrivalLog e' := by
  cases hmove with
  | run heffect => exact heffect.arrivals.log h
  | _ => exact ⟨h.sorted, h.below⟩

end Step

/-- In every run records are opened in the order of their sequence numbers. -/
theorem Endpoint.Run.arrivals {config : Config} {guard : Guard}
    {endpoint : Endpoint} (h : Endpoint.Run config guard endpoint) :
    ArrivalLog endpoint.engine :=
  Run.invariant (P := fun e _ => ArrivalLog e) (K := fun _ _ => True)
    (fun _ _ => trivial) ⟨.nil, by simp [initial]⟩
    (fun _ _ hinv hmove _ => hmove.arrivalLog_kept hinv) h

theorem Endpoint.Run.peerOpens {config : Config} {guard : Guard}
    {endpoint : Endpoint} (h : Endpoint.Run config guard endpoint) :
    PeerOpens endpoint.engine endpoint.frames :=
  Run.invariant (K := fun e frames => NameInv e frames ∧ RoleInv e frames ∧
      ∀ call ∈ frames, call.Coded)
    (fun _ hrun => ⟨hrun.names, hrun.roles, hrun.coded⟩)
    ⟨[], rfl, .inl rfl⟩
    (fun hknown _ hinv hmove _ => hmove.peerOpens_kept hknown.1
      (fun call hcall => hknown.2.2 call (by simp [hcall])) hknown.2.1 hinv) h

end Yume.Session
