/-
A token that was consumed without a queued record ends the session.  The
failing sender releases the record-order lock before it fails the session, so
this needs that nobody takes a token in between.
-/
import Mathlib.Data.List.Nodup
import Yume.Session.Failure
import Yume.Session.Tokens

namespace Yume.Session

open Yume.Lib Call Engine List

/-- Does this section take a token? -/
def Call.takesToken : Call → Bool
  | .takeToken request _ => request.protect
  | _ => false

/-- No token is taken while a sender that lost its token has still to fail the
session. -/
def noTokenAfterLoss : Guard := fun _ _ call others =>
  call.takesToken = true → others.any losesToken = false

instance (engine : Engine) (choice : Choice) (call : Call)
    (others : List Call) :
    Decidable (noTokenAfterLoss engine choice call others) :=
  inferInstanceAs (Decidable (_ → _))

section Loss

variable {e e' : Engine} {choice : Choice} {call : Call} {pre made post : List Call}

theorem Owner.resume_loses (owner : Owner) (request : Request)
    (status : Status) (admission : QueueAdmission) :
    (owner.resume request status admission).any losesToken = false := by
  cases owner <;> simp only [Owner.resume] <;> (repeat' split) <;> rfl

theorem dispatch_loses (state : SessionState) (record : Record) :
    (dispatch state record).any losesToken = false := by
  cases record <;> simp only [dispatch] <;> split <;> rfl

/-- Only a failed seal loses a token. -/
theorem Effect.loses (h : Effect e choice call e' made) :
    (∃ r o token status, r.protect = true ∧ call = .sealFrame r o token ∧
      made = [.tokenLost r o status]) ∨ made.any losesToken = false := by
  cases h with
  | @sealLost r =>
    cases hp : r.protect
    · exact .inr (by simp [losesToken, hp])
    · exact .inl ⟨_, _, _, _, hp, rfl, rfl⟩
  | enqueueRefused | admitLeaves | deferLeaves | deferPushLeaves | deferPushes | tokenLeaves
  | tokenUnadmitted | tokenExhausted | publishStopped | publishes | tokenFails | bareLost =>
    exact .inr (Owner.resume_loses ..)
  | openSucceeds => exact .inr (dispatch_loses _ _)
  | _ => exact .inr rfl

/-- A section without the record-order lock loses no token. -/
theorem Effect.loses_unlocked (h : Effect e choice call e' made)
    (hlock : call.lockRole = 0) : made.any losesToken = false := by
  rcases h.loses with ⟨_, _, _, _, hprotect, rfl, rfl⟩ | hmade
  · simp [lockRole, hprotect] at hlock
  · exact hmade

/-- The sender that lost its token fails the session. -/
theorem Effect.loss_terminal (h : Effect e choice call e' made)
    (hloses : call.losesToken = true) : e'.terminal = true := by
  cases h with
  | idle hc | receiveFailing hc => cases call <;> first | cases hloses | cases hc
  | tokenFails => exact fail_terminal _ _
  | bareLost hbare => exact absurd hloses (by simp [losesToken, hbare])
  | _ => cases hloses

/-- Every taken token is queued or held, until one is lost.  Then nothing is
queued any more. -/
structure TokenKept (e : Engine) (frames : List Call) : Prop where
  queued : e.history.queued <+: e.history.committed
  whole : e.terminal = false → frames.any losesToken = false →
    e.history.committed = e.history.queued ++ frames.flatMap unqueued
  lost : e.terminal = false → frames.any losesToken = true → frames.flatMap unqueued = []

theorem TokenKept.of_quiet (h : TokenKept e (pre ++ ([call] ++ post)))
    (hcommitted : e'.history.committed = e.history.committed)
    (hqueued : e'.history.queued = e.history.queued)
    (hunqueued : made.flatMap unqueued = call.unqueued)
    (hterminal : e'.terminal = false → e.terminal = false)
    (hloses : e'.terminal = false → call.losesToken = false)
    (hmade : made.any losesToken = false) :
    TokenKept e' (pre ++ (made ++ post)) := by
  obtain ⟨h1, h2, h3⟩ := h
  simp only [any_append, any_cons, any_nil, Bool.or_false,
    flatMap_append, flatMap_singleton] at h2 h3
  refine ⟨hcommitted ▸ hqueued ▸ h1, fun ht hl => ?_, fun ht hl => ?_⟩ <;>
    simp only [any_append, hmade, Bool.false_or] at hl <;>
    simp only [flatMap_append, hunqueued]
  · rw [hcommitted, hqueued]
    exact h2 (hterminal ht) (by rw [hloses ht, Bool.false_or]; exact hl)
  · exact h3 (hterminal ht) (by rw [hloses ht, Bool.false_or]; exact hl)

/-- One section keeps the account, if no token is taken after a loss. -/
theorem Effect.token_kept (heffect : Effect e choice call e' made)
    (hroles : RoleInv e (pre ++ ([call] ++ post)))
    (hguard : noTokenAfterLoss e choice call (pre ++ post))
    (h : TokenKept e (pre ++ ([call] ++ post))) :
    TokenKept e' (pre ++ (made ++ post)) := by
  have hterminal := (Move.run heffect).live_before
  have hloses : e'.terminal = false → call.losesToken = false := fun ht =>
    eq_false_of_ne_true fun hlost => by
      simp [heffect.loss_terminal hlost] at ht
  cases heffect.tokens with
  | quiet hview _ hunqueued =>
    have hc := congrArg TokenView.committed hview
    have hq := congrArg TokenView.queued hview
    rcases heffect.loses with ⟨_, _, _, _, hprotect, rfl, rfl⟩ | hmade
    · simp [unqueued, hprotect] at hunqueued
    · exact h.of_quiet hc hq hunqueued hterminal hloses hmade
  | @take r r' o hlive hprotect _ hprotect' hrecord hview hcall hmade =>
    subst hcall hmade
    obtain ⟨-, h2, -, h4⟩ := tokens_beside_lock hroles
      (by simp [lockRole, hprotect])
    have hnone := hguard hprotect
    rw [any_append] at hnone
    have hcommitted := h.whole hlive (by simpa [losesToken] using hnone)
    simp only [flatMap_append, flatMap_singleton, h2, h4, unqueued, append_nil] at hcommitted
    have hc : e'.history.committed = e.history.committed ++
        [(⟨e.outbound.epoch, e.outbound.nextSequence⟩, r.record)] :=
      congrArg TokenView.committed hview
    have hq : e'.history.queued = e.history.queued :=
      congrArg TokenView.queued hview
    refine ⟨?_, fun _ _ => ?_, fun _ hl => ?_⟩
    · rw [hc, hq]
      exact h.queued.trans (prefix_append _ _)
    · simp only [hc, hq, hcommitted, flatMap_append,
        flatMap_singleton, h2, h4, unqueued, hprotect', hrecord,
        if_true, append_nil, nil_append]
      rfl
    · simp [losesToken, hnone, any_append] at hl
  | @sealing r o token hprotect hmade hview hcall =>
    subst hcall
    obtain ⟨-, h2, -, h4⟩ := tokens_beside_lock hroles
      (by simp [lockRole, hprotect])
    have hc : e'.history.committed = e.history.committed :=
      congrArg TokenView.committed hview
    have hq : e'.history.queued = e.history.queued :=
      congrArg TokenView.queued hview
    rcases hmade with ⟨_, _, rfl⟩ | ⟨_, rfl⟩
    · exact h.of_quiet hc hq (by simp [unqueued]) hterminal hloses rfl
    refine ⟨hc ▸ hq ▸ h.queued, fun _ hl => ?_, fun _ _ => ?_⟩
    · simp [losesToken, hprotect] at hl
    · simp [h2, h4, unqueued]
  | @enqueue r o token wire size hlive hprotect _ hunqueued hview hcall =>
    subst hcall
    obtain ⟨-, h2, -, h4⟩ := tokens_beside_lock hroles
      (by simp [lockRole, hprotect])
    have hc : e'.history.committed = e.history.committed :=
      congrArg TokenView.committed hview
    have hq : e'.history.queued = e.history.queued ++ [(token, r.record)] :=
      congrArg TokenView.queued hview
    have hheld : (pre ++ ([publish r o token wire size] ++ post)).flatMap
        unqueued = [(token, r.record)] := by
      simp only [flatMap_append, flatMap_singleton, h2, h4,
        unqueued, hprotect, if_true, append_nil, nil_append]
    have hnone : (pre ++ ([publish r o token wire size] ++ post)).any losesToken = false :=
      eq_false_of_ne_true fun hl =>
        cons_ne_nil _ _ (hheld.symm.trans (h.lost hlive hl))
    have hcommitted := h.whole hlive hnone
    rw [hheld] at hcommitted
    refine ⟨?_, fun _ _ => ?_, fun _ _ => ?_⟩
    · rewrite [hc, hq, hcommitted]
      exact prefix_rfl
    · rw [hc, hq, hcommitted]
      simp only [flatMap_append, h2, h4, hunqueued, append_nil]
    · simp only [flatMap_append, h2, h4, hunqueued, append_nil]
  | @drop r o token wire size hcause hview _ hunqueued hcall =>
    subst hcall
    have hc := congrArg TokenView.committed hview
    have hq := congrArg TokenView.queued hview
    rcases hcause with hstopped | hbare
    · have hend := heffect.fixed.terminal hstopped
      refine ⟨?_, fun ht => by simp [hend] at ht, fun ht => by simp [hend] at ht⟩
      rw [show e'.history.queued = e.history.queued from hq,
        show e'.history.committed = e.history.committed from hc]
      exact h.queued
    rcases heffect.loses with ⟨_, _, _, _, _, hcall, _⟩ | hmade
    · cases hcall
    · exact h.of_quiet hc hq (hunqueued.trans (by simp [unqueued, hbare])) hterminal hloses hmade
  | startRekey _ _ hunqueued hlock hview | commitRekey _ _ hunqueued hlock hview =>
    exact h.of_quiet (congrArg TokenView.committed hview :) (congrArg TokenView.queued hview :)
      (hunqueued.trans (tokens_of_lockRole hlock).2.symm) hterminal hloses
      (heffect.loses_unlocked hlock)

theorem Move.token_kept {used : List Call} {emitted taken : Option Wire}
    (hmove : Move e choice used e' made emitted taken)
    (hroles : RoleInv e (pre ++ (used ++ post)))
    (hguard : ∀ call, used = [call] → noTokenAfterLoss e choice call (pre ++ post))
    (h : TokenKept e (pre ++ (used ++ post))) :
    TokenKept e' (pre ++ (made ++ post)) := by
  have hsame : ∀ {made'}, e'.tokenView = e.tokenView → e'.terminal = e.terminal →
      weigh lockRole made' = 0 → made'.any losesToken = false →
      TokenKept e (pre ++ ([] ++ post)) → TokenKept e' (pre ++ (made' ++ post)) := by
    intro made' hview hterminal hlock hloses h
    have hnone := (tokens_of_unlocked hlock).2
    obtain ⟨h1, h2, h3⟩ := h
    have hc : e'.history.committed = e.history.committed :=
      congrArg TokenView.committed hview
    have hq : e'.history.queued = e.history.queued :=
      congrArg TokenView.queued hview
    constructor <;> simp only [hc, hq, hterminal, any_append, hloses,
      flatMap_append, hnone, Bool.false_or, nil_append]
    · exact h1
    · simpa using h2
    · simpa using h3
  cases hmove with
  | run heffect => exact heffect.token_kept hroles (hguard _ rfl) h
  | call hcallable =>
    have hneutral := callable_neutral hcallable
    have hlock := (neutral_roles hneutral).2.2.1
    refine hsame rfl rfl (by simp [hlock]) ?_ h
    simp only [any_cons, any_nil, Bool.or_false]
    cases ‹Call› <;> first | rfl | cases hneutral
  | _ => exact hsame rfl rfl rfl rfl h

end Loss

theorem Endpoint.Run.token_kept {config : Config} {endpoint : Endpoint}
    (h : Endpoint.Run config noTokenAfterLoss endpoint) :
    TokenKept endpoint.engine endpoint.frames :=
  Run.invariant (K := RoleInv) (fun _ hrun => hrun.roles)
    ⟨prefix_rfl, fun _ _ => rfl, fun _ _ => rfl⟩
    (fun hroles _ hkept hmove hguard => hmove.token_kept hroles hguard hkept) h

theorem unsealed_length_le (frames : List Call) :
    (frames.flatMap unsealed).length ≤ (frames.flatMap unqueued).length := by
  induction frames with
  | nil => exact Nat.le_refl _
  | cons call rest ih =>
    have hcall : call.unsealed.length ≤ call.unqueued.length := by
      cases call <;> simp only [unsealed, unqueued] <;>
        first | exact Nat.le_refl _ | (split <;> simp)
    simp only [flatMap_cons, length_append]
    omega

/-- Record-key tokens are sealed once each and in order, and the records enter
the wire queue in the order of their tokens.  A record that lost its token is
followed by no other, because the session fails. -/
theorem record_tokens_in_order {config : Config} {endpoint : Endpoint}
    (h : Endpoint.Run config noTokenAfterLoss endpoint) :
    endpoint.engine.history.sealed.Nodup ∧
    endpoint.engine.history.sealed.map RecordKeyToken.sequence =
      List.range endpoint.engine.history.sealed.length ∧
    endpoint.engine.history.sealed.length ≤ 2 ^ 64 ∧
    (endpoint.engine.history.sealed.map RecordKeyToken.epoch).Pairwise (· ≤ ·) ∧
    endpoint.engine.history.queued.map Prod.fst <+:
      endpoint.engine.history.sealed ∧
    endpoint.engine.history.queued <+: endpoint.engine.history.committed ∧
    (endpoint.engine.terminal = true ∨
      endpoint.frames.any losesToken = true ∨
      endpoint.engine.history.committed = endpoint.engine.history.queued ++
        endpoint.frames.flatMap unqueued) := by
  obtain ⟨hlog, hheld⟩ := h.tokens
  have hkept := h.token_kept
  generalize endpoint.engine = e at *
  generalize endpoint.frames = frames at *
  have hsealed : e.history.committed.map Prod.fst =
      e.history.sealed ++ frames.flatMap unsealed := hheld.sealed
  have hinit : e.history.sealed <+: e.history.committed.map Prod.fst :=
    ⟨_, hsealed.symm⟩
  have hlength : e.history.sealed.length ≤ e.history.committed.length := by
    simpa using hinit.length_le
  have hsequences : e.history.sealed.map RecordKeyToken.sequence =
      List.range e.history.sealed.length := by
    have hall : (e.history.committed.map Prod.fst).map RecordKeyToken.sequence =
        List.range e.history.committed.length := by
      simpa [map_map, Function.comp_def] using hlog.sequences
    have := hinit.map RecordKeyToken.sequence
    rw [hall, prefix_iff_eq_take, take_range, length_map,
      Nat.min_eq_left hlength] at this
    exact this
  have hqueued : e.history.queued.map Prod.fst <+: e.history.sealed := by
    refine prefix_of_prefix_length_le (hkept.queued.map _) hinit ?_
    have h1 := hheld.queued.length_le
    have h2 := congrArg List.length hsealed
    have h3 := unsealed_length_le frames
    simp only [length_append, length_map] at h1 h2 ⊢
    rw [tokenView_committed, tokenView_queued] at h1
    omega
  refine ⟨?_, hsequences, ?_, ?_, hqueued, hkept.queued, ?_⟩
  · exact Nodup.of_map RecordKeyToken.sequence
      (hsequences ▸ nodup_range)
  · exact Nat.le_trans hlength hlog.bounded
  · have hepochs : ((e.history.committed.map Prod.fst).map
        RecordKeyToken.epoch).Pairwise (· ≤ ·) := by
      simpa [map_map, Function.comp_def] using hlog.epochs
    exact hepochs.sublist (hinit.map _).sublist
  by_cases hterminal : e.terminal = true
  · exact .inl hterminal
  by_cases hlost : frames.any losesToken = true
  · exact .inr (.inl hlost)
  exact .inr (.inr (hkept.whole (eq_false_of_ne_true hterminal)
    (eq_false_of_ne_true hlost)))

/-- The startup of the sample session queues its first two records. -/
theorem record_tokens_in_order_startup :
    ∃ endpoint : Endpoint,
      endpoint.engine.history.sealed = [⟨0, 0⟩, ⟨0, 1⟩] ∧
      endpoint.engine.history.queued.map Prod.fst <+:
        endpoint.engine.history.sealed := by
  obtain ⟨endpoint, hrun, hseen⟩ := Endpoint.Run.exists_of_follow
    (sampleConfig .client) noTokenAfterLoss sampleStartup
    (fun endpoint => endpoint.engine.history.sealed) [⟨0, 0⟩, ⟨0, 1⟩]
    (by decide +kernel)
  exact ⟨endpoint, hseen, (record_tokens_in_order hrun).2.2.2.2.1⟩

/-- Two opens.  The first one takes token 2 and its seal fails.  Its lock is
free before the session has failed, so the second open is queued under token
3. -/
theorem lost_token_is_followed :
    ∃ endpoint, Endpoint.Run (sampleConfig .client) unrestricted endpoint ∧
      endpoint.engine.terminal = false ∧
      endpoint.engine.history.committed.map (·.1.sequence) = [0, 1, 2, 3] ∧
      endpoint.engine.history.queued.map (·.1.sequence) = [0, 1, 3] := by
  obtain ⟨endpoint, hrun, hseen⟩ := Endpoint.Run.exists_of_follow
    (sampleConfig .client) unrestricted
    (sampleStartup ++
      [.call (.asyncOpen sampleOpen), .call (.asyncOpen sampleOpen)] ++
      runs 2 5 ++ [.run 2 { accept := false }] ++ runs 3 7)
    (fun endpoint => (endpoint.engine.terminal,
      endpoint.engine.history.committed.map (·.1.sequence),
      endpoint.engine.history.queued.map (·.1.sequence)))
    (false, [0, 1, 2, 3], [0, 1, 3]) (by decide +kernel)
  simp only [Prod.mk.injEq] at hseen
  exact ⟨endpoint, hrun, hseen⟩

end Yume.Session
